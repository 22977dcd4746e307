import ShaderEffect.Proofs.Parsing.Statement

namespace ShaderEffect.Parser

variable {π : Type} [Inhabited π] {s : Surroundings} {r r' : Reader} {known : List Fact}
  {recurse : Recurse} {merge : Id} {c : Cases} {done : List Labels} {literals : List UInt32}
  {isDefault : Bool}

theorem peek_eq_ok {kind : Token.Kind} {found : Bool} (h : peek kind r = .ok (found, r')) :
    found = decide (r.next.kind = kind) ∧ r' = r := by
  simp only [peek, bind_eq_ok, get_eq_ok, pure_eq_ok] at h
  grind

theorem accept_eq_ok {kind : Token.Kind} {found : Bool} (h : accept kind r = .ok (found, r')) :
    found = decide (r.next.kind = kind) ∧ (found = false → r' = r) := by
  simp only [accept, bind_eq_ok, ite_eq_ok, pure_eq_ok] at h
  obtain ⟨seen, _, hseen, h⟩ := h
  obtain ⟨rfl, rfl⟩ := peek_eq_ok hseen
  grind

theorem expect_ne_next {kind : Token.Kind} {found : Bool} (hkind : r.next.kind ≠ kind)
    (h : expect kind r = .ok (found, r')) : found = false := by
  simp only [expect, bind_eq_ok, ite_eq_ok, pure_eq_ok] at h
  obtain ⟨seen, _, hseen, h⟩ := h
  obtain ⟨rfl, -⟩ := accept_eq_ok hseen
  simp only [hkind, decide_false, Bool.false_eq_true, false_and, false_or] at h
  obtain ⟨-, _, _, _, _, _, _, rfl, _⟩ := h
  rfl

theorem warning_next {location : Location} {code : Int} {message : String} {u : Unit}
    (h : warning location code message r = .ok (u, r')) : r'.next = r.next := by
  simp only [warning, modify_eq_ok] at h
  rw [← h]

/-- Whether a label is next. -/
def atLabel (r : Reader) : Bool :=
  r.next.kind = .caseWord || r.next.kind = .defaultWord

/-- Whether what was read of a switch statement stands for the labels of sections that have ended,
and those of one that has not. -/
structure Cases.Reflects (merge : Id) (done : List Labels) (literals : List UInt32)
    (isDefault : Bool) (c : Cases) : Prop where
  merge_eq : c.merge = merge
  settled : c.settled = (Labels.cases done).length
  labels : c.labels = Labels.cases done ++ literals.map fun value => (value, 0)
  nodup : (done.flatMap (·.literals) ++ literals).Nodup
  default : merge ≠ 0 → (∀ l ∈ done, l.ended ≠ 0 ∧ l.ended ≠ merge) →
    (done.filter (·.isDefault)).length ≤ 1
      ∧ if isDefault = true then c.defaultLabel = 0 ∧ done.filter (·.isDefault) = []
        else c.defaultLabel = (Labels.default? done).getD merge

theorem map_fst_cases (ls : List Labels) :
    (Labels.cases ls).map (·.1) = ls.flatMap (·.literals) := by
  induction ls with
  | nil => rfl
  | cons l ls ih =>
    simp only [Labels.cases, List.flatMap_cons, List.map_append, List.map_map] at ih ⊢
    rw [ih]
    congr 1
    exact List.map_id _

theorem Cases.Reflects.addCase (h : c.Reflects merge done literals isDefault) {value : UInt32}
    (hnew : c.labels.any (·.1 = value) = false) :
    { c with labels := c.labels ++ [(value, 0)] }.Reflects merge done (literals ++ [value])
      isDefault where
  merge_eq := h.merge_eq
  settled := h.settled
  labels := by simp only [h.labels, List.map_append, List.map_cons, List.map_nil, List.append_assoc]
  nodup := by
    have hnotin : value ∉ done.flatMap (·.literals) ++ literals := by
      rw [← map_fst_cases]
      intro hmem
      rw [h.labels, List.any_eq_false] at hnew
      rcases List.mem_append.mp hmem with hmem | hmem
      · obtain ⟨label, hlabel, rfl⟩ := List.mem_map.mp hmem
        exact hnew label (List.mem_append_left _ hlabel) (decide_eq_true rfl)
      · exact hnew (value, 0) (List.mem_append_right _ (List.mem_map_of_mem hmem))
          (decide_eq_true rfl)
    rw [← List.append_assoc, List.nodup_append]
    refine ⟨h.nodup, List.pairwise_singleton _ _, fun a ha b hb => ?_⟩
    rw [List.mem_singleton.mp hb]
    exact fun hab => hnotin (hab ▸ ha)
  default := h.default

theorem Cases.Reflects.addDefault (h : c.Reflects merge done literals isDefault)
    (hnew : c.defaultLabel = c.merge) :
    { c with defaultLabel := 0 }.Reflects merge done literals true where
  merge_eq := h.merge_eq
  settled := h.settled
  labels := h.labels
  nodup := h.nodup
  default hmerge hdone := by
    obtain ⟨hone, hlabel⟩ := h.default hmerge hdone
    refine ⟨hone, ?_⟩
    rw [if_pos rfl]
    refine ⟨rfl, ?_⟩
    rw [hnew, h.merge_eq] at hlabel
    cases isDefault with
    | true => exact absurd hlabel.1 hmerge
    | false =>
      -- A section that has the default label would have ended in the block behind the statement.
      by_contra hsome
      obtain ⟨l, hl⟩ := List.exists_mem_of_ne_nil _ hsome
      obtain ⟨hl, hdefault⟩ := List.mem_filter.mp hl
      have hfound : (done.find? (·.isDefault)).isSome := by
        rw [List.find?_isSome]
        exact ⟨l, hl, hdefault⟩
      obtain ⟨l', hl'⟩ := Option.isSome_iff_exists.mp hfound
      simp only [Bool.false_eq_true, if_false, Labels.default?, hl', Option.map_some,
        Option.getD_some] at hlabel
      exact (hdone l' (List.mem_of_find?_eq_some hl')).2 hlabel.symm

/-- A section that ends gives its labels the block in which it did. -/
theorem Cases.Reflects.settle (h : c.Reflects merge done literals isDefault) (ended : Id) :
    (c.settle ended).Reflects merge (done ++ [⟨literals, isDefault, ended⟩]) [] false where
  merge_eq := h.merge_eq
  settled := by
    simp only [Cases.settle, h.labels, Labels.cases, List.flatMap_append, List.flatMap_cons,
      List.flatMap_nil, List.append_nil, List.length_append, List.length_map]
  labels := by
    simp only [Cases.settle, h.labels, h.settled, List.take_left, List.drop_left,
      List.map_map, Labels.cases,
      List.flatMap_append, List.flatMap_cons, List.flatMap_nil, List.append_nil, List.map_nil]
    rfl
  nodup := by
    simpa only [List.flatMap_append, List.flatMap_cons, List.flatMap_nil,
      List.append_nil] using h.nodup
  default hmerge hdone := by
    obtain ⟨hone, hlabel⟩ := h.default hmerge fun l hl => hdone l (List.mem_append_left _ hl)
    simp only [Cases.settle, Bool.false_eq_true, if_false, Labels.default?, List.filter_append,
      List.length_append, List.find?_append, List.filter_cons, List.filter_nil,
      List.find?_singleton]
    cases isDefault with
    | true =>
      simp only [if_true] at hlabel
      have hnone : done.find? (·.isDefault) = none := by
        rw [List.find?_eq_none]
        exact fun l hl hdefault =>
          List.not_mem_nil (hlabel.2 ▸ List.mem_filter.mpr ⟨hl, hdefault⟩)
      simp [hlabel, hnone]
    | false =>
      simp only [Bool.false_eq_true, if_false, Labels.default?] at hlabel
      have hsettled : c.defaultLabel ≠ 0 := by
        rw [hlabel]
        cases hfound : done.find? (·.isDefault) with
        | none => exact hmerge
        | some l => exact (hdone l (List.mem_append_left _ (List.mem_of_find?_eq_some hfound))).1
      rw [if_neg hsettled, hlabel]
      simpa using hone

/-- What reading labels requested and found, in front of a section. -/
structure ReadsLabels (s : Surroundings) (known known' : List Fact) (merge : Id)
    (done : List Labels) (c : Cases) (es : List (Entry π)) (literals : List UInt32)
    (isDefault : Bool) : Prop where
  holds : (Shape.evaluations s).Holds known es known'
  reflects : c.Reflects merge done literals isDefault

theorem parseCaseValue_gives (hrec : recurse.ReadsStatements π) (c : Cases) :
    MayGive π s r known (parseCaseValue recurse c) fun c' _ => c'.valid = true →
      c.valid = true ∧ ∃ value, c.labels.any (·.1 = value) = false
        ∧ c' = { c with labels := c.labels ++ [(value, 0)] } := by
  refine .bind_option (hrec.sequence _ _ _) (fun _ => rfl) fun e _ _ _ _ => ?_
  simp only [Parsing.bind_read_iff, Parsing.ite_iff, Parsing.pure_iff, Results.none,
    implies_true, true_and]
  intro _
  have hdone {d : Bool} (hd : c.labels.any (·.1 = e.value.word) = d) :
      (c.valid && !d) = true → c.valid = true ∧ ∃ value, c.labels.any (·.1 = value) = false
        ∧ ({ c with labels := c.labels ++ [(e.value.word, 0)], valid := c.valid && !d } : Cases)
          = { c with labels := c.labels ++ [(value, 0)] } := by
    intro hvalid
    simp only [Bool.and_eq_true, Bool.not_eq_true'] at hvalid
    refine ⟨hvalid.1, e.value.word, hd.trans hvalid.2, ?_⟩
    simp only [hvalid, Bool.not_false, Bool.and_self]
  refine ⟨fun _ _ _ _ => Results.done (hdone rfl), fun _ => Results.done (hdone rfl)⟩

theorem addDefault_eq_ok {c' : Cases} (h : addDefault c r = .ok (c', r'))
    (hvalid : c'.valid = true) :
    c.valid = true ∧ c.defaultLabel = c.merge ∧ c' = { c with defaultLabel := 0 } := by
  obtain ⟨hduplicate, h⟩ | ⟨-, h⟩ := ite_eq_ok.mp h
  · obtain ⟨t, r₁, -, h⟩ := bind_eq_ok.mp h
    obtain ⟨_, r₂, -, h⟩ := bind_eq_ok.mp h
    cases (pure_eq_ok.mp h).1
    simp [hduplicate] at hvalid
  · cases (pure_eq_ok.mp h).1
    obtain ⟨hvalid, hmerge⟩ : c.valid = true ∧ c.defaultLabel = c.merge := by
      simpa using hvalid
    exact ⟨hvalid, hmerge, by simp [hvalid, hmerge]⟩

/-- Whether labels were read behind the state `c`, none only if `none` holds. A state that is not
valid stays so, and nothing is known of it. -/
def HasRead (s : Surroundings) (known : List Fact) (merge : Id) (done : List Labels) (c : Cases)
    (none : Prop) (es : List (Entry π)) (c' : Cases) : Prop :=
  ∃ known', c'.valid = true → c.valid = true ∧ ∃ literals isDefault,
    ReadsLabels s known known' merge done c' es literals isDefault
      ∧ (none ∨ literals ≠ [] ∨ isDefault = true)

theorem endLabel_round {c₁ : Cases} {r₁ r₂ : Reader} {es : List (Entry π)}
    {next : Cases ⊕ Option Cases} {Q : Option Cases → Prop} {none : Prop}
    (hnext : endLabel c₁ r₁ = .ok (next, r₂)) (hQ : Q .none)
    (hread : HasRead s known merge done c False es c₁) :
    next.elim (HasRead s known merge done c none es) Q := by
  simp only [endLabel, bind_eq_ok, ite_eq_ok, pure_eq_ok] at hnext
  obtain ⟨_, _, _, ⟨_, rfl, rfl⟩ | ⟨_, rfl, rfl⟩⟩ := hnext
  · obtain ⟨known', hread⟩ := hread
    refine ⟨known', fun hvalid => ?_⟩
    obtain ⟨hvalid, literals, isDefault, hlabels, hsome⟩ := hread hvalid
    exact ⟨hvalid, literals, isDefault, hlabels, .inr (hsome.resolve_left id)⟩
  · exact hQ

/-- Labels are read as long as there are any. -/
theorem parseLabels_parses (hrec : recurse.ReadsStatements π) (known : List Fact)
    (hc : c.valid = true → c.Reflects merge done [] false) :
    Parsing (parseLabels recurse c) s r fun (es : List (Entry π)) result r' =>
      ∀ c', result = some c' →
      atLabel r' = false ∧ HasRead s known merge done c (atLabel r = false) es c' := by
  -- After each round the labels so far were read, none only if the reader is still where it began.
  refine Parsing.loop (fun es c' r' => HasRead s known merge done c (r' = r) es c') ?_ ?_
  · refine ⟨known, fun hvalid => ⟨hvalid, [], false, ⟨?_, hc hvalid⟩, .inl rfl⟩⟩
    exact (Shape.evaluations s).nil known
  rintro es c₁ r₁ ⟨known₁, hinv⟩
  rw [Parsing.bind_read_iff]
  intro isCase r₂ hcase
  obtain ⟨rfl, hsame⟩ := accept_eq_ok hcase
  rw [Parsing.ite_iff]
  refine ⟨fun _ => ?_, fun hnot => ?_⟩
  · refine .bind_option_holds known₁ (parseCaseValue_gives hrec c₁)
      (fun _ _ c' hc' => by cases hc') fun c₂ es' known₂ r₃ hholds hc₂ => ?_
    rw [Parsing.read_iff]
    intro next r₄ hnext
    refine endLabel_round hnext (fun c' hc' => by cases hc') ⟨known₂, fun hvalid => ?_⟩
    obtain ⟨hvalid, value, hnew, rfl⟩ := hc₂ hvalid
    obtain ⟨hvalid, literals, isDefault, hlabels, -⟩ := hinv hvalid
    refine ⟨hvalid, literals ++ [value], isDefault, ⟨?_, hlabels.reflects.addCase hnew⟩,
      .inr (.inl ?_)⟩
    · rw [List.append_nil]
      exact (Shape.evaluations s).append hlabels.holds hholds
    · exact List.append_ne_nil_of_right_ne_nil _ (List.cons_ne_nil _ _)
  · obtain rfl : r₂ = r₁ := hsame (by simpa using hnot)
    rw [Parsing.bind_read_iff]
    intro isDefault r₃ hdefault
    obtain ⟨rfl, hsame⟩ := accept_eq_ok hdefault
    rw [Parsing.ite_iff]
    refine ⟨fun _ => ?_, fun hnot' => ?_⟩
    · simp only [Parsing.bind_read_iff, Parsing.read_iff]
      intro c₂ r₄ hadd next r₅ hnext
      refine endLabel_round hnext (fun c' hc' => by cases hc') ⟨known₁, fun hvalid => ?_⟩
      obtain ⟨hvalid, hnew, rfl⟩ := addDefault_eq_ok hadd hvalid
      obtain ⟨hvalid, literals, isDefault, hlabels, -⟩ := hinv hvalid
      refine ⟨hvalid, literals, true, ⟨?_, hlabels.reflects.addDefault hnew⟩,
        .inr (.inr rfl)⟩
      rw [List.append_nil]
      exact hlabels.holds
    · obtain rfl : r₃ = r₂ := hsame (by simpa using hnot')
      have hat : atLabel r₃ = false := by
        simp only [Bool.not_eq_true, decide_eq_false_iff_not] at hnot hnot'
        simp only [atLabel, hnot, hnot', decide_false, Bool.or_self]
      intro c' hc'
      obtain rfl := Option.some.inj hc'
      refine ⟨hat, known₁, fun hvalid => ?_⟩
      obtain ⟨hvalid, literals, isDefault, hlabels, hsome⟩ := hinv hvalid
      refine ⟨hvalid, literals, isDefault, ⟨?_, hlabels.reflects⟩,
        Or.imp_left (fun h : r₃ = r => h ▸ hat) hsome⟩
      rw [List.append_nil]
      exact hlabels.holds

/-- Where no label is next, none is read. -/
theorem parseLabels_skips (hat : atLabel r = false) :
    Parsing (parseLabels recurse c) s r fun (es : List (Entry π)) result r' =>
      es = [] ∧ result = some c ∧ r' = r := by
  simp only [atLabel, Bool.or_eq_false_iff, decide_eq_false_iff_not] at hat
  refine Parsing.loop (fun es c' r' => es = [] ∧ c' = c ∧ r' = r) ⟨rfl, rfl, rfl⟩ ?_
  rintro es c' r' ⟨rfl, rfl, rfl⟩
  rw [Parsing.bind_read_iff]
  intro isCase r₂ hcase
  obtain ⟨rfl, hsame⟩ := accept_eq_ok hcase
  rw [Parsing.ite_iff]
  refine ⟨fun h => absurd (of_decide_eq_true h) hat.1, fun hnot => ?_⟩
  obtain rfl : r₂ = r' := hsame (by simpa using hnot)
  rw [Parsing.bind_read_iff]
  intro isDefault r₃ hdefault
  obtain ⟨rfl, hsame⟩ := accept_eq_ok hdefault
  rw [Parsing.ite_iff]
  refine ⟨fun h => absurd (of_decide_eq_true h) hat.2, fun hnot' => ?_⟩
  obtain rfl : r₃ = r₂ := hsame (by simpa using hnot')
  exact ⟨rfl, rfl, rfl⟩

/-- What the sections of a switch statement that have ended requested. They stand for those that
follow put behind them. -/
structure Begun (s : Surroundings) (known known' : List Fact) (merge : Id) (done : List Labels)
    (es : List (Entry π)) (before : Sections π → Sections π) : Prop where
  entries (rest : Sections π) : (before rest).entries merge = es ++ rest.entries merge
  labels (rest : Sections π) : (before rest).labels = done ++ rest.labels
  all (rest : Sections π) : rest.All s.Allows → (before rest).All s.Allows
  jumps (rest : Sections π) : rest.Scoped s.breakTargets s.continueTargets →
    (before rest).Scoped s.breakTargets s.continueTargets
  grounded (rest : Sections π) : rest.Grounded known' → (before rest).Grounded known

theorem Begun.nil (s : Surroundings) (known : List Fact) (merge : Id) :
    Begun s known known merge [] ([] : List (Entry π)) id :=
  ⟨fun _ => rfl, fun _ => rfl, fun _ => id, fun _ => id, fun _ => id⟩

/-- What was requested of a section that has not ended. -/
structure Section (s : Surroundings) (known known' : List Fact) (es : List (Entry π))
    (values : Evaluation π) (body : Statement π) : Prop where
  entries : values.entries ++ body.entries = es
  allowed : s.Allows values
  values_grounded : values.Grounded known
  all : body.All s.Allows
  jumps : body.Scoped s.breakTargets s.continueTargets
  grounded : body.Grounded (values.extend known)
  extend : body.extend (values.extend known) = known'

/-- A section ends, and another begins. -/
theorem Begun.more {known₁ known₂ : List Fact} {es es' : List (Entry π)}
    {before : Sections π → Sections π}
    {values : Evaluation π} {body : Statement π} (h : Begun s known known₁ merge done es before)
    (hsection : Section s known₁ known₂ es' values body) (l : Labels) (next : Id) :
    Begun s known known₂ merge (done ++ [l])
      (es ++ es' ++ .quiet .isInBlock false :: .quiet .makeId next :: goOn next l.ended next)
      fun rest => before (.more l values body next rest) where
  entries rest := by
    simp only [h.entries, Sections.entries, ← hsection.entries, List.append_assoc,
      List.cons_append]
  labels rest := by
    simp only [h.labels, Sections.labels, List.append_assoc, List.cons_append, List.nil_append]
  all rest hrest :=
    h.all _ (by simpa only [Sections.All] using ⟨hsection.allowed, hsection.all, hrest⟩)
  jumps rest hrest := h.jumps _ (by simpa only [Sections.Scoped] using ⟨hsection.jumps, hrest⟩)
  grounded rest hrest := by
    refine h.grounded _ ?_
    simp only [Sections.Grounded]
    exact ⟨hsection.values_grounded, hsection.grounded, hsection.extend ▸ hrest⟩

/-- What was read of a switch statement so far. A section is only begun at a label, apart
from the first. -/
structure CasesRead (s : Surroundings) (known : List Fact) (merge : Id) (c : Cases)
    (es : List (Entry π)) (done : List Labels) (literals : List UInt32) (isDefault : Bool)
    (values : Evaluation π) (body : Statement π) (before : Sections π → Sections π) :
    Prop where
  begun : ∃ known₁ known₂ es₁ es₂, es₁ ++ es₂ = es
    ∧ Begun s known known₁ merge done es₁ before
    ∧ Section s known₁ known₂ es₂ values body
  reflects : c.Reflects merge done literals isDefault
  labelled : ∀ l ∈ done.tail, l.literals ≠ [] ∨ l.isDefault = true

/-- The sections of a switch statement that was read to its end. -/
structure CasesDone (s : Surroundings) (known : List Fact) (merge : Id) (c : Cases)
    (es : List (Entry π)) (sections : Sections π) : Prop where
  entries : sections.entries merge = es
  cases : c.labels = sections.cases
  proper : Labels.Proper merge c.defaultLabel sections.labels
  all : sections.All s.Allows
  jumps : sections.Scoped s.breakTargets s.continueTargets
  grounded : sections.Grounded known

/-- The end of a section. It is valid if the section was left before. -/
theorem endCase_parses (c : Cases) (isLast : Bool) :
    Parsing (endCase c isLast) s r fun (es : List (Entry π)) c' r' => c'.valid = true →
      c.valid = true ∧ r' = r
        ∧ ∃ ended next, c' = c.settle ended ∧ (isLast = true → next = c.merge)
        ∧ es = Entry.quiet .isInBlock false
          :: (if isLast = true then [] else [Entry.quiet .makeId next])
          ++ goOn next ended next := by
  unfold endCase
  refine .bind_quiet rfl fun fallsThrough => ?_
  cases fallsThrough with
  | true =>
    have hinvalid (c : Cases) : (c.valid && !true) ≠ true := by simp
    simp only [if_true, Parsing.bind_read_iff]
    intro _ _ _ _ _ _
    cases isLast with
    | true =>
      exact .bind_quiet rfl fun _ => .bind_quiet rfl fun _ hvalid => absurd hvalid (hinvalid c)
    | false =>
      exact .bind_quiet rfl fun _ => .bind_quiet rfl fun _ => .bind_quiet rfl fun _ hvalid =>
        absurd hvalid (hinvalid c)
  | false =>
    have hsettle (ended : Id) (hvalid : c.valid = true) :
        { c.settle ended with valid := c.valid && !false } = c.settle ended := by
      simp only [Cases.settle, hvalid, Bool.not_false, Bool.and_self]
    cases isLast with
    | true =>
      refine .bind_quiet rfl fun ended => .bind_quiet rfl fun _ hvalid => ?_
      have hvalid : c.valid = true := (Bool.and_eq_true_iff.mp hvalid).1
      exact ⟨hvalid, rfl, ended, c.merge, hsettle ended hvalid, fun _ => rfl, rfl⟩
    | false =>
      refine .bind_quiet rfl
        fun next => .bind_quiet rfl fun ended => .bind_quiet rfl fun _ hvalid => ?_
      have hvalid : c.valid = true := (Bool.and_eq_true_iff.mp hvalid).1
      exact ⟨hvalid, rfl, ended, next, hsettle ended hvalid, nofun, rfl⟩

/-- What is known in front of a round: the first statement of a section is next, or another. -/
def BeforeRound (s : Surroundings) (known : List Fact) (merge : Id) (es : List (Entry π))
    (c : Cases) (r : Reader) : Prop :=
  c.valid = true → ∃ done literals isDefault values body before,
    CasesRead s known merge c es done literals isDefault values body before
      ∧ (literals = [] ∧ isDefault = false
        ∧ values = .nothing ∧ body = .nothing ∧ (done = [] ∨ atLabel r = true)
        ∨ atLabel r = false ∧ (done = [] ∨ literals ≠ [] ∨ isDefault = true))

/-- What is known behind the labels of a round. -/
def BehindLabels (s : Surroundings) (known : List Fact) (merge : Id) (es : List (Entry π))
    (c : Cases) : Prop :=
  ∃ done literals isDefault values body before,
    CasesRead s known merge c es done literals isDefault values body before
      ∧ (done = [] ∨ literals ≠ [] ∨ isDefault = true)

/-- What is known behind the last round. -/
def BehindCases (s : Surroundings) (known : List Fact) (merge : Id) (es : List (Entry π))
    (r : Reader) (result : Option Cases) : Prop :=
  ∀ c, result = some c → c.valid = true → r.next.kind = .eof
    ∨ ∃ sections, CasesDone s known merge c es sections

section Rounds

variable {es : List (Entry π)} {values : Evaluation π} {body : Statement π}
  {before : Sections π → Sections π}

omit [Inhabited π] in
theorem labelled_concat {l : Labels}
    (h : ∀ l ∈ done.tail, l.literals ≠ [] ∨ l.isDefault = true)
    (hl : done = [] ∨ l.literals ≠ [] ∨ l.isDefault = true) :
    ∀ l' ∈ (done ++ [l]).tail, l'.literals ≠ [] ∨ l'.isDefault = true := by
  cases done with
  | nil => exact fun l' hl' => absurd hl' List.not_mem_nil
  | cons first rest =>
    intro l' hl'
    rcases List.mem_append.mp hl' with hl' | hl'
    · exact h l' hl'
    · obtain rfl := List.mem_singleton.mp hl'
      exact hl.resolve_left (List.cons_ne_nil _ _)

theorem CasesRead.finish
    (h : CasesRead s known merge c es done literals isDefault values body before)
    (hlabelled : done = [] ∨ literals ≠ [] ∨ isDefault = true) (ended : Id) :
    CasesDone s known merge (c.settle ended) (es ++ .quiet .isInBlock false
      :: goOn merge ended merge) (before (.last ⟨literals, isDefault, ended⟩ values body)) := by
  obtain ⟨known₁, known₂, es₁, es₂, rfl, hbegun, hsection⟩ := h.begun
  have hreflects := h.reflects.settle ended
  have hlabels : (before (.last ⟨literals, isDefault, ended⟩ values body)).labels
      = done ++ [⟨literals, isDefault, ended⟩] := hbegun.labels _
  refine ⟨?_, ?_, ⟨?_, ?_, ?_⟩, hbegun.all _ ?_, hbegun.jumps _ ?_, hbegun.grounded _ ?_⟩
  · simp only [hbegun.entries, Sections.entries, ← hsection.entries, List.append_assoc]
  · simpa only [Sections.cases, hlabels, List.map_nil, List.append_nil] using hreflects.labels
  · simpa only [hlabels, List.append_nil] using hreflects.nodup
  · rw [hlabels]
    exact labelled_concat h.labelled hlabelled
  · rw [hlabels]
    simpa only [Bool.false_eq_true, if_false] using hreflects.default
  · simpa only [Sections.All] using ⟨hsection.allowed, hsection.all⟩
  · simpa only [Sections.Scoped] using hsection.jumps
  · simpa only [Sections.Grounded] using ⟨hsection.values_grounded, hsection.grounded⟩

theorem Section.nil (s : Surroundings) (known : List Fact) :
    Section s known known ([] : List (Entry π)) .nothing .nothing where
  entries := by simp only [Evaluation.entries, Statement.entries, List.append_nil]
  allowed _ := rfl
  values_grounded := trivial
  all := by simp only [Statement.All]
  jumps := by simp only [Statement.Scoped]
  grounded := by simp only [Statement.Grounded]
  extend := by simp only [Evaluation.extend, Statement.extend]

theorem CasesRead.more (h : CasesRead s known merge c es done literals isDefault values body before)
    (hlabelled : done = [] ∨ literals ≠ [] ∨ isDefault = true) (ended next : Id) :
    ∃ before', CasesRead s known merge (c.settle ended)
      (es ++ .quiet .isInBlock false :: .quiet .makeId next :: goOn next ended next)
      (done ++ [⟨literals, isDefault, ended⟩]) [] false .nothing .nothing before' := by
  obtain ⟨known₁, known₂, es₁, es₂, rfl, hbegun, hsection⟩ := h.begun
  refine ⟨_, ⟨known₂, known₂, _, [], List.append_nil _, hbegun.more hsection _ next,
    Section.nil s known₂⟩, h.reflects.settle ended, labelled_concat h.labelled hlabelled⟩

/-- Another statement of a section. -/
theorem BehindLabels.statement (h : BehindLabels s known merge es c) :
    ∃ known', ∀ es' known'', (Shape.statements s).Holds known' es' known'' →
      BehindLabels s known merge (es ++ es') c := by
  obtain ⟨done, literals, isDefault, values, body, before, hread, hlabelled⟩ := h
  obtain ⟨known₁, known₂, es₁, es₂, rfl, hbegun, hsection⟩ := hread.begun
  refine ⟨known₂, ?_⟩
  rintro _ _ ⟨t, rfl, hall, hscoped, hgrounded, rfl⟩
  have hmore :
      Section s known₁ (t.extend known₂) (es₂ ++ t.entries) values (.andThen body t) := by
    refine ⟨?_, hsection.allowed, hsection.values_grounded, ?_, ?_, ?_, ?_⟩
    · simp only [Statement.entries, ← hsection.entries, List.append_assoc]
    · simpa only [Statement.All] using ⟨hsection.all, hall⟩
    · simpa only [Statement.Scoped] using ⟨hsection.jumps, hscoped⟩
    · simpa only [Statement.Grounded] using ⟨hsection.grounded, hsection.extend ▸ hgrounded⟩
    · simp only [Statement.extend, hsection.extend]
  exact ⟨done, literals, isDefault, values, .andThen body t, before,
    ⟨⟨_, _, _, _, (List.append_assoc _ _ _).symm, hbegun, hmore⟩, hread.reflects,
      hread.labelled⟩, hlabelled⟩

/-- A section that goes on, or has ended because a label is next. -/
theorem parseSection_goesOn (hc : c.valid = true → BehindLabels s known merge es c) :
    Parsing (do
      if (← peek .caseWord) || (← peek .defaultWord) then return .inl (← endCase c false)
      return .inl c : ParseM (Cases ⊕ Option Cases)) s r fun (es' : List (Entry π)) next r' =>
      next.elim (fun c' => BeforeRound s known merge (es ++ es') c' r')
        (BehindCases s known merge (es ++ es') r') := by
  simp only [Parsing.bind_read_iff]
  intro atCase _ hcase atDefault _ hdefault
  obtain ⟨rfl, rfl⟩ := peek_eq_ok hcase
  obtain ⟨rfl, rfl⟩ := peek_eq_ok hdefault
  rw [Parsing.ite_iff]
  refine ⟨fun hat => ?_, fun hat => ?_⟩
  · refine .bind (endCase_parses c false) fun es' c' r' hend hvalid => ?_
    obtain ⟨hvalid, rfl, ended, next, rfl, -, rfl⟩ := hend hvalid
    obtain ⟨done, literals, isDefault, values, body, before, hread, hlabelled⟩ := hc hvalid
    obtain ⟨before', hmore⟩ := hread.more hlabelled ended next
    rw [List.append_nil]
    exact ⟨_, _, _, _, _, before', hmore, .inl ⟨rfl, rfl, rfl, rfl, .inr hat⟩⟩
  · intro hvalid
    obtain ⟨done, literals, isDefault, values, body, before, hread, hlabelled⟩ := hc hvalid
    rw [List.append_nil]
    exact ⟨_, _, _, _, _, before, hread, .inr ⟨Bool.eq_false_iff.mpr hat, hlabelled⟩⟩

/-- What follows the labels of a round keeps what is known. -/
theorem parseSection_parses (hrec : recurse.ReadsStatements π)
    (hc : c.valid = true → BehindLabels s known merge es c) :
    Parsing (parseSection recurse c) s r fun (es' : List (Entry π)) next r' =>
      next.elim (fun c' => BeforeRound s known merge (es ++ es') c' r')
        (BehindCases s known merge (es ++ es') r') := by
  unfold parseSection
  rw [Parsing.bind_read_iff]
  intro atEnd r₁ _
  rw [Parsing.ite_iff]
  refine ⟨fun _ => ?_, fun _ => ?_⟩
  · refine .bind (endCase_parses c true) fun es' c' r' hend => ?_
    intro c'' hc'' hvalid
    obtain rfl := Option.some.inj hc''
    obtain ⟨hvalid, rfl, ended, next, rfl, hnext, rfl⟩ := hend hvalid
    obtain ⟨done, literals, isDefault, values, body, before, hread, hlabelled⟩ := hc hvalid
    rw [hnext rfl, hread.reflects.merge_eq, List.append_nil]
    exact .inr ⟨_, hread.finish hlabelled ended⟩
  · have hstatement : ∃ known',
        ∀ es' known'', (Shape.statements s).Holds known' es' known'' →
        c.valid = true → BehindLabels s known merge (es ++ es') c := by
      cases hvalid : c.valid with
      | false => exact ⟨[], fun _ _ _ h => by cases h⟩
      | true =>
        obtain ⟨known', h⟩ := (hc hvalid).statement
        exact ⟨known', fun es' known'' hholds _ => h es' known'' hholds⟩
    obtain ⟨known', hstatement⟩ := hstatement
    refine .bind_does_holds known' (hrec.statement true s _ known') (fun _ _ c' hc' => by cases hc')
      fun es' known'' r' hholds => ?_
    refine (parseSection_goesOn (hstatement es' known'' hholds)).mono fun es'' next r'' h => ?_
    rwa [List.append_assoc] at h

/-- A section of which only the labels were read. -/
theorem Section.ofLabels {known' : List Fact} (h : (Shape.evaluations s).Holds known es known') :
    ∃ values, Section s known known' es values .nothing := by
  obtain ⟨t, rfl, hallowed, hgrounded, rfl⟩ := h
  refine ⟨t, ?_, hallowed, hgrounded, ?_, ?_, ?_, ?_⟩
  · simp only [Statement.entries, List.append_nil]
  · simp only [Statement.All]
  · simp only [Statement.Scoped]
  · simp only [Statement.Grounded]
  · simp only [Statement.extend]

/-- The labels of a round belong to the section that is read. -/
theorem parseLabels_behind (hrec : recurse.ReadsStatements π)
    (hc : BeforeRound s known merge es c r) :
    Parsing (parseLabels recurse c) s r fun (es' : List (Entry π)) result _ =>
      ∀ c', result = some c' →
      c'.valid = true → BehindLabels s known merge (es ++ es') c' := by
  cases hvalid : c.valid with
  | false =>
    have hnone : c.valid = true → c.Reflects merge [] [] false := by simp [hvalid]
    refine (parseLabels_parses hrec known hnone).mono fun es' result _ h => ?_
    intro c' hc' hvalid'
    obtain ⟨-, known', hread⟩ := h c' hc'
    obtain ⟨h, -⟩ := hread hvalid'
    rw [hvalid] at h
    cases h
  | true =>
    obtain ⟨done, literals, isDefault, values, body, before, hread, h⟩ := hc hvalid
    obtain ⟨rfl, rfl, rfl, rfl, hdone⟩ | ⟨hat, hlabelled⟩ := h
    · obtain ⟨known₁, known₂, es₁, es₂, rfl, hbegun, hsection⟩ := hread.begun
      refine (parseLabels_parses hrec known₁ fun _ => hread.reflects).mono
        fun es' result _ h => ?_
      intro c' hc' hvalid'
      obtain ⟨-, known', hlabels⟩ := h c' hc'
      obtain ⟨-, literals, isDefault, hlabels, hsome⟩ := hlabels hvalid'
      have hlabelled : done = [] ∨ literals ≠ [] ∨ isDefault = true := by
        rcases hdone with hdone | hat
        · exact .inl hdone
        · exact .inr (hsome.resolve_left (by rw [hat]; decide))
      obtain rfl : [] = es₂ := by
        simpa only [Evaluation.entries, Statement.entries, List.append_nil] using hsection.entries
      obtain ⟨values, hvalues⟩ := Section.ofLabels hlabels.holds
      rw [List.append_nil]
      exact ⟨done, literals, isDefault, values, .nothing, before,
        ⟨⟨_, _, _, _, rfl, hbegun, hvalues⟩, hlabels.reflects, hread.labelled⟩, hlabelled⟩
    · refine (parseLabels_skips hat).mono ?_
      rintro _ _ _ ⟨rfl, rfl, -⟩ c' hc' _
      obtain rfl := Option.some.inj hc'
      rw [List.append_nil]
      exact ⟨done, literals, isDefault, values, body, before, hread, hlabelled⟩

end Rounds

/-- The cases of a switch statement are read to its end, unless the source ends. -/
theorem parseCases_parses (hrec : recurse.ReadsStatements π) (known : List Fact) (merge : Id) :
    Parsing (parseCases recurse { merge, defaultLabel := merge }) s r
      fun (es : List (Entry π)) result r' =>
      BehindCases s known merge es r' result := by
  refine Parsing.loop (BeforeRound s known merge) ?_ ?_
  · intro _
    refine ⟨[], [], false, .nothing, .nothing, id,
      ⟨⟨known, known, [], [], rfl, Begun.nil s known merge, Section.nil s known⟩,
        ⟨rfl, rfl, rfl, List.nodup_nil, fun _ _ => ⟨Nat.zero_le _, rfl⟩⟩, nofun⟩, ?_⟩
    exact .inl ⟨rfl, rfl, rfl, rfl, .inl rfl⟩
  intro es c r hc
  rw [Parsing.bind_read_iff]
  intro atEnd _ hpeek
  obtain ⟨rfl, rfl⟩ := peek_eq_ok hpeek
  rw [Parsing.ite_iff]
  refine ⟨fun hend => ?_, fun _ => ?_⟩
  · exact fun c' _ _ => .inl (of_decide_eq_true hend)
  · refine .bind (parseLabels_behind hrec hc) fun es' result r' hread => ?_
    cases result with
    | none => exact fun c' hc' => by cases hc'
    | some c' =>
      refine (parseSection_parses hrec (hread c' rfl)).mono fun es'' next r'' h => ?_
      rwa [List.append_assoc] at h

theorem failAfter_eq_ok {kind : Token.Kind} {ok : Bool} (h : failAfter kind r = .ok (ok, r')) :
    ok = false := by
  simp only [failAfter, bind_eq_ok, pure_eq_ok] at h
  obtain ⟨_, _, _, rfl, _⟩ := h
  rfl

/-- What the body of a switch statement requests: the cases that were read, and what generates the
statement. -/
def IsSwitchBody (s : Surroundings) (known : List Fact) (d : Dispatch π) (es : List (Entry π))
    (sections : Sections π) : Prop :=
  Labels.Proper d.merge d.defaultLabel sections.labels ∧ sections.All s.Allows
    ∧ sections.Scoped s.breakTargets s.continueTargets ∧ sections.Grounded known
    ∧ es = .quiet .makeId d.first :: .quiet (.enterBlock d.first) () :: sections.entries d.merge
      ++ [⟨.emitSwitch d.location d.selector d.selectorEnd d.defaultLabel sections.cases d.hint,
        (), d.note⟩]

theorem parseSwitchBody_parses (hrec : recurse.ReadsStatements π) (location : Location)
    (selector selectorEnd merge : Id) (hint : ControlHint) (known : List Fact) :
    Parsing (parseSwitchBody recurse location selector selectorEnd merge hint) s r
      fun (es : List (Entry π)) ok _ => ok = true → ∃ first defaultLabel note sections,
        IsSwitchBody s known ⟨merge, selector, selectorEnd, first, defaultLabel, location, hint,
          note⟩ es sections := by
  unfold parseSwitchBody
  refine .bind_quiet rfl fun first => .bind_quiet rfl fun _ => ?_
  refine .bind (parseCases_parses hrec known merge) fun es result r' hcases => ?_
  cases result with
  | none =>
    rw [Parsing.read_iff]
    intro ok _ hok htrue
    rw [failAfter_eq_ok hok] at htrue
    cases htrue
  | some c =>
    have hend (r₁ : Reader) (hnext : r₁.next = r'.next) : Parsing (do
        emit (.emitSwitch location selector selectorEnd c.defaultLabel c.labels hint)
        return (← expect .braceClose) && c.valid : ParseM Bool) s r₁
        fun (es' : List (Entry π)) ok _ =>
        ok = true → ∃ first' defaultLabel note sections,
          IsSwitchBody s known ⟨merge, selector, selectorEnd, first', defaultLabel, location,
            hint, note⟩ (.quiet .makeId first :: .quiet (.enterBlock first) () :: (es ++ es'))
            sections := by
      refine .bind_emit fun _ note => ?_
      rw [Parsing.bind_read_iff]
      intro found r₂ hexpect hok
      obtain ⟨rfl, hvalid⟩ := Bool.and_eq_true_iff.mp hok
      rcases hcases c rfl hvalid with heof | ⟨sections, hdone⟩
      · have hkind : r₁.next.kind ≠ .braceClose := by rw [hnext, heof]; decide
        cases expect_ne_next hkind hexpect
      · refine ⟨first, c.defaultLabel, note, sections, hdone.proper, hdone.all, hdone.jumps,
          hdone.grounded, ?_⟩
        rw [hdone.entries, ← hdone.cases]
        rfl
    simp only [Parsing.ite_iff, Parsing.bind_read_iff]
    refine ⟨fun _ _ r₁ hwarn => hend r₁ (warning_next hwarn), fun _ => hend r' rfl⟩

theorem parseSwitch_results (hrec : recurse.ReadsStatements π) (location : Location)
    (hint : ControlHint) :
    Parsing (parseSwitch recurse location hint) s r fun (es : List (Entry π)) ok _ =>
      Results (.statements s) known (statementStart ++ es) (whether ok) fun _ _ => True := by
  unfold parseSwitch
  refine .bind_quiet rfl fun merge => ?_
  refine .bind_option_holds known (parseInParentheses_gives hrec.toReadsExpressions)
    (fun _ _ => Results.none) fun e es known₁ _ hfirst he => ?_
  refine .bind_option_holds known₁ (loadScalar_gives he rfl _) (fun _ _ => Results.none)
    fun selector es' known₂ _ hsecond hselector => ?_
  obtain ⟨test, hentries, htest, hgrounded, rfl⟩ := (Shape.evaluations s).append hfirst hsecond
  refine .bind_quiet rfl fun selectorEnd => ?_
  simp only [Parsing.bind_read_iff, Parsing.ite_iff, Parsing.pure_iff, Parsing.withReader_iff]
  refine fun _ _ _ => ⟨fun _ => Results.none, fun _ => ?_⟩
  refine (parseSwitchBody_parses hrec location selector selectorEnd merge hint
    (test.extend known)).mono fun es'' ok _ hbody => ?_
  intro u hok
  obtain ⟨first, defaultLabel, note, sections, hproper, hall, hscoped, hsections, rfl⟩ :=
    hbody (whether_eq_some.mp hok)
  let d : Dispatch π := { merge, selector, selectorEnd, first, defaultLabel, location, hint, note }
  refine statement_results (.switch d test sections) ?_ ?_ ?_ ?_ u hok
  · simp only [Statement.entries, hentries, List.append_assoc, List.cons_append,
      List.nil_append, d]
  · simpa only [Statement.All] using ⟨htest, hproper, hall⟩
  · simpa only [Statement.Scoped] using hscoped
  · simpa only [Statement.Grounded] using ⟨hgrounded, hselector, hsections⟩

end ShaderEffect.Parser

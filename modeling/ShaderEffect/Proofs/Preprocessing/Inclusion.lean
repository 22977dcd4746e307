import ShaderEffect.Proofs.Preprocessing.Parts

/-!
What an included file does to the groups of the file that includes it.

Groups are kept on one stack, in which each has the level of the input that its directive was read
from. A file can close groups of the files around it, but it cannot open any: when its level is
left, what is still open in it is reported and dropped.
-/
namespace ShaderEffect.Preprocessor

/-- The message about a group that is open at the end of its input. -/
def Group.unterminated (g : Group) : Diagnostic :=
  { severity := .error, stage := .preprocessor, location := g.directive.location,
    message := "unterminated #if" }

/-- The innermost groups, as far as they were opened at a level or above it. -/
def inner (level : Nat) (p : Preprocessor) : List Group :=
  p.groups.takeWhile (·.level ≥ level)

/-- The groups around those that were opened at a level or above it. -/
def outer (level : Nat) (p : Preprocessor) : List Group :=
  p.groups.dropWhile (·.level ≥ level)

variable {level fuel : Nat} {p p₁ p' : Preprocessor}

theorem inner_append_outer (level : Nat) (p : Preprocessor) :
    p.inner level ++ p.outer level = p.groups :=
  List.takeWhile_append_dropWhile

theorem outer_suffix (level : Nat) (p : Preprocessor) : p.outer level <:+ p.groups :=
  List.dropWhile_suffix _

/-- What is dropped from a list in front does not come back behind its first elements. -/
theorem dropWhile_suffix_dropWhile {α : Type} {l l' : List α} (q : α → Bool) (h : l' <:+ l) :
    l'.dropWhile q <:+ l.dropWhile q := by
  obtain ⟨dropped, rfl⟩ := h
  induction dropped with
  | nil => exact List.suffix_rfl
  | cons a dropped ih =>
    rw [List.cons_append, List.dropWhile_cons]
    split
    · exact ih
    · exact (List.dropWhile_suffix _).trans
        ((List.suffix_append dropped _).trans (List.suffix_cons a _))

theorem outer_mono (h : p'.groups <:+ p.groups) : p'.outer level <:+ p.outer level :=
  dropWhile_suffix_dropWhile _ h

/-- Some of the innermost groups are closed, with a message about each, and where a level is left,
all that were opened in it are. -/
structure Sheds (level : Nat) (p p' : Preprocessor) : Prop where
  diagnostics : p.diagnostics <+: p'.diagnostics
  groups : ∃ dropped,
    p.groups = dropped ++ p'.groups ∧ ∀ g ∈ dropped, g.unterminated ∈ p'.diagnostics
  height : p.nextLevel ≤ p.stack.length → p'.nextLevel ≤ p'.stack.length
  left : p.nextLevel ≤ p.stack.length → level ≤ p.nextLevel →
    p'.nextLevel < level → p'.groups <:+ p.outer level

namespace Sheds

theorem suffix (h : Sheds level p p') : p'.groups <:+ p.groups :=
  let ⟨dropped, hdropped, _⟩ := h.groups
  ⟨dropped, hdropped.symm⟩

/-- Where neither groups nor levels change, no level is left. -/
theorem of_eq (hdiagnostics : p.diagnostics <+: p'.diagnostics) (hgroups : p'.groups = p.groups)
    (hheight : p.nextLevel ≤ p.stack.length → p'.nextLevel ≤ p'.stack.length)
    (hlevel : p.nextLevel ≤ p.stack.length → p.nextLevel ≤ p'.nextLevel) :
    Sheds level p p' where
  diagnostics := hdiagnostics
  groups := ⟨[], hgroups.symm, List.forall_mem_nil _⟩
  height := hheight
  left h hin hout := absurd (hin.trans (hlevel h)) (Nat.not_le.mpr hout)

theorem trans (h : Sheds level p p₁) (h' : Sheds level p₁ p') : Sheds level p p' where
  diagnostics := h.diagnostics.trans h'.diagnostics
  groups := by
    obtain ⟨dropped, hdropped, hreported⟩ := h.groups
    obtain ⟨more, hmore, hreported'⟩ := h'.groups
    refine ⟨dropped ++ more, by rw [hdropped, hmore, List.append_assoc], fun g hg => ?_⟩
    obtain hg | hg := List.mem_append.mp hg
    · exact h'.diagnostics.subset (hreported g hg)
    · exact hreported' g hg
  height hheight := h'.height (h.height hheight)
  left hheight hin hout := by
    by_cases hbetween : p₁.nextLevel < level
    · exact h'.suffix.trans (h.left hheight hin hbetween)
    · exact (h'.left (h.height hheight) (Nat.not_lt.mp hbetween) hout).trans (outer_mono h.suffix)

instance : IsPreorder Preprocessor (Sheds level) where
  refl _ := .of_eq List.prefix_rfl rfl id fun _ => Nat.le_refl _
  trans _ _ _ := trans

/-- What was still open in a level that is left was reported. -/
theorem reported (h : Sheds level p p') (hheight : p.nextLevel ≤ p.stack.length)
    (hin : level ≤ p.nextLevel)
    (hout : p'.nextLevel < level) : ∀ g ∈ p.inner level, g.unterminated ∈ p'.diagnostics := by
  obtain ⟨dropped, hdropped, hreported⟩ := h.groups
  obtain ⟨more, hmore⟩ := h.left hheight hin hout
  have hinner : p.inner level ++ more = dropped := by
    refine List.append_cancel_right (?_ : _ ++ p'.groups = _)
    rw [← hdropped, List.append_assoc, hmore, inner_append_outer]
  exact fun g hg => hreported g (hinner ▸ List.mem_append_left _ hg)

end Sheds

theorem forM_unterminated {groups : List Group} {u : PUnit}
    (h : (groups.forM fun g => error g.directive.location "unterminated #if") p = .ok (u, p')) :
    ∃ success,
      p' = { p with diagnostics := p.diagnostics ++ groups.map Group.unterminated, success } := by
  induction groups generalizing p with
  | nil =>
    obtain ⟨-, rfl⟩ := pure_eq_ok.mp h
    exact ⟨p.success, by rw [List.map_nil, List.append_nil]⟩
  | cons g rest ih =>
    obtain ⟨_, p₁, hreport, hrest⟩ := bind_eq_ok.mp h
    obtain rfl := modify_eq_ok.mp hreport
    obtain ⟨success, rfl⟩ := ih hrest
    exact ⟨success, by simp [Group.unterminated]⟩

/-- Closing the groups of a level takes the inner ones off and reports them. -/
theorem closeGroups_eq_ok {u : Unit} (h : closeGroups level p = .ok (u, p')) :
    ∃ success, p' = { p with
      groups := p.outer level,
      diagnostics := p.diagnostics ++ (p.inner level).map Group.unterminated, success } := by
  obtain ⟨_, _, hget, h⟩ := bind_eq_ok.mp h
  obtain ⟨rfl, rfl⟩ := get_eq_ok.mp hget
  obtain ⟨_, p₁, hreports, hdrop⟩ := bind_eq_ok.mp h
  obtain rfl := modify_eq_ok.mp hdrop
  obtain ⟨success, rfl⟩ := forM_unterminated hreports
  exact ⟨success, rfl⟩

/-- The groups of the level that is read next are closed, and the level may be left then. -/
theorem sheds_of_closeGroups {u : Unit} (h : closeGroups p.nextLevel p = .ok (u, p₁))
    (hgroups : p'.groups = p₁.groups) (hdiagnostics : p'.diagnostics = p₁.diagnostics)
    (hheight : p.nextLevel ≤ p.stack.length → p'.nextLevel ≤ p'.stack.length)
    (hlevel : p.nextLevel ≤ p'.nextLevel + 1) :
    Sheds level p p' := by
  obtain ⟨success, rfl⟩ := closeGroups_eq_ok h
  refine ⟨hdiagnostics ▸ List.prefix_append _ _, ⟨p.inner p.nextLevel, ?_, fun g hg => ?_⟩,
    hheight, fun _ hin hout => ?_⟩
  · rw [hgroups, inner_append_outer]
  · exact hdiagnostics ▸ List.mem_append_right _ (List.mem_map_of_mem hg)
  · obtain rfl : level = p.nextLevel := by omega
    exact hgroups ▸ List.suffix_rfl

/-- The question whether a level is finished closes its groups, if it is. -/
theorem Finish.sheds {b : Bool} (h : Finish p.nextLevel p b p₁) : Sheds level p p₁ := by
  cases h with
  | goesOn => exact refl_of (Sheds level) p
  | reports _ hclose =>
    obtain ⟨success, rfl⟩ := closeGroups_eq_ok hclose
    exact sheds_of_closeGroups hclose rfl rfl (fun h => by simpa [withInput] using h)
      (Nat.le_succ _)
  | ends _ hclose =>
    obtain ⟨success, rfl⟩ := closeGroups_eq_ok hclose
    exact sheds_of_closeGroups hclose rfl rfl id (Nat.le_succ _)

theorem popFinished_sheds {more : Bool} (n : Nat) (hlevel : p.nextLevel = n)
    (h : popFinished n p = .ok (more, p')) :
    Sheds level p p' := by
  induction n generalizing p with
  | zero =>
    obtain ⟨finished, p₁, hfinish, h⟩ := bind_eq_ok.mp h
    cases finished with
    | false => exact (pure_eq_ok.mp h).2 ▸ (hlevel ▸ isFinished_eq_ok.mp hfinish).sheds
    | true =>
      obtain ⟨_, _, hempty, h⟩ := bind_eq_ok.mp h
      obtain rfl := modify_eq_ok.mp hempty
      obtain ⟨-, rfl⟩ := pure_eq_ok.mp h
      cases isFinished_eq_ok.mp hfinish with
      | ends _ hclose =>
        rw [← hlevel] at hclose
        obtain ⟨success, rfl⟩ := closeGroups_eq_ok hclose
        exact sheds_of_closeGroups hclose rfl rfl (fun _ => hlevel.le) (Nat.le_succ _)
  | succ below ih =>
    obtain ⟨finished, p₁, hfinish, h⟩ := bind_eq_ok.mp h
    cases finished with
    | false => exact (pure_eq_ok.mp h).2 ▸ (hlevel ▸ isFinished_eq_ok.mp hfinish).sheds
    | true =>
      obtain ⟨_, _, hsink, h⟩ := bind_eq_ok.mp h
      obtain rfl := modify_eq_ok.mp hsink
      cases isFinished_eq_ok.mp hfinish with
      | ends _ hclose =>
        rw [← hlevel] at hclose
        have hleave : Sheds level p { p₁ with nextLevel := below } := by
          refine sheds_of_closeGroups hclose rfl rfl (fun hheight => ?_) hlevel.le
          obtain ⟨success, rfl⟩ := closeGroups_eq_ok hclose
          exact (Nat.le_succ below).trans (hlevel.ge.trans hheight)
        exact hleave.trans (ih rfl h)

theorem report_sheds {severity : Severity} {location : Location} {message : String} :
    Relates (Sheds level) (report severity location message) where
  relates h := modify_eq_ok.mp h ▸ .of_eq (List.prefix_append _ _) rfl id fun _ => Nat.le_refl _

theorem noted_sheds {t : Token} {more : Bool} (h : noted p.nextLevel t p = .ok (more, p')) :
    Sheds level p p' := by
  unfold noted at h
  split at h
  · obtain ⟨_, p₁, hreport, h⟩ := bind_eq_ok.mp h
    have hlevel : p₁.nextLevel = p.nextLevel := modify_eq_ok.mp hreport ▸ rfl
    exact (report_sheds.relates hreport).trans (popFinished_sheds _ hlevel h)
  · exact popFinished_sheds _ rfl h

theorem entered_alike (p : Preprocessor) (input : Input) : p.Alike (entered p input) := by
  unfold entered
  split <;> exact ⟨rfl, rfl, rfl, rfl, rfl⟩

theorem consume_sheds : Relates (Sheds level) consume where
  relates {p more p'} h := by
    by_cases hnil : p.stack = []
    · rw [consume_of_nil hnil] at h
      cases h
      exact .of_eq List.prefix_rfl rfl id fun _ => Nat.le_refl _
    cases hget : p.stack[p.nextLevel]? with
    | none =>
      rw [consume_of_none hnil hget] at h
      cases h
    | some input =>
      have hentered := entered_alike p input
      rw [consume_of_some hget, ← hentered.nextLevel] at h
      have hread : Sheds level p (advanced (entered p input) input) := by
        refine .of_eq ?_ hentered.groups (fun hheight => ?_) fun _ => hentered.nextLevel.ge
        · exact hentered.diagnostics.symm ▸ List.prefix_rfl
        · have hheight' := hentered.height
          have hlevel := hentered.nextLevel
          simp only [advanced, List.length_set, List.length_take]
          omega
      exact hread.trans (noted_sheds h)

instance : Stable (Sheds level) where
  alike h := .of_eq (h.diagnostics ▸ List.prefix_rfl) h.groups
    (fun hheight => by rw [h.nextLevel, h.height]; exact hheight) fun _ => h.nextLevel.ge
  report := report_sheds
  consume := consume_sheds
  push p input := .of_eq List.prefix_rfl rfl (fun _ => by simp) fun hheight => hheight
  truncate p := .of_eq List.prefix_rfl rfl (fun hheight => by simp; omega) fun _ => Nat.le_refl _

/-- What is read next is on the stack, or at its end, if it was before. -/
def Levelled (p p' : Preprocessor) : Prop :=
  p.nextLevel ≤ p.stack.length → p'.nextLevel ≤ p'.stack.length

theorem Sheds.levelled (h : Sheds level p p') : p.Levelled p' := h.height

instance : IsPreorder Preprocessor Levelled where
  refl _ := id
  trans _ _ _ h h' := h' ∘ h

instance : Regrouping Levelled where
  alike h := (Stable.alike h : Sheds 0 _ _).levelled
  report := ⟨fun h => (report_sheds.relates h : Sheds 0 _ _).levelled⟩
  consume := ⟨fun h => (consume_sheds.relates h : Sheds 0 _ _).levelled⟩
  push p input := (Stable.push p input : Sheds 0 _ _).levelled
  truncate p := (Stable.truncate p : Sheds 0 _ _).levelled
  regroup _ _ := id

/-- Of the groups around a level some are dropped at most. -/
def Narrows (level : Nat) (p p' : Preprocessor) : Prop :=
  p'.outer level <:+ p.outer level

theorem Sheds.narrows (h : Sheds level p p') : Narrows level p p' := outer_mono h.suffix

instance : IsPreorder Preprocessor (Narrows level) where
  refl _ := List.suffix_rfl
  trans _ _ _ h h' := List.IsSuffix.trans h' h

instance : Stable (Narrows level) where
  alike h := (Stable.alike h : Sheds level _ _).narrows
  report := ⟨fun h => (report_sheds.relates h : Sheds level _ _).narrows⟩
  consume := ⟨fun h => (consume_sheds.relates h : Sheds level _ _).narrows⟩
  push p input := (Stable.push p input : Sheds level _ _).narrows
  truncate p := (Stable.truncate p : Sheds level _ _).narrows

/-- A group of the level is put inside. -/
theorem narrows_of_cons {g : Group} {rest : List Group} (hg : level ≤ g.level)
    (hgroups : p'.groups = g :: rest) (hrest : rest <:+ p.groups) : Narrows level p p' := by
  unfold Narrows outer
  rw [hgroups, List.dropWhile_cons, if_pos (decide_eq_true hg)]
  exact dropWhile_suffix_dropWhile _ hrest

theorem openGroup_narrows {directive : Token} {l : Nat} {holds : Bool} (hl : level ≤ l) :
    Relates (Narrows level) (openGroup directive l holds) where
  relates h := modify_eq_ok.mp h ▸ narrows_of_cons hl rfl List.suffix_rfl

theorem setGroup_narrows {g : Group} (hg : level ≤ g.level) :
    Relates (Narrows level) (setGroup g) where
  relates h := modify_eq_ok.mp h ▸ narrows_of_cons hg rfl (List.tail_suffix _)

section

variable {u : Unit}

theorem parseIf_narrows (h : parseIf fuel p = .ok (u, p')) (hlevel : level ≤ p.level) :
    Narrows level p p' := by
  obtain ⟨_, _, hget, h⟩ := bind_eq_ok.mp h
  obtain ⟨rfl, rfl⟩ := get_eq_ok.mp hget
  have hopen (holds : Bool) : Relates (Narrows level) (openGroup p.token p.level holds) :=
    openGroup_narrows hlevel
  exact Relates.relates h

theorem parseIfdef_narrows {expected : Bool} (h : parseIfdef fuel expected p = .ok (u, p'))
    (hlevel : level ≤ p.level) :
    Narrows level p p' := by
  obtain ⟨_, _, hget, h⟩ := bind_eq_ok.mp h
  obtain ⟨rfl, rfl⟩ := get_eq_ok.mp hget
  have hopen (holds : Bool) : Relates (Narrows level) (openGroup p.token p.level holds) :=
    openGroup_narrows hlevel
  dsimp only at h
  exact Relates.relates h

theorem nextBranch_level {name : String} {branch : Option Group}
    (h : nextBranch name p = .ok (branch, p')) :
    p'.level = p.level := by
  obtain ⟨_, _, hget, h⟩ := bind_eq_ok.mp h
  obtain ⟨rfl, rfl⟩ := get_eq_ok.mp hget
  have herror {message : String}
      (h : (do error p.token.location message; return none : PreM (Option Group)) p
        = .ok (branch, p')) : p'.level = p.level := by
    obtain ⟨_, _, hreport, h⟩ := bind_eq_ok.mp h
    obtain rfl := modify_eq_ok.mp hreport
    exact (pure_eq_ok.mp h).2 ▸ rfl
  cases hgroups : p.groups with
  | nil =>
    rw [hgroups] at h
    exact herror h
  | cons g rest =>
    rw [hgroups] at h
    dsimp only at h
    split at h
    · exact herror h
    · exact (pure_eq_ok.mp h).2 ▸ rfl

/-- The next branch of a group belongs to the level of the directive that starts it. -/
theorem branch_narrows {name : String} {f : Group → PreM Unit} (hlevel : level ≤ p.level)
    (h : (do
      let some g ← nextBranch name | return
      f g) p = .ok (u, p'))
    (hf : ∀ g q,
      (∀ taken skipping,
        Relates (Narrows level) (setGroup ⟨taken, skipping, q.token, q.level⟩)) →
      f g q = .ok (u, p') → Narrows level q p') : Narrows level p p' := by
  obtain ⟨branch, p₁, hbranch, h⟩ := bind_eq_ok.mp h
  have hstart : Narrows level p p₁ := Relates.relates hbranch
  rw [← nextBranch_level hbranch] at hlevel
  refine trans_of (Narrows level) hstart ?_
  cases branch with
  | none => exact Relates.relates h
  | some g => exact hf g p₁ (fun _ _ => setGroup_narrows hlevel) h

theorem parseElif_narrows (h : parseElif fuel p = .ok (u, p')) (hlevel : level ≤ p.level) :
    Narrows level p p' := by
  refine branch_narrows hlevel h fun g q hset h => ?_
  obtain ⟨_, _, hget, h⟩ := bind_eq_ok.mp h
  obtain ⟨rfl, rfl⟩ := get_eq_ok.mp hget
  dsimp only at h
  exact Relates.relates h

theorem parseElse_narrows (h : parseElse p = .ok (u, p')) (hlevel : level ≤ p.level) :
    Narrows level p p' := by
  refine branch_narrows hlevel h fun g q hset h => ?_
  obtain ⟨_, _, hget, h⟩ := bind_eq_ok.mp h
  obtain ⟨rfl, rfl⟩ := get_eq_ok.mp hget
  exact Relates.relates h

theorem parseEndif_narrows (h : parseEndif p = .ok (u, p')) : Narrows level p p' := by
  obtain ⟨_, _, hget, h⟩ := bind_eq_ok.mp h
  obtain ⟨rfl, rfl⟩ := get_eq_ok.mp hget
  cases hgroups : p.groups with
  | nil =>
    rw [hgroups] at h
    exact (error_relates : Relates (Narrows level) _).relates h
  | cons g rest =>
    rw [hgroups] at h
    obtain rfl := set_eq_ok.mp h
    exact dropWhile_suffix_dropWhile _ (hgroups ▸ List.suffix_cons g rest)

theorem conditional_narrows {kind : Token.Kind} {run : PreM Unit}
    (hrun : conditional? fuel kind = some run)
    (h : run p = .ok (u, p')) (hlevel : level ≤ p.level) : Narrows level p p' := by
  unfold conditional? at hrun
  split at hrun <;> cases hrun
  · exact parseIf_narrows h hlevel
  · exact parseIfdef_narrows h hlevel
  · exact parseIfdef_narrows h hlevel
  · exact parseElse_narrows h hlevel
  · exact parseElif_narrows h hlevel
  · exact parseEndif_narrows h

end

variable {line : String} {r : String ⊕ String}

/-- What a round has done that has read a conditional directive: the directive was obeyed, and then
the end of its line was read. -/
structure Conditional (fuel : Nat) (p p₁ p' : Preprocessor) : Prop where
  narrows : ∀ level ≤ p.nextLevel, Narrows level p p₁
  levelled : p.Levelled p₁
  ends : endDirective fuel p₁ = .ok ((), p')

/-- All but the conditional directives leave groups alone. -/
theorem sheds_or_conditional (h : processNext fuel line p = .ok (r, p')) :
    (∀ level, Sheds level p p') ∨ ∃ p₁, Conditional fuel p p₁ p' := by
  obtain ⟨more, p₁, hconsume, h⟩ := bind_eq_ok.mp h
  cases more with
  | false =>
    obtain ⟨-, rfl⟩ := pure_eq_ok.mp h
    exact .inl fun _ => Relates.relates hconsume
  | true =>
    obtain ⟨_, _, hreset, h⟩ := bind_eq_ok.mp h
    obtain rfl := modify_eq_ok.mp hreset
    obtain ⟨_, _, hget, h⟩ := bind_eq_ok.mp h
    obtain ⟨rfl, rfl⟩ := get_eq_ok.mp hget
    have hstart (level : Nat) : Sheds level p { p₁ with expansions := 0 } :=
      (consume_sheds.relates hconsume).trans (Stable.alike ⟨rfl, rfl, rfl, rfl, rfl⟩)
    dsimp only at h
    cases hrun : conditional? fuel p₁.token.kind with
    | some run =>
      rw [hrun] at h
      obtain ⟨_, p₂, hobey, h⟩ := bind_eq_ok.mp h
      obtain ⟨_, p₃, hend, h⟩ := bind_eq_ok.mp h
      obtain ⟨-, rfl⟩ := pure_eq_ok.mp h
      refine .inr ⟨p₂, fun level hlevel => ?_, ?_, hend⟩
      · rw [← (consume_keeps hconsume).1] at hlevel
        exact trans_of (Narrows level) (hstart level).narrows
          (conditional_narrows hrun hobey hlevel)
      · have hobeyed : Relates Levelled run := conditional_relates hrun
        exact trans_of Levelled (hstart 0).levelled (hobeyed.relates hobey)
    | none =>
      rw [hrun] at h
      exact .inl fun level => (hstart level).trans (Relates.relates h)

/-- A round at a level closes groups below the level at most. -/
theorem processNext_narrows (h : processNext fuel line p = .ok (r, p'))
    (hin : level ≤ p.nextLevel) :
    Narrows level p p' := by
  obtain hsheds | ⟨p₁, hconditional⟩ := sheds_or_conditional h
  · exact (hsheds level).narrows
  · exact trans_of (Narrows level) (hconditional.narrows level hin)
      (Relates.relates hconditional.ends)

/-- Rounds each of which starts at a level or above it. -/
inductive Rounds (fuel level : Nat) : Preprocessor → Preprocessor → Prop where
  | refl (p : Preprocessor) : Rounds fuel level p p
  | next {line : String} {r : String ⊕ String} {p p₁ p' : Preprocessor}
      (hin : level ≤ p.nextLevel) (h : processNext fuel line p = .ok (r, p₁))
      (hrounds : Rounds fuel level p₁ p') : Rounds fuel level p p'

/-- While a file is read, groups around it are closed at most. -/
theorem Rounds.narrows (h : Rounds fuel level p p') : Narrows level p p' := by
  induction h with
  | refl p => exact refl_of (Narrows level) p
  | next hin h _ ih => exact trans_of (Narrows level) (processNext_narrows h hin) ih

theorem Rounds.levelled (h : Rounds fuel level p p') : p.Levelled p' := by
  induction h with
  | refl p => exact refl_of Levelled p
  | next _ h _ ih => exact trans_of Levelled (Relates.relates h) ih

/-- When the level of a file is left, what was opened in it is dropped, unless the file ends inside
of a conditional directive. -/
theorem leaves (h : processNext fuel line p = .ok (r, p'))
    (hheight : p.nextLevel ≤ p.stack.length)
    (hin : level ≤ p.nextLevel) (hout : p'.nextLevel < level) :
    p'.groups <:+ p.outer level
      ∨ ∃ p₁, Conditional fuel p p₁ p' ∧ p₁.nextLevel < level := by
  obtain hsheds | ⟨p₁, hconditional⟩ := sheds_or_conditional h
  · exact .inl ((hsheds level).left hheight hin hout)
  · by_cases hinside : p₁.nextLevel < level
    · exact .inr ⟨p₁, hconditional, hinside⟩
    · have hends : Sheds level p₁ p' := Relates.relates hconditional.ends
      have hleft := hends.left (hconditional.levelled hheight) (Nat.not_lt.mp hinside) hout
      exact .inl (hleft.trans (hconditional.narrows level hin))

/-- What is still open behind the last line of a file is reported. -/
theorem reports_unterminated (h : processNext fuel line p = .ok (r, p'))
    (hheight : p.nextLevel ≤ p.stack.length) (hin : level ≤ p.nextLevel)
    (hout : p'.nextLevel < level) (hline : ∀ p₁, ¬Conditional fuel p p₁ p') :
    ∀ g ∈ p.inner level, g.unterminated ∈ p'.diagnostics := by
  obtain hsheds | ⟨p₁, hconditional⟩ := sheds_or_conditional h
  · exact (hsheds level).reported hheight hin hout
  · exact absurd hconditional (hline p₁)

/-- What is still open behind a directive in the last line of a file is reported. -/
theorem Conditional.reports_unterminated (h : Conditional fuel p p₁ p')
    (hheight : p.nextLevel ≤ p.stack.length) (hin : level ≤ p₁.nextLevel)
    (hout : p'.nextLevel < level) : ∀ g ∈ p₁.inner level, g.unterminated ∈ p'.diagnostics :=
  Sheds.reported (Relates.relates h.ends) (h.levelled hheight) hin hout

/-- An included file does not open groups in the file that includes it: behind the file, no more
groups are open than at the directive. -/
theorem include_groups {q : Preprocessor} (hinclude : parseInclude fuel q = .ok ((), p))
    (hheight : q.nextLevel ≤ q.stack.length) (hrounds : Rounds fuel level p p₁)
    (hlast : processNext fuel line p₁ = .ok (r, p')) (hin : level ≤ p₁.nextLevel)
    (hout : p'.nextLevel < level) :
    p'.groups <:+ q.groups
      ∨ ∃ p₂, Conditional fuel p₁ p₂ p' ∧ p₂.nextLevel < level := by
  have hstart : Sheds level q p := Relates.relates hinclude
  refine (leaves hlast (hrounds.levelled (hstart.height hheight)) hin hout).imp_left
    fun hgroups => ?_
  calc p'.groups <:+ p₁.outer level := hgroups
    _ <:+ p.outer level := hrounds.narrows
    _ <:+ p.groups := outer_suffix level p
    _ <:+ q.groups := hstart.suffix

end ShaderEffect.Preprocessor

import ShaderEffect.Proofs.Splicing.Statements

namespace ShaderEffect

namespace Moment

variable {m m₁ m' : Moment} {ok ok' : Bool} {n : Nat}

theorem Leads.calm (h : m.Leads ok m') (hm : m.inFunction = false) : m'.Calm false :=
  ⟨h.sound, h.function.trans hm, nofun⟩

theorem Leads.mono (h : m.Leads ok m') (hok : ok' = true → ok = true) : m.Leads ok' m' :=
  { h with dropped := fun hok' => h.dropped (hok hok') }

theorem Leads.trans (h : m.Leads ok m₁) (h' : m₁.Leads ok' m') : m.Leads (ok && ok') m' :=
  { h.toMoves.trans h'.toMoves with
    dropped := fun hboth =>
      (h'.dropped (Bool.and_elim_right hboth)).trans (h.dropped (Bool.and_elim_left hboth)) }

theorem Leads.leave (h : m.Leads ok m') (hn : n ≥ m'.nextId) :
    m.Leads ok { m' with nextId := n, current := 0 } :=
  { h.toMoves.trans (.of_sound (h.sound.leave hn) hn rfl rfl (.inl rfl)) with dropped := h.dropped }

/-- What is known within a function that began in `m`. -/
def Within (ok : Bool) (m m' : Moment) : Prop :=
  ∃ n ≥ m.nextId, { m with nextId := n, inFunction := true }.Leads ok m'

theorem Within.leave (h : m.Within ok m') (hm : m.inFunction = false) :
    m.Leads ok { m' with inFunction := false, spliced := [] } := by
  obtain ⟨n, hn, hleads⟩ := h
  exact {
    sound := hleads.sound.forget false
    nextId := Nat.le_trans hn hleads.nextId
    function := hm.symm
    entered := hleads.entered.imp fun new hnew =>
      hnew.imp_right fun hmade id hid => Nat.le_trans hn (hmade id hid)
    current := hleads.current
    dropped := hleads.dropped }

end Moment

open Moment

/-- Whether declarations that lie inside of others only enter blocks of their own, too. -/
class Declares (recurse : Parser.Recurse) : Prop extends Executes recurse where
  declaration : ∀ {s r m}, m.Calm false →
    Visits (recurse .declaration : ParseM Bool) s r m fun ok _ m' => m.Leads ok m'

namespace Parser

variable {recurse : Recurse} {s : Surroundings} {r : Reader} {m : Moment} {location : Location}

section

variable [Executes recurse]

/-- Code behind the last block of a function is left out. -/
theorem parseBody_visits {decl : FunctionDecl} (h : m.Sound) :
    Visits (parseBody recurse location decl) s r m fun ok _ m' => m.Within ok m' := by
  unfold parseBody enterBlock makeBlock
  refine .bind_emit (q := .defineFunction location decl) fun decl m₁ ⟨n, hn, hm₁⟩ _ => ?_
  have hsound : m₁.Sound := hm₁ ▸ { h.idle hn with }
  have hstart := Underway.start hsound (hm₁ ▸ rfl)
  have hwithin {ok : Bool} {m' : Moment} (hleads : m₁.Leads ok m') : m.Within ok m' :=
    ⟨n, hn, hm₁ ▸ hleads⟩
  refine ⟨hsound, .require (fun r₁ => .require (fun r₂ => ?_) fun _ => ?_) fun _ => ?_⟩
  · refine .make hstart fun id m₂ h₂ _ => .enter [] h₂ fun m₃ h₃ _ => ?_
    refine .bind (parseBlock_visits h₃.sound h₃.inFunction) fun ok r₄ m₄ hleads => ?_
    have hbody : m₁.Leads ok m₄ := (h₃.leads : m₁.Leads true m₃).trans hleads
    refine .isInBlock hleads.sound ?_
    split
    · refine .bind_emit (q := .leaveAndReturn 0) fun _ m₅ ⟨n, hn, hm₅⟩ _ => ?_
      subst hm₅
      exact ⟨hleads.sound.leave hn, .pure (hwithin (hbody.leave hn))⟩
    · exact .pure (hwithin hbody)
  · exact .pure (hwithin hstart.leads)
  · exact .pure (hwithin hstart.leads)

theorem parseFunction_visits {t : Ty} (h : m.Calm false) :
    Visits (parseFunction recurse t) s r m fun ok _ m' => m.Leads ok m' := by
  unfold parseFunction
  have hstart {ok : Bool} : m.Leads ok m := (Stays.refl h).leads
  refine .bind_read fun t r₁ _ => ?_
  split
  refine .require (fun r₂ => ?_) fun _ => .pure hstart
  change Visits (if t.qualifiers ≠ 0 then _ else _) s r₂ m _
  split
  · exact .bind_read fun _ _ _ => .pure hstart
  refine .bind_read fun name r₃ _ => .bind_modify (.bind_read fun _ r₅ _ => ?_)
  refine .bind (parseSignature_stays.visits h) fun signature r₆ m₆ h₆ => ?_
  rcases signature with _ | ⟨decl, valid⟩
  · exact .bind_read fun _ _ _ => .pure h₆.leads
  refine .bind (parseBody_visits h₆.calm.sound) fun ok r₇ m₇ hwithin =>
    .bind_read fun _ r₈ _ => ?_
  refine .bind_emit (q := .leaveFunction) fun _ m₉ hm₉ _ => ?_
  have hhead : m.Leads true m₆ := h₆.leads
  have hleads := hhead.trans (hwithin.leave h₆.calm.function)
  have hspliced : (if m₇.inFunction then [] else m₇.spliced) = [] := by
    obtain ⟨_, -, hleads⟩ := hwithin
    rw [hleads.function, if_pos rfl]
  obtain rfl : m₉ = { m₇ with inFunction := false, spliced := [] } := hspliced ▸ hm₉
  exact ⟨hleads.sound, .pure (hleads.mono fun hboth => (Bool.and_eq_true _ _ ▸ hboth).1)⟩

theorem parseFunctionOrPlaceholder_visits {t : Ty} (h : m.Calm false) :
    Visits (parseFunctionOrPlaceholder recurse t) s r m fun ok _ m' => m.Leads ok m' := by
  unfold parseFunctionOrPlaceholder
  refine .bind_read fun name r₁ _ => .bind (parseFunction_visits h) fun ok r₂ m₂ h₂ => ?_
  cases ok with
  | true => exact .pure h₂
  | false => exact .bind_read fun _ _ _ => .pure h₂

theorem parseTyped_visits (h : m.Calm false) :
    Visits (parseTyped recurse) s r m fun ok _ m' => m.Leads ok m' := by
  unfold parseTyped
  have hstart {ok : Bool} : m.Leads ok m := (Stays.refl h).leads
  refine .bind_read fun t r₁ _ => ?_
  rcases t with _ | t
  · refine .bind_read fun isEmpty r₂ _ => ?_
    split
    · exact .pure hstart
    · exact .bind_read fun _ _ _ => .bind_read fun _ _ _ => .bind_read fun _ _ _ => .pure hstart
  refine .require (fun r₂ => .bind_read fun isFunction r₃ _ => ?_) fun _ => .pure hstart
  split
  · exact parseFunctionOrPlaceholder_visits h
  · exact (parseGlobals_stays.visits h).mono fun _ _ _ hstays => hstays.leads

end

variable [Declares recurse]

theorem parseNamespace_visits (h : m.Calm false) :
    Visits (parseNamespace recurse) s r m fun ok _ m' => m.Leads ok m' := by
  unfold parseNamespace
  have hstart {ok : Bool} : m.Leads ok m := (Stays.refl h).leads
  refine .require (fun r₁ => .bind_read fun t r₂ _ => ?_) fun _ => .pure hstart
  refine .require (fun r₃ => ?_) fun _ => .pure hstart
  refine .bind_modify (.bind (P := fun ok _ m' => m.Leads ok m') ?_ fun ok r₅ m₅ h₅ => ?_)
  · refine .loop (fun _ _ m' => m.Leads true m') hstart fun _ r₅ m₅ h₅ => ?_
    refine .bind_read fun isClose r₆ _ => .bind_read fun isEnd r₇ _ => ?_
    split
    · exact .pure h₅
    refine .bind (Declares.declaration (h₅.calm h.function)) fun ok r₈ m₈ h₈ => ?_
    cases ok with
    | true => exact .pure (h₅.trans h₈)
    | false => exact .pure (h₅.trans h₈)
  · refine Visits.bind_get (.bind_except fun symbols r₆ =>
      .bind_modify (.bind_read fun closed r₇ _ => .pure ?_))
    exact h₅.mono Bool.and_elim_right

theorem parseDeclaration_visits (h : m.Calm false) :
    Visits (parseDeclaration recurse) s r m fun ok _ m' => m.Leads ok m' := by
  unfold parseDeclaration
  refine .bind_read fun isNamespace r₁ _ => ?_
  split
  · exact parseNamespace_visits h
  refine .bind_read fun isStruct r₂ _ => ?_
  split
  · have hstruct : Keeps false (do
        if ← parseStruct recurse then return ← expect .semicolon else return false :
        ParseM Bool) := inferInstance
    exact (hstruct.visits h).mono fun _ _ _ hstays => hstays.leads
  refine .bind_read fun isTechnique r₃ _ => ?_
  split
  · exact (parseTechnique_stays.visits h).mono fun _ _ _ hstays => hstays.leads
  · exact parseTyped_visits h

omit [Declares recurse] in
/-- Parts lie inside of each other, and each keeps what those inside of it keep. -/
instance parse_declares (depth : Nat) : Declares (parse depth) := by
  induction depth with
  | zero =>
    exact {
      unary := .throw
      multary := .throw
      assignment := .throw
      sequence := .throw
      statement := fun _ _ => .throw
      declaration := fun _ => .throw }
  | succ depth ih =>
    exact {
      unary := parseUnary_stays
      multary := parseMultary_stays
      assignment := parseAssignment_stays
      sequence := parseSequence_stays
      statement := parseStatement_visits
      declaration := parseDeclaration_visits }

omit [Declares recurse]

theorem parseDeclarations_visits {source : String} (h : m.Calm false) :
    Visits (parseDeclarations source) s r m fun ok _ m' => m.Leads ok m' := by
  unfold parseDeclarations
  refine .bind_modify (.bind_read fun _ r₂ _ =>
    .bind (P := fun ok _ m' => m.Leads ok m') ?_ fun ok r₃ m₃ h₃ => ?_)
  · refine .loop (fun valid _ m' => m.Leads valid m') (Stays.refl h).leads
      fun valid r₃ m₃ h₃ => ?_
    refine .bind_read fun isEnd r₄ _ => ?_
    split
    · exact .pure h₃
    · exact .bind (Declares.declaration (h₃.calm h.function))
        fun ok r₅ m₅ h₅ => .pure (h₃.trans h₅)
  · exact .bind_get (.pure (h₃.mono Bool.and_elim_left))

theorem parseSource_holds {source : String} {p : Parser} (h : m.Calm false) :
    (parseSource source p).Holds m fun result m' => m.Leads result.1 m' := by
  unfold parseSource
  exact (parseDeclarations_visits h).holds.bind fun _ _ hleads => hleads

end Parser

namespace Spirv

variable {options : Options} {source : String} {p : Parser} {n : Nat} {es : Script.History}
  {rest : Script (Bool × Parser)} {g g' : Generator State}

theorem moment_generator : (moment (generator options) [] []).Calm false where
  sound := ⟨Nat.two_pos, .nil, List.forall_mem_nil _, .inl rfl, nofun⟩
  function := rfl
  current := nofun

/-- The order of blocks holds wherever the parser stops. -/
theorem sound_of_advance
    (h : (Parser.parseSource source p).advance n (generator options) = .ok (es, rest, g))
    (hids : g.nextId ≤ 2 ^ 32) :
    (moment g es.entered es.dropped).Sound
      ∧ rest.Holds (moment g es.entered es.dropped) fun result m' =>
          (moment (generator options) [] []).Leads result.1 m' :=
  holds_advance (Parser.parseSource_holds moment_generator) moment_generator.sound h hids

/-- No switch is dropped on the way to the end of a source that is right. -/
theorem dropped_eq_nil
    (h : (Parser.parseSource source p).advance n (generator options) = .ok (es, rest, g))
    (hids : g.nextId ≤ 2 ^ 32) {p' : Parser}
    (hrun : (Parser.parseSource source p).run (generator options) = .ok ((true, p'), g'))
    (hids' : g'.nextId ≤ 2 ^ 32) :
    es.dropped = [] := by
  obtain ⟨more, lost, hleads⟩ :=
    holds_run (sound_of_advance h hids).2 ((Script.run_of_advance h).trans hrun) hids'
  have hdropped : es.dropped ++ lost = [] := hleads.dropped rfl
  exact (List.append_eq_nil_iff.mp hdropped).1

/-- Following code ends, wherever the parser stops. It leads to blocks that were entered later, or
to none where a switch statement was broken off; and only to blocks that were entered later in a
source that is right. -/
theorem splicing_follows_entries
    (h : (Parser.parseSource source p).advance n (generator options) = .ok (es, rest, g))
    (hids : g.nextId ≤ 2 ^ 32) :
    es.entered.Nodup
      ∧ (∀ a b, g.target.Follows a b → [a, b].Sublist es.entered
        ∨ b = 0 ∧ a ∈ es.entered ∧ a ∈ es.dropped)
        ∧ (∀ id, ¬Relation.TransGen g.target.Follows id id)
        ∧ (∀ id, Relation.ReflTransGen g.target.Follows id (g.target.final id)
          ∧ g.target.spliced.get? (g.target.final id) = none)
          ∧ ∀ p' g', (Parser.parseSource source p).run (generator options)
            = .ok ((true, p'), g') → g'.nextId ≤ 2 ^ 32 →
              ∀ a b, g.target.Follows a b → [a, b].Sublist es.entered := by
  have hsound := (sound_of_advance h hids).1
  have hless a b (hb : g.target.Follows a b) : es.entered.idxOf a < es.entered.idxOf b :=
    hsound.idxOf_lt hb
  refine ⟨hsound.nodup, hsound.spliced, State.not_transGen_follows hless,
    State.final_spec hless, ?_⟩
  intro p' g' hrun hids' a b hb
  refine (hsound.spliced a b hb).resolve_right fun ⟨_, _, hdropped⟩ => ?_
  rw [show (moment g es.entered es.dropped).dropped
    = [] from dropped_eq_nil h hids hrun hids'] at hdropped
  exact List.not_mem_nil hdropped

/-- A selection whose condition is a short circuit. -/
private def chained : String :=
  "void f(bool a, bool b) \x7b if (a && b) a = b; \x7d"

set_option maxRecDepth 10000 in
/-- Behind a selection whose condition is a short circuit, code is followed through two blocks. -/
theorem splicing_follows_entries_chained :
    ∃ es rest g, (Parser.parseSource chained {}).advance 34 (generator {}) = .ok (es, rest, g)
      ∧ g.nextId ≤ 2 ^ 32
      ∧ g.target.Follows 9 14
      ∧ g.target.Follows 14 12 ∧ (∀ id, ¬Relation.TransGen g.target.Follows id id)
      ∧ (∀ id, Relation.ReflTransGen g.target.Follows id (g.target.final id)
          ∧ g.target.spliced.get? (g.target.final id) = none)
      ∧ ∀ a b, g.target.Follows a b → [a, b].Sublist es.entered := by
  have hread : ((Parser.parseSource chained {}).advance 34 (generator {})).toOption.any
      (fun c => decide (c.2.2.nextId ≤ 2 ^ 32) && c.2.2.target.spliced == [(9, 14), (14, 12)])
      = true := by
    decide +kernel
  have haccepted : ((Parser.parseSource chained {}).run (generator {})).toOption.any
      (fun c => c.1.1 && decide (c.2.nextId ≤ 2 ^ 32)) = true := by decide +kernel
  obtain ⟨⟨es, rest, g⟩, hrun, hread⟩ := exists_of_any hread
  obtain ⟨⟨⟨accepted, p'⟩, g'⟩, hwhole, haccepted⟩ := exists_of_any haccepted
  obtain ⟨hid, hspliced⟩ : g.nextId ≤ 2 ^ 32 ∧ g.target.spliced = [(9, 14), (14, 12)] := by
    simpa using hread
  obtain ⟨rfl, hid'⟩ : accepted = true ∧ g'.nextId ≤ 2 ^ 32 := by simpa using haccepted
  obtain ⟨-, -, hcircle, hfinal, hright⟩ := splicing_follows_entries hrun hid
  exact ⟨es, rest, g, hrun, hid, by rw [State.Follows, hspliced]; rfl, by
    rw [State.Follows, hspliced]; rfl, hcircle, hfinal, hright p' g' hwhole hid'⟩

/-- A source that is broken off behind a section that jumps. -/
private def broken : String :=
  "void f(int a) \x7b switch (a) \x7b case 1: return;"

set_option maxRecDepth 10000 in
/-- Code need not lead to a block that was entered later. -/
theorem splicing_into_none :
    ∃ es rest g, (Parser.parseSource broken {}).advance 14 (generator {}) = .ok (es, rest, g)
      ∧ g.nextId ≤ 2 ^ 32 ∧ g.target.Follows 8 0 ∧ es.entered = [8, 11]
      ∧ ¬∀ a b, g.target.Follows a b → [a, b].Sublist es.entered := by
  have hread : ((Parser.parseSource broken {}).advance 14 (generator {})).toOption.any
      (fun c => decide (c.2.2.nextId ≤ 2 ^ 32) && c.2.2.target.spliced.get? 8 = some 0
        && c.1.entered = [8, 11]) = true := by decide +kernel
  obtain ⟨⟨es, rest, g⟩, hrun, hread⟩ := exists_of_any hread
  obtain ⟨⟨hid, hfirst⟩,
      hentered⟩ : (g.nextId ≤ 2 ^ 32 ∧ g.target.spliced.get? 8 = some 0)
      ∧ es.entered = [8, 11] := by simpa using hread
  refine ⟨es, rest, g, hrun, hid, hfirst, hentered, fun hlater => ?_⟩
  exact absurd (hentered ▸ hlater 8 0 hfirst) (by decide)

end Spirv
end ShaderEffect

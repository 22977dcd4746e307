import ShaderEffect.Parser.Run
import ShaderEffect.Proofs.Reading.Statements

namespace ShaderEffect.Parser

variable {β : Type} [Backend β] [Backend.Lasting β] {bound : Nat} {recurse : Recurse}

instance assignShader_wanders {d : PassDraft} {isPixel : Bool} {n : Named} {location : Location} :
    Wanders β bound .some (assignShader d isPixel n location) := by
  unfold assignShader
  dsimp only
  infer_instance

instance assignRenderTarget_wanders {d : PassDraft} {index : Nat} {n : Named}
    {location : Location} :
    Wanders β bound .some (assignRenderTarget d index n location) := by
  unfold assignRenderTarget
  dsimp only
  infer_instance

instance parseReference_wanders {d : PassDraft} {reference : PassReference} :
    Wanders β bound .some (parseReference d reference) := by
  unfold parseReference
  cases reference <;> infer_instance

instance checkSemantics_reads {location : Location} {decl : FunctionDecl} :
    Reads .some (checkSemantics location decl) := by
  unfold checkSemantics
  dsimp only
  infer_instance

instance checkInput_reads {location : Location} {decl : FunctionDecl} {outputs : Table String Ty}
    {m : Member} :
    Reads .some (checkInput location decl outputs m) := by
  unfold checkInput
  dsimp only
  split <;> infer_instance

instance checkStages_reads {location : Location} {vertex pixel : FunctionDecl} :
    Reads .some (checkStages location vertex pixel) := by
  unfold checkStages
  dsimp only
  infer_instance

instance checkPass_reads {location : Location} {d : PassDraft} :
    Reads .some (checkPass location d) := by
  unfold checkPass
  dsimp only
  split
  · refine .andThen fun valid => ?_
    split <;> infer_instance
  · infer_instance

section

variable [htame : Tame β bound recurse]

instance parsePassValue_wanders {d : PassDraft} {state : Token} :
    Wanders β bound .some (parsePassValue recurse d state) := by
  unfold parsePassValue
  refine .andThenSome (fun e => ?_) inferInstance
  dsimp only
  split
  · refine .andThen fun _ => .andThen fun e => ?_
    split <;> infer_instance
  · refine .andThen fun e => ?_
    split <;> infer_instance

instance parsePassState_consumes {d : PassDraft} :
    Wanders β bound .consuming (parsePassState recurse d) := by
  unfold parsePassState
  refine .behind (.andThen fun state => .andThen fun ok => ?_) inferInstance
  dsimp only
  split
  · infer_instance
  · split <;> infer_instance

/-- Reads a state, or skips to behind the pass after an error. -/
def passStatesRound (recurse : Recurse) (d : PassDraft) :
    ParseM (PassDraft ⊕ Option PassDraft) := do
  if ← peek .braceClose then return .inr (some d)
  match ← parsePassState recurse d with
  | some d => return .inl d
  | none =>
    consumeUntil .braceClose
    return .inr none

theorem parsePassStates_eq : parsePassStates recurse = loop (passStatesRound recurse) {} := rfl

instance passStatesRound_consumes {d : PassDraft} :
    Wanders β bound .consuming (passStatesRound recurse d) := by
  unfold passStatesRound
  infer_instance

instance parsePassStates_wanders : Wanders β bound .some (parsePassStates recurse) := by
  rw [parsePassStates_eq]
  infer_instance

set_option synthInstance.maxSize 65536 in
/-- A pass that is wrong has cost a token, unless there is none. -/
theorem parsePass_ends {s : Surroundings} {r : Reader} {g : Generator β} (hr : Ready bound r)
    (hg : Sane r g) :
    Concludes (parsePass recurse) s r g fun found r' g' => Advances r g r' g' ∧
      (r'.left < r.left ∨ found = none ∧ r.Stays r' ∧ r.next.kind ≠ .passWord) := by
  unfold parsePass
  refine Concludes.bind_read (expect_ends (Q := fun ok r' => if ok = true then
    r.next.kind = .passWord ∧ r' = r.consumed else r.next.kind ≠ .passWord ∧ r.Stays r')
    (fun hkind => ⟨hkind, rfl⟩) fun hkind _ h => ⟨hkind, h⟩) ?_
  rintro (_ | _) r₁ hr₁
  · exact Concludes.pure ⟨hr₁.2.moves.advances hg, .inr ⟨rfl, hr₁.2, hr₁.1⟩⟩
  · obtain ⟨hkind, rfl⟩ := hr₁
    have hlt := Reader.left_consumed_lt (r := r) (hkind ▸ nofun)
    have hadv := r.moves_consumed.advances hg
    refine Concludes.of_wanders .some ?_ (hr.leads hadv.leads) hadv.sane fun found r' g' h _ =>
      ⟨hadv.trans h, .inl (Nat.lt_of_le_of_lt h.leads.left hlt)⟩
    dsimp only
    infer_instance

/-- Reads a pass. One that is wrong is left out as long as another one or the brace follows. -/
def passesRound (recurse : Recurse) (s : Passes) : ParseM (Passes ⊕ Option Passes) := do
  if ← peek .braceClose then return .inr (some s)
  match ← parsePass recurse with
  | some pass => return .inl { s with passes := s.passes ++ [pass] }
  | none =>
    if (← peek .passWord) || (← peek .braceClose) then return .inl { s with valid := false }
    consumeUntil .braceClose
    return .inr none

theorem parsePasses_eq : parsePasses recurse = loop (passesRound recurse) {} := rfl

/-- If there is no pass at all, the round is the last one. -/
instance passesRound_consumes {passes : Passes} :
    Wanders β bound .consuming (passesRound recurse passes) where
  ends s r g hr hg := by
    unfold passesRound
    refine Concludes.bind_read
      (peek_ends (Q := fun c r' => c = decide (r.next.kind = .braceClose) ∧ r' = r)
        ⟨rfl, rfl⟩) ?_
    rintro _ r ⟨rfl, rfl⟩
    split
    · exact Concludes.pure ⟨.refl hg, nofun⟩
    rename_i hclose
    have hclose : r.next.kind ≠ .braceClose := fun h => hclose (decide_eq_true h)
    refine (parsePass_ends hr hg).bind fun found r₁ g₁ ⟨h, hfound⟩ => ?_
    obtain hlt | ⟨rfl, hstays, hpass⟩ := hfound
    · refine Concludes.of_wanders .some ?_ (hr.leads h.leads) h.sane fun c r' g' h' _ =>
        ⟨h.trans h', fun _ => Nat.lt_of_le_of_lt h'.leads.left hlt⟩
      cases found <;> infer_instance
    · have hnext := hstays.next
      refine Concludes.bind_read
        (peek_ends (Q := fun c r' => c = false ∧ r₁ = r') ⟨by simp [hnext, hpass], rfl⟩) ?_
      rintro _ _ ⟨rfl, rfl⟩
      refine Concludes.bind_read
        (peek_ends (Q := fun c r' => c = false ∧ r₁ = r') ⟨by simp [hnext, hclose], rfl⟩) ?_
      rintro _ _ ⟨rfl, rfl⟩
      rw [if_neg (by decide)]
      exact Concludes.of_wanders .stopping inferInstance (hr.leads h.leads) h.sane
        fun c r' g' h' hp =>
        ⟨h.trans h', fun hc => absurd hc hp⟩

instance parsePasses_wanders : Wanders β bound .some (parsePasses recurse) := by
  rw [parsePasses_eq]
  infer_instance

set_option synthInstance.maxSize 65536 in
instance parseTechnique_wanders : Wanders β bound .some (parseTechnique recurse) := by
  unfold parseTechnique
  infer_instance

end

section

variable [htame : Tame β bound recurse]

/-- Reads a declaration of a namespace. -/
def namespaceRound (recurse : Recurse) (_ : Unit) : ParseM (Unit ⊕ Bool) := do
  if (← peek .braceClose) || (← peek .eof) then return .inr true
  let ok : Bool ← recurse .declaration
  if ok then return .inl () else return .inr false

instance namespaceRound_consumes {u : Unit} :
    Wanders β bound .consuming (namespaceRound recurse u) := by
  unfold namespaceRound
  infer_instance

/-- Behind its keyword, a namespace is read in a scope of its own. -/
theorem parseNamespace_eq : parseNamespace recurse = (do
    if !(← expect .identifier) then return false
    let name := (← currentToken).text
    if !(← expect .braceOpen) then return false
    modify fun p => { p with symbols := p.symbols.enterNamespace name }
    let valid ← loop (namespaceRound recurse) ()
    let symbols ← (← get).symbols.leaveNamespace
    modify fun p => { p with symbols }
    return (← expect .braceClose) && valid) := rfl

instance enterNamespace_wanders {name : String} :
    Wanders β bound .some (modify fun p :
    Reader => { p with symbols := p.symbols.enterNamespace name } : ParseM PUnit) :=
  .modify fun r => ⟨⟨Nat.le_refl _, rfl, .inl rfl⟩, .refl r⟩

instance {path : String} : Bounded (SymbolTable.outerPath path) := by
  unfold SymbolTable.outerPath
  dsimp only
  split <;> infer_instance

/-- Leaving a namespace forgets no name. -/
theorem leaveNamespace_entries {t t' : SymbolTable} (h : t.leaveNamespace = .ok t') :
    t'.entries = t.entries := by
  unfold SymbolTable.leaveNamespace at h
  obtain ⟨name, -, h⟩ := except_bind_eq_ok.mp h
  rw [← except_pure_eq_ok.mp h]

instance {t : SymbolTable} : Bounded t.leaveNamespace := by
  unfold SymbolTable.leaveNamespace
  infer_instance

instance parseNamespace_wanders : Wanders β bound .some (parseNamespace recurse) where
  ends s r g hr hg := by
    rw [parseNamespace_eq]
    refine Wanders.next .some hr hg fun ok r₁ g₁ h _ => ?_
    split
    · exact Concludes.pure ⟨h, trivial⟩
    refine Wanders.next .some (hr.leads h.leads) h.sane fun token r₂ g₂ h₂ _ => ?_
    have h := h.trans h₂
    refine Wanders.next .some (hr.leads h.leads) h.sane fun ok r₃ g₃ h₃ _ => ?_
    have h := h.trans h₃
    split
    · exact Concludes.pure ⟨h, trivial⟩
    refine Wanders.next .some (hr.leads h.leads) h.sane fun _ r₄ g₄ h₄ _ => ?_
    have h := h.trans h₄
    refine Wanders.next .some (hr.leads h.leads) h.sane fun valid r₅ g₅ h₅ _ => ?_
    have h := h.trans h₅
    refine Concludes.bind_get ?_
    have hbounded : Bounded r₅.symbols.leaveNamespace := inferInstance
    generalize hleave : r₅.symbols.leaveNamespace = left at hbounded ⊢
    refine Concludes.bind_except ?_
    rintro symbols rfl
    let r₆ : Reader := { r₅ with symbols }
    have hmoves : r₅.Moves r₆ :=
      ⟨Nat.le_refl _, rfl, rfl,
        fun e he _ => ⟨e, leaveNamespace_entries hleave ▸ he, rfl⟩⟩
    have h := h.trans (hmoves.advances h.sane)
    refine Concludes.bind_modify ?_
    exact Concludes.of_wanders .some inferInstance (hr.leads h.leads) h.sane
      fun ok r' g' h' hp => ⟨h.trans h', hp⟩

instance parseFunctionOrPlaceholder_wanders {t : Ty} :
    Wanders β bound .some (parseFunctionOrPlaceholder recurse t) := by
  unfold parseFunctionOrPlaceholder
  infer_instance

instance parseGlobalName_reads {isFirst : Bool} : Reads .some (parseGlobalName isFirst) := by
  unfold parseGlobalName
  infer_instance

instance parseGlobal_wanders {t : Ty} {isFirst : Bool} :
    Wanders β bound .some (parseGlobal recurse t isFirst) := by
  unfold parseGlobal
  infer_instance

/-- Behind a comma, an item costs a token. -/
instance nextItem_consumes {α : Type} {item : α → ParseM (Option α)}
    [∀ a, Wanders β bound .some (item a)] {a : α} :
    Wanders β bound .consuming (itemsRound item (false, a)) := by
  unfold itemsRound
  dsimp only
  infer_instance

instance firstItem_wanders {α : Type} {item : α → ParseM (Option α)}
    [∀ a, Wanders β bound .some (item a)] {a : α} :
    Wanders β bound .some (itemsRound item (true, a)) := by
  unfold itemsRound
  dsimp only
  infer_instance

omit [Backend β] [Backend.Lasting β] htame in
/-- A round that asks for another one has read the first item. -/
theorem itemsRound_isFirst {α : Type} {item : α → ParseM (Option α)} {c : Bool × α}
    {s : Surroundings} {r : Reader} :
    Parsing (itemsRound item c) s r fun (_ : List (Entry Unit)) d _ =>
      ∀ c', d = .inl c' → c'.1 = false := by
  unfold itemsRound
  dsimp only
  split
  · refine .bind_any fun closing r => ?_
    split
    · exact fun c' hc' => absurd hc' Sum.inr_ne_inl
    · refine .bind_any fun comma r => ?_
      split
      · exact fun c' hc' => absurd hc' Sum.inr_ne_inl
      · refine .bind_any fun found r => ?_
        cases found with
        | none => exact fun c' hc' => absurd hc' Sum.inr_ne_inl
        | some a => exact fun c' hc' => Sum.inl.inj hc' ▸ rfl
  · refine .bind_any fun found r => ?_
    cases found with
    | none => exact fun c' hc' => absurd hc' Sum.inr_ne_inl
    | some a => exact fun c' hc' => Sum.inl.inj hc' ▸ rfl

omit [Backend.Lasting β] in
/-- Reads a list whose first item may have begun before it. Every item but the
first costs a token. -/
theorem parseItems_ends {α : Type} {item : α → ParseM (Option α)}
    [∀ a, Wanders β bound .some (item a)] {a : α} {s : Surroundings} {r : Reader}
    {g : Generator β} (hr : Ready bound r) (hroom : r.left + 1 < r.rounds) (hg : Sane r g) :
    Concludes (parseCommaSeparated item a) s r g fun _ r' g' => Advances r g r' g' := by
  rw [parseCommaSeparated_eq]
  refine Concludes.loop (fun c r' => r'.left + if c.1 = true then 1 else 0)
    (fun _ r' g' => Advances r g r' g') (.refl hg) hroom fun c r₁ g₁ h => ?_
  have hr₁ := hr.leads h.leads
  have hround :
      Concludes (itemsRound item c) s r₁ g₁ fun d r' g' => Advances r₁ g₁ r' g' ∧
      (c.1 = false → Progress.consuming.Holds d r₁ r') := by
    obtain ⟨isFirst, a⟩ := c
    cases isFirst with
    | true =>
      exact (firstItem_wanders.ends hr₁ h.sane).mono fun d r' g' ⟨h', _⟩ => ⟨h', nofun⟩
    | false =>
      exact (nextItem_consumes.ends hr₁ h.sane).mono fun d r' g' ⟨h', hlt⟩ =>
        ⟨h', fun _ => hlt⟩
  refine (hround.and (P := fun (d : (Bool × α) ⊕ Option α) _ =>
    ∀ c', d = .inl c' → c'.1 = false) itemsRound_isFirst).mono
    fun d r' g' ⟨⟨h', hlt⟩, hfirst⟩ => ?_
  cases d with
  | inr found => exact h.trans h'
  | inl c' =>
    refine ⟨h.trans h', ?_⟩
    have hle := h'.leads.left
    rw [hfirst c' rfl]
    cases hc : c.1 with
    | true => simp only [if_true]; simp; omega
    | false => simpa using hlt hc rfl

/-- Globals are read from behind the name of the first, which is a token. -/
theorem parseGlobals_ends {t : Ty} {s : Surroundings} {r : Reader} {g : Generator β}
    (hr : Ready bound r) (hroom : r.left + 1 < r.rounds) (hg : Sane r g) :
    Concludes (parseGlobals recurse t) s r g fun _ r' g' => Advances r g r' g' := by
  unfold parseGlobals
  refine (parseItems_ends hr hroom hg).bind fun found r₁ g₁ h => ?_
  refine Concludes.of_wanders .some ?_ (hr.leads h.leads) h.sane fun _ _ _ h' _ => h.trans h'
  cases found <;> infer_instance

/-- At the top level, every declaration costs a token, right or wrong. -/
theorem parseTyped_ends {s : Surroundings} {r : Reader} {g : Generator β}
    (hdepth : 6 * r.left ≤ bound)
    (hr : r.left < r.rounds) (hg : Sane r g) : Concludes (parseTyped recurse) s r g fun ok r' g' =>
      Advances r g r' g' ∧ (ok = true ∨ r.next.kind ≠ .eof → r'.left < r.left) := by
  unfold parseTyped
  refine Concludes.bind_read (parseType_ends hr) fun type r₁ htype => ?_
  cases type with
  | none =>
    -- The token at which no type begins is passed: a semicolon as a declaration of its own, any
    -- other with an error.
    have hpends := htype.tries.pends hg
    have hle := htype.tries.left
    have hadv := hpends.advances (r₁.moves_consumed.advances hpends.sane) fun hname =>
      Reader.left_consumed_lt hname.ne_eof
    have hlt (hend : r.next.kind ≠ .eof) : r₁.consumed.left < r.left := by
      obtain hlt | ⟨hname, heq⟩ | ⟨rfl, -⟩ := htype.vain rfl
      · exact Nat.lt_of_le_of_lt r₁.moves_consumed.left hlt
      · exact heq ▸ Reader.left_consumed_lt hname.ne_eof
      · exact Reader.left_consumed_lt hend
    refine Concludes.bind_read
      (accept_ends (Q := fun c r' =>
        if c = true then r₁.next.kind = .semicolon ∧ r₁.consumed = r'
      else r₁ = r') (fun h => ⟨h, rfl⟩) fun _ => rfl) ?_
    rintro (_ | _) r₂ hr₂
    · obtain rfl := hr₂
      refine Concludes.bind_read (consume_ends (Q := fun _ r' => r₁.consumed = r') rfl) ?_
      rintro _ _ rfl
      refine Concludes.bind_read (Ends.of_ok (Q := fun _ r' => r₁.consumed = r') rfl rfl) ?_
      rintro token _ rfl
      refine Concludes.bind_read (error_ends (Q := fun _ r' => r₁.consumed.Stays r') fun _ h => h)
        fun _ r' hstays => ?_
      exact Concludes.pure ⟨hadv.trans (hstays.moves.advances hadv.sane), fun h =>
        hstays.left ▸ hlt (h.resolve_left Bool.false_ne_true)⟩
    · obtain ⟨hkind, rfl⟩ := hr₂
      exact Concludes.pure ⟨hadv,
        fun _ => Nat.lt_of_lt_of_le (Reader.left_consumed_lt (hkind ▸ by decide)) hle⟩
  | some t =>
    have hadv := htype.advances hg
    have hlt := (htype.leads rfl).2
    have hr₁ := Ready.of_lt hdepth hr hadv.leads hlt
    refine Concludes.bind_read
      (expect_ends (Q := fun c r' =>
        if c = true then r₁.next.kind = .identifier ∧ r₁.consumed = r'
      else r₁.Stays r') (fun h => ⟨h, rfl⟩) fun _ _ h => h) ?_
    rintro (_ | _) r₂ hr₂
    · exact Concludes.pure ⟨hadv.trans (hr₂.moves.advances hadv.sane),
        fun _ => hr₂.left ▸ hlt⟩
    · obtain ⟨hkind, rfl⟩ := hr₂
      have hlt₂ : r₁.consumed.left < r₁.left := Reader.left_consumed_lt (hkind ▸ by decide)
      have hadv₂ := hadv.trans (r₁.moves_consumed.advances hadv.sane)
      have hr₂ := hr₁.leads r₁.moves_consumed.leads
      refine Concludes.bind_read (peek_ends (Q := fun _ r' => r₁.consumed = r') rfl) ?_
      rintro isFunction _ rfl
      have hbehind {ok : Bool} {r' : Reader} {g' : Generator β}
          (h : Advances r₁.consumed g r' g') :
          Advances r g r' g' ∧ (ok = true ∨ r.next.kind ≠ .eof → r'.left < r.left) :=
        ⟨hadv₂.trans h, fun _ => Nat.lt_of_le_of_lt h.leads.left (Nat.lt_trans hlt₂ hlt)⟩
      split
      · exact Concludes.of_wanders .some inferInstance hr₂ hadv₂.sane
          fun ok r' g' h _ => hbehind h
      · have hroom : r₁.consumed.left + 1 < r₁.consumed.rounds := by
          have := hr₁.rounds
          have := r₁.moves_consumed.rounds
          omega
        exact (parseGlobals_ends hr₂ hroom hadv₂.sane).mono fun ok r' g' => hbehind

theorem parseDeclaration_ends {s : Surroundings} {r : Reader} {g : Generator β}
    (hdepth : 6 * r.left ≤ bound) (hr : r.left < r.rounds) (hg : Sane r g) :
    Concludes (parseDeclaration recurse) s r g fun ok r' g' =>
      Advances r g r' g' ∧ (ok = true ∨ r.next.kind ≠ .eof → r'.left < r.left) := by
  unfold parseDeclaration
  refine Concludes.afterToken ?_ ?_ hdepth hr hg
    (fun _ _ _ h hlt => ⟨h, fun _ => hlt⟩) fun _ => ?_
  · exact nofun
  · rw [if_pos rfl]
    infer_instance
  rw [if_neg nofun]
  refine Concludes.afterToken ?_ ?_ hdepth hr hg
    (fun _ _ _ h hlt => ⟨h, fun _ => hlt⟩) fun _ => ?_
  · exact nofun
  · rw [if_pos rfl]
    infer_instance
  rw [if_neg nofun]
  refine Concludes.afterToken ?_ ?_ hdepth hr hg
    (fun _ _ _ h hlt => ⟨h, fun _ => hlt⟩) fun _ => ?_
  · exact nofun
  · rw [if_pos rfl]
    infer_instance
  rw [if_neg nofun]
  exact parseTyped_ends hdepth hr hg

end

/-- The parser takes at most as many parts inside of each other as there is room for. -/
theorem parse_tame (depth : Nat) : Tame β depth (parse depth) := by
  induction depth with
  | zero => exact ⟨fun n s r g h => absurd h (Nat.not_lt_zero _)⟩
  | succ depth ih =>
    constructor
    intro n s r g hdepth hr hg
    have hrank := Nat.le_of_lt_succ hdepth
    have hroom := Nat.le_trans (Nat.le_add_right _ _) hrank
    cases n with
    | unary => exact parseUnary_ends hroom hr hg
    | multary strength => exact parseMultary_ends hrank hr hg
    | assignment => exact parseAssignment_ends hrank hr hg
    | sequence => exact parseSequence_ends hrank hr hg
    | statement newScope =>
      exact (parseStatement_ends hrank hr hg).mono fun ok r' g' ⟨h, hlt⟩ =>
        ⟨h, fun hok => hlt (hok.resolve_right id)⟩
    | declaration => exact parseDeclaration_ends hroom hr hg

end ShaderEffect.Parser

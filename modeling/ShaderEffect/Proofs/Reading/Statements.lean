import ShaderEffect.Parser.Function
import ShaderEffect.Proofs.Reading.Declarations

namespace ShaderEffect.Parser

variable {β : Type} [Backend β] [Backend.Lasting β] {bound : Nat} {recurse : Recurse}
  {p : Progress}

/-- Reads an attribute. -/
def attributesRound (h : Hints) : ReadM (Hints ⊕ Option Hints) := do
  if !(← accept .bracketOpen) then return .inr (some h)
  let word := (← nextToken).text
  if !(← expect .identifier) then return .inr none
  if !(← expect .bracketClose) then return .inr none
  let location := (← currentToken).location
  let known := h.add? word
  if known.isNone then warning location 0 "unknown attribute"
  let h := known.getD h
  if h.loop = 3 then
    error location 3524 "can't use loop and unroll attributes together"
    return .inr none
  if h.selection = 3 then
    error location 3524 "can't use branch and flatten attributes together"
    return .inr none
  return .inl h

theorem parseAttributes_eq : parseAttributes = readLoop attributesRound {} := rfl

set_option synthInstance.maxSize 65536 in
instance attributesRound_consumes {h : Hints} : Reads .consuming (attributesRound h) := by
  unfold attributesRound
  dsimp only
  infer_instance

instance parseAttributes_reads : Reads .some parseAttributes := by
  rw [parseAttributes_eq]
  infer_instance

/-- Skips a token of a block. -/
def skipBlockRound (level : Nat) : ReadM (Nat ⊕ Unit) := do
  if ← peek .eof then return .inr ()
  if ← accept .braceOpen then return .inl (level + 1)
  if ← accept .braceClose then
    if level = 0 then return .inr ()
    return .inl (level - 1)
  consume
  return .inl level

theorem skipBlock_eq : skipBlock = readLoop skipBlockRound 0 := rfl

instance skipBlockRound_consumes {level : Nat} : Reads .consuming (skipBlockRound level) where
  ends r hr := by
    unfold skipBlockRound
    refine Ends.bind (peek_ends (Q := fun c r' => c = decide (r.next.kind = .eof) ∧ r' = r)
      ⟨rfl, rfl⟩) ?_
    rintro _ r ⟨rfl, rfl⟩
    split
    · exact Ends.pure ⟨.refl r, nofun⟩
    rename_i hend
    have hlt := Reader.left_consumed_lt (r := r) fun h => hend (decide_eq_true h)
    have hinl (level : Nat) : Ends (pure (.inl level) : ReadM (Nat ⊕ Unit)) r.consumed fun c r' =>
        r.Moves r' ∧ Progress.consuming.Holds c r r' :=
      Ends.pure ⟨r.moves_consumed, fun _ => hlt⟩
    refine Ends.bind (accept_ends (Q := fun c r' => (if c = true then r.consumed else r) = r')
      (fun _ => rfl) fun _ => rfl) ?_
    rintro (_ | _) _ rfl
    case true => exact hinl _
    refine Ends.bind (accept_ends (Q := fun c r' => (if c = true then r.consumed else r) = r')
      (fun _ => rfl) fun _ => rfl) ?_
    rintro (_ | _) _ rfl
    case true =>
      rw [if_pos rfl, if_pos rfl]
      split
      · exact Ends.pure ⟨r.moves_consumed, nofun⟩
      · exact hinl _
    refine Ends.bind (consume_ends (Q := fun _ r' => r' = r.consumed) rfl) ?_
    rintro _ _ rfl
    exact hinl level

instance skipBlock_reads : Reads .some skipBlock := by
  rw [skipBlock_eq]
  infer_instance

theorem parseBlock_inScope (recurse : Recurse) : parseBlock recurse true = (do
    if !(← expect .braceOpen) then return false
    if ← inScope (parseStatements recurse) then expect .braceClose
    else
      skipBlock
      return false) := by
  simp only [parseBlock, inScope, bind_assoc, pure_bind, if_true]

section

variable [htame : Tame β bound recurse]

/-- Reads a statement of a block. -/
def statementsRound (recurse : Recurse) (_ : Unit) : ParseM (Unit ⊕ Bool) := do
  if (← peek .braceClose) || (← peek .eof) then return .inr true
  let ok : Bool ← recurse (.statement true)
  if ok then return .inl () else return .inr false

theorem parseStatements_eq : parseStatements recurse = loop (statementsRound recurse) () := rfl

instance statementsRound_consumes {u : Unit} :
    Wanders β bound .consuming (statementsRound recurse u) := by
  unfold statementsRound
  infer_instance

instance parseStatements_wanders : Wanders β bound .some (parseStatements recurse) := by
  rw [parseStatements_eq]
  infer_instance

set_option synthInstance.maxSize 65536 in
instance parseBlock_wanders {newScope : Bool} :
    Wanders β bound .some (parseBlock recurse newScope) := by
  unfold parseBlock
  infer_instance

instance parseInParentheses_wanders [p.Proceeds] :
    Wanders β bound p (parseInParentheses recurse) := by
  refine .of_consuming ?_
  unfold parseInParentheses
  infer_instance

instance loadScalar_wanders {e : Expression} {base : Base} {message : String} :
    Wanders β bound .some (loadScalar e base message) := by
  unfold loadScalar
  infer_instance

instance parseCondition_wanders {message : String} :
    Wanders β bound .some (parseCondition recurse message) := by
  unfold parseCondition
  infer_instance

instance parseJump_wanders {location : Location} {targets : List Id} {flow : Flow} {code : Int}
    {message : String} :
    Wanders β bound .some (parseJump location targets flow code message) := by
  unfold parseJump
  split <;> infer_instance

set_option synthInstance.maxSize 65536 in
instance parseReturn_wanders {location : Location} :
    Wanders β bound .some (parseReturn recurse location) := by
  unfold parseReturn
  dsimp only
  infer_instance

instance parseLocals_wanders {t : Ty} : Wanders β bound .some (parseLocals recurse t) := by
  unfold parseLocals
  infer_instance

instance enterBlock_wanders {id : Id} : Wanders β bound .some (enterBlock id) := by
  unfold enterBlock
  infer_instance

instance branchTo_wanders {target : Id} : Wanders β bound .some (branchTo target) := by
  unfold branchTo
  infer_instance

instance branchIf_wanders {condition yes no : Id} :
    Wanders β bound .some (branchIf condition yes no) := by
  unfold branchIf
  infer_instance

instance makeBlock_wanders : Wanders β bound .some makeBlock := by
  unfold makeBlock
  infer_instance

instance parseElse_wanders : Wanders β bound .some (parseElse recurse) := by
  unfold parseElse
  infer_instance

set_option synthInstance.maxSize 65536 in
instance parseIf_wanders {location : Location} {hint : ControlHint} :
    Wanders β bound .some (parseIf recurse location hint) := by
  unfold parseIf
  infer_instance

instance parseCaseValue_wanders {s : Cases} :
    Wanders β bound .some (parseCaseValue recurse s) := by
  unfold parseCaseValue
  dsimp only
  infer_instance

instance addDefault_reads {s : Cases} : Reads .some (addDefault s) := by
  unfold addDefault
  dsimp only
  infer_instance

instance endLabel_reads {s : Cases} : Reads .some (endLabel s) := by
  unfold endLabel
  infer_instance

/-- Reads a label. -/
def labelsRound (recurse : Recurse) (s : Cases) : ParseM (Cases ⊕ Option Cases) := do
  if ← accept .caseWord then
    match ← parseCaseValue recurse s with
    | some s => endLabel s
    | none => return .inr none
  else if ← accept .defaultWord then endLabel (← addDefault s)
  else return .inr (some s)

theorem parseLabels_eq (s : Cases) : parseLabels recurse s = loop (labelsRound recurse) s := rfl

instance labelsRound_consumes {s : Cases} :
    Wanders β bound .consuming (labelsRound recurse s) := by
  unfold labelsRound
  infer_instance

instance parseLabels_wanders {s : Cases} : Wanders β bound .some (parseLabels recurse s) := by
  rw [parseLabels_eq]
  infer_instance

set_option synthInstance.maxSize 65536 in
instance endCase_wanders {s : Cases} {isLast : Bool} :
    Wanders β bound .some (endCase s isLast) := by
  unfold endCase
  infer_instance

instance parseSection_wanders {s : Cases} :
    Wanders β bound .consuming (parseSection recurse s) := by
  unfold parseSection
  infer_instance

/-- Reads labels and a statement behind them. -/
def casesRound (recurse : Recurse) (s : Cases) : ParseM (Cases ⊕ Option Cases) := do
  if ← peek .eof then return .inr (some s)
  let some s ← parseLabels recurse s | return .inr none
  parseSection recurse s

theorem parseCases_eq (s : Cases) : parseCases recurse s = loop (casesRound recurse) s := rfl

instance casesRound_consumes {s : Cases} : Wanders β bound .consuming (casesRound recurse s) := by
  unfold casesRound
  infer_instance

instance parseCases_wanders {s : Cases} : Wanders β bound .some (parseCases recurse s) := by
  rw [parseCases_eq]
  infer_instance

instance parseSwitchBody_wanders {location : Location} {selector selectorEnd merge : Id}
    {hint : ControlHint} :
    Wanders β bound .some (parseSwitchBody recurse location selector selectorEnd merge hint) := by
  unfold parseSwitchBody
  infer_instance

instance parseSwitch_wanders {location : Location} {hint : ControlHint} :
    Wanders β bound .some (parseSwitch recurse location hint) := by
  unfold parseSwitch
  infer_instance

instance makeLoopBlocks_wanders : Wanders β bound .some makeLoopBlocks := by
  unfold makeLoopBlocks
  infer_instance

instance openLoop_wanders {b : LoopBlocks} {first : Id} :
    Wanders β bound .some (openLoop b first) := by
  unfold openLoop
  infer_instance

instance parseLoopBody_wanders {b : LoopBlocks} {newScope : Bool} :
    Wanders β bound .some (parseLoopBody recurse b newScope) := by
  unfold parseLoopBody
  infer_instance

instance closeLoop_wanders {location : Location} {b : LoopBlocks}
    {condition before conditionEnd bodyEnd : Id} {hint : ControlHint} :
    Wanders β bound .some (closeLoop location b condition before conditionEnd bodyEnd hint) := by
  unfold closeLoop
  infer_instance

/-- What stands where no type is may be an expression, and has to be one if it is a name. -/
theorem parseLocalsOrExpression_ends {s : Surroundings} {r : Reader} {g : Generator β}
    (hdepth : 6 * r.left + 4 ≤ bound) (hr : r.left < r.rounds) (hg : Sane r g) :
    Concludes (parseLocalsOrExpression recurse) s r g fun ok r' g' =>
      Advances r g r' g' ∧ (ok = true → r'.left < r.left) := by
  unfold parseLocalsOrExpression
  refine Concludes.bind_read (parseType_ends hr) fun type r₁ htype => ?_
  cases type with
  | some t =>
    have hadv := htype.advances hg
    have hlt := (htype.leads rfl).2
    have hroom : 6 * r.left ≤ bound := by omega
    exact Concludes.of_wanders .some inferInstance (.of_lt hroom hr hadv.leads hlt) hadv.sane
      fun ok r' g' h _ =>
      ⟨hadv.trans h, fun _ => Nat.lt_of_le_of_lt h.leads.left hlt⟩
  | none =>
    have hle := htype.tries.left
    have hpends := htype.tries.pends hg
    refine (htame.ends .sequence (show 6 * r₁.left + 3 < bound by omega) (htype.tries.ready hr)
      hpends.sane).bind fun e r' g' hread => ?_
    obtain ⟨h, hlt⟩ := hread
    refine Concludes.pure ⟨hpends.advances h fun hname => hlt (.inr hname.opens), fun he => ?_⟩
    exact Nat.lt_of_lt_of_le (hlt (.inl he)) hle

/-- What a for loop does first may be missing where no type is. -/
instance parseForStart_wanders : Wanders β bound .some (parseForStart recurse) where
  ends s r g hr hg := by
    unfold parseForStart
    refine Concludes.bind_read (parseType_ends hr.rounds) fun type r₁ htype => ?_
    cases type with
    | some t =>
      have hadv := htype.advances hg
      exact Concludes.of_wanders .some inferInstance (hr.leads hadv.leads) hadv.sane
        fun ok r' g' h hp =>
        ⟨hadv.trans h, hp⟩
    | none =>
      have hle := htype.tries.left
      have hdepth := hr.depth
      have hpends := htype.tries.pends hg
      refine Concludes.bind_read
        (peek_ends (Q := fun c r' => c = decide (r₁.next.kind = .semicolon) ∧ r₁ = r')
          ⟨rfl, rfl⟩) ?_
      rintro _ r₁ ⟨rfl, rfl⟩
      split
      · rename_i hsemicolon
        have hkind := of_decide_eq_true hsemicolon
        refine Concludes.pure ⟨hpends.advances (.refl hpends.sane) fun hname => ?_, trivial⟩
        rcases hname with hname | hname <;> rw [hkind] at hname <;> cases hname
      · refine (htame.ends .sequence (show 6 * r₁.left + 3 < bound by omega)
          (htype.tries.ready hr.rounds) hpends.sane).bind fun e r' g' ⟨h, hlt⟩ => ?_
        exact Concludes.pure ⟨hpends.advances h fun hname => hlt (.inr hname.opens), trivial⟩

instance parseForCondition_wanders {b : LoopBlocks} :
    Wanders β bound .some (parseForCondition recurse b) := by
  unfold parseForCondition
  infer_instance

instance parseForStep_wanders : Wanders β bound .some (parseForStep recurse) := by
  unfold parseForStep
  infer_instance

set_option synthInstance.maxSize 65536 in
instance parseFor_wanders {location : Location} {hint : ControlHint} :
    Wanders β bound .some (parseFor recurse location hint) := by
  unfold parseFor
  infer_instance

set_option synthInstance.maxSize 65536 in
instance parseWhile_wanders {location : Location} {hint : ControlHint} :
    Wanders β bound .some (parseWhile recurse location hint) := by
  unfold parseWhile
  infer_instance

set_option synthInstance.maxSize 65536 in
instance parseDo_wanders {location : Location} {hint : ControlHint} :
    Wanders β bound .some (parseDo recurse location hint) := by
  unfold parseDo
  infer_instance

instance inScope_wanders {part : ParseM Bool} [Wanders β bound .some part] :
    Wanders β bound .some (inScope part) := by
  unfold inScope
  infer_instance

/-- A statement with a keyword has cost that. -/
theorem parseKeywordStatement_ends {h : Hints} {s : Surroundings} {r : Reader} {g : Generator β}
    (hdepth : 6 * r.left ≤ bound) (hr : r.left < r.rounds) (hg : Sane r g) :
    Concludes (parseKeywordStatement? recurse h) s r g fun found r' g' =>
      Advances r g r' g' ∧ (found.isSome → r'.left < r.left) ∧ (found = none → r' = r) := by
  unfold parseKeywordStatement?
  refine Concludes.bind_read
    (nextToken_ends (Q := fun t r' => t = r.next ∧ r' = r) ⟨rfl, rfl⟩) ?_
  rintro _ r ⟨rfl, rfl⟩
  have hbehind {part : ParseM Bool} (hpart : Wanders β bound .some part)
      (hend : r.next.kind ≠ .eof) :
      Concludes (do consume; return some (← part)) s r g fun found r' g' =>
        Advances r g r' g' ∧ (found.isSome → r'.left < r.left)
          ∧ (found = none → r' = r) := by
    refine Concludes.bind_read (consume_ends (Q := fun _ r' => r' = r.consumed) rfl) ?_
    rintro _ _ rfl
    have hlt := Reader.left_consumed_lt hend
    have hadv := r.moves_consumed.advances hg
    refine (hpart.ends (.of_lt hdepth hr hadv.leads hlt) hadv.sane).bind
      fun ok r' g' ⟨h', _⟩ => ?_
    exact Concludes.pure ⟨hadv.trans h', fun _ => Nat.lt_of_le_of_lt h'.leads.left hlt, nofun⟩
  dsimp only
  split
  all_goals first
    | exact hbehind inferInstance (by simp_all)
    | exact Concludes.pure ⟨.refl hg, nofun, fun _ => rfl⟩

theorem parseSimpleStatement_ends {s : Surroundings} {r : Reader} {g : Generator β}
    (hdepth : 6 * r.left + 4 ≤ bound) (hr : r.left < r.rounds) (hg : Sane r g) :
    Concludes (parseSimpleStatement recurse) s r g fun ok r' g' =>
      Advances r g r' g' ∧ (ok = true → r'.left < r.left) := by
  unfold parseSimpleStatement
  refine (parseLocalsOrExpression_ends hdepth hr hg).bind fun ok r₁ g₁ ⟨h, hlt⟩ => ?_
  have hr₁ : r₁.left < r₁.rounds := h.leads.rounds ▸ Nat.lt_of_le_of_lt h.leads.left hr
  cases ok with
  | true =>
    refine Concludes.read (((inferInstance : Reads .some (expect .semicolon)).ends hr₁).mono
      fun ok r' ⟨hmoves, _⟩ => ?_)
    exact ⟨h.trans (hmoves.advances h.sane), fun _ => Nat.lt_of_le_of_lt hmoves.left (hlt rfl)⟩
  | false =>
    refine Concludes.read
      (((inferInstance : Reads .stopping (failAfter .semicolon)).ends hr₁).mono
        fun ok r' ⟨hmoves, hp⟩ => ?_)
    exact ⟨h.trans (hmoves.advances h.sane), fun hok => absurd hok hp⟩

omit [Backend.Lasting β] in
/-- The block of a statement costs its brace. -/
theorem parseBlock_ends {newScope : Bool} {s : Surroundings} {r : Reader} {g : Generator β}
    (hdepth : 6 * r.left ≤ bound) (hr : r.left < r.rounds) (hg : Sane r g) :
    Concludes (parseBlock recurse newScope) s r g fun ok r' g' =>
      Advances r g r' g' ∧ (ok = true → r'.left < r.left) := by
  unfold parseBlock
  refine Concludes.bind_read
    (expect_ends (Q := fun ok r' => if ok = true then r.next.kind = .braceOpen ∧ r' = r.consumed
    else r.Stays r') (fun h => ⟨h, rfl⟩) fun _ _ h => h) ?_
  rintro (_ | _) r₁ hr₁
  · exact Concludes.pure ⟨hr₁.moves.advances hg, nofun⟩
  · obtain ⟨hkind, rfl⟩ := hr₁
    have hlt := Reader.left_consumed_lt (r := r) (hkind ▸ nofun)
    have hadv := r.moves_consumed.advances hg
    refine Concludes.of_wanders .some ?_ (.of_lt hdepth hr hadv.leads hlt) hadv.sane
      fun ok r' g' h _ =>
      ⟨hadv.trans h, fun _ => Nat.lt_of_le_of_lt h.leads.left hlt⟩
    infer_instance

/-- A statement that is right costs a token. -/
theorem parseStatement_ends {newScope : Bool} {s : Surroundings} {r : Reader} {g : Generator β}
    (hdepth : 6 * r.left + 4 ≤ bound) (hr : r.left < r.rounds) (hg : Sane r g) :
    Concludes (parseStatement recurse newScope) s r g fun ok r' g' =>
      Advances r g r' g' ∧ (ok = true → r'.left < r.left) := by
  unfold parseStatement
  refine (Concludes.ask hg).bind fun inBlock r' g₁ hasked => ?_
  obtain ⟨hr', h⟩ := hasked
  obtain rfl := hr'.symm
  split
  · refine Concludes.bind_read (nextToken_ends (Q := fun _ r₁ => r = r₁) rfl) ?_
    rintro t _ rfl
    refine Concludes.bind_read (error_ends (Q := fun _ r₁ => r.Stays r₁) fun _ h => h)
      fun _ _ hstays => ?_
    exact Concludes.pure ⟨h.trans (hstays.moves.advances h.sane),
      fun hok => absurd hok Bool.false_ne_true⟩
  refine Concludes.bind_read (parseAttributes_reads.ends hr) fun hints r₁ hread => ?_
  obtain ⟨hmoves, -⟩ := hread
  have h := h.trans (hmoves.advances h.sane)
  have hle := hmoves.left
  have hr₁ := hmoves.ready hr
  have hdepth₁ : 6 * r₁.left + 4 ≤ bound := by omega
  have hroom : 6 * r₁.left ≤ bound := by omega
  -- Attributes may be read without a token less being left, so that the rest is measured from
  -- behind them.
  have hbehind {ok : Bool} {r' : Reader} {g' : Generator β}
      (h' : Advances r₁ g₁ r' g' ∧ (ok = true → r'.left < r₁.left)) :
      Advances r g r' g' ∧ (ok = true → r'.left < r.left) :=
    ⟨h.trans h'.1, fun hok => Nat.lt_of_lt_of_le (h'.2 hok) hle⟩
  cases hints with
  | none => exact Concludes.pure ⟨h, fun hok => absurd hok Bool.false_ne_true⟩
  | some hints =>
    refine Concludes.bind_read (peek_ends (Q := fun _ r' => r₁ = r') rfl) ?_
    rintro isBlock _ rfl
    split
    · exact (parseBlock_ends hroom hr₁ h.sane).mono fun ok r' g' => hbehind
    refine Concludes.afterToken ?_ ?_ hroom hr₁ h.sane ?_ fun _ => ?_
    · decide
    · rw [if_pos rfl]
      infer_instance
    · exact fun ok r' g' h' hlt => hbehind ⟨h', fun _ => hlt⟩
    rw [if_neg Bool.false_ne_true]
    refine (Concludes.ask h.sane).bind fun inFunction r₂ g₂ hasked => ?_
    obtain ⟨hr₂, h₂⟩ := hasked
    obtain rfl := hr₂.symm
    have hsimple (r₃ : Reader) (g₃ : Generator β) (heq : r₃ = r₁)
        (h₃ : Advances r₁ g₁ r₃ g₃) :
        Concludes (parseSimpleStatement recurse) s r₃ g₃ fun ok r' g' =>
          Advances r g r' g' ∧ (ok = true → r'.left < r.left) := by
      subst heq
      exact (parseSimpleStatement_ends hdepth₁ hr₁ h₃.sane).mono fun ok r' g' h' =>
        hbehind ⟨h₃.trans h'.1, h'.2⟩
    dsimp only
    split
    · refine (parseKeywordStatement_ends hroom hr₁ h₂.sane).bind
        fun found r₃ g₃ hfound => ?_
      obtain ⟨h₃, hlt, hnone⟩ := hfound
      have h₃ := h₂.trans h₃
      cases found with
      | some ok => exact Concludes.pure (hbehind ⟨h₃, fun _ => hlt rfl⟩)
      | none => exact hsimple r₃ g₃ (hnone rfl) h₃
    · exact hsimple r₁ g₂ rfl h₂

instance withSemantic_reads {m : Member} {semantic : String} :
    Reads .some (withSemantic m semantic) := by
  unfold withSemantic
  infer_instance

instance parseSeparator_reads {fields : Fields} : Reads .some (parseSeparator fields) := by
  unfold parseSeparator
  infer_instance

omit [Backend β] [Backend.Lasting β] htame in
theorem parseParameterType_ends {r : Reader} (hr : r.left < r.rounds) :
    Ends parseParameterType r fun found r' =>
    r.Tries r' ∧ ∀ t ∈ found, TypeParsed (some t) r r' := by
  unfold parseParameterType
  refine (parseType_ends hr).bind fun found r₁ htype => ?_
  cases found with
  | some t => exact Ends.pure ⟨htype.tries, fun t' ht' => Option.some.inj ht' ▸ htype⟩
  | none =>
    refine Ends.bind (nextToken_ends (Q := fun _ r' => r₁ = r') rfl) ?_
    rintro t _ rfl
    exact Ends.bind (error_ends (Q := fun _ r' => r₁.Stays r') fun _ h => h) fun _ r' hstays =>
      Ends.pure ⟨htype.tries.stays hstays, by simp⟩

omit [Backend.Lasting β] in
/-- A parameter may end where its type was looked for. -/
theorem parseParameter_ends {fields : Fields} {s : Surroundings} {r : Reader} {g : Generator β}
    (hr : Ready bound r) (hg : Sane r g) :
    Concludes (parseParameter recurse fields) s r g fun found r' g' =>
      Pends r g r' g' ∧ (found.isSome → Advances r g r' g' ∧ r'.left < r.left) := by
  unfold parseParameter
  refine Concludes.bind_read (parseSeparator_reads.ends hr.rounds) fun ok r₁ ⟨hmoves, _⟩ => ?_
  have h := hmoves.advances hg
  split
  · exact Concludes.pure ⟨h.pends, nofun⟩
  refine Concludes.bind_read (parseParameterType_ends (hmoves.ready hr.rounds))
    fun type r₂ ⟨htries, htype⟩ => ?_
  cases type with
  | none => exact Concludes.pure ⟨h.trans_pends (htries.pends h.sane), nofun⟩
  | some t =>
    have htype := htype t rfl
    have hlt := Nat.lt_of_lt_of_le (htype.leads rfl).2 hmoves.left
    have h := h.trans (htype.advances h.sane)
    refine Concludes.of_wanders .some ?_ (hr.leads h.leads) h.sane fun found r' g' h' _ =>
      ⟨(h.trans h').pends, fun _ => ⟨h.trans h', Nat.lt_of_le_of_lt h'.leads.left hlt⟩⟩
    infer_instance

/-- Reads a parameter, or skips to behind the list after an error. -/
def parametersRound (recurse : Recurse) (s : Fields) : ParseM (Fields ⊕ (Fields × Bool)) := do
  if ← peek .parenClose then return .inr (s, true)
  match ← parseParameter recurse s with
  | some s => return .inl s
  | none =>
    consumeUntil .parenClose
    return .inr ({ s with valid := false }, false)

theorem parseParameters_eq : parseParameters recurse = loop (parametersRound recurse) {} := rfl

instance parametersRound_consumes {fields : Fields} :
    Wanders β bound .consuming (parametersRound recurse fields) where
  ends s r g hr hg := by
    unfold parametersRound
    refine Concludes.bind_read (peek_ends (Q := fun _ r' => r' = r) rfl) fun closing r' hr' => ?_
    obtain rfl := hr'.symm
    split
    · exact Concludes.pure ⟨.refl hg, nofun⟩
    · refine Concludes.behindPending .parenClose
        (pure (.inr ({ fields with valid := false }, false))) ?_ inferInstance ?_ hr
        (parseParameter_ends hr hg)
      · rfl
      · exact fun s => inferInstance

instance parseParameters_wanders : Wanders β bound .some (parseParameters recurse) := by
  rw [parseParameters_eq]
  infer_instance

instance parseResultSemantic_reads {name : String} {t : Ty} :
    Reads .some (parseResultSemantic name t) := by
  unfold parseResultSemantic
  infer_instance

instance closeParameters_reads {complete : Bool} : Reads .some (closeParameters complete) := by
  unfold closeParameters
  infer_instance

instance parseSignature_wanders {location : Location} {name uniqueName : String} {t : Ty} :
    Wanders β bound .some (parseSignature recurse location name uniqueName t) := by
  unfold parseSignature
  dsimp only
  infer_instance

instance declareParameters_reads {parameters : List Member} :
    Reads .some (declareParameters parameters) := by
  induction parameters with
  | nil => exact .pure
  | cons m rest ih =>
    unfold declareParameters
    infer_instance

instance functionSymbol_isFalse {id : Id} {decl : Option FunctionDecl} :
    IsFalse (namesStruct (functionSymbol id decl)) := ⟨rfl⟩

set_option synthInstance.maxSize 65536 in
instance parseBody_wanders {location : Location} {decl : FunctionDecl} :
    Wanders β bound .some (parseBody recurse location decl) := by
  unfold parseBody
  infer_instance

/-- The type of the result is kept while a function is read. -/
instance returnType_wanders {t : Ty} :
    Wanders β bound .some (modify fun p : Reader => { p with returnType := t } : ParseM PUnit) :=
  .modify fun r => ⟨⟨Nat.le_refl _, rfl, .inl rfl⟩, .refl r⟩

/-- Reads a function from behind its name, up to its end. There is nothing if it has no body. -/
def parseDefinition (recurse : Recurse) (location : Location) (name unique : String) (t : Ty) :
    ParseM (Option Bool) := do
  match ← parseSignature recurse location name unique t with
  | none => return none
  | some (decl, valid) => return some ((← parseBody recurse location decl) && valid)

theorem parseScoped_eq (recurse : Recurse) {location : Location} {name unique : String} {t : Ty} :
    (do
      enterScope
      match ← parseSignature recurse location name unique t with
      | none =>
        leaveScope
        return false
      | some (decl, valid) =>
        let ok ← parseBody recurse location decl
        leaveScope
        emit .leaveFunction
        return ok && valid : ParseM Bool) = (do
      enterScope
      let found ← parseDefinition recurse location name unique t
      leaveScope
      match found with
      | none => return false
      | some ok =>
        emit .leaveFunction
        return ok) := by
  simp only [parseDefinition, bind_assoc]
  congr
  funext _
  congr
  funext signature
  cases signature <;> simp only [bind_assoc, pure_bind]

set_option synthInstance.maxSize 65536 in
instance parseFunction_wanders {t : Ty} : Wanders β bound .some (parseFunction recurse t) := by
  unfold parseFunction
  infer_instance

end
end ShaderEffect.Parser

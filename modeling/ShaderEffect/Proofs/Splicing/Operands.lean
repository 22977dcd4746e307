import ShaderEffect.Proofs.Splicing.Rules

namespace ShaderEffect

-- The parser's longer parts consist of more than a hundred steps.

/-- Whether the expressions that lie inside of others keep a block to add code to. -/
class Evaluates (recurse : Parser.Recurse) : Prop where
  unary : ∀ {inside}, Keeps inside (recurse .unary : ParseM (Option Expression))
  multary : ∀ {inside strength},
    Keeps inside (recurse (.multary strength) : ParseM (Option Expression))
  assignment : ∀ {inside}, Keeps inside (recurse .assignment : ParseM (Option Expression))
  sequence : ∀ {inside}, Keeps inside (recurse .sequence : ParseM (Option Expression))

attribute [instance] Evaluates.unary Evaluates.multary Evaluates.assignment Evaluates.sequence

namespace Parser

variable {inside : Bool}

instance load_stays {e : Expression} : Keeps inside (load e) := by
  unfold load
  infer_instance

instance applyStep_stays {location : Location} {kind : Token.Kind} {e : Expression} {value : Id} :
    Keeps inside (applyStep location kind e value) := by
  unfold applyStep
  infer_instance

instance parseStepBehind_stays {location : Location} {kind : Token.Kind} {e : Expression} :
    Keeps inside (parseStepBehind location kind e) := by
  unfold parseStepBehind
  infer_instance

instance selectMember_stays {e : Expression} {location : Location} {name : String} :
    Keeps inside (selectMember e location name) := by
  unfold selectMember
  refine .of_bind .emit fun decl => ?_
  dsimp only
  split <;> infer_instance

instance selectDynamic_stays {e index : Expression} : Keeps inside (selectDynamic e index) := by
  unfold selectDynamic
  infer_instance

instance parseMember_stays {e : Expression} : Keeps inside (parseMember e) := by
  unfold parseMember
  dsimp only
  infer_instance

section

variable {recurse : Recurse} [Evaluates recurse]

instance parseIndex_stays {e : Expression} : Keeps inside (parseIndex recurse e) := by
  unfold parseIndex
  infer_instance

instance parsePostfix_stays {e : Expression} : Keeps inside (parsePostfix recurse e) := by
  unfold parsePostfix
  refine .of_loop fun e => .of_bind inferInstance fun t => ?_
  dsimp only
  split <;> infer_instance

omit [Evaluates recurse] in
instance applyUnary_stays {location : Location} {op : UnaryOp} {e : Expression} :
    Keeps inside (applyUnary location op e) := by
  unfold applyUnary
  infer_instance

instance parsePrefix_stays {kind : Token.Kind} {location : Location} :
    Keeps inside (parsePrefix recurse kind location) := by
  unfold parsePrefix
  refine .of_bind inferInstance fun e => ?_
  cases e with
  | none => infer_instance
  | some e =>
    dsimp only
    split
    · infer_instance
    · split <;> infer_instance

instance parseCast_stays {location : Location} {t : Ty} :
    Keeps inside (parseCast recurse location t) := by
  unfold parseCast
  infer_instance

instance parseParenthesized_stays {location : Location} :
    Keeps inside (parseParenthesized recurse location) := by
  unfold parseParenthesized
  refine .of_bind inferInstance
    fun _ => .of_bind inferInstance fun type => .of_bind inferInstance fun isConstructor => ?_
  cases type <;> infer_instance

instance parseElement_stays {s : Elements} : Keeps inside (parseElement recurse s) := by
  unfold parseElement
  infer_instance

omit [Evaluates recurse] in
instance arrayOf_stays {location : Location} {s : Elements} :
    Keeps inside (arrayOf location s) := by
  unfold arrayOf
  infer_instance

instance parseInitializerList_stays {location : Location} :
    Keeps inside (parseInitializerList recurse location) := by
  unfold parseInitializerList
  infer_instance

omit [Evaluates recurse] in
instance loadComponents_stays {base : Base} {arg : Expression} :
    Keeps inside (loadComponents base arg) := by
  unfold loadComponents
  infer_instance

omit [Evaluates recurse] in
instance construct_stays {location : Location} {t : Ty} {args : List Expression} :
    Keeps inside (construct location t args) := by
  unfold construct
  split
  · infer_instance
  · split <;> infer_instance

instance parseArguments_stays {close : Token.Kind} {check : Expression → ParseM Bool}
    [∀ arg, Keeps inside (check arg)] :
    Keeps inside (parseArguments recurse close check) := by
  unfold parseArguments
  infer_instance

set_option synthInstance.maxSize 65536 in
instance parseConstructor_stays {t : Ty} {location : Location} :
    Keeps inside (parseConstructor recurse t location) := by
  unfold parseConstructor
  dsimp only
  infer_instance

omit [Evaluates recurse] in
instance prepareArgument_stays {isUser : Bool} {arg : Expression} {t : Ty} :
    Keeps inside (prepareArgument isUser arg t) := by
  unfold prepareArgument
  infer_instance

omit [Evaluates recurse] in
instance prepareArguments_stays {isUser : Bool} {args : List (Expression × Member)} :
    Keeps inside (prepareArguments isUser args) := by
  induction args with
  | nil => exact .pure
  | cons first rest ih =>
    unfold prepareArguments
    infer_instance

omit [Evaluates recurse] in
instance emitCall_stays {location : Location} {symbol : Symbol} {args : List Expression} :
    Keeps inside (emitCall location symbol args) := by
  unfold emitCall
  dsimp only
  refine .of_bind inferInstance fun pairs => ?_
  cases pairs with
  | none => infer_instance
  | some pairs =>
    refine .of_bind inferInstance fun _ => ?_
    split <;> infer_instance

set_option synthInstance.maxSize 65536 in
instance parseCall_stays {n : Named} {location : Location} :
    Keeps inside (parseCall recurse n location) := by
  unfold parseCall
  dsimp only
  infer_instance

instance parseIdentifier_stays {location : Location} :
    Keeps inside (parseIdentifier recurse location) := by
  unfold parseIdentifier
  refine .of_bind inferInstance fun n => ?_
  cases n with
  | none => infer_instance
  | some n =>
    refine .of_bind inferInstance fun isCall => ?_
    split
    · infer_instance
    · split <;> infer_instance

instance parseOperand_stays : Keeps inside (parseOperand recurse) := by
  unfold parseOperand
  refine .of_bind inferInstance fun t => ?_
  dsimp only
  split
  case h_10 =>
    split
    · infer_instance
    · infer_instance
  all_goals infer_instance

instance parseUnary_stays : Keeps inside (parseUnary recurse) := by
  unfold parseUnary
  refine .of_bind inferInstance fun read => ?_
  split <;> infer_instance

end

/-- Blocks are only branched between where there is a function to generate them in. -/
theorem visits_canBranch {α : Type} {allowed : Bool} {f : Bool → ParseM α} {s : Surroundings}
    {r : Reader} {m : Moment} {Q : α → Reader → Moment → Prop} (h : m.Sound)
    (hyes : m.inFunction = true → Visits (f true) s r m Q) (hno : Visits (f false) s r m Q) :
    Visits (canBranch allowed >>= f) s r m Q := by
  cases allowed with
  | false => exact hno
  | true =>
    refine .isInFunction h ?_
    cases hin : m.inFunction with
    | true => exact hyes hin
    | false => exact hno

instance applyBinary_stays {op : BinaryOp} {l r : Expression} {leftValue : Id} {t : Ty} :
    Keeps inside (applyBinary op l r leftValue t) := by
  unfold applyBinary
  dsimp only
  infer_instance

section

open Moment

variable {m₀ m : Moment} {reserved seen : List Id} {s : Surroundings} {r : Reader}

/-- The code in front of a short circuit is put into the block behind it. -/
theorem joinRight_visits {b : Branches} {e right : Expression} {value leftValue : Id} {t : Ty}
    (h : m₀.Underway [b.merge] seen m) (hcurrent : m.current ≠ 0) (hleft : b.left ∈ seen)
    (hright : b.right ∈ seen) :
    Visits (joinRight b e right value leftValue t) s r m fun _ _ m' => m₀.Stays true m' := by
  unfold joinRight
  refine .branchIf h hcurrent fun leftEnd m₁ h₁ _ => ?_
  refine .select h₁ (.inr (List.mem_cons_of_mem _ hright)) fun m₂ h₂ hcurrent₂ => ?_
  refine .keep h₂ (hcurrent₂ ▸ h.ne_zero hright)
    fun rightValue r₃ m₃ h₃ hcurrent₃ => ?_
  refine .branch h₃ hcurrent₃ fun rightEnd m₄ h₄ _ =>
    .enter [] h₄ fun m₅ h₅ hopened => ?_
  refine .splice rfl h₅ (hopened.later b.left (by simp [hleft]))
    fun result m₆ h₆ hcurrent₆ => ?_
  exact .pure (h₆.stays (hcurrent₆ ▸ hopened.ne_zero))

theorem closeRight_visits {b : Branches} {op : BinaryOp} {condition e right : Expression}
    {leftValue : Id} {t : Ty} (h : m₀.Underway [b.merge] seen m) (hcurrent : m.current ≠ 0)
    (hleft : b.left ∈ seen) (hright : b.right ∈ seen) :
    Visits (closeRight b op condition e right leftValue t) s r m
      fun _ _ m' => m₀.Stays true m' := by
  unfold closeRight
  refine .keep h hcurrent fun condition' r₁ m₁ h₁ hcurrent₁ =>
    .keep h₁ hcurrent₁ fun value r₂ m₂ h₂ hcurrent₂ => ?_
  split
  · refine .keep h₂ hcurrent₂ fun negated r₃ m₃ h₃ hcurrent₃ => ?_
    exact joinRight_visits h₃ hcurrent₃ hleft hright
  · exact joinRight_visits h₂ hcurrent₂ hleft hright

variable {recurse : Recurse} [Evaluates recurse]

/-- The left operand goes on in the block it began in, whatever the right one entered. -/
instance parseBinary_stays {op : BinaryOp} {l : Expression} :
    Keeps inside (parseBinary recurse op l) where
  visits {s r m} h := by
    unfold parseBinary
    refine .bind_surroundings (visits_canBranch h.sound (fun hin => ?_) ?_)
    · obtain rfl : inside = true := h.function.symm.trans hin
      simp only [if_true, openRight, bind_map_left, bind_assoc, pure_bind]
      refine .select ((Underway.start h.sound hin).see (h.current rfl)) (.inl rfl)
        fun m₁ h₁ _ => ?_
      refine .make h₁ fun right m₂ h₂ _ =>
        .make h₂ fun merge m₃ h₃ _ => .enter [] h₃ fun m₄ h₄ hopened => ?_
      refine .keep h₄ hopened.ne_zero fun operand r₅ m₅ h₅ hcurrent₅ => ?_
      rcases operand with _ | operand
      · exact .pure (h₅.stays hcurrent₅)
      refine .bind_read fun converted r₆ _ => ?_
      rcases converted with _ | ⟨t, l', right'⟩
      · exact .pure (h₅.stays hcurrent₅)
      refine .select h₅ (.inr (by simp)) fun m₆ h₆ hcurrent₆ => ?_
      have hcurrent₆ : m₆.current ≠ 0 := hcurrent₆ ▸ h.current rfl
      refine .keep h₆ hcurrent₆ fun folded r₇ m₇ h₇ hcurrent₇ => ?_
      rcases folded with _ | folded
      · refine .keep h₇ hcurrent₇ fun leftValue r₈ m₈ h₈ hcurrent₈ => ?_
        exact .bind (closeRight_visits h₈ hcurrent₈ (by simp) (by simp)) fun _ _ _ h => .pure h
      · exact .pure (h₇.stays hcurrent₇)
    · have hplain : Keeps inside (do
          let some r ← recurse (.multary op.strength) | return none
          let some (t, l, r) ← convertOperands op l r | return none
          if let some folded ← foldConstants? op l r then return some folded
          let leftValue ← load l
          return some (← applyBinary op l r leftValue t) : ParseM (Option Expression)) :=
        inferInstance
      exact hplain.visits h

omit [Evaluates recurse] in
/-- The code in front of a conditional expression is put into the block behind it. -/
theorem selectOne_visits {arms : Arms} {c yes no : Expression} {t : Ty}
    (h : m₀.Underway [arms.merge] seen m)
    (hcondition : arms.condition ∈ seen) (hyes : arms.yes ∈ seen) (hno : arms.no ∈ seen) :
    Visits (selectOne arms c yes no t) s r m fun _ _ m' => m₀.Stays true m' := by
  unfold selectOne
  refine .select h (.inr hcondition) fun m₁ h₁ hcurrent₁ => ?_
  refine .keep h₁ (hcurrent₁ ▸ h.ne_zero hcondition) fun c' r₂ m₂ h₂ hcurrent₂ => ?_
  refine .keep h₂ hcurrent₂ fun value r₃ m₃ h₃ hcurrent₃ =>
    .branchIf h₃ hcurrent₃ fun conditionEnd m₄ h₄ _ => ?_
  refine .select h₄ (.inr (by simp [hyes])) fun m₅ h₅ hcurrent₅ => ?_
  refine .keep h₅ (hcurrent₅ ▸ h.ne_zero hyes) fun yesValue r₆ m₆ h₆ hcurrent₆ => ?_
  refine .branch h₆ hcurrent₆ fun yesEnd m₇ h₇ _ => ?_
  refine .select h₇ (.inr (by simp [hno])) fun m₈ h₈ hcurrent₈ => ?_
  refine .keep h₈ (hcurrent₈ ▸ h.ne_zero hno) fun noValue r₉ m₉ h₉ hcurrent₉ => ?_
  refine .branch h₉ hcurrent₉ fun noEnd m₁₀ h₁₀ _ => ?_
  refine .enter [] h₁₀ fun m₁₁ h₁₁ hopened => ?_
  refine .splice rfl h₁₁ (hopened.later arms.condition (by simp [hcondition]))
    fun result m₁₂ h₁₂ hcurrent₁₂ => ?_
  exact .pure (h₁₂.stays (hcurrent₁₂ ▸ hopened.ne_zero))

omit [Evaluates recurse] in
instance selectBoth_stays {c yes no : Expression} {t : Ty} :
    Keeps inside (selectBoth c yes no t) := by
  unfold selectBoth
  infer_instance

/-- The condition goes on in the block it began in, whatever the values entered. -/
instance parseConditional_stays {c : Expression} : Keeps inside (parseConditional recurse c) where
  visits {s r m} h := by
    unfold parseConditional
    split
    · exact .bind_read fun _ _ _ => .pure (.refl h)
    refine .bind_surroundings (visits_canBranch h.sound (fun hin => ?_) ?_)
    · obtain rfl : inside = true := h.function.symm.trans hin
      simp only [if_true, openArms, bind_map_left, bind_assoc, pure_bind]
      refine .make ((Underway.start h.sound hin).see (h.current rfl))
        fun merge m₁ h₁ hcurrent₁ => ?_
      refine .select h₁ (.inl rfl) fun m₂ h₂ _ =>
        .make h₂ fun yesBlock m₃ h₃ _ => .make h₃ fun noBlock m₄ h₄ _ => ?_
      refine .enter [merge] h₄ fun m₅ h₅ hopened =>
        .keep h₅ hopened.ne_zero fun yes r₆ m₆ h₆ hcurrent₆ => ?_
      rcases yes with _ | yes
      · exact .pure (h₆.stays hcurrent₆)
      refine .bind_read fun isColon r₇ _ => ?_
      cases isColon with
      | false => exact .pure (h₆.stays hcurrent₆)
      | true =>
        refine .select h₆ (.inl rfl) fun m₈ h₈ _ =>
          .enter [merge] h₈ fun m₉ h₉ hopened => ?_
        refine .keep h₉ hopened.ne_zero fun no r₁₀ m₁₀ h₁₀ hcurrent₁₀ => ?_
        rcases no with _ | no
        · exact .pure (h₁₀.stays hcurrent₁₀)
        refine .bind_read fun converted r₁₁ _ => ?_
        rcases converted with _ | ⟨t, yes', no'⟩
        · exact .pure (h₁₀.stays hcurrent₁₀)
        exact .bind (selectOne_visits h₁₀ (by simp [hcurrent₁]) (by simp) (by simp))
          fun _ _ _ h => .pure h
    · have hplain : Keeps inside (do
          let some yes ← recurse .sequence | return none
          if !(← expect .colon) then return none
          let some no ← recurse .assignment | return none
          let some (t, yes, no) ← convertArms c yes no | return none
          return some (← selectBoth c yes no t) : ParseM (Option Expression)) := inferInstance
      exact hplain.visits h

instance parseMultary_stays {strength : Nat} : Keeps inside (parseMultary recurse strength) := by
  unfold parseMultary
  refine .of_bind inferInstance fun first => ?_
  cases first with
  | none => infer_instance
  | some first =>
    refine .of_loop fun e => .of_bind inferInstance fun t => ?_
    dsimp only
    split
    · infer_instance
    · split
      · infer_instance
      · refine .of_bind inferInstance fun _ => ?_
        split <;> infer_instance

omit [Evaluates recurse] in
instance assign_stays {op : Option BinaryOp} {l r : Expression} : Keeps inside (assign op l r) := by
  unfold assign
  cases op <;> infer_instance

instance parseAssignment_stays : Keeps inside (parseAssignment recurse) := by
  unfold parseAssignment
  refine .of_bind inferInstance fun l => ?_
  cases l with
  | none => infer_instance
  | some l =>
    refine .of_bind inferInstance fun t => ?_
    split <;> infer_instance

instance parseSequence_stays : Keeps inside (parseSequence recurse) := by
  unfold parseSequence
  infer_instance

omit [Evaluates recurse] in
instance parseCommaSeparated_stays {α : Type} {item : α → ParseM (Option α)} {a : α}
    [∀ a, Keeps inside (item a)] :
    Keeps inside (parseCommaSeparated item a) := by
  unfold parseCommaSeparated
  infer_instance

instance parseLength_stays : Keeps inside (parseLength recurse) := by
  unfold parseLength
  dsimp only
  infer_instance

instance parseArraySize_stays {t : Ty} : Keeps inside (parseArraySize recurse t) := by
  unfold parseArraySize
  infer_instance

set_option synthInstance.maxSize 65536 in
instance parseAnnotation_stays : Keeps inside ( parseAnnotation recurse) := by
  unfold parseAnnotation
  infer_instance

instance parseAnnotations_stays : Keeps inside (parseAnnotations recurse) := by
  unfold parseAnnotations
  infer_instance

instance parseField_stays {t : Ty} {s : Fields} : Keeps inside (parseField recurse t s) := by
  unfold parseField
  infer_instance

instance parseFields_stays : Keeps inside (parseFields recurse) := by
  unfold parseFields
  infer_instance

set_option synthInstance.maxSize 65536 in
instance parseStruct_stays : Keeps inside (parseStruct recurse) := by
  unfold parseStruct
  refine .of_bind inferInstance
    fun token => .of_bind inferInstance fun name => .of_bind inferInstance fun unique => ?_
  infer_instance

instance parseStateValue_stays {values : List (String × UInt32)} :
    Keeps inside (parseStateValue recurse values) := by
  unfold parseStateValue
  refine .of_bind inferInstance fun _ => .of_bind inferInstance fun isName => ?_
  split
  · refine .of_bind inferInstance fun t => ?_
    cases values.lookup (Text.upper t.text) <;> infer_instance
  · infer_instance

omit [Evaluates recurse] in
instance applyTexture_stays {r : Resource} {e : Expression} : Keeps inside (applyTexture r e) := by
  unfold applyTexture
  infer_instance

set_option synthInstance.maxSize 65536 in
instance parseProperty_stays {r : Resource} : Keeps inside (parseProperty recurse r) := by
  unfold parseProperty
  infer_instance

instance parseProperties_stays : Keeps inside (parseProperties recurse) := by
  unfold parseProperties
  infer_instance

instance parseInitializer_stays {name : String} {t : Ty} {isGlobal : Bool} :
    Keeps inside (parseInitializer recurse name t isGlobal) := by
  unfold parseInitializer
  dsimp only
  infer_instance

instance parseValue_stays {location : Location} {name : String} {isGlobal : Bool} {tail : Tail} :
    Keeps inside (parseValue recurse location name isGlobal tail) := by
  unfold parseValue
  dsimp only
  infer_instance

instance parseTail_stays {location : Location} {name : String} {t : Ty} {isGlobal : Bool} :
    Keeps inside (parseTail recurse location name t isGlobal) := by
  unfold parseTail
  infer_instance

omit [Evaluates recurse] in
instance defineStorage_stays {location : Location} {name : String} {tail : Tail} {isGlobal : Bool} :
    Keeps inside (defineStorage location name tail isGlobal) := by
  unfold defineStorage
  cases tail.init <;> infer_instance

omit [Evaluates recurse] in
instance defineSymbol_stays {location : Location} {name : String} {tail : Tail} {isGlobal : Bool} :
    Keeps inside (defineSymbol location name tail isGlobal) := by
  unfold defineSymbol
  dsimp only
  split <;> infer_instance

instance parseVariable_stays {t : Ty} {isGlobal : Bool} :
    Keeps inside (parseVariable recurse t isGlobal) := by
  unfold parseVariable
  infer_instance

instance parseGlobal_stays {t : Ty} {isFirst : Bool} :
    Keeps inside (parseGlobal recurse t isFirst) := by
  unfold parseGlobal
  infer_instance

instance parseGlobals_stays {t : Ty} : Keeps inside (parseGlobals recurse t) := by
  unfold parseGlobals
  infer_instance

set_option synthInstance.maxSize 65536 in
instance parseParameter_stays {s : Fields} : Keeps inside (parseParameter recurse s) := by
  unfold parseParameter
  infer_instance

instance parseParameters_stays : Keeps inside (parseParameters recurse) := by
  unfold parseParameters
  infer_instance

instance parseSignature_stays {location : Location} {name uniqueName : String} {t : Ty} :
    Keeps inside (parseSignature recurse location name uniqueName t) := by
  unfold parseSignature
  dsimp only
  infer_instance

section

omit [Evaluates recurse]

variable {d : PassDraft} {n : Named} {location : Location}

/-- Entry points are defined for passes, which no function contains. -/
instance assignShader_stays {isPixel : Bool} : Keeps false (assignShader d isPixel n location) := by
  unfold assignShader
  infer_instance

instance assignRenderTarget_stays {index : Nat} :
    Keeps inside (assignRenderTarget d index n location) := by
  unfold assignRenderTarget
  infer_instance

instance parseReference_stays {reference : PassReference} :
    Keeps false (parseReference d reference) := by
  unfold parseReference
  cases reference <;> infer_instance

end

instance parsePassValue_stays {d : PassDraft} {state : Token} :
    Keeps inside (parsePassValue recurse d state) := by
  unfold parsePassValue
  refine .of_bind inferInstance fun e => ?_
  cases e with
  | none => infer_instance
  | some e =>
    dsimp only
    split
    · refine .of_bind inferInstance fun _ => .of_bind inferInstance fun e => ?_
      split <;> infer_instance
    · refine .of_bind inferInstance fun e => ?_
      split <;> infer_instance

instance parsePassState_stays {d : PassDraft} : Keeps false (parsePassState recurse d) := by
  unfold parsePassState
  refine .of_bind inferInstance fun isName => ?_
  split
  · infer_instance
  refine .of_bind inferInstance fun state => .of_bind inferInstance fun isSet => ?_
  split
  · infer_instance
  split <;> infer_instance

instance parsePassStates_stays : Keeps false (parsePassStates recurse) := by
  unfold parsePassStates
  infer_instance

set_option synthInstance.maxSize 65536 in
instance parsePass_stays : Keeps false (parsePass recurse) := by
  unfold parsePass
  infer_instance

instance parsePasses_stays : Keeps false (parsePasses recurse) := by
  unfold parsePasses
  infer_instance

instance parseTechnique_stays : Keeps false (parseTechnique recurse) := by
  unfold parseTechnique
  infer_instance

end
end Parser
end ShaderEffect

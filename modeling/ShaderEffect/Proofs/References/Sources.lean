import ShaderEffect.Proofs.Reading.Sources
import ShaderEffect.Proofs.References.Operands

namespace ShaderEffect

variable {Γ : Set Id}

namespace Includes

/-- Only the name of a structure refers to its id. -/
instance declared {kind : Symbol.Kind} {id : Id} {t : Ty} {value : Constant}
    {function : Option FunctionDecl} {intrinsic : Option Intrinsic}
    [hkind : IsFalse (Parser.namesStruct ⟨kind, id, t, value, function, intrinsic⟩)]
    [ht : Includes Γ (refs t)] [hfunction : Includes Γ (refs function)] :
    Includes Γ (refs (Symbol.mk kind id t value function intrinsic)) :=
  ⟨Symbol.refs_subset
    (fun hstruct => absurd (Parser.namesStruct_iff.mpr hstruct)
      (Bool.eq_false_iff.mp hkind.eq_false)) ht.subset hfunction.subset⟩

instance structSymbol {id : Id} [hid : Includes Γ (Id.named id)] :
    Includes Γ (refs ({ kind := .struct, id } : Symbol)) :=
  ⟨Symbol.refs_subset (fun _ => hid.subset) named_zero refs_none⟩

end Includes

namespace Parser

/-- A new name refers to what is known, like those that were there. -/
instance declare_grounded {name : String} {symbol : Symbol} {isGlobal : Bool}
    [hsymbol : Includes Γ (refs symbol)] :
    Grounded Γ (declare name symbol isGlobal) refs where
  ensures := by
    intro K r ok r' hrun hΓ hr
    obtain ⟨r₁, r₂, hget, hrun⟩ := bind_eq_ok.mp hrun
    obtain ⟨rfl, rfl⟩ := get_eq_ok.mp hget
    obtain ⟨found, r₃, hfound, hrun⟩ := bind_eq_ok.mp hrun
    obtain ⟨hinsert, rfl⟩ := liftM_eq_ok.mp hfound
    cases found with
    | none =>
      obtain ⟨-, rfl⟩ := pure_eq_ok.mp hrun
      exact ⟨hr, Set.empty_subset _⟩
    | some symbols =>
      obtain ⟨_, r₂, hset, hrun⟩ := bind_eq_ok.mp hrun
      obtain ⟨-, rfl⟩ := pure_eq_ok.mp hrun
      obtain rfl := set_eq_ok.mp hset
      obtain ⟨hsymbols, hreturn⟩ := Set.union_subset_iff.mp hr
      refine ⟨Set.union_subset (refs_list_subset fun e he => ?_) hreturn, Set.empty_subset _⟩
      obtain he | hnew := (insert_spec hinsert).2 e he
      · exact (refs_subset_of_mem he).trans hsymbols
      · exact (congrArg refs hnew.symbol).subset.trans (hsymbol.subset.trans hΓ)

instance declareOnce_grounded {location : Location} {name : String} {symbol : Symbol}
    {isGlobal : Bool} [Includes Γ (refs symbol)] :
    Grounded Γ (declareOnce location name symbol isGlobal) refs := by
  unfold declareOnce
  infer_instance

instance declarationError_grounded {location : Location} {code : Int} {name message : String} :
    Grounded Γ (declarationError location code name message) refs := by
  unfold declarationError
  infer_instance

instance reportFailed_grounded {location : Location} {name : String}
    {checks : List (Bool × Int × String)} :
    Grounded Γ (reportFailed location name checks) refs := by
  unfold reportFailed
  infer_instance

/-- What the items of a list keep, the list keeps. -/
instance parseCommaSeparated_grounded {α : Type} [References α] {item : α → ParseM (Option α)}
    {a : α} [hitem : ∀ a, Grounded (Γ ∪ refs a) (item a) refs] [ha : Includes Γ (refs a)] :
    Grounded Γ (parseCommaSeparated item a) refs := by
  rw [parseCommaSeparated_eq]
  have (c : Bool × α) : Grounded (Γ ∪ refs c) (itemsRound item c) refs := by
    obtain ⟨isFirst, a⟩ := c
    have ha : refs a ⊆ Γ ∪ refs (isFirst, a) :=
      Set.subset_union_right.trans Set.subset_union_right
    have : Includes (Γ ∪ refs (isFirst, a)) (refs a) := ⟨ha⟩
    have := (hitem a).weaken (Set.union_subset Set.subset_union_left ha)
    unfold itemsRound
    infer_instance
  infer_instance

instance parseSemantic_grounded : Grounded Γ parseSemantic refs := by
  unfold parseSemantic
  infer_instance

section

variable {recurse : Recurse} [Resolving recurse]

instance parseLength_grounded : Grounded Γ (parseLength recurse) refs := by
  unfold parseLength
  infer_instance

set_option synthInstance.maxSize 65536 in
instance parseArraySize_grounded {t : Ty} [Includes Γ (refs t)] :
    Grounded Γ (parseArraySize recurse t) refs := by
  unfold parseArraySize
  infer_instance

set_option synthInstance.maxSize 65536 in
instance parseAnnotation_grounded : Grounded Γ ( parseAnnotation recurse) refs := by
  unfold parseAnnotation
  infer_instance

instance parseAnnotations_grounded : Grounded Γ (parseAnnotations recurse) refs := by
  unfold parseAnnotations
  infer_instance

instance parseField_grounded {t : Ty} {s : Fields} [Includes Γ (refs t)] [Includes Γ (refs s)] :
    Grounded Γ (parseField recurse t s) refs := by
  unfold parseField
  infer_instance

set_option synthInstance.maxSize 65536 in
instance parseFields_grounded : Grounded Γ (parseFields recurse) refs := by
  unfold parseFields
  infer_instance

instance parseStructName_grounded {location : Location} :
    Grounded Γ (parseStructName location) refs := by
  unfold parseStructName
  infer_instance

set_option synthInstance.maxSize 65536 in
/-- A structure is known once it is defined, and its name then stands for it. -/
instance parseStruct_grounded : Grounded Γ (parseStruct recurse) refs := by
  unfold parseStruct
  infer_instance

instance applyTexture_grounded {resource : Resource} {e : Expression} [Includes Γ (refs e)] :
    Grounded Γ (applyTexture resource e) refs := by
  unfold applyTexture
  infer_instance

instance applyNumber_grounded {resource : Resource} {location : Location} {name : String}
    {e : Expression} [Includes Γ (refs e)] :
    Grounded Γ (applyNumber resource location name e) refs := by
  unfold applyNumber
  split
  · infer_instance
  · refine .pass fun e => ?_
    split <;> infer_instance

instance parseStateValue_grounded {values : List (String × UInt32)} :
    Grounded Γ (parseStateValue recurse values) refs := by
  unfold parseStateValue
  refine .pass fun _ => .pass fun isName => ?_
  split
  · refine .pass fun t => ?_
    split <;> infer_instance
  · infer_instance

set_option synthInstance.maxSize 65536 in
instance parseProperty_grounded {resource : Resource} :
    Grounded Γ (parseProperty recurse resource) refs := by
  unfold parseProperty
  infer_instance

instance parseProperties_grounded : Grounded Γ (parseProperties recurse) refs := by
  unfold parseProperties
  infer_instance

instance checkGlobal_grounded {location : Location} {name : String} {t : Ty}
    [Includes Γ (refs t)] :
    Grounded Γ (checkGlobal location name t) refs := by
  unfold checkGlobal
  infer_instance

instance checkLocal_grounded {location : Location} {name : String} {t : Ty} [Includes Γ (refs t)] :
    Grounded Γ (checkLocal location name t) refs := by
  unfold checkLocal
  infer_instance

instance checkVariable_grounded {location : Location} {name : String} {t : Ty} {isGlobal : Bool}
    [Includes Γ (refs t)] :
    Grounded Γ (checkVariable location name t isGlobal) refs := by
  unfold checkVariable
  infer_instance

instance parseInitializer_grounded {name : String} {t : Ty} {isGlobal : Bool}
    [Includes Γ (refs t)] :
    Grounded Γ (parseInitializer recurse name t isGlobal) refs := by
  unfold parseInitializer
  infer_instance

instance parseValue_grounded {location : Location} {name : String} {isGlobal : Bool} {tail : Tail}
    [Includes Γ (refs tail)] :
    Grounded Γ (parseValue recurse location name isGlobal tail) refs := by
  unfold parseValue
  infer_instance

instance parseTail_grounded {location : Location} {name : String} {t : Ty} {isGlobal : Bool}
    [Includes Γ (refs t)] :
    Grounded Γ (parseTail recurse location name t isGlobal) refs := by
  unfold parseTail
  infer_instance

instance checkSampler_grounded {location : Location} {name : String} {resource : Resource} :
    Grounded Γ (checkSampler location name resource) refs := by
  unfold checkSampler
  infer_instance

instance defineStorage_grounded {location : Location} {name : String} {tail : Tail}
    {isGlobal : Bool} [htail : Includes Γ (refs tail)] :
    Grounded Γ (defineStorage location name tail isGlobal) refs := by
  unfold defineStorage
  cases hinit : tail.init with
  | none => infer_instance
  | some e =>
    have : Includes Γ (refs e) :=
      ⟨refs_some.symm.subset.trans (hinit ▸ (Includes.tailInit (t := tail)).subset)⟩
    infer_instance

instance defineSymbol_grounded {location : Location} {name : String} {tail : Tail} {isGlobal : Bool}
    [Includes Γ (refs tail)] : Grounded Γ (defineSymbol location name tail isGlobal) refs := by
  unfold defineSymbol
  dsimp only
  split <;> infer_instance

set_option synthInstance.maxSize 65536 in
instance parseVariable_grounded {t : Ty} {isGlobal : Bool} [Includes Γ (refs t)] :
    Grounded Γ (parseVariable recurse t isGlobal) refs := by
  unfold parseVariable
  infer_instance

end

instance enterScope_grounded : Grounded Γ enterScope refs :=
  .modifyReader fun _ => Set.subset_union_right

instance leaveScope_grounded : Grounded Γ leaveScope refs :=
  .modifyReader fun _ => (Set.union_subset_union_left _
    (refs_subset_of_subset fun _ he => (List.mem_filter.mp he).1)).trans Set.subset_union_right

instance inScope_grounded {part : ParseM Bool} [Grounded Γ part refs] :
    Grounded Γ (inScope part) refs := by
  unfold inScope
  infer_instance

set_option synthInstance.maxSize 65536 in
instance parseAttributes_grounded : Grounded Γ parseAttributes refs := by
  unfold parseAttributes
  infer_instance

instance skipBlock_grounded : Grounded Γ skipBlock refs := by
  unfold skipBlock
  infer_instance

section

variable {recurse : Recurse} [Resolving recurse]

instance parseStatements_grounded : Grounded Γ (parseStatements recurse) refs := by
  unfold parseStatements
  infer_instance

set_option synthInstance.maxSize 65536 in
instance parseBlock_grounded {newScope : Bool} :
    Grounded Γ (parseBlock recurse newScope) refs := by
  unfold parseBlock
  infer_instance

instance parseInParentheses_grounded : Grounded Γ (parseInParentheses recurse) refs := by
  unfold parseInParentheses
  infer_instance

instance loadScalar_grounded {e : Expression} {base : Base} {message : String}
    [Includes Γ (refs e)] : Grounded Γ (loadScalar e base message) refs := by
  unfold loadScalar
  infer_instance

instance parseCondition_grounded {message : String} :
    Grounded Γ (parseCondition recurse message) refs := by
  unfold parseCondition
  infer_instance

instance parseJump_grounded {location : Location} {targets : List Id} {flow : Flow} {code : Int}
    {message : String} :
    Grounded Γ (parseJump location targets flow code message) refs := by
  unfold parseJump
  split <;> infer_instance

set_option synthInstance.maxSize 65536 in
instance parseReturn_grounded {location : Location} :
    Grounded Γ (parseReturn recurse location) refs := by
  unfold parseReturn
  dsimp only
  infer_instance

instance parseLocals_grounded {t : Ty} [Includes Γ (refs t)] :
    Grounded Γ (parseLocals recurse t) refs := by
  unfold parseLocals
  infer_instance

instance enterBlock_grounded {id : Id} : Grounded Γ (enterBlock id) refs := by
  unfold enterBlock
  infer_instance

instance branchTo_grounded {target : Id} : Grounded Γ (branchTo target) refs := by
  unfold branchTo
  infer_instance

instance branchIf_grounded {condition yes no : Id} :
    Grounded Γ (branchIf condition yes no) refs := by
  unfold branchIf
  infer_instance

instance makeBlock_grounded : Grounded Γ makeBlock refs := by
  unfold makeBlock
  infer_instance

instance parseElse_grounded : Grounded Γ (parseElse recurse) refs := by
  unfold parseElse
  infer_instance

set_option synthInstance.maxSize 65536 in
instance parseIf_grounded {location : Location} {hint : ControlHint} :
    Grounded Γ (parseIf recurse location hint) refs := by
  unfold parseIf
  infer_instance

instance parseCaseValue_grounded {s : Cases} :
    Grounded Γ (parseCaseValue recurse s) refs := by
  unfold parseCaseValue
  infer_instance

instance addDefault_grounded {s : Cases} : Grounded Γ (addDefault s) refs := by
  unfold addDefault
  infer_instance

instance endLabel_grounded {s : Cases} : Grounded Γ (endLabel s) refs := by
  unfold endLabel
  infer_instance

instance parseLabels_grounded {s : Cases} : Grounded Γ (parseLabels recurse s) refs := by
  unfold parseLabels
  infer_instance

set_option synthInstance.maxSize 65536 in
instance endCase_grounded {s : Cases} {isLast : Bool} :
    Grounded Γ (endCase s isLast) refs := by
  unfold endCase
  infer_instance

instance parseSection_grounded {s : Cases} :
    Grounded Γ (parseSection recurse s) refs := by
  unfold parseSection
  infer_instance

instance parseCases_grounded {s : Cases} :
    Grounded Γ (parseCases recurse s) refs := by
  unfold parseCases
  infer_instance

instance parseSwitchBody_grounded {location : Location} {selector selectorEnd merge : Id}
    {hint : ControlHint} :
    Grounded Γ (parseSwitchBody recurse location selector selectorEnd merge hint) refs := by
  unfold parseSwitchBody
  infer_instance

instance parseSwitch_grounded {location : Location} {hint : ControlHint} :
    Grounded Γ (parseSwitch recurse location hint) refs := by
  unfold parseSwitch
  infer_instance

instance makeLoopBlocks_grounded : Grounded Γ makeLoopBlocks refs := by
  unfold makeLoopBlocks
  infer_instance

instance openLoop_grounded {b : LoopBlocks} {first : Id} : Grounded Γ (openLoop b first) refs := by
  unfold openLoop
  infer_instance

instance parseLoopBody_grounded {b : LoopBlocks} {newScope : Bool} :
    Grounded Γ (parseLoopBody recurse b newScope) refs := by
  unfold parseLoopBody
  infer_instance

instance closeLoop_grounded {location : Location} {b : LoopBlocks}
    {condition before conditionEnd bodyEnd : Id} {hint : ControlHint} :
    Grounded Γ (closeLoop location b condition before conditionEnd bodyEnd hint) refs := by
  unfold closeLoop
  infer_instance

instance parseLocalsOrExpression_grounded : Grounded Γ (parseLocalsOrExpression recurse) refs := by
  unfold parseLocalsOrExpression
  infer_instance

instance parseForStart_grounded : Grounded Γ (parseForStart recurse) refs := by
  unfold parseForStart
  infer_instance

instance parseForCondition_grounded {b : LoopBlocks} :
    Grounded Γ (parseForCondition recurse b) refs := by
  unfold parseForCondition
  infer_instance

instance parseForStep_grounded : Grounded Γ (parseForStep recurse) refs := by
  unfold parseForStep
  infer_instance

set_option synthInstance.maxSize 65536 in
instance parseFor_grounded {location : Location} {hint : ControlHint} :
    Grounded Γ (parseFor recurse location hint) refs := by
  unfold parseFor
  infer_instance

instance parseWhile_grounded {location : Location} {hint : ControlHint} :
    Grounded Γ (parseWhile recurse location hint) refs := by
  unfold parseWhile
  infer_instance

set_option synthInstance.maxSize 65536 in
instance parseDo_grounded {location : Location} {hint : ControlHint} :
    Grounded Γ (parseDo recurse location hint) refs := by
  unfold parseDo
  infer_instance

instance parseKeywordStatement_grounded {h : Hints} :
    Grounded Γ (parseKeywordStatement? recurse h) refs := by
  unfold parseKeywordStatement?
  refine .pass fun t => ?_
  dsimp only
  split <;> infer_instance

instance parseSimpleStatement_grounded : Grounded Γ (parseSimpleStatement recurse) refs := by
  unfold parseSimpleStatement
  infer_instance

set_option synthInstance.maxSize 65536 in
instance parseStatement_grounded {newScope : Bool} :
    Grounded Γ (parseStatement recurse newScope) refs := by
  unfold parseStatement
  infer_instance

end

instance withSemantic_grounded {m : Member} {semantic : String} [Includes Γ (refs m)] :
    Grounded Γ (withSemantic m semantic) refs := by
  unfold withSemantic
  infer_instance

instance parseParameterType_grounded : Grounded Γ parseParameterType refs := by
  unfold parseParameterType
  infer_instance

instance parseSeparator_grounded {fields : Fields} : Grounded Γ (parseSeparator fields) refs := by
  unfold parseSeparator
  infer_instance

instance parseResultSemantic_grounded {name : String} {t : Ty} :
    Grounded Γ (parseResultSemantic name t) refs := by
  unfold parseResultSemantic
  infer_instance

instance closeParameters_grounded {complete : Bool} :
    Grounded Γ (closeParameters complete) refs := by
  unfold closeParameters
  infer_instance

section

variable {recurse : Recurse} [Resolving recurse]

set_option synthInstance.maxSize 65536 in
instance parseParameter_grounded {s : Fields} [Includes Γ (refs s)] :
    Grounded Γ (parseParameter recurse s) refs := by
  unfold parseParameter
  infer_instance

/-- What is missing of a list of parameters was reported. -/
instance parseParameters_grounded : Grounded Γ (parseParameters recurse) refs := by
  unfold parseParameters
  infer_instance

instance parseSignature_grounded {location : Location} {name uniqueName : String} {t : Ty}
    [Includes Γ (refs t)] :
    Grounded Γ (parseSignature recurse location name uniqueName t) refs := by
  unfold parseSignature
  dsimp only
  infer_instance

end

/-- What returns a value refers to the type that is known. -/
instance returnType_grounded {t : Ty} [ht : Includes Γ (refs t)] :
    Grounded Γ (modify fun p : Reader => { p with returnType := t } : ParseM PUnit) refs :=
  .modify fun _ => Set.union_subset (Set.subset_union_left.trans Set.subset_union_right)
    (ht.subset.trans Set.subset_union_left)

instance declareParameters_grounded {ps : List Member} [hps : Includes Γ (refs ps)] :
    Grounded Γ (declareParameters ps) refs := by
  replace hps := hps.subset
  induction ps with
  | nil =>
    unfold declareParameters
    infer_instance
  | cons p ps ih =>
    obtain ⟨hp, hps⟩ := Set.union_subset_iff.mp (refs_cons.symm.subset.trans hps)
    have : Includes Γ (refs p) := ⟨hp⟩
    have := ih hps
    unfold declareParameters
    infer_instance

section

variable {recurse : Recurse} [Resolving recurse]

set_option synthInstance.maxSize 65536 in
instance parseBody_grounded {location : Location} {decl : FunctionDecl} [Includes Γ (refs decl)] :
    Grounded Γ (parseBody recurse location decl) refs := by
  unfold parseBody functionSymbol
  infer_instance

set_option synthInstance.maxSize 65536 in
instance parseFunction_grounded {t : Ty} [Includes Γ (refs t)] :
    Grounded Γ (parseFunction recurse t) refs := by
  unfold parseFunction
  infer_instance

end

instance checkSemantics_grounded {location : Location} {decl : FunctionDecl} :
    Grounded Γ (checkSemantics location decl) refs := by
  unfold checkSemantics
  infer_instance

instance checkInput_grounded {location : Location} {decl : FunctionDecl} {outputs : Table String Ty}
    {m : Member} :
    Grounded Γ (checkInput location decl outputs m) refs := by
  unfold checkInput
  dsimp only
  split <;> infer_instance

instance checkStages_grounded {location : Location} {vertex pixel : FunctionDecl} :
    Grounded Γ (checkStages location vertex pixel) refs := by
  unfold checkStages
  infer_instance

instance checkPass_grounded {location : Location} {d : PassDraft} :
    Grounded Γ (checkPass location d) refs := by
  unfold checkPass
  split
  · dsimp only
    split <;> infer_instance
  · infer_instance

section

variable {d : PassDraft} {n : Named} {location : Location}

instance assignShader_grounded {isPixel : Bool} :
    Grounded Γ (assignShader d isPixel n location) refs := by
  unfold assignShader
  infer_instance

instance assignRenderTarget_grounded {index : Nat} :
    Grounded Γ (assignRenderTarget d index n location) refs := by
  unfold assignRenderTarget
  infer_instance

instance parseReference_grounded {reference : PassReference} :
    Grounded Γ (parseReference d reference) refs := by
  unfold parseReference
  cases reference <;> infer_instance

end

section

variable {recurse : Recurse} [Resolving recurse]

instance parsePassValue_grounded {d : PassDraft} {state : Token} :
    Grounded Γ (parsePassValue recurse d state) refs := by
  unfold parsePassValue
  refine .andThenOption (fun e => ?_) inferInstance
  dsimp only
  split
  · refine .pass fun _ => .andThen refs fun e => ?_
    split <;> infer_instance
  · refine .andThen refs fun e => ?_
    split <;> infer_instance

instance parsePassState_grounded {d : PassDraft} : Grounded Γ (parsePassState recurse d) refs := by
  unfold parsePassState
  refine .pass fun isName => ?_
  split
  · infer_instance
  refine .pass fun state => .pass fun isSet => ?_
  split
  · infer_instance
  split <;> infer_instance

instance parsePassStates_grounded : Grounded Γ (parsePassStates recurse) refs := by
  unfold parsePassStates
  infer_instance

set_option synthInstance.maxSize 65536 in
instance parsePass_grounded : Grounded Γ (parsePass recurse) refs := by
  unfold parsePass
  infer_instance

instance parsePasses_grounded : Grounded Γ (parsePasses recurse) refs := by
  unfold parsePasses
  infer_instance

instance parseTechnique_grounded : Grounded Γ (parseTechnique recurse) refs := by
  unfold parseTechnique
  infer_instance

/-- What is declared in a namespace stays declared behind it. -/
instance leaveNamespace_grounded {t : SymbolTable} [ht : Includes Γ (refs t)] :
    Grounded Γ t.leaveNamespace refs :=
  ⟨fun _ h =>
    (congrArg (refs (α := List SymbolTable.Entry)) (leaveNamespace_entries h)).subset.trans
      ht.subset⟩

instance setSymbols_grounded {t : SymbolTable} [ht : Includes Γ (refs t)] :
    Grounded Γ (modify fun p : Reader => { p with symbols := t } : ParseM PUnit) refs :=
  .modify fun _ => Set.union_subset (ht.subset.trans Set.subset_union_left)
    (Set.subset_union_right.trans Set.subset_union_right)

instance enterNamespace_grounded {name : String} :
    Grounded Γ (modify fun p :
    Reader => { p with symbols := p.symbols.enterNamespace name } : ParseM PUnit) refs :=
  .modify fun _ => Set.subset_union_right

set_option synthInstance.maxSize 65536 in
instance parseNamespace_grounded : Grounded Γ (parseNamespace recurse) refs := by
  unfold parseNamespace
  infer_instance

instance parseFunctionOrPlaceholder_grounded {t : Ty} [Includes Γ (refs t)] :
    Grounded Γ (parseFunctionOrPlaceholder recurse t) refs := by
  unfold parseFunctionOrPlaceholder functionSymbol
  infer_instance

instance parseGlobalName_grounded {isFirst : Bool} :
    Grounded Γ (parseGlobalName isFirst) refs := by
  unfold parseGlobalName
  infer_instance

instance parseGlobal_grounded {t : Ty} {isFirst : Bool} [Includes Γ (refs t)] :
    Grounded Γ (parseGlobal recurse t isFirst) refs := by
  unfold parseGlobal
  infer_instance

instance parseGlobals_grounded {t : Ty} [Includes Γ (refs t)] :
    Grounded Γ (parseGlobals recurse t) refs := by
  unfold parseGlobals
  infer_instance

set_option synthInstance.maxSize 65536 in
instance parseTyped_grounded : Grounded Γ (parseTyped recurse) refs := by
  unfold parseTyped
  infer_instance

instance parseDeclaration_grounded : Grounded Γ (parseDeclaration recurse) refs := by
  unfold parseDeclaration
  infer_instance

end

/-- The parts of the grammar refer to what is known, however deep they are nested. -/
instance parse_resolving (depth : Nat) : Resolving (parse depth) := by
  induction depth with
  | zero => exact ⟨.throw, .throw, .throw, .throw, .throw, .throw⟩
  | succ depth ih =>
    exact ⟨parseUnary_grounded, parseMultary_grounded, parseAssignment_grounded,
      parseSequence_grounded, parseStatement_grounded, parseDeclaration_grounded⟩

/-- A source starts without names. -/
instance start_grounded {cursor : Token.Cursor} {errors rounds : Nat} :
    Grounded Γ (modify fun p :
    Reader => { p with cursor, symbols := {}, errors, rounds } : ParseM PUnit) refs :=
  .modify fun _ => Set.union_subset (refs_nil (α := SymbolTable.Entry))
    (Set.subset_union_right.trans Set.subset_union_right)

instance parseDeclarations_grounded {source : String} :
    Grounded Γ (parseDeclarations source) refs := by
  unfold parseDeclarations
  infer_instance

end Parser
end ShaderEffect

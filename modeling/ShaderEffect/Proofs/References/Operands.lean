import ShaderEffect.Proofs.Reading.Operands
import ShaderEffect.Proofs.References.Rules

namespace ShaderEffect

-- The parser's longer parts consist of more than a hundred steps.

variable {Γ : Set Id}

namespace SymbolTable

variable {A : Set Id} {args : List Ty} {scope : Scope}

theorem refs_empty : refs ({} : Symbol) ⊆ A :=
  Symbol.refs_subset (fun hkind => absurd hkind (by decide)) named_zero refs_none

theorem refs_considerFunction {e : Entry} {fn : FunctionDecl} {c : Choice} (hfn : refs fn ⊆ A)
    (hc : refs c.symbol ⊆ A) (hkind : c.symbol.kind ≠ .struct) :
    refs (considerFunction args e fn c).symbol ⊆ A
      ∧ (considerFunction args e fn c).symbol.kind ≠ .struct := by
  unfold considerFunction
  dsimp only
  split
  · exact ⟨Symbol.refs_subset (absurd · hkind) (Set.subset_union_left.trans hfn)
      (refs_some.subset.trans hfn), hkind⟩
  · split <;> exact ⟨hc, hkind⟩
  · exact ⟨hc, hkind⟩

/-- A call stands for one of the functions that were declared. -/
theorem refs_chooseFunction (entries : List Entry) (hentries : refs entries ⊆ A) {c : Choice}
    (hc : refs c.symbol ⊆ A) (hkind : c.symbol.kind ≠ .struct) :
    refs (chooseFunction args scope entries c).symbol ⊆ A := by
  induction entries generalizing c with
  | nil => exact hc
  | cons e rest ih =>
    obtain ⟨he, hrest⟩ := Set.union_subset_iff.mp (refs_cons.symm.subset.trans hentries)
    unfold chooseFunction
    split
    · exact ih hrest hc hkind
    split
    · exact ih hrest hc hkind
    · rename_i fn hfunction
      have hfn : refs fn ⊆ A :=
        (refs_some.symm.subset.trans (hfunction ▸ Set.subset_union_right : refs (some fn)
          ⊆ refs e.symbol)).trans he
      split
      · exact Symbol.refs_subset (absurd · hkind) (Set.subset_union_left.trans hfn)
          (refs_some.subset.trans hfn)
      split
      · exact ih hrest hc hkind
      · obtain ⟨hc, hkind⟩ := refs_considerFunction (e := e) hfn hc hkind
        exact ih hrest hc hkind

/-- Built-in functions have to do with numbers and samplers. -/
theorem refs_overload {o : Intrinsic.Overload} (ho : o ∈ Intrinsic.overloads) :
    refs o.decl ⊆ A := by
  have hall : ∀ o ∈ Intrinsic.overloads, o.decl.returnType.definition = 0
      ∧ ∀ p ∈ o.decl.parameters, p.type.definition = 0 := by
    decide +kernel
  obtain ⟨hreturn, hparameters⟩ := hall o ho
  have hzero {t : Ty} (h : t.definition = 0) : refs t ⊆ A :=
    (congrArg Id.named h).subset.trans named_zero
  exact Set.union_subset (hzero hreturn) (refs_list_subset fun p hp => hzero (hparameters p hp))

theorem refs_considerIntrinsics (os : List Intrinsic.Overload) {c : Choice}
    (hos : os ⊆ Intrinsic.overloads)
    (hc : refs c.symbol ⊆ A) : refs (os.foldl (considerIntrinsic args) c).symbol ⊆ A := by
  induction os generalizing c with
  | nil => exact hc
  | cons o os ih =>
    obtain ⟨ho, hos⟩ := List.cons_subset.mp hos
    refine ih hos ?_
    have hdecl := refs_overload (A := A) ho
    unfold considerIntrinsic
    split
    · exact Symbol.refs_subset nofun (Set.subset_union_left.trans hdecl)
        (refs_some.subset.trans hdecl)
    · split <;> exact hc
    · exact hc

theorem refs_resolveCall (t : SymbolTable) (name : String) :
    refs (t.resolveCall name args scope).symbol ⊆ refs t := by
  have husers :
      refs (chooseFunction args scope (t.named name)
        { namespaceLevel := scope.namespaceLevel }).symbol ⊆ refs t :=
    refs_chooseFunction _
      (refs_subset_of_subset fun e he => (List.mem_filter.mp (List.mem_reverse.mp he)).1)
      (Symbol.refs_subset nofun named_zero refs_none) nofun
  unfold resolveCall
  dsimp only
  split
  · exact refs_considerIntrinsics _ (fun o ho => (List.mem_filter.mp ho).1) husers
  · exact husers

end SymbolTable

namespace Includes

variable {r : Reader} {name : String} {scope : Scope}

/-- What a name stands for was declared, or it stands for nothing. -/
instance found {exclusive : Bool} [h : Includes Γ (refs r)] :
    Includes Γ (refs (r.symbols.find name scope exclusive)) where
  subset := by
    obtain hnone | ⟨e, he, heq⟩ := Parser.find_eq_or r.symbols name scope exclusive
    · exact hnone ▸ SymbolTable.refs_empty
    · exact heq ▸ ((refs_subset_of_mem he).trans Set.subset_union_left).trans h.subset

instance resolved {args : List Ty} [h : Includes Γ (refs r)] :
    Includes Γ (refs (r.symbols.resolveCall name args scope).symbol) :=
  ⟨((SymbolTable.refs_resolveCall _ _).trans Set.subset_union_left).trans h.subset⟩

end Includes

namespace Parser

/-- What only changes the place in the text leaves the names as they are. -/
theorem modify_place {f : Reader → Reader} (hsymbols : ∀ r, (f r).symbols = r.symbols)
    (hreturn : ∀ r, (f r).returnType = r.returnType) :
    Grounded Γ (modify f : ReadM PUnit) refs :=
  .modifyReader fun r => by
    show refs (f r).symbols ∪ refs (f r).returnType ⊆ _
    rw [hsymbols, hreturn]
    exact Set.subset_union_right

instance consume_grounded : Grounded Γ consume refs := modify_place (fun _ => rfl) fun _ => rfl
instance save_grounded : Grounded Γ save refs := modify_place (fun _ => rfl) fun _ => rfl
instance restore_grounded : Grounded Γ restore refs := modify_place (fun _ => rfl) fun _ => rfl

instance error_grounded {location : Location} {code : Int} {message : String} :
    Grounded Γ (error location code message) refs :=
  modify_place (fun _ => rfl) fun _ => rfl

instance warning_grounded {location : Location} {code : Int} {message : String} :
    Grounded Γ (warning location code message) refs :=
  modify_place (fun _ => rfl) fun _ => rfl

instance currentToken_grounded : Grounded Γ currentToken refs := by
  unfold currentToken
  infer_instance

instance nextToken_grounded : Grounded Γ nextToken refs := by
  unfold nextToken
  infer_instance

instance peek_grounded {kind : Token.Kind} : Grounded Γ (peek kind) refs := by
  unfold peek
  infer_instance

instance scope_grounded : Grounded Γ scope refs := by
  unfold scope
  infer_instance

instance accept_grounded {kind : Token.Kind} : Grounded Γ (accept kind) refs := by
  unfold accept
  infer_instance

instance expect_grounded {kind : Token.Kind} : Grounded Γ (expect kind) refs := by
  unfold expect
  infer_instance

instance consumeUntil_grounded {kind : Token.Kind} : Grounded Γ (consumeUntil kind) refs := by
  unfold consumeUntil
  infer_instance

instance failAfter_grounded {kind : Token.Kind} : Grounded Γ (failAfter kind) refs := by
  unfold failAfter
  infer_instance

instance uniqueName_grounded {mark name : String} : Grounded Γ (uniqueName mark name) refs := by
  unfold uniqueName
  infer_instance

instance acceptPath_grounded {identifier : String} : Grounded Γ (acceptPath identifier) refs := by
  unfold acceptPath
  infer_instance

set_option synthInstance.maxSize 65536 in
instance acceptSymbol_grounded : Grounded Γ acceptSymbol refs := by
  unfold acceptSymbol
  infer_instance

instance warnTruncation_grounded {e : Expression} {t : Ty} :
    Grounded Γ (warnTruncation e t) refs := by
  unfold warnTruncation
  infer_instance

theorem refs_keywordType {kind : Token.Kind} {t : Ty} {A : Set Id}
    (h : keywordType? kind = some t) : refs t ⊆ A := by
  cases kind <;> simp only [keywordType?, reduceCtorEq, Option.some.injEq] at h <;> subst h
    <;> exact named_zero

section

variable {inner : ReadM (Option Ty)} [hinner : Grounded Γ inner refs]

instance expectDimension_grounded {code : Int} {message : String} :
    Grounded Γ (expectDimension code message) refs := by
  unfold expectDimension
  infer_instance

instance expectElement_grounded {noun : String} {code : Int} :
    Grounded Γ (expectElement inner noun code) refs := by
  unfold expectElement
  infer_instance

instance acceptVector_grounded : Grounded Γ (acceptVector inner) refs := by
  unfold acceptVector
  infer_instance

set_option synthInstance.maxSize 65536 in
instance acceptMatrix_grounded : Grounded Γ (acceptMatrix inner) refs := by
  unfold acceptMatrix
  infer_instance

end

/-- The name of a structure stands for a type only where it is known. -/
instance acceptTypeNested_grounded {depth : Nat} : Grounded Γ (acceptTypeNested depth) refs := by
  induction depth with
  | zero => exact .throw
  | succ depth ih =>
    unfold acceptTypeNested
    refine .pass fun isName => .pass fun isPath => ?_
    split
    · refine .pass fun _ => .andThenOption (fun n => ?_) inferInstance
      dsimp only
      split
      · rename_i hkind
        exact .of_pure fun i hi => .inr (.inl (.inl ⟨hkind, refs_some.subset hi⟩))
      · infer_instance
    · refine .pass fun _ => ?_
      split
      · infer_instance
      refine .pass fun _ => ?_
      split
      · infer_instance
      refine .pass fun t => ?_
      split
      · infer_instance
      · exact .pass fun _ => .of_pure (refs_some.subset.trans (refs_keywordType ‹_›))

instance acceptType_grounded : Grounded Γ acceptType refs := by
  unfold acceptType
  infer_instance

instance acceptQualifiers_grounded : Grounded Γ acceptQualifiers refs := by
  unfold acceptQualifiers
  infer_instance

instance parseType_grounded : Grounded Γ parseType refs := by
  unfold parseType
  infer_instance

end Parser

namespace Expression

variable {e : Expression} {t : Ty}

instance addSwizzle_grounded {lanes : List Int} {length : UInt32} [Includes Γ (refs e)] :
    Grounded Γ (e.addSwizzle lanes length) refs := by
  unfold addSwizzle
  infer_instance

set_option synthInstance.maxSize 65536 in
instance addCast_grounded [Includes Γ (refs e)] [Includes Γ (refs t)] :
    Grounded Γ (e.addCast t) refs := by
  unfold addCast
  infer_instance

instance addConstantIndex_grounded {index : UInt32} [Includes Γ (refs e)] :
    Grounded Γ (e.addConstantIndex index) refs := by
  unfold addConstantIndex
  infer_instance

instance foldUnary_grounded {op : UnaryOp} [Includes Γ (refs e)] :
    Grounded Γ (e.foldUnary? op) refs := by
  unfold foldUnary?
  infer_instance

instance foldBinary_grounded {op : BinaryOp} {r : Constant} [Includes Γ (refs e)] :
    Grounded Γ (e.foldBinary? op r) refs := by
  unfold foldBinary?
  infer_instance

end Expression

/-- Whether the parts of the grammar that contain each other are grounded. -/
class Resolving (recurse : Parser.Recurse) : Prop where
  unary : ∀ {Γ}, Grounded Γ (recurse .unary : ParseM (Option Expression)) refs
  multary : ∀ {Γ strength},
    Grounded Γ (recurse (.multary strength) : ParseM (Option Expression)) refs
  assignment : ∀ {Γ}, Grounded Γ (recurse .assignment : ParseM (Option Expression)) refs
  sequence : ∀ {Γ}, Grounded Γ (recurse .sequence : ParseM (Option Expression)) refs
  statement : ∀ {Γ newScope}, Grounded Γ (recurse (.statement newScope) : ParseM Bool) refs
  declaration : ∀ {Γ}, Grounded Γ (recurse .declaration : ParseM Bool) refs

attribute [instance] Resolving.unary Resolving.multary Resolving.assignment Resolving.sequence
  Resolving.statement Resolving.declaration

namespace Parser

instance load_grounded {e : Expression} [Includes Γ (refs e)] : Grounded Γ (load e) refs := by
  unfold load
  infer_instance

instance applyStep_grounded {location : Location} {kind : Token.Kind} {e : Expression} {value : Id}
    [Includes Γ (refs e)] :
    Grounded Γ (applyStep location kind e value) refs := by
  unfold applyStep
  infer_instance

instance parseStepBehind_grounded {location : Location} {kind : Token.Kind} {e : Expression}
    [Includes Γ (refs e)] :
    Grounded Γ (parseStepBehind location kind e) refs := by
  unfold parseStepBehind
  infer_instance

instance invalidSubscript_grounded {location : Location} {subscript reason : String} :
    Grounded Γ (invalidSubscript location subscript reason) refs := by
  unfold invalidSubscript
  infer_instance

instance swizzle_grounded {e : Expression} {location : Location} {subscript : String}
    {lanes : Except String (List Nat)}
    [Includes Γ (refs e)] : Grounded Γ (swizzle e location subscript lanes) refs := by
  unfold swizzle
  split <;> infer_instance

/-- The members of a structure that is known refer to what is known. -/
instance selectMember_grounded {e : Expression} {location : Location} {name : String}
    [Includes Γ (refs e)] :
    Grounded Γ (selectMember e location name) refs := by
  unfold selectMember
  refine .andThen refs fun decl => ?_
  extract_lets members
  split
  · infer_instance
  · rename_i m i hfind
    have : Includes (Γ ∪ refs decl) (refs m) :=
      have : Includes (Γ ∪ refs decl) (refs members) := inferInstance
      .of_mem (List.fst_mem_of_mem_zipIdx (List.mem_of_find?_eq_some hfind))
    infer_instance

instance parseMember_grounded {e : Expression} [Includes Γ (refs e)] :
    Grounded Γ (parseMember e) refs := by
  unfold parseMember
  dsimp only
  infer_instance

instance selectConstant_grounded {e index : Expression} [Includes Γ (refs e)] :
    Grounded Γ (selectConstant e index) refs := by
  unfold selectConstant
  infer_instance

instance selectDynamic_grounded {e index : Expression} [Includes Γ (refs e)]
    [Includes Γ (refs index)] :
    Grounded Γ (selectDynamic e index) refs := by
  unfold selectDynamic
  infer_instance

instance applyUnary_grounded {location : Location} {op : UnaryOp} {e : Expression}
    [Includes Γ (refs e)] :
    Grounded Γ (applyUnary location op e) refs := by
  unfold applyUnary
  infer_instance

instance giveUpElements_grounded : Grounded Γ giveUpElements refs := by
  unfold giveUpElements
  infer_instance

instance addElement_grounded {s : Elements} {e : Expression} [Includes Γ (refs s)]
    [Includes Γ (refs e)] :
    Grounded Γ (addElement s e) refs := by
  unfold addElement
  dsimp only
  infer_instance

instance arrayOf_grounded {location : Location} {s : Elements} [Includes Γ (refs s)] :
    Grounded Γ (arrayOf location s) refs := by
  unfold arrayOf
  infer_instance

instance prepareArgument_grounded {isUser : Bool} {arg : Expression} {t : Ty}
    [Includes Γ (refs arg)] [Includes Γ (refs t)] :
    Grounded Γ (prepareArgument isUser arg t) refs := by
  unfold prepareArgument
  infer_instance

instance prepareArguments_grounded {isUser : Bool} {args : List (Expression × Member)}
    [h : Includes Γ (refs args)] :
    Grounded Γ (prepareArguments isUser args) refs := by
  -- The arguments behind the first are prepared where its type is known, too.
  induction args generalizing Γ with
  | nil =>
    unfold prepareArguments
    infer_instance
  | cons first rest ih =>
    have : Includes Γ (refs first) := Includes.head (l := rest)
    have : Includes Γ (refs rest) := Includes.tail (a := first)
    have (A : Set Id) := ih (Γ := Γ ∪ A)
    unfold prepareArguments
    infer_instance

instance emitCall_grounded {location : Location} {symbol : Symbol} {args : List Expression}
    [Includes Γ (refs symbol)] [Includes Γ (refs args)] :
    Grounded Γ (emitCall location symbol args) refs := by
  unfold emitCall
  refine .andThenOption (fun pairs => ?_) inferInstance
  refine .pass fun _ => ?_
  dsimp only
  split <;> infer_instance

instance componentAt_grounded {arg : Expression} {row col : Nat} [Includes Γ (refs arg)] :
    Grounded Γ (componentAt arg row col) refs := by
  unfold componentAt
  infer_instance

instance loadComponents_grounded {base : Base} {arg : Expression} [Includes Γ (refs arg)] :
    Grounded Γ (loadComponents base arg) refs := by
  unfold loadComponents
  dsimp only
  infer_instance

instance construct_grounded {location : Location} {t : Ty} {args : List Expression}
    [Includes Γ (refs t)] [hargs : Includes Γ (refs args)] :
    Grounded Γ (construct location t args) refs := by
  unfold construct
  split
  · infer_instance
  · split
    · rename_i arg _
      have : Includes Γ (refs arg) := Includes.head (l := [])
      infer_instance
    · infer_instance

section

variable {recurse : Recurse} [Resolving recurse]

instance parseIndex_grounded {e : Expression} [Includes Γ (refs e)] :
    Grounded Γ (parseIndex recurse e) refs := by
  unfold parseIndex
  infer_instance

instance parseCast_grounded {location : Location} {t : Ty} [Includes Γ (refs t)] :
    Grounded Γ (parseCast recurse location t) refs := by
  unfold parseCast
  infer_instance

set_option synthInstance.maxSize 65536 in
instance parseElement_grounded {s : Elements} [Includes Γ (refs s)] :
    Grounded Γ (parseElement recurse s) refs := by
  unfold parseElement
  infer_instance

instance parseInitializerList_grounded {location : Location} :
    Grounded Γ (parseInitializerList recurse location) refs := by
  unfold parseInitializerList
  infer_instance

instance postfixRound_grounded {e : Expression} [Includes Γ (refs e)] :
    Grounded Γ (postfixRound recurse e) refs := by
  unfold postfixRound
  refine .pass fun t => ?_
  dsimp only
  split <;> infer_instance

instance parsePostfix_grounded {e : Expression} [Includes Γ (refs e)] :
    Grounded Γ (parsePostfix recurse e) refs := by
  rw [parsePostfix_eq]
  infer_instance

instance parsePrefix_grounded {kind : Token.Kind} {location : Location} :
    Grounded Γ (parsePrefix recurse kind location) refs := by
  unfold parsePrefix
  refine .andThenOption (fun e => ?_) inferInstance
  dsimp only
  split
  · infer_instance
  split <;> infer_instance

set_option synthInstance.maxSize 65536 in
instance parseParenthesized_grounded {location : Location} :
    Grounded Γ (parseParenthesized recurse location) refs := by
  unfold parseParenthesized
  infer_instance

set_option synthInstance.maxSize 65536 in
instance parseArguments_grounded {close : Token.Kind} {check : Expression → ParseM Bool}
    [∀ Γ arg, Grounded Γ (check arg) refs] :
    Grounded Γ (parseArguments recurse close check) refs := by
  unfold parseArguments
  infer_instance

instance parseCall_grounded {n : Named} {location : Location} [Includes Γ (refs n)] :
    Grounded Γ (parseCall recurse n location) refs := by
  unfold parseCall
  infer_instance

instance parseConstructor_grounded {t : Ty} {location : Location} [Includes Γ (refs t)] :
    Grounded Γ (parseConstructor recurse t location) refs := by
  unfold parseConstructor
  infer_instance

instance parseIdentifier_grounded {location : Location} :
    Grounded Γ (parseIdentifier recurse location) refs := by
  unfold parseIdentifier
  refine .andThenOption (fun n => .pass fun isCall => ?_) inferInstance
  split
  · infer_instance
  · split <;> infer_instance

instance parseStrings_grounded : Grounded Γ parseStrings refs := by
  unfold parseStrings
  infer_instance

theorem refs_literal {location : Location} {t : Token} {e : Expression} {A : Set Id}
    (h : literal? location t = some e) :
    refs e ⊆ A := by
  unfold literal? at h
  split at h <;> cases h <;> exact (Includes.ofConstant (t := .scalar _)).subset

instance parseOperand_grounded : Grounded Γ (parseOperand recurse) refs := by
  unfold parseOperand
  refine .pass fun t => ?_
  dsimp only
  split
  case h_10 =>
    split
    · rename_i e hliteral
      have : Includes Γ (refs e) := ⟨refs_literal hliteral⟩
      infer_instance
    · infer_instance
  all_goals infer_instance

instance parseUnary_grounded : Grounded Γ (parseUnary recurse) refs := by
  unfold parseUnary
  refine .andThen refs fun c => ?_
  have hfirst (e : Option Expression) (more : Bool) : refs e ⊆ Γ ∪ refs (e, more) :=
    Set.subset_union_left.trans Set.subset_union_right
  split
  · rename_i e
    have : Includes (Γ ∪ refs (some e, true)) (refs e) :=
      ⟨refs_some.symm.subset.trans (hfirst _ _)⟩
    infer_instance
  · exact .of_pure (hfirst _ _)

end

instance canBranch_grounded {allowed : Bool} : Grounded Γ (canBranch allowed) refs := by
  unfold canBranch
  infer_instance

instance openRight_grounded : Grounded Γ openRight refs := by
  unfold openRight
  infer_instance

instance checkOperands_grounded {op : BinaryOp} {l r : Expression} :
    Grounded Γ (checkOperands op l r) refs := by
  unfold checkOperands
  dsimp only
  split
  · infer_instance
  · split <;> split <;> infer_instance

instance joinRight_grounded {b : Branches} {l r : Expression} {value leftValue : Id} {t : Ty}
    [Includes Γ (refs r)] [Includes Γ (refs t)] :
    Grounded Γ (joinRight b l r value leftValue t) refs := by
  unfold joinRight
  infer_instance

instance closeRight_grounded {b : Branches} {op : BinaryOp} {condition l r : Expression}
    {leftValue : Id} {t : Ty}
    [Includes Γ (refs condition)] [Includes Γ (refs r)] [Includes Γ (refs t)] :
    Grounded Γ (closeRight b op condition l r leftValue t) refs := by
  unfold closeRight
  infer_instance

instance foldConstants_grounded {op : BinaryOp} {l r : Expression} [Includes Γ (refs l)] :
    Grounded Γ (foldConstants? op l r) refs := by
  unfold foldConstants?
  infer_instance

instance convertOperands_grounded {op : BinaryOp} {l r : Expression} [Includes Γ (refs l)]
    [Includes Γ (refs r)] :
    Grounded Γ (convertOperands op l r) refs := by
  unfold convertOperands
  dsimp only
  infer_instance

instance applyBinary_grounded {op : BinaryOp} {l r : Expression} {leftValue : Id} {t : Ty}
    [Includes Γ (refs l)] [Includes Γ (refs r)] [Includes Γ (refs t)] :
    Grounded Γ (applyBinary op l r leftValue t) refs := by
  unfold applyBinary
  dsimp only
  infer_instance

instance openArms_grounded : Grounded Γ openArms refs := by
  unfold openArms
  infer_instance

instance selectBoth_grounded {c yes no : Expression} {t : Ty} [Includes Γ (refs c)]
    [Includes Γ (refs yes)] [Includes Γ (refs no)] [Includes Γ (refs t)] :
    Grounded Γ (selectBoth c yes no t) refs := by
  unfold selectBoth
  infer_instance

set_option synthInstance.maxSize 65536 in
instance selectOne_grounded {arms : Arms} {c yes no : Expression} {t : Ty} [Includes Γ (refs c)]
    [Includes Γ (refs yes)] [Includes Γ (refs no)] [Includes Γ (refs t)] :
    Grounded Γ (selectOne arms c yes no t) refs := by
  unfold selectOne
  infer_instance

instance convertArms_grounded {c yes no : Expression} [Includes Γ (refs yes)]
    [Includes Γ (refs no)] :
    Grounded Γ (convertArms c yes no) refs := by
  unfold convertArms
  dsimp only
  infer_instance

instance assign_grounded {op : Option BinaryOp} {l r : Expression} [Includes Γ (refs l)]
    [Includes Γ (refs r)] :
    Grounded Γ (assign op l r) refs := by
  unfold assign
  cases op <;> infer_instance

section

variable {recurse : Recurse} [Resolving recurse]

set_option synthInstance.maxSize 65536 in
instance parseBinary_grounded {op : BinaryOp} {l : Expression} [Includes Γ (refs l)] :
    Grounded Γ (parseBinary recurse op l) refs := by
  unfold parseBinary
  dsimp only
  infer_instance

set_option synthInstance.maxSize 65536 in
instance parseConditional_grounded {c : Expression} [Includes Γ (refs c)] :
    Grounded Γ (parseConditional recurse c) refs := by
  unfold parseConditional
  dsimp only
  infer_instance

instance multaryRound_grounded {strength : Nat} {e : Expression} [Includes Γ (refs e)] :
    Grounded Γ (multaryRound recurse strength e) refs := by
  unfold multaryRound
  refine .pass fun t => ?_
  dsimp only
  split
  · infer_instance
  · split
    · infer_instance
    · refine .pass fun _ => ?_
      split <;> infer_instance

instance parseMultary_grounded {strength : Nat} :
    Grounded Γ (parseMultary recurse strength) refs := by
  rw [parseMultary_eq]
  infer_instance

instance parseAssignment_grounded : Grounded Γ (parseAssignment recurse) refs := by
  unfold parseAssignment
  refine .andThenOption (fun l => ?_) inferInstance
  refine .pass fun t => ?_
  split <;> infer_instance

instance parseSequence_grounded : Grounded Γ (parseSequence recurse) refs := by
  unfold parseSequence
  infer_instance

end

end Parser
end ShaderEffect


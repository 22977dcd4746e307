import ShaderEffect.Proofs.Failures.Rules
import ShaderEffect.Proofs.Reading.Operands

namespace ShaderEffect

-- The parser's longer parts consist of more than a hundred steps.

namespace Entails

variable {Γ : Prop} {w : Horizon}

/-- What a name stands for was declared, or it stands for nothing. -/
instance found {r : Reader} {name : String} {from_ : Scope} {exclusive : Bool}
    [h : Entails Γ (Proper w r)] :
    Entails Γ (Proper w (r.symbols.find name from_ exclusive)) where
  entails hΓ := by
    obtain hnone | ⟨e, he, heq⟩ := Parser.find_eq_or r.symbols name from_ exclusive
    · rw [hnone]
      exact ⟨.inl Horizon.made_zero, nofun, nofun, nofun, nofun⟩
    · exact heq ▸ (h.entails hΓ).1 e he

instance named {identifier : String} {from_ : Scope} {s : Symbol} [h : Entails Γ (Proper w s)] :
    Entails Γ (Proper w (Parser.Named.mk identifier from_ s)) := ⟨h.entails⟩

end Entails

namespace Parser

open Admits

variable {w : Horizon} {Γ : Prop}

instance consume_admits : Admits w Γ Anything consume :=
  modify fun _ => ⟨.of_eq rfl rfl, rfl, rfl, List.Subset.refl _⟩

instance currentToken_admits : Admits w Γ Anything currentToken := by
  unfold currentToken
  infer_instance

instance nextToken_admits : Admits w Γ Anything nextToken := by
  unfold nextToken
  infer_instance

instance peek_admits {kind : Token.Kind} : Admits w Γ Anything (peek kind) := by
  unfold peek
  infer_instance

instance scope_admits : Admits w Γ Anything scope := by
  unfold scope
  infer_instance

instance accept_admits {kind : Token.Kind} : Admits w Γ Anything (accept kind) := by
  unfold accept
  infer_instance

theorem error_fails {location : Location} {code : Int} {message : String} {r r' : Reader} {u : Unit}
    (h : error location code message r = .ok (u, r')) : r.Looks r' ∧ 0 < r'.errors := by
  obtain rfl := modify_eq_ok.mp h
  refine ⟨⟨⟨Nat.le_succ _, ?_⟩, rfl, rfl, List.Subset.refl _⟩, Nat.succ_pos _⟩
  dsimp only
  split
  · exact ⟨_, rfl, fun _ => iff_of_true rfl (Nat.lt_succ_self _)⟩
  · exact ⟨[], (List.append_nil _).symm, fun hlimit => absurd hlimit ‹_›⟩

/-- Whoever reports an error makes the source fail. -/
instance error_admits {location : Location} {code : Int} {message : String} :
    Admits w Γ (Failed w) (error location code message) where
  looks h := (error_fails h).1
  result h hfailed _ _ := hfailed (error_fails h).2

/-- A warning is no error. -/
instance warning_admits {location : Location} {code : Int} {message : String} :
    Admits w Γ Anything (warning location code message) :=
  modify fun _ =>
    ⟨⟨Nat.le_refl _, _, rfl, fun _ => iff_of_false Bool.false_ne_true (Nat.lt_irrefl _)⟩, rfl,
      rfl, List.Subset.refl _⟩

instance expect_admits {kind : Token.Kind} : Admits w Γ (Proper w) (expect kind) := by
  unfold expect
  infer_instance

instance skipRound_admits {kind : Token.Kind} {u : Unit} :
    Admits w Γ Anything (skipRound kind u) := by
  unfold skipRound
  infer_instance

instance consumeUntil_admits {kind : Token.Kind} : Admits w Γ Anything (consumeUntil kind) := by
  rw [consumeUntil_eq]
  infer_instance

instance failAfter_admits {kind : Token.Kind} [Entails Γ w.failed] :
    Admits w Γ (Proper w) (failAfter kind) := by
  unfold failAfter
  infer_instance

instance uniqueName_admits {mark name : String} : Admits w Γ Anything (uniqueName mark name) := by
  unfold uniqueName
  infer_instance

instance pathRound_admits {identifier : String} :
    Admits w Γ (Proper w) (pathRound identifier) := by
  unfold pathRound
  infer_instance

instance acceptPath_admits {identifier : String} :
    Admits w Γ (Proper w) (acceptPath identifier) := by
  rw [acceptPath_eq]
  infer_instance

set_option synthInstance.maxSize 65536 in
/-- There is nothing only where an error is reported. -/
instance acceptSymbol_admits : Admits w Γ (Proper w) acceptSymbol := by
  unfold acceptSymbol
  infer_instance

instance warnTruncation_admits {e : Expression} {t : Ty} :
    Admits w Γ Anything (warnTruncation e t) := by
  unfold warnTruncation
  infer_instance

theorem keywordType_proper {kind : Token.Kind} {t : Ty} (h : keywordType? kind = some t) :
    Proper w t := by
  cases kind <;> simp only [keywordType?, reduceCtorEq, Option.some.injEq] at h <;> subst h <;>
    exact ⟨by decide, fun _ => Horizon.made_zero⟩

instance save_admits : Admits w Γ Anything save :=
  modify fun _ => ⟨.of_eq rfl rfl, rfl, rfl, List.Subset.refl _⟩

instance restore_admits : Admits w Γ Anything restore :=
  modify fun _ => ⟨.of_eq rfl rfl, rfl, rfl, List.Subset.refl _⟩

section

variable {inner : ReadM (Option Ty)} [hinner : Admits w Γ (Maybe w) inner]

instance expectDimension_admits {code : Int} {message : String} :
    Admits w Γ Anything (expectDimension code message) := by
  unfold expectDimension
  infer_instance

instance expectElement_admits {noun : String} {code : Int} :
    Admits w Γ (Maybe w) (expectElement inner noun code) := by
  unfold expectElement
  infer_instance

instance acceptVector_admits : Admits w Γ (Maybe w) (acceptVector inner) := by
  unfold acceptVector
  infer_instance

instance acceptMatrix_admits : Admits w Γ (Maybe w) (acceptMatrix inner) := by
  unfold acceptMatrix
  infer_instance

end

/-- A type is a proper one. There may be none without an error, where something else stands. -/
instance acceptTypeNested_admits {depth : Nat} :
    Admits w Γ (Maybe w) (acceptTypeNested depth) := by
  induction depth with
  | zero => exact throw
  | succ depth ih =>
    unfold acceptTypeNested
    refine pass fun isName => pass fun isPath => ?_
    split
    · refine pass fun _ => andThen (Proper w) fun found => ?_
      cases found with
      | none => infer_instance
      | some n =>
        dsimp only
        split
        · exact of_pure fun h t ht =>
            Option.some.inj ht ▸ ⟨nofun, fun _ => h.2.2.2.1 ‹_›⟩
        · infer_instance
    · refine pass fun _ => ?_
      split
      · infer_instance
      refine pass fun _ => ?_
      split
      · infer_instance
      refine pass fun t => ?_
      split
      · infer_instance
      · refine pass fun _ =>
          of_pure fun _ t ht => Option.some.inj ht ▸ keywordType_proper ‹_›

instance acceptType_admits : Admits w Γ (Maybe w) acceptType := by
  unfold acceptType
  infer_instance

instance qualifiersRound_admits {all : Qualifiers} :
    Admits w Γ Anything (qualifiersRound all) := by
  have hkeywords (keywords : List (Token.Kind × Qualifiers)) (found : Qualifiers) :
      Admits w Γ Anything (keywords.foldlM (fun found (kind, q) => do
        if ← accept kind then return found ||| q else return found) found) := by
    induction keywords generalizing found with
    | nil => exact pure_anything
    | cons keyword keywords ih => exact of_pass (by dsimp only; infer_instance) ih
  have := hkeywords qualifierKeywords 0
  unfold qualifiersRound
  infer_instance

instance acceptQualifiers_admits : Admits w Γ Anything acceptQualifiers := by
  rw [acceptQualifiers_eq]
  infer_instance

instance parseType_admits : Admits w Γ (Maybe w) parseType := by
  unfold parseType
  infer_instance

end Parser

namespace Expression

variable {w : Horizon} {Γ : Prop} {e : Expression} {t : Ty}

instance addSwizzle_gives {lanes : List Int} {length : UInt32} [Entails Γ (Proper w e)] :
    Supplies w Γ (Proper w) (e.addSwizzle lanes length) := by
  unfold addSwizzle
  infer_instance

set_option synthInstance.maxSize 65536 in
instance addCast_gives [Entails Γ (Proper w e)] [Entails Γ (Proper w t)] :
    Supplies w Γ (Proper w) (e.addCast t) := by
  unfold addCast
  infer_instance

instance addConstantIndex_gives {index : UInt32} [Entails Γ (Proper w e)] :
    Supplies w Γ (Proper w) (e.addConstantIndex index) := by
  unfold addConstantIndex
  infer_instance

instance foldUnary_gives {op : UnaryOp} [Entails Γ (Proper w e)] :
    Supplies w Γ (Maybe w) (e.foldUnary? op) := by
  unfold foldUnary?
  infer_instance

instance foldBinary_gives {op : BinaryOp} {r : Constant} [Entails Γ (Proper w e)] :
    Supplies w Γ (Maybe w) (e.foldBinary? op r) := by
  unfold foldBinary?
  infer_instance

end Expression

namespace Entails

variable {w : Horizon} {Γ : Prop} {α γ : Type} [Judged α] [Judged γ]
  {l : List α} {m : List γ}

instance zip [hl : Entails Γ (Proper w l)] [hm : Entails Γ (Proper w m)] :
    Entails Γ (Proper w (l.zip m)) :=
  ⟨fun h c hc => ⟨hl.entails h c.1 (List.of_mem_zip hc).1,
    hm.entails h c.2 (List.of_mem_zip hc).2⟩⟩

instance unzip {l : List (α × γ)} [h : Entails Γ (Proper w l)] :
    Entails Γ (Proper w (l.map (·.2))) :=
  ⟨fun hΓ => List.forall_mem_map.mpr fun c hc => (h.entails hΓ c hc).2⟩

instance flatten {l : List (List α)} [h : Entails Γ (Proper w l)] :
    Entails Γ (Proper w l.flatten) := ⟨fun hΓ a ha =>
  have ⟨part, hpart, ha⟩ := List.mem_flatten.mp ha
  h.entails hΓ part hpart a ha⟩

end Entails

namespace SymbolTable

variable {w : Horizon} {args : List Ty} {scope : Scope}

/-- Whether what is called gives a proper value and takes proper ones. -/
def Choice.Sound (w : Horizon) (c : Choice) : Prop :=
  Proper w c.symbol.type ∧ Maybe w c.symbol.function

theorem considerFunction_sound {e : Entry} {fn : FunctionDecl} {c : Choice} (hfn : Proper w fn)
    (h : c.Sound w) :
    (considerFunction args e fn c).Sound w := by
  unfold considerFunction
  dsimp only
  split
  · exact ⟨hfn.1, fun d hd => Option.some.inj hd ▸ hfn⟩
  · split <;> exact h
  · exact h

theorem chooseFunction_sound (entries : List Entry)
    (hentries : ∀ e ∈ entries, Proper w e.symbol) {c : Choice}
    (h : c.Sound w) : (chooseFunction args scope entries c).Sound w := by
  induction entries generalizing c with
  | nil => exact h
  | cons e rest ih =>
    obtain ⟨he, hrest⟩ := List.forall_mem_cons.mp hentries
    unfold chooseFunction
    split
    · exact ih hrest h
    · split
      · exact ih hrest h
      · rename_i fn hfunction
        have hfn : Proper w fn := he.2.2.2.2 fn hfunction
        split
        · exact ⟨hfn.1, fun d hd => Option.some.inj hd ▸ hfn⟩
        · split
          · exact ih hrest h
          · exact ih hrest (considerFunction_sound hfn h)

/-- Built-in functions have to do with numbers and samplers. -/
theorem overloads_proper {o : Intrinsic.Overload} (ho : o ∈ Intrinsic.overloads) :
    Proper w o.decl := by
  have hall : ∀ o ∈ Intrinsic.overloads,
      (o.decl.returnType.base ≠ .function ∧ o.decl.returnType.definition = 0)
      ∧ ∀ p ∈ o.decl.parameters, p.type.base ≠ .function ∧ p.type.definition = 0 := by
    decide +kernel
  have hzero {t : Ty} (h : t.base ≠ .function ∧ t.definition = 0) : Proper w t :=
    ⟨h.1, fun _ => h.2 ▸ Horizon.made_zero⟩
  obtain ⟨hreturn, hparameters⟩ := hall o ho
  exact ⟨hzero hreturn, fun p hp => hzero (hparameters p hp)⟩

theorem considerIntrinsic_sound {c : Choice} {o : Intrinsic.Overload}
    (ho : o ∈ Intrinsic.overloads) (h : c.Sound w) : (considerIntrinsic args c o).Sound w := by
  have hdecl := overloads_proper (w := w) ho
  unfold considerIntrinsic
  split
  · exact ⟨hdecl.1, fun d hd => Option.some.inj hd ▸ hdecl⟩
  · split <;> exact h
  · exact h

theorem foldl_considerIntrinsic_sound (os : List Intrinsic.Overload) {c : Choice}
    (hos : os ⊆ Intrinsic.overloads)
    (h : c.Sound w) : (os.foldl (considerIntrinsic args) c).Sound w := by
  induction os generalizing c with
  | nil => exact h
  | cons o os ih =>
    exact ih (fun _ hx => hos (List.mem_cons_of_mem _ hx))
      (considerIntrinsic_sound (hos List.mem_cons_self) h)

theorem resolveCall_sound {t : SymbolTable} {name : String}
    (ht : ∀ e ∈ t.entries, Proper w e.symbol) :
    Proper w (t.resolveCall name args scope).symbol.type
      ∧ Maybe w (t.resolveCall name args scope).symbol.function := by
  have husers :
      (chooseFunction args scope (t.named name) { namespaceLevel := scope.namespaceLevel }).Sound
        w :=
    chooseFunction_sound _ (fun e he => ht e (List.mem_filter.mp (List.mem_reverse.mp he)).1)
      ⟨⟨nofun, fun _ => Horizon.made_zero⟩, fun d hd => absurd hd (Option.not_mem_none d)⟩
  unfold resolveCall
  dsimp only
  split
  · exact foldl_considerIntrinsic_sound _ (fun o ho => (List.mem_filter.mp ho).1) husers
  · exact husers

end SymbolTable

namespace Entails

variable {w : Horizon} {Γ : Prop} {r : Reader} {name : String} {args : List Ty} {scope : Scope}

instance resolvedType [h : Entails Γ (Proper w r)] :
    Entails Γ (Proper w (r.symbols.resolveCall name args scope).symbol.type) :=
  ⟨fun hΓ => (SymbolTable.resolveCall_sound (h.entails hΓ).1).1⟩

instance resolvedFunction [h : Entails Γ (Proper w r)] :
    Entails Γ (Maybe w (r.symbols.resolveCall name args scope).symbol.function) :=
  ⟨fun hΓ => (SymbolTable.resolveCall_sound (h.entails hΓ).1).2⟩

end Entails

variable {β : Type} [Backend β]

/-- Whether the parts of the grammar that contain each other are honest, each in the places
where it can stand. -/
class Reliable (w : Horizon) (β : Type) [Backend β] [Backend.Numbering w β] (room : outParam Nat)
    (recurse : Parser.Recurse) : Prop where
  unary : ∀ {σ Γ}, Honest w β σ Γ (Proper w) (recurse .unary : ParseM (Option Expression))
  multary : ∀ {σ Γ strength},
    Honest w β σ Γ (Proper w) (recurse (.multary strength) : ParseM (Option Expression))
  assignment :
    ∀ {σ Γ}, Honest w β σ Γ (Proper w) (recurse .assignment : ParseM (Option Expression))
  sequence : ∀ {σ Γ},
    Honest w β σ Γ (Proper w) (recurse .sequence : ParseM (Option Expression))
  statement : ∀ {level Γ newScope},
    Honest w β (.inside level) Γ (Proper w) (recurse (.statement newScope) : ParseM Bool)
  declaration :
    ∀ {Γ}, Honest w β (.outside room) Γ (Proper w) (recurse .declaration : ParseM Bool)

attribute [instance] Reliable.unary Reliable.multary Reliable.assignment Reliable.sequence
  Reliable.statement Reliable.declaration

namespace Parser

variable {w : Horizon} [Backend.Numbering w β] {σ : Place} {Γ : Prop}

instance load_honest {e : Expression} [Entails Γ (Proper w e)] :
    Honest w β σ Γ (Proper w) (load e) := by
  unfold load
  infer_instance

instance applyStep_honest {location : Location} {kind : Token.Kind} {e : Expression} {value : Id}
    [Entails Γ (Proper w e)] :
    Honest w β σ Γ Anything (applyStep location kind e value) := by
  unfold applyStep
  infer_instance

instance parseStepBehind_honest {location : Location} {kind : Token.Kind} {e : Expression}
    [Entails Γ (Proper w e)] :
    Honest w β σ Γ (Proper w) (parseStepBehind location kind e) := by
  unfold parseStepBehind
  infer_instance

instance invalidSubscript_admits {location : Location} {subscript reason : String} :
    Admits w Γ (Proper w) (invalidSubscript location subscript reason) := by
  unfold invalidSubscript
  infer_instance

instance swizzle_admits {e : Expression} {location : Location} {subscript : String}
    {lanes : Except String (List Nat)}
    [Entails Γ (Proper w e)] : Admits w Γ (Proper w) (swizzle e location subscript lanes) := by
  unfold swizzle
  split <;> infer_instance

/-- The members of a structure are proper ones. -/
instance selectMember_honest {e : Expression} {location : Location} {name : String}
    [he : Entails Γ (Proper w e)] :
    Honest w β σ Γ (Proper w) (selectMember e location name) := by
  unfold selectMember
  refine .andThen (Maybe w) fun decl => ?_
  dsimp only
  split
  · infer_instance
  · rename_i m i hfind
    have : Entails (Γ ∧ Maybe w decl) (Proper w m) := ⟨fun ⟨hΓ, hdecl⟩ => by
      have hmem := List.fst_mem_of_mem_zipIdx (List.mem_of_find?_eq_some hfind)
      cases decl with
      | none => cases hmem
      | some d => exact (hdecl d rfl).2 m hmem⟩
    infer_instance

set_option synthInstance.maxSize 65536 in
instance parseMember_honest {e : Expression} [Entails Γ (Proper w e)] :
    Honest w β σ Γ (Proper w) (parseMember e) := by
  unfold parseMember
  dsimp only
  infer_instance

instance selectConstant_admits {e index : Expression} [Entails Γ (Proper w e)] :
    Admits w Γ (Proper w) (selectConstant e index) := by
  unfold selectConstant
  infer_instance

instance selectDynamic_honest {e index : Expression} [Entails Γ (Proper w e)]
    [Entails Γ (Proper w index)] :
    Honest w β σ Γ (Proper w) (selectDynamic e index) := by
  unfold selectDynamic
  infer_instance

instance applyUnary_honest {location : Location} {op : UnaryOp} {e : Expression}
    [Entails Γ (Proper w e)] :
    Honest w β σ Γ (Proper w) (applyUnary location op e) := by
  unfold applyUnary
  infer_instance

instance giveUpElements_admits [Entails Γ w.failed] : Admits w Γ (Proper w) giveUpElements := by
  unfold giveUpElements
  infer_instance

instance addElement_admits {s : Elements} {e : Expression} [Entails Γ (Proper w s)]
    [Entails Γ (Proper w e)] :
    Admits w Γ (Proper w) (addElement s e) := by
  unfold addElement
  dsimp only
  infer_instance

instance arrayOf_honest {location : Location} {s : Elements} [Entails Γ (Proper w s)] :
    Honest w β σ Γ (Proper w) (arrayOf location s) := by
  unfold arrayOf
  infer_instance

instance prepareArgument_honest {isUser : Bool} {arg : Expression} {t : Ty}
    [Entails Γ (Proper w arg)]
    [Entails Γ (Proper w t)] : Honest w β σ Γ (Proper w) (prepareArgument isUser arg t) := by
  unfold prepareArgument
  infer_instance

instance prepareArguments_honest {isUser : Bool} {args : List (Expression × Member)}
    [h : Entails Γ (Proper w args)] :
    Honest w β σ Γ (Proper w) (prepareArguments isUser args) := by
  induction args generalizing Γ with
  | nil =>
    unfold prepareArguments
    infer_instance
  | cons first rest ih =>
    have : Entails Γ (Proper w first) :=
      ⟨fun hΓ => (List.forall_mem_cons.mp (h.entails hΓ)).1⟩
    have (Δ : Prop) : Entails (Γ ∧ Δ) (Proper w rest) :=
      ⟨fun hΓ => (List.forall_mem_cons.mp (h.entails hΓ.1)).2⟩
    have (Δ : Prop) := ih (Γ := Γ ∧ Δ)
    unfold prepareArguments
    infer_instance

instance emitCall_honest {location : Location} {symbol : Symbol} {args : List Expression}
    [Entails Γ (Proper w symbol.type)] [hfunction : Entails Γ (Maybe w symbol.function)]
    [Entails Γ (Proper w args)] :
    Honest w β σ Γ (Proper w) (emitCall location symbol args) := by
  have : Entails Γ (Proper w ((symbol.function.map (·.parameters)).getD [])) := ⟨fun hΓ => by
    have hfunction := hfunction.entails hΓ
    cases hdecl : symbol.function with
    | none => exact List.forall_mem_nil _
    | some decl => exact (hfunction decl hdecl).2⟩
  unfold emitCall
  refine .andThenSome (fun pairs => ?_) inferInstance
  refine .pass fun _ => ?_
  dsimp only
  split <;> infer_instance

instance componentAt_gives {arg : Expression} {row col : Nat} [Entails Γ (Proper w arg)] :
    Supplies w Γ (Proper w) (componentAt arg row col) := by
  unfold componentAt
  infer_instance

instance loadComponents_honest {base : Base} {arg : Expression} [Entails Γ (Proper w base)]
    [Entails Γ (Proper w arg)] :
    Honest w β σ Γ (Proper w) (loadComponents base arg) := by
  unfold loadComponents
  dsimp only
  infer_instance

instance construct_honest {location : Location} {t : Ty} {args : List Expression}
    [Entails Γ (Proper w t)] [hargs : Entails Γ (Proper w args)] :
    Honest w β σ Γ (Proper w) (construct location t args) := by
  unfold construct
  split
  · infer_instance
  · split
    · rename_i arg _
      have : Entails Γ (Proper w arg) :=
        ⟨fun hΓ => List.forall_mem_singleton.mp (hargs.entails hΓ)⟩
      infer_instance
    · infer_instance

section

variable {room : Nat} {recurse : Recurse} [Reliable w β room recurse]

instance parseIndex_honest {e : Expression} [Entails Γ (Proper w e)] :
    Honest w β σ Γ (Proper w) (parseIndex recurse e) := by
  unfold parseIndex
  infer_instance

instance parseCast_honest {location : Location} {t : Ty} [Entails Γ (Proper w t)] :
    Honest w β σ Γ (Proper w) (parseCast recurse location t) := by
  unfold parseCast
  infer_instance

set_option synthInstance.maxSize 65536 in
instance parseElement_honest {s : Elements} [Entails Γ (Proper w s)] :
    Honest w β σ Γ (Proper w) (parseElement recurse s) := by
  unfold parseElement
  infer_instance

instance parseInitializerList_honest {location : Location} :
    Honest w β σ Γ (Proper w) (parseInitializerList recurse location) := by
  unfold parseInitializerList
  infer_instance

instance postfixRound_honest {e : Expression} [Entails Γ (Proper w e)] :
    Honest w β σ Γ (Proper w) (postfixRound recurse e) := by
  unfold postfixRound
  refine .pass fun t => ?_
  dsimp only
  split <;> infer_instance

instance parsePostfix_honest {e : Expression} [Entails Γ (Proper w e)] :
    Honest w β σ Γ (Proper w) (parsePostfix recurse e) := by
  rw [parsePostfix_eq]
  infer_instance

instance parsePrefix_honest {kind : Token.Kind} {location : Location} :
    Honest w β σ Γ (Proper w) (parsePrefix recurse kind location) := by
  unfold parsePrefix
  refine .andThenSome (fun e => ?_) inferInstance
  dsimp only
  split
  · infer_instance
  split <;> infer_instance

set_option synthInstance.maxSize 65536 in
instance parseParenthesized_honest {location : Location} :
    Honest w β σ Γ (Proper w) (parseParenthesized recurse location) := by
  unfold parseParenthesized
  infer_instance

set_option synthInstance.maxSize 65536 in
instance argumentsRound_honest {close : Token.Kind} {check : Expression → ParseM Bool}
    [∀ Γ arg, Honest w β σ Γ (Proper w) (check arg)] {args : List Expression}
    [Entails Γ (Proper w args)] :
    Honest w β σ Γ (Proper w) (argumentsRound recurse close check args) := by
  unfold argumentsRound
  infer_instance

instance parseArguments_honest {close : Token.Kind} {check : Expression → ParseM Bool}
    [∀ Γ arg, Honest w β σ Γ (Proper w) (check arg)] :
    Honest w β σ Γ (Proper w) (parseArguments recurse close check) := by
  rw [parseArguments_eq]
  infer_instance

instance parseCall_honest {n : Named} {location : Location} [hn : Entails Γ (Proper w n)] :
    Honest w β σ Γ (Proper w) (parseCall recurse n location) := by
  unfold parseCall
  dsimp only
  split
  · infer_instance
  refine .andThenSome (fun args => ?_) inferInstance
  refine .andThenTrue (.pass fun isInFunction => ?_) inferInstance
  split
  · infer_instance
  split
  · rename_i hplaceholder
    rw [Bool.and_eq_true, decide_eq_true_iff, decide_eq_true_iff] at hplaceholder
    exact .of_pure fun hΓ => (hplaceholder.2 ▸ (hn.entails hΓ.1).1 : w.Valid Id.invalid).failed
  · infer_instance

instance parseConstructor_honest {t : Ty} {location : Location} [Entails Γ (Proper w t)] :
    Honest w β σ Γ (Proper w) (parseConstructor recurse t location) := by
  -- An argument is only refused with an error.
  have hcheck (Γ : Prop) (arg : Expression) : Honest w β σ Γ (Proper w) (do
      if !arg.type.isNumeric then error arg.location 3017 "cannot convert non-numeric types"
      return arg.type.isNumeric : ParseM Bool) := by
    cases arg.type.isNumeric <;> infer_instance
  unfold parseConstructor
  dsimp only at hcheck ⊢
  infer_instance

instance parseIdentifier_honest {location : Location} :
    Honest w β σ Γ (Proper w) (parseIdentifier recurse location) := by
  unfold parseIdentifier
  refine .andThenSome (fun n => ?_) inferInstance
  refine .pass fun isCall => ?_
  split
  · infer_instance
  · split
    · have : Entails (Γ ∧ Proper w n) (Proper w n.symbol.type) :=
        ⟨fun h => h.2.2.1 (.inl ‹_›)⟩
      infer_instance
    · have : Entails (Γ ∧ Proper w n) (Proper w n.symbol.type) :=
        ⟨fun h => h.2.2.1 (.inr ‹_›)⟩
      infer_instance
    all_goals infer_instance

instance stringsRound_admits {text : String} : Admits w Γ Anything (stringsRound text) := by
  unfold stringsRound
  infer_instance

instance parseStrings_admits : Admits w Γ Anything parseStrings := by
  rw [parseStrings_eq]
  infer_instance

theorem literal_proper {location : Location} {t : Token} {e : Expression}
    (h : literal? location t = some e) :
    Proper w e := by
  have hconstant (value : Constant) {b : Base} (hb : b ≠ .function) :
      Proper w (Expression.ofConstant location value (.scalar b)) :=
    ⟨.inl Horizon.made_zero, ⟨hb, fun _ => Horizon.made_zero⟩, List.forall_mem_nil _⟩
  unfold literal? at h
  split at h <;> cases h <;> exact hconstant _ nofun

instance parseOperand_honest : Honest w β σ Γ (First w) (parseOperand recurse) := by
  unfold parseOperand
  refine .pass fun t => ?_
  dsimp only
  split
  case h_10 =>
    split
    · rename_i e hliteral
      have : Entails Γ (Proper w e) := ⟨fun _ => literal_proper hliteral⟩
      infer_instance
    · infer_instance
  all_goals infer_instance

instance parseUnary_honest : Honest w β σ Γ (Proper w) (parseUnary recurse) := by
  unfold parseUnary
  refine .andThen (First w) fun c => ?_
  split
  · rename_i e
    have : Entails (Γ ∧ First w (some e, true)) (Proper w e) := ⟨And.right⟩
    infer_instance
  · exact .of_pure And.right

end

instance canBranch_honest {allowed : Bool} : Honest w β σ Γ Anything (canBranch allowed) := by
  unfold canBranch
  infer_instance

instance openRight_honest : Honest w β σ Γ Anything openRight := by
  unfold openRight
  infer_instance

instance checkOperands_admits {op : BinaryOp} {l r : Expression} :
    Admits w Γ (Proper w) (checkOperands op l r) := by
  unfold checkOperands
  dsimp only
  split
  · infer_instance
  · split <;> split <;> infer_instance

set_option synthInstance.maxSize 65536 in
instance joinRight_honest {b : Branches} {l r : Expression} {value leftValue : Id} {t : Ty}
    [Entails Γ (Proper w r)] [Entails Γ (Proper w t)] :
    Honest w β σ Γ (Proper w) (joinRight b l r value leftValue t) := by
  unfold joinRight
  infer_instance

instance closeRight_honest {b : Branches} {op : BinaryOp} {condition l r : Expression}
    {leftValue : Id} {t : Ty}
    [Entails Γ (Proper w condition)] [Entails Γ (Proper w r)] [Entails Γ (Proper w t)] :
    Honest w β σ Γ (Proper w) (closeRight b op condition l r leftValue t) := by
  unfold closeRight
  infer_instance

instance foldConstants_gives {op : BinaryOp} {l r : Expression} [Entails Γ (Proper w l)] :
    Supplies w Γ (Maybe w) (foldConstants? op l r) := by
  unfold foldConstants?
  infer_instance

set_option synthInstance.maxSize 65536 in
instance convertOperands_admits {op : BinaryOp} {l r : Expression} [Entails Γ (Proper w l)]
    [Entails Γ (Proper w r)] :
    Admits w Γ (Proper w) (convertOperands op l r) := by
  unfold convertOperands
  dsimp only
  infer_instance

instance applyBinary_honest {op : BinaryOp} {l r : Expression} {leftValue : Id} {t : Ty}
    [Entails Γ (Proper w l)] [Entails Γ (Proper w r)] [Entails Γ (Proper w t)] :
    Honest w β σ Γ (Proper w) (applyBinary op l r leftValue t) := by
  unfold applyBinary
  dsimp only
  infer_instance

instance openArms_honest : Honest w β σ Γ Anything openArms := by
  unfold openArms
  infer_instance

instance selectBoth_honest {c yes no : Expression} {t : Ty} [Entails Γ (Proper w c)]
    [Entails Γ (Proper w yes)] [Entails Γ (Proper w no)] [Entails Γ (Proper w t)] :
    Honest w β σ Γ (Proper w) (selectBoth c yes no t) := by
  unfold selectBoth
  infer_instance

set_option synthInstance.maxSize 65536 in
instance selectOne_honest {arms : Arms} {c yes no : Expression} {t : Ty} [Entails Γ (Proper w c)]
    [Entails Γ (Proper w yes)] [Entails Γ (Proper w no)] [Entails Γ (Proper w t)] :
    Honest w β σ Γ (Proper w) (selectOne arms c yes no t) := by
  unfold selectOne
  infer_instance

set_option synthInstance.maxSize 65536 in
instance convertArms_admits {c yes no : Expression} [Entails Γ (Proper w yes)]
    [Entails Γ (Proper w no)] :
    Admits w Γ (Proper w) (convertArms c yes no) := by
  unfold convertArms
  dsimp only
  infer_instance

set_option synthInstance.maxSize 65536 in
instance assign_honest {op : Option BinaryOp} {l r : Expression} [Entails Γ (Proper w l)]
    [Entails Γ (Proper w r)] :
    Honest w β σ Γ (Proper w) (assign op l r) := by
  unfold assign
  cases op <;> infer_instance

section

variable {room : Nat} {recurse : Recurse} [Reliable w β room recurse]

set_option synthInstance.maxSize 65536 in
instance parseBinary_honest {op : BinaryOp} {l : Expression} [Entails Γ (Proper w l)] :
    Honest w β σ Γ (Proper w) (parseBinary recurse op l) := by
  unfold parseBinary
  dsimp only
  infer_instance

set_option synthInstance.maxSize 65536 in
instance parseConditional_honest {c : Expression} [Entails Γ (Proper w c)] :
    Honest w β σ Γ (Proper w) (parseConditional recurse c) := by
  unfold parseConditional
  dsimp only
  infer_instance

instance multaryRound_honest {strength : Nat} {e : Expression} [Entails Γ (Proper w e)] :
    Honest w β σ Γ (Proper w) (multaryRound recurse strength e) := by
  unfold multaryRound
  refine .pass fun t => ?_
  dsimp only
  split
  · infer_instance
  · split
    · infer_instance
    · refine .pass fun _ => ?_
      split <;> infer_instance

instance parseMultary_honest {strength : Nat} :
    Honest w β σ Γ (Proper w) (parseMultary recurse strength) := by
  rw [parseMultary_eq]
  infer_instance

instance parseAssignment_honest : Honest w β σ Γ (Proper w) (parseAssignment recurse) := by
  unfold parseAssignment
  refine .andThenSome (fun l => ?_) inferInstance
  refine .pass fun t => ?_
  split <;> infer_instance

instance sequenceRound_honest {e : Expression} [Entails Γ (Proper w e)] :
    Honest w β σ Γ (Proper w) (sequenceRound recurse e) := by
  unfold sequenceRound
  infer_instance

instance parseSequence_honest : Honest w β σ Γ (Proper w) (parseSequence recurse) := by
  rw [parseSequence_eq]
  infer_instance

end

end Parser
end ShaderEffect

import ShaderEffect.Proofs.Reading.Statements
import ShaderEffect.Proofs.Reuse.Operands

namespace ShaderEffect

/-- Whether names of a kind can be declared at a position: globals anywhere, locals in functions. -/
class Position.Declares (p : Position) (isGlobal : Bool) : Prop where
  inside : isGlobal = false → p.inFunction = true

instance {p : Position} : p.Declares true := ⟨fun h => absurd h.symm Bool.false_ne_true⟩
instance {p : Position} {isGlobal : Bool} [h : IsTrue p.inFunction] :
    p.Declares isGlobal := ⟨fun _ => h.eq_true⟩
instance {p : Position} {b isGlobal : Bool} [h : p.Declares isGlobal] :
    (p.past b).Declares isGlobal := ⟨h.inside⟩
instance {p : Position} {isGlobal : Bool} [h : p.Declares isGlobal] :
    p.marked.Declares isGlobal := ⟨h.inside⟩

namespace Parser

variable {p : Position}

theorem declare_run {name : String} {symbol : Symbol} {isGlobal : Bool} (r : Reader) :
    declare name symbol isGlobal r = (r.symbols.insert name symbol isGlobal).map fun
      | some symbols => (true, { r with symbols })
      | none => (false, r) := by
  show ((liftM (r.symbols.insert name symbol isGlobal) : ReadM (Option SymbolTable)) r >>= _) = _
  rcases r.symbols.insert name symbol isGlobal with e | (_ | t) <;> rfl

/-- A declaration adds entries that can be in the table. -/
instance declare_agrees {name : String} {symbol : Symbol} {isGlobal : Bool}
    [hp : p.Declares isGlobal] :
    Agrees p (declare name symbol isGlobal) := by
  refine ⟨.of_outcomes fun {earlier r₁ r₂} h => ?_⟩
  rw [declare_run r₁, declare_run r₂, h.symbols]
  rcases hinsert : r₂.symbols.insert name symbol isGlobal with e | (_ | t)
  · exact .inl ⟨e, rfl, rfl⟩
  · exact .inr ⟨false, r₁, r₂, rfl, rfl, h⟩
  · obtain ⟨hcurrent, hentries⟩ := insert_spec hinsert
    have hadmits (e : SymbolTable.Entry) (he : e ∈ t.entries) : p.Admits e := by
      obtain hold | hnew := hentries e he
      · exact h.entries e hold
      · cases hglobal : isGlobal with
        | true => exact .inl (UInt32.le_of_eq (hnew.outside hglobal))
        | false => exact .inr ⟨hp.inside hglobal, by rw [hnew.inside hglobal, h.scope]⟩
    exact .inr ⟨true, _, _, rfl, rfl,
      { h with symbols := rfl, scope := hcurrent.trans h.scope, entries := hadmits }⟩

instance declareOnce_agrees {location : Location} {name : String} {symbol : Symbol}
    {isGlobal : Bool} [p.Declares isGlobal] :
    Agrees p (declareOnce location name symbol isGlobal) := by
  unfold declareOnce
  infer_instance

instance declarationError_agrees {location : Location} {code : Int} {name message : String} :
    Agrees p (declarationError location code name message) := by
  unfold declarationError
  infer_instance

instance reportFailed_agrees {location : Location} {name : String}
    {checks : List (Bool × Int × String)} :
    Agrees p (reportFailed location name checks) := by
  unfold reportFailed
  infer_instance

instance parseCommaSeparated_replays {α : Type} {item : α → ParseM (Option α)} {a : α}
    [∀ a, Replays p (item a)] :
    Replays p (parseCommaSeparated item a) := by
  unfold parseCommaSeparated
  infer_instance

section

variable [IsTrue p.begun] {recurse : Recurse} [Faithful recurse]

instance parseLength_replays : Replays p (parseLength recurse) := by
  unfold parseLength
  dsimp only
  infer_instance

instance parseArraySize_replays {t : Ty} : Replays p (parseArraySize recurse t) := by
  unfold parseArraySize
  infer_instance

instance parseSemantic_agrees : Agrees p parseSemantic := by
  unfold parseSemantic
  infer_instance

set_option synthInstance.maxSize 65536 in
instance parseAnnotation_replays : Replays p ( parseAnnotation recurse) := by
  unfold parseAnnotation
  infer_instance

set_option synthInstance.maxSize 65536 in
instance parseAnnotations_replays : Replays p (parseAnnotations recurse) := by
  unfold parseAnnotations
  infer_instance

instance parseField_replays {t : Ty} {s : Fields} : Replays p (parseField recurse t s) := by
  unfold parseField
  infer_instance

instance parseFields_replays : Replays p (parseFields recurse) := by
  unfold parseFields
  infer_instance

instance parseStructName_agrees {location : Location} : Agrees p (parseStructName location) := by
  unfold parseStructName
  infer_instance

set_option synthInstance.maxSize 65536 in
instance parseStruct_replays : Replays p (parseStruct recurse) := by
  unfold parseStruct
  refine .of_bind inferInstance
    fun token => .of_bind inferInstance fun name => .of_bind inferInstance fun unique => ?_
  infer_instance

/-- A name that is no value is read again as the beginning of an expression. -/
instance parseStateValue_replays {values : List (String × UInt32)} :
    Replays p (parseStateValue recurse values) := by
  have hrest (q : Position) [IsTrue q.begun] [IsTrue q.saved] : Replays q (do
      if ← accept .identifier then
        let t ← currentToken
        if let some value := values.lookup (Text.upper t.text) then
          return some (.ofWord t.location value)
        restore
      recurse (.multary 0) : ParseM (Option Expression)) := by
    refine .of_bind inferInstance fun isName => ?_
    split
    · refine .of_bind inferInstance fun t => ?_
      cases values.lookup (Text.upper t.text) <;> infer_instance
    · infer_instance
  exact ⟨save_then (hrest p.marked).coincides⟩

omit [IsTrue p.begun] in
instance applyTexture_replays {r : Resource} {e : Expression} : Replays p (applyTexture r e) := by
  unfold applyTexture
  infer_instance

omit [IsTrue p.begun] in
instance applyNumber_agrees {r : Resource} {location : Location} {name : String} {e : Expression} :
    Agrees p (applyNumber r location name e) := by
  unfold applyNumber
  split
  · infer_instance
  · refine .of_bind inferInstance fun e => ?_
    split <;> infer_instance

set_option synthInstance.maxSize 65536 in
instance parseProperty_replays {r : Resource} : Replays p (parseProperty recurse r) := by
  unfold parseProperty
  infer_instance

instance parseProperties_replays : Replays p (parseProperties recurse) := by
  unfold parseProperties
  infer_instance

omit [IsTrue p.begun] in
instance checkGlobal_agrees {location : Location} {name : String} {t : Ty} :
    Agrees p (checkGlobal location name t) := by
  unfold checkGlobal
  infer_instance

omit [IsTrue p.begun] in
instance checkLocal_agrees {location : Location} {name : String} {t : Ty} :
    Agrees p (checkLocal location name t) := by
  unfold checkLocal
  dsimp only
  infer_instance

omit [IsTrue p.begun] in
instance checkVariable_agrees {location : Location} {name : String} {t : Ty} {isGlobal : Bool} :
    Agrees p (checkVariable location name t isGlobal) := by
  unfold checkVariable
  infer_instance

instance parseInitializer_replays {name : String} {t : Ty} {isGlobal : Bool} :
    Replays p (parseInitializer recurse name t isGlobal) := by
  unfold parseInitializer
  dsimp only
  infer_instance

instance parseValue_replays {location : Location} {name : String} {isGlobal : Bool} {tail : Tail} :
    Replays p (parseValue recurse location name isGlobal tail) := by
  unfold parseValue
  dsimp only
  infer_instance

instance parseTail_replays {location : Location} {name : String} {t : Ty} {isGlobal : Bool} :
    Replays p (parseTail recurse location name t isGlobal) := by
  unfold parseTail
  infer_instance

omit [IsTrue p.begun] in
instance checkSampler_agrees {location : Location} {name : String} {r : Resource} :
    Agrees p (checkSampler location name r) := by
  unfold checkSampler
  infer_instance

omit [IsTrue p.begun] in
instance defineStorage_replays {location : Location} {name : String} {tail : Tail}
    {isGlobal : Bool} :
    Replays p (defineStorage location name tail isGlobal) := by
  unfold defineStorage
  cases tail.init <;> infer_instance

omit [IsTrue p.begun] in
instance defineSymbol_replays {location : Location} {name : String} {tail : Tail}
    {isGlobal : Bool} :
    Replays p (defineSymbol location name tail isGlobal) := by
  unfold defineSymbol
  dsimp only
  split <;> infer_instance

set_option synthInstance.maxSize 65536 in
instance parseVariable_replays {t : Ty} {isGlobal : Bool} [p.Declares isGlobal] :
    Replays p (parseVariable recurse t isGlobal) := by
  unfold parseVariable
  infer_instance

end
end Parser

/-- A scope is left for the one around it. -/
theorem Reader.exited_scope {p : Position} {r : Reader} (h : r.symbols.current = p.inner.scope) :
    r.exited.symbols.current = p.scope := by
  have hlevel :
      r.exited.symbols.current = { r.symbols.current with level := r.symbols.current.level - 1 } :=
    rfl
  rw [hlevel, h]
  exact congrArg (fun level => ({ p.scope with level } : Scope)) (UInt32.add_sub_cancel _ _)

namespace Position

/-- What can be in the table of a function and does not lie in its scope can be in the
table around it. -/
theorem Outer.admits {p : Position} [hp : p.Outer] {e : SymbolTable.Entry} (h : p.head.Admits e)
    (hkept : e.isLocalFrom p.head.scope.level = false) : p.Admits e := by
  obtain hmember | ⟨-, hspace⟩ := h
  · exact .inl hmember
  · refine .inl (UInt32.not_lt.mp fun hlocal => ?_)
    -- A local of the function is deeper than the namespace around it, and so it lies in the scope
    -- of its head.
    have hlevel : p.scope.level < e.scope.level := hp.level ▸ hspace ▸ hlocal
    have hdeep : p.scope.level + 1 ≤ e.scope.level := by
      rw [UInt32.lt_iff_toNat_lt] at hlevel
      have := e.scope.level.toNat_lt
      rw [UInt32.le_iff_toNat_le, UInt32.toNat_add]
      simp only [UInt32.reduceToNat]
      omega
    simp only [SymbolTable.Entry.isLocalFrom, Bool.and_eq_false_iff,
      decide_eq_false_iff_not] at hkept
    exact hkept.elim (fun h => h hlocal) fun h => h hdeep

end Position

namespace Reader.Alike

variable {p : Position} {earlier : Diagnostics} {r₁ r₂ : Reader}

theorem entered (h : r₁.Alike p earlier r₂) : r₁.entered.Alike p.inner earlier r₂.entered :=
  { h with
    symbols := congrArg SymbolTable.enterScope h.symbols
    scope := congrArg (fun scope : Scope => { scope with level := scope.level + 1 }) h.scope
    entries := h.entries }

theorem exited (h : r₁.Alike p.inner earlier r₂) : r₁.exited.Alike p earlier r₂.exited :=
  { h with
    symbols := congrArg SymbolTable.leaveScope h.symbols
    scope := exited_scope h.scope
    entries := fun e he => h.entries e (List.mem_filter.mp he).1 }

/-- At the head of a function, nothing of another one is left. -/
theorem headed [hp : p.Outer] (t : Ty) (h : r₁.Alike p earlier r₂) :
    Reader.Alike p.head earlier ({ r₁ with returnType := t } : Reader).entered
      ({ r₂ with returnType := t } : Reader).entered :=
  { h.entered with
    returnType := fun _ => rfl
    entries := fun e he =>
      .inl ((h.entries e he).resolve_right fun hlocal => absurd hlocal.1 (by simp [hp.outside])) }

/-- Behind a function, nothing of it is left. -/
theorem unheaded [hp : p.Outer] (h : r₁.Alike p.head earlier r₂) :
    r₁.exited.Alike p earlier r₂.exited :=
  { h with
    symbols := congrArg SymbolTable.leaveScope h.symbols
    returnType := fun _ => h.returnType rfl
    scope := exited_scope h.scope
    entries := fun e he => by
      obtain ⟨he, hkept⟩ := List.mem_filter.mp he
      refine hp.admits (h.entries e he) ?_
      rw [← h.scope]
      exact (Bool.not_eq_true' _).mp hkept }

end Reader.Alike

namespace Parser

variable {p : Position}

/-- A scope is left as it was entered. -/
theorem between_scopes {α γ : Type} {x : ParseM γ} {f : γ → ParseM α}
    (hx : Replays p.inner x) (hf : ∀ c, Replays p (f c)) :
    Replays p (do enterScope; let c ← x; leaveScope; f c) :=
  Leads.around (q := p.inner) (.modify fun h => h.entered) hx (.modify fun h => h.exited) hf

/-- A function forgets the type of the result of the one in front of it. -/
theorem at_head [p.Outer] {α γ : Type} {t : Ty} {x : ParseM γ} {f : γ → ParseM α}
    (hx : Replays p.head x) (hf : ∀ c, Replays p (f c)) : Replays p (do
      modify fun p : Reader => { p with returnType := t }
      enterScope
      let c ← x
      leaveScope
      f c) :=
  Leads.around (q := p.head) (x := modify fun r :
    Reader => ({ r with returnType := t } : Reader).entered)
    (.modify fun h => h.headed t) hx (.modify fun h => h.unheaded) hf

set_option synthInstance.maxSize 65536 in
instance parseAttributes_agrees [IsTrue p.begun] : Agrees p parseAttributes := by
  unfold parseAttributes
  dsimp only
  infer_instance

instance skipBlock_agrees : Agrees p skipBlock := by
  unfold skipBlock
  infer_instance

instance inScope_replays {part : ParseM Bool} [hpart : Replays p.inner part] :
    Replays p (inScope part) :=
  between_scopes hpart fun _ => .pure

instance enterBlock_replays {id : Id} : Replays p (enterBlock id) :=
  inferInstanceAs (Replays p (emit (.enterBlock id)))

instance branchTo_replays {target : Id} : Replays p (branchTo target) :=
  inferInstanceAs (Replays p (emit (.leaveAndBranch target .plain)))

instance branchIf_replays {condition yes no : Id} : Replays p (branchIf condition yes no) :=
  inferInstanceAs (Replays p (emit (.leaveAndBranchConditional condition yes no)))

instance makeBlock_replays : Replays p makeBlock :=
  inferInstanceAs (Replays p (emit .makeId))

instance makeLoopBlocks_replays : Replays p makeLoopBlocks := by
  unfold makeLoopBlocks
  infer_instance

instance openLoop_replays {b : LoopBlocks} {first : Id} : Replays p (openLoop b first) := by
  unfold openLoop
  infer_instance

instance closeLoop_replays {location : Location} {b : LoopBlocks}
    {condition before conditionEnd bodyEnd : Id} {hint : ControlHint} :
    Replays p (closeLoop location b condition before conditionEnd bodyEnd hint) := by
  unfold closeLoop
  exact .of_bind inferInstance fun _ => inferInstanceAs (Replays p (emit (.emitLoop ..)))

instance loadScalar_replays {e : Expression} {base : Base} {message : String} :
    Replays p (loadScalar e base message) := by
  unfold loadScalar
  infer_instance

section

variable [IsTrue p.begun] {recurse : Recurse} [Faithful recurse]

instance parseInParentheses_replays : Replays p (parseInParentheses recurse) := by
  unfold parseInParentheses
  infer_instance

instance parseCondition_replays {message : String} :
    Replays p (parseCondition recurse message) := by
  unfold parseCondition
  infer_instance

omit [IsTrue p.begun] in
instance parseJump_replays {location : Location} {targets : List Id} {flow : Flow} {code : Int}
    {message : String} :
    Replays p (parseJump location targets flow code message) := by
  unfold parseJump
  split <;> infer_instance

instance parseCaseValue_replays {s : Cases} : Replays p (parseCaseValue recurse s) := by
  unfold parseCaseValue
  dsimp only
  infer_instance

instance addDefault_agrees {s : Cases} : Agrees p (addDefault s) := by
  unfold addDefault
  dsimp only
  infer_instance

omit [IsTrue p.begun] in
instance endLabel_agrees {s : Cases} : Agrees p (endLabel s) := by
  unfold endLabel
  infer_instance

instance parseLabels_replays {s : Cases} : Replays p (parseLabels recurse s) := by
  unfold parseLabels
  infer_instance

omit [IsTrue p.begun] in
instance endCase_replays {s : Cases} {isLast : Bool} : Replays p (endCase s isLast) := by
  unfold endCase
  infer_instance

variable [hp : IsTrue p.inFunction]

instance parseStatements_replays : Replays p (parseStatements recurse) := by
  unfold parseStatements
  infer_instance

instance parseBlock_replays {newScope : Bool} : Replays p (parseBlock recurse newScope) := by
  cases newScope with
  | false =>
    simp only [parseBlock, Bool.false_eq_true, if_false]
    infer_instance
  | true =>
    rw [parseBlock_inScope]
    infer_instance

set_option synthInstance.maxSize 65536 in
/-- In a function, the type of its result is known. -/
instance parseReturn_replays {location : Location} : Replays p (parseReturn recurse location) := by
  refine .bind_get (fun h => by rw [h.returnType hp.eq_true]) fun r => ?_
  dsimp only
  infer_instance

instance parseLocals_replays {t : Ty} : Replays p (parseLocals recurse t) := by
  unfold parseLocals
  infer_instance

instance parseLocalsOrExpression_replays : Replays p (parseLocalsOrExpression recurse) := by
  unfold parseLocalsOrExpression
  infer_instance

instance parseElse_replays : Replays p (parseElse recurse) := by
  unfold parseElse
  infer_instance

set_option synthInstance.maxSize 65536 in
instance parseIf_replays {location : Location} {hint : ControlHint} :
    Replays p (parseIf recurse location hint) := by
  unfold parseIf
  infer_instance

instance parseSection_replays {s : Cases} : Replays p (parseSection recurse s) := by
  unfold parseSection
  infer_instance

instance parseCases_replays {s : Cases} : Replays p (parseCases recurse s) := by
  unfold parseCases
  infer_instance

instance parseSwitchBody_replays {location : Location} {selector selectorEnd merge : Id}
    {hint : ControlHint} :
    Replays p (parseSwitchBody recurse location selector selectorEnd merge hint) := by
  unfold parseSwitchBody
  infer_instance

instance parseSwitch_replays {location : Location} {hint : ControlHint} :
    Replays p (parseSwitch recurse location hint) := by
  unfold parseSwitch
  infer_instance

instance parseLoopBody_replays {b : LoopBlocks} {newScope : Bool} :
    Replays p (parseLoopBody recurse b newScope) := by
  unfold parseLoopBody
  infer_instance

instance parseForStart_replays : Replays p (parseForStart recurse) := by
  unfold parseForStart
  infer_instance

omit hp in
instance parseForCondition_replays {b : LoopBlocks} : Replays p (parseForCondition recurse b) := by
  unfold parseForCondition
  infer_instance

omit hp in
instance parseForStep_replays : Replays p (parseForStep recurse) := by
  unfold parseForStep
  infer_instance

set_option synthInstance.maxSize 65536 in
instance parseFor_replays {location : Location} {hint : ControlHint} :
    Replays p (parseFor recurse location hint) := by
  unfold parseFor
  infer_instance

set_option synthInstance.maxSize 65536 in
instance parseWhile_replays {location : Location} {hint : ControlHint} :
    Replays p (parseWhile recurse location hint) := by
  unfold parseWhile
  infer_instance

set_option synthInstance.maxSize 65536 in
instance parseDo_replays {location : Location} {hint : ControlHint} :
    Replays p (parseDo recurse location hint) := by
  unfold parseDo
  infer_instance

instance parseKeywordStatement_replays {h : Hints} :
    Replays p (parseKeywordStatement? recurse h) := by
  unfold parseKeywordStatement?
  refine .of_bind inferInstance fun t => ?_
  dsimp only
  split <;> infer_instance

instance parseSimpleStatement_replays : Replays p (parseSimpleStatement recurse) := by
  unfold parseSimpleStatement
  infer_instance

set_option synthInstance.maxSize 65536 in
instance parseStatement_replays {newScope : Bool} :
    Replays p (parseStatement recurse newScope) := by
  unfold parseStatement
  infer_instance

end

instance withSemantic_agrees {m : Member} {semantic : String} :
    Agrees p (withSemantic m semantic) := by
  unfold withSemantic
  infer_instance

instance parseParameterType_agrees : Agrees p parseParameterType := by
  unfold parseParameterType
  infer_instance

instance parseSeparator_agrees {fields : Fields} : Agrees p (parseSeparator fields) := by
  unfold parseSeparator
  infer_instance

instance closeParameters_agrees {complete : Bool} : Agrees p (closeParameters complete) := by
  unfold closeParameters
  infer_instance

instance declareParameters_agrees {parameters : List Member} [IsTrue p.inFunction] :
    Agrees p (declareParameters parameters) := by
  induction parameters with
  | nil => exact .pure
  | cons m rest ih =>
    unfold declareParameters
    infer_instance

section

variable [IsTrue p.begun] {recurse : Recurse} [Faithful recurse]

instance parseResultSemantic_agrees {name : String} {t : Ty} :
    Agrees p (parseResultSemantic name t) := by
  unfold parseResultSemantic
  infer_instance

set_option synthInstance.maxSize 65536 in
instance parseParameter_replays {s : Fields} : Replays p (parseParameter recurse s) := by
  unfold parseParameter
  infer_instance

instance parseParameters_replays : Replays p (parseParameters recurse) := by
  unfold parseParameters
  infer_instance

instance parseSignature_replays {location : Location} {name uniqueName : String} {t : Ty} :
    Replays p (parseSignature recurse location name uniqueName t) := by
  unfold parseSignature
  dsimp only
  infer_instance

set_option synthInstance.maxSize 65536 in
instance parseBody_replays {location : Location} {decl : FunctionDecl} [IsTrue p.inFunction] :
    Replays p (parseBody recurse location decl) := by
  unfold parseBody
  infer_instance

instance parseDefinition_replays {location : Location} {name unique : String} {t : Ty}
    [IsTrue p.inFunction] :
    Replays p (parseDefinition recurse location name unique t) := by
  unfold parseDefinition
  infer_instance

instance parseFunction_replays {t : Ty} [p.Outer] : Replays p (parseFunction recurse t) := by
  unfold parseFunction
  refine .of_bind inferInstance fun token => .of_bind inferInstance fun opened => ?_
  split
  · infer_instance
  split
  · infer_instance
  refine .of_bind inferInstance fun unique => ?_
  refine (congrArg (fun x => Replays p (modify _ >>= fun _ => x)) (parseScoped_eq recurse)).mpr ?_
  exact at_head inferInstance fun found => by cases found <;> infer_instance

end
end Parser
end ShaderEffect

import ShaderEffect.Proofs.Reading.Names
import ShaderEffect.Proofs.Reuse.Rules

namespace ShaderEffect

namespace Token

/-- The part of a word that is no sign contains no separator. -/
theorem isWordPart_ne_colon {c : Char} (h : Text.isWordPart c = true) : c ≠ ':' := by
  rintro rfl
  exact absurd h (by decide)

theorem readToken_plain (o : Options) (c : Cursor) (first : Char) :
    (readToken o c first).Plain := by
  unfold readToken
  split
  · exact fun _ => by simp [Cursor.token]
  · split
    · intro _ hmem
      have hword : ':' ∈ c.rest.takeWhile Text.isWordPart := by simpa [Cursor.word] using hmem
      exact isWordPart_ne_colon (List.mem_takeWhile_imp hword) rfl
    · split
      · exact fun h => by simp [Cursor.token] at h
      · split <;> exact fun _ => by simp [Cursor.token]

/-- Names that are read contain no separator. -/
theorem lex_plain (c : Cursor) : (lex .forParser c).1.Plain := by
  unfold lex
  generalize decide (c.location.column ≤ 1) = lineStart
  fun_induction lexFrom .forParser lineStart c with
  | case1 => exact fun h => by simp [Cursor.token] at h
  | case12 lineStart c first => exact readToken_plain .forParser c first
  | case2 | case3 | case5 | case7 | case8 | case10 | case11 => assumption
  | _ => simp_all [Options.forParser]

end Token

namespace Reader.Alike

variable {p : Position} {earlier : Diagnostics} {r₁ r₂ : Reader}

theorem consumed (h : r₁.Alike p earlier r₂) :
    r₁.consumed.Alike (p.past true) earlier r₂.consumed := by
  have hlex : Token.lex .forParser r₁.cursor
      = Token.lex .forParser r₂.cursor := by rw [h.cursor]
  exact
    { h with
      cursor := congrArg Prod.snd hlex
      next := congrArg Prod.fst hlex
      token := fun _ => h.next
      plain := Token.lex_plain r₂.cursor }

theorem marked (h : r₁.Alike p earlier r₂) :
    Alike p.marked earlier { r₁ with savedNext := r₁.next, savedCursor := r₁.cursor }
      { r₂ with savedNext := r₂.next, savedCursor := r₂.cursor } :=
  { h with saved := fun _ => ⟨h.next, h.cursor, h.plain⟩ }

theorem unmarked (h : r₁.Alike p.marked earlier r₂) : r₁.Alike p earlier r₂ :=
  { h with saved := fun _ => h.saved rfl }

theorem restored [hp : IsTrue p.saved] (h : r₁.Alike p earlier r₂) :
    Alike p earlier { r₁ with next := r₁.savedNext, cursor := r₁.savedCursor }
      { r₂ with next := r₂.savedNext, cursor := r₂.savedCursor } :=
  have hsaved := h.saved hp.eq_true
  { h with next := hsaved.1, cursor := hsaved.2.1, plain := hsaved.2.2 }

end Reader.Alike

namespace Parser

variable {α : Type} {p : Position}

instance consume_agrees : Agrees p consume := .modify fun h => h.consumed.of_past

theorem consume_token : Coincides p (fun _ => true) (liftM consume : ParseM Unit) where
  meets h := .done ⟨rfl, h.consumed⟩

/-- The token that was read last is known once there is one. -/
instance currentToken_agrees [hp : IsTrue p.begun] : Agrees p currentToken where
  coincides :=
    .of_outcomes fun {_ r₁ r₂} h =>
      .inr ⟨r₂.token, r₁, r₂, by rw [← h.token hp.eq_true]; rfl, rfl, h⟩

instance nextToken_agrees : Agrees p nextToken where
  coincides :=
    .of_outcomes fun {_ r₁ r₂} h =>
      .inr ⟨r₂.next, r₁, r₂, by rw [← h.next]; rfl, rfl, h⟩

instance peek_agrees {kind : Token.Kind} : Agrees p (peek kind) where
  coincides :=
    .of_outcomes fun {_ r₁ r₂} h => .inr ⟨_, r₁, r₂, by rw [← h.next]; rfl, rfl, h⟩

instance error_agrees {location : Location} {code : Int} {message : String} :
    Agrees p (error location code message) := by
  refine .modify fun {earlier r₁ r₂} h => ?_
  have hdiagnostics : (if r₁.errors < errorLimit then
      r₁.diagnostics ++ [{ severity := .error, stage := .parser, code, location, message }]
      else r₁.diagnostics) = earlier ++ if r₂.errors < errorLimit then
        r₂.diagnostics ++ [{ severity := .error, stage := .parser, code, location, message }]
        else r₂.diagnostics := by
    rw [h.errors, h.diagnostics]
    split
    · exact List.append_assoc _ _ _
    · rfl
  exact { h with errors := congrArg (· + 1) h.errors, diagnostics := hdiagnostics }

instance warning_agrees {location : Location} {code : Int} {message : String} :
    Agrees p (warning location code message) :=
  .modify fun h => { h with diagnostics := by rw [h.diagnostics, List.append_assoc] }

/-- What is found to be absent is no token. -/
theorem no_token {a : α} {isToken : α → Bool} (ha : isToken a = false) :
    Coincides p isToken (liftM (pure a : ReadM α) : ParseM α) :=
  .pure fun h => absurd (ha ▸ h) Bool.false_ne_true

theorem accept_token {kind : Token.Kind} : Coincides p id (liftM (accept kind) : ParseM Bool) := by
  refine peek_agrees.coincides.andThen fun isNext => ?_
  cases isNext with
  | false => exact no_token rfl
  | true => exact consume_token.andThen fun _ => .pure fun _ => rfl

theorem expect_token {kind : Token.Kind} : Coincides p id (liftM (expect kind) : ParseM Bool) := by
  refine accept_token.andThen fun accepted => ?_
  cases accepted with
  | true => exact .pure fun _ => rfl
  | false =>
    exact nextToken_agrees.coincides.andThen fun t =>
      error_agrees.coincides.andThen fun _ => no_token rfl

instance accept_agrees {kind : Token.Kind} : Agrees p (accept kind) := ⟨accept_token.ignore⟩

instance expect_agrees {kind : Token.Kind} : Agrees p (expect kind) := ⟨expect_token.ignore⟩

instance consumeUntil_agrees {kind : Token.Kind} : Agrees p (consumeUntil kind) := by
  unfold consumeUntil
  infer_instance

instance failAfter_agrees {kind : Token.Kind} : Agrees p (failAfter kind) := by
  unfold failAfter
  infer_instance

instance restore_agrees [IsTrue p.saved] : Agrees p restore := .modify fun h => h.restored

/-- Once a place is remembered, it may be returned to. -/
theorem save_then {isToken : α → Bool} {x : ParseM α} (hx : Coincides p.marked isToken x) :
    Coincides p isToken (liftM save >>= fun _ => x) where
  meets h := (hx.meets h.marked).mono fun _ _ hresult =>
    hresult.imp_right fun halike => halike.unmarked (p := p.past _)

instance scope_agrees : Agrees p scope where
  coincides :=
    .of_outcomes fun {_ r₁ r₂} h =>
      .inr ⟨r₂.symbols.current, r₁, r₂, by rw [← h.symbols]; rfl, rfl, h⟩

instance uniqueName_agrees {mark name : String} : Agrees p (uniqueName mark name) := by
  unfold uniqueName
  infer_instance

instance acceptPath_agrees [IsTrue p.begun] {identifier : String} :
    Agrees p (acceptPath identifier) := by
  unfold acceptPath
  infer_instance

/-- What a name stands for, the table tells. -/
instance lookUp_agrees [IsTrue p.begun] {exclusive : Bool} : Agrees p (lookUp exclusive) := by
  unfold lookUp
  refine .of_bind inferInstance fun token => .of_bind inferInstance fun identifier => ?_
  cases identifier with
  | none => exact .pure
  | some identifier =>
    have hfind (from_ : Scope) : Agrees p (do
        let symbol := (← get).symbols.find identifier from_ exclusive
        return some { identifier, scope := from_, symbol } : ReadM (Option Named)) :=
      .bind_get (fun h => by rw [h.symbols]) fun _ => .pure
    dsimp only
    split <;> exact .of_bind inferInstance hfind

/-- Where a name was read, there was a token. -/
theorem acceptSymbol_token :
    Coincides p Option.isSome (liftM acceptSymbol : ParseM (Option Named)) := by
  refine accept_token.andThen fun exclusive => ?_
  cases exclusive with
  | true =>
    rw [if_pos rfl]
    refine .of_begun rfl (Agrees.of_bind expect_agrees fun expected => ?_).coincides
    split
    · exact .pure
    · exact lookUp_agrees (p := p.past true)
  | false =>
    rw [if_neg Bool.false_ne_true]
    refine accept_token.andThen fun accepted => ?_
    cases accepted with
    | true => exact .of_begun rfl (lookUp_agrees (p := p.past true)).coincides
    | false =>
      rw [Bool.not_false, if_pos rfl]
      exact nextToken_agrees.coincides.andThen fun t =>
        error_agrees.coincides.andThen fun _ => no_token rfl

instance acceptSymbol_agrees : Agrees p acceptSymbol := ⟨acceptSymbol_token.ignore⟩

instance warnTruncation_agrees {e : Expression} {t : Ty} : Agrees p (warnTruncation e t) := by
  unfold warnTruncation
  infer_instance

instance expectDimension_agrees [IsTrue p.begun] {code : Int} {message : String} :
    Agrees p (expectDimension code message) := by
  unfold expectDimension
  infer_instance

section

variable [IsTrue p.begun] {inner : ReadM (Option Ty)} [Agrees p inner]

instance expectElement_agrees {noun : String} {code : Int} :
    Agrees p (expectElement inner noun code) := by
  unfold expectElement
  infer_instance

instance acceptVector_agrees : Agrees p (acceptVector inner) := by
  unfold acceptVector
  infer_instance

instance acceptMatrix_agrees : Agrees p (acceptMatrix inner) := by
  unfold acceptMatrix
  infer_instance

end

/-- A type is a token, and what is none is given back. -/
theorem acceptTypeNested_token {depth : Nat} :
    Coincides p Option.isSome (liftM (acceptTypeNested depth) : ParseM (Option Ty)) := by
  induction depth generalizing p with
  | zero => exact ⟨fun _ => .fault⟩
  | succ depth ih =>
    have hinner (q : Position) : Agrees q (acceptTypeNested depth) := ⟨ih.ignore⟩
    have hvector (q : Position) [IsTrue q.begun] :
        Agrees q (acceptVector (acceptTypeNested depth)) := inferInstance
    have hmatrix (q : Position) [IsTrue q.begun] :
        Agrees q (acceptMatrix (acceptTypeNested depth)) := inferInstance
    have hback (q : Position) [IsTrue q.saved] : Coincides q Option.isSome
        (liftM (do restore; return none : ReadM (Option Ty)) : ParseM (Option Ty)) :=
      restore_agrees.coincides.andThen fun _ => no_token rfl
    refine peek_agrees.coincides.andThen fun isIdentifier =>
      peek_agrees.coincides.andThen fun isPath => ?_
    split
    · -- A name that is none of a type is given back, together with the tokens of it.
      rw [Coincides.liftM_bind]
      refine save_then (acceptSymbol_token.andThen fun found => ?_)
      cases found with
      | none => exact hback _
      | some n =>
        dsimp only
        split
        · exact .pure fun _ => rfl
        · exact hback _
    refine accept_token.andThen fun isVector => ?_
    cases isVector with
    | true => exact .of_begun rfl (hvector (.past _ true)).coincides
    | false =>
      refine accept_token.andThen fun isMatrix => ?_
      cases isMatrix with
      | true => exact .of_begun rfl (hmatrix (.past _ true)).coincides
      | false =>
        refine nextToken_agrees.coincides.andThen fun t => ?_
        split
        · exact no_token rfl
        · exact consume_token.andThen fun _ => .pure fun _ => rfl

theorem acceptType_token : Coincides p Option.isSome (liftM acceptType : ParseM (Option Ty)) := by
  unfold acceptType
  rw [Coincides.liftM_bind]
  exact .bind_get (fun h => by rw [h.rounds]) fun _ => acceptTypeNested_token

instance acceptType_agrees : Agrees p acceptType := ⟨acceptType_token.ignore⟩

/-- Modifiers that were found are tokens. -/
theorem qualifiers_token (keywords : List (Token.Kind × Qualifiers)) (found : Qualifiers) :
    Coincides (p.past (found ≠ 0)) (· ≠ 0) (liftM (keywords.foldlM (fun found (kind, q) => do
      if ← accept kind then return found ||| q else return found) found : ReadM Qualifiers) :
      ParseM Qualifiers) := by
  have hfound {p : Position} {found : Qualifiers} : Coincides (p.past (found ≠ 0)) (· ≠ 0)
      (liftM (pure found : ReadM Qualifiers) : ParseM Qualifiers) :=
    .pure fun h => Bool.or_eq_true_iff.mpr (.inl h)
  induction keywords generalizing p found with
  | nil => exact hfound
  | cons keyword keywords ih =>
    have hstep : Coincides (p.past (found ≠ 0)) (· ≠ 0) (liftM (do
        if ← accept keyword.1 then return found ||| keyword.2 else return found :
        ReadM Qualifiers) : ParseM Qualifiers) := by
      refine accept_token.andThen fun accepted => ?_
      cases accepted with
      | true => exact .pure fun _ => rfl
      | false =>
        rw [if_neg Bool.false_ne_true]
        exact hfound (p := p)
    exact hstep.andThen fun more => ih more

instance acceptQualifiers_agrees : Agrees p acceptQualifiers := by
  unfold acceptQualifiers
  refine Agrees.of_readLoop fun all => ⟨?_⟩
  refine (qualifiers_token (p := p) qualifierKeywords 0).andThen fun found => ?_
  by_cases hfound : found = 0
  · rw [if_pos hfound]
    exact Agrees.pure.coincides
  · have : IsTrue (p.past (found ≠ 0)).begun := ⟨by simp [Position.past, hfound]⟩
    rw [if_neg hfound]
    exact (inferInstance : Agrees (p.past (found ≠ 0)) _).coincides

theorem parseType_token : Coincides p Option.isSome (liftM parseType : ParseM (Option Ty)) := by
  refine acceptQualifiers_agrees.coincides.andThen fun qualifiers =>
    acceptType_token.andThen fun found => ?_
  cases found with
  | none => exact no_token rfl
  | some t =>
    have hrest (q : Position) [IsTrue q.begun] : Agrees q (do
        let t := { t with qualifiers }
        if t.isIntegral && (t.has .centroid || t.has .noperspective) then
          error (← currentToken).location 4576
            "signature specifies invalid interpolation mode for integer component type"
          return none
        if t.has .centroid && !t.has .noperspective then return some (t.withQualifiers .linear)
        return some t : ReadM (Option Ty)) := by
      dsimp only
      infer_instance
    exact .of_begun rfl (hrest (.past _ true)).coincides

instance parseType_agrees : Agrees p parseType := ⟨parseType_token.ignore⟩

end Parser

/-- A position at which a declaration can begin. -/
class Position.Outer (p : Position) : Prop where
  outside : p.inFunction = false
  level : p.scope.level = p.scope.namespaceLevel
  path : [':', ':'] <:+ p.scope.name.toList

/-- Whether the parts of the grammar, as they are read inside of others, do the same for readers
at one position. -/
class Faithful (recurse : Parser.Recurse) : Prop where
  unary : ∀ {p : Position} [IsTrue p.begun],
    Replays p (recurse .unary : ParseM (Option Expression))
  multary : ∀ {p : Position} [IsTrue p.begun] {strength},
    Replays p (recurse (.multary strength) : ParseM (Option Expression))
  assignment :
    ∀ {p : Position} [IsTrue p.begun],
      Replays p (recurse .assignment : ParseM (Option Expression))
  sequence : ∀ {p : Position} [IsTrue p.begun],
    Replays p (recurse .sequence : ParseM (Option Expression))
  statement : ∀ {p : Position} [IsTrue p.begun] [IsTrue p.inFunction] {newScope},
    Replays p (recurse (.statement newScope) : ParseM Bool)
  declaration : ∀ {p : Position} [p.Outer], Replays p (recurse .declaration : ParseM Bool)

attribute [instance] Faithful.unary Faithful.multary Faithful.assignment Faithful.sequence
  Faithful.statement Faithful.declaration

namespace Parser

variable {p : Position}

instance load_replays {e : Expression} : Replays p (load e) := by
  unfold load
  infer_instance

instance applyStep_replays {location : Location} {kind : Token.Kind} {e : Expression} {value : Id} :
    Replays p (applyStep location kind e value) := by
  unfold applyStep
  infer_instance

instance parseStepBehind_replays {location : Location} {kind : Token.Kind} {e : Expression} :
    Replays p (parseStepBehind location kind e) := by
  unfold parseStepBehind
  infer_instance

instance invalidSubscript_agrees {location : Location} {subscript reason : String} :
    Agrees p (invalidSubscript location subscript reason) := by
  unfold invalidSubscript
  infer_instance

instance swizzle_agrees {e : Expression} {location : Location} {subscript : String}
    {lanes : Except String (List Nat)} :
    Agrees p (swizzle e location subscript lanes) := by
  unfold swizzle
  split <;> infer_instance

instance selectMember_replays {e : Expression} {location : Location} {name : String} :
    Replays p (selectMember e location name) := by
  unfold selectMember
  refine .of_bind .emit fun decl => ?_
  dsimp only
  split <;> infer_instance

instance selectConstant_agrees {e index : Expression} : Agrees p (selectConstant e index) := by
  unfold selectConstant
  infer_instance

instance selectDynamic_replays {e index : Expression} : Replays p (selectDynamic e index) := by
  unfold selectDynamic
  infer_instance

section

variable [IsTrue p.begun] {recurse : Recurse} [Faithful recurse]

set_option synthInstance.maxSize 65536 in
instance parseMember_replays {e : Expression} : Replays p (parseMember e) := by
  unfold parseMember
  dsimp only
  infer_instance

instance parseIndex_replays {e : Expression} : Replays p (parseIndex recurse e) := by
  unfold parseIndex
  infer_instance

instance parsePostfix_replays {e : Expression} : Replays p (parsePostfix recurse e) := by
  unfold parsePostfix
  refine .of_loop fun e => .of_bind inferInstance fun t => ?_
  dsimp only
  split <;> infer_instance

omit [IsTrue p.begun] in
instance applyUnary_replays {location : Location} {op : UnaryOp} {e : Expression} :
    Replays p (applyUnary location op e) := by
  unfold applyUnary
  infer_instance

instance parsePrefix_replays {kind : Token.Kind} {location : Location} :
    Replays p (parsePrefix recurse kind location) := by
  unfold parsePrefix
  refine .of_bind inferInstance fun e => ?_
  cases e with
  | none => infer_instance
  | some e =>
    dsimp only
    split
    · infer_instance
    · split <;> infer_instance

instance parseCast_replays {location : Location} {t : Ty} :
    Replays p (parseCast recurse location t) := by
  unfold parseCast
  infer_instance

/-- The place behind the parenthesis is remembered where it is returned to. -/
instance parseParenthesized_replays {location : Location} :
    Replays p (parseParenthesized recurse location) := by
  unfold parseParenthesized
  have hrest (q : Position) [IsTrue q.begun] [IsTrue q.saved] : Replays q (do
      let type ← acceptType
      let isConstructor ← peek .parenOpen
      if let some t := type then
        if !isConstructor then return ← parseCast recurse location t
        restore
      let some e ← recurse .sequence | return none
      if !(← expect .parenClose) then return none
      parsePostfix recurse e : ParseM (Option Expression)) := by
    refine .of_bind inferInstance fun type => .of_bind inferInstance fun isConstructor => ?_
    cases type <;> infer_instance
  exact ⟨save_then (hrest p.marked).coincides⟩

omit [IsTrue p.begun] in
instance giveUpElements_agrees : Agrees p giveUpElements := by
  unfold giveUpElements
  infer_instance

omit [IsTrue p.begun] in
instance addElement_agrees {s : Elements} {e : Expression} : Agrees p (addElement s e) := by
  unfold addElement
  dsimp only
  infer_instance

set_option synthInstance.maxSize 65536 in
instance parseElement_replays {s : Elements} : Replays p (parseElement recurse s) := by
  unfold parseElement
  infer_instance

omit [IsTrue p.begun] in
instance arrayOf_replays {location : Location} {s : Elements} : Replays p (arrayOf location s) := by
  unfold arrayOf
  infer_instance

instance parseInitializerList_replays {location : Location} :
    Replays p (parseInitializerList recurse location) := by
  unfold parseInitializerList
  infer_instance

omit [IsTrue p.begun] in
instance loadComponents_replays {base : Base} {arg : Expression} :
    Replays p (loadComponents base arg) := by
  unfold loadComponents
  infer_instance

omit [IsTrue p.begun] in
instance construct_replays {location : Location} {t : Ty} {args : List Expression} :
    Replays p (construct location t args) := by
  unfold construct
  split
  · infer_instance
  · split <;> infer_instance

instance parseArguments_replays {close : Token.Kind} {check : Expression → ParseM Bool}
    [∀ arg, Replays p (check arg)] :
    Replays p (parseArguments recurse close check) := by
  unfold parseArguments
  infer_instance

set_option synthInstance.maxSize 65536 in
instance parseConstructor_replays {t : Ty} {location : Location} :
    Replays p (parseConstructor recurse t location) := by
  unfold parseConstructor
  dsimp only
  infer_instance

omit [IsTrue p.begun] in
instance prepareArgument_replays {isUser : Bool} {arg : Expression} {t : Ty} :
    Replays p (prepareArgument isUser arg t) := by
  unfold prepareArgument
  infer_instance

omit [IsTrue p.begun] in
instance prepareArguments_replays {isUser : Bool} {args : List (Expression × Member)} :
    Replays p (prepareArguments isUser args) := by
  induction args with
  | nil => exact .pure
  | cons first rest ih =>
    unfold prepareArguments
    infer_instance

omit [IsTrue p.begun] in
instance emitCall_replays {location : Location} {symbol : Symbol} {args : List Expression} :
    Replays p (emitCall location symbol args) := by
  unfold emitCall
  dsimp only
  refine .of_bind inferInstance fun pairs => ?_
  cases pairs with
  | none => infer_instance
  | some pairs =>
    refine .of_bind inferInstance fun _ => ?_
    split <;> infer_instance

/-- Which function is called, the table tells. -/
instance parseCall_replays {n : Named} {location : Location} :
    Replays p (parseCall recurse n location) := by
  have hresolve (args : List Expression) : Replays p (do
      let r := (← get).symbols.resolveCall n.identifier (args.map (·.type)) n.scope
      if r.ok then return ← emitCall location r.symbol args
      if n.symbol.kind = .invalid then
        error location 3004 ("undeclared identifier or no matching intrinsic overload for "
          ++ inQuotes n.identifier)
      else if r.ambiguous then
        error location 3067 ("ambiguous function call to " ++ inQuotes n.identifier)
      else error location 3013 ("no matching function overload for " ++ inQuotes n.identifier)
      return none : ParseM (Option Expression)) :=
    .bind_get (fun h => by rw [h.symbols]) fun r => by infer_instance
  unfold parseCall
  dsimp only
  infer_instance

instance parseIdentifier_replays {location : Location} :
    Replays p (parseIdentifier recurse location) := by
  unfold parseIdentifier
  refine .of_bind inferInstance fun n => ?_
  cases n with
  | none => infer_instance
  | some n =>
    refine .of_bind inferInstance fun isCall => ?_
    split
    · infer_instance
    · split <;> infer_instance

instance parseStrings_agrees : Agrees p parseStrings := by
  unfold parseStrings
  infer_instance

instance parseOperand_replays : Replays p (parseOperand recurse) := by
  unfold parseOperand
  refine .of_bind inferInstance fun t => ?_
  dsimp only
  split
  case h_10 =>
    split
    · infer_instance
    · infer_instance
  all_goals infer_instance

instance parseUnary_replays : Replays p (parseUnary recurse) := by
  unfold parseUnary
  refine .of_bind inferInstance fun read => ?_
  split <;> infer_instance

end

instance canBranch_replays {allowed : Bool} : Replays p (canBranch allowed) := by
  unfold canBranch
  infer_instance

instance openRight_replays : Replays p openRight := by
  unfold openRight
  infer_instance

instance checkOperands_agrees {op : BinaryOp} {l r : Expression} :
    Agrees p (checkOperands op l r) := by
  unfold checkOperands
  dsimp only
  split
  · infer_instance
  · split <;> split <;> infer_instance

instance joinRight_replays {b : Branches} {l r : Expression} {value leftValue : Id} {t : Ty} :
    Replays p (joinRight b l r value leftValue t) := by
  unfold joinRight
  infer_instance

instance closeRight_replays {b : Branches} {op : BinaryOp} {condition l r : Expression}
    {leftValue : Id} {t : Ty} :
    Replays p (closeRight b op condition l r leftValue t) := by
  unfold closeRight
  infer_instance

instance convertOperands_agrees {op : BinaryOp} {l r : Expression} :
    Agrees p (convertOperands op l r) := by
  unfold convertOperands
  dsimp only
  infer_instance

instance applyBinary_replays {op : BinaryOp} {l r : Expression} {leftValue : Id} {t : Ty} :
    Replays p (applyBinary op l r leftValue t) := by
  unfold applyBinary
  dsimp only
  infer_instance

instance openArms_replays : Replays p openArms := by
  unfold openArms
  infer_instance

instance selectBoth_replays {c yes no : Expression} {t : Ty} :
    Replays p (selectBoth c yes no t) := by
  unfold selectBoth
  infer_instance

set_option synthInstance.maxSize 65536 in
instance selectOne_replays {arms : Arms} {c yes no : Expression} {t : Ty} :
    Replays p (selectOne arms c yes no t) := by
  unfold selectOne
  infer_instance

instance convertArms_agrees {c yes no : Expression} : Agrees p (convertArms c yes no) := by
  unfold convertArms
  dsimp only
  infer_instance

instance assign_replays {op : Option BinaryOp} {l r : Expression} : Replays p (assign op l r) := by
  unfold assign
  cases op <;> infer_instance

section

variable [IsTrue p.begun] {recurse : Recurse} [Faithful recurse]

set_option synthInstance.maxSize 65536 in
instance parseBinary_replays {op : BinaryOp} {l : Expression} :
    Replays p (parseBinary recurse op l) := by
  unfold parseBinary
  dsimp only
  infer_instance

set_option synthInstance.maxSize 65536 in
instance parseConditional_replays {c : Expression} : Replays p (parseConditional recurse c) := by
  unfold parseConditional
  dsimp only
  infer_instance

instance parseMultary_replays {strength : Nat} : Replays p (parseMultary recurse strength) := by
  unfold parseMultary
  refine .of_bind inferInstance fun first => ?_
  cases first with
  | none => infer_instance
  | some first =>
    refine .of_loop fun e => .of_bind inferInstance fun t => ?_
    dsimp only
    split
    · infer_instance
    · split
      · infer_instance
      · refine .of_bind inferInstance fun _ => ?_
        split <;> infer_instance

instance parseAssignment_replays : Replays p (parseAssignment recurse) := by
  unfold parseAssignment
  refine .of_bind inferInstance fun l => ?_
  cases l with
  | none => infer_instance
  | some l =>
    refine .of_bind inferInstance fun t => ?_
    split <;> infer_instance

instance parseSequence_replays : Replays p (parseSequence recurse) := by
  unfold parseSequence
  infer_instance

end
end Parser
end ShaderEffect

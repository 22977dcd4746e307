import ShaderEffect.Parser.Primary

namespace ShaderEffect.Parser

/-- How tightly an operator between operands binds. -/
def operatorStrength? (kind : Token.Kind) : Option Nat :=
  if kind = .question then some 1 else (BinaryOp.ofKind? kind).map BinaryOp.strength

/-- Whether an operand that is not needed can be branched around, which takes the blocks of a
function. The generator is only asked where nothing else is against it. -/
def canBranch (allowed : Bool) : ParseM Bool := do
  if allowed then emit .isInFunction else return false

/-- The blocks of a short circuit: the left operand is evaluated in one, the right in another, and
both lead to the third. -/
structure Branches where
  left : Id
  right : Id
  merge : Id

/-- Starts the block of a right operand that is only evaluated when it is needed. -/
def openRight : ParseM Branches := do
  let left ← emit (.setBlock 0)
  let right ← emit .makeId
  let merge ← emit .makeId
  emit (.enterBlock right)
  return { left, right, merge }

/-- Checks the operands of a binary operator. -/
def checkOperands (op : BinaryOp) (l r : Expression) : ReadM Bool := do
  let require (good : Expression → Bool) (code : Int) (message : String) : ReadM Bool := do
    match [l, r].find? (fun e => !good e) with
    | some e =>
      error e.location code message
      return false
    | none => return true
  if op.isEquality then
    if l.type.isArray || r.type.isArray || l.type.definition ≠ r.type.definition then
      error r.location 3020 "type mismatch"
      return false
    return true
  if op.isBitwise then require (·.type.isIntegral) 3082 "int or unsigned int type required"
  else require (·.type.isBasic) 3022 "scalar, vector, or matrix expected"

/-- Leaves the left block, which leads to the right one if `value` holds, and then the right one. -/
def joinRight (b : Branches) (l r : Expression) (value leftValue : Id) (t : Ty) :
    ParseM Expression := do
  let _ ← emit (.leaveAndBranchConditional value b.right b.merge)
  let _ ← emit (.setBlock b.right)
  let rightValue ← load r
  let rightEnd ← emit (.leaveAndBranch b.merge .plain)
  emit (.enterBlock b.merge)
  let result ←
    emit (.emitPhi l.location value b.left rightValue rightEnd leftValue b.left t)
  return l.toRvalue l.location result t

/-- Finishes a short circuit. The right operand is only evaluated if the left is true for `&&`, or
false for `||`; otherwise the left is the result. -/
def closeRight (b : Branches) (op : BinaryOp) (condition l r : Expression)
    (leftValue : Id) (t : Ty) :
    ParseM Expression := do
  let condition ← condition.addCast (.scalar .bool)
  let value ← load condition
  if op = .or then
    let negated ← emit (.unary l.location .not (.scalar .bool) value)
    joinRight b l r negated leftValue t
  else joinRight b l r value leftValue t

/-- Folds two constants, if both are. -/
def foldConstants? (op : BinaryOp) (l r : Expression) : Except Fault (Option Expression) :=
  if r.isConstant then l.foldBinary? op r.value else pure none

/-- Converts the operands of a binary operator to one type. Gives the type with them, unless they do
not fit the operator. -/
def convertOperands (op : BinaryOp) (l r : Expression) :
    ReadM (Option (Ty × Expression × Expression)) := do
  if !(← checkOperands op l r) then return none
  let merged := l.type.merge r.type
  let t := if op.isLogical then { merged with base := .bool } else merged
  warnTruncation l t
  warnTruncation r t
  return some (t, ← l.addCast t, ← r.addCast t)

/-- Applies a binary operator to operands of the same type, the left of which was loaded. -/
def applyBinary (op : BinaryOp) (l r : Expression) (leftValue : Id) (t : Ty) :
    ParseM Expression := do
  let rightValue ← load r
  let type := if op.isComparison then .matrix .bool t.rows t.cols else t
  let result ← emit (.binary l.location op type l.type leftValue rightValue)
  return l.toRvalue l.location result type

/-- Reads the right operand of a binary operator and applies it. -/
def parseBinary (recurse : Recurse) (op : BinaryOp) (l : Expression) :
    ParseM (Option Expression) := do
  let shortCircuit ← canBranch (op.isLogical && !(← read).noShortCircuit && l.type.isScalar)
  let branches ← if shortCircuit then some <$> openRight else pure none
  let some r ← recurse (.multary op.strength) | return none
  let condition := l
  let some (t, l, r) ← convertOperands op l r | return none
  if let some b := branches then
    let _ ← emit (.setBlock b.left)
  if let some folded ← foldConstants? op l r then return some folded
  let leftValue ← load l
  match branches with
  | some b => return some (← closeRight b op condition l r leftValue t)
  | none => return some (← applyBinary op l r leftValue t)

/-- The blocks of a conditional expression. -/
structure Arms where
  merge : Id
  condition : Id
  yes : Id
  no : Id

/-- Starts the block of the value that is taken if the condition holds. -/
def openArms : ParseM Arms := do
  let merge ← emit .makeId
  let condition ← emit (.setBlock 0)
  let yes ← emit .makeId
  let no ← emit .makeId
  emit (.enterBlock yes)
  return { merge, condition, yes, no }

/-- Evaluates both values and selects one. -/
def selectBoth (c yes no : Expression) (t : Ty) : ParseM Expression := do
  let c ← c.addCast (.vector .bool t.rows)
  let condition ← load c
  let trueValue ← load yes
  let falseValue ← load no
  let result ← emit (.select c.location t condition trueValue falseValue)
  return c.toRvalue c.location result t

/-- Evaluates the value that the condition asks for. -/
def selectOne (arms : Arms) (c yes no : Expression) (t : Ty) : ParseM Expression := do
  let _ ← emit (.setBlock arms.condition)
  let c ← c.addCast (.scalar .bool)
  let condition ← load c
  let _ ← emit (.leaveAndBranchConditional condition arms.yes arms.no)
  let _ ← emit (.setBlock arms.yes)
  let trueValue ← load yes
  let trueEnd ← emit (.leaveAndBranch arms.merge .plain)
  let _ ← emit (.setBlock arms.no)
  let falseValue ← load no
  let falseEnd ← emit (.leaveAndBranch arms.merge .plain)
  emit (.enterBlock arms.merge)
  let result ← emit
    (.emitPhi c.location condition arms.condition trueValue trueEnd falseValue falseEnd t)
  return c.toRvalue c.location result t

/-- Converts the values of a conditional expression to one type. Gives the type with them, unless
they do not fit the condition or each other. -/
def convertArms (c yes no : Expression) : ReadM (Option (Ty × Expression × Expression)) := do
  if c.type.rows ≠ yes.type.rows && c.type.cols ≠ yes.type.cols then
    error c.location 3020 "dimension of conditional does not match value"
    return none
  if yes.type.arrayLength ≠ no.type.arrayLength || yes.type.definition ≠ no.type.definition then
    error no.location 3020 "type mismatch between conditional values"
    return none
  let t := yes.type.merge no.type
  warnTruncation yes t
  warnTruncation no t
  return some (t, ← yes.addCast t, ← no.addCast t)

/-- Reads the two values of a conditional expression from behind the question mark. -/
def parseConditional (recurse : Recurse) (c : Expression) : ParseM (Option Expression) := do
  if !c.type.isScalar && !c.type.isVector then
    error c.location 3022 "boolean or vector expression expected"
    return none
  let shortCircuit ← canBranch (!(← read).noShortCircuit && c.type.isScalar)
  let arms ← if shortCircuit then some <$> openArms else pure none
  let some yes ← recurse .sequence | return none
  if !(← expect .colon) then return none
  if let some a := arms then
    let _ ← emit (.setBlock 0)
    emit (.enterBlock a.no)
  let some no ← recurse .assignment | return none
  let some (t, yes, no) ← convertArms c yes no | return none
  match arms with
  | some a => return some (← selectOne a c yes no t)
  | none => return some (← selectBoth c yes no t)

/-- Reads an operand and the operators behind it that bind more tightly than `strength`. -/
def parseMultary (recurse : Recurse) (strength : Nat) : ParseM (Option Expression) := do
  let some first ← recurse .unary | return none
  loop (fun e => do
    let kind := (← nextToken).kind
    match operatorStrength? kind with
    | none => return .inr (some e)
    | some s =>
      if s ≤ strength then return .inr (some e)
      consume
      let r ←
        match BinaryOp.ofKind? kind with
        | some op => parseBinary recurse op e
        | none => parseConditional recurse e
      match r with
      | some e => return .inl e
      | none => return .inr none) first

/-- The operator that an assignment applies to both sides, none for a plain one. -/
def assignment? : Token.Kind → Option (Option BinaryOp)
  | .equal => some none
  | .percentEqual => some (some .rem)
  | .ampersandEqual => some (some .bitAnd)
  | .starEqual => some (some .mul)
  | .plusEqual => some (some .add)
  | .minusEqual => some (some .sub)
  | .slashEqual => some (some .div)
  | .lessLessEqual => some (some .shiftLeft)
  | .greaterGreaterEqual => some (some .shiftRight)
  | .caretEqual => some (some .bitXor)
  | .pipeEqual => some (some .bitOr)
  | _ => none

/-- Assigns a value to an expression. -/
def assign (op : Option BinaryOp) (l r : Expression) : ParseM (Option Expression) := do
  if !isAssignable l then
    error l.location 3025 "l-value specifies const object"
    return none
  if l.type.rank r.type = 0 then
    error r.location 3020 (cannotConvert r.type l.type)
    return none
  if !l.type.isIntegral && op.any BinaryOp.isBitwise then
    error l.location 3082 "int or unsigned int type required"
    return none
  warnTruncation r l.type
  let r ← r.addCast l.type
  let value ← load r
  let result ←
    match op with
    | none => pure value
    | some op =>
      let old ← load l
      emit (.binary l.location op l.type l.type old value)
  emit (.store l result)
  return some (l.toRvalue l.location result l.type)

/-- Reads an expression without commas. Assignments chain to the right. -/
def parseAssignment (recurse : Recurse) : ParseM (Option Expression) := do
  let some l ← recurse (.multary 0) | return none
  match assignment? (← nextToken).kind with
  | none => return some l
  | some op =>
    consume
    let some r ← recurse .assignment | return none
    assign op l r

/-- Reads expressions separated by commas. The last gives the value. -/
def parseSequence (recurse : Recurse) : ParseM (Option Expression) := do
  let some first ← recurse .assignment | return none
  loop (fun e => do
    if !(← accept .comma) then return .inr (some e)
    match ← recurse .assignment with
    | some e => return .inl e
    | none => return .inr none) first

end ShaderEffect.Parser

import ShaderEffect.Parser.State

namespace ShaderEffect.Parser

/-- The value of an expression. -/
def load (e : Expression) : ParseM Id :=
  emit (.load e false)

/-- The operation that `++` or `--` applies. -/
def stepOperation (kind : Token.Kind) : BinaryOp :=
  if kind = .plusPlus then .add else .sub

/-- Adds one to an expression with the given value, or takes one away. -/
def applyStep (location : Location) (kind : Token.Kind) (e : Expression) (value : Id) :
    ParseM Unit := do
  let ones ← Constant.ones e.type
  let one ← emit (.constant e.type ones)
  let result ← emit (.binary location (stepOperation kind) e.type e.type value one)
  emit (.store e result)

/-- Reads a step behind its operand. The value is the one before the step. -/
def parseStepBehind (location : Location) (kind : Token.Kind) (e : Expression) :
    ParseM (Option Expression) := do
  if !e.type.isBasic then
    error e.location 3022 "scalar, vector, or matrix expected"
    return none
  if !isAssignable e then
    error e.location 3025 "l-value specifies const object"
    return none
  let value ← emit (.load e true)
  applyStep location kind e value
  return some (e.toRvalue location value e.type)

/-- The lane of a swizzle letter and the set the letter belongs to. -/
def swizzleLane? : Char → Option (Nat × Nat)
  | 'x' => some (0, 0) | 'y' => some (1, 0) | 'z' => some (2, 0) | 'w' => some (3, 0)
  | 'r' => some (0, 1) | 'g' => some (1, 1) | 'b' => some (2, 1) | 'a' => some (3, 1)
  | 's' => some (0, 2) | 't' => some (1, 2) | 'p' => some (2, 2) | 'q' => some (3, 2)
  | _ => none

/-- The lanes that letters select from a vector, or what is wrong with them. All letters are of one
set, which is `set` if letters stand in front. -/
def vectorLanes (rows : UInt32) (set : Option Nat) : List Char → Except String (List Nat)
  | [] => pure []
  | c :: rest =>
    match swizzleLane? c with
    | none => throw ""
    | some (lane, s) =>
      if set.any (· != s) then throw ", mixed swizzle sets"
      else if lane ≥ rows.toNat then throw ", swizzle out of range"
      else do
        let lanes ← vectorLanes rows (some s) rest
        pure (lane :: lanes)

/-- The row or column of a digit that counts from `base`. -/
def digitFrom? (base : Nat) (c : Char) : Option Nat :=
  let first := '0'.toNat + base
  if first ≤ c.toNat && c.toNat ≤ first + 3 then some (c.toNat - first) else none

/-- The lane that one part of a matrix swizzle selects, `_11` counted from one or
`_m00` from zero. -/
def matrixLane (t : Ty) (zeroBased : Bool) (part : List Char) (position : Nat) :
    Except String Nat := do
  let (mark, middle, digits) :=
    if zeroBased then (part.take 1, (part.drop 1).take 1, part.drop 2)
    else (part.take 1, [], part.drop 1)
  let base := if zeroBased then 0 else 1
  match digits.map (digitFrom? base) with
  | [some row, some col] =>
    if mark ≠ ['_'] then throw ""
    if zeroBased && middle ≠ ['m'] then throw ", mixed swizzle sets"
    if row ≥ t.rows.toNat || col ≥ t.cols.toNat || position > 3 then
      throw ", swizzle out of range"
    return row * 4 + col
  | _ => throw ""

/-- The lanes that a subscript selects from a matrix, or what is wrong with it. -/
def matrixLanes (t : Ty) (subscript : List Char) : Except String (List Nat) :=
  let zeroBased := subscript[1]? = some 'm'
  let step := if zeroBased then 4 else 3
  if subscript.length < 3 || subscript.length % step ≠ 0 then throw ""
  else
    (List.range (subscript.length / step)).mapM fun j =>
      matrixLane t zeroBased ((subscript.drop (j * step)).take step) j

/-- Whether a lane is selected more than once. -/
def hasDuplicate : List Nat → Bool
  | [] => false
  | x :: rest => rest.contains x || hasDuplicate rest

/-- Makes a part that was selected more than once, or that belongs to a uniform, read-only. It loads
like any other value. -/
def makeReadOnly (e : Expression) (duplicated : Bool) : Expression :=
  if duplicated || e.type.has .uniform then
    { e with
      type :=
        { e.type with qualifiers := (e.type.qualifiers ||| Qualifiers.const)
                        &&& ~~~Qualifiers.uniform } }
  else e

/-- Reports an invalid subscript. -/
def invalidSubscript (location : Location) (subscript reason : String) :
    ReadM (Option Expression) := do
  error location 3018 ("invalid subscript " ++ inQuotes subscript ++ reason)
  return none

/-- Applies the lanes of a swizzle, if they are valid. -/
def swizzle (e : Expression) (location : Location) (subscript : String)
    (lanes : Except String (List Nat)) : ReadM (Option Expression) := do
  match lanes with
  | .error reason => invalidSubscript location subscript reason
  | .ok lanes =>
    let picked ← e.addSwizzle (lanes.map Int.ofNat) (UInt32.ofNat lanes.length)
    return some (makeReadOnly picked (hasDuplicate lanes))

/-- Selects a member of a structure by its name. -/
def selectMember (e : Expression) (location : Location) (name : String) :
    ParseM (Option Expression) := do
  let members := ((← emit (.findStruct e.type.definition)).map (·.members)).getD []
  match members.zipIdx.find? (fun (m, _) => m.name = name) with
  | none => invalidSubscript location name ""
  | some (m, i) => return some (makeReadOnly (e.addMember (UInt32.ofNat i) m.type) false)

/-- Reads a member or swizzle from behind the point. -/
def parseMember (e : Expression) : ParseM (Option Expression) := do
  if !(← expect .identifier) then return none
  let t ← currentToken
  let location := t.location
  let subscript := t.text
  let letters := subscript.toList
  let type := e.type
  if ← accept .parenOpen then
    if !type.isStruct || type.isArray then error location 3087 "object does not have methods"
    else error location 3088 "structures do not have methods"
    return none
  if type.isArray then
    error location 3018 "invalid subscript on array"
    return none
  else if type.isVector then
    swizzle e location subscript (if letters.length > 4 then throw ", swizzle too long"
      else vectorLanes type.rows none letters)
  else if type.isMatrix then swizzle e location subscript (matrixLanes type letters)
  else if type.isStruct then selectMember e location subscript
  else if type.isScalar then
    if letters.length > 4 then return ← invalidSubscript location subscript ", swizzle too long"
    if !letters.all (fun c => c = 'x' || c = 'r' || c = 's') then
      return ← invalidSubscript location subscript ""
    return some (← e.addCast { type with rows := UInt32.ofNat letters.length })
  else invalidSubscript location subscript ""

/-- Selects by an index that is known, if it is in range. -/
def selectConstant (e index : Expression) : ReadM (Option Expression) := do
  let i := index.value.word
  if e.type.arrayLength > 0 && i ≥ UInt32.ofInt e.type.arrayLength then
    error index.location 3504 "array index out of bounds"
    return none
  return some (← e.addConstantIndex i)

/-- Selects by a computed index. A constant is put into a variable first. -/
def selectDynamic (e index : Expression) : ParseM Expression := do
  let e ←
    if e.isConstant then
      let value ← emit (.constant e.type e.value)
      let temp ← emit (.defineVariable e.location e.type "" false value)
      pure (e.toLvalue e.location temp e.type)
    else pure e
  return e.addDynamicIndex (← load index)

/-- Reads an index from behind the bracket. -/
def parseIndex (recurse : Recurse) (e : Expression) : ParseM (Option Expression) := do
  if !e.type.isArray && !e.type.isVector && !e.type.isMatrix then
    error (← currentToken).location 3121
      "array, matrix, vector, or indexable object type expected in index expression"
    return none
  let some index ← recurse .sequence | return none
  if !(← expect .bracketClose) then return none
  if !index.type.isScalar || !index.type.isIntegral then
    error index.location 3120 "invalid type for index - index must be an integer scalar"
    return none
  if index.isConstant then selectConstant e index else return some (← selectDynamic e index)

/-- Reads everything that follows an operand. -/
def parsePostfix (recurse : Recurse) (e : Expression) : ParseM (Option Expression) :=
  loop (fun e => do
    let proceed (r : Option Expression) : Expression ⊕ Option Expression :=
      match r with
      | some e => .inl e
      | none => .inr none
    let t ← nextToken
    match t.kind with
    | .plusPlus | .minusMinus =>
      consume
      return proceed (← parseStepBehind t.location t.kind e)
    | .dot =>
      consume
      return proceed (← parseMember e)
    | .bracketOpen =>
      consume
      return proceed (← parseIndex recurse e)
    | _ => return .inr (some e)) e

end ShaderEffect.Parser

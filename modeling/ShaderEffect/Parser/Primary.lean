import ShaderEffect.Parser.Postfix
import ShaderEffect.Parser.Type

namespace ShaderEffect.Parser

/-- The message about a conversion that does not exist. -/
def cannotConvert (source target : Ty) : String :=
  "cannot convert these types (from " ++ source.description ++ " to " ++ target.description ++ ")"

/-- Reads arguments up to a closing token that is left to be read. `check` looks at each argument
and gives false if it cannot be used. -/
def parseArguments (recurse : Recurse) (close : Token.Kind) (check : Expression → ParseM Bool) :
    ParseM (Option (List Expression)) :=
  loop (fun args => do
    if ← peek close then return .inr (some args)
    if !args.isEmpty then
      if !(← expect .comma) then return .inr none
    let some arg ← recurse .assignment | return .inr none
    if ← check arg then return .inl (args ++ [arg]) else return .inr none) []

/-- Applies an operator in front of an operand, if it is one that computes a value. -/
def applyUnary (location : Location) (op : UnaryOp) (e : Expression) : ParseM Expression := do
  match ← e.foldUnary? op with
  | some folded => return folded
  | none =>
    let value ← load e
    let result ← emit (.unary location op e.type value)
    return e.toRvalue location result e.type

/-- Reads the operand of an operator in front of it. -/
def parsePrefix (recurse : Recurse) (kind : Token.Kind) (location : Location) :
    ParseM (Option Expression) := do
  let some e ← recurse .unary | return none
  if !e.type.isBasic then
    error e.location 3022 "scalar, vector, or matrix expected"
    return none
  match kind with
  | .plusPlus | .minusMinus =>
    if !isAssignable e then
      error location 3025 "l-value specifies const object"
      return none
    let value ← load e
    applyStep location kind e value
    -- The new value stays reachable through the variable.
    return some e
  | .tilde =>
    if !e.type.isIntegral then
      error e.location 3082 "int or unsigned int type required"
      return none
    return some (← applyUnary location .complement e)
  | .exclaim =>
    let e ← if e.type.isBoolean then pure e else e.addCast (.matrix .bool e.type.rows e.type.cols)
    return some (← applyUnary location .not e)
  | .minus => return some (← applyUnary location .negate e)
  | _ => return some e

/-- Reads the operand of a cast. -/
def parseCast (recurse : Recurse) (location : Location) (t : Ty) : ParseM (Option Expression) := do
  if !(← expect .parenClose) then return none
  let some e ← recurse .unary | return none
  if e.type.same t then return some e
  if e.type.rank t = 0 then
    error location 3017 (cannotConvert e.type t)
    return none
  return some (← e.addCast t)

/-- Reads a cast or an expression in parentheses. A type that another parenthesis follows is a
constructor. -/
def parseParenthesized (recurse : Recurse) (location : Location) : ParseM (Option Expression) := do
  save
  let type ← acceptType
  let isConstructor ← peek .parenOpen
  if let some t := type then
    if !isConstructor then return ← parseCast recurse location t
    restore
  let some e ← recurse .sequence | return none
  if !(← expect .parenClose) then return none
  parsePostfix recurse e

/-- The elements read so far and the type they are converted to, which is void as long as there are
none. -/
structure Elements where
  values : List Expression := []
  type : Ty := .scalar .void

/-- The common type of two elements. Structures keep their definition. -/
def mergeElement (a b : Ty) : Ty :=
  if a.isStruct then a else a.merge b

/-- Ends an initializer list behind its brace without a result. -/
def giveUpElements : ReadM (Elements ⊕ Option Elements) := do
  consumeUntil .braceClose
  return .inr none

/-- Adds an element, if it goes with those in front of it. -/
def addElement (s : Elements) (e : Expression) : ReadM (Elements ⊕ Option Elements) := do
  if e.type.isArray then
    error e.location 3119 "arrays cannot be multi-dimensional"
    return ← giveUpElements
  let isFirst := s.type.base = .void
  if !isFirst && e.type.definition ≠ s.type.definition then
    error e.location 3017 (cannotConvert e.type s.type)
    return .inr none
  let type := if isFirst then e.type.plain else mergeElement s.type e.type
  return .inl { values := s.values ++ [e], type }

/-- Reads one element of an initializer list. A comma may stand behind the last. -/
def parseElement (recurse : Recurse) (s : Elements) : ParseM (Elements ⊕ Option Elements) := do
  if ← peek .braceClose then return .inr (some s)
  if !s.values.isEmpty then
    if !(← expect .comma) then return ← giveUpElements
  if ← peek .braceClose then return .inr (some s)
  let some e ← recurse .assignment | giveUpElements
  addElement s e

/-- The array of some elements. -/
def arrayOf (location : Location) (s : Elements) : ParseM Expression := do
  let type := { s.type with arrayLength := s.values.length }
  if s.values.all (·.isConstant) then
    let elements ← s.values.mapM fun e => return (← e.addCast s.type).value
    return .ofConstant location { elements } type
  let values ← s.values.mapM fun e => return e.toRvalue e.location (← load e) e.type
  let result ← emit (.construct location type values)
  return Expression.toRvalue {} location result type

def parseInitializerList (recurse : Recurse) (location : Location) :
    ParseM (Option Expression) := do
  let some elements ← loop (parseElement recurse) {} | return none
  let e ← arrayOf location elements
  if ← expect .braceClose then return some e else return none

/-- The lanes of constant arguments, converted to a base. -/
def constantComponents (base : Base) (args : List Expression) : Except Fault (List UInt32) := do
  let parts ← args.mapM fun arg => do
    let arg ← arg.addCast (.matrix base arg.type.rows arg.type.cols)
    pure (arg.value.lanes.toList.take arg.type.components.toNat)
  pure parts.flatten

/-- The component of an argument in a row and column. -/
def componentAt (arg : Expression) (row col : Nat) : Except Fault Expression := do
  if arg.type.isMatrix then
    let e ← arg.addConstantIndex (UInt32.ofNat row)
    e.addConstantIndex (UInt32.ofNat col)
  else if arg.type.isVector then arg.addConstantIndex (UInt32.ofNat row)
  else pure arg

/-- The loaded components of an argument, row by row, converted to a base. -/
def loadComponents (base : Base) (arg : Expression) : ParseM (List Expression) := do
  let rows := List.range (max arg.type.rows.toNat 1)
  let cols := List.range (max arg.type.cols.toNat 1)
  (rows.flatMap fun r => cols.map fun c => (r, c)).mapM fun (r, c) => do
    let part ← componentAt arg r c
    let type := { part.type with base }
    let part ← part.addCast type
    return part.toRvalue part.location (← load part) type

/-- The value of a type made from its components. A single argument is only converted. -/
def construct (location : Location) (t : Ty) (args : List Expression) : ParseM Expression := do
  if args.all (·.isConstant) then
    let lanes ← constantComponents t.base args
    return .ofConstant location { lanes := Lanes.ofList lanes } t
  match args with
  | [arg] => arg.addCast t
  | _ =>
    let parts ← args.mapM (loadComponents t.base)
    let result ← emit (.construct location t parts.flatten)
    return Expression.toRvalue {} location result t

/-- Reads the arguments of a constructor. -/
def parseConstructor (recurse : Recurse) (t : Ty) (location : Location) :
    ParseM (Option Expression) := do
  if !(← expect .parenOpen) then return none
  let wrongCount : ParseM (Option Expression) := do
    error location 3014 "incorrect number of arguments to numeric-type constructor"
    return none
  if !t.isNumeric then
    error location 3037 "constructors only defined for numeric base types"
    return none
  if ← accept .parenClose then return ← wrongCount
  let check (arg : Expression) : ParseM Bool := do
    if !arg.type.isNumeric then error arg.location 3017 "cannot convert non-numeric types"
    return arg.type.isNumeric
  let some args ← parseArguments recurse .parenClose check | return none
  if !(← expect .parenClose) then return none
  if args.foldl (fun n arg => n + arg.type.components) 0 ≠ t.components then return ← wrongCount
  return some (← construct location t args)

/-- Prepares an argument for a parameter of the given type, in the form in which it is
passed: samplers as they are, arguments of user functions and written arguments in a
variable, others as values. -/
def prepareArgument (isUser : Bool) (arg : Expression) (t : Ty) :
    ParseM (Option (Expression × Expression)) := do
  if t.has .output && !isAssignable arg then
    error arg.location 3025 "l-value specifies const object for an 'out' parameter"
    return none
  warnTruncation arg t
  let arg ← arg.addCast t
  if t.isSampler then return some (arg, arg)
  if isUser || t.has .output then
    let temp ← emit (.defineVariable arg.location t "" false 0)
    return some (arg, Expression.toLvalue {} arg.location temp t)
  let value ← load arg
  -- Targets may treat constant arguments in their own way.
  return some (arg,
      { Expression.toRvalue {} arg.location value t with isConstant := arg.isConstant })

/-- Prepares arguments one after the other, up to the first that cannot be passed. -/
def prepareArguments (isUser : Bool) :
    List (Expression × Member) → ParseM (Option (List (Expression × Expression)))
  | [] => return some []
  | (arg, p) :: rest => do
    let some first ← prepareArgument isUser arg p.type | return none
    let some more ← prepareArguments isUser rest | return none
    return some (first :: more)

/-- Whether a passed argument is a variable whose value goes the given way. -/
def isPassed (passed : Expression) (way : Qualifiers) : Bool :=
  passed.isLvalue && passed.type.has way && !passed.type.isSampler

/-- Calls a function that was found. -/
def emitCall (location : Location) (symbol : Symbol) (args : List Expression) :
    ParseM (Option Expression) := do
  let params := (symbol.function.map (·.parameters)).getD []
  let isUser : Bool := symbol.kind = .function
  let some pairs ← prepareArguments isUser (args.zip params) | return none
  pairs.forM fun (arg, passed) => do
    if isPassed passed .input then
      let value ← load arg
      emit (.store passed value)
  let passed := pairs.map (·.2)
  let result ←
    match symbol.intrinsic, isUser with
    | some i, false => emit (.callIntrinsic location i symbol.type passed)
    | _, _ => emit (.call location symbol.id symbol.type passed)
  pairs.forM fun (arg, passed) => do
    if isPassed passed .output then
      let value ← load passed
      emit (.store arg value)
  return some (Expression.toRvalue {} location result symbol.type)

/-- Reads the arguments of a call and resolves it. Names that stand for a failed declaration are not
reported again. -/
def parseCall (recurse : Recurse) (n : Named) (location : Location) :
    ParseM (Option Expression) := do
  let kind := n.symbol.kind
  let name := inQuotes n.identifier
  if kind ≠ .invalid && kind ≠ .function then
    error location 3005 ("identifier " ++ name ++ " represents a variable, not a function")
    return none
  let some args ← parseArguments recurse .parenClose (fun _ => return true) | return none
  if !(← expect .parenClose) then return none
  if !(← emit .isInFunction) then
    error location 3005 "invalid function call outside of a function"
    return none
  if kind = .function && n.symbol.id = Id.invalid then return none
  let r := (← get).symbols.resolveCall n.identifier (args.map (·.type)) n.scope
  if r.ok then return ← emitCall location r.symbol args
  if kind = .invalid then
    error location 3004 ("undeclared identifier or no matching intrinsic overload for " ++ name)
  else if r.ambiguous then error location 3067 ("ambiguous function call to " ++ name)
  else error location 3013 ("no matching function overload for " ++ name)
  return none

/-- Reads a name and, if it is called, its arguments. -/
def parseIdentifier (recurse : Recurse) (location : Location) : ParseM (Option Expression) := do
  let some n ← acceptSymbol | return none
  if ← accept .parenOpen then return ← parseCall recurse n location
  match n.symbol.kind with
  | .variable => return some (Expression.toLvalue {} location n.symbol.id n.symbol.type)
  | .constant => return some (.ofConstant location n.symbol.value n.symbol.type)
  | .invalid =>
    error location 3004 ("undeclared identifier " ++ inQuotes n.identifier)
    return none
  | .function | .intrinsic | .struct =>
    error location 3005
      ("identifier " ++ inQuotes n.identifier ++ " represents a function, not a variable")
    return none

/-- The value of a literal token. -/
def literal? (location : Location) (t : Token) : Option Expression :=
  match t.kind with
  | .trueLiteral => some (.ofBool location true)
  | .falseLiteral => some (.ofBool location false)
  | .intLiteral => some (.ofInt location t.word)
  | .uintLiteral => some (.ofWord location t.word)
  | .floatLiteral | .doubleLiteral => some (.ofSingle location t.single)
  | _ => none

/-- Reads string literals, which join. -/
def parseStrings : ReadM String :=
  readLoop (fun s => do
    if ← accept .stringLiteral then return .inl (s ++ (← currentToken).text) else return .inr s)
    ""

/-- Reads an operand without what follows it. A cast and an initializer list are complete; the flag
says whether more may follow. -/
def parseOperand (recurse : Recurse) : ParseM (Option Expression × Bool) := do
  let t ← nextToken
  let location := t.location
  match t.kind with
  | .exclaim | .plus | .minus | .tilde | .plusPlus | .minusMinus =>
    consume
    return (← parsePrefix recurse t.kind location, true)
  | .parenOpen =>
    consume
    return (← parseParenthesized recurse location, false)
  | .braceOpen =>
    consume
    return (← parseInitializerList recurse location, false)
  | .stringLiteral => return (some (.ofText location (← parseStrings)), true)
  | _ =>
    match literal? location t with
    | some e =>
      consume
      if t.kind = .doubleLiteral then
        warning location 5000 "double literal truncated to float literal"
      return (some e, true)
    | none =>
      match ← acceptType with
      | some type => return (← parseConstructor recurse type location, true)
      | none => return (← parseIdentifier recurse location, true)

/-- Reads an operand with everything that follows it. -/
def parseUnary (recurse : Recurse) : ParseM (Option Expression) := do
  match ← parseOperand recurse with
  | (some e, true) => parsePostfix recurse e
  | (e, _) => return e

end ShaderEffect.Parser

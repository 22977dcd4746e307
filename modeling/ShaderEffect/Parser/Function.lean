import ShaderEffect.Parser.ControlFlow

namespace ShaderEffect.Parser

/-- What a parameter must not be. -/
def parameterChecks (t : Ty) : List (Bool × Int × String) :=
  [(t.isVoid, 3038, "function parameters cannot be void"),
    (t.has .external, 3006, "function parameters cannot be declared 'extern'"),
    (t.has .static, 3007, "function parameters cannot be declared 'static'"),
    (t.has .uniform, 3047,
      "function parameters cannot be declared 'uniform', consider placing in global scope instead"),
    (t.has .output && t.has .const, 3046, "output parameters cannot be declared 'const'")]

/-- A parameter with its semantic. Integers are not interpolated between stages. -/
def withSemantic (p : Member) (semantic : String) : ReadM Member := do
  if semantic ≠ "" && p.type.isIntegral && !p.type.has .nointerpolation
      && !Text.startsWith "SV_" semantic then
    warning p.location 4568
      (inQuotes p.name ++ ": integer parameters have the 'nointerpolation' qualifier by default")
    return { p with semantic, type := p.type.withQualifiers .nointerpolation }
  return { p with semantic }

/-- Reads the type of a parameter. -/
def parseParameterType : ReadM (Option Ty) := do
  match ← parseType with
  | some t => return some t
  | none =>
    let t ← nextToken
    error t.location 3000 (unexpectedFor t "parameter type")
    return none

/-- Reads the comma in front of a parameter that is not the first. -/
def parseSeparator (s : Fields) : ReadM Bool :=
  if s.members.isEmpty then return true else expect .comma

/-- Reads one parameter. One that is not an output is an input. -/
def parseParameter (recurse : Recurse) (s : Fields) : ParseM (Option Fields) := do
  if !(← parseSeparator s) then return none
  let some t ← parseParameterType | return none
  if !(← expect .identifier) then return none
  let { text := name, location, .. } ← currentToken
  let valid ← reportFailed location name (parameterChecks t)
  let t := if t.has .output then t else t.withQualifiers .input
  let some type ← parseArraySize recurse t | return none
  let sized ← reportFailed location name
    [(type.arrayLength < 0, 3072, "array dimensions of function parameters must be explicit")]
  let some semantic ← parseSemantic | return none
  let parameter ← withSemantic { type, name, location } semantic
  return some { members := s.members ++ [parameter], valid := s.valid && valid && sized }

/-- Reads parameters up to the parenthesis, which is left to be read. After a syntax error the rest
of the list is skipped together with its parenthesis; the flag says whether there was none. -/
def parseParameters (recurse : Recurse) : ParseM (Fields × Bool) :=
  loop (fun (s : Fields) => do
    if ← peek .parenClose then return .inr (s, true)
    match ← parseParameter recurse s with
    | some s => return .inl s
    | none =>
      consumeUntil .parenClose
      return .inr ({ s with valid := false }, false)) {}

/-- Reads the semantic of a result, if there is one. -/
def parseResultSemantic (name : String) (t : Ty) : ReadM (Option String) := do
  let some semantic ← parseSemantic | return none
  if semantic ≠ "" && t.isVoid then
    declarationError (← currentToken).location 3076 name "void function cannot have a semantic"
    return none
  return some semantic

/-- Reads the parenthesis behind parameters, unless it was skipped with them. -/
def closeParameters (complete : Bool) : ReadM Bool :=
  if complete then expect .parenClose else return true

/-- Reads what stands between the parenthesis and the body of a function. The flag says whether all
parameters are valid. -/
def parseSignature (recurse : Recurse) (location : Location) (name uniqueName : String) (t : Ty) :
    ParseM (Option (FunctionDecl × Bool)) := do
  let (fields, complete) ← parseParameters recurse
  if !(← closeParameters complete) then return none
  let some returnSemantic ← parseResultSemantic name t | return none
  if ← accept .semicolon then
    declarationError location 3510 name "function is missing an implementation"
    return none
  let decl : FunctionDecl :=
    { name, uniqueName, returnType := t, returnSemantic, parameters := fields.members }
  return some (decl, fields.valid)

/-- Declares the parameters of a function, up to the first whose name is taken. -/
def declareParameters : List Member → ReadM Bool
  | [] => return true
  | p :: rest => do
    if ← declareOnce p.location p.name
      { kind := .variable, id := p.definition, type := p.type } false then
      declareParameters rest
    else return false

/-- The symbol of a function. -/
def functionSymbol (id : Id) (decl : Option FunctionDecl) : Symbol :=
  { kind := .function, id, type := { base := .function }, function := decl }

/-- Reads the body of a function. Its end returns. -/
def parseBody (recurse : Recurse) (location : Location) (decl : FunctionDecl) : ParseM Bool := do
  let decl ← emit (.defineFunction location decl)
  if !(← declareOnce location decl.name (functionSymbol decl.definition (some decl)) true) then
    return false
  if !(← declareParameters decl.parameters) then return false
  enterBlock (← makeBlock)
  let ok ← parseBlock recurse false
  if ← emit .isInBlock then
    let _ ← emit (.leaveAndReturn 0)
  return ok

/-- Reads a function from behind its name. -/
def parseFunction (recurse : Recurse) (t : Ty) : ParseM Bool := do
  let { text := name, location, .. } ← currentToken
  if !(← expect .parenOpen) then return false
  if t.qualifiers ≠ 0 then
    declarationError location 3047 name "function return type cannot have any qualifiers"
    return false
  let unique ← uniqueName "F" name
  modify fun p => { p with returnType := t }
  enterScope
  match ← parseSignature recurse location name unique t with
  | none =>
    leaveScope
    return false
  | some (decl, valid) =>
    let ok ← parseBody recurse location decl
    leaveScope
    emit .leaveFunction
    return ok && valid

end ShaderEffect.Parser

import ShaderEffect.Parser.Operation

namespace ShaderEffect.Parser

/-- Reports what is wrong with the declaration of a name. -/
def declarationError (location : Location) (code : Int) (name message : String) : ReadM Unit :=
  error location code (inQuotes name ++ ": " ++ message)

/-- Reports every check that failed. Gives whether none did. -/
def reportFailed (location : Location) (name : String) (checks : List (Bool × Int × String)) :
    ReadM Bool := do
  let failed := checks.filter (·.1)
  failed.forM fun (_, code, message) => declarationError location code name message
  return failed.isEmpty

/-- Declares a symbol, or reports that its name is taken. -/
def declareOnce (location : Location) (name : String) (symbol : Symbol) (isGlobal : Bool) :
    ReadM Bool := do
  if ← declare name symbol isGlobal then return true
  error location 3003 ("redefinition of " ++ inQuotes name)
  return false

/-- Reads one or more items with commas between them, up to a semicolon that is left to be read. An
item gives nothing to end the list early, and then the list is nothing as well. -/
def parseCommaSeparated {α : Type} (item : α → ParseM (Option α)) (a : α) :
    ParseM (Option α) :=
  loop (fun (isFirst, a) => do
    if !isFirst then
      if ← peek .semicolon then return .inr (some a)
      if !(← expect .comma) then return .inr none
    match ← item a with
    | some a => return .inl (false, a)
    | none => return .inr none) (true, a)

/-- Reads the length between the brackets of an array, which is -1 if it is left open. -/
def parseLength (recurse : Recurse) : ParseM (Option Int) := do
  if ← accept .bracketClose then return some (-1)
  let some e ← recurse .sequence | return none
  if !(← expect .bracketClose) then return none
  if !e.isConstant || !e.type.isScalar || !e.type.isIntegral then
    error e.location 3058 "array dimensions must be literal scalar expressions"
    return none
  let n := e.value.word
  if n < 1 || n > 65536 then
    error e.location 3059 "array dimension must be between 1 and 65536"
    return none
  return some n.toNat

/-- Reads the array brackets behind a name, if there are any. -/
def parseArraySize (recurse : Recurse) (t : Ty) : ParseM (Option Ty) := do
  let length ← if ← accept .bracketOpen then parseLength recurse else pure (some 0)
  let some arrayLength := length | return none
  if ← peek .bracketOpen then
    error (← nextToken).location 3119 "arrays cannot be multi-dimensional"
    return none
  return some { t with arrayLength }

/-- Reads a semantic, if there is one. It is empty otherwise. -/
def parseSemantic : ReadM (Option String) := do
  if !(← accept .colon) then return some ""
  if ← expect .identifier then return some (Text.upper (← currentToken).text) else return none

/-- Annotations read so far, and whether all of them are valid. -/
structure Annotations where
  entries : List Annotation := []
  valid : Bool := true

/-- Reads the name and value of an annotation. A type in front is ignored. -/
def parseAnnotation (recurse : Recurse) : ParseM (Option (String × Expression)) := do
  if (← acceptType).isSome then
    warning (← currentToken).location 4717
      "type prefixes for annotations are deprecated and ignored"
  if !(← expect .identifier) then return none
  let name := (← currentToken).text
  if !(← expect .equal) then return none
  let some e ← recurse (.multary 0) | return none
  if ← expect .semicolon then return some (name, e) else return none

/-- Reads a block of annotations, if there is one. What was read before an error is kept. -/
def parseAnnotations (recurse : Recurse) : ParseM Annotations := do
  if !(← accept .less) then return {}
  loop (fun (s : Annotations) => do
    if ← peek .greater then
      let closed ← expect .greater
      return .inr { s with valid := closed && s.valid }
    match ← parseAnnotation recurse with
    | none =>
      consumeUntil .greater
      return .inr { s with valid := false }
    | some (name, e) =>
      if e.isConstant then
        return .inl { s with entries := s.entries ++ [{ type := e.type, name, value := e.value }] }
      error e.location 3011 "value must be a literal expression"
      return .inl { s with valid := false }) {}

/-- Members or parameters read so far, and whether all of them are valid. -/
structure Fields where
  members : List Member := []
  valid : Bool := true

/-- What a member of a structure must not be. -/
def memberChecks (t : Ty) : List (Bool × Int × String) :=
  [(t.isVoid, 3038, "struct members cannot be void"),
    (t.isStruct, 3090, "nested struct members are not supported"),
    (t.has .input || t.has .output, 3055, "struct members cannot be declared 'in' or 'out'"),
    (t.has .const, 3035, "struct members cannot be declared 'const'"),
    (t.has .external, 3006, "struct members cannot be declared 'extern'"),
    (t.has .uniform, 3047, "struct members cannot be declared 'uniform'")]

/-- Reads the name of a member of a structure and what belongs to it. -/
def parseField (recurse : Recurse) (t : Ty) (s : Fields) : ParseM (Option Fields) := do
  if !(← expect .identifier) then return none
  let { text := name, location, .. } ← currentToken
  let valid ← reportFailed location name (memberChecks t)
  let some type ← parseArraySize recurse t | return none
  let sized ← reportFailed location name
    [(type.arrayLength < 0, 3072, "array dimensions of struct members must be explicit")]
  let some semantic ← parseSemantic | return none
  return some
    { members := s.members ++ [{ type, name, location, semantic }]
      valid := s.valid && valid && sized }

/-- Reads the members of a structure up to the brace, which is left to be read. -/
def parseFields (recurse : Recurse) : ParseM (Option Fields) :=
  loop (fun (s : Fields) => do
    if ← peek .braceClose then return .inr (some s)
    match ← parseType with
    | none =>
      let t ← nextToken
      error t.location 3000 (unexpectedFor t "struct member type")
      return .inr none
    | some t =>
      let some s ← parseCommaSeparated (parseField recurse t) s | return .inr none
      if ← expect .semicolon then return .inl s else return .inr none) {}

/-- Reads the name of a structure. One without a name is named after its place. -/
def parseStructName (location : Location) : ReadM String := do
  if ← accept .identifier then return (← currentToken).text
  return "_anonymous_struct_" ++ toString location.line ++ "_" ++ toString location.column

/-- Reads a structure from behind its keyword. -/
def parseStruct (recurse : Recurse) : ParseM Bool := do
  let location := (← currentToken).location
  let name ← parseStructName location
  let uniqueName ← uniqueName "S" name
  if !(← expect .braceOpen) then return false
  match ← parseFields recurse with
  | none =>
    consumeUntil .braceClose
    let _ ← accept .semicolon
    return false
  | some fields =>
    if fields.members.isEmpty then warning location 5001 "struct has no members"
    let decl ← emit (.defineStruct location { name, uniqueName, members := fields.members })
    if !(← declareOnce location name { kind := .struct, id := decl.definition } true) then
      return false
    return (← expect .braceClose) && fields.valid

end ShaderEffect.Parser

import ShaderEffect.Parser.Resource

namespace ShaderEffect.Parser

/-- Checks the modifiers of a global. One that is not static is set by the host. -/
def checkGlobal (location : Location) (name : String) (t : Ty) : ReadM (Option Ty) := do
  if t.has .static then
    if t.has .uniform then
      declarationError location 3007 name "uniform global variables cannot be declared 'static'"
      return none
    if t.has .volatile then
      declarationError location 3008 name "global variables cannot be declared 'volatile'"
      return none
    return some t
  if !t.has .uniform && !t.isTexture && !t.isSampler then
    warning location 5000
      (inQuotes name ++ ": global variables are considered 'uniform' by default")
  if t.has .const then
    declarationError location 3035 name "variables which are 'uniform' cannot be declared 'const'"
    return none
  return some (t.withQualifiers (.external ||| .uniform))

/-- Checks the modifiers of a local. -/
def checkLocal (location : Location) (name : String) (t : Ty) : ReadM (Option Ty) := do
  let checks :=
    [(t.has .external, 3006, "local variables cannot be declared 'extern'"),
      (t.has .uniform, 3047, "local variables cannot be declared 'uniform'"),
      (t.isTexture || t.isSampler, 3038, "local variables cannot be textures or samplers")]
  if ← reportFailed location name ((checks.filter (·.1)).take 1) then return some t
    else return none

/-- Checks the type and modifiers of a variable. -/
def checkVariable (location : Location) (name : String) (t : Ty) (isGlobal : Bool) :
    ReadM (Option Ty) := do
  if t.isVoid then
    declarationError location 3038 name "variables cannot be void"
    return none
  if t.has .input || t.has .output then
    declarationError location 3055 name "variables cannot be declared 'in' or 'out'"
    return none
  if isGlobal then checkGlobal location name t else checkLocal location name t

/-- What stands behind the name of a variable. -/
structure Tail where
  type : Ty
  init : Option Expression := none
  resource : Resource := {}
  annotations : List Annotation := []
  valid : Bool := true

/-- Reads an initial value and converts it to the type of its variable. An array of open length
takes the length of the value. -/
def parseInitializer (recurse : Recurse) (name : String) (t : Ty) (isGlobal : Bool) :
    ParseM (Option (Ty × Expression)) := do
  let some e ← recurse .assignment | return none
  if isGlobal && !e.isConstant then
    declarationError e.location 3011 name "initial value must be a literal expression"
    return none
  if (t.arrayLength ≥ 0 && e.type.arrayLength ≠ t.arrayLength) || e.type.rank t = 0 then
    declarationError e.location 3017 name
      ("initial value (" ++ e.type.description ++ ") does not match variable type ("
        ++ t.description ++ ")")
    return none
  if (e.type.rows < t.rows || e.type.cols < t.cols) && !e.type.isScalar then
    declarationError e.location 3017 name
      ("cannot implicitly convert these vector types (from " ++ e.type.description ++ " to "
        ++ t.description ++ ")")
    return none
  let t := if e.type.isArray then { t with arrayLength := e.type.arrayLength } else t
  warnTruncation e t
  return some (t, ← e.addCast t)

/-- Reads an initial value or properties. A value that is not given is zero, unless
the host sets it. -/
def parseValue (recurse : Recurse) (location : Location) (name : String) (isGlobal : Bool)
    (tail : Tail) : ParseM (Option Tail) := do
  let t := tail.type
  if ← accept .equal then
    let some (type, e) ← parseInitializer recurse name t isGlobal | return none
    return some { tail with type, init := some e }
  if t.isNumeric || t.isStruct then
    if t.has .const then
      declarationError location 3012 name "missing initial value"
      return none
    if t.has .uniform then return some tail
    return some { tail with init := some (.ofConstant location {} t) }
  if isGlobal then
    if ← accept .braceOpen then
      if t.has .const then
        declarationError location 3035 name "this variable type cannot be declared 'const'"
        return none
      let some resource ← parseProperties recurse | return none
      return some { tail with resource }
  return some tail

/-- Reads what follows the name of a variable and its array brackets. -/
def parseTail (recurse : Recurse) (location : Location) (name : String) (t : Ty) (isGlobal : Bool) :
    ParseM (Option Tail) := do
  if ← accept .colon then
    if !(← expect .identifier) then return none
    let token ← currentToken
    if !isGlobal then
      declarationError token.location 3043 name "local variables cannot have semantics"
      return none
    return some { type := t, resource := { texture := { semantic := Text.upper token.text } } }
  let annotations ← if isGlobal then parseAnnotations recurse else pure {}
  parseValue recurse location name isGlobal
    { type := t, annotations := annotations.entries, valid := annotations.valid }

/-- Checks that a sampler names a texture whose colors it can convert. -/
def checkSampler (location : Location) (name : String) (r : Resource) : ReadM Bool := do
  if r.sampler.textureName = "" then
    declarationError location 3012 name "missing 'Texture' property"
    return false
  if r.sampler.srgb && r.texture.format ≠ .rgba8 then
    declarationError location 4582 name
      "texture does not support sRGB sampling (only textures with RGBA8 format do)"
    return false
  return true

/-- Generates a static or local variable. -/
def defineStorage (location : Location) (name : String) (tail : Tail) (isGlobal : Bool) :
    ParseM Id := do
  let unique ← if isGlobal then uniqueName "V" name else pure name
  let value ←
    match tail.init with
    | some e => load e
    | none => pure 0
  emit (.defineVariable location tail.type unique isGlobal value)

/-- The constant value of a variable, if it has one. -/
def Tail.constant? (tail : Tail) : Option Constant :=
  tail.init.bind fun e => if e.isConstant then some e.value else none

/-- Generates a variable and gives its symbol. -/
def defineSymbol (location : Location) (name : String) (tail : Tail) (isGlobal : Bool) :
    ParseM (Option Symbol) := do
  let t := tail.type
  let symbolOf (id : Id) : Option Symbol := some { kind := .variable, id, type := t }
  let folded := if t.isNumeric && t.has .const then tail.constant? else none
  if let some value := folded then return some { kind := .constant, type := t, value }
  if t.isTexture then
    let texture :=
      { tail.resource.texture with
        uniqueName := ← uniqueName "V" name
        annotations := tail.annotations }
    return symbolOf (← emit (.defineTexture location texture)).id
  if t.isSampler then
    if !(← checkSampler location name tail.resource) then return none
    let sampler :=
      { tail.resource.sampler with
        uniqueName := ← uniqueName "V" name
        annotations := tail.annotations }
    return symbolOf (← emit (.defineSampler location sampler)).id
  if t.has .uniform then
    return symbolOf (← emit (.defineUniform location
      { name, type := t
        annotations := tail.annotations
        hasInitializer := tail.constant?.isSome
        initializer := tail.constant?.getD {} }))
  return symbolOf (← defineStorage location name tail isGlobal)

/-- Reads the declaration of a variable from behind its name. -/
def parseVariable (recurse : Recurse) (t : Ty) (isGlobal : Bool) : ParseM Bool := do
  let { text := name, location, .. } ← currentToken
  let some t ← checkVariable location name t isGlobal | return false
  let some t ← parseArraySize recurse t | return false
  let some tail ← parseTail recurse location name t isGlobal | return false
  if tail.type.arrayLength < 0 then
    declarationError location 3074 name "implicit array missing initial value"
    return false
  let some symbol ← defineSymbol location name tail isGlobal | return false
  return (← declareOnce location name symbol isGlobal) && tail.valid

end ShaderEffect.Parser

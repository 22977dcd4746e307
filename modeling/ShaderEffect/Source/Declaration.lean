import ShaderEffect.Source.ControlFlow

namespace ShaderEffect.Source

variable {δ : Type} [Dialect δ] [Literals δ]

open Generator

/-- The id of a constant, which is written as its literal. An array cannot be, and is declared. -/
def constantId (t : Ty) (c : Constant) : SourceM δ Id := do
  let id ← makeId
  let value ← Literals.literal t c
  if t.isArray then
    let inBlock := (← get).isInBlock
    write [.text (if inBlock then 1 else 0)
      (Dialect.constantMark δ inBlock ++ (← typeName .plain t) ++ " " ++ plainName id
        ++ arraySuffix t ++ " = " ++ value ++ ";")]
  else defineName .expression id value
  return id

/-- The id of the value of an expression, given how its accesses are written. Unless a new value is
asked for, the expression is written wherever the id is used. -/
def loadValue (access : Expression → SourceM δ String) (e : Expression) (forceNew : Bool) :
    SourceM δ Id := do
  if e.isConstant then return ← constantId e.type e.value
  if e.chain.isEmpty && !forceNew then return e.base
  let value ← access e
  if forceNew then return ← declare e.location e.type value
  let id ← makeId
  defineName .expression id value
  return id

/-- The names of arguments. -/
def argumentNames (args : List Expression) : SourceM δ (List String) :=
  args.mapM fun e => nameOf e.base

/-- The id of the value of a call, which is a statement if it has none. -/
def callValue (location : Location) (result : Ty) (call : String) : SourceM δ Id := do
  if result.isVoid then
    writeLocation location
    writeText (call ++ ";")
    makeId
  else declare location result call

def emitCall (location : Location) (function : Id) (result : Ty) (args : List Expression) :
    SourceM δ Id := do
  callValue location result (callText (← nameOf function) (← argumentNames args))

/-- The line of a member of a structure. -/
def memberLine (m : Member) : SourceM δ Line := do
  let type ← typeName .member m.type
  return .text 1
    (type ++ " " ++ Dialect.escape δ m.name ++ arraySuffix m.type
      ++ Dialect.semanticSuffix δ m.semantic ++ ";")

/-- Declares a structure. One without members gets one that means nothing. -/
def defineStruct (location : Location) (decl : StructDecl) : SourceM δ StructDecl := do
  let decl := { decl with definition := ← makeId }
  defineName .unique decl.definition decl.uniqueName
  writeLocation location
  let members ← decl.members.mapM memberLine
  let members := if members.isEmpty then [.text 1 "float _dummy;"] else members
  write ([.text 0 ("struct " ++ (← nameOf decl.definition)), .text 0 "\x7b"] ++ members
    ++ [.text 0 "\x7d;"])
  modify fun g => { g with structs := g.structs ++ [decl] }
  return decl

def defineVariable (location : Location) (t : Ty) (name : String) (isGlobal : Bool) (init : Id) :
    SourceM δ Id := do
  let id ← makeId
  defineName (if isGlobal then .unique else .general) id name
  writeLocation location
  let mark := if isGlobal then Dialect.globalMark δ else ""
  let const := if init ≠ 0 && t.has .const then "const " else ""
  let type ← typeName .declaration t
  let value ← if init ≠ 0 then pure (" = " ++ (← nameOf init)) else pure ""
  write [.text (if isGlobal then 0 else 1)
    (mark ++ const ++ type ++ " " ++ (← nameOf id) ++ arraySuffix t ++ value ++ ";")]
  return id

/-- Names a parameter and gives it with how it is declared. -/
def defineParameter (p : Member) : SourceM δ (Member × String) := do
  let p := { p with definition := ← makeId }
  defineName .general p.definition p.name
  let type ← typeName .parameter p.type
  let text :=
    type ++ " " ++ (← nameOf p.definition) ++ arraySuffix p.type
      ++ Dialect.semanticSuffix δ p.semantic
  return (p, text)

def defineFunction (location : Location) (decl : FunctionDecl) : SourceM δ FunctionDecl := do
  let definition ← makeId
  defineName .unique definition (if decl.uniqueName = "" then decl.name else decl.uniqueName)
  let parameters ← decl.parameters.mapM defineParameter
  let mark ← locationLines location
  let result ← typeName .plain decl.returnType
  let header := callText (result ++ " " ++ (← nameOf definition)) (parameters.map (·.2))
  writeGlobal (mark ++ [.text 0 (header ++ Dialect.semanticSuffix δ decl.returnSemantic)])
  let decl := { decl with definition, parameters := parameters.map (·.1) }
  modifyTarget fun s => { s with inFunction := true, returnType := decl.returnType }
  modify fun g => { g with functions := g.functions ++ [decl] }
  return decl

/-- Writes the function that was generated. Its body is the block that ended last. -/
def leaveFunction : SourceM δ Unit := do
  if !(← getTarget).inFunction then return
  let body ← take (← get).lastBlock
  writeGlobal ([.text 0 "\x7b"] ++ body ++ [.text 0 "\x7d"])
  modifyTarget fun s => { s with inFunction := false, blocks := [] }

/-- The lines that define a macro unless the host has defined it. -/
def overridable (name value : String) : Lines :=
  [.directive ("#ifndef " ++ name), .directive ("#define " ++ name ++ " " ++ value),
    .directive "#endif"]

/-- Declares a uniform as a constant or as a member of the uniform block, whichever its initial
value asks for. -/
def defineUniform (asConstant : Location → Id → Uniform → SourceM δ Unit)
    (asMember : Id → Uniform → SourceM δ Unit) (location : Location) (u : Uniform) :
    SourceM δ Id := do
  let id ← makeId
  defineName .unique id u.name
  if (← getTarget).specConstants && u.hasInitializer && u.type.isScalar then
    asConstant location id u
    addSpecConstant u
  else asMember id (← placeUniform u)
  return id

/-- Writes a member of the uniform block. -/
def writeUniform (s : String) : SourceM δ Unit :=
  modifyTarget fun st => { st with uniforms := st.uniforms.push (.text 1 s) }

end ShaderEffect.Source

import ShaderEffect.Glsl.Language

namespace ShaderEffect.Glsl

open Source Generator

/-- The built-in variable of a semantic. -/
def builtin? (o : Options) (semantic : String) (isPixelShader : Bool) : Option String :=
  match semantic with
  | "SV_POSITION" | "POSITION" | "VPOS" =>
    some (if isPixelShader then "gl_FragCoord" else "gl_Position")
  | "SV_DEPTH" | "DEPTH" => some "gl_FragDepth"
  | "SV_VERTEXID" => some (if o.vulkanSemantics then "gl_VertexIndex" else "gl_VertexID")
  | _ => none

/-- The type of a variable between stages. Truth values travel as floats. -/
def varyingType (t : Ty) : Ty :=
  { t with
    qualifiers := t.qualifiers &&& Qualifiers.interpolation
    base := if t.isBoolean then .float else t.base }

/-- A stage as far as it was written. -/
structure Stage where
  isPixelShader : Bool
  declarations : Lines := []
  body : Lines := []
  /-- Whether the position of the pixel is read. -/
  readsPosition : Bool := false

abbrev StageM := StateT Stage (SourceM Language)

/-- Adds a statement to the stage. -/
def statement (s : String) : StageM Unit :=
  modify fun st => { st with body := st.body ++ [.text 1 (s ++ ";")] }

/-- The words for interpolation of a variable between stages. Only outputs of vertex shaders and
inputs of pixel shaders are interpolated, and integers cannot be. -/
def varyingInterpolation (isPixelShader isOutput : Bool) (t : Ty) : String :=
  if isPixelShader = isOutput then ""
  else interpolation t ++ (if t.isIntegral && !t.has .nointerpolation then "flat " else "")

/-- The options of the generator. -/
def currentOptions : SourceM Language Options := do
  return (← getTarget).dialect.options

/-- The location of a semantic. -/
def locationOf (semantic : String) : SourceM Language UInt32 := do
  let s ← getTarget
  let (location, locations) := Interface.locate s.dialect.locations semantic
  modifyTarget fun s => { s with dialect := { s.dialect with locations } }
  return location

/-- The variable of a semantic, which is declared unless it is built in. -/
def varying (t : Ty) (semantic name : String) (isOutput : Bool) : StageM String := do
  let st ← get
  match builtin? (← currentOptions) semantic st.isPixelShader with
  | some builtin =>
    set { st with readsPosition := st.readsPosition || builtin = "gl_FragCoord" }
    return builtin
  | none =>
    let t := varyingType t
    let interpolation := varyingInterpolation st.isPixelShader isOutput t
    let direction := if isOutput then "out " else "in "
    let location ← locationOf semantic
    let type ← (typeName .plain t.plain : SourceM Language String)
    let line : Line := .text 0
      ("layout(location = " ++ toString location.toNat ++ ") " ++ interpolation ++ direction
        ++ type ++ " "
        ++ name ++ arraySuffix t ++ ";")
    set { st with declarations := st.declarations ++ [line] }
    return name

/-- A value converted to a type. Arrays and structures are not converted. -/
def converted (t : Ty) (value : String) : StageM String := do
  if t.isArray || t.isStruct then return value
  return callText (← (typeName .plain t.plain : SourceM Language String)) [value]

/-- The parts of a value that are passed between stages: their types, semantics, and what stands
behind the name of the value and of its variable. -/
def partsOf (g : Generator (State Language)) (t : Ty) (semantic : String) :
    List (Ty × String × String × String) :=
  match g.members? t with
  | some members =>
    members.map fun m => (m.type, m.semantic, "." ++ escapeName m.name, "_" ++ escapeName m.name)
  | none => [(t, semantic, "", "")]

/-- Reads a value from the variables of its parts. -/
def gatherInputs (t : Ty) (semantic value name : String) : StageM Unit := do
  let parts := partsOf (← (get : SourceM Language (Generator (State Language)))) t semantic
  parts.forM fun (t, semantic, part, suffix) => do
    let input ← varying t semantic (name ++ suffix) false
    statement (value ++ part ++ " = " ++ (← converted t input))

/-- Writes a value to the variables of its parts. -/
def scatterOutputs (t : Ty) (semantic value name : String) : StageM Unit := do
  let parts := partsOf (← (get : SourceM Language (Generator (State Language)))) t semantic
  parts.forM fun (t, semantic, part, suffix) => do
    let output ← varying t semantic (name ++ suffix) true
    statement (output ++ " = " ++ (← converted (varyingType t) (value ++ part)))

/-- Declares the variable of a parameter and reads it if it is an input. -/
def declareParameter (p : Member) (i : Nat) : StageM String := do
  let name := "_param" ++ toString i
  let type ← (typeName .plain p.type.plain : SourceM Language String)
  statement (type ++ " " ++ name ++ arraySuffix p.type)
  if p.type.has .input || !p.type.has .output then
    gatherInputs p.type p.semantic name ("_in_param" ++ toString i)
  return name

/-- Calls the function of the effect. -/
def stageCall (decl : FunctionDecl) (args : List String) : StageM Unit := do
  let call := callText (← (nameOf decl.definition : SourceM Language String)) args
  if decl.returnType.isVoid then statement call
  else
    let type ← (typeName .plain decl.returnType.plain : SourceM Language String)
    statement (type ++ " _ret = " ++ call)

/-- Writes the body of a stage: inputs, the call and outputs. -/
def writeStage (decl : FunctionDecl) (isPixelShader invertY : Bool) : StageM Unit := do
  let args ← decl.parameters.zipIdx.mapM fun (p, i) => declareParameter p i
  stageCall decl args
  decl.parameters.zipIdx.forM fun (p, i) => do
    if p.type.has .output then
      scatterOutputs p.type p.semantic ("_param" ++ toString i) ("_out_param" ++ toString i)
  if !decl.returnType.isVoid then
    scatterOutputs decl.returnType decl.returnSemantic "_ret" "_return"
  if invertY && !isPixelShader then statement "gl_Position.y = -gl_Position.y"

/-- Makes a function a stage, unless it is one. -/
def emitEntryPoint (decl : FunctionDecl) (isPixelShader : Bool) : SourceM Language Unit := do
  if !(← addEntryPoint decl.uniqueName isPixelShader) then return
  let o ← currentOptions
  let (_, st) ← (writeStage decl isPixelShader o.invertY).run { isPixelShader }
  let position : Lines :=
    if st.readsPosition && !o.vulkanSemantics && !o.version.es then
      [.text 0 "layout(origin_upper_left) in vec4 gl_FragCoord;"]
    else []
  writeGlobal ([.directive ("#ifdef ENTRY_POINT_" ++ decl.uniqueName)] ++ position
    ++ st.declarations ++ [.text 0 "void main()", .text 0 "\x7b"] ++ st.body
    ++ [.text 0 "\x7d", .directive "#endif"])

end ShaderEffect.Glsl

import ShaderEffect.Spirv.Generator.Access
import ShaderEffect.Spirv.Generator.Block

namespace ShaderEffect.Spirv

open Generator

/-- The built-in variable that a semantic stands for. -/
def builtIn? (options : Options) (semantic : String) (isPixelShader : Bool) : Option BuiltIn :=
  match semantic with
  | "SV_POSITION" | "POSITION" | "VPOS" => some (if isPixelShader then .fragCoord else .position)
  | "SV_DEPTH" | "DEPTH" => some .fragDepth
  | "SV_VERTEXID" => some (if options.vulkanSemantics then .vertexIndex else .vertexId)
  | _ => none

/-- What an entry point has declared so far. -/
structure Stage where
  isPixelShader : Bool
  interfaces : List Id := []
  /-- The output that holds the position, 0 if there is none. -/
  position : Id := 0
  writesDepth : Bool := false
deriving Inhabited

/-- A type as it passes between stages. -/
def varyingType (t : Ty) : Ty :=
  { t with qualifiers := t.qualifiers &&& Qualifiers.interpolation }

/-- Declares a variable between stages. -/
def declareVarying (stage : Stage) (t : Ty) (semantic : String) (storage : StorageClass) :
    SpirvM (Id × Stage) := do
  let id ← makeId
  declareVariable id {} t "" storage 0
  let s ← getTarget
  let builtIn := builtIn? s.options semantic stage.isPixelShader
  match builtIn with
  | some b => decorate id .builtIn [b]
  | none =>
    let (location, locations) := Interface.locate s.locations semantic
    modifyTarget fun s => { s with locations }
    decorate id .location [location]
    decorateSemantic id semantic
  if t.has .noperspective then decorate id .noPerspective []
  if t.has .centroid then decorate id .centroid []
  -- Integers cannot be interpolated.
  if t.has .nointerpolation
      || (stage.isPixelShader && storage = StorageClass.input && t.isIntegral) then
    decorate id .flat []
  let isPosition := builtIn = some BuiltIn.position && storage = StorageClass.output
  return (id,
    { stage with
      interfaces := stage.interfaces ++ [id]
      position := if isPosition then id else stage.position
      writesDepth := stage.writesDepth || builtIn = some BuiltIn.fragDepth })

/-- The parts of a value that pass between stages on their own: the members of a structure, or the
value itself. -/
def varyings (g : Generator State) (t : Ty) (semantic : String) : List (Ty × String) :=
  match g.members? t with
  | some members => members.map fun m => (varyingType m.type, m.semantic)
  | none => [(varyingType t, semantic)]

/-- Declares an output for each part of a value. -/
def declareOutputs (stage : Stage) (t : Ty) (semantic : String) : SpirvM (List Id × Stage) := do
  (varyings (← get) t semantic).foldlM (fun (ids, stage) (t, semantic) => do
    let (id, stage) ← declareVarying stage t semantic .output
    return (ids ++ [id], stage)) ([], stage)

/-- Declares an input for each part of a value and reads the value from them. -/
def readInputs (stage : Stage) (t : Ty) (semantic : String) : SpirvM (Id × Stage) := do
  let isStruct := ((← get).members? t).isSome
  let (values, stage) ←
    (varyings (← get) t semantic).foldlM (fun (ids, stage) (part, semantic) => do
      let (input, stage) ← declareVarying stage part semantic .input
      let type ← valueType (if isStruct then part else t.plain)
      return (ids ++ [← emit Op.load type [input]], stage)) (([] : List Id), stage)
  if isStruct then
    return (← emit Op.compositeConstruct (← valueType t.plain) values, stage)
  return (values.headD 0, stage)

/-- Writes a value to the outputs of its parts. -/
def writeOutputs (t : Ty) (value : Id) (outputs : List Id) : SpirvM Unit := do
  match (← get).members? t with
  | none => emitStore (outputs.headD 0) value
  | some members =>
    (members.zip outputs).zipIdx.forM fun ((m, output), k) => do
      let part ← emit Op.compositeExtract (← valueType m.type.plain) [value, UInt32.ofNat k]
      emitStore output part

/-- A parameter of the called function: the local that is passed, and the outputs that its value
goes to afterwards. -/
structure Passed where
  type : Ty
  location : Location
  variable_ : Id
  outputs : Option (List Id)
deriving Inhabited

/-- Prepares the local for a parameter. Parameters that are not written are read from inputs. -/
def passParameter (stage : Stage) (p : Member) : SpirvM (Passed × Stage) := do
  let local_ ← temporary {} p.type.plain
  let passed : Passed :=
    { type := p.type, location := p.location, variable_ := local_, outputs := none }
  if p.type.has .output then
    let (outputs, stage) ← declareOutputs stage p.type p.semantic
    return ({ passed with outputs := some outputs }, stage)
  let (value, stage) ← readInputs stage p.type p.semantic
  emitStore local_ value
  return (passed, stage)

/-- Writes a parameter to its outputs behind the call. -/
def returnParameter (p : Passed) : SpirvM Unit := do
  if let some outputs := p.outputs then
    let value ← emit Op.load (← valueType p.type.plain) [p.variable_]
    writeOutputs p.type value outputs

/-- Negates the y component of the position. -/
def invertPosition (position : Id) : SpirvM Unit := do
  let e : Expression := Expression.toLvalue {} {} position (.vector .float 4)
  let e ← e.addConstantIndex 1
  let y ← loadValue e
  let negated ← emitUnary {} .negate (.scalar .float) y
  storeValue e negated

/-- Records the entry point and how it is executed. -/
def addEntryPointRecord (stage : Stage) (wrapper : Id) (name : String) : SpirvM Unit := do
  let model := if stage.isPixelShader then ExecutionModel.fragment else ExecutionModel.vertex
  let record := Instruction.addText { op := Op.entryPoint, operands := [model, wrapper] } name
  let record := { record with operands := record.operands ++ stage.interfaces }
  let mode (m : ExecutionMode) : Instruction := { op := Op.executionMode, operands := [wrapper, m] }
  modifyTarget fun s =>
    { s with
      entryPoints := s.entryPoints.push record
      executionModes :=
        if !stage.isPixelShader then s.executionModes
        else
          let modes := s.executionModes.push (mode .originUpperLeft)
          if stage.writesDepth then modes.push (mode .depthReplacing) else modes }

/-- Reads the inputs of a stage, calls a function with them and writes its results
to the outputs. -/
def callAsStage (fn : FunctionDecl) (isPixelShader : Bool) : SpirvM Stage := do
  let (passed, stage) ← fn.parameters.foldlM (fun (done, stage) p => do
    let (passed, stage) ← passParameter stage p
    return (done ++ [passed], stage)) (([] : List Passed), ({ isPixelShader } : Stage))
  let args := passed.map fun p => Expression.toLvalue {} p.location p.variable_ p.type
  let result ← emitCall {} fn.definition fn.returnType args
  passed.forM returnParameter
  let stage ←
    if fn.returnType.isVoid then pure stage
    else do
      let (outputs, stage) ← declareOutputs stage fn.returnType fn.returnSemantic
      writeOutputs fn.returnType result outputs
      pure stage
  if (← getTarget).options.invertY && !isPixelShader && stage.position ≠ 0 then
    invertPosition stage.position
  return stage

/-- Makes a function the start of a stage, once for each name. -/
def emitEntryPoint (fn : FunctionDecl) (isPixelShader : Bool) : SpirvM Unit := do
  if !(← addEntryPoint fn.uniqueName isPixelShader) then return
  let wrapper ← startFunction {} { returnType := { base := .void } }
  enterBlock (← makeId)
  let stage ← callAsStage fn isPixelShader
  let _ ← leaveAndReturn 0
  leaveFunction
  addEntryPointRecord stage wrapper.definition fn.uniqueName

end ShaderEffect.Spirv

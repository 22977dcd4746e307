import ShaderEffect.Basic
import ShaderEffect.Generator
import ShaderEffect.Layout
import ShaderEffect.Spirv.Binary

namespace ShaderEffect.Spirv

structure Options where
  /-- Vertex ids are numbered as the host of the binary format expects. -/
  vulkanSemantics : Bool := true
  /-- Names, source files and lines are recorded. -/
  debugInfo : Bool := false
  /-- Scalar uniforms with an initial value become specialization constants. -/
  uniformsToSpecConstants : Bool := false
  /-- The y component of vertex positions is negated. -/
  invertY : Bool := true
deriving DecidableEq, Repr, Inhabited

/-- One basic block. The terminator is kept apart from the body, so that a merge instruction can be
put in front of it. -/
structure BasicBlock where
  body : List Instruction := []
  terminator : Option Instruction := none
deriving DecidableEq, Repr, Inhabited

/-- The instructions of a block. -/
def BasicBlock.flatten (b : BasicBlock) : List Instruction :=
  b.body ++ b.terminator.toList

/-- The code of a function. Its variables belong behind the first label of its definition. -/
structure FunctionCode where
  returnType : Ty
  declaration : Array Instruction := #[]
  locals : Array Instruction := #[]
  definition : List Instruction := []
deriving Inhabited

/-- What tells converted types apart. Modifiers do not. -/
structure TypeKey where
  base : Base
  rows : UInt32
  cols : UInt32
  arrayLength : Int
  definition : Id
  isPointer : Bool
  stride : UInt32
  storage : StorageClass
deriving DecidableEq, Repr

/-- What tells constants that are not arrays apart. -/
structure ConstantKey where
  type : TypeKey
  lanes : List UInt32
deriving DecidableEq, Repr

structure FunctionType where
  result : Id
  params : List Id
  id : Id
deriving DecidableEq, Repr

structure State where
  options : Options := {}
  capabilities : List Capability := [.matrix]
  extensions : List String := []
  entryPoints : Array Instruction := #[]
  executionModes : Array Instruction := #[]
  debugStrings : Array Instruction := #[]
  debugNames : Array Instruction := #[]
  annotations : Array Instruction := #[]
  types : Array Instruction := #[]
  globals : Array Instruction := #[]
  /-- The id of the extended instruction set. -/
  extendedSet : Id := 0
  /-- The type and the variable of the uniform block, 0 until there is a uniform. -/
  uniformType : Id := 0
  uniformVariable : Id := 0
  uniformMembers : Array Id := #[]
  /-- The member that the id of a uniform stands for. -/
  memberOf : Table Id UInt32 := []
  specConstants : List Id := []
  storage : Table Id StorageClass := []
  typeIds : Table TypeKey Id := []
  constantIds : Table ConstantKey Id := []
  functionTypes : List FunctionType := []
  sourceFiles : Table String Id := []
  locations : Interface.Locations := []
  functions : Array FunctionCode := #[]
  current : Option FunctionCode := none
  blocks : Table Id BasicBlock := []
  /-- The block that the code entered through a block was put into. -/
  spliced : Table Id Id := []
deriving Inhabited

abbrev SpirvM := GenM State

open Generator

/-- The current block. Code that belongs to none goes to block 0, which nothing reaches. -/
def currentBody : SpirvM BasicBlock := do
  let g ← get
  match g.target.blocks.get? g.currentBlock with
  | some b => return b
  | none =>
    modifyTarget fun s => { s with blocks := s.blocks.set g.currentBlock {} }
    return {}

def setCurrentBody (b : BasicBlock) : SpirvM Unit := do
  let id := (← get).currentBlock
  modifyTarget fun s => { s with blocks := s.blocks.set id b }

/-- Adds an instruction to the current block. -/
def add (i : Instruction) : SpirvM Unit := do
  let b ← currentBody
  setCurrentBody { b with body := b.body ++ [i] }

/-- Adds an instruction with a new result to the current block. -/
def emit (op : Opcode) (type : Id) (operands : List UInt32) : SpirvM Id := do
  let result ← makeId
  add { op, type, result, operands }
  return result

/-- Adds a call of an extended instruction to the current block. -/
def emitExtended (type : Id) (op : ExtendedOp) (operands : List UInt32) : SpirvM Id := do
  emit Op.extInst type ((← getTarget).extendedSet :: op :: operands)

def emitStore (pointer value : Id) : SpirvM Unit :=
  add { op := Op.store, operands := [pointer, value] }

/-- Adds a type with a new id. -/
def addType (op : Opcode) (operands : List UInt32) : SpirvM Id := do
  let result ← makeId
  modifyTarget fun s => { s with types := s.types.push { op, result, operands } }
  return result

/-- The instruction that gives the location of what follows it, where locations are recorded. -/
def lineInstruction (location : Location) : SpirvM (Option Instruction) := do
  let s ← getTarget
  if !s.options.debugInfo || location.source = "" then return none
  let file ←
    match s.sourceFiles.get? location.source with
    | some file => pure file
    | none =>
      let file ← makeId
      let text := Instruction.addText { op := Op.string, result := file } location.source
      modifyTarget fun s =>
        { s with
          debugStrings := s.debugStrings.push text
          sourceFiles := s.sourceFiles.set location.source file }
      pure file
  return some { op := Op.line,
                operands := [file, UInt32.ofInt location.line, UInt32.ofInt location.column] }

/-- Records a location in the current block, which exists afterwards. -/
def addBlockLocation (location : Location) : SpirvM Unit := do
  let _ ← currentBody
  if let some i ← lineInstruction location then add i

/-- Changes the function being generated. -/
def modifyFunction (f : FunctionCode → FunctionCode) : SpirvM Unit := do
  match (← getTarget).current with
  | none => throw .noFunction
  | some code => modifyTarget fun s => { s with current := some (f code) }

def addDeclaration (i : Instruction) : SpirvM Unit :=
  modifyFunction fun f => { f with declaration := f.declaration.push i }

/-- Records the name of an id. -/
def addName (id : Id) (name : String) : SpirvM Unit :=
  modifyTarget fun s =>
    if !s.options.debugInfo || name = "" then s
    else
      let i := Instruction.addText { op := Op.name, operands := [id] } name
      { s with debugNames := s.debugNames.push i }

/-- Records the name of a structure member. -/
def addMemberName (id : Id) (index : UInt32) (name : String) : SpirvM Unit :=
  modifyTarget fun s =>
    if !s.options.debugInfo || name = "" then s
    else
      let i := Instruction.addText { op := Op.memberName, operands := [id, index] } name
      { s with debugNames := s.debugNames.push i }

def addAnnotation (i : Instruction) : SpirvM Unit :=
  modifyTarget fun s => { s with annotations := s.annotations.push i }

def decorate (id : Id) (d : Decoration) (values : List UInt32) : SpirvM Unit :=
  addAnnotation { op := Op.decorate, operands := id :: d :: values }

def decorateMember (id : Id) (index : UInt32) (d : Decoration) (values : List UInt32) :
    SpirvM Unit :=
  addAnnotation { op := Op.memberDecorate, operands := id :: index :: d :: values }

def addCapability (c : Capability) : SpirvM Unit :=
  modifyTarget fun s =>
    if s.capabilities.contains c then s else { s with capabilities := s.capabilities ++ [c] }

/-- Records the semantic of a variable between stages. -/
def decorateSemantic (id : Id) (semantic : String) : SpirvM Unit := do
  if (← getTarget).options.debugInfo && semantic ≠ "" then
    let name := "SPV_GOOGLE_hlsl_functionality1"
    modifyTarget fun s =>
      if s.extensions.contains name then s else { s with extensions := s.extensions ++ [name] }
    addAnnotation (Instruction.addText
      { op := Op.decorateString, operands := [id, Decoration.hlslSemantic] } semantic)

def storageOf (s : State) (id : Id) : StorageClass :=
  (s.storage.get? id).getD .functionMemory

/-- The sections of the whole module, in order. -/
def State.sections (s : State) : List (List Instruction) :=
  let capability (c : Capability) : Instruction := { op := Op.capability, operands := [c] }
  let preamble :=
    (Capability.shader :: s.capabilities).map capability
    ++ s.extensions.map (Instruction.addText { op := Op.extension })
    ++ [Instruction.addText { op := Op.extInstImport, result := s.extendedSet } "GLSL.std.450",
      { op := Op.memoryModel, operands := [0, 1] }]
  let code (f : FunctionCode) : List Instruction :=
    f.declaration.toList ++ f.definition.take 1 ++ f.locals.toList ++ f.definition.drop 1
  [preamble, s.entryPoints.toList, s.executionModes.toList,
    [{ op := Op.source, operands := [0, 0] }]]
  ++ (if s.options.debugInfo then [s.debugStrings.toList, s.debugNames.toList] else [])
  ++ [s.annotations.toList, s.types.toList, s.globals.toList, s.functions.toList.flatMap code]

end ShaderEffect.Spirv

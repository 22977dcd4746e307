import ShaderEffect.Spirv.Generator.EntryPoint
import ShaderEffect.Spirv.Generator.Intrinsic

namespace ShaderEffect.Spirv

open Generator

def defineStruct (location : Location) (decl : StructDecl) : SpirvM StructDecl := do
  let members ← decl.members.mapM fun m => valueType m.type
  if let some i ← lineInstruction location then
    modifyTarget fun s => { s with types := s.types.push i }
  let id ← addType Op.typeStruct members
  addName id decl.uniqueName
  decl.members.zipIdx.forM fun (m, i) => addMemberName id (UInt32.ofNat i) m.name
  let decl := { decl with definition := id }
  modify fun g => { g with structs := g.structs ++ [decl] }
  return decl

/-- Textures are only reached through samplers, so they are only recorded. -/
def defineTexture (texture : Texture) : SpirvM Texture := do
  let texture := { texture with id := ← makeId }
  modifyResult fun m => { m with textures := m.textures ++ [texture] }
  return texture

def defineSampler (location : Location) (sampler : Sampler) : SpirvM Sampler := do
  let id ← makeId
  let binding := (← get).result.samplerBindings
  modifyResult fun m => { m with samplerBindings := binding + 1 }
  let t : Ty := { base := .sampler, qualifiers := .uniform }
  declareVariable id location t sampler.uniqueName .uniformConstant 0
  decorate id .descriptorSet [1]
  decorate id .binding [binding]
  let sampler := { sampler with id, binding }
  modifyResult fun m => { m with samplers := m.samplers ++ [sampler] }
  return sampler

/-- Defines a uniform as a specialization constant. -/
def defineSpecConstant (u : Uniform) : SpirvM Id := do
  let value := u.initializer.word
  let id ←
    if u.type.isBoolean then
      addConstant (if value ≠ 0 then Op.specConstantTrue else Op.specConstantFalse) u.type []
    else addConstant Op.specConstant u.type [value]
  decorate id .specId [UInt32.ofNat (← get).result.specConstants.length]
  addName id u.name
  addSpecConstant u
  modifyTarget fun s => { s with specConstants := id :: s.specConstants }
  return id

/-- Starts the uniform block. -/
def openUniformBlock : SpirvM Unit := do
  if (← getTarget).uniformType = 0 then
    let type ← makeId
    let variable_ ← makeId
    modifyTarget fun s => { s with uniformType := type, uniformVariable := variable_ }
    decorate type .block []
    decorate variable_ .descriptorSet [0]
    decorate variable_ .binding [0]

/-- Defines a uniform as a member of the uniform block. Truth values are stored as words, and the
rows of a matrix as columns. -/
def defineUniformMember (u : Uniform) : SpirvM Id := do
  openUniformBlock
  let u ← placeUniform u
  let s ← getTarget
  let index := UInt32.ofNat s.uniformMembers.size
  let t := if u.type.isBoolean then { u.type with base := .uint } else u.type
  let type ← valueType t (if t.isArray then Layout.arrayStride t else 0)
  modifyTarget fun s => { s with uniformMembers := s.uniformMembers.push type }
  addMemberName s.uniformType index u.name
  decorateMember s.uniformType index .offset [u.slot.offset]
  if t.isMatrix then
    decorateMember s.uniformType index .colMajor []
    decorateMember s.uniformType index .matrixStride [16]
  let id ← makeId
  modifyTarget fun s => { s with memberOf := s.memberOf.set id index }
  return id

def defineUniform (u : Uniform) : SpirvM Id := do
  if (← getTarget).options.uniformsToSpecConstants && u.hasInitializer && u.type.isScalar then
    defineSpecConstant u
  else defineUniformMember u

def defineVariable (location : Location) (t : Ty) (name : String) (isGlobal : Bool) (init : Id) :
    SpirvM Id := do
  let id ← makeId
  declareVariable id location t name (if isGlobal then .privateMemory else .functionMemory) init
  return id

def defineFunction (location : Location) (decl : FunctionDecl) : SpirvM FunctionDecl := do
  let decl ← startFunction location decl
  modify fun g => { g with functions := g.functions ++ [decl] }
  return decl

/-- Closes the uniform block and assembles the module. -/
def finish : SpirvM Code := do
  let s ← getTarget
  if s.uniformType ≠ 0 then
    modifyTarget fun s =>
      { s with
        types := s.types.push
          { op := Op.typeStruct, result := s.uniformType, operands := s.uniformMembers.toList } }
    addName s.uniformType "$Globals"
    let t : Ty := { base := .struct, definition := s.uniformType, qualifiers := .uniform }
    declareVariable s.uniformVariable {} t "$Globals" .uniform 0
  let g ← get
  let header : Header := { major := 1, minor := 3, bound := UInt32.ofNat g.nextId }
  return .words (assemble header g.target.sections)

instance : Backend State where
  isInFunction g := g.target.current.isSome
  finish := finish
  defineStruct := defineStruct
  defineTexture _ := defineTexture
  defineSampler := defineSampler
  defineUniform _ := defineUniform
  defineVariable := defineVariable
  defineFunction := defineFunction
  leaveFunction := leaveFunction
  defineEntryPoint := emitEntryPoint
  load e _ := loadValue e
  store := storeValue
  constant := constantId
  unary := emitUnary
  binary := emitBinary
  select := emitSelect
  call := emitCall
  callIntrinsic := emitIntrinsic
  construct := emitConstruct
  emitIf _ _ := emitIf
  emitPhi _ _ := emitPhi
  emitLoop _ _ := emitLoop
  emitSwitch _ _ := emitSwitch
  enterBlock := enterBlock
  leaveAndKill := leaveAndKill
  leaveAndReturn := leaveAndReturn
  leaveAndSwitch := leaveAndSwitch
  leaveAndBranch target _ := leaveAndBranch target
  leaveAndBranchConditional := leaveAndBranchConditional

/-- A generator for the binary target. The first id is that of the extended instruction set. -/
def generator (options : Options) : Generator State :=
  { nextId := 2, target := { options, extendedSet := 1 } }

end ShaderEffect.Spirv

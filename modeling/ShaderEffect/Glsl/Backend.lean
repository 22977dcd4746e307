import ShaderEffect.Glsl.Access
import ShaderEffect.Glsl.EntryPoint
import ShaderEffect.Glsl.Operation

namespace ShaderEffect.Glsl

open Source Generator

/-- Records a texture. The code sees nothing but its samplers. -/
def defineTexture (t : Texture) : SourceM Language Texture := do
  let t := { t with id := ← makeId }
  modifyResult fun m => { m with textures := m.textures ++ [t] }
  return t

/-- Declares a sampler. Each has a binding of its own. -/
def defineSampler (location : Location) (s : Sampler) : SourceM Language Sampler := do
  let s := { s with id := ← makeId, binding := (← get).result.samplerBindings }
  defineName .unique s.id s.uniqueName
  writeLocation location
  let layout := bindingText (← currentOptions) 1 s.binding
  write [.text 0 ("layout(" ++ layout ++ ") uniform sampler2D " ++ (← nameOf s.id) ++ ";")]
  modifyResult fun m =>
    { m with samplerBindings := m.samplerBindings + 1, samplers := m.samplers ++ [s] }
  return s

/-- Whether members of the uniform block can say where they lie. -/
def hasMemberOffsets (o : Options) : Bool :=
  let v := o.version
  o.vulkanSemantics || (!v.es && (v.major > 4 || (v.major = 4 && v.minor ≥ 40)))

/-- Writes a uniform as a member of the uniform block. -/
def uniformMember (id : Id) (u : Uniform) : SourceM Language Unit := do
  let o ← currentOptions
  let place :=
    if hasMemberOffsets o then "layout(offset = " ++ toString u.slot.offset.toNat ++ ") " else ""
  let type ← typeName .plain u.type
  writeUniform (place ++ type ++ " " ++ (← nameOf id) ++ arraySuffix u.type ++ ";")

/-- Writes a uniform as a constant. The host overrides it by its number, or by a macro in
front of the source. -/
def uniformConstant (location : Location) (id : Id) (u : Uniform) : SourceM Language Unit := do
  let t := u.type.plain
  let value ← literal t u.initializer
  let name ← nameOf id
  let type ← typeName .plain t
  writeLocation location
  if (← currentOptions).vulkanSemantics then
    let number := toString (← get).result.specConstants.length
    write [.text 0 ("layout(constant_id = " ++ number ++ ") const " ++ type ++ " " ++ name ++ " = "
      ++ value ++ ";")]
  else
    let macroName := "SPEC_CONSTANT_" ++ name
    write (overridable macroName value
      ++ [.text 0 ("const " ++ type ++ " " ++ name ++ " = " ++ callText type [macroName] ++ ";")])

/-- The whole source. -/
def finish : SourceM Language Code := do
  let s ← getTarget
  let block :=
    if s.uniforms.isEmpty then []
    else
      [.text 0 ("layout(std140, column_major, " ++ bindingText s.dialect.options 0 0
        ++ ") uniform _Globals \x7b")] ++ s.uniforms.toList ++ [.text 0 "\x7d;"]
  let front : Lines := (preamble s.dialect).map (Line.text 0)
  return .text (Lines.render (front ++ block ++ s.globals.toList))

instance : Backend (State Language) where
  isInFunction g := g.target.inFunction
  finish := finish
  defineStruct := defineStruct
  defineTexture _ := defineTexture
  defineSampler := defineSampler
  defineUniform := defineUniform uniformConstant uniformMember
  defineVariable := defineVariable
  defineFunction := defineFunction
  leaveFunction := leaveFunction
  defineEntryPoint := emitEntryPoint
  load := loadValue accessText
  store := storeValue
  constant := constantId
  unary := emitUnary
  binary := emitBinary
  select := emitSelect
  call := emitCall
  callIntrinsic := emitIntrinsic
  construct := emitConstruct
  emitIf := emitIf
  emitPhi := emitPhi
  emitLoop := emitLoop
  emitSwitch := emitSwitch
  enterBlock := enterBlock
  leaveAndKill := leaveAndKill
  leaveAndReturn := leaveAndReturn
  leaveAndSwitch _ _ := leaveOpen
  leaveAndBranch := leaveAndBranch
  leaveAndBranchConditional _ _ _ := leaveOpen

/-- A generator of GLSL. -/
def generator (o : Options) : Generator (State Language) :=
  { target :=
      { dialect := { options := o }
        debugInfo := o.debugInfo
        specConstants := o.uniformsToSpecConstants } }

end ShaderEffect.Glsl

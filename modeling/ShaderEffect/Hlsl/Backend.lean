import ShaderEffect.Hlsl.Operation

namespace ShaderEffect.Hlsl

open Source Generator

/-- The name of the view of a texture that converts colors. -/
def convertingView (name : String) : String :=
  "__srgb" ++ name

/-- Declares a texture and, in the next register, its view that converts colors. -/
def defineTexture (location : Location) (t : Texture) : SourceM Language Texture := do
  let t := { t with id := ← makeId, binding := (← get).result.textureBindings }
  defineName .unique t.id t.uniqueName
  let name ← nameOf t.id
  writeLocation location
  let line (name : String) (binding : UInt32) : Line :=
    .text 0 ("Texture2D " ++ name ++ " : register(t" ++ toString binding.toNat ++ ");")
  write [line name t.binding, line (convertingView name) (t.binding + 1)]
  modifyResult fun m =>
    { m with textureBindings := m.textureBindings + 2, textures := m.textures ++ [t] }
  return t

/-- The register of a sampler state, which is declared unless it is in use. -/
def stateRegister (st : SamplerState) : SourceM Language UInt32 := do
  match Table.get? (← getTarget).dialect.samplerStates st with
  | some register => return register
  | none =>
    let register := (← get).result.samplerBindings
    modifyResult fun m => { m with samplerBindings := register + 1 }
    modifyTarget fun s =>
      { s with
        dialect :=
          { s.dialect with samplerStates := Table.set st register s.dialect.samplerStates } }
    let number := toString register.toNat
    write [.text 0 ("SamplerState __s" ++ number ++ " : register(s" ++ number ++ ");")]
    return register

/-- Declares a sampler as a view of its texture together with a sampler state. -/
def defineSampler (location : Location) (s : Sampler) : SourceM Language Sampler := do
  let id ← makeId
  defineName .unique id s.uniqueName
  match (← get).result.findTexture? s.textureName with
  | none => throw (.unknownTexture s.uniqueName s.textureName)
  | some t =>
    writeLocation location
    let register ← stateRegister s.state
    let name ← nameOf t.id
    let view := if s.srgb then convertingView name else name
    let parts := listText [view, "__s" ++ toString register.toNat]
    write [.text 0 ("static const __sampler2D " ++ (← nameOf id) ++ " = " ++ parts ++ ";")]
    let textureBinding := if s.srgb then t.binding + 1 else t.binding
    let s := { s with id, binding := register, textureBinding }
    modifyResult fun m => { m with samplers := m.samplers ++ [s] }
    return s

/-- The constant register and component of a byte offset. -/
def packOffset (offset : UInt32) : String :=
  let component := (offset.toNat % 16) / 4
  "c" ++ toString (offset.toNat / 16)
    ++ (if component = 0 then "" else "." ++ String.singleton (componentLetter component))

/-- Writes a uniform as a member of the uniform block. -/
def uniformMember (id : Id) (u : Uniform) : SourceM Language Unit := do
  let order := if u.type.isMatrix then "row_major " else ""
  let type ← typeName .plain u.type
  writeUniform (order ++ type ++ " " ++ (← nameOf id) ++ arraySuffix u.type ++ " : packoffset("
    ++ packOffset u.slot.offset ++ ");")

/-- Writes a uniform as a constant. The host overrides it by a macro in front of the source. -/
def uniformConstant (location : Location) (id : Id) (u : Uniform) : SourceM Language Unit := do
  let t := u.type.plain
  let name ← nameOf id
  let macroName := "SPEC_CONSTANT_" ++ name
  writeLocation location
  let value ← literal t u.initializer
  let type ← typeName .plain t
  write (overridable macroName value
    ++ [.text 0 ("static const " ++ type ++ " " ++ name ++ " = " ++ macroName ++ ";")])

/-- Makes a function a stage. It has its semantics already, so nothing is written. -/
def emitEntryPoint (decl : FunctionDecl) (isPixelShader : Bool) : SourceM Language Unit := do
  let _ ← addEntryPoint (← nameOf decl.definition) isPixelShader

/-- The whole source. -/
def finish : SourceM Language Code := do
  let s ← getTarget
  let block :=
    if s.uniforms.isEmpty then []
    else
      [.text 0 "cbuffer _Globals : register(b0)", .text 0 "\x7b"] ++ s.uniforms.toList
        ++ [.text 0 "\x7d;"]
  let front : Line := .text 0 "struct __sampler2D \x7b Texture2D t; SamplerState s; \x7d;"
  return .text (Lines.render (front :: block ++ s.globals.toList))

instance : Backend (State Language) where
  isInFunction g := g.target.inFunction
  finish := finish
  defineStruct := defineStruct
  defineTexture := defineTexture
  defineSampler := defineSampler
  defineUniform := defineUniform uniformConstant uniformMember
  defineVariable := defineVariable
  defineFunction := defineFunction
  leaveFunction := leaveFunction
  defineEntryPoint := emitEntryPoint
  load := loadValue accessText
  store := storeValue
  constant := constantId
  unary := emitUnary
  binary := emitBinary
  select := emitSelect
  call := emitCall
  callIntrinsic := emitIntrinsic
  construct := emitConstruct
  emitIf := emitIf
  emitPhi := emitPhi
  emitLoop := emitLoop
  emitSwitch := emitSwitch
  enterBlock := enterBlock
  leaveAndKill := leaveAndKill
  leaveAndReturn := leaveAndReturn
  leaveAndSwitch _ _ := leaveOpen
  leaveAndBranch := leaveAndBranch
  leaveAndBranchConditional _ _ _ := leaveOpen

/-- A generator of HLSL. -/
def generator (o : Options) : Generator (State Language) :=
  { target :=
      { dialect := { options := o }
        debugInfo := o.debugInfo
        specConstants := o.uniformsToSpecConstants } }

end ShaderEffect.Hlsl

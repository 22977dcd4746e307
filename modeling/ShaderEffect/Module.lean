import ShaderEffect.Constant
import ShaderEffect.Diagnostic
import ShaderEffect.Layout

namespace ShaderEffect

/-- A member of a structure or a parameter of a function. -/
structure Member where
  type : Ty := {}
  name : String := ""
  semantic : String := ""
  location : Location := {}
  definition : Id := 0
deriving DecidableEq, Repr, Inhabited

structure StructDecl where
  name : String := ""
  uniqueName : String := ""
  members : List Member := []
  definition : Id := 0
deriving DecidableEq, Repr, Inhabited

structure FunctionDecl where
  definition : Id := 0
  name : String := ""
  uniqueName : String := ""
  returnType : Ty := {}
  returnSemantic : String := ""
  parameters : List Member := []
deriving DecidableEq, Repr, Inhabited

/-- A constant attached to a declaration. -/
structure Annotation where
  type : Ty
  name : String
  value : Constant
deriving Inhabited, Repr

/-- The storage format of a texture. -/
abbrev TextureFormat := UInt8

namespace TextureFormat

def names : List String :=
  ["unknown", "r8", "r16f", "r32f", "rg8", "rg16", "rg16f", "rg32f", "rgba8", "rgba16", "rgba16f",
    "rgba32f", "rgb10a2"]

def rgba8 : TextureFormat := 8

def name (f : TextureFormat) : String :=
  names.getD f.toNat "unknown"

end TextureFormat

structure Texture where
  id : Id := 0
  binding : UInt32 := 0
  semantic : String := ""
  uniqueName : String := ""
  annotations : List Annotation := []
  width : UInt32 := 1
  height : UInt32 := 1
  levels : UInt32 := 1
  format : TextureFormat := .rgba8
  renderTarget : Bool := false
deriving Inhabited, Repr

/-- Whether the texture is a color or depth buffer that the host provides. -/
def Texture.isBackBuffer (t : Texture) : Bool :=
  ["COLOR", "SV_TARGET", "DEPTH", "SV_DEPTH"].contains t.semantic

/-- How samples between texels are taken: two bits each for minification (0x30), magnification
(0x0c) and mip levels (0x03). -/
abbrev Filter := UInt8

namespace Filter

def linear : Filter := 0x15

def minLinear (f : Filter) : Bool := f &&& 0x30 ≠ 0
def magLinear (f : Filter) : Bool := f &&& 0x0c ≠ 0
def mipLinear (f : Filter) : Bool := f &&& 0x03 ≠ 0

end Filter

/-- How coordinates outside of a texture are resolved. -/
abbrev AddressMode := UInt8

namespace AddressMode

def wrap : AddressMode := 1
def mirror : AddressMode := 2
def clamp : AddressMode := 3
def border : AddressMode := 4

end AddressMode

/-- The part of a sampler that says how it samples. -/
structure SamplerState where
  filter : Filter := .linear
  addressU : AddressMode := .clamp
  addressV : AddressMode := .clamp
  addressW : AddressMode := .clamp
  minLod : Number.Single := Number.Single.largest.neg
  maxLod : Number.Single := Number.Single.largest
  lodBias : Number.Single := .zero
deriving DecidableEq, Repr, Inhabited

structure Sampler where
  id : Id := 0
  binding : UInt32 := 0
  textureBinding : UInt32 := 0
  uniqueName : String := ""
  textureName : String := ""
  annotations : List Annotation := []
  state : SamplerState := {}
  srgb : Bool := false
deriving Inhabited, Repr

structure Uniform where
  name : String := ""
  type : Ty := {}
  slot : Layout.Slot := {}
  annotations : List Annotation := []
  hasInitializer : Bool := false
  initializer : Constant := {}
deriving Inhabited, Repr

/-- A generated shader stage. -/
structure EntryPoint where
  name : String
  isPixelShader : Bool
deriving DecidableEq, Repr, Inhabited

/-- The state of one draw call. By default it draws one triangle without blending or stencil. -/
structure Pass where
  renderTargets : List String := List.replicate 8 ""
  vertexShader : String := ""
  pixelShader : String := ""
  clearTargets : Bool := false
  srgbWrite : Bool := false
  blend : Bool := false
  stencil : Bool := false
  colorWriteMask : UInt8 := 0x0f
  stencilReadMask : UInt8 := 0xff
  stencilWriteMask : UInt8 := 0xff
  blendOp : UInt8 := 1
  blendOpAlpha : UInt8 := 1
  srcBlend : UInt8 := 1
  destBlend : UInt8 := 0
  srcBlendAlpha : UInt8 := 1
  destBlendAlpha : UInt8 := 0
  stencilFunc : UInt8 := 7
  stencilReference : UInt32 := 0
  stencilPass : UInt8 := 1
  stencilFail : UInt8 := 1
  stencilDepthFail : UInt8 := 1
  vertices : UInt32 := 3
  topology : UInt8 := 4
  viewportWidth : UInt32 := 0
  viewportHeight : UInt32 := 0
deriving DecidableEq, Repr, Inhabited

structure Technique where
  name : String
  passes : List Pass
  annotations : List Annotation
deriving Inhabited, Repr

/-- The generated code: words of a binary module, or source text. -/
inductive Code where
  | words (ws : List UInt32)
  | text (s : String)
deriving DecidableEq, Repr, Inhabited

/-- The result of generating code for one effect. -/
structure Module where
  code : Code := .text ""
  entryPoints : List EntryPoint := []
  textures : List Texture := []
  samplers : List Sampler := []
  uniforms : List Uniform := []
  specConstants : List Uniform := []
  techniques : List Technique := []
  uniformSize : UInt32 := 0
  textureBindings : UInt32 := 0
  samplerBindings : UInt32 := 0
deriving Inhabited, Repr

namespace Module

def findTexture? (m : Module) (name : String) : Option Texture :=
  m.textures.find? (·.uniqueName = name)

def findTechnique? (m : Module) (name : String) : Option Technique :=
  m.techniques.find? (·.name = name)

/-- The uniform or specialization constant with the given name. -/
def findUniform? (m : Module) (name : String) : Option Uniform :=
  (m.uniforms.find? (·.name = name)).or (m.specConstants.find? (·.name = name))

end Module
end ShaderEffect

import ShaderEffect.Compilation

namespace ShaderEffect

/-- The settings of a project. An empty text and a missing flag stand for the usual setting. -/
structure Configuration where
  target : String := ""
  includePaths : List String := []
  defines : List (String × String) := []
  /-- A file with further macros. -/
  definesFile : String := ""
  debugInfo : Bool := false
  uniformsToSpecConstants : Bool := false
  vulkanSemantics : Option Bool := none
  invertY : Option Bool := none
  shaderModel : String := ""
  glslVersion : String := ""
  outputDir : String := ""
  /-- How many files are compiled at the same time. -/
  parallel : Int := 0
deriving Inhabited, Repr

namespace Configuration

/-- Why settings cannot be used. -/
inductive Invalid where
  | target (e : Problem)
  | shaderModel (e : Hlsl.ShaderModel.Unsupported)
  | glslVersion (e : Glsl.Version.Invalid)
  | negativeParallel (n : Int)
  | emptyMacroName
deriving Repr, Inhabited

def Invalid.message (e : Invalid) : String :=
  "reshadefx: invalid configuration: " ++
    match e with
    | target e => "target: " ++ e.message
    | shaderModel e => "shader_model: " ++ e.message
    | glslVersion e => "glsl_version: " ++ e.message
    | negativeParallel n => "parallel must not be negative, got " ++ toString n
    | emptyMacroName => "defines: empty macro name"

/-- Reads a text unless it is empty. -/
def given {ε α : Type} (read : String → Except ε α) (text : String) : Except ε (Option α) :=
  if text = "" then pure none else some <$> read text

/-- The settings of a compilation. The first text that cannot be understood is reported. -/
def options (c : Configuration) : Except Invalid Options := do
  let target ← (given Target.parse c.target).mapError .target
  let shaderModel ← (given Hlsl.ShaderModel.parse c.shaderModel).mapError .shaderModel
  let glslVersion ← (given Glsl.Version.parse c.glslVersion).mapError .glslVersion
  if c.parallel < 0 then throw (.negativeParallel c.parallel)
  if c.defines.any (·.1 = "") then throw .emptyMacroName
  let usual : Options := {}
  return { usual with
    target := (target.map Target.number).getD usual.target
    shaderModel := shaderModel.getD usual.shaderModel
    glslVersion := glslVersion.getD usual.glslVersion
    vulkanSemantics := c.vulkanSemantics.getD usual.vulkanSemantics
    invertY := c.invertY.getD usual.invertY
    includePaths := c.includePaths
    defines := c.defines
    debugInfo := c.debugInfo
    uniformsToSpecConstants := c.uniformsToSpecConstants }

/-- Checks that the settings can be used. -/
def validate (c : Configuration) : Except Invalid Unit := do
  let _ ← c.options

end Configuration
end ShaderEffect

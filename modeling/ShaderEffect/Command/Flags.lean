import ShaderEffect.Command.Console

namespace ShaderEffect.Command

/-- The flags of every command that runs the compiler. -/
structure Flags where
  target : String := ""
  /-- Macros as `NAME=VALUE` or `NAME`. -/
  defines : List String := []
  includes : List String := []
  debugInfo : Bool := false
  specConstants : Bool := false
  shaderModel : String := ""
  glslVersion : String := ""
  opengl : Bool := false
  noInvertY : Bool := false
  noShortCircuit : Bool := false
deriving Inhabited, Repr

/-- The configuration that is read if no other is named and it exists. -/
def defaultConfiguration : String := "fxc.yaml"

/-- Reads the named configuration, or the default one if there is any. -/
def loadConfiguration (files : Files) (path : String) : Except Failure Configuration :=
  if path = "" && !files.exists? defaultConfiguration then pure {}
  else
    (Configuration.load files (if path = "" then defaultConfiguration else path)).mapError
      .configuration

/-- A macro that is given as `NAME=VALUE`, or as a name that stands for 1. -/
def parseDefine (argument : String) : Except Failure (String × String) :=
  let cs := argument.toList
  let name := Text.trim (String.ofList (cs.takeWhile (· ≠ '=')))
  if name = "" then throw (.missingMacroName argument)
  else
    match cs.dropWhile (· ≠ '=') with
    | [] => pure (name, "1")
    | _ :: value => pure (name, String.ofList value)

/-- The settings of a configuration, overridden by flags. -/
def Flags.override (f : Flags) (o : Options) : Except Failure Options := do
  let target ← (Configuration.given Target.parse f.target).mapError .target
  let shaderModel
    ← (Configuration.given Hlsl.ShaderModel.parse f.shaderModel).mapError .shaderModel
  let glslVersion ← (Configuration.given Glsl.Version.parse f.glslVersion).mapError .glslVersion
  let defines ← f.defines.mapM parseDefine
  return { o with
    target := (target.map Target.number).getD o.target
    shaderModel := shaderModel.getD o.shaderModel
    glslVersion := glslVersion.getD o.glslVersion
    includePaths := o.includePaths ++ f.includes
    defines := defines.foldl (fun t (name, value) => Table.set name value t) o.defines
    debugInfo := o.debugInfo || f.debugInfo
    uniformsToSpecConstants := o.uniformsToSpecConstants || f.specConstants
    noShortCircuit := f.noShortCircuit
    vulkanSemantics := o.vulkanSemantics && !f.opengl
    invertY := o.invertY && !f.noInvertY }

/-- The settings of a command, and the configuration they come from. -/
def Flags.settings (f : Flags) (configPath : String) : CommandM (Options × Configuration) := do
  let c ← loadConfiguration (← get).files configPath
  let o ← (c.options).mapError Failure.setting
  return (← f.override o, c)

end ShaderEffect.Command

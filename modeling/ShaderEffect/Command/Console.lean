import ShaderEffect.Batch
import ShaderEffect.Configuration.Load

namespace ShaderEffect.Command

/-- Why a command failed. -/
inductive Failure where
  | outputNeedsOneFile
  | configuration (e : Configuration.LoadProblem)
  | setting (e : Configuration.Invalid)
  | target (e : Problem)
  | shaderModel (e : Hlsl.ShaderModel.Unsupported)
  | glslVersion (e : Glsl.Version.Invalid)
  | missingMacroName (argument : String)
  /-- The file to be preprocessed cannot be read. -/
  | unreadable (e : Files.Problem) (message : String)
  /-- What was asked of the module of an effect cannot be had. -/
  | result (input : String) (e : Problem)
  | directory (e : Files.Problem) (message : String)
  | output (e : Files.Problem) (message : String)
  | failedEffects (failed total : Nat)
  | failedEffect (path : String)
deriving Repr, Inhabited

def Failure.message : Failure → String
  | outputNeedsOneFile => "--output can only be used with a single input file"
  | configuration e => "failed to load config: " ++ e.message
  | setting e => e.message
  | target e => e.message
  | shaderModel e => e.message
  | glslVersion e => e.message
  | missingMacroName argument => "invalid define " ++ Text.quoted argument ++ ": missing name"
  | unreadable _ message => message
  | result input e => input ++ ": " ++ e.message
  | directory _ message => "failed to create output directory: " ++ message
  | output _ message => "failed to write output: " ++ message
  | failedEffects failed total =>
    "compilation failed: " ++ toString failed ++ " of " ++ toString total ++ " effect(s)"
  | failedEffect path => "compilation failed: " ++ path

/-- How much a command prints. -/
structure Verbosity where
  /-- Every step is reported. -/
  verbose : Bool := false
  /-- Only errors are reported. It overrules `verbose`. -/
  quiet : Bool := false
  color : Bool := false
deriving Inhabited, Repr

/-- What a command has printed, and the files as it leaves them. -/
structure Console where
  verbosity : Verbosity := {}
  files : Files := {}
  stdout : String := ""
  stderr : String := ""
deriving Inhabited

/-- A command. What it has done before it fails is kept. -/
abbrev CommandM := ExceptT Failure (StateT Console (Except Fault))

def print (text : String) : CommandM Unit :=
  modify fun c => { c with stdout := c.stdout ++ text }

def printError (text : String) : CommandM Unit :=
  modify fun c => { c with stderr := c.stderr ++ text }

/-- A line, between escape sequences where the terminal has color. -/
def painted (code text : String) : CommandM String := do
  let line := text ++ "\n"
  if (← get).verbosity.color then return "\x1b[" ++ code ++ "m" ++ line ++ "\x1b[0m"
  return line

/-- Reports a step if every step is to be reported. -/
def step (text : String) : CommandM Unit := do
  let v := (← get).verbosity
  if v.verbose && !v.quiet then printError (← painted "34" text)

/-- Reports something that was done. -/
def done (text : String) : CommandM Unit := do
  if !(← get).verbosity.quiet then print (← painted "32" text)

/-- Reports a failure. -/
def fail (text : String) : CommandM Unit := do
  printError (← painted "31;1" text)

/-- Prints diagnostics, without warnings if only errors are to be reported. -/
def report (ds : Diagnostics) : CommandM Unit := do
  let v := (← get).verbosity
  printError (Diagnostics.renderColored v.color (if v.quiet then Diagnostics.errors ds else ds))

/-- Writes a file, and makes its directory. -/
def writeFile (path content : String) : CommandM Unit := do
  let files := (← get).files
  match files.makeDirectories (Path.dir path) with
  | .error (e, message) => throw (.directory e message)
  | .ok files =>
    modify fun c => { c with files }
    match files.write path content with
    | .error (e, message) => throw (.output e message)
    | .ok files =>
      modify fun c => { c with files }
      step ("Wrote " ++ path ++ " (" ++ toString content.length ++ " bytes)")

end ShaderEffect.Command

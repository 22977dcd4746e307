import ShaderEffect.Command.Flags
import ShaderEffect.Descriptors
import ShaderEffect.Spirv.Binary

namespace ShaderEffect.Command

/-- Compiles effects and writes their modules. -/
structure Compile where
  flags : Flags := {}
  /-- The configuration file, or the default one if it is empty. -/
  config : String := ""
  inputs : List String := []
  /-- The file of a single result; `-` prints it. -/
  output : String := ""
  outputDir : String := ""
  /-- Results are restricted to this entry point unless it is empty. -/
  entry : String := ""
  /-- Whether the descriptions of modules are written, too. -/
  descriptors : Bool := false
deriving Inhabited

/-- The content of a result file. -/
def Compile.content (cmd : Compile) (r : Result) : Except Problem String :=
  match r.target, r.output.code with
  | .spirv, .words ws => do
    if cmd.entry ≠ "" then
      let _ ← r.findEntryPoint cmd.entry
    pure (String.ofList (Spirv.toBytes ws))
  | _, _ => if cmd.entry ≠ "" then r.stageSource cmd.entry else pure r.sourceText

/-- The name of the files of an effect, without extension. -/
def Compile.stem (cmd : Compile) (input : String) : String :=
  Text.stripEnding (Path.ext input) (Path.base input)
    ++ (if cmd.entry ≠ "" then "." ++ cmd.entry else "")

/-- Writes the result of an effect. -/
def Compile.write (cmd : Compile) (outputDir input : String) (r : Result) : CommandM Unit := do
  let content ← (cmd.content r).mapError (Failure.result input)
  let dir := if outputDir = "" then Path.dir input else outputDir
  let stem := cmd.stem input
  let path := if cmd.output = "" then Path.join [dir, stem ++ r.target.extension] else cmd.output
  if path = "-" then print content
  else
    writeFile path content
    done ("Compiled " ++ input ++ " -> " ++ path)
  if cmd.descriptors then
    writeFile (Path.join [dir, stem ++ ".yaml"]) (Descriptors.ofModule r.output).render

/-- Handles what became of an effect. Gives whether it failed. -/
def Compile.handle (cmd : Compile) (outputDir : String) (e : Batch.Entry) : CommandM Bool := do
  match e.outcome with
  | none => return false
  | some (.error p) =>
    fail (e.path ++ ": " ++ p.message)
    return true
  | some (.ok r) =>
    report r.diagnostics
    if r.success then
      cmd.write outputDir e.path r
      return false
    fail (e.path ++ ": compilation failed")
    return true

/-- Handles every effect of a batch and then reports how they fit together. Fails
if an effect did. -/
def handleBatch (b : Batch) (handle : Batch.Entry → CommandM Bool) : CommandM Unit := do
  let failed ← b.entries.filterM handle
  report b.registry.diagnostics
  if !failed.isEmpty then throw (.failedEffects failed.length b.entries.length)

def Compile.run (cmd : Compile) : CommandM Unit := do
  if cmd.output ≠ "" && cmd.inputs.length > 1 then throw .outputNeedsOneFile
  let (o, c) ← cmd.flags.settings cmd.config
  step ("Compiling " ++ toString cmd.inputs.length ++ " effect(s) to " ++ Target.nameOf o.target)
  let b ← liftM (Batch.compile o (← get).files cmd.inputs)
  handleBatch b (cmd.handle (if cmd.outputDir = "" then c.outputDir else cmd.outputDir))

/-- Compiles effects and only reports diagnostics. -/
structure Check where
  flags : Flags := {}
  config : String := ""
  inputs : List String := []
deriving Inhabited

/-- Reports what became of an effect. Gives whether it failed. -/
def checkEntry (e : Batch.Entry) : CommandM Bool := do
  match e.outcome with
  | none => return false
  | some (.error p) =>
    fail (e.path ++ ": " ++ p.message)
    return true
  | some (.ok r) =>
    report r.diagnostics
    if r.success then done (e.path ++ ": ok") else fail (e.path ++ ": FAIL")
    return !r.success

def Check.run (cmd : Check) : CommandM Unit := do
  let (o, _) ← cmd.flags.settings cmd.config
  let b ← liftM (Batch.compile o (← get).files cmd.inputs)
  handleBatch b checkEntry

end ShaderEffect.Command

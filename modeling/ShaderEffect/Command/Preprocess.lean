import ShaderEffect.Command.Flags

namespace ShaderEffect.Command

/-- Preprocesses an effect. -/
structure Preprocess where
  flags : Flags := {}
  config : String := ""
  input : String := ""
  /-- The file of the result, which is printed if this is empty or `-`. -/
  output : String := ""
  /-- Whether the macros that `#ifdef` and `#ifndef` asked for are listed behind the result. -/
  macros : Bool := false
deriving Inhabited

def Preprocess.run (cmd : Preprocess) : CommandM Unit := do
  let (o, _) ← cmd.flags.settings cmd.config
  step ("Preprocessing " ++ cmd.input)
  let start := o.preprocessor (← get).files
  let (outcome, p)
    ← liftM ((Preprocessor.appendFile Preprocessor.defaultFuel cmd.input).run start)
  let checked : Except Failure Bool := outcome.mapError fun (e, message) => .unreadable e message
  let ok ← checked
  report p.diagnostics
  for path in p.includedFiles do
    step ("Included " ++ path)
  for pragma in p.pragmas do
    step ("Pragma reshade " ++ pragma.name ++ " " ++ pragma.value)
  let used ← if cmd.macros then liftM p.usedDefinitions else pure []
  let listing := String.join (used.map fun (name, value) => "// " ++ name ++ "=" ++ value ++ "\n")
  let text := p.output ++ listing
  if cmd.output = "" || cmd.output = "-" then print text else writeFile cmd.output text
  if !ok then throw (.failedEffect cmd.input)

/-- The line that the command for the version prints. -/
def versionLine : String := "fxc 0.1.0-dev\n"

end ShaderEffect.Command

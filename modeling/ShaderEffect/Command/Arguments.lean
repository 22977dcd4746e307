import ShaderEffect.Command.Compile
import ShaderEffect.Command.Preprocess

namespace ShaderEffect.Command

/-- What the arguments say, whichever command they are for. -/
structure Arguments where
  verbosity : Verbosity := { color := true }
  config : String := ""
  /-- The command and its input files. -/
  words : List String := []
  flags : Flags := {}
  output : String := ""
  outputDir : String := ""
  entry : String := ""
  descriptors : Bool := false
  macros : Bool := false
deriving Inhabited

/-- Why arguments cannot be used. -/
inductive Usage where
  | unknownOption (name : String)
  | missingValue (name : String)
  | unknownCommand (name : String)
  | missingInput
deriving DecidableEq, Repr, Inhabited

def Usage.message : Usage → String
  | unknownOption name => "unknown flag " ++ name
  | missingValue name => name ++ ": missing value"
  | unknownCommand name => "unexpected argument " ++ name
  | missingInput => "expected an input file"

namespace Arguments

/-- The long names of short options. -/
def longName (letter : Char) : String :=
  match letter with
  | 'v' => "verbose"
  | 'q' => "quiet"
  | 't' => "target"
  | 'D' => "define"
  | 'I' => "include"
  | 'o' => "output"
  | 'j' => "parallel"
  | 'e' => "entry"
  | _ => ""

/-- Sets an option that has no value. -/
def setFlag? (a : Arguments) (name : String) : Option Arguments :=
  let flags (f : Flags) : Option Arguments := some { a with flags := f }
  match name with
  | "verbose" => some { a with verbosity := { a.verbosity with verbose := true } }
  | "quiet" => some { a with verbosity := { a.verbosity with quiet := true } }
  | "no-color" => some { a with verbosity := { a.verbosity with color := false } }
  | "debug-info" => flags { a.flags with debugInfo := true }
  | "spec-constants" => flags { a.flags with specConstants := true }
  | "opengl" => flags { a.flags with opengl := true }
  | "no-invert-y" => flags { a.flags with noInvertY := true }
  | "no-short-circuit" => flags { a.flags with noShortCircuit := true }
  | "descriptors" => some { a with descriptors := true }
  | "macros" => some { a with macros := true }
  | _ => none

/-- Sets an option that has a value. Files are compiled one after the other, however many were to be
compiled at once. -/
def setValue? (a : Arguments) (name value : String) : Option Arguments :=
  let flags (f : Flags) : Option Arguments := some { a with flags := f }
  match name with
  | "config" => some { a with config := value }
  | "target" => flags { a.flags with target := value }
  | "define" => flags { a.flags with defines := a.flags.defines ++ [value] }
  | "include" => flags { a.flags with includes := a.flags.includes ++ [value] }
  | "shader-model" => flags { a.flags with shaderModel := value }
  | "glsl-version" => flags { a.flags with glslVersion := value }
  | "output" => some { a with output := value }
  | "output-dir" => some { a with outputDir := value }
  | "parallel" => some a
  | "entry" => some { a with entry := value }
  | _ => none

/-- The name of an option and the value written together with it, if an argument is an option. -/
def option? (argument : String) : Option (String × Option String) :=
  match argument.toList with
  | '-' :: '-' :: rest =>
    let name := String.ofList (rest.takeWhile (· ≠ '='))
    match rest.dropWhile (· ≠ '=') with
    | [] => some (name, none)
    | _ :: value => some (name, some (String.ofList value))
  | '-' :: letter :: rest =>
    some (longName letter, if rest.isEmpty then none else some (String.ofList rest))
  | _ => none

/-- Takes over arguments one after the other. -/
def read (a : Arguments) : List String → Except Usage Arguments
  | [] => pure a
  | argument :: rest =>
    match option? argument with
    | none => read { a with words := a.words ++ [argument] } rest
    | some (name, some value) =>
      match a.setValue? name value with
      | some a => read a rest
      | none => throw (.unknownOption argument)
    | some (name, none) =>
      match a.setFlag? name with
      | some a => read a rest
      | none =>
        match rest with
        | [] => throw (.missingValue argument)
        | value :: rest =>
          match a.setValue? name value with
          | some a => read a rest
          | none => throw (.unknownOption argument)

/-- The input files. -/
def inputs (a : Arguments) : List String :=
  a.words.drop 1

/-- The command that the arguments call for. -/
def command (a : Arguments) : Except Usage (CommandM Unit) := do
  let { flags, config, output, outputDir, entry, descriptors, macros, .. } := a
  match a.words with
  | [] => throw (.unknownCommand "")
  | ["version"] => return print versionLine
  | [_] => throw .missingInput
  | "compile" :: inputs =>
    return Compile.run { flags, config, inputs, output, outputDir, entry, descriptors }
  | "check" :: inputs => return Check.run { flags, config, inputs }
  | "preprocess" :: [input] => return Preprocess.run { flags, config, input, output, macros }
  | "preprocess" :: _ :: extra :: _ => throw (.unknownCommand extra)
  | name :: _ => throw (.unknownCommand name)

end Arguments

/-- The name in an `#include` line. -/
def includeName? (line : String) : Option String := do
  let text ← Text.stripBeginning? "#" (Text.trim line)
  let text ← Text.stripBeginning? "include" (Text.trim text)
  match (Text.trim text).toList with
  | '<' :: rest => some (String.ofList (rest.takeWhile (· ≠ '>')))
  | '\x22' :: rest => some (String.ofList (rest.takeWhile (· ≠ '\x22')))
  | _ => none

/-- The names in all `#include` lines of a text, used or not. -/
def includeNames (text : String) : List String :=
  (Text.split '\n' text).filterMap includeName?

/-- The paths at which the included files of a file may lie. -/
def includePlaces (includePaths : List String) (path text : String) : List String :=
  (includeNames text).flatMap fun name =>
    (Path.dir path :: includePaths).map fun dir => Path.join [dir, name]

/-- The configuration of a command, as far as it is known. -/
def knownConfiguration (a : Arguments) (files : Files) : Configuration :=
  let path := if a.config = "" then defaultConfiguration else a.config
  match files.read path with
  | .error _ => {}
  | .ok text => ((Configuration.parse? text).getD {}).resolvePaths (Path.dir path)

/-- The files a command may read, given some of them by their paths. -/
def wanted (a : Arguments) (known : List (String × String)) : List String :=
  let c := knownConfiguration a (Files.ofList known)
  let includePaths := c.includePaths ++ a.flags.includes
  let named := [a.config, defaultConfiguration, c.definesFile] ++ a.inputs
  let included := known.flatMap fun (path, text) => includePlaces includePaths path text
  ((named ++ included).filter (· ≠ "")).eraseDups

end ShaderEffect.Command

import ShaderEffect.Configuration
import ShaderEffect.Configuration.DefinesFile
import ShaderEffect.Yaml.Value

namespace ShaderEffect.Configuration

/-- Why there is no configuration. -/
inductive LoadProblem where
  | unreadable (e : Files.Problem) (message : String)
  | malformed (path : String)
  | definesUnreadable (e : Files.Problem) (message : String)
  | definesMalformed (e : DefinesFile.Malformed)
  | invalid (e : Invalid)
deriving Repr, Inhabited

def LoadProblem.message : LoadProblem → String
  | unreadable _ message => "reshadefx: reading config: " ++ message
  | malformed path => "reshadefx: parsing config " ++ path
  | definesUnreadable _ message => "reshadefx: reading defines file: " ++ message
  | definesMalformed e => "reshadefx: reading defines file: " ++ e.message
  | invalid e => e.message

/-- A text. Numbers and truth values have one, too, and nothing is the empty one. -/
def asText? : Yaml.Value → Option String
  | .scalar s => some s.asText
  | _ => none

/-- A truth value. Nothing stands for none. -/
def asFlag? : Yaml.Value → Option (Option Bool)
  | .scalar .null => some none
  | .scalar (.bool b) => some (some b)
  | _ => none

def asTexts? : Yaml.Value → Option (List String)
  | .scalar .null => some []
  | .list items => items.mapM asText?
  | _ => none

/-- Macros. No two of them may have the same name. -/
def asDefines? : Yaml.Value → Option (List (String × String))
  | .scalar .null => some []
  | .map entries => do
    let defines ← entries.mapM fun (key, value) => do return (key.value.asText, ← asText? value)
    if (defines.map (·.1)).Nodup then some defines else none
  | _ => none

/-- The least integer of 64 bits. -/
def leastInteger : Int :=
  -0x8000000000000000

/-- The integer part of a double precision value, given as its bits. -/
def truncate (bits : UInt64) : Int :=
  let f := Number.Format.double
  let n : Int := f.units (bits.toNat % f.signBit) >>> f.place
  if bits.toNat ≥ f.signBit then -n else n

/-- An integer if it has 64 bits, and else the least one. -/
def narrow (n : Int) : Int :=
  if leastInteger ≤ n && n < 0x8000000000000000 then n else leastInteger

/-- The integer that a double precision value is cut to. What is too small is cut
to the least one. -/
def ofDouble? (bits : UInt64) : Option Int :=
  if bits = Yaml.notANumber || truncate bits > 0x8000000000000000 then none
    else some (narrow (truncate bits))

/-- Numerals without the underscores between their digits. Others have to be read as they are. -/
def withoutSeparators (cs : List Char) : List Char :=
  match cs with
  | d :: '_' :: e :: rest =>
    if Text.isDigit d && Text.isDigit e then d :: withoutSeparators (e :: rest)
    else d :: '_' :: withoutSeparators (e :: rest)
  | c :: rest => c :: withoutSeparators rest
  | [] => []

/-- The integer that the number in a text is cut to. Negative numbers are refused. -/
def ofNumeral? (s : String) : Option Int := do
  let bits ← Yaml.double? (withoutSeparators s.toList)
  let isNegative : Bool := bits.toNat > Number.Format.double.signBit
  if isNegative || !Yaml.isFinite bits || truncate bits > 0x10000000000000000 then none
  else some (narrow (truncate bits))

/-- An integer of 64 bits. Other numbers are cut to one, and texts count by the number they hold. -/
def asInteger? : Yaml.Value → Option Int
  | .scalar .null => some 0
  | .scalar (.integer n) => if leastInteger ≤ n && n < 0x8000000000000000 then some n else none
  | .scalar (.float bits) => ofDouble? bits
  | .scalar (.text s) => ofNumeral? s
  | _ => none

/-- Takes over one entry. Unknown keys and values of the wrong kind are refused. -/
def addEntry? (c : Configuration) (key : String) (value : Yaml.Value) : Option Configuration := do
  match key with
  | "target" => some { c with target := ← asText? value }
  | "include_paths" => some { c with includePaths := ← asTexts? value }
  | "defines" => some { c with defines := ← asDefines? value }
  | "defines_file" => some { c with definesFile := ← asText? value }
  | "debug_info" => some { c with debugInfo := (← asFlag? value).getD false }
  | "uniforms_to_spec_constants" =>
    some { c with uniformsToSpecConstants := (← asFlag? value).getD false }
  | "vulkan_semantics" => some { c with vulkanSemantics := ← asFlag? value }
  | "invert_y" => some { c with invertY := ← asFlag? value }
  | "shader_model" => some { c with shaderModel := ← asText? value }
  | "glsl_version" => some { c with glslVersion := ← asText? value }
  | "output_dir" => some { c with outputDir := ← asText? value }
  | "parallel" => some { c with parallel := ← asInteger? value }
  | _ => none

/-- The key of a setting, which is a text. -/
def settingKey? (key : Yaml.Key) : Option String :=
  match key.value with
  | .text s => some s
  | _ => none

/-- The configuration of a map. If not all keys are texts, none of them counts. -/
def ofEntries? (entries : List (Yaml.Key × Yaml.Value)) : Option Configuration :=
  match entries.mapM fun (key, value) => (settingKey? key).map fun s => (s, value) with
  | none => some {}
  | some settings => settings.foldlM (fun c (key, value) => addEntry? c key value) {}

/-- The configuration in a text: that of its first document. -/
def parse? (text : String) : Option Configuration := do
  match ← Yaml.documents? text with
  | [] => some {}
  | .map entries :: _ => ofEntries? entries
  | _ => none

/-- A path as seen from a directory. -/
def resolve (dir path : String) : String :=
  if Text.startsWith "/" path then path else Path.join [dir, path]

/-- The configuration with paths that are relative to the working directory. -/
def resolvePaths (dir : String) (c : Configuration) : Configuration :=
  let unlessEmpty (path : String) : String := if path = "" then "" else resolve dir path
  { c with
    includePaths := c.includePaths.map (resolve dir)
    outputDir := unlessEmpty c.outputDir
    definesFile := unlessEmpty c.definesFile }

/-- Adds the macros of the named file below those of the configuration itself. -/
def addDefinesFile (files : Files) (c : Configuration) : Except LoadProblem Configuration :=
  if c.definesFile = "" then pure c
  else do
    let text ← (files.read c.definesFile).mapError fun (e, message) =>
      .definesUnreadable e message
    let values ← (DefinesFile.parse text).mapError .definesMalformed
    return { c with defines :=
                      c.defines.foldl (fun t (key, value) => Table.set key value t) values }

/-- Reads and checks a configuration. -/
def load (files : Files) (path : String) : Except LoadProblem Configuration := do
  let text ← (files.read path).mapError fun (e, message) => .unreadable e message
  let some c := parse? text | throw (.malformed path)
  let c ← addDefinesFile files (c.resolvePaths (Path.dir path))
  c.validate.mapError .invalid
  return c

end ShaderEffect.Configuration

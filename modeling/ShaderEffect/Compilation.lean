import ShaderEffect.Glsl.Backend
import ShaderEffect.Hlsl.Backend
import ShaderEffect.Parser.Run
import ShaderEffect.Preprocessor.Run
import ShaderEffect.Spirv.Generator.Backend
import ShaderEffect.Target

/-!
Compilation of effects: the preprocessor, then the parser, which drives the code
generator of the target.

Problems in an effect are diagnostics of the result. Only settings that cannot be used and files
that cannot be read prevent a result.
-/
namespace ShaderEffect

/-- The settings of a compilation. -/
structure Options where
  /-- The number of the target. -/
  target : UInt8 := Target.spirv.number
  /-- Directories that are searched for included files behind the directory of the
  including file. -/
  includePaths : List String := []
  /-- Macros that are defined from the start. -/
  defines : List (String × String) := []
  debugInfo : Bool := false
  uniformsToSpecConstants : Bool := false
  vulkanSemantics : Bool := true
  invertY : Bool := true
  /-- Both operands of `&&`, `||` and `?:` are evaluated. -/
  noShortCircuit : Bool := false
  glslVersion : Glsl.Version := .v450
  shaderModel : Hlsl.ShaderModel := .sm50
deriving Repr, Inhabited

/-- Why there is no result. -/
inductive Problem where
  | unknownTarget (text : String)
  | unsupportedShaderModel (e : Hlsl.ShaderModel.Unsupported)
  | invalidVersion (e : Glsl.Version.Invalid)
  | noEntryPoint (name : String)
  | noSourceText (target : Target)
  | unreadable (e : Files.Problem) (message : String)
deriving Repr, Inhabited

def Problem.message : Problem → String
  | unknownTarget text => "reshadefx: unknown target: " ++ text
  | unsupportedShaderModel e => "reshadefx: " ++ e.message
  | invalidVersion e => e.message
  | noEntryPoint name => "reshadefx: no such entry point: " ++ Text.quoted name
  | noSourceText target => "reshadefx: " ++ target.name ++ " modules have no source text"
  | unreadable _ message => message

/-- Reads the name of a target. -/
def Target.parse (text : String) : Except Problem Target :=
  match Target.parse? text with
  | some t => pure t
  | none => throw (.unknownTarget (Text.quoted text))

namespace Options

/-- The target, if code can be generated for it. -/
def checkTarget (o : Options) : Except Problem Target :=
  match Target.ofNumber? o.target with
  | none => throw (.unknownTarget (Target.nameOf o.target))
  | some .hlsl => do
    (o.shaderModel.require).mapError .unsupportedShaderModel
    pure .hlsl
  | some t => pure t

/-- A preprocessor with the directories and macros of the settings. -/
def preprocessor (o : Options) (files : Files) : Preprocessor :=
  let start : Preprocessor := { files, includePaths := o.includePaths }
  o.defines.foldl (fun p (name, text) => (p.define? name (Preprocessor.Macro.ofText text)).getD p)
    start

end Options

/-- What was generated from one source. -/
structure Generated where
  success : Bool
  parser : Parser
  output : Module

/-- Parses a preprocessed source with a code generator. -/
def generateWith {β : Type} [Backend β] (g : Generator β) (p : Parser) (source : String) :
    Except Fault Generated := do
  let ((success, parser), g) ← (Parser.parseSource source p).run g
  let (code, g) ← (Backend.finish : GenM β Code).run g
  pure { success, parser, output := { g.result with code } }

/-- Parses a preprocessed source and generates code for a target. -/
def generate (o : Options) (target : Target) (p : Parser) (source : String) :
    Except Fault Generated :=
  let { vulkanSemantics, debugInfo, uniformsToSpecConstants, invertY, .. } := o
  match target with
  | .spirv =>
    generateWith
      (Spirv.generator { vulkanSemantics, debugInfo, uniformsToSpecConstants, invertY })
      p source
  | .glsl =>
    generateWith
      (Glsl.generator
        { version := o.glslVersion, vulkanSemantics, debugInfo, uniformsToSpecConstants, invertY })
      p source
  | .hlsl =>
    generateWith
      (Hlsl.generator { shaderModel := o.shaderModel, debugInfo, uniformsToSpecConstants })
      p source

/-- The outcome of one compilation. -/
structure Result where
  target : Target
  output : Module := {}
  /-- The text that was parsed. -/
  preprocessed : String
  diagnostics : Diagnostics
  /-- Whether there was no error. -/
  success : Bool := false
  includedFiles : List String
  pragmas : List Preprocessor.Pragma
deriving Inhabited

namespace Result

/-- The errors as one text, if the compilation failed. -/
def failure? (r : Result) : Option String :=
  if r.success then none
  else if Diagnostics.hasErrors r.diagnostics then
    some (Diagnostics.summary (Diagnostics.errors r.diagnostics))
  else some "reshadefx: compilation failed"

def findEntryPoint (r : Result) (name : String) : Except Problem EntryPoint :=
  match r.output.entryPoints.find? (·.name = name) with
  | some e => pure e
  | none => throw (.noEntryPoint name)

/-- The source text of a module, empty for a binary one. -/
def sourceText (r : Result) : String :=
  match r.output.code with
  | .text s => s
  | .words _ => ""

/-- The source text of a single stage. Its macro is defined behind the `#version` line. -/
def stageSource (r : Result) (name : String) : Except Problem String := do
  let _ ← r.findEntryPoint name
  match r.target with
  | .hlsl => pure r.sourceText
  | .spirv => throw (.noSourceText .spirv)
  | .glsl =>
    let define := "#define ENTRY_POINT_" ++ name ++ "\n"
    let code := r.sourceText.toList
    let first := code.takeWhile (· ≠ '\n')
    if first.length < code.length && Text.startsWith "#version" (String.ofList first) then
      pure (String.ofList first ++ "\n" ++ define ++ String.ofList (code.drop (first.length + 1)))
    else pure (define ++ r.sourceText)

end Result

/-- Parses what was preprocessed. After errors of the preprocessor nothing is parsed, since further
errors would only repeat their cause. -/
def finishCompilation (o : Options) (target : Target) (p : Preprocessor) (ok : Bool) :
    Except Fault Result := do
  let r : Result :=
    { target, preprocessed := p.output, diagnostics := p.diagnostics
      includedFiles := p.includedFiles, pragmas := p.pragmas }
  if !ok then return r
  let g ← generate o target { noShortCircuit := o.noShortCircuit } p.output
  return { r with
    output := g.output
    success := g.success
    diagnostics := r.diagnostics ++ g.parser.diagnostics }

/-- Compiles the source of an effect. The name is that of the file it stands for. -/
def compile (o : Options) (files : Files) (name source : String) :
    Except Fault (Except Problem Result) :=
  match o.checkTarget with
  | .error e => pure (.error e)
  | .ok target => do
    let (ok, p) ← (Preprocessor.appendString Preprocessor.defaultFuel source name).run
      (o.preprocessor files)
    return .ok (← finishCompilation o target p ok)

/-- Compiles an effect from a file. -/
def compileFile (o : Options) (files : Files) (path : String) :
    Except Fault (Except Problem Result) :=
  match o.checkTarget with
  | .error e => pure (.error e)
  | .ok target => do
    let (outcome, p) ← (Preprocessor.appendFile Preprocessor.defaultFuel path).run
      (o.preprocessor files)
    match outcome with
    | .error (e, message) => return .error (.unreadable e ("reshadefx: " ++ message))
    | .ok ok => return .ok (← finishCompilation o target p ok)

end ShaderEffect

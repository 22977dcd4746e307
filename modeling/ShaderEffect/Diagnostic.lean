import ShaderEffect.Text

/-!
Positions in named sources, located compiler messages and the ways they are printed.

A text is a byte string: each of its characters has a code below 256 and stands for one byte, so
lengths, offsets and columns count bytes and the order of texts is the order of their bytes.
-/
namespace ShaderEffect

/-- A position in a named source. Lines and columns are signed because a directive may set any
line number and a caller may start anywhere. -/
structure Location where
  source : String := ""
  line : Int := 0
  column : Int := 0
deriving DecidableEq, Repr, Inhabited

namespace Location

/-- The spelling `source(line, column)` that diagnostics use. -/
def render (l : Location) : String :=
  s!"{l.source}({l.line}, {l.column})"

/-- The position `n` bytes further on the same line. -/
def right (l : Location) (n : Nat) : Location :=
  { l with column := l.column + n }

/-- The start of the following line. -/
def nextLine (l : Location) : Location :=
  { l with line := l.line + 1, column := 1 }

/-- A start position in which a missing line or column is 1. -/
def normalized (l : Location) : Location :=
  { l with
    line := if l.line = 0 then 1 else l.line
    column := if l.column = 0 then 1 else l.column }

end Location

inductive Severity where
  | error | warning
deriving DecidableEq, Repr, Inhabited

/-- The part of the compiler a message comes from. -/
inductive Stage where
  | preprocessor | parser | registry
deriving DecidableEq, Repr, Inhabited

/-- One located message. A code of 0 is not printed. -/
structure Diagnostic where
  severity : Severity := .error
  stage : Stage := .preprocessor
  code : Int := 0
  location : Location := {}
  message : String := ""
deriving DecidableEq, Repr, Inhabited

def Severity.name : Severity → String
  | error => "error"
  | warning => "warning"

namespace Diagnostic

/-- The line `file(line, column): error X3000: message`. Messages of the preprocessor say so. -/
def render (d : Diagnostic) : String :=
  d.location.render ++ ": "
    ++ (if d.stage = .preprocessor then "preprocessor " else "")
    ++ d.severity.name
    ++ (if d.code ≠ 0 then " X" ++ toString d.code else "")
    ++ ": " ++ d.message

def isError (d : Diagnostic) : Bool :=
  d.severity = .error

end Diagnostic

/-- Messages in the order in which they were reported. -/
abbrev Diagnostics := List Diagnostic

namespace Diagnostics

def hasErrors (ds : Diagnostics) : Bool :=
  ds.any Diagnostic.isError

def errors (ds : Diagnostics) : Diagnostics :=
  ds.filter Diagnostic.isError

def warnings (ds : Diagnostics) : Diagnostics :=
  ds.filter (!·.isError)

/-- One line per message. -/
def render (ds : Diagnostics) : String :=
  String.join (ds.map fun d => d.render ++ "\n")

/-- The first error and the number of further ones. -/
def summary (ds : Diagnostics) : String :=
  match Diagnostics.errors ds with
  | [] => "no errors"
  | [d] => d.render
  | d :: rest => d.render ++ s!" (and {rest.length} more errors)"

/-- The source line of a location, and the column of the mark below it. -/
def contextLine (sources : List (String × String)) (l : Location) : Option (String × Nat) := do
  let text ← sources.lookup l.source
  if l.line < 1 then none
  let line ← (Text.split '\n' text)[l.line.toNat - 1]?
  let line := String.ofList (line.toList.reverse.dropWhile (· = '\r')).reverse
  let column := min (max l.column 1).toNat (line.length + 1)
  some (line, column)

/-- Every message, followed by its source line with a mark under the column where the
source is known. -/
def renderAll (sources : List (String × String)) (ds : Diagnostics) : String :=
  let one (d : Diagnostic) : String :=
    d.render ++ "\n" ++
      match contextLine sources d.location with
      | some (line, column) =>
        Text.padLeft 4 (toString d.location.line) ++ "| " ++ line ++ "\n"
          ++ "    | " ++ Text.spaces (column - 1) ++ "^\n"
      | none => ""
  Text.join "\n" (ds.map one)

/-- The escape sequences around an error and around a warning on a terminal. -/
def paint (color : Bool) (severity : Severity) (line : String) : String :=
  if color then
    match severity with
    | .error => "\x1b[31;1m" ++ line ++ "\x1b[0;22m"
    | .warning => "\x1b[33m" ++ line ++ "\x1b[0m"
  else line

/-- One line per message, in color where the terminal has it. -/
def renderColored (color : Bool) (ds : Diagnostics) : String :=
  String.join (ds.map fun d => paint color d.severity d.render ++ "\n")

end Diagnostics
end ShaderEffect

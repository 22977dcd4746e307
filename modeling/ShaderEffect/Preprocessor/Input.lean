import ShaderEffect.Basic
import ShaderEffect.Diagnostic
import ShaderEffect.Files
import ShaderEffect.Preprocessor.Macro
import ShaderEffect.Token.Lexer

namespace ShaderEffect

namespace Preprocessor

/-- One level of the input stack. -/
structure Input where
  /-- The file name; expansions have none. -/
  name : String
  text : List Char
  cursor : Token.Cursor
  /-- The token that is read next. -/
  next : Token
  /-- The macros that are not expanded in this input. -/
  hidden : List String
  /-- The end of an argument is reported once as a token, so that its expansion knows where it
  stops. -/
  isArgument : Bool
  endReported : Bool := false
  /-- The number under which the level was pushed. -/
  serial : Nat
deriving Inhabited

/-- A conditional group that is open. -/
structure Group where
  /-- Whether a branch of the group was selected. -/
  taken : Bool
  /-- Whether the current branch is left out. -/
  skipping : Bool
  /-- The directive that opened the current branch. -/
  directive : Token
  /-- The level of the input stack that the directive was read from. -/
  level : Nat
deriving Inhabited

/-- A `#pragma reshade` directive. -/
structure Pragma where
  name : String
  value : String
deriving DecidableEq, Repr, Inhabited

end Preprocessor

open Preprocessor in
/-- The state of a run over one or more sources. -/
structure Preprocessor where
  files : Files := {}
  includePaths : List String := []
  macros : List (String × Macro) := []
  output : String := ""
  diagnostics : Diagnostics := []
  /-- Whether the source being read has had no errors so far. -/
  success : Bool := true
  /-- The input stack, the bottom first. -/
  stack : List Input := []
  /-- The level of the token that is read next. -/
  nextLevel : Nat := 0
  /-- The level of the current token. -/
  level : Nat := 0
  token : Token := {}
  /-- The source and line that the output has reached. -/
  reached : Location := {}
  /-- The number of expansions since the last token of the text. -/
  expansions : Nat := 0
  /-- Whether the limit of expansions was reported for the current invocation. -/
  overflow : Bool := false
  invocation : Location := {}
  usedMacros : List String := []
  /-- The open conditional groups, the innermost first. -/
  groups : List Group := []
  pragmas : List Pragma := []
  /-- The content of included files. It is empty for files to be included only once. -/
  included : List (String × String) := []
  pushed : Nat := 0
deriving Inhabited

namespace Preprocessor

abbrev PreM := StateT Preprocessor (Except Fault)

def report (severity : Severity) (location : Location) (message : String) : PreM Unit :=
  modify fun p =>
    { p with
      diagnostics := p.diagnostics ++ [{ severity, stage := .preprocessor, location, message }]
      success := p.success && severity ≠ .error }

def error (location : Location) (message : String) : PreM Unit :=
  report .error location message

def warning (location : Location) (message : String) : PreM Unit :=
  report .warning location message

/-- The kind of the token that is read next. -/
def nextKind (p : Preprocessor) : Token.Kind :=
  (p.stack[p.nextLevel]?.map (·.next.kind)).getD .eof

def peek (kind : Token.Kind) : PreM Bool := do
  return (← get).nextKind = kind

/-- Whether the next token ends the line or the input. -/
def atLineEnd : PreM Bool := do
  let kind := (← get).nextKind
  return kind = .endOfLine || kind = .eof

/-- Reports and drops the groups that were opened at a level or above it. -/
def closeGroups (level : Nat) : PreM Unit := do
  let open_ := (← get).groups.takeWhile (·.level ≥ level)
  open_.forM fun g => error g.directive.location "unterminated #if"
  modify fun p => { p with groups := p.groups.dropWhile (·.level ≥ level) }

/-- Whether a level has nothing left to read. Its open groups are closed then, and an argument
reports its end before it counts as finished. -/
def isFinished (level : Nat) : PreM Bool := do
  if !(← peek .eof) then return false
  closeGroups level
  match (← get).stack[level]? with
  | none => throw .outOfRange
  | some input =>
    if input.isArgument && !input.endReported then
      modify fun p => { p with stack := p.stack.set level { input with endReported := true } }
      return false
    return true

/-- Moves the lookahead down past finished levels. Gives false once the bottom is finished, which
empties the stack. -/
def popFinished : (level : Nat) → PreM Bool
  | 0 => do
    if ← isFinished 0 then
      modify fun p => { p with stack := [] }
      return false
    return true
  | below + 1 => do
    if ← isFinished (below + 1) then
      modify fun p => { p with nextLevel := below }
      popFinished below
    else return true

/-- The directive that sets the source and line of what follows it. -/
def lineDirective (line : Int) (source : Option String) : String :=
  "#line " ++ toString line
    ++ (match source with | some s => " \"" ++ s ++ "\"" | none => "") ++ "\n"

/-- Tells the output which file it has entered. -/
def enterSource (input : Input) : PreM Unit := do
  if input.name ≠ "" && input.name ≠ (← get).reached.source then
    let line := input.next.location.line
    modify fun p =>
      { p with
        output := p.output ++ lineDirective line (some input.name)
        reached := { source := input.name, line := line - 1 } }

def lexOptions : Token.Options := { ignoreKeywords := true }

/-- Whether the raw text of a string literal has its closing quote. -/
def isClosed (raw : String) : Bool :=
  raw.length ≥ 2 && raw.toList.getLast? = some '"'

/-- Advances to the next token. Gives false once the last token of the bottom input is the current
one. -/
def consume : PreM Bool := do
  modify fun p => { p with level := p.nextLevel }
  if (← get).stack.isEmpty then return false
  let level := (← get).level
  modify fun p => { p with stack := p.stack.take (level + 1) }
  match (← get).stack[level]? with
  | none => throw .outOfRange
  | some input =>
    enterSource input
    let (next, cursor) := Token.lex lexOptions input.cursor
    modify fun p =>
      { p with token := input.next, stack := p.stack.set level { input with next, cursor } }
    if input.next.kind = .stringLiteral && !isClosed input.next.raw then
      error input.next.location "unterminated string literal"
    popFinished level

/-- Puts a text on top of the stack. A named text is a file; other texts are located at the current
token. Macros that were hidden stay hidden. -/
def push (text name : String) (isArgument : Bool) : PreM Unit := do
  let p ← get
  let start : Location :=
    if name ≠ "" then { source := name, line := 1, column := 1 } else p.token.location
  let input : Input :=
    { name, isArgument
      text := text.toList
      cursor := Token.Cursor.start text start
      next := { kind := .unknown, location := start }
      hidden := (p.stack.getLast?.map (·.hidden)).getD []
      serial := p.pushed }
  set { p with stack := p.stack ++ [input], nextLevel := p.stack.length, pushed := p.pushed + 1 }
  let _ ← consume

/-- Drops the rest of the line. -/
def skipLine (fuel : Nat) : PreM Unit :=
  repeatWhile (do if ← atLineEnd then return false else consume *> return true) fuel

/-- Consumes the next token that is no blank if it is of the given kind. -/
def accept (fuel : Nat) (kind : Token.Kind) : PreM Bool := do
  repeatWhile (do if ← peek .space then consume *> return true else return false) fuel
  if ← peek kind then
    let _ ← consume
    return true
  return false

/-- Consumes tokens up to and including the next one of the given kind. -/
def consumeUntil (fuel : Nat) (kind : Token.Kind) : PreM Unit :=
  repeatWhile (do
    if ← accept fuel kind then return false
    if ← peek .eof then return false
    let _ ← consume
    return true) fuel

/-- Consumes the next token that is no blank, and reports it if it is of another kind. -/
def expect (fuel : Nat) (kind : Token.Kind) : PreM Bool := do
  if ← accept fuel kind then return true
  let p ← get
  let actual : Token := (p.stack[p.nextLevel]?.map (·.next)).getD {}
  error { actual.location with source := p.reached.source }
    ("syntax error: unexpected token '" ++ actual.raw ++ "'")
  return false

/-- Requires the end of the line behind a directive. -/
def endDirective (fuel : Nat) : PreM Unit := do
  if !(← expect fuel .endOfLine) then consumeUntil fuel .endOfLine

/-- Whether the current branch is left out. -/
def isSkipping (p : Preprocessor) : Bool :=
  (p.groups.head?.map (·.skipping)).getD false

def findMacro? (p : Preprocessor) (name : String) : Option Macro :=
  p.macros.lookup name

/-- Adds a macro, unless there is one of that name. -/
def define? (p : Preprocessor) (name : String) (m : Macro) : Option Preprocessor :=
  match p.findMacro? name with
  | some _ => none
  | none => some { p with macros := p.macros ++ [(name, m)] }

/-- Removes a macro. -/
def undefine (p : Preprocessor) (name : String) : Preprocessor :=
  { p with macros := p.macros.filter fun (n, _) => n ≠ name }

end Preprocessor
end ShaderEffect

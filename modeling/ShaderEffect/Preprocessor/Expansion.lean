import ShaderEffect.Path
import ShaderEffect.Preprocessor.Input

namespace ShaderEffect.Preprocessor

/-- The number of expansions that one token of the text may cause. -/
def expansionLimit : Nat := 256

/-- A string literal for a file name. -/
def quoteName (s : String) : String :=
  "\"" ++ String.join (s.toList.map fun c => if c = '\\' then "\\\\" else String.singleton c)
    ++ "\""

/-- A string literal for an argument. -/
def quoteArgument (s : String) : String :=
  "\"" ++ String.join (s.toList.map fun c => if c = '"' then "\\\"" else String.singleton c) ++ "\""

/-- The text of a macro that is always defined, at a location. -/
def builtinText? (name : String) (location : Location) : Option String :=
  match name with
  | "__LINE__" => some (toString location.line)
  | "__FILE__" => some (quoteName location.source)
  | "__FILE_NAME__" => some (quoteName (Path.base location.source))
  | "__FILE_STEM__" =>
    let base := Path.base location.source
    some (quoteName (Text.stripEnding (Path.ext base) base))
  | _ => none

/-- The arguments that were read so far, the current one and how many parentheses are open in it. -/
structure Arguments where
  done : List String := []
  current : String := ""
  depth : Nat := 0

/-- The arguments with the current one finished. -/
def Arguments.finished (a : Arguments) : List String :=
  a.done ++ [trimRight (trimLeft a.current)]

/-- Adds the current token to the current argument. White space becomes a single blank. -/
def Arguments.add (a : Arguments) (t : Token) (depth : Nat) : Arguments :=
  { a with current := a.current ++ (if t.kind = .space then " " else t.raw), depth }

/-- Reads one token of an argument list. Gives the arguments at the closing parenthesis, and nothing
if the input ends before it. -/
def readArgument (a : Arguments) : PreM (Arguments ⊕ Option (List String)) := do
  let more ← consume
  let t := (← get).token
  if !more || t.kind = .eof then return .inr none
  match t.kind, a.depth with
  | .comma, 0 => return .inl { done := a.finished }
  | .parenOpen, n => return .inl (a.add t (n + 1))
  | .parenClose, 0 => return .inr (some a.finished)
  | .parenClose, n + 1 => return .inl (a.add t n)
  | _, n => return .inl (a.add t n)

/-- Reads the arguments of a call from behind its opening parenthesis. -/
def collectArguments (fuel : Nat) : PreM (Option (List String)) :=
  repeatWith readArgument fuel {}

/-- The text so far, and whether blanks in front of the next piece are dropped. -/
structure Replaced where
  text : String := ""
  joining : Bool := false

/-- Puts an argument into the replacement. A missing one is reported and left out. -/
def replaceArgument (name : String) (args : List String) (index : Int) (f : String → PreM String)
    (out : String) : PreM Replaced := do
  if index ≥ args.length then
    warning (← get).token.location
      ("not enough arguments for function-like macro invocation '" ++ name ++ "'")
    return { text := out }
  let arg ← at? args index
  return { text := out ++ (← f arg) }

/-- Adds one piece of a replacement list. -/
def replacePiece (name : String) (args : List String) (expand : String → PreM String)
    (r : Replaced) :
    Piece → PreM Replaced
  | .text s => return { text := r.text ++ (if r.joining then trimLeft s else s) }
  | .concat => return { text := trimRight r.text, joining := true }
  | .stringize i => replaceArgument name args i (fun arg => return quoteArgument arg) r.text
  | .argument i => replaceArgument name args i expand r.text

/-- The text that replaces a call. -/
def replacement (name : String) (m : Macro) (args : List String) (expand : String → PreM String) :
    PreM String := do
  return (← m.replacement.foldlM (replacePiece name args expand) {}).text

/-- Whether the level that was pushed under a number has reported its end. A level leaves the stack
only after that. -/
def hasEnded (p : Preprocessor) (level serial : Nat) : Bool :=
  match p.stack[level]? with
  | some input => input.serial ≠ serial || input.endReported
  | none => true

/-- Expands an argument on its own, given how an identifier is expanded. -/
def expandArgument (fuel : Nat) (expand : PreM Bool) (arg : String) : PreM String := do
  if arg = "" then return ""
  push arg "" true
  let level := (← get).stack.length - 1
  let serial := (← get).pushed - 1
  let step (out : String) : PreM (String ⊕ String) := do
    let p ← get
    if hasEnded p level serial && p.nextLevel < level then return .inr out
    if !(← consume) then return .inr out
    let p ← get
    if p.token.kind = .eof then
      return if p.level = level then .inr out else .inl out
    if p.token.kind = .identifier then
      if ← expand then return .inl out
    return .inl (out ++ (← get).token.raw)
  repeatWith step fuel ""

/-- Hides a macro in the current input. -/
def hide (name : String) : PreM Unit := do
  let p ← get
  match p.stack[p.level]? with
  | none => throw .outOfRange
  | some input =>
    set { p with stack := p.stack.set p.level { input with hidden := name :: input.hidden } }

/-- Counts an expansion. Gives false once there were too many, which is reported once for each
invocation in a file. -/
def countExpansion (input : Input) (location : Location) : PreM Bool := do
  if input.name ≠ "" then modify fun p => { p with invocation := location, overflow := false }
  let p ← get
  if p.overflow then return false
  if p.expansions ≥ expansionLimit then
    error p.invocation "macro recursion too high"
    modify fun p => { p with overflow := true }
    return false
  modify fun p => { p with expansions := p.expansions + 1 }
  return true

/-- Replaces a call of a macro by its expansion. Gives false if a macro with
parameters is not called. -/
def replaceCall (fuel : Nat) (expand : String → PreM String) (name : String) (location : Location)
    (m : Macro) : PreM Bool := do
  let insert (args : List String) : PreM Bool := do
    let text ← replacement name m args expand
    if text ≠ "" then
      push text "" false
      hide name
    return true
  if !m.functionLike then return ← insert []
  if !(← accept fuel .parenOpen) then return false
  match ← collectArguments fuel with
  | some args => insert args
  | none =>
    error location ("unexpected end of input in invocation of macro '" ++ name ++ "'")
    return true

/-- Replaces the current identifier if it names a macro. Gives false if it is to be
written as it is. -/
def expandIdentifier : (fuel : Nat) → PreM Bool
  | 0 => throw .exhausted
  | fuel + 1 => do
    let p ← get
    let name := p.token.text
    let location := p.token.location
    match builtinText? name location with
    | some text =>
      push text "" false
      return true
    | none =>
      match p.findMacro? name, p.stack[p.level]? with
      | some m, some input =>
        if input.hidden.contains name then return false
        if !(← countExpansion input location) then return false
        replaceCall fuel (expandArgument fuel (expandIdentifier fuel)) name location m
      | _, _ => return false

end ShaderEffect.Preprocessor

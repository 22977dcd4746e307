import ShaderEffect.Preprocessor.Condition
import ShaderEffect.Preprocessor.Expansion

namespace ShaderEffect.Preprocessor

/-- Macros that are always defined. -/
def isBuiltin (name : String) : Bool :=
  (builtinText? name {}).isSome

/-- Where an included file is looked for: next to the file that includes it, then in every include
path. The first place is given if the file is at none of them. -/
def resolveInclude (p : Preprocessor) (name : String) : String :=
  let nearby := Path.join [Path.dir p.reached.source, name]
  let places := nearby :: p.includePaths.map fun d => Path.join [d, name]
  (places.find? p.files.exists?).getD nearby

/-- The content of a file with a newline behind it and without a byte order mark. -/
def sourceText (content : String) : String :=
  (Text.stripBeginning? "\xef\xbb\xbf" content).getD content ++ "\n"

/-- Reads one token of a replacement list. Gives whether the list goes on, or that it is invalid. -/
def readPiece (fuel : Nat) (m : Macro) : PreM (Macro ⊕ Option Macro) := do
  if ← atLineEnd then return .inr (some { m with replacement := Macro.trimmed m.replacement })
  let _ ← consume
  let add (p : Piece) : PreM (Macro ⊕ Option Macro) :=
    return .inl { m with replacement := m.replacement ++ [p] }
  let verbatim : PreM (Macro ⊕ Option Macro) := do
    return .inl { m with replacement := Macro.appendText m.replacement (← get).token.raw }
  let t := (← get).token
  match t.kind with
  | .hash =>
    if ← accept fuel .hash then
      if ← peek .endOfLine then
        error (← get).token.location "## cannot appear at end of macro text"
        return .inr none
      add .concat
    else if m.functionLike then
      if !(← expect fuel .identifier) then return .inr none
      let t := (← get).token
      match m.parameterIndex? t.text with
      | some i => add (.stringize i)
      | none =>
        error t.location "# must be followed by parameter name"
        return .inr none
    else verbatim
  | .backslash =>
    if ← peek .endOfLine then
      let _ ← consume
      return .inl m
    else verbatim
  | .identifier =>
    match m.parameterIndex? t.text with
    | some i => add (.argument i)
    | none => verbatim
  | _ => verbatim

/-- Reads parameter names and the commas between them. -/
def readParameters (fuel : Nat) : PreM (List String) :=
  repeatWith (fun names => do
    if !(← accept fuel .identifier) then return .inr names
    let names := names ++ [(← get).token.text]
    if ← accept fuel .comma then return .inl names else return .inr names) fuel []

/-- Whether the byte behind the current token is an opening parenthesis. -/
def calledAtOnce : PreM Bool := do
  let p ← get
  match p.stack[p.level]? with
  | none => throw .outOfRange
  | some input => return input.text[p.token.offset + p.token.length]? = some '('

/-- Reads the parameter list of a macro that has one. Gives nothing if it is invalid. -/
def readSignature (fuel : Nat) : PreM (Option Macro) := do
  if !(← calledAtOnce) then return some {}
  let _ ← accept fuel .parenOpen
  let parameters ← readParameters fuel
  if ← accept fuel .ellipsis then
    error (← get).token.location "variadic macros are not supported"
    return none
  if ← expect fuel .parenClose then return some { parameters, functionLike := true }
    else return none

/-- Reads the name behind `#define` or `#undef`, unless it is missing or reserved. -/
def readMacroName (fuel : Nat) : PreM (Option Token) := do
  if !(← expect fuel .identifier) then return none
  let t := (← get).token
  if t.text = "defined" then
    warning t.location "macro name 'defined' is reserved"
    skipLine fuel
    return none
  return some t

def parseDefine (fuel : Nat) : PreM Unit := do
  let some name ← readMacroName fuel | return
  let some start ← readSignature fuel | return
  let some m ← repeatWith (readPiece fuel) fuel start | return
  match (← get).define? name.text m with
  | some p => set p
  | none => error name.location ("redefinition of '" ++ name.text ++ "'")

def parseUndef (fuel : Nat) : PreM Unit := do
  let some name ← readMacroName fuel | return
  modify fun p => p.undefine name.text

/-- The number of operators or operands that a condition may keep. -/
def conditionLimit : Nat := 128

/-- The value of `defined`, unless what follows is no macro name. -/
def evaluateDefined (fuel : Nat) : PreM (Option UInt32) := do
  let parens ← accept fuel .parenOpen
  if !(← expect fuel .identifier) then return none
  let p ← get
  let known := (p.findMacro? p.token.text).isSome
  if parens then
    if !(← expect fuel .parenClose) then return none
  return some (truth known)

/-- Expands identifiers as long as one follows. Gives false at one that is no macro. -/
def expandNames (fuel : Nat) : PreM Bool :=
  repeatWith (fun () => do
    if !(← accept fuel .identifier) then return .inr true
    if ← expandIdentifier fuel then return .inl () else return .inr false) fuel ()

/-- The value of `exists`, unless what follows is no file name. -/
def evaluateExists (fuel : Nat) : PreM (Option UInt32) := do
  let parens ← accept fuel .parenOpen
  if !(← expandNames fuel) then
    error (← get).token.location "syntax error: unexpected identifier after 'exists'"
    return none
  if !(← expect fuel .stringLiteral) then return none
  let name := (← get).token.text
  if parens then
    if !(← expect fuel .parenClose) then return none
  let p ← get
  return some (truth (p.files.exists? (resolveInclude p name)))

/-- What was read of a condition, and the kind of its last token. -/
structure ConditionState where
  sorted : Condition.Sorted := {}
  previous : Token.Kind

/-- Reads one token of a condition. Gives nothing if the condition is invalid. -/
def readConditionToken (fuel : Nat) (s : ConditionState) :
    PreM (ConditionState ⊕ Option Condition.Sorted) := do
  if ← atLineEnd then return .inr (some s.sorted)
  let reject (message : String) : PreM (ConditionState ⊕ Option Condition.Sorted) := do
    error (← get).token.location message
    return .inr none
  if s.sorted.waiting.length ≥ conditionLimit || s.sorted.items.length ≥ conditionLimit then
    return ← reject "expression evaluator ran out of stack space"
  let _ ← consume
  let kind := (← get).token.kind
  if kind = .space then return .inl s
  if kind = .backslash then
    if ← accept fuel .endOfLine then return .inl s
  let op := Operator.ofKind? s.previous kind
  let proceed (sorted : Condition.Sorted) : PreM (ConditionState ⊕ Option Condition.Sorted) := do
    return .inl { sorted, previous := (← get).token.kind }
  let operand (v : Option UInt32) : PreM (ConditionState ⊕ Option Condition.Sorted) :=
    match v with
    | some v => return .inl { sorted := s.sorted.push v, previous := .intLiteral }
    | none => return .inr none
  let t := (← get).token
  match t.kind with
  | .parenOpen => proceed s.sorted.openParenthesis
  | .parenClose =>
    match s.sorted.closeParenthesis? with
    | some sorted => proceed sorted
    | none => reject "unmatched ')'"
  | .identifier =>
    if ← expandIdentifier fuel then return .inl s
    match (← get).token.text with
    | "defined" => operand (← evaluateDefined fuel)
    | "exists" => operand (← evaluateExists fuel)
    | _ => proceed (s.sorted.push 0)
  | .intLiteral | .uintLiteral => proceed (s.sorted.push t.word)
  | _ =>
    match op with
    | some op => proceed (s.sorted.add op)
    | none => reject "invalid expression"

/-- Evaluates the rest of the line as a condition. Names that are no macros count as 0, and an
invalid condition does not hold. -/
def evaluateCondition (fuel : Nat) : PreM Bool := do
  let start : ConditionState := { previous := (← get).token.kind }
  let some sorted ← repeatWith (readConditionToken fuel) fuel start | return false
  match sorted.finish? with
  | none =>
    error (← get).token.location "unmatched '('"
    return false
  | some items =>
    match Condition.evaluate items with
    | .ok v => return v ≠ 0
    | .error e =>
      error (← get).token.location e.message
      return false

/-- Opens a group whose first branch has the given condition. -/
def openGroup (directive : Token) (level : Nat) (holds : Bool) : PreM Unit :=
  modify fun p =>
    { p with
      groups := { taken := holds, skipping := p.isSkipping || !holds, directive,
                  level } :: p.groups }

def parseIf (fuel : Nat) : PreM Unit := do
  let p ← get
  openGroup p.token p.level (← evaluateCondition fuel)

/-- Handles `#ifdef`, and `#ifndef` where `expected` is false. -/
def parseIfdef (fuel : Nat) (expected : Bool) : PreM Unit := do
  let p ← get
  if !(← expect fuel .identifier) then return
  let name := (← get).token.text
  let known := ((← get).findMacro? name).isSome || isBuiltin name
  let outer := (← get).isSkipping
  openGroup p.token p.level (known = expected)
  if !outer then
    modify fun p =>
        { p with usedMacros := if p.usedMacros.contains name then p.usedMacros
                   else name :: p.usedMacros }

/-- Whether the branch around the innermost group is left out. -/
def outerSkipping (p : Preprocessor) : Bool :=
  (p.groups[1]?.map (·.skipping)).getD false

/-- The innermost group, if a directive may start another branch of it. -/
def nextBranch (name : String) : PreM (Option Group) := do
  let p ← get
  match p.groups with
  | [] =>
    error p.token.location ("missing #if for " ++ name)
    return none
  | g :: _ =>
    if g.directive.kind = .hashElse then
      error p.token.location (name ++ " is not allowed after #else")
      return none
    return some g

def setGroup (g : Group) : PreM Unit :=
  modify fun p => { p with groups := g :: p.groups.tail }

def parseElif (fuel : Nat) : PreM Unit := do
  let some g ← nextBranch "#elif" | return
  let p ← get
  let g := { g with directive := p.token, level := p.level }
  setGroup g
  let outer := outerSkipping p
  let holds ← evaluateCondition fuel
  -- The end of the input, when it is reached in the condition, has closed the group.
  if (← get).groups.length = p.groups.length then
    setGroup { g with skipping := outer || g.taken || !holds, taken := g.taken || holds }

def parseElse : PreM Unit := do
  let some g ← nextBranch "#else" | return
  let p ← get
  setGroup { taken := true, skipping := outerSkipping p || g.taken, directive := p.token,
             level := p.level }

def parseEndif : PreM Unit := do
  let p ← get
  match p.groups with
  | [] => error p.token.location "missing #if for #endif"
  | _ :: rest => set { p with groups := rest }

/-- Handles `#error` and `#warning`. -/
def parseMessage (fuel : Nat) (severity : Severity) : PreM Unit := do
  let location := (← get).token.location
  if ← expect fuel .stringLiteral then report severity location (← get).token.text

/-- Reads the rest of the line with macros expanded. -/
def readLine (fuel : Nat) : PreM String :=
  repeatWith (fun out => do
    if ← atLineEnd then return .inr out
    let _ ← consume
    if (← get).token.kind = .identifier then
      if ← expandIdentifier fuel then return .inl out
    return .inl (out ++ (← get).token.raw)) fuel ""

/-- Splits a text at its first blank. -/
def cut (s : String) : String × String :=
  (String.ofList (s.toList.takeWhile (· ≠ ' ')),
    String.ofList ((s.toList.dropWhile (· ≠ ' ')).drop 1))

/-- Sets the value of a key that is present. -/
def replaceValue (key value : String) (pairs : List (String × String)) : List (String × String) :=
  pairs.map fun (k, v) => (k, if k = key then value else v)

def parsePragma (fuel : Nat) : PreM Unit := do
  let location := (← get).token.location
  if !(← expect fuel .identifier) then return
  let name := (← get).token.text
  let rest ← readLine fuel
  match name with
  | "once" => modify fun p => { p with included := replaceValue p.reached.source "" p.included }
  | "reshade" =>
    let (key, value) := cut (Text.trim rest)
    modify fun p => { p with pragmas := p.pragmas ++ [{ name := key, value := Text.trim value }] }
  | _ => warning location "unknown pragma ignored"

/-- The content of an included file, read once. -/
def includedText (path : String) : PreM (Option String) := do
  let p ← get
  match p.included.lookup path with
  | some content => return some content
  | none =>
    match p.files.read path with
    | .error _ => return none
    | .ok content =>
      let text := sourceText content
      set { p with included := p.included ++ [(path, text)] }
      return some text

/-- Handles `#include`. Finished levels are dropped first, so that their hidden macros stay
out of the file. -/
def parseInclude (fuel : Nat) : PreM Unit := do
  let location := (← get).token.location
  if !(← expandNames fuel) then
    error (← get).token.location "syntax error: unexpected identifier in #include"
    return ← consumeUntil fuel .endOfLine
  if !(← expect fuel .stringLiteral) then return ← consumeUntil fuel .endOfLine
  let p ← get
  let path := resolveInclude p p.token.text
  if p.stack.any (·.name = path) then
    return ← error p.token.location "recursive #include"
  match ← includedText path with
  | none =>
    error location ("could not open included file '" ++ path ++ "'")
    consumeUntil fuel .endOfLine
  | some text =>
    modify fun p => { p with stack := p.stack.take (p.nextLevel + 1) }
    if text ≠ "" then push text path false

end ShaderEffect.Preprocessor

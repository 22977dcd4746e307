import ShaderEffect.Parser.Function
import ShaderEffect.Parser.Technique

namespace ShaderEffect.Parser

/-- Reads a namespace from behind its keyword. The first declaration that is wrong ends it. -/
def parseNamespace (recurse : Recurse) : ParseM Bool := do
  if !(← expect .identifier) then return false
  let name := (← currentToken).text
  if !(← expect .braceOpen) then return false
  modify fun p => { p with symbols := p.symbols.enterNamespace name }
  let valid ← loop (fun () => do
    if (← peek .braceClose) || (← peek .eof) then return .inr true
    let ok : Bool ← recurse .declaration
    if ok then return .inl () else return .inr false) ()
  let symbols ← (← get).symbols.leaveNamespace
  modify fun p => { p with symbols }
  return (← expect .braceClose) && valid

/-- Reads a function. If it is wrong, its name stands for something that is not reported again. -/
def parseFunctionOrPlaceholder (recurse : Recurse) (t : Ty) : ParseM Bool := do
  let name := (← currentToken).text
  if ← parseFunction recurse t then return true
  let _ ← declare name (functionSymbol Id.invalid none) true
  return false

/-- Reads the name of a global, unless it is the first, whose name was read before. -/
def parseGlobalName (isFirst : Bool) : ReadM Bool :=
  if isFirst then return true else expect .identifier

/-- Reads a global. If it is wrong, its name stands for something that is not reported again. -/
def parseGlobal (recurse : Recurse) (t : Ty) (isFirst : Bool) : ParseM (Option Bool) := do
  if !(← parseGlobalName isFirst) then return none
  let name := (← currentToken).text
  if ← parseVariable recurse t true then return some false
  let _ ← declare name { kind := .variable, id := Id.invalid, type := t } true
  consumeUntil .semicolon
  return none

/-- Reads the globals that are declared with one type, from behind the name of the first. -/
def parseGlobals (recurse : Recurse) (t : Ty) : ParseM Bool := do
  let read ← parseCommaSeparated (parseGlobal recurse t) true
  match read with
  | some _ => expect .semicolon
  | none => return false

/-- Reads a declaration that begins with a type. Lone semicolons are skipped, and so is a token that
begins nothing. -/
def parseTyped (recurse : Recurse) : ParseM Bool := do
  match ← parseType with
  | none =>
    if ← accept .semicolon then return true
    consume
    let t ← currentToken
    error t.location 3000 (unexpected t)
    return false
  | some t =>
    if !(← expect .identifier) then return false
    if ← peek .parenOpen then parseFunctionOrPlaceholder recurse t else parseGlobals recurse t

/-- Reads one declaration at the top level or in a namespace. -/
def parseDeclaration (recurse : Recurse) : ParseM Bool := do
  if ← accept .namespaceWord then return ← parseNamespace recurse
  if ← accept .structWord then
    if ← parseStruct recurse then return ← expect .semicolon else return false
  if ← accept .techniqueWord then return ← parseTechnique recurse
  parseTyped recurse

/-- Reads a part of the grammar, in which parts lie inside of each other at most `depth` deep. -/
def parse : (depth : Nat) → Recurse
  | 0, _ => throw .exhausted
  | depth + 1, n =>
    match n with
    | .unary => parseUnary (parse depth)
    | .multary strength => parseMultary (parse depth) strength
    | .assignment => parseAssignment (parse depth)
    | .sequence => parseSequence (parse depth)
    | .statement newScope => parseStatement (parse depth) newScope
    | .declaration => parseDeclaration (parse depth)

/-- A bound for how deep the parts of a source of the given length lie inside of each other. Every
token opens fewer than six parts. -/
def depthFor (length : Nat) : Nat :=
  6 * (length + 8)

/-- Reads every declaration of a source. Gives whether there were no errors. -/
def parseDeclarations (source : String) : ParseM Bool := do
  modify fun p =>
    { p with
      cursor := Token.Cursor.start source {}
      symbols := {}
      errors := 0
      rounds := source.length + 2 }
  consume
  let valid ← loop (fun valid => do
    if ← peek .eof then return .inr valid
    let ok : Bool ← parse (depthFor source.length) .declaration
    return .inl (valid && ok)) true
  return valid && (← get).errors = 0

/-- Reads a source. Gives whether there were no errors, and what is kept for the next. -/
def parseSource (source : String) (p : Parser) : Script (Bool × Parser) := do
  let { noShortCircuit, .. } := p
  let (valid, reader) ← ((parseDeclarations source).run { noShortCircuit }).run p.toReader
  return (valid, { p with toReader := reader })

end ShaderEffect.Parser

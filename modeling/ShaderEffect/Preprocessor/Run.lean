import ShaderEffect.Preprocessor.Directive

namespace ShaderEffect.Preprocessor

/-- Writes a finished line, behind a `#line` directive if lines were left out before it. -/
def flushLine (line : String) : PreM Unit :=
  modify fun p =>
    if line = "" then p
    else
      let actual := p.token.location.line
      let expected := p.reached.line + 1
      let mark := if expected = actual then "" else lineDirective actual none
      { p with
        output := p.output ++ mark ++ line ++ "\n"
        reached := { p.reached with line := actual } }

/-- The directives that are obeyed in branches that are left out, too. -/
def conditional? (fuel : Nat) : Token.Kind → Option (PreM Unit)
  | .hashIf => some (parseIf fuel)
  | .hashIfdef => some (parseIfdef fuel true)
  | .hashIfndef => some (parseIfdef fuel false)
  | .hashElse => some parseElse
  | .hashElif => some (parseElif fuel)
  | .hashEndif => some parseEndif
  | _ => none

/-- The directives that need nothing but the rest of their line. -/
def directive? (fuel : Nat) : Token.Kind → Option (PreM Unit)
  | .hashDefine => some (parseDefine fuel)
  | .hashUndef => some (parseUndef fuel)
  | .hashError => some (parseMessage fuel .error)
  | .hashWarning => some (parseMessage fuel .warning)
  | .hashPragma => some (parsePragma fuel)
  | _ => none

/-- Handles the current token in a branch that is selected: the line it leaves. -/
def processToken (fuel : Nat) (line : String) : PreM String := do
  let t := (← get).token
  match directive? fuel t.kind with
  | some run =>
    run
    endDirective fuel
    return line
  | none =>
    match t.kind with
    | .hashInclude =>
      parseInclude fuel
      return line
    | .hashUnknown =>
      error t.location ("unrecognized preprocessing directive '" ++ t.text ++ "'")
      consumeUntil fuel .endOfLine
      return line
    | .endOfLine =>
      flushLine line
      return ""
    | .identifier =>
      if ← expandIdentifier fuel then return line
      return line ++ (← get).token.raw
    | _ => return line ++ t.raw

/-- Handles the next token: the line so far, or the line that the end of the input has left. -/
def processNext (fuel : Nat) (line : String) : PreM (String ⊕ String) := do
  if !(← consume) then return .inr line
  modify fun p => { p with expansions := 0 }
  match conditional? fuel (← get).token.kind with
  | some run =>
    run
    endDirective fuel
    return .inl line
  | none =>
    if (← get).isSkipping then return .inl line
    return .inl (← processToken fuel line)

/-- Handles everything on the input stack. -/
def processAll (fuel : Nat) : PreM Unit := do
  flushLine (← repeatWith (processNext fuel) fuel "")

/-- Preprocesses a text that was read from a file. Gives whether it has no errors. -/
def appendText (fuel : Nat) (text name : String) : PreM Bool := do
  modify fun p => { p with success := true }
  push text name false
  processAll fuel
  return (← get).success

/-- Preprocesses a text as if it were a file with the given name. -/
def appendString (fuel : Nat) (source name : String) : PreM Bool :=
  appendText fuel (if Text.endsWith "\n" source then source else source ++ "\n")
    (if name = "" then "unknown" else name)

/-- Preprocesses a file, or gives the reason why it cannot be read. -/
def appendFile (fuel : Nat) (path : String) : PreM (Except (Files.Problem × String) Bool) := do
  match (← get).files.read path with
  | .error (e, message) => return .error (e, "preprocessor: " ++ message)
  | .ok content => return .ok (← appendText fuel (sourceText content) path)

/-- The number of tokens a run may read. It is far beyond what any run needs whose output fits into
memory. -/
def defaultFuel : Nat := 1000000000

/-- The order of texts by their bytes. -/
def textLe (a b : String) : Bool :=
  !(b < a)

/-- The files that were included, sorted by path. -/
def includedFiles (p : Preprocessor) : List String :=
  (p.included.map (·.1)).mergeSort textLe

/-- The macros without parameters that `#ifdef` or `#ifndef` asked for, sorted by name. -/
def usedDefinitions (p : Preprocessor) : Except Fault (List (String × String)) :=
  (p.usedMacros.mergeSort textLe).filterMapM fun name => do
    match p.findMacro? name with
    | some m => if m.functionLike then return none else return some (name, ← m.text)
    | none => return none

end ShaderEffect.Preprocessor

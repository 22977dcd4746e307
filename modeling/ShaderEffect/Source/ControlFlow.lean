import ShaderEffect.Source.State

namespace ShaderEffect.Source

variable {δ : Type} [Dialect δ]

open Generator

def enterBlock (id : Id) : SourceM δ Unit := do
  let _ ← setBlock id
  write []

/-- Ends the current block with some lines. -/
def endBlock (ls : Lines) : SourceM δ Id := do
  write ls
  setBlock 0

/-- The block that has ended, if there is no block to end. -/
def alreadyEnded : SourceM δ Id := do
  return (← get).lastBlock

/-- Ends the current block without a result. A function that gives a value has to
return one even so. -/
def leaveAndKill [Literals δ] : SourceM δ Id := do
  if !(← get).isInBlock then return 0
  let t := (← getTarget).returnType
  let result ←
    if t.isVoid then pure []
    else pure [.text 1 ("return " ++ (← Literals.literal t {}) ++ ";")]
  endBlock (.text 1 "discard;" :: result)

/-- Ends the current block with a return. The end of a function that gives a value is left open. -/
def leaveAndReturn (value : Id) : SourceM δ Id := do
  if !(← get).isInBlock then return 0
  if value ≠ 0 then endBlock [.text 1 ("return " ++ (← nameOf value) ++ ";")]
  else if (← getTarget).returnType.isVoid then endBlock [.text 1 "return;"]
  else endBlock []

/-- Ends the current block with a jump of a loop, or leaves what follows to the statement it belongs
to. -/
def leaveAndBranch (target : Id) (flow : Flow) : SourceM δ Id := do
  if !(← get).isInBlock then return ← alreadyEnded
  match flow with
  | .plain => endBlock []
  | .leaveLoop => endBlock [.text 1 "break;"]
  | .nextRound =>
    endBlock [{ depth := 0, content := .continueMark target }, .text 1 "continue;"]

/-- Ends the current block, whose statement is written later. -/
def leaveOpen : SourceM δ Id := do
  if (← get).isInBlock then setBlock 0 else alreadyEnded

/-- Code in braces. -/
def braced (code : Lines) : Lines :=
  [.text 1 "\x7b"] ++ code ++ [.text 1 "\x7d"]

/-- The lines in front of a loop or a selection. -/
def attributeLines (isLoop : Bool) (hint : ControlHint) : SourceM δ Lines := do
  if hint = 0 then return []
  modifyTarget fun s => { s with dialect := Dialect.afterAttributes s.dialect }
  return Dialect.attributes δ isLoop hint

/-- The lines in front of a selection, with its location. -/
def selectionLines (location : Location) (hint : ControlHint) : SourceM δ Lines := do
  let mark ← locationLines location
  return mark ++ (← attributeLines false hint)

/-- A selection, from what stands in front of its first brace. -/
def ifText (header yes no : Lines) : Lines :=
  header ++ braced (yes.deeper 1)
    ++ if no.isEmpty then [] else .text 1 "else" :: braced (no.deeper 1)

/-- The line that opens a selection. -/
def ifLine (condition : String) : Line :=
  .text 1 ("if (" ++ condition ++ ")")

def emitIf (location : Location) (condition conditionBlock trueBlock falseBlock : Id)
    (hint : ControlHint) : SourceM δ Unit := do
  let yes ← take trueBlock
  let no ← take falseBlock
  let test ← take conditionBlock
  let header ← selectionLines location hint
  write (test ++ ifText (header ++ [ifLine (← nameOf condition)]) yes no)

/-- The code of a branch, unless it is no block of its own. -/
def takeBranch (block conditionBlock : Id) : SourceM δ Lines := do
  if block = conditionBlock then return [] else take block

/-- A selection whose branches end by giving a value. -/
def phiText (header yes yesValue no noValue : Lines) : Lines :=
  header ++ braced (yes.deeper 1 ++ yesValue) ++ .text 1 "else" :: braced (no.deeper 1 ++ noValue)

def emitPhi (location : Location)
    (condition conditionBlock trueValue trueBlock falseValue falseBlock : Id) (t : Ty) :
    SourceM δ Id := do
  let yes ← takeBranch trueBlock conditionBlock
  let no ← takeBranch falseBlock conditionBlock
  let id ← makeId
  let test ← take conditionBlock
  let type ← typeName .plain t
  let mark ← locationLines location
  let header :=
    { content := .declaration type id (arraySuffix t) none } :: mark
      ++ [ifLine (← nameOf condition)]
  let assign (value : Id) : SourceM δ Lines := do
    return [.text 2 (plainName id ++ " = " ++ (← nameOf value) ++ ";")]
  write (test ++ phiText header yes (← assign trueValue) no (← assign falseValue))
  return id

/-- The values that lead to each block, in the order of the blocks. Values without a block are left
out. -/
def groupCases (cases : List (UInt32 × Id)) : Table Id (List UInt32) :=
  (cases.filter (·.2 ≠ 0)).foldl (fun groups (value, block) =>
    Table.set block ((Table.get? groups block).getD [] ++ [value]) groups) []

def caseLabel (value : UInt32) : String :=
  "case " ++ toString value.toInt32.toInt ++ ": "

def defaultText : String := "default: "

/-- A section of a switch statement, from its labels. -/
def sectionText (labels : String) (code : Lines) : Lines :=
  .text 1 (labels ++ "\x7b") :: code.deeper 1 ++ [.text 1 "\x7d"]

/-- The section of some values, which may have the default label as well. -/
def takeSection (defaultLabel : Id) (group : Id × List UInt32) : SourceM δ Lines := do
  let others := if group.1 = defaultLabel then defaultText else ""
  return sectionText (String.join (group.2.map caseLabel) ++ others) (← take group.1)

/-- A switch statement, from what stands in front of its brace. -/
def switchText (header : Lines) (sections : List Lines) : Lines :=
  header ++ .text 1 "\x7b" :: sections.flatten ++ [.text 1 "\x7d"]

/-- The line that opens a switch statement. -/
def switchLine (selector : String) : Line :=
  .text 1 ("switch (" ++ selector ++ ")")

def emitSwitch (location : Location) (selector selectorBlock defaultLabel : Id)
    (cases : List (UInt32 × Id)) (hint : ControlHint) : SourceM δ Unit := do
  let first ← take selectorBlock
  let header ← selectionLines location hint
  let groups := groupCases cases
  let sections ← groups.mapM (takeSection defaultLabel)
  let isCovered := groups.any (·.1 = defaultLabel)
  let last ←
    if defaultLabel ≠ 0 && !isCovered && defaultLabel ≠ (← get).currentBlock then
      pure [sectionText defaultText (← take defaultLabel)]
    else pure []
  write (first ++ switchText (header ++ [switchLine (← nameOf selector)]) (sections ++ last))

/-- What stands in front of a loop, and the name of its condition. -/
structure LoopHead where
  lines : Lines
  name : String

/-- The braces of a loop. The body has a scope of its own, so that its names do not hide those that
the code behind it uses. -/
def loopBraces (first body last : Lines) : Lines :=
  braced (first ++ [.text 2 "\x7b"] ++ body.deeper 2 ++ [.text 2 "\x7d"] ++ last.deeper 1)

/-- A loop whose condition is evaluated behind the body. The condition is declared in front of the
loop where it can be. -/
def doText (bare : Bool) (condition continueBlock : Id) (head : LoopHead) (body next : Lines) :
    Lines :=
  let loop (next : Lines) : Lines :=
    head.lines ++ .text 1 "do" :: loopBraces [] (body.replaceContinue continueBlock next) next
      ++ [.text 1 ("while (" ++ head.name ++ ");")]
  match Lines.assignInstead? bare condition next with
  | some moved => .text 1 ("bool " ++ head.name ++ ";") :: loop moved
  | none => loop next

/-- The expression of a condition that a single line declares. -/
def soleCondition? (condition : Id) : Lines → Option String
  | [l] => Lines.initOf? condition l
  | _ => none

/-- The line that opens a loop whose condition is evaluated in front of the body. -/
def whileLine (condition : String) : Line :=
  .text 1 ("while (" ++ condition ++ ")")

/-- A loop whose condition is evaluated in front of the body. A condition that needs several
statements is evaluated inside of the loop. -/
def whileText (condition continueBlock : Id) (head : LoopHead) (test body next : Lines) : Lines :=
  let body := body.replaceContinue continueBlock next
  match (soleCondition? condition test).or (if test.isEmpty then some head.name else none) with
  | some header => head.lines ++ whileLine header :: loopBraces [] body next
  | none =>
    head.lines ++ whileLine "true"
      :: loopBraces (test.deeper 1
        ++ [.text 2 ("if (!" ++ head.name ++ ")"), .text 3 "break;"]) body next

/-- What stands in front of a loop. A loop that is always repeated has no condition, but one that is
evaluated behind the body does. -/
def loopHead (location : Location) (condition : Id) (isDo : Bool) (hint : ControlHint) :
    SourceM δ LoopHead := do
  let attributes ← attributeLines true hint
  let mark ← locationLines location
  let name ← if isDo || condition ≠ 0 then nameOf condition else pure "true"
  return { lines := mark ++ attributes, name }

def emitLoop (location : Location) (condition before header conditionBlock body continueBlock : Id)
    (hint : ControlHint) : SourceM δ Unit := do
  let bodyCode ← take body
  let next ← take continueBlock
  let _ ← take header
  let first ← take before
  let isDo : Bool := conditionBlock = 0
  let head ← loopHead location condition isDo hint
  if isDo then
    write (first ++ doText (Dialect.movesBareDeclarations δ) condition continueBlock head
      bodyCode next)
  else
    let test ← take conditionBlock
    write (first ++ whileText condition continueBlock head test bodyCode next)

end ShaderEffect.Source

import ShaderEffect.Parser.Statement

namespace ShaderEffect.Parser

/-- Starts a block. -/
def enterBlock (id : Id) : ParseM Unit :=
  emit (.enterBlock id)

/-- Ends the current block with a branch. Gives the block that ended. -/
def branchTo (target : Id) : ParseM Id :=
  emit (.leaveAndBranch target .plain)

/-- Ends the current block with a branch that depends on a condition. -/
def branchIf (condition yes no : Id) : ParseM Id :=
  emit (.leaveAndBranchConditional condition yes no)

/-- An id for a block that starts later. -/
def makeBlock : ParseM Id :=
  emit .makeId

/-- Reads what an if statement does where its condition does not hold. -/
def parseElse (recurse : Recurse) : ParseM Bool := do
  if ← accept .elseWord then recurse (.statement true) else return true

/-- Reads an if statement from behind its keyword. -/
def parseIf (recurse : Recurse) (location : Location) (hint : ControlHint) : ParseM Bool := do
  let yes ← makeBlock
  let no ← makeBlock
  let merge ← makeBlock
  let some condition ←
    parseCondition recurse "if statement conditional expressions must evaluate to a scalar"
    | return false
  let conditionEnd ← branchIf condition yes no
  enterBlock yes
  let ok : Bool ← recurse (.statement true)
  if !ok then return false
  let yesEnd ← branchTo merge
  enterBlock no
  if !(← parseElse recurse) then return false
  let noEnd ← branchTo merge
  enterBlock merge
  emit (.emitIf location condition conditionEnd yesEnd noEnd hint)
  return true

/-- What was read of a switch statement. The block of a label is 0 until it has ended; a default
label that is missing leads behind the statement. -/
structure Cases where
  merge : Id
  defaultLabel : Id
  labels : List (UInt32 × Id) := []
  /-- The number of labels whose blocks have ended. -/
  settled : Nat := 0
  valid : Bool := true

namespace Cases

/-- Gives the labels that are not settled the block that ended. -/
def settle (s : Cases) (block : Id) : Cases :=
  { s with
    defaultLabel := if s.defaultLabel = 0 then block else s.defaultLabel
    labels := s.labels.take s.settled
      ++ (s.labels.drop s.settled).map (fun (value, _) => (value, block))
    settled := s.labels.length }

end Cases

/-- Reads the value of a case label. -/
def parseCaseValue (recurse : Recurse) (s : Cases) : ParseM (Option Cases) := do
  let some e ← recurse .sequence | return none
  if !e.type.isScalar || !e.type.isIntegral || !e.isConstant then
    error e.location 3020 "invalid type for case expression - value must be an integer scalar"
    return none
  let value := e.value.word
  let duplicate := s.labels.any (·.1 = value)
  if duplicate then error e.location 3532 ("duplicate case " ++ toString value.toNat)
  return some { s with labels := s.labels ++ [(value, 0)], valid := s.valid && !duplicate }

/-- Notes a default label. -/
def addDefault (s : Cases) : ReadM Cases := do
  let duplicate : Bool := s.defaultLabel ≠ s.merge
  if duplicate then error (← currentToken).location 3532 "duplicate default in switch statement"
  return { s with defaultLabel := 0, valid := s.valid && !duplicate }

/-- Reads the colon behind a label. -/
def endLabel (s : Cases) : ReadM (Cases ⊕ Option Cases) := do
  if ← expect .colon then return .inl s else return .inr none

/-- Reads the labels in front of a statement. -/
def parseLabels (recurse : Recurse) (s : Cases) : ParseM (Option Cases) :=
  loop (fun (s : Cases) => do
    if ← accept .caseWord then
      match ← parseCaseValue recurse s with
      | some s => endLabel s
      | none => return .inr none
    else if ← accept .defaultWord then endLabel (← addDefault s)
    else return .inr (some s)) s

/-- Ends the block of the labels read last. The next one starts unless this was the last. -/
def endCase (s : Cases) (isLast : Bool) : ParseM Cases := do
  let fallsThrough ← emit .isInBlock
  if fallsThrough then
    error (← nextToken).location 3533 "non-empty case statements must have break or return"
  let next ← if isLast then pure s.merge else makeBlock
  let ended ← branchTo next
  enterBlock next
  return { s.settle ended with valid := s.valid && !fallsThrough }

/-- Reads what follows labels: a statement, or the brace that ends a switch statement, which is
left to be read. -/
def parseSection (recurse : Recurse) (s : Cases) : ParseM (Cases ⊕ Option Cases) := do
  if ← peek .braceClose then return .inr (some (← endCase s true))
  let ok : Bool ← recurse (.statement true)
  if !ok then return .inr none
  if (← peek .caseWord) || (← peek .defaultWord) then return .inl (← endCase s false)
  return .inl s

/-- Reads the labels and statements of a switch statement up to its brace. -/
def parseCases (recurse : Recurse) (s : Cases) : ParseM (Option Cases) :=
  loop (fun (s : Cases) => do
    if ← peek .eof then return .inr (some s)
    let some s ← parseLabels recurse s | return .inr none
    parseSection recurse s) s

/-- Reads the body of a switch statement and generates the whole of it. -/
def parseSwitchBody (recurse : Recurse) (location : Location) (selector selectorEnd merge : Id)
    (hint : ControlHint) : ParseM Bool := do
  enterBlock (← makeBlock)
  let some s ← parseCases recurse { merge, defaultLabel := merge } | failAfter .braceClose
  if s.labels.isEmpty && s.defaultLabel = merge then
    warning location 5002 "switch statement contains no 'case' or 'default' labels"
  emit (.emitSwitch location selector selectorEnd s.defaultLabel s.labels hint)
  return (← expect .braceClose) && s.valid

/-- Reads a switch statement from behind its keyword. -/
def parseSwitch (recurse : Recurse) (location : Location) (hint : ControlHint) : ParseM Bool := do
  let merge ← makeBlock
  let some e ← parseInParentheses recurse | return false
  let some selector ← loadScalar e .int "switch statement expression must evaluate to a scalar"
    | return false
  let selectorEnd ← emit (.leaveAndSwitch selector merge)
  if !(← expect .braceOpen) then return false
  withReader (fun s => { s with breakTargets := merge :: s.breakTargets })
    (parseSwitchBody recurse location selector selectorEnd merge hint)

/-- The blocks of a loop. -/
structure LoopBlocks where
  merge : Id
  header : Id
  next : Id
  body : Id

/-- Makes the blocks of a loop. -/
def makeLoopBlocks : ParseM LoopBlocks := do
  let merge ← makeBlock
  let header ← makeBlock
  let next ← makeBlock
  let body ← makeBlock
  return { merge, header, next, body }

/-- Enters the header of a loop and leads on to the given block. Gives the block in front. -/
def openLoop (b : LoopBlocks) (first : Id) : ParseM Id := do
  let before ← branchTo b.header
  enterBlock b.header
  let _ ← branchTo first
  enterBlock first
  return before

/-- Reads the body of a loop. Gives the block it ends in. -/
def parseLoopBody (recurse : Recurse) (b : LoopBlocks) (newScope : Bool) : ParseM (Option Id) := do
  let inside (s : Surroundings) : Surroundings :=
    { s with
      breakTargets := b.merge :: s.breakTargets
      continueTargets := b.next :: s.continueTargets }
  let ok : Bool ← withReader inside (recurse (.statement newScope))
  if ok then return some (← branchTo b.next) else return none

/-- Generates a loop that is complete. -/
def closeLoop (location : Location) (b : LoopBlocks) (condition before conditionEnd bodyEnd : Id)
    (hint : ControlHint) : ParseM Unit := do
  enterBlock b.merge
  emit (.emitLoop location condition before b.header conditionEnd bodyEnd b.next hint)

/-- Reads what a for loop does in front of its first round. -/
def parseForStart (recurse : Recurse) : ParseM Bool := do
  match ← parseType with
  | some t => parseLocals recurse t
  | none =>
    if ← peek .semicolon then return true
    let e : Option Expression ← recurse .sequence
    return e.isSome

/-- Reads the condition of a for loop, which always holds if it is left out. Gives the condition and
the block it ends in. -/
def parseForCondition (recurse : Recurse) (b : LoopBlocks) : ParseM (Option (Id × Id)) := do
  if ← peek .semicolon then return some (0, ← branchTo b.body)
  let some e ← recurse .sequence | return none
  let some condition ← loadScalar e .bool "scalar value expected" | return none
  return some (condition, ← branchIf condition b.body b.merge)

/-- Reads what a for loop does behind each round, if anything. -/
def parseForStep (recurse : Recurse) : ParseM Bool := do
  if ← peek .parenClose then return true
  let e : Option Expression ← recurse .sequence
  return e.isSome

/-- Reads a for loop from behind its keyword. -/
def parseFor (recurse : Recurse) (location : Location) (hint : ControlHint) : ParseM Bool := do
  if !(← expect .parenOpen) then return false
  if !(← parseForStart recurse) then return false
  if !(← expect .semicolon) then return false
  let b ← makeLoopBlocks
  let before ← openLoop b (← makeBlock)
  let some (condition, conditionEnd) ← parseForCondition recurse b | return false
  if !(← expect .semicolon) then return false
  enterBlock b.next
  if !(← parseForStep recurse) then return false
  if !(← expect .parenClose) then return false
  let _ ← branchTo b.header
  enterBlock b.body
  let some bodyEnd ← parseLoopBody recurse b false | return false
  closeLoop location b condition before conditionEnd bodyEnd hint
  return true

/-- Reads a while loop from behind its keyword. -/
def parseWhile (recurse : Recurse) (location : Location) (hint : ControlHint) : ParseM Bool := do
  let b ← makeLoopBlocks
  let before ← openLoop b (← makeBlock)
  let some condition ← parseCondition recurse "scalar value expected" | return false
  let conditionEnd ← branchIf condition b.body b.merge
  enterBlock b.body
  let some bodyEnd ← parseLoopBody recurse b false | return false
  enterBlock b.next
  let _ ← branchTo b.header
  closeLoop location b condition before conditionEnd bodyEnd hint
  return true

/-- Reads a do loop from behind its keyword. Its condition is evaluated between rounds. -/
def parseDo (recurse : Recurse) (location : Location) (hint : ControlHint) : ParseM Bool := do
  let b ← makeLoopBlocks
  let before ← openLoop b b.body
  let some bodyEnd ← parseLoopBody recurse b true | return false
  enterBlock b.next
  if !(← expect .whileWord) then return false
  let some condition ← parseCondition recurse "scalar value expected" | return false
  if !(← expect .semicolon) then return false
  let _ ← branchIf condition b.header b.merge
  closeLoop location b condition before 0 bodyEnd hint
  return true

/-- Runs a part in a scope of its own. -/
def inScope (part : ParseM Bool) : ParseM Bool := do
  enterScope
  let ok ← part
  leaveScope
  return ok

/-- Reads a statement that begins with a keyword, if the next token is one. -/
def parseKeywordStatement? (recurse : Recurse) (h : Hints) : ParseM (Option Bool) := do
  let { kind, location, .. } ← nextToken
  let behind (part : ParseM Bool) : ParseM (Option Bool) := do
    consume
    return some (← part)
  match kind with
  | .ifWord => behind (parseIf recurse location h.selection)
  | .switchWord => behind (parseSwitch recurse location h.selection)
  | .forWord => behind (inScope (parseFor recurse location h.loop))
  | .whileWord => behind (inScope (parseWhile recurse location h.loop))
  | .doWord => behind (parseDo recurse location h.loop)
  | .breakWord => behind do
    parseJump location (← read).breakTargets .leaveLoop 3518 "break must be inside loop"
  | .continueWord => behind do
    parseJump location (← read).continueTargets .nextRound 3519 "continue must be inside loop"
  | .returnWord => behind (parseReturn recurse location)
  | .discardWord => behind do
    let _ ← emit .leaveAndKill
    expect .semicolon
  | _ => return none

/-- Reads a declaration of locals or an expression. After an error everything up to the semicolon is
skipped. -/
def parseSimpleStatement (recurse : Recurse) : ParseM Bool := do
  if ← parseLocalsOrExpression recurse then expect .semicolon else failAfter .semicolon

/-- Reads a statement. -/
def parseStatement (recurse : Recurse) (newScope : Bool) : ParseM Bool := do
  if !(← emit .isInBlock) then
    error (← nextToken).location 0 "unreachable code"
    return false
  let some hints ← parseAttributes | return false
  if ← peek .braceOpen then return ← parseBlock recurse newScope
  if ← accept .semicolon then return true
  let keyword ←
    if ← emit .isInFunction then parseKeywordStatement? recurse hints else pure none
  match keyword with
  | some ok => return ok
  | none => parseSimpleStatement recurse

end ShaderEffect.Parser

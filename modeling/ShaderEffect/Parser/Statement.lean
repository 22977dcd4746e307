import ShaderEffect.Parser.Variable

namespace ShaderEffect.Parser

/-- The hints that attributes in front of a statement give. -/
structure Hints where
  loop : ControlHint := 0
  selection : ControlHint := 0

/-- Takes an attribute into account, unless it is unknown. -/
def Hints.add? (h : Hints) : String → Option Hints
  | "unroll" => some { h with loop := h.loop ||| 1 }
  | "loop" | "fastopt" => some { h with loop := h.loop ||| 2 }
  | "flatten" => some { h with selection := h.selection ||| 1 }
  | "branch" => some { h with selection := h.selection ||| 2 }
  | _ => none

/-- Reads the attributes in front of a statement. -/
def parseAttributes : ReadM (Option Hints) :=
  readLoop (fun (h : Hints) => do
    if !(← accept .bracketOpen) then return .inr (some h)
    let word := (← nextToken).text
    if !(← expect .identifier) then return .inr none
    if !(← expect .bracketClose) then return .inr none
    let location := (← currentToken).location
    let known := h.add? word
    if known.isNone then warning location 0 "unknown attribute"
    let h := known.getD h
    if h.loop = 3 then
      error location 3524 "can't use loop and unroll attributes together"
      return .inr none
    if h.selection = 3 then
      error location 3524 "can't use branch and flatten attributes together"
      return .inr none
    return .inl h) {}

/-- Skips the rest of a block and its closing brace. -/
def skipBlock : ReadM Unit :=
  readLoop (fun (level : Nat) => do
    if ← peek .eof then return .inr ()
    if ← accept .braceOpen then return .inl (level + 1)
    if ← accept .braceClose then
      if level = 0 then return .inr ()
      return .inl (level - 1)
    consume
    return .inl level) 0

/-- Reads statements up to the end of their block. Gives false at the first that is wrong. -/
def parseStatements (recurse : Recurse) : ParseM Bool :=
  loop (fun () => do
    if (← peek .braceClose) || (← peek .eof) then return .inr true
    let ok : Bool ← recurse (.statement true)
    if ok then return .inl () else return .inr false) ()

/-- Reads a block. After an error the rest of it is skipped, so that reading can go on behind it. -/
def parseBlock (recurse : Recurse) (newScope : Bool) : ParseM Bool := do
  if !(← expect .braceOpen) then return false
  if newScope then enterScope
  let ok ← parseStatements recurse
  if newScope then leaveScope
  if ok then expect .braceClose
  else
    skipBlock
    return false

/-- Reads an expression in parentheses. -/
def parseInParentheses (recurse : Recurse) : ParseM (Option Expression) := do
  if !(← expect .parenOpen) then return none
  let some e ← recurse .sequence | return none
  if ← expect .parenClose then return some e else return none

/-- Loads a scalar as a value of the given base. -/
def loadScalar (e : Expression) (base : Base) (message : String) : ParseM (Option Id) := do
  if !e.type.isScalar then
    error e.location 3019 message
    return none
  return some (← load (← e.addCast (.scalar base)))

/-- Reads a condition in parentheses. -/
def parseCondition (recurse : Recurse) (message : String) : ParseM (Option Id) := do
  let some e ← parseInParentheses recurse | return none
  loadScalar e .bool message

/-- Leaves the current block for the innermost of the given targets. -/
def parseJump (location : Location) (targets : List Id) (flow : Flow) (code : Int)
    (message : String) :
    ParseM Bool := do
  match targets with
  | [] =>
    error location code message
    return false
  | target :: _ =>
    let _ ← emit (.leaveAndBranch target flow)
    expect .semicolon

/-- Reads a return statement from behind its keyword. -/
def parseReturn (recurse : Recurse) (location : Location) : ParseM Bool := do
  let result := (← get).returnType
  let refuse (code : Int) (message : String) : ParseM Bool := do
    error location code message
    let _ ← accept .semicolon
    return false
  if ← peek .semicolon then
    if !result.isVoid then return ← refuse 3080 "function must return a value"
    let _ ← emit (.leaveAndReturn 0)
    expect .semicolon
  else
    let some e ← recurse .sequence | failAfter .semicolon
    if result.isVoid then return ← refuse 3079 "void functions cannot return a value"
    if e.type.isArray || e.type.rank result = 0 then
      return ← refuse 3017 "expression does not match function return type"
    warnTruncation e result
    let e ← e.addCast result
    let _ ← emit (.leaveAndReturn (← load e))
    expect .semicolon

/-- Reads the names that are declared with one type, up to the semicolon. -/
def parseLocals (recurse : Recurse) (t : Ty) : ParseM Bool := do
  let read ← parseCommaSeparated (fun () => do
    if !(← expect .identifier) then return none
    if ← parseVariable recurse t false then return some () else return none) ()
  return read.isSome

/-- Reads a declaration of locals or an expression, which may be followed by anything. -/
def parseLocalsOrExpression (recurse : Recurse) : ParseM Bool := do
  match ← parseType with
  | some t => parseLocals recurse t
  | none =>
    let e : Option Expression ← recurse .sequence
    return e.isSome

end ShaderEffect.Parser

import ShaderEffect.Basic
import ShaderEffect.Diagnostic
import ShaderEffect.Script
import ShaderEffect.Symbol
import ShaderEffect.Token.Lexer

namespace ShaderEffect

/-- What reading a text needs and keeps: tokens, names and messages. -/
structure Reader where
  cursor : Token.Cursor := default
  token : Token := {}
  next : Token := {}
  /-- The place to return to when an attempt fails. -/
  savedNext : Token := {}
  savedCursor : Token.Cursor := default
  symbols : SymbolTable := {}
  /-- The type of the result of the current function. -/
  returnType : Ty := {}
  diagnostics : Diagnostics := []
  /-- The number of errors in the current source. -/
  errors : Nat := 0
  /-- A bound for the tokens of the current source. -/
  rounds : Nat := 0
deriving Inhabited

/-- What the code of a statement depends on besides its text. -/
structure Surroundings where
  /-- Both operands of `&&`, `||` and `?:` are evaluated, instead of branching around the one
  that is not needed. -/
  noShortCircuit : Bool := false
  /-- Where `break` and `continue` lead to, the innermost first. -/
  breakTargets : List Id := []
  continueTargets : List Id := []
deriving Inhabited

/-- What the parser keeps from one source to the next. -/
structure Parser extends Reader where
  noShortCircuit : Bool := false
deriving Inhabited

/-- Reading without generating anything. -/
abbrev ReadM := StateT Reader (Except Fault)

/-- Reading that has code generated. -/
abbrev ParseM := ReaderT Surroundings (StateT Reader Script)

/-- Reading as a part of parsing. It makes no requests. -/
def ReadM.toParse {α : Type} (x : ReadM α) : ParseM α := fun _ reader =>
  match x reader with
  | .ok (a, reader) => .done (a, reader)
  | .error e => .fault e

instance : MonadLift ReadM ParseM := ⟨ReadM.toParse⟩

namespace Parser

/-- The number of errors that are recorded for one source. -/
def errorLimit : Nat := 1000

/-- The parts of the grammar that contain each other. -/
inductive Nonterminal where
  | unary
  | multary (strength : Nat)
  | assignment
  | sequence
  | statement (newScope : Bool)
  | declaration
deriving DecidableEq, Repr

/-- What reading a part gives: an expression unless there was an error, or whether
there was none. -/
abbrev Nonterminal.Value : Nonterminal → Type
  | unary | multary _ | assignment | sequence => Option Expression
  | statement _ | declaration => Bool

/-- How parts are read that lie inside of others. -/
abbrev Recurse := (n : Nonterminal) → ParseM n.Value

/-- Makes a request. -/
def emit (r : Request) : ParseM r.Answer :=
  fun _ reader => .ask r fun answer => .done (answer, reader)

/-- Repeats a step until it gives a result. Every round reads a token, or else it
is the last one. -/
def loop {α γ : Type} (step : α → ParseM (α ⊕ γ)) (a : α) : ParseM γ := do
  repeatWith step (← get).rounds a

/-- Repeats a step of reading until it gives a result. -/
def readLoop {α γ : Type} (step : α → ReadM (α ⊕ γ)) (a : α) : ReadM γ := do
  repeatWith step (← get).rounds a

def error (location : Location) (code : Int) (message : String) : ReadM Unit :=
  modify fun p =>
    { p with
      errors := p.errors + 1
      diagnostics :=
        if p.errors < errorLimit then
          p.diagnostics ++ [{ severity := .error, stage := .parser, code, location, message }]
        else p.diagnostics }

def warning (location : Location) (code : Int) (message : String) : ReadM Unit :=
  modify fun p =>
    { p with
      diagnostics :=
        p.diagnostics ++ [{ severity := .warning, stage := .parser, code, location, message }] }

/-- A text in the quotes that messages use. -/
def inQuotes (s : String) : String :=
  "'" ++ s ++ "'"

/-- The message about a token that does not belong where it is. -/
def unexpected (t : Token) : String :=
  "syntax error: unexpected " ++ inQuotes t.kind.name

/-- The message about a token in the place of something else. -/
def unexpectedFor (t : Token) (wanted : String) : String :=
  unexpected t ++ ", expected " ++ wanted

/-- Remembers the current place. -/
def save : ReadM Unit :=
  modify fun p => { p with savedNext := p.next, savedCursor := p.cursor }

/-- Returns to the place that was remembered last. -/
def restore : ReadM Unit :=
  modify fun p => { p with next := p.savedNext, cursor := p.savedCursor }

def consume : ReadM Unit :=
  modify fun p =>
    let (next, cursor) := Token.lex .forParser p.cursor
    { p with token := p.next, next, cursor }

def currentToken : ReadM Token :=
  return (← get).token

def nextToken : ReadM Token :=
  return (← get).next

def peek (kind : Token.Kind) : ReadM Bool :=
  return (← get).next.kind = kind

def accept (kind : Token.Kind) : ReadM Bool := do
  if ← peek kind then
    consume
    return true
  return false

def expect (kind : Token.Kind) : ReadM Bool := do
  if ← accept kind then return true
  let t ← nextToken
  error t.location 3000 (unexpectedFor t (inQuotes kind.name))
  return false

/-- Consumes tokens up to and including the next one of the given kind. -/
def consumeUntil (kind : Token.Kind) : ReadM Unit :=
  readLoop (fun () => do
    if ← accept kind then return .inr ()
    if ← peek .eof then return .inr ()
    consume
    return .inl ()) ()

/-- Skips to behind a token and gives `false`. -/
def failAfter (kind : Token.Kind) : ReadM Bool := do
  consumeUntil kind
  return false

def scope : ReadM Scope :=
  return (← get).symbols.current

def enterScope : ReadM Unit :=
  modify fun p => { p with symbols := p.symbols.enterScope }

def leaveScope : ReadM Unit :=
  modify fun p => { p with symbols := p.symbols.leaveScope }

/-- Declares a symbol. Gives false if the name is taken. -/
def declare (name : String) (symbol : Symbol) (isGlobal : Bool) : ReadM Bool := do
  let p ← get
  match ← p.symbols.insert name symbol isGlobal with
  | some symbols =>
    set { p with symbols }
    return true
  | none => return false

/-- A name that is different for declarations in different namespaces. -/
def uniqueName (mark name : String) : ReadM String := do
  let path := (← scope).name
  return (mark ++ path ++ name).map fun c => if c = ':' then '_' else c

/-- A name as it is written, with the scope it is looked up from and what it stands for there. -/
structure Named where
  identifier : String
  scope : Scope
  symbol : Symbol

/-- Reads the parts of a qualified name behind its first. Gives nothing if one is missing. -/
def acceptPath (identifier : String) : ReadM (Option String) :=
  readLoop (fun identifier => do
    if !(← accept .colonColon) then return .inr (some identifier)
    if !(← expect .identifier) then return .inr none
    return .inl (identifier ++ "::" ++ (← currentToken).text)) identifier

/-- Reads a name and looks it up. A leading `::` restricts the search to the root. -/
def acceptSymbol : ReadM (Option Named) := do
  let exclusive ← accept .colonColon
  if exclusive then
    if !(← expect .identifier) then return none
  else if !(← accept .identifier) then
    let t ← nextToken
    error t.location 3000 (unexpected t)
    return none
  let some identifier ← acceptPath (← currentToken).text | return none
  let from_ ← if exclusive then pure Scope.root else scope
  let symbol := (← get).symbols.find identifier from_ exclusive
  return some { identifier, scope := from_, symbol }

/-- Warns if a conversion to `t` drops components. -/
def warnTruncation (e : Expression) (t : Ty) : ReadM Unit := do
  if e.type.components > t.components then
    warning e.location 3206 "implicit truncation of vector type"

/-- Whether an expression can be assigned to. -/
def isAssignable (e : Expression) : Bool :=
  e.isLvalue && !e.type.has .const && !e.type.has .uniform

end Parser
end ShaderEffect

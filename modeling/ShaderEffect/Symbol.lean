import ShaderEffect.Basic
import ShaderEffect.Intrinsic
import ShaderEffect.Text

namespace ShaderEffect

/-- A place in the hierarchy of namespaces and blocks. The name is the path of the namespace
and ends in `::`. -/
structure Scope where
  name : String := "::"
  level : UInt32 := 0
  namespaceLevel : UInt32 := 0
deriving DecidableEq, Repr, Inhabited

/-- The scope of everything that is in no namespace. -/
def Scope.root : Scope := {}

namespace Symbol

inductive Kind where
  | invalid | variable | constant | function | intrinsic | struct
deriving DecidableEq, Repr, Inhabited

end Symbol

/-- What a name stands for. -/
structure Symbol where
  kind : Symbol.Kind := .invalid
  id : Id := 0
  type : Ty := {}
  value : Constant := {}
  function : Option FunctionDecl := none
  intrinsic : Option Intrinsic := none
deriving Inhabited, Repr

namespace Symbol

/-- Whether the symbol takes precedence over functions of the same name. -/
def isValue (s : Symbol) : Bool :=
  match s.kind with
  | .variable | .constant | .struct => true
  | _ => false

end Symbol

namespace SymbolTable

/-- A symbol with the name and scope it was declared under. -/
structure Entry where
  name : String
  symbol : Symbol
  scope : Scope
deriving Inhabited, Repr

/-- Whether the entry is a local of a block at or inside the given level. -/
def Entry.isLocalFrom (e : Entry) (level : UInt32) : Bool :=
  e.scope.level > e.scope.namespaceLevel && e.scope.level ≥ level

/-- Whether code in `scope` can see the entry. -/
def Entry.visibleFrom (e : Entry) (scope : Scope) : Bool :=
  e.scope.level ≤ scope.level && e.scope.namespaceLevel ≤ scope.namespaceLevel
    && (e.scope.namespaceLevel ≠ scope.namespaceLevel || e.scope.name = scope.name)

end SymbolTable

/-- The names that are declared, and the scope in which declarations happen. Entries of one name are
ordered by their namespace level and, within a level, by age. -/
structure SymbolTable where
  current : Scope := .root
  entries : List SymbolTable.Entry := []
deriving Inhabited, Repr

namespace SymbolTable

def enterScope (t : SymbolTable) : SymbolTable :=
  { t with current := { t.current with level := t.current.level + 1 } }

def enterNamespace (t : SymbolTable) (name : String) : SymbolTable :=
  { t with
    current :=
      { name := t.current.name ++ name ++ "::"
        level := t.current.level + 1
        namespaceLevel := t.current.namespaceLevel + 1 } }

/-- Closes a block and forgets its locals. Members of namespaces stay. -/
def leaveScope (t : SymbolTable) : SymbolTable :=
  { current := { t.current with level := t.current.level - 1 }
    entries := t.entries.filter fun e => !e.isLocalFrom t.current.level }

/-- The text up to and including the last `::` in `cs`. -/
def throughLastSeparator (cs : List Char) : Option (List Char) :=
  (Text.indexOf? [':', ':'] cs.reverse).map fun n => cs.take (cs.length - n)

/-- The path of the namespace around the one with the given path. Of a path without a separator
inside, only the first character is left. The path of the root has none. -/
def outerPath (path : String) : Except Fault String :=
  let inner := (Text.stripEnding "::" path).toList
  match throughLastSeparator inner, inner with
  | some outer, _ => pure (String.ofList outer)
  | none, first :: _ => pure (String.singleton first)
  | none, [] => throw .outOfRange

/-- Closes the innermost namespace. The root has none to close. -/
def leaveNamespace (t : SymbolTable) : Except Fault SymbolTable := do
  let name ← outerPath t.current.name
  return { t with
    current :=
      { name
        level := t.current.level - 1
        namespaceLevel := t.current.namespaceLevel - 1 } }

/-- Puts an entry behind the entries of its name that are at its namespace level or above it. -/
def insertEntry (new : Entry) : List Entry → List Entry
  | [] => [new]
  | e :: rest =>
    if e.name = new.name && e.scope.namespaceLevel > new.scope.namespaceLevel then new :: e :: rest
    else e :: insertEntry new rest

def add (t : SymbolTable) (new : Entry) : SymbolTable :=
  { t with entries := insertEntry new t.entries }

/-- The entries of a name, the innermost and youngest first. -/
def named (t : SymbolTable) (name : String) : List Entry :=
  (t.entries.filter (·.name = name)).reverse

/-- Looks a name up from `scope` outwards. With `exclusive` only symbols of exactly
that level count. -/
def find (t : SymbolTable) (name : String) (scope : Scope) (exclusive : Bool) : Symbol :=
  let seen := (t.named name).filter fun e =>
    e.visibleFrom scope && !(exclusive && e.scope.level < scope.level)
  match seen.find? (·.symbol.isValue) with
  | some e => e.symbol
  | none => seen.foldl (fun found e => if found.kind = .invalid then e.symbol else found) {}

/-- The namespaces from the root down to the one with path `full`, each with the rest of the path as
seen from it. `passed` is the part of the path in front, `rest` begins with a separator. -/
def pathSplits (passed rest : List Char) : Nat → List (String × String)
  | 0 => []
  | fuel + 1 =>
    let here := passed ++ rest.take 2
    let below := rest.drop 2
    (String.ofList here, String.ofList below) ::
      match Text.indexOf? [':', ':'] below with
      | none => []
      | some n => pathSplits (here ++ below.take n) (below.drop n) fuel

/-- Declares a symbol, unless its name is taken. A global symbol can be reached from every enclosing
namespace by its qualified name, for which the path has to begin with a separator. Only functions
can share a name within a scope. -/
def insert (t : SymbolTable) (name : String) (symbol : Symbol) (isGlobal : Bool) :
    Except Fault (Option SymbolTable) :=
  let path := t.current.name
  if symbol.kind ≠ .function && (t.find name t.current true).kind ≠ .invalid then pure none
  else if !isGlobal then pure (some (t.add { name, symbol, scope := t.current }))
  else if path.length < 2 then throw .outOfRange
  else
    let splits := pathSplits [] path.toList (path.length + 1)
    pure <| some <| splits.zipIdx.foldl (fun t ((here, below), i) =>
      let level := UInt32.ofNat i
      t.add { name := below ++ name, symbol,
              scope := { name := here, level, namespaceLevel := level } }) t

/-- The conversion ranks of the arguments, best first, unless an argument has no conversion. -/
def conversionRanks? (args : List Ty) (params : List Member) : Option (List UInt32) :=
  let ranks := (args.zip params).map fun (a, p) => a.rank p.type
  if ranks.contains 0 then none else some (ranks.mergeSort (· ≥ ·))

/-- Compares two lists of ranks by the first difference: the better list comes first. -/
def compareRanks : List UInt32 → List UInt32 → Ordering
  | x :: xs, y :: ys => if x > y then .lt else if y > x then .gt else compareRanks xs ys
  | _, _ => .eq

/-- Compares a candidate with the best one so far: `lt` if the candidate is the better match. -/
def compareOverloads (args : List Ty) (candidate : List Member) (best : Option (List Member)) :
    Ordering :=
  match best with
  | none => if (conversionRanks? args candidate).isSome then .lt else .gt
  | some best =>
    match conversionRanks? args candidate, conversionRanks? args best with
    | some a, some b => compareRanks a b
    | some _, none => .lt
    | none, some _ => .gt
    | none, none => .eq

/-- How far the choice between overloads has come. -/
structure Choice where
  symbol : Symbol := { kind := .function }
  best : Option (List Member) := none
  count : Nat := 0
  namespaceLevel : UInt32
deriving Inhabited

/-- Takes one user function into account. Without parameters it ends the search. -/
def considerFunction (args : List Ty) (e : Entry) (fn : FunctionDecl) (c : Choice) : Choice :=
  let symbol := { c.symbol with id := e.symbol.id, type := fn.returnType, function := some fn }
  match compareOverloads args fn.parameters c.best with
  | .lt =>
    { symbol, best := some fn.parameters, count := 1, namespaceLevel := e.scope.namespaceLevel }
  | .eq => if c.namespaceLevel = e.scope.namespaceLevel then { c with count := c.count + 1 } else c
  | .gt => c

/-- Goes through the user functions, innermost first. -/
def chooseFunction (args : List Ty) (scope : Scope) : List Entry → Choice → Choice
  | [], c => c
  | e :: rest, c =>
    if e.scope.level > scope.level || e.scope.namespaceLevel > scope.namespaceLevel
        || e.symbol.kind ≠ .function then chooseFunction args scope rest c
    else
      match e.symbol.function with
      | none => chooseFunction args scope rest c
      | some fn =>
        if fn.parameters.isEmpty && args.isEmpty then
          { c with
            symbol :=
              { c.symbol with id := e.symbol.id, type := fn.returnType, function := some fn }
            count := 1 }
        else if fn.parameters.length ≠ args.length then chooseFunction args scope rest c
        else chooseFunction args scope rest (considerFunction args e fn c)

/-- Takes one built-in function into account. -/
def considerIntrinsic (args : List Ty) (c : Choice) (o : Intrinsic.Overload) : Choice :=
  match compareOverloads args o.decl.parameters c.best with
  | .lt =>
    { c with
      symbol :=
        { kind := .intrinsic, intrinsic := some o.variant, type := o.decl.returnType,
          function := some o.decl }
      best := some o.decl.parameters
      count := 1 }
  | .eq => if c.namespaceLevel = 0 then { c with count := c.count + 1 } else c
  | .gt => c

/-- The result of resolving a call. -/
structure Resolution where
  symbol : Symbol
  ok : Bool
  ambiguous : Bool
deriving Inhabited

/-- Picks the best overload for a call, first among user functions and then among built-in ones. -/
def resolveCall (t : SymbolTable) (name : String) (args : List Ty) (scope : Scope) : Resolution :=
  let users := chooseFunction args scope (t.named name) { namespaceLevel := scope.namespaceLevel }
  let chosen :=
    if users.count = 0 then
      (Intrinsic.overloads.filter fun o =>
        o.decl.name = name && o.decl.parameters.length = args.length).foldl
          (considerIntrinsic args) users
    else users
  { symbol := chosen.symbol, ok := chosen.count = 1, ambiguous := chosen.count > 1 }

end SymbolTable
end ShaderEffect

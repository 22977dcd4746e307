import Std.Data.HashMap
import ShaderEffect.Basic
import ShaderEffect.Generator
import ShaderEffect.Number.Decimal
import ShaderEffect.Source.Line
import ShaderEffect.Text

namespace ShaderEffect.Source

/-- How a name is given. -/
inductive Naming where
  /-- A name that is taken is made different. -/
  | general
  /-- The name is known to be different from all others. -/
  | unique
  /-- Code that is written wherever the id is used. -/
  | expression
deriving DecidableEq, Repr, Inhabited

/-- The names given to ids, and the names that are taken. -/
structure Namer where
  names : Std.HashMap Id String := {}
  taken : Std.HashMap String Unit := {}
deriving Inhabited

namespace Namer

/-- What is written for an id. -/
def name (n : Namer) (id : Id) : String :=
  (n.names[id]?).getD (plainName id)

def setName (n : Namer) (id : Id) (name : String) : Namer :=
  { n with names := n.names.insert id name }

/-- Gives a name to an id. Names that begin with an underscore are left to the generated ones;
others are escaped first. -/
def define (n : Namer) (escape : String → String) (naming : Naming) (id : Id) (name : String) :
    Namer :=
  if name = "" then n
  else if naming = .expression then n.setName id name
  else if Text.startsWith "_" name then n
  else
    let escaped := escape name
    let chosen :=
      if naming = .general && n.taken.contains escaped then escaped ++ plainName id else escaped
    { n.setName id chosen with taken := n.taken.insert chosen () }

end Namer

/-- Where a type is written. -/
inductive TypeRole where
  | plain | parameter | declaration | member
deriving DecidableEq, Repr, Inhabited

/-- The state of a generator. `dialect` is what the language itself needs. -/
structure State (δ : Type) where
  dialect : δ
  /-- Lines of the source are recorded. -/
  debugInfo : Bool := false
  /-- Scalar uniforms with an initial value become constants that the host can override. -/
  specConstants : Bool := false
  namer : Namer := {}
  globals : Array Line := #[]
  uniforms : Array Line := #[]
  /-- The code of the blocks that are not part of others yet. -/
  blocks : Table Id (Array Line) := []
  inFunction : Bool := false
  returnType : Ty := {}
deriving Inhabited

abbrev SourceM (δ : Type) := GenM (State δ)

/-- What sets one language apart from the others. -/
class Dialect (δ : Type) where
  target : Target
  /-- A name of the effect as a valid name. -/
  escape : String → String
  /-- The name of a scalar, vector or matrix type. -/
  numericName : Ty → String
  samplerName : String
  textureName : String
  /-- What stands in front of a type. -/
  modifiers : TypeRole → Ty → String
  /-- What stands behind something that has a semantic. -/
  semanticSuffix : String → String
  /-- What stands in front of a global variable. -/
  globalMark : String
  /-- What stands in front of a constant array, inside of a block and outside. -/
  constantMark : (inBlock : Bool) → String
  /-- The directive for a location, and the state behind it. -/
  lineDirective : δ → Location → String × δ
  /-- The lines that ask for something in front of a loop or a selection. -/
  attributes : (isLoop : Bool) → ControlHint → Lines
  /-- The state behind such lines. -/
  afterAttributes : δ → δ
  /-- Whether the bare declaration of a condition can be moved out of its loop. -/
  movesBareDeclarations : Bool

/-- How values are written. -/
class Literals (δ : Type) where
  literal : Ty → Constant → SourceM δ String

variable {δ : Type} [Dialect δ]

open Generator

def nameOf (id : Id) : SourceM δ String := do
  return (← getTarget).namer.name id

/-- Gives a name to an id. -/
def defineName (naming : Naming) (id : Id) (name : String) : SourceM δ Unit :=
  modifyTarget fun s => { s with namer := s.namer.define (Dialect.escape δ) naming id name }

def writeGlobal (ls : Lines) : SourceM δ Unit :=
  modifyTarget fun s => { s with globals := s.globals ++ ls }

/-- Writes lines to the current block, or between the functions. Code of a function that is in no
block is never run and is left out. -/
def write (ls : Lines) : SourceM δ Unit := do
  let block := (← get).currentBlock
  if block ≠ 0 then
    modifyTarget fun s =>
      { s with blocks := Table.set block (((Table.get? s.blocks block).getD #[]) ++ ls) s.blocks }
  else if !(← getTarget).inFunction then writeGlobal ls

/-- Writes one line of a statement. -/
def writeText (s : String) : SourceM δ Unit :=
  write [.text 1 s]

/-- The code of a block, which is forgotten. -/
def take (id : Id) : SourceM δ Lines := do
  let code := ((Table.get? (← getTarget).blocks id).getD #[]).toList
  modifyTarget fun s => { s with blocks := s.blocks.filter fun (other, _) => other ≠ id }
  return code

/-- The directive for a location, if locations are recorded. -/
def locationLines (location : Location) : SourceM δ Lines := do
  let s ← getTarget
  if !s.debugInfo || location.source = "" then return []
  let (line, dialect) := Dialect.lineDirective s.dialect location
  modifyTarget fun s => { s with dialect }
  return [.directive line]

def writeLocation (location : Location) : SourceM δ Unit := do
  write (← locationLines location)

def arraySuffix (t : Ty) : String :=
  if t.isArray then "[" ++ toString t.arrayLength ++ "]" else ""

/-- A type as it is written in a place. -/
def typeName (role : TypeRole) (t : Ty) : SourceM δ String := do
  let name ←
    match t.base with
    | .void => pure "void"
    | .bool | .int | .uint | .float => pure (Dialect.numericName δ t)
    | .struct => nameOf t.definition
    | .sampler => pure (Dialect.samplerName δ)
    | .texture => pure (Dialect.textureName δ)
    | .string | .function => throw (.inexpressibleType (Dialect.target δ) t.description)
  return Dialect.modifiers δ role t ++ name

/-- The modifiers that say which way a parameter goes. -/
def directionMark (t : Ty) : String :=
  if t.has .inout then "inout " else if t.has .input then "in "
    else if t.has .output then "out " else ""

/-- The modifiers in front of the type of a variable. -/
def preciseMark (t : Ty) : String :=
  if t.has .precise then "precise " else ""

/-- The words for interpolation, in the order in which they are written. -/
def interpolationMark (linear noperspective centroid nointerpolation : String) (t : Ty) : String :=
  String.join
    ([(Qualifiers.linear, linear), (Qualifiers.noperspective, noperspective),
      (Qualifiers.centroid, centroid), (Qualifiers.nointerpolation, nointerpolation)].filterMap
      fun (q, word) => if t.has q then some (word ++ " ") else none)

/-- The letter of a component. -/
def componentLetter (i : Nat) : Char :=
  match i % 4 with
  | 0 => 'x'
  | 1 => 'y'
  | 2 => 'z'
  | _ => 'w'

/-- The letters of a swizzle. -/
def swizzleText (lanes : List Int) : String :=
  String.ofList (lanes.map fun lane => componentLetter lane.toNat)

/-- The literals of the components of a value. -/
def laneTexts (special : Number.Single → Option String) (t : Ty) (c : Constant) : List String :=
  (List.range t.components.toNat).map fun i =>
    let lane := c.lanes.toList.getD i 0
    match t.base with
    | .bool => if lane ≠ 0 then "true" else "false"
    | .int => toString lane.toInt32.toInt
    | .uint => toString lane.toNat ++ "u"
    | _ => (special ⟨lane⟩).getD (Number.Single.literal ⟨lane⟩)

/-- Arguments in parentheses behind something. -/
def callText (callee : String) (args : List String) : String :=
  callee ++ "(" ++ Text.join ", " args ++ ")"

/-- The literal of a scalar, vector or matrix. -/
def numericLiteral (special : Number.Single → Option String) (typeName : String) (t : Ty)
    (c : Constant) :
    String :=
  match laneTexts special t c with
  | [lane] => lane
  | lanes => callText typeName lanes

/-- The constants of the elements of an array. Elements that are not given are zero. -/
def elementsOf (t : Ty) (c : Constant) : Except Fault (List Constant) :=
  if t.arrayLength < 0 then throw .outOfRange
  else
    let n := t.arrayLength.toNat
    let zero : Constant := {}
    pure (c.elements.take n ++ List.replicate (n - c.elements.length) zero)

/-- Declares a value under a new id, at a location. -/
def declare (location : Location) (t : Ty) (value : String) : SourceM δ Id := do
  let id ← makeId
  let mark ← locationLines location
  let type ← typeName .plain t
  write (mark ++ [{ content := .declaration type id (arraySuffix t) (some value) }])
  return id

end ShaderEffect.Source

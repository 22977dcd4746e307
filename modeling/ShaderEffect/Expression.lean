import ShaderEffect.Constant
import ShaderEffect.Diagnostic

namespace ShaderEffect

/-- One access applied to a value. Lanes of a matrix are numbered row by row, four to a row. -/
inductive Access where
  | cast (source target : Ty)
  | member (source target : Ty) (index : UInt32)
  | dynamicIndex (source target : Ty) (index : Id)
  | constantIndex (source target : Ty) (index : UInt32)
  | swizzle (source target : Ty) (lanes : List Int)
deriving DecidableEq, Repr

namespace Access

def source : Access → Ty
  | cast s _ | member s _ _ | dynamicIndex s _ _ | constantIndex s _ _ | swizzle s _ _ => s

def target : Access → Ty
  | cast _ t | member _ t _ | dynamicIndex _ t _ | constantIndex _ t _ | swizzle _ t _ => t

end Access

/-- A value that is not loaded yet. `value` is only meaningful while `isConstant` holds. -/
structure Expression where
  base : Id := 0
  type : Ty := {}
  value : Constant := {}
  isLvalue : Bool := false
  isConstant : Bool := false
  location : Location := {}
  chain : List Access := []
deriving Inhabited, Repr

namespace Expression

/-- The variable `base`. A uniform is owned by the host and cannot be assigned. -/
def toLvalue (e : Expression) (location : Location) (base : Id) (t : Ty) : Expression :=
  { e with
    base, location
    type := if t.has .uniform then t.readOnly else t
    isLvalue := true, isConstant := false, chain := [] }

/-- The computed value `base`. -/
def toRvalue (e : Expression) (location : Location) (base : Id) (t : Ty) : Expression :=
  { e with
    base, location
    type := t.readOnly
    isLvalue := false, isConstant := false, chain := [] }

/-- The constant `value` of type `t`. -/
def ofConstant (location : Location) (value : Constant) (t : Ty) : Expression :=
  { location, value, type := t.readOnly, isConstant := true }

def ofBool (location : Location) (b : Bool) : Expression :=
  ofConstant location (.ofWord (truth b)) (.scalar .bool)

def ofInt (location : Location) (w : UInt32) : Expression :=
  ofConstant location (.ofWord w) (.scalar .int)

def ofWord (location : Location) (w : UInt32) : Expression :=
  ofConstant location (.ofWord w) (.scalar .uint)

def ofSingle (location : Location) (x : Number.Single) : Expression :=
  ofConstant location (.ofWord x.bits) (.scalar .float)

def ofText (location : Location) (text : String) : Expression :=
  ofConstant location { text } { base := .string }

/-- Appends an access, after which the expression has the given type. -/
def push (e : Expression) (a : Access) : Expression :=
  { e with chain := e.chain ++ [a], type := a.target }

/-- The lane number a swizzle selects in the storage of a type. -/
def storageLane (t : Ty) (lane : Int) : Int :=
  if t.isMatrix then lane.tdiv 4 * t.cols.toNat + lane.tmod 4 else lane

/-- Reorders lanes of a vector or matrix; the result has `length` components. -/
def addSwizzle (e : Expression) (lanes : List Int) (length : UInt32) : Except Fault Expression := do
  let source := e.type
  let target := { source with rows := length, cols := 1 }
  if e.isConstant then
    if lanes.length < length.toNat then throw .outOfRange
    let picked ← (lanes.take length.toNat).mapM fun lane =>
      e.value.lanes.get? (storageLane source lane)
    return { e with type := target, value := { lanes := Lanes.ofList picked } }
  if length = 1 && source.isVector then
    return e.push (.constantIndex source target (UInt32.ofInt (lanes.headD (-1))))
  return e.push (.swizzle source target lanes)

/-- The lanes that turn a vector of `source` rows into one of `target` rows: the last lane is
repeated or the surplus dropped. -/
def resizeLanes (source target : UInt32) : Except Fault (List Int) :=
  if source < target then
    if source = 0 || target > 4 then throw .outOfRange
    else
      pure ((List.range source.toNat).map Int.ofNat
        ++ List.replicate (target - source).toNat (source.toNat - 1 : Int))
  else pure ((List.range (min target.toNat 4)).map Int.ofNat)

/-- Converts to `t`. A change of the component count between scalars and vectors becomes a swizzle;
constants are converted in place. -/
def addCast (e : Expression) (t : Ty) : Except Fault Expression := do
  let e ←
    if e.type.cols = 1 && t.cols = 1 && e.type.rows ≠ t.rows && e.type.isNumeric
      && !e.type.isArray then
      e.addSwizzle (← resizeLanes e.type.rows t.rows) t.rows
    else pure e
  if e.type.same t then return e
  if e.isConstant then
    let value ← e.value.convert e.type t
    return { e with value, type := t.readOnly }
  return { e.push (.cast e.type t) with type := t.readOnly }

/-- Selects a member of a structure. -/
def addMember (e : Expression) (index : UInt32) (t : Ty) : Expression :=
  { e.push (.member e.type t index) with isConstant := false }

/-- The value an index selects from a constant. Elements beyond the end of the
initializer are zero. -/
def constantAt (t : Ty) (value : Constant) (index : UInt32) : Except Fault Constant :=
  if t.isArray then pure (value.elements.getD index.toNat {})
  else if t.isMatrix then do
    if t.cols > 16 then throw .outOfRange
    let row ← (List.range t.cols.toNat).mapM fun i =>
      value.lanes.get? (index * t.cols + UInt32.ofNat i).toNat
    pure { lanes := Lanes.ofList row }
  else pure (.ofWord (value.lanes.toList.getD (index &&& 15).toNat 0))

/-- Selects an array element, matrix row or vector lane. -/
def addConstantIndex (e : Expression) (index : UInt32) : Except Fault Expression := do
  if e.isConstant then
    return { e with value := ← constantAt e.type e.value index, type := e.type.indexed }
  return e.push (.constantIndex e.type e.type.indexed index)

/-- Selects with a value known at run time only. -/
def addDynamicIndex (e : Expression) (index : Id) : Expression :=
  { e.push (.dynamicIndex e.type e.type.indexed index) with isConstant := false }

/-- Folds a unary operation into a constant. Other expressions give nothing. -/
def foldUnary? (e : Expression) (op : UnaryOp) : Except Fault (Option Expression) := do
  if !e.isConstant then return none
  return some { e with value := ← e.value.foldUnary op e.type }

/-- Folds a binary operation with a constant of the same type into a constant. Comparisons
give truth values. -/
def foldBinary? (e : Expression) (op : BinaryOp) (r : Constant) :
    Except Fault (Option Expression) := do
  if !e.isConstant then return none
  match ← e.value.foldBinary op e.type r with
  | none => return none
  | some value =>
    let type := if op.isComparison then { e.type with base := .bool } else e.type
    return some { e with value, type }

end Expression
end ShaderEffect

import ShaderEffect.Basic
import ShaderEffect.Number.Single
import ShaderEffect.Operator
import ShaderEffect.Ty

/-!
Compile-time values and their folding.

A value has sixteen 32-bit lanes, which its type reads as truth values, integers or floats. The
lanes of a matrix are its rows, one after the other. A type with more components than lanes selects
a lane out of range.
-/
namespace ShaderEffect

abbrev Lanes := Vector UInt32 16

namespace Lanes

def zero : Lanes := Vector.replicate 16 0

/-- Replaces the first `n` lanes. -/
def mapFirst (n : UInt32) (f : Nat → UInt32 → UInt32) (lanes : Lanes) : Except Fault Lanes :=
  if n > 16 then throw .outOfRange
  else pure (lanes.mapIdx fun i x => if i < n.toNat then f i x else x)

/-- A lane by its number. -/
def get? (lanes : Lanes) (i : Int) : Except Fault UInt32 :=
  if 0 ≤ i then
    match lanes[i.toNat]? with
    | some x => pure x
    | none => throw .outOfRange
  else throw .outOfRange

/-- The lanes whose front is the given list, the rest being zero. -/
def ofList (xs : List UInt32) : Lanes :=
  Vector.ofFn fun i => xs.getD i.val 0

end Lanes

/-- A compile-time value. Arrays keep one value per element. -/
structure Constant where
  lanes : Lanes := Lanes.zero
  text : String := ""
  elements : List Constant := []
deriving Inhabited, Repr

/-- The lane of a truth value. -/
def truth (b : Bool) : UInt32 :=
  if b then 1 else 0

namespace Constant

/-- The value with one lane. -/
def ofWord (w : UInt32) : Constant :=
  { lanes := Lanes.ofList [w] }

/-- The first lane. -/
def word (c : Constant) : UInt32 :=
  c.lanes[0]

mutual

/-- Whether every lane, text and element is zero. -/
def isZero : Constant → Bool
  | ⟨lanes, text, elements⟩ => lanes.all (· == 0) && allZero elements && text == ""

/-- Whether every constant of the list is zero. -/
def allZero : List Constant → Bool
  | [] => true
  | c :: cs => c.isZero && allZero cs

end

/-- The lane of one component after conversion from one numeric type to another. Integers of either
sign share their bit pattern. -/
def convertLane (source target : Ty) (lane : UInt32) : UInt32 :=
  let value : Number.Single := ⟨lane⟩
  if target.isBoolean then truth (if source.isFloat then !value.isZero else lane != 0)
  else if source.isFloat = target.isFloat then lane
  else if target.isFloat then
    (Number.Single.ofInt (if source.base = .uint then lane.toNat else lane.toInt32.toInt)).bits
  else if target.base = .uint then value.toWord
  else UInt32.ofInt value.toInt

/-- Converts the lanes from one numeric type to another. A scalar fills every component. -/
def convertLanes (source target : Ty) (lanes : Lanes) : Except Fault Lanes := do
  let n := target.components
  let lanes ←
    if source.isScalar && !target.isScalar then lanes.mapFirst n fun _ _ => lanes[0] else pure lanes
  if !target.isBoolean && source.isFloat = target.isFloat then pure lanes
  else lanes.mapFirst n fun _ => convertLane source target

/-- Converts a value from one type to another, element by element for arrays. -/
def convert (source target : Ty) (c : Constant) : Except Fault Constant := do
  let elements ← c.elements.mapM fun e => do
    let lanes ← convertLanes source.element target.element e.lanes
    pure { e with lanes }
  let lanes ← convertLanes source target c.lanes
  pure { c with lanes, elements }

/-- The lane of a unary operation. -/
def unaryLane (op : UnaryOp) (t : Ty) (x : UInt32) : UInt32 :=
  match op with
  | .not => truth (x = 0)
  | .complement => ~~~x
  | .negate => if t.isFloat then (Number.Single.neg ⟨x⟩).bits else 0 - x

/-- Applies a unary operation to every component. -/
def foldUnary (op : UnaryOp) (t : Ty) (c : Constant) : Except Fault Constant := do
  let lanes ← c.lanes.mapFirst t.components fun _ => unaryLane op t
  pure { c with lanes }

/-- Whether the order `op` holds, given the three relations of a component type. -/
def compareWith (op : BinaryOp) (lt le eq : Bool) (gt ge : Bool) : Bool :=
  match op with
  | .less => lt
  | .lessEqual => le
  | .greater => gt
  | .greaterEqual => ge
  | .equal => eq
  | _ => !eq

/-- The lane of a comparison. -/
def compareLane (op : BinaryOp) (t : Ty) (x y : UInt32) : UInt32 :=
  truth <|
    if t.isFloat then
      let a : Number.Single := ⟨x⟩
      let b : Number.Single := ⟨y⟩
      compareWith op (a.lt b) (a.le b) (a.eq b) (b.lt a) (b.le a)
    else if t.isSigned then
      let a := x.toInt32
      let b := y.toInt32
      compareWith op (a < b) (a ≤ b) (a = b) (a > b) (a ≥ b)
    else compareWith op (x < y) (x ≤ y) (x = y) (x > y) (x ≥ y)

/-- The lane of an arithmetic, bitwise or logical operation. -/
def binaryLane (op : BinaryOp) (t : Ty) (x y : UInt32) : UInt32 :=
  let a : Number.Single := ⟨x⟩
  let b : Number.Single := ⟨y⟩
  match op with
  | .add => if t.isFloat then (a.add b).bits else x + y
  | .sub => if t.isFloat then (a.sub b).bits else x - y
  | .mul => if t.isFloat then (a.mul b).bits else x * y
  | .div =>
    if t.isFloat then (a.div b).bits
    else if t.isSigned then (x.toInt32 / y.toInt32).toUInt32
    else x / y
  | .rem =>
    if t.isFloat then (a.rem b).bits
    else if t.isSigned then (x.toInt32 % y.toInt32).toUInt32
    else x % y
  | .bitAnd | .and => x &&& y
  | .bitOr | .or => x ||| y
  | .bitXor => x ^^^ y
  | .shiftLeft => x <<< (y &&& 31)
  | .shiftRight =>
    if t.isSigned then (x.toInt32 >>> (y &&& 31).toInt32).toUInt32 else x >>> (y &&& 31)
  | .less | .lessEqual | .greater | .greaterEqual | .equal | .notEqual => compareLane op t x y

/-- Whether one of the first `n` lanes is zero. Running out of lanes before one is found is a
selection out of range. -/
def hasZeroLane (n : UInt32) (lanes : Lanes) : Except Fault Bool :=
  if (lanes.toList.take n.toNat).any (· == 0) then pure true
  else if n > 16 then throw .outOfRange
  else pure false

/-- Applies a binary operation to every component of two values of the same type. An integer
division by zero is left to run time and gives nothing. -/
def foldBinary (op : BinaryOp) (t : Ty) (l r : Constant) : Except Fault (Option Constant) := do
  let divides := op = .div || op = .rem
  if divides && !t.isFloat && (← hasZeroLane t.components r.lanes) then return none
  let lanes ← l.lanes.mapFirst t.components fun i x => binaryLane op t x (r.lanes.toList.getD i 0)
  return some { l with lanes }

/-- The value of type `t` whose components are all one. -/
def ones (t : Ty) : Except Fault Constant := do
  let one : UInt32 := if t.isFloat then Number.Single.one.bits else 1
  let lanes ← Lanes.zero.mapFirst t.components fun _ _ => one
  pure { lanes }

end Constant
end ShaderEffect

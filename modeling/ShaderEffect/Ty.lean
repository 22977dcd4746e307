namespace ShaderEffect

/-- A name for a value, block, variable or declaration inside one generated module. -/
abbrev Id := UInt32

namespace Id

/-- The id of names that stand in for a failed declaration. -/
def invalid : Id := 0xffffffff

end Id

/-- A set of modifiers, one bit each. -/
abbrev Qualifiers := UInt32

namespace Qualifiers

def external : Qualifiers := 0x1
def static : Qualifiers := 0x2
def uniform : Qualifiers := 0x4
def volatile : Qualifiers := 0x8
def precise : Qualifiers := 0x10
def input : Qualifiers := 0x20
def output : Qualifiers := 0x40
def inout : Qualifiers := input ||| output
def const : Qualifiers := 0x100
def linear : Qualifiers := 0x400
def noperspective : Qualifiers := 0x800
def centroid : Qualifiers := 0x1000
def nointerpolation : Qualifiers := 0x2000

/-- The modifiers that say how a value is interpolated between shader stages. -/
def interpolation : Qualifiers := linear ||| noperspective ||| centroid ||| nointerpolation

end Qualifiers

/-- What the components of a type are. The order is that of promotion. -/
inductive Base where
  | void | bool | int | uint | float | string | struct | sampler | texture | function
deriving DecidableEq, Repr, Inhabited, Hashable

namespace Base

def name : Base → String
  | void => "void" | bool => "bool" | int => "int" | uint => "uint" | float => "float"
  | string => "string" | struct => "struct" | sampler => "sampler2D" | texture => "texture2D"
  | function => "function"

/-- The place of a base in the order of promotion. -/
def order (b : Base) : Nat :=
  b.ctorIdx

/-- The later of two bases in the order of promotion. -/
def merge (a b : Base) : Base :=
  if a.order < b.order then b else a

end Base

/-- A type. Scalars are 1x1, vectors Nx1 and matrices NxM. The array length is 0 for no array and -1
for an array whose length is not known yet. -/
structure Ty where
  base : Base := .void
  rows : UInt32 := 0
  cols : UInt32 := 0
  qualifiers : Qualifiers := 0
  arrayLength : Int := 0
  definition : Id := 0
deriving DecidableEq, Repr, Inhabited

namespace Ty

def matrix (base : Base) (rows cols : UInt32) : Ty :=
  { base, rows, cols }

def vector (base : Base) (rows : UInt32) : Ty :=
  matrix base rows 1

def scalar (base : Base) : Ty :=
  matrix base 1 1

/-- Whether all the given modifiers are present. -/
def has (t : Ty) (q : Qualifiers) : Bool :=
  t.qualifiers &&& q = q

def isArray (t : Ty) : Bool := t.arrayLength ≠ 0
def isVector (t : Ty) : Bool := t.rows > 1 && t.cols = 1
def isMatrix (t : Ty) : Bool := t.rows ≥ 1 && t.cols > 1

def isNumeric (t : Ty) : Bool :=
  match t.base with
  | .bool | .int | .uint | .float => true
  | _ => false

def isScalar (t : Ty) : Bool := !t.isArray && !t.isMatrix && !t.isVector && t.isNumeric

/-- Whether the type is a scalar, a vector or a matrix. -/
def isBasic (t : Ty) : Bool := t.isScalar || t.isVector || t.isMatrix

def isSigned (t : Ty) : Bool := t.base = .int || t.base = .float
def isVoid (t : Ty) : Bool := t.base = .void
def isBoolean (t : Ty) : Bool := t.base = .bool

def isIntegral (t : Ty) : Bool :=
  match t.base with
  | .bool | .int | .uint => true
  | _ => false

def isFloat (t : Ty) : Bool := t.base = .float
def isStruct (t : Ty) : Bool := t.base = .struct
def isTexture (t : Ty) : Bool := t.base = .texture
def isSampler (t : Ty) : Bool := t.base = .sampler
def isFunction (t : Ty) : Bool := t.base = .function

/-- A matrix with a single row, which every target stores as a vector. -/
def isRow (t : Ty) : Bool := t.rows = 1 && t.cols > 1

/-- The number of components of one element. -/
def components (t : Ty) : UInt32 := t.rows * t.cols

/-- Whether two types differ at most in their modifiers. -/
def same (t o : Ty) : Bool :=
  t.base = o.base && t.rows = o.rows && t.cols = o.cols && t.arrayLength = o.arrayLength
    && t.definition = o.definition

/-- The type without its array dimension. -/
def element (t : Ty) : Ty := { t with arrayLength := 0 }

/-- The type without modifiers. -/
def plain (t : Ty) : Ty := { t with qualifiers := 0 }

def withQualifiers (t : Ty) (q : Qualifiers) : Ty := { t with qualifiers := t.qualifiers ||| q }

/-- The type of a read-only value. -/
def readOnly (t : Ty) : Ty := t.withQualifiers .const

/-- The spelling of a type in diagnostics. -/
def description (t : Ty) : String :=
  let shape :=
    if t.isNumeric then
      (if t.rows > 1 || t.cols > 1 then toString t.rows.toNat else "")
        ++ (if t.cols > 1 then "x" ++ toString t.cols.toNat else "")
    else ""
  let array :=
    if t.isArray then "[" ++ (if t.arrayLength > 0 then toString t.arrayLength else "")
      ++ "]" else ""
  t.base.name ++ shape ++ array

/-- The type of one row, lane or element selected by an index. -/
def indexed (t : Ty) : Ty :=
  if t.isArray then t.element
  else if t.isMatrix then { t with rows := t.cols, cols := 1 }
  else if t.isVector then { t with rows := 1 }
  else t

/-- The type both operands of a binary operation are converted to. A scalar takes the shape of the
other side, otherwise the larger side is cut to the smaller one. -/
def merge (l r : Ty) : Ty :=
  let base := l.base.merge r.base
  let qualifiers := (l.qualifiers ||| r.qualifiers) &&& Qualifiers.precise
  if (l.rows = 1 && l.cols = 1) || (r.rows = 1 && r.cols = 1) then
    { base, qualifiers, rows := max l.rows r.rows, cols := max l.cols r.cols }
  else { base, qualifiers, rows := min l.rows r.rows, cols := min l.cols r.cols }

/-- How good the conversion of a component is. Conversions to wider types rank above those to
narrower ones. -/
def baseRank : Base → Base → UInt32
  | .bool, .bool => 5
  | .bool, _ => 4
  | .int, .int => 5
  | .int, .bool => 3
  | .int, .uint => 2
  | .int, _ => 4
  | .uint, .uint => 5
  | .uint, .bool => 3
  | .uint, .int => 1
  | .uint, _ => 4
  | .float, .float => 6
  | _, _ => 3

/-- How good the implicit conversion from `src` to `dst` is. Higher is better, 0
means there is none. -/
def rank (src dst : Ty) : UInt32 :=
  if src.isArray != dst.isArray
      || (src.arrayLength ≠ dst.arrayLength && src.arrayLength > 0 && dst.arrayLength > 0) then 0
  else if src.isStruct || dst.isStruct then if src.definition = dst.definition then 32 else 0
  else if !src.isNumeric || !dst.isNumeric then if src.base = dst.base then 32 else 0
  else
    let rank := baseRank src.base dst.base <<< 2
    if src.isScalar && dst.isVector then rank >>> 1
    else if (src.isVector && dst.isScalar)
        || (src.isVector == dst.isVector && src.rows > dst.rows && src.cols ≥ dst.cols) then
      rank >>> 2
    else if src.isVector != dst.isVector || src.isMatrix != dst.isMatrix
        || src.components ≠ dst.components then 0
    else rank * src.components

end Ty
end ShaderEffect

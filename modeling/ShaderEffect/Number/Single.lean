/-!
Binary floating point formats, handled exactly.

Every finite value of a format is a whole number of *units*, the unit being the least subnormal. A
magnitude is the bit pattern without its sign, and magnitudes are ordered like the values they stand
for, so rounding a fraction of units is one integer division and one addition.

Arithmetic of single precision values is on their bit patterns. Each operation computes the exact
result in units and rounds once. An operation without a result, such as the difference of two
infinities, gives the negative quiet NaN; a NaN operand is passed on with its quiet bit set.
-/
namespace ShaderEffect.Number

/-- The field widths of a binary interchange format. -/
structure Format where
  fraction : Nat
  exponent : Nat
deriving DecidableEq, Repr

namespace Format

def single : Format := ⟨23, 8⟩

def double : Format := ⟨52, 11⟩

/-- The unit of the format is `2 ^ -f.place`. -/
def place (f : Format) : Nat :=
  (1 <<< (f.exponent - 1)) - 1 + f.fraction - 1

/-- The magnitude of infinity. -/
def infinity (f : Format) : Nat :=
  ((1 <<< f.exponent) - 1) <<< f.fraction

/-- The bit that holds the sign. -/
def signBit (f : Format) : Nat :=
  1 <<< (f.fraction + f.exponent)

/-- The number of units a finite magnitude stands for. -/
def units (f : Format) (magnitude : Nat) : Nat :=
  let e := magnitude >>> f.fraction
  let m := magnitude % (1 <<< f.fraction)
  if e = 0 then m else ((1 <<< f.fraction) + m) <<< (e - 1)

/-- The number of binary digits of `n`. -/
def width (n : Nat) : Nat :=
  if n = 0 then 0 else n.log2 + 1

/-- The magnitude nearest to `num / den` units, ties to the even one. What lies beyond the largest
finite magnitude becomes infinity. -/
def round (f : Format) (num den : Nat) : Nat :=
  let shift := width (num / den) - (f.fraction + 1)
  let step := den <<< shift
  let floor := num / step
  let twice := 2 * (num % step)
  let nearest := if twice > step || (twice = step && floor % 2 = 1) then floor + 1 else floor
  min ((shift <<< f.fraction) + nearest) f.infinity

end Format

/-- A single precision value as its bit pattern. -/
structure Single where
  bits : UInt32
deriving DecidableEq, Repr, Inhabited

namespace Single

def magnitude (x : Single) : Nat :=
  x.bits.toNat % Format.single.signBit

def isNegative (x : Single) : Bool :=
  x.bits.toNat ≥ Format.single.signBit

def isNaN (x : Single) : Bool :=
  x.magnitude > Format.single.infinity

def isInfinite (x : Single) : Bool :=
  x.magnitude = Format.single.infinity

/-- The value with the given sign and magnitude. -/
def ofMagnitude (negative : Bool) (magnitude : Nat) : Single :=
  ⟨UInt32.ofNat (magnitude + if negative then Format.single.signBit else 0)⟩

def zero : Single := ⟨0⟩

def one : Single := ⟨0x3f800000⟩

/-- The largest finite value. -/
def largest : Single := ⟨0x7f7fffff⟩

/-- The result of an operation that has none. -/
def invalid : Single := ⟨0xffc00000⟩

/-- A NaN operand as the result of an operation. -/
def quiet (x : Single) : Single :=
  ⟨x.bits ||| 0x00400000⟩

/-- The number of units of a finite value, without its sign. -/
def units (x : Single) : Nat :=
  Format.single.units x.magnitude

/-- The signed number of units of a finite value. -/
def signedUnits (x : Single) : Int :=
  if x.isNegative then -(x.units : Int) else x.units

/-- The value nearest to `num / den` units, with the given sign. -/
def round (negative : Bool) (num den : Nat) : Single :=
  ofMagnitude negative (Format.single.round num den)

def neg (x : Single) : Single :=
  ⟨x.bits ^^^ 0x80000000⟩

/-- Applies `f` unless an operand is a NaN. -/
def onNumbers (x y : Single) (f : Single) : Single :=
  if x.isNaN then x.quiet else if y.isNaN then y.quiet else f

def add (x y : Single) : Single :=
  onNumbers x y <|
    if x.isInfinite then
      if y.isInfinite && x.isNegative != y.isNegative then invalid else x
    else if y.isInfinite then y
    else
      let sum := x.signedUnits + y.signedUnits
      if sum = 0 then ofMagnitude (x.isNegative && y.isNegative) 0
      else round (sum < 0) sum.natAbs 1

def sub (x y : Single) : Single :=
  if y.isNaN then onNumbers x y y.quiet else add x y.neg

def mul (x y : Single) : Single :=
  onNumbers x y <|
    let negative := x.isNegative != y.isNegative
    if x.isInfinite || y.isInfinite then
      if x.magnitude = 0 || y.magnitude = 0 then invalid
      else ofMagnitude negative Format.single.infinity
    else round negative (x.units * y.units) (1 <<< Format.single.place)

def div (x y : Single) : Single :=
  onNumbers x y <|
    let negative := x.isNegative != y.isNegative
    if x.isInfinite then
      if y.isInfinite then invalid else ofMagnitude negative Format.single.infinity
    else if y.isInfinite then ofMagnitude negative 0
    else if y.magnitude = 0 then
      if x.magnitude = 0 then invalid else ofMagnitude negative Format.single.infinity
    else round negative (x.units <<< Format.single.place) y.units

/-- The remainder of the truncating division, with the sign of the dividend. Without one the result
is the positive quiet NaN. -/
def rem (x y : Single) : Single :=
  if x.isNaN || y.isNaN || x.isInfinite || y.magnitude = 0 then ⟨0x7fc00000⟩
  else if y.isInfinite then x
  else round x.isNegative (x.units % y.units) 1

/-- The order of values that are not NaN: magnitudes with their sign, so both zeros are equal. -/
def rank (x : Single) : Int :=
  if x.isNegative then -(x.magnitude : Int) else x.magnitude

def lt (x y : Single) : Bool :=
  !x.isNaN && !y.isNaN && x.rank < y.rank

def le (x y : Single) : Bool :=
  !x.isNaN && !y.isNaN && x.rank ≤ y.rank

def eq (x y : Single) : Bool :=
  !x.isNaN && !y.isNaN && x.rank = y.rank

def isZero (x : Single) : Bool :=
  x.magnitude = 0

/-- The value nearest to an integer. -/
def ofInt (n : Int) : Single :=
  round (n < 0) (n.natAbs <<< Format.single.place) 1

/-- The integer part of a finite value. -/
def trunc (x : Single) : Int :=
  let n : Int := x.units >>> Format.single.place
  if x.isNegative then -n else n

/-- The integer part, held to the range of signed words. NaN gives 0. -/
def toInt (x : Single) : Int :=
  if x.isNaN then 0
  else if x.isInfinite then if x.isNegative then -0x80000000 else 0x7fffffff
  else max (-0x80000000) (min 0x7fffffff x.trunc)

/-- The integer part as an unsigned word. Large values give the largest word, negative ones the
two's complement of their signed integer part. -/
def toWord (x : Single) : UInt32 :=
  if x.isNaN || x.rank ≤ 0 then UInt32.ofInt x.toInt
  else if x.isInfinite then 0xffffffff
  else UInt32.ofNat (min 0xffffffff x.trunc.toNat)

end Single

end ShaderEffect.Number

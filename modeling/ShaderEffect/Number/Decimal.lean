import ShaderEffect.Number.Single
import ShaderEffect.Text

namespace ShaderEffect.Number

/-- The value `digits * 10 ^ exponent`. -/
structure Decimal where
  digits : Nat
  exponent : Int
deriving DecidableEq, Repr

namespace Decimal

/-- Reads digits with an optional point and an optional exponent, and nothing else. -/
def parse? (cs : List Char) : Option Decimal :=
  let whole := cs.takeWhile Text.isDigit
  let rest := cs.dropWhile Text.isDigit
  let (fraction, rest) :=
    match rest with
    | '.' :: more => (more.takeWhile Text.isDigit, more.dropWhile Text.isDigit)
    | _ => ([], rest)
  let digits := Text.digitsValue 10 (whole ++ fraction)
  if whole.isEmpty && fraction.isEmpty then none
  else
    match rest with
    | [] => some ⟨digits, -(fraction.length : Int)⟩
    | e :: more =>
      if e != 'e' && e != 'E' then none
      else
        let (negative, power) :=
          match more with
          | '-' :: p => (true, p)
          | '+' :: p => (false, p)
          | p => (false, p)
        if power.isEmpty || !power.all Text.isDigit then none
        else
          let n : Int := Text.digitsValue 10 power
          some ⟨digits, (if negative then -n else n) - fraction.length⟩

/-- The number of decimal digits of `n`. -/
def digitCount (n : Nat) : Nat :=
  (Nat.toDigits 10 n).length

/-- The magnitude of the format nearest to the value. Exponents far outside every format are cut
short, since the result no longer depends on them. -/
def toMagnitude (f : Format) (d : Decimal) : Nat :=
  if d.digits = 0 then 0
  else
    let lead := d.exponent + digitCount d.digits
    if lead > 400 then f.infinity
    else if lead < -400 then 0
    else if 0 ≤ d.exponent then f.round ((d.digits * Nat.pow 10 d.exponent.toNat) <<< f.place) 1
    else f.round (d.digits <<< f.place) (Nat.pow 10 d.exponent.natAbs)

/-- The bits of the nearest double precision value. -/
def toDouble (d : Decimal) : UInt64 :=
  UInt64.ofNat (d.toMagnitude Format.double)

end Decimal

/-- The single precision value nearest to a double precision one that is not a NaN. -/
def Single.ofDouble (bits : UInt64) : Single :=
  let magnitude := bits.toNat % Format.double.signBit
  let negative : Bool := bits.toNat ≥ Format.double.signBit
  if magnitude ≥ Format.double.infinity then Single.ofMagnitude negative Format.single.infinity
  else
    Single.round negative (Format.double.units magnitude)
      (1 <<< (Format.double.place - Format.single.place))

namespace Decimal

/-- `num / den` rounded to the nearest integer, a half upwards to even. -/
def nearest (num den : Nat) : Nat :=
  let floor := num / den
  let twice := 2 * (num % den)
  if twice > den || (twice = den && floor % 2 = 1) then floor + 1 else floor

/-- A positive fraction of units scaled so that one step of the decimal grid `10 ^ p` is 1. -/
def onGrid (f : Format) (units : Nat) (p : Int) : Nat × Nat :=
  if 0 ≤ p then (units, Nat.pow 10 p.toNat <<< f.place)
  else (units * Nat.pow 10 p.natAbs, 1 <<< f.place)

/-- The power of ten just above a positive number of units. -/
def leadPlace (f : Format) (units : Nat) : Int :=
  let whole := units >>> f.place
  if whole > 0 then digitCount whole
  else
    -- The value is below 1: the number of digits of its reciprocal gives the place.
    let inverse := ((1 <<< f.place) + units - 1) / units
    1 - (digitCount (inverse - 1) : Int)

/-- The multiple of `10 ^ p` nearest to a magnitude, if it reads back as that magnitude. -/
def readsBack? (f : Format) (magnitude : Nat) (p : Int) : Option Decimal :=
  let (num, den) := onGrid f (f.units magnitude) p
  let pick (n : Nat) : Option Decimal :=
    let d : Decimal := ⟨n, p⟩
    if d.toMagnitude f = magnitude then some d else none
  let n := nearest num den
  (pick n).or ((pick (num / den)).or (pick (num / den + 1)))

/-- The decimal with the fewest digits that reads back as the magnitude, and of
these the nearest. -/
def shortest (f : Format) (magnitude : Nat) : Decimal :=
  if magnitude = 0 then ⟨0, 0⟩
  else
    let lead := leadPlace f (f.units magnitude)
    let found := (List.range 18).findSome? (fun n : Nat => readsBack? f magnitude (lead - (n + 1)))
    found.getD ⟨0, 0⟩

/-- The significant digits without trailing zeros, and the place of the point counted from their
front. -/
def significand (d : Decimal) : List Char × Int :=
  let all := Nat.toDigits 10 d.digits
  let kept := (all.reverse.dropWhile (· = '0')).reverse
  if kept.isEmpty then (['0'], 1) else (kept, all.length + d.exponent)

end Decimal

/-- How a decimal is written: below which exponents and from which on the
scientific form is used. -/
structure NumeralStyle where
  leastPositional : Int
  positionalEnd : Int

/-- Writes the significand with one digit before the point and a signed exponent of at least two
digits. -/
def scientific (digits : List Char) (exponent : Int) : String :=
  let mantissa :=
    match digits with
    | [] => "0"
    | [d] => String.ofList [d]
    | d :: rest => String.ofList (d :: '.' :: rest)
  let power := Nat.toDigits 10 exponent.natAbs
  let padded := if power.length < 2 then '0' :: power else power
  mantissa ++ "e" ++ (if exponent < 0 then "-" else "+") ++ String.ofList padded

/-- Writes the digits with the point at `point` places from their front. -/
def positional (digits : List Char) (point : Int) : String :=
  if point ≤ 0 then
    String.ofList ('0' :: '.' :: List.replicate point.natAbs '0' ++ digits)
  else
    let n := point.toNat
    let whole := digits.take n ++ List.replicate (n - digits.length) '0'
    let fraction := digits.drop n
    if fraction.isEmpty then String.ofList whole
    else String.ofList (whole ++ '.' :: fraction)

/-- Scientific form from six digits before the point on, and below `0.0001`. -/
def NumeralStyle.general : NumeralStyle := ⟨-4, 6⟩

/-- Writes a decimal with a sign. -/
def NumeralStyle.render (style : NumeralStyle) (negative : Bool) (d : Decimal) : String :=
  let (digits, point) := d.significand
  let exponent := point - 1
  let body :=
    if exponent < style.leastPositional || exponent ≥ style.positionalEnd then
      scientific digits exponent
    else positional digits point
  if negative then "-" ++ body else body

/-- The fewest digits that read back as a finite value, always with a point or an exponent. -/
def Single.literal (x : Single) : String :=
  let s := NumeralStyle.general.render x.isNegative (Decimal.shortest Format.single x.magnitude)
  if s.toList.any (fun c => c = '.' || c = 'e') then s else s ++ ".0"

/-- The fewest digits that read back as a finite double precision value, given as its bits. -/
def doubleText (bits : UInt64) : String :=
  let negative : Bool := bits.toNat ≥ Format.double.signBit
  NumeralStyle.general.render negative
    (Decimal.shortest Format.double (bits.toNat % Format.double.signBit))

end ShaderEffect.Number

import ShaderEffect.Number.Decimal
import ShaderEffect.Text.Quoted
import ShaderEffect.Yaml.Timestamp

namespace ShaderEffect.Yaml

/-- What a scalar stands for. -/
inductive Scalar where
  | null
  | bool (b : Bool)
  | integer (n : Int)
  /-- The bits of a double precision value. -/
  | float (bits : UInt64)
  | text (s : String)
deriving DecidableEq, Repr, Inhabited

def nullWords : List String := ["null", "Null", "NULL", "~"]
def trueWords : List String := ["true", "True", "TRUE"]
def falseWords : List String := ["false", "False", "FALSE"]

/-- Words that other versions of the format take for truth values. -/
def legacyWords : List String :=
  ["y", "Y", "yes", "Yes", "YES", "n", "N", "no", "No", "NO", "on", "On", "ON", "off", "Off", "OFF"]

def infinityWords : List String := [".inf", ".Inf", ".INF"]
def minusInfinityWords : List String := ["-.inf", "-.Inf", "-.INF"]
def nanWords : List String := [".nan", ".NaN", ".NAN"]

/-- The bits of infinity with a sign. -/
def infinity (negative : Bool) : UInt64 :=
  let f := Number.Format.double
  UInt64.ofNat (f.infinity + if negative then f.signBit else 0)

/-- The bits of a value that is no number. -/
def notANumber : UInt64 :=
  UInt64.ofNat (Number.Format.double.infinity + (1 <<< (Number.Format.double.fraction - 1)))

/-- The digits of a numeral behind its radix mark, and the radix. -/
def radixOf (digits : List Char) (hasPoint : Bool) : Nat × List Char :=
  match digits with
  | '0' :: 'x' :: rest => (16, rest)
  | '0' :: 'o' :: rest => (8, rest)
  | '0' :: 'b' :: rest => (2, rest)
  | '0' :: c :: rest => if hasPoint then (10, digits) else (8, c :: rest)
  | _ => (10, digits)

/-- The value of digits in a radix, if there are any and all are digits of it. -/
def natural? (radix : Nat) (digits : List Char) : Option Nat :=
  if digits.isEmpty || !digits.all (fun c => Text.isHexDigit c && Text.hexValue c < radix) then none
  else some (Text.digitsValue radix digits)

/-- The bits of a double precision value with a sign. -/
def signedDouble (negative : Bool) (d : Number.Decimal) : UInt64 :=
  let sign := if negative then Number.Format.double.signBit else 0
  UInt64.ofNat (d.toDouble.toNat + sign)

/-- The bits of the double precision value of a numeral with an optional sign. -/
def double? (cs : List Char) : Option UInt64 :=
  match cs with
  | '-' :: digits => (Number.Decimal.parse? digits).map (signedDouble true)
  | '+' :: digits => (Number.Decimal.parse? digits).map (signedDouble false)
  | digits => (Number.Decimal.parse? digits).map (signedDouble false)

/-- The number that a text stands for. Underscores between digits mean nothing, and a numeral
without a point is an integer. -/
def number? (s : String) : Option Scalar :=
  let negative := Text.startsWith "-" s
  let body := (Text.stripBeginning? "+" s).getD s
  let body := (Text.stripBeginning? "-" body).getD body
  let digits := body.toList.filter (· ≠ '_')
  let points := s.toList.count '.'
  if Text.startsWith "_" s || points > 1 then none
  else
    match radixOf digits (points = 1) with
    | (10, digits) =>
      if points = 1 then (double? (if negative then '-' :: digits else digits)).map .float
      else (natural? 10 digits).map fun n => .integer (if negative then -n else n)
    | (radix, digits) => (natural? radix digits).map fun n => .integer (if negative then -n else n)

/-- Whether the magnitude of a double precision value is finite. -/
def isFinite (bits : UInt64) : Bool :=
  bits.toNat % Number.Format.double.signBit < Number.Format.double.infinity

/-- Whether a number can be held: an integer in 64 bits, with a sign if it is negative, and a finite
double precision value. -/
def Scalar.fits : Scalar → Bool
  | integer n => -0x8000000000000000 ≤ n && n < 0x10000000000000000
  | float bits => isFinite bits
  | _ => true

/-- What a plain scalar stands for. A number that cannot be held is a text. -/
def Scalar.ofPlain (s : String) : Scalar :=
  if s = "" || nullWords.contains s then .null
  else if trueWords.contains s then .bool true
  else if falseWords.contains s then .bool false
  else if infinityWords.contains s then .float (infinity false)
  else if minusInfinityWords.contains s then .float (infinity true)
  else if nanWords.contains s then .float notANumber
  else
    match number? s with
    | some v => if v.fits then v else .text s
    | none => .text s

/-- A double precision value as a text. -/
def doubleText (bits : UInt64) : String :=
  if isFinite bits then Number.doubleText bits
  else if bits = infinity false then "+Inf"
  else if bits = infinity true then "-Inf"
  else "NaN"

/-- A scalar as a text. Numbers are written anew, so that only their value counts. -/
def Scalar.asText : Scalar → String
  | null => ""
  | bool b => if b then "true" else "false"
  | integer n => toString n
  | float bits => doubleText bits
  | text s => s

/-- Characters with which no plain scalar is written. -/
def isIndicator (c : Char) : Bool :=
  ['*', '&', '[', '\x7b', '\x7d', ']', ',', '!', '|', '>', '%', '\x27', '\x22', '@', ' ',
    '\x60'].contains c

/-- Whether a text has characters inside that would end or change a plain scalar. -/
def breaksPlain : List Char → Bool
  | [] => false
  | c :: rest =>
    ((c = ':' || c = '-') && rest.head? = some ' ') || c = '#' || c = '\\' || breaksPlain rest

/-- Whether a text has to be quoted. -/
def needsQuotes (s : String) : Bool :=
  let cs := s.toList
  cs.isEmpty || nullWords.contains s || trueWords.contains s || falseWords.contains s
    || legacyWords.contains s || (number? s).isSome || s = "-"
    || (cs.head?.map isIndicator).getD false
    || cs.getLast? = some ':' || cs.getLast? = some ' '
    || Timestamp.isTimestamp s || breaksPlain cs

end ShaderEffect.Yaml

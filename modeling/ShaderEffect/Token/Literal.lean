import ShaderEffect.Number.Decimal
import ShaderEffect.Token.Kind

namespace ShaderEffect.Token

/-- A scanned numeric literal. -/
structure Numeral where
  kind : Kind
  length : Nat
  word : UInt32 := 0
  double : UInt64 := 0
deriving Repr

/-- The digits of a numeral: its radix, the bytes in front of them and the digits themselves. -/
structure NumeralDigits where
  radix : Nat
  lead : Nat
  digits : List Char
  isFloat : Bool
  rest : List Char

/-- Splits off the digits of a numeral. A leading zero selects octal and `0x` hexadecimal digits; a
point switches octal back to decimal. -/
def numeralDigits (cs : List Char) : NumeralDigits :=
  let plain (radix : Nat) : NumeralDigits :=
    let isRadixDigit (c : Char) : Bool := Text.isDigit c && Text.hexValue c < radix
    let whole := cs.takeWhile isRadixDigit
    match cs.dropWhile isRadixDigit with
    | '.' :: more =>
      let fraction := more.takeWhile Text.isDigit
      ⟨10, 0, whole ++ '.' :: fraction, true, more.dropWhile Text.isDigit⟩
    | rest => ⟨radix, 0, whole, false, rest⟩
  match cs with
  | '0' :: x :: more =>
    if x = 'x' || x = 'X' then
      ⟨16, 2, more.takeWhile Text.isHexDigit, false, more.dropWhile Text.isHexDigit⟩
    else plain 8
  | '0' :: [] => plain 8
  | _ => plain 10

/-- An exponent at the front of a text: its sign and digits, and what follows it. -/
def exponent? (cs : List Char) : Option (List Char × List Char) :=
  match cs with
  | [] => none
  | e :: more =>
    if e = 'e' || e = 'E' then
      let (sign, power) :=
        match more with
        | '-' :: p => (['-'], p)
        | '+' :: p => (['+'], p)
        | p => ([], p)
      let digits := power.takeWhile Text.isDigit
      if digits.isEmpty then none else some (sign ++ digits, power.dropWhile Text.isDigit)
    else none

/-- The double precision value of a floating point literal. Digits that are no decimal numeral,
which a hexadecimal literal with a suffix can have, count as zero. -/
def floatValue (digits exponent : List Char) : UInt64 :=
  let mantissa := if digits.isEmpty || digits = ['.'] then ['0'] else digits
  let text := if exponent.isEmpty then mantissa else mantissa ++ 'e' :: exponent
  match Number.Decimal.parse? text with
  | some d => d.toDouble
  | none => 0

/-- Scans the integer or floating point literal at the front of a text. -/
def scanNumeral (cs : List Char) : Numeral :=
  let d := numeralDigits cs
  let base : Kind := if d.isFloat then .floatLiteral else .intLiteral
  let length := d.lead + d.digits.length
  let (power, length, rest, kind) :=
    match (if d.radix = 10 then exponent? d.rest else none) with
    | some (power, rest) => (power, length + 1 + power.length, rest, Kind.floatLiteral)
    | none => ([], length, d.rest, base)
  let (kind, length) :=
    match rest with
    | [] => (kind, length)
    | s :: _ =>
      if s = 'f' || s = 'F' then (Kind.floatLiteral, length + 1)
      else if s = 'l' || s = 'L' then (Kind.doubleLiteral, length + 1)
      else if (s = 'u' || s = 'U') && kind = Kind.intLiteral then (Kind.uintLiteral, length + 1)
      else (kind, length)
  if kind = Kind.floatLiteral || kind = Kind.doubleLiteral then
    { kind, length, double := floatValue d.digits power }
  else
    { kind, length, word := UInt32.ofNat (Text.digitsValue d.radix d.digits) }

/-- Decodes the escape sequence behind a backslash: the byte it stands for and its length. A
backslash at the end of the text stands for itself. -/
def decodeEscape (cs : List Char) : Char × Nat :=
  let isOctal (c : Char) : Bool := '0' ≤ c && c ≤ '7'
  match cs with
  | [] => ('\\', 0)
  | c :: rest =>
    if isOctal c then
      let digits := (cs.take 3).takeWhile isOctal
      (Text.byte (Text.digitsValue 8 digits), digits.length)
    else
      match c with
      | 'a' => ('\x07', 1)
      | 'b' => ('\x08', 1)
      | 'f' => ('\x0c', 1)
      | 'n' => ('\n', 1)
      | 'r' => ('\r', 1)
      | 't' => ('\t', 1)
      | 'v' => ('\x0b', 1)
      | 'x' =>
        let digits := rest.takeWhile Text.isHexDigit
        if digits.isEmpty then ('x', 1)
        else (Text.byte (Text.digitsValue 16 digits), digits.length + 1)
      | _ => (c, 1)

/-- Scans a string literal from behind its opening quote: the decoded text and the number of bytes
up to and including the closing quote. A newline or the end of the text closes the literal too,
without being part of it. A backslash in front of a newline joins two lines. -/
def scanString (escape : Bool) (cs : List Char) : List Char × Nat :=
  match cs with
  | [] => ([], 0)
  | c :: rest =>
    if c = '\n' then ([], 0)
    else if c = '"' then ([], 1)
    else if c = '\\' && rest.head? = some '\n' then
      let (text, n) := scanString escape (rest.drop 1)
      (text, n + 2)
    else if c = '\\' && escape then
      let (decoded, k) := decodeEscape rest
      let (text, n) := scanString escape (rest.drop k)
      (decoded :: text, n + k + 1)
    else
      let (text, n) := scanString escape rest
      (c :: text, n + 1)
termination_by cs.length
decreasing_by
  all_goals simp only [List.length_cons, List.length_drop]; omega

end ShaderEffect.Token

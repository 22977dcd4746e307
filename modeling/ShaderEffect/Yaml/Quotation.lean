import ShaderEffect.Yaml.Token

/-!
Scalars in quotes.

A line break inside quotes stands for a blank, and each empty line after it for a line break.
Blanks around line breaks do not count. In single quotes a quote is written twice, in double
quotes a backslash starts an escape sequence. A tab in double quotes, unless the closing quote
follows it, takes the place of one more character, so that as many characters behind the closing
quote are skipped.
-/
namespace ShaderEffect.Yaml

/-- A scalar in quotes while it is read. -/
structure Quotation where
  /-- The characters so far, the last one first. -/
  value : List Char := []
  /-- Whether nothing but blanks was read since the last line break. -/
  freshLine : Bool := false
  /-- The place of the next character. -/
  place : Place
  /-- The column up to which lines have to be indented by blanks. -/
  delimiter : Nat
  /-- The number of characters to skip behind the closing quote. -/
  excess : Nat := 0

namespace Quotation

def skip (q : Quotation) (n : Nat) : Quotation :=
  { q with place := { q.place with column := q.place.column + n } }

def nextLine (q : Quotation) : Quotation :=
  { q with place := { line := q.place.line + 1, column := 1 }, freshLine := true }

def add (q : Quotation) (c : Char) : Quotation :=
  { q with value := c :: q.value, freshLine := false }

/-- Adds a line break. -/
def addLineBreak (q : Quotation) : Quotation :=
  let c := if q.freshLine then '\n' else ' '
  { q.nextLine with value := c :: q.value.dropWhile (· = ' ') }

/-- Reads a character that has no meaning of its own. Lines must not start with the mark of a
document, and must not be indented by tabs. -/
def read? (q : Quotation) (c : Char) (rest : List Char) : Option Quotation :=
  if isLineEnd c then if startsWithMarker rest then none else some q.addLineBreak
  else if q.freshLine && c = ' ' then some (q.skip 1)
  else if q.freshLine && c = '\t' then if q.delimiter ≥ q.place.column then none
    else some (q.skip 1)
  else some ((q.add c).skip 1)

/-- Reads a scalar in single quotes, from behind the opening quote to behind the closing one. -/
def readSingle (q : Quotation) : List Char → Option (Quotation × List Char)
  | [] => none
  | '\x27' :: '\x27' :: rest => readSingle ({ q with value := '\x27' :: q.value }.skip 2) rest
  | c :: rest =>
    if c = '\x27' then some (q.skip 1, rest)
    else
      match q.read? c rest with
      | none => none
      | some q => readSingle q rest

/-- The character of an escape sequence without digits. -/
def escaped? (c : Char) : Option Nat :=
  match c with
  | '0' => some 0
  | 'a' => some 7
  | 'b' => some 8
  | 't' => some 9
  | 'n' => some 10
  | 'v' => some 11
  | 'f' => some 12
  | 'r' => some 13
  | 'e' => some 0x1b
  | ' ' => some 0x20
  | '\x22' => some 0x22
  | '/' => some 0x2f
  | '\\' => some 0x5c
  | 'N' => some 0x85
  | '_' => some 0xa0
  | 'L' => some 0x2028
  | 'P' => some 0x2029
  | '\t' => some 9
  | _ => none

/-- The value of a digit of an escape sequence. Other characters count by their
distance from zero. -/
def digitValue (c : Char) : Int :=
  if Text.isHexDigit c then Text.hexValue c else (c.toNat : Int) - '0'.toNat

/-- The number that digits stand for. -/
def digitsNumber (cs : List Char) : Int :=
  cs.foldl (fun n c => n * 16 + digitValue c) 0

/-- The character with a number of 32 bits, or the replacement if there is none. -/
def character (n : Int) : Char :=
  let code := (n % 0x100000000).toNat
  if code.isValidChar then Char.ofNat code else Char.ofNat Text.replacement

/-- The character of an escape sequence with digits behind its letter, with their number. Two
sequences of four digits can give one character together. -/
def numbered? (c : Char) (rest : List Char) : Option (Char × Nat) :=
  if c = 'x' then
    if rest.length < 2 then some ('x', 0) else some (character (digitsNumber (rest.take 2)), 2)
  else if c = 'U' then
    if rest.length < 8 then none else some (character (digitsNumber (rest.take 8)), 8)
  else if c = 'u' then
    if rest.length < 4 then none
    else
      let high := digitsNumber (rest.take 4)
      if 0xd800 ≤ high && high ≤ 0xdbff then
        let low := digitsNumber ((rest.drop 6).take 4)
        if rest.length < 10 || (rest.drop 4).take 2 ≠ ['\\', 'u'] || low < 0xdc00
          || low > 0xdfff then none
        else some (character ((high - 0xd800) * 0x400 + (low - 0xdc00) + 0x10000), 10)
      else some (character high, 4)
  else none

/-- Reads a tab in double quotes, and gives the number of blanks behind it that do not count. At the
end of a line, none of them counts. -/
def readTab (q : Quotation) (rest : List Char) : Quotation × Nat :=
  let blanks := (rest.takeWhile isBlank).length
  let endsLine := ((rest.drop blanks).head?.map isLineEnd).getD true
  if endsLine then (q.skip (1 + blanks), blanks)
  else if rest.head? = some '\x22' then ((q.add '\t').skip 1, 0)
  else ({ q.add '\t' with excess := q.excess + 1 }.skip 2, 0)

/-- Reads a scalar in double quotes, from behind the opening quote to behind the closing one. -/
def readDouble (q : Quotation) (cs : List Char) : Option (Quotation × List Char) :=
  match cs with
  | [] => none
  | '\x22' :: rest => some (q.skip 1, rest)
  | ['\\'] => none
  | '\\' :: '\r' :: '\n' :: rest => readDouble q.nextLine rest
  | '\\' :: c :: rest =>
    if isLineEnd c then readDouble q.nextLine rest
    else
      match escaped? c with
      | some code => readDouble ((q.add (Char.ofNat code)).skip 2) rest
      | none =>
        match numbered? c rest with
        | none => none
        | some (character, n) => readDouble ((q.add character).skip (2 + n)) (rest.drop n)
  | c :: rest =>
    if c = '\t' && !q.freshLine then
      let (q, blanks) := q.readTab rest
      readDouble q (rest.drop blanks)
    else
      match q.read? c rest with
      | none => none
      | some q => readDouble q rest
termination_by cs.length
decreasing_by
  all_goals simp only [List.length_cons, List.length_drop]; omega

end Quotation
end ShaderEffect.Yaml

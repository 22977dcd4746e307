namespace ShaderEffect.Text

/-- White space inside a line. The newline is not part of it. -/
def isBlank (c : Char) : Bool :=
  c = ' ' || c = '\t' || c = '\r' || c = '\x0b' || c = '\x0c'

def isDigit (c : Char) : Bool :=
  '0' ≤ c && c ≤ '9'

def isHexDigit (c : Char) : Bool :=
  isDigit c || ('a' ≤ c && c ≤ 'f') || ('A' ≤ c && c ≤ 'F')

/-- Bytes that may start an identifier. -/
def isWordStart (c : Char) : Bool :=
  ('a' ≤ c && c ≤ 'z') || ('A' ≤ c && c ≤ 'Z') || c = '_'

/-- Bytes that may continue an identifier. -/
def isWordPart (c : Char) : Bool :=
  isWordStart c || isDigit c

/-- The value of a hexadecimal digit, and 0 for any other byte. -/
def hexValue (c : Char) : Nat :=
  if isDigit c then c.toNat - '0'.toNat
  else if 'a' ≤ c && c ≤ 'f' then c.toNat - 'a'.toNat + 10
  else if 'A' ≤ c && c ≤ 'F' then c.toNat - 'A'.toNat + 10
  else 0

/-- The byte with the low eight bits of `n`. -/
def byte (n : Nat) : Char :=
  Char.ofNat (n % 256)

/-- The value of a digit run in the given radix. -/
def digitsValue (radix : Nat) (cs : List Char) : Nat :=
  cs.foldl (fun v c => v * radix + hexValue c) 0

/-- Letters in upper case. Only ASCII letters change, which are the only letters of identifiers. -/
def upper (s : String) : String :=
  s.map Char.toUpper

/-- Letters in lower case. Only ASCII letters change. -/
def lower (s : String) : String :=
  s.map Char.toLower

/-- The byte sequences of the white space characters of UTF-8 text. -/
def spaceForms : List (List Char) :=
  [[' '], ['\t'], ['\n'], ['\x0b'], ['\x0c'], ['\r'],
    ['\xc2', '\x85'], ['\xc2', '\xa0'], ['\xe1', '\x9a', '\x80']]
  ++ (List.range 11).map (fun i => ['\xe2', '\x80', byte (0x80 + i)])
  ++ [['\xe2', '\x80', '\xa8'], ['\xe2', '\x80', '\xa9'], ['\xe2', '\x80', '\xaf'],
    ['\xe2', '\x81', '\x9f'], ['\xe3', '\x80', '\x80']]

/-- The rest after a white space character at the front. -/
def dropSpace? (forms : List (List Char)) (cs : List Char) : Option (List Char) :=
  (forms.find? (fun f => f.isPrefixOf cs)).map (fun f => cs.drop f.length)

/-- Removes white space characters from the front; `forms` gives their byte sequences. -/
def trimFront (forms : List (List Char)) : Nat → List Char → List Char
  | 0, cs => cs
  | n + 1, cs =>
    match dropSpace? forms cs with
    | some rest => trimFront forms n rest
    | none => cs

/-- Removes white space characters from both ends. -/
def trim (s : String) : String :=
  let front := trimFront spaceForms s.length s.toList
  let back := trimFront (spaceForms.map List.reverse) front.length front.reverse
  String.ofList back.reverse

/-- The pieces of `cs` between separators, at least one. -/
def splitChars (sep : Char) : List Char → List (List Char)
  | [] => [[]]
  | c :: rest =>
    if c = sep then [] :: splitChars sep rest
    else
      match splitChars sep rest with
      | [] => [[c]]
      | first :: more => (c :: first) :: more

/-- The pieces of a text between separators, at least one. -/
def split (sep : Char) (s : String) : List String :=
  (splitChars sep s.toList).map String.ofList

/-- The rest of a text behind a given beginning. -/
def stripBeginning? (beginning s : String) : Option String :=
  if beginning.toList.isPrefixOf s.toList then
    some (String.ofList (s.toList.drop beginning.length))
  else none

/-- The text without a given ending, unchanged if it does not end so. -/
def stripEnding (ending s : String) : String :=
  if ending.toList.isSuffixOf s.toList then
    String.ofList (s.toList.take (s.length - ending.length))
  else s

def startsWith (beginning s : String) : Bool :=
  beginning.toList.isPrefixOf s.toList

def endsWith (ending s : String) : Bool :=
  ending.toList.isSuffixOf s.toList

/-- The index at which `needle` first occurs in `cs`. -/
def indexOf? (needle : List Char) : List Char → Option Nat
  | [] => if needle.isEmpty then some 0 else none
  | c :: rest =>
    if needle.isPrefixOf (c :: rest) then some 0
    else (indexOf? needle rest).map (· + 1)

/-- Whether `needle` occurs in the text. -/
def contains (needle s : String) : Bool :=
  (indexOf? needle.toList s.toList).isSome

/-- The pieces of `cs` between the places where `sep` stands, at least one. `seen` holds the
characters of the first piece so far, the last one first. -/
def splitCharsBy (sep : List Char) (seen : List Char) :
    (limit : Nat) → List Char → List (List Char)
  | 0, _ => [seen.reverse]
  | limit + 1, cs =>
    match cs with
    | [] => [seen.reverse]
    | c :: rest =>
      if sep.isPrefixOf cs then seen.reverse :: splitCharsBy sep [] limit (cs.drop sep.length)
      else splitCharsBy sep (c :: seen) limit rest

/-- The pieces of a text between the places where a separator stands, at least one. -/
def splitBy (sep s : String) : List String :=
  (splitCharsBy sep.toList [] (s.length + 1) s.toList).map String.ofList

/-- How often a text stands in another one, without overlaps. -/
def occurrences (sep cs : List Char) : Nat :=
  (splitCharsBy sep [] (cs.length + 1) cs).length - 1

/-- The signed decimal integer a text consists of: an optional sign and at least one digit. Values
outside 64 bits are refused. -/
def parseInt? (s : String) : Option Int :=
  let (negative, digits) :=
    match s.toList with
    | '-' :: rest => (true, rest)
    | '+' :: rest => (false, rest)
    | rest => (false, rest)
  if digits.isEmpty || !digits.all isDigit then none
  else
    let n : Int := digitsValue 10 digits
    let v := if negative then -n else n
    if -0x8000000000000000 ≤ v && v < 0x8000000000000000 then some v else none

/-- `n` in lower case hexadecimal digits, padded with zeros to `width`. -/
def hex (width n : Nat) : String :=
  let digits := Nat.toDigits 16 n
  String.ofList (List.replicate (width - digits.length) '0' ++ digits)

/-- `s` padded with blanks on the left to `width`. -/
def padLeft (width : Nat) (s : String) : String :=
  String.ofList (List.replicate (width - s.length) ' ') ++ s

def join (separator : String) (parts : List String) : String :=
  separator.intercalate parts

def spaces (n : Nat) : String :=
  String.ofList (List.replicate n ' ')

end ShaderEffect.Text

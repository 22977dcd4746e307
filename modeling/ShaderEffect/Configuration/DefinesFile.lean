import ShaderEffect.Basic
import ShaderEffect.Text.Quoted

/-!
Files with macro definitions: lines `NAME=VALUE`, comments behind `#`, and values in quotes.

In double quotes a backslash escapes the next character, and `\n` and `\r` stand for line ends. In
values other than single-quoted ones, `$NAME` stands for an earlier value. In values without quotes,
bytes that belong to no character are replaced.
-/
namespace ShaderEffect.DefinesFile

/-- Why a file cannot be understood. -/
inductive Malformed where
  | unexpectedCharacter (c : Char) (near : String)
  | unterminated (text : String)
  | nothingExported
deriving DecidableEq, Repr, Inhabited

def Malformed.message : Malformed → String
  | unexpectedCharacter c near =>
    "unexpected character " ++ Text.quoted (String.ofList (Text.utf8 c.toNat))
      ++ " in variable name near " ++ Text.quoted near
  | unterminated text => "unterminated quoted value " ++ text
  | nothingExported => "zero length string"

/-- The byte sequences of white space inside a line. -/
def lineSpaceForms : List (List Char) :=
  [['\t'], ['\x0b'], ['\x0c'], ['\r'], [' '], ['\xc2', '\x85'], ['\xc2', '\xa0']]

/-- Whether a byte alone is white space inside a line. -/
def isLineSpace (c : Char) : Bool :=
  ['\t', '\x0b', '\x0c', '\r', ' ', '\x85', '\xa0'].contains c

/-- Whether a byte may stand in a name. -/
def isNamePart (c : Char) : Bool :=
  let n := c.toNat
  Text.isWordPart c || c = '.'
    || [0xaa, 0xb2, 0xb3, 0xb5, 0xb9, 0xba, 0xbc, 0xbd, 0xbe].contains n
    || (0xc0 ≤ n && n ≠ 0xd7 && n ≠ 0xf7)

def skipLineSpace (cs : List Char) : List Char :=
  Text.trimFront lineSpaceForms cs.length cs

/-- The text without white space at both ends. -/
def trimLine (cs : List Char) : List Char :=
  let front := skipLineSpace cs
  (Text.trimFront (lineSpaceForms.map List.reverse) front.length front.reverse).reverse

/-- The text from the next definition on. -/
def skipToStatement : (limit : Nat) → List Char → List Char
  | 0, cs => cs
  | limit + 1, cs =>
    match Text.trimFront Text.spaceForms cs.length cs with
    | '#' :: rest => skipToStatement limit (rest.dropWhile (· ≠ '\n'))
    | cs => cs

/-- The text without the word `export` in front. -/
def skipExport (cs : List Char) : List Char :=
  match Text.stripBeginning? "export" (String.ofList cs) with
  | some rest =>
    let rest := rest.toList
    if lineSpaceForms.any (·.isPrefixOf rest) then skipLineSpace rest else cs
  | none => cs

/-- Splits a definition behind the mark between its name and its value. A text that ends before the
mark has no name, and is a value as a whole. -/
def splitName (all : List Char) :
    (seen : List Char) → List Char → Except Malformed (String × List Char)
  | _, [] => pure ("", all)
  | seen, c :: rest =>
    if c = '=' || c = ':' then
      pure (String.ofList (Text.trimFront (Text.spaceForms.map List.reverse) seen.length
        seen).reverse, rest)
    else if isLineSpace c || isNamePart c then splitName all (c :: seen) rest
    else throw (.unexpectedCharacter c (String.ofList all))

/-- The start of the last comment on a line: a `#` behind white space. -/
def commentStart (cs : List Char) : Nat :=
  let marks := (List.range cs.length).filter fun i =>
    cs[i]? = some '#' && lineSpaceForms.any (·.isSuffixOf (cs.take i))
  marks.getLast?.getD cs.length

/-- Replaces references to earlier values. A backslash keeps a reference as it is written. -/
def substitute (values : Table String String) : (limit : Nat) → List Char → List Char
  | 0, cs => cs
  | limit + 1, cs =>
    match cs with
    | [] => []
    | c :: rest =>
      let isName (c : Char) : Bool := ('A' ≤ c && c ≤ 'Z') || Text.isDigit c || c = '_'
      let escaped : Bool := c = '\\' && rest.head? = some '$'
      if c = '$' || escaped then
        let body := if escaped then rest.drop 1 else rest
        let paren := (body.take 1).filter (· = '(')
        let body := body.drop paren.length
        let brace := (body.take 1).filter (· = '\x7b')
        let body := body.drop brace.length
        let name := body.takeWhile isName
        let body := body.drop name.length
        let close := (body.take 1).filter (· = '\x7d')
        let rest := body.drop close.length
        let written := '$' :: paren ++ brace ++ name ++ close
        let text :=
          if escaped || name.isEmpty then written
          else ((values.get? (String.ofList name)).getD "").toList
        text ++ substitute values limit rest
      else c :: substitute values limit rest

/-- Resolves the escaped line ends. -/
def lineEscapes : List Char → List Char
  | '\\' :: 'n' :: rest => '\n' :: lineEscapes rest
  | '\\' :: 'r' :: rest => '\r' :: lineEscapes rest
  | '\\' :: c :: rest =>
    if c = '\n' then '\\' :: lineEscapes (c :: rest) else '\\' :: c :: lineEscapes rest
  | c :: rest => c :: lineEscapes rest
  | [] => []

/-- Drops the backslash before every character but `$`. -/
def plainEscapes : List Char → List Char
  | '\\' :: c :: rest =>
    if c = '$' then '\\' :: plainEscapes (c :: rest) else c :: plainEscapes rest
  | c :: rest => c :: plainEscapes rest
  | [] => []

/-- The value in quotes at the front of a text, and the rest behind it. -/
def splitQuoted (mark : Char) : (seen : List Char) → List Char → Option (List Char × List Char)
  | _, [] => none
  | seen, c :: rest =>
    if c = mark && seen.head? ≠ some '\\' then some (seen.reverse, rest)
    else splitQuoted mark (c :: seen) rest

/-- The text without a character at both ends. -/
def stripMarks (mark : Char) (cs : List Char) : List Char :=
  ((cs.dropWhile (· = mark)).reverse.dropWhile (· = mark)).reverse

/-- The value at the front of a text, and the rest behind it. -/
def splitValue (values : Table String String) (cs : List Char) :
    Except Malformed (String × List Char) :=
  let expand (cs : List Char) : String := String.ofList (substitute values cs.length cs)
  let isLineEnd (c : Char) : Bool := c = '\n' || c = '\r'
  let quoted (mark : Char) (rest : List Char) : Except Malformed (String × List Char) :=
    match splitQuoted mark [mark] rest with
    | none => throw (.unterminated (String.ofList (cs.takeWhile (· ≠ '\n'))))
    | some (inside, rest) =>
      let inside := stripMarks mark inside
      if mark = '\x22' then pure (expand (plainEscapes (lineEscapes inside)), rest)
      else pure (String.ofList inside, rest)
  match cs with
  | '\x22' :: rest => quoted '\x22' rest
  | '\x27' :: rest => quoted '\x27' rest
  | _ =>
    let line := Text.wellFormed (cs.takeWhile (!isLineEnd ·))
    pure (expand (trimLine (line.take (commentStart line))), cs.dropWhile (!isLineEnd ·))

/-- Reads definitions. The last one of a name counts. `limit` bounds their number. -/
def parseFrom (values : Table String String) :
    (limit : Nat) → List Char → Except Malformed (Table String String)
  | 0, _ => pure values
  | limit + 1, cs => do
    let cs := skipToStatement cs.length cs
    if cs.isEmpty then return values
    let start := skipExport cs
    if start.isEmpty then throw .nothingExported
    let (name, rest) ← splitName start [] start
    let (value, rest) ← splitValue values (skipLineSpace rest)
    parseFrom (values.set name value) limit rest

/-- The text with single line ends. -/
def unifyLineEnds : List Char → List Char
  | '\r' :: '\n' :: rest => '\n' :: unifyLineEnds rest
  | c :: rest => c :: unifyLineEnds rest
  | [] => []

/-- Reads the definitions of a file. -/
def parse (text : String) : Except Malformed (Table String String) :=
  let cs := unifyLineEnds text.toList
  parseFrom [] (cs.length + 1) cs

end ShaderEffect.DefinesFile

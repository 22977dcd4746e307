import ShaderEffect.Yaml.Token

namespace ShaderEffect.Yaml

/-- A text that may go on. Blanks count only when something follows them. -/
structure Pending where
  /-- The characters that count, the last one first. -/
  firm : List Char := []
  /-- The characters behind them, the last one first. -/
  loose : List Char := []
deriving DecidableEq, Repr, Inhabited

namespace Pending

/-- All characters, the last one first. -/
def all (p : Pending) : List Char :=
  p.loose ++ p.firm

def isEmpty (p : Pending) : Bool :=
  p.all.isEmpty

/-- Adds a character that counts. -/
def addFirm (p : Pending) (c : Char) : Pending :=
  { firm := c :: p.all }

/-- Adds a character. Blanks and tabs in front of a text are dropped. -/
def add (p : Pending) (c : Char) : Pending :=
  if !isBlank c then p.addFirm c
  else if p.isEmpty then p
  else { p with loose := c :: p.loose }

/-- Adds a character of a text in which tabs count. -/
def addInBlock (p : Pending) (c : Char) : Pending :=
  if c ≠ ' ' then p.addFirm c
  else if p.isEmpty then p
  else { p with loose := c :: p.loose }

/-- Adds an empty line: the blank that stands for the line break before it becomes a line break. -/
def addEmptyLine (p : Pending) : Pending :=
  match p.loose with
  | ' ' :: more => { p with loose := '\n' :: more }
  | loose => { p with loose := '\n' :: loose }

/-- Drops what does not count. -/
def trimmed (p : Pending) : Pending :=
  { firm := p.firm }

/-- The characters that count, in their order. -/
def value (p : Pending) : List Char :=
  p.firm.reverse

end Pending

/-- How the lines of a text are joined. -/
inductive BlockStyle where
  /-- As they are written. -/
  | literal
  /-- By blanks, except around lines that are indented deeper. -/
  | folded
  /-- As the lines of a plain scalar that has turned out to go on with a dash. -/
  | dashed
deriving DecidableEq, Repr, Inhabited

/-- What is known of the lines of a text. Columns are 0 as long as they are unknown. -/
structure Block where
  style : BlockStyle
  /-- The characters behind the mark of the text. -/
  option : List Char := []
  /-- The column at which the lines start. -/
  firstColumn : Nat := 0
  /-- The column at which the present line starts, and the one before it. -/
  lineColumn : Nat := 0
  previousColumn : Nat := 0
  /-- The column at which the last line started that has more than blanks. -/
  lastColumn : Nat := 0
  /-- The width of the last line of blanks in front of the text. -/
  blankWidth : Nat := 0
  /-- Whether a line break has still to be joined. -/
  hasBreak : Bool := false
deriving DecidableEq, Repr, Inhabited

namespace Block

/-- The digits of an option. -/
def optionDigits (option : List Char) : List Char :=
  let isSign (c : Char) : Bool := c = '-' || c = '+'
  let front := if (option.head?.map isSign).getD false then option.tail else option
  if (front.getLast?.map isSign).getD false then front.dropLast else front

/-- The indentation that an option gives, 0 if it gives none. -/
def givenIndent (option : List Char) : Nat :=
  Text.digitsValue 10 (optionDigits option)

/-- Whether an option is valid: a sign, an indentation of one digit, or both. -/
def isValidOption (option : List Char) : Bool :=
  let digits := optionDigits option
  digits.isEmpty || (digits.all Text.isDigit && digits ≠ ['0'] && givenIndent option ≤ 9)

/-- The text that follows a mark with an option, below a key or dash at a column. -/
def start (style : BlockStyle) (delimiter : Nat) (option : List Char) : Block :=
  let indent := givenIndent option
  { style, option, firstColumn := if indent > 0 then delimiter + indent else 0 }

/-- A plain scalar that goes on with a dash at a column. -/
def startDashed (column : Nat) : Block :=
  { style := .dashed, firstColumn := column, lineColumn := column }

def hasSign (b : Block) (sign : Char) : Bool :=
  b.option.head? = some sign || b.option.getLast? = some sign

/-- Whether line breaks at the end are dropped. -/
def dropsEnd (b : Block) : Bool :=
  b.hasSign '-' || b.style = .dashed

/-- Whether all line breaks at the end are kept. -/
def keepsEnd (b : Block) : Bool :=
  b.hasSign '+'

/-- Notes the column of the first character of a line. -/
def atColumn (b : Block) (column : Nat) : Block :=
  { b with
    firstColumn := if b.firstColumn = 0 then column else b.firstColumn
    lineColumn := if b.lineColumn = 0 then column else b.lineColumn }

/-- Whether the present line is indented as the option asks. -/
def isIndented (b : Block) : Bool :=
  givenIndent b.option = 0 || b.firstColumn ≤ b.lineColumn

/-- Whether a column belongs to the indentation. -/
def isIndentation (b : Block) (column : Nat) : Bool :=
  if b.firstColumn = 0 then column = 1 else column < b.firstColumn

/-- Ends a line of a given width. -/
def endLine (b : Block) (width : Nat) : Block :=
  { b with
    blankWidth := if b.firstColumn = 0 then width else b.blankWidth
    previousColumn := b.lineColumn
    lastColumn := if b.lineColumn = 0 then b.lastColumn else b.lineColumn
    lineColumn := 0
    hasBreak := true }

/-- Adds a blank at the front of a line. Those of the indentation do not count. -/
def addIndent (b : Block) (p : Pending) (column : Nat) : Block × Pending :=
  if b.firstColumn = 0 || column < b.firstColumn then (b, p)
  else ({ b with hasBreak := b.hasBreak && b.style = .literal }, p.addFirm ' ')

/-- Joins a line to the one before it. Of lines that start at the same column, the break becomes a
blank; after empty lines, one break is dropped. -/
def joinLines (b : Block) (p : Pending) (column : Nat) : Block × Pending :=
  if b.style = .literal || !b.hasBreak then (b, p)
  else
    let joined : Pending :=
      if b.lineColumn = b.previousColumn then
        match p.all with
        | '\n' :: more => if p.loose.isEmpty then { firm := ' ' :: more } else p
        | _ => p
      else if b.previousColumn = 0 && b.lastColumn = column then
        match p.all with
        | '\n' :: '\n' :: more => { firm := '\n' :: more }
        | _ => p
      else p
    ({ b with hasBreak := false }, joined)

/-- The text that has been read. -/
def value (b : Block) (p : Pending) : List Char :=
  let isBreak (c : Char) : Bool := c = '\n'
  let kept :=
    if b.dropsEnd then (p.firm.dropWhile isBreak).dropWhile (· = ' ')
    else if b.keepsEnd then p.firm
    else (p.firm.takeWhile isBreak).take 1 ++ p.firm.dropWhile isBreak
  let text := if kept = ['\n'] then [] else kept.reverse
  if b.keepsEnd && text.isEmpty then ['\n'] else text

end Block
end ShaderEffect.Yaml

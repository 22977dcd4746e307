import ShaderEffect.Yaml.Pending
import ShaderEffect.Yaml.Quotation

namespace ShaderEffect.Yaml

/-- How a line is indented, compared with the last key or dash. -/
inductive Shift where
  | keep | deeper | back
deriving DecidableEq, Repr, Inhabited

/-- Where the reading of a document stands, between two characters. -/
structure Cursor where
  /-- The characters that are left, and the one before them. -/
  rest : List Char
  previous : Option Char := none
  place : Place := {}
  /-- The column of the last key or dash, 0 before the first one. -/
  delimiter : Nat := 0
  /-- The blanks and tabs that count as the indentation of the line. -/
  indent : Nat := 0
  /-- Whether only blanks were read on the line. -/
  atLineStart : Bool := true
  shift : Shift := .keep
  openLists : Int := 0
  openMaps : Nat := 0
  /-- The text that the next token may be made of. -/
  text : Pending := {}
  /-- The place of the text, if it has come to a further line. -/
  textPlace : Option Place := none
  /-- The source since the last token, the last character first. -/
  source : List Char := []
  /-- The text that is read line by line. -/
  block : Option Block := none
  /-- The tokens so far, the last one first. -/
  tokens : List Token := []

namespace Cursor

def nextChar? (s : Cursor) : Option Char :=
  s.rest.tail.head?

/-- Whether the present character is the last one. -/
def atLast (s : Cursor) : Bool :=
  s.rest.tail.isEmpty

/-- Whether a list or a map in brackets is open. -/
def inFlow (s : Cursor) : Bool :=
  s.openLists > 0 || s.openMaps > 0

/-- Skips characters without counting columns. -/
def skip (s : Cursor) (n : Nat) : Cursor :=
  { s with rest := s.rest.drop n, previous := (s.rest.take n).getLast?.or s.previous }

/-- Skips characters of a line. -/
def advance (s : Cursor) (n : Nat) : Cursor :=
  let s := s.skip n
  { s with place := { s.place with column := s.place.column + n } }

/-- Skips the end of a line. -/
def nextLine (s : Cursor) : Cursor :=
  { s.skip 1 with
    place := { line := s.place.line + 1, column := 1 }
    indent := 0
    atLineStart := true }

def note (s : Cursor) (c : Char) : Cursor :=
  { s with source := c :: s.source }

/-- Forgets the text and its source. -/
def clear (s : Cursor) : Cursor :=
  { s with text := {}, source := [], block := none }

/-- Adds a character to the text. -/
def take (s : Cursor) (c : Char) : Cursor :=
  { s.note c with text := s.text.add c }.advance 1

/-- The text that has been read. -/
def textValue (s : Cursor) : List Char :=
  match s.block with
  | some b => b.value s.text
  | none => s.text.value

def hasText (s : Cursor) : Bool :=
  !s.textValue.isEmpty

def addToken (s : Cursor) (kind : Token.Kind) (place : Place) : Cursor :=
  { s with tokens := { kind, place, source := s.source.reverse } :: s.tokens }

/-- Makes a token of the text, if there is some. -/
def flush (s : Cursor) : Cursor :=
  let place := s.textPlace.getD { s.place with column := s.place.column - s.text.all.length }
  let value := s.textValue
  if value.isEmpty then { s with text := {}, textPlace := none }
  else
    let written := Token.encode value
    let kind : Token.Kind := if s.block.isSome then .text written else .plain written
    { s.addToken kind place with text := {}, source := [], textPlace := none }

/-- Makes a token of the text, and one of the mark behind it. -/
def mark (s : Cursor) (kind : Token.Kind) (c : Char) : Cursor :=
  let s := s.flush.note c
  (s.addToken kind s.place).clear.advance 1

/-- Takes account of a character at the front of a line. -/
def measure (s : Cursor) (c : Char) : Cursor :=
  if !s.atLineStart then { s with shift := .keep }
  else if isLineEnd c || c = '\t' then s
  else if c = ' ' then { s with indent := s.indent + 1 }
  else
    let shift : Shift :=
      if s.delimiter = 0 then s.shift else if s.delimiter < s.place.column then .deeper else .back
    { s with shift, atLineStart := false }

/-- Makes a token of the whole text. -/
def endBlock (s : Cursor) : Cursor :=
  (s.addToken (.text (Token.encode s.textValue)) s.place).clear

/-- Reads a line break of a text. -/
def readBlockBreak (s : Cursor) (b : Block) : Cursor :=
  let block := b.endLine (s.place.column - 1)
  let s := { s with text := s.text.add '\n', block := some block }.nextLine
  if startsWithMarker s.rest then s.endBlock else s

/-- Reads the last character of a document inside a text. -/
def readBlockLast (s : Cursor) (b : Block) (c : Char) : Option Cursor :=
  let (b, text) :=
    if s.atLineStart && c = ' ' then b.addIndent s.text s.place.column else (b, s.text.add c)
  let b := b.atColumn s.place.column
  if b.isIndented then some ({ s with text, block := some b }.endBlock.advance 1) else none

/-- Reads a character that starts or continues a line of a text. -/
def readBlockChar (s : Cursor) (b : Block) (c : Char) : Option Cursor :=
  if b.firstColumn = 0 && b.blankWidth > s.place.column then none
  else
    let b := b.atColumn s.place.column
    if !b.isIndented then none
    else
      let (b, text) := b.joinLines s.text s.place.column
      let delimiter := if b.firstColumn > 1 then b.firstColumn - 1 else s.delimiter
      some ({ s with text := text.addInBlock c, block := some b, delimiter }.advance 1)

/-- Reads one character of a text. -/
def readBlock (s : Cursor) (b : Block) (c : Char) : Option Cursor :=
  let s := s.note c
  let s := if c = '\r' && s.nextChar? = some '\n' then s.skip 1 else s
  let c := if c = '\r' then '\n' else c
  if s.atLast then s.readBlockLast b c
  else if c = '\n' then some (s.readBlockBreak b)
  else if s.atLineStart && c = ' ' then
    let (b, text) := b.addIndent s.text s.place.column
    some ({ s with text, block := some b }.advance 1)
  else if c = '\t' && b.isIndentation s.place.column then
    if s.atLineStart then none else s.readBlockChar b c
  else if c = '\t' then some ({ s with text := s.text.addInBlock c }.advance 1)
  else s.readBlockChar b c

/-- Reads the mark of a text and the rest of its line: an option and a comment. -/
def readBlockMark (s : Cursor) (style : BlockStyle) : Option Cursor :=
  let line := s.rest.tail.takeWhile (!isLineEnd ·)
  let behind := s.rest.tail.dropWhile (!isLineEnd ·)
  let line := if behind.isEmpty then line.dropLast else line
  let trim (cs : List Char) : List Char := (cs.reverse.dropWhile (· = ' ')).reverse
  let option := if line.head? = some '#' then line else trim (line.takeWhile (· ≠ '#'))
  if !Block.isValidOption option then none
  else
    let delimiter := if s.place.column = 1 then 1 else s.delimiter
    let block := Block.start style delimiter option
    let behind :=
  if behind.head? = some '\r' && behind.tail.head? = some '\n' then behind.tail else behind
    let s := (s.addToken .block s.place).clear
    some { s with block := some block, delimiter, shift := .keep, rest := behind }.nextLine

/-- Reads a mark between or behind documents. -/
def documentMark? (s : Cursor) (c : Char) : Option Cursor :=
  let marker := (s.rest.takeWhile (· = c)).length = 3
  let ends := ((s.rest.drop 3).head?.map fun c => isBlank c || isLineEnd c).getD true
  if s.indent ≠ 0 || s.place.column ≠ 1 || !marker then none
  else if c = '.' then
    let s := s.flush
    some ((s.addToken .documentEnd s.place).advance 3).clear
  else if c = '-' && ends then
    let s := s.flush
    some { ((s.addToken .documentStart s.place).advance 3).clear with delimiter := 0, indent := 0 }
  else none

/-- Whether the source since the last token starts with a tab. -/
def startsWithTab (s : Cursor) : Bool :=
  match s.source.reverse with
  | '\t' :: _ => true
  | ' ' :: '\t' :: _ => true
  | _ => false

/-- Reads the dash of a list item. -/
def readDash (s : Cursor) : Option Cursor :=
  let ends := (s.nextChar?.map fun c => isBlank c || isLineEnd c).getD true
  if s.hasText || !ends then some (s.take '-')
  else if s.startsWithTab then none
  else
    let s := s.note '-'
    some ({ s.addToken .dash s.place with delimiter := s.place.column }.clear.advance 1)

/-- Whether a colon ends a key. In braces nothing has to follow it. -/
def endsKey (s : Cursor) : Bool :=
  let next := s.nextChar?
  if s.openMaps > 0 then next ≠ some '/' && (s.tokens.head?.map (·.kind)) ≠ some .colon
  else (next.map fun c => isBlank c || isLineEnd c).getD true

/-- Reads the colon behind a key. -/
def readColon (s : Cursor) : Option Cursor :=
  if !s.endsKey then some (s.take ':')
  else if s.startsWithTab then none
  else
    let isKey := s.hasText
    let s := s.flush
    let delimiter :=
      match s.tokens.head? with
      | some { kind := .quoted _, place, .. } => place.column
      | some t => if isKey then t.place.column else s.delimiter
      | none => s.delimiter
    some ({ s.addToken .colon s.place with delimiter }.clear.advance 1)

/-- Skips a comment and the end of its line. -/
def skipComment (s : Cursor) : Cursor :=
  let s := s.flush
  let line := s.rest.takeWhile (!isLineEnd ·)
  (s.advance line.length).nextLine.clear

/-- Reads a scalar in quotes. -/
def readQuoted (s : Cursor) (c : Char) : Option Cursor := do
  let inside : Quotation :=
    { place := { s.place with column := s.place.column + 1 }, delimiter := s.delimiter }
  let (q, rest) ←
    if c = '\x22' then inside.readDouble s.rest.tail else inside.readSingle s.rest.tail
  let written := s.rest.take (s.rest.length - rest.length)
  let s := { s with source := written.reverse ++ s.source }
  let s := s.addToken (.quoted (Token.encode q.value.reverse)) s.place
  let newLine : Bool := q.place.line > s.place.line
  let indent := if newLine then 0 else s.indent
  return { s with
    rest
    previous := some c
    place := q.place
    indent
    atLineStart := newLine && q.freshLine }.clear.skip q.excess

/-- Reads the end of a line outside of quotes. -/
def readLineEnd (s : Cursor) (c : Char) : Cursor :=
  let place := { s.place with column := s.place.column - s.text.firm.length }
  let textPlace := if s.text.isEmpty then s.textPlace else s.textPlace.or (some place)
  let s := { s with textPlace }
  let s :=
    if (s.source.head?.map isBlank).getD false then
      { s with source := s.source.dropWhile isBlank, text := s.text.trimmed }
    else s
  let isPair : Bool := c = '\r' && s.nextChar? = some '\n'
  let s := if isPair then (s.note '\r').skip 1 else s
  let c := if isPair then '\n' else c
  let s := if s.atLast then s.flush else s
  let text := if s.hasText && s.atLineStart then s.text.addEmptyLine else s.text.add ' '
  ({ s with text }.note c).nextLine

/-- Reads a tab outside of quotes. It is skipped behind a key or dash, and else must
not indent a line. -/
def readTab (s : Cursor) : Option Cursor :=
  if (s.hasText && s.delimiter = 0) || s.delimiter < s.place.column then
    some (({ s with indent := s.indent + 1 }.note '\t').skip 1)
  else if s.inFlow || !s.atLineStart then some (s.take '\t')
  else none

/-- Whether a key follows that merges another map. -/
def isMergeKey (s : Cursor) : Bool :=
  match s.rest with
  | '<' :: '<' :: rest =>
    match rest.dropWhile (· = ' ') with
    | ':' :: c :: _ => c = ' ' || isLineEnd c
    | _ => false
  | _ => false

/-- Reads a character outside of quotes and of texts that are given line by line. Anchors, tags,
directives, keys behind question marks and merged maps are refused. -/
def readChar (s : Cursor) (c : Char) : Option Cursor :=
  match c with
  | '\x7b' =>
    if s.hasText && !s.inFlow then some (s.take c)
    else some { s.mark .mapStart c with openMaps := s.openMaps + 1 }
  | '\x7d' =>
    if s.openMaps = 0 then some (s.take c)
    else some { s.mark .mapEnd c with openMaps := s.openMaps - 1 }
  | '[' =>
    if s.hasText && !s.inFlow then some (s.take c)
    else some { s.mark .listStart c with openLists := s.openLists + 1 }
  | ']' =>
    if s.hasText && s.openLists ≤ 0 then some (s.take c)
    else some { s.mark .listEnd c with openLists := s.openLists - 1 }
  | ',' => if s.inFlow then some (s.mark .comma c) else some (s.take c)
  | '.' => (s.documentMark? c).or (some (s.take c))
  | '-' =>
    match s.documentMark? c with
    | some s => some s
    | none =>
      if s.hasText && s.shift = .deeper then
        some { s.take c with block := some (Block.startDashed s.place.column) }
      else s.readDash
  | ':' => s.readColon
  | '|' => if s.hasText then some (s.take c) else s.readBlockMark .literal
  | '>' => if s.hasText then some (s.take c) else s.readBlockMark .folded
  | '#' =>
    let isComment := (s.previous.map fun p => isBlank p || isLineEnd p).getD true
    if s.hasText && !isComment then some (s.take c) else some s.skipComment
  | '\x27' | '\x22' => if s.hasText then some (s.take c) else s.readQuoted c
  | '\n' | '\r' => some (s.readLineEnd c)
  | ' ' => if s.atLineStart then some ((s.note c).advance 1) else some (s.take c)
  | '\t' => s.readTab
  | '@' | '\x60' | '!' | '&' | '*' => if s.hasText then some (s.take c) else none
  | '%' => if s.hasText || s.indent ≠ 0 then some (s.take c) else none
  | '?' =>
    let isMark := (s.nextChar?.map fun c => isBlank c || isLineEnd c).getD false
    if !s.hasText && isMark then none else some (s.take c)
  | '<' => if s.isMergeKey then none else some (s.take c)
  | _ => some (s.take c)

/-- Ends a text at a line that is not indented deeper. An empty text is one too. -/
def leaveBlock (s : Cursor) : Option Cursor :=
  match s.tokens with
  | [] => some { s with block := none }
  | t :: _ =>
    if t.place.column = 1 then none
    else
      let isText := match t.kind with | .text _ => true | .plain _ => t.isBareText | _ => false
      let s := if isText then s else s.addToken (.text "") s.place
      some { s with block := none }

/-- Reads one character, or several that belong together. -/
def step (s : Cursor) (c : Char) : Option Cursor := do
  let s := s.measure c
  let s := if s.shift = .back then s.flush else s
  match s.block with
  | none => s.readChar c
  | some b =>
    if s.shift = .back then
      let s ← s.leaveBlock
      s.readChar c
    else s.readBlock b c

/-- Reads all characters. `limit` bounds the number of steps. -/
def run : (limit : Nat) → Cursor → Option Cursor
  | 0, _ => none
  | limit + 1, s =>
    match s.rest with
    | [] => some s.flush
    | c :: _ => do run limit (← s.step c)

end Cursor

/-- The tokens of a text. -/
def tokens? (text : String) : Option (List Token) :=
  let characters := (Text.codes text.toList).map Char.ofNat
  (Cursor.run (characters.length + 1) { rest := characters }).map (·.tokens.reverse)

end ShaderEffect.Yaml

import ShaderEffect.Token.Kind
import ShaderEffect.Token.Literal

namespace ShaderEffect.Token

/-- What the lexer reports. -/
structure Options where
  /-- Blanks and line ends are dropped. -/
  ignoreWhitespace : Bool := false
  /-- Directive lines are skipped. `#line` always sets the location. -/
  ignoreDirectives : Bool := false
  /-- Keywords are reported as identifiers. -/
  ignoreKeywords : Bool := false
  /-- Escape sequences in string literals are decoded. -/
  escapeStrings : Bool := false
deriving DecidableEq, Repr

/-- How the parser reads preprocessed text. -/
def Options.forParser : Options :=
  { ignoreWhitespace := true, ignoreDirectives := true, escapeStrings := true }

/-- A scan position: the text that is left, how many bytes lie in front of it, and its location. -/
structure Cursor where
  rest : List Char
  offset : Nat := 0
  location : Location := {}
deriving DecidableEq, Repr, Inhabited

namespace Cursor

/-- The cursor at the start of a text. A missing start line or column is 1. -/
def start (source : String) (location : Location) : Cursor :=
  { rest := source.toList, location := location.normalized }

/-- Moves over `n` bytes of the line. -/
def advance (c : Cursor) (n : Nat) : Cursor :=
  { rest := c.rest.drop n, offset := c.offset + n, location := c.location.right n }

/-- Moves over `n` bytes, the last of which ends the line. -/
def advanceLine (c : Cursor) (n : Nat) : Cursor :=
  { rest := c.rest.drop n, offset := c.offset + n, location := c.location.nextLine }

/-- Moves over the bytes in front that satisfy `p`. -/
def skipWhile (c : Cursor) (p : Char → Bool) : Cursor :=
  c.advance (c.rest.takeWhile p).length

def skipBlanks (c : Cursor) : Cursor :=
  c.skipWhile Text.isBlank

/-- Moves to the end of the line. -/
def skipLine (c : Cursor) : Cursor :=
  c.skipWhile (· != '\n')

/-- The cursor behind a block comment, given what follows its opening. A comment that is not closed
reaches to the end of the text. -/
def skipComment : List Char → Nat → Location → Cursor
  | [], offset, location => ⟨[], offset, location⟩
  | c :: rest, offset, location =>
    if c = '\n' then skipComment rest (offset + 1) location.nextLine
    else if c = '*' && rest.head? = some '/' then ⟨rest.drop 1, offset + 2, location.right 2⟩
    else skipComment rest (offset + 1) (location.right 1)

/-- The token that covers the next `n` bytes. -/
def token (c : Cursor) (kind : Kind) (n : Nat) : Token :=
  { kind, location := c.location, offset := c.offset, raw := String.ofList (c.rest.take n) }

/-- The number of bytes of a line continuation in front, 0 if there is none: a backslash, an
optional carriage return and a newline. -/
def continuation (c : Cursor) : Nat :=
  match c.rest with
  | '\\' :: '\n' :: _ => 2
  | '\\' :: '\r' :: '\n' :: _ => 3
  | _ => 0

/-- The word in front. -/
def word (c : Cursor) : List Char :=
  c.rest.takeWhile Text.isWordPart

theorem advance_length (c : Cursor) (n : Nat) :
    (c.advance n).rest.length = c.rest.length - n := by
  simp [advance]

theorem advanceLine_length (c : Cursor) (n : Nat) :
    (c.advanceLine n).rest.length = c.rest.length - n := by
  simp [advanceLine]

theorem skipWhile_length_le (c : Cursor) (p : Char → Bool) :
    (c.skipWhile p).rest.length ≤ c.rest.length := by
  simp [skipWhile, advance]

theorem skipBlanks_length_le (c : Cursor) : c.skipBlanks.rest.length ≤ c.rest.length :=
  c.skipWhile_length_le _

theorem skipLine_length_le (c : Cursor) : c.skipLine.rest.length ≤ c.rest.length :=
  c.skipWhile_length_le _

theorem skipComment_length_le (rest : List Char) (offset : Nat) (location : Location) :
    (skipComment rest offset location).rest.length ≤ rest.length := by
  induction rest generalizing offset location with
  | nil => simp [skipComment]
  | cons c rest ih =>
    rw [skipComment]
    split
    · exact Nat.le_succ_of_le (ih _ _)
    · split
      · simp only [List.length_drop, List.length_cons]; omega
      · exact Nat.le_succ_of_le (ih _ _)

theorem continuation_le (c : Cursor) : c.continuation ≤ c.rest.length := by
  unfold continuation
  split <;> simp_all

end Cursor

/-- A directive read behind its `#`. -/
inductive Directive where
  /-- A directive to report, and the cursor behind its name. -/
  | report (token : Token) (next : Cursor)
  /-- A `#line` directive, which only moves the location. -/
  | line (next : Cursor)

/-- Reads the source name of a `#line` directive, if there is one. -/
def lineSource (c : Cursor) : Option String :=
  match c.rest with
  | '"' :: rest => some (String.ofList (scanString false rest).1)
  | _ => none

/-- Applies a `#line` directive from behind the word `line`. The newline that ends it counts one
line further, so the line before the given one is set. -/
def lineDirective (c : Cursor) : Cursor :=
  let c := c.skipBlanks
  let numeral : Option Numeral :=
    match c.rest with
    | d :: _ => if Text.isDigit d then some (scanNumeral c.rest) else none
    | [] => none
  let number := (numeral.map (·.word.toNat)).getD 0
  let c := c.advance ((numeral.map (·.length)).getD 0)
  let c := { c with location := { c.location with line := (number - 1 : Nat) } }
  let c := c.skipBlanks
  match lineSource c with
  | some source => { c with location := { c.location with source } }
  | none => c

/-- Reads the directive whose `#` is at `hash`, from the cursor behind that `#`. The token is
located at the `#`, but covers the directive's name. -/
def readDirective (hash behind : Cursor) : Directive :=
  let c := behind.skipBlanks
  if (c.rest.head?.map Text.isWordStart).getD false then
    let name := String.ofList c.word
    let next := c.advance c.word.length
    let token := { c.token .hashUnknown c.word.length with location := hash.location, text := name }
    match directives.lookup name with
    | some kind => .report { token with kind } next
    | none => if name = "line" then .line (lineDirective next) else .report token next
  else .report { c.token .hashUnknown 0 with location := hash.location } c

/-- The cursor a directive ends at. -/
def Directive.next : Directive → Cursor
  | .report _ next => next
  | .line next => next

theorem lineDirective_length_le (c : Cursor) :
    (lineDirective c).rest.length ≤ c.rest.length := by
  unfold lineDirective
  have h := c.skipBlanks_length_le
  simp only
  split <;>
  · refine Nat.le_trans (Cursor.skipBlanks_length_le _) ?_
    simp only [Cursor.advance_length]
    omega

theorem readDirective_length_le (hash behind : Cursor) :
    (readDirective hash behind).next.rest.length ≤ behind.rest.length := by
  have h := behind.skipBlanks_length_le
  unfold readDirective
  simp only
  split
  · split
    · simp only [Directive.next, Cursor.advance_length]; omega
    · split
      · refine Nat.le_trans (lineDirective_length_le _) ?_
        simp only [Cursor.advance_length]; omega
      · simp only [Directive.next, Cursor.advance_length]; omega
  · simpa only [Directive.next] using h

/-- The token that starts with the byte in front, which starts neither white space, a comment nor a
directive. -/
def readToken (o : Options) (c : Cursor) (first : Char) : Token :=
  if Text.isDigit first || (first = '.' && ((c.rest.drop 1).head?.map Text.isDigit).getD false) then
    let n := scanNumeral c.rest
    { c.token n.kind n.length with
      word := n.word, double := n.double, single := Number.Single.ofDouble n.double }
  else if Text.isWordStart first then
    let word := String.ofList c.word
    let kind := if o.ignoreKeywords then .identifier else wordKind word
    { c.token kind c.word.length with text := word }
  else if first = '"' then
    let (text, n) := scanString o.escapeStrings (c.rest.drop 1)
    { c.token .stringLiteral (n + 1) with text := String.ofList text }
  else
    match Kind.operatorAt? c.rest with
    | some kind => c.token kind kind.name.length
    | none => c.token .unknown 1

set_option linter.unusedVariables false in
/-- The next token from `c` on. `lineStart` says whether only blanks and comments stand in front of
`c` on its line, which is where a `#` starts a directive. -/
def lexFrom (o : Options) (lineStart : Bool) (c : Cursor) : Token × Cursor :=
  match h : c.rest with
  | [] => (c.token .eof 0, c)
  | first :: rest =>
    if hc : c.continuation ≠ 0 then
      lexFrom o lineStart (c.advanceLine c.continuation)
    else if Text.isBlank first then
      let next := (c.advance 1).skipBlanks
      if o.ignoreWhitespace || lineStart || next.rest.head? = some '\n' then
        lexFrom o lineStart next
      else (c.token .space (next.offset - c.offset), next)
    else if first = '\n' then
      let next := c.advanceLine 1
      if o.ignoreWhitespace then lexFrom o true next
      else (c.token .endOfLine 1, next)
    else if first = '#' && lineStart then
      match hd : readDirective c (c.advance 1) with
      | .line next => lexFrom o lineStart next.skipLine
      | .report token next =>
        if o.ignoreDirectives then lexFrom o lineStart next.skipLine else (token, next)
    else if first = '/' && rest.head? = some '/' then
      lexFrom o lineStart (c.advance 1).skipLine
    else if first = '/' && rest.head? = some '*' then
      let inside := c.advance 2
      lexFrom o lineStart (Cursor.skipComment inside.rest inside.offset inside.location)
    else
      let token := readToken o c first
      (token, c.advance token.length)
termination_by c.rest.length
decreasing_by
  · have := c.continuation_le
    rw [Cursor.advanceLine_length, h]
    simp only [List.length_cons]
    omega
  · refine Nat.lt_of_le_of_lt (Cursor.skipBlanks_length_le _) ?_
    rw [Cursor.advance_length, h]
    simp
  · rw [Cursor.advanceLine_length, h]
    simp
  · have hn := readDirective_length_le c (c.advance 1)
    rw [hd, Cursor.advance_length] at hn
    refine Nat.lt_of_le_of_lt (Cursor.skipLine_length_le _) ?_
    simp only [Directive.next, h, List.length_cons] at hn ⊢
    omega
  · have hn := readDirective_length_le c (c.advance 1)
    rw [hd, Cursor.advance_length] at hn
    refine Nat.lt_of_le_of_lt (Cursor.skipLine_length_le _) ?_
    simp only [Directive.next, h, List.length_cons] at hn ⊢
    omega
  · refine Nat.lt_of_le_of_lt (Cursor.skipLine_length_le _) ?_
    rw [Cursor.advance_length, h]
    simp
  · refine Nat.lt_of_le_of_lt (Cursor.skipComment_length_le _ _ _) ?_
    rw [Cursor.advance_length, h]
    simp only [List.length_cons]
    omega

/-- The next token and the cursor behind it. It never fails: what starts no token is reported as a
token of unknown kind. -/
def lex (o : Options) (c : Cursor) : Token × Cursor :=
  lexFrom o (c.location.column ≤ 1) c

end ShaderEffect.Token

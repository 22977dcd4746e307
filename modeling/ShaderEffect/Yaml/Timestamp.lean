import ShaderEffect.Text

namespace ShaderEffect.Yaml.Timestamp

/-- Reads a number of one or two digits. With `fixed`, there must be two. -/
def number? (fixed : Bool) (cs : List Char) : Option (Nat × List Char) :=
  match cs with
  | a :: b :: rest =>
    if !Text.isDigit a then none
    else if Text.isDigit b then some (Text.digitsValue 10 [a, b], rest)
    else if fixed then none
    else some (Text.digitsValue 10 [a], b :: rest)
  | [a] => if Text.isDigit a && !fixed then some (Text.digitsValue 10 [a], []) else none
  | [] => none

/-- Reads a number that lies below a limit. -/
def below? (limit : Nat) (fixed : Bool) (cs : List Char) : Option (List Char) := do
  let (n, rest) ← number? fixed cs
  if n < limit then some rest else none

/-- Reads one character. -/
def mark? (c : Char) (cs : List Char) : Option (List Char) :=
  if cs.head? = some c then some cs.tail else none

def isLeap (year : Nat) : Bool :=
  year % 4 = 0 && (year % 100 ≠ 0 || year % 400 = 0)

def daysIn (year month : Nat) : Nat :=
  if month = 2 then if isLeap year then 29 else 28
  else if [4, 6, 9, 11].contains month then 30
  else 31

/-- Reads `2006-01-02`. The day has to exist in its month. -/
def date? (cs : List Char) : Option (List Char) := do
  let year := cs.take 4
  if year.length < 4 || !year.all Text.isDigit then none
  let rest ← mark? '-' (cs.drop 4)
  let (month, rest) ← number? true rest
  if month = 0 || month > 12 then none
  let rest ← mark? '-' rest
  let (day, rest) ← number? true rest
  if day = 0 || day > daysIn (Text.digitsValue 10 year) month then none
  some rest

/-- Drops a fraction of a second, if there is one. -/
def dropFraction (cs : List Char) : List Char :=
  match cs with
  | point :: digit :: rest =>
    if (point = '.' || point = ',') && Text.isDigit digit then rest.dropWhile Text.isDigit else cs
  | _ => cs

/-- Reads `15:04:05` with an optional fraction of the last second. -/
def time? (cs : List Char) : Option (List Char) := do
  let rest ← below? 24 false cs
  let rest ← below? 60 true (← mark? ':' rest)
  let rest ← below? 60 true (← mark? ':' rest)
  some (dropFraction rest)

/-- Reads `Z`, or a sign and hours and minutes. -/
def zone? (cs : List Char) : Option (List Char) :=
  match cs with
  | 'Z' :: rest => some rest
  | sign :: rest => do
    if sign ≠ '+' && sign ≠ '-' then none
    let rest ← below? 25 true rest
    below? 61 true (← mark? ':' rest)
  | [] => none

/-- Whether a text is a date and a time with a zone, between which stands a given letter. -/
def isMoment (letter : Char) (cs : List Char) : Bool :=
  ((date? cs).bind (mark? letter) |>.bind time? |>.bind zone?) = some []

/-- Whether a text is a date and a time, between which stand blanks. -/
def isLocalMoment (cs : List Char) : Bool :=
  ((date? cs).bind (mark? ' ') |>.bind fun rest => time? (rest.dropWhile (· = ' '))) = some []

/-- Whether a text is a time of hours and minutes. -/
def isShortTime (cs : List Char) : Bool :=
  ((below? 24 false cs).bind (mark? ':') |>.bind (below? 60 false)) = some []

/-- Whether a text reads as a date or a time. -/
def isTimestamp (s : String) : Bool :=
  let cs := s.toList
  isMoment 'T' cs || isMoment 't' cs || isLocalMoment cs || date? cs = some [] || isShortTime cs

end ShaderEffect.Yaml.Timestamp

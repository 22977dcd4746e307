import ShaderEffect.Yaml.Token

namespace ShaderEffect.Yaml

/-- A token with those that belong to it. -/
inductive Item where
  | key (name : Token)
  | entry (name value : Token)
  | token (t : Token)
deriving DecidableEq, Repr, Inhabited

namespace Item

/-- Where an item starts. -/
def place : Item → Place
  | key name | entry name _ => name.place
  | token t => t.place

def line (i : Item) : Nat :=
  i.place.line

def column (i : Item) : Nat :=
  i.place.column

/-- Whether an item has a key. -/
def isKeyed : Item → Bool
  | key _ | entry _ _ => true
  | token _ => false

/-- Whether an item is a mark. -/
def isMark (kind : Token.Kind) : Item → Bool
  | token t => t.kind = kind
  | _ => false

def isScalar : Item → Bool
  | token t => t.isScalar
  | _ => false

/-- Whether an item is an entry of a map, or a brace of one. -/
def isMapPart (i : Item) : Bool :=
  i.isKeyed || i.isMark .mapStart || i.isMark .mapEnd

/-- Joins the marks of texts that are given line by line with these texts. -/
def joinTexts? : List Token → Option (List Token)
  | [] => some []
  | t :: rest =>
    if t.kind ≠ .block then (joinTexts? rest).map (t :: ·)
    else
      match rest with
      | [] => some [{ t with kind := .text "" }]
      | text :: rest =>
        match text.kind with
        | .text s => (joinTexts? rest).map ({ t with kind := .text s } :: ·)
        | _ => none

/-- Joins keys with their colons. Only scalars are keys. -/
def joinKeys? : List Token → Option (List Item)
  | [] => some []
  | [t] => if t.kind = .colon then none else some [token t]
  | t :: next :: rest =>
    if t.kind = .colon then none
    else if next.kind ≠ .colon then (joinKeys? (next :: rest)).map (token t :: ·)
    else if t.isScalar then (joinKeys? rest).map (key t :: ·)
    else none

/-- Joins keys with the scalars behind them. -/
def joinEntries : List Item → List Item
  | [] => []
  | key name :: token t :: rest =>
    if t.isScalar && t.place.line = name.place.line then entry name t :: joinEntries rest
    else key name :: token t :: joinEntries rest
  | i :: rest => i :: joinEntries rest

/-- The items that tokens form. -/
def ofTokens? (ts : List Token) : Option (List Item) :=
  ((joinTexts? ts).bind joinKeys?).map joinEntries

end Item

/-- The items of each document. A mark that starts a document ends the one before it; two such marks
in a row end the whole text. `seen` are the items of the present document, the last one first. -/
def splitDocuments? (seen : List Item) : List Item → Option (List (List Item))
  | [] => some [seen.reverse]
  | i :: rest =>
    if i.isMark .documentStart then
      match rest with
      | [] => some [seen.reverse]
      | next :: _ =>
        if next.isMark .documentStart then some [seen.reverse]
        else if next.line = i.line && (next.isKeyed || next.isMark .dash) then none
        else (splitDocuments? [] rest).map (seen.reverse :: ·)
    else if i.isMark .documentEnd then
      if (rest.head?.map Item.isScalar).getD false then none
      else (splitDocuments? [] rest).map (seen.reverse :: ·)
    else splitDocuments? (i :: seen) rest

end ShaderEffect.Yaml

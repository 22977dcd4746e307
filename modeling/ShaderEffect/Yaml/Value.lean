import ShaderEffect.Yaml.Item
import ShaderEffect.Yaml.Lexer

/-!
Values of YAML documents and how they are read from items.

Maps and lists have a block form, in which columns tell what belongs together, and a flow form in
brackets. Reading functions take the items from the front and give back those that are left; `limit`
bounds their depth.
-/
namespace ShaderEffect.Yaml

/-- A key of a map. -/
structure Key where
  /-- The key as it is written, without quotes. -/
  text : String
  value : Scalar
deriving DecidableEq, Repr, Inhabited

/-- What a document or a part of it stands for. -/
inductive Value where
  | scalar (s : Scalar)
  | list (items : List Value)
  | map (entries : List (Key × Value))
deriving Repr, Inhabited

/-- The key that a scalar is. -/
def Key.ofScalar? (t : Token) : Option Key := do
  return { text := ← t.written?, value := ← t.value? }

/-- The key that stands in front of a colon. It must not go over several lines. -/
def Key.ofToken? (flow : Bool) (t : Token) : Option Key :=
  let isSpace (c : Char) : Bool := c = ' ' || isLineEnd c
  let source := t.source.dropWhile isSpace
  let source := if flow && t.isBareText then (source.reverse.dropWhile isSpace).reverse else source
  if source.any isLineEnd then none else ofScalar? t

/-- Whether no two entries have keys with the same text. -/
def distinctKeys : List (Key × Value) → Bool
  | [] => true
  | (key, _) :: rest => !rest.any (·.1.text = key.text) && distinctKeys rest

/-- The map with some entries. -/
def Value.ofEntries? (entries : List (Key × Value)) : Option Value :=
  if distinctKeys entries then some (.map entries) else none

/-- Whether a scalar behind a key is followed by something that does not belong there. -/
def isMisplaced (flow : Bool) (name : Token) (next : Item) : Bool :=
  next.column > name.place.column && !(flow && (next.isMark .comma || next.isMark .listEnd))

/-- Whether a key has no value: what follows it belongs to the maps and lists around it. -/
def leavesKey (name : Token) (next : Item) : Bool :=
  next.column < name.place.column || (next.column = name.place.column && next.isMapPart)

/-- Whether a key is followed by an entry on its own line. -/
def isChained (name : Token) (next : Item) : Bool :=
  next.isKeyed && next.line = name.place.line && next.column ≠ name.place.column

/-- Whether a dash has no value: what follows it is the next item or belongs to the maps and
lists around it. -/
def leavesDash (column : Nat) (next : Item) : Bool :=
  next.column < column || (next.column = column && next.isMark .dash)

/-- Whether an item ends an entry in braces. -/
def endsEntry (next : Item) : Bool :=
  next.isMark .comma || next.isMark .mapEnd

mutual

/-- Reads a value. -/
def value? : (limit : Nat) → (flow : Bool) → List Item → Option (Value × List Item)
  | limit + 1, flow, i :: rest =>
    match i with
    | .key _ | .entry _ _ => do
      let (entries, rest) ← blockMap? limit flow (i :: rest)
      return (← Value.ofEntries? entries, rest)
    | .token t =>
      match t.kind with
      | .mapStart => do
        let hasComma := (rest.head?.map (·.isMark .comma)).getD false
        let (entries, rest) ← flowMap? limit (if hasComma then rest.tail else rest)
        return (← Value.ofEntries? entries, rest)
      | .listStart => do
        let (items, rest) ← flowList? limit rest
        return (.list items, rest)
      | .dash => do
        let (items, rest) ← blockList? limit flow t.place.column (i :: rest)
        return (.list items, rest)
      | _ => t.value?.map fun s => (.scalar s, rest)
  | _, _, _ => none

/-- Reads the value of a key that has nothing behind it on its line, or more than a scalar. -/
def keyValue? :
    (limit : Nat) → (flow : Bool) → (name : Token) → List Item → Option (Value × List Item)
  | _, _, _, [] => some (.scalar .null, [])
  | 0, _, _, _ => none
  | limit + 1, flow, name, next :: rest =>
    if isChained name next || (next.isMark .dash && next.line = name.place.line) then none
    else if leavesKey name next then some (.scalar .null, next :: rest)
    else value? limit flow (next :: rest)

/-- Reads a map without braces. -/
def blockMap? :
    (limit : Nat) → (flow : Bool) → List Item → Option (List (Key × Value) × List Item)
  | limit + 1, flow, .entry name value :: rest => do
    let key ← Key.ofToken? flow name
    let value ← value.value?
    if (rest.head?.map (isMisplaced flow name)).getD false then none
    let (entries, rest) ← moreEntries? limit flow name.place.column rest
    return ((key, .scalar value) :: entries, rest)
  | limit + 1, flow, .key name :: rest => do
    let key ← Key.ofToken? flow name
    let (value, rest) ← keyValue? limit flow name rest
    let (entries, rest) ← moreEntries? limit flow name.place.column rest
    return ((key, value) :: entries, rest)
  | _, _, _ => none

/-- Reads the entries that follow at the column of the first one. -/
def moreEntries? :
    (limit : Nat) → (flow : Bool) →
      (column : Nat) → List Item → Option (List (Key × Value) × List Item)
  | _, _, _, [] => some ([], [])
  | 0, _, _, _ => none
  | limit + 1, flow, column, next :: rest =>
    if next.column ≠ column || (flow && next.isMark .listEnd) then some ([], next :: rest)
    else if next.isMark .mapEnd then some ([], rest)
    else do
      let (entries, rest) ← blockMap? limit flow (next :: rest)
      let (more, rest) ← moreEntries? limit flow column rest
      return (entries ++ more, rest)

/-- Reads the items of a list behind dashes at a column. -/
def blockList? :
    (limit : Nat) → (flow : Bool) →
      (column : Nat) → List Item → Option (List Value × List Item)
  | _, _, _, [] => some ([], [])
  | 0, _, _, _ => none
  | limit + 1, flow, column, i :: rest =>
    if !i.isMark .dash || i.column ≠ column then some ([], i :: rest)
    else do
      let isEmpty := (rest.head?.map (leavesDash column)).getD true
      let (value, rest) ← if isEmpty then some (.scalar .null, rest) else value? limit flow rest
      let (values, rest) ← blockList? limit flow column rest
      return (value :: values, rest)

/-- Reads the items of a list up to behind its bracket. -/
def flowList? : (limit : Nat) → List Item → Option (List Value × List Item)
  | limit + 1, i :: rest =>
    if i.isMark .listEnd then some ([], rest)
    else do
      let (value, rest) ← value? limit true (i :: rest)
      match rest with
      | [] => none
      | next :: rest =>
        if next.isMark .listEnd then return ([value], rest)
        else if next.isMark .comma then
          let (values, rest) ← flowList? limit rest
          return (value :: values, rest)
        else none
  | _, _ => none

/-- Reads the entries of a map up to behind its brace. -/
def flowMap? : (limit : Nat) → List Item → Option (List (Key × Value) × List Item)
  | limit + 1, i :: rest =>
    if i.isMark .mapEnd then some ([], rest)
    else do
      let (entry, rest) ← flowEntry? limit (i :: rest)
      match rest with
      | [] => none
      | next :: rest =>
        if next.isMark .mapEnd then return ([entry], rest)
        else if next.isMark .comma then
          let (entries, rest) ← flowMap? limit rest
          return (entry :: entries, rest)
        else none
  | _, _ => none

/-- Reads an entry in braces. A scalar without a colon is a key, too. -/
def flowEntry? : (limit : Nat) → List Item → Option ((Key × Value) × List Item)
  | limit + 1, i :: next :: rest => do
    match i with
    | .entry name value =>
      return ((← Key.ofToken? true name, .scalar (← value.value?)), next :: rest)
    | .key name =>
      let key ← Key.ofToken? true name
      if endsEntry next then return ((key, .scalar .null), next :: rest)
      let (value, rest) ← value? limit true (next :: rest)
      return ((key, value), rest)
    | .token t =>
      if endsEntry next then return ((← Key.ofScalar? t, .scalar .null), next :: rest) else none
  | _, _ => none

end

/-- The value that items form together. -/
def Value.ofItems? (items : List Item) : Option Value := do
  let (value, rest) ← value? (4 * items.length + 4) false items
  if rest.isEmpty then some value else none

/-- The values of the documents of a text. Those without any items do not count. -/
def documents? (text : String) : Option (List Value) := do
  let items ← (tokens? text).bind Item.ofTokens?
  let documents ← splitDocuments? [] items
  (documents.filter (!·.isEmpty)).mapM Value.ofItems?

end ShaderEffect.Yaml

import ShaderEffect.Yaml.Scalar

namespace ShaderEffect.Yaml

/-- A document to be written. -/
inductive Node where
  /-- A number or a truth value in its written form. -/
  | plain (s : String)
  | text (s : String)
  | list (items : List Node)
  /-- A list of texts on one line. -/
  | row (items : List String)
  | map (entries : List (String × Node))
deriving Inhabited

/-- The line break of a text: the one that its other line breaks agree with. -/
def lineBreak (s : String) : String :=
  let cs := s.toList
  let feeds := cs.count '\n'
  let returns := cs.count '\r'
  let pairs := Text.occurrences ['\r', '\n'] cs
  if feeds = pairs && returns = pairs then "\r\n" else if returns > feeds then "\r" else "\n"

/-- The mark of a text that is written line by line: whether its end has no line break, one or
several. -/
def literalMark (lineEnd s : String) : String :=
  if Text.endsWith (lineEnd ++ lineEnd) s then "|+"
    else if Text.endsWith lineEnd s then "|" else "|-"

/-- A text written line by line below its mark. What is left of the last line without its
indentation is left out. -/
def literalText (s : String) : String :=
  let lineEnd := lineBreak s
  let lines := (Text.splitBy lineEnd s).map (Text.spaces 2 ++ ·)
  let body := Text.stripEnding (lineEnd ++ Text.spaces 2) (Text.join lineEnd lines)
  literalMark lineEnd s ++ lineEnd ++ Text.stripEnding (Text.spaces 2) body

/-- A text as a scalar. One with line breaks takes further lines. -/
def textLines (s : String) : List String :=
  if needsQuotes s then [Text.quoted s]
  else if Text.contains (lineBreak s) s then Text.split '\n' (literalText s)
  else [s]

/-- Puts a mark before the first line, and blanks before all others that are not empty. -/
def hang (mark : String) (width : Nat) : List String → List String
  | [] => [mark]
  | first :: rest =>
    (mark ++ first) :: rest.map fun s => if s = "" then s else Text.spaces width ++ s

/-- The lines of an entry whose value has the given lines. -/
def entryLines (key : String) (value : Node) (lines : List String) : List String :=
  match value with
  | .list (_ :: _) => (key ++ ":") :: lines
  | .map (_ :: _) => (key ++ ":") :: lines.map (Text.spaces 2 ++ ·)
  | _ => hang (key ++ ": ") 0 lines

mutual

/-- The lines of a document. -/
def Node.lines : Node → List String
  | .plain s => [s]
  | .text s => textLines s
  | .list [] => ["[]"]
  | .list (first :: rest) => listLines (first :: rest)
  | .row items =>
    ["[" ++ Text.join ", " (items.map fun s => if needsQuotes s then Text.quoted s else s) ++ "]"]
  | .map [] => ["\x7b\x7d"]
  | .map (first :: rest) => mapLines (first :: rest)

/-- The lines of the items of a list. -/
def listLines : List Node → List String
  | [] => []
  | item :: rest => hang "- " 2 item.lines ++ listLines rest

/-- The lines of the entries of a map. -/
def mapLines : List (String × Node) → List String
  | [] => []
  | (key, value) :: rest => entryLines key value value.lines ++ mapLines rest

end

/-- The text of a document. -/
def Node.render (n : Node) : String :=
  String.join (n.lines.map (· ++ "\n"))

end ShaderEffect.Yaml

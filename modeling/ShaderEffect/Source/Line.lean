import ShaderEffect.Ty

namespace ShaderEffect.Source

/-- The name of a value that has no other. -/
def plainName (id : Id) : String :=
  "_" ++ toString id.toNat

/-- What a line of code holds. -/
inductive Content where
  | text (s : String)
  /-- A directive stands at the beginning of its line, however deep the code around it is. -/
  | directive (s : String)
  /-- The declaration of a value, with its initial value if it has one. -/
  | declaration (type : String) (id : Id) (suffix : String) (init : Option String)
  /-- The place of the code that a loop runs in front of its next round, which is not known before
  the loop is complete. -/
  | continueMark (loop : Id)
deriving DecidableEq, Repr, Inhabited

/-- A line of code at a depth. -/
structure Line where
  depth : Nat := 1
  content : Content
deriving DecidableEq, Repr, Inhabited

namespace Line

def text (depth : Nat) (s : String) : Line :=
  { depth, content := .text s }

def directive (s : String) : Line :=
  { depth := 0, content := .directive s }

/-- The line moved deeper by `n`. -/
def deeper (n : Nat) (l : Line) : Line :=
  match l.content with
  | .directive _ => l
  | _ => { l with depth := l.depth + n }

/-- The text of what a line holds. -/
def body (l : Line) : String :=
  match l.content with
  | .text s | .directive s => s
  | .declaration type id suffix none => type ++ " " ++ plainName id ++ suffix ++ ";"
  | .declaration type id suffix (some e) =>
    type ++ " " ++ plainName id ++ suffix ++ " = " ++ e ++ ";"
  | .continueMark loop => "__CONTINUE__" ++ toString loop.toNat

def render (l : Line) : String :=
  String.ofList (List.replicate l.depth '\t') ++ l.body ++ "\n"

end Line

/-- Lines of code in their order. -/
abbrev Lines := List Line

namespace Lines

def deeper (n : Nat) (ls : Lines) : Lines :=
  ls.map (Line.deeper n)

def render (ls : Lines) : String :=
  String.join (ls.map Line.render)

/-- Puts code in the place of the marks of a loop, as deep as the marks are. -/
def replaceContinue (ls : Lines) (loop : Id) (code : Lines) : Lines :=
  ls.flatMap fun l =>
    if l.content = .continueMark loop then deeper l.depth code else [l]

/-- The initial value that a line gives to an id where it declares it. -/
def initOf? (id : Id) (l : Line) : Option String :=
  match l.content with
  | .declaration _ other "" (some e) => if other = id then some e else none
  | _ => none

/-- Whether a line declares an id without a value. -/
def isBare (id : Id) (l : Line) : Bool :=
  match l.content with
  | .declaration _ other "" none => other = id
  | _ => false

/-- The lines in which the declaration of an id is an assignment, if there is one. With `bare` a
declaration without a value counts as well and is removed. -/
def assignInstead? (bare : Bool) (id : Id) : Lines → Option Lines
  | [] => none
  | l :: rest =>
    match initOf? id l with
    | some e => some ({ l with content := .text (plainName id ++ " = " ++ e ++ ";") } :: rest)
    | none =>
      if bare && isBare id l then some rest
      else (assignInstead? bare id rest).map (l :: ·)

end Lines
end ShaderEffect.Source

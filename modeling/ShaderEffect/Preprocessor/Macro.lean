import ShaderEffect.Basic
import ShaderEffect.Text

namespace ShaderEffect.Preprocessor

/-- One element of a replacement list. Parameters are given by their position. -/
inductive Piece where
  | text (s : String)
  /-- A parameter, replaced by the expanded argument. -/
  | argument (index : Int)
  /-- A parameter behind `#`, replaced by the quoted argument. -/
  | stringize (index : Int)
  /-- The operator `##`. -/
  | concat
deriving DecidableEq, Repr, Inhabited

structure Macro where
  replacement : List Piece := []
  parameters : List String := []
  functionLike : Bool := false
deriving DecidableEq, Repr, Inhabited

/-- Blanks that are cut off replacement texts and arguments. -/
def isPadding (c : Char) : Bool :=
  c = ' ' || c = '\t'

def trimLeft (s : String) : String :=
  String.ofList (s.toList.dropWhile isPadding)

def trimRight (s : String) : String :=
  String.ofList (s.toList.reverse.dropWhile isPadding).reverse

/-- An element of a list at a signed position. -/
def at? {α : Type} (xs : List α) (i : Int) : Except Fault α :=
  match (if 0 ≤ i then xs[i.toNat]? else none) with
  | some x => pure x
  | none => throw .outOfRange

namespace Macro

/-- The source text of the replacement list. -/
def text (m : Macro) : Except Fault String := do
  let parts ← m.replacement.mapM fun
    | .text s => pure s
    | .argument i => at? m.parameters i
    | .stringize i => return "#" ++ (← at? m.parameters i)
    | .concat => pure "##"
  pure (String.join parts)

/-- Adds text behind a replacement list. -/
def appendText (pieces : List Piece) (s : String) : List Piece :=
  match pieces with
  | [] => [.text s]
  | [.text t] => [.text (t ++ s)]
  | p :: rest => p :: appendText rest s

/-- The position of a parameter. -/
def parameterIndex? (m : Macro) (name : String) : Option Nat :=
  m.parameters.findIdx? (· = name)

/-- Applies a function to a piece of text. -/
def onText (f : String → String) : Piece → Piece
  | .text s => .text (f s)
  | p => p

/-- The replacement list without blanks at its two ends. -/
def trimmed (pieces : List Piece) : List Piece :=
  let front :=
    match pieces with
    | [] => []
    | p :: rest => onText trimLeft p :: rest
  match front.reverse with
  | [] => []
  | p :: rest => (onText trimRight p :: rest).reverse

/-- The macro with the given name-free text as its replacement. -/
def ofText (s : String) : Macro :=
  { replacement := [.text s] }

end Macro
end ShaderEffect.Preprocessor

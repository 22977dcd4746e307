import ShaderEffect.Text.Utf8
import ShaderEffect.Yaml.Scalar

namespace ShaderEffect.Yaml

/-- Where a token starts. Lines and columns count from one. -/
structure Place where
  line : Nat := 1
  column : Nat := 1
deriving DecidableEq, Repr, Inhabited

namespace Token

/-- What a token is. -/
inductive Kind where
  /-- A scalar without quotes, as it is written. -/
  | plain (s : String)
  /-- A scalar in quotes, without them. -/
  | quoted (s : String)
  /-- A scalar that is a text, whatever it looks like. -/
  | text (s : String)
  /-- The mark in front of a text that is given line by line. -/
  | block
  | dash | colon | comma
  | listStart | listEnd
  | mapStart | mapEnd
  | documentStart | documentEnd
deriving DecidableEq, Repr, Inhabited

end Token

/-- A token, with the source text from the end of the token before it. -/
structure Token where
  kind : Token.Kind
  place : Place
  source : List Char := []
deriving DecidableEq, Repr, Inhabited

namespace Token

/-- The byte string of a list of characters. -/
def encode (cs : List Char) : String :=
  String.ofList (cs.flatMap fun c => Text.utf8 c.toNat)

/-- The text of a scalar as it is written, without quotes. -/
def written? (t : Token) : Option String :=
  match t.kind with
  | .plain s | .quoted s | .text s => some s
  | _ => none

def isScalar (t : Token) : Bool :=
  t.written?.isSome

/-- What a scalar stands for. -/
def value? (t : Token) : Option Scalar :=
  match t.kind with
  | .plain s => some (Scalar.ofPlain s)
  | .quoted s | .text s => some (.text s)
  | _ => none

/-- Whether a token is a text without quotes. -/
def isBareText (t : Token) : Bool :=
  match t.kind with
  | .plain s => Scalar.ofPlain s = .text s
  | .text _ => true
  | _ => false

end Token

/-- Whether a character ends a line. -/
def isLineEnd (c : Char) : Bool :=
  c = '\n' || c = '\r'

/-- Whether a character is a blank or a tab. -/
def isBlank (c : Char) : Bool :=
  c = ' ' || c = '\t'

/-- Whether a line with the mark between documents or at their end follows. -/
def startsWithMarker (cs : List Char) : Bool :=
  let marker := cs.take 3
  (marker = ['-', '-', '-'] || marker = ['.', '.', '.'])
    && ((cs.drop 3).head?.map fun c => isBlank c || isLineEnd c).getD true

end ShaderEffect.Yaml

import ShaderEffect.Text.LowerCase

namespace ShaderEffect.Glsl

/-- A version of the language. Major version 0 stands for none. -/
structure Version where
  major : UInt8 := 0
  minor : UInt8 := 0
  /-- The variant for embedded systems. -/
  es : Bool := false
deriving DecidableEq, Repr, Inhabited

namespace Version

def v450 : Version := { major := 4, minor := 50 }

/-- Whether no version was chosen. -/
def isNone (v : Version) : Bool :=
  v.major = 0

/-- The value of a `#version` directive. -/
def render (v : Version) : String :=
  let minor := toString v.minor.toNat
  let minor := if minor.length < 2 then "0" ++ minor else minor
  toString v.major.toNat ++ minor ++ (if v.es then " es" else " core")

/-- Why a text is no version. -/
inductive Invalid where
  | version (text : String)
  | profile (word : String)
deriving DecidableEq, Repr, Inhabited

def Invalid.message : Invalid → String
  | version text => "glsl: invalid version " ++ Text.quoted text
  | profile word => "glsl: invalid version profile " ++ Text.quoted word

/-- Whether the word behind the number selects the variant for embedded systems. -/
def profile (word : String) : Except Invalid Bool :=
  if word = "es" then pure true
  else if word = "core" then pure false
  else throw (.profile word)

/-- Reads a version: three digits and, behind them, possibly `es` or `core`. An empty text is no
version. -/
def parse (text : String) : Except Invalid Version :=
  match Text.words (Text.lowerCase text) with
  | [] => pure {}
  | number :: rest =>
    match rest, Text.parseInt? number with
    | _ :: _ :: _, _ => throw (.version text)
    | _, none => throw (.version text)
    | rest, some n =>
      if n < 100 || n > 999 then throw (.version text)
      else do
        let es ← (rest.mapM profile).map (·.any id)
        pure { major := UInt8.ofNat (n.toNat / 100), minor := UInt8.ofNat (n.toNat % 100), es }

end Version
end ShaderEffect.Glsl

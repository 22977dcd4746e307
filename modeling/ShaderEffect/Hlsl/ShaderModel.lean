import ShaderEffect.Text.LowerCase

namespace ShaderEffect.Hlsl

/-- A shader model as ten times its major version plus its minor version. -/
structure ShaderModel where
  number : UInt8 := 0
deriving DecidableEq, Repr, Inhabited

namespace ShaderModel

def sm40 : ShaderModel := ⟨40⟩
def sm41 : ShaderModel := ⟨41⟩
def sm50 : ShaderModel := ⟨50⟩

/-- The models that code can be generated for. -/
def supported : List ShaderModel := [sm40, sm41, sm50]

def isSupported (m : ShaderModel) : Bool :=
  supported.contains m

/-- Whether single channels of four texels can be fetched at once. -/
def supportsGather (m : ShaderModel) : Bool :=
  m.number ≥ 50

/-- Whether multiply-add and reciprocal are built in. -/
def supportsMad (m : ShaderModel) : Bool :=
  m.number ≥ 50

def major (m : ShaderModel) : Nat :=
  m.number.toNat / 10

def minor (m : ShaderModel) : Nat :=
  m.number.toNat % 10

def render (m : ShaderModel) : String :=
  "SM " ++ toString m.major ++ "." ++ toString m.minor

/-- The profile under which a stage is compiled. -/
def profile (m : ShaderModel) (isPixelShader : Bool) : String :=
  (if isPixelShader then "ps_" else "vs_") ++ toString m.major ++ "_" ++ toString m.minor

/-- A model that is not supported, as it was given. -/
structure Unsupported where
  text : String
deriving DecidableEq, Repr, Inhabited

def Unsupported.message (e : Unsupported) : String :=
  "hlsl: unsupported shader model: " ++ e.text

/-- Reads a model, with or without `sm` in front. Points, underscores and blanks between the
digits mean nothing. -/
def parse (text : String) : Except Unsupported ShaderModel :=
  let word := Text.lowerCase (Text.trim text)
  let word := (Text.stripBeginning? "sm" word).getD word
  match String.ofList (word.toList.filter fun c => c ≠ '.' && c ≠ '_' && c ≠ ' ') with
  | "40" | "4" => pure sm40
  | "41" => pure sm41
  | "50" | "5" => pure sm50
  | _ => throw ⟨Text.quoted text⟩

/-- Refuses a model that code cannot be generated for. -/
def require (m : ShaderModel) : Except Unsupported Unit :=
  if m.isSupported then pure () else throw ⟨m.render⟩

end ShaderModel
end ShaderEffect.Hlsl

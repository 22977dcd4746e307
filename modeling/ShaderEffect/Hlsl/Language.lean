import ShaderEffect.Hlsl.ShaderModel
import ShaderEffect.Source.Declaration
import ShaderEffect.Text

namespace ShaderEffect.Hlsl

open Source

/-- Words that effects may use as names, but HLSL does not. -/
def reservedWords : List String :=
  ["AppendStructuredBuffer", "BlendState", "Buffer", "ByteAddressBuffer", "ComputeShader",
    "ConsumeStructuredBuffer", "DepthStencilState", "DepthStencilView", "DomainShader",
    "GeometryShader", "Hullshader", "InputPatch", "LineStream", "OutputPatch", "PixelShader",
    "PointStream", "RasterizerState", "RenderTargetView", "RWBuffer", "RWByteAddressBuffer",
    "RWStructuredBuffer", "RWTexture1D", "RWTexture1DArray", "RWTexture2D", "RWTexture2DArray",
    "RWTexture3D", "SamplerComparisonState", "StructuredBuffer", "TriangleStream", "VertexShader",
    "cbuffer", "tbuffer", "export", "lineadj", "line", "point", "triangle", "triangleadj",
    "uniform", "min16float", "min10float", "min16int", "min12int", "min16uint", "globallycoherent",
    "numthreads", "maxvertexcount", "unroll", "loop", "flatten", "branch", "fastopt",
    "allow_uav_condition", "forcecase", "call"]

/-- A name of the effect as a valid name. Words that cannot be used get an underscore in front, and
those that cannot be used in any case get an ending. -/
def escapeName (name : String) : String :=
  let lower := Text.lower name
  if lower = "pass" || lower = "technique" then name ++ "_RESERVED"
  else if reservedWords.contains name then "_" ++ name
  else name

structure Options where
  shaderModel : ShaderModel := .sm50
  debugInfo : Bool := false
  uniformsToSpecConstants : Bool := false
deriving DecidableEq, Repr, Inhabited

/-- What is kept for HLSL in particular. -/
structure Language where
  options : Options := {}
  /-- The registers of the sampler states in use. Equal states share one. -/
  samplerStates : Table SamplerState UInt32 := []
  /-- The source that the last location was in. -/
  lastSource : String := ""
deriving Inhabited

def scalarName : Base → String
  | .bool => "bool"
  | .int => "int"
  | .uint => "uint"
  | _ => "float"

/-- The name of a scalar, vector or matrix type. -/
def numericName (t : Ty) : String :=
  let rows := toString t.rows.toNat
  if t.isMatrix then scalarName t.base ++ rows ++ "x" ++ toString t.cols.toNat
  else if t.rows > 1 then scalarName t.base ++ rows
  else scalarName t.base

/-- Values that have no literal are given by their bits. -/
def specialText (x : Number.Single) : Option String :=
  if x.isNaN then some "asfloat(0x7FC00000)"
  else if x.isInfinite then
    some (if x.isNegative then "asfloat(0xFF800000)" else "asfloat(0x7F800000)")
  else none

/-- The words for interpolation. -/
def interpolation (t : Ty) : String :=
  interpolationMark "linear" "noperspective" "centroid" "nointerpolation" t

/-- What stands in front of a type. -/
def modifiers : TypeRole → Ty → String
  | .plain, _ => ""
  | .parameter, t => interpolation t ++ directionMark t
  | .declaration, t => preciseMark t
  | .member, t => interpolation t ++ preciseMark t

/-- The present name of a semantic that has an older one. -/
def convertSemantic (semantic : String) : String :=
  match semantic with
  | "POSITION" | "VPOS" => "SV_POSITION"
  | "DEPTH" => "SV_DEPTH"
  | _ =>
    match Text.stripBeginning? "COLOR" semantic with
    | some number =>
      if number = "" || (Text.parseInt? number).isSome then "SV_TARGET" ++ number else semantic
    | none => semantic

def semanticSuffix (semantic : String) : String :=
  if semantic = "" then "" else " : " ++ convertSemantic semantic

/-- The directive for a location. The source is named only when it changes. -/
def lineDirective (l : Language) (location : Location) : String × Language :=
  let line := "#line " ++ toString location.line
  if location.source = l.lastSource then (line, l)
  else
    let source := location.source.map fun c => if c = '\\' then '/' else c
    (line ++ " \"" ++ source ++ "\"", { l with lastSource := location.source })

/-- The lines that ask for something in front of a loop or a selection. -/
def attributes (isLoop : Bool) (hint : ControlHint) : Lines :=
  let (on, off) := if isLoop then ("unroll", "loop") else ("flatten", "branch")
  (if hint &&& 1 ≠ 0 then [.text 1 ("[" ++ on ++ "]")] else [])
    ++ (if hint &&& 2 ≠ 0 then [.text 1 ("[" ++ off ++ "]")] else [])

instance : Dialect Language where
  target := .hlsl
  escape := escapeName
  numericName := numericName
  samplerName := "__sampler2D"
  textureName := "Texture2D"
  modifiers := modifiers
  semanticSuffix := semanticSuffix
  globalMark := "static "
  constantMark inBlock := if inBlock then "const " else "static const "
  lineDirective := lineDirective
  attributes := attributes
  afterAttributes := id
  movesBareDeclarations := false

/-- A list of initial values. -/
def listText (values : List String) : String :=
  "\x7b " ++ Text.join ", " values ++ " \x7d"

/-- The literal of a value that is no array. -/
def elementLiteral (t : Ty) (c : Constant) : SourceM Language String := do
  if t.isStruct then return "(" ++ (← nameOf t.definition) ++ ")0"
  return numericLiteral specialText (numericName t) t c

/-- The literal of a value. -/
def literal (t : Ty) (c : Constant) : SourceM Language String := do
  if t.isArray then return listText (← (← elementsOf t c).mapM (elementLiteral t.element))
  elementLiteral t c

instance : Literals Language := ⟨literal⟩

end ShaderEffect.Hlsl

import ShaderEffect.Hlsl.Language

namespace ShaderEffect.Hlsl

open Source Generator

/-- A value converted to a type. -/
def castText (t : Ty) (value : String) : SourceM Language String := do
  return "((" ++ (← typeName .plain t) ++ ")" ++ value ++ ")"

/-- The elements that a swizzle selects from a matrix. -/
def matrixSwizzle (lanes : List Int) : String :=
  String.join (lanes.map fun lane => s!"_m{lane.toNat / 4}{lane.toNat % 4}")

/-- The lanes of a swizzle that are in use. -/
def usedLanes (lanes : List Int) : List Int :=
  (lanes.take 4).takeWhile (· ≥ 0)

/-- Writes an access behind a value. Literals cannot be swizzled, so scalars are converted. -/
def applyAccess (text : String) (a : Access) : SourceM Language String := do
  match a with
  | .cast _ target => castText target text
  | .member source _ i =>
    match (((← get).members? source).getD [])[i.toNat]? with
    | some m => return text ++ "." ++ escapeName m.name
    | none => throw .outOfRange
  | .dynamicIndex _ _ i => return text ++ "[" ++ (← nameOf i) ++ "]"
  | .constantIndex source _ i =>
    if source.isVector && !source.isArray then
      return text ++ "." ++ String.singleton (componentLetter i.toNat)
    return text ++ "[" ++ toString i.toNat ++ "]"
  | .swizzle source target lanes =>
    if source.isMatrix then return text ++ "." ++ matrixSwizzle (usedLanes lanes)
    if source.rows = 1 && source.cols = 1 && !source.isArray then return ← castText target text
    return text ++ "." ++ swizzleText (usedLanes lanes)

/-- The value of an expression. -/
def accessText (e : Expression) : SourceM Language String := do
  e.chain.foldlM applyAccess (← nameOf e.base)

/-- Writes a value to an expression. -/
def storeValue (e : Expression) (value : Id) : SourceM Language Unit := do
  writeLocation e.location
  writeText ((← accessText e) ++ " = " ++ (← nameOf value) ++ ";")

def emitUnary (location : Location) (op : UnaryOp) (t : Ty) (value : Id) : SourceM Language Id := do
  let operator :=
    match op with
    | .negate => "-"
    | .complement => "~"
    | .not => "!"
  declare location t (operator ++ (← nameOf value))

def emitBinary (location : Location) (op : BinaryOp) (result _operands : Ty) (left right : Id) :
    SourceM Language Id := do
  declare location result ((← nameOf left) ++ " " ++ op.symbol ++ " " ++ (← nameOf right))

def emitSelect (location : Location) (t : Ty) (condition yes no : Id) : SourceM Language Id := do
  declare location t ((← nameOf condition) ++ " ? " ++ (← nameOf yes) ++ " : "
    ++ (← nameOf no))

/-- Makes a value from its components. Arrays and structures are lists. -/
def emitConstruct (location : Location) (t : Ty) (args : List Expression) :
    SourceM Language Id := do
  let args ← argumentNames args
  if t.isArray || t.isStruct then declare location t (listText args)
  else declare location t (callText (← typeName .plain t) args)

/-- Functions that are one call with the arguments in their order. -/
def directFunction? : Intrinsic → Option String
  | .absInt | .absFloat => some "abs"
  | .asin => some "asin"
  | .acos => some "acos"
  | .atan => some "atan"
  | .atan2 => some "atan2"
  | .sin => some "sin"
  | .sinh => some "sinh"
  | .cos => some "cos"
  | .cosh => some "cosh"
  | .tan => some "tan"
  | .tanh => some "tanh"
  | .asint => some "asint"
  | .asuint => some "asuint"
  | .asfloatInt | .asfloatUint => some "asfloat"
  | .ceil => some "ceil"
  | .floor => some "floor"
  | .clampInt | .clampUint | .clampFloat => some "clamp"
  | .saturate => some "saturate"
  | .pow => some "pow"
  | .exp => some "exp"
  | .exp2 => some "exp2"
  | .log => some "log"
  | .log2 => some "log2"
  | .log10 => some "log10"
  | .signInt | .signFloat => some "sign"
  | .sqrt => some "sqrt"
  | .rsqrt => some "rsqrt"
  | .lerp => some "lerp"
  | .step => some "step"
  | .smoothstep => some "smoothstep"
  | .frac => some "frac"
  | .ldexp => some "ldexp"
  | .modf => some "modf"
  | .frexp => some "frexp"
  | .trunc => some "trunc"
  | .round => some "round"
  | .minInt | .minFloat => some "min"
  | .maxInt | .maxFloat => some "max"
  | .degrees => some "degrees"
  | .radians => some "radians"
  | .ddx => some "ddx"
  | .ddy => some "ddy"
  | .fwidth => some "fwidth"
  | .dot => some "dot"
  | .cross => some "cross"
  | .length => some "length"
  | .distance => some "distance"
  | .normalize => some "normalize"
  | .transpose => some "transpose"
  | .determinant => some "determinant"
  | .reflect => some "reflect"
  | .refract => some "refract"
  | .faceforward => some "faceforward"
  | .isinf => some "isinf"
  | .isnan => some "isnan"
  | .allVector => some "all"
  | .anyVector => some "any"
  | .mulVectorMatrix | .mulMatrixVector | .mulMatrixMatrix => some "mul"
  | _ => none

/-- Calls a method of the texture of a sampler with its sampler state. -/
def sampleText (sampler method : String) (args : List String) : String :=
  callText (sampler ++ ".t." ++ method) ((sampler ++ ".s") :: args)

/-- The method that gathers a channel. -/
def gatherMethod : Fin 4 → String
  | 0 => "GatherRed"
  | 1 => "GatherGreen"
  | 2 => "GatherBlue"
  | 3 => "GatherAlpha"

/-- The letter of a color channel. -/
def channelLetter : Fin 4 → String
  | 0 => "r"
  | 1 => "g"
  | 2 => "b"
  | 3 => "a"

/-- The texels around a coordinate, in the order in which they are gathered. -/
def gatheredTexels : List String :=
  ["int2(0, 1)", "int2(1, 1)", "int2(1, 0)", "int2(0, 0)"]

/-- Reads a channel of the four texels around a coordinate. Where that cannot be done at once, they
are sampled one by one. -/
def gatherText (m : ShaderModel) (channel : Fin 4) (sampler coordinate : String)
    (offset : Option String) :
    String :=
  if m.supportsGather then sampleText sampler (gatherMethod channel) (coordinate :: offset.toList)
  else
    let shift := match offset with | some o => o ++ " + " | none => ""
    callText "float4" (gatheredTexels.map fun texel =>
      sampleText sampler "SampleLevel" [coordinate, "0", shift ++ texel] ++ "."
        ++ channelLetter channel)

/-- The expression that computes a built-in function. -/
def intrinsicText (m : ShaderModel) (i : Intrinsic) (names : List String) : String :=
  let a := names.getD 0 ""
  let b := names.getD 1 ""
  let c := names.getD 2 ""
  match directFunction? i, i.gather? with
  | some function, _ => callText function names
  | none, some (channel, withOffset) =>
    gatherText m channel a b (if withOffset then some c else none)
  | none, none =>
    match i with
    | .allScalar | .anyScalar => "(bool)" ++ a
    | .sincos => b ++ " = sin(" ++ a ++ "), " ++ c ++ " = cos(" ++ a ++ ")"
    | .mad => if m.supportsMad then callText "mad" [a, b, c]
      else "(" ++ a ++ " * " ++ b ++ " + " ++ c ++ ")"
    | .rcp => if m.supportsMad then callText "rcp" [a] else "(1.0 / " ++ a ++ ")"
    | .mulScalarVector | .mulVectorScalar | .mulScalarMatrix | .mulMatrixScalar =>
      "(" ++ a ++ " * " ++ b ++ ")"
    | .tex2D => sampleText a "Sample" [b]
    | .tex2DOffset => sampleText a "Sample" [b, c]
    | .tex2DLod => sampleText a "SampleLevel" [b ++ ".xy", b ++ ".w"]
    | .tex2DLodOffset => sampleText a "SampleLevel" [b ++ ".xy", b ++ ".w", c]
    | .tex2DFetch => callText (a ++ ".t.Load") [callText "int3" [b, "0"]]
    | .tex2DFetchLod => callText (a ++ ".t.Load") [callText "int3" [b, c]]
    | _ => ""

/-- Asks for the size of a texture, or of one of its levels. The answer is written to variables. -/
def emitTextureSize (location : Location) (result : Ty) (sampler : String) (level : Option String) :
    SourceM Language Id := do
  let id ← makeId
  let name := plainName id
  writeLocation location
  let variable_ := (← typeName .plain result) ++ " " ++ name ++ "; "
  let ask (args : List String) : String := callText (sampler ++ ".t.GetDimensions") args ++ ";"
  match level with
  | none => writeText (variable_ ++ ask [name ++ ".x", name ++ ".y"])
  | some level =>
    let levels := "_levels" ++ name
    writeText (variable_ ++ "uint " ++ levels ++ "; "
      ++ ask [level, name ++ ".x", name ++ ".y", levels])
  return id

def emitIntrinsic (location : Location) (i : Intrinsic) (result : Ty) (args : List Expression) :
    SourceM Language Id := do
  let names ← argumentNames args
  match i with
  | .tex2DSize => emitTextureSize location result (names.getD 0 "") none
  | .tex2DSizeLod => emitTextureSize location result (names.getD 0 "") (some (names.getD 1 ""))
  | _ =>
    let m := (← getTarget).dialect.options.shaderModel
    callValue location result (intrinsicText m i names)

end ShaderEffect.Hlsl

import ShaderEffect.Glsl.Language

namespace ShaderEffect.Glsl

open Source Generator

def emitUnary (location : Location) (op : UnaryOp) (t : Ty) (value : Id) : SourceM Language Id := do
  let function :=
    match op with
    | .negate => "-"
    | .complement => "~"
    | .not => if t.isVector then "not" else "!bool"
  declare location t (callText function [← nameOf value])

/-- The functions that compare vectors. The operators only compare scalars. -/
def vectorRelation? : BinaryOp → Option String
  | .less => some "lessThan"
  | .lessEqual => some "lessThanEqual"
  | .greater => some "greaterThan"
  | .greaterEqual => some "greaterThanEqual"
  | .equal => some "equal"
  | .notEqual => some "notEqual"
  | _ => none

/-- The function that is called in the place of an operator, and how it is noted,
if there is one. -/
def binaryFunction? (op : BinaryOp) (t : Ty) : Option (String × (Helpers → Helpers)) :=
  if op = .mul && t.isMatrix then some ("matrixCompMult", id)
  else if op = .rem && t.isFloat then some ("fmodHLSL", ({ · with modulo := true }))
  else if op = .or && t.isVector then some ("compOr", ({ · with vectorOr := true }))
  else if op = .and && t.isVector then some ("compAnd", ({ · with vectorAnd := true }))
  else if t.isVector then (vectorRelation? op).map fun name => (name, id)
  else none

def emitBinary (location : Location) (op : BinaryOp) (result operands : Ty) (left right : Id) :
    SourceM Language Id := do
  let l ← nameOf left
  let r ← nameOf right
  match binaryFunction? op operands with
  | some (function, note) =>
    uses note
    declare location result (callText function [l, r])
  | none => declare location result (l ++ " " ++ op.symbol ++ " " ++ r)

def emitSelect (location : Location) (t : Ty) (condition yes no : Id) : SourceM Language Id := do
  let c ← nameOf condition
  let y ← nameOf yes
  let n ← nameOf no
  if t.isVector then
    uses ({ · with vectorSelect := true })
    declare location t (callText "compCond" [c, y, n])
  else declare location t (c ++ " ? " ++ y ++ " : " ++ n)

def emitConstruct (location : Location) (t : Ty) (args : List Expression) :
    SourceM Language Id := do
  let args ← argumentNames args
  declare location t (callText (← constructorName t) args)

/-- Functions that are one call with the arguments in their order. -/
def directFunction? : Intrinsic → Option String
  | .absInt | .absFloat => some "abs"
  | .asin => some "asin"
  | .acos => some "acos"
  | .atan | .atan2 => some "atan"
  | .sin => some "sin"
  | .sinh => some "sinh"
  | .cos => some "cos"
  | .cosh => some "cosh"
  | .tan => some "tan"
  | .tanh => some "tanh"
  | .asint => some "floatBitsToInt"
  | .asuint => some "floatBitsToUint"
  | .asfloatInt => some "intBitsToFloat"
  | .asfloatUint => some "uintBitsToFloat"
  | .ceil => some "ceil"
  | .floor => some "floor"
  | .clampInt | .clampUint | .clampFloat => some "clamp"
  | .mad => some "fma"
  | .pow => some "pow"
  | .exp => some "exp"
  | .exp2 => some "exp2"
  | .log => some "log"
  | .log2 => some "log2"
  | .signInt | .signFloat => some "sign"
  | .sqrt => some "sqrt"
  | .rsqrt => some "inversesqrt"
  | .lerp => some "mix"
  | .step => some "step"
  | .smoothstep => some "smoothstep"
  | .frac => some "fract"
  | .modf => some "modf"
  | .trunc => some "trunc"
  | .round => some "round"
  | .minInt | .minFloat => some "min"
  | .maxInt | .maxFloat => some "max"
  | .degrees => some "degrees"
  | .radians => some "radians"
  | .ddx => some "dFdx"
  | .ddy => some "dFdy"
  | .fwidth => some "fwidth"
  | .dot => some "dot"
  | .cross => some "cross"
  | .length => some "length"
  | .distance => some "distance"
  | .normalize => some "normalize"
  | .transpose => some "transpose"
  | .determinant => some "determinant"
  | .reflect => some "reflect"
  | .refract => some "refract"
  | .faceforward => some "faceforward"
  | .isinf => some "isinf"
  | .isnan => some "isnan"
  | .tex2D => some "texture"
  | .tex2DOffset => some "textureOffset"
  | .tex2DSizeLod => some "textureSize"
  | _ => none

/-- A test of all or any components, which are truth values or become ones. -/
def vectorTest (function : String) (arg : Expression) (a : String) : String :=
  if arg.type.isBoolean then callText function [a]
  else callText function [callText (vectorName .bool arg.type.rows) [a]]

/-- The expression that computes a built-in function. -/
def intrinsicText (i : Intrinsic) (result : Ty) (args : List Expression) (names : List String) :
    String :=
  let a := names.getD 0 ""
  let b := names.getD 1 ""
  let c := names.getD 2 ""
  match directFunction? i, i.gather? with
  | some function, _ => callText function names
  | none, some (channel, withOffset) =>
    let channel := toString channel.val
    if withOffset then callText "textureGatherOffset" [a, b, c, channel]
    else callText "textureGather" [a, b, channel]
  | none, none =>
    match i with
    | .allScalar | .anyScalar => callText "bool" [a]
    | .allVector => vectorTest "all" (args.headD {}) a
    | .anyVector => vectorTest "any" (args.headD {}) a
    | .sincos => b ++ " = sin(" ++ a ++ "), " ++ c ++ " = cos(" ++ a ++ ")"
    | .saturate => callText "clamp" [a, "0.0", "1.0"]
    | .rcp => "(1.0 / " ++ a ++ ")"
    | .log10 => "(log2(" ++ a ++ ") / log2(10.0))"
    | .ldexp => callText "ldexp" [a, callText (vectorName .int result.rows) [b]]
    | .mulScalarVector | .mulVectorScalar | .mulScalarMatrix | .mulMatrixScalar =>
      "(" ++ a ++ " * " ++ b ++ ")"
    -- Matrices are kept transposed, which swaps the operands.
    | .mulVectorMatrix | .mulMatrixVector | .mulMatrixMatrix => "(" ++ b ++ " * " ++ a ++ ")"
    | .tex2DLod => callText "textureLod" [a, b ++ ".xy", b ++ ".w"]
    | .tex2DLodOffset => callText "textureLodOffset" [a, b ++ ".xy", b ++ ".w", c]
    | .tex2DFetch => callText "texelFetch" [a, b, "0"]
    | .tex2DFetchLod => callText "texelFetch" [a, b, c]
    | .tex2DSize => callText "textureSize" [a, "0"]
    | _ => ""

/-- Splits floats into fractions and exponents. The exponents are integers at first, while those of
the effect are floats. -/
def emitFrexp (location : Location) (result : Ty) (args : List Expression) (names : List String) :
    SourceM Language Id := do
  let exponent ← makeId
  writeText (vectorName .int result.rows ++ " " ++ plainName exponent ++ ";")
  let id ← declare location result (callText "frexp" [names.getD 0 "", plainName exponent])
  let type ← typeName .plain (args.getD 1 {}).type.plain
  writeText (names.getD 1 "" ++ " = " ++ callText type [plainName exponent] ++ ";")
  return id

def emitIntrinsic (location : Location) (i : Intrinsic) (result : Ty) (args : List Expression) :
    SourceM Language Id := do
  let names ← argumentNames args
  if i = .frexp then emitFrexp location result args names
  else callValue location result (intrinsicText i result args names)

end ShaderEffect.Glsl

import ShaderEffect.Module

namespace ShaderEffect

/-- One variant of a built-in function. Overloads that differ only in the width of their vectors
share a variant. -/
inductive Intrinsic where
  | absInt | absFloat | allScalar | allVector | anyScalar | anyVector | asin | acos | atan
  | atan2 | sin | sinh | cos | cosh | tan | tanh | sincos | asint | asuint | asfloatInt
  | asfloatUint | ceil | floor | clampInt | clampUint | clampFloat | saturate | mad | rcp | pow
  | exp | exp2 | log | log2 | log10 | signInt | signFloat | sqrt | rsqrt | lerp | step
  | smoothstep | frac | ldexp | modf | frexp | trunc | round | minInt | minFloat | maxInt
  | maxFloat | degrees | radians | ddx | ddy | fwidth | dot | cross | length | distance
  | normalize | transpose | determinant | reflect | refract | faceforward | mulScalarVector
  | mulVectorScalar | mulScalarMatrix | mulMatrixScalar | mulVectorMatrix | mulMatrixVector
  | mulMatrixMatrix | isinf | isnan | tex2D | tex2DOffset | tex2DLod | tex2DLodOffset
  | tex2DFetch | tex2DFetchLod | tex2DGatherR | tex2DGatherROffset | tex2DGatherG
  | tex2DGatherGOffset | tex2DGatherB | tex2DGatherBOffset | tex2DGatherA | tex2DGatherAOffset
  | tex2DSize | tex2DSizeLod
deriving DecidableEq, Repr, Inhabited

namespace Intrinsic

/-- The number of a variant, counted from 1. -/
def number (i : Intrinsic) : Nat :=
  i.ctorIdx + 1

/-- The color channel a gather reads, and whether it takes an offset. -/
def gather? : Intrinsic → Option (Fin 4 × Bool)
  | tex2DGatherR => some (0, false)
  | tex2DGatherROffset => some (0, true)
  | tex2DGatherG => some (1, false)
  | tex2DGatherGOffset => some (1, true)
  | tex2DGatherB => some (2, false)
  | tex2DGatherBOffset => some (2, true)
  | tex2DGatherA => some (3, false)
  | tex2DGatherAOffset => some (3, true)
  | _ => none

/-- A way to call a built-in function. -/
structure Overload where
  variant : Intrinsic
  decl : FunctionDecl
deriving Inhabited, Repr

/-- The overload with the given result and parameter types. Parameters are inputs unless they are
marked as outputs. -/
def overload (name : String) (variant : Intrinsic) (result : Ty) (params : List Ty) : Overload :=
  let member (t : Ty) : Member := { type := if t.has .output then t else t.withQualifiers .input }
  ⟨variant, { name, uniqueName := name, returnType := result, parameters := params.map member }⟩

/-- One overload for each width of the range, with the shape that `shape` gives for it. -/
def overWidths (name : String) (variant : Intrinsic) (first last : Nat)
    (shape : UInt32 → Ty × List Ty) : List Overload :=
  (List.range' first (last + 1 - first)).map fun n =>
    let (result, params) := shape (UInt32.ofNat n)
    overload name variant result params

/-- Overloads whose result and `count` parameters are vectors of one base and width. -/
def uniformly (name : String) (variant : Intrinsic) (base : Base) (count : Nat) (first : Nat := 1) :
    List Overload :=
  overWidths name variant first 4 fun n => (.vector base n, List.replicate count (.vector base n))

/-- The type of a parameter that is written. -/
def written (t : Ty) : Ty := t.withQualifiers .output

def floats (n : UInt32) : Ty := .vector .float n
def ints (n : UInt32) : Ty := .vector .int n
def bools (n : UInt32) : Ty := .vector .bool n
def square (n : UInt32) : Ty := .matrix .float n n
def floatTy : Ty := .scalar .float
def samplerTy : Ty := { base := .sampler }

/-- Functions of one float vector of any width that give a vector of that width. -/
def unaryFunctions : List (String × Intrinsic) :=
  [("asin", asin), ("acos", acos), ("atan", atan), ("sin", sin), ("sinh", sinh), ("cos", cos),
    ("cosh", cosh), ("tan", tan), ("tanh", tanh), ("ceil", ceil), ("floor", floor),
    ("saturate", saturate), ("rcp", rcp), ("exp", exp), ("exp2", exp2), ("log", log),
    ("log2", log2), ("log10", log10), ("sqrt", sqrt), ("rsqrt", rsqrt), ("frac", frac),
    ("trunc", trunc), ("round", round), ("degrees", degrees), ("radians", radians), ("ddx", ddx),
    ("ddy", ddy), ("fwidth", fwidth)]

/-- The gathers of each channel, without and with an offset. -/
def gathers : List (String × Intrinsic × Intrinsic) :=
  [("tex2DgatherR", tex2DGatherR, tex2DGatherROffset),
    ("tex2DgatherG", tex2DGatherG, tex2DGatherGOffset),
    ("tex2DgatherB", tex2DGatherB, tex2DGatherBOffset),
    ("tex2DgatherA", tex2DGatherA, tex2DGatherAOffset)]

/-- Every overload of every built-in function, in the order in which a call tries them. -/
def overloads : List Overload :=
  uniformly "abs" absInt .int 1 ++ uniformly "abs" absFloat .float 1
  ++ [overload "all" allScalar (bools 1) [bools 1]]
  ++ overWidths "all" allVector 2 4 (fun n => (bools 1, [bools n]))
  ++ [overload "any" anyScalar (bools 1) [bools 1]]
  ++ overWidths "any" anyVector 2 4 (fun n => (bools 1, [bools n]))
  ++ unaryFunctions.flatMap (fun (name, variant) => uniformly name variant .float 1)
  ++ uniformly "atan2" atan2 .float 2
  ++ overWidths "sincos" sincos 1 4
    (fun n => ({ base := .void }, [floats n, written (floats n), written (floats n)]))
  ++ overWidths "asint" asint 1 4 (fun n => (ints n, [floats n]))
  ++ overWidths "asuint" asuint 1 4 (fun n => (.vector .uint n, [floats n]))
  ++ overWidths "asfloat" asfloatInt 1 4 (fun n => (floats n, [ints n]))
  ++ overWidths "asfloat" asfloatUint 1 4 (fun n => (floats n, [.vector .uint n]))
  ++ uniformly "clamp" clampInt .int 3 ++ uniformly "clamp" clampUint .uint 3
  ++ uniformly "clamp" clampFloat .float 3
  ++ uniformly "mad" mad .float 3 ++ uniformly "pow" pow .float 2
  ++ uniformly "sign" signInt .int 1 ++ uniformly "sign" signFloat .float 1
  ++ uniformly "lerp" lerp .float 3 ++ uniformly "step" step .float 2
  ++ uniformly "smoothstep" smoothstep .float 3
  ++ overWidths "ldexp" ldexp 1 4 (fun n => (floats n, [floats n, ints n]))
  ++ overWidths "modf" modf 1 4 (fun n => (floats n, [floats n, written (floats n)]))
  ++ overWidths "frexp" frexp 1 4 (fun n => (floats n, [floats n, written (floats n)]))
  ++ uniformly "min" minInt .int 2 ++ uniformly "min" minFloat .float 2
  ++ uniformly "max" maxInt .int 2 ++ uniformly "max" maxFloat .float 2
  ++ overWidths "dot" dot 2 4 (fun n => (floatTy, [floats n, floats n]))
  ++ [overload "cross" cross (floats 3) [floats 3, floats 3]]
  ++ overWidths "length" length 1 4 (fun n => (floatTy, [floats n]))
  ++ overWidths "distance" distance 1 4 (fun n => (floatTy, [floats n, floats n]))
  ++ uniformly "normalize" normalize .float 1 2
  ++ overWidths "transpose" transpose 2 4 (fun n => (square n, [square n]))
  ++ overWidths "determinant" determinant 2 4 (fun n => (floatTy, [square n]))
  ++ uniformly "reflect" reflect .float 2 2
  ++ overWidths "refract" refract 2 4 (fun n => (floats n, [floats n, floats n, floatTy]))
  ++ uniformly "faceforward" faceforward .float 3
  ++ overWidths "mul" mulScalarVector 2 4 (fun n => (floats n, [floatTy, floats n]))
  ++ overWidths "mul" mulVectorScalar 2 4 (fun n => (floats n, [floats n, floatTy]))
  ++ overWidths "mul" mulScalarMatrix 2 4 (fun n => (square n, [floatTy, square n]))
  ++ overWidths "mul" mulMatrixScalar 2 4 (fun n => (square n, [square n, floatTy]))
  ++ overWidths "mul" mulVectorMatrix 2 4 (fun n => (floats n, [floats n, square n]))
  ++ overWidths "mul" mulMatrixVector 2 4 (fun n => (floats n, [square n, floats n]))
  ++ overWidths "mul" mulMatrixMatrix 2 4 (fun n => (square n, [square n, square n]))
  ++ overWidths "isinf" isinf 1 4 (fun n => (bools n, [floats n]))
  ++ overWidths "isnan" isnan 1 4 (fun n => (bools n, [floats n]))
  ++ [overload "tex2D" tex2D (floats 4) [samplerTy, floats 2],
    overload "tex2D" tex2DOffset (floats 4) [samplerTy, floats 2, ints 2],
    overload "tex2Dlod" tex2DLod (floats 4) [samplerTy, floats 4],
    overload "tex2Dlod" tex2DLodOffset (floats 4) [samplerTy, floats 4, ints 2],
    overload "tex2Dfetch" tex2DFetch (floats 4) [samplerTy, ints 2],
    overload "tex2Dfetch" tex2DFetchLod (floats 4) [samplerTy, ints 2, ints 1]]
  ++ gathers.flatMap (fun (name, direct, shifted) =>
    [overload name direct (floats 4) [samplerTy, floats 2],
      overload name shifted (floats 4) [samplerTy, floats 2, ints 2]])
  ++ [overload "tex2Dsize" tex2DSize (ints 2) [samplerTy],
    overload "tex2Dsize" tex2DSizeLod (ints 2) [samplerTy, ints 1]]

end Intrinsic
end ShaderEffect

import ShaderEffect.Spirv.Generator.Access

namespace ShaderEffect.Spirv

open Generator

/-- The built-in functions that are one extended instruction with the arguments in order. -/
def extendedOp? : Intrinsic → Option ExtendedOp
  | .absFloat => some .fabs
  | .absInt => some .sabs
  | .asin => some .asin
  | .acos => some .acos
  | .atan => some .atan
  | .atan2 => some .atan2
  | .sin => some .sin
  | .sinh => some .sinh
  | .cos => some .cos
  | .cosh => some .cosh
  | .tan => some .tan
  | .tanh => some .tanh
  | .ceil => some .ceil
  | .floor => some .floor
  | .frac => some .fract
  | .trunc => some .trunc
  | .round => some .round
  | .clampInt => some .sclamp
  | .clampUint => some .uclamp
  | .clampFloat => some .fclamp
  | .signInt => some .ssign
  | .signFloat => some .fsign
  | .minFloat => some .fmin
  | .maxFloat => some .fmax
  | .pow => some .pow
  | .exp => some .exp
  | .exp2 => some .exp2
  | .log => some .log
  | .log2 => some .log2
  | .sqrt => some .sqrt
  | .rsqrt => some .inverseSqrt
  | .lerp => some .fmix
  | .step => some .step
  | .smoothstep => some .smoothStep
  | .mad => some .fma
  | .ldexp => some .ldexp
  | .degrees => some .degrees
  | .radians => some .radians
  | .cross => some .cross
  | .length => some .length
  | .distance => some .distance
  | .normalize => some .normalize
  | .determinant => some .determinant
  | .reflect => some .reflect
  | .refract => some .refract
  | .faceforward => some .faceForward
  | .modf => some .modf
  | _ => none

/-- The built-in functions that are one instruction with the arguments in order. -/
def coreOp? : Intrinsic → Option Opcode
  | .ddx => some Op.dpdx
  | .ddy => some Op.dpdy
  | .fwidth => some Op.fwidth
  | .dot => some Op.dot
  | .transpose => some Op.transpose
  | .isinf => some Op.isInf
  | .isnan => some Op.isNan
  | .asint | .asuint | .asfloatInt | .asfloatUint => some Op.bitcast
  | .allVector => some Op.all
  | .anyVector => some Op.any
  | .mulVectorScalar => some Op.vectorTimesScalar
  | .mulMatrixScalar => some Op.matrixTimesScalar
  | _ => none

/-- The built-in functions that are one instruction with the two arguments swapped. Matrices of the
effect language are stored transposed. -/
def swappedOp? : Intrinsic → Option Opcode
  | .mulScalarVector => some Op.vectorTimesScalar
  | .mulScalarMatrix => some Op.matrixTimesScalar
  | .mulVectorMatrix => some Op.matrixTimesVector
  | .mulMatrixVector => some Op.vectorTimesMatrix
  | .mulMatrixMatrix => some Op.matrixTimesMatrix
  | _ => none

/-- The mask and id of an offset between texels. Constant offsets have an operand of their own. -/
def offsetOperands (arg : Expression) (mask : ImageOperands) : SpirvM (UInt32 × Id) := do
  if arg.isConstant then return (mask ||| ImageOperands.constOffset, arg.base)
  addCapability .imageGatherExtended
  return (mask ||| ImageOperands.offset, arg.base)

/-- The image behind a sampler. -/
def loadImage (sampler : Expression) : SpirvM Id := do
  let type ← textureType
  let value ← loadValue sampler
  emit Op.image type [value]

/-- Samples at the mip level in the last component of the coordinates. -/
def sampleLevel (result : Id) (sampler coordinates : Expression) (offset : Option Expression) :
    SpirvM Id := do
  let image ← loadValue sampler
  let pair ← valueType (.vector .float 2)
  let point ← emit Op.vectorShuffle pair [coordinates.base, coordinates.base, 0, 1]
  let level ← emit Op.compositeExtract (← floatType) [coordinates.base, 3]
  match offset with
  | some arg =>
    let (mask, offset) ← offsetOperands arg .lod
    emit Op.imageSampleExplicitLod result [image, point, mask, level, offset]
  | none => emit Op.imageSampleExplicitLod result [image, point, ImageOperands.lod, level]

def gatherChannel (result : Id) (channel : Fin 4) (args : List Expression) : SpirvM Id := do
  match args with
  | sampler :: point :: offset =>
    let image ← loadValue sampler
    let channel ← wordConstant (UInt32.ofNat channel.val)
    match offset with
    | [] => emit Op.imageGather result [image, point.base, channel]
    | arg :: _ =>
      let (mask, offset) ← offsetOperands arg 0
      emit Op.imageGather result [image, point.base, channel, mask, offset]
  | _ => throw .outOfRange

/-- The exponent is an integer in the instruction and a float in the effect language. -/
def splitExponent (location : Location) (result : Id) (t : Ty) (value target : Id) : SpirvM Id := do
  let exponent := Ty.vector .int t.rows
  let temp ← temporary location exponent
  let mantissa ← emitExtended result .frexp [value, temp]
  let loaded ← emit Op.load (← valueType exponent) [temp]
  let converted ← emit Op.convertSToF result [loaded]
  emitStore target converted
  return mantissa

/-- The built-in functions that take more than one instruction. -/
def emitComposed (location : Location) (intrinsic : Intrinsic) (t : Ty) (result : Id)
    (args : List Expression) : SpirvM Id := do
  let extended (signed unsigned : ExtendedOp) : SpirvM Id :=
    emitExtended result (if t.isSigned then signed else unsigned) (args.map (·.base))
  match intrinsic, args with
  | .minInt, _ => extended .smin .umin
  | .maxInt, _ => extended .smax .umax
  | .allScalar, [x] | .anyScalar, [x] => return x.base
  | .saturate, [x] =>
    let zero ← uniformConstant t 0
    let one ← uniformConstant t Number.Single.one.bits
    emitExtended result .fclamp [x.base, zero, one]
  | .rcp, [x] =>
    let one ← uniformConstant t Number.Single.one.bits
    emit Op.fdiv result [one, x.base]
  | .log10, [x] =>
    let binary ← emitExtended result .log2 [x.base]
    -- The binary logarithm of 10.
    let scale ← uniformConstant t 0x40549a78
    emit Op.fdiv result [binary, scale]
  | .sincos, [x, s, c] =>
    let type ← valueType x.type.plain
    let sine ← emitExtended type .sin [x.base]
    let cosine ← emitExtended type .cos [x.base]
    emitStore s.base sine
    emitStore c.base cosine
    return 0
  | .frexp, [x, target] => splitExponent location result t x.base target.base
  | .tex2D, [sampler, point] => do
    emit Op.imageSampleImplicitLod result [← loadValue sampler, point.base]
  | .tex2DOffset, [sampler, point, arg] => do
    let image ← loadValue sampler
    let (mask, offset) ← offsetOperands arg 0
    emit Op.imageSampleImplicitLod result [image, point.base, mask, offset]
  | .tex2DLod, [sampler, coordinates] => sampleLevel result sampler coordinates none
  | .tex2DLodOffset, [sampler, coordinates, arg] =>
    sampleLevel result sampler coordinates (some arg)
  | .tex2DFetch, [sampler, point] => do
    emit Op.imageFetch result [← loadImage sampler, point.base]
  | .tex2DFetchLod, [sampler, point, level] => do
    emit Op.imageFetch result [← loadImage sampler, point.base, ImageOperands.lod, level.base]
  | .tex2DSize, [sampler] =>
    addCapability .imageQuery
    let image ← loadImage sampler
    let level ← scalarConstant (.scalar .int) {}
    emit Op.imageQuerySizeLod result [image, level]
  | .tex2DSizeLod, [sampler, level] =>
    addCapability .imageQuery
    let image ← loadImage sampler
    let _ ← scalarConstant (.scalar .int) {}
    emit Op.imageQuerySizeLod result [image, level.base]
  | _, _ => throw .outOfRange

def emitIntrinsic (location : Location) (intrinsic : Intrinsic) (t : Ty) (args : List Expression) :
    SpirvM Id := do
  addBlockLocation location
  let result ← valueType t
  let ids := args.map (·.base)
  match extendedOp? intrinsic, coreOp? intrinsic, swappedOp? intrinsic, intrinsic.gather? with
  | some op, _, _, _ => emitExtended result op ids
  | none, some op, _, _ => emit op result ids
  | none, none, some op, _ => emit op result ids.reverse
  | none, none, none, some (channel, _) => gatherChannel result channel args
  | none, none, none, none => emitComposed location intrinsic t result args

end ShaderEffect.Spirv

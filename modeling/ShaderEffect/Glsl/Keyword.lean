import ShaderEffect.Text

namespace ShaderEffect.Glsl

/-- Keywords, and words that are kept for later. -/
def keywordsAndReserved : List String :=
  ["attribute", "const", "uniform", "varying", "buffer", "shared", "coherent", "volatile",
    "restrict", "readonly", "writeonly", "layout", "centroid", "flat", "smooth", "noperspective",
    "patch", "sample", "subroutine", "invariant", "precise", "precision", "lowp", "mediump",
    "highp", "common", "partition", "active", "asm", "class", "union", "enum", "typedef",
    "template", "this", "resource", "goto", "inline", "noinline", "public", "static", "extern",
    "external", "interface", "long", "short", "half", "fixed", "unsigned", "superp", "input",
    "output", "filter", "sizeof", "cast", "namespace", "using"]

/-- The names of vector and matrix types. -/
def shapeNames : List String :=
  ["vec2", "vec3", "vec4", "ivec2", "ivec3", "ivec4", "uvec2", "uvec3", "uvec4", "bvec2", "bvec3",
    "bvec4", "dvec2", "dvec3", "dvec4", "fvec2", "fvec3", "fvec4", "hvec2", "hvec3", "hvec4",
    "mat2", "mat3", "mat4", "mat2x2", "mat2x3", "mat2x4", "mat3x2", "mat3x3", "mat3x4", "mat4x2",
    "mat4x3", "mat4x4", "dmat2", "dmat3", "dmat4", "dmat2x2", "dmat2x3", "dmat2x4", "dmat3x2",
    "dmat3x3", "dmat3x4", "dmat4x2", "dmat4x3", "dmat4x4", "atomic_uint"]

/-- The names of samplers and images. -/
def opaqueNames : List String :=
  ["sampler1D", "sampler2D", "sampler3D", "samplerCube", "sampler2DRect", "sampler1DShadow",
    "sampler2DShadow", "samplerCubeShadow", "sampler2DRectShadow", "sampler1DArray",
    "sampler2DArray", "sampler1DArrayShadow", "sampler2DArrayShadow", "samplerCubeArray",
    "samplerCubeArrayShadow", "samplerBuffer", "sampler2DMS", "sampler2DMSArray", "sampler3DRect",
    "isampler1D", "isampler2D", "isampler3D", "isamplerCube", "isampler2DRect", "isampler1DArray",
    "isampler2DArray", "isamplerCubeArray", "isamplerBuffer", "isampler2DMS", "isampler2DMSArray",
    "usampler1D", "usampler2D", "usampler3D", "usamplerCube", "usampler2DRect", "usampler1DArray",
    "usampler2DArray", "usamplerCubeArray", "usamplerBuffer", "usampler2DMS", "usampler2DMSArray",
    "image1D", "image2D", "image3D", "imageCube", "image2DRect", "image1DArray", "image2DArray",
    "imageCubeArray", "imageBuffer", "image2DMS", "image2DMSArray", "iimage1D", "iimage2D",
    "iimage3D", "iimageCube", "iimage2DRect", "iimage1DArray", "iimage2DArray", "iimageCubeArray",
    "iimageBuffer", "iimage2DMS", "iimage2DMSArray", "uimage1D", "uimage2D", "uimage3D",
    "uimageCube", "uimage2DRect", "uimage1DArray", "uimage2DArray", "uimageCubeArray",
    "uimageBuffer", "uimage2DMS", "uimage2DMSArray"]

/-- Built-in functions, and the functions that generated code brings along. -/
def functionNames : List String :=
  ["main", "radians", "degrees", "sin", "cos", "tan", "asin", "acos", "atan", "sinh", "cosh",
    "tanh", "asinh", "acosh", "atanh", "pow", "exp", "log", "exp2", "log2", "sqrt", "inversesqrt",
    "abs", "sign", "floor", "trunc", "round", "roundEven", "ceil", "fract", "mod", "modf", "min",
    "max", "clamp", "mix", "step", "smoothstep", "isnan", "isinf", "floatBitsToInt",
    "floatBitsToUint", "intBitsToFloat", "uintBitsToFloat", "fma", "frexp", "ldexp", "length",
    "distance", "dot", "cross", "normalize", "faceforward", "reflect", "refract", "matrixCompMult",
    "outerProduct", "transpose", "determinant", "inverse", "lessThan", "lessThanEqual",
    "greaterThan", "greaterThanEqual", "equal", "notEqual", "any", "all", "not", "textureSize",
    "texture", "textureLod", "textureOffset", "textureLodOffset", "texelFetch", "texelFetchOffset",
    "textureGrad", "textureGather", "textureGatherOffset", "dFdx", "dFdy", "fwidth", "barrier",
    "memoryBarrier", "groupMemoryBarrier", "imageLoad", "imageStore", "imageSize", "fmodHLSL",
    "compOr", "compAnd", "compCond"]

/-- Whether a word cannot be used as a name. -/
def isReserved (name : String) : Bool :=
  keywordsAndReserved.contains name || shapeNames.contains name || opaqueNames.contains name
    || functionNames.contains name

/-- Underscores one behind the other become a single one. -/
def collapseUnderscores : List Char → List Char
  | [] => []
  | c :: rest =>
    if c = '_' && rest.head? = some '_' then collapseUnderscores rest else c
      :: collapseUnderscores rest

/-- A name of the effect as a valid name. Words that cannot be used get an underscore in front,
which no other name has, and underscores do not follow each other. -/
def escapeName (name : String) : String :=
  let name := if Text.startsWith "gl_" name || isReserved name then "_" ++ name else name
  String.ofList (collapseUnderscores name.toList)

end ShaderEffect.Glsl

namespace ShaderEffect.Spirv

/-- Where a variable lives. -/
abbrev StorageClass := UInt32

namespace StorageClass

def uniformConstant : StorageClass := 0
def input : StorageClass := 1
def uniform : StorageClass := 2
def output : StorageClass := 3
def privateMemory : StorageClass := 6
def functionMemory : StorageClass := 7

/-- The names in listings. -/
def names : List (UInt32 × String) :=
  [(0, "UniformConstant"), (1, "Input"), (2, "Uniform"), (3, "Output"), (4, "Workgroup"),
    (6, "Private"), (7, "Function"), (9, "PushConstant"), (11, "Image")]

end StorageClass

/-- A property attached to an id or a structure member. -/
abbrev Decoration := UInt32

namespace Decoration

def specId : Decoration := 1
def block : Decoration := 2
def colMajor : Decoration := 5
def arrayStride : Decoration := 6
def matrixStride : Decoration := 7
def builtIn : Decoration := 11
def noPerspective : Decoration := 13
def flat : Decoration := 14
def centroid : Decoration := 16
def location : Decoration := 30
def binding : Decoration := 33
def descriptorSet : Decoration := 34
def offset : Decoration := 35
def noContraction : Decoration := 42
def hlslSemantic : Decoration := 5635

/-- The names in listings. -/
def names : List (UInt32 × String) :=
  [(1, "SpecId"), (2, "Block"), (4, "RowMajor"), (5, "ColMajor"), (6, "ArrayStride"),
    (7, "MatrixStride"), (11, "BuiltIn"), (13, "NoPerspective"), (14, "Flat"),
    (16, "Centroid"), (24, "NonWritable"), (30, "Location"), (33, "Binding"),
    (34, "DescriptorSet"), (35, "Offset"), (42, "NoContraction"),
    (5635, "HlslSemanticGOOGLE")]

end Decoration

/-- A variable with a meaning to the pipeline. -/
abbrev BuiltIn := UInt32

namespace BuiltIn

def position : BuiltIn := 0
def vertexId : BuiltIn := 5
def fragCoord : BuiltIn := 15
def fragDepth : BuiltIn := 22
def vertexIndex : BuiltIn := 42

/-- The names in listings. -/
def names : List (UInt32 × String) :=
  [(0, "Position"), (1, "PointSize"), (5, "VertexId"), (6, "InstanceId"),
    (15, "FragCoord"), (17, "FrontFacing"), (22, "FragDepth"), (42, "VertexIndex")]

end BuiltIn

/-- A shader stage. -/
abbrev ExecutionModel := UInt32

namespace ExecutionModel

def vertex : ExecutionModel := 0
def fragment : ExecutionModel := 4

/-- The names in listings. -/
def names : List (UInt32 × String) :=
  [(0, "Vertex"), (4, "Fragment"), (5, "GLCompute")]

end ExecutionModel

/-- A property of an entry point. -/
abbrev ExecutionMode := UInt32

namespace ExecutionMode

def originUpperLeft : ExecutionMode := 7
def depthReplacing : ExecutionMode := 12

/-- The names in listings. -/
def names : List (UInt32 × String) :=
  [(7, "OriginUpperLeft"), (8, "OriginLowerLeft"), (12, "DepthReplacing")]

end ExecutionMode

/-- A feature that a module uses. -/
abbrev Capability := UInt32

namespace Capability

def matrix : Capability := 0
def shader : Capability := 1
def imageGatherExtended : Capability := 25
def imageQuery : Capability := 50

/-- The names in listings. -/
def names : List (UInt32 × String) :=
  [(0, "Matrix"), (1, "Shader"), (25, "ImageGatherExtended"), (50, "ImageQuery"),
    (51, "DerivativeControl")]

end Capability

/-- Which further operands an image operation has. -/
abbrev ImageOperands := UInt32

namespace ImageOperands

def lod : ImageOperands := 2
def constOffset : ImageOperands := 8
def offset : ImageOperands := 0x10

end ImageOperands

/-- A function of the extended instruction set. -/
abbrev ExtendedOp := UInt32

namespace ExtendedOp

def round : ExtendedOp := 1
def trunc : ExtendedOp := 3
def fabs : ExtendedOp := 4
def sabs : ExtendedOp := 5
def fsign : ExtendedOp := 6
def ssign : ExtendedOp := 7
def floor : ExtendedOp := 8
def ceil : ExtendedOp := 9
def fract : ExtendedOp := 10
def radians : ExtendedOp := 11
def degrees : ExtendedOp := 12
def sin : ExtendedOp := 13
def cos : ExtendedOp := 14
def tan : ExtendedOp := 15
def asin : ExtendedOp := 16
def acos : ExtendedOp := 17
def atan : ExtendedOp := 18
def sinh : ExtendedOp := 19
def cosh : ExtendedOp := 20
def tanh : ExtendedOp := 21
def atan2 : ExtendedOp := 25
def pow : ExtendedOp := 26
def exp : ExtendedOp := 27
def log : ExtendedOp := 28
def exp2 : ExtendedOp := 29
def log2 : ExtendedOp := 30
def sqrt : ExtendedOp := 31
def inverseSqrt : ExtendedOp := 32
def determinant : ExtendedOp := 33
def modf : ExtendedOp := 35
def fmin : ExtendedOp := 37
def umin : ExtendedOp := 38
def smin : ExtendedOp := 39
def fmax : ExtendedOp := 40
def umax : ExtendedOp := 41
def smax : ExtendedOp := 42
def fclamp : ExtendedOp := 43
def uclamp : ExtendedOp := 44
def sclamp : ExtendedOp := 45
def fmix : ExtendedOp := 46
def step : ExtendedOp := 48
def smoothStep : ExtendedOp := 49
def fma : ExtendedOp := 50
def frexp : ExtendedOp := 51
def ldexp : ExtendedOp := 53
def length : ExtendedOp := 66
def distance : ExtendedOp := 67
def cross : ExtendedOp := 68
def normalize : ExtendedOp := 69
def faceForward : ExtendedOp := 70
def reflect : ExtendedOp := 71
def refract : ExtendedOp := 72

end ExtendedOp
end ShaderEffect.Spirv

import ShaderEffect.Spirv.Enumerant

namespace ShaderEffect.Spirv

/-- The number of an operation. Numbers without a name are allowed. -/
structure Opcode where
  code : UInt16
deriving DecidableEq, Repr, Inhabited

namespace Op

def nop : Opcode := ⟨0⟩
def undef : Opcode := ⟨1⟩
def source : Opcode := ⟨3⟩
def name : Opcode := ⟨5⟩
def memberName : Opcode := ⟨6⟩
def string : Opcode := ⟨7⟩
def line : Opcode := ⟨8⟩
def extension : Opcode := ⟨10⟩
def extInstImport : Opcode := ⟨11⟩
def extInst : Opcode := ⟨12⟩
def memoryModel : Opcode := ⟨14⟩
def entryPoint : Opcode := ⟨15⟩
def executionMode : Opcode := ⟨16⟩
def capability : Opcode := ⟨17⟩
def typeVoid : Opcode := ⟨19⟩
def typeBool : Opcode := ⟨20⟩
def typeInt : Opcode := ⟨21⟩
def typeFloat : Opcode := ⟨22⟩
def typeVector : Opcode := ⟨23⟩
def typeMatrix : Opcode := ⟨24⟩
def typeImage : Opcode := ⟨25⟩
def typeSampler : Opcode := ⟨26⟩
def typeSampledImage : Opcode := ⟨27⟩
def typeArray : Opcode := ⟨28⟩
def typeRuntimeArray : Opcode := ⟨29⟩
def typeStruct : Opcode := ⟨30⟩
def typePointer : Opcode := ⟨32⟩
def typeFunction : Opcode := ⟨33⟩
def constantTrue : Opcode := ⟨41⟩
def constantFalse : Opcode := ⟨42⟩
def constant : Opcode := ⟨43⟩
def constantComposite : Opcode := ⟨44⟩
def constantNull : Opcode := ⟨46⟩
def specConstantTrue : Opcode := ⟨48⟩
def specConstantFalse : Opcode := ⟨49⟩
def specConstant : Opcode := ⟨50⟩
def specConstantComposite : Opcode := ⟨51⟩
def function : Opcode := ⟨54⟩
def functionParameter : Opcode := ⟨55⟩
def functionEnd : Opcode := ⟨56⟩
def functionCall : Opcode := ⟨57⟩
def var : Opcode := ⟨59⟩
def load : Opcode := ⟨61⟩
def store : Opcode := ⟨62⟩
def accessChain : Opcode := ⟨65⟩
def decorate : Opcode := ⟨71⟩
def memberDecorate : Opcode := ⟨72⟩
def vectorExtractDynamic : Opcode := ⟨77⟩
def vectorInsertDynamic : Opcode := ⟨78⟩
def vectorShuffle : Opcode := ⟨79⟩
def compositeConstruct : Opcode := ⟨80⟩
def compositeExtract : Opcode := ⟨81⟩
def compositeInsert : Opcode := ⟨82⟩
def copyObject : Opcode := ⟨83⟩
def transpose : Opcode := ⟨84⟩
def sampledImage : Opcode := ⟨86⟩
def imageSampleImplicitLod : Opcode := ⟨87⟩
def imageSampleExplicitLod : Opcode := ⟨88⟩
def imageFetch : Opcode := ⟨95⟩
def imageGather : Opcode := ⟨96⟩
def image : Opcode := ⟨100⟩
def imageQuerySizeLod : Opcode := ⟨103⟩
def imageQuerySize : Opcode := ⟨104⟩
def imageQueryLevels : Opcode := ⟨106⟩
def convertFToU : Opcode := ⟨109⟩
def convertFToS : Opcode := ⟨110⟩
def convertSToF : Opcode := ⟨111⟩
def convertUToF : Opcode := ⟨112⟩
def bitcast : Opcode := ⟨124⟩
def snegate : Opcode := ⟨126⟩
def fnegate : Opcode := ⟨127⟩
def iadd : Opcode := ⟨128⟩
def fadd : Opcode := ⟨129⟩
def isub : Opcode := ⟨130⟩
def fsub : Opcode := ⟨131⟩
def imul : Opcode := ⟨132⟩
def fmul : Opcode := ⟨133⟩
def udiv : Opcode := ⟨134⟩
def sdiv : Opcode := ⟨135⟩
def fdiv : Opcode := ⟨136⟩
def umod : Opcode := ⟨137⟩
def srem : Opcode := ⟨138⟩
def smod : Opcode := ⟨139⟩
def frem : Opcode := ⟨140⟩
def fmod : Opcode := ⟨141⟩
def vectorTimesScalar : Opcode := ⟨142⟩
def matrixTimesScalar : Opcode := ⟨143⟩
def vectorTimesMatrix : Opcode := ⟨144⟩
def matrixTimesVector : Opcode := ⟨145⟩
def matrixTimesMatrix : Opcode := ⟨146⟩
def dot : Opcode := ⟨148⟩
def any : Opcode := ⟨154⟩
def all : Opcode := ⟨155⟩
def isNan : Opcode := ⟨156⟩
def isInf : Opcode := ⟨157⟩
def logicalEqual : Opcode := ⟨164⟩
def logicalNotEqual : Opcode := ⟨165⟩
def logicalOr : Opcode := ⟨166⟩
def logicalAnd : Opcode := ⟨167⟩
def logicalNot : Opcode := ⟨168⟩
def select : Opcode := ⟨169⟩
def iequal : Opcode := ⟨170⟩
def inotEqual : Opcode := ⟨171⟩
def uGreaterThan : Opcode := ⟨172⟩
def sGreaterThan : Opcode := ⟨173⟩
def uGreaterThanEqual : Opcode := ⟨174⟩
def sGreaterThanEqual : Opcode := ⟨175⟩
def uLessThan : Opcode := ⟨176⟩
def sLessThan : Opcode := ⟨177⟩
def uLessThanEqual : Opcode := ⟨178⟩
def sLessThanEqual : Opcode := ⟨179⟩
def fOrdEqual : Opcode := ⟨180⟩
def fOrdNotEqual : Opcode := ⟨182⟩
def fOrdLessThan : Opcode := ⟨184⟩
def fOrdGreaterThan : Opcode := ⟨186⟩
def fOrdLessThanEqual : Opcode := ⟨188⟩
def fOrdGreaterThanEqual : Opcode := ⟨190⟩
def shiftRightLogical : Opcode := ⟨194⟩
def shiftRightArithmetic : Opcode := ⟨195⟩
def shiftLeftLogical : Opcode := ⟨196⟩
def bitwiseOr : Opcode := ⟨197⟩
def bitwiseXor : Opcode := ⟨198⟩
def bitwiseAnd : Opcode := ⟨199⟩
def not : Opcode := ⟨200⟩
def dpdx : Opcode := ⟨207⟩
def dpdy : Opcode := ⟨208⟩
def fwidth : Opcode := ⟨209⟩
def phi : Opcode := ⟨245⟩
def loopMerge : Opcode := ⟨246⟩
def selectionMerge : Opcode := ⟨247⟩
def label : Opcode := ⟨248⟩
def branch : Opcode := ⟨249⟩
def branchConditional : Opcode := ⟨250⟩
def switch : Opcode := ⟨251⟩
def kill : Opcode := ⟨252⟩
def ret : Opcode := ⟨253⟩
def returnValue : Opcode := ⟨254⟩
def unreachable : Opcode := ⟨255⟩
def noLine : Opcode := ⟨317⟩
def moduleProcessed : Opcode := ⟨330⟩
def decorateString : Opcode := ⟨5632⟩
def memberDecorateString : Opcode := ⟨5633⟩

end Op

/-- How one leading operand is written in a listing. -/
inductive Operand where
  /-- An id. -/
  | ref
  /-- A plain number. -/
  | literal
  /-- A number that has a name. -/
  | named (names : List (UInt32 × String))
  /-- A number that always has the same name, written even where it is missing. -/
  | fixed (name : String)
  /-- A text over as many words as it needs. -/
  | text
deriving DecidableEq, Repr

/-- How the operands behind the leading ones are written. -/
inductive OperandTail where
  | refs
  | literals
  /-- Number and id in turn. -/
  | cases
  /-- A bit set of image operands, then ids. -/
  | image
  /-- A decoration and its arguments. -/
  | decoration
  | ignored
deriving DecidableEq, Repr

/-- What is known about an operation. -/
structure Opcode.Info where
  name : String
  hasType : Bool := false
  hasResult : Bool := false
  operands : List Operand := []
  tail : OperandTail := .refs
deriving DecidableEq, Repr, Inhabited

namespace Opcode

/-- An operation without a result. -/
def effect (name : String) (operands : List Operand := []) (tail : OperandTail := .refs) : Info :=
  { name, operands, tail }

/-- An operation whose result is a type, a label or another thing without a type. -/
def definition (name : String) (operands : List Operand := []) (tail : OperandTail := .refs) :
    Info :=
  { name, hasResult := true, operands, tail }

/-- An operation whose result is a value. -/
def value (name : String) (operands : List Operand := []) (tail : OperandTail := .refs) : Info :=
  { name, hasType := true, hasResult := true, operands, tail }

/-- The operations with a name. -/
def table : List (Opcode × Info) :=
  [(Op.nop, effect "OpNop"), (Op.undef, value "OpUndef"),
    (Op.source, effect "OpSource" [.fixed "Unknown"] .literals),
    (Op.name, effect "OpName" [.ref, .text] .ignored),
    (Op.memberName, effect "OpMemberName" [.ref, .literal, .text] .ignored),
    (Op.string, definition "OpString" [.text] .ignored),
    (Op.line, effect "OpLine" [.ref] .literals),
    (Op.extension, effect "OpExtension" [.text] .ignored),
    (Op.extInstImport, definition "OpExtInstImport" [.text] .ignored),
    (Op.extInst, value "OpExtInst" [.ref, .literal] .refs),
    (Op.memoryModel, effect "OpMemoryModel" [.fixed "Logical", .fixed "GLSL450"] .ignored),
    (Op.entryPoint, effect "OpEntryPoint" [.named ExecutionModel.names, .ref, .text] .refs),
    (Op.executionMode, effect "OpExecutionMode" [.ref, .named ExecutionMode.names] .literals),
    (Op.capability, effect "OpCapability" [.named Capability.names] .ignored),
    (Op.typeVoid, definition "OpTypeVoid"), (Op.typeBool, definition "OpTypeBool"),
    (Op.typeInt, definition "OpTypeInt" [] .literals),
    (Op.typeFloat, definition "OpTypeFloat" [] .literals),
    (Op.typeVector, definition "OpTypeVector" [.ref] .literals),
    (Op.typeMatrix, definition "OpTypeMatrix" [.ref] .literals),
    (Op.typeImage, definition "OpTypeImage" [.ref, .fixed "2D"] .literals),
    (Op.typeSampler, definition "OpTypeSampler"),
    (Op.typeSampledImage, definition "OpTypeSampledImage"),
    (Op.typeArray, definition "OpTypeArray"),
    (Op.typeRuntimeArray, definition "OpTypeRuntimeArray"),
    (Op.typeStruct, definition "OpTypeStruct"),
    (Op.typePointer, definition "OpTypePointer" [.named StorageClass.names] .refs),
    (Op.typeFunction, definition "OpTypeFunction"), (Op.constantTrue, value "OpConstantTrue"),
    (Op.constantFalse, value "OpConstantFalse"), (Op.constant, value "OpConstant" [] .literals),
    (Op.constantComposite, value "OpConstantComposite"), (Op.constantNull, value "OpConstantNull"),
    (Op.specConstantTrue, value "OpSpecConstantTrue"),
    (Op.specConstantFalse, value "OpSpecConstantFalse"),
    (Op.specConstant, value "OpSpecConstant" [] .literals),
    (Op.specConstantComposite, value "OpSpecConstantComposite"),
    (Op.function, value "OpFunction" [.fixed "None"] .refs),
    (Op.functionParameter, value "OpFunctionParameter"), (Op.functionEnd, effect "OpFunctionEnd"),
    (Op.functionCall, value "OpFunctionCall"),
    (Op.var, value "OpVariable" [.named StorageClass.names] .refs), (Op.load, value "OpLoad"),
    (Op.store, effect "OpStore"), (Op.accessChain, value "OpAccessChain"),
    (Op.decorate, effect "OpDecorate" [.ref] .decoration),
    (Op.memberDecorate, effect "OpMemberDecorate" [.ref, .literal, .named Decoration.names]
      .literals), (Op.vectorExtractDynamic, value "OpVectorExtractDynamic"),
    (Op.vectorInsertDynamic, value "OpVectorInsertDynamic"),
    (Op.vectorShuffle, value "OpVectorShuffle" [.ref, .ref] .literals),
    (Op.compositeConstruct, value "OpCompositeConstruct"),
    (Op.compositeExtract, value "OpCompositeExtract" [.ref] .literals),
    (Op.compositeInsert, value "OpCompositeInsert" [.ref, .ref] .literals),
    (Op.copyObject, value "OpCopyObject"), (Op.transpose, value "OpTranspose"),
    (Op.sampledImage, value "OpSampledImage"),
    (Op.imageSampleImplicitLod, value "OpImageSampleImplicitLod" [.ref, .ref] .image),
    (Op.imageSampleExplicitLod, value "OpImageSampleExplicitLod" [.ref, .ref] .image),
    (Op.imageFetch, value "OpImageFetch" [.ref, .ref] .image),
    (Op.imageGather, value "OpImageGather" [.ref, .ref, .ref] .image), (Op.image, value "OpImage"),
    (Op.imageQuerySizeLod, value "OpImageQuerySizeLod"),
    (Op.imageQuerySize, value "OpImageQuerySize"),
    (Op.imageQueryLevels, value "OpImageQueryLevels"), (Op.convertFToU, value "OpConvertFToU"),
    (Op.convertFToS, value "OpConvertFToS"), (Op.convertSToF, value "OpConvertSToF"),
    (Op.convertUToF, value "OpConvertUToF"), (Op.bitcast, value "OpBitcast"),
    (Op.snegate, value "OpSNegate"), (Op.fnegate, value "OpFNegate"), (Op.iadd, value "OpIAdd"),
    (Op.fadd, value "OpFAdd"), (Op.isub, value "OpISub"), (Op.fsub, value "OpFSub"),
    (Op.imul, value "OpIMul"), (Op.fmul, value "OpFMul"), (Op.udiv, value "OpUDiv"),
    (Op.sdiv, value "OpSDiv"), (Op.fdiv, value "OpFDiv"), (Op.umod, value "OpUMod"),
    (Op.srem, value "OpSRem"), (Op.smod, value "OpSMod"), (Op.frem, value "OpFRem"),
    (Op.fmod, value "OpFMod"), (Op.vectorTimesScalar, value "OpVectorTimesScalar"),
    (Op.matrixTimesScalar, value "OpMatrixTimesScalar"),
    (Op.vectorTimesMatrix, value "OpVectorTimesMatrix"),
    (Op.matrixTimesVector, value "OpMatrixTimesVector"),
    (Op.matrixTimesMatrix, value "OpMatrixTimesMatrix"), (Op.dot, value "OpDot"),
    (Op.any, value "OpAny"), (Op.all, value "OpAll"), (Op.isNan, value "OpIsNan"),
    (Op.isInf, value "OpIsInf"), (Op.logicalEqual, value "OpLogicalEqual"),
    (Op.logicalNotEqual, value "OpLogicalNotEqual"), (Op.logicalOr, value "OpLogicalOr"),
    (Op.logicalAnd, value "OpLogicalAnd"), (Op.logicalNot, value "OpLogicalNot"),
    (Op.select, value "OpSelect"), (Op.iequal, value "OpIEqual"),
    (Op.inotEqual, value "OpINotEqual"), (Op.uGreaterThan, value "OpUGreaterThan"),
    (Op.sGreaterThan, value "OpSGreaterThan"), (Op.uGreaterThanEqual, value "OpUGreaterThanEqual"),
    (Op.sGreaterThanEqual, value "OpSGreaterThanEqual"), (Op.uLessThan, value "OpULessThan"),
    (Op.sLessThan, value "OpSLessThan"), (Op.uLessThanEqual, value "OpULessThanEqual"),
    (Op.sLessThanEqual, value "OpSLessThanEqual"), (Op.fOrdEqual, value "OpFOrdEqual"),
    (Op.fOrdNotEqual, value "OpFOrdNotEqual"), (Op.fOrdLessThan, value "OpFOrdLessThan"),
    (Op.fOrdGreaterThan, value "OpFOrdGreaterThan"),
    (Op.fOrdLessThanEqual, value "OpFOrdLessThanEqual"),
    (Op.fOrdGreaterThanEqual, value "OpFOrdGreaterThanEqual"),
    (Op.shiftRightLogical, value "OpShiftRightLogical"),
    (Op.shiftRightArithmetic, value "OpShiftRightArithmetic"),
    (Op.shiftLeftLogical, value "OpShiftLeftLogical"), (Op.bitwiseOr, value "OpBitwiseOr"),
    (Op.bitwiseXor, value "OpBitwiseXor"), (Op.bitwiseAnd, value "OpBitwiseAnd"),
    (Op.not, value "OpNot"), (Op.dpdx, value "OpDPdx"), (Op.dpdy, value "OpDPdy"),
    (Op.fwidth, value "OpFwidth"), (Op.phi, value "OpPhi"),
    (Op.loopMerge, effect "OpLoopMerge" [.ref, .ref] .literals),
    (Op.selectionMerge, effect "OpSelectionMerge" [.ref] .literals),
    (Op.label, definition "OpLabel"), (Op.branch, effect "OpBranch"),
    (Op.branchConditional, effect "OpBranchConditional"),
    (Op.switch, effect "OpSwitch" [.ref, .ref] .cases), (Op.kill, effect "OpKill"),
    (Op.ret, effect "OpReturn"), (Op.returnValue, effect "OpReturnValue"),
    (Op.unreachable, effect "OpUnreachable"), (Op.noLine, effect "OpNoLine"),
    (Op.moduleProcessed, effect "OpModuleProcessed"),
    (Op.decorateString, effect "OpDecorateString" [.ref, .named Decoration.names, .text] .ignored),
    (Op.memberDecorateString, effect "OpMemberDecorateString")]

def info? (op : Opcode) : Option Info :=
  table.lookup op

def name (op : Opcode) : String :=
  match op.info? with
  | some i => i.name
  | none => "Op" ++ toString op.code.toNat

/-- Whether the first operand word is the id of the result's type. -/
def hasType (op : Opcode) : Bool :=
  (op.info?.map (·.hasType)).getD false

/-- Whether the operation defines a result id. -/
def hasResult (op : Opcode) : Bool :=
  (op.info?.map (·.hasResult)).getD false

end Opcode
end ShaderEffect.Spirv

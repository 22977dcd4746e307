import ShaderEffect.Basic
import ShaderEffect.Spirv.Binary
import ShaderEffect.Text.Quoted

namespace ShaderEffect.Spirv

/-- The spelling of an id. -/
def refText (n : UInt32) : String :=
  "%" ++ toString n.toNat

def literalText (n : UInt32) : String :=
  toString n.toNat

/-- The name of a number, or the number itself. -/
def nameText (names : List (UInt32 × String)) (n : UInt32) : String :=
  (names.lookup n).getD (literalText n)

/-- Number and id in turn; a number without an id is left out. -/
def caseTexts : List UInt32 → List String
  | value :: target :: rest => literalText value :: refText target :: caseTexts rest
  | _ => []

/-- The texts of a bit set of image operands and of the ids behind it, where there are any. -/
def imageTexts : List UInt32 → List String
  | [] => []
  | mask :: rest => ("0x" ++ Text.hex 1 mask.toNat) :: rest.map refText

/-- The texts of a decoration and its arguments. -/
def decorationTexts (d : Decoration) (args : List UInt32) : List String :=
  nameText Decoration.names d ::
    match d == Decoration.builtIn, args with
    | true, b :: _ => [nameText BuiltIn.names b]
    | _, _ => args.map literalText

namespace OperandTail

/-- The texts of the operands behind the leading ones. The number of a decoration
has to be there. -/
def texts (t : OperandTail) (ops : List UInt32) : Except Fault (List String) :=
  match t, ops with
  | refs, ops => pure (ops.map refText)
  | literals, ops => pure (ops.map literalText)
  | cases, ops => pure (caseTexts ops)
  | image, ops => pure (imageTexts ops)
  | decoration, d :: args => pure (decorationTexts d args)
  | decoration, [] => throw .outOfRange
  | ignored, _ => pure []

end OperandTail

namespace Operand

/-- The text of an operand, and the words behind it. Ids and numbers take the word that is there for
them; texts and fixed names are written whatever there is. -/
def take (o : Operand) (ops : List UInt32) : Except Fault (String × List UInt32) :=
  match o, ops with
  | ref, n :: rest => pure (refText n, rest)
  | literal, n :: rest => pure (literalText n, rest)
  | named names, n :: rest => pure (nameText names n, rest)
  | fixed s, rest => pure (s, rest.drop 1)
  | text, rest =>
    let (s, n) := readText rest
    pure (Text.quoted (String.ofList s), rest.drop n)
  | _, [] => throw .outOfRange

end Operand

/-- The texts of operands with the given arrangement. -/
def operandTexts (tail : OperandTail) : List Operand → List UInt32 → Except Fault (List String)
  | [], ops => tail.texts ops
  | o :: more, ops => do
    let (text, rest) ← o.take ops
    return text :: (← operandTexts tail more rest)

namespace Opcode

/-- The numbers of operands that the listing of an operation selects directly. -/
def operandCounts : List (Opcode × Nat) :=
  [(Op.capability, 1), (Op.entryPoint, 2), (Op.executionMode, 2), (Op.name, 1), (Op.memberName, 2),
    (Op.decorate, 2), (Op.decorateString, 2), (Op.memberDecorate, 3), (Op.typeVector, 1),
    (Op.typeMatrix, 1), (Op.typeImage, 1), (Op.typePointer, 1), (Op.var, 1),
    (Op.compositeExtract, 1), (Op.compositeInsert, 2), (Op.vectorShuffle, 2), (Op.extInst, 2),
    (Op.line, 1), (Op.selectionMerge, 1), (Op.loopMerge, 2), (Op.switch, 2),
    (Op.imageSampleImplicitLod, 2), (Op.imageSampleExplicitLod, 2), (Op.imageFetch, 2)]

def minOperands (op : Opcode) : Nat :=
  (operandCounts.lookup op).getD 0

/-- The texts of the operands of an operation. Operations without a name, and those with fewer
operands than they require, have only ids. Gathers write as many of their ids as there are. -/
def operandTexts (op : Opcode) (ops : List UInt32) : Except Fault (List String) :=
  match op.info? with
  | none => pure (ops.map refText)
  | some i =>
    if ops.length < op.minOperands then pure (ops.map refText)
    else if op = Op.imageGather then pure ((ops.take 3).map refText ++ imageTexts (ops.drop 3))
    else Spirv.operandTexts i.tail i.operands ops

end Opcode

namespace Instruction

/-- The line of an instruction: the result, the operation, the type and the operands. -/
def line (i : Instruction) : Except Fault String := do
  let result := if i.result ≠ 0 then Text.padLeft 12 (refText i.result) ++ " = "
    else Text.spaces 15
  let type := if i.type ≠ 0 then [refText i.type] else []
  let operands ← i.op.operandTexts i.operands
  return result ++ Text.join " " (i.op.name :: (type ++ operands))

/-- The line of an instruction, empty where it has none. -/
def render (i : Instruction) : String :=
  match i.line with
  | .ok s => s
  | .error _ => ""

end Instruction

/-- The lines about the header. -/
def Header.lines (h : Header) : List String :=
  ["; SPIR-V", s!"; Version: {h.major.toNat}.{h.minor.toNat}",
    "; Generator: 0x" ++ Text.upper (Text.hex 8 h.generator.toNat),
    s!"; Bound: {h.bound.toNat}", s!"; Schema: {h.schema.toNat}"]

/-- Why a module has no listing. -/
inductive ListingError where
  /-- Its words are none. -/
  | words (e : DecodeError)
  /-- The listing of an instruction went wrong. -/
  | fault (f : Fault)
deriving DecidableEq, Repr

/-- The lines of a module, unless its words are none. -/
def listing (words : List UInt32) : Except ListingError (List String) :=
  let d := decode words
  match d.error with
  | some e => throw (.words e)
  | none => do
    let lines ← (d.instructions.mapM Instruction.line).mapError .fault
    return d.header.lines ++ lines

end ShaderEffect.Spirv

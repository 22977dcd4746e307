import ShaderEffect.Spirv.Opcode
import ShaderEffect.Text
import ShaderEffect.Ty

namespace ShaderEffect.Spirv

/-- The four bytes of a word, the lowest first. -/
def wordBytes (w : UInt32) : List Char :=
  (List.range 4).map fun i => Text.byte (w.toNat >>> (8 * i))

/-- The word with the given bytes, the lowest first. Missing bytes are zero. -/
def bytesWord (bytes : List Char) : UInt32 :=
  UInt32.ofNat (bytes.foldr (fun c v => v * 256 + c.toNat) 0)

/-- The words of a byte string, the last one filled up with zeros. -/
def packWords (bytes : List Char) : List UInt32 :=
  match bytes with
  | [] => []
  | b :: rest => bytesWord (b :: rest.take 3) :: packWords (rest.drop 3)
termination_by bytes.length
decreasing_by
  simp only [List.length_cons, List.length_drop]; omega

/-- The words of a text. A zero byte ends it, and zeros fill up the last word. -/
def textWords (s : String) : List UInt32 :=
  packWords (s.toList ++ ['\x00'])

/-- The text at the front of some words, up to the first zero byte, and the number of words it
takes. A text without a zero byte takes all of them. -/
def readText : List UInt32 → List Char × Nat
  | [] => ([], 0)
  | w :: rest =>
    let bytes := wordBytes w
    if bytes.contains '\x00' then (bytes.takeWhile (· ≠ '\x00'), 1)
    else
      let (more, n) := readText rest
      (bytes ++ more, n + 1)

/-- An instruction. The ids of the type and the result are 0 where the operation has none. -/
structure Instruction where
  op : Opcode
  type : Id := 0
  result : Id := 0
  operands : List UInt32 := []
deriving DecidableEq, Repr, Inhabited

namespace Instruction

/-- The number of words of the instruction. -/
def wordCount (i : Instruction) : Nat :=
  1 + i.operands.length + (if i.type ≠ 0 then 1 else 0) + (if i.result ≠ 0 then 1 else 0)

/-- The words of the instruction. The first holds the word count above the operation. -/
def encode (i : Instruction) : List UInt32 :=
  (UInt32.ofNat i.wordCount <<< 16 ||| i.op.code.toUInt32)
    :: ((if i.type ≠ 0 then [i.type] else []) ++ (if i.result ≠ 0 then [i.result] else [])
      ++ i.operands)

/-- The instruction with the words of a text behind its operands. -/
def addText (i : Instruction) (s : String) : Instruction :=
  { i with operands := i.operands ++ textWords s }

/-- The instruction of the given operation whose words behind the first are `operands`. The ids of
type and result are taken off the front where the operation has them. -/
def ofWords (op : Opcode) (operands : List UInt32) : Instruction :=
  let (type, operands) :=
    match op.hasType, operands with
    | true, t :: rest => (t, rest)
    | _, rest => (0, rest)
  let (result, operands) :=
    match op.hasResult, operands with
    | true, r :: rest => (r, rest)
    | _, rest => (0, rest)
  { op, type, result, operands }

end Instruction
end ShaderEffect.Spirv

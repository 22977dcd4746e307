import ShaderEffect.Spirv.Instruction

namespace ShaderEffect.Spirv

/-- The first word of every module. -/
def magic : UInt32 := 0x07230203

/-- The header behind the first word. -/
structure Header where
  major : UInt8 := 0
  minor : UInt8 := 0
  generator : UInt32 := 0
  bound : UInt32 := 0
  schema : UInt32 := 0
deriving DecidableEq, Repr, Inhabited

namespace Header

/-- The word that holds the version. -/
def versionWord (h : Header) : UInt32 :=
  h.major.toUInt32 <<< 16 ||| h.minor.toUInt32 <<< 8

def encode (h : Header) : List UInt32 :=
  [magic, h.versionWord, h.generator, h.bound, h.schema]

end Header

/-- Why words are no module. -/
inductive DecodeError where
  /-- There are fewer words than a header has. -/
  | noHeader
  /-- The first word is a different one. -/
  | invalidMagic (word : UInt32)
  /-- The instruction at the given word has no words or more than there are. -/
  | truncated (word : Nat)
  /-- The number of bytes does not fill words. -/
  | partialWord (bytes : Nat)
deriving DecidableEq, Repr, Inhabited

namespace DecodeError

def message : DecodeError → String
  | noHeader => "spirv: truncated module"
  | invalidMagic w => "spirv: invalid magic number: 0x" ++ Text.hex 8 w.toNat
  | truncated n => s!"spirv: truncated module: instruction at word {n}"
  | partialWord n => s!"spirv: truncated module: {n} bytes is not a multiple of 4"

end DecodeError

/-- The words of a module. -/
def assemble (h : Header) (sections : List (List Instruction)) : List UInt32 :=
  h.encode ++ sections.flatMap fun s => s.flatMap Instruction.encode

/-- Reads instructions from the word number `offset` on: those before the first mistake, and the
mistake. -/
def decodeInstructions (offset : Nat) (words : List UInt32) :
    List Instruction × Option DecodeError :=
  match words with
  | [] => ([], none)
  | w :: rest =>
    let count := (w >>> 16).toNat
    if count = 0 || count > rest.length + 1 then ([], some (.truncated offset))
    else
      let i := Instruction.ofWords ⟨w.toUInt16⟩ (rest.take (count - 1))
      let (more, e) := decodeInstructions (offset + count) (rest.drop (count - 1))
      (i :: more, e)
termination_by words.length
decreasing_by
  simp only [List.length_cons, List.length_drop]; omega

/-- What was read of a module, up to the first mistake. -/
structure Decoded where
  header : Header := {}
  instructions : List Instruction := []
  error : Option DecodeError := none
deriving DecidableEq, Repr, Inhabited

/-- Splits words into header and instructions. -/
def decode : List UInt32 → Decoded
  | first :: version :: generator :: bound :: schema :: rest =>
    if first ≠ magic then { error := some (.invalidMagic first) }
    else
      let header : Header :=
        { major := (version >>> 16).toUInt8, minor := (version >>> 8).toUInt8, generator,
          bound, schema }
      let (instructions, error) := decodeInstructions 5 rest
      { header, instructions, error }
  | _ => { error := some .noHeader }

/-- The bytes of some words. -/
def toBytes (words : List UInt32) : List Char :=
  words.flatMap wordBytes

/-- The words of some bytes. -/
def ofBytes (bytes : List Char) : Except DecodeError (List UInt32) :=
  if bytes.length % 4 ≠ 0 then throw (.partialWord bytes.length) else pure (packWords bytes)

end ShaderEffect.Spirv

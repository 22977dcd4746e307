import Mathlib
import ShaderEffect.Spirv.Binary
import ShaderEffect.Spirv.Listing

namespace ShaderEffect.Spirv

@[simp] theorem toNat_byte (n : Nat) : (Text.byte n).toNat = n % 256 := by
  have hvalid : (n % 256).isValidChar := Or.inl (by omega)
  simp [Text.byte, Char.ofNat, dif_pos hvalid, Char.ofNatAux, Char.toNat]

theorem wordBytes_eq (w : UInt32) :
    wordBytes w = [Text.byte w.toNat, Text.byte (w.toNat / 256), Text.byte (w.toNat / 65536),
      Text.byte (w.toNat / 16777216)] := by
  simp [wordBytes, List.range_succ, Nat.shiftRight_eq_div_pow]

@[simp] theorem length_wordBytes (w : UInt32) : (wordBytes w).length = 4 := by
  simp [wordBytes]

theorem bytesWord_wordBytes (w : UInt32) : bytesWord (wordBytes w) = w := by
  have hw := w.toNat_lt
  apply UInt32.toNat_inj.mp
  simp only [bytesWord, wordBytes_eq, List.foldr_cons, List.foldr_nil, toNat_byte,
    UInt32.toNat_ofNat']
  omega

theorem wordBytes_bytesWord {a b c d : Char} (ha : a.toNat < 256) (hb : b.toNat < 256)
    (hc : c.toNat < 256) (hd : d.toNat < 256) :
    wordBytes (bytesWord [a, b, c, d]) = [a, b, c, d] := by
  have hvalue : (bytesWord [a, b, c, d]).toNat
      = ((d.toNat * 256 + c.toNat) * 256 + b.toNat) * 256 + a.toNat := by
    simp only [bytesWord, List.foldr_cons, List.foldr_nil, UInt32.toNat_ofNat']
    omega
  have hbyte {n : Nat} {e : Char} (h : n % 256 = e.toNat) : Text.byte n = e :=
    Char.toNat_inj.mp (by rw [toNat_byte, h])
  rw [wordBytes_eq, hvalue, hbyte (e := a) (by omega), hbyte (e := b) (by omega),
    hbyte (e := c) (by omega), hbyte (e := d) (by omega)]

theorem packWords_four (a b c d : Char) (rest : List Char) :
    packWords (a :: b :: c :: d :: rest) = bytesWord [a, b, c, d] :: packWords rest := by
  rw [packWords]; rfl

@[simp] theorem length_toBytes (words : List UInt32) :
    (toBytes words).length = 4 * words.length := by
  induction words with
  | nil => rfl
  | cons w rest ih =>
    simp only [toBytes, List.flatMap_cons, List.length_append, length_wordBytes,
      List.length_cons] at ih ⊢
    omega

theorem packWords_toBytes (words : List UInt32) : packWords (toBytes words) = words := by
  induction words with
  | nil => simp [toBytes, packWords]
  | cons w rest ih =>
    have hw := bytesWord_wordBytes w
    simp only [toBytes, List.flatMap_cons, wordBytes_eq, List.cons_append, List.nil_append,
      packWords_four] at ih hw ⊢
    rw [hw, ih]

theorem toBytes_packWords (bytes : List Char) (hfull : bytes.length % 4 = 0)
    (hbytes : ∀ c ∈ bytes, c.toNat < 256) : toBytes (packWords bytes) = bytes := by
  match bytes with
  | [] => simp [toBytes, packWords]
  | [_] | [_, _] | [_, _, _] => simp at hfull
  | a :: b :: c :: d :: rest =>
    have hrest : rest.length % 4 = 0 := by simp only [List.length_cons] at hfull; omega
    have ih := toBytes_packWords rest hrest (fun e he => hbytes e (by simp [he]))
    have hword := wordBytes_bytesWord (hbytes a (by simp)) (hbytes b (by simp))
      (hbytes c (by simp)) (hbytes d (by simp))
    rw [packWords_four]
    simp only [toBytes, List.flatMap_cons] at ih ⊢
    rw [hword, ih]; rfl
termination_by bytes.length

theorem ofBytes_toBytes (words : List UInt32) : ofBytes (toBytes words) = .ok words := by
  simp [ofBytes, packWords_toBytes, pure, Except.pure]

theorem ofBytes_eq_error_iff (bytes : List Char) (e : DecodeError) :
    ofBytes bytes = .error e ↔ bytes.length % 4 ≠ 0 ∧ e = .partialWord bytes.length := by
  by_cases h : bytes.length % 4 = 0 <;> simp [ofBytes, h, pure, Except.pure, throw, throwThe,
    MonadExceptOf.throw, eq_comm]

theorem ofBytes_eq_ok_iff (bytes : List Char) (words : List UInt32) :
    ofBytes bytes = .ok words ↔ bytes.length % 4 = 0 ∧ packWords bytes = words := by
  by_cases h : bytes.length % 4 = 0 <;> simp [ofBytes, h, pure, Except.pure, throw, throwThe,
    MonadExceptOf.throw]

/-- The word that starts an instruction of `count` words. -/
def firstWord (count : Nat) (op : Opcode) : UInt32 :=
  UInt32.ofNat count <<< 16 ||| op.code.toUInt32

theorem toNat_firstWord {count : Nat} (hcount : count < 65536) (op : Opcode) :
    (firstWord count op).toNat = count * 65536 + op.code.toNat := by
  have hcode : op.code.toNat < 2 ^ 16 := op.code.toNat_lt
  have hshift : (count <<< 16) % 4294967296 = count <<< 16 := by
    rw [Nat.shiftLeft_eq]; omega
  have hmod : count % 4294967296 = count := by omega
  simp only [firstWord, UInt32.toNat_or, UInt32.toNat_shiftLeft, UInt32.toNat_ofNat',
    UInt16.toNat_toUInt32]
  norm_num [UInt32.toNat]
  rw [hmod, hshift, ← Nat.shiftLeft_add_eq_or_of_lt hcode, Nat.shiftLeft_eq]

theorem toNat_count (w : UInt32) : (w >>> 16).toNat = w.toNat / 65536 := by
  simp [UInt32.toNat_shiftRight, Nat.shiftRight_eq_div_pow]

theorem firstWord_count {count : Nat} (hcount : count < 65536) (op : Opcode) :
    (firstWord count op >>> 16).toNat = count := by
  have hcode : op.code.toNat < 2 ^ 16 := op.code.toNat_lt
  rw [toNat_count, toNat_firstWord hcount]
  omega

theorem firstWord_op {count : Nat} (hcount : count < 65536) (op : Opcode) :
    (⟨(firstWord count op).toUInt16⟩ : Opcode) = op := by
  have hcode : op.code.toNat < 2 ^ 16 := op.code.toNat_lt
  have h : (firstWord count op).toUInt16 = op.code := by
    apply UInt16.toNat_inj.mp
    rw [UInt32.toNat_toUInt16, toNat_firstWord hcount]
    omega
  rw [h]

/-- Every word starts an instruction of the count and the operation it holds. -/
theorem firstWord_eq (w : UInt32) : firstWord (w >>> 16).toNat ⟨w.toUInt16⟩ = w := by
  have hw := w.toNat_lt
  have hcount := toNat_count w
  apply UInt32.toNat_inj.mp
  rw [toNat_firstWord (by omega), hcount]
  show w.toNat / 65536 * 65536 + w.toUInt16.toNat = w.toNat
  rw [UInt32.toNat_toUInt16]
  omega

namespace Instruction

/-- An instruction that has a type and a result exactly when its operation has them, and whose word
count fits the first word. -/
structure WellFormed (i : Instruction) : Prop where
  type : i.type ≠ 0 ↔ i.op.hasType = true
  result : i.result ≠ 0 ↔ i.op.hasResult = true
  count : i.wordCount < 65536

/-- The words behind the first. -/
def tail (i : Instruction) : List UInt32 :=
  (if i.type ≠ 0 then [i.type] else [])
    ++ (if i.result ≠ 0 then [i.result] else []) ++ i.operands

theorem encode_eq (i : Instruction) : i.encode = firstWord i.wordCount i.op :: i.tail := by
  simp [encode, tail, firstWord]

theorem wordCount_eq (i : Instruction) : i.wordCount = i.tail.length + 1 := by
  unfold wordCount tail
  split <;> split <;> simp <;> omega

theorem WellFormed.ofWords_tail {i : Instruction} (hi : i.WellFormed) :
    ofWords i.op i.tail = i := by
  obtain ⟨op, type, result, operands⟩ := i
  have htype := hi.type
  have hresult := hi.result
  simp only at htype hresult
  cases ht : op.hasType <;> cases hr : op.hasResult <;> simp_all [ofWords, tail]

/-- The words among `operands` that `ofWords` takes as ids. -/
def idWords (op : Opcode) (operands : List UInt32) : List UInt32 :=
  operands.take (op.hasType.toNat + op.hasResult.toNat)

theorem tail_ofWords {op : Opcode} {operands : List UInt32} (hids : 0 ∉ idWords op operands) :
    (ofWords op operands).tail = operands := by
  cases ht : op.hasType <;> cases hr : op.hasResult <;>
    rcases operands with _ | ⟨a, _ | ⟨b, rest⟩⟩ <;>
    simp [ofWords, tail, idWords, ht, hr] at hids ⊢ <;> grind

end Instruction

/-- The words of one instruction in a stream: the first holds how many they are. -/
structure Chunk where
  first : UInt32
  operands : List UInt32
  count : (first >>> 16).toNat = operands.length + 1

namespace Chunk

def words (c : Chunk) : List UInt32 :=
  c.first :: c.operands

def op (c : Chunk) : Opcode :=
  ⟨c.first.toUInt16⟩

/-- The instruction the words are read as. -/
def instruction (c : Chunk) : Instruction :=
  .ofWords c.op c.operands

/-- The words that are read as the ids of the type and the result. -/
def ids (c : Chunk) : List UInt32 :=
  Instruction.idWords c.op c.operands

theorem encode_instruction {c : Chunk} (hids : 0 ∉ c.ids) : c.instruction.encode = c.words := by
  have htail : c.instruction.tail = c.operands := Instruction.tail_ofWords hids
  rw [Instruction.encode_eq, Instruction.wordCount_eq, htail, ← c.count]
  show firstWord (c.first >>> 16).toNat c.op :: c.operands = c.words
  rw [op, firstWord_eq, words]

/-- The words an instruction is encoded as. -/
def ofInstruction (i : Instruction) (hi : i.WellFormed) : Chunk where
  first := firstWord i.wordCount i.op
  operands := i.tail
  count := by rw [firstWord_count hi.count, Instruction.wordCount_eq]

@[simp] theorem words_ofInstruction {i : Instruction} (hi : i.WellFormed) :
    (ofInstruction i hi).words = i.encode :=
  i.encode_eq.symm

@[simp] theorem instruction_ofInstruction {i : Instruction} (hi : i.WellFormed) :
    (ofInstruction i hi).instruction = i := by
  show Instruction.ofWords ⟨(firstWord i.wordCount i.op).toUInt16⟩ i.tail = i
  rw [firstWord_op hi.count, hi.ofWords_tail]

end Chunk

/-- The words start with an instruction that is cut off, or with one that has no words. -/
def CutOff (words : List UInt32) : Prop :=
  ∃ w rest, words = w :: rest ∧ ((w >>> 16).toNat = 0 ∨ words.length < (w >>> 16).toNat)

theorem decodeInstructions_chunk (c : Chunk) (offset : Nat) (rest : List UInt32) :
    decodeInstructions offset (c.words ++ rest)
      = (c.instruction :: (decodeInstructions (offset + c.words.length) rest).1,
        (decodeInstructions (offset + c.words.length) rest).2) := by
  have hcount := c.count
  have hfits : ¬ ((c.first >>> 16).toNat = 0
      ∨ (c.first >>> 16).toNat > (c.operands ++ rest).length + 1) := by
    rw [List.length_append]; omega
  rw [Chunk.words, List.cons_append, decodeInstructions]
  simp only [Bool.or_eq_true, decide_eq_true_eq, if_neg hfits]
  simp [hcount, Chunk.instruction, Chunk.op]

theorem decodeInstructions_cutOff {words : List UInt32} (h : CutOff words) (offset : Nat) :
    decodeInstructions offset words = ([], some (.truncated offset)) := by
  obtain ⟨w, rest, rfl, hcut⟩ := h
  rw [List.length_cons] at hcut
  have htest : ((w >>> 16).toNat = 0 || (w >>> 16).toNat > rest.length + 1) = true := by
    simpa only [Bool.or_eq_true, decide_eq_true_eq] using hcut
  rw [decodeInstructions]
  simp only [htest, if_true]

theorem decodeInstructions_chunks (chunks : List Chunk) (offset : Nat) (rest : List UInt32) :
    decodeInstructions offset (chunks.flatMap Chunk.words ++ rest)
      = (chunks.map Chunk.instruction
          ++ (decodeInstructions (offset + (chunks.flatMap Chunk.words).length) rest).1,
        (decodeInstructions (offset + (chunks.flatMap Chunk.words).length) rest).2) := by
  induction chunks generalizing offset with
  | nil => simp
  | cons c more ih =>
    rw [List.flatMap_cons, List.append_assoc, decodeInstructions_chunk, ih]
    simp [Nat.add_assoc]

/-- Every stream is a row of instructions, and then ends or is cut off. -/
theorem exists_chunks (words : List UInt32) :
    ∃ (chunks : List Chunk) (rest : List UInt32),
      words = chunks.flatMap Chunk.words ++ rest ∧ (rest = [] ∨ CutOff rest) := by
  induction hn : words.length using Nat.strong_induction_on generalizing words with
  | _ n ih =>
    obtain _ | ⟨w, tail⟩ := words
    · exact ⟨[], [], rfl, .inl rfl⟩
    by_cases hcut : (w >>> 16).toNat = 0 ∨ tail.length + 1 < (w >>> 16).toNat
    · exact ⟨[], w :: tail, rfl, .inr ⟨w, tail, rfl, hcut⟩⟩
    rw [List.length_cons] at hn
    have hcount : (w >>> 16).toNat = (tail.take ((w >>> 16).toNat - 1)).length + 1 := by
      rw [List.length_take]; omega
    obtain ⟨chunks, rest, hrest, hend⟩ :=
      ih _ (by rw [List.length_drop]; omega) (tail.drop ((w >>> 16).toNat - 1)) rfl
    refine ⟨⟨w, _, hcount⟩ :: chunks, rest, ?_, hend⟩
    rw [List.flatMap_cons, List.append_assoc, ← hrest, Chunk.words, List.cons_append,
      List.take_append_drop]

/-- The header in the words behind the first. -/
def Header.ofWords (version generator bound schema : UInt32) : Header where
  major := (version >>> 16).toUInt8
  minor := (version >>> 8).toUInt8
  generator
  bound
  schema

theorem decode_header (version generator bound schema : UInt32) (rest : List UInt32) :
    decode (magic :: version :: generator :: bound :: schema :: rest)
      = { header := .ofWords version generator bound schema
          instructions := (decodeInstructions 5 rest).1
          error := (decodeInstructions 5 rest).2 } := by
  simp [decode, Header.ofWords]

theorem toNat_shiftRight_eight (w : UInt32) : (w >>> 8).toNat = w.toNat / 256 := by
  simp [UInt32.toNat_shiftRight, Nat.shiftRight_eq_div_pow]

theorem Header.toNat_versionWord (h : Header) :
    h.versionWord.toNat = h.major.toNat * 65536 + h.minor.toNat * 256 := by
  have hmajor : (h.major.toUInt32 <<< 16).toNat = h.major.toNat * 65536 := by
    have := h.major.toNat_lt
    simp [UInt32.toNat_shiftLeft, Nat.shiftLeft_eq]; omega
  have hminor : (h.minor.toUInt32 <<< 8).toNat = h.minor.toNat * 256 := by
    have := h.minor.toNat_lt
    simp [UInt32.toNat_shiftLeft, Nat.shiftLeft_eq]; omega
  have hbelow : h.minor.toNat * 256 < 2 ^ 16 := by
    have := h.minor.toNat_lt
    omega
  have hor := Nat.shiftLeft_add_eq_or_of_lt hbelow h.major.toNat
  rw [versionWord, UInt32.toNat_or, hmajor, hminor]
  simpa [Nat.shiftLeft_eq] using hor.symm

theorem Header.ofWords_versionWord (h : Header) :
    Header.ofWords h.versionWord h.generator h.bound h.schema = h := by
  have hmajor := h.major.toNat_lt
  have hminor := h.minor.toNat_lt
  have hword := h.toNat_versionWord
  obtain ⟨major, minor, generator, bound, schema⟩ := h
  simp only [Header.ofWords, Header.mk.injEq, and_true]
  constructor <;>
  · apply UInt8.toNat_inj.mp
    simp only [UInt32.toNat_toUInt8, toNat_count, toNat_shiftRight_eight,
      hword] at hmajor hminor ⊢
    omega

/-- The bits of a version word outside its two version bytes. -/
def versionMask : UInt32 := 0xFF0000FF

theorem Header.versionWord_ofWords {version : UInt32} (h : version &&& versionMask = 0)
    (generator bound schema : UInt32) :
    (Header.ofWords version generator bound schema).versionWord = version := by
  have hlt := version.toNat_lt
  have hand : version.toNat &&& 0xFF0000FF = 0 := by
    have := congrArg UInt32.toNat h
    simpa [versionMask] using this
  have hlow : version.toNat % 256 = 0 := by
    have := Nat.and_mod_two_pow (a := version.toNat) (b := 0xFF0000FF) (n := 8)
    rw [hand] at this
    have hmask := Nat.and_two_pow_sub_one_eq_mod (version.toNat % 256) 8
    norm_num at this hmask
    omega
  have hhigh : version.toNat / 16777216 = 0 := by
    have := Nat.shiftRight_and_distrib (a := version.toNat) (b := 0xFF0000FF) (i := 24)
    rw [hand] at this
    have hmask := Nat.and_two_pow_sub_one_eq_mod (version.toNat / 16777216) 8
    norm_num [Nat.shiftRight_eq_div_pow] at this hmask
    omega
  apply UInt32.toNat_inj.mp
  rw [Header.toNat_versionWord]
  simp only [Header.ofWords, UInt32.toNat_toUInt8, toNat_count, toNat_shiftRight_eight]
  omega

/-- The words of a module that starts with a header: the header, and a stream that is a row of
instructions followed by `rest`. -/
structure Layout where
  version : UInt32
  generator : UInt32
  bound : UInt32
  schema : UInt32
  chunks : List Chunk
  rest : List UInt32

namespace Layout

def words (l : Layout) : List UInt32 :=
  magic :: l.version :: l.generator :: l.bound :: l.schema
    :: (l.chunks.flatMap Chunk.words ++ l.rest)

def header (l : Layout) : Header :=
  .ofWords l.version l.generator l.bound l.schema

/-- The word behind the instructions. -/
def stop (l : Layout) : Nat :=
  5 + (l.chunks.flatMap Chunk.words).length

theorem decode_words (l : Layout) :
    decode l.words
      = { header := l.header
          instructions := l.chunks.map Chunk.instruction ++ (decodeInstructions l.stop l.rest).1
          error := (decodeInstructions l.stop l.rest).2 } := by
  rw [words, decode_header, decodeInstructions_chunks]
  rfl

theorem decode_complete {l : Layout} (h : l.rest = []) :
    decode l.words
      = { header := l.header, instructions := l.chunks.map Chunk.instruction, error := none } := by
  rw [decode_words, h, decodeInstructions]
  simp

theorem decode_cutOff {l : Layout} (h : CutOff l.rest) :
    decode l.words
      = { header := l.header
          instructions := l.chunks.map Chunk.instruction
          error := some (.truncated l.stop) } := by
  rw [decode_words, decodeInstructions_cutOff h]
  simp

theorem encode_chunks {chunks : List Chunk} (hids : ∀ c ∈ chunks, 0 ∉ c.ids) :
    (chunks.map Chunk.instruction).flatMap Instruction.encode = chunks.flatMap Chunk.words := by
  induction chunks with
  | nil => rfl
  | cons c more ih =>
    simp only [List.mem_cons, forall_eq_or_imp] at hids
    rw [List.map_cons, List.flatMap_cons, List.flatMap_cons, ih hids.2,
      Chunk.encode_instruction hids.1]

theorem assemble_instructions {l : Layout} (h : l.rest = [])
    (hversion : l.version &&& versionMask = 0) (hids : ∀ c ∈ l.chunks, 0 ∉ c.ids) :
    assemble l.header [l.chunks.map Chunk.instruction] = l.words := by
  have hword := Header.versionWord_ofWords hversion l.generator l.bound l.schema
  simp only [assemble, Header.encode, List.flatMap_cons, List.flatMap_nil, List.append_nil,
    encode_chunks hids, words, h]
  rw [header, hword]
  rfl

end Layout

/-- The layout of an assembled module. -/
theorem exists_layout_assemble (h : Header) {sections : List (List Instruction)}
    (hs : ∀ i ∈ sections.flatten, i.WellFormed) :
    ∃ l : Layout, l.words = assemble h sections ∧ l.header = h ∧ l.rest = []
      ∧ l.chunks.map Chunk.instruction = sections.flatten := by
  have hencode : ∀ is : List Instruction, (∀ i ∈ is, i.WellFormed) → ∃ chunks :
      List Chunk, chunks.flatMap Chunk.words = is.flatMap Instruction.encode
        ∧ chunks.map Chunk.instruction = is := by
    intro is his
    refine ⟨is.pmap (fun i hi => Chunk.ofInstruction i hi) his, ?_, ?_⟩
    · induction is with
      | nil => rfl
      | cons i more ih =>
        simp only [List.mem_cons, forall_eq_or_imp] at his
        simpa using ih his.2
    · rw [List.map_pmap]
      simp
  obtain ⟨chunks, hwords, hinstructions⟩ := hencode sections.flatten hs
  refine ⟨⟨h.versionWord, h.generator, h.bound, h.schema, chunks, []⟩, ?_,
    h.ofWords_versionWord, rfl, hinstructions⟩
  rw [Layout.words, hwords, ← List.flatMap_id, List.flatMap_assoc]
  simp [assemble, Header.encode]

theorem decode_assemble (h : Header) {sections : List (List Instruction)}
    (hs : ∀ i ∈ sections.flatten, i.WellFormed) :
    decode (assemble h sections)
      = { header := h, instructions := sections.flatten, error := none } := by
  obtain ⟨l, hwords, hheader, hrest, hinstructions⟩ := exists_layout_assemble h hs
  rw [← hwords, Layout.decode_complete hrest, hheader, hinstructions]

/-- Words that are too few for a header. -/
theorem decode_short {words : List UInt32} (h : words.length < 5) :
    decode words = { error := some .noHeader } := by
  rcases words with _ | ⟨_, _ | ⟨_, _ | ⟨_, _ | ⟨_, _ | ⟨_, rest⟩⟩⟩⟩⟩
  iterate 5 rfl
  simp only [List.length_cons] at h
  omega

/-- Words are too few, or have another first word, or are laid out as a module. -/
theorem exists_layout (words : List UInt32) :
    words.length < 5
      ∨ (∃ w rest, words = w :: rest ∧ 5 ≤ words.length ∧ w ≠ magic
          ∧ decode words = { error := some (.invalidMagic w) })
      ∨ ∃ l : Layout, words = l.words ∧ (l.rest = [] ∨ CutOff l.rest) := by
  rcases words with _
    | ⟨first, _ | ⟨version, _ | ⟨generator, _ | ⟨bound, _ | ⟨schema, rest⟩⟩⟩⟩⟩
  iterate 5 exact .inl (by simp)
  by_cases hmagic : first = magic
  · obtain ⟨chunks, behind, hrest, hend⟩ := exists_chunks rest
    refine .inr (.inr ⟨⟨version, generator, bound, schema, chunks, behind⟩, ?_, hend⟩)
    rw [Layout.words, hmagic, hrest]
  · refine .inr (.inl ⟨first, _, rfl, by simp, hmagic, ?_⟩)
    simp [decode, hmagic]

/-- The binary form is a code. Modules whose instructions have the ids of their operations and fit
their word counts are read back from their bytes. Reading arbitrary words stops at a missing header,
at another first word, or at an instruction that is cut off, and gives the instructions in front of
it; where it does not stop, the instructions tile the words behind the header, and they assemble to
the same words if no id among them is 0 and the version word is one of two bytes. Bytes are words
exactly if their number is a multiple of four. -/
theorem binary_form_is_code :
    (∀ (h : Header) (sections : List (List Instruction)),
      (∀ i ∈ sections.flatten, i.WellFormed) →
      ofBytes (toBytes (assemble h sections)) = .ok (assemble h sections)
        ∧ decode (assemble h sections)
          = { header := h, instructions := sections.flatten, error := none })
    ∧ (∀ words : List UInt32,
      (words.length < 5 ∧ decode words = { error := some .noHeader })
      ∨ (∃ w rest, words = w :: rest ∧ 5 ≤ words.length ∧ w ≠ magic
          ∧ decode words = { error := some (.invalidMagic w) })
      ∨ (∃ l : Layout, words = l.words ∧ CutOff l.rest
          ∧ decode words
            = { header := l.header
                instructions := l.chunks.map Chunk.instruction
                error := some (.truncated l.stop) })
      ∨ (∃ l : Layout, words = l.words ∧ l.rest = []
          ∧ decode words
            = { header := l.header, instructions := l.chunks.map Chunk.instruction, error := none }
          ∧ ((∀ c ∈ l.chunks, 0 ∉ c.ids) → l.version &&& versionMask = 0 →
              assemble (decode words).header [(decode words).instructions] = words)))
    ∧ (∀ bytes : List Char,
      ((∃ words, ofBytes bytes = .ok words) ↔ bytes.length % 4 = 0)
      ∧ ((∃ e, ofBytes bytes = .error e) ↔ bytes.length % 4 ≠ 0)
      ∧ ∀ words, ofBytes bytes = .ok words →
        (∀ c ∈ bytes, c.toNat < 256) → toBytes words = bytes)
    ∧ ∀ words : List UInt32, ofBytes (toBytes words) = .ok words := by
  refine ⟨fun h sections hs => ⟨ofBytes_toBytes _, decode_assemble h hs⟩, fun words => ?_,
    fun bytes => ⟨?_, ?_, ?_⟩, ofBytes_toBytes⟩
  · rcases exists_layout words with hshort | hmagic | ⟨l, rfl, hrest | hcut⟩
    · exact .inl ⟨hshort, decode_short hshort⟩
    · exact .inr (.inl hmagic)
    · have hdecode := Layout.decode_complete hrest
      refine .inr (.inr (.inr ⟨l, rfl, hrest, hdecode, fun hids hversion => ?_⟩))
      rw [hdecode]
      exact Layout.assemble_instructions hrest hversion hids
    · exact .inr (.inr (.inl ⟨l, rfl, hcut, Layout.decode_cutOff hcut⟩))
  · simp [ofBytes_eq_ok_iff]
  · simp [ofBytes_eq_error_iff]
  · intro words hwords hbytes
    obtain ⟨hfull, rfl⟩ := (ofBytes_eq_ok_iff bytes words).mp hwords
    exact toBytes_packWords bytes hfull hbytes

/-- A module of two instructions, one with a type and a result, read back from its bytes. -/
theorem binary_form_is_code_of_two :
    decode (assemble { major := 1, bound := 9 }
        [[{ op := Op.capability, operands := [1] }],
          [{ op := Op.load, type := 2, result := 7, operands := [3] }]])
      = { header := { major := 1, bound := 9 }
          instructions := [{ op := Op.capability, operands := [1] },
            { op := Op.load, type := 2, result := 7, operands := [3] }]
          error := none } := by
  refine (binary_form_is_code.1 _ _ fun i hi => ?_).2
  simp only [List.flatten_cons, List.flatten_nil, List.append_nil, List.cons_append,
    List.nil_append, List.mem_cons, List.not_mem_nil, or_false] at hi
  obtain rfl | rfl := hi <;> exact ⟨by decide, by decide, by decide⟩

end ShaderEffect.Spirv

/-!
Texts among the operands of instructions. A text takes whole words, the last of which holds the zero
byte that ends it. Whatever stands in front of it and behind it, it is read back in full and the
operands around it are where they were.
-/
namespace ShaderEffect.Spirv

/-- The bytes of a text that operands can hold: none of them is the one that ends a text. -/
structure IsOperandText (bytes : List Char) : Prop where
  small : ∀ c ∈ bytes, c.toNat < 256
  ending : '\x00' ∉ bytes

theorem IsOperandText.of_append_right {front bytes : List Char}
    (h : IsOperandText (front ++ bytes)) :
    IsOperandText bytes where
  small c hc := h.small c (List.mem_append_right front hc)
  ending hzero := h.ending (List.mem_append_right front hzero)

/-- Zeros at the end of a word add nothing to it, since missing bytes are zero. -/
theorem bytesWord_append_zero (bytes : List Char) :
    bytesWord (bytes ++ ['\x00']) = bytesWord bytes := by
  simp [bytesWord]

/-- The last word of a text: the bytes that are left over, and zeros behind them. -/
theorem wordBytes_last {bytes : List Char} (hlength : bytes.length < 4)
    (hbytes : ∀ c ∈ bytes, c.toNat < 256) :
    wordBytes (bytesWord (bytes ++ ['\x00']))
      = bytes ++ List.replicate (4 - bytes.length) '\x00' := by
  have hzero : '\x00'.toNat < 256 := by decide
  match bytes with
  | [] =>
    rw [← bytesWord_append_zero, ← bytesWord_append_zero, ← bytesWord_append_zero]
    exact wordBytes_bytesWord hzero hzero hzero hzero
  | [a] =>
    rw [← bytesWord_append_zero, ← bytesWord_append_zero]
    exact wordBytes_bytesWord (hbytes a (by simp)) hzero hzero hzero
  | [a, b] =>
    rw [← bytesWord_append_zero]
    exact wordBytes_bytesWord (hbytes a (by simp)) (hbytes b (by simp)) hzero hzero
  | [a, b, c] =>
    exact wordBytes_bytesWord (hbytes a (by simp)) (hbytes b (by simp)) (hbytes c (by simp)) hzero
  | _ :: _ :: _ :: _ :: _ => simp at hlength; omega

/-- A word with a zero byte is the last of its text. -/
theorem readText_last {w : UInt32} {bytes : List Char} {zeros : Nat}
    (hw : wordBytes w = bytes ++ List.replicate (zeros + 1) '\x00') (hend : '\x00' ∉ bytes)
    (after : List UInt32) :
    readText (w :: after) = (bytes, 1) := by
  have hbytes : ∀ c ∈ bytes, c ≠ '\x00' := fun c hc h => hend (h ▸ hc)
  have htext : (bytes ++ List.replicate (zeros + 1) '\x00').takeWhile (· ≠ '\x00') = bytes := by
    rw [List.takeWhile_append_of_pos (by simpa using hbytes)]
    simp [List.replicate_succ]
  rw [readText, hw, if_pos (by simp), htext]

/-- A word without a zero byte is read in full, and the text goes on behind it. -/
theorem readText_full {w : UInt32} (hw : '\x00' ∉ wordBytes w) (rest : List UInt32) :
    readText (w :: rest) = (wordBytes w ++ (readText rest).1, (readText rest).2 + 1) := by
  rw [readText, if_neg (by simpa using hw)]

theorem packWords_short {bytes : List Char} (hlength : bytes.length < 4) :
    packWords (bytes ++ ['\x00']) = [bytesWord (bytes ++ ['\x00'])] := by
  match bytes with
  | [] | [_] | [_, _] | [_, _, _] => simp [packWords]
  | _ :: _ :: _ :: _ :: _ => simp at hlength; omega

/-- The ending makes one word more than the bytes fill. -/
theorem length_packWords_ended (bytes : List Char) :
    (packWords (bytes ++ ['\x00'])).length = bytes.length / 4 + 1 := by
  match bytes with
  | [] | [_] | [_, _] | [_, _, _] => rw [packWords_short (by simp)]; simp
  | a :: b :: c :: d :: rest =>
    have ih := length_packWords_ended rest
    simp only [List.cons_append, packWords_four, List.length_cons, ih]
    omega
termination_by bytes.length

/-- The induction takes four bytes at a time, which are one word, until fewer are left. -/
theorem readText_packWords {bytes : List Char} (h : IsOperandText bytes) (after : List UInt32) :
    readText (packWords (bytes ++ ['\x00']) ++ after) = (bytes, bytes.length / 4 + 1) := by
  by_cases hlength : bytes.length < 4
  · have hlast := wordBytes_last hlength h.small
    rw [show 4 - bytes.length = 3 - bytes.length + 1 by omega] at hlast
    have hquot : bytes.length / 4 = 0 := Nat.div_eq_of_lt hlength
    rw [packWords_short hlength, List.singleton_append, readText_last hlast h.ending, hquot]
  · match bytes with
    | [] | [_] | [_, _] | [_, _, _] => simp at hlength
    | a :: b :: c :: d :: rest =>
      have hword : wordBytes (bytesWord [a, b, c, d]) = [a, b, c, d] :=
        wordBytes_bytesWord (h.small a (by simp)) (h.small b (by simp)) (h.small c (by simp))
          (h.small d (by simp))
      have hfull : '\x00' ∉ wordBytes (bytesWord [a, b, c, d]) := by
        rw [hword]
        exact fun hmem => h.ending (List.mem_append_left rest hmem)
      have hwhole : IsOperandText ([a, b, c, d] ++ rest) := h
      have ih := readText_packWords hwhole.of_append_right after
      simp only [List.cons_append, packWords_four, List.length_cons]
      rw [readText_full hfull, ih, hword]
      simp only [List.cons_append, List.nil_append, Prod.mk.injEq, true_and]
      omega
termination_by bytes.length

namespace Instruction

/-- A text behind any operands and in front of any others. It takes a word for each four bytes and
one more, it is read back where it starts, and the others are found in front of it and behind it. -/
theorem addText_in_place (i : Instruction) {s : String} (hs : IsOperandText s.toList)
    (after : List UInt32) :
    let words := (i.addText s).operands ++ after
    let start := i.operands.length
    let count := s.toList.length / 4 + 1
    (i.addText s).operands.length = start + count ∧
      readText (words.drop start) = (s.toList, count) ∧
      words.take start = i.operands ∧ words.drop (start + count) = after := by
  intro words start count
  have hcount : (textWords s).length = count := length_packWords_ended s.toList
  have hwords : words = i.operands ++ (textWords s ++ after) := List.append_assoc ..
  refine ⟨?_, ?_, ?_, ?_⟩
  · simp [addText, start, hcount]
  · rw [hwords, List.drop_left]
    exact readText_packWords hs after
  · rw [hwords, List.take_left]
  · rw [hwords, ← List.drop_drop, List.drop_left, ← hcount, List.drop_left]

/-- The record of an entry point with the name of a pixel shader: two ids in front of the name
and two behind it. -/
theorem addText_in_place_entryPoint :
    let record : Instruction := { op := Op.entryPoint, operands := [4, 17] }
    IsOperandText "main_ps\xff".toList ∧
      readText (((record.addText "main_ps\xff").operands ++ [21, 22]).drop 2)
        = ("main_ps\xff".toList, 3) ∧
      ((record.addText "main_ps\xff").operands ++ [21, 22]).drop 5 = [21, 22] := by
  have htext : IsOperandText "main_ps\xff".toList := ⟨by simp, by decide⟩
  obtain ⟨-, hread, -, hafter⟩ :=
    addText_in_place { op := Op.entryPoint, operands := [4, 17] } htext [21, 22]
  exact ⟨htext, hread, hafter⟩

end Instruction

/-- The listing writes the text, and goes on with the operands behind it. -/
theorem Operand.take_text {s : String} (hs : IsOperandText s.toList) (after : List UInt32) :
    Operand.text.take (textWords s ++ after) = .ok (Text.quoted s, after) := by
  have hcount : (textWords s).length = s.toList.length / 4 + 1 := length_packWords_ended s.toList
  have hread : readText (textWords s ++ after) = (s.toList, s.toList.length / 4 + 1) :=
    readText_packWords hs after
  simp only [Operand.take, hread, ← hcount, List.drop_left, String.ofList_toList]
  rfl

end ShaderEffect.Spirv

import Mathlib.Data.List.Basic
import ShaderEffect.Spirv.Listing

namespace ShaderEffect

namespace Text

/-- Whether a text is on one line. -/
def IsLine (s : String) : Prop :=
  '\n' ∉ s.toList

instance (s : String) : Decidable (IsLine s) :=
  inferInstanceAs (Decidable ('\n' ∉ s.toList))

variable {s s' : String} {cs : List Char}

theorem IsLine.append (hs : IsLine s) (hs' : IsLine s') : IsLine (s ++ s') := by
  rw [IsLine, String.toList_append]
  exact List.not_mem_append hs hs'

theorem isLine_ofList (h : '\n' ∉ cs) : IsLine (String.ofList cs) := by
  rwa [IsLine, String.toList_ofList]

theorem newline_notMem_toDigits {radix : Nat} (hradix : 1 < radix) (n : Nat) :
    '\n' ∉ Nat.toDigits radix n := by
  have hdigit (k : Nat) : '\n' ∉ [k.digitChar] := fun h =>
    Nat.digitChar_ne '\n' (by decide) (List.mem_singleton.mp h).symm
  induction n using Nat.strongRecOn with
  | _ n ih =>
    rw [Nat.toDigits_eq_if hradix]
    split
    · exact hdigit n
    · rename_i hn
      have hpos : 0 < n := by omega
      exact List.not_mem_append (ih _ (Nat.div_lt_self hpos hradix)) (hdigit _)

theorem isLine_toString (n : Nat) : IsLine (toString n) := by
  rw [Nat.toString_eq_ofList_toDigits]
  exact isLine_ofList (newline_notMem_toDigits (by decide) n)

theorem newline_notMem_replicate {c : Char} (hc : c ≠ '\n') (n : Nat) :
    '\n' ∉ List.replicate n c := fun h =>
  hc (List.eq_of_mem_replicate h).symm

theorem isLine_hex (width n : Nat) : IsLine (hex width n) :=
  isLine_ofList (List.not_mem_append (newline_notMem_replicate (by decide) _)
    (newline_notMem_toDigits (by decide) n))

theorem isLine_spaces (n : Nat) : IsLine (spaces n) :=
  isLine_ofList (newline_notMem_replicate (by decide) n)

theorem IsLine.padLeft (h : IsLine s) (width : Nat) : IsLine (padLeft width s) :=
  (isLine_spaces _).append h

theorem IsLine.upper (h : IsLine s) : IsLine (upper s) := by
  rw [IsLine, Text.upper, String.toList_map]
  intro hmem
  obtain ⟨c, hc, heq⟩ := List.mem_map.mp hmem
  have hnewline : c = '\n' := by
    unfold Char.toUpper at heq
    split at heq
    · rename_i hletter
      -- A letter in upper case is no newline.
      have hcode := congrArg (fun c : Char => c.val.toNat) heq
      have hlow : 97 ≤ c.val.toNat := UInt32.le_iff_toNat_le.mp hletter.1
      have hhigh : c.val.toNat ≤ 122 := UInt32.le_iff_toNat_le.mp hletter.2
      simp only [UInt32.toNat_add] at hcode
      have : ('A'.val - 'a'.val).toNat = 4294967264 := by decide
      have : '\n'.val.toNat = 10 := by decide
      omega
    · exact heq
  exact h (hnewline ▸ hc)

theorem isLine_join {separator : String} (hseparator : IsLine separator) {parts : List String}
    (h : ∀ s ∈ parts, IsLine s) : IsLine (join separator parts) := by
  rw [IsLine, join, String.toList_intercalate]
  induction parts with
  | nil => simp
  | cons s parts ih =>
    obtain ⟨hs, hparts⟩ := List.forall_mem_cons.mp h
    cases parts with
    | nil =>
      rw [List.map_singleton, List.intercalate_singleton]
      exact hs
    | cons s' parts =>
      rw [List.map_cons, List.map_cons, List.intercalate_cons_cons]
      exact List.not_mem_append (List.not_mem_append hs hseparator) (ih hparts)

theorem isLine_escapeSequence (code : Nat) : IsLine (escapeSequence code) := by
  unfold escapeSequence
  split
  case h_10 =>
    split
    · exact IsLine.append (by decide) (isLine_hex _ _)
    · split <;> exact IsLine.append (by decide) (isLine_hex _ _)
  all_goals decide

/-- The bytes of a character that is shown as itself. -/
theorem newline_notMem_character {c : Char} {rest : List Char} {code n : Nat}
    (h : firstCharacter? (c :: rest) = some (code, n)) (hplain : isPlain code = true) :
    '\n' ∉ (c :: rest).take n := by
  rw [firstCharacter?] at h
  split at h
  · -- The byte is the character, and a newline is not shown as itself.
    obtain ⟨rfl, rfl⟩ := Prod.mk.inj (Option.some.inj h)
    refine fun hmem => absurd hplain ?_
    rw [← List.mem_singleton.mp hmem]
    decide
  · -- All further bytes are continuation bytes.
    rename_i hlead
    simp only [bind, Option.bind_eq_some_iff, Option.bind_none, Option.ite_none_left_eq_some] at h
    obtain ⟨⟨low, high, more⟩, -, -, -, hall, h⟩ := h
    obtain ⟨-, rfl⟩ := Prod.mk.inj (Option.some.inj h)
    rw [Bool.not_eq_true, Bool.not_eq_false'] at hall
    rw [List.take_succ_cons]
    rintro (_ | ⟨_, hmem⟩)
    · exact hlead (by decide)
    · exact absurd (List.all_eq_true.mp hall _ hmem) (by decide)

theorem newline_notMem_quotedBody (cs : List Char) : '\n' ∉ quotedBody cs := by
  fun_induction quotedBody cs with
  | case1 => exact List.not_mem_nil
  | case2 c rest code n hfirst ih =>
    refine List.not_mem_append ?_ ih
    split
    · rename_i hplain
      exact newline_notMem_character hfirst hplain
    · exact isLine_escapeSequence code
  | case3 c rest hnone ih =>
    exact List.not_mem_append (IsLine.append (by decide) (isLine_hex _ _)) ih

theorem isLine_quoted (s : String) : IsLine (quoted s) :=
  (IsLine.append (by decide) (isLine_ofList (newline_notMem_quotedBody _))).append (by decide)

end Text

namespace Spirv

open Text

variable {names : List (UInt32 × String)} {tail : OperandTail} {operands : List Operand}
  {ops : List UInt32} {op : Opcode} {info : Opcode.Info}

/-- Whether the names in a table are on one line each. -/
def AreLines (names : List (UInt32 × String)) : Prop :=
  ∀ e ∈ names, IsLine e.2

instance (names : List (UInt32 × String)) : Decidable (AreLines names) :=
  inferInstanceAs (Decidable (∀ e ∈ names, IsLine e.2))

theorem isLine_refText (n : UInt32) : IsLine (refText n) :=
  IsLine.append (by decide) (isLine_toString _)

theorem isLine_nameText (h : AreLines names) (n : UInt32) : IsLine (nameText names n) := by
  unfold nameText
  cases hlookup : names.lookup n with
  | none => exact isLine_toString _
  | some s =>
    obtain ⟨front, back, rfl, -⟩ := List.lookup_eq_some_iff.mp hlookup
    exact h (n, s) (List.mem_append_right _ List.mem_cons_self)

theorem isLine_refTexts (ops : List UInt32) : ∀ s ∈ ops.map refText, IsLine s :=
  List.forall_mem_map.mpr fun n _ => isLine_refText n

theorem isLine_literalTexts (ops : List UInt32) : ∀ s ∈ ops.map literalText, IsLine s :=
  List.forall_mem_map.mpr fun _ _ => isLine_toString _

theorem isLine_caseTexts (ops : List UInt32) : ∀ s ∈ caseTexts ops, IsLine s := by
  fun_induction caseTexts ops with
  | case1 value target rest ih =>
    exact List.forall_mem_cons.mpr ⟨isLine_toString _,
      List.forall_mem_cons.mpr ⟨isLine_refText target, ih⟩⟩
  | case2 => exact List.forall_mem_nil _

theorem isLine_imageTexts (ops : List UInt32) : ∀ s ∈ imageTexts ops, IsLine s := by
  cases ops with
  | nil => exact List.forall_mem_nil _
  | cons mask rest =>
    exact List.forall_mem_cons.mpr ⟨IsLine.append (by decide) (isLine_hex _ _),
      isLine_refTexts rest⟩

theorem isLine_decorationTexts (d : Decoration) (args : List UInt32) :
    ∀ s ∈ decorationTexts d args, IsLine s := by
  refine List.forall_mem_cons.mpr ⟨isLine_nameText (by decide +kernel) d, ?_⟩
  split
  · exact List.forall_mem_singleton.mpr (isLine_nameText (by decide +kernel) _)
  · exact isLine_literalTexts _

/-- Whether what the listing of operands with an arrangement selects is within the first `n` words.
Behind a text there may be no words. -/
def isWithin (tail : OperandTail) : List Operand → Nat → Bool
  | [], n => tail ≠ .decoration || 0 < n
  | .fixed _ :: more, n => isWithin tail more (n - 1)
  | .text :: more, _ => isWithin tail more 0
  | .ref :: more, n | .literal :: more, n | .named _ :: more, n =>
    0 < n && isWithin tail more (n - 1)

/-- Whether the names that an operand may have are on one line each. -/
def Operand.IsLine : Operand → Prop
  | named names => AreLines names
  | fixed name => Text.IsLine name
  | ref | literal | text => True

instance (o : Operand) : Decidable o.IsLine := by
  cases o <;> unfold Operand.IsLine <;> infer_instance

/-- Whether a computation gives texts on one line each. -/
def GivesLines (x : Except Fault (List String)) : Prop :=
  ∃ texts, x = .ok texts ∧ ∀ s ∈ texts, IsLine s

theorem givesLines_pure {texts : List String} (h : ∀ s ∈ texts, IsLine s) :
    GivesLines (pure texts) :=
  ⟨texts, rfl, h⟩

theorem operandTexts_cons {o : Operand} {s : String} {rest : List UInt32}
    (htake : o.take ops = .ok (s, rest)) :
    operandTexts tail (o :: operands) ops = (operandTexts tail operands rest).map (s :: ·) := by
  rw [operandTexts, htake]
  show (do return s :: (← operandTexts tail operands rest)) = _
  cases operandTexts tail operands rest <;> rfl

theorem GivesLines.cons {o : Operand} {s : String} {rest : List UInt32}
    (htake : o.take ops = .ok (s, rest))
    (hs : IsLine s) (h : GivesLines (operandTexts tail operands rest)) :
    GivesLines (operandTexts tail (o :: operands) ops) := by
  obtain ⟨texts, hrest, htexts⟩ := h
  refine ⟨s :: texts, ?_, List.forall_mem_cons.mpr ⟨hs, htexts⟩⟩
  rw [operandTexts_cons htake, hrest]
  rfl

/-- More words are enough where fewer are. -/
theorem isWithin_mono {m n : Nat} (hmn : m ≤ n) (h : isWithin tail operands m = true) :
    isWithin tail operands n = true := by
  fun_induction isWithin tail operands m generalizing n with
  | case1 m =>
    simp only [isWithin, Bool.or_eq_true, decide_eq_true_eq] at h ⊢
    exact h.imp_right fun hm => Nat.lt_of_lt_of_le hm hmn
  | case2 m name more ih => exact ih (Nat.sub_le_sub_right hmn 1) h
  | case3 m more ih => exact h
  | case4 m more ih | case5 m more ih | case6 m names more ih =>
    simp only [isWithin, Bool.and_eq_true, decide_eq_true_eq] at h ⊢
    exact ⟨Nat.lt_of_lt_of_le h.1 hmn, ih (Nat.sub_le_sub_right hmn 1) h.2⟩

theorem OperandTail.givesLines_texts (h : isWithin tail [] ops.length = true) :
    GivesLines (tail.texts ops) := by
  cases tail with
  | refs => exact givesLines_pure (isLine_refTexts ops)
  | literals => exact givesLines_pure (isLine_literalTexts ops)
  | cases => exact givesLines_pure (isLine_caseTexts ops)
  | image => exact givesLines_pure (isLine_imageTexts ops)
  | decoration =>
    cases ops with
    | nil => exact absurd h (by decide)
    | cons d args => exact givesLines_pure (isLine_decorationTexts d args)
  | ignored => exact givesLines_pure (List.forall_mem_nil _)

/-- Operands have texts when what is selected of them is there. -/
theorem givesLines_operandTexts (hnames : ∀ o ∈ operands, o.IsLine)
    (h : isWithin tail operands ops.length = true) :
    GivesLines (operandTexts tail operands ops) := by
  induction operands generalizing ops with
  | nil => exact OperandTail.givesLines_texts h
  | cons o operands ih =>
    obtain ⟨hname, hothers⟩ := List.forall_mem_cons.mp hnames
    have hrest {rest : List UInt32} (hrest : isWithin tail operands rest.length = true) :=
      ih hothers hrest
    -- The word that is selected for the first operand.
    have hfirst (h : (decide (0 < ops.length) && isWithin tail operands (ops.length - 1)) = true) :
        ∃ n rest, ops = n :: rest ∧ isWithin tail operands rest.length = true := by
      simp only [Bool.and_eq_true, decide_eq_true_eq] at h
      obtain ⟨n, rest, rfl⟩ := List.exists_cons_of_length_pos h.1
      exact ⟨n, rest, rfl, h.2⟩
    cases o with
    | fixed name => exact .cons rfl hname (hrest (by rwa [List.length_drop]))
    | text => exact .cons rfl (isLine_quoted _) (hrest (isWithin_mono (Nat.zero_le _) h))
    | ref =>
      obtain ⟨n, rest, rfl, hmore⟩ := hfirst h
      exact .cons rfl (isLine_refText n) (hrest hmore)
    | literal =>
      obtain ⟨n, rest, rfl, hmore⟩ := hfirst h
      exact .cons rfl (isLine_toString _) (hrest hmore)
    | named names =>
      obtain ⟨n, rest, rfl, hmore⟩ := hfirst h
      exact .cons rfl (isLine_nameText hname n) (hrest hmore)

/-- Without the words that are selected, the listing goes wrong. That some number of words is enough
keeps out arrangements that select words behind a text. -/
theorem operandTexts_eq_throw {n : Nat} (hn : isWithin tail operands n = true)
    (h : isWithin tail operands ops.length = false) :
    operandTexts tail operands ops = throw .outOfRange := by
  induction operands generalizing n ops with
  | nil =>
    simp only [isWithin, Bool.or_eq_false_iff, decide_eq_false_iff_not, not_not, Nat.not_lt,
      Nat.le_zero, List.length_eq_zero_iff] at h
    obtain ⟨rfl, rfl⟩ := h
    rfl
  | cons o operands ih =>
    cases o with
    | fixed name =>
      rw [operandTexts_cons rfl, ih hn (by rwa [List.length_drop])]
      rfl
    | text => exact absurd (hn.symm.trans h) (by decide)
    | ref | literal | named names =>
      simp only [isWithin, Bool.and_eq_true] at hn
      obtain _ | ⟨m, rest⟩ := ops
      · rfl
      · rw [operandTexts_cons rfl, ih hn.2 (by simpa [isWithin] using h)]
        rfl

namespace Opcode

/-- The names that the listing of an operation can have in it are on one line each. -/
theorem isLine_table : ∀ e ∈ table, IsLine e.2.name ∧ ∀ o ∈ e.2.operands, o.IsLine := by
  decide +kernel

theorem isWithin_table : ∀ e ∈ table, e.1 = Op.imageGather ∨
    isWithin e.2.tail e.2.operands e.1.minOperands = true ∧
      ∀ n < e.1.minOperands, isWithin e.2.tail e.2.operands n = false := by
  decide +kernel

theorem mem_table (h : op.info? = some info) : (op, info) ∈ table := by
  obtain ⟨front, back, heq, -⟩ := List.lookup_eq_some_iff.mp h
  exact heq ▸ List.mem_append_right _ List.mem_cons_self

/-- The table of the numbers of operands agrees with the arrangements: what an operation requires is
what its listing selects, and no more. -/
theorem isWithin_iff (h : op.info? = some info) (hop : op ≠ Op.imageGather) (n : Nat) :
    isWithin info.tail info.operands n = true ↔ op.minOperands ≤ n := by
  obtain ⟨hwithin, hleast⟩ := (isWithin_table _ (mem_table h)).resolve_left hop
  refine ⟨fun hn => Nat.le_of_not_lt fun hlt => ?_, fun hn => isWithin_mono hn hwithin⟩
  rw [hleast n hlt] at hn
  cases hn

/-- The listing of an operation in the table would go wrong with fewer operands than it
requires, and only then. -/
theorem operandTexts_ok_iff (h : op.info? = some info) (hop : op ≠ Op.imageGather)
    (ops : List UInt32) :
    (∃ texts, Spirv.operandTexts info.tail info.operands ops = .ok texts)
      ↔ op.minOperands ≤ ops.length := by
  refine ⟨fun ⟨texts, htexts⟩ => ?_, fun hlength => ?_⟩
  · -- With fewer operands it would have gone wrong.
    by_contra hlength
    have hwithin := (isWithin_iff h hop op.minOperands).mpr (Nat.le_refl _)
    rw [operandTexts_eq_throw hwithin
      (Bool.eq_false_iff.mpr fun hn => hlength ((isWithin_iff h hop _).mp hn))] at htexts
    cases htexts
  · obtain ⟨texts, htexts, -⟩ := Spirv.givesLines_operandTexts (isLine_table _ (mem_table h)).2
      ((isWithin_iff h hop ops.length).mpr hlength)
    exact ⟨texts, htexts⟩

theorem isLine_name (op : Opcode) : IsLine op.name := by
  unfold name
  split
  · rename_i info hinfo
    exact (isLine_table _ (mem_table hinfo)).1
  · exact IsLine.append (by decide) (isLine_toString _)

theorem givesLines_operandTexts (op : Opcode) (ops : List UInt32) :
    GivesLines (op.operandTexts ops) := by
  unfold Opcode.operandTexts
  -- Only the last branch selects operands, and it is taken when there are enough of them.
  split
  · exact givesLines_pure (isLine_refTexts ops)
  · rename_i info hinfo
    split
    · exact givesLines_pure (isLine_refTexts ops)
    · rename_i hlength
      split
      · exact givesLines_pure (List.forall_mem_append.mpr ⟨isLine_refTexts _,
          isLine_imageTexts _⟩)
      · rename_i hop
        exact Spirv.givesLines_operandTexts (isLine_table _ (mem_table hinfo)).2
          ((isWithin_iff hinfo hop _).mpr (Nat.le_of_not_lt hlength))

end Opcode

/-- Every instruction has a line. -/
theorem Instruction.line_eq (i : Instruction) : i.line = .ok i.render ∧ IsLine i.render := by
  obtain ⟨texts, hops, htexts⟩ := i.op.givesLines_operandTexts i.operands
  have hline : ∃ s, i.line = .ok s ∧ IsLine s := by
    refine ⟨_, by rw [Instruction.line, hops]; rfl,
      IsLine.append ?_ (isLine_join (by decide) ?_)⟩
    · split
      · exact ((isLine_refText _).padLeft 12).append (by decide)
      · exact isLine_spaces 15
    · refine List.forall_mem_cons.mpr ⟨i.op.isLine_name,
        List.forall_mem_append.mpr ⟨?_, htexts⟩⟩
      split
      · exact List.forall_mem_singleton.mpr (isLine_refText _)
      · exact List.forall_mem_nil _
  obtain ⟨s, hs, hisLine⟩ := hline
  have hrender : i.render = s := by rw [Instruction.render, hs]
  exact hrender ▸ ⟨hs, hisLine⟩

theorem Header.isLine_lines (h : Header) : ∀ s ∈ h.lines, IsLine s := by
  -- A number behind a text.
  have hnumber {s : String} (hs : IsLine s) (n : Nat) : IsLine (s ++ toString n) :=
    hs.append (isLine_toString n)
  have hgenerator : IsLine ("; Generator: 0x" ++ upper (hex 8 h.generator.toNat)) :=
    IsLine.append (by decide) (isLine_hex _ _).upper
  simp only [Header.lines, List.forall_mem_cons]
  refine ⟨by decide, hnumber (.append (hnumber ?_ _) ?_) _, hgenerator, hnumber ?_ _,
    hnumber ?_ _, List.forall_mem_nil _⟩
  all_goals decide

/-- The listing of words is refused for the reason they are no module, or has the lines about the
header and one line for each instruction. To select the operands of an operation goes wrong when
there are fewer of them than it requires, and only then; no instruction, whatever its operation, ids
and operands, selects an operand that is not there. -/
theorem listing_safe (words : List UInt32) :
    (∀ (op : Opcode) (info : Opcode.Info) (ops : List UInt32),
      op.info? = some info → op ≠ Op.imageGather →
      ((∃ texts, operandTexts info.tail info.operands ops = .ok texts)
        ↔ op.minOperands ≤ ops.length)) ∧
      (∀ i : Instruction, i.line = .ok i.render ∧ IsLine i.render) ∧
      (listing words = match (decode words).error with
        | some e => .error (.words e)
        | none => .ok ((decode words).header.lines
          ++ (decode words).instructions.map Instruction.render)) ∧
      (decode words).header.lines.length = 5 ∧ ∀ s ∈ (decode words).header.lines,
        IsLine s := by
  refine ⟨fun op info ops h hop => Opcode.operandTexts_ok_iff h hop ops, Instruction.line_eq, ?_,
    rfl, Header.isLine_lines _⟩
  -- Lines that are never refused are those of a map.
  have hline : Instruction.line = fun i => pure i.render := funext fun i => i.line_eq.1
  simp only [listing, hline, List.mapM_pure]
  cases (decode words).error <;> rfl

end Spirv
end ShaderEffect

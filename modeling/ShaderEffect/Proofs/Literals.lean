import Mathlib
import ShaderEffect.Proofs.Preprocessing.Numerals

namespace ShaderEffect.Token

/-- The radix that the front of a text selects. -/
def radixAt (cs : List Char) : Nat :=
  if isHexMarked cs then 16 else if cs.head? = some '0' then 8 else 10

/-- What stands in front of the digits: the mark of hexadecimal ones. The zero that marks octal
ones is a digit. -/
def leadAt (cs : List Char) : List Char :=
  if isHexMarked cs then cs.take 2 else []

/-- Whether a byte is a digit of a radix of at most sixteen. -/
def isDigitOf (radix : Nat) (c : Char) : Bool :=
  Text.isHexDigit c && Text.hexValue c < radix

/-- The longest run of digits behind the mark. -/
def digitsAt (cs : List Char) : List Char :=
  (cs.drop (leadAt cs).length).takeWhile (isDigitOf (radixAt cs))

/-- What stands behind the digits. -/
def behindDigits (cs : List Char) : List Char :=
  (cs.drop (leadAt cs).length).dropWhile (isDigitOf (radixAt cs))

/-- The mark of an unsigned literal behind the digits, if there is one. -/
def suffixAt (cs : List Char) : List Char :=
  (behindDigits cs).take 1 |>.filter fun c => c = 'u' || c = 'U'

/-- The value of a run of digits, the first of which counts most. -/
def runValue (radix : Nat) (digits : List Char) : Nat :=
  Nat.ofDigits radix (digits.reverse.map Text.hexValue)

/-- A run of digits added up in 64 bits, which wrap around, and cut off at 32. -/
def wrappingValue (radix : Nat) (digits : List Char) : UInt32 :=
  (digits.foldl (fun v c => v * UInt64.ofNat radix + UInt64.ofNat (Text.hexValue c)) 0).toUInt32

/-- That a scanned numeral is the integer literal at the front of a text. -/
structure IntegerAt (cs : List Char) (n : Numeral) : Prop where
  kind : n.kind = if suffixAt cs = [] then .intLiteral else .uintLiteral
  word : n.word.toNat = runValue (radixAt cs) (digitsAt cs) % 2 ^ 32
  wrapping : n.word = wrappingValue (radixAt cs) (digitsAt cs)
  signed : ({ word := n.word } : Token).signed
    = (runValue (radixAt cs) (digitsAt cs) : Int).bmod (2 ^ 32)
  text : cs.take n.length = leadAt cs ++ digitsAt cs ++ suffixAt cs
  length : n.length = (leadAt cs).length + (digitsAt cs).length + (suffixAt cs).length

variable {cs : List Char} {c : Char}

theorem digitsValue_concat (radix : Nat) (digits : List Char) (c : Char) :
    Text.digitsValue radix (digits ++ [c]) = Text.digitsValue radix digits * radix
      + Text.hexValue c := by
  simp [Text.digitsValue]

/-- Adding up from the left gives the value of the digits. The induction is on the last digit, which
is added last and counts least. -/
theorem digitsValue_eq (radix : Nat) (digits : List Char) :
    Text.digitsValue radix digits = runValue radix digits := by
  induction digits using List.reverseRecOn with
  | nil => rfl
  | append_singleton digits c ih =>
    rw [digitsValue_concat, ih, runValue, runValue, List.reverse_append, List.reverse_singleton,
      List.singleton_append, List.map_cons, Nat.ofDigits_cons]
    ring

/-- Wrapping around at 64 bits does not change the low 32. -/
theorem wrappingValue_eq (radix : Nat) (digits : List Char) :
    wrappingValue radix digits = UInt32.ofNat (Text.digitsValue radix digits) := by
  have hsum : digits.foldl (fun v c => v * UInt64.ofNat radix + UInt64.ofNat (Text.hexValue c)) 0
      = UInt64.ofNat (Text.digitsValue radix digits) := by
    induction digits using List.reverseRecOn with
    | nil => rfl
    | append_singleton digits c ih =>
      rw [digitsValue_concat, List.foldl_append, List.foldl_cons, List.foldl_nil, ih,
        UInt64.ofNat_add, UInt64.ofNat_mul]
  rw [wrappingValue, hsum, UInt64.toUInt32_ofNat']

theorem toInt_ofNat (n : Nat) : (UInt32.ofNat n).toInt32.toInt = (n : Int).bmod (2 ^ 32) := by
  rw [UInt32.toInt32_ofNat', Int32.toInt_ofNat']
  rfl

/-- The ranges of bytes that are digits, and their values. -/
theorem hexDigit_cases (c : Char) :
    Text.isDigit c = true ∧ Text.isHexDigit c = true ∧ Text.hexValue c < 10
      ∨ Text.isDigit c = false ∧ Text.isHexDigit c = true
        ∧ 10 ≤ Text.hexValue c ∧ Text.hexValue c < 16
        ∨ Text.isDigit c = false ∧ Text.isHexDigit c = false ∧ Text.hexValue c = 0 := by
  have hzero : '0'.toNat = 48 ∧ '9'.toNat = 57 := ⟨rfl, rfl⟩
  have hlower : 'a'.toNat = 97 ∧ 'f'.toNat = 102 := ⟨rfl, rfl⟩
  have hupper : 'A'.toNat = 65 ∧ 'F'.toNat = 70 := ⟨rfl, rfl⟩
  have hle (a b : Char) : a ≤ b ↔ a.toNat ≤ b.toNat := UInt32.le_iff_toNat_le
  simp only [Text.hexValue, Text.isHexDigit, Text.isDigit, hle, Bool.and_eq_true, decide_eq_true_eq,
    Bool.or_eq_true, Bool.and_eq_false_iff, decide_eq_false_iff_not, Bool.or_eq_false_iff]
  split_ifs <;> omega

theorem isDigitOf_sixteen : isDigitOf 16 = Text.isHexDigit := by
  funext c
  obtain h | h | h := hexDigit_cases c <;> simp [isDigitOf, h]
  omega

theorem isDigitOf_of_le_ten {radix : Nat} (h : radix ≤ 10) :
    isDigitOf radix = isRadixDigit radix := by
  funext c
  obtain hc | hc | hc := hexDigit_cases c <;> simp [isDigitOf, isRadixDigit, hc]
  omega

/-- The digits of a numeral without a point are the run behind its mark. -/
theorem numeralDigits_of_integer (h : (numeralDigits cs).isFloat = false) :
    numeralDigits cs = ⟨radixAt cs, (leadAt cs).length, digitsAt cs, false,
      behindDigits cs⟩ := by
  cases hmark : isHexMarked cs with
  | true =>
    obtain ⟨x, rest, rfl, hx⟩ := exists_of_isHexMarked hmark
    simp only [numeralDigits_of_hex hx, radixAt, leadAt, digitsAt, behindDigits, hmark, if_true,
      isDigitOf_sixteen]
    rfl
  | false =>
    have hradix : radixAt cs = if cs.head? = some '0' then 8 else 10 := by simp [radixAt, hmark]
    have hdigit : isDigitOf (radixAt cs) = isRadixDigit (radixAt cs) :=
      isDigitOf_of_le_ten (by rw [hradix]; split <;> decide)
    rw [numeralDigits_of_plain hmark, ← hradix] at h ⊢
    simp only [leadAt, digitsAt, behindDigits, hmark, Bool.false_eq_true, if_false, List.length_nil,
      List.drop_zero, hdigit]
    unfold plainDigits at h ⊢
    split at h
    · cases h
    · rfl

/-- The suffix of a floating point literal leaves it one. -/
theorem suffixed_float (n : Nat) (rest : List Char) :
    (suffixed .floatLiteral n rest).1 = .floatLiteral
      ∨ (suffixed .floatLiteral n rest).1 = .doubleLiteral := by
  unfold suffixed
  split
  · exact .inl rfl
  · split_ifs <;> simp_all

/-- Behind an integer the only suffix that leaves it one is the mark of unsigned literals. -/
theorem suffixed_integer {n : Nat} {rest : List Char}
    (h : (suffixed .intLiteral n rest).1 = .intLiteral ∨
    (suffixed .intLiteral n rest).1 = .uintLiteral) :
    let suffix := rest.take 1 |>.filter fun c => c = 'u' || c = 'U'
    suffixed .intLiteral n rest
      = (if suffix = [] then .intLiteral else .uintLiteral, n + suffix.length) := by
  unfold suffixed at h ⊢
  split
  · rfl
  · rename_i s more
    simp only at h
    split_ifs at h ⊢ with hfloat hdouble hunsigned <;> simp_all

/-- An integer literal has neither a point nor a power. -/
theorem numeral_of_integer {d : NumeralDigits} {power : Option (List Char × List Char)}
    (h : (numeral d power).kind = .intLiteral ∨ (numeral d power).kind = .uintLiteral) :
    d.isFloat = false ∧ power = none := by
  rw [numeral_kind] at h
  have hfloat (n : Nat) (rest : List Char) : ¬ ((suffixed .floatLiteral n rest).1 = .intLiteral ∨
      (suffixed .floatLiteral n rest).1 = .uintLiteral) := by
    obtain h | h := suffixed_float n rest <;> simp [h]
  cases power with
  | some e => exact absurd h (hfloat _ _)
  | none =>
    cases hd : d.isFloat with
    | false => exact ⟨rfl, rfl⟩
    | true =>
      rw [numeralEnd, hd] at h
      exact absurd h (hfloat _ _)

/-- The mark, the digits and the suffix stand one behind the other. -/
theorem parts_isPrefix (cs : List Char) : leadAt cs ++ digitsAt cs ++ suffixAt cs <+: cs := by
  have hlead : leadAt cs <+: cs := by
    unfold leadAt
    split
    · exact List.take_prefix 2 cs
    · exact List.nil_prefix
  have hsuffix : suffixAt cs <+: behindDigits cs := by
    unfold suffixAt
    cases behindDigits cs with
    | nil => exact List.nil_prefix
    | cons c rest =>
      cases hc : (c = 'u' || c = 'U' : Bool) <;> simp [hc]
  obtain ⟨rest, hrest⟩ := hlead
  obtain ⟨tail, htail⟩ := hsuffix
  have hdrop : cs.drop (leadAt cs).length = rest :=
    calc cs.drop (leadAt cs).length
        = (leadAt cs ++ rest).drop (leadAt cs).length := by rw [hrest]
      _ = rest := List.drop_left
  refine ⟨tail, ?_⟩
  calc leadAt cs ++ digitsAt cs ++ suffixAt cs ++ tail
      = leadAt cs ++ (digitsAt cs ++ behindDigits cs) := by
        rw [← htail]; simp only [List.append_assoc]
    _ = cs := by rw [digitsAt, behindDigits, List.takeWhile_append_dropWhile, hdrop, hrest]

/-- At every place of a text at which the scanner finds an integer literal, its digits are the
longest run of its radix, its word has their value modulo 2³², and it covers the mark, the digits
and the suffix. -/
theorem scanNumeral_integer (cs : List Char)
    (h : (scanNumeral cs).kind = .intLiteral ∨ (scanNumeral cs).kind = .uintLiteral) :
    IntegerAt cs (scanNumeral cs) := by
  rw [scanNumeral_eq] at h
  obtain ⟨hfloat, hpower⟩ := numeral_of_integer h
  have hdigits := numeralDigits_of_integer hfloat
  have hscan : scanNumeral cs = numeral (numeralDigits cs) none := by rw [scanNumeral_eq, hpower]
  rw [hpower, numeral_kind] at h
  have hend : numeralEnd (numeralDigits cs) none
      = (if suffixAt cs = [] then .intLiteral else .uintLiteral,
      (leadAt cs).length + (digitsAt cs).length + (suffixAt cs).length) := by
    rw [hdigits] at h ⊢
    exact suffixed_integer h
  have hkind : (scanNumeral cs).kind = if suffixAt cs = [] then .intLiteral else .uintLiteral := by
    rw [hscan, numeral_kind, hend]
  have hlength : (scanNumeral cs).length = (leadAt cs).length + (digitsAt cs).length
      + (suffixAt cs).length := by
    rw [hscan, numeral_length, hend]
  have hinteger : ¬ ((numeralEnd (numeralDigits cs) none).1 = .floatLiteral ∨
      (numeralEnd (numeralDigits cs) none).1 = .doubleLiteral) := by
    obtain h | h := h <;> simp [h]
  have hword :
      (scanNumeral cs).word = UInt32.ofNat (Text.digitsValue (radixAt cs) (digitsAt cs)) := by
    rw [hscan, numeral, if_neg (by simpa using hinteger), hdigits]
  refine ⟨hkind, ?_, ?_, ?_, ?_, hlength⟩
  · rw [hword, digitsValue_eq, UInt32.toNat_ofNat']
  · rw [hword, wrappingValue_eq]
  · rw [Token.signed, hword, digitsValue_eq, toInt_ofNat]
  · have htext := List.prefix_iff_eq_take.mp (parts_isPrefix cs)
    rw [List.length_append, List.length_append, ← hlength] at htext
    exact htext.symm

/-- More digits than fit 64 bits, with the mark of hexadecimal ones and that of
unsigned literals. -/
theorem scanNumeral_integer_long :
    let cs := "0x123456789ABCDEF01u;".toList
    (scanNumeral cs).kind = .uintLiteral ∧ (scanNumeral cs).length = 20
      ∧ (scanNumeral cs).word = 0xABCDEF01 ∧ IntegerAt cs (scanNumeral cs) := by
  intro cs
  have hkind : (scanNumeral cs).kind = .uintLiteral := by decide
  exact ⟨hkind, by decide, by decide, scanNumeral_integer cs (.inr hkind)⟩

/-- A token that is an integer literal is the one at the front of its text: it covers the literal
and has its word. -/
theorem readToken_integer (o : Options) (c : Cursor) (first : Char)
    (h : (readToken o c first).kind = .intLiteral ∨ (readToken o c first).kind = .uintLiteral) :
    IntegerAt c.rest (scanNumeral c.rest)
      ∧ (readToken o c first).word = (scanNumeral c.rest).word ∧
      (readToken o c first).raw.toList = leadAt c.rest ++ digitsAt c.rest ++ suffixAt c.rest := by
  have hkeyword : ∀ w ∈ keywords, ¬ (w.2 = .intLiteral ∨ w.2 = .uintLiteral) := by decide
  have hoperator :
      ∀ s ∈ Kind.operatorSpellings, ¬ (s.2 = .intLiteral ∨ s.2 = .uintLiteral) := by decide
  unfold readToken at h ⊢
  split at h
  · rename_i hdigit
    have hinteger := scanNumeral_integer c.rest h
    rw [if_pos hdigit]
    exact ⟨hinteger, rfl, by rw [← hinteger.text]; exact String.toList_ofList⟩
  · split at h
    · simp only [Cursor.token] at h
      split at h
      · simp at h
      · unfold wordKind at h
        split at h
        · rename_i kind hlookup
          obtain ⟨front, back, heq, -⟩ := List.lookup_eq_some_iff.mp hlookup
          exact absurd h (hkeyword _ (heq ▸ List.mem_append_right _ List.mem_cons_self))
        · split at h <;> simp at h
    · split at h
      · simp [Cursor.token] at h
      · split at h
        · rename_i kind hkind
          obtain ⟨s, hs, rfl⟩ := Option.map_eq_some_iff.mp hkind
          exact absurd h (hoperator _ (List.mem_of_find?_eq_some hs))
        · simp [Cursor.token] at h

end ShaderEffect.Token

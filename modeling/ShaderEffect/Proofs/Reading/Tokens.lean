import Mathlib
import ShaderEffect.Token.Lexer

namespace ShaderEffect.Token

/-- The number of tokens that can still come up, at most: the next one, unless it is the end, and
one for every character behind it. -/
def remaining (next : Token) (cursor : Cursor) : Nat :=
  cursor.rest.length + if next.kind = .eof then 0 else 1

theorem remaining_le (next : Token) (cursor : Cursor) :
    remaining next cursor ≤ cursor.rest.length + 1 := by
  unfold remaining
  split <;> omega

theorem Cursor.token_length (c : Cursor) (kind : Kind) (n : Nat) :
    (c.token kind n).length = min n c.rest.length := by
  simp [Cursor.token, Token.length]

theorem numeralDigits_pos {c : Char} {cs : List Char} (h : Text.isDigit c ∨ c = '.') :
    0 < (numeralDigits (c :: cs)).lead + (numeralDigits (c :: cs)).digits.length := by
  have hvalue (hc : Text.isDigit c = true) : Text.hexValue c < 10 := by
    rw [Text.hexValue, if_pos hc]
    simp only [Text.isDigit, Bool.and_eq_true, decide_eq_true_eq] at hc
    have hle : c.toNat ≤ '9'.toNat := UInt32.le_iff_toNat_le.mp hc.2
    have hnine : '9'.toNat = '0'.toNat + 9 := rfl
    omega
  have hzero : Text.isDigit '0' = true ∧ Text.hexValue '0' < 8 := by decide
  have hdot : Text.isDigit '.' = false := by decide
  unfold numeralDigits
  split
  · split
    · exact Nat.lt_add_right _ Nat.two_pos
    · simp_all only [List.takeWhile_cons]
      split <;> simp
  · simp_all only [List.takeWhile_cons]
    split <;> simp
  · obtain h | rfl := h
    · simp only [List.takeWhile_cons, h, hvalue h]
      split <;> simp
    · simp [hdot]

theorem scanNumeral_pos {c : Char} {cs : List Char} (h : Text.isDigit c ∨ c = '.') :
    0 < (scanNumeral (c :: cs)).length := by
  have : 0 < (numeralDigits (c :: cs)).lead + (numeralDigits (c :: cs)).digits.length :=
    numeralDigits_pos h
  unfold scanNumeral
  grind

theorem word_pos {c : Cursor} {first : Char} {rest : List Char} (hc : c.rest = first :: rest)
    (h : Text.isWordStart first) : 0 < c.word.length := by
  have hpart : Text.isWordPart first = true := by rw [Text.isWordPart, h, Bool.true_or]
  simp [Cursor.word, hc, hpart]

theorem operator_length_pos {cs : List Char} {kind : Kind} (h : Kind.operatorAt? cs = some kind) :
    0 < kind.name.length := by
  have hall : ∀ k ∈ Kind.operators, 0 < k.name.length := by decide
  obtain ⟨p, hp, rfl⟩ := Option.map_eq_some_iff.mp h
  obtain ⟨k, hk, rfl⟩ := List.mem_map.mp (List.mem_of_find?_eq_some hp)
  exact hall k hk

theorem readToken_length_pos (o : Options) {c : Cursor} {first : Char} {rest : List Char}
    (hc : c.rest = first :: rest) : 0 < (readToken o c first).length := by
  have hrest : 0 < c.rest.length := by rw [hc]; exact Nat.succ_pos _
  -- The length of a token is that of its text, whatever its kind is.
  have htoken {n : Nat} (hn : 0 < n) : 0 < (c.token .unknown n).length := by
    rw [Cursor.token_length]
    exact Nat.lt_min.mpr ⟨hn, hrest⟩
  unfold readToken
  split
  · rename_i h
    simp only [Bool.or_eq_true, Bool.and_eq_true, decide_eq_true_eq] at h
    refine htoken ?_
    rw [hc]
    exact scanNumeral_pos (h.imp_right And.left)
  · split
    · exact htoken (word_pos hc ‹_›)
    · split
      · exact htoken (Nat.succ_pos _)
      · split
        · exact htoken (operator_length_pos ‹_›)
        · exact htoken Nat.one_pos

/-- A token and what is behind it are less than the text it was read from, unless that
was at its end. -/
theorem remaining_lexFrom_le (o : Options) (lineStart : Bool) (c : Cursor) :
    remaining (lexFrom o lineStart c).1 (lexFrom o lineStart c).2 ≤ c.rest.length := by
  fun_induction lexFrom o lineStart c with
  | case1 c lineStart h => simp [remaining, Cursor.token, h]
  | case12 lineStart c first rest h =>
    have htoken := readToken_length_pos o h
    grind [Cursor.advance_length, remaining_le]
  | _ =>
    grind [Cursor.advance_length, Cursor.advanceLine_length, Cursor.skipBlanks_length_le,
      Cursor.skipLine_length_le, Directive.next, readDirective_length_le,
      Cursor.skipComment_length_le, Cursor.continuation_le, remaining_le]

end ShaderEffect.Token

import ShaderEffect.Preprocessor.Expansion
import ShaderEffect.Proofs.Preprocessing.Lexing

/-!
String literals that the preprocessor writes.

A literal with a backslash in front of some characters is read as the text that it quotes exactly
where no quote, backslash or newline of the text is left without one. File names have it in front of
their backslashes, arguments in front of their quotes, so that each of the two has its own texts
that are not read back.
-/
namespace ShaderEffect

namespace Token

variable {p : Char → Bool} {body value s : List Char} {o : Options}

/-- A text with a backslash in front of the marked characters. -/
def escaped (p : Char → Bool) (s : List Char) : List Char :=
  s.flatMap fun c => if p c then ['\\', c] else [c]

/-- The string literal with a body. -/
def quoted (body : List Char) : List Char :=
  '"' :: (body ++ ['"'])

/-- Whether a text is read as a single string literal with a value, wherever it stands. -/
def IsLiteral (o : Options) (literal value : List Char) : Prop :=
  ∀ (more : List Char) (offset : Nat) (location : Location),
    let c : Cursor := ⟨literal ++ more, offset, location⟩
    lex o c = ({ c.token .stringLiteral literal.length with text := String.ofList value },
      c.advance literal.length)

/-- What starts with a quote is scanned as a string. -/
theorem lex_quote {c : Cursor} {rest : List Char} (hc : c.rest = '"' :: rest) :
    lex o c =
      let n := (scanString o.escapeStrings rest).2 + 1
      ({ c.token .stringLiteral n with text := String.ofList (scanString o.escapeStrings rest).1 },
        c.advance (c.token .stringLiteral n).length) := by
  have hcontinuation : c.continuation = 0 := by simp [Cursor.continuation, hc]
  have hread : readToken o c '"' =
      { c.token .stringLiteral ((scanString o.escapeStrings rest).2 + 1) with
        text := String.ofList (scanString o.escapeStrings rest).1 } := by
    simp [readToken, hc, Text.isDigit, Text.isWordStart]
  rw [lex, lexFrom_cons o _ hc, if_neg (not_not.mpr hcontinuation), if_neg (by decide),
    if_neg (by decide), if_neg (by simp), if_neg (by simp), if_neg (by simp), hread]
  rfl

theorem isLiteral_quoted
    (h : ∀ more, scanString o.escapeStrings (body ++ '"' :: more) = (value, body.length + 1)) :
    IsLiteral o (quoted body) value := by
  intro more offset location c
  have hrest : c.rest = '"' :: (body ++ '"' :: more) := by simp [c, quoted]
  have hlength : (quoted body).length = body.length + 1 + 1 := by simp [quoted]
  have hle : body.length + 1 + 1 ≤ c.rest.length := by simp [hrest]
  rw [lex_quote hrest, h more, hlength]
  simp only [Cursor.token_length, Nat.min_eq_left hle]

/-- A single literal is scanned up to the quote at its end and no further. -/
theorem IsLiteral.scan (h : IsLiteral o (quoted body) value) :
    scanString o.escapeStrings (body ++ ['"', ' ']) = (value, body.length + 1) := by
  let c : Cursor := ⟨quoted body ++ [' '], 0, {}⟩
  have hrest : c.rest = '"' :: (body ++ ['"', ' ']) := by simp [c, quoted]
  have hread := (lex_quote (o := o) hrest).symm.trans (h [' '] 0 {})
  obtain ⟨htoken, hcursor⟩ := Prod.mk.inj hread
  have hvalue : (scanString o.escapeStrings (body ++ ['"', ' '])).1 = value :=
    String.ofList_injective (congrArg Token.text htoken)
  have hlength : min ((scanString o.escapeStrings (body ++ ['"', ' '])).2 + 1) (body.length + 3)
      = body.length + 2 := by
    have := congrArg Cursor.offset hcursor
    simpa [Cursor.advance, Cursor.token_length, hrest, quoted, c] using this
  exact Prod.ext hvalue (by dsimp only; omega)

/-- Whether a character does not stand for itself in a literal. -/
def isSpecial (c : Char) : Bool :=
  c = '"' || c = '\\' || c = '\n'

theorem isSpecial_iff {c : Char} : isSpecial c = true ↔ c = '"' ∨ c = '\\' ∨ c = '\n' := by
  simp only [isSpecial, Bool.or_eq_true, decide_eq_true_eq, or_assoc]

theorem isSpecial_of_isHexDigit {c : Char} (h : Text.isHexDigit c = true) :
    isSpecial c = false := by
  refine Bool.eq_false_of_not_eq_true fun hspecial => ?_
  obtain rfl | rfl | rfl := isSpecial_iff.mp hspecial
  all_goals exact absurd h (by decide)

theorem length_escaped (p : Char → Bool) (s : List Char) :
    (escaped p s).length = s.length + s.countP p := by
  induction s with
  | nil => rfl
  | cons c s ih =>
    rw [escaped, List.flatMap_cons, List.length_append, ← escaped, ih, List.countP_cons,
      List.length_cons]
    split <;> simp only [List.length_cons, List.length_nil] <;> omega

/-- Of special characters the literal has those of the text and the backslashes in front. -/
theorem countP_escaped (p : Char → Bool) (s : List Char) :
    (escaped p s).countP isSpecial = s.countP isSpecial + s.countP p := by
  induction s with
  | nil => rfl
  | cons c s ih =>
    rw [escaped, List.flatMap_cons, List.countP_append, ← escaped, ih, List.countP_cons,
      List.countP_cons]
    split
    · simp only [List.countP_cons, List.countP_nil, show isSpecial '\\' = true from rfl, if_true]
      omega
    · simp only [List.countP_cons, List.countP_nil]
      omega

/-- A quote or a backslash behind a backslash stands for itself. -/
theorem decodeEscape_special {c : Char} (hc : c = '"' ∨ c = '\\') (rest : List Char) :
    decodeEscape (c :: rest) = (c, 1) := by
  obtain rfl | rfl := hc <;> rfl

/-- An escape sequence is one character and the digits behind it. -/
theorem decodeEscape_length (c : Char) (rest : List Char) :
    ∃ digits, digits <+: rest ∧ (decodeEscape (c :: rest)).2 = digits.length + 1
      ∧ ∀ d ∈ digits, Text.isHexDigit d = true := by
  have hnone :
      ∃ digits, digits <+: rest
        ∧ 1 = digits.length + 1 ∧ ∀ d ∈ digits, Text.isHexDigit d = true :=
    ⟨[], List.nil_prefix, rfl, List.forall_mem_nil _⟩
  unfold decodeEscape
  dsimp only
  split
  · rename_i hoctal
    refine ⟨(rest.take 2).takeWhile fun c => '0' ≤ c && c ≤ '7',
      (List.takeWhile_prefix _).trans (List.take_prefix 2 rest), ?_, ?_⟩
    · simp only [List.take_succ_cons, List.takeWhile_cons, hoctal, if_true, List.length_cons]
    · intro d hd
      have := List.mem_takeWhile_imp hd
      simp only [Bool.and_eq_true, decide_eq_true_eq] at this
      have hdigit : d ≤ '9' := this.2.trans (by decide)
      simp [Text.isHexDigit, Text.isDigit, this.1, hdigit]
  · split
    all_goals first | exact hnone | skip
    split
    · exact hnone
    · exact ⟨rest.takeWhile Text.isHexDigit, List.takeWhile_prefix _, rfl,
        fun d hd => List.mem_takeWhile_imp hd⟩

theorem scanString_quote (escape : Bool) (more : List Char) :
    scanString escape ('"' :: more) = ([], 1) := by
  rw [scanString.eq_def]
  rfl

theorem scanString_newline (escape : Bool) (more : List Char) :
    scanString escape ('\n' :: more) = ([], 0) := by
  rw [scanString.eq_def]
  rfl

theorem scanString_joined (escape : Bool) (more : List Char) :
    scanString escape ('\\' :: '\n' :: more)
      = ((scanString escape more).1, (scanString escape more).2 + 2) := by
  rw [scanString.eq_def]
  rfl

theorem scanString_escape {more : List Char} (h : more.head? ≠ some '\n') :
    scanString true ('\\' :: more) =
      let d := decodeEscape more
      let rest := scanString true (more.drop d.2)
      (d.1 :: rest.1, rest.2 + d.2 + 1) := by
  rw [scanString.eq_def]
  simp [h]

theorem scanString_plain {c : Char} (escape : Bool) (hc : isSpecial c = false) (more : List Char) :
    scanString escape (c :: more)
      = (c :: (scanString escape more).1, (scanString escape more).2 + 1) := by
  simp only [isSpecial, Bool.or_eq_false_iff, decide_eq_false_iff_not] at hc
  rw [scanString.eq_def]
  simp [hc]

theorem scanString_unescaped {c : Char} (hc : c ≠ '"' ∧ c ≠ '\n') {more : List Char}
    (hmore : more.head? ≠ some '\n') :
    scanString false (c :: more)
      = (c :: (scanString false more).1, (scanString false more).2 + 1) := by
  rw [scanString.eq_def]
  simp [hc, hmore]

/-- A text is read back where all its special characters are marked. -/
theorem scanString_escaped (hp : ∀ c, p c = true → c = '"' ∨ c = '\\')
    (hs : ∀ c ∈ s, isSpecial c = true → p c = true) (more : List Char) :
    scanString true (escaped p s ++ '"' :: more) = (s, (escaped p s).length + 1) := by
  induction s with
  | nil => exact scanString_quote true more
  | cons c s ih =>
    have hrest := ih fun d hd => hs d (List.mem_cons_of_mem _ hd)
    rw [escaped, List.flatMap_cons, List.append_assoc, ← escaped]
    by_cases hmark : p c = true
    · have hnewline : c ≠ '\n' := by rintro rfl; exact absurd (hp _ hmark) (by decide)
      rw [if_pos hmark, List.cons_append, List.singleton_append,
        scanString_escape (by simpa using hnewline), decodeEscape_special (hp c hmark)]
      simp [hrest]
    · have hplain : isSpecial c = false :=
        Bool.eq_false_of_not_eq_true fun h => hmark (hs c List.mem_cons_self h)
      rw [if_neg hmark, List.singleton_append, scanString_plain true hplain, hrest]
      rfl

/-- The digits of an escape do not reach the quote behind a body. -/
theorem digits_prefix_body {digits : List Char} (hhex : ∀ x ∈ digits, Text.isHexDigit x = true)
    (h : digits <+: body ++ ['"', ' ']) : digits <+: body := by
  obtain ⟨rest, hrest⟩ := h
  obtain ⟨rest', hbody, -⟩ | ⟨rest', rfl, hquote⟩ := List.append_eq_append_iff.mp hrest
  · exact ⟨rest', hbody.symm⟩
  · rcases rest' with _ | ⟨x, rest'⟩
    · exact ⟨[], by simp⟩
    · obtain ⟨rfl, -⟩ := List.cons.inj hquote
      exact absurd (hhex '"' (by simp)) (by decide)

/-- Each character of a value has taken at least one character of the literal, and one more if
that was special. -/
theorem scanString_weight (h : scanString true (body ++ ['"', ' ']) = (value, body.length + 1)) :
    body.countP isSpecial + 2 * value.length ≤ 2 * body.length := by
  induction hn : body.length using Nat.strong_induction_on generalizing body value with
  | _ n ih =>
  subst hn
  -- what is scanned behind one or more characters of the body
  have hstep (rest : List Char) {text : List Char} (k : Nat) (hlt : rest.length < body.length)
      (htext : (scanString true (rest ++ ['"', ' '])).1 = text)
      (hlength : (scanString true (rest ++ ['"', ' '])).2 + k = body.length + 1)
      (hk : rest.length + k = body.length) :
      rest.countP isSpecial + 2 * text.length ≤ 2 * rest.length :=
    ih rest.length hlt (Prod.ext htext (by dsimp only; omega)) rfl
  rcases body with _ | ⟨c, body⟩
  · rw [List.nil_append, scanString_quote] at h
    cases h
    rfl
  by_cases hplain : isSpecial c = false
  · rw [List.cons_append, scanString_plain true hplain] at h
    obtain ⟨rfl, hlength⟩ := Prod.mk.inj h
    have := hstep body 1 (Nat.lt_succ_self _) rfl hlength rfl
    rw [List.countP_cons_of_neg (by simp [hplain]), List.length_cons, List.length_cons]
    omega
  obtain rfl | rfl | rfl : c = '"' ∨ c = '\\' ∨ c = '\n' :=
    isSpecial_iff.mp (Bool.eq_true_of_not_eq_false hplain)
  · rw [List.cons_append, scanString_quote] at h
    simp at h
  · rcases body with _ | ⟨d, body⟩
    · -- the backslash takes the quote at the end
      have hend : scanString true (['\\'] ++ ['"', ' ']) = (['"', ' '], 3) := by
        rw [List.singleton_append, scanString_escape (by decide)]
        simp only [decodeEscape_special, List.drop_one, List.tail_cons, true_or]
        rw [scanString_plain true rfl, scanString.eq_def]
      cases hend.symm.trans h
    by_cases hjoined : d = '\n'
    · subst hjoined
      rw [List.cons_append, List.cons_append, scanString_joined] at h
      obtain ⟨rfl, hlength⟩ := Prod.mk.inj h
      have := hstep body 2 (by simp) rfl hlength rfl
      rw [List.countP_cons_of_pos rfl, List.countP_cons_of_pos rfl, List.length_cons,
        List.length_cons]
      omega
    · obtain ⟨digits, hprefix, hk, hhex⟩ := decodeEscape_length d (body ++ ['"', ' '])
      obtain ⟨rest, rfl⟩ := digits_prefix_body hhex hprefix
      rw [List.cons_append, List.cons_append, scanString_escape (by simpa using hjoined)] at h
      have hrest : (d :: (digits ++ rest ++ ['"', ' '])).drop (digits.length + 1)
          = rest ++ ['"', ' '] := by simp
      dsimp only at h
      rw [hk, hrest] at h
      obtain ⟨rfl, hlength⟩ := Prod.mk.inj h
      have hweight :=
        hstep rest (digits.length + 2) (by simp only [List.length_cons, List.length_append]; omega)
          rfl (by omega) (by simp only [List.length_cons, List.length_append]; omega)
      have hdigits : digits.countP isSpecial = 0 := List.countP_eq_zero.mpr fun x hx =>
        ne_true_of_eq_false (isSpecial_of_isHexDigit (hhex x hx))
      rw [List.countP_cons_of_pos rfl, List.countP_cons, List.countP_append, hdigits]
      simp only [List.length_cons, List.length_append]
      split <;> omega
  · rw [List.cons_append, scanString_newline] at h
    simp at h

/-- A literal is read as the text that it quotes exactly where each special character has a
backslash in front. -/
theorem isLiteral_escaped_iff (ho : o.escapeStrings = true)
    (hp : ∀ c, p c = true → c = '"' ∨ c = '\\') :
    IsLiteral o (quoted (escaped p s)) s ↔ ∀ c ∈ s, isSpecial c = true → p c = true := by
  constructor
  · intro h
    have hscan := h.scan
    rw [ho] at hscan
    have hweight := scanString_weight hscan
    rw [countP_escaped, length_escaped] at hweight
    have hmarked : (s.filter p).countP isSpecial = s.countP p := by
      refine (List.countP_eq_length.mpr fun c hc => ?_).trans List.countP_eq_length_filter.symm
      exact isSpecial_iff.mpr ((hp c (List.mem_filter.mp hc).2).imp_right .inl)
    have hsplit := List.countP_eq_countP_filter_add s isSpecial p
    have hnone : (s.filter fun c => !p c).countP isSpecial = 0 := by omega
    intro c hc hspecial
    by_contra hmark
    exact List.countP_eq_zero.mp hnone c
      (List.mem_filter.mpr ⟨hc, by simpa using hmark⟩) hspecial
  · intro h
    refine isLiteral_quoted fun more => ?_
    rw [ho]
    exact scanString_escaped hp h more

/-- Where escapes are not decoded, a body without quotes and newlines is its own value. -/
theorem isLiteral_unescaped (ho : o.escapeStrings = false)
    (hbody : ∀ c ∈ body, c ≠ '"' ∧ c ≠ '\n') :
    IsLiteral o (quoted body) body := by
  refine isLiteral_quoted fun more => ?_
  rw [ho]
  induction body with
  | nil => exact scanString_quote false more
  | cons c body ih =>
    have hbody' : ∀ d ∈ body, d ≠ '"' ∧ d ≠ '\n' :=
      fun d hd => hbody d (List.mem_cons_of_mem _ hd)
    have hhead : (body ++ '"' :: more).head? ≠ some '\n' := by
      rcases body with _ | ⟨d, body⟩
      · simp
      · simpa using (hbody' d List.mem_cons_self).2
    rw [List.cons_append, scanString_unescaped (hbody c List.mem_cons_self) hhead, ih hbody']
    rfl

end Token

namespace Preprocessor

open Token

variable {s : String}

theorem toList_join_escaped {q : Char} {r : String} (hr : r.toList = ['\\', q]) (s : String) :
    (String.join (s.toList.map fun c => if c = q then r else String.singleton c)).toList =
      escaped (fun c => c = q) s.toList := by
  rw [String.toList_join, List.flatMap_map, escaped]
  congr 1
  funext c
  by_cases hc : c = q
  · simp [hc, hr]
  · simp [hc]

theorem toList_quoteName (s : String) :
    (quoteName s).toList = quoted (escaped (fun c => c = '\\') s.toList) := by
  rw [quoteName, String.toList_append, String.toList_append, toList_join_escaped rfl]
  rfl

theorem toList_quoteArgument (s : String) :
    (quoteArgument s).toList = quoted (escaped (fun c => c = '"') s.toList) := by
  rw [quoteArgument, String.toList_append, String.toList_append, toList_join_escaped rfl]
  rfl

/-- The parser reads the literal for a file name as that name exactly where the name has no quote
and no newline: the quotes of a name are not escaped. -/
theorem isLiteral_quoteName_iff :
    IsLiteral .forParser (quoteName s).toList s.toList
      ↔ ∀ c ∈ s.toList, c ≠ '"' ∧ c ≠ '\n' := by
  rw [toList_quoteName, isLiteral_escaped_iff rfl fun c hc => .inr (of_decide_eq_true hc)]
  refine forall₂_congr fun c _ => ?_
  rw [isSpecial_iff, decide_eq_true_eq]
  grind

/-- The parser reads the literal for an argument as that argument exactly where the argument has no
backslash and no newline: the backslashes of an argument are not escaped. -/
theorem isLiteral_quoteArgument_iff :
    IsLiteral .forParser (quoteArgument s).toList s.toList
      ↔ ∀ c ∈ s.toList, c ≠ '\\' ∧ c ≠ '\n' := by
  rw [toList_quoteArgument, isLiteral_escaped_iff rfl fun c hc => .inl (of_decide_eq_true hc)]
  refine forall₂_congr fun c _ => ?_
  rw [isSpecial_iff, decide_eq_true_eq]
  grind

/-- The text of a macro is read again, without escapes. There a literal for a text without quotes
and newlines is one token. -/
theorem isLiteral_escaped_lexOptions (p : Char → Bool)
    (hs : ∀ c ∈ s.toList, c ≠ '"' ∧ c ≠ '\n') :
    IsLiteral lexOptions (quoted (escaped p s.toList)) (escaped p s.toList) := by
  refine isLiteral_unescaped rfl fun c hc => ?_
  obtain ⟨d, hd, hmem⟩ := List.mem_flatMap.mp hc
  obtain rfl | rfl : c = '\\' ∨ c = d := by
    split at hmem
    · simpa using hmem
    · exact .inr (by simpa using hmem)
  · decide
  · exact hs c hd

theorem isLiteral_quoteName_lexOptions (hs : ∀ c ∈ s.toList, c ≠ '"' ∧ c ≠ '\n') :
    IsLiteral lexOptions (quoteName s).toList (escaped (fun c => c = '\\') s.toList) :=
  toList_quoteName s ▸ isLiteral_escaped_lexOptions _ hs

theorem isLiteral_quoteArgument_lexOptions (hs : ∀ c ∈ s.toList, c ≠ '"' ∧ c ≠ '\n') :
    IsLiteral lexOptions (quoteArgument s).toList (escaped (fun c => c = '"') s.toList) :=
  toList_quoteArgument s ▸ isLiteral_escaped_lexOptions _ hs

end Preprocessor
end ShaderEffect

import ShaderEffect.Proofs.Preprocessing.Locality

namespace ShaderEffect.Preprocessor

open Token (Cursor)

/-- The tokens of a text in front of the newline at its end, that newline and the
place behind it. -/
def tokens : Nat → Cursor → Option (List Token × Token × Cursor)
  | 0, _ => none
  | n + 1, c =>
    let r := Token.lex lexOptions c
    if r.2.rest = [] then if r.1.kind = .endOfLine then some ([], r) else none
    else (tokens n r.2).map fun s => (r.1 :: s.1, s.2)

/-- Whether a text has no newlines, strings, comments or continuation. -/
structure IsPlain (s : List Char) : Prop where
  newline : '\n' ∉ s
  quote : '"' ∉ s
  lineComment : ¬['/', '/'] <:+: s
  blockComment : ¬['/', '*'] <:+: s
  backslash : ¬['\\'] <:+ s
  backslashReturn : ¬['\\', '\r'] <:+ s

instance (s : List Char) : Decidable (IsPlain s) :=
  decidable_of_iff ('\n' ∉ s ∧ '"' ∉ s ∧ ¬['/', '/'] <:+: s
    ∧ ¬['/', '*'] <:+: s ∧ ¬['\\'] <:+ s ∧ ¬['\\', '\r'] <:+ s)
    ⟨fun h => ⟨h.1, h.2.1, h.2.2.1, h.2.2.2.1, h.2.2.2.2.1, h.2.2.2.2.2⟩,
      fun h => ⟨h.1, h.2, h.3, h.4, h.5, h.6⟩⟩

/-- A line without the blanks in front. -/
def dedent (s : List Char) : List Char :=
  s.dropWhile Text.isBlank

/-- A line without the blanks at its end. -/
def chop (s : List Char) : List Char :=
  s.rdropWhile Text.isBlank

/-- Whether a line is text: neither a directive nor anything that reaches over the line. -/
structure IsText (line : List Char) : Prop where
  plain : IsPlain line
  noDirective : (dedent line).head? ≠ some '#'

instance (line : List Char) : Decidable (IsText line) :=
  decidable_of_iff (IsPlain line ∧ (dedent line).head? ≠ some '#')
    ⟨fun h => ⟨h.1, h.2⟩, fun h => ⟨h.1, h.2⟩⟩

namespace IsPlain

variable {s s' : List Char}

theorem of_suffix (h : IsPlain s) (hs' : s' <:+ s) : IsPlain s' where
  newline hmem := h.newline (hs'.subset hmem)
  quote hmem := h.quote (hs'.subset hmem)
  lineComment hpart := h.lineComment (hpart.trans hs'.isInfix)
  blockComment hpart := h.blockComment (hpart.trans hs'.isInfix)
  backslash hsuffix := h.backslash (hsuffix.trans hs')
  backslashReturn hsuffix := h.backslashReturn (hsuffix.trans hs')

end IsPlain

variable {s : List Char} {c : Cursor}

theorem continuation_of_plain (h : IsPlain s) (hc : c.rest = s ++ ['\n']) : c.continuation = 0 := by
  unfold Cursor.continuation
  rw [hc]
  split
  · rename_i rest heq
    obtain _ | ⟨a, _ | ⟨b, s⟩⟩ := s
    · cases heq
    · obtain ⟨rfl, -⟩ := List.cons.inj heq
      exact absurd (List.suffix_refl _) h.backslash
    · simp only [List.cons_append, List.cons.injEq] at heq
      exact absurd (heq.2.1 ▸ List.mem_cons_of_mem _ List.mem_cons_self) h.newline
  · rename_i rest heq
    obtain _ | ⟨a, _ | ⟨b, _ | ⟨d, s⟩⟩⟩ := s
    · cases heq
    · simp at heq
    · simp only [List.cons_append, List.cons.injEq] at heq
      obtain ⟨rfl, rfl, -⟩ := heq
      exact absurd (List.suffix_refl _) h.backslashReturn
    · simp only [List.cons_append, List.cons.injEq] at heq
      exact absurd (heq.2.2.1
        ▸ List.mem_cons_of_mem _ (List.mem_cons_of_mem _ List.mem_cons_self)) h.newline
  · rfl

theorem isPlain_of_blank (hs : ∀ x ∈ s, Text.isBlank x = true) : IsPlain s := by
  have hne {x : Char} (hx : Text.isBlank x = false) : x ∉ s := fun hmem => by
    rw [hs x hmem] at hx
    cases hx
  have hslash : '/' ∉ s := hne (by decide)
  have hbackslash : '\\' ∉ s := hne (by decide)
  refine ⟨hne (by decide), hne (by decide), fun h => ?_, fun h => ?_, fun h => ?_, fun h => ?_⟩
  · exact hslash (h.subset List.mem_cons_self)
  · exact hslash (h.subset List.mem_cons_self)
  · exact hbackslash (h.subset List.mem_cons_self)
  · exact hbackslash (h.subset List.mem_cons_self)

theorem advance_advance (c : Cursor) (m n : Nat) : (c.advance m).advance n = c.advance (m + n) := by
  simp only [Cursor.advance, List.drop_drop, Location.right, Cursor.mk.injEq,
    Location.mk.injEq, true_and]
  exact ⟨Nat.add_assoc _ _ _, by push_cast; omega⟩

theorem advance_zero (c : Cursor) : c.advance 0 = c := by
  simp [Cursor.advance, Location.right]

theorem takeWhile_newline {p : Char → Bool} (hp : p '\n' = false) :
    (s ++ ['\n']).takeWhile p = s.takeWhile p
      ∧ (s ++ ['\n']).dropWhile p = s.dropWhile p ++ ['\n'] := by
  induction s with
  | nil => simp [hp]
  | cons x s ih => by_cases hx : p x <;> simp [hx, ih]

/-- Blanks are moved over up to the end of the line. -/
theorem skipBlanks_eq (hc : c.rest = s ++ ['\n']) :
    c.skipBlanks = c.advance (s.takeWhile Text.isBlank).length
      ∧ c.skipBlanks.rest = dedent s ++ ['\n'] := by
  have hblank := takeWhile_newline (s := s) (p := Text.isBlank) (by decide)
  refine ⟨?_, ?_⟩
  · rw [Cursor.skipBlanks, Cursor.skipWhile, hc, hblank.1]
  · show c.rest.drop _ = _
    rw [Token.drop_length_takeWhile, hc, hblank.2]
    rfl

theorem lexFrom_newline (lineStart : Bool) (hc : c.rest = ['\n']) :
    Token.lexFrom lexOptions lineStart c = (c.token .endOfLine 1, c.advanceLine 1) := by
  have hcont : c.continuation = 0 :=
    continuation_of_plain (isPlain_of_blank (List.forall_mem_nil _)) hc
  rw [Token.lexFrom_cons _ _ hc, if_neg (not_not.mpr hcont), if_neg (by decide), if_pos rfl]
  rfl

theorem lexFrom_blank (lineStart : Bool) (hs : ∀ x ∈ s, Text.isBlank x = true)
    (hc : c.rest = s ++ ['\n']) :
    Token.lexFrom lexOptions lineStart c =
      ((c.advance s.length).token .endOfLine 1, (c.advance s.length).advanceLine 1) := by
  have hcont := continuation_of_plain (isPlain_of_blank hs) hc
  cases s with
  | nil =>
    rw [List.length_nil, advance_zero]
    exact lexFrom_newline lineStart hc
  | cons x s =>
    have hall : s.takeWhile Text.isBlank = s :=
      List.takeWhile_eq_self_iff.mpr fun y hy => hs y (List.mem_cons_of_mem _ hy)
    have hrest : (c.advance 1).rest = s ++ ['\n'] := by rw [Cursor.advance, hc]; rfl
    obtain ⟨hskip, hnewline⟩ := skipBlanks_eq hrest
    rw [hall, advance_advance, Nat.add_comm] at hskip
    rw [dedent, List.dropWhile_eq_nil_iff.mpr fun y hy =>
      hs y (List.mem_cons_of_mem _ hy)] at hnewline
    rw [Token.lexFrom_cons _ _ hc, if_neg (not_not.mpr hcont), if_pos (hs x List.mem_cons_self)]
    simp only [Token.lexBlanks, hnewline, List.nil_append, List.head?_cons, decide_true,
      Bool.or_true, if_true]
    rw [lexFrom_newline lineStart hnewline, hskip]
    rfl

/-- Blanks at the start of a line are dropped. -/
theorem lexFrom_dedent (hs : IsPlain s) (hc : c.rest = s ++ ['\n']) :
    Token.lexFrom lexOptions true c
      = Token.lexFrom lexOptions true (c.advance (s.takeWhile Text.isBlank).length) := by
  have hcont := continuation_of_plain hs hc
  cases s with
  | nil => rw [List.takeWhile_nil, List.length_nil, advance_zero]
  | cons x s =>
    by_cases hx : Text.isBlank x = true
    · have hrest : (c.advance 1).rest = s ++ ['\n'] := by rw [Cursor.advance, hc]; rfl
      obtain ⟨hskip, -⟩ := skipBlanks_eq hrest
      rw [Token.lexFrom_cons _ _ hc, if_neg (not_not.mpr hcont), if_pos hx]
      simp only [Token.lexBlanks, Bool.or_true, Bool.true_or, if_true]
      rw [hskip, advance_advance, List.takeWhile_cons_of_pos hx, List.length_cons, Nat.add_comm]
    · rw [List.takeWhile_cons_of_neg hx, List.length_nil, advance_zero]

/-- Blanks between words are a token. -/
theorem lexFrom_space {x : Char} (hs : IsPlain (x :: s)) (hc : c.rest = x :: s ++ ['\n'])
    (hx : Text.isBlank x = true) (hword : ∃ y ∈ s, Text.isBlank y = false) :
    Token.lexFrom lexOptions false c = (c.token .space (1 + (s.takeWhile Text.isBlank).length),
      c.advance (1 + (s.takeWhile Text.isBlank).length)) := by
  have hcont := continuation_of_plain hs hc
  have hrest : (c.advance 1).rest = s ++ ['\n'] := by rw [Cursor.advance, hc]; rfl
  obtain ⟨hskip, hnext⟩ := skipBlanks_eq hrest
  rw [advance_advance] at hskip
  -- The blanks end at a word, not at the end of the line.
  have hhead : (dedent s ++ ['\n']).head? ≠ some '\n' := by
    obtain ⟨y, hy, hblank⟩ := hword
    have hne : dedent s ≠ [] := by
      intro hnil
      have := List.dropWhile_eq_nil_iff.mp hnil y hy
      rw [hblank] at this
      cases this
    rw [List.head?_append_of_ne_nil _ hne]
    intro heq
    have hmem : '\n' ∈ s := (List.dropWhile_suffix _).subset (List.mem_of_head? heq)
    exact hs.newline (List.mem_cons_of_mem _ hmem)
  rw [Token.lexFrom_cons _ _ hc, if_neg (not_not.mpr hcont), if_pos hx]
  simp only [Token.lexBlanks, hnext, hhead, decide_false, Bool.or_false]
  rw [show lexOptions.ignoreWhitespace = false from rfl, if_neg Bool.false_ne_true, hskip]
  simp only [Cursor.advance, Nat.add_sub_cancel_left]

/-- Any other byte starts a token. -/
theorem lexFrom_word (lineStart : Bool) {x : Char} (hs : IsPlain (x :: s))
    (hc : c.rest = x :: s ++ ['\n'])
    (hx : Text.isBlank x = false) (hhash : lineStart = true → x ≠ '#') :
    Token.lexFrom lexOptions lineStart c =
      (Token.readToken lexOptions c x, c.advance (Token.readToken lexOptions c x).length) := by
  have hcont := continuation_of_plain hs hc
  have hnewline : x ≠ '\n' := fun heq => hs.newline (heq ▸ List.mem_cons_self)
  have hcomment {y : Char} (hy : y ≠ '\n') (hpart : ¬['/', y] <:+: x :: s) :
      ¬(decide (x = '/') && decide ((s ++ ['\n']).head? = some y)) = true := by
    simp only [Bool.and_eq_true, decide_eq_true_eq]
    rintro ⟨rfl, hhead⟩
    cases s with
    | nil => exact hy (Option.some.inj hhead).symm
    | cons z s =>
      obtain rfl : z = y := Option.some.inj hhead
      exact hpart (List.prefix_append ['/', z] s).isInfix
  have hc' : c.rest = x :: (s ++ ['\n']) := hc
  rw [Token.lexFrom_cons _ _ hc', if_neg (not_not.mpr hcont), if_neg (Bool.eq_false_iff.mp hx),
    if_neg hnewline, if_neg, if_neg (hcomment (by decide) hs.lineComment),
    if_neg (hcomment (by decide) hs.blockComment)]
  simp only [Bool.and_eq_true, decide_eq_true_eq]
  exact fun h => hhash h.2 h.1

/-- The bytes in front of the next white space. -/
def firstWord (s : List Char) : List Char :=
  s.takeWhile fun x => !Token.isSeparator x

/-- A text is its first word, white space and what is behind that. -/
theorem exists_firstWord (s : List Char) :
    ∃ y more, s ++ ['\n'] = (firstWord s ++ [y]) ++ more ∧ Token.isSeparator y = true := by
  obtain ⟨htake, hdrop⟩ :=
    takeWhile_newline (s := s) (p := fun x => !Token.isSeparator x) (by decide)
  obtain ⟨y, more, hy⟩ : ∃ y more, (s ++ ['\n']).dropWhile (fun x => !Token.isSeparator x)
      = y :: more := by
    rw [hdrop]
    exact List.exists_cons_of_ne_nil (List.append_ne_nil_of_right_ne_nil _ (List.cons_ne_nil _ _))
  refine ⟨y, more, ?_, ?_⟩
  · rw [← List.takeWhile_append_dropWhile (p := fun x => !Token.isSeparator x)
      (l := s ++ ['\n']), htake, hy, firstWord, List.append_assoc, List.singleton_append]
  · have := List.head?_dropWhile_not (fun x => !Token.isSeparator x) (s ++ ['\n'])
    rw [hy] at this
    simpa using this

theorem isSeparator_eq_false_of_mem_firstWord {y : Char} (hy : y ∈ firstWord s) :
    Token.isSeparator y = false := by
  simpa using List.mem_takeWhile_imp hy

theorem isWordPart_of_isSeparator (x : Char) (h : Token.isSeparator x = true) :
    Text.isWordPart x = false := by
  simp only [Token.isSeparator, Text.isBlank, Bool.or_eq_true, decide_eq_true_eq] at h
  obtain rfl | ((((rfl | rfl) | rfl) | rfl) | rfl) := h <;> decide

/-- No operator has white space in it. -/
theorem isSeparator_of_mem_operator {spelling : List Char × Token.Kind}
    (hs : spelling ∈ Token.Kind.operatorSpellings)
    {x : Char} (hx : x ∈ spelling.1) : Token.isSeparator x = false := by
  have hplain :
      ∀ x, Token.isSeparator x = true → ∀ s ∈ Token.Kind.operatorSpellings, x ∉ s.1 := by
    intro x h
    simp only [Token.isSeparator, Text.isBlank, Bool.or_eq_true, decide_eq_true_eq] at h
    obtain rfl | ((((rfl | rfl) | rfl) | rfl) | rfl) := h <;> decide
  exact Bool.eq_false_of_not_eq_true fun h => hplain x h spelling hs hx

theorem operator_length_le {y : Char} {word more : List Char} {kind : Token.Kind}
    (hy : Token.isSeparator y = true)
    (h : Token.Kind.operatorAt? ((word ++ [y]) ++ more) = some kind) :
    kind.name.length ≤ word.length := by
  have hends : Token.EndsIn Token.isSeparator (word ++ [y]) := ⟨y, by simp, hy⟩
  obtain ⟨s, hs, rfl⟩ := Option.map_eq_some_iff.mp h
  have hmem := List.mem_of_find?_eq_some hs
  have hplain : ∀ x ∈ s.1, Token.isSeparator x = false :=
    fun x hx => isSeparator_of_mem_operator hmem hx
  obtain ⟨kind, -, rfl⟩ := List.mem_map.mp hmem
  have hprefix := List.find?_some hs
  rw [hends.isPrefixOf_append hplain, List.isPrefixOf_iff_prefix] at hprefix
  have hle : kind.name.toList.length ≤ word.length + 1 := by simpa using hprefix.length_le
  refine Nat.le_of_lt_succ (Nat.lt_of_le_of_ne hle fun hlength => ?_)
  -- An operator that is as long as the text ends with its last byte.
  have heq := hprefix.eq_of_length (by rw [List.length_append]; exact hlength)
  have := hplain y (heq ▸ List.mem_append_right _ (List.mem_singleton_self y))
  rw [hy] at this
  cases this

/-- A token reaches over no white space. -/
theorem readToken_length_le_word {x : Char} (hs : IsPlain (x :: s)) (hc : c.rest = x :: s ++ ['\n'])
    (hx : Text.isBlank x = false) :
    (Token.readToken lexOptions c x).length ≤ (firstWord (x :: s)).length := by
  obtain ⟨y, more, hsplit, hy⟩ := exists_firstWord (x :: s)
  have hends : Token.EndsIn Token.isSeparator (firstWord (x :: s) ++ [y]) := ⟨y, by simp, hy⟩
  have hquote : x ≠ '"' := fun heq => hs.quote (heq ▸ List.mem_cons_self)
  rw [hsplit] at hc
  have htoken {n : Nat} (hn : n ≤ (firstWord (x :: s)).length) :
      (c.token .unknown n).length ≤ (firstWord (x :: s)).length :=
    (c.token_length _ n).trans_le ((Nat.min_le_left _ _).trans hn)
  unfold Token.readToken
  split
  · refine htoken ?_
    obtain ⟨heq, hlt⟩ := Token.scanNumeral_append more hends
    rw [hc, heq]
    simpa using hlt
  · split
    · refine htoken ?_
      have hword := List.length_pos_of_ne_nil (hends.dropWhile isWordPart_of_isSeparator).ne_nil
      have := Token.length_takeWhile_add_dropWhile (firstWord (x :: s) ++ [y]) Text.isWordPart
      rw [Cursor.word, hc, hends.takeWhile_append isWordPart_of_isSeparator]
      rw [List.length_append, List.length_singleton] at this
      omega
    · split
      · rename_i kind hkind
        exact htoken (operator_length_le hy (hc ▸ hkind))
      · refine htoken ?_
        have hseparator : Token.isSeparator x = false := by
          have hnewline : x ≠ '\n' := fun heq => hs.newline (heq ▸ List.mem_cons_self)
          simp [Token.isSeparator, hx, hnewline]
        simp [firstWord, hseparator]

/-- What follows a token that was read. -/
def following (n : Nat) (r : Token × Cursor) : Option (List Token × Token × Cursor) :=
  if r.2.rest = [] then if r.1.kind = .endOfLine then some ([], r) else none
  else (tokens n r.2).map fun s => (r.1 :: s.1, s.2)

theorem tokens_succ (n : Nat) (c : Cursor) :
    tokens (n + 1) c = following n (Token.lex lexOptions c) := rfl

theorem following_of_rest {n : Nat} {r : Token × Cursor} (h : r.2.rest ≠ []) :
    following n r = (tokens n r.2).map fun s => (r.1 :: s.1, s.2) :=
  if_neg h

/-- The kinds of tokens that are written as they are. -/
def writtenKinds : List Token.Kind :=
  .space :: Token.textKinds

/-- What the tokens of a plain text come to. -/
structure Spelled (text : List Char) (line : Int) (stop : Cursor)
    (r : List Token × Token × Cursor) : Prop where
  kinds : ∀ t ∈ r.1, t.kind ∈ writtenKinds
  raws : String.join (r.1.map (·.raw)) = String.ofList text
  newline : r.2.1.kind = .endOfLine
  line : r.2.1.location.line = line
  stop : r.2.2 = stop

theorem chop_of_blank (hs : ∀ x ∈ s, Text.isBlank x = true) : chop s = [] :=
  List.rdropWhile_eq_nil_iff.mpr hs

/-- Blanks at the end are behind the last word. -/
theorem chop_append {u v : List Char}
    (h : (∀ x ∈ u, Text.isBlank x = false) ∨ ∃ x ∈ v, Text.isBlank x = false) :
    chop (u ++ v) = u ++ chop v := by
  unfold chop List.rdropWhile
  rw [List.reverse_append, List.dropWhile_append]
  split
  · rename_i hempty
    have hblank : ∀ x ∈ v.reverse, Text.isBlank x = true :=
      List.dropWhile_eq_nil_iff.mp (List.isEmpty_iff.mp hempty)
    obtain hu | ⟨x, hx, hword⟩ := h
    · have hkeep : u.reverse.dropWhile Text.isBlank = u.reverse :=
        List.dropWhile_eq_self_iff.mpr fun hl =>
          Bool.eq_false_iff.mp (hu _ (List.mem_reverse.mp (List.getElem_mem hl)))
      rw [List.isEmpty_iff.mp hempty, hkeep]
      simp
    · rw [hblank x (List.mem_reverse.mpr hx)] at hword
      cases hword
  · rw [List.reverse_append, List.reverse_reverse]

theorem Spelled.cons {u v : List Char} {line : Int} {stop : Cursor}
    {r : List Token × Token × Cursor} {t : Token} (h : Spelled (chop v) line stop r)
    (hkind : t.kind ∈ writtenKinds) (hraw : t.raw = String.ofList u)
    (huv : (∀ x ∈ u, Text.isBlank x = false) ∨ ∃ x ∈ v, Text.isBlank x = false) :
    Spelled (chop (u ++ v)) line stop (t :: r.1, r.2) where
  kinds := by
    intro t' ht'
    obtain rfl | ht' := List.mem_cons.mp ht'
    · exact hkind
    · exact h.kinds t' ht'
  raws := by
    rw [chop_append huv, String.ofList_append, ← h.raws, ← hraw, List.map_cons,
      String.join_cons]
  newline := h.newline
  line := h.line
  stop := h.stop

theorem readToken_raw (o : Token.Options) (c : Cursor) (first : Char) :
    (Token.readToken o c first).raw
      = String.ofList (c.rest.take (Token.readToken o c first).length) := by
  have htoken (n : Nat) :
      (c.token .unknown n).raw = String.ofList (c.rest.take (c.token .unknown n).length) := by
    rw [c.token_length, Cursor.token, ← List.take_eq_take_min]
  unfold Token.readToken
  split
  · exact htoken _
  · split
    · exact htoken _
    · split
      · exact htoken _
      · split <;> exact htoken _

theorem isBlank_of_mem_firstWord {y : Char} (hy : y ∈ firstWord s) : Text.isBlank y = false := by
  have := isSeparator_eq_false_of_mem_firstWord hy
  simp only [Token.isSeparator, Bool.or_eq_false_iff] at this
  exact this.2

/-- A token that covers the front of a text. -/
structure Covers (t : Token) (u v : List Char) : Prop where
  nonempty : u ≠ []
  raw : t.raw = String.ofList u
  kind : t.kind ∈ writtenKinds
  words : (∀ x ∈ u, Text.isBlank x = false) ∨ ∃ x ∈ v, Text.isBlank x = false

/-- The first token of plain text is a word, or blanks in front of one. -/
theorem lexFrom_plain (hs : IsPlain s) (hc : c.rest = s ++ ['\n'])
    (hword : ∃ x ∈ s, Text.isBlank x = false) :
    ∃ t u v, s = u ++ v ∧ Token.lexFrom lexOptions false c = (t, c.advance u.length)
      ∧ Covers t u v := by
  obtain ⟨y, hy, hyword⟩ := hword
  obtain ⟨x, s', rfl⟩ := List.exists_cons_of_ne_nil (List.ne_nil_of_mem hy)
  -- Blanks are a token of their own. Anything else begins a word, and the token ends within it.
  by_cases hx : Text.isBlank x = true
  · have hmem : y ∈ s' := by
      obtain rfl | hmem := List.mem_cons.mp hy
      · rw [hx] at hyword
        cases hyword
      · exact hmem
    refine ⟨c.token .space (1 + (s'.takeWhile Text.isBlank).length),
      x :: s'.takeWhile Text.isBlank, s'.dropWhile Text.isBlank,
      ?_, ?_, List.cons_ne_nil _ _, ?_, List.mem_cons_self, .inr ?_⟩
    · rw [List.cons_append, List.takeWhile_append_dropWhile]
    · rw [lexFrom_space hs hc hx ⟨y, hmem, hyword⟩, List.length_cons, Nat.add_comm]
    · have hsplit : c.rest = (x :: s'.takeWhile Text.isBlank)
          ++ (s'.dropWhile Text.isBlank ++ ['\n']) := by
        rw [hc, List.cons_append, List.cons_append, ← List.append_assoc,
          List.takeWhile_append_dropWhile]
      rw [Token.Cursor.token, hsplit, Nat.add_comm, ← List.length_cons, List.take_left]
    · have hsplit := List.takeWhile_append_dropWhile (p := Text.isBlank) (l := s')
      rw [← hsplit] at hmem
      obtain hmem | hmem := List.mem_append.mp hmem
      · rw [List.mem_takeWhile_imp hmem] at hyword
        cases hyword
      · exact ⟨y, hmem, hyword⟩
  · have hx := Bool.eq_false_of_not_eq_true hx
    have hle := readToken_length_le_word hs hc hx
    have hlength := hle.trans Token.length_takeWhile_le
    have hfront : (x :: s').take (Token.readToken lexOptions c x).length <+:
        firstWord (x :: s') := by
      refine List.prefix_of_prefix_length_le (List.take_prefix _ _) (List.takeWhile_prefix _) ?_
      rwa [List.length_take_of_le hlength]
    refine ⟨Token.readToken lexOptions c x,
      (x :: s').take (Token.readToken lexOptions c x).length,
      (x :: s').drop (Token.readToken lexOptions c x).length,
      (List.take_append_drop _ _).symm, ?_, ?_, ?_, List.mem_cons_of_mem _ ?_, .inl ?_⟩
    · rw [lexFrom_word false hs hc hx fun h => absurd h Bool.false_ne_true,
        List.length_take_of_le hlength]
    · have hpos : 0 < (Token.readToken lexOptions c x).length :=
        Token.readToken_length_pos lexOptions hc
      exact List.ne_nil_of_length_pos (by rwa [List.length_take_of_le hlength])
    · rw [readToken_raw, hc, List.take_append_of_le_length hlength]
    · obtain hkind | ⟨-, rfl⟩ := Token.readToken_kind lexOptions rfl c x
      · exact hkind
      · exact absurd List.mem_cons_self hs.quote
    · exact fun y hy => isBlank_of_mem_firstWord (hfront.subset hy)

/-- The tokens of plain text from behind the start of the line. -/
theorem following_plain (n : Nat) (hs : IsPlain s) (hc : c.rest = s ++ ['\n'])
    (hcolumn : 1 ≤ c.location.column) (hn : s.length ≤ n) :
    ∃ r, following n (Token.lexFrom lexOptions false c) = some r ∧
      Spelled (chop s) c.location.line ((c.advance s.length).advanceLine 1) r := by
  induction hlength : s.length using Nat.strong_induction_on generalizing s c n with
  | _ length ih =>
  subst hlength
  by_cases hblank : ∀ x ∈ s, Text.isBlank x = true
  · rw [lexFrom_blank false hblank hc, chop_of_blank hblank]
    have hend : ((c.advance s.length).advanceLine 1).rest = [] := by
      simp [Cursor.advance, Cursor.advanceLine, hc]
    exact ⟨([], _), (if_pos hend).trans (if_pos rfl), List.forall_mem_nil _, rfl, rfl, rfl, rfl⟩
  · simp only [not_forall, Bool.not_eq_true, exists_prop] at hblank
    obtain ⟨t, u, v, rfl, hlex, hcovers⟩ := lexFrom_plain hs hc hblank
    have hpos := List.length_pos_of_ne_nil hcovers.nonempty
    rw [List.length_append] at hn
    obtain ⟨n, rfl⟩ := Nat.exists_eq_add_one_of_ne_zero (show n ≠ 0 by omega)
    have hrest : (c.advance u.length).rest = v ++ ['\n'] := by
      rw [Cursor.advance, hc, List.append_assoc, List.drop_left]
    have hcol : 1 < (c.advance u.length).location.column := by
      show 1 < c.location.column + (u.length : Int)
      omega
    obtain ⟨r, hr, hspelled⟩ := ih v.length (by rw [List.length_append]; omega) n
      (hs.of_suffix (List.suffix_append u v)) hrest hcol.le (by omega) rfl
    rw [advance_advance, ← List.length_append] at hspelled
    refine ⟨(t :: r.1, r.2), ?_, hspelled.cons hcovers.kind hcovers.raw hcovers.words⟩
    rw [hlex, following_of_rest (hrest
      ▸ List.append_ne_nil_of_right_ne_nil _ (List.cons_ne_nil _ _)), tokens_succ,
      Token.lex, decide_eq_false (not_le.mpr hcol), hr]
    rfl

/-- A text line is its tokens, up to the blanks at its ends. -/
theorem tokens_plain (n : Nat) (hs : IsText s) (hc : c.rest = s ++ ['\n'])
    (hcolumn : c.location.column = 1) (hn : s.length < n) :
    ∃ r, tokens n c = some r
      ∧ Spelled (chop (dedent s)) c.location.line ((c.advance s.length).advanceLine 1) r := by
  obtain ⟨n, rfl⟩ := Nat.exists_eq_add_one_of_ne_zero (Nat.ne_zero_of_lt hn)
  have hsplit : s = s.takeWhile Text.isBlank ++ dedent s := (List.takeWhile_append_dropWhile).symm
  have hlength : (s.takeWhile Text.isBlank).length + (dedent s).length = s.length :=
    Token.length_takeWhile_add_dropWhile s Text.isBlank
  have hplain : IsPlain (dedent s) := hs.plain.of_suffix (List.dropWhile_suffix _)
  have hrest : (c.advance (s.takeWhile Text.isBlank).length).rest = dedent s ++ ['\n'] := by
    rw [Cursor.advance, hc]
    nth_rewrite 2 [hsplit]
    rw [List.append_assoc, List.drop_left]
  -- The first word starts no directive, so that it is read as anywhere else on the line.
  have hstart : Token.lexFrom lexOptions true (c.advance (s.takeWhile Text.isBlank).length) =
      Token.lexFrom lexOptions false (c.advance (s.takeWhile Text.isBlank).length) := by
    cases hword : dedent s with
    | nil =>
      rw [hword] at hrest
      rw [lexFrom_newline true hrest, lexFrom_newline false hrest]
    | cons x rest =>
      rw [hword] at hrest hplain
      have hx : Text.isBlank x = false := by
        have := List.head?_dropWhile_not Text.isBlank s
        rw [show s.dropWhile Text.isBlank = x :: rest from hword] at this
        simpa using this
      have hhash : x ≠ '#' := by
        have := hs.noDirective
        rw [hword] at this
        simpa using this
      rw [lexFrom_word true hplain hrest hx fun _ => hhash,
        lexFrom_word false hplain hrest hx fun _ => hhash]
  obtain ⟨r, hr, hspelled⟩ := following_plain n hplain hrest
    (show 1 ≤ c.location.column + ((s.takeWhile Text.isBlank).length : Int) by omega) (by omega)
  rw [advance_advance, hlength] at hspelled
  refine ⟨r, ?_, hspelled⟩
  rw [tokens_succ, Token.lex, hcolumn, decide_eq_true (le_refl _),
    lexFrom_dedent hs.plain hc, hstart]
  exact hr

end ShaderEffect.Preprocessor

/-!
Sections: lines of text with conditional groups among them.

What is selected of a section is told line by line. A directive is read as if its line were all
there is, in the macros that the lines before it leave.
-/
namespace ShaderEffect.Preprocessor

variable {α : Type}

mutual

/-- Lines in which groups are nested. A line is given without the newline at its end. -/
inductive Section where
  | nil
  | text (line : List Char) (rest : Section)
  /-- A line that defines or removes a macro. -/
  | change (line : List Char) (rest : Section)
  | group (test : List Char) (body : Section) (more : Branches) (rest : Section)

/-- What follows the first branch of a group, up to the line that ends the group. -/
inductive Branches where
  | endif (line : List Char)
  | elif (test : List Char) (body : Section) (more : Branches)
  | otherwise (line : List Char) (body : Section) (last : List Char)

end

mutual

/-- The text of a section. -/
def Section.source : Section → List Char
  | .nil => []
  | .text line rest => line ++ '\n' :: rest.source
  | .change line rest => line ++ '\n' :: rest.source
  | .group test body more rest => test ++ '\n' :: (body.source ++ (more.source ++ rest.source))

/-- The text of the branches of a group. -/
def Branches.source : Branches → List Char
  | .endif line => line ++ ['\n']
  | .elif test body more => test ++ '\n' :: (body.source ++ more.source)
  | .otherwise line body last => line ++ '\n' :: (body.source ++ (last ++ ['\n']))

end

/-- What the lines before a line leave to it. -/
structure Scope where
  macros : List (String × Macro)
  /-- Where the line starts. -/
  location : Location
deriving DecidableEq

namespace Setting

variable (e : Setting)

/-- A source that is read from a place on. -/
def input (text : List Char) (serial : Nat) (c : Token.Cursor) : Input where
  name := e.source
  text := text
  cursor := (Token.lex lexOptions c).2
  next := (Token.lex lexOptions c).1
  hidden := []
  isArgument := false
  serial := serial

/-- The place where a line starts. -/
def cursor (σ : Scope) (line : List Char) : Token.Cursor :=
  { rest := line ++ ['\n'], location := σ.location }

/-- The state in which a line is all there is to read. -/
def state (σ : Scope) (line : List Char) : Preprocessor where
  files := e.files
  includePaths := e.includePaths
  macros := σ.macros
  reached := { source := e.source }
  stack := [e.input (line ++ ['\n']) 0 (cursor σ line)]
  pushed := 1

end Setting

/-- Drops blanks. -/
def skipSpaces (fuel : Nat) : PreM Unit :=
  repeatWhile (do if ← peek .space then consume *> return true else return false) fuel

/-- Where the next line starts, once a line was read up to its end and there were no errors. -/
def lineEnd? (q : Preprocessor) : Option Location :=
  q.stack.head?.bind fun b =>
    if q.success ∧ q.nextLevel = 0
      ∧ b.name ≠ "" ∧ b.next.kind = .endOfLine ∧ b.cursor.rest = [] then
      some b.cursor.location
    else none

/-- Reads a directive that is alone on its line. -/
def lineValue (fuel : Nat) (run : PreM α) : PreM α := do
  let _ ← consume
  let a ← run
  skipSpaces fuel
  return a

/-- What a directive comes to, read by the function for its kind, and what it leaves to the next
line. There is nothing if the line is no directive of such a kind, or an invalid one. -/
def Setting.directive (e : Setting) (fuel : Nat) (f : Token.Kind → Option (PreM α)) (σ : Scope)
    (line : List Char) :
    Option (α × Scope) :=
  if line.getLast? = some '\\' then none
  else
    (f (e.state σ line).nextKind).bind fun run =>
      (lineValue fuel run (e.state σ line)).toOption.bind fun r =>
        (lineEnd? r.2).map fun location => (r.1, { macros := r.2.macros, location })

/-- Whether the name on the rest of the line names a macro or does not, as `expected` says. -/
def isDefined (fuel : Nat) (expected : Bool) : PreM Bool := do
  let _ ← expect fuel .identifier
  let p ← get
  let known := (p.findMacro? p.token.text).isSome || isBuiltin p.token.text
  return known = expected

/-- The condition of a directive that opens a group. -/
def opening? (fuel : Nat) : Token.Kind → Option (PreM Bool)
  | .hashIf => some (evaluateCondition fuel)
  | .hashIfdef => some (isDefined fuel true)
  | .hashIfndef => some (isDefined fuel false)
  | _ => none

/-- What a directive does that changes macros. -/
def change? (fuel : Nat) : Token.Kind → Option (PreM Unit)
  | .hashDefine => some (parseDefine fuel)
  | .hashUndef => some (parseUndef fuel)
  | _ => none

/-- The directives of one kind. -/
def only (kind : Token.Kind) (run : PreM α) (k : Token.Kind) : Option (PreM α) :=
  if k = kind then some run else none

/-- The kinds of the directives that are obeyed wherever they stand. -/
def conditionalKinds : List Token.Kind :=
  [.hashIf, .hashIfdef, .hashIfndef, .hashElse, .hashElif, .hashEndif]

/-- Whether a token is passed over in a branch that is left out. -/
def isPassed (t : Token) : Bool :=
  !conditionalKinds.contains t.kind && (t.kind ≠ .stringLiteral || isClosed t.raw)

/-- What a line that changes macros leaves to the next one where it is left out. -/
def leftOut (σ : Scope) (line : List Char) : Option Scope :=
  if line.getLast? = some '\\' then none
  else
    (tokens (line.length + 1) (Setting.cursor σ line)).bind fun r =>
      if (r.1.head?.map (·.kind)).any [.hashDefine, .hashUndef].contains ∧ r.1.all isPassed then
        some { σ with location := r.2.2.location }
      else none

/-- Whether a name stands for another text. -/
def isReplaced (macros : List (String × Macro)) (name : String) : Bool :=
  (macros.lookup name).isSome || isBuiltin name

/-- Whether a line of text has no name of a macro in it. -/
def hasNoMacro (σ : Scope) (line : List Char) : Bool :=
  (tokens (line.length + 1) (Setting.cursor σ line)).all fun r =>
    r.1.all fun t => !(t.kind = .identifier && isReplaced σ.macros t.text)

/-- A line of text with its number, without the blanks at its ends. Lines of blanks
count for nothing. -/
def textLine (σ : Scope) (line : List Char) : List (Int × String) :=
  if chop (dedent line) = [] then [] else [(σ.location.line, String.ofList (chop (dedent line)))]

mutual

/-- The lines of text that are selected of a section, and what the section leaves to the line behind
it, unless the section is invalid. Nothing is selected where `active` is false. -/
def Section.select (e : Setting) (fuel : Nat) :
    Section → (active : Bool) → Scope → Option (List (Int × String) × Scope)
  | .nil, _, σ => some ([], σ)
  | .text line rest, active, σ =>
    if IsText line ∧ (active → hasNoMacro σ line) then
      (rest.select e fuel active { σ with location := σ.location.nextLine }).map fun r =>
        ((if active then textLine σ line else []) ++ r.1, r.2)
    else none
  | .change line rest, active, σ =>
    (if active then (e.directive fuel (change? fuel) σ line).map (·.2)
      else leftOut σ line).bind fun σ₁ =>
      rest.select e fuel active σ₁
  | .group test body more rest, active, σ =>
    (e.directive fuel (opening? fuel) σ test).bind fun r =>
      (body.select e fuel (active && r.1) r.2).bind fun first =>
        (more.select e fuel active r.1 first.2).bind fun others =>
          (rest.select e fuel active others.2).map fun s => (first.1 ++ others.1 ++ s.1, s.2)

/-- The lines that are selected of the branches behind the first one, given whether a branch before
them was `taken`. -/
def Branches.select (e : Setting) (fuel : Nat) : Branches → (active taken : Bool) → Scope →
    Option (List (Int × String) × Scope)
  | .endif line, _, _, σ =>
    (e.directive fuel (only .hashEndif (pure ())) σ line).map fun r => ([], r.2)
  | .elif test body more, active, taken, σ =>
    (e.directive fuel (only .hashElif (evaluateCondition fuel)) σ test).bind fun r =>
      (body.select e fuel (active && !taken && r.1) r.2).bind fun branch =>
        (more.select e fuel active (taken || r.1) branch.2).map fun others =>
          (branch.1 ++ others.1, others.2)
  | .otherwise line body last, active, taken, σ =>
    (e.directive fuel (only .hashElse (pure ())) σ line).bind fun r =>
      (body.select e fuel (active && !taken) r.2).bind fun branch =>
        (e.directive fuel (only .hashEndif (pure ())) branch.2 last).map fun s => (branch.1, s.2)

end

/-- The text of selected lines, given the number of the line before them. Lines that are left
out are marked. -/
def rendered : (reached : Int) → List (Int × String) → String
  | _, [] => ""
  | reached, (n, line) :: rest =>
    (if reached + 1 = n then "" else lineDirective n none) ++ line ++ "\n" ++ rendered n rest

end ShaderEffect.Preprocessor

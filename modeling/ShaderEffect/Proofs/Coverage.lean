import ShaderEffect.Proofs.Preprocessing.Lexing

/-!
How the tokens of a text lie in it.

Reading cuts a text into tokens and into what is skipped between them. `Laid` says so for a whole
run of the lexer, with the places in front of and behind each part, and what holds of all tokens of
a text is derived from it: they are in order, and every byte outside of them belongs to something
that the language lets stand between tokens.
-/
namespace ShaderEffect

namespace Location

/-- The position behind some bytes. -/
def past (l : Location) (s : List Char) : Location :=
  s.foldl (fun l c => if c = '\n' then l.nextLine else l.right 1) l

variable {l : Location} {s : List Char}

@[simp] theorem past_nil (l : Location) : l.past [] = l := rfl

theorem past_cons (l : Location) (c : Char) (s : List Char) :
    l.past (c :: s) = (if c = '\n' then l.nextLine else l.right 1).past s := rfl

theorem past_append (l : Location) (s s' : List Char) : l.past (s ++ s') = (l.past s).past s' :=
  List.foldl_append

@[simp] theorem right_zero (l : Location) : l.right 0 = l := by
  simp [right]

theorem right_right (l : Location) (m n : Nat) : (l.right m).right n = l.right (m + n) := by
  simp [right, Int.add_assoc]

/-- Bytes of one line only count. -/
theorem past_of_notMem (h : '\n' ∉ s) : l.past s = l.right s.length := by
  induction s generalizing l with
  | nil => exact l.right_zero.symm
  | cons c s ih =>
    have hc : c ≠ '\n' := fun hc => h (hc ▸ List.mem_cons_self)
    rw [past_cons, if_neg hc, ih fun hs => h (List.mem_cons_of_mem _ hs), right_right,
      Nat.add_comm 1]
    rfl

/-- A position counts the newlines in front of it and, from the last of them on, the bytes. -/
theorem past_eq (hl : l.column = 1) (s : List Char) :
    l.past s =
      { l with line := l.line + s.count '\n',
               column := 1 + (s.reverse.takeWhile (· != '\n')).length } := by
  -- From the end on: the last byte is a newline, which starts a line, or is one more of the line.
  induction s using List.reverseRecOn with
  | nil => simp [← hl]
  | append_singleton s c ih =>
    rw [past_append, ih]
    by_cases hc : c = '\n'
    · simp [past, hc, nextLine, Int.add_assoc]
    · simp [past, hc, right, Int.add_assoc]

theorem past_newline (h : '\n' ∉ s) : l.past (s ++ ['\n']) = l.nextLine := by
  rw [past_append, past_of_notMem h]
  rfl

end Location

namespace Token

variable {o : Options} {c c₁ c' : Cursor} {s s' rest blanks : List Char} {t : Token}
  {ts : List Token} {p : Char → Bool} {n : Nat}

namespace Cursor

/-- Whether the bytes `s` lie between two places. -/
structure Passes (c : Cursor) (s : List Char) (c' : Cursor) : Prop where
  rest : c.rest = s ++ c'.rest
  offset : c'.offset = c.offset + s.length

/-- Whether the bytes `s` lie between two places whose positions differ by them. -/
structure Moves (c : Cursor) (s : List Char) (c' : Cursor) : Prop extends Passes c s c' where
  location : c'.location = c.location.past s

theorem Passes.trans (h : c.Passes s c₁) (h' : c₁.Passes s' c') : c.Passes (s ++ s') c' where
  rest := by rw [h.rest, h'.rest, List.append_assoc]
  offset := by rw [h'.offset, h.offset, List.length_append, Nat.add_assoc]

theorem Moves.trans (h : c.Moves s c₁) (h' : c₁.Moves s' c') : c.Moves (s ++ s') c' where
  toPasses := h.toPasses.trans h'.toPasses
  location := by rw [h'.location, h.location, Location.past_append]

theorem passes_advance (hn : n ≤ c.rest.length) : c.Passes (c.rest.take n) (c.advance n) where
  rest := (List.take_append_drop n c.rest).symm
  offset := by rw [List.length_take_of_le hn]; rfl

theorem moves_advance (hn : n ≤ c.rest.length) (h : '\n' ∉ c.rest.take n) :
    c.Moves (c.rest.take n) (c.advance n) where
  toPasses := passes_advance hn
  location := by rw [Location.past_of_notMem h, List.length_take_of_le hn]; rfl

theorem newline_notMem_takeWhile (hp : p '\n' = false) (cs : List Char) :
    '\n' ∉ cs.takeWhile p := fun hmem => by
  rw [List.mem_takeWhile_imp hmem] at hp
  cases hp

theorem moves_skipWhile (c : Cursor) (hp : p '\n' = false) :
    c.Moves (c.rest.takeWhile p) (c.skipWhile p) := by
  have htake : c.rest.take (c.rest.takeWhile p).length = c.rest.takeWhile p :=
    (List.prefix_iff_eq_take.mp (List.takeWhile_prefix p)).symm
  have h := moves_advance (c := c) length_takeWhile_le
    (htake ▸ newline_notMem_takeWhile hp c.rest)
  rwa [htake] at h

theorem moves_skipBlanks (c : Cursor) : c.Moves (c.rest.takeWhile Text.isBlank) c.skipBlanks :=
  c.moves_skipWhile (by decide)

end Cursor

/-- Whether a text goes up to the end of its line. -/
structure EndsLine (s rest : List Char) : Prop where
  line : '\n' ∉ s
  stop : ∀ c ∈ rest.head?, c = '\n'

theorem EndsLine.append (hs : '\n' ∉ s) (h : EndsLine s' rest) : EndsLine (s ++ s') rest where
  line := List.not_mem_append hs h.line
  stop := h.stop

theorem Cursor.moves_skipLine (c : Cursor) :
    ∃ s, c.Moves s c.skipLine ∧ EndsLine s c.skipLine.rest := by
  refine ⟨_, c.moves_skipWhile (by decide), newline_notMem_takeWhile (by decide) _,
    fun x hx => ?_⟩
  have hrest : c.skipLine.rest = c.rest.dropWhile (· != '\n') := drop_length_takeWhile
  have := List.head?_dropWhile_not (· != '\n') c.rest
  rw [← hrest, Option.mem_def.mp hx] at this
  simpa using this

/-- Whether a text has no end of a comment in it. -/
def Unclosed (s : List Char) : Prop :=
  ¬ ['*', '/'] <:+: s

theorem Unclosed.cons {x : Char} (h : Unclosed s) (hx : ¬ (x = '*' ∧ s.head? = some '/')) :
    Unclosed (x :: s) := by
  intro hinfix
  obtain hprefix | hinfix := List.infix_cons_iff.mp hinfix
  · obtain ⟨hstar, tail, rfl⟩ := List.cons_prefix_cons.mp hprefix
    exact hx ⟨hstar.symm, rfl⟩
  · exact h hinfix

/-- A comment goes up to the first place at which it is closed, or to the end of the text. -/
theorem Cursor.moves_skipComment (cs : List Char) (offset : Nat) (location : Location) :
    ∃ s, Moves ⟨cs, offset, location⟩ s (skipComment cs offset location) ∧
      ((∃ body, s = body ++ ['*', '/'] ∧ Unclosed body) ∨
        Unclosed s ∧ (skipComment cs offset location).rest = []) := by
  induction cs generalizing offset location with
  | nil => exact ⟨[], ⟨⟨rfl, rfl⟩, rfl⟩, .inr ⟨by simp [Unclosed], rfl⟩⟩
  | cons x cs ih =>
    -- The first byte, when the comment goes on behind it.
    have hnext (hx : ¬ (x = '*' ∧ cs.head? = some '/')) {next : Location}
        (hlocation : next = location.past [x]) :
        ∃ s, Moves ⟨x :: cs, offset, location⟩ s (skipComment cs (offset + 1) next) ∧
          ((∃ body, s = body ++ ['*', '/'] ∧ Unclosed body) ∨
            Unclosed s ∧ (skipComment cs (offset + 1) next).rest = []) := by
      obtain ⟨s, hmoves, hclose⟩ := ih (offset + 1) next
      have hhead (hs : s.head? = some '/') : cs.head? = some '/' := by
        rw [show cs = s ++ _ from hmoves.rest, List.head?_append, hs]
        rfl
      refine ⟨[x] ++ s, .trans ⟨⟨rfl, rfl⟩, hlocation⟩ hmoves, hclose.imp ?_ ?_⟩
      · rintro ⟨body, rfl, hbody⟩
        refine ⟨x :: body, rfl, hbody.cons fun ⟨hstar, hslash⟩ => hx ⟨hstar, hhead ?_⟩⟩
        rw [List.head?_append, hslash]
        rfl
      · rintro ⟨hs, hend⟩
        exact ⟨hs.cons fun ⟨hstar, hslash⟩ => hx ⟨hstar, hhead hslash⟩, hend⟩
    rw [skipComment]
    split
    · rename_i hx
      exact hnext (fun h => absurd (hx.symm.trans h.1) (by decide)) (by rw [hx]; rfl)
    · rename_i hx
      split
      · rename_i hclose
        simp only [Bool.and_eq_true, decide_eq_true_eq] at hclose
        obtain ⟨rfl, hslash⟩ := hclose
        obtain ⟨rest, rfl⟩ := List.head?_eq_some_iff.mp hslash
        have hlocation : location.right 2 = location.past ['*', '/'] :=
          (Location.past_of_notMem (s := ['*', '/']) (by decide)).symm
        exact ⟨['*', '/'], ⟨⟨rfl, rfl⟩, hlocation⟩,
          .inl ⟨[], rfl, by simp [Unclosed]⟩⟩
      · rename_i hopen
        refine hnext ?_ (by rw [Location.past_cons, if_neg hx]; rfl)
        simpa using hopen

/-- A numeral is on one line. -/
theorem newline_notMem_numeral (cs : List Char) : '\n' ∉ cs.take (scanNumeral cs).length := by
  by_cases hmem : '\n' ∈ cs
  · obtain ⟨line, more, rfl, hline⟩ := List.eq_append_cons_of_mem hmem
    -- The numeral ends in front of the first newline, whatever follows that.
    have hwhole : EndsIn isSeparator (line ++ ['\n']) := ⟨'\n', by simp, rfl⟩
    obtain ⟨hscan, hlength⟩ := scanNumeral_append more hwhole
    rw [List.append_assoc, List.singleton_append] at hscan
    rw [List.length_append, List.length_singleton, ← hscan] at hlength
    rw [List.take_append_of_le_length (Nat.lt_succ_iff.mp hlength)]
    exact fun h => hline (List.mem_of_mem_take h)
  · exact fun h => hmem (List.mem_of_mem_take h)

theorem newline_notMem_numeralAt? (cs : List Char) :
    '\n' ∉ cs.take (((numeralAt? cs).map (·.length)).getD 0) := by
  unfold numeralAt?
  split
  · split
    · exact newline_notMem_numeral _
    · exact List.not_mem_nil
  · exact List.not_mem_nil

/-- Whether a text is white space on one line. -/
def IsBlank (s : List Char) : Prop :=
  ∀ x ∈ s, Text.isBlank x = true

theorem isBlank_takeWhile (cs : List Char) :
    IsBlank (cs.takeWhile Text.isBlank) := fun _ => List.mem_takeWhile_imp

theorem IsBlank.newline_notMem (h : IsBlank s) :
    '\n' ∉ s := fun hmem => absurd (h _ hmem) (by decide)

theorem newline_notMem_word (c : Cursor) : '\n' ∉ c.word :=
  Cursor.newline_notMem_takeWhile (by decide) _

theorem Cursor.moves_word (c : Cursor) : c.Moves c.word (c.advance c.word.length) :=
  c.moves_skipWhile (p := Text.isWordPart) (by decide)

/-- Whether a text is a `#line` directive: its name and what follows that on its line. -/
def IsLineDirective (s rest : List Char) : Prop :=
  ∃ blanks tail, s = '#' :: (blanks ++ ("line".toList ++ tail)) ∧ IsBlank blanks ∧
    (∀ x ∈ tail.head?, Text.isWordPart x = false) ∧ EndsLine tail rest

/-- Whether a token is the name of a directive whose `#` is at a place, with blanks
between the two. -/
structure Names (c : Cursor) (blanks : List Char) (t : Token) (c' : Cursor) : Prop where
  kind : t.kind ∈ directiveKinds
  blank : IsBlank blanks
  offset : t.offset = c.offset + 1 + blanks.length
  location : t.location = c.location
  line : '\n' ∉ t.raw.toList
  moves : c.Moves ('#' :: (blanks ++ t.raw.toList)) c'

theorem ne_eof_of_mem_directiveKinds {k : Kind} (h : k ∈ directiveKinds) :
    k ≠ .eof ∧ k ≠ .stringLiteral := by
  revert k
  decide

/-- What stands between the name of a `#line` directive and the place at which it was read. -/
theorem lineDirective_passes (c : Cursor) : ∃ s, c.Passes s (lineDirective c) ∧ '\n' ∉ s := by
  have hlocated {next : Cursor} (line : Int) (source : Option String) :
      next.Passes [] (located next line source) :=
    ⟨rfl, rfl⟩
  rw [lineDirective_eq]
  refine ⟨_,
    ((c.moves_skipBlanks.toPasses.trans (Cursor.passes_advance (numeralAt?_length_le _))).trans
    (Cursor.moves_skipBlanks _).toPasses).trans (hlocated _ _), ?_⟩
  refine List.not_mem_append (List.not_mem_append (List.not_mem_append ?_ ?_) ?_) List.not_mem_nil
  · exact (isBlank_takeWhile _).newline_notMem
  · exact newline_notMem_numeralAt? _
  · exact (isBlank_takeWhile _).newline_notMem

/-- What stands between the `#` of a directive and the place behind it. -/
def Directive.Stands (hash : Cursor) : Directive → Prop
  | .report t next => ∃ blanks, Names hash blanks t next
  | .line next => ∃ blanks tail, hash.Passes ('#' :: (blanks ++ ("line".toList ++ tail))) next
    ∧ IsBlank blanks ∧
      (∀ x ∈ (tail ++ next.rest).head?, Text.isWordPart x = false) ∧ '\n' ∉ tail

theorem readDirective_stands {hash behind : Cursor} (hhash : hash.Moves ['#'] behind) :
    (readDirective hash behind).Stands hash := by
  have hblanks := behind.moves_skipBlanks
  have hoffset :
      behind.skipBlanks.offset = hash.offset + 1 + (behind.rest.takeWhile Text.isBlank).length := by
    rw [hblanks.offset, hhash.offset]
    rfl
  have hname : hash.Moves ('#' :: (behind.rest.takeWhile Text.isBlank ++ behind.skipBlanks.word))
      (behind.skipBlanks.advance behind.skipBlanks.word.length) :=
    (hhash.trans hblanks).trans behind.skipBlanks.moves_word
  -- Whatever its kind is, the token covers the word.
  have hnames {t : Token} (hkind : t.kind ∈ directiveKinds)
      (hlocation : t.location = hash.location)
      (ht : t.offset = behind.skipBlanks.offset) (hraw : t.raw.toList = behind.skipBlanks.word) :
      Names hash (behind.rest.takeWhile Text.isBlank) t
        (behind.skipBlanks.advance behind.skipBlanks.word.length) :=
    ⟨hkind, isBlank_takeWhile _, ht.trans hoffset, hlocation, hraw ▸ newline_notMem_word _,
      hraw.symm ▸ hname⟩
  have hword (kind : Kind) :
      (behind.skipBlanks.token kind behind.skipBlanks.word.length).raw.toList =
      behind.skipBlanks.word := by
    rw [Cursor.token, String.toList_ofList]
    exact (List.prefix_iff_eq_take.mp (List.takeWhile_prefix _)).symm
  unfold readDirective
  simp only
  split
  · split
    · rename_i kind hlookup
      obtain ⟨front, back, heq, -⟩ := List.lookup_eq_some_iff.mp hlookup
      have hmem : (_, kind) ∈ directives := heq ▸ List.mem_append_right _ List.mem_cons_self
      exact ⟨_, hnames (List.mem_cons_of_mem _ (List.mem_map_of_mem hmem)) rfl rfl
        (hword .hashUnknown)⟩
    · split
      · rename_i hline
        obtain ⟨tail, hpasses, htail⟩ :=
          lineDirective_passes (behind.skipBlanks.advance behind.skipBlanks.word.length)
        have hword' : behind.skipBlanks.word = "line".toList := by
          rw [← hline, String.toList_ofList]
        refine ⟨_, tail, ?_, isBlank_takeWhile behind.rest, ?_, htail⟩
        · simpa only [hword', List.append_assoc, List.cons_append] using
            hname.toPasses.trans hpasses
        · -- The word is all there is of it.
          rw [← hpasses.rest]
          show ∀ x
            ∈ (behind.skipBlanks.rest.drop (behind.skipBlanks.rest.takeWhile _).length).head?, _
          rw [drop_length_takeWhile]
          intro x hx
          have := List.head?_dropWhile_not Text.isWordPart behind.skipBlanks.rest
          rw [Option.mem_def.mp hx] at this
          simpa using this
      · exact ⟨_, hnames List.mem_cons_self rfl rfl (hword .hashUnknown)⟩
  · refine ⟨_, List.mem_cons_self, isBlank_takeWhile behind.rest, hoffset, rfl, ?_, ?_⟩
    · simp [Cursor.token]
    · simpa [Cursor.token] using hhash.trans hblanks

theorem decodeEscape_length_le (cs : List Char) : (decodeEscape cs).2 ≤ cs.length := by
  have hoctal (p : Char → Bool) : ((cs.take 3).takeWhile p).length ≤ cs.length :=
    length_takeWhile_le.trans (List.length_take_le' _ _)
  unfold decodeEscape
  simp only
  split
  · exact Nat.le_refl _
  · rename_i c rest
    have hone : 1 ≤ (c :: rest).length := Nat.succ_le_succ (Nat.zero_le _)
    split
    · exact hoctal _
    · split
      case h_8 =>
        split
        · exact hone
        · exact Nat.succ_le_succ length_takeWhile_le
      all_goals exact hone

/-- No string reaches over the end of its text. -/
theorem scanString_length_le (escape : Bool) (cs : List Char) :
    (scanString escape cs).2 ≤ cs.length := by
  fun_induction scanString escape cs with
  | case1 => exact Nat.le_refl _
  | case2 => exact Nat.zero_le _
  | case3 => exact Nat.succ_le_succ (Nat.zero_le _)
  | case4 c rest hnewline hquote hjoined text n hscan ih =>
    obtain ⟨rest, rfl⟩ :=
      List.head?_eq_some_iff.mp (of_decide_eq_true (Bool.and_eq_true_iff.mp hjoined).2)
    rw [hscan] at ih
    exact Nat.add_le_add_right ih 2
  | case5 c rest hnewline hquote hjoined hescape decoded k hdecode text n hscan ih =>
    have hk := decodeEscape_length_le rest
    rw [hscan, List.length_drop] at ih
    rw [hdecode] at hk
    simp only [List.length_cons] at ih hk ⊢
    omega
  | case6 c rest hnewline hquote hjoined hescape text n hscan ih =>
    rw [hscan] at ih
    exact Nat.succ_le_succ ih

/-- Whether a token is the text between two places. Only strings can go over several lines. -/
structure Covers (c : Cursor) (t : Token) (c' : Cursor) : Prop where
  kind : t.kind ≠ .eof
  notDirective : t.kind ∉ directiveKinds
  raw : t.raw ≠ ""
  offset : t.offset = c.offset
  location : t.location = c.location
  passes : c.Passes t.raw.toList c'
  past : (t.kind = .stringLiteral → '\n' ∉ t.raw.toList) →
    c'.location = c.location.past t.raw.toList

theorem token_raw (c : Cursor) (kind : Kind) (n : Nat) :
    (c.token kind n).raw.toList = c.rest.take n := by
  rw [Cursor.token, String.toList_ofList]

/-- The token that starts with a byte covers the text in front. -/
theorem readToken_raw (o : Options) (c : Cursor) (first : Char) :
    (readToken o c first).raw.toList = c.rest.take (readToken o c first).length := by
  have htoken (n : Nat) :
      (c.token .unknown n).raw.toList = c.rest.take (c.token .unknown n).length := by
    rw [token_raw, c.token_length, List.take_eq_take_min]
  unfold readToken
  split
  · exact htoken _
  · split
    · exact htoken _
    · split
      · exact htoken _
      · split <;> exact htoken _

/-- No token but a string has a newline in it. -/
theorem readToken_line (o : Options) {first : Char} (hc : c.rest = first :: rest)
    (hfirst : first ≠ '\n') :
    (readToken o c first).kind = .stringLiteral ∨ '\n' ∉ (readToken o c first).raw.toList := by
  have hspelling : ∀ s ∈ Kind.operatorSpellings, '\n' ∉ s.1 := by decide
  unfold readToken
  -- Numerals, words, strings, operators and, last, single bytes that start none of these.
  split
  · refine .inr ?_
    simp only [token_raw]
    exact newline_notMem_numeral _
  · split
    · refine .inr ?_
      simp only [token_raw]
      rw [show c.rest.take c.word.length = c.word from
        (List.prefix_iff_eq_take.mp (List.takeWhile_prefix _)).symm]
      exact newline_notMem_word c
    · split
      · exact .inl rfl
      · split
        · rename_i kind hkind
          obtain ⟨s, hs, rfl⟩ := Option.map_eq_some_iff.mp hkind
          have hprefix := List.find?_some hs
          have hmem := List.mem_of_find?_eq_some hs
          obtain ⟨kind, -, rfl⟩ := List.mem_map.mp hmem
          have htake : c.rest.take kind.name.length = kind.name.toList :=
            (List.prefix_iff_eq_take.mp (List.isPrefixOf_iff_prefix.mp hprefix)).symm
          refine .inr ?_
          rw [token_raw, htake]
          exact hspelling _ hmem
        · refine .inr ?_
          rw [token_raw, hc]
          exact fun h => hfirst (List.mem_singleton.mp h).symm

theorem readToken_covers (o : Options) {first : Char} (hc : c.rest = first :: rest)
    (hfirst : first ≠ '\n') :
    Covers c (readToken o c first) (c.advance (readToken o c first).length) := by
  have hlength := readToken_length_le o c first
  have hpos := readToken_length_pos o hc
  have hraw := readToken_raw o c first
  obtain ⟨hkind, -, hdirective⟩ := readToken_kind_not o c first
  refine ⟨hkind, hdirective, ?_, readToken_offset o c first, ?_, ?_, ?_⟩
  · intro hempty
    rw [length, hempty] at hpos
    exact absurd hpos (Nat.lt_irrefl 0)
  · unfold readToken
    split
    · rfl
    · split
      · rfl
      · split
        · rfl
        · split <;> rfl
  · rw [hraw]
    exact Cursor.passes_advance hlength
  · intro hstring
    have hline : '\n' ∉ (readToken o c first).raw.toList :=
      (readToken_line o hc hfirst).elim hstring id
    rw [hraw] at hline ⊢
    exact (Cursor.moves_advance hlength hline).location

/-- What is skipped between tokens, in front of the rest of the text. -/
inductive Skipped (o : Options) : List Char → List Char → Prop
  | blanks {s rest : List Char} : IsBlank s → Skipped o s rest
  | newline {rest : List Char} : o.ignoreWhitespace = true → Skipped o ['\n'] rest
  | continuation {rest : List Char} : Skipped o ['\\', '\n'] rest
  | returnContinuation {rest : List Char} : Skipped o ['\\', '\r', '\n'] rest
  | lineComment {s rest : List Char} : EndsLine s rest → Skipped o ('/' :: '/' :: s) rest
  | blockComment {s rest : List Char} : Unclosed s →
      Skipped o ('/' :: '*' :: (s ++ ['*', '/'])) rest
  /-- A comment that is not closed goes up to the end of the text. -/
  | openComment {s : List Char} : Unclosed s → Skipped o ('/' :: '*' :: s) []
  | directive {s rest : List Char} : o.ignoreDirectives = true →
      EndsLine s rest → Skipped o ('#' :: s) rest

/-- How a text is read from a place on: what is skipped and the tokens, up to and including the
end of the file. -/
inductive Laid (o : Options) : Cursor → List Token → Prop
  | eof {c : Cursor} : c.rest = [] → Laid o c [c.token .eof 0]
  | skipped {c c' : Cursor} {s : List Char} {ts : List Token} :
    c.Moves s c' → Skipped o s c'.rest → Laid o c' ts → Laid o c ts
  /-- A `#line` directive sets the location. -/
  | line {c c' : Cursor} {s : List Char} {ts : List Token} :
    c.Passes s c' → IsLineDirective s c'.rest → Laid o c' ts → Laid o c ts
  | token {c c' : Cursor} {t : Token} {ts : List Token} : Covers c t c' →
      Laid o c' ts → Laid o c (t :: ts)
  | directive {c c' : Cursor} {blanks : List Char} {t : Token} {ts : List Token} :
    o.ignoreDirectives = false → Names c blanks t c' → Laid o c' ts → Laid o c (t :: ts)

/-- Whether a token and the place behind it are what is read next. -/
def Leads (o : Options) (c : Cursor) (r : Token × Cursor) : Prop :=
  ∀ ts, (r.1.kind ≠ .eof → Laid o r.2 ts) →
    Laid o c (r.1 :: if r.1.kind = .eof then [] else ts)

namespace Leads

variable {r : Token × Cursor}

theorem skipped (hmoves : c.Moves s c') (hs : Skipped o s c'.rest) (h : Leads o c' r) :
    Leads o c r :=
  fun ts hts => .skipped hmoves hs (h ts hts)

theorem line (hpasses : c.Passes s c') (hs : IsLineDirective s c'.rest) (h : Leads o c' r) :
    Leads o c r :=
  fun ts hts => .line hpasses hs (h ts hts)

theorem token (h : Covers c t c') : Leads o c (t, c') := fun ts hts => by
  rw [if_neg h.kind]
  exact .token h (hts h.kind)

theorem directive (ho : o.ignoreDirectives = false) (h : Names c blanks t c') :
    Leads o c (t, c') := fun ts hts => by
  have hkind := (ne_eof_of_mem_directiveKinds h.kind).1
  rw [if_neg hkind]
  exact .directive ho h (hts hkind)

/-- White space that is reported. -/
theorem blank {kind : Kind} (hkind : kind ≠ .eof ∧ kind ∉ directiveKinds)
    (hmoves : c.Moves s c') (hs : s ≠ []) :
    Leads o c (c.token kind s.length, c') := by
  have hraw : (c.token kind s.length).raw.toList = s := by
    rw [token_raw, hmoves.rest, List.take_left]
  refine .token ⟨hkind.1, hkind.2, ?_, rfl, rfl, ?_, ?_⟩
  · intro hempty
    rw [hempty] at hraw
    exact hs hraw.symm
  · exact hraw.symm ▸ hmoves.toPasses
  · exact fun _ => hraw.symm ▸ hmoves.location

end Leads

theorem Cursor.moves_continuation (o : Options) (h : c.continuation ≠ 0) :
    ∃ s, c.Moves s (c.advanceLine c.continuation)
      ∧ Skipped o s (c.advanceLine c.continuation).rest := by
  obtain ⟨rest, hc, hn⟩
      | ⟨rest, hc, hn⟩ : (∃ rest, c.rest = '\\' :: '\n' :: rest ∧ c.continuation = 2) ∨
      ∃ rest, c.rest = '\\' :: '\r' :: '\n' :: rest ∧ c.continuation = 3 := by
    unfold continuation at h ⊢
    split <;> simp_all
  · refine ⟨['\\', '\n'], ⟨⟨?_, ?_⟩, ?_⟩, .continuation⟩
    · rw [hn, advanceLine, hc]
      rfl
    · rw [hn]
      rfl
    · exact (Location.past_newline (s := ['\\']) (by decide)).symm
  · refine ⟨['\\', '\r', '\n'], ⟨⟨?_, ?_⟩, ?_⟩, .returnContinuation⟩
    · rw [hn, advanceLine, hc]
      rfl
    · rw [hn]
      rfl
    · exact (Location.past_newline (s := ['\\', '\r']) (by decide)).symm

/-- Over the byte in front. -/
theorem Cursor.moves_one {first : Char} (hc : c.rest = first :: rest) (hfirst : first ≠ '\n') :
    c.Moves [first] (c.advance 1) := by
  have h := Cursor.moves_advance (c := c) (n := 1)
    (by rw [hc]; exact Nat.succ_le_succ (Nat.zero_le _))
    (by rw [hc]; exact fun hmem => hfirst (List.mem_singleton.mp hmem).symm)
  rwa [hc] at h

theorem Cursor.moves_newline (hc : c.rest = '\n' :: rest) : c.Moves ['\n'] (c.advanceLine 1) where
  rest := by rw [advanceLine, hc]; rfl
  offset := rfl
  location := rfl

theorem Cursor.moves_lineComment (o : Options) (hc : c.rest = '/' :: '/' :: rest) :
    ∃ s, c.Moves s (c.advance 1).skipLine ∧ Skipped o s (c.advance 1).skipLine.rest := by
  obtain ⟨s, hmoves, hends⟩ := (c.advance 1).moves_skipLine
  have hbehind : '/' :: rest = s ++ (c.advance 1).skipLine.rest := by
    rw [← hmoves.rest, Cursor.advance, hc]
    rfl
  -- The line goes on with the second slash.
  obtain _ | ⟨x, s⟩ := s
  · exact absurd (hends.stop '/' (by rw [← List.nil_append (Cursor.rest _), ← hbehind]; rfl))
      (by decide)
  · obtain rfl : '/' = x := (List.cons.inj hbehind).1
    refine ⟨_, (Cursor.moves_one hc (by decide)).trans hmoves,
      .lineComment ⟨?_, hends.stop⟩⟩
    exact fun hmem => hends.line (List.mem_cons_of_mem _ hmem)

theorem Cursor.moves_blockComment (o : Options) (hc : c.rest = '/' :: '*' :: rest) :
    ∃ s, c.Moves s (skipComment (c.advance 2).rest (c.advance 2).offset (c.advance 2).location)
      ∧ Skipped o s
        (skipComment (c.advance 2).rest (c.advance 2).offset (c.advance 2).location).rest := by
  have hopen : c.Moves ['/', '*'] (c.advance 2) := by
    have h := Cursor.moves_advance (c := c) (n := 2) (by simp [hc]) (by simp [hc])
    rwa [hc] at h
  obtain ⟨s, hmoves, ⟨body, rfl, hbody⟩ | ⟨hs, hend⟩⟩ :=
    Cursor.moves_skipComment (c.advance 2).rest (c.advance 2).offset (c.advance 2).location
  · exact ⟨_, hopen.trans hmoves, .blockComment hbody⟩
  · refine ⟨_, hopen.trans hmoves, ?_⟩
    rw [hend]
    exact .openComment hs

/-- A directive that was read stands between its `#` and the place behind it. -/
theorem stands_of_hash {first : Char} {lineStart : Bool} {d : Directive}
    (hc : c.rest = first :: rest) (hfirst : first ≠ '\n')
    (hhash : (first = '#' && lineStart) = true) (hd : readDirective c (c.advance 1) = d) :
    d.Stands c := by
  obtain ⟨rfl, -⟩ : first = '#' ∧ _ := by simpa using hhash
  exact hd ▸ readDirective_stands (Cursor.moves_one hc hfirst)

/-- A `#line` directive goes up to the end of its line. -/
theorem Directive.Stands.passes_line {next : Cursor} (h : (Directive.line next).Stands c) :
    ∃ s, c.Passes s next.skipLine ∧ IsLineDirective s next.skipLine.rest := by
  obtain ⟨blanks, tail, hpasses, hblanks, hstop, htail⟩ := h
  obtain ⟨s, hmoves, hends⟩ := next.moves_skipLine
  refine ⟨_, hpasses.trans hmoves.toPasses, blanks, tail ++ s, ?_, hblanks,
    fun x hx => hstop x ?_, hends.append htail⟩
  · simp only [List.cons_append, List.append_assoc]
  · rw [hmoves.rest, ← List.append_assoc, List.head?_append, Option.mem_def.mp hx]
    rfl

/-- A directive that is ignored is skipped up to the end of its line. -/
theorem Directive.Stands.moves_ignored {next : Cursor} (h : (Directive.report t next).Stands c)
    (hignore : o.ignoreDirectives = true) :
    ∃ s, c.Moves s next.skipLine ∧ Skipped o s next.skipLine.rest := by
  obtain ⟨blanks, hnames⟩ := h
  obtain ⟨s, hmoves, hends⟩ := next.moves_skipLine
  refine ⟨_, hnames.moves.trans hmoves, .directive hignore (hends.append ?_)⟩
  exact List.not_mem_append hnames.blank.newline_notMem hnames.line

/-- One call of the lexer leads to a token and the place behind it. -/
theorem lexFrom_leads (o : Options) (lineStart : Bool) (c : Cursor) :
    Leads o c (lexFrom o lineStart c) := by
  -- One case for each branch. Where something is skipped, the hypothesis reads the rest, and the
  -- run of the whole is the run of the rest with the skipped part in front. White space and
  -- newlines are skipped or reported.
  fun_induction lexFrom o lineStart c with
  | case1 lineStart c hc => exact fun ts _ => .eof hc
  | case2 lineStart c first rest hc hcont ih =>
    obtain ⟨s, hmoves, hskipped⟩ := Cursor.moves_continuation o hcont
    exact ih.skipped hmoves hskipped
  | case3 lineStart c first rest hc hcont hblank next hskip ih =>
    have hfirst : first ≠ '\n' := fun hfirst => absurd (hfirst ▸ hblank) (by decide)
    refine ih.skipped ((Cursor.moves_one hc hfirst).trans (c.advance 1).moves_skipBlanks)
      (.blanks ?_)
    exact List.forall_mem_cons.mpr ⟨hblank, isBlank_takeWhile _⟩
  | case4 lineStart c first rest hc hcont hblank next hskip =>
    have hfirst : first ≠ '\n' := fun hfirst => absurd (hfirst ▸ hblank) (by decide)
    have hmoves := (Cursor.moves_one hc hfirst).trans (c.advance 1).moves_skipBlanks
    rw [show next.offset - c.offset = _ from Nat.sub_eq_of_eq_add' hmoves.offset]
    exact .blank (by decide) hmoves (List.cons_ne_nil _ _)
  | case5 lineStart c rest hcont next hignore hc hblank ih =>
    exact ih.skipped (Cursor.moves_newline hc) (.newline hignore)
  | case6 lineStart c rest hcont next hignore hc hblank =>
    exact .blank (by decide) (Cursor.moves_newline hc) (List.cons_ne_nil _ _)
  | case7 lineStart c first rest hc hcont hblank hfirst hhash next hd ih =>
    obtain ⟨s, hpasses, hline⟩ := (stands_of_hash hc hfirst hhash hd).passes_line
    exact ih.line hpasses hline
  | case8 lineStart c first rest hc hcont hblank hfirst hhash token next hd hignore ih =>
    obtain ⟨s, hmoves, hskipped⟩ := (stands_of_hash hc hfirst hhash hd).moves_ignored hignore
    exact ih.skipped hmoves hskipped
  | case9 lineStart c first rest hc hcont hblank hfirst hhash token next hd hignore =>
    obtain ⟨blanks, hnames⟩ := stands_of_hash hc hfirst hhash hd
    exact .directive (Bool.eq_false_iff.mpr hignore) hnames
  | case10 lineStart c first rest hc hcont hblank hfirst hhash hcomment ih =>
    obtain ⟨rfl, hslash⟩ : first = '/' ∧ rest.head? = some '/' := by simpa using hcomment
    obtain ⟨rest, rfl⟩ := List.head?_eq_some_iff.mp hslash
    obtain ⟨s, hmoves, hskipped⟩ := Cursor.moves_lineComment o hc
    exact ih.skipped hmoves hskipped
  | case11 lineStart c first rest hc hcont hblank hfirst hhash hline hcomment inside ih =>
    obtain ⟨rfl, hstar⟩ : first = '/' ∧ rest.head? = some '*' := by simpa using hcomment
    obtain ⟨rest, rfl⟩ := List.head?_eq_some_iff.mp hstar
    obtain ⟨s, hmoves, hskipped⟩ := Cursor.moves_blockComment o hc
    exact ih.skipped hmoves hskipped
  | case12 lineStart c first rest hc hcont hblank hfirst hhash hline hcomment token =>
    exact .token (readToken_covers o hc hfirst)

theorem rest_lex_lt (h : (lex o c).1.kind ≠ .eof) : (lex o c).2.rest.length < c.rest.length := by
  have hle := remaining_lexFrom_le o (c.location.column ≤ 1) c
  rw [← lex, remaining, if_neg h] at hle
  exact hle

/-- The tokens of a text from a place on, up to and including the end of the file. -/
def lexAll (o : Options) (c : Cursor) : List Token :=
  if (lex o c).1.kind = .eof then [(lex o c).1] else (lex o c).1 :: lexAll o (lex o c).2
termination_by c.rest.length
decreasing_by exact rest_lex_lt ‹_›

theorem laid_lexAll (o : Options) (c : Cursor) : Laid o c (lexAll o c) := by
  fun_induction lexAll o c with
  | case1 c heof =>
    have h := lexFrom_leads o (c.location.column ≤ 1) c [] fun hne => absurd heof hne
    rwa [← lex, if_pos heof] at h
  | case2 c hne ih =>
    have h := lexFrom_leads o (c.location.column ≤ 1) c (lexAll o (lex o c).2) fun _ => ih
    rwa [← lex, if_neg hne] at h

namespace Cursor

/-- The place behind the text that a place is in front of. -/
def stop (c : Cursor) : Nat :=
  c.offset + c.rest.length

theorem Passes.stop_eq (h : c.Passes s c') : c'.stop = c.stop := by
  rw [stop, stop, h.rest, h.offset, List.length_append, Nat.add_assoc]

theorem Passes.offset_le (h : c.Passes s c') : c.offset ≤ c'.offset :=
  h.offset ▸ Nat.le_add_right _ _

theorem offset_le_stop (c : Cursor) : c.offset ≤ c.stop :=
  Nat.le_add_right _ _

end Cursor

theorem length_eq (t : Token) : t.length = t.raw.toList.length :=
  String.length_toList.symm

theorem Covers.offset_eq (h : Covers c t c') : c'.offset = t.offset + t.length := by
  rw [h.passes.offset, h.offset, length_eq]

theorem Covers.length_pos (h : Covers c t c') : 0 < t.length := by
  rw [length_eq, List.length_pos_iff]
  exact fun hnil => h.raw (String.toList_eq_nil_iff.mp hnil)

theorem Names.offset_eq (h : Names c blanks t c') : c'.offset = t.offset + t.length := by
  rw [h.moves.offset, h.offset, length_eq, List.length_cons, List.length_append]
  omega

theorem Names.offset_lt (h : Names c blanks t c') : c.offset < t.offset := by
  rw [h.offset]
  omega

namespace Laid

/-- The last token is the end of the file, and no other one is. -/
theorem ended (h : Laid o c ts) : ∃ (front : List Token) (last : Token),
    ts = front ++ [last] ∧ last.kind = .eof ∧ ∀ t ∈ front, t.kind ≠ .eof := by
  induction h with
  | eof => exact ⟨[], _, rfl, rfl, by simp⟩
  | skipped _ _ _ ih => exact ih
  | line _ _ _ ih => exact ih
  | token ht _ ih =>
    obtain ⟨front, last, rfl, hlast, hfront⟩ := ih
    exact ⟨_ :: front, last, rfl, hlast, List.forall_mem_cons.mpr ⟨ht.kind, hfront⟩⟩
  | directive _ ht _ ih =>
    obtain ⟨front, last, rfl, hlast, hfront⟩ := ih
    exact ⟨_ :: front, last, rfl, hlast,
      List.forall_mem_cons.mpr ⟨(ne_eof_of_mem_directiveKinds ht.kind).1, hfront⟩⟩

/-- Every token but the last one takes a byte. -/
theorem length_le (h : Laid o c ts) : ts.length + c.offset ≤ c.stop + 1 := by
  -- All places of a run have the same end, and what is skipped only makes the bound larger.
  induction h with
  | @eof c => exact Nat.add_comm .. ▸ Nat.succ_le_succ c.offset_le_stop
  | skipped hmoves _ _ ih =>
    exact hmoves.stop_eq ▸ (Nat.add_le_add_left hmoves.offset_le _).trans ih
  | line hpasses _ _ ih =>
    exact hpasses.stop_eq ▸ (Nat.add_le_add_left hpasses.offset_le _).trans ih
  | token ht _ ih =>
    have := ht.length_pos
    rw [ht.passes.stop_eq, ht.offset_eq, ht.offset] at ih
    rw [List.length_cons]
    omega
  | directive _ ht _ ih =>
    have := ht.offset_lt
    rw [ht.moves.stop_eq, ht.offset_eq] at ih
    rw [List.length_cons]
    omega

theorem inside (h : Laid o c ts) :
    ∀ t ∈ ts, c.offset ≤ t.offset ∧ t.offset + t.length ≤ c.stop := by
  induction h with
  | @eof c hc =>
    refine List.forall_mem_singleton.mpr ⟨Nat.le_refl _, ?_⟩
    rw [c.token_length, Nat.zero_min]
    exact c.offset_le_stop
  | skipped hmoves _ _ ih =>
    exact fun t ht => ⟨hmoves.offset_le.trans (ih t ht).1, hmoves.stop_eq ▸ (ih t ht).2⟩
  | line hpasses _ _ ih =>
    exact fun t ht => ⟨hpasses.offset_le.trans (ih t ht).1, hpasses.stop_eq ▸ (ih t ht).2⟩
  | @token c c' t ts ht _ ih =>
    have hstop := ht.passes.stop_eq
    refine List.forall_mem_cons.mpr ⟨⟨ht.offset.ge, ?_⟩,
      fun u hu => ⟨ht.passes.offset_le.trans (ih u hu).1, ?_⟩⟩
    · rw [← ht.offset_eq, ← hstop]
      exact c'.offset_le_stop
    · exact hstop ▸ (ih u hu).2
  | @directive c c' blanks t ts _ ht _ ih =>
    have hstop := ht.moves.stop_eq
    refine List.forall_mem_cons.mpr ⟨⟨ht.offset_lt.le, ?_⟩,
      fun u hu => ⟨ht.moves.offset_le.trans (ih u hu).1, ?_⟩⟩
    · rw [← ht.offset_eq, ← hstop]
      exact c'.offset_le_stop
    · exact hstop ▸ (ih u hu).2

/-- Tokens are in the order of their places, without overlaps. -/
theorem ordered (h : Laid o c ts) : ts.Pairwise fun t u => t.offset + t.length ≤ u.offset := by
  induction h with
  | eof => exact List.pairwise_singleton _ _
  | skipped _ _ _ ih => exact ih
  | line _ _ _ ih => exact ih
  | token ht h ih => exact ih.cons fun u hu => ht.offset_eq ▸ (h.inside u hu).1
  | directive _ ht h ih => exact ih.cons fun u hu => ht.offset_eq ▸ (h.inside u hu).1

/-- The text of a token is the text in its place. -/
theorem raw_eq (h : Laid o c ts) :
    ∀ t ∈ ts, (c.rest.drop (t.offset - c.offset)).take t.length = t.raw.toList := by
  -- A place further on, seen from one that lies behind some bytes.
  have hbehind {c c' : Cursor} {s : List Char} {ts : List Token} (hpasses : c.Passes s c')
      (h : Laid o c' ts)
      (ih : ∀ t ∈ ts, (c'.rest.drop (t.offset - c'.offset)).take t.length = t.raw.toList) :
      ∀ t ∈ ts, (c.rest.drop (t.offset - c.offset)).take t.length = t.raw.toList := by
    intro t ht
    have hle := (h.inside t ht).1
    rw [← ih t ht, hpasses.rest, show t.offset - c.offset = s.length + (t.offset - c'.offset) by
      rw [hpasses.offset] at hle ⊢; omega, List.drop_length_add_append]
  induction h with
  | @eof c hc =>
    refine List.forall_mem_singleton.mpr ?_
    rw [c.token_length, Nat.zero_min, token_raw, List.take_zero, List.take_zero]
  | skipped hmoves _ h ih => exact hbehind hmoves.toPasses h ih
  | line hpasses _ h ih => exact hbehind hpasses h ih
  | token ht h ih =>
    refine List.forall_mem_cons.mpr ⟨?_, hbehind ht.passes h ih⟩
    rw [ht.offset, Nat.sub_self, List.drop_zero, ht.passes.rest, length_eq, List.take_left]
  | @directive c c' blanks t ts _ ht h ih =>
    refine List.forall_mem_cons.mpr ⟨?_, hbehind ht.moves.toPasses h ih⟩
    rw [ht.offset, ht.moves.rest,
      show c.offset + 1 + blanks.length - c.offset = ('#' :: blanks).length by
      rw [List.length_cons]; omega]
    rw [show '#' :: (blanks ++ t.raw.toList) ++ c'.rest = '#' :: blanks
      ++ (t.raw.toList ++ c'.rest) by simp, List.drop_left, length_eq, List.take_left]

end Laid

/-- What stands between tokens in front of the place `n` and the rest of the text: something that is
skipped, or the `#` of a directive with the blanks behind it. -/
inductive Gap (o : Options) (ts : List Token) (n : Nat) : List Char → List Char → Prop
  | skipped {s rest : List Char} : Skipped o s rest → Gap o ts n s rest
  | line {s rest : List Char} : IsLineDirective s rest → Gap o ts n s rest
  | opens {blanks rest : List Char} {t : Token} : o.ignoreDirectives = false →
      IsBlank blanks → t ∈ ts →
    t.kind ∈ directiveKinds → t.offset = n → Gap o ts n ('#' :: blanks) rest

theorem Gap.cons (h : Gap o ts n s rest) (t : Token) : Gap o (t :: ts) n s rest := by
  cases h with
  | skipped hs => exact .skipped hs
  | line hs => exact .line hs
  | opens ho hblanks ht hkind hn => exact .opens ho hblanks (List.mem_cons_of_mem _ ht) hkind hn

/-- Whether the byte number `i` belongs to a token or to a gap behind a place. -/
def Accounted (o : Options) (ts : List Token) (c : Cursor) (i : Nat) : Prop :=
  (∃ t ∈ ts, t.offset ≤ i ∧ i < t.offset + t.length) ∨
    ∃ before s rest, c.rest = before ++ (s ++ rest) ∧ c.offset + before.length ≤ i ∧
      i < c.offset + before.length + s.length
        ∧ Gap o ts (c.offset + before.length + s.length) s rest

theorem Accounted.cons {i : Nat} (h : Accounted o ts c i) (t : Token) :
    Accounted o (t :: ts) c i := by
  obtain ⟨u, hu, hi⟩ | ⟨before, s, rest, hc, hstart, hstop, hgap⟩ := h
  · exact .inl ⟨u, List.mem_cons_of_mem _ hu, hi⟩
  · exact .inr ⟨before, s, rest, hc, hstart, hstop, hgap.cons t⟩

theorem Accounted.behind {i : Nat} (hpasses : c.Passes s c') (h : Accounted o ts c' i) :
    Accounted o ts c i := by
  obtain htoken | ⟨before, s', rest, hc, hstart, hstop, hgap⟩ := h
  · exact .inl htoken
  · have hoffset : c.offset + (s ++ before).length = c'.offset + before.length := by
      rw [hpasses.offset, List.length_append, Nat.add_assoc]
    refine .inr ⟨s ++ before, s', rest, ?_, ?_, ?_, ?_⟩
    · rw [hpasses.rest, hc, List.append_assoc]
    · rwa [hoffset]
    · rwa [hoffset]
    · rwa [hoffset]

theorem Gap.accounted {i : Nat} (h : Gap o ts (c.offset + s.length) s rest)
    (hc : c.rest = s ++ rest)
    (hi : c.offset ≤ i) (hi' : i < c.offset + s.length) : Accounted o ts c i :=
  .inr ⟨[], s, rest, hc, hi, hi', h⟩

/-- Every byte belongs to a token or to a gap. -/
theorem Laid.covered {i : Nat} (h : Laid o c ts) (hi : c.offset ≤ i) (hi' : i < c.stop) :
    Accounted o ts c i := by
  -- The byte belongs to the first part of the run, or lies behind that, where the hypothesis
  -- accounts for it.
  induction h with
  | @eof c hc =>
    rw [Cursor.stop, hc] at hi'
    exact absurd hi' (Nat.not_lt.mpr hi)
  | @skipped c c' s ts hmoves hs h ih =>
    obtain hlt | hge := Nat.lt_or_ge i c'.offset
    · exact Gap.accounted (.skipped hs) hmoves.rest hi (hmoves.offset ▸ hlt)
    · exact (ih hge (hmoves.stop_eq.symm ▸ hi')).behind hmoves.toPasses
  | @line c c' s ts hpasses hs h ih =>
    obtain hlt | hge := Nat.lt_or_ge i c'.offset
    · exact Gap.accounted (.line hs) hpasses.rest hi (hpasses.offset ▸ hlt)
    · exact (ih hge (hpasses.stop_eq.symm ▸ hi')).behind hpasses
  | @token c c' t ts ht h ih =>
    obtain hlt | hge := Nat.lt_or_ge i c'.offset
    · exact .inl ⟨t, List.mem_cons_self, ht.offset.trans_le hi, ht.offset_eq ▸ hlt⟩
    · exact ((ih hge (ht.passes.stop_eq.symm ▸ hi')).behind ht.passes).cons t
  | @directive c c' blanks t ts ho ht h ih =>
    obtain hlt | hge := Nat.lt_or_ge i c'.offset
    · obtain hlt' | hge' := Nat.lt_or_ge i t.offset
      · have hlength : t.offset = c.offset + ('#' :: blanks).length := by
          rw [ht.offset, List.length_cons]
          omega
        have hrest : c.rest = '#' :: blanks ++ (t.raw.toList ++ c'.rest) := by
          rw [ht.moves.rest, List.cons_append, List.cons_append, List.append_assoc]
        exact Gap.accounted (.opens ho ht.blank List.mem_cons_self ht.kind hlength) hrest hi
          (hlength ▸ hlt')
      · exact .inl ⟨t, List.mem_cons_self, hge', ht.offset_eq ▸ hlt⟩
    · exact ((ih hge (ht.moves.stop_eq.symm ▸ hi')).behind ht.moves.toPasses).cons t

/-- Whether tokens are all there is in a text besides what the language skips. -/
structure Accounts (o : Options) (text : List Char) (ts : List Token) : Prop where
  ended : ∃ front last, ts = front ++ [last]
    ∧ last.kind = .eof ∧ (∀ t ∈ front, t.kind ≠ .eof) ∧ front.length ≤ text.length
  inside : ∀ t ∈ ts, t.offset + t.length ≤ text.length
    ∧ (text.drop t.offset).take t.length = t.raw.toList
  ordered : ts.Pairwise fun t u => t.offset + t.length ≤ u.offset
  covered : ∀ i < text.length, (∃ t ∈ ts, t.offset ≤ i ∧ i < t.offset + t.length)
    ∨ ∃ before s rest, text = before ++ (s ++ rest) ∧ before.length ≤ i
      ∧ i < before.length + s.length ∧ Gap o ts (before.length + s.length) s rest

/-- The place behind a token is further on. -/
theorem offset_lt_lex (h : (lex o c).1.kind ≠ .eof) : c.offset < (lex o c).2.offset := by
  obtain ⟨k, -, hrest, hoffset⟩ := (lexFrom_spans o (c.location.column ≤ 1) c).reaches
  have hlt := rest_lex_lt h
  rw [← lex] at hrest hoffset
  rw [hrest, List.length_drop] at hlt
  rw [hoffset]
  omega

/-- Reading goes on with every token and accounts for every byte of the text. Neither numerals nor
strings are measured beyond its end. -/
theorem lexing_accounts_for_text (o : Options) (source : String) (start : Location) :
    (∀ c, c.Reaches (lex o c).2 ∧ ((lex o c).1.kind ≠ .eof → c.offset < (lex o c).2.offset))
      ∧ (∀ cs, (scanNumeral cs).length ≤ cs.length
        ∧ (scanString o.escapeStrings cs).2 ≤ cs.length)
        ∧ Laid o (.start source start) (lexAll o (.start source start))
        ∧ Accounts o source.toList (lexAll o (.start source start)) := by
  have h := laid_lexAll o (.start source start)
  have hstop : (Cursor.start source start).stop = source.toList.length := Nat.zero_add _
  refine ⟨fun c => ⟨(lexFrom_spans o _ c).reaches, offset_lt_lex⟩,
    fun cs => ⟨scanNumeral_length_le cs, scanString_length_le _ cs⟩, h, ?_,
    fun t ht => ⟨?_, h.raw_eq t ht⟩, h.ordered, ?_⟩
  · obtain ⟨front, last, heq, hlast, hfront⟩ := h.ended
    have hlength := h.length_le
    rw [hstop, heq, List.length_append, List.length_singleton] at hlength
    exact ⟨front, last, heq, hlast, hfront, Nat.le_of_add_le_add_right hlength⟩
  · exact hstop ▸ (h.inside t ht).2
  · intro i hi
    simpa only [Accounted, Cursor.start, Nat.zero_add] using
      h.covered (Nat.zero_le i) (hstop.symm ▸ hi)

/-- Whether a token is located at the place behind the bytes `s`: it starts there, or there is the
`#` of its directive. -/
def LocatedAt (c : Cursor) (t : Token) (s : List Char) : Prop :=
  t.location = c.location.past s ∧ ∃ rest, c.rest = s ++ rest ∧
    (t.offset = c.offset + s.length ∨
      ∃ blanks more, t.kind ∈ directiveKinds
        ∧ IsBlank blanks ∧ rest = '#' :: (blanks ++ more) ∧
        t.offset = c.offset + s.length + 1 + blanks.length)

theorem LocatedAt.behind (hmoves : c.Moves s c') (h : LocatedAt c' t s') :
    LocatedAt c t (s ++ s') := by
  obtain ⟨hlocation, rest, hrest, hoffset⟩ := h
  have hlength : c'.offset + s'.length = c.offset + (s ++ s').length := by
    rw [hmoves.offset, List.length_append, Nat.add_assoc]
  refine ⟨?_, rest, ?_, hlength ▸ hoffset⟩
  · rw [hlocation, hmoves.location, Location.past_append]
  · rw [hmoves.rest, hrest, List.append_assoc]

/-- Without `#line` directives and without strings over several lines, tokens are located by the
bytes in front. -/
theorem Laid.located (h : Laid o c ts)
    (hline : ∀ before s rest, c.rest = before ++ (s ++ rest) → ¬ IsLineDirective s rest)
    (hstring : ∀ t ∈ ts, t.kind = .stringLiteral → '\n' ∉ t.raw.toList) :
    ∀ t ∈ ts, ∃ s, LocatedAt c t s := by
  have hbehind {c c' : Cursor} {s : List Char} (hpasses : c.Passes s c')
      (hline : ∀ before s rest, c.rest = before ++ (s ++ rest) → ¬ IsLineDirective s rest) :
      ∀ before s rest, c'.rest = before ++ (s ++ rest) → ¬ IsLineDirective s rest :=
    fun before s' rest hc' =>
    hline (s ++ before) s' rest (by rw [hpasses.rest, hc', List.append_assoc])
  induction h with
  | @eof c hc => exact List.forall_mem_singleton.mpr ⟨[], rfl, [], hc, .inl rfl⟩
  | skipped hmoves _ _ ih =>
    intro t ht
    obtain ⟨s, hs⟩ := ih (hbehind hmoves.toPasses hline) hstring t ht
    exact ⟨_, hs.behind hmoves⟩
  | @line c c' s ts hpasses hs => exact absurd hs (hline [] s c'.rest hpasses.rest)
  | token ht _ ih =>
    obtain ⟨hfirst, hothers⟩ := List.forall_mem_cons.mp hstring
    refine List.forall_mem_cons.mpr ⟨⟨[], ht.location, _, rfl, .inl ht.offset⟩,
      fun u hu => ?_⟩
    obtain ⟨s, hs⟩ := ih (hbehind ht.passes hline) hothers u hu
    exact ⟨_, hs.behind ⟨ht.passes, ht.past hfirst⟩⟩
  | @directive c c' blanks t ts _ ht _ ih =>
    obtain ⟨-, hothers⟩ := List.forall_mem_cons.mp hstring
    have hrest : c.rest = '#' :: (blanks ++ (t.raw.toList ++ c'.rest)) := by
      rw [ht.moves.rest, List.cons_append, List.append_assoc]
    refine List.forall_mem_cons.mpr ⟨⟨[], ht.location, _, rfl,
      .inr ⟨blanks, _, ht.kind, ht.blank, hrest, ht.offset⟩⟩, fun u hu => ?_⟩
    obtain ⟨s, hs⟩ := ih (hbehind ht.moves.toPasses hline) hothers u hu
    exact ⟨_, hs.behind ht.moves⟩

/-- Lines and columns of tokens count newlines and bytes. A string over several lines is
the exception: it does not count its newlines, so that what follows it is taken to be on
its first line. -/
theorem locations_exact (o : Options) (source name : String)
    (hline : ∀ before s rest, source.toList = before ++ (s ++ rest) → ¬ IsLineDirective s rest)
    (hstring : ∀ t ∈ lexAll o (.start source ⟨name, 1, 1⟩),
      t.kind = .stringLiteral → '\n' ∉ t.raw.toList) :
    ∀ t ∈ lexAll o (.start source ⟨name, 1, 1⟩),
      ∃ s, LocatedAt (.start source ⟨name, 1, 1⟩) t s ∧
      t.location = ⟨name, 1 + s.count '\n', 1 + (s.reverse.takeWhile (· != '\n')).length⟩ := by
  intro t ht
  obtain ⟨s, hs⟩ := (laid_lexAll o (.start source ⟨name, 1, 1⟩)).located hline hstring t ht
  exact ⟨s, hs, hs.1.trans (Location.past_eq rfl s)⟩

end Token
end ShaderEffect

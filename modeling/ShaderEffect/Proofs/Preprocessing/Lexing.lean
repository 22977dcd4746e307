import ShaderEffect.Proofs.Preprocessing.Numerals
import ShaderEffect.Proofs.Reading.Tokens

namespace ShaderEffect.Token

/-- Whether a text ends with a newline that has no backslash in front of it. -/
structure IsWhole (cs : List Char) : Prop where
  newline : cs.getLast? = some '\n'
  notContinued : cs.dropLast.getLast? ≠ some '\\'

variable {c : Char} {cs ds more : List Char} {p : Char → Bool}

namespace IsWhole

theorem of_suffix (h : IsWhole cs) (hds : ds <:+ cs) (hne : ds ≠ []) : IsWhole ds := by
  obtain ⟨front, rfl⟩ := hds
  constructor
  · rw [← h.newline, List.getLast?_append_of_ne_nil _ hne]
  · intro hlast
    have hdrop : ds.dropLast ≠ [] := by
      intro hnil
      rw [hnil] at hlast
      cases hlast
    refine h.notContinued ?_
    rw [List.dropLast_append_of_ne_nil hne, List.getLast?_append_of_ne_nil _ hdrop, hlast]

theorem ne_nil (h : IsWhole cs) : cs ≠ [] := by
  rintro rfl
  cases h.newline

/-- Behind a byte that is no newline the text goes on. -/
theorem tail (h : IsWhole (c :: cs)) (hc : c ≠ '\n') : IsWhole cs := by
  refine h.of_suffix (List.suffix_cons c cs) ?_
  rintro rfl
  exact hc (Option.some.inj h.newline)

/-- A backslash in front of a newline is not at the end. -/
theorem tail_of_continued (h : IsWhole ('\\' :: '\n' :: cs)) : IsWhole cs := by
  refine h.of_suffix ⟨['\\', '\n'], rfl⟩ ?_
  rintro rfl
  exact h.notContinued rfl

theorem endsIn (h : IsWhole cs) {stop : Char → Bool} (hstop : stop '\n' = true) :
    EndsIn stop cs :=
  ⟨'\n', h.newline, hstop⟩

theorem endsIn_newline (h : IsWhole cs) : EndsIn (fun c => c = '\n') cs :=
  h.endsIn (decide_eq_true rfl)

theorem head?_append (h : IsWhole cs) : (cs ++ more).head? = cs.head? :=
  h.endsIn_newline.head?_append

theorem takeWhile_append (h : IsWhole cs) (hp : p '\n' = false) :
    (cs ++ more).takeWhile p = cs.takeWhile p :=
  h.endsIn_newline.takeWhile_append fun x hx => by rwa [(of_decide_eq_true hx : x = '\n')]

theorem dropWhile (h : IsWhole cs) (hp : p '\n' = false) : IsWhole (cs.dropWhile p) :=
  h.of_suffix (List.dropWhile_suffix p)
    (h.endsIn_newline.dropWhile fun x hx => by rwa [(of_decide_eq_true hx : x = '\n')]).ne_nil

end IsWhole

/-- A string that is not continued behind the text ends in it. -/
theorem scanString_append (more : List Char) (h : IsWhole cs) :
    scanString false (cs ++ more) = scanString false cs
      ∧ (scanString false cs).2 < cs.length := by
  induction hn : cs.length using Nat.strong_induction_on generalizing cs with
  | _ n ih =>
  subst hn
  cases cs with
  | nil => exact absurd rfl h.ne_nil
  | cons c rest =>
    rw [List.cons_append, scanString.eq_def false (c :: (rest ++ more)),
      scanString.eq_def false (c :: rest)]
    simp only [Bool.and_false, Bool.false_eq_true, if_false]
    split
    · exact ⟨rfl, Nat.succ_pos _⟩
    · rename_i hc
      have hrest := h.tail hc
      split
      · exact ⟨rfl, Nat.succ_lt_succ (List.length_pos_of_ne_nil hrest.ne_nil)⟩
      · rw [hrest.head?_append]
        split
        · rename_i hcontinued
          obtain ⟨rfl, rest', rfl⟩ : c = '\\' ∧ ∃ rest', rest = '\n' :: rest' := by
            simp only [Bool.and_eq_true, decide_eq_true_eq] at hcontinued
            exact ⟨hcontinued.1, List.head?_eq_some_iff.mp hcontinued.2⟩
          obtain ⟨heq, hlt⟩ := ih rest'.length (by simp) h.tail_of_continued rfl
          simp only [List.cons_append, List.drop_succ_cons, List.drop_zero, heq,
            List.length_cons, true_and]
          omega
        · obtain ⟨heq, hlt⟩ := ih rest.length (by simp) hrest rfl
          simp only [heq, List.length_cons, true_and]
          omega

theorem operatorAt?_append (h : IsWhole cs) :
    Kind.operatorAt? (cs ++ more) = Kind.operatorAt? cs := by
  have hspelling : ∀ s ∈ Kind.operatorSpellings, '\n' ∉ s.1 := by decide
  unfold Kind.operatorAt?
  congr 1
  refine List.find?_congr fun s hs => h.endsIn_newline.isPrefixOf_append fun x hx => ?_
  exact decide_eq_false fun heq => hspelling s hs (heq ▸ hx)

theorem operatorAt?_length_le {kind : Kind} (h : Kind.operatorAt? cs = some kind) :
    kind.name.length ≤ cs.length := by
  obtain ⟨s, hs, rfl⟩ := Option.map_eq_some_iff.mp h
  obtain ⟨kind, -, rfl⟩ := List.mem_map.mp (List.mem_of_find?_eq_some hs)
  have hprefix := List.find?_some hs
  exact (List.isPrefixOf_iff_prefix.mp hprefix).length_le

/-- A token that was read from a part of a text, by its place in the whole. -/
def shift (t : Token) (k : Nat) : Token :=
  { t with offset := t.offset + k }

namespace Cursor

variable {k n : Nat}

/-- The same place when `k` bytes stand in front of the text and `more` behind it. -/
def within (c : Cursor) (k : Nat) (more : List Char) : Cursor :=
  { c with rest := c.rest ++ more, offset := c.offset + k }

theorem token_within (c : Cursor) (kind : Kind) (hn : n ≤ c.rest.length) :
    (c.within k more).token kind n = (c.token kind n).shift k := by
  simp only [token, within, shift, List.take_append_of_le_length hn]

theorem advance_within (c : Cursor) (hn : n ≤ c.rest.length) :
    (c.within k more).advance n = (c.advance n).within k more := by
  simp only [advance, within, List.drop_append_of_le_length hn, mk.injEq, true_and, and_true]
  omega

theorem advanceLine_within (c : Cursor) (hn : n ≤ c.rest.length) :
    (c.within k more).advanceLine n = (c.advanceLine n).within k more := by
  simp only [advanceLine, within, List.drop_append_of_le_length hn, mk.injEq, true_and, and_true]
  omega

theorem skipWhile_within (c : Cursor) (h : IsWhole c.rest) (hp : p '\n' = false) :
    (c.within k more).skipWhile p = (c.skipWhile p).within k more := by
  rw [skipWhile, show (c.within k more).rest = c.rest ++ more from rfl, h.takeWhile_append hp,
    advance_within c length_takeWhile_le]
  rfl

theorem skipWhile_isWhole (c : Cursor) (h : IsWhole c.rest) (hp : p '\n' = false) :
    IsWhole (c.skipWhile p).rest := by
  show IsWhole (c.rest.drop _)
  rw [drop_length_takeWhile]
  exact h.dropWhile hp

theorem skipBlanks_within (c : Cursor) (h : IsWhole c.rest) :
    (c.within k more).skipBlanks = c.skipBlanks.within k more :=
  c.skipWhile_within h (by decide)

theorem skipBlanks_isWhole (c : Cursor) (h : IsWhole c.rest) : IsWhole c.skipBlanks.rest :=
  c.skipWhile_isWhole h (by decide)

theorem skipLine_within (c : Cursor) (h : IsWhole c.rest) :
    (c.within k more).skipLine = c.skipLine.within k more :=
  c.skipWhile_within h (by decide)

/-- Whether a place is behind another one in the same text. -/
def Reaches (c c' : Cursor) : Prop :=
  ∃ n ≤ c.rest.length, c'.rest = c.rest.drop n ∧ c'.offset = c.offset + n

theorem Reaches.refl (c : Cursor) : c.Reaches c := ⟨0, Nat.zero_le _, rfl, rfl⟩

theorem Reaches.trans {c c₁ c' : Cursor} (h : c.Reaches c₁) (h' : c₁.Reaches c') :
    c.Reaches c' := by
  obtain ⟨n, hn, hrest, hoffset⟩ := h
  obtain ⟨m, hm, hrest', hoffset'⟩ := h'
  rw [hrest, List.length_drop] at hm
  refine ⟨n + m, by omega, ?_, ?_⟩
  · rw [hrest', hrest, List.drop_drop]
  · rw [hoffset', hoffset, Nat.add_assoc]

theorem Reaches.offset_le {c c' : Cursor} (h : c.Reaches c') : c.offset ≤ c'.offset := by
  obtain ⟨n, -, -, hoffset⟩ := h
  omega

theorem Reaches.offset_sub_le {c c' : Cursor} (h : c.Reaches c') :
    c'.offset - c.offset ≤ c.rest.length := by
  obtain ⟨n, hn, -, hoffset⟩ := h
  omega

theorem Reaches.suffix {c c' : Cursor} (h : c.Reaches c') : c'.rest <:+ c.rest := by
  obtain ⟨n, -, hrest, -⟩ := h
  exact hrest ▸ List.drop_suffix n c.rest

theorem reaches_advance (c : Cursor) (hn : n ≤ c.rest.length) : c.Reaches (c.advance n) :=
  ⟨n, hn, rfl, rfl⟩

theorem reaches_advanceLine (c : Cursor) (hn : n ≤ c.rest.length) : c.Reaches (c.advanceLine n) :=
  ⟨n, hn, rfl, rfl⟩

theorem reaches_skipWhile (c : Cursor) (p : Char → Bool) : c.Reaches (c.skipWhile p) :=
  c.reaches_advance length_takeWhile_le

theorem reaches_skipComment (cs : List Char) (offset : Nat) (location : Location) :
    Reaches ⟨cs, offset, location⟩ (skipComment cs offset location) := by
  induction cs generalizing offset location with
  | nil => exact .refl _
  | cons c cs ih =>
    have hnext (location' : Location) :
        Reaches ⟨c :: cs, offset, location⟩ ⟨cs, offset + 1, location'⟩ :=
      ⟨1, Nat.succ_pos _, rfl, rfl⟩
    rw [skipComment]
    split
    · exact (hnext _).trans (ih _ _)
    · split
      · rename_i hclose
        simp only [Bool.and_eq_true, decide_eq_true_eq] at hclose
        obtain ⟨rest, rfl⟩ := List.head?_eq_some_iff.mp hclose.2
        exact ⟨2, by simp, rfl, rfl⟩
      · exact (hnext _).trans (ih _ _)

theorem word_within (c : Cursor) (h : IsWhole c.rest) : (c.within k more).word = c.word :=
  h.takeWhile_append (by decide)

theorem word_length_le (c : Cursor) : c.word.length ≤ c.rest.length :=
  length_takeWhile_le

theorem continuation_within (c : Cursor) (h : IsWhole c.rest) :
    (c.within k more).continuation = c.continuation := by
  obtain ⟨cs, offset, location⟩ := c
  simp only [continuation, within]
  obtain _ | ⟨c₁, cs₁⟩ := cs
  · exact absurd rfl h.ne_nil
  by_cases h₁ : c₁ = '\\'
  · subst h₁
    have h' : IsWhole cs₁ := h.tail (by decide)
    obtain _ | ⟨c₂, cs₂⟩ := cs₁
    · exact absurd rfl h'.ne_nil
    by_cases h₂ : c₂ = '\r'
    · subst h₂
      have h'' : IsWhole cs₂ := h'.tail (by decide)
      obtain _ | ⟨c₃, cs₃⟩ := cs₂
      · exact absurd rfl h''.ne_nil
      · by_cases h₃ : c₃ = '\n' <;> simp [h₃]
    · by_cases h₃ : c₂ = '\n' <;> simp [h₂, h₃]
  · simp [h₁]

/-- A comment that ends in a text ends at the same place of a longer text. -/
theorem skipComment_append (k : Nat) (more : List Char) (cs : List Char) (offset : Nat)
    (location : Location) (h : (skipComment cs offset location).rest ≠ []) :
    skipComment (cs ++ more) (offset + k) location
      = (skipComment cs offset location).within k more := by
  induction cs generalizing offset location with
  | nil => exact absurd rfl h
  | cons c cs ih =>
    have hne : cs ≠ [] := by
      rintro rfl
      refine h ?_
      rw [skipComment]
      split
      · rfl
      · split <;> rfl
    rw [skipComment] at h ⊢
    rw [List.cons_append, skipComment, List.head?_append_of_ne_nil _ hne]
    split_ifs at h ⊢
    · rw [Nat.add_right_comm]
      exact ih _ _ h
    · rw [List.drop_append_of_le_length (List.length_pos_of_ne_nil hne), Nat.add_right_comm]
      rfl
    · rw [Nat.add_right_comm]
      exact ih _ _ h

end Cursor

/-- A directive in a longer text. -/
def Directive.within (d : Directive) (k : Nat) (more : List Char) : Directive :=
  match d with
  | .report token next => .report (token.shift k) (next.within k more)
  | .line next => .line (next.within k more)

variable {k : Nat}

theorem lineSource_within (c : Cursor) (h : IsWhole c.rest) :
    lineSource (c.within k more) = lineSource c := by
  obtain ⟨cs, offset, location⟩ := c
  cases cs with
  | nil => exact absurd rfl h.ne_nil
  | cons first rest =>
    by_cases hquote : first = '"'
    · subst hquote
      have hrest : IsWhole rest := h.tail (by decide)
      simp only [lineSource, Cursor.within, List.cons_append, (scanString_append _ hrest).1]
    · simp only [lineSource, Cursor.within, List.cons_append]
      split
      · simp_all
      · split
        · simp_all
        · rfl

/-- The numeral at the front of a text, if there is one. -/
def numeralAt? (cs : List Char) : Option Numeral :=
  match cs with
  | d :: _ => if Text.isDigit d then some (scanNumeral cs) else none
  | [] => none

theorem numeralAt?_append (h : IsWhole cs) : numeralAt? (cs ++ more) = numeralAt? cs := by
  cases cs with
  | nil => exact absurd rfl h.ne_nil
  | cons d rest =>
    have hscan : scanNumeral (d :: (rest ++ more)) = scanNumeral (d :: rest) :=
      (scanNumeral_append more (h.endsIn rfl)).1
    rw [List.cons_append, numeralAt?, numeralAt?, hscan]

theorem numeralAt?_length_le (cs : List Char) :
    ((numeralAt? cs).map (·.length)).getD 0 ≤ cs.length := by
  unfold numeralAt?
  split
  · split
    · exact scanNumeral_length_le _
    · exact Nat.zero_le _
  · exact Nat.zero_le _

theorem numeralAt?_length_lt (h : IsWhole cs) :
    ((numeralAt? cs).map (·.length)).getD 0 < cs.length := by
  unfold numeralAt?
  split
  · split
    · exact (scanNumeral_append [] (h.endsIn rfl)).2
    · exact Nat.succ_pos _
  · exact absurd rfl h.ne_nil

/-- A place at which the line number and the source name were set. -/
def located (c : Cursor) (line : Int) (source : Option String) : Cursor :=
  { c with location := { c.location with line, source := source.getD c.location.source } }

theorem lineDirective_eq (c : Cursor) :
    lineDirective c =
      let n := numeralAt? c.skipBlanks.rest
      let next := (c.skipBlanks.advance ((n.map (·.length)).getD 0)).skipBlanks
      located next (((n.map (·.word.toNat)).getD 0 - 1 : Nat) : Int) (lineSource next) := by
  unfold lineDirective numeralAt?
  generalize c.skipBlanks = b
  obtain ⟨cs, offset, location⟩ := b
  -- The line number is set in front of the blanks, but nothing reads it before the source name.
  have hsource (next : Cursor) (line : Int) :
      lineSource (Cursor.skipBlanks { next with location := { next.location with line } }) =
        lineSource next.skipBlanks := rfl
  simp only
  rw [hsource]
  cases lineSource (Cursor.skipBlanks _) <;> rfl

theorem lineDirective_within (c : Cursor) (h : IsWhole c.rest) :
    lineDirective (c.within k more) = (lineDirective c).within k more := by
  have h₁ := c.skipBlanks_isWhole h
  have h₂ := numeralAt?_length_lt h₁
  have h₃ :
      IsWhole (c.skipBlanks.advance
        (((numeralAt? c.skipBlanks.rest).map (·.length)).getD 0)).rest :=
    h₁.of_suffix (List.drop_suffix _ _) (by simpa [Cursor.advance] using h₂)
  rw [lineDirective_eq, lineDirective_eq, c.skipBlanks_within h,
    show (c.skipBlanks.within k more).rest = c.skipBlanks.rest ++ more from rfl,
    numeralAt?_append h₁]
  simp only
  rw [Cursor.advance_within _ h₂.le, Cursor.skipBlanks_within _ h₃,
    lineSource_within _ (Cursor.skipBlanks_isWhole _ h₃)]
  rfl

theorem lineDirective_reaches (c : Cursor) : c.Reaches (lineDirective c) := by
  have hlocated (next : Cursor) (line : Int) (source : Option String) :
      next.Reaches (located next line source) :=
    .refl next
  rw [lineDirective_eq]
  exact (((c.reaches_skipWhile _).trans (Cursor.reaches_advance _ (numeralAt?_length_le _))).trans
    (Cursor.reaches_skipWhile _ _)).trans (hlocated _ _ _)

theorem skipWord_isWhole (c : Cursor) (h : IsWhole c.rest) :
    IsWhole (c.advance c.word.length).rest := by
  show IsWhole (c.rest.drop (c.rest.takeWhile _).length)
  rw [drop_length_takeWhile]
  exact h.dropWhile (by decide)

theorem readDirective_reaches (hash behind : Cursor) :
    behind.Reaches (readDirective hash behind).next := by
  have hblanks := behind.reaches_skipWhile Text.isBlank
  have hword := hblanks.trans (behind.skipBlanks.reaches_advance behind.skipBlanks.word_length_le)
  unfold readDirective
  simp only
  split
  · split
    · exact hword
    · split
      · exact hword.trans (lineDirective_reaches _)
      · exact hword
  · exact hblanks

/-- The token of a directive lies between its `#` and the place behind it. -/
theorem readDirective_report (hash behind : Cursor) {token : Token} {next : Cursor}
    (h : readDirective hash behind = .report token next) :
    behind.offset ≤ token.offset ∧ token.offset + token.length ≤ next.offset ∧
      token.kind ≠ .endOfLine ∧ token.kind ≠ .eof := by
  have hkind : ∀ d ∈ directives, d.2 ≠ .endOfLine ∧ d.2 ≠ .eof := by decide
  have hblanks := (behind.reaches_skipWhile Text.isBlank).offset_le
  have hlength (n : Nat) : (behind.skipBlanks.token .unknown n).length ≤ n := by
    simp [Cursor.token, length]
  unfold readDirective at h
  simp only at h
  split at h
  · split at h
    · rename_i kind hlookup
      obtain ⟨front, back, heq, -⟩ := List.lookup_eq_some_iff.mp hlookup
      cases h
      exact ⟨hblanks, Nat.add_le_add_left (hlength _) _,
        hkind _ (heq ▸ List.mem_append_right _ List.mem_cons_self)⟩
    · split at h
      · cases h
      · cases h
        exact ⟨hblanks, Nat.add_le_add_left (hlength _) _, Kind.noConfusion, Kind.noConfusion⟩
  · cases h
    exact ⟨hblanks, Nat.add_le_add_left (hlength 0) _, Kind.noConfusion, Kind.noConfusion⟩

theorem readDirective_within (hash behind : Cursor) (h : IsWhole behind.rest) :
    readDirective (hash.within k more) (behind.within k more)
      = (readDirective hash behind).within k more := by
  have hrest := behind.skipBlanks_isWhole h
  have hhead : (behind.skipBlanks.within k more).rest.head? = behind.skipBlanks.rest.head? :=
    hrest.head?_append
  have hword := behind.skipBlanks.word_length_le
  have hnext := skipWord_isWhole _ hrest
  unfold readDirective
  simp only [behind.skipBlanks_within h, hhead, Cursor.word_within _ hrest,
    Cursor.token_within _ _ hword,
    Cursor.advance_within _ hword, Cursor.token_within _ _ (Nat.zero_le _)]
  split
  · split
    · rfl
    · split
      · rw [lineDirective_within _ hnext]
        rfl
      · rfl
  · rfl

theorem readToken_offset (o : Options) (c : Cursor) (first : Char) :
    (readToken o c first).offset = c.offset := by
  unfold readToken
  split
  · rfl
  · split
    · rfl
    · split
      · rfl
      · split <;> rfl

theorem readToken_length_le (o : Options) (c : Cursor) (first : Char) :
    (readToken o c first).length ≤ c.rest.length := by
  -- The length of a token is that of its text, whatever its kind is.
  have htoken (n : Nat) : (c.token .unknown n).length ≤ c.rest.length := by
    simp [Cursor.token, length]
  unfold readToken
  split
  · exact htoken _
  · split
    · exact htoken _
    · split
      · exact htoken _
      · split <;> exact htoken _

theorem readToken_within (o : Options) (c : Cursor) {first : Char} {rest : List Char}
    (ho : o.escapeStrings = false)
    (h : IsWhole c.rest) (hc : c.rest = first :: rest) (hfirst : first ≠ '\n') :
    readToken o (c.within k more) first = (readToken o c first).shift k := by
  have hrest : IsWhole rest := (hc ▸ h).tail hfirst
  have happend : (c.within k more).rest = c.rest ++ more := rfl
  have hnumeral := scanNumeral_append more (h.endsIn rfl)
  have hstring := scanString_append more hrest
  have hdrop : c.rest.drop 1 = rest := by rw [hc, List.drop_one, List.tail_cons]
  have hdrop' : (c.rest ++ more).drop 1 = rest ++ more := by rw [hc]; rfl
  unfold readToken
  simp only [happend, hnumeral.1, hdrop, hdrop', hrest.head?_append, ho, hstring.1,
    operatorAt?_append h, c.word_within h]
  split
  · rw [c.token_within _ hnumeral.2.le]
    rfl
  · split
    · rw [c.token_within _ c.word_length_le]
      rfl
    · split
      · rw [c.token_within _ (by rw [hc]; exact Nat.succ_le_succ hstring.2.le)]
        rfl
      · split
        · exact c.token_within _ (operatorAt?_length_le ‹_›)
        · exact c.token_within _ (List.length_pos_of_ne_nil h.ne_nil)

/-- The token that a directive stands for, or the next one behind its line. -/
def lexDirective (o : Options) (lineStart : Bool) : Directive → Token × Cursor
  | .line next => lexFrom o lineStart next.skipLine
  | .report token next =>
    if o.ignoreDirectives then lexFrom o lineStart next.skipLine else (token, next)

/-- The token of white space up to a place, or the next one behind it. Nothing is left of white
space at the start and at the end of a line. -/
def lexBlanks (o : Options) (lineStart : Bool) (c next : Cursor) : Token × Cursor :=
  if o.ignoreWhitespace || lineStart || next.rest.head? = some '\n' then lexFrom o lineStart next
  else (c.token .space (next.offset - c.offset), next)

theorem lexFrom_nil (o : Options) (lineStart : Bool) {c : Cursor} (hc : c.rest = []) :
    lexFrom o lineStart c = (c.token .eof 0, c) := by
  rw [lexFrom]
  split
  · rfl
  · simp_all

theorem lexFrom_cons (o : Options) (lineStart : Bool) {c : Cursor} {first : Char} {rest : List Char}
    (hc : c.rest = first :: rest) :
    lexFrom o lineStart c =
      if c.continuation ≠ 0 then lexFrom o lineStart (c.advanceLine c.continuation)
      else if Text.isBlank first then lexBlanks o lineStart c (c.advance 1).skipBlanks
      else if first = '\n' then
        if o.ignoreWhitespace then lexFrom o true (c.advanceLine 1)
        else (c.token .endOfLine 1, c.advanceLine 1)
      else if first = '#' && lineStart then lexDirective o lineStart (readDirective c (c.advance 1))
      else if first = '/' && rest.head? = some '/' then lexFrom o lineStart (c.advance 1).skipLine
      else if first = '/' && rest.head? = some '*' then
        lexFrom o lineStart
          (Cursor.skipComment (c.advance 2).rest (c.advance 2).offset (c.advance 2).location)
      else (readToken o c first, c.advance (readToken o c first).length) := by
  rw [lexFrom]
  split
  · simp_all
  · rename_i first' rest' hc'
    obtain ⟨rfl, rfl⟩ := List.cons.inj (hc.symm.trans hc')
    simp only [dite_eq_ite]
    congr
    split <;> simp_all [lexDirective]

/-- Whether a token is met in a text, and not only the end of it. -/
def IsMet (found : Token × Cursor) : Prop :=
  found.1.kind = .endOfLine ∨ found.2.rest ≠ []

/-- What is found when `k` bytes stand in front of the text and `more` behind it. -/
def foundWithin (k : Nat) (more : List Char) (found : Token × Cursor) : Token × Cursor :=
  (found.1.shift k, found.2.within k more)

/-- Whether more text changes nothing about the tokens that are met from a place in front of
`rest`, or in it, on. -/
def StaysWithin (k : Nat) (more : List Char) (o : Options) (rest : List Char) : Prop :=
  ∀ (lineStart : Bool) (next : Cursor), next.rest <:+ rest →
    IsMet (lexFrom o lineStart next) →
    lexFrom o lineStart (next.within k more) = foundWithin k more (lexFrom o lineStart next)

theorem rest_ne_nil_of_isMet {o : Options} {lineStart : Bool} {c : Cursor}
    (h : IsMet (lexFrom o lineStart c)) : c.rest ≠ [] := by
  intro hnil
  rw [lexFrom_nil _ _ hnil] at h
  simp [IsMet, Cursor.token, hnil] at h

namespace StaysWithin

variable {o : Options} {lineStart : Bool} {c next : Cursor} {first : Char} {rest : List Char}

theorem skipLine (hstays : StaysWithin k more o rest) (hwhole : IsWhole rest)
    (hsuffix : next.rest <:+ rest) (hmet : IsMet (lexFrom o lineStart next.skipLine)) :
    lexFrom o lineStart (next.within k more).skipLine
      = foundWithin k more (lexFrom o lineStart next.skipLine) := by
  have hskip : next.skipLine.rest <:+ next.rest := (next.reaches_skipWhile _).suffix
  have hne : next.rest ≠ [] := by
    intro hnil
    exact rest_ne_nil_of_isMet hmet (List.suffix_nil.mp (hnil ▸ hskip))
  rw [Cursor.skipLine_within _ (hwhole.of_suffix hsuffix hne)]
  exact hstays _ _ (hskip.trans hsuffix) hmet

theorem directive (hstays : StaysWithin k more o rest) (hwhole : IsWhole rest) {d : Directive}
    (hsuffix : d.next.rest <:+ rest) (hmet : IsMet (lexDirective o lineStart d)) :
    lexDirective o lineStart (d.within k more)
      = foundWithin k more (lexDirective o lineStart d) := by
  cases d with
  | line next => exact hstays.skipLine hwhole hsuffix hmet
  | report token next =>
    simp only [lexDirective, Directive.within] at hmet ⊢
    split_ifs at hmet ⊢
    · exact hstays.skipLine hwhole hsuffix hmet
    · rfl

theorem blanks (hstays : StaysWithin k more o rest) (hc : c.rest = first :: rest)
    (hwhole : IsWhole rest) (hmet : IsMet (lexBlanks o lineStart c (c.advance 1).skipBlanks)) :
    lexBlanks o lineStart (c.within k more) ((c.within k more).advance 1).skipBlanks =
      foundWithin k more (lexBlanks o lineStart c (c.advance 1).skipBlanks) := by
  have hone : 1 ≤ c.rest.length := by rw [hc]; exact Nat.succ_pos _
  have hbehind : (c.advance 1).rest = rest := by
    rw [Cursor.advance, hc, List.drop_one, List.tail_cons]
  rw [← hbehind] at hwhole
  have hskip := (c.advance 1).skipBlanks_isWhole hwhole
  rw [c.advance_within hone, (c.advance 1).skipBlanks_within hwhole]
  unfold lexBlanks at hmet ⊢
  rw [show ((c.advance 1).skipBlanks.within k more).rest.head? = _ from hskip.head?_append]
  split_ifs at hmet ⊢
  · exact hstays _ _ (hbehind ▸ ((c.advance 1).reaches_skipWhile _).suffix) hmet
  · have hlength : (c.advance 1).skipBlanks.offset - c.offset ≤ c.rest.length :=
      ((c.reaches_advance hone).trans ((c.advance 1).reaches_skipWhile _)).offset_sub_le
    rw [foundWithin, ← c.token_within _ hlength]
    show ((c.within k more).token .space ((c.advance 1).skipBlanks.offset + k - (c.offset + k)), _)
      = _
    rw [Nat.add_sub_add_right]

theorem comment (hstays : StaysWithin k more o rest) (hc : c.rest = first :: rest)
    (hopen : rest.head? = some '*')
    (hmet : IsMet (lexFrom o lineStart
      (Cursor.skipComment (c.advance 2).rest (c.advance 2).offset (c.advance 2).location))) :
    lexFrom o lineStart (Cursor.skipComment ((c.within k more).advance 2).rest
      ((c.within k more).advance 2).offset ((c.within k more).advance 2).location)
      = foundWithin k more
        (lexFrom o lineStart
          (Cursor.skipComment (c.advance 2).rest (c.advance 2).offset (c.advance 2).location)) := by
  obtain ⟨rest', rfl⟩ := List.head?_eq_some_iff.mp hopen
  have hinside : (c.advance 2).rest = rest' := by rw [Cursor.advance, hc]; rfl
  -- The comment is closed in the text, since a token is met behind it.
  have hcomment := Cursor.skipComment_append k more _ _ _ (rest_ne_nil_of_isMet hmet)
  rw [c.advance_within (by rw [hc]; exact Nat.succ_le_succ (Nat.succ_pos _)),
    Cursor.within, hcomment]
  refine hstays _ _ ?_ hmet
  refine (Cursor.reaches_skipComment _ _ _).suffix.trans ?_
  rw [hinside]
  exact List.suffix_cons _ _

end StaysWithin

theorem lexFrom_within (k : Nat) (more : List Char) (o : Options) (lineStart : Bool) (c : Cursor)
    (ho : o.escapeStrings = false) (h : IsWhole c.rest)
    (hnext : (lexFrom o lineStart c).1.kind = .endOfLine
      ∨ (lexFrom o lineStart c).2.rest ≠ []) :
    lexFrom o lineStart (c.within k more) =
      ((lexFrom o lineStart c).1.shift k, (lexFrom o lineStart c).2.within k more) := by
  -- By strong induction on the length of the rest, since what is skipped may have any length.
  -- `hstays` is the hypothesis for the branches that scan on.
  induction hn : c.rest.length using Nat.strong_induction_on generalizing c lineStart with
  | _ n ih =>
  subst hn
  obtain ⟨first, rest, hc⟩ := List.exists_cons_of_ne_nil h.ne_nil
  have hstays : StaysWithin k more o rest := by
    intro lineStart next hsuffix hmet
    refine ih _ ?_ _ next
      (h.of_suffix (hsuffix.trans (hc ▸ List.suffix_cons first rest)) (rest_ne_nil_of_isMet hmet))
      hmet rfl
    rw [hc, List.length_cons]
    exact Nat.lt_succ_of_le hsuffix.length_le
  have hc' : (c.within k more).rest = first :: (rest ++ more) := by
    rw [Cursor.within, hc, List.cons_append]
  have hone : 1 ≤ c.rest.length := by rw [hc]; exact Nat.succ_pos _
  have hadvance : (c.within k more).advance 1 = (c.advance 1).within k more := c.advance_within hone
  have hbehind : (c.advance 1).rest = rest := by
    rw [Cursor.advance, hc, List.drop_one, List.tail_cons]
  rw [lexFrom_cons o lineStart hc] at hnext ⊢
  rw [lexFrom_cons o lineStart hc', c.continuation_within h, c.advanceLine_within c.continuation_le,
    c.advanceLine_within hone]
  by_cases hcont : c.continuation ≠ 0
  · simp only [if_pos hcont] at hnext ⊢
    refine hstays _ _ ?_ hnext
    show c.rest.drop _ <:+ rest
    rw [hc, ← Nat.sub_one_add_one hcont, List.drop_succ_cons]
    exact List.drop_suffix _ _
  simp only [if_neg hcont] at hnext ⊢
  by_cases hfirst : first = '\n'
  · -- A newline is the one byte behind which the text may end.
    subst hfirst
    simp only [show Text.isBlank '\n' = false from rfl, Bool.false_eq_true, if_false,
      if_true] at hnext ⊢
    split_ifs at hnext ⊢
    · exact hstays _ _ (by rw [Cursor.advanceLine, hc, List.drop_one, List.tail_cons]) hnext
    · rw [c.token_within _ hone]
  have hwhole : IsWhole rest := (hc ▸ h).tail hfirst
  by_cases hblank : Text.isBlank first = true
  · simp only [if_pos hblank] at hnext ⊢
    exact hstays.blanks hc hwhole hnext
  simp only [if_neg hblank, if_neg hfirst] at hnext ⊢
  rw [hwhole.head?_append, hadvance, readDirective_within c _ (hbehind.symm ▸ hwhole)]
  split_ifs at hnext ⊢ with hdirective hline hopen
  · exact hstays.directive hwhole (hbehind ▸ (readDirective_reaches c _).suffix) hnext
  · exact hstays.skipLine hwhole (hbehind ▸ List.suffix_refl _) hnext
  · simp only [Bool.and_eq_true, decide_eq_true_eq] at hopen
    exact hstays.comment hc hopen.2 hnext
  · rw [readToken_within o c ho h hc hfirst]
    show _ = ((readToken o c first).shift k, _)
    rw [show ((readToken o c first).shift k).length = (readToken o c first).length from rfl,
      c.advance_within (readToken_length_le o c first)]

/-- The kinds of tokens that are neither white space, strings nor directives. -/
def textKinds : List Kind :=
  .identifier :: .unknown :: (numeralKinds ++ Kind.operators)

/-- Whether a kind is that of a string or of text without white space. -/
theorem readToken_kind (o : Options) (ho : o.ignoreKeywords = true) (c : Cursor) (first : Char) :
    (readToken o c first).kind ∈ textKinds ∨ (readToken o c first).kind = .stringLiteral
      ∧ first = '"' := by
  unfold readToken
  split
  · exact .inl (List.mem_cons_of_mem _
      (List.mem_cons_of_mem _ (List.mem_append_left _ scanNumeral_kind)))
  · split
    · exact .inl List.mem_cons_self
    · split
      · exact .inr ⟨rfl, ‹_›⟩
      · split
        · rename_i kind hkind
          obtain ⟨s, hs, rfl⟩ := Option.map_eq_some_iff.mp hkind
          obtain ⟨kind, hmem, rfl⟩ := List.mem_map.mp (List.mem_of_find?_eq_some hs)
          exact .inl (List.mem_cons_of_mem _
            (List.mem_cons_of_mem _ (List.mem_append_right _ hmem)))
        · exact .inl (List.mem_cons_of_mem _ List.mem_cons_self)

/-- The kinds of directives that are reported. -/
def directiveKinds : List Kind :=
  .hashUnknown :: directives.map (·.2)

/-- What starts with neither white space nor the `#` of a directive is of none of their kinds. -/
theorem readToken_kind_not (o : Options) (c : Cursor) (first : Char) :
    (readToken o c first).kind ≠ .eof ∧ (readToken o c first).kind ≠ .endOfLine ∧
      (readToken o c first).kind ∉ directiveKinds := by
  have htext : ∀ k ∈ .stringLiteral :: .reserved :: textKinds,
      k ≠ .eof ∧ k ≠ .endOfLine ∧ k ∉ directiveKinds := by decide
  have hkeyword :
      ∀ w ∈ keywords, w.2 ≠ .eof ∧ w.2 ≠ .endOfLine ∧ w.2 ∉ directiveKinds := by
        decide
  unfold readToken
  split
  · exact htext _
      (List.mem_cons_of_mem _
        (List.mem_cons_of_mem _ (List.mem_cons_of_mem _ (List.mem_cons_of_mem _
      (List.mem_append_left _ scanNumeral_kind)))))
  · split
    · simp only [Cursor.token]
      split
      · exact htext .identifier (by decide)
      · unfold wordKind
        split
        · rename_i kind hlookup
          obtain ⟨front, back, heq, -⟩ := List.lookup_eq_some_iff.mp hlookup
          exact hkeyword _ (heq ▸ List.mem_append_right _ List.mem_cons_self)
        · split
          · exact htext .reserved (by decide)
          · exact htext .identifier (by decide)
    · split
      · exact htext .stringLiteral (by decide)
      · split
        · rename_i kind hkind
          obtain ⟨s, hs, rfl⟩ := Option.map_eq_some_iff.mp hkind
          obtain ⟨kind, hmem, rfl⟩ := List.mem_map.mp (List.mem_of_find?_eq_some hs)
          exact htext _ (List.mem_cons_of_mem _
            (List.mem_cons_of_mem _ (List.mem_cons_of_mem _ (List.mem_cons_of_mem _
            (List.mem_append_right _ hmem)))))
        · exact htext .unknown (by decide)

/-- Whether a token lies between two places, the end of a line with its newline. -/
structure Spans (c : Cursor) (t : Token) (c' : Cursor) : Prop where
  reaches : c.Reaches c'
  start : c.offset ≤ t.offset
  stop : t.offset + t.length ≤ c'.offset
  newline : t.kind = .endOfLine → 0 < t.length ∧ c'.location.column = 1
  ended : t.kind = .eof → c'.rest = []

theorem Spans.behind {c c₁ c' : Cursor} {t : Token} (h : c.Reaches c₁) (h' : Spans c₁ t c') :
    Spans c t c' :=
  ⟨h.trans h'.reaches, h.offset_le.trans h'.start, h'.stop, h'.newline, h'.ended⟩

theorem lexFrom_spans (o : Options) (lineStart : Bool) (c : Cursor) :
    Spans c (lexFrom o lineStart c).1 (lexFrom o lineStart c).2 := by
  have hone {c : Cursor} {first : Char} {rest : List Char} (hc : c.rest = first :: rest) :
      1 ≤ c.rest.length := by
    rw [hc]
    exact Nat.succ_pos _
  have hskip (c : Cursor) : c.Reaches c.skipLine := c.reaches_skipWhile _
  have hdirective {c : Cursor} {first : Char} {rest : List Char} (hc : c.rest = first :: rest)
      {d : Directive} (hd : readDirective c (c.advance 1) = d) : c.Reaches d.next := by
    subst hd
    exact (c.reaches_advance (hone hc)).trans (readDirective_reaches c _)
  -- One case for each branch. Where something is skipped, the hypothesis is about what stands
  -- behind it, and the cursor has only advanced up to there.
  fun_induction lexFrom o lineStart c with
  | case1 lineStart c hc =>
    exact ⟨.refl c, Nat.le_refl _, by simp [Cursor.token, length, hc],
      fun hend => absurd hend Kind.noConfusion, fun _ => hc⟩
  | case2 lineStart c first rest hc hcont ih =>
    have hreach := c.reaches_advanceLine c.continuation_le
    exact ih.behind hreach
  | case3 lineStart c first rest hc hcont hblank next hskip ih =>
    have hreach :=
      (c.reaches_advance (hone hc)).trans ((c.advance 1).reaches_skipWhile Text.isBlank)
    exact ih.behind hreach
  | case4 lineStart c first rest hc hcont hblank next hskip =>
    have hreach :=
      (c.reaches_advance (hone hc)).trans ((c.advance 1).reaches_skipWhile Text.isBlank)
    refine ⟨hreach, Nat.le_refl _, ?_, fun hend => absurd hend Kind.noConfusion,
      fun hend => absurd hend Kind.noConfusion⟩
    have hlength : (c.token .space (next.offset - c.offset)).length ≤ next.offset - c.offset := by
      simp [Cursor.token, length]
    have hoffset : c.offset ≤ next.offset := hreach.offset_le
    show c.offset + (c.token .space (next.offset - c.offset)).length ≤ next.offset
    omega
  | case5 lineStart c rest hcont next hignore hc hblank ih =>
    have hreach := c.reaches_advanceLine (hone hc)
    exact ih.behind hreach
  | case6 lineStart c rest hcont next hignore hc hblank =>
    have hlength : (c.token .endOfLine 1).length = 1 := by
      rw [c.token_length, hc]
      rfl
    exact ⟨c.reaches_advanceLine (hone hc), Nat.le_refl _, by rw [hlength]; exact Nat.le_refl _,
      fun _ => ⟨by simp [hlength], rfl⟩, fun hend => absurd hend Kind.noConfusion⟩
  | case7 lineStart c first rest hc hcont hblank hfirst hhash next hd ih =>
    have hreach := (hdirective hc hd).trans (hskip next)
    exact ih.behind hreach
  | case8 lineStart c first rest hc hcont hblank hfirst hhash token next hd hignore ih =>
    have hreach := (hdirective hc hd).trans (hskip next)
    exact ih.behind hreach
  | case9 lineStart c first rest hc hcont hblank hfirst hhash token next hd hignore =>
    obtain ⟨hstart, hstop, hnewline, heof⟩ := readDirective_report c _ hd
    exact ⟨hdirective hc hd, (Nat.le_succ _).trans hstart, hstop, fun h => absurd h hnewline,
      fun h => absurd h heof⟩
  | case10 lineStart c first rest hc hcont hblank hfirst hhash hcomment ih =>
    have hreach := (c.reaches_advance (hone hc)).trans (hskip (c.advance 1))
    exact ih.behind hreach
  | case11 lineStart c first rest hc hcont hblank hfirst hhash hline hcomment inside ih =>
    have htwo : 2 ≤ c.rest.length := by
      simp only [Bool.and_eq_true, decide_eq_true_eq] at hcomment
      obtain ⟨rest', rfl⟩ := List.head?_eq_some_iff.mp hcomment.2
      rw [hc]
      exact Nat.succ_le_succ (Nat.succ_pos _)
    have hreach :=
      (c.reaches_advance htwo).trans (Cursor.reaches_skipComment inside.rest inside.offset
        inside.location)
    exact ih.behind hreach
  | case12 lineStart c first rest hc hcont hblank hfirst hhash hline hcomment token =>
    have hkind := readToken_kind_not o c first
    refine ⟨c.reaches_advance (readToken_length_le o c first), ?_, ?_, fun hnewline => ?_,
      fun heof => ?_⟩
    · exact (readToken_offset o c first).ge
    · exact (congrArg (· + token.length) (readToken_offset o c first)).le
    · exact absurd hnewline hkind.2.1
    · exact absurd heof hkind.1

end ShaderEffect.Token

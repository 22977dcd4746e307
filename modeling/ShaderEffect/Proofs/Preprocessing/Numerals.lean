import Mathlib
import ShaderEffect.Token.Lexer

namespace ShaderEffect.Token

/-- Whether a text ends with a byte at which something stops. -/
def EndsIn (stop : Char → Bool) (cs : List Char) : Prop :=
  ∃ x, cs.getLast? = some x ∧ stop x = true

variable {stop p : Char → Bool} {c : Char} {cs ds more : List Char}

namespace EndsIn

theorem of_suffix (h : EndsIn stop cs) (hds : ds <:+ cs) (hne : ds ≠ []) : EndsIn stop ds := by
  obtain ⟨front, rfl⟩ := hds
  obtain ⟨x, hlast, hx⟩ := h
  exact ⟨x, by rw [← hlast, List.getLast?_append_of_ne_nil _ hne], hx⟩

theorem ne_nil (h : EndsIn stop cs) : cs ≠ [] := by
  obtain ⟨x, hlast, -⟩ := h
  rintro rfl
  cases hlast

/-- Behind a byte at which nothing stops the text goes on. -/
theorem tail (h : EndsIn stop (c :: cs)) (hc : stop c = false) : EndsIn stop cs := by
  refine h.of_suffix (List.suffix_cons c cs) ?_
  rintro rfl
  obtain ⟨x, hlast, hx⟩ := h
  obtain rfl : c = x := Option.some.inj hlast
  rw [hx] at hc
  cases hc

theorem takeWhile_append (h : EndsIn stop cs) (hp : ∀ x, stop x = true → p x = false) :
    (cs ++ more).takeWhile p = cs.takeWhile p := by
  obtain ⟨x, hlast, hx⟩ := h
  rw [List.takeWhile_append, if_neg]
  intro hlength
  have hall := List.takeWhile_prefix p |>.eq_of_length hlength
  have := List.mem_takeWhile_imp (hall.symm ▸ List.mem_of_getLast? hlast : x ∈ cs.takeWhile p)
  rw [hp x hx] at this
  cases this

theorem dropWhile (h : EndsIn stop cs) (hp : ∀ x, stop x = true → p x = false) :
    EndsIn stop (cs.dropWhile p) := by
  refine h.of_suffix (List.dropWhile_suffix p) fun hnil => ?_
  obtain ⟨x, hlast, hx⟩ := h
  have := List.dropWhile_eq_nil_iff.mp hnil x (List.mem_of_getLast? hlast)
  rw [hp x hx] at this
  cases this

theorem dropWhile_append (h : EndsIn stop cs) (hp : ∀ x, stop x = true → p x = false) :
    (cs ++ more).dropWhile p = cs.dropWhile p ++ more := by
  have hne := (h.dropWhile hp).ne_nil
  rw [List.dropWhile_append, if_neg (by simpa using hne)]

theorem head?_append (h : EndsIn stop cs) : (cs ++ more).head? = cs.head? := by
  rw [List.head?_append_of_ne_nil _ h.ne_nil]

/-- A word without such bytes is at the front of a text or not, whatever follows the text. -/
theorem isPrefixOf_append (h : EndsIn stop cs) (hds : ∀ x ∈ ds, stop x = false) :
    ds.isPrefixOf (cs ++ more) = ds.isPrefixOf cs := by
  obtain ⟨x, hlast, hx⟩ := h
  rw [Bool.eq_iff_iff, List.isPrefixOf_iff_prefix, List.isPrefixOf_iff_prefix]
  refine ⟨fun hprefix => ?_, fun hprefix => hprefix.trans (List.prefix_append cs more)⟩
  obtain hprefix' | hprefix' := List.prefix_or_prefix_of_prefix hprefix (List.prefix_append cs more)
  · exact hprefix'
  · have := hds x (hprefix'.subset (List.mem_of_getLast? hlast))
    rw [hx] at this
    cases this

end EndsIn

theorem drop_length_takeWhile : cs.drop (cs.takeWhile p).length = cs.dropWhile p := by
  induction cs with
  | nil => rfl
  | cons c cs ih => by_cases hp : p c <;> simp [hp, ih]

theorem length_takeWhile_le : (cs.takeWhile p).length ≤ cs.length :=
  (List.takeWhile_prefix p).length_le

theorem length_takeWhile_add_dropWhile (cs : List Char) (p : Char → Bool) :
    (cs.takeWhile p).length + (cs.dropWhile p).length = cs.length := by
  rw [← List.length_append, List.takeWhile_append_dropWhile]

/-- White space, which is never a part of a numeral. -/
def isSeparator (c : Char) : Bool :=
  c = '\n' || Text.isBlank c

theorem isDigit_of_isSeparator (x : Char) (h : isSeparator x = true) : Text.isDigit x = false := by
  simp only [isSeparator, Text.isBlank, Bool.or_eq_true, decide_eq_true_eq] at h
  obtain rfl | ((((rfl | rfl) | rfl) | rfl) | rfl) := h <;> decide

theorem isHexDigit_of_isSeparator (x : Char) (h : isSeparator x = true) :
    Text.isHexDigit x = false := by
  simp only [isSeparator, Text.isBlank, Bool.or_eq_true, decide_eq_true_eq] at h
  obtain rfl | ((((rfl | rfl) | rfl) | rfl) | rfl) := h <;> decide

/-- The digits of a numeral in front of more text. -/
def NumeralDigits.before (d : NumeralDigits) (more : List Char) : NumeralDigits :=
  { d with rest := d.rest ++ more }

/-- Whether a byte is a digit below a radix of at most ten. -/
def isRadixDigit (radix : Nat) (c : Char) : Bool :=
  Text.isDigit c && Text.hexValue c < radix

/-- The digits of a numeral without a radix mark. -/
def plainDigits (radix : Nat) (cs : List Char) : NumeralDigits :=
  match cs.dropWhile (isRadixDigit radix) with
  | '.' :: more =>
    ⟨10, 0, cs.takeWhile (isRadixDigit radix) ++ '.' :: more.takeWhile Text.isDigit, true,
      more.dropWhile Text.isDigit⟩
  | rest => ⟨radix, 0, cs.takeWhile (isRadixDigit radix), false, rest⟩

/-- The digits and what follows them are the whole text. -/
theorem plainDigits_length (radix : Nat) (cs : List Char) :
    (plainDigits radix cs).lead + (plainDigits radix cs).digits.length
      + (plainDigits radix cs).rest.length = cs.length := by
  have hlength := length_takeWhile_add_dropWhile cs (isRadixDigit radix)
  unfold plainDigits
  split
  · rename_i more hmore
    have := length_takeWhile_add_dropWhile more Text.isDigit
    simp only [hmore, List.length_cons, List.length_append] at hlength ⊢
    omega
  · simpa using hlength

theorem plainDigits_append (radix : Nat) (h : EndsIn isSeparator cs) :
    plainDigits radix (cs ++ more) = (plainDigits radix cs).before more
      ∧ EndsIn isSeparator (plainDigits radix cs).rest := by
  have hdigit := isDigit_of_isSeparator
  have hradix (x : Char) (hx : isSeparator x = true) : isRadixDigit radix x = false := by
    rw [isRadixDigit, hdigit x hx, Bool.false_and]
  have hrest := h.dropWhile hradix
  simp only [plainDigits, h.takeWhile_append hradix, h.dropWhile_append hradix]
  generalize cs.takeWhile _ = digits at *
  generalize cs.dropWhile _ = rest at *
  cases rest with
  | nil => exact absurd rfl hrest.ne_nil
  | cons d rest =>
    by_cases hd : d = '.'
    · subst hd
      have hwhole := hrest.tail (by decide)
      refine ⟨?_, hwhole.dropWhile hdigit⟩
      simp only [List.cons_append, hwhole.takeWhile_append hdigit, hwhole.dropWhile_append hdigit,
        NumeralDigits.before]
    · simp only [List.cons_append]
      split
      · simp_all
      · split
        · simp_all
        · exact ⟨rfl, hrest⟩

/-- Whether a numeral starts with the mark of hexadecimal digits. -/
def isHexMarked (cs : List Char) : Bool :=
  cs.head? = some '0' && (cs[1]? = some 'x' || cs[1]? = some 'X')

theorem exists_of_isHexMarked (h : isHexMarked cs) :
    ∃ x rest, cs = '0' :: x :: rest ∧ (x = 'x' ∨ x = 'X') := by
  simp only [isHexMarked, Bool.and_eq_true, decide_eq_true_eq, Bool.or_eq_true] at h
  obtain ⟨hzero, hx⟩ := h
  obtain ⟨rest, rfl⟩ := List.head?_eq_some_iff.mp hzero
  cases rest with
  | nil => simp at hx
  | cons x rest => exact ⟨x, rest, rfl, by simpa using hx⟩

theorem numeralDigits_of_hex {x : Char} (hx : x = 'x' ∨ x = 'X') :
    numeralDigits ('0' :: x :: cs)
      = ⟨16, 2, cs.takeWhile Text.isHexDigit, false, cs.dropWhile Text.isHexDigit⟩ := by
  simp only [numeralDigits, Bool.or_eq_true, decide_eq_true_eq, if_pos hx]

theorem numeralDigits_of_plain (h : isHexMarked cs = false) :
    numeralDigits cs = plainDigits (if cs.head? = some '0' then 8 else 10) cs := by
  unfold numeralDigits
  split
  · rw [if_neg (by simpa [isHexMarked] using h)]
    rfl
  · rfl
  · rw [if_neg]
    · rfl
    · intro hzero
      obtain ⟨rest, rfl⟩ := List.head?_eq_some_iff.mp hzero
      cases rest <;> simp_all

theorem isHexMarked_append (h : EndsIn isSeparator cs) :
    isHexMarked (cs ++ more) = isHexMarked cs := by
  unfold isHexMarked
  rw [h.head?_append]
  by_cases hzero : cs.head? = some '0'
  · obtain ⟨rest, rfl⟩ := List.head?_eq_some_iff.mp hzero
    have hrest : (rest ++ more).head? = rest.head? := (h.tail (by decide)).head?_append
    simp only [List.cons_append, List.getElem?_cons_succ, ← List.head?_eq_getElem?, hrest]
  · simp only [hzero, decide_false, Bool.false_and]

theorem numeralDigits_length (cs : List Char) :
    (numeralDigits cs).lead + (numeralDigits cs).digits.length + (numeralDigits cs).rest.length
      = cs.length := by
  cases hmark : isHexMarked cs with
  | false => rw [numeralDigits_of_plain hmark, plainDigits_length]
  | true =>
    obtain ⟨x, rest, rfl, hx⟩ := exists_of_isHexMarked hmark
    have := length_takeWhile_add_dropWhile rest Text.isHexDigit
    rw [numeralDigits_of_hex hx]
    simp only [List.length_cons]
    omega

theorem numeralDigits_append (more : List Char) (h : EndsIn isSeparator cs) :
    numeralDigits (cs ++ more) = (numeralDigits cs).before more
      ∧ EndsIn isSeparator (numeralDigits cs).rest := by
  have hdigit := isHexDigit_of_isSeparator
  cases hmark : isHexMarked cs with
  | false =>
    rw [numeralDigits_of_plain (by rw [isHexMarked_append h, hmark]), numeralDigits_of_plain hmark,
      h.head?_append]
    exact plainDigits_append _ h
  | true =>
    obtain ⟨x, rest, rfl, hx⟩ := exists_of_isHexMarked hmark
    have hrest : EndsIn isSeparator rest :=
      (h.tail (by decide)).tail (by obtain rfl | rfl := hx <;> decide)
    rw [List.cons_append, List.cons_append, numeralDigits_of_hex hx, numeralDigits_of_hex hx]
    refine ⟨?_, hrest.dropWhile hdigit⟩
    simp only [hrest.takeWhile_append hdigit, hrest.dropWhile_append hdigit, NumeralDigits.before]

/-- The sign in front of a power, and what follows it. -/
def signOf (cs : List Char) : List Char × List Char :=
  match cs with
  | '-' :: p => (['-'], p)
  | '+' :: p => (['+'], p)
  | p => ([], p)

theorem signOf_length (cs : List Char) :
    (signOf cs).1.length + (signOf cs).2.length = cs.length := by
  unfold signOf
  split
  · exact Nat.add_comm 1 _
  · exact Nat.add_comm 1 _
  · exact Nat.zero_add _

theorem signOf_append (more : List Char) (h : EndsIn isSeparator cs) :
    signOf (cs ++ more) = ((signOf cs).1, (signOf cs).2 ++ more)
      ∧ EndsIn isSeparator (signOf cs).2 := by
  cases cs with
  | nil => exact absurd rfl h.ne_nil
  | cons c rest =>
    by_cases hminus : c = '-'
    · subst hminus
      exact ⟨rfl, h.tail (by decide)⟩
    · by_cases hplus : c = '+'
      · subst hplus
        exact ⟨rfl, h.tail (by decide)⟩
      · have hsign (tail : List Char) : signOf (c :: tail) = ([], c :: tail) := by
          unfold signOf
          split <;> simp_all
        rw [List.cons_append, hsign, hsign]
        exact ⟨rfl, h⟩

theorem exponent?_cons (e : Char) (rest : List Char) : exponent? (e :: rest) =
    if e = 'e' || e = 'E' then
      let digits := (signOf rest).2.takeWhile Text.isDigit
      if digits.isEmpty then none
      else some ((signOf rest).1 ++ digits, (signOf rest).2.dropWhile Text.isDigit)
    else none := rfl

theorem exponent?_length {e : List Char × List Char} (h : exponent? cs = some e) :
    1 + e.1.length + e.2.length = cs.length := by
  cases cs with
  | nil => cases h
  | cons c rest =>
    have hsign := signOf_length rest
    have := length_takeWhile_add_dropWhile (signOf rest).2 Text.isDigit
    rw [exponent?_cons] at h
    split at h
    · simp only at h
      split at h
      · cases h
      · cases h
        simp only [List.length_append, List.length_cons]
        omega
    · cases h

theorem exponent?_append (more : List Char) (h : EndsIn isSeparator cs) :
    exponent? (cs ++ more) = (exponent? cs).map (fun e => (e.1, e.2 ++ more)) ∧
      ∀ e ∈ exponent? cs, EndsIn isSeparator e.2 := by
  have hdigit := isDigit_of_isSeparator
  cases cs with
  | nil => exact absurd rfl h.ne_nil
  | cons e rest =>
    rw [List.cons_append, exponent?_cons, exponent?_cons]
    split
    · rename_i he
      have hrest : EndsIn isSeparator rest := h.tail (by
      simp only [Bool.or_eq_true, decide_eq_true_eq] at he
      obtain rfl | rfl := he <;> decide)
      obtain ⟨hsign, hwhole⟩ := signOf_append more hrest
      simp only [hsign, hwhole.takeWhile_append hdigit, hwhole.dropWhile_append hdigit]
      split
      · exact ⟨rfl, by simp⟩
      · refine ⟨rfl, fun e he => ?_⟩
        obtain rfl := Option.some.inj he
        exact hwhole.dropWhile hdigit
    · exact ⟨rfl, by simp⟩

/-- The kind and length of a numeral with the suffix that may follow it. -/
def suffixed (kind : Kind) (length : Nat) (rest : List Char) : Kind × Nat :=
  match rest with
  | [] => (kind, length)
  | s :: _ =>
    if s = 'f' || s = 'F' then (Kind.floatLiteral, length + 1)
    else if s = 'l' || s = 'L' then (Kind.doubleLiteral, length + 1)
    else if (s = 'u' || s = 'U') && kind = Kind.intLiteral then (Kind.uintLiteral, length + 1)
    else (kind, length)

theorem suffixed_length_le (kind : Kind) (n : Nat) (rest : List Char) :
    (suffixed kind n rest).2 ≤ n + rest.length := by
  unfold suffixed
  split
  · exact Nat.le_add_right _ _
  · simp only [List.length_cons]
    split_ifs <;> simp only <;> omega

theorem suffixed_append (more : List Char) {kind : Kind} {n : Nat} (h : EndsIn isSeparator cs) :
    suffixed kind n (cs ++ more) = suffixed kind n cs
      ∧ (suffixed kind n cs).2 < n + cs.length := by
  cases cs with
  | nil => exact absurd rfl h.ne_nil
  | cons c rest =>
    refine ⟨rfl, ?_⟩
    simp only [suffixed, List.length_cons]
    cases hc : isSeparator c with
    | true =>
      simp only [isSeparator, Text.isBlank, Bool.or_eq_true, decide_eq_true_eq] at hc
      obtain rfl | ((((rfl | rfl) | rfl) | rfl) | rfl) := hc <;> simp
    | false =>
      -- Behind a suffix the text goes on.
      have hrest : 0 < rest.length := List.length_pos_of_ne_nil (h.tail hc).ne_nil
      split_ifs <;> simp only <;> omega

/-- The kind and length of a numeral. -/
def numeralEnd (d : NumeralDigits) (power : Option (List Char × List Char)) : Kind × Nat :=
  power.elim (suffixed (if d.isFloat then .floatLiteral else .intLiteral) (d.lead + d.digits.length)
    d.rest) fun e => suffixed .floatLiteral (d.lead + d.digits.length + 1 + e.1.length) e.2

/-- A numeral from its digits and its power. -/
def numeral (d : NumeralDigits) (power : Option (List Char × List Char)) : Numeral :=
  let s := numeralEnd d power
  if s.1 = Kind.floatLiteral || s.1 = Kind.doubleLiteral then
    { kind := s.1, length := s.2, double := floatValue d.digits (power.elim [] fun e => e.1) }
  else
    { kind := s.1, length := s.2, word := UInt32.ofNat (Text.digitsValue d.radix d.digits) }

theorem scanNumeral_eq : scanNumeral cs =
    numeral (numeralDigits cs)
      (if (numeralDigits cs).radix = 10 then exponent? (numeralDigits cs).rest else none) := by
  unfold scanNumeral
  simp only
  cases (if (numeralDigits cs).radix = 10 then exponent? (numeralDigits cs).rest else none) <;> rfl

theorem numeral_kind (d : NumeralDigits) (power : Option (List Char × List Char)) :
    (numeral d power).kind = (numeralEnd d power).1 := by
  unfold numeral
  generalize numeralEnd d power = s
  simp only
  split <;> rfl

theorem numeral_length (d : NumeralDigits) (power : Option (List Char × List Char)) :
    (numeral d power).length = (numeralEnd d power).2 := by
  unfold numeral
  generalize numeralEnd d power = s
  simp only
  split <;> rfl

theorem numeral_append {d : NumeralDigits} (power : Option (List Char × List Char))
    (hd : EndsIn isSeparator d.rest) (hpower : ∀ e ∈ power, EndsIn isSeparator e.2) :
    numeral (d.before more) (power.map fun e => (e.1, e.2 ++ more)) = numeral d power := by
  have hend : numeralEnd (d.before more) (power.map fun e => (e.1, e.2 ++ more))
      = numeralEnd d power := by
    cases power with
    | none => exact (suffixed_append _ hd).1
    | some e => exact (suffixed_append _ (hpower e rfl)).1
  unfold numeral
  rw [hend]
  cases power <;> rfl

/-- No numeral reaches over the end of its text. -/
theorem scanNumeral_length_le (cs : List Char) : (scanNumeral cs).length ≤ cs.length := by
  have hlength := numeralDigits_length cs
  rw [scanNumeral_eq, numeral_length]
  generalize hpower : (if (numeralDigits cs).radix = 10 then exponent? (numeralDigits cs).rest
    else none) = power
  cases power with
  | none => exact (suffixed_length_le ..).trans_eq hlength
  | some e =>
    have hexp : exponent? (numeralDigits cs).rest = some e :=
      (Option.ite_none_right_eq_some.mp hpower).2
    have := exponent?_length hexp
    refine (suffixed_length_le ..).trans ?_
    omega

theorem scanNumeral_append (more : List Char) (h : EndsIn isSeparator cs) :
    scanNumeral (cs ++ more) = scanNumeral cs ∧ (scanNumeral cs).length < cs.length := by
  have hlength := numeralDigits_length cs
  obtain ⟨hdigits, hrest⟩ := numeralDigits_append more h
  obtain ⟨hexp, hpower⟩ := exponent?_append more hrest
  rw [scanNumeral_eq, scanNumeral_eq, hdigits]
  simp only [show ((numeralDigits cs).before more).radix = (numeralDigits cs).radix from rfl,
    show ((numeralDigits cs).before more).rest = (numeralDigits cs).rest ++ more from rfl, hexp]
  split
  · refine ⟨numeral_append _ hrest hpower, ?_⟩
    rw [numeral_length]
    cases he : exponent? (numeralDigits cs).rest with
    | none => exact (suffixed_append more hrest).2.trans_eq hlength
    | some e =>
      have hsum := exponent?_length he
      refine (suffixed_append more (hpower e he)).2.trans_eq ?_
      omega
  · refine ⟨numeral_append none hrest (by simp), ?_⟩
    rw [numeral_length]
    exact (suffixed_append more hrest).2.trans_eq hlength

/-- The kinds of numerals. -/
def numeralKinds : List Kind :=
  [.intLiteral, .uintLiteral, .floatLiteral, .doubleLiteral]

theorem suffixed_kind {kind : Kind} {n : Nat} (h : kind ∈ numeralKinds) :
    (suffixed kind n cs).1 ∈ numeralKinds := by
  have hfloat : Kind.floatLiteral ∈ numeralKinds ∧ Kind.doubleLiteral ∈ numeralKinds ∧
    Kind.uintLiteral ∈ numeralKinds := by decide
  unfold suffixed
  split
  · exact h
  · split_ifs
    · exact hfloat.1
    · exact hfloat.2.1
    · exact hfloat.2.2
    · exact h

theorem scanNumeral_kind : (scanNumeral cs).kind ∈ numeralKinds := by
  have hend (d : NumeralDigits) (power : Option (List Char × List Char)) :
      (numeralEnd d power).1 ∈ numeralKinds := by
    cases power with
    | none =>
      refine suffixed_kind ?_
      split <;> decide
    | some e => exact suffixed_kind (by decide)
  rw [scanNumeral_eq, numeral_kind]
  exact hend _ _

end ShaderEffect.Token

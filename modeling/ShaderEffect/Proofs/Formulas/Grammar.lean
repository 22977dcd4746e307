import ShaderEffect.Proofs.Computation
import ShaderEffect.Proofs.Folding.Operators

namespace ShaderEffect

/-- The operators between two integers. -/
inductive Joint where
  | mul | div | rem | add | sub | shiftLeft | shiftRight | bitAnd | bitXor | bitOr
deriving DecidableEq, Repr

/-- The operators in front of an integer. -/
inductive Sign where
  | plus | minus | complement
deriving DecidableEq, Repr

namespace Joint

/-- How an operator is written. -/
def kind : Joint → Token.Kind
  | mul => .star | div => .slash | rem => .percent
  | add => .plus | sub => .minus
  | shiftLeft => .lessLess | shiftRight => .greaterGreater
  | bitAnd => .ampersand | bitXor => .caret | bitOr => .pipe

/-- The level of an operator in C, the one that binds most tightly being the highest. Equality and
order stand between shifts and the operators on bits. -/
def level : Joint → Nat
  | mul | div | rem => 8
  | add | sub => 7
  | shiftLeft | shiftRight => 6
  | bitAnd => 3
  | bitXor => 2
  | bitOr => 1

end Joint

/-- How an operator in front is written. -/
def Sign.kind : Sign → Token.Kind
  | plus => .plus | minus => .minus | complement => .tilde

/-- The integer in 32 bits of two's complement that another one wraps around to. -/
def wrap (n : Int) : Int :=
  n.bmod (2 ^ 32)

/-- What an operator does to integers in 32 bits. Division truncates and has no value for a divisor
of zero, counts of shifts are taken modulo 32, and a shift to the right keeps the sign. -/
def Joint.apply? : Joint → Int → Int → Option Int
  | mul, x, y => some (wrap (x * y))
  | div, x, y => if y = 0 then none else some (wrap (x.tdiv y))
  | rem, x, y => if y = 0 then none else some (wrap (x.tmod y))
  | add, x, y => some (wrap (x + y))
  | sub, x, y => some (wrap (x - y))
  | shiftLeft, x, y => some (wrap (x * 2 ^ (y % 32).toNat))
  | shiftRight, x, y => some (x / 2 ^ (y % 32).toNat)
  | bitAnd, x, y => some (BitVec.ofInt 32 x &&& BitVec.ofInt 32 y).toInt
  | bitXor, x, y => some (BitVec.ofInt 32 x ^^^ BitVec.ofInt 32 y).toInt
  | bitOr, x, y => some (BitVec.ofInt 32 x ||| BitVec.ofInt 32 y).toInt

def Sign.apply : Sign → Int → Int
  | plus, x => x
  | minus, x => wrap (-x)
  | complement, x => -x - 1

/-- An expression made of integer literals, parentheses and operators. -/
inductive Formula where
  | literal (word : UInt32)
  | paren (e : Formula)
  | sign (s : Sign) (e : Formula)
  | binary (op : Joint) (l r : Formula)
deriving Repr

namespace Formula

/-- The value of a formula, if it divides by zero nowhere. -/
def value? : Formula → Option Int
  | literal word => some (Spirv.signed word)
  | paren e => e.value?
  | sign s e => e.value?.map s.apply
  | binary op l r => do op.apply? (← l.value?) (← r.value?)

/-- Whether tokens spell a formula. -/
inductive Spells : Formula → List Token → Prop where
  | literal {t : Token} (ht : t.kind = .intLiteral) : Spells (literal t.word) [t]
  | paren {e : Formula} {before after : Token} {ts : List Token}
      (hbefore : before.kind = .parenOpen) (hafter : after.kind = .parenClose)
      (h : Spells e ts) : Spells (paren e) (before :: (ts ++ [after]))
  | sign {s : Sign} {e : Formula} {t : Token} {ts : List Token} (ht : t.kind = s.kind)
      (h : Spells e ts) : Spells (sign s e) (t :: ts)
  | binary {op : Joint} {l r : Formula} {t : Token} {ls rs : List Token} (ht : t.kind = op.kind)
      (hl : Spells l ls) (hr : Spells r rs) : Spells (binary op l r) (ls ++ t :: rs)

/-- The level of the operator that is applied last. Those in front of an operand
bind most tightly. -/
def level : Formula → Nat
  | binary op _ _ => op.level
  | _ => 9

/-- Whether a formula is grouped as in C: operators of a higher level are applied first, and those
of the same level from the left to the right. -/
def Grouped : Formula → Prop
  | literal _ => True
  | paren e => e.Grouped
  | sign _ e => e.Grouped ∧ e.level = 9
  | binary op l r => l.Grouped ∧ r.Grouped ∧ op.level ≤ l.level ∧ op.level < r.level

theorem level_lt (op : Joint) : op.level < 9 := by
  cases op <;> decide

/-- Puts a sign in front of the first operand. -/
def signFirst (s : Sign) : Formula → Formula
  | binary op l r => binary op (l.signFirst s) r
  | e => sign s e

/-- Appends an operator with an operand. It goes into the right operand of an operator that
binds less tightly. -/
def append (op : Joint) (x : Formula) : Formula → Formula
  | binary op' l r =>
    if op'.level < op.level then binary op' l (append op x r) else binary op (binary op' l r) x
  | e => binary op e x

/-- Joins formulas by an operator, operand by operand of the second. -/
def join (e : Formula) (op : Joint) : Formula → Formula
  | binary op' l r => join (join e op l) op' r
  | x => append op x e

variable {s : Sign} {op : Joint} {e x l r : Formula} {t : Token} {ts ls rs : List Token}

theorem grouped_signFirst (h : e.Grouped) :
    (e.signFirst s).Grouped ∧ (e.signFirst s).level = e.level := by
  induction e with
  | literal word => exact ⟨⟨h, rfl⟩, rfl⟩
  | paren e => exact ⟨⟨h, rfl⟩, rfl⟩
  | sign s' e => exact ⟨⟨h, rfl⟩, rfl⟩
  | binary op l r ihl ihr =>
    obtain ⟨hl, hr, hlevel, hlevel'⟩ := h
    obtain ⟨hsigned, heq⟩ := ihl hl
    exact ⟨⟨hsigned, hr, heq ▸ hlevel, hlevel'⟩, rfl⟩

theorem Spells.signFirst (ht : t.kind = s.kind) (h : e.Spells ts) :
    (e.signFirst s).Spells (t :: ts) := by
  induction h with
  | literal hkind => exact .sign ht (.literal hkind)
  | paren hbefore hafter h => exact .sign ht (.paren hbefore hafter h)
  | sign hkind h => exact .sign ht (.sign hkind h)
  | binary hkind hl hr ihl => exact .binary hkind ihl hr

theorem grouped_last (he : e.Grouped) (hx : x.Grouped) (hlevel : x.level = 9)
    (hle : op.level ≤ e.level) :
    (binary op e x).Grouped ∧ (binary op e x).level = min e.level op.level := by
  refine ⟨⟨he, hx, hle, hlevel ▸ level_lt op⟩, ?_⟩
  rw [level, Nat.min_eq_right hle]

theorem grouped_append (he : e.Grouped) (hx : x.Grouped) (hlevel : x.level = 9) :
    (append op x e).Grouped ∧ (append op x e).level = min e.level op.level := by
  have hop : op.level ≤ 9 := (level_lt op).le
  induction e with
  | literal word => exact grouped_last he hx hlevel hop
  | paren e => exact grouped_last he hx hlevel hop
  | sign s e => exact grouped_last he hx hlevel hop
  | binary op' l r ihl ihr =>
    rw [append]
    split
    · -- The operand belongs to the operators on the right that bind more tightly.
      rename_i hlt
      obtain ⟨hl, hr, hleft, hright⟩ := he
      obtain ⟨hgrouped, hlast⟩ := ihr hr
      refine ⟨⟨hl, hgrouped, hleft, ?_⟩, ?_⟩
      · rw [hlast]
        exact Nat.lt_min.mpr ⟨hright, hlt⟩
      · exact (Nat.min_eq_left hlt.le).symm
    · rename_i hle
      exact grouped_last he hx hlevel (Nat.not_lt.mp hle)

theorem Spells.append (ht : t.kind = op.kind) (he : e.Spells ls) (hx : x.Spells rs) :
    (append op x e).Spells (ls ++ t :: rs) := by
  induction he with
  | literal hkind => exact .binary ht (.literal hkind) hx
  | paren hbefore hafter h => exact .binary ht (.paren hbefore hafter h) hx
  | sign hkind h => exact .binary ht (.sign hkind h) hx
  | binary hkind hl hr ihl ihr =>
    rw [Formula.append]
    split
    · rw [List.append_assoc, List.cons_append]
      exact .binary hkind hl ihr
    · exact .binary ht (.binary hkind hl hr) hx

theorem grouped_join (he : e.Grouped) (hx : x.Grouped) : (e.join op x).Grouped := by
  induction x generalizing e op with
  | literal word => exact (grouped_append he hx rfl).1
  | paren x => exact (grouped_append he hx rfl).1
  | sign s x => exact (grouped_append he hx rfl).1
  | binary op' l r ihl ihr =>
    obtain ⟨hl, hr, -, -⟩ := hx
    exact ihr (ihl he hl) hr

theorem Spells.join (ht : t.kind = op.kind) (he : e.Spells ls) (hx : x.Spells rs) :
    (e.join op x).Spells (ls ++ t :: rs) := by
  induction hx generalizing e op ls t with
  | literal hkind => exact he.append ht (.literal hkind)
  | paren hbefore hafter h => exact he.append ht (.paren hbefore hafter h)
  | sign hkind h => exact he.append ht (.sign hkind h)
  | binary hkind hl hr ihl ihr =>
    have hleft := ihl ht he
    have hboth := ihr hkind hleft
    rwa [List.append_assoc, List.cons_append] at hboth

/-- However a formula is put together, its tokens spell one that is grouped as in C. -/
theorem Spells.exists_grouped (h : e.Spells ts) : ∃ g : Formula, g.Grouped ∧ g.Spells ts := by
  induction h with
  | literal ht => exact ⟨Formula.literal _, trivial, .literal ht⟩
  | paren hbefore hafter h ih =>
    obtain ⟨g, hgrouped, hspells⟩ := ih
    exact ⟨g.paren, hgrouped, .paren hbefore hafter hspells⟩
  | sign ht h ih =>
    obtain ⟨g, hgrouped, hspells⟩ := ih
    exact ⟨g.signFirst _, (grouped_signFirst hgrouped).1, hspells.signFirst ht⟩
  | binary ht hl hr ihl ihr =>
    obtain ⟨g, hgrouped, hspells⟩ := ihl
    obtain ⟨g', hgrouped', hspells'⟩ := ihr
    exact ⟨g.join _ g', grouped_join hgrouped hgrouped', hspells.join ht hspells'⟩

end Formula

open Spirv (signed)

/-- The type of integer literals. -/
abbrev integer : Ty :=
  (Ty.scalar .int).readOnly

section Words

variable {x y : UInt32}

theorem signed_ofInt (n : Int) : signed (.ofInt n) = wrap n := by
  have hbits : signed ⟨BitVec.ofInt 32 n⟩ = n.bmod (2 ^ 32) := BitVec.toInt_ofInt n
  rw [Spirv.ofInt_eq_of_signed hbits, hbits, wrap]

theorem signed_ofNat (n : Nat) : signed (.ofNat n) = wrap n :=
  BitVec.toInt_ofNat n

theorem signed_eq (x : UInt32) : signed x = wrap x.toNat :=
  BitVec.toInt_eq_toNat_bmod x.toBitVec

theorem ofInt_signed (x : UInt32) : BitVec.ofInt 32 (signed x) = x.toBitVec :=
  BitVec.ofInt_toInt

/-- The count of a shift is the same in two's complement. -/
theorem signed_emod_count (y : UInt32) : (signed y % 32).toNat = y.toNat % 32 := by
  -- 32 divides the modulus, so that it does not matter whether the count was wrapped.
  have hmod : signed y % 32 = (y.toNat : Int) % 32 := by
    have hdvd : (32 : Int) ∣ ((2 ^ 32 : Nat) : Int) := by decide
    rw [signed_eq, wrap, ← Int.emod_emod_of_dvd _ hdvd, Int.bmod_emod,
      Int.emod_emod_of_dvd _ hdvd]
  rw [hmod]
  omega

theorem signed_eq_zero : signed y = 0 ↔ y = 0 := by
  rw [signed, ← BitVec.toInt_zero (w := 32), BitVec.toInt_inj]
  exact UInt32.toBitVec_inj

end Words

namespace Joint

/-- The operator that is read. -/
def operator : Joint → BinaryOp
  | mul => .mul | div => .div | rem => .rem
  | add => .add | sub => .sub
  | shiftLeft => .shiftLeft | shiftRight => .shiftRight
  | bitAnd => .bitAnd | bitXor => .bitXor | bitOr => .bitOr

/-- Every operator on words does to them what it does to integers. -/
theorem apply?_signed (op : Joint) (x y : UInt32) :
    op.apply? (signed x) (signed y) =
      if (op.operator = .div ∨ op.operator = .rem) ∧ y = 0 then none
      else some (signed (Constant.binaryLane op.operator integer x y)) := by
  have hdivides {q : BinaryOp} (hq : q = .div ∨ q = .rem) {n : Int} {z : UInt32}
      (hz : signed z = wrap n) :
      (if signed y = 0 then none else some (wrap n))
        = if (q = .div ∨ q = .rem) ∧ y = 0 then none else some (signed z) := by
    simp only [signed_eq_zero, hq, true_and, hz]
  -- Integers wrap where words do, operator by operator. Only shifts read their right operand in
  -- another way: as a count below 32.
  cases op with
  | mul => exact congrArg some (BitVec.toInt_mul x.toBitVec y.toBitVec).symm
  | div =>
    have hlane : Constant.binaryLane .div integer x y = (x.toInt32 / y.toInt32).toUInt32 := rfl
    refine hdivides (.inl rfl) ?_
    rw [operator, hlane, ← Spirv.ofInt_tdiv, signed_ofInt]
  | rem =>
    have hlane : Constant.binaryLane .rem integer x y = (x.toInt32 % y.toInt32).toUInt32 := rfl
    refine hdivides (.inr rfl) ?_
    rw [operator, hlane, ← Spirv.ofInt_tmod, signed_ofInt]
  | add => exact congrArg some (BitVec.toInt_add x.toBitVec y.toBitVec).symm
  | sub => exact congrArg some BitVec.toInt_sub.symm
  | shiftLeft =>
    have hword : signed (x <<< (y &&& 31)) = wrap (signed x * 2 ^ (y.toNat % 32)) := by
      rw [← Spirv.ofNat_shiftLeft, signed_ofNat, signed_eq, wrap, wrap, wrap, Int.bmod_mul_bmod]
      norm_cast
    show some (wrap (signed x * 2 ^ (signed y % 32).toNat)) = some (signed (x <<< (y &&& 31)))
    rw [signed_emod_count, hword]
  | shiftRight =>
    have hword : signed (x.toInt32 >>> (y &&& 31).toInt32).toUInt32
        = signed x / 2 ^ (y.toNat % 32) := by
      have hshift : (x.toBitVec.sshiftRight (y.toNat % 32)).toInt
          = signed x / 2 ^ (y.toNat % 32) := by
        rw [BitVec.toInt_sshiftRight, Int.shiftRight_eq_div_pow, signed]
        norm_cast
      rw [← Spirv.ofInt_shiftRight, signed_ofInt, ← hshift]
      exact BitVec.toInt_bmod_cancel _
    show some (signed x / 2 ^ (signed y % 32).toNat)
      = some (signed (x.toInt32 >>> (y &&& 31).toInt32).toUInt32)
    rw [signed_emod_count, hword]
  | bitAnd =>
    show some (BitVec.ofInt 32 (signed x) &&& BitVec.ofInt 32 (signed y)).toInt
      = some (signed (x &&& y))
    rw [ofInt_signed, ofInt_signed, signed, UInt32.toBitVec_and]
  | bitXor =>
    show some (BitVec.ofInt 32 (signed x) ^^^ BitVec.ofInt 32 (signed y)).toInt
      = some (signed (x ^^^ y))
    rw [ofInt_signed, ofInt_signed, signed, UInt32.toBitVec_xor]
  | bitOr =>
    show some (BitVec.ofInt 32 (signed x) ||| BitVec.ofInt 32 (signed y)).toInt
      = some (signed (x ||| y))
    rw [ofInt_signed, ofInt_signed, signed, UInt32.toBitVec_or]

end Joint

namespace Sign

/-- What is folded for an operator in front. A plus is only read. -/
def operator? : Sign → Option UnaryOp
  | plus => none
  | minus => some .negate
  | complement => some .complement

/-- The word behind an operator in front. -/
def word (s : Sign) (x : UInt32) : UInt32 :=
  (s.operator?.map fun op => Constant.unaryLane op integer x).getD x

theorem signed_word (s : Sign) (x : UInt32) : signed (s.word x) = s.apply (signed x) := by
  cases s with
  | plus => rfl
  | minus =>
    show signed (0 - x) = wrap (-signed x)
    rw [UInt32.zero_sub, signed, UInt32.toBitVec_neg, BitVec.toInt_neg]
    rfl
  | complement =>
    have hlt := x.toBitVec.isLt
    show (~~~x.toBitVec).toInt = -x.toBitVec.toInt - 1
    rw [BitVec.toInt_eq_toNat_cond, BitVec.toInt_eq_toNat_cond, BitVec.toNat_not]
    omega

end Sign

theorem mapFirst_ofList (f : Nat → UInt32 → UInt32) (x : UInt32) :
    (Lanes.ofList [x]).mapFirst 1 f = .ok (Lanes.ofList [f 0 x]) := by
  rw [Lanes.mapFirst, if_neg (by decide)]
  refine congrArg Except.ok (Vector.ext fun i hi => ?_)
  rw [Vector.getElem_mapIdx]
  cases i with
  | zero => simp [Lanes.ofList]
  | succ i => simp [Lanes.ofList]

theorem hasZeroLane_ofList (y : UInt32) :
    Constant.hasZeroLane 1 (Lanes.ofList [y]) = .ok (decide (y = 0)) := by
  rw [Constant.hasZeroLane_eq (by decide)]
  simp [Lanes.lane, Lanes.ofList]

theorem foldUnary_ofInt (location : Location) (op : UnaryOp) (x : UInt32) :
    (Expression.ofInt location x).foldUnary? op
      = .ok (some (.ofInt location (Constant.unaryLane op integer x))) := by
  have hlanes := mapFirst_ofList (fun _ => Constant.unaryLane op integer) x
  have hfold :
      (Constant.ofWord x).foldUnary op integer = .ok (.ofWord (Constant.unaryLane op integer x)) :=
    except_bind_eq_ok.mpr ⟨_, hlanes, rfl⟩
  exact except_bind_eq_ok.mpr ⟨_, hfold, rfl⟩

theorem foldBinary_ofInt (location : Location) {op : BinaryOp} {x y : UInt32}
    (hop : op.isComparison = false) (hy : ¬((op = .div ∨ op = .rem) ∧ y = 0)) :
    (Expression.ofInt location x).foldBinary? op (.ofWord y)
      = .ok (some (.ofInt location (Constant.binaryLane op integer x y))) := by
  have hfirst : (Lanes.ofList [y]).toList.getD 0 0 = y := by simp [Lanes.ofList]
  have hlanes :=
    mapFirst_ofList (fun i x =>
      Constant.binaryLane op integer x ((Lanes.ofList [y]).toList.getD i 0)) x
  rw [hfirst] at hlanes
  have hdivides : ((op = .div || op = .rem) && !integer.isFloat && decide (y = 0)) = false := by
    have hfloat : integer.isFloat = false := rfl
    rw [hfloat, Bool.not_false, Bool.and_true, ← Bool.decide_or, ← Bool.decide_and,
      decide_eq_false hy]
  have hfold : (Constant.ofWord x).foldBinary op integer (.ofWord y)
      = .ok (some (.ofWord (Constant.binaryLane op integer x y))) := by
    rw [Constant.foldBinary]
    refine except_bind_eq_ok.mpr ⟨_, hasZeroLane_ofList y, ?_⟩
    rw [hdivides]
    exact except_bind_eq_ok.mpr ⟨_, hlanes, rfl⟩
  refine except_bind_eq_ok.mpr ⟨_, hfold, ?_⟩
  simp only [hop, Bool.false_eq_true, if_false]
  rfl

end ShaderEffect

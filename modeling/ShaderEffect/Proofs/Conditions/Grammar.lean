import ShaderEffect.Proofs.Formulas.Grammar
import ShaderEffect.Proofs.Preprocessing.Lines

/-!
Expressions of conditions: how they are written, how they are grouped, and what they come to.

The levels of the operators are those of C, and values are integers in 32 bits of two's complement.
The items of an expression are its operands and operators, each operator behind its operands.
Evaluating them gives the value of the expression.

Reading sorts the items: from the tokens of an expression that is grouped as in C, its operands and
operators are put in the order in which they are evaluated.
-/
namespace ShaderEffect.Preprocessor.Condition

open Spirv (signed)

/-- An expression of a condition. -/
inductive Expr where
  | literal (word : UInt32)
  /-- A name that is no macro. -/
  | name
  | defined (macroName : String)
  | paren (e : Expr)
  | sign (s : Sign) (e : Expr)
  | not (e : Expr)
  | binary (op : BinaryOp) (l r : Expr)
deriving Repr

/-- The integer for a truth value. -/
def bit (c : Bool) : Int :=
  if c then 1 else 0

/-- What an operator does to integers in 32 bits. Both operands of a logical operator have
to have a value. -/
def result? (op : BinaryOp) (x y : Int) : Option Int :=
  match op with
  | .or => some (bit (x ≠ 0 ∨ y ≠ 0))
  | .and => some (bit (x ≠ 0 ∧ y ≠ 0))
  | .equal => some (bit (x = y))
  | .notEqual => some (bit (x ≠ y))
  | .less => some (bit (x < y))
  | .lessEqual => some (bit (x ≤ y))
  | .greater => some (bit (y < x))
  | .greaterEqual => some (bit (y ≤ x))
  | .bitOr => Joint.bitOr.apply? x y
  | .bitXor => Joint.bitXor.apply? x y
  | .bitAnd => Joint.bitAnd.apply? x y
  | .shiftLeft => Joint.shiftLeft.apply? x y
  | .shiftRight => Joint.shiftRight.apply? x y
  | .add => Joint.add.apply? x y
  | .sub => Joint.sub.apply? x y
  | .mul => Joint.mul.apply? x y
  | .div => Joint.div.apply? x y
  | .rem => Joint.rem.apply? x y

/-- The value of an expression, if it divides by zero nowhere. Names that are no macros are 0. -/
def Expr.value? (macros : List (String × Macro)) : Expr → Option Int
  | literal word => some (signed word)
  | name => some 0
  | defined macroName => some (bit (macros.lookup macroName).isSome)
  | paren e => e.value? macros
  | sign s e => (e.value? macros).map s.apply
  | not e => (e.value? macros).map fun x => bit (x = 0)
  | binary op l r => do result? op (← l.value? macros) (← r.value? macros)

/-- How an operator is written. -/
def written : BinaryOp → Token.Kind
  | .or => .pipePipe | .and => .ampersandAmpersand
  | .bitOr => .pipe | .bitXor => .caret | .bitAnd => .ampersand
  | .equal => .equalEqual | .notEqual => .exclaimEqual
  | .less => .less | .lessEqual =>
                     .lessEqual | .greater => .greater | .greaterEqual => .greaterEqual
  | .shiftLeft => .lessLess | .shiftRight => .greaterGreater
  | .add => .plus | .sub => .minus
  | .mul => .star | .div => .slash | .rem => .percent

/-- The words that are operators. -/
def operatorWords : List String :=
  ["defined", "exists"]

/-- Whether a token asks for a definition. -/
def AsksDefined (macros : List (String × Macro)) (t : Token) : Prop :=
  t.kind = .identifier ∧ t.text = "defined" ∧ isReplaced macros t.text = false

/-- Whether tokens spell an expression where macros are defined. -/
inductive Expr.Spells (macros : List (String × Macro)) : Expr → List Token → Prop where
  | literal {t : Token}
      (ht : t.kind = .intLiteral ∨ t.kind = .uintLiteral) : Spells macros (literal t.word) [t]
  | name {t : Token} (ht : t.kind = .identifier) (hword : t.text ∉ operatorWords)
      (hname : isReplaced macros t.text = false) : Spells macros name [t]
  | defined {d t : Token} (hd : AsksDefined macros d) (ht : t.kind = .identifier) :
      Spells macros (defined t.text) [d, t]
  | definedParen {d before t after : Token} (hd : AsksDefined macros d)
      (hbefore : before.kind = .parenOpen)
      (ht : t.kind = .identifier) (hafter : after.kind = .parenClose) :
      Spells macros (defined t.text) [d, before, t, after]
  | paren {e : Expr} {before after : Token} {ts : List Token} (hbefore : before.kind = .parenOpen)
      (hafter : after.kind = .parenClose) (h : Spells macros e ts) :
      Spells macros (paren e) (before :: (ts ++ [after]))
  | sign {s : Sign} {e : Expr} {t : Token} {ts : List Token} (ht : t.kind = s.kind)
      (h : Spells macros e ts) :
      Spells macros (sign s e) (t :: ts)
  | not {e : Expr} {t : Token} {ts : List Token} (ht : t.kind = .exclaim) (h : Spells macros e ts) :
      Spells macros (not e) (t :: ts)
  | binary {op : BinaryOp} {l r : Expr} {t : Token} {ls rs : List Token} (ht : t.kind = written op)
      (hl : Spells macros l ls)
      (hr : Spells macros r rs) : Spells macros (binary op l r) (ls ++ t :: rs)

/-- The level of an operator in C, the one that binds most tightly being the highest. -/
def level : BinaryOp → Nat
  | .or => 1
  | .and => 2
  | .bitOr => 3
  | .bitXor => 4
  | .bitAnd => 5
  | .equal | .notEqual => 6
  | .less | .lessEqual | .greater | .greaterEqual => 7
  | .shiftLeft | .shiftRight => 8
  | .add | .sub => 9
  | .mul | .div | .rem => 10

/-- The level of the operator that is applied last. Those in front of an operand
bind most tightly. -/
def Expr.level : Expr → Nat
  | binary op _ _ => Condition.level op
  | _ => 11

/-- Whether an expression is grouped as in C: operators of a higher level are applied first, and
those of the same level from the left to the right. -/
def Expr.Grouped : Expr → Prop
  | literal _ | name | defined _ => True
  | paren e => e.Grouped
  | sign _ e | not e => e.Grouped ∧ e.level = 11
  | binary op l r =>
    l.Grouped ∧ r.Grouped ∧ Condition.level op ≤ l.level ∧ Condition.level op < r.level

/-- Whether words were computed to a value. -/
def Represents (x : Except ConditionError UInt32) : Option Int → Prop
  | some v => ∃ w, x = .ok w ∧ signed w = v
  | none => x = .error .divisionByZero

theorem signed_truth (c : Bool) : signed (truth c) = bit c := by
  cases c <;> rfl

theorem represents_truth {x : Except ConditionError UInt32} {c c' : Bool} (hx : x = .ok (truth c))
    (h : c = c') :
    Represents x (some (bit c')) :=
  ⟨truth c, hx, h ▸ signed_truth c⟩

theorem Represents.bind {x : Except ConditionError UInt32}
    {f : UInt32 → Except ConditionError UInt32} {v : Option Int}
    {g : Int → Option Int} (h : Represents x v) (hfg : ∀ w, Represents (f w) (g (signed w))) :
    Represents (x >>= f) (v >>= g) := by
  cases v with
  | none =>
    rw [show x = _ from h]
    rfl
  | some v =>
    obtain ⟨w, rfl, rfl⟩ := h
    exact hfg w

theorem Represents.map {x : Except ConditionError UInt32} {f : UInt32 → UInt32} {v : Option Int}
    {g : Int → Int} (h : Represents x v) (hfg : ∀ w, signed (f w) = g (signed w)) :
    Represents (do return f (← x)) (v.map g) := by
  rw [Option.map_eq_bind]
  exact h.bind fun w => ⟨f w, rfl, hfg w⟩

/-- Operators of formulas do to words what they do there. -/
theorem represents_joint (op : Joint) (a b : UInt32) :
    Represents (binary op.operator a b) ( op.apply? (signed a) (signed b)) := by
  have hword : binary op.operator a b
      = if (op.operator = .div ∨ op.operator = .rem) ∧ b = 0 then .error .divisionByZero
        else .ok (Constant.binaryLane op.operator integer a b) := by
    by_cases hzero : b = 0 <;> cases op <;> simp only [binary, Joint.operator, hzero] <;> rfl
  rw [op.apply?_signed, hword]
  split
  · rfl
  · exact ⟨_, rfl, rfl⟩

/-- An operator does to words what it does to the integers that the words stand for. -/
theorem represents_binary (op : BinaryOp) (a b : UInt32) :
    Represents (binary op a b) (result? op (signed a) (signed b)) := by
  have hholds (x : UInt32) : x ≠ 0 ↔ signed x ≠ 0 := not_congr signed_eq_zero.symm
  have heq : a.toInt32 = b.toInt32 ↔ signed a = signed b := Int32.toInt_inj.symm
  cases op with
  | or =>
    refine represents_truth rfl ?_
    rw [← Bool.decide_or, decide_eq_decide, hholds, hholds]
  | and =>
    refine represents_truth rfl ?_
    rw [← Bool.decide_and, decide_eq_decide, hholds, hholds]
  | equal => exact represents_truth rfl (decide_eq_decide.mpr heq)
  | notEqual => exact represents_truth rfl (Spirv.decide_ne_eq_not heq.symm).symm
  | less => exact represents_truth rfl (decide_eq_decide.mpr Int32.lt_iff_toInt_lt)
  | lessEqual => exact represents_truth rfl (decide_eq_decide.mpr Int32.le_iff_toInt_le)
  | greater => exact represents_truth rfl (decide_eq_decide.mpr Int32.lt_iff_toInt_lt)
  | greaterEqual => exact represents_truth rfl (decide_eq_decide.mpr Int32.le_iff_toInt_le)
  | bitOr => exact represents_joint .bitOr a b
  | bitXor => exact represents_joint .bitXor a b
  | bitAnd => exact represents_joint .bitAnd a b
  | shiftLeft => exact represents_joint .shiftLeft a b
  | shiftRight => exact represents_joint .shiftRight a b
  | add => exact represents_joint .add a b
  | sub => exact represents_joint .sub a b
  | mul => exact represents_joint .mul a b
  | div => exact represents_joint .div a b
  | rem => exact represents_joint .rem a b

namespace Expr

variable {macros : List (String × Macro)}

/-- The value of an expression of words. -/
def word (macros : List (String × Macro)) : Expr → Except ConditionError UInt32
  | literal word => .ok word
  | name => .ok 0
  | defined macroName => .ok (truth (macros.lookup macroName).isSome)
  | paren e => e.word macros
  | sign s e => return s.word (← e.word macros)
  | not e => return truth ((← e.word macros) = 0)
  | binary op l r => do Condition.binary op (← l.word macros) (← r.word macros)

/-- The word of an expression stands for its value. -/
theorem represents_word (e : Expr) : Represents (e.word macros) (e.value? macros) := by
  induction e with
  | literal word => exact ⟨word, rfl, rfl⟩
  | name => exact ⟨0, rfl, rfl⟩
  | defined macroName => exact represents_truth rfl rfl
  | paren e ih => exact ih
  | sign s e ih => exact ih.map s.signed_word
  | not e ih =>
    refine ih.map fun w => (signed_truth _).trans (congrArg bit ?_)
    exact decide_eq_decide.mpr signed_eq_zero.symm
  | binary op l r ihl ihr => exact ihl.bind fun a => ihr.bind fun b => represents_binary op a b

/-- The operator that a sign is read as. -/
def signOperator (s : Sign) : Operator :=
  (s.operator?.map Operator.unary).getD .plus

/-- The operands and operators of an expression, each operator behind its operands. -/
def items (macros : List (String × Macro)) : Expr → List Item
  | literal word => [.value word]
  | name => [.value 0]
  | defined macroName => [.value (truth (macros.lookup macroName).isSome)]
  | paren e => e.items macros
  | sign s e => e.items macros ++ [.operator (signOperator s)]
  | not e => e.items macros ++ [.operator (.unary .not)]
  | binary op l r => l.items macros ++ r.items macros ++ [.operator (.binary op)]

theorem apply_sign (s : Sign) (w : UInt32) (vs : List UInt32) :
    apply (signOperator s) (w :: vs) = .ok (s.word w :: vs) := by
  cases s <;> rfl

/-- The items of an expression push its word. -/
theorem run_items (e : Expr) (rest : List Item) (vs : List UInt32) :
    run (e.items macros ++ rest) vs = (do run rest ((← e.word macros) :: vs)) := by
  -- By induction over the expression, for any stack in front: the items of a part leave its
  -- value on top.
  induction e generalizing rest vs with
  | literal word => rfl
  | name => rfl
  | defined macroName => rfl
  | paren e ih => exact ih rest vs
  | sign s e ih =>
    rw [items, List.append_assoc, ih, word]
    cases e.word macros with
    | error => rfl
    | ok w =>
      show run (.operator (signOperator s) :: rest) (w :: vs) = run rest (s.word w :: vs)
      rw [run, apply_sign]
      rfl
  | not e ih =>
    rw [items, List.append_assoc, ih, word]
    cases e.word macros <;> rfl
  | binary op l r ihl ihr =>
    rw [items, List.append_assoc, List.append_assoc, ihl, word]
    cases l.word macros with
    | error => rfl
    | ok a =>
      show run (r.items macros ++ ([.operator (.binary op)] ++ rest)) (a :: vs) = _
      rw [ihr]
      cases r.word macros with
      | error => rfl
      | ok b =>
        show (do run rest (← apply (.binary op) (b :: a :: vs)))
          = (do run rest ((← Condition.binary op a b) :: vs))
        rw [apply]
        cases Condition.binary op a b <;> rfl

/-- Evaluating the items of an expression gives its word. -/
theorem evaluate_items (e : Expr) : evaluate (e.items macros) = e.word macros := by
  have hrun : run (e.items macros ++ []) [] = (do run [] [← e.word macros]) := run_items e [] []
  rw [List.append_nil] at hrun
  rw [evaluate, hrun]
  cases e.word macros <;> rfl

end Expr

open Operator (endsOperand)
open Sorted (yields)

variable {macros : List (String × Macro)} {e : Expr} {s s' s'' : ConditionState} {t : Token}
  {ts ts' : List Token} {op : BinaryOp}

/-- What one round of reading a condition does, given the tokens that it reads, without blanks. -/
inductive Round (macros : List (String × Macro)) (s : ConditionState) :
    List Token → ConditionState → Prop where
  | literal {t : Token} (ht : t.kind = .intLiteral ∨ t.kind = .uintLiteral) :
      Round macros s [t] { sorted := s.sorted.push t.word, previous := t.kind }
  | name {t : Token} (ht : t.kind = .identifier) (hword : t.text ∉ operatorWords)
      (hname : isReplaced macros t.text = false) :
      Round macros s [t] { sorted := s.sorted.push 0, previous := t.kind }
  | defined {d t : Token} (hd : AsksDefined macros d) (ht : t.kind = .identifier) :
      Round macros s [d, t]
        { sorted := s.sorted.push (truth (macros.lookup t.text).isSome), previous := .intLiteral }
  | definedParen {d before t after : Token} (hd : AsksDefined macros d)
      (hbefore : before.kind = .parenOpen)
      (ht : t.kind = .identifier) (hafter : after.kind = .parenClose) :
      Round macros s [d, before, t, after]
        { sorted := s.sorted.push (truth (macros.lookup t.text).isSome), previous := .intLiteral }
  | opening {t : Token} (ht : t.kind = .parenOpen) :
      Round macros s [t] { sorted := s.sorted.openParenthesis, previous := t.kind }
  | closing {t : Token} {sorted : Sorted} (ht : t.kind = .parenClose)
      (hclose : s.sorted.closeParenthesis? = some sorted) : Round macros s [t]
        { sorted, previous := t.kind }
  | operator {t : Token} {op : Operator} (hop : Operator.ofKind? s.previous t.kind = some op) :
      Round macros s [t] { sorted := s.sorted.add op, previous := t.kind }

/-- What several rounds do. -/
inductive Rounds (macros : List (String × Macro)) :
    ConditionState → List Token → ConditionState → Prop where
  | nil (s : ConditionState) : Rounds macros s [] s
  | cons {s s' s'' : ConditionState} {ts ts' : List Token} (h : Round macros s ts s')
      (hrest : Rounds macros s' ts' s'') :
      Rounds macros s (ts ++ ts') s''

theorem Rounds.single (h : Round macros s ts s') : Rounds macros s ts s' := by
  have hone := Rounds.cons h (.nil s')
  rwa [List.append_nil] at hone

theorem Rounds.append (h : Rounds macros s ts s') (h' : Rounds macros s' ts' s'') :
    Rounds macros s (ts ++ ts') s'' := by
  induction h with
  | nil => exact h'
  | cons hround hrest ih =>
    rw [List.append_assoc]
    exact .cons hround (ih h')

/-- Several rounds are none, or a first one and others. -/
theorem Rounds.nil_or_cons (h : Rounds macros s ts s') :
    ts = [] ∧ s = s' ∨ ∃ t ts₁ ts₂ s₁, ts = t :: (ts₁ ++ ts₂)
      ∧ Round macros s (t :: ts₁) s₁ ∧ Rounds macros s₁ ts₂ s' := by
  cases h with
  | nil => exact .inl ⟨rfl, rfl⟩
  | @cons _ s₁ _ ts₁ ts₂ hround hrest =>
    cases ts₁ with
    | nil => cases hround
    | cons t ts₁ => exact .inr ⟨t, ts₁, ts₂, s₁, rfl, hround, hrest⟩

/-- How much is kept of a condition. -/
def Sorted.size (s : Sorted) : Nat :=
  s.waiting.length + s.items.length

theorem Sorted.size_add (s : Sorted) (op : Operator) : (s.add op).size = s.size + 1 := by
  have hle : (s.waiting.takeWhile (yields op)).length ≤ s.waiting.length :=
      (List.takeWhile_sublist _).length_le
  simp only [add, emit, size, List.length_cons, List.length_drop, List.length_append,
    List.length_map]
  omega

theorem Sorted.size_close {s s' : Sorted} (h : s.closeParenthesis? = some s') :
    s'.size ≤ s.size := by
  rw [closeParenthesis?] at h
  split at h
  · cases h
  · rename_i outer hdrop
    obtain rfl := Option.some.inj h
    have hlength := congrArg List.length hdrop
    have hle : (s.waiting.takeWhile (· ≠ .parenthesis)).length ≤ s.waiting.length :=
      (List.takeWhile_sublist _).length_le
    rw [List.length_drop, List.length_cons] at hlength
    simp only [emit, size, List.length_append, List.length_map]
    omega

/-- A round keeps at most one thing more. -/
theorem Round.size_le (h : Round macros s ts s') : s'.sorted.size ≤ s.sorted.size + 1 := by
  have hpush (v : UInt32) : (s.sorted.push v).size = s.sorted.size + 1 := by
    simp only [Sorted.push, Sorted.size, List.length_append, List.length_singleton, Nat.add_assoc]
  cases h with
  | literal => exact (hpush _).le
  | name => exact (hpush _).le
  | defined => exact (hpush _).le
  | definedParen => exact (hpush _).le
  | opening =>
    simp only [Sorted.openParenthesis, Sorted.size, List.length_cons]
    omega
  | closing _ hclose => exact (Sorted.size_close hclose).trans (Nat.le_succ _)
  | operator => exact (s.sorted.size_add _).le

theorem strength_eq (op : BinaryOp) : op.strength = level op + 1 := by
  cases op <;> rfl

theorem level_bounds (op : BinaryOp) : 0 < level op ∧ level op < 11 := by
  cases op <;> decide

theorem yields_binary (op op' : BinaryOp) :
    yields (.binary op) (.binary op') = decide (level op ≤ level op') := by
  have hstrength : op.strength ≤ op'.strength ↔ level op ≤ level op' := by
    rw [strength_eq, strength_eq, Nat.succ_le_succ_iff]
  simp only [yields, Operator.isBinary, Operator.strength, hstrength, if_true]
  rfl

/-- Operators in front of their operand bind most tightly. -/
theorem yields_front {o : Operator} (ho : o.strength = 12) : yields (.binary op) o = true := by
  have hle : (Operator.binary op).strength ≤ o.strength := by
    rw [ho, Operator.strength, strength_eq]
    exact Nat.succ_le_succ (level_bounds op).2.le
  have hne : o ≠ .parenthesis := by
    rintro rfl
    cases ho
  simp [yields, Operator.isBinary, hle, hne]

/-- Behind an operand a token is read as a binary operator. -/
theorem ofKind?_written {previous : Token.Kind} (h : endsOperand previous = true) (op : BinaryOp) :
    Operator.ofKind? previous (written op) = some (.binary op) := by
  cases op <;> simp only [written, Operator.ofKind?, h, if_true] <;> rfl

/-- Where no operand has ended, a sign is read as an operator in front. -/
theorem ofKind?_sign {previous : Token.Kind} (h : endsOperand previous = false) (s : Sign) :
    Operator.ofKind? previous s.kind = some (Expr.signOperator s) := by
  cases s <;> simp only [Sign.kind, Operator.ofKind?, h, Bool.false_eq_true, if_false] <;> rfl

theorem strength_signOperator (s : Sign) : (Expr.signOperator s).strength = 12 := by
  cases s <;> rfl

/-- An operator in front of its operand leaves all others waiting. -/
theorem add_front (s : Sorted) {o : Operator} (ho : o.strength = 12)
    (hbinary : o.isBinary = false) :
    s.add o = { s with waiting := o :: s.waiting } := by
  have hnone : s.waiting.takeWhile (yields o) = [] := by
    cases hw : s.waiting with
    | nil => rfl
    | cons w ws =>
      have hle : w.strength ≤ 12 := by
        cases w with
        | binary op => exact (strength_eq op).trans_le (Nat.succ_le_succ (level_bounds op).2.le)
        | plus | unary => exact le_refl 12
        | parenthesis => exact Nat.zero_le 12
      have hstays : yields o w = false := by simp [yields, hbinary, ho, Nat.not_lt.mpr hle]
      rw [List.takeWhile_cons, hstays]
      rfl
  simp [Sorted.add, Sorted.emit, hnone]

/-- Whether no waiting operator has all its operands in front of an operator of a level
or a higher one. -/
def Waits (n : Nat) (waiting : List Operator) : Prop :=
  ∀ o ∈ waiting.head?, ∀ op : BinaryOp, n ≤ level op → yields (.binary op) o = false

/-- Whether an expression was read between two states. What waits of it has its operands once an
operator follows that does not bind more tightly. -/
structure Behind (macros : List (String × Macro)) (e : Expr) (s s' : ConditionState) : Prop where
  ends : endsOperand s'.previous = true
  sorted : ∃ inner front,
    s'.sorted = { waiting := inner ++ s.sorted.waiting, items := s.sorted.items ++ front }
    ∧ front ++ inner.map Item.operator = e.items macros
    ∧ ∀ o ∈ inner, ∀ op, level op ≤ e.level → yields (.binary op) o = true

theorem ne_parenthesis {o : Operator} {n : Nat} (hn : 0 < n)
    (h : ∀ op, level op ≤ n → yields (.binary op) o = true) :
    o ≠ .parenthesis := by
  rintro rfl
  exact Bool.false_ne_true (h .or hn)

theorem Expr.level_pos (e : Expr) : 0 < e.level := by
  cases e with
  | binary op l r => exact (level_bounds op).1
  | _ => exact Nat.succ_pos _

theorem takeWhile_inner {p : Operator → Bool} {inner outer : List Operator}
    (hinner : ∀ o ∈ inner, p o = true)
    (houter : ∀ o ∈ outer.head?, p o = false) : (inner ++ outer).takeWhile p = inner := by
  rw [List.takeWhile_append_of_pos hinner]
  cases outer with
  | nil => simp
  | cons o outer => simp [houter o rfl]

/-- An operator that does not bind more tightly completes an expression. -/
theorem Behind.add (h : Behind macros e s s') (hop : level op ≤ e.level)
    (hwaits : ∀ o ∈ s.sorted.waiting.head?, yields (.binary op) o = false) :
    s'.sorted.add (.binary op)
      = { waiting := .binary op :: s.sorted.waiting,
          items := s.sorted.items ++ e.items macros } := by
  obtain ⟨inner, front, hsorted, hitems, hinner⟩ := h.sorted
  have htake := takeWhile_inner (fun o ho => hinner o ho op hop) hwaits
  rw [hsorted, Sorted.add, htake, List.drop_left, ← hitems]
  simp [Sorted.emit]

/-- A parenthesis is closed behind an expression. -/
theorem Behind.close {outer : List Operator} (h : Behind macros e s s')
    (hopen : s.sorted.waiting = .parenthesis :: outer) :
    s'.sorted.closeParenthesis?
      = some { waiting := outer, items := s.sorted.items ++ e.items macros } := by
  obtain ⟨inner, front, hsorted, hitems, hinner⟩ := h.sorted
  have htake : (inner ++ .parenthesis :: outer).takeWhile (· ≠ .parenthesis) = inner := by
    refine takeWhile_inner (fun o ho => ?_) fun o ho => ?_
    · exact decide_eq_true (ne_parenthesis e.level_pos (hinner o ho))
    · obtain rfl := Option.some.inj ho
      rfl
  rw [hsorted, hopen, Sorted.closeParenthesis?]
  simp only [htake, List.drop_left, Sorted.emit, List.append_assoc, hitems]

/-- At the end the items are those of the expression. -/
theorem Behind.finish {previous : Token.Kind} (h : Behind macros e { previous } s') :
    s'.sorted.finish? = some (e.items macros) := by
  obtain ⟨inner, front, hsorted, hitems, hinner⟩ := h.sorted
  have hnone : inner.contains Operator.parenthesis = false := by
    rw [Bool.eq_false_iff, ne_eq, List.contains_iff_mem]
    exact fun hmem => ne_parenthesis e.level_pos (hinner _ hmem) rfl
  have hwaiting : ({ previous } : ConditionState).sorted.waiting = [] := rfl
  rw [hsorted, hwaiting, List.append_nil, Sorted.finish?, hnone, ← hitems]
  rfl

/-- A value is an expression on its own. -/
theorem Behind.value {v : UInt32} {previous : Token.Kind} (hitems : e.items macros = [.value v])
    (hends : endsOperand previous = true) :
    Behind macros e s { sorted := s.sorted.push v, previous } :=
  ⟨hends, [], [.value v], rfl, hitems.symm, List.forall_mem_nil _⟩

/-- An operator in front waits for its operand. -/
theorem Behind.front {e' : Expr} {o : Operator} {previous : Token.Kind} (ho : o.strength = 12)
    (hbinary : o.isBinary = false) (h : Behind macros e { sorted := s.sorted.add o, previous } s')
    (hlevel : e.level = 11) (hitems : e'.items macros = e.items macros ++ [.operator o])
    (hlevel' : e'.level = 11) : Behind macros e' s s' := by
  obtain ⟨inner, front, hsorted, hsame, hinner⟩ := h.sorted
  refine ⟨h.ends, inner ++ [o], front, ?_, ?_, fun w hw op hop => ?_⟩
  · rw [hsorted, add_front _ ho hbinary, List.append_assoc]
    rfl
  · rw [List.map_append, ← List.append_assoc, hsame, hitems]
    rfl
  · rcases List.mem_append.mp hw with hw | hw
    · exact hinner w hw op (hlevel ▸ hlevel' ▸ hop)
    · rw [List.mem_singleton.mp hw]
      exact yields_front ho

/-- What stood in parentheses has no operator that waits. -/
theorem Behind.paren {previous : Token.Kind} (hends : endsOperand previous = true) :
    Behind macros (.paren e) s
      { sorted := { waiting := s.sorted.waiting, items := s.sorted.items ++ e.items macros },
        previous } :=
  ⟨hends, [], e.items macros, rfl, List.append_nil _, List.forall_mem_nil _⟩

/-- A binary operator has completed the operand in front of it, and waits for the one behind it. -/
theorem Behind.binary {l r : Expr} {s₁ s₂ : ConditionState} {previous : Token.Kind}
    (hl : Behind macros l s s₁) (hlevell : level op ≤ l.level)
    (hwaits : ∀ o ∈ s.sorted.waiting.head?, yields (.binary op) o = false)
    (hr : Behind macros r { sorted := s₁.sorted.add (.binary op), previous } s₂)
    (hlevelr : level op < r.level) :
    Behind macros (.binary op l r) s s₂ := by
  obtain ⟨inner, front, hsorted, hitems, hinner⟩ := hr.sorted
  rw [hl.add hlevell hwaits] at hsorted
  refine ⟨hr.ends, inner ++ [.binary op], l.items macros ++ front, ?_, ?_,
    fun o ho op' hop' => ?_⟩
  · rw [hsorted]
    simp
  · rw [Expr.items, ← hitems]
    simp
  · rcases List.mem_append.mp ho with ho | ho
    · exact hinner o ho op' (le_trans hop' hlevelr.le)
    · rw [List.mem_singleton.mp ho, yields_binary]
      exact decide_eq_true hop'

theorem waits_nil (n : Nat) : Waits n [] :=
  nofun

theorem waits_parenthesis (n : Nat) (waiting : List Operator) :
    Waits n (.parenthesis :: waiting) := by
  intro o ho op _
  obtain rfl := Option.some.inj ho
  rfl

/-- On the right of a binary operator only those that bind more tightly belong to its operand. -/
theorem waits_binary {n : Nat} (h : level op < n) (waiting : List Operator) :
    Waits n (.binary op :: waiting) := by
  intro o ho op' hop'
  obtain rfl := Option.some.inj ho
  rw [yields_binary]
  exact decide_eq_false (Nat.not_le.mpr (h.trans_le hop'))

/-- In front of an operand only binary operators wait for what follows. -/
theorem waits_primary (waiting : List Operator) : Waits 11 waiting :=
  fun _ _ op hop => absurd (level_bounds op).2 (Nat.not_lt.mpr hop)

/-- The tokens of an expression that is grouped as in C are sorted into its items. -/
theorem Expr.Spells.rounds (h : e.Spells macros ts) (hgrouped : e.Grouped)
    (hprevious : endsOperand s.previous = false) (hwaits : Waits e.level s.sorted.waiting) :
    ∃ s', Rounds macros s ts s' ∧ Behind macros e s s' := by
  -- By induction over the grammar. `hwaits` is carried along: the operator that waits on top
  -- does not take its operands before the expression is complete.
  induction h generalizing s with
  | literal ht =>
    refine ⟨_, .single (.literal ht), .value rfl ?_⟩
    rcases ht with ht | ht <;> rw [ht] <;> rfl
  | name ht hword hname =>
    exact ⟨_, .single (.name ht hword hname), .value rfl (by rw [ht]; rfl)⟩
  | defined hd ht => exact ⟨_, .single (.defined hd ht), .value rfl rfl⟩
  | definedParen hd hbefore ht hafter =>
    exact ⟨_, .single (.definedParen hd hbefore ht hafter), .value rfl rfl⟩
  | @paren e before after ts hbefore hafter h ih =>
    have hread : endsOperand before.kind = false := by rw [hbefore]; rfl
    obtain ⟨s', hinside, hbehind⟩ :=
      ih (s := ⟨s.sorted.openParenthesis, before.kind⟩) hgrouped hread (waits_parenthesis _ _)
    have hclosed : Rounds macros s' [after] _ := .single (.closing hafter (hbehind.close rfl))
    exact ⟨_, .cons (.opening hbefore) (hinside.append hclosed), .paren (by rw [hafter]; rfl)⟩
  | @sign sg e t ts ht h ih =>
    obtain ⟨hgrouped, hlevel⟩ := hgrouped
    have hop : Operator.ofKind? s.previous t.kind = some (signOperator sg) :=
      ht ▸ ofKind?_sign hprevious sg
    have hread : endsOperand t.kind = false := by rw [ht]; cases sg <;> rfl
    obtain ⟨s', hrounds, hbehind⟩ :=
      ih (s := ⟨s.sorted.add (signOperator sg), t.kind⟩) hgrouped hread
        (hlevel ▸ waits_primary _)
    have hunary : (signOperator sg).isBinary = false := by cases sg <;> rfl
    exact ⟨s', .cons (.operator hop) hrounds,
      hbehind.front (strength_signOperator sg) hunary hlevel rfl rfl⟩
  | @not e t ts ht h ih =>
    obtain ⟨hgrouped, hlevel⟩ := hgrouped
    have hop : Operator.ofKind? s.previous t.kind = some (.unary .not) := ht ▸ rfl
    have hread : endsOperand t.kind = false := by rw [ht]; rfl
    obtain ⟨s', hrounds, hbehind⟩ :=
      ih (s := ⟨s.sorted.add (.unary .not), t.kind⟩) hgrouped hread (hlevel ▸ waits_primary _)
    exact ⟨s', .cons (.operator hop) hrounds, hbehind.front rfl rfl hlevel rfl rfl⟩
  | @binary op l r t ls rs ht hl hr ihl ihr =>
    obtain ⟨hgroupedl, hgroupedr, hlevell, hlevelr⟩ := hgrouped
    obtain ⟨s₁, hrounds, hbehind⟩ :=
      ihl hgroupedl hprevious fun o ho op' hop' => hwaits o ho op' (hlevell.trans hop')
    have hop : Operator.ofKind? s₁.previous t.kind = some (.binary op) :=
      ht ▸ ofKind?_written hbehind.ends op
    have hadd := hbehind.add hlevell fun o ho => hwaits o ho op (le_refl _)
    have hread : endsOperand t.kind = false := by rw [ht]; cases op <;> rfl
    obtain ⟨s₂, hrounds', hbehind'⟩ :=
      ihr (s := ⟨s₁.sorted.add (.binary op), t.kind⟩) hgroupedr hread
        (hadd ▸ waits_binary hlevelr _)
    exact ⟨s₂, hrounds.append (.cons (.operator hop) hrounds'),
      hbehind.binary hlevell (fun o ho => hwaits o ho op (le_refl _)) hbehind' hlevelr⟩

end ShaderEffect.Preprocessor.Condition

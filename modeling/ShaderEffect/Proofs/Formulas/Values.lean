import ShaderEffect.Parser.Run
import ShaderEffect.Proofs.Formulas.Grammar
import ShaderEffect.Proofs.Reading.Operands

/-!
Formulas are read as constants with their value in C.

The operators of a formula are read by a loop for each right operand. What one loop reads are the
operators along the left operands of a formula, each of which takes one round: the value is known by
induction on the formula, with what the rounds so far have left in front of the rest.

The parser takes the tokens of a formula one operand or operator at a time. Integers stay constants,
and nothing is asked of the generator.
-/
namespace ShaderEffect

open Spirv (signed)

namespace Reader

/-- Behind a number of tokens. -/
def behind (r : Reader) : Nat → Reader
  | 0 => r
  | n + 1 => r.consumed.behind n

/-- Whether tokens come up next. -/
def Faces : Reader → List Token → Prop
  | _, [] => True
  | r, t :: ts => r.next = t ∧ r.consumed.Faces ts

/-- Whether two readers agree in everything but the place to return to. -/
def Agrees (r r' : Reader) : Prop :=
  ∃ next cursor, r' = { r with savedNext := next, savedCursor := cursor }

variable {r r₁ r' : Reader} {t : Token} {ts us : List Token}

theorem behind_add (r : Reader) (m n : Nat) : r.behind (m + n) = (r.behind m).behind n := by
  induction m generalizing r with
  | zero => rw [Nat.zero_add, behind]
  | succ m ih => rw [Nat.succ_add, behind, behind, ih]

theorem faces_append : r.Faces (ts ++ us) ↔ r.Faces ts ∧ (r.behind ts.length).Faces us := by
  induction ts generalizing r with
  | nil => exact ⟨fun h => ⟨trivial, h⟩, fun h => h.2⟩
  | cons t ts ih =>
    rw [List.cons_append, Faces, Faces, ih, and_assoc]
    rfl

theorem Agrees.refl (r : Reader) : r.Agrees r := ⟨_, _, rfl⟩

theorem Agrees.trans (h : r.Agrees r₁) (h' : r₁.Agrees r') : r.Agrees r' := by
  obtain ⟨next, cursor, rfl⟩ := h
  obtain ⟨next', cursor', rfl⟩ := h'
  exact ⟨next', cursor', rfl⟩

theorem Agrees.consumed (h : r.Agrees r') : r.consumed.Agrees r'.consumed := by
  obtain ⟨next, cursor, rfl⟩ := h
  exact ⟨next, cursor, rfl⟩

theorem Agrees.behind (h : r.Agrees r') (n : Nat) : (r.behind n).Agrees (r'.behind n) := by
  induction n generalizing r r' with
  | zero => exact h
  | succ n ih => exact ih h.consumed

theorem Agrees.next (h : r.Agrees r') : r'.next = r.next := by
  obtain ⟨next, cursor, rfl⟩ := h
  rfl

theorem Agrees.left (h : r.Agrees r') : r'.left = r.left := by
  obtain ⟨next, cursor, rfl⟩ := h
  rfl

theorem Agrees.rounds (h : r.Agrees r') : r'.rounds = r.rounds := by
  obtain ⟨next, cursor, rfl⟩ := h
  rfl

theorem Agrees.faces (h : r.Agrees r') (hfaces : r.Faces ts) : r'.Faces ts := by
  induction ts generalizing r r' with
  | nil => trivial
  | cons t ts ih => exact ⟨h.next.trans hfaces.1, ih h.consumed hfaces.2⟩

theorem rounds_behind (r : Reader) (n : Nat) : (r.behind n).rounds = r.rounds := by
  induction n generalizing r with
  | zero => rfl
  | succ n ih => exact ih r.consumed

theorem Agrees.rounds_behind {n : Nat} (h : (r.behind n).Agrees r') : r'.rounds = r.rounds :=
  h.rounds.trans (r.rounds_behind n)

/-- Every token that is not the end of the text is one less that is left. -/
theorem left_behind (hfaces : r.Faces ts) (hend : ∀ t ∈ ts, t.kind ≠ .eof) :
    (r.behind ts.length).left + ts.length ≤ r.left := by
  induction ts generalizing r with
  | nil => exact Nat.le_refl _
  | cons t ts ih =>
    obtain ⟨rfl, hfaces⟩ := hfaces
    have hlt : r.consumed.left < r.left := left_consumed_lt (hend _ List.mem_cons_self)
    have hrest := ih hfaces fun t ht => hend t (List.mem_cons_of_mem _ ht)
    rw [List.length_cons, behind]
    omega

end Reader

namespace Joint

theorem ofKind?_kind (op : Joint) :
    BinaryOp.ofKind? op.kind = some op.operator := by cases op <;> rfl

theorem operatorStrength?_kind (op : Joint) :
    Parser.operatorStrength? op.kind = some op.operator.strength := by
  cases op <;> rfl

end Joint

namespace Parser

/-- Whether reading a part gives a result without asking the generator for anything. -/
def Settles {α : Type} (x : ParseM α) (s : Surroundings) (r : Reader) (a : α) (r' : Reader) :
    Prop :=
  x s r = Script.done (a, r')

namespace Settles

variable {α γ : Type} {s : Surroundings} {r r₁ r' : Reader} {a : α} {c : γ}

theorem bind {x : ParseM γ} {f : γ → ParseM α} (hx : Settles x s r c r₁)
    (hf : Settles (f c) s r₁ a r') :
    Settles (x >>= f) s r a r' := by
  show (x s r >>= fun result => f result.1 s result.2) = _
  rw [hx]
  exact hf

theorem pure (a : α) : Settles (pure a) s r a r := rfl

theorem read {x : ReadM α} (hx : x r = .ok (a, r')) : Settles (liftM x) s r a r' := by
  show x.toParse s r = _
  rw [ReadM.toParse, hx]

theorem except {x : Except Fault α} (hx : x = .ok a) : Settles (liftM x) s r a r :=
  read (liftM_eq_ok.mpr ⟨hx, rfl⟩)

end Settles

section

variable {α γ : Type} {s : Surroundings} {r r' : Reader} {step : α → ParseM (α ⊕ γ)}
  {a a' : α} {c : γ}

theorem repeatWith_goesOn (h : Settles (step a) s r (.inl a') r') (rounds : Nat) :
    repeatWith step (rounds + 1) a s r = repeatWith step rounds a' s r' := by
  show (step a s r >>= fun result => _) = _
  rw [h]
  rfl

theorem repeatWith_stops (h : Settles (step a) s r (.inr c) r') (rounds : Nat) :
    Settles (repeatWith step (rounds + 1) a) s r c r' :=
  h.bind rfl

theorem loop_stops (h : Settles (step a) s r (.inr c) r') (hrounds : 0 < r.rounds) :
    Settles (loop step a) s r c r' := by
  obtain ⟨rounds, hrounds⟩ := Nat.exists_eq_add_one_of_ne_zero hrounds.ne'
  show repeatWith step r.rounds a s r = _
  rw [hrounds]
  exact repeatWith_stops h rounds

end

variable {s : Surroundings} {r r' : Reader}

theorem accept_other {kind : Token.Kind} (hne : r.next.kind ≠ kind) :
    accept kind r = .ok (false, r) := by
  refine bind_eq_ok.mpr ⟨decide (r.next.kind = kind), r, rfl, ?_⟩
  rw [decide_eq_false hne]
  rfl

theorem accept_same {kind : Token.Kind} (heq : r.next.kind = kind) :
    accept kind r = .ok (true, r.consumed) := by
  refine bind_eq_ok.mpr ⟨decide (r.next.kind = kind), r, rfl, ?_⟩
  rw [decide_eq_true heq]
  rfl

/-- Whether a token of this kind continues an operand in front of it. -/
def Continues (kind : Token.Kind) : Prop :=
  kind = .plusPlus ∨ kind = .minusMinus ∨ kind = .dot ∨ kind = .bracketOpen

theorem parsePostfix_settles {recurse : Recurse} {e : Expression} (hrounds : 0 < r.rounds)
    (hnext : ¬Continues r.next.kind) : Settles (parsePostfix recurse e) s r (some e) r := by
  rw [parsePostfix_eq]
  refine loop_stops (Settles.bind (.read rfl) ?_) hrounds
  simp only [Continues, not_or] at hnext
  split <;> simp_all [Settles.pure]

/-- Where no type begins, looking for one changes nothing. -/
theorem acceptType_none (hrounds : 0 < r.rounds) (hnext : ¬Reader.BeginsType r.next.kind) :
    acceptType r = .ok (none, r) := by
  obtain ⟨rounds, hrounds⟩ := Nat.exists_eq_add_one_of_ne_zero hrounds.ne'
  have hkinds := hnext
  simp only [Reader.BeginsType, not_or, Option.not_isSome_iff_eq_none] at hkinds
  obtain ⟨hidentifier, hcolons, hvector, hmatrix, hkeyword⟩ := hkinds
  have hpeek (kind : Token.Kind) : peek kind r = .ok (decide (r.next.kind = kind), r) := rfl
  -- Every way for a type to begin looks at the next token, and none fits.
  show acceptTypeNested r.rounds r = _
  rw [hrounds, acceptTypeNested]
  refine bind_eq_ok.mpr ⟨_, _, hpeek .identifier, ?_⟩
  refine bind_eq_ok.mpr ⟨_, _, hpeek .colonColon, ?_⟩
  rw [decide_eq_false hidentifier, decide_eq_false hcolons]
  refine bind_eq_ok.mpr ⟨_, _, accept_other hvector, ?_⟩
  refine bind_eq_ok.mpr ⟨_, _, accept_other hmatrix, ?_⟩
  refine bind_eq_ok.mpr ⟨r.next, r, rfl, ?_⟩
  rw [hkeyword]
  rfl

theorem parseUnary_settles {recurse : Recurse} {e : Expression} {r₁ : Reader}
    (hoperand : Settles (parseOperand recurse) s r (some e, true) r₁) (hrounds : 0 < r₁.rounds)
    (hnext : ¬Continues r₁.next.kind) : Settles (parseUnary recurse) s r (some e) r₁ :=
  hoperand.bind (parsePostfix_settles hrounds hnext)

theorem parseOperand_literal {recurse : Recurse} (hkind : r.next.kind = .intLiteral) :
    Settles (parseOperand recurse) s r (some (.ofInt r.next.location r.next.word), true)
      r.consumed := by
  refine Settles.bind (.read rfl) ?_
  simp only [hkind, literal?]
  exact Settles.bind (.read rfl) rfl

theorem applyUnary_settles {location location' : Location} {op : UnaryOp} {x : UInt32} :
    Settles (applyUnary location op (.ofInt location' x)) s r
      (.ofInt location' (Constant.unaryLane op integer x)) r := by
  have hfold := foldUnary_ofInt location' op x
  exact Settles.bind (.except hfold) rfl

theorem parsePrefix_settles {recurse : Recurse} {sign : Sign} {location location' : Location}
    {x : UInt32} (hrecurse : Settles (recurse .unary) s r (some (.ofInt location' x)) r') :
    Settles (parsePrefix recurse sign.kind location) s r
      (some (.ofInt location' (sign.word x))) r' := by
  refine hrecurse.bind ?_
  cases sign with
  | plus => rfl
  | minus => exact applyUnary_settles.bind rfl
  | complement => exact applyUnary_settles.bind rfl

theorem parseOperand_sign {recurse : Recurse} {sign : Sign} {location : Location} {x : UInt32}
    (hkind : r.next.kind = sign.kind)
    (hrecurse : Settles (recurse .unary) s r.consumed (some (.ofInt location x)) r') :
    Settles (parseOperand recurse) s r (some (.ofInt location (sign.word x)), true) r' := by
  refine Settles.bind (.read rfl) ?_
  have hsigned : Settles (parsePrefix recurse r.next.kind r.next.location) s r.consumed _ r' :=
    hkind ▸ parsePrefix_settles hrecurse
  cases sign <;>
  · rw [hkind] at hsigned
    simp only [hkind, Sign.kind]
    exact Settles.bind (.read rfl) (hsigned.bind rfl)

theorem parseParenthesized_settles {recurse : Recurse} {location : Location} {e : Expression}
    {r₀ : Reader} (hmarked : r₀ = { r with savedNext := r.next, savedCursor := r.cursor })
    (hrounds : 0 < r.rounds) (hnext : ¬Reader.BeginsType r.next.kind)
    (hrecurse : Settles (recurse .sequence) s r₀ (some e) r')
    (hclose : r'.next.kind = .parenClose) (hrounds' : 0 < r'.rounds)
    (hend : ¬Continues r'.consumed.next.kind) :
    Settles (parseParenthesized recurse location) s r (some e) r'.consumed := by
  subst hmarked
  have htype : acceptType { r with savedNext := r.next, savedCursor := r.cursor } = .ok (none, _) :=
    acceptType_none hrounds hnext
  have hexpect : expect .parenClose r' = .ok (true, r'.consumed) :=
    bind_eq_ok.mpr ⟨true, r'.consumed, accept_same hclose, rfl⟩
  -- The place is marked in front of what may be a cast. There is no type, and an expression is read
  -- instead.
  refine Settles.bind (.read rfl) ?_
  refine Settles.bind (.read htype) ?_
  refine Settles.bind (.read rfl) ?_
  refine hrecurse.bind ?_
  exact Settles.bind (.read hexpect) (parsePostfix_settles hrounds' hend)

theorem parseUnary_paren {recurse : Recurse} {e : Expression} (hopen : r.next.kind = .parenOpen)
    (hinside : Settles (parseParenthesized recurse r.next.location) s r.consumed (some e) r') :
    Settles (parseUnary recurse) s r (some e) r' := by
  have hoperand : Settles (parseOperand recurse) s r (some e, false) r' := by
    refine Settles.bind (.read rfl) ?_
    simp only [hopen]
    exact Settles.bind (.read rfl) (hinside.bind rfl)
  exact hoperand.bind rfl

theorem addCast_ofInt (location : Location) (x : UInt32) :
    (Expression.ofInt location x).addCast (.scalar .int) = .ok (.ofInt location x) := by
  unfold Expression.addCast
  rfl

/-- The operands of an operator stay what they are: both are integers already. -/
theorem convertOperands_ofInt {location location' : Location} {op : Joint} {x y : UInt32} :
    convertOperands op.operator (.ofInt location x) (.ofInt location' y) r
      = .ok (some (.scalar .int, .ofInt location x, .ofInt location' y), r) := by
  have hcheck : checkOperands op.operator (.ofInt location x) (.ofInt location' y) r
      = .ok (true, r) := by
    cases op <;> rfl
  have hlogical : op.operator.isLogical = false := by cases op <;> rfl
  have hinteger : integer.merge integer = .scalar .int := by decide
  have hmerge : (Expression.ofInt location x).type.merge (Expression.ofInt location' y).type
      = .scalar .int := hinteger
  unfold convertOperands
  rw [hmerge, hlogical]
  -- Neither operand loses anything, so that there is no warning.
  refine bind_eq_ok.mpr ⟨_, _, hcheck, ?_⟩
  refine bind_eq_ok.mpr ⟨(), r, rfl, ?_⟩
  refine bind_eq_ok.mpr ⟨(), r, rfl, ?_⟩
  refine bind_eq_ok.mpr ⟨_, r, liftM_eq_ok.mpr ⟨addCast_ofInt location x, rfl⟩, ?_⟩
  exact bind_eq_ok.mpr ⟨_, r, liftM_eq_ok.mpr ⟨addCast_ofInt location' y, rfl⟩, rfl⟩

/-- An operator between two constants is folded, unless it divides by zero. -/
theorem parseBinary_settles {recurse : Recurse} {op : Joint} (location : Location)
    {location' : Location} {x y : UInt32} {v : Int}
    (hrecurse : Settles (recurse (.multary op.operator.strength)) s r (some (.ofInt location' y))
      r') (hv : op.apply? (signed x) (signed y) = some v) :
    ∃ z, Settles (parseBinary recurse op.operator (.ofInt location x)) s r
      (some (.ofInt location z)) r'
      ∧ signed z = v := by
  rw [Joint.apply?_signed] at hv
  split at hv
  · cases hv
  rename_i hdivides
  have hcomparison : op.operator.isComparison = false := by cases op <;> rfl
  have hlogical : op.operator.isLogical = false := by cases op <;> rfl
  have hfold : foldConstants? op.operator (.ofInt location x) (.ofInt location' y) = .ok (some _) :=
    foldBinary_ofInt location hcomparison hdivides
  refine ⟨_, ?_, Option.some.inj hv⟩
  -- No operator of a formula is logical, so that the generator is not even asked whether it can
  -- branch.
  refine Settles.bind (c := s) rfl ?_
  rw [hlogical]
  refine Settles.bind (c := false) rfl ?_
  show Settles (do let branches ← pure none; _) s r _ r'
  refine Settles.bind (.pure none) ?_
  refine hrecurse.bind ?_
  refine Settles.bind (.read convertOperands_ofInt) ?_
  exact Settles.bind (.except hfold) (.pure _)

/-- Of an operator that does not bind tightly enough, nothing is read. -/
theorem multaryRound_stops {recurse : Recurse} {strength : Nat} {e : Expression}
    (hnext : ∀ k, operatorStrength? r.next.kind = some k → k ≤ strength) :
    Settles (multaryRound recurse strength e) s r (.inr (some e)) r := by
  refine Settles.bind (.read rfl) ?_
  dsimp only
  split
  · exact .pure _
  · rename_i k hk
    rw [if_pos (hnext k hk)]
    exact .pure _

theorem multaryRound_goesOn {recurse : Recurse} {strength : Nat} {e e' : Expression} {op : Joint}
    (hkind : r.next.kind = op.kind) (hlt : strength < op.operator.strength)
    (hbinary : Settles (parseBinary recurse op.operator e) s r.consumed (some e') r') :
    Settles (multaryRound recurse strength e) s r (.inl e') r' := by
  refine Settles.bind (.read rfl) ?_
  simp only [hkind, op.operatorStrength?_kind, op.ofKind?_kind, if_neg (Nat.not_le.mpr hlt)]
  exact Settles.bind (.read rfl) (hbinary.bind rfl)

/-- What stands in front of a closing parenthesis is one expression. -/
theorem parseAssignment_settles {recurse : Recurse} {e : Expression}
    (hrecurse : Settles (recurse (.multary 0)) s r (some e) r')
    (hclose : r'.next.kind = .parenClose) :
    Settles (parseAssignment recurse) s r (some e) r' := by
  refine hrecurse.bind (Settles.bind (.read rfl) ?_)
  rw [hclose]
  rfl

theorem parseSequence_settles {recurse : Recurse} {e : Expression}
    (hrecurse : Settles (recurse .assignment) s r (some e) r') (hclose : r'.next.kind = .parenClose)
    (hrounds : 0 < r'.rounds) : Settles (parseSequence recurse) s r (some e) r' := by
  have hcomma : accept .comma r' = .ok (false, r') := accept_other (hclose ▸ nofun)
  rw [parseSequence_eq]
  exact hrecurse.bind (loop_stops (Settles.bind (.read hcomma) rfl) hrounds)

end Parser

namespace Joint

/-- The strengths of the operators are ordered as their levels in C. -/
theorem strength_le {op op' : Joint} (h : op.level ≤ op'.level) :
    op.operator.strength ≤ op'.operator.strength := by
  cases op <;> cases op' <;> revert h <;> decide

theorem strength_lt {op op' : Joint} (h : op.level < op'.level) :
    op.operator.strength < op'.operator.strength := by
  cases op <;> cases op' <;> revert h <;> decide

theorem strength_lt_operand (op : Joint) : op.operator.strength < 12 := by cases op <;> decide

theorem strength_pos (op : Joint) : 0 < op.operator.strength := by cases op <;> decide

theorem kind_ne_eof {op : Joint} : op.kind ≠ .eof := by cases op <;> decide

theorem not_continues {op : Joint} : ¬Parser.Continues op.kind := by
  cases op <;> simp [kind, Parser.Continues]

end Joint

namespace Sign

theorem kind_ne_eof {s : Sign} : s.kind ≠ .eof := by cases s <;> decide

theorem not_beginsType {s : Sign} : ¬Reader.BeginsType s.kind := by
  unfold Reader.BeginsType
  cases s <;> decide

end Sign

namespace Formula

/-- How tightly the operator binds that is applied last. -/
def strength : Formula → Nat
  | binary op _ _ => op.operator.strength
  | _ => 12

/-- The number of operators along the left operands. -/
def steps : Formula → Nat
  | binary _ l _ => l.steps + 1
  | _ => 0

theorem strength_le {op : Joint} {e : Formula} (h : op.level ≤ e.level) :
    op.operator.strength ≤ e.strength := by
  cases e with
  | binary op' l r => exact Joint.strength_le h
  | _ => exact op.strength_lt_operand.le

theorem strength_lt {op : Joint} {e : Formula} (h : op.level < e.level) :
    op.operator.strength < e.strength := by
  cases e with
  | binary op' l r => exact Joint.strength_lt h
  | _ => exact op.strength_lt_operand

theorem strength_pos (e : Formula) : 0 < e.strength := by
  cases e with
  | binary op l r => exact op.strength_pos
  | _ => exact Nat.succ_pos _

theorem Spells.steps_lt {e : Formula} {ts : List Token} (h : e.Spells ts) :
    e.steps < ts.length := by
  induction h with
  | literal => exact Nat.one_pos
  | paren => exact Nat.succ_pos _
  | sign => exact Nat.succ_pos _
  | binary ht hl hr ihl ihr =>
    rw [steps, List.length_append, List.length_cons]
    omega

theorem Spells.ne_eof {e : Formula} {ts : List Token} (h : e.Spells ts) :
    ∀ t ∈ ts, t.kind ≠ .eof := by
  induction h with
  | literal ht => simp [ht]
  | paren hbefore hafter h ih => simpa [or_imp, forall_and, hbefore, hafter] using ih
  | sign ht h ih => simpa [ht, Sign.kind_ne_eof] using ih
  | binary ht hl hr ihl ihr =>
    simpa [or_imp, forall_and, ht, Joint.kind_ne_eof] using ⟨ihl, ihr⟩

/-- No formula begins like a type. -/
theorem Spells.not_beginsType {e : Formula} {ts : List Token} (h : e.Spells ts) {r : Reader}
    (hfaces : r.Faces ts) :
    ¬Reader.BeginsType r.next.kind := by
  induction h generalizing r with
  | literal ht =>
    rw [hfaces.1, ht, Reader.BeginsType]
    decide
  | paren hbefore =>
    rw [hfaces.1, hbefore, Reader.BeginsType]
    decide
  | sign ht =>
    rw [hfaces.1, ht]
    exact Sign.not_beginsType
  | binary ht hl hr ihl ihr => exact ihl (Reader.faces_append.mp hfaces).1

end Formula

namespace Parser

/-- Whether tokens come up that nothing behind them continues, with room to read them as a part
of the grammar. -/
structure Stands (depth : Nat) (part : Nonterminal) (r : Reader) (ts : List Token) : Prop where
  faces : r.Faces ts
  ends : ¬Continues (r.behind ts.length).next.kind
  depth : 6 * r.left + part.rank < depth
  rounds : r.left < r.rounds

/-- Whether a part of the grammar is read as a constant integer, up to behind a number of tokens,
without a request. -/
def GivesInteger (x : ParseM (Option Expression)) (s : Surroundings) (r : Reader) (count : Nat)
    (v : Int) : Prop :=
  ∃ location w r', Settles x s r (some (.ofInt location w)) r'
    ∧ signed w = v ∧ (r.behind count).Agrees r'

variable {depth strength : Nat} {part : Nonterminal} {s : Surroundings} {r r' : Reader}
  {ts : List Token} {v : Int}

theorem Stands.agrees (h : Stands depth part r ts) (hr : r.Agrees r') :
    Stands depth part r' ts where
  faces := hr.faces h.faces
  ends := (hr.behind _).next ▸ h.ends
  depth := hr.left ▸ h.depth
  rounds := hr.left ▸ hr.rounds ▸ h.rounds

theorem rank_lt_six (part : Nonterminal) : part.rank < 6 := by
  cases part <;> simp [Nonterminal.rank]

/-- A token makes room for every part that begins behind it. -/
theorem Stands.later {depth' : Nat} {inner : Nonterminal} {ts' : List Token}
    (h : Stands depth part r ts) (hdepth : depth ≤ depth' + 1) (hleft : r'.left < r.left)
    (hrounds : r'.rounds = r.rounds) (hfaces : r'.Faces ts')
    (hends : ¬Continues (r'.behind ts'.length).next.kind) : Stands depth' inner r' ts' where
  faces := hfaces
  ends := hends
  depth := by
    have hroom := h.depth
    have hrank := rank_lt_six inner
    omega
  rounds := hrounds ▸ hleft.trans h.rounds

/-- A part has room for the parts inside of it that begin at the same token. -/
theorem Stands.inner {inner : Nonterminal} (h : Stands (depth + 1) part r ts)
    (hrank : inner.rank < part.rank) :
    Stands depth inner r ts where
  faces := h.faces
  ends := h.ends
  depth := by have := h.depth; omega
  rounds := h.rounds

/-- Every operator along the left operands takes one round, and the rounds give the value. -/
def Climbs (depth strength : Nat) (s : Surroundings) (r : Reader) (steps count : Nat) (v : Int) :
    Prop :=
  ∃ first r₁ location w r', Settles (parse depth .unary) s r (some first) r₁
    ∧ r₁.rounds = r.rounds
    ∧ (∀ rounds, repeatWith (multaryRound (parse depth) strength) (rounds + steps) first s r₁
      = repeatWith (multaryRound (parse depth) strength) rounds (.ofInt location w) s r')
    ∧ signed w = v ∧ (r.behind count).Agrees r'

/-- What reads an operand reads a formula without operators along its left operands. -/
theorem GivesInteger.climbs {count : Nat} (h : GivesInteger (parse depth .unary) s r count v) :
    Climbs depth strength s r 0 count v := by
  obtain ⟨location, w, r', hsettles, hw, hagrees⟩ := h
  exact ⟨_, r', location, w, r', hsettles, hagrees.rounds_behind, fun _ => rfl, hw, hagrees⟩

/-- The rounds end at an operator that does not bind tightly enough. -/
theorem Climbs.gives {steps count : Nat} (h : Climbs depth strength s r steps count v)
    (hsteps : steps < r.rounds)
    (hnext : ∀ k, operatorStrength? (r.behind count).next.kind = some k → k ≤ strength) :
    GivesInteger (parse (depth + 1) (.multary strength)) s r count v := by
  obtain ⟨first, r₁, location, w, r', hfirst, hrounds, hloop, hw, hagrees⟩ := h
  refine ⟨location, w, r', ?_, hw, hagrees⟩
  -- One round for each operator, and one that ends the loop.
  obtain ⟨rounds, hlast⟩ : ∃ rounds, r₁.rounds = rounds + 1 + steps :=
    ⟨r₁.rounds - 1 - steps, by omega⟩
  have hstops : Settles (multaryRound (parse depth) strength (.ofInt location w)) s r' _ r' :=
    multaryRound_stops (hagrees.next ▸ hnext)
  show Settles (parseMultary (parse depth) strength) s r _ r'
  rw [parseMultary_eq]
  refine hfirst.bind ?_
  show repeatWith (multaryRound (parse depth) strength) r₁.rounds first s r₁ = _
  rw [hlast, hloop]
  exact repeatWith_stops hstops rounds

/-- One more operator, whose right operand is read by itself, takes one more round. -/
theorem Climbs.step {op : Joint} {steps count count' : Nat} {x y : Int}
    (h : Climbs depth strength s r steps count x)
    (hkind : (r.behind count).next.kind = op.kind) (hlt : strength < op.operator.strength)
    (hright : ∀ r₂, (r.behind (count + 1)).Agrees r₂ →
      GivesInteger (parse depth (.multary op.operator.strength)) s r₂ count' y)
    (hv : op.apply? x y = some v) :
    Climbs depth strength s r (steps + 1) (count + (count' + 1)) v := by
  obtain ⟨first, r₁, location, w, r₂, hfirst, hrounds, hloop, rfl, hagrees⟩ := h
  -- The operator is the next token wherever the rounds so far have ended.
  have hbehind : (r.behind (count + 1)).Agrees r₂.consumed :=
    r.behind_add count 1 ▸ hagrees.consumed
  obtain ⟨location', w', r', hsettles, rfl, hagrees'⟩ := hright r₂.consumed hbehind
  obtain ⟨z, hbinary, hz⟩ := parseBinary_settles location hsettles hv
  have hround := multaryRound_goesOn (hagrees.next ▸ hkind) hlt hbinary
  refine ⟨first, r₁, location, z, r', hfirst, hrounds, fun rounds => ?_, hz, ?_⟩
  · rw [Nat.add_comm steps 1, ← Nat.add_assoc, hloop]
    exact repeatWith_goesOn hround rounds
  · have hcount : count + (count' + 1) = count + 1 + count' := by omega
    rw [hcount, Reader.behind_add]
    exact (hbehind.behind count').trans hagrees'

/-- What stands between parentheses is read as a sequence of one expression. -/
theorem GivesInteger.sequence {count : Nat}
    (h : GivesInteger (parse depth (.multary 0)) s r count v)
    (hclose : (r.behind count).next.kind = .parenClose) (hrounds : 0 < r.rounds) :
    GivesInteger (parse (depth + 2) .sequence) s r count v := by
  obtain ⟨location, w, r', hsettles, hw, hagrees⟩ := h
  have hclose : r'.next.kind = .parenClose := hagrees.next ▸ hclose
  have hrounds : 0 < r'.rounds := hagrees.rounds_behind ▸ hrounds
  exact ⟨location, w, r',
    parseSequence_settles (parseAssignment_settles hsettles hclose) hclose hrounds, hw, hagrees⟩

end Parser

namespace Formula

open ShaderEffect.Parser

/-- Whether tokens are read as one operand. -/
def IsOperand (ts : List Token) (v : Int) : Prop :=
  ∀ ⦃depth : Nat⦄ ⦃s : Surroundings⦄ ⦃r : Reader⦄, Stands depth .unary r ts →
    GivesInteger (parse depth .unary) s r ts.length v

/-- Whether tokens are read as an operand with the operators behind it, where those bind more
tightly than the operator in front of it and at least as tightly as the one behind them. -/
def IsChain (e : Formula) (ts : List Token) (v : Int) : Prop :=
  ∀ ⦃depth strength : Nat⦄ ⦃s : Surroundings⦄ ⦃r : Reader⦄,
    Stands depth .unary r ts → strength < e.strength →
    (∀ k, operatorStrength? (r.behind ts.length).next.kind = some k → k ≤ e.strength) →
    Climbs depth strength s r e.steps ts.length v

variable {e l r : Formula} {op : Joint} {t before after : Token}
  {ts ls rs : List Token} {v x y : Int}

/-- A chain is read as a whole up to an operator that does not bind tightly enough. -/
theorem IsChain.multary (h : e.IsChain ts v) (hspells : e.Spells ts) {depth strength : Nat}
    {s : Surroundings} {r : Reader} (hstands : Stands depth (.multary strength) r ts)
    (hstrength : strength < e.strength)
    (hnext : ∀ k, operatorStrength? (r.behind ts.length).next.kind = some k → k ≤ strength) :
    GivesInteger (parse depth (.multary strength)) s r ts.length v := by
  obtain ⟨depth, rfl⟩ := Nat.exists_eq_add_one_of_ne_zero (Nat.ne_zero_of_lt hstands.depth)
  have hsteps := hspells.steps_lt
  have hleft := Reader.left_behind hstands.faces hspells.ne_eof
  have hrounds := hstands.rounds
  have hclimbs : Climbs depth strength s r e.steps ts.length v :=
    h (hstands.inner Nat.one_pos) hstrength fun k hk => (hnext k hk).trans hstrength.le
  exact hclimbs.gives (by omega) hnext

/-- Up to a closing parenthesis, a chain is read as a sequence of one expression. -/
theorem IsChain.sequence (h : e.IsChain ts v) (hspells : e.Spells ts) {depth : Nat}
    {s : Surroundings} {r : Reader} (hstands : Stands depth .sequence r ts)
    (hclose : (r.behind ts.length).next.kind = .parenClose) :
    GivesInteger (parse depth .sequence) s r ts.length v := by
  have hdepth := hstands.depth
  obtain ⟨depth, rfl⟩ : ∃ inner, depth = inner + 2 :=
    Nat.exists_eq_add_of_le' (Nat.le_of_add_left_le hdepth)
  have hassignment : Stands (depth + 1) .assignment r ts := hstands.inner (by decide)
  have hinside : Stands depth (.multary 0) r ts := hassignment.inner (by decide)
  have hnext : ∀ k, operatorStrength? (r.behind ts.length).next.kind = some k → k ≤ 0 := by
    rw [hclose]
    exact nofun
  exact (h.multary hspells hinside e.strength_pos hnext).sequence hclose
    (Nat.zero_lt_of_lt hstands.rounds)

theorem IsOperand.chain (h : IsOperand ts v) (hsteps : e.steps = 0) : e.IsChain ts v :=
  fun _ _ _ _ hstands _ _ => hsteps ▸ (h hstands).climbs

theorem isOperand_literal (ht : t.kind = .intLiteral) : IsOperand [t] (signed t.word) := by
  intro depth s r h
  obtain ⟨depth, rfl⟩ := Nat.exists_eq_add_one_of_ne_zero (Nat.ne_zero_of_lt h.depth)
  obtain ⟨rfl, -⟩ := h.faces
  have hrounds : 0 < r.consumed.rounds := Nat.zero_lt_of_lt h.rounds
  exact ⟨_, _, _, parseUnary_settles (parseOperand_literal ht) hrounds h.ends, rfl, .refl _⟩

theorem IsOperand.sign {sign : Sign} (h : IsOperand ts v) (ht : t.kind = sign.kind) :
    IsOperand (t :: ts) (sign.apply v) := by
  intro depth s r hstands
  obtain ⟨depth, rfl⟩ := Nat.exists_eq_add_one_of_ne_zero (Nat.ne_zero_of_lt hstands.depth)
  obtain ⟨rfl, hfaces⟩ := hstands.faces
  have hlt : r.consumed.left < r.left := Reader.left_consumed_lt (ht ▸ Sign.kind_ne_eof)
  have hrest : Stands depth .unary r.consumed ts :=
    hstands.later (Nat.le_refl _) hlt rfl hfaces hstands.ends
  obtain ⟨location, w, r', hsettles, rfl, hagrees⟩ := h (s := s) hrest
  have hrounds : 0 < r'.rounds := hagrees.rounds_behind ▸ Nat.zero_lt_of_lt hrest.rounds
  have hnext : ¬Continues r'.next.kind := hagrees.next ▸ hstands.ends
  exact ⟨location, sign.word w, r',
    parseUnary_settles (parseOperand_sign ht hsettles) hrounds hnext, sign.signed_word w, hagrees⟩

/-- Parentheses make an operand of a chain. -/
theorem IsChain.paren (h : e.IsChain ts v) (hspells : e.Spells ts)
    (hbefore : before.kind = .parenOpen)
    (hafter : after.kind = .parenClose) : IsOperand (before :: (ts ++ [after])) v := by
  intro depth s r hstands
  obtain ⟨depth, rfl⟩ := Nat.exists_eq_add_one_of_ne_zero (Nat.ne_zero_of_lt hstands.depth)
  obtain ⟨rfl, hfaces⟩ := hstands.faces
  obtain ⟨hinside, hlast, -⟩ := Reader.faces_append.mp hfaces
  have hlt : r.consumed.left < r.left := Reader.left_consumed_lt (hbefore ▸ nofun)
  have hclose : (r.consumed.behind ts.length).next.kind = .parenClose := hlast ▸ hafter
  have hends : ¬Continues (r.consumed.behind ts.length).next.kind := by simp [hclose, Continues]
  have hrest : Stands depth .sequence r.consumed ts :=
    hstands.later (Nat.le_refl _) hlt rfl hinside hends
  -- A cast may begin in the same way. The place is kept to return to, but there is no need to.
  have hmarked : r.consumed.Agrees
      { r.consumed with savedNext := r.consumed.next, savedCursor := r.consumed.cursor } :=
    ⟨_, _, rfl⟩
  obtain ⟨location, w, r', hsettles, hw, hagrees⟩ :=
    h.sequence (s := s) hspells (hrest.agrees hmarked) ((hmarked.behind _).next ▸ hclose)
  have hagrees : (r.consumed.behind ts.length).Agrees r' := (hmarked.behind _).trans hagrees
  have hbehind : (r.behind (r.next :: (ts ++ [after])).length).Agrees r'.consumed := by
    rw [List.length_cons, List.length_append, Reader.behind, Reader.behind_add]
    exact hagrees.consumed
  have hrounds : 0 < r'.rounds := hagrees.rounds_behind ▸ Nat.zero_lt_of_lt hrest.rounds
  have hparenthesized :
      Settles (parseParenthesized (parse depth) r.next.location) s r.consumed _ r'.consumed :=
    parseParenthesized_settles rfl (Nat.zero_lt_of_lt hrest.rounds) (hspells.not_beginsType hinside)
      hsettles (hagrees.next ▸ hclose) hrounds (hbehind.next ▸ hstands.ends)
  exact ⟨location, w, r'.consumed, parseUnary_paren hbefore hparenthesized, hw, hbehind⟩

theorem IsChain.binary (hl : l.IsChain ls x) (hr : r.IsChain rs y) (hls : l.Spells ls)
    (hrs : r.Spells rs) (hlevel : op.level ≤ l.level) (hlevel' : op.level < r.level)
    (ht : t.kind = op.kind) (hv : op.apply? x y = some v) :
    (binary op l r).IsChain (ls ++ t :: rs) v := by
  intro depth strength s reader h hstrength hnext
  obtain ⟨hfaces, hoperator, hrest⟩ := Reader.faces_append.mp h.faces
  have hkind : (reader.behind ls.length).next.kind = op.kind := hoperator ▸ ht
  have hleft : Stands depth .unary reader ls :=
    ⟨hfaces, hkind ▸ Joint.not_continues, h.depth, h.rounds⟩
  have hlength : (ls ++ t :: rs).length = ls.length + (rs.length + 1) := List.length_append
  have hbehind :
      reader.behind (ls ++ t :: rs).length = (reader.behind (ls.length + 1)).behind rs.length := by
    rw [hlength, Nat.add_comm rs.length, ← Nat.add_assoc, Reader.behind_add]
  -- The operator ends what its left operand is made of.
  have hclimbs : Climbs depth strength s reader l.steps ls.length x := by
    refine hl hleft (Nat.lt_of_lt_of_le hstrength (strength_le hlevel)) fun k hk => ?_
    rw [hkind, op.operatorStrength?_kind] at hk
    exact Option.some.inj hk ▸ strength_le hlevel
  have hright :
      Stands depth (.multary op.operator.strength) (reader.behind (ls.length + 1)) rs := by
    have hconsumed : reader.behind (ls.length + 1) = (reader.behind ls.length).consumed :=
      reader.behind_add ls.length 1
    have hlt : (reader.behind ls.length).consumed.left < (reader.behind ls.length).left :=
      Reader.left_consumed_lt (hkind ▸ Joint.kind_ne_eof)
    have hle := Reader.left_behind hfaces hls.ne_eof
    refine h.later (Nat.le_succ depth) ?_ (reader.rounds_behind _) (hconsumed ▸ hrest)
      (hbehind ▸ h.ends)
    rw [hconsumed]
    omega
  rw [hlength]
  refine hclimbs.step hkind hstrength (fun r₂ hagrees => ?_) hv
  refine hr.multary hrs (hright.agrees hagrees) (strength_lt hlevel') ?_
  rw [(hagrees.behind rs.length).next, ← hbehind]
  exact hnext

/-- Every formula that is grouped as in C is read as a chain, and as an operand if it is one. -/
theorem Spells.reads (h : e.Spells ts) (hgrouped : e.Grouped) (hv : e.value? = some v) :
    (e.level = 9 → IsOperand ts v) ∧ e.IsChain ts v := by
  -- An operator takes both operands as chains: the left one is read by the same loop, the right one
  -- by its own.
  induction h generalizing v with
  | literal ht =>
    obtain rfl := Option.some.inj hv
    have hoperand := isOperand_literal ht
    exact ⟨fun _ => hoperand, hoperand.chain rfl⟩
  | paren hbefore hafter h ih =>
    have hoperand := (ih hgrouped hv).2.paren h hbefore hafter
    exact ⟨fun _ => hoperand, hoperand.chain rfl⟩
  | sign ht h ih =>
    obtain ⟨x, hx, rfl⟩ := Option.map_eq_some_iff.mp hv
    obtain ⟨hgrouped, hlevel⟩ := hgrouped
    have hoperand := ((ih hgrouped hx).1 hlevel).sign ht
    exact ⟨fun _ => hoperand, hoperand.chain rfl⟩
  | @binary op l r t ls rs ht hl hr ihl ihr =>
    obtain ⟨x, hx, hv⟩ := Option.bind_eq_some_iff.mp hv
    obtain ⟨y, hy, hv⟩ := Option.bind_eq_some_iff.mp hv
    obtain ⟨hgl, hgr, hlevel, hlevel'⟩ := hgrouped
    exact ⟨fun hoperand => absurd hoperand (level_lt op).ne,
      (ihl hgl hx).2.binary (ihr hgr hy).2 hl hr hlevel hlevel' ht hv⟩

/-- Tokens that are made of integer literals, parentheses and operators can be grouped as in C. They
are read as one constant with the value they have then, unless they divide by zero. Nothing is asked
of the generator, and reading stands in front of the token behind them. -/
theorem Spells.parsed_as_value {f : Formula} (hf : f.Spells ts) {depth : Nat} {s : Surroundings}
    {r : Reader} (hstands : Stands depth (.multary 0) r ts)
    (hnext : operatorStrength? (r.behind ts.length).next.kind = none) :
    (∃ e : Formula, e.Grouped ∧ e.Spells ts) ∧
      ∀ e : Formula, e.Grouped → e.Spells ts → ∀ v, e.value? = some v →
        ∃ location w r', parse depth (.multary 0) s r = .done (some (.ofInt location w), r')
          ∧ signed w = v
          ∧ (r.behind ts.length).Agrees r' := by
  refine ⟨hf.exists_grouped, fun e hgrouped he v hv => ?_⟩
  exact (he.reads hgrouped hv).2.multary he hstands e.strength_pos (hnext ▸ nofun)

/-- In front of a difference whose last operand is a product. -/
private def difference : Reader :=
  Reader.consumed { cursor := Token.Cursor.start "10 - 4 - 2 * -3;" {}, rounds := 18 }

private def differenceToken (n : Nat) : Token :=
  (difference.behind n).next

private def differenceTokens : List Token :=
  ([differenceToken 0] ++ differenceToken 1 :: [differenceToken 2]) ++ differenceToken 3 ::
    ([differenceToken 4] ++ differenceToken 5 :: [differenceToken 6, differenceToken 7])

/-- The formula grouped as in C, from the left, with the product on its own. -/
private def differenceFormula : Formula :=
  binary .sub (binary .sub (literal (differenceToken 0).word) (literal (differenceToken 2).word))
    (binary .mul (literal (differenceToken 4).word)
      (sign .minus (literal (differenceToken 7).word)))

theorem difference_parsed_as_value :
    differenceFormula.Spells differenceTokens
      ∧ differenceFormula.Grouped ∧ differenceFormula.value? = some 12
      ∧ Stands (depthFor 16) (.multary 0) difference differenceTokens
      ∧ operatorStrength? (difference.behind differenceTokens.length).next.kind = none
      ∧ ∃ location w r',
        parse (depthFor 16) (.multary 0) {} difference = .done (some (.ofInt location w), r')
        ∧ signed w = 12 ∧ (difference.behind differenceTokens.length).Agrees r' := by
  have hten : (differenceToken 0).kind = .intLiteral := by decide +kernel
  have hfour : (differenceToken 2).kind = .intLiteral := by decide +kernel
  have htwo : (differenceToken 4).kind = .intLiteral := by decide +kernel
  have hthree : (differenceToken 7).kind = .intLiteral := by decide +kernel
  have hspells : differenceFormula.Spells differenceTokens :=
    .binary (by decide +kernel)
      (.binary (by decide +kernel) (.literal hten) (.literal hfour))
      (.binary (by decide +kernel) (.literal htwo) (.sign (by decide +kernel) (.literal hthree)))
  have hgrouped : differenceFormula.Grouped := by
    simp [differenceFormula, Grouped, level, Joint.level]
  have hvalue : differenceFormula.value? = some 12 := by decide +kernel
  have hend : (difference.behind differenceTokens.length).next.kind = .semicolon := by
    decide +kernel
  have hstands : Stands (depthFor 16) (.multary 0) difference differenceTokens :=
    { faces := ⟨rfl, rfl, rfl, rfl, rfl, rfl, rfl, rfl, trivial⟩
      ends := by simp [hend, Continues]
      depth := by decide +kernel
      rounds := by decide +kernel }
  have hnext : operatorStrength? (difference.behind differenceTokens.length).next.kind
      = none := hend ▸ rfl
  exact ⟨hspells, hgrouped, hvalue, hstands, hnext,
    (hspells.parsed_as_value hstands hnext).2 differenceFormula hgrouped hspells 12 hvalue⟩

end Formula
end ShaderEffect

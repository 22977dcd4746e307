import ShaderEffect.Parser.ControlFlow
import ShaderEffect.Proofs.Computation

/-!
The shape of what evaluating an expression requests.

Most requests add to the current block. A short circuit instead fills blocks of its own: its
right operand is evaluated in one block, the left goes on in the block it began in, and both lead
to a third. If both operands turn out to be constants nothing is left of it but the blocks its
operand was evaluated in.

What is known of the values of expressions is kept by all that is done to them
before they are loaded.
-/
namespace ShaderEffect

variable {π : Type}

/-- Requests that compute something in the current block, or that only ask. -/
def Request.isPlain : Request → Bool
  | isInFunction | findStruct _ | findTexture _ | findFunction _ => true
  | load .. | store .. | constant .. | unary .. | binary .. | select .. | call .. => true
  | callIntrinsic .. | construct .. => true
  | defineVariable _ _ _ isGlobal _ => !isGlobal
  | _ => false

/-- The entry of a plain request. -/
abbrev Step (π : Type) := { e : Entry π // e.request.isPlain = true }

/-- The requests of some steps. -/
def Step.entries (steps : List (Step π)) : List (Entry π) :=
  steps.map (·.val)

/-- What the components of a value are that is not a number. -/
def Base.others : List Base :=
  [.void, .string, .struct, .sampler, .texture, .function]

/-- Whether an access keeps what the components of a value are, as all do that only select. -/
def Access.keepsBase (a : Access) : Bool :=
  match a with
  | .cast _ _ | .member _ _ _ => true
  | a => a.source.base = a.target.base

/-- Whether some accesses lead from a value with one base to a value with another. -/
def Access.lead (start : Base) : List Access → Base → Bool
  | [], finish => start = finish
  | a :: rest, finish =>
    a.source.base = start && a.keepsBase && Access.lead a.target.base rest finish

def Access.isMember : Access → Bool
  | .member .. => true
  | _ => false

/-- What is known of an id that stands for a value. -/
inductive Fact where
  /-- There is a value. -/
  | value (id : Id)
  /-- There is a value, or the id is 0, which stands for none. -/
  | valueOrNone (id : Id)
deriving DecidableEq

namespace Expression

/-- Whether an expression is a constant, a variable, or made from a value. -/
def isSolid (e : Expression) (known : List Fact) : Bool :=
  e.isConstant || e.isLvalue || .value e.base ∈ known

/-- Whether an expression is made from something that is not a number. -/
def startsOther (e : Expression) : Bool :=
  Base.others.any fun start => Access.lead start e.chain e.type.base

/-- Whether the value of an expression is computed by an instruction of its own, whatever it is made
from. -/
def isComputed (e : Expression) : Bool :=
  e.startsOther && e.type.isNumeric || e.chain.any Access.isMember

/-- Whether an expression has a value, if it is a number. -/
def isKnown (e : Expression) (known : List Fact) : Bool :=
  e.isSolid known || e.startsOther && .valueOrNone e.base ∈ known || e.chain.any Access.isMember

end Expression

/-- Whether a built-in function gives its argument back. -/
def Intrinsic.passesOn (i : Intrinsic) : Bool :=
  i = .allScalar || i = .anyScalar

/-- What is known of an id that has a value. -/
def Fact.ofValue (id : Id) : List Fact :=
  [.value id, .valueOrNone id]

/-- What a step tells of the value that it gives. -/
def Entry.facts (known : List Fact) : Entry π → List Fact
  | ⟨.load e _, id, _⟩ =>
    if e.isSolid known || e.isComputed then Fact.ofValue id
    else if .valueOrNone e.base ∈ known then [.valueOrNone id] else []
  | ⟨.constant .., id, _⟩ | ⟨.unary .., id, _⟩ | ⟨.binary .., id, _⟩ => Fact.ofValue id
  | ⟨.select .., id, _⟩ | ⟨.call .., id, _⟩ | ⟨.construct .., id, _⟩ => Fact.ofValue id
  | ⟨.callIntrinsic _ i _ args, id, _⟩ =>
    if i = .sincos then [.valueOrNone id]
    else if i.passesOn && !args.all (.value ·.base ∈ known) then [] else Fact.ofValue id
  | _ => []

/-- What is known behind a step. -/
def Entry.extend (known : List Fact) (e : Entry π) : List Fact :=
  e.facts known ++ known

/-- What is known behind some steps. -/
def Step.extend (known : List Fact) (steps : List (Step π)) : List Fact :=
  steps.foldl (fun known s => s.val.extend known) known

/-- A short circuit with what was done once its right operand had been read. -/
structure Circuit (π : Type) extends Parser.Branches where
  /-- The block in which the right operand ended. -/
  operandEnd : Id
  /-- What is added to the left block. -/
  tests : List (Step π)
  condition : Id
  leftEnd : Id
  away : Id
  /-- What is added to the right block. -/
  loads : List (Step π)
  rightEnd : Id
  location : Location
  leftValue : Id
  rightValue : Id
  type : Ty
  result : Id
  note : π

/-- A conditional expression with what was done once both its arms had been read. -/
structure Choice (π : Type) extends Parser.Arms where
  /-- The blocks in which the arms ended. -/
  yesOperandEnd : Id
  noOperandEnd : Id
  /-- What is added to the block of the condition. -/
  tests : List (Step π)
  value : Id
  conditionEnd : Id
  awayYes : Id
  /-- What is added to the block of the first arm. -/
  yesLoads : List (Step π)
  trueValue : Id
  yesEnd : Id
  awayNo : Id
  /-- What is added to the block of the second arm. -/
  noLoads : List (Step π)
  falseValue : Id
  noEnd : Id
  location : Location
  type : Ty
  result : Id
  note : π

section Entries

variable [Inhabited π]

/-- The requests that start the block of a right operand. -/
def Parser.Branches.opening (b : Parser.Branches) : List (Entry π) :=
  [.quiet .isInFunction true, .quiet (.setBlock 0) b.left, .quiet .makeId b.right,
    .quiet .makeId b.merge, .quiet (.enterBlock b.right) ()]

def Circuit.closing (c : Circuit π) : List (Entry π) :=
  .quiet (.setBlock c.left) c.operandEnd :: Step.entries c.tests
    ++ .quiet (.leaveAndBranchConditional c.condition c.right c.merge) c.leftEnd
      :: .quiet (.setBlock c.right) c.away :: Step.entries c.loads
    ++ [.quiet (.leaveAndBranch c.merge .plain) c.rightEnd, .quiet (.enterBlock c.merge) (),
      ⟨.emitPhi c.location c.condition c.left c.rightValue c.rightEnd c.leftValue c.left c.type,
        c.result, c.note⟩]

/-- The requests that start the block of the first arm. -/
def Parser.Arms.opening (a : Parser.Arms) : List (Entry π) :=
  [.quiet .isInFunction true, .quiet .makeId a.merge, .quiet (.setBlock 0) a.condition,
    .quiet .makeId a.yes, .quiet .makeId a.no, .quiet (.enterBlock a.yes) ()]

/-- The requests between the arms. -/
def Choice.between (c : Choice π) : List (Entry π) :=
  [.quiet (.setBlock 0) c.yesOperandEnd, .quiet (.enterBlock c.no) ()]

def Choice.closing (c : Choice π) : List (Entry π) :=
  .quiet (.setBlock c.condition) c.noOperandEnd :: Step.entries c.tests
    ++ .quiet (.leaveAndBranchConditional c.value c.yes c.no) c.conditionEnd
      :: .quiet (.setBlock c.yes) c.awayYes :: Step.entries c.yesLoads
    ++ .quiet (.leaveAndBranch c.merge .plain) c.yesEnd
      :: .quiet (.setBlock c.no) c.awayNo :: Step.entries c.noLoads
    ++ [.quiet (.leaveAndBranch c.merge .plain) c.noEnd, .quiet (.enterBlock c.merge) (),
      ⟨.emitPhi c.location c.value c.condition c.trueValue c.yesEnd c.falseValue c.noEnd c.type,
        c.result, c.note⟩]

end Entries

/-- How an expression was evaluated. -/
inductive Evaluation (π : Type) where
  | nothing
  | step (s : Step π)
  | andThen (first second : Evaluation π)
  /-- A short circuit of constants, which is folded once its operand has been read. -/
  | folded (b : Parser.Branches) (operandEnd : Id) (operand : Evaluation π)
  | circuit (c : Circuit π) (operand : Evaluation π)
  | choice (c : Choice π) (yes no : Evaluation π)

namespace Evaluation

/-- The requests of an evaluation, in order. -/
def entries [Inhabited π] : Evaluation π → List (Entry π)
  | nothing => []
  | step s => [s.val]
  | andThen a b => a.entries ++ b.entries
  | folded b operandEnd t => b.opening ++ t.entries ++ [.quiet (.setBlock b.left) operandEnd]
  | circuit c t => c.opening ++ t.entries ++ c.closing
  | choice c yes no => c.opening ++ yes.entries ++ c.between ++ no.entries ++ c.closing

/-- Whether all of an evaluation happens in one block. -/
def isStraight : Evaluation π → Bool
  | nothing | step _ => true
  | andThen a b => a.isStraight && b.isStraight
  | folded .. | circuit .. | choice .. => false

/-- Whether a short circuit is left of an evaluation or of an operand in it. -/
def branches : Evaluation π → Bool
  | nothing | step _ => false
  | andThen a b => a.branches || b.branches
  | folded _ _ t => t.branches
  | circuit .. | choice .. => true

/-- Whether an evaluation ends in another block than it began in. -/
def moves : Evaluation π → Bool
  | nothing | step _ | folded .. => false
  | andThen a b => a.moves || b.moves
  | circuit .. | choice .. => true

/-- Whether no short circuit is left inside of an operand or arm of another. -/
def isFlat : Evaluation π → Bool
  | nothing | step _ => true
  | andThen a b => a.isFlat && b.isFlat
  | folded _ _ t => !t.branches
  | circuit _ t => !t.branches
  | choice _ yes no => !yes.branches && !no.branches

/-- What is known behind an evaluation. What only a folded operand computed is not. -/
def extend (known : List Fact) : Evaluation π → List Fact
  | nothing => known
  | step s => s.val.extend known
  | andThen a b => b.extend (a.extend known)
  | folded _ _ _ => known
  | circuit c t =>
    Fact.ofValue c.result ++ Step.extend (Step.extend (t.extend known) c.tests) c.loads
  | choice c yes no =>
    Fact.ofValue c.result
      ++ Step.extend (Step.extend (Step.extend (no.extend (yes.extend known)) c.tests) c.yesLoads)
        c.noLoads

/-- Whether all conditions that are branched on, and all values that a branch gives, have a value
where they are used. What is not a number may have none. -/
def Grounded (known : List Fact) : Evaluation π → Prop
  | nothing | step _ | folded .. => True
  | andThen a b => a.Grounded known ∧ b.Grounded (a.extend known)
  | circuit c t =>
    let left := Step.extend (t.extend known) c.tests
    t.Grounded known ∧ .value c.condition ∈ left ∧ .value c.leftValue ∈ left
      ∧ .value c.rightValue ∈ Step.extend left c.loads
  | choice c yes no =>
    let test := Step.extend (no.extend (yes.extend known)) c.tests
    let first := Step.extend test c.yesLoads
    let second := Step.extend first c.noLoads
    yes.Grounded known ∧ no.Grounded (yes.extend known) ∧ .value c.value ∈ test
      ∧ .valueOrNone c.trueValue ∈ first ∧ .valueOrNone c.falseValue ∈ second
      ∧ (c.type.isNumeric = true → .value c.trueValue ∈ first
        ∧ .value c.falseValue ∈ second)

end Evaluation

theorem Entry.subset_extend (known : List Fact) (e : Entry π) : known ⊆ e.extend known :=
  List.subset_append_right _ _

theorem Step.subset_extend (known : List Fact) (steps : List (Step π)) :
    known ⊆ Step.extend known steps := by
  induction steps generalizing known with
  | nil => exact List.Subset.refl _
  | cons s steps ih => exact List.Subset.trans (s.val.subset_extend known) (ih _)

theorem Evaluation.subset_extend (t : Evaluation π) (known : List Fact) :
    known ⊆ t.extend known := by
  induction t generalizing known with
  | nothing => exact List.Subset.refl _
  | step s => exact s.val.subset_extend known
  | andThen a b iha ihb => exact List.Subset.trans (iha known) (ihb _)
  | folded b e t ih => exact List.Subset.refl _
  | circuit c t ih =>
    calc known
      _ ⊆ _ := ih known
      _ ⊆ _ := Step.subset_extend _ _
      _ ⊆ _ := Step.subset_extend _ _
      _ ⊆ _ := List.subset_append_right _ _
  | choice c yes no ihy ihn =>
    calc known
      _ ⊆ _ := ihy known
      _ ⊆ _ := ihn _
      _ ⊆ _ := Step.subset_extend _ _
      _ ⊆ _ := Step.subset_extend _ _
      _ ⊆ _ := Step.subset_extend _ _
      _ ⊆ _ := List.subset_append_right _ _

theorem Access.lead_concat {start finish : Base} {chain : List Access} {a : Access}
    (h : Access.lead start chain finish = true) (hsource : a.source.base = finish)
    (hkeeps : a.keepsBase = true) : Access.lead start (chain ++ [a]) a.target.base = true := by
  induction chain generalizing start with
  | nil => simp_all [Access.lead]
  | cons b rest ih =>
    simp only [Access.lead, Bool.and_eq_true, decide_eq_true_eq] at h
    simp only [List.cons_append, Access.lead, Bool.and_eq_true, decide_eq_true_eq]
    exact ⟨h.1, ih h.2⟩

namespace Expression

variable {e e' : Expression} {known known' : List Fact}

theorem isSolid_mono (h : known ⊆ known') (he : e.isSolid known = true) :
    e.isSolid known' = true := by
  simp only [isSolid, Bool.or_eq_true, decide_eq_true_eq] at he ⊢
  exact he.imp_right (@h _)

theorem isKnown_mono (h : known ⊆ known') (he : e.isKnown known = true) :
    e.isKnown known' = true := by
  simp only [isKnown, Bool.or_eq_true, Bool.and_eq_true, decide_eq_true_eq] at he ⊢
  exact he.imp_left (Or.imp (isSolid_mono h) (And.imp_right (@h _)))

/-- What an operation on an expression keeps: where its value comes from, and how it is reached. -/
structure Refines (e e' : Expression) : Prop where
  base : e'.base = e.base
  isLvalue : e'.isLvalue = e.isLvalue
  isConstant : e'.isConstant = e.isConstant
  startsOther : e.isConstant = false → e.startsOther = true → e'.startsOther = true
  members : e.chain.any Access.isMember = true → e'.chain.any Access.isMember = true

theorem Refines.refl (e : Expression) : Refines e e := ⟨rfl, rfl, rfl, fun _ => id, id⟩

theorem Refines.trans {e₁ e₂ e₃ : Expression} (h : Refines e₁ e₂)
    (h' : Refines e₂ e₃) : Refines e₁ e₃ :=
  ⟨h'.base.trans h.base, h'.isLvalue.trans h.isLvalue, h'.isConstant.trans h.isConstant,
    fun hc hv => h'.startsOther (h.isConstant.trans hc) (h.startsOther hc hv),
    h'.members ∘ h.members⟩

theorem Refines.isKnown (h : Refines e e') (he : e.isKnown known = true) :
    e'.isKnown known = true := by
  simp only [Expression.isKnown, isSolid, Bool.or_eq_true, Bool.and_eq_true] at he ⊢
  rw [h.base, h.isLvalue, h.isConstant]
  cases hc : e.isConstant with
  | true => simp only [true_or]
  | false =>
    rw [hc] at he
    exact he.imp (Or.imp_right (And.imp_left (h.startsOther hc))) h.members

/-- A value that is converted to a number is computed, unless it was known before. -/
theorem isSolid_or_isComputed (he : e.isKnown known = true) (ht : e.type.isNumeric = true) :
    (e.isSolid known || e.isComputed) = true := by
  simp only [isKnown, isComputed, Bool.or_eq_true, Bool.and_eq_true] at he ⊢
  tauto

theorem push_refines {a : Access} {t : Ty} (hsource : a.source.base = e.type.base)
    (hkeeps : a.keepsBase = true) (htarget : t.base = a.target.base) :
    Refines e { e.push a with type := t } where
  base := rfl
  isLvalue := rfl
  isConstant := rfl
  startsOther _ h := by
    simp only [Expression.startsOther, push, htarget, List.any_eq_true] at h ⊢
    obtain ⟨start, hstart, hlead⟩ := h
    exact ⟨start, hstart, Access.lead_concat hlead hsource hkeeps⟩
  members h := by simp only [push, List.any_append, h, Bool.true_or]

/-- A constant that changes its value and type. -/
theorem constant_refines (hc : e.isConstant = true) (value : Constant) (t : Ty) :
    Refines e { e with value, type := t } where
  base := rfl
  isLvalue := rfl
  isConstant := rfl
  startsOther h := by rw [hc] at h; cases h
  members := id

theorem addSwizzle_refines {lanes : List Int} {n : UInt32} (h : e.addSwizzle lanes n = .ok e') :
    Refines e e' := by
  dsimp only [addSwizzle] at h
  split at h
  · rename_i hc
    split at h
    · cases h
    · obtain ⟨picked, -, h⟩ := except_bind_eq_ok.mp h
      obtain rfl := except_pure_eq_ok.mp h
      exact constant_refines hc _ _
  · split at h
    · obtain rfl := except_pure_eq_ok.mp h
      exact push_refines rfl (decide_eq_true rfl) rfl
    · obtain rfl := except_pure_eq_ok.mp h
      exact push_refines rfl (decide_eq_true rfl) rfl

theorem base_eq_of_same {t u : Ty} (h : t.same u = true) : t.base = u.base := by
  simp only [Ty.same, Bool.and_eq_true, decide_eq_true_eq] at h
  exact h.1.1.1.1

theorem addCast_refines {t : Ty} (h : e.addCast t = .ok e') :
    Refines e e' ∧ e'.type.base = t.base := by
  dsimp only [addCast] at h
  -- The number of components is changed first, then what they are.
  obtain ⟨e₁, hr, h⟩ : ∃ e₁, Refines e e₁ ∧ (if e₁.type.same t = true then pure e₁
      else if e₁.isConstant = true then do
        let value ← Constant.convert e₁.type t e₁.value
        pure { e₁ with value, type := t.readOnly }
      else pure { e₁.push (.cast e₁.type t) with type := t.readOnly }) = Except.ok e' := by
    split at h
    · obtain ⟨lanes, -, h⟩ := except_bind_eq_ok.mp h
      obtain ⟨e₁, h₁, h⟩ := except_bind_eq_ok.mp h
      exact ⟨e₁, addSwizzle_refines h₁, h⟩
    · exact ⟨e, .refl e, h⟩
  split at h
  · rename_i hsame
    obtain rfl := except_pure_eq_ok.mp h
    exact ⟨hr, base_eq_of_same hsame⟩
  · split at h
    · rename_i hc
      obtain ⟨value, -, h⟩ := except_bind_eq_ok.mp h
      obtain rfl := except_pure_eq_ok.mp h
      exact ⟨hr.trans (constant_refines hc _ _), rfl⟩
    · obtain rfl := except_pure_eq_ok.mp h
      exact ⟨hr.trans (push_refines rfl rfl rfl), rfl⟩

theorem indexed_base (t : Ty) : t.indexed.base = t.base := by
  unfold Ty.indexed
  split
  · rfl
  · split
    · rfl
    · split <;> rfl

theorem addConstantIndex_refines {i : UInt32} (h : e.addConstantIndex i = .ok e') :
    Refines e e' := by
  dsimp only [addConstantIndex] at h
  split at h
  · rename_i hc
    obtain ⟨value, -, h⟩ := except_bind_eq_ok.mp h
    obtain rfl := except_pure_eq_ok.mp h
    exact constant_refines hc _ _
  · obtain rfl := except_pure_eq_ok.mp h
    exact push_refines rfl (decide_eq_true (indexed_base _).symm) rfl

theorem addDynamicIndex_refines (hc : e.isConstant = false) (i : Id) :
    Refines e (e.addDynamicIndex i) := by
  have h : Refines e (e.push (.dynamicIndex e.type e.type.indexed i)) :=
    push_refines rfl (decide_eq_true (indexed_base _).symm) rfl
  exact ⟨h.base, h.isLvalue, hc.symm, h.startsOther, h.members⟩

theorem makeReadOnly_refines (duplicated : Bool) :
    Refines e (Parser.makeReadOnly e duplicated) := by
  unfold Parser.makeReadOnly
  split
  · exact ⟨rfl, rfl, rfl, fun _ => id, id⟩
  · exact .refl e

theorem isKnown_addMember (i : UInt32) (t : Ty) : (e.addMember i t).isKnown known = true := by
  simp only [isKnown, addMember, push, List.any_append, List.any_cons, Access.isMember,
    Bool.true_or, Bool.or_true]

theorem isKnown_of_isConstant (hc : e.isConstant = true) : e.isKnown known = true := by
  simp only [isKnown, isSolid, hc, Bool.true_or]

theorem isKnown_toLvalue (location : Location) (base : Id) (t : Ty) :
    (e.toLvalue location base t).isKnown known = true := by
  simp only [isKnown, isSolid, toLvalue, Bool.true_or, Bool.or_true]

theorem isKnown_toRvalue (location : Location) {base : Id} (t : Ty) (h : .value base ∈ known) :
    (e.toRvalue location base t).isKnown known = true := by
  simp only [isKnown, isSolid, toRvalue, h, decide_true, Bool.true_or, Bool.or_true]

theorem isKnown_toRvalue_other (location : Location) {base : Id} {t : Ty} (ht : t.isNumeric = false)
    (h : .valueOrNone base ∈ known) :
    (e.toRvalue location base t).isKnown known = true := by
  have hstart : (e.toRvalue location base t).startsOther = true := by
    simp only [startsOther, toRvalue, Ty.readOnly, Ty.withQualifiers, Access.lead]
    cases hbase : t.base <;> simp_all [Ty.isNumeric, Base.others]
  have hbase : .valueOrNone (e.toRvalue location base t).base ∈ known := h
  simp only [isKnown, hstart, hbase, decide_true, Bool.and_self, Bool.true_or, Bool.or_true]

end Expression
end ShaderEffect

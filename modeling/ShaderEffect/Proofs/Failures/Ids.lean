import Mathlib
import ShaderEffect.Parser.Run
import ShaderEffect.Proofs.Reading.Rules

/-!
What is known of the values that parsing hands on.

A part of the parser that gives up has reported an error, or has met the id of a declaration that
had given up before. So whether failures are reported is a question about ids as well: one that was
handed out must not be mistaken for the one that stands for a failed declaration.
-/
namespace ShaderEffect

variable {α γ : Type}

/-- What a whole run comes to: how many ids it hands out, and whether it reports an error. -/
structure Horizon where
  /-- The number of the first id that is not handed out. -/
  count : Nat
  /-- Whether an error is reported. -/
  failed : Prop
  /-- Whether it matters which structures types refer to. -/
  typed : Prop
  pos : 0 < count
  lt : count < 2 ^ 32

namespace Horizon

variable {w : Horizon}

/-- Whether an id is handed out. The id 0 counts as one. -/
def Made (w : Horizon) (id : Id) : Prop :=
  id.toNat < w.count

/-- Whether an id is handed out, or stands for a declaration that was reported. -/
def Valid (w : Horizon) (id : Id) : Prop :=
  w.Made id ∨ w.failed ∧ id = Id.invalid

theorem made_zero : w.Made 0 := w.pos

theorem Made.ne_invalid {id : Id} (h : w.Made id) : id ≠ Id.invalid := by
  rintro rfl
  have := w.lt
  exact absurd h (by simp only [Made, Id.invalid, UInt32.reduceToNat]; omega)

theorem Valid.failed (h : w.Valid Id.invalid) : w.failed :=
  h.elim (fun hmade => absurd rfl hmade.ne_invalid) And.left

/-- An id that is made while there are some left. -/
theorem made_ofNat {n : Nat} (h : n < w.count) : w.Made (UInt32.ofNat n) := by
  rwa [Made, UInt32.toNat_ofNat_of_lt' (Nat.lt_trans h w.lt)]

end Horizon

/-- When a value is a proper one: its ids are handed out, and it does not stand for a failure,
unless an error is reported. -/
class Judged (α : Type) where
  proper : Horizon → α → Prop

/-- Whether a value is a proper one. -/
def Proper (w : Horizon) [Judged α] (a : α) : Prop :=
  Judged.proper w a

/-- Nothing is asked of values without ids. -/
instance (priority := low) Judged.any : Judged α := ⟨fun _ _ => True⟩

instance : Judged UInt32 := ⟨Horizon.Valid⟩
instance : Judged Bool := ⟨fun w b => b = true ∨ w.failed⟩
instance [Judged α] : Judged (Option α) := ⟨fun w o => o.elim w.failed (Proper w)⟩
instance [Judged α] [Judged γ] :
    Judged (α ⊕ γ) := ⟨fun w => Sum.elim (Proper w) (Proper w)⟩
instance [Judged α] [Judged γ] :
    Judged (α × γ) := ⟨fun w c => Proper w c.1 ∧ Proper w c.2⟩
instance [Judged α] : Judged (List α) := ⟨fun w l => ∀ a ∈ l, Proper w a⟩

instance : Judged Base := ⟨fun _ b => b ≠ .function⟩
instance : Judged Ty := ⟨fun w t => t.base ≠ .function ∧ (w.typed → w.Made t.definition)⟩
instance : Judged Access := ⟨fun w a => Proper w a.source ∧ Proper w a.target⟩
instance : Judged Expression :=
  ⟨fun w e => w.Valid e.base ∧ Proper w e.type ∧ Proper w e.chain⟩
instance : Judged Member := ⟨fun w m => Proper w m.type⟩
instance : Judged FunctionDecl := ⟨fun w d => Proper w d.returnType ∧ Proper w d.parameters⟩
instance : Judged StructDecl :=
  ⟨fun w d => (w.typed → w.Made d.definition) ∧ Proper w d.members⟩
instance : Judged Texture := ⟨fun w t => w.Made t.id⟩
instance : Judged Sampler := ⟨fun w s => w.Made s.id⟩

/-- Only functions have the type of a function. -/
instance : Judged Symbol :=
  ⟨fun w s => w.Valid s.id ∧ (s.kind = .variable ∨ s.kind = .constant → Proper w s.type) ∧
    (s.kind = .struct → w.Made s.id) ∧ (s.type.isFunction → s.kind = .function)
      ∧ ∀ d ∈ s.function, Proper w d⟩

/-- The names that are declared stand for something proper. -/
instance : Judged Reader :=
  ⟨fun w r => (∀ e ∈ r.symbols.entries, Proper w e.symbol) ∧ Proper w r.returnType⟩

namespace Parser

instance : Judged Named := ⟨fun w n => Proper w n.symbol⟩
instance : Judged Elements := ⟨fun w s => Proper w s.values ∧ Proper w s.type⟩
instance : Judged Annotations := ⟨fun w s => Proper w s.valid⟩
instance : Judged Fields := ⟨fun w s => Proper w s.members ∧ Proper w s.valid⟩
instance : Judged Cases := ⟨fun w s => Proper w s.valid⟩
instance : Judged PassDraft := ⟨fun w d => Proper w d.valid⟩
instance : Judged Passes := ⟨fun w s => Proper w s.valid⟩

instance : Judged Tail :=
  ⟨fun w t => Proper w t.type ∧ (∀ e ∈ t.init, Proper w e) ∧ Proper w t.valid⟩

end Parser

/-- Nothing is known of a value. -/
def Anything (_ : α) : Prop := True

/-- A value is only given where an error is reported. -/
def Failed (w : Horizon) (_ : α) : Prop := w.failed

/-- A value is a proper one, if there is one. -/
def Maybe (w : Horizon) [Judged α] (o : Option α) : Prop :=
  ∀ a ∈ o, Proper w a

/-- There is a value, unless an error is reported. -/
def Present (w : Horizon) (o : Option α) : Prop :=
  o = none → w.failed

/-- The first part of a value is a proper one. -/
def First (w : Horizon) [Judged α] (c : α × γ) : Prop :=
  Proper w c.1

/-- Whether a base is that of functions. -/
abbrev isFunctionBase : Base → Bool
  | .function => true
  | _ => false

/-- Whether one fact follows from others by looking at how values are made. -/
class Entails (Γ A : Prop) : Prop where
  entails : Γ → A

namespace Entails

variable {Γ A B : Prop} {w : Horizon}

instance self : Entails A A := ⟨id⟩
instance here : Entails (Γ ∧ A) A := ⟨And.right⟩
instance there [h : Entails Γ A] : Entails (Γ ∧ B) A := ⟨fun hΓ => h.entails hΓ.1⟩

instance any {a : α} : Entails Γ (@Proper α w Judged.any a) := ⟨fun _ => trivial⟩

instance ofSome [Judged α] {a : α} [h : Entails Γ (Proper w a)] :
    Entails Γ (Proper w (some a)) := ⟨h.entails⟩
instance ofNone [Judged α] [h : Entails Γ w.failed] :
    Entails Γ (Proper w (none : Option α)) := ⟨h.entails⟩
instance isSome [Judged α] {o : Option α} [h : Entails Γ (Proper w o)] :
    Entails Γ (Proper w o.isSome) where
  entails hΓ := by
    have ho := h.entails hΓ
    cases o with
    | none => exact .inr ho
    | some a => exact .inl rfl

instance ofTrue : Entails Γ (Proper w true) := ⟨fun _ => .inl rfl⟩
instance ofFalse [h : Entails Γ w.failed] :
    Entails Γ (Proper w false) := ⟨fun hΓ => .inr (h.entails hΓ)⟩

instance notFalse : Entails Γ (Proper w (!false)) := ⟨fun _ => .inl rfl⟩

instance ofFailed {b : Bool} [h : Entails Γ w.failed] :
    Entails Γ (Proper w b) := ⟨fun hΓ => .inr (h.entails hΓ)⟩

instance andAlso {b c : Bool} [hb : Entails Γ (Proper w b)] [hc : Entails Γ (Proper w c)] :
    Entails Γ (Proper w (b && c)) :=
  ⟨fun h => (hb.entails h).elim
    (fun hb => (hc.entails h).imp_left fun hc => by rw [hb, hc]; rfl) .inr⟩

instance all {l : List Bool} [h : Entails Γ (Proper w l)] : Entails Γ (Proper w (l.all id)) where
  entails hΓ := by
    by_cases hfailed : w.failed
    · exact .inr hfailed
    · exact .inl (List.all_eq_true.mpr fun b hb => (h.entails hΓ b hb).resolve_right hfailed)

instance ite [Judged α] {c : Prop} [Decidable c] {x y : α} [hx : Entails Γ (Proper w x)]
    [hy : Entails Γ (Proper w y)] :
    Entails Γ (Proper w (if c then x else y)) where
  entails h := by
    split
    · exact hx.entails h
    · exact hy.entails h

instance ifTrue [Judged α] {x y : α} [h : Entails Γ (Proper w x)] :
    Entails Γ (Proper w (if true = true then x else y)) :=
  ⟨h.entails⟩

instance ifFalse [Judged α] {x y : α} [h : Entails Γ (Proper w y)] :
    Entails Γ (Proper w (if false = true then x else y)) :=
  ⟨h.entails⟩

instance inl [Judged α] [Judged γ] {a : α} [h : Entails Γ (Proper w a)] :
    Entails Γ (Proper w (Sum.inl a : α ⊕ γ)) := ⟨h.entails⟩

instance inr [Judged α] [Judged γ] {c : γ} [h : Entails Γ (Proper w c)] :
    Entails Γ (Proper w (Sum.inr c : α ⊕ γ)) := ⟨h.entails⟩

instance pair [Judged α] [Judged γ] {a : α} {c : γ} [ha : Entails Γ (Proper w a)]
    [hc : Entails Γ (Proper w c)] :
    Entails Γ (Proper w (a, c)) := ⟨fun h => ⟨ha.entails h, hc.entails h⟩⟩

instance fst [Judged α] [Judged γ] {c : α × γ} [h : Entails Γ (Proper w c)] :
    Entails Γ (Proper w c.1) :=
  ⟨fun hΓ => (h.entails hΓ).1⟩

instance snd [Judged α] [Judged γ] {c : α × γ} [h : Entails Γ (Proper w c)] :
    Entails Γ (Proper w c.2) :=
  ⟨fun hΓ => (h.entails hΓ).2⟩

instance nil [Judged α] :
    Entails Γ (Proper w ([] : List α)) := ⟨fun _ => List.forall_mem_nil _⟩

instance cons [Judged α] {a : α} {l : List α} [ha : Entails Γ (Proper w a)]
    [hl : Entails Γ (Proper w l)] :
    Entails Γ (Proper w (a :: l)) :=
  ⟨fun h => List.forall_mem_cons.mpr ⟨ha.entails h, hl.entails h⟩⟩

instance append [Judged α] {l m : List α} [hl : Entails Γ (Proper w l)]
    [hm : Entails Γ (Proper w m)] :
    Entails Γ (Proper w (l ++ m)) :=
  ⟨fun h => List.forall_mem_append.mpr ⟨hl.entails h, hm.entails h⟩⟩

section

variable {t u : Ty} {b c : Base}

instance made {id : Id} [h : Entails Γ (w.Made id)] :
    Entails Γ (Proper w id) := ⟨fun hΓ => .inl (h.entails hΓ)⟩
instance zero : Entails Γ (w.Made 0) := ⟨fun _ => Horizon.made_zero⟩
instance noDefinition : Entails Γ (w.typed → w.Made 0) := ⟨fun _ _ => Horizon.made_zero⟩

instance literalBase [h : IsFalse (isFunctionBase b)] : Entails Γ (Proper w b) :=
  ⟨fun _ hb => Bool.false_ne_true (h.eq_false.symm.trans (congrArg isFunctionBase hb))⟩

instance base [h : Entails Γ (Proper w t)] :
    Entails Γ (Proper w t.base) := ⟨fun hΓ => (h.entails hΓ).1⟩

instance definition [h : Entails Γ (Proper w t)] : Entails Γ (w.typed → w.Made t.definition) :=
  ⟨fun hΓ => (h.entails hΓ).2⟩

instance mergeBase [hb : Entails Γ (Proper w b)] [hc : Entails Γ (Proper w c)] :
    Entails Γ (Proper w (b.merge c)) where
  entails h := by
    unfold Base.merge
    split
    · exact hc.entails h
    · exact hb.entails h

instance ty {rows cols : UInt32} {qualifiers : Qualifiers} {arrayLength : Int} {definition : Id}
    [hb : Entails Γ (Proper w b)] [h : Entails Γ (w.typed → w.Made definition)] :
    Entails Γ (Proper w (Ty.mk b rows cols qualifiers arrayLength definition)) :=
  ⟨fun hΓ => ⟨hb.entails hΓ, h.entails hΓ⟩⟩

instance matrix {rows cols : UInt32} [hb : Entails Γ (Proper w b)] :
    Entails Γ (Proper w (Ty.matrix b rows cols)) :=
  ⟨(inferInstance : Entails Γ (Proper w (Ty.mk b rows cols 0 0 0))).entails⟩

instance vector {rows : UInt32} [hb : Entails Γ (Proper w b)] :
    Entails Γ (Proper w (Ty.vector b rows)) := ⟨matrix.entails⟩
instance scalar [hb : Entails Γ (Proper w b)] :
    Entails Γ (Proper w (Ty.scalar b)) := ⟨matrix.entails⟩
instance plain [h : Entails Γ (Proper w t)] : Entails Γ (Proper w t.plain) := ⟨h.entails⟩
instance readOnly [h : Entails Γ (Proper w t)] :
    Entails Γ (Proper w t.readOnly) := ⟨h.entails⟩
instance element [h : Entails Γ (Proper w t)] : Entails Γ (Proper w t.element) := ⟨h.entails⟩

instance withQualifiers {q : Qualifiers} [h : Entails Γ (Proper w t)] :
    Entails Γ (Proper w (t.withQualifiers q)) :=
  ⟨h.entails⟩

instance merge [ht : Entails Γ (Proper w t)] [hu : Entails Γ (Proper w u)] :
    Entails Γ (Proper w (t.merge u)) := by
  unfold Ty.merge
  dsimp only
  infer_instance

instance mergeElement [ht : Entails Γ (Proper w t)] [hu : Entails Γ (Proper w u)] :
    Entails Γ (Proper w (Parser.mergeElement t u)) := by
  unfold Parser.mergeElement
  infer_instance

instance indexed [ht : Entails Γ (Proper w t)] : Entails Γ (Proper w t.indexed) := by
  unfold Ty.indexed
  infer_instance

end

section

variable {e : Expression} {location : Location} {t : Ty} {id : Id} {value : Constant}

instance baseId [h : Entails Γ (Proper w e)] :
    Entails Γ (Proper w e.base) := ⟨fun hΓ => (h.entails hΓ).1⟩
instance type [h : Entails Γ (Proper w e)] :
    Entails Γ (Proper w e.type) := ⟨fun hΓ => (h.entails hΓ).2.1⟩
instance chain [h : Entails Γ (Proper w e)] :
    Entails Γ (Proper w e.chain) := ⟨fun hΓ => (h.entails hΓ).2.2⟩

instance expression {isLvalue isConstant : Bool} {accesses : List Access}
    [hid : Entails Γ (Proper w id)]
    [ht : Entails Γ (Proper w t)] [hchain : Entails Γ (Proper w accesses)] :
    Entails Γ (Proper w (Expression.mk id t value isLvalue isConstant location accesses)) :=
  ⟨fun h => ⟨hid.entails h, ht.entails h, hchain.entails h⟩⟩

instance toLvalue [hid : Entails Γ (Proper w id)] [ht : Entails Γ (Proper w t)] :
    Entails Γ (Proper w (e.toLvalue location id t)) where
  entails h := by
    refine ⟨hid.entails h, ?_, List.forall_mem_nil _⟩
    unfold Expression.toLvalue
    dsimp only
    split <;> exact ht.entails h

instance toRvalue [hid : Entails Γ (Proper w id)] [ht : Entails Γ (Proper w t)] :
    Entails Γ (Proper w (e.toRvalue location id t)) :=
  ⟨fun h => ⟨hid.entails h, ht.entails h, List.forall_mem_nil _⟩⟩

instance ofConstant [ht : Entails Γ (Proper w t)] :
    Entails Γ (Proper w (Expression.ofConstant location value t)) :=
  ⟨fun h => ⟨.inl Horizon.made_zero, ht.entails h, List.forall_mem_nil _⟩⟩

instance ofWord {x : UInt32} : Entails Γ (Proper w (Expression.ofWord location x)) := ofConstant

instance ofText {text : String} :
    Entails Γ (Proper w (Expression.ofText location text)) := ofConstant

instance push {a : Access} [he : Entails Γ (Proper w e)] [ha : Entails Γ (Proper w a)] :
    Entails Γ (Proper w (e.push a)) where
  entails h :=
    have he := he.entails h
    have ha := ha.entails h
    ⟨he.1, ha.2, List.forall_mem_append.mpr ⟨he.2.2, List.forall_mem_singleton.mpr ha⟩⟩

instance cast {u : Ty} [ht : Entails Γ (Proper w t)] [hu : Entails Γ (Proper w u)] :
    Entails Γ (Proper w (Access.cast t u)) := ⟨fun h => ⟨ht.entails h, hu.entails h⟩⟩

instance member {u : Ty} {i : UInt32} [ht : Entails Γ (Proper w t)]
    [hu : Entails Γ (Proper w u)] :
    Entails Γ (Proper w (Access.member t u i)) := ⟨fun h => ⟨ht.entails h, hu.entails h⟩⟩

instance dynamicIndex {u : Ty} [ht : Entails Γ (Proper w t)] [hu : Entails Γ (Proper w u)] :
    Entails Γ (Proper w (Access.dynamicIndex t u id)) :=
  ⟨fun h => ⟨ht.entails h, hu.entails h⟩⟩

instance constantIndex {u : Ty} {i : UInt32} [ht : Entails Γ (Proper w t)]
    [hu : Entails Γ (Proper w u)] :
    Entails Γ (Proper w (Access.constantIndex t u i)) :=
  ⟨fun h => ⟨ht.entails h, hu.entails h⟩⟩

instance swizzle {u : Ty} {lanes : List Int} [ht : Entails Γ (Proper w t)]
    [hu : Entails Γ (Proper w u)] :
    Entails Γ (Proper w (Access.swizzle t u lanes)) :=
  ⟨fun h => ⟨ht.entails h, hu.entails h⟩⟩

instance addMember {i : UInt32} [he : Entails Γ (Proper w e)] [ht : Entails Γ (Proper w t)] :
    Entails Γ (Proper w (e.addMember i t)) :=
  ⟨(inferInstance : Entails Γ (Proper w (e.push _))).entails⟩

instance addDynamicIndex [he : Entails Γ (Proper w e)] :
    Entails Γ (Proper w (e.addDynamicIndex id)) :=
  ⟨(inferInstance : Entails Γ (Proper w (e.push _))).entails⟩

instance makeReadOnly {duplicated : Bool} [he : Entails Γ (Proper w e)] :
    Entails Γ (Proper w (Parser.makeReadOnly e duplicated)) where
  entails h := by
    unfold Parser.makeReadOnly
    split
    · exact he.entails h
    · exact he.entails h

end

section

variable {m : Member} {d : FunctionDecl} {s : Symbol} {n : Parser.Named}

instance memberType [h : Entails Γ (Proper w m)] : Entails Γ (Proper w m.type) := ⟨h.entails⟩

instance memberOf {t : Ty} {name semantic : String} {location : Location} {id : Id}
    [h : Entails Γ (Proper w t)] :
    Entails Γ (Proper w (Member.mk t name semantic location id)) := ⟨h.entails⟩

instance returnType [h : Entails Γ (Proper w d)] :
    Entails Γ (Proper w d.returnType) := ⟨fun hΓ => (h.entails hΓ).1⟩

instance function {id : Id} {name unique semantic : String} {t : Ty} {ms : List Member}
    [ht : Entails Γ (Proper w t)] [hms : Entails Γ (Proper w ms)] :
    Entails Γ (Proper w (FunctionDecl.mk id name unique t semantic ms)) :=
  ⟨fun h => ⟨ht.entails h, hms.entails h⟩⟩

instance symbolId [h : Entails Γ (Proper w s)] :
    Entails Γ (Proper w s.id) := ⟨fun hΓ => (h.entails hΓ).1⟩
instance symbol [h : Entails Γ (Proper w n)] : Entails Γ (Proper w n.symbol) := ⟨h.entails⟩

instance resultType {r : Reader} [h : Entails Γ (Proper w r)] :
    Entails Γ (Proper w r.returnType) :=
  ⟨fun hΓ => (h.entails hΓ).2⟩

end

section

instance elements {values : List Expression} {t : Ty} [hvalues : Entails Γ (Proper w values)]
    [ht : Entails Γ (Proper w t)] : Entails Γ (Proper w (Parser.Elements.mk values t)) :=
  ⟨fun h => ⟨hvalues.entails h, ht.entails h⟩⟩

instance values {s : Parser.Elements} [h : Entails Γ (Proper w s)] :
    Entails Γ (Proper w s.values) :=
  ⟨fun hΓ => (h.entails hΓ).1⟩

instance elementsType {s : Parser.Elements} [h : Entails Γ (Proper w s)] :
    Entails Γ (Proper w s.type) :=
  ⟨fun hΓ => (h.entails hΓ).2⟩

instance annotations {entries : List Annotation} {valid : Bool} [h : Entails Γ (Proper w valid)] :
    Entails Γ (Proper w (Parser.Annotations.mk entries valid)) := ⟨h.entails⟩

instance annotationsValid {s : Parser.Annotations} [h : Entails Γ (Proper w s)] :
    Entails Γ (Proper w s.valid) :=
  ⟨h.entails⟩

instance fields {members : List Member} {valid : Bool} [hmembers : Entails Γ (Proper w members)]
    [hvalid : Entails Γ (Proper w valid)] :
    Entails Γ (Proper w (Parser.Fields.mk members valid)) :=
  ⟨fun h => ⟨hmembers.entails h, hvalid.entails h⟩⟩

instance members {s : Parser.Fields} [h : Entails Γ (Proper w s)] :
    Entails Γ (Proper w s.members) :=
  ⟨fun hΓ => (h.entails hΓ).1⟩

instance fieldsValid {s : Parser.Fields} [h : Entails Γ (Proper w s)] :
    Entails Γ (Proper w s.valid) :=
  ⟨fun hΓ => (h.entails hΓ).2⟩

instance labels {merge defaultLabel : Id} {labels : List (UInt32 × Id)} {settled : Nat}
    {valid : Bool} [h : Entails Γ (Proper w valid)] :
    Entails Γ (Proper w (Parser.Cases.mk merge defaultLabel labels settled valid)) :=
  ⟨h.entails⟩

instance labelsValid {s : Parser.Cases} [h : Entails Γ (Proper w s)] :
    Entails Γ (Proper w s.valid) := ⟨h.entails⟩

instance draft {pass : Pass} {vertex pixel : Option FunctionDecl} {srgbTargets valid : Bool}
    [h : Entails Γ (Proper w valid)] :
    Entails Γ (Proper w (Parser.PassDraft.mk pass vertex pixel srgbTargets valid)) :=
  ⟨h.entails⟩

instance draftValid {d : Parser.PassDraft} [h : Entails Γ (Proper w d)] :
    Entails Γ (Proper w d.valid) := ⟨h.entails⟩

instance passes {entries : List Pass} {valid : Bool} [h : Entails Γ (Proper w valid)] :
    Entails Γ (Proper w (Parser.Passes.mk entries valid)) := ⟨h.entails⟩

instance passesValid {s : Parser.Passes} [h : Entails Γ (Proper w s)] :
    Entails Γ (Proper w s.valid) := ⟨h.entails⟩

instance noInit :
    Entails Γ (Maybe w (none : Option Expression)) :=
  ⟨fun _ _ h => absurd h (Option.not_mem_none _)⟩

instance someInit {e : Expression} [h : Entails Γ (Proper w e)] : Entails Γ (Maybe w (some e)) :=
  ⟨fun hΓ _ he => Option.some.inj he ▸ h.entails hΓ⟩

instance tail {t : Ty} {init : Option Expression} {resource : Parser.Resource}
    {annotations : List Annotation} {valid : Bool} [ht : Entails Γ (Proper w t)]
    [hinit : Entails Γ (Maybe w init)] [hvalid : Entails Γ (Proper w valid)] :
    Entails Γ (Proper w (Parser.Tail.mk t init resource annotations valid)) :=
  ⟨fun h => ⟨ht.entails h, hinit.entails h, hvalid.entails h⟩⟩

instance tailType {t : Parser.Tail} [h : Entails Γ (Proper w t)] : Entails Γ (Proper w t.type) :=
  ⟨fun hΓ => (h.entails hΓ).1⟩

instance tailInit {t : Parser.Tail} [h : Entails Γ (Proper w t)] : Entails Γ (Maybe w t.init) :=
  ⟨fun hΓ => (h.entails hΓ).2.1⟩

instance tailValid {t : Parser.Tail} [h : Entails Γ (Proper w t)] :
    Entails Γ (Proper w t.valid) :=
  ⟨fun hΓ => (h.entails hΓ).2.2⟩

end

end Entails

end ShaderEffect

import Mathlib
import ShaderEffect.Basic
import ShaderEffect.Expression
import ShaderEffect.Generator
import ShaderEffect.Script

/-!
Computations with a state that can fail: when they give which result, and when they end.

A run of a compound computation is taken apart into runs of its parts by rewriting
with these lemmas.

Loops count their rounds, and a computation whose loops need more than they are given is exhausted.
One that is not has a result, or a fault of another kind.
-/
namespace ShaderEffect

section

variable {σ ε α γ : Type} {s s' : σ} {a : α}

theorem bind_eq_ok {x : StateT σ (Except ε) γ} {f : γ → StateT σ (Except ε) α} :
    (x >>= f) s = .ok (a, s') ↔ ∃ c s₁, x s = .ok (c, s₁) ∧ f c s₁ = .ok (a, s') := by
  simp only [bind, StateT.bind, Except.bind]
  cases x s with
  | error e => simp only [reduceCtorEq, false_and, exists_false]
  | ok r => simp only [Except.ok.injEq, Prod.ext_iff]; grind

theorem bind_of_eq_ok {x : StateT σ (Except ε) γ} {f : γ → StateT σ (Except ε) α} {c : γ}
    {s₁ : σ} (h : x s = .ok (c, s₁)) : (x >>= f) s = f c s₁ := by
  simp only [bind, StateT.bind, Except.bind, h]

@[simp]
theorem pure_eq_ok {b : α} :
    (pure b : StateT σ (Except ε) α) s = .ok (a, s') ↔ b = a ∧ s = s' := by
  simp only [pure, StateT.pure, Except.pure, Except.ok.injEq, Prod.mk.injEq]

@[simp]
theorem get_eq_ok {c : σ} :
    (get : StateT σ (Except ε) σ) s = .ok (c, s') ↔ s = c ∧ s = s' := by
  simp only [get, getThe, MonadStateOf.get, StateT.get, pure, Except.pure, Except.ok.injEq,
    Prod.mk.injEq]

@[simp]
theorem set_eq_ok {t : σ} {u : PUnit} :
    (set t : StateT σ (Except ε) PUnit) s = .ok (u, s') ↔ t = s' := by
  simp only [set, StateT.set, pure, Except.pure, Except.ok.injEq, Prod.mk.injEq, true_and]

@[simp]
theorem modify_eq_ok {f : σ → σ} {u : PUnit} :
    (modify f : StateT σ (Except ε) PUnit) s = .ok (u, s') ↔ f s = s' := by
  simp only [modify, modifyGet, MonadStateOf.modifyGet, StateT.modifyGet, pure, Except.pure,
    Except.ok.injEq, Prod.mk.injEq, true_and]

@[simp]
theorem throw_eq_ok {e : ε} : (throw e : StateT σ (Except ε) α) s = .ok (a, s') ↔ False := by
  show StateT.lift (Except.error e) s = _ ↔ _
  simp only [StateT.lift, bind, Except.bind, reduceCtorEq]

@[simp]
theorem liftM_eq_ok {x : Except ε α} :
    (liftM x : StateT σ (Except ε) α) s = .ok (a, s') ↔ x = .ok a ∧ s = s' := by
  show StateT.lift x s = _ ↔ _
  simp only [StateT.lift, bind, Except.bind]
  cases x with
  | error e => simp only [reduceCtorEq, false_and]
  | ok r => simp only [pure, Except.pure, Except.ok.injEq, Prod.mk.injEq]

theorem except_bind_eq_ok {x : Except ε γ} {f : γ → Except ε α} :
    (x >>= f) = .ok a ↔ ∃ c, x = .ok c ∧ f c = .ok a := by
  cases x with
  | error e => simp only [bind, Except.bind, reduceCtorEq, false_and, exists_false]
  | ok c => simp only [bind, Except.bind, Except.ok.injEq, exists_eq_left']

theorem except_pure_eq_ok {b : α} : (pure b : Except ε α) = .ok a ↔ b = a := by
  simp only [pure, Except.pure, Except.ok.injEq]

theorem getTarget_eq_ok {β : Type} {g g' : Generator β} {t : β} :
    (Generator.getTarget : GenM β β) g = .ok (t, g') ↔ g.target = t ∧ g = g' := by
  show (get >>= fun g => pure g.target : GenM β β) g = _ ↔ _
  simp only [bind_eq_ok, get_eq_ok, pure_eq_ok]
  exact ⟨fun ⟨_, _, ⟨hget, hsame⟩, htarget, hg⟩ => ⟨hget ▸ htarget, hsame.trans hg⟩,
    fun ⟨htarget, hg⟩ => ⟨g, g, ⟨rfl, rfl⟩, htarget, hg⟩⟩

theorem modifyTarget_eq_ok {β : Type} {g g' : Generator β} {f : β → β} {u : Unit} :
    (Generator.modifyTarget f : GenM β Unit) g = .ok (u, g')
      ↔ { g with target := f g.target } = g' :=
  modify_eq_ok

/-- A computation whose result passes a test has a result. -/
theorem exists_of_any {x : Except ε α} {test : α → Bool} (h : x.toOption.any test = true) :
    ∃ a, x = .ok a ∧ test a = true := by
  cases x with
  | error e => exact absurd h Bool.false_ne_true
  | ok a => exact ⟨a, rfl, h⟩

theorem ite_eq_ok {c : Prop} [Decidable c] {x y : StateT σ (Except ε) α} :
    (if c then x else y) s = .ok (a, s') ↔
      (c ∧ x s = .ok (a, s')) ∨ (¬c ∧ y s = .ok (a, s')) := by
  split <;> simp_all

end

variable {α γ σ : Type}

/-- Whether a computation of values gives a value, or a fault other than that it took too long. -/
class Bounded (x : Except Fault α) : Prop where
  ne_exhausted : x ≠ .error .exhausted

namespace Bounded

instance pure {a : α} : Bounded (pure a) := ⟨nofun⟩
instance outOfRange : Bounded (throw .outOfRange : Except Fault α) := ⟨nofun⟩

instance bind {x : Except Fault γ} {f : γ → Except Fault α} [hx : Bounded x]
    [hf : ∀ c, Bounded (f c)] :
    Bounded (x >>= f) := by
  constructor
  cases x with
  | error e => exact fun h => hx.ne_exhausted (congrArg _ (Except.error.inj h))
  | ok c => exact (hf c).ne_exhausted

instance bind_option {x : Except Fault (Option γ)} {f : Option γ → Except Fault α}
    [hx : Bounded x] [hsome : ∀ c, Bounded (f (some c))] [hnone : Bounded (f none)] :
    Bounded (x >>= f) :=
  have : ∀ c, Bounded (f c) := fun c => c.casesOn hnone hsome
  bind

instance ite {c : Prop} [Decidable c] {x y : Except Fault α} [hx : Bounded x] [hy : Bounded y] :
    Bounded (if c then x else y) := by
  split <;> assumption

instance mapM {f : γ → Except Fault α} [hf : ∀ c, Bounded (f c)] {l : List γ} :
    Bounded (l.mapM f) := by
  induction l with
  | nil => exact pure
  | cons c l ih =>
    rw [List.mapM_cons]
    infer_instance

end Bounded

/-- Whether a computation, from the state `s`, gives a result that satisfies `Q`, or a fault other
than that it took too long. -/
def Ends (x : StateT σ (Except Fault) α) (s : σ) (Q : α → σ → Prop) : Prop :=
  match x s with
  | .ok (a, s') => Q a s'
  | .error e => e ≠ .exhausted

namespace Ends

variable {x : StateT σ (Except Fault) α} {s s' : σ} {Q R : α → σ → Prop}

theorem of_ok {a : α} (hx : x s = .ok (a, s')) (hQ : Q a s') : Ends x s Q := by
  rwa [Ends, hx]

theorem ne_exhausted (h : Ends x s Q) : x s ≠ .error .exhausted := by
  intro hx
  rw [Ends, hx] at h
  exact h rfl

theorem result (h : Ends x s Q) {a : α} (hx : x s = .ok (a, s')) : Q a s' := by
  rwa [Ends, hx] at h

theorem mono (h : Ends x s Q) (hQR : ∀ a s', Q a s' → R a s') : Ends x s R := by
  unfold Ends at *
  split at h
  · exact hQR _ _ h
  · exact h

theorem and (h : Ends x s Q) (h' : Ends x s R) : Ends x s fun a s' => Q a s' ∧ R a s' := by
  unfold Ends at *
  cases hx : x s <;> simp only [hx] at h h' ⊢
  · exact h
  · exact ⟨h, h'⟩

theorem pure {a : α} (h : Q a s) : Ends (pure a) s Q := h

theorem bind {P : γ → σ → Prop} {x : StateT σ (Except Fault) γ}
    {f : γ → StateT σ (Except Fault) α}
    (hx : Ends x s P) (hf : ∀ c s', P c s' → Ends (f c) s' Q) : Ends (x >>= f) s Q := by
  unfold Ends at *
  simp only [Bind.bind, StateT.bind, Except.bind]
  cases h : x s with
  | error e => simpa only [h] using hx
  | ok result =>
    rw [h] at hx
    exact hf result.1 result.2 hx

theorem bind_get {f : σ → StateT σ (Except Fault) α} (hf : Ends (f s) s Q) :
    Ends (get >>= f) s Q :=
  bind (P := fun c s' => s = c ∧ s = s') (of_ok rfl ⟨rfl, rfl⟩)
    fun _ _ ⟨hc, hs'⟩ => hc ▸ hs' ▸ hf

theorem throw {e : Fault} (he : e ≠ .exhausted) :
    Ends (throw e : StateT σ (Except Fault) α) s Q := he

theorem liftM {x : Except Fault α} [hx : Bounded x] (h : ∀ a, x = .ok a → Q a s) :
    Ends (liftM x : StateT σ (Except Fault) α) s Q := by
  show Ends (StateT.lift x) s Q
  unfold Ends StateT.lift
  cases hx' : x with
  | error e => exact fun he => hx.ne_exhausted (hx'.trans (congrArg _ he))
  | ok a => exact h a hx'

/-- What is true at every element of a list is true behind it. -/
theorem mapM {f : γ → StateT σ (Except Fault) α} {l : List γ} (inv : σ → Prop) (hs : inv s)
    (hf : ∀ c ∈ l, ∀ s, inv s → Ends (f c) s fun _ s' => inv s') :
    Ends (l.mapM f) s fun _ s' => inv s' := by
  induction l generalizing s with
  | nil => exact hs
  | cons c l ih =>
    rw [List.mapM_cons]
    refine (hf c List.mem_cons_self s hs).bind fun a s₁ h₁ => ?_
    exact (ih h₁ fun c hc => hf c (List.mem_cons_of_mem _ hc)).bind fun _ _ h => h

/-- What a loop does follows from an invariant and a measure that every further
round makes smaller. -/
theorem repeatWith {step : α → StateT σ (Except Fault) (α ⊕ γ)} {Q : γ → σ → Prop}
    (measure : α → σ → Nat) (inv : α → σ → Prop)
    (hstep : ∀ a s, inv a s → Ends (step a) s fun c s' =>
      c.elim (fun a' => inv a' s' ∧ measure a' s' < measure a s) fun c => Q c s') (rounds : Nat) :
    ∀ a s, inv a s → measure a s < rounds → Ends (repeatWith step rounds a) s Q := by
  induction rounds with
  | zero => exact fun a s _ h => absurd h (Nat.not_lt_zero _)
  | succ rounds ih =>
    intro a s ha hrounds
    refine (hstep a s ha).bind fun c s' hc => ?_
    cases c with
    | inl a' => exact ih a' s' hc.1 (by have := hc.2; omega)
    | inr c => exact hc

end Ends

instance {n : UInt32} {f : Nat → UInt32 → UInt32} {lanes : Lanes} :
    Bounded (lanes.mapFirst n f) := by
  unfold Lanes.mapFirst
  infer_instance

instance {lanes : Lanes} {i : Int} : Bounded (lanes.get? i) := by
  unfold Lanes.get?
  split
  · split <;> infer_instance
  · infer_instance

namespace Constant

instance {source target : Ty} {lanes : Lanes} : Bounded (convertLanes source target lanes) := by
  unfold convertLanes
  infer_instance

instance {source target : Ty} {c : Constant} : Bounded (c.convert source target) := by
  unfold convert
  infer_instance

instance {op : UnaryOp} {t : Ty} {c : Constant} : Bounded (c.foldUnary op t) := by
  unfold foldUnary
  infer_instance

instance {n : UInt32} {lanes : Lanes} : Bounded (hasZeroLane n lanes) := by
  unfold hasZeroLane
  infer_instance

instance {op : BinaryOp} {t : Ty} {l r : Constant} : Bounded (l.foldBinary op t r) := by
  unfold foldBinary
  infer_instance

instance {t : Ty} : Bounded (ones t) := by
  unfold ones
  infer_instance

end Constant

namespace Expression

instance {e : Expression} {lanes : List Int} {length : UInt32} :
    Bounded (e.addSwizzle lanes length) := by
  unfold addSwizzle
  infer_instance

instance {source target : UInt32} : Bounded (resizeLanes source target) := by
  unfold resizeLanes
  infer_instance

instance {e : Expression} {t : Ty} : Bounded (e.addCast t) := by
  unfold addCast
  infer_instance

instance {t : Ty} {value : Constant} {index : UInt32} : Bounded (constantAt t value index) := by
  unfold constantAt
  infer_instance

instance {e : Expression} {index : UInt32} : Bounded (e.addConstantIndex index) := by
  unfold addConstantIndex
  infer_instance

instance {e : Expression} {op : UnaryOp} : Bounded (e.foldUnary? op) := by
  unfold foldUnary?
  infer_instance

instance {e : Expression} {op : BinaryOp} {r : Constant} : Bounded (e.foldBinary? op r) := by
  unfold foldBinary?
  infer_instance

end Expression

end ShaderEffect

/-!
Histories: the requests that running a script makes, in order, with their answers.

A property of every history of a script is proved by following the script. That such histories are
those of its runs is proved once, here.
-/
namespace ShaderEffect

variable {α β γ π : Type}

/-- Requests of which nothing is noted: they ask for something, move between blocks, leave one in a
way that the request itself describes, or belong outside of functions. -/
def Request.isQuiet : Request → Bool
  | leaveAndKill | leaveAndReturn _ | emitIf .. | emitPhi .. | emitLoop .. | emitSwitch .. => false
  | load .. | store .. | constant .. | unary .. | binary .. | select .. | call .. => false
  | callIntrinsic .. | construct .. => false
  | defineVariable _ _ _ isGlobal _ => isGlobal
  | _ => true

/-- A request that was made, with its answer and a note of what was done. -/
structure Entry (π : Type) where
  request : Request
  answer : request.Answer
  note : π

/-- A request of which nothing is noted. -/
abbrev Entry.quiet [Inhabited π] (r : Request) (answer : r.Answer) : Entry π :=
  ⟨r, answer, default⟩

/-- The id that an entry made. -/
def Entry.made? : Entry π → Option Id
  | ⟨.makeId, id, _⟩ => some id
  | _ => none

/-- The ids that some entries made. -/
def made (es : List (Entry π)) : List Id :=
  es.filterMap Entry.made?

@[simp] theorem made_nil : made ([] : List (Entry π)) = [] :=
  rfl

@[simp] theorem made_append (es fs : List (Entry π)) : made (es ++ fs) = made es ++ made fs :=
  List.filterMap_append

theorem made_cons (e : Entry π) (es : List (Entry π)) :
    made (e :: es) = e.made?.toList ++ made es := by
  rw [made, List.filterMap_cons]
  cases e.made? <;> rfl

/-- What is noted of a request. -/
def noteOf {β : Type} [Inhabited π] (observe : Request → Generator β → Generator β → π)
    (r : Request) (g g' : Generator β) : π :=
  if r.isQuiet then default else observe r g g'

namespace Script

theorem bind_assoc (s : Script α) (f : α → Script β) (h : β → Script γ) :
    (s.bind f).bind h = s.bind fun a => (f a).bind h := by
  induction s with
  | done a => rfl
  | fault e => rfl
  | ask r next ih => simp only [bind, ih]

theorem bind_done (s : Script α) : s.bind done = s := by
  induction s with
  | done a => rfl
  | fault e => rfl
  | ask r next ih => simp only [bind, ih]

instance : LawfulMonad Script :=
  LawfulMonad.mk' Script bind_done (fun _ _ => rfl) bind_assoc

/-- Whether every history that ends in a result satisfies `Q`, whatever the answers are. -/
def Ensures [Inhabited π] : Script α → (List (Entry π) → α → Prop) → Prop
  | done a, Q => Q [] a
  | fault _, _ => True
  | ask r next, Q =>
    ∀ answer note, (r.isQuiet = true → note = default) →
      (next answer).Ensures fun es a => Q (⟨r, answer, note⟩ :: es) a

variable [Inhabited π]

theorem ensures_bind (s : Script α) (f : α → Script γ) (Q : List (Entry π) → γ → Prop) :
    (s.bind f).Ensures Q ↔ s.Ensures fun es a => (f a).Ensures fun es' c => Q (es ++ es') c := by
  induction s generalizing Q with
  | done a => rfl
  | fault e => rfl
  | ask r next ih => simp only [bind, Ensures, ih, List.cons_append]

theorem Ensures.mono {s : Script α} {Q R : List (Entry π) → α → Prop} (h : s.Ensures Q)
    (hQR : ∀ es a, Q es a → R es a) : s.Ensures R := by
  induction s generalizing Q R with
  | done a => exact hQR _ _ h
  | fault e => trivial
  | ask r next ih =>
    intro answer note hnote
    exact ih answer (h answer note hnote) fun es a => hQR _ a

theorem ensures_true (s : Script α) : s.Ensures fun (_ : List (Entry π)) _ => True := by
  induction s with
  | done a => trivial
  | fault e => trivial
  | ask r next ih => exact fun answer note _ => ih answer

variable [Backend β]

/-- Runs a script and gives its history. `observe` tells what to note of a request, from the states
in front of it and behind it. -/
def record (observe : Request → Generator β → Generator β → π) :
    Script α → GenM β (List (Entry π) × α)
  | done a => pure ([], a)
  | fault e => throw e
  | ask r next => do
    let before ← get
    let answer ← r.handle
    let note := noteOf observe r before (← get)
    let (es, a) ← (next answer).record observe
    return (⟨r, answer, note⟩ :: es, a)

end Script

variable [Inhabited π] [Backend β] {observe : Request → Generator β → Generator β → π}

/-- Whether a generator that is asked for some entries in turn gives their answers, and is left in
the state `g'`. -/
def Runs (observe : Request → Generator β → Generator β → π) :
    Generator β → List (Entry π) → Generator β → Prop
  | g, [], g' => g' = g
  | g, e :: es, g' =>
    ∃ g₁, e.request.handle g = .ok (e.answer, g₁) ∧ e.note = noteOf observe e.request g g₁
      ∧ Runs observe g₁ es g'

theorem runs_append {g g' : Generator β} {es fs : List (Entry π)} :
    Runs observe g (es ++ fs) g'
      ↔ ∃ g₁, Runs observe g es g₁ ∧ Runs observe g₁ fs g' := by
  induction es generalizing g with
  | nil => simp only [List.nil_append, Runs, exists_eq_left]
  | cons e es ih => simp only [List.cons_append, Runs, ih]; grind

namespace Script

/-- A run that succeeds has a history, and every history has the properties of the script. -/
theorem record_of_run {s : Script α} {g g' : Generator β} {a : α}
    {Q : List (Entry π) → α → Prop} (hs : s.Ensures Q) (hrun : s.run g = .ok (a, g')) :
    ∃ es, s.record observe g = .ok ((es, a), g') ∧ Runs observe g es g' ∧ Q es a := by
  induction s generalizing g Q with
  | done b =>
    obtain ⟨rfl, rfl⟩ : b = a ∧ g = g' := by
      simpa only [run, pure, StateT.pure, Except.pure, Except.ok.injEq, Prod.mk.injEq] using hrun
    exact ⟨[], rfl, rfl, hs⟩
  | fault e => cases hrun
  | ask r next ih =>
    obtain ⟨answer, g₁, hr, hrun⟩ := bind_eq_ok.mp hrun
    let note : π := noteOf observe r g g₁
    have hnote : r.isQuiet = true → note = default := fun h => if_pos h
    obtain ⟨es, hrecord, hruns, hQ⟩ := ih answer (hs answer note hnote) hrun
    refine ⟨⟨r, answer, note⟩ :: es, ?_, ⟨g₁, hr, rfl, hruns⟩, hQ⟩
    simp only [record, bind_eq_ok, get_eq_ok, pure_eq_ok]
    exact ⟨g, g, ⟨rfl, rfl⟩, answer, g₁, hr, g₁, g₁, ⟨rfl, rfl⟩, (es, a), g',
      hrecord, rfl, rfl⟩

end Script
end ShaderEffect

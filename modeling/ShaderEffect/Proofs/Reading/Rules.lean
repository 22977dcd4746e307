import ShaderEffect.Parser.Run
import ShaderEffect.Proofs.Computation
import ShaderEffect.Proofs.Reading.Tokens

/-!
Rules to prove that reading ends and where it ends.

Text is read from the front to the back, except that an attempt may be taken back. What counts is
how many tokens are left: it never grows over a complete part of the grammar, and every round of a
loop that asks for another one has made it smaller.

That a part of the parser behaves so follows from the same of its own parts. Instances of
two classes, `Reads` and `Wanders`, collect what is known, so that most parts need no
proof of their own.
-/
namespace ShaderEffect

variable {α γ : Type}

/-- Whether a truth value that is known is false. -/
class IsFalse (b : Bool) : Prop where
  eq_false : b = false

instance : IsFalse false := ⟨rfl⟩

namespace Reader

/-- The number of tokens that are left, at most. -/
def left (r : Reader) : Nat :=
  Token.remaining r.next r.cursor

/-- The place to return to. -/
def saved (r : Reader) : Token × Token.Cursor :=
  (r.savedNext, r.savedCursor)

/-- The number of tokens that are left at the place to return to. -/
def savedLeft (r : Reader) : Nat :=
  Token.remaining r.savedNext r.savedCursor

/-- Whether every structure that is declared was declared before. -/
def KeepsStructs (r r' : Reader) : Prop :=
  ∀ e ∈ r'.symbols.entries,
    e.symbol.kind = .struct → ∃ e' ∈ r.symbols.entries, e'.symbol = e.symbol

/-- What reading does to the place: it moves on. -/
structure Moves (r r' : Reader) : Prop where
  left : r'.left ≤ r.left
  rounds : r'.rounds = r.rounds
  saved : r'.saved = r.saved
  structs : r.KeepsStructs r'

theorem KeepsStructs.refl (r : Reader) : r.KeepsStructs r := fun e he _ => ⟨e, he, rfl⟩

theorem KeepsStructs.trans {r r₁ r' : Reader} (h : r.KeepsStructs r₁)
    (h' : r₁.KeepsStructs r') :
    r.KeepsStructs r' := by
  intro e he hkind
  obtain ⟨e₁, he₁, heq⟩ := h' e he hkind
  obtain ⟨e₀, he₀, heq₀⟩ := h e₁ he₁ (heq ▸ hkind)
  exact ⟨e₀, he₀, heq₀.trans heq⟩

theorem Moves.refl (r : Reader) : r.Moves r := ⟨Nat.le_refl _, rfl, rfl, .refl r⟩

theorem Moves.trans {r r₁ r' : Reader} (h : r.Moves r₁) (h' : r₁.Moves r') : r.Moves r' :=
  ⟨Nat.le_trans h'.left h.left, h'.rounds.trans h.rounds, h'.saved.trans h.saved,
    h.structs.trans h'.structs⟩

/-- Reading may go on where a part has ended. -/
theorem Moves.ready {r r' : Reader} (h : r.Moves r') (hr : r.left < r.rounds) :
    r'.left < r'.rounds :=
  h.rounds ▸ Nat.lt_of_le_of_lt h.left hr

end Reader

/-- What counts as a result that reading goes on with. -/
class Outcome (α : Type) where
  isGood : α → Prop

instance (priority := low) : Outcome α := ⟨fun _ => False⟩
instance : Outcome Bool := ⟨(· = true)⟩
instance : Outcome (Option α) := ⟨(·.isSome = true)⟩
instance : Outcome (α ⊕ γ) := ⟨(·.isLeft = true)⟩

/-- What is known of a part: only that it moves on, or that a result to go on with has cost a token,
or that there is no such result. -/
inductive Progress where
  | some | consuming | stopping

/-- Whether a part of which this is known may have a result to go on with. -/
class Progress.Proceeds (p : Progress) : Prop where
  ne_stopping : p ≠ .stopping

instance : Progress.Proceeds .some := ⟨nofun⟩
instance : Progress.Proceeds .consuming := ⟨nofun⟩

/-- What it means for the result of a part to show progress. -/
def Progress.Holds [Outcome α] (p : Progress) (a : α) (r r' : Reader) : Prop :=
  match p with
  | .some => True
  | .consuming => Outcome.isGood a → r'.left < r.left
  | .stopping => ¬Outcome.isGood a

theorem Progress.Holds.weaken [Outcome α] {p : Progress} {a : α} {r r₁ r' : Reader}
    (h : r₁.left ≤ r.left) (hp : p.Holds a r₁ r') : p.Holds a r r' := by
  cases p with
  | some => trivial
  | consuming => exact fun ha => Nat.lt_of_lt_of_le (hp ha) h
  | stopping => exact hp

/-- Behind a token, any result to go on with has cost one. -/
theorem Progress.Holds.of_consuming [Outcome α] {p : Progress} [hp : p.Proceeds] {a : α}
    {r r' : Reader} (h : Progress.consuming.Holds a r r') : p.Holds a r r' := by
  cases p with
  | some => trivial
  | consuming => exact h
  | stopping => exact absurd rfl hp.ne_stopping

theorem Progress.Holds.of_stopping [Outcome α] {p : Progress} {a : α} {r r' : Reader}
    (h : Progress.stopping.Holds a r r') : p.Holds a r r' := by
  cases p with
  | some => trivial
  | consuming => exact fun ha => absurd ha h
  | stopping => exact h

/-- Whether reading a part ends, behind where it began. -/
class Reads (p : Progress) (x : ReadM α) [Outcome α] : Prop where
  ends : ∀ ⦃r : Reader⦄, r.left < r.rounds → Ends x r fun a r' =>
    r.Moves r' ∧ p.Holds a r r'

namespace Reads

variable [Outcome α] [Outcome γ] {p : Progress}

theorem bind_of {q : Progress} {x : ReadM γ} {f : γ → ReadM α} (hx : Reads q x)
    (hf : ∀ c, ∃ p', Reads p' (f c) ∧ ∀ (a : α) (r r₁ r' : Reader),
      q.Holds c r r₁ → r₁.left ≤ r.left → r'.left ≤ r₁.left →
      p'.Holds a r₁ r' → p.Holds a r r') : Reads p (x >>= f) where
  ends r hr := by
    refine (hx.ends hr).bind fun c r₁ ⟨hmoves, hq⟩ => ?_
    obtain ⟨p', hfc, hp⟩ := hf c
    refine (hfc.ends (hmoves.ready hr)).mono fun a r' ⟨hmoves', hp'⟩ => ?_
    exact ⟨hmoves.trans hmoves', hp a r r₁ r' hq hmoves.left hmoves'.left hp'⟩

omit [Outcome α] in
/-- Goes on behind a part of which it is known what it consumes. -/
theorem next (q : Progress) {x : ReadM γ} {f : γ → ReadM α} [hx : Reads q x] {r : Reader}
    {Q : α → Reader → Prop} (hr : r.left < r.rounds)
    (hf : ∀ c r₁, r.Moves r₁ → q.Holds c r r₁ → Ends (f c) r₁ Q) :
    Ends (x >>= f) r Q :=
  (hx.ends hr).bind fun c r₁ ⟨hmoves, hq⟩ => hf c r₁ hmoves hq

theorem andThen {x : ReadM γ} {f : γ → ReadM α} [hx : Reads .some x]
    (hf : ∀ c, Reads p (f c)) :
    Reads p (x >>= f) :=
  bind_of hx fun c => ⟨p, hf c, fun _ _ _ _ _ hle _ hp => hp.weaken hle⟩

instance bind {x : ReadM γ} {f : γ → ReadM α} [hx : Reads .some x]
    [hf : ∀ c, Reads p (f c)] :
    Reads p (x >>= f) :=
  andThen hf

instance bind_option {x : ReadM (Option γ)} {f : Option γ → ReadM α} [hx : Reads .some x]
    [hsome : ∀ c, Reads p (f (some c))] [hnone : Reads p (f none)] : Reads p (x >>= f) :=
  have : ∀ c, Reads p (f c) := fun c => c.casesOn hnone hsome
  bind

/-- Behind a part that cost a token, nothing more has to be consumed. -/
instance bind_consuming {x : ReadM Bool} {f : Bool → ReadM α} [hx : Reads .consuming x]
    [htrue : Reads .some (f true)] [hfalse : Reads .consuming (f false)] :
    Reads .consuming (x >>= f) :=
  bind_of hx fun c => by
    cases c with
    | false => exact ⟨.consuming, hfalse, fun a r r₁ r' _ hle _ hp => hp.weaken hle⟩
    | true =>
      exact ⟨.some, htrue, fun a r r₁ r' hq _ hle _ _ => Nat.lt_of_le_of_lt hle (hq rfl)⟩

theorem of_pure {a : α} (h : ∀ r, p.Holds a r r) : Reads p (pure a : ReadM α) where
  ends r _ := Ends.pure ⟨.refl r, h r⟩

instance pure {a : α} : Reads .some (pure a : ReadM α) := of_pure fun _ => trivial
instance pure_false : Reads .stopping (Pure.pure false : ReadM Bool) := of_pure fun _ => nofun
instance pure_none : Reads .stopping (Pure.pure none : ReadM (Option α)) := of_pure fun _ => nofun
instance pure_inr {c : γ} :
    Reads .stopping (Pure.pure (.inr c) : ReadM (α ⊕ γ)) := of_pure fun _ => nofun

/-- Where there is nothing to go on with, everything is known of a result to go on with. -/
theorem of_stopping {x : ReadM α} (hx : Reads .stopping x) : Reads p x where
  ends _ hr := (hx.ends hr).mono fun _ _ ⟨hmoves, hp⟩ => ⟨hmoves, hp.of_stopping⟩

instance consuming_of_stopping {x : ReadM α} [hx : Reads .stopping x] : Reads .consuming x :=
  of_stopping hx

theorem of_consuming [p.Proceeds] {x : ReadM α} (hx : Reads .consuming x) : Reads p x where
  ends _ hr := (hx.ends hr).mono fun _ _ ⟨hmoves, hp⟩ => ⟨hmoves, hp.of_consuming⟩

instance ite {c : Prop} [Decidable c] {x y : ReadM α} [hx : Reads p x] [hy : Reads p y] :
    Reads p (if c then x else y) := by
  split <;> assumption

instance ite_not_false {x y : ReadM α} [hx : Reads p x] :
    Reads p (if (!false) = true then x else y) :=
  hx

instance ite_false {x y : ReadM α} [hy : Reads p y] : Reads p (if false = true then x else y) :=
  hy

instance liftM {x : Except Fault α} [Bounded x] : Reads .some (liftM x : ReadM α) where
  ends r _ := Ends.liftM fun _ _ => ⟨.refl r, trivial⟩

instance get : Reads .some (get : ReadM Reader) where
  ends r _ := Ends.pure ⟨.refl r, trivial⟩

instance forM {f : γ → ReadM PUnit} [hf : ∀ c, Reads .some (f c)] {l : List γ} :
    Reads .some (l.forM f) := by
  induction l with
  | nil => exact pure
  | cons c l ih => exact bind

instance mapM {f : γ → ReadM α} [hf : ∀ c, Reads .some (f c)] {l : List γ} :
    Reads .some (l.mapM f) := by
  induction l with
  | nil => exact pure
  | cons c l ih =>
    rw [List.mapM_cons]
    infer_instance

/-- A loop ends if every round that asks for another one has consumed a token. -/
instance readLoop {step : α → ReadM (α ⊕ γ)}
    [hstep : ∀ a, Reads .consuming (step a)] {a : α} :
    Reads .some (Parser.readLoop step a) where
  ends r hr := by
    show Ends (repeatWith step r.rounds a) r _
    refine Ends.repeatWith (fun _ r' => r'.left) (fun _ r' => r.Moves r') ?_ _ _ _ (.refl r) hr
    rintro a r₁ hmoves
    refine ((hstep a).ends (hmoves.ready hr)).mono fun c r' ⟨hmoves', hp⟩ => ?_
    cases c with
    | inl a => exact ⟨hmoves.trans hmoves', hp rfl⟩
    | inr c => exact ⟨hmoves.trans hmoves', trivial⟩

end Reads

end ShaderEffect

import ShaderEffect.Proofs.Computation
import ShaderEffect.Proofs.Reading.Rules
import ShaderEffect.Proofs.Requests.Rules

namespace ShaderEffect

variable {α γ β : Type}

namespace Reader

/-- Whether the next token can begin the name of something. -/
def AtName (r : Reader) : Prop :=
  r.next.kind = .identifier ∨ r.next.kind = .colonColon

/-- Whether a token of this kind can begin a type. Only to such tokens reading ever returns. -/
def BeginsType (kind : Token.Kind) : Prop :=
  kind = .identifier ∨ kind = .colonColon ∨ kind = .vectorType ∨ kind = .matrixType ∨
    (Parser.keywordType? kind).isSome

/-- Whether the next token can begin a type. -/
def Opens (r : Reader) : Prop :=
  BeginsType r.next.kind

/-- Whether the token to return to was read again, if it was returned to. -/
def Settled (r : Reader) : Prop :=
  r.left ≤ r.savedLeft ∧ (BeginsType r.savedNext.kind → r.left < r.savedLeft)

/-- What parsing a complete part does to the place: it moves on, and lies behind every token that
was returned to. -/
structure Leads (r r' : Reader) : Prop where
  left : r'.left ≤ r.left
  rounds : r'.rounds = r.rounds
  settled : r'.saved = r.saved ∨ r'.Settled

variable {r r₁ r' : Reader}

theorem AtName.opens (h : r.AtName) : r.Opens :=
  h.imp_right .inl

theorem savedLeft_eq (h : r'.saved = r.saved) : r'.savedLeft = r.savedLeft :=
  congrArg (fun place : Token × Token.Cursor => Token.remaining place.1 place.2) h

theorem savedNext_eq (h : r'.saved = r.saved) : r'.savedNext = r.savedNext :=
  congrArg Prod.fst h

/-- A place farther on is settled as well. -/
theorem Settled.of_le (h : r.Settled) (hsaved : r'.saved = r.saved) (hle : r'.left ≤ r.left) :
    r'.Settled := by
  rw [Settled, savedLeft_eq hsaved, savedNext_eq hsaved]
  exact ⟨Nat.le_trans hle h.1, fun hkind => Nat.lt_of_le_of_lt hle (h.2 hkind)⟩

theorem Moves.leads (h : r.Moves r') : r.Leads r' :=
  ⟨h.left, h.rounds, .inl h.saved⟩

theorem Leads.refl (r : Reader) : r.Leads r := (Moves.refl r).leads

theorem Leads.trans (h : r.Leads r₁) (h' : r₁.Leads r') : r.Leads r' where
  left := Nat.le_trans h'.left h.left
  rounds := h'.rounds.trans h.rounds
  settled := by
    obtain hsaved | hsettled := h'.settled
    · exact h.settled.imp hsaved.trans fun hsettled => hsettled.of_le hsaved h'.left
    · exact .inr hsettled

end Reader

/-- Whether the structures are layered, and those with a name are defined. -/
structure Sane (r : Reader) (g : Generator β) : Prop where
  layered : Layered g.structs
  defined : ∀ e ∈ r.symbols.entries, e.symbol.kind = .struct →
    ∃ d ∈ g.structs, d.definition = e.symbol.id

theorem Sane.of_keeps {r r' : Reader} {g : Generator β} (h : Sane r g)
    (hkeeps : r.KeepsStructs r') : Sane r' g where
  layered := h.layered
  defined e he hkind := by
    obtain ⟨e', he', heq⟩ := hkeeps e he hkind
    exact heq ▸ h.defined e' he' (heq ▸ hkind)

theorem Sane.of_structs {r : Reader} {g g' : Generator β} (h : Sane r g)
    (heq : g'.structs = g.structs) :
    Sane r g' where
  layered := heq ▸ h.layered
  defined := heq ▸ h.defined

/-- What parsing a complete part does: it leads on, and what structures are
defined stays defined. -/
structure Advances (r : Reader) (g : Generator β) (r' : Reader) (g' : Generator β) : Prop where
  leads : r.Leads r'
  sane : Sane r' g'
  structs : g.structs ⊆ g'.structs

theorem Advances.refl {r : Reader} {g : Generator β} (h : Sane r g) : Advances r g r g :=
  ⟨.refl r, h, fun _ hd => hd⟩

theorem Advances.trans {r r₁ r' : Reader} {g g₁ g' : Generator β} (h : Advances r g r₁ g₁)
    (h' : Advances r₁ g₁ r' g') : Advances r g r' g' :=
  ⟨h.leads.trans h'.leads, h'.sane, fun _ hd => h'.structs (h.structs hd)⟩

/-- Reading does not reach the generator. -/
theorem Reader.Moves.advances {r r' : Reader} {g : Generator β} (h : r.Moves r') (hg : Sane r g) :
    Advances r g r' g :=
  ⟨h.leads, hg.of_keeps h.structs, fun _ hd => hd⟩

theorem Script.run_bind [Backend β] (x : Script γ) (f : γ → Script α) :
    (x >>= f).run = (x.run >>= fun c => (f c).run : GenM β α) := by
  induction x with
  | done c => exact (LawfulMonad.pure_bind c fun c => ((f c).run : GenM β α)).symm
  | fault e => rfl
  | ask q next ih =>
    show (q.handle >>= fun a => (next a >>= f).run) = _
    rw [Script.run, LawfulMonad.bind_assoc]
    exact congrArg (q.handle >>= ·) (funext ih)

variable [Backend β]

/-- Whether parsing a part ends, in a way that satisfies `Q`. -/
def Concludes (x : ParseM α) (s : Surroundings) (r : Reader) (g : Generator β)
    (Q : α → Reader → Generator β → Prop) : Prop :=
  Ends ((x s).run r).run g fun result g' => Q result.1 result.2 g'

namespace Concludes

variable {s : Surroundings} {r : Reader} {g : Generator β}
  {Q R : α → Reader → Generator β → Prop}

theorem mono {x : ParseM α} (h : Concludes x s r g Q)
    (hQR : ∀ a r' g', Q a r' g' → R a r' g') : Concludes x s r g R :=
  Ends.mono h fun result => hQR result.1 result.2

theorem of_run {x : ParseM α} {a : α} {r' : Reader} (hx : (x s).run r = Pure.pure (a, r'))
    (h : Q a r' g) :
    Concludes x s r g Q := by
  rw [Concludes, hx]
  exact h

theorem pure {a : α} (h : Q a r g) : Concludes (pure a) s r g Q := h

theorem bind {P : γ → Reader → Generator β → Prop} {x : ParseM γ} {f : γ → ParseM α}
    (hx : Concludes x s r g P)
    (hf : ∀ c r' g', P c r' g' → Concludes (f c) s r' g' Q) : Concludes (x >>= f) s r g Q := by
  show Ends (((x s).run r >>= fun result => (f result.1 s).run result.2).run) g _
  rw [Script.run_bind]
  exact Ends.bind hx fun result => hf result.1 result.2

theorem emit {q : Request} {Q : q.Answer → Reader → Generator β → Prop}
    (h : Ends q.handle g fun a g' => Q a r g') :
    Concludes (Parser.emit q) s r g Q := by
  show Ends (q.handle >>= fun a => Script.run (Script.done (a, r))) g _
  exact h.bind fun a g' hQ => Ends.pure hQ

/-- A request is answered, which defines no structure unless it asks for that. -/
theorem ask [hβ : Backend.Lasting β] {q : Request} [hq : IsFalse q.definesStruct]
    (hg : Sane r g) :
    Concludes (Parser.emit q) s r g fun _ r' g' => r' = r ∧ Advances r g r g' := by
  refine emit ?_
  exact (hβ.keeps hq.eq_false hg.layered).mono fun a g' h =>
    ⟨rfl, .refl r, hg.of_structs h.structs, h.structs ▸ fun _ hd => hd⟩

theorem read {x : ReadM α} (h : Ends x r fun a r' => Q a r' g) :
    Concludes (liftM x : ParseM α) s r g Q := by
  show Ends (x.toParse s r).run g _
  unfold Ends at h
  unfold ReadM.toParse
  cases hx : x r with
  | ok result =>
    rw [hx] at h
    exact Ends.pure h
  | error e =>
    rw [hx] at h
    exact Ends.throw h

/-- What holds of every history of a part holds where the part ends. -/
theorem and {x : ParseM α} {P : α → Reader → Prop} (h : Concludes x s r g Q)
    (hP : (x s r).Ensures fun (_ : List (Entry Unit)) result => P result.1 result.2) :
    Concludes x s r g fun a r' g' => Q a r' g' ∧ P a r' := by
  unfold Concludes Ends at *
  split at h
  · rename_i result g' hrun
    obtain ⟨_, -, -, hresult⟩ :
        ∃ es, ((x s).run r).record (fun _ _ _ => ()) g = .ok ((es, result), g')
          ∧ _ ∧ P result.1 result.2 :=
      Script.record_of_run hP hrun
    exact ⟨h, hresult⟩
  · exact h

theorem bind_read {P : γ → Reader → Prop} {x : ReadM γ} {f : γ → ParseM α}
    (hx : Ends x r P) (hf : ∀ c r', P c r' → Concludes (f c) s r' g Q) :
    Concludes (liftM x >>= f) s r g Q :=
  bind (P := fun c r' g' => P c r' ∧ g' = g) (read (hx.mono fun _ _ hP => ⟨hP, rfl⟩))
    fun c r' _ ⟨hP, hg'⟩ => hg' ▸ hf c r' hP

theorem bind_get {f : Reader → ParseM α} (hf : Concludes (f r) s r g Q) :
    Concludes (get >>= f) s r g Q :=
  bind (P := fun p r' g' => r = p ∧ r = r' ∧ g = g') (of_run rfl ⟨rfl, rfl, rfl⟩)
    fun _ _ _ ⟨hp, hr', hg'⟩ => hp ▸ hr' ▸ hg' ▸ hf

theorem bind_modify {t : Reader → Reader} {f : PUnit → ParseM α}
    (hf : Concludes (f ⟨⟩) s (t r) g Q) :
    Concludes (modify t >>= f) s r g Q :=
  bind (P := fun _ r' g' => t r = r' ∧ g = g') (of_run rfl ⟨rfl, rfl⟩)
    fun _ _ _ ⟨hr', hg'⟩ => hr' ▸ hg' ▸ hf

theorem bind_except {x : Except Fault γ} [Bounded x] {f : γ → ParseM α}
    (hf : ∀ c, x = .ok c → Concludes (f c) s r g Q) : Concludes (liftM x >>= f) s r g Q :=
  bind_read (Ends.liftM (Q := fun c r' => x = .ok c ∧ r = r') fun _ hc => ⟨hc, rfl⟩)
    fun c _ ⟨hc, hr'⟩ => hr' ▸ hf c hc

/-- What a loop does follows from an invariant and a measure that every further
round makes smaller. -/
theorem repeatWith {step : α → ParseM (α ⊕ γ)} {Q : γ → Reader → Generator β → Prop}
    (measure : α → Reader → Nat) (inv : α → Reader → Generator β → Prop)
    (hstep : ∀ a r g, inv a r g → Concludes (step a) s r g fun c r' g' =>
      c.elim (fun a' => inv a' r' g' ∧ measure a' r' < measure a r) fun c => Q c r' g')
    (rounds : Nat) :
    ∀ a r g, inv a r g →
      measure a r < rounds → Concludes (repeatWith step rounds a) s r g Q := by
  induction rounds with
  | zero => exact fun a r g _ h => absurd h (Nat.not_lt_zero _)
  | succ rounds ih =>
    intro a r g ha hrounds
    refine (hstep a r g ha).bind fun c r' g' hc => ?_
    cases c with
    | inl a' => exact ih a' r' g' hc.1 (by have := hc.2; omega)
    | inr c => exact hc

theorem loop {step : α → ParseM (α ⊕ γ)} {Q : γ → Reader → Generator β → Prop}
    {a : α} (measure : α → Reader → Nat) (inv : α → Reader → Generator β → Prop)
    (hstart : inv a r g) (hrounds : measure a r < r.rounds)
    (hstep : ∀ a r g, inv a r g → Concludes (step a) s r g fun c r' g' =>
      c.elim (fun a' => inv a' r' g' ∧ measure a' r' < measure a r) fun c => Q c r' g') :
    Concludes (Parser.loop step a) s r g Q :=
  (repeatWith measure inv hstep r.rounds a r g hstart hrounds :)

end Concludes

/-- Whether there is room for every part of the grammar, `bound` being what `parse` starts from. -/
structure Ready (bound : Nat) (r : Reader) : Prop where
  depth : 6 * r.left + 5 < bound
  rounds : r.left < r.rounds

theorem Ready.of_left {bound : Nat} {r r' : Reader} (h : Ready bound r) (hleft : r'.left ≤ r.left)
    (hrounds : r'.rounds = r.rounds) : Ready bound r' where
  depth := by have := h.depth; omega
  rounds := hrounds ▸ Nat.lt_of_le_of_lt hleft h.rounds

theorem Ready.leads {bound : Nat} {r r' : Reader} (h : Ready bound r) (hleads : r.Leads r') :
    Ready bound r' :=
  h.of_left hleads.left hleads.rounds

/-- A token makes room for every part that can begin behind it. -/
theorem Ready.of_lt {bound : Nat} {r r' : Reader} (hdepth : 6 * r.left ≤ bound)
    (hr : r.left < r.rounds) (hleads : r.Leads r') (hlt : r'.left < r.left) : Ready bound r' where
  depth := by omega
  rounds := hleads.rounds ▸ Nat.lt_of_le_of_lt hleads.left hr

/-- Whether parsing a part ends, behind where it began. -/
class Wanders (β : Type) [Backend β] (bound : Nat) (p : Progress) (x : ParseM α) [Outcome α] :
    Prop where
  ends : ∀ ⦃s : Surroundings⦄ ⦃r : Reader⦄ ⦃g : Generator β⦄,
    Ready bound r → Sane r g →
    Concludes x s r g fun a r' g' => Advances r g r' g' ∧ p.Holds a r r'

/-- What is known of a part holds wherever there is room for it. -/
theorem Concludes.of_wanders [Outcome α] {bound : Nat} (p : Progress) {x : ParseM α}
    (hx : Wanders β bound p x) {s : Surroundings} {r : Reader} {g : Generator β}
    {Q : α → Reader → Generator β → Prop} (hr : Ready bound r) (hg : Sane r g)
    (hQ : ∀ a r' g', Advances r g r' g' → p.Holds a r r' → Q a r' g') : Concludes x s r g Q :=
  (hx.ends hr hg).mono fun a r' g' ⟨h, hp⟩ => hQ a r' g' h hp

namespace Wanders

variable [Outcome α] [Outcome γ] {bound : Nat} {p : Progress}

omit [Outcome α] in
/-- Goes on behind a part of which it is known what it consumes. -/
theorem next (q : Progress) {x : ParseM γ} {f : γ → ParseM α} [hx : Wanders β bound q x]
    {s : Surroundings} {r : Reader} {g : Generator β} {Q : α → Reader → Generator β → Prop}
    (hr : Ready bound r) (hg : Sane r g)
    (hf : ∀ c r₁ g₁, Advances r g r₁ g₁ →
      q.Holds c r r₁ → Concludes (f c) s r₁ g₁ Q) :
    Concludes (x >>= f) s r g Q :=
  (hx.ends hr hg).bind fun c r₁ g₁ ⟨h, hq⟩ => hf c r₁ g₁ h hq

theorem andThen {x : ParseM γ} {f : γ → ParseM α} [hx : Wanders β bound .some x]
    (hf : ∀ c, Wanders β bound p (f c)) :
    Wanders β bound p (x >>= f) where
  ends _ _ _ hr hg := next .some hr hg fun c _ _ h _ =>
    ((hf c).ends (hr.leads h.leads) h.sane).mono fun _ _ _ ⟨h', hp⟩ =>
      ⟨h.trans h', hp.weaken h.leads.left⟩

omit [Outcome γ] in
theorem andThenSome {x : ParseM (Option γ)} {f : Option γ → ParseM α}
    [hx : Wanders β bound .some x] (hsome : ∀ c, Wanders β bound p (f (some c)))
    (hnone : Wanders β bound p (f none)) : Wanders β bound p (x >>= f) :=
  andThen fun c => c.casesOn hnone hsome

theorem bind_of {q : Progress} {x : ParseM γ} {f : γ → ParseM α} (hx : Wanders β bound q x)
    (hf : ∀ c, ∃ p',
      Wanders β bound p' (f c) ∧ ∀ (a : α) (r r₁ r' : Reader), q.Holds c r r₁ →
      r₁.left ≤ r.left → r'.left ≤ r₁.left → p'.Holds a r₁ r' → p.Holds a r r') :
    Wanders β bound p (x >>= f) where
  ends s r g hr hg := by
    refine (hx.ends hr hg).bind fun c r₁ g₁ ⟨h, hq⟩ => ?_
    obtain ⟨p', hfc, hp⟩ := hf c
    refine (hfc.ends (hr.leads h.leads) h.sane).mono fun a r' g' ⟨h', hp'⟩ => ?_
    exact ⟨h.trans h', hp a r r₁ r' hq h.leads.left h'.leads.left hp'⟩

instance bind {x : ParseM γ} {f : γ → ParseM α} [hx : Wanders β bound .some x]
    [hf : ∀ c, Wanders β bound p (f c)] : Wanders β bound p (x >>= f) :=
  andThen hf

instance bind_option {x : ParseM (Option γ)} {f : Option γ → ParseM α}
    [hx : Wanders β bound .some x]
    [hsome : ∀ c, Wanders β bound p (f (some c))] [hnone : Wanders β bound p (f none)] :
    Wanders β bound p (x >>= f) :=
  andThenSome hsome hnone

instance bind_prod {δ : Type} {x : ParseM (γ × δ)} {f : γ × δ → ParseM α}
    [hx : Wanders β bound .some x]
    [hf : ∀ c d, Wanders β bound p (f (c, d))] : Wanders β bound p (x >>= f) :=
  have : ∀ c, Wanders β bound p (f c) := fun c => hf c.1 c.2
  bind

/-- Behind a part that cost a token, nothing more has to be consumed. -/
theorem behind {x : ParseM Bool} {f : Bool → ParseM α} [hx : Wanders β bound .consuming x]
    (htrue : Wanders β bound .some (f true)) (hfalse : Wanders β bound .consuming (f false)) :
    Wanders β bound .consuming (x >>= f) :=
  bind_of hx fun c => by
    cases c with
    | false => exact ⟨.consuming, hfalse, fun a r r₁ r' _ hle _ hp => hp.weaken hle⟩
    | true =>
      exact ⟨.some, htrue, fun a r r₁ r' hq _ hle _ _ => Nat.lt_of_le_of_lt hle (hq rfl)⟩

instance bind_consuming {x : ParseM Bool} {f : Bool → ParseM α}
    [hx : Wanders β bound .consuming x]
    [htrue : Wanders β bound .some (f true)] [hfalse : Wanders β bound .consuming (f false)] :
    Wanders β bound .consuming (x >>= f) :=
  behind htrue hfalse

instance bind_option_consuming {x : ParseM (Option γ)} {f : Option γ → ParseM α}
    [hx : Wanders β bound .consuming x] [hsome : ∀ c, Wanders β bound .some (f (some c))]
    [hnone : Wanders β bound .consuming (f none)] : Wanders β bound .consuming (x >>= f) :=
  bind_of hx fun c => by
    cases c with
    | none => exact ⟨.consuming, hnone, fun a r r₁ r' _ hle _ hp => hp.weaken hle⟩
    | some c =>
      exact ⟨.some, hsome c, fun a r r₁ r' hq _ hle _ _ => Nat.lt_of_le_of_lt hle (hq rfl)⟩

theorem of_pure {a : α} (h : ∀ r, p.Holds a r r) : Wanders β bound p (pure a : ParseM α) where
  ends _ r _ _ hg := Concludes.pure ⟨.refl hg, h r⟩

instance pure {a : α} : Wanders β bound .some (pure a : ParseM α) := of_pure fun _ => trivial
instance pure_none :
    Wanders β bound .stopping (Pure.pure none : ParseM (Option α)) := of_pure fun _ => nofun
instance pure_inr {c : γ} :
    Wanders β bound .stopping (Pure.pure (.inr c) : ParseM (α ⊕ γ)) := of_pure fun _ => nofun

theorem of_stopping {x : ParseM α} (hx : Wanders β bound .stopping x) : Wanders β bound p x where
  ends _ _ _ hr hg := (hx.ends hr hg).mono fun _ _ _ ⟨h, hp⟩ => ⟨h, hp.of_stopping⟩

instance consuming_of_stopping {x : ParseM α} [hx : Wanders β bound .stopping x] :
    Wanders β bound .consuming x :=
  of_stopping hx

theorem of_consuming [p.Proceeds] {x : ParseM α} (hx : Wanders β bound .consuming x) :
    Wanders β bound p x where
  ends _ _ _ hr hg := (hx.ends hr hg).mono fun _ _ _ ⟨h, hp⟩ => ⟨h, hp.of_consuming⟩

instance ite {c : Prop} [Decidable c] {x y : ParseM α} [hx : Wanders β bound p x]
    [hy : Wanders β bound p y] :
    Wanders β bound p (if c then x else y) := by
  split <;> assumption

instance ite_not_false {x y : ParseM α} [hx : Wanders β bound p x] :
    Wanders β bound p (if (!false) = true then x else y) :=
  hx

instance ite_false {x y : ParseM α} [hy : Wanders β bound p y] :
    Wanders β bound p (if false = true then x else y) :=
  hy

instance map {x : ParseM γ} {f : γ → α} [hx : Wanders β bound .some x] :
    Wanders β bound .some (f <$> x) := by
  rw [map_eq_pure_bind]
  infer_instance

instance liftM {x : ReadM α} [hx : Reads p x] : Wanders β bound p (liftM x : ParseM α) where
  ends _ _ _ hr hg :=
    Concludes.read ((hx.ends hr.rounds).mono fun _ _ ⟨hmoves, hp⟩ =>
      ⟨hmoves.advances hg, hp⟩)

instance except {x : Except Fault α} [Bounded x] :
    Wanders β bound .some (MonadLiftT.monadLift x : ParseM α) :=
  liftM (x := MonadLiftT.monadLift x)

instance get : Wanders β bound .some (get : ParseM Reader) where
  ends _ _ _ _ hg := Concludes.of_run rfl ⟨.refl hg, trivial⟩

instance surroundings : Wanders β bound .some (read : ParseM Surroundings) where
  ends _ _ _ _ hg := Concludes.of_run rfl ⟨.refl hg, trivial⟩

instance withReader {f : Surroundings → Surroundings} {x : ParseM α}
    [hx : Wanders β bound p x] :
    Wanders β bound p (withReader f x) where
  ends _ _ _ hr hg := hx.ends hr hg

theorem modify {f : Reader → Reader} (hf : ∀ r :
    Reader, r.Leads (f r) ∧ r.KeepsStructs (f r)) :
    Wanders β bound .some (modify f : ParseM PUnit) where
  ends _ r _ _ hg :=
    Concludes.of_run rfl ⟨⟨(hf r).1, hg.of_keeps (hf r).2, fun _ hd => hd⟩, trivial⟩

-- Which request it is tells the type of the answer, not the other way around.
instance emit [Backend.Lasting β] {q : Request} [Outcome q.Answer] [IsFalse q.definesStruct] :
    @Wanders (no_index q.Answer) β _ bound .some (Parser.emit q) _ where
  ends _ _ _ _ hg := (Concludes.ask hg).mono fun _ _ _ ⟨hr', h⟩ => ⟨hr' ▸ h, trivial⟩

instance forM {f : γ → ParseM PUnit} [hf : ∀ c, Wanders β bound .some (f c)] {l : List γ} :
    Wanders β bound .some (l.forM f) := by
  induction l with
  | nil => exact pure
  | cons c l ih => exact bind

instance forM_prod {δ : Type} {f : γ × δ → ParseM PUnit}
    [hf : ∀ c d, Wanders β bound .some (f (c, d))]
    {l : List (γ × δ)} : Wanders β bound .some (l.forM f) :=
  have : ∀ c, Wanders β bound .some (f c) := fun c => hf c.1 c.2
  forM

instance mapM {f : γ → ParseM α} [hf : ∀ c, Wanders β bound .some (f c)] {l : List γ} :
    Wanders β bound .some (l.mapM f) := by
  induction l with
  | nil => exact pure
  | cons c l ih =>
    rw [List.mapM_cons]
    infer_instance

instance mapM_prod {δ : Type} {f : γ × δ → ParseM α}
    [hf : ∀ c d, Wanders β bound .some (f (c, d))]
    {l : List (γ × δ)} : Wanders β bound .some (l.mapM f) :=
  have : ∀ c, Wanders β bound .some (f c) := fun c => hf c.1 c.2
  mapM

/-- A loop ends if every round that asks for another one has consumed a token. -/
instance loop {step : α → ParseM (α ⊕ γ)}
    [hstep : ∀ a, Wanders β bound .consuming (step a)] {a : α} :
    Wanders β bound .some (Parser.loop step a) where
  ends s r g hr hg := by
    refine Concludes.loop (fun _ r' => r'.left) (fun _ r' g' => Advances r g r' g')
      (.refl hg) hr.rounds ?_
    intro a r₁ g₁ h
    refine ((hstep a).ends (hr.leads h.leads) h.sane).mono fun c r' g' ⟨h', hp⟩ => ?_
    cases c with
    | inl a => exact ⟨h.trans h', hp rfl⟩
    | inr c => exact ⟨h.trans h', trivial⟩

end Wanders

/-- Whether parsing a part gives a result. -/
def Parses (x : ParseM α) (s : Surroundings) (r : Reader) (g : Generator β) (a : α) (r' : Reader)
    (g' : Generator β) : Prop :=
  ((x s).run r).run g = .ok ((a, r'), g')

namespace Parses

variable {s : Surroundings} {r r' : Reader} {g g' : Generator β} {a : α}

theorem bind_iff {x : ParseM γ} {f : γ → ParseM α} :
    Parses (x >>= f) s r g a r' g'
      ↔ ∃ c r₁ g₁, Parses x s r g c r₁ g₁ ∧ Parses (f c) s r₁ g₁ a r' g' := by
  show ((x s).run r >>= fun c => (f c.1 s).run c.2).run g = _ ↔ _
  rw [Script.run_bind, bind_eq_ok]
  exact ⟨fun ⟨c, g₁, hc, h⟩ => ⟨c.1, c.2, g₁, hc, h⟩,
    fun ⟨c, r₁, g₁, hc, h⟩ => ⟨(c, r₁), g₁, hc, h⟩⟩

theorem of_run {x : ParseM α} {b : α} {r₁ : Reader} (hx : (x s).run r = pure (b, r₁))
    (h : Parses x s r g a r' g') :
    b = a ∧ r₁ = r' ∧ g = g' := by
  rw [Parses, hx] at h
  obtain ⟨heq, rfl⟩ := pure_eq_ok.mp h
  exact ⟨congrArg Prod.fst heq, congrArg Prod.snd heq, rfl⟩

theorem pure {b : α} (h : Parses (pure b) s r g a r' g') :
    b = a ∧ r = r' ∧ g = g' := of_run rfl h

theorem read {x : ReadM α} (h : Parses (liftM x) s r g a r' g') :
    x r = .ok (a, r') ∧ g = g' := by
  replace h : (x.toParse s r).run g = _ := h
  unfold ReadM.toParse at h
  split at h
  · rename_i hx
    obtain ⟨heq, rfl⟩ := pure_eq_ok.mp h
    exact ⟨hx.trans (congrArg _ heq), rfl⟩
  · exact (throw_eq_ok.mp h).elim

theorem emit {q : Request} {a : q.Answer} (h : Parses (Parser.emit q) s r g a r' g') :
    r' = r ∧ q.handle g = .ok (a, g') := by
  replace h : (q.handle >>= fun a => Script.run (Script.done (a, r))) g = _ := h
  obtain ⟨b, g₁, hb, h⟩ := bind_eq_ok.mp h
  obtain ⟨heq, rfl⟩ := pure_eq_ok.mp h
  obtain ⟨rfl, rfl⟩ := Prod.mk.inj heq
  exact ⟨rfl, hb⟩

theorem not_throw {e : Fault} : ¬Parses (throw e : ParseM α) s r g a r' g' := by
  intro h
  replace h : (throw e : GenM β (α × Reader)) g = _ := h
  exact (throw_eq_ok.mp h).elim

end Parses

end ShaderEffect

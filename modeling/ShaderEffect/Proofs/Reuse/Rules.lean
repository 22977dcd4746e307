import ShaderEffect.Parser.Run
import ShaderEffect.Proofs.Computation

/-!
Rules to prove what a parser does not depend on.

A parser keeps some of its fields from one source to the next. Two readers that stand at the same
position of the same source may differ in them, as long as nothing looks at a field before it was
set again. What a position is, and which fields readers share there, is one relation; a part of the
parser keeps it if it makes the same requests and gives the same result from both of them. The
relation also says in which scope a reader stands and which names can be in its table, so that the
same walk over the parser shows that scopes are left as they were entered.

Instances of two classes, `Agrees` for reading and `Replays` for parsing, collect the
parts that behave so.
-/
namespace ShaderEffect

variable {α γ δ : Type}

/-- Whether a truth value that is known is true. -/
class IsTrue (b : Bool) : Prop where
  eq_true : b = true

instance : IsTrue true := ⟨rfl⟩

/-- Whether two scripts make the same requests and then have results that satisfy `Q`, whatever
the answers are. -/
inductive Script.Matches (Q : α → γ → Prop) : Script α → Script γ → Prop where
  | done {a : α} {c : γ} (h : Q a c) : Matches Q (.done a) (.done c)
  | fault {e : Fault} : Matches Q (.fault e) (.fault e)
  | ask {q : Request} {f : q.Answer → Script α} {f' : q.Answer → Script γ}
      (h : ∀ answer, Matches Q (f answer) (f' answer)) :
    Matches Q (.ask q f) (.ask q f')

namespace Script.Matches

variable {Q : α → γ → Prop}

theorem mono {R : α → γ → Prop} {x : Script α} {y : Script γ} (h : x.Matches Q y)
    (hQR : ∀ a c, Q a c → R a c) :
    x.Matches R y := by
  induction h with
  | done h => exact .done (hQR _ _ h)
  | fault => exact .fault
  | ask _ ih => exact .ask ih

theorem bind {α' γ' : Type} {R : α' → γ' → Prop} {x : Script α} {y : Script γ}
    {f : α → Script α'} {f' : γ → Script γ'} (h : x.Matches Q y)
    (hf : ∀ a c, Q a c → (f a).Matches R (f' c)) : (x >>= f).Matches R (y >>= f') := by
  induction h with
  | done h => exact hf _ _ h
  | fault => exact .fault
  | ask _ ih => exact .ask ih

/-- Where results match in what counts, the scripts that give what counts are one script. -/
theorem map_eq {x : Script α} {y : Script γ} {f : α → δ} {f' : γ → δ} (h : x.Matches Q y)
    (hf : ∀ a c, Q a c → f a = f' c) : f <$> x = f' <$> y := by
  rw [map_eq_pure_bind, map_eq_pure_bind]
  induction h with
  | done h => exact congrArg Script.done (hf _ _ h)
  | fault => rfl
  | ask _ ih => exact congrArg (Script.ask _) (funext ih)

/-- What has a result on a generator has one in every script that matches. -/
theorem run {β : Type} [Backend β] {x : Script α} {y : Script γ} {g g' : Generator β} {a : α}
    (h : x.Matches Q y) (hrun : x.run g = .ok (a, g')) :
    ∃ c, y.run g = .ok (c, g') ∧ Q a c := by
  induction h generalizing g with
  | @done b c h =>
    obtain ⟨rfl, rfl⟩ := pure_eq_ok.mp hrun
    exact ⟨c, rfl, h⟩
  | fault => exact (throw_eq_ok.mp hrun).elim
  | ask _ ih =>
    obtain ⟨answer, g₁, hanswer, hrest⟩ := bind_eq_ok.mp hrun
    obtain ⟨c, hc, hQ⟩ := ih answer hrest
    exact ⟨c, bind_eq_ok.mpr ⟨answer, g₁, hanswer, hc⟩, hQ⟩

end Script.Matches

/-- Whether a token that is a name contains no separator of paths. -/
def Token.Plain (t : Token) : Prop :=
  t.kind = .identifier → ':' ∉ t.text.toList

/-- A position in a source, as far as it matters to what can be read there. -/
structure Position where
  scope : Scope
  /-- Whether the body or the head of a function is read. -/
  inFunction : Bool
  /-- Whether a token of the source was read. -/
  begun : Bool
  /-- Whether a place in the source was remembered. -/
  saved : Bool

namespace Position

/-- Whether an entry can be in the table: a local only in the function that is read. -/
def Admits (p : Position) (e : SymbolTable.Entry) : Prop :=
  e.scope.level ≤ e.scope.namespaceLevel ∨
    p.inFunction = true ∧ e.scope.namespaceLevel = p.scope.namespaceLevel

/-- The position behind a token, if there was one. -/
def past (p : Position) (isToken : Bool) : Position :=
  { p with begun := isToken || p.begun }

/-- The position at which the place is remembered. -/
def marked (p : Position) : Position :=
  { p with saved := true }

/-- The position in a block. -/
def inner (p : Position) : Position :=
  { p with scope := { p.scope with level := p.scope.level + 1 } }

/-- The position at the head of a function. -/
def head (p : Position) : Position :=
  { p.inner with inFunction := true }

/-- The position in a namespace. -/
def within (p : Position) (name : String) : Position :=
  { p with
    scope :=
      { name := p.scope.name ++ name ++ "::"
        level := p.scope.level + 1
        namespaceLevel := p.scope.namespaceLevel + 1 } }

instance {p : Position} : IsTrue (p.past true).begun := ⟨rfl⟩
instance {p : Position} {b : Bool} [h : IsTrue p.begun] :
    IsTrue (p.past b).begun := ⟨by rw [past, h.eq_true, Bool.or_true]⟩
instance {p : Position} {b : Bool} [h : IsTrue p.inFunction] : IsTrue (p.past b).inFunction := h
instance {p : Position} {b : Bool} [h : IsTrue p.saved] : IsTrue (p.past b).saved := h
instance {p : Position} : IsTrue p.marked.saved := ⟨rfl⟩
instance {p : Position} [h : IsTrue p.begun] : IsTrue p.marked.begun := h
instance {p : Position} [h : IsTrue p.inFunction] : IsTrue p.marked.inFunction := h
instance {p : Position} [h : IsTrue p.begun] : IsTrue p.inner.begun := h
instance {p : Position} [h : IsTrue p.inFunction] : IsTrue p.inner.inFunction := h
instance {p : Position} [h : IsTrue p.begun] : IsTrue p.head.begun := h
instance {p : Position} : IsTrue p.head.inFunction := ⟨rfl⟩
instance {p : Position} {name : String} [h : IsTrue p.begun] : IsTrue (p.within name).begun := h

end Position

/-- Whether two readers stand at the same position of a source. All that one of them has more are
messages about earlier sources. -/
structure Reader.Alike (p : Position) (earlier : Diagnostics) (r₁ r₂ : Reader) : Prop where
  cursor : r₁.cursor = r₂.cursor
  next : r₁.next = r₂.next
  symbols : r₁.symbols = r₂.symbols
  errors : r₁.errors = r₂.errors
  rounds : r₁.rounds = r₂.rounds
  diagnostics : r₁.diagnostics = earlier ++ r₂.diagnostics
  token : p.begun = true → r₁.token = r₂.token
  saved : p.saved = true → r₁.savedNext = r₂.savedNext
    ∧ r₁.savedCursor = r₂.savedCursor ∧ r₂.savedNext.Plain
  returnType : p.inFunction = true → r₁.returnType = r₂.returnType
  plain : r₂.next.Plain
  scope : r₂.symbols.current = p.scope
  entries : ∀ e ∈ r₂.symbols.entries, p.Admits e

namespace Reader.Alike

variable {p : Position} {earlier : Diagnostics} {r₁ r₂ : Reader}

/-- To have passed a token is more than is known without it. -/
theorem weaken {b c : Bool} (h : r₁.Alike { p with begun := b } earlier r₂)
    (hbegun : c = true → b = true) :
    r₁.Alike { p with begun := c } earlier r₂ :=
  { h with token := fun hc => h.token (hbegun hc) }

theorem of_past {b : Bool} (h : r₁.Alike (p.past b) earlier r₂) : r₁.Alike p earlier r₂ :=
  h.weaken fun hbegun => by rw [hbegun, Bool.or_true]

theorem past_trans {b c : Bool} (h : r₁.Alike ((p.past b).past c) earlier r₂) :
    r₁.Alike (p.past c) earlier r₂ :=
  h.weaken fun hbegun => by
    rcases Bool.or_eq_true_iff.mp hbegun with hc | hp <;> simp [Position.past, *]

end Reader.Alike

/-- A part that only reads and has a result is passed. -/
theorem ReadM.toParse_bind {x : ReadM γ} {f : γ → ParseM α} {s : Surroundings} {r r' : Reader}
    {c : γ} (h : x r = .ok (c, r')) : (liftM x >>= f) s r = f c s r' := by
  have hbind :
      (liftM x >>= f) s r = (x.toParse s r >>= fun d => f d.1 s d.2 : Script (α × Reader)) := rfl
  rw [hbind, toParse, h]
  rfl

theorem ParseM.get_bind {f : Reader → ParseM α} {s : Surroundings} {r : Reader} :
    (get >>= f) s r = f r s r := rfl

theorem ParseM.except_bind {x : Except Fault γ} {f : γ → ParseM α} {s : Surroundings}
    {r : Reader} {c : γ} (h : x = .ok c) :
    ((liftM x : ParseM γ) >>= f) s r = f c s r := by
  subst h
  rfl

/-- Whether readers at one position get the same from a part, and stand at one position behind it.
Whether they have passed a token then is told by the result. -/
structure Coincides (p : Position) (isToken : α → Bool) (x : ParseM α) : Prop where
  meets : ∀ {s earlier r₁ r₂}, r₁.Alike p earlier r₂ →
    (x s r₁).Matches (fun c₁ c₂ =>
      c₁.1 = c₂.1 ∧ c₁.2.Alike (p.past (isToken c₁.1)) earlier c₂.2) (x s r₂)

/-- Whether a part makes the same requests wherever readers stand at one position, with the same
result, and leaves them at that position. -/
class Replays (p : Position) (x : ParseM α) : Prop where
  coincides : Coincides p (fun _ => false) x

/-- Whether a part that only reads does so. -/
class Agrees (p : Position) (x : ReadM α) : Prop where
  coincides : Coincides p (fun _ => false) (liftM x : ParseM α)

namespace Coincides

variable {p : Position} {isToken : α → Bool}

theorem bind {isFirst : γ → Bool} {x : ParseM γ} {f : γ → ParseM α}
    (hx : Coincides p isFirst x)
    (hf : ∀ c, Coincides (p.past (isFirst c)) isToken (f c)) : Coincides p isToken (x >>= f) where
  meets h := by
    refine (hx.meets h).bind fun c₁ c₂ hc => ?_
    obtain ⟨c, r₁'⟩ := c₁
    obtain ⟨c, r₂'⟩ := c₂
    obtain ⟨rfl, h'⟩ := hc
    exact ((hf c).meets h').mono fun _ _ hresult =>
      hresult.imp_right fun halike => halike.past_trans

theorem pure {a : α} (ha : isToken a = true → p.begun = true) :
    Coincides p isToken (pure a) where
  meets h := .done ⟨rfl, h.weaken fun hbegun => (Bool.or_eq_true_iff.mp hbegun).elim ha id⟩

/-- Behind a token, it need not be told that there was one. -/
theorem of_begun (hp : p.begun = true) {x : ParseM α} (hx : Coincides p (fun _ => false) x) :
    Coincides p isToken x where
  meets h := (hx.meets h).mono fun _ _ hresult =>
    hresult.imp_right fun halike => halike.weaken fun _ => hp

theorem ignore {x : ParseM α} (hx : Coincides p isToken x) : Coincides p (fun _ => false) x where
  meets h := (hx.meets h).mono fun _ _ hresult => hresult.imp_right fun halike => halike.of_past

/-- What a part that only reads does is seen from its outcomes. -/
theorem of_outcomes {x : ReadM α} (hx : ∀ {earlier r₁ r₂}, r₁.Alike p earlier r₂ →
    (∃ e, x r₁ = .error e ∧ x r₂ = .error e)
      ∨ ∃ a r₁' r₂', x r₁ = .ok (a, r₁') ∧ x r₂ = .ok (a, r₂') ∧
      r₁'.Alike (p.past (isToken a)) earlier r₂') :
    Coincides p isToken (liftM x : ParseM α) where
  meets {s earlier r₁ r₂} h := by
    show (x.toParse s r₁).Matches _ (x.toParse s r₂)
    unfold ReadM.toParse
    obtain ⟨e, h₁, h₂⟩ | ⟨a, r₁', r₂', h₁, h₂, h'⟩ := hx h
    · rw [h₁, h₂]
      exact .fault
    · rw [h₁, h₂]
      exact .done ⟨rfl, h'⟩

theorem liftM_bind (x : ReadM γ) (f : γ → ReadM α) :
    (liftM (x >>= f) : ParseM α) = liftM x >>= fun c => liftM (f c) := by
  funext s r
  show ReadM.toParse (x >>= f) s r = (x.toParse s r >>= fun c => (f c.1).toParse s c.2 : Script _)
  have hbind : (x >>= f) r = x r >>= fun c => f c.1 c.2 := rfl
  unfold ReadM.toParse
  rw [hbind]
  cases x r <;> rfl

/-- Reading goes on behind a part that only reads. -/
theorem andThen {isFirst : γ → Bool} {x : ReadM γ} {f : γ → ReadM α}
    (hx : Coincides p isFirst (liftM x : ParseM γ))
    (hf : ∀ c, Coincides (p.past (isFirst c)) isToken (liftM (f c) : ParseM α)) :
    Coincides p isToken (liftM (x >>= f) : ParseM α) := by
  rw [liftM_bind]
  exact hx.bind hf

/-- Only what readers share may be looked at. -/
theorem bind_get {f : Reader → ParseM α}
    (hshared : ∀ {earlier r₁ r₂}, r₁.Alike p earlier r₂ → f r₁ = f r₂)
    (hf : ∀ r, Coincides p isToken (f r)) : Coincides p isToken (get >>= f) where
  meets {s earlier r₁ r₂} h := by
    show (f r₁ s r₁).Matches _ (f r₂ s r₂)
    rw [hshared h]
    exact (hf r₂).meets h

/-- What changes a reader changes all alike. -/
theorem modify {f : Reader → Reader}
    (hf : ∀ {earlier r₁ r₂}, r₁.Alike p earlier r₂ →
      (f r₁).Alike p earlier (f r₂)) :
    Coincides p (fun _ => false) (modify f : ParseM PUnit) where
  meets h := .done ⟨rfl, hf h⟩

end Coincides

namespace Agrees

variable {p : Position}

/-- Goes on behind a part of which nothing more is known. -/
theorem of_bind {x : ReadM γ} {f : γ → ReadM α} (hx : Agrees p x)
    (hf : ∀ c, Agrees p (f c)) : Agrees p (x >>= f) :=
  ⟨hx.coincides.andThen fun c => (hf c).coincides⟩

instance bind {x : ReadM γ} {f : γ → ReadM α} [hx : Agrees p x] [hf : ∀ c, Agrees p (f c)] :
    Agrees p (x >>= f) :=
  of_bind hx hf

instance bind_option {x : ReadM (Option γ)} {f : Option γ → ReadM α} [hx : Agrees p x]
    [hsome : ∀ c, Agrees p (f (some c))] [hnone : Agrees p (f none)] : Agrees p (x >>= f) :=
  of_bind hx fun c => c.casesOn hnone hsome

/-- Goes on behind a token that may have been passed. -/
theorem behind {x : ReadM Bool} {f : Bool → ReadM α}
    (hx : Coincides p id (liftM x : ParseM Bool))
    (htrue : Agrees (p.past true) (f true)) (hfalse : Agrees p (f false)) : Agrees p (x >>= f) where
  coincides := hx.andThen fun c => by
    cases c with
    | false => exact hfalse.coincides
    | true => exact htrue.coincides

instance pure {a : α} : Agrees p (pure a : ReadM α) where
  coincides := .of_outcomes fun {_ r₁ r₂} h => .inr ⟨a, r₁, r₂, rfl, rfl, h⟩

instance throw {e : Fault} : Agrees p (throw e : ReadM α) where
  coincides := .of_outcomes fun _ => .inl ⟨e, rfl, rfl⟩

instance ite {c : Prop} [Decidable c] {x y : ReadM α} [hx : Agrees p x] [hy : Agrees p y] :
    Agrees p (if c then x else y) := by
  split <;> assumption

instance except {x : Except Fault α} : Agrees p (liftM x : ReadM α) where
  coincides := by
    refine .of_outcomes fun {_ r₁ r₂} h => ?_
    cases x with
    | error e => exact .inl ⟨e, rfl, rfl⟩
    | ok a => exact .inr ⟨a, r₁, r₂, rfl, rfl, h⟩

theorem bind_get {f : Reader → ReadM α}
    (hshared : ∀ {earlier r₁ r₂}, r₁.Alike p earlier r₂ → f r₁ = f r₂)
    (hf : ∀ r, Agrees p (f r)) : Agrees p (get >>= f) where
  coincides := by
    have hget : (liftM (get >>= f) : ParseM α) = get >>= fun r => liftM (f r) :=
      Coincides.liftM_bind get f
    rw [hget]
    exact .bind_get (fun h => by rw [hshared h]) fun r => (hf r).coincides

theorem modify {f : Reader → Reader}
    (hf : ∀ {earlier r₁ r₂}, r₁.Alike p earlier r₂ →
      (f r₁).Alike p earlier (f r₂)) :
    Agrees p (modify f : ReadM PUnit) where
  coincides := .modify hf

instance forM {f : γ → ReadM PUnit} [hf : ∀ c, Agrees p (f c)] {l : List γ} :
    Agrees p (l.forM f) := by
  induction l with
  | nil => exact pure
  | cons c l ih => exact bind

instance mapM {f : γ → ReadM α} [hf : ∀ c, Agrees p (f c)] {l : List γ} :
    Agrees p (l.mapM f) := by
  induction l with
  | nil => exact pure
  | cons c l ih =>
    rw [List.mapM_cons]
    infer_instance

/-- What every round does, a loop does. -/
theorem of_readLoop {step : α → ReadM (α ⊕ γ)} {a : α} (hstep : ∀ a, Agrees p (step a)) :
    Agrees p (Parser.readLoop step a) := by
  have hrepeat (rounds : Nat) : ∀ a, Agrees p (repeatWith step rounds a) := by
    induction rounds with
    | zero => exact fun _ => throw
    | succ rounds ih =>
      refine fun a => of_bind (hstep a) fun c => ?_
      cases c with
      | inl a => exact ih a
      | inr c => exact pure
  exact bind_get (fun h => by rw [h.rounds]) fun r => hrepeat _ a

instance readLoop {step : α → ReadM (α ⊕ γ)} {a : α} [hstep : ∀ a, Agrees p (step a)] :
    Agrees p (Parser.readLoop step a) :=
  of_readLoop hstep

end Agrees

namespace Replays

variable {p : Position}

/-- Goes on behind a part of which nothing more is known. -/
theorem of_bind {x : ParseM γ} {f : γ → ParseM α} (hx : Replays p x)
    (hf : ∀ c, Replays p (f c)) : Replays p (x >>= f) :=
  ⟨hx.coincides.bind fun c => (hf c).coincides⟩

instance bind {x : ParseM γ} {f : γ → ParseM α} [hx : Replays p x]
    [hf : ∀ c, Replays p (f c)] : Replays p (x >>= f) :=
  of_bind hx hf

instance bind_option {x : ParseM (Option γ)} {f : Option γ → ParseM α} [hx : Replays p x]
    [hsome : ∀ c, Replays p (f (some c))] [hnone : Replays p (f none)] : Replays p (x >>= f) :=
  of_bind hx fun c => c.casesOn hnone hsome

instance bind_prod {x : ParseM (γ × δ)} {f : γ × δ → ParseM α} [hx : Replays p x]
    [hf : ∀ c d, Replays p (f (c, d))] :
    Replays p (x >>= f) :=
  of_bind hx fun c => hf c.1 c.2

/-- Goes on behind a part whose result tells whether a token was passed. -/
theorem of_bind_token {isToken : γ → Bool} {x : ParseM γ} {f : γ → ParseM α}
    (hx : Coincides p isToken x)
    (hf : ∀ c, Replays (p.past (isToken c)) (f c)) : Replays p (x >>= f) :=
  ⟨hx.bind fun c => (hf c).coincides⟩

/-- Goes on behind a token that may have been passed. -/
theorem behind {x : ParseM Bool} {f : Bool → ParseM α} (hx : Coincides p id x)
    (htrue : Replays (p.past true) (f true)) (hfalse : Replays p (f false)) : Replays p (x >>= f) :=
  of_bind_token hx fun c => by
    cases c with
    | false => exact hfalse
    | true => exact htrue

instance pure {a : α} : Replays p (pure a : ParseM α) where
  coincides := .pure fun h => absurd h Bool.false_ne_true

instance throw {e : Fault} : Replays p (throw e : ParseM α) where
  coincides := ⟨fun _ => .fault⟩

instance ite {c : Prop} [Decidable c] {x y : ParseM α} [hx : Replays p x] [hy : Replays p y] :
    Replays p (if c then x else y) := by
  split <;> assumption

instance map {x : ParseM γ} {f : γ → α} [hx : Replays p x] : Replays p (f <$> x) := by
  rw [map_eq_pure_bind]
  infer_instance

instance liftM {x : ReadM α} [hx : Agrees p x] : Replays p (liftM x : ParseM α) :=
  ⟨hx.coincides⟩

instance except {x : Except Fault α} : Replays p (MonadLiftT.monadLift x : ParseM α) :=
  liftM (x := MonadLiftT.monadLift x)

theorem bind_get {f : Reader → ParseM α}
    (hshared : ∀ {earlier r₁ r₂}, r₁.Alike p earlier r₂ → f r₁ = f r₂)
    (hf : ∀ r, Replays p (f r)) : Replays p (get >>= f) where
  coincides := .bind_get hshared fun r => (hf r).coincides

instance surroundings : Replays p (read : ParseM Surroundings) where
  coincides := ⟨fun h => .done ⟨rfl, h⟩⟩

instance withReader {f : Surroundings → Surroundings} {x : ParseM α} [hx : Replays p x] :
    Replays p (withReader f x) where
  coincides := ⟨fun h => hx.coincides.meets h⟩

-- Which request it is tells the type of the answer, not the other way around.
instance emit {q : Request} : @Replays (no_index q.Answer) p (Parser.emit q) where
  coincides := ⟨fun h => .ask fun _ => .done ⟨rfl, h⟩⟩

instance forM {f : γ → ParseM PUnit} [hf : ∀ c, Replays p (f c)] {l : List γ} :
    Replays p (l.forM f) := by
  induction l with
  | nil => exact pure
  | cons c l ih => exact bind

instance mapM {f : γ → ParseM α} [hf : ∀ c, Replays p (f c)] {l : List γ} :
    Replays p (l.mapM f) := by
  induction l with
  | nil => exact pure
  | cons c l ih =>
    rw [List.mapM_cons]
    infer_instance

/-- What every round does, a loop does. -/
theorem of_loop {step : α → ParseM (α ⊕ γ)} {a : α} (hstep : ∀ a, Replays p (step a)) :
    Replays p (Parser.loop step a) := by
  have hrepeat (rounds : Nat) : ∀ a, Replays p (repeatWith step rounds a) := by
    induction rounds with
    | zero => exact fun _ => throw
    | succ rounds ih =>
      refine fun a => of_bind (hstep a) fun c => ?_
      cases c with
      | inl a => exact ih a
      | inr c => exact pure
  exact bind_get (fun h => by rw [h.rounds]) fun r => hrepeat _ a

instance loop {step : α → ParseM (α ⊕ γ)} {a : α} [hstep : ∀ a, Replays p (step a)] :
    Replays p (Parser.loop step a) :=
  of_loop hstep

end Replays

/-- Whether a part makes the same requests wherever readers stand at one position, with the same
result, and leads them to another one. -/
structure Leads (p q : Position) (x : ParseM α) : Prop where
  meets : ∀ {s earlier r₁ r₂}, r₁.Alike p earlier r₂ →
    (x s r₁).Matches (fun c₁ c₂ => c₁.1 = c₂.1 ∧ c₁.2.Alike q earlier c₂.2)
      (x s r₂)

namespace Leads

variable {p q t : Position}

theorem bind {x : ParseM γ} {f : γ → ParseM α} (hx : Leads p q x)
    (hf : ∀ c, Leads q t (f c)) : Leads p t (x >>= f) where
  meets h := by
    refine (hx.meets h).bind fun c₁ c₂ hc => ?_
    obtain ⟨c, r₁'⟩ := c₁
    obtain ⟨c, r₂'⟩ := c₂
    obtain ⟨rfl, h'⟩ := hc
    exact (hf c).meets h'

theorem of_replays {x : ParseM α} (hx : Replays p x) : Leads p p x := ⟨hx.coincides.meets⟩

theorem replays {x : ParseM α} (hx : Leads p p x) : Replays p x := ⟨⟨hx.meets⟩⟩

theorem modify {f : Reader → Reader}
    (hf : ∀ {earlier r₁ r₂}, r₁.Alike p earlier r₂ →
      (f r₁).Alike q earlier (f r₂)) :
    Leads p q (modify f : ParseM PUnit) where
  meets h := .done ⟨rfl, hf h⟩

/-- Where a part leads to a position and another leads back, everything in between is read
at that position. -/
theorem around {x : ParseM δ} {y : ParseM γ} {f : γ → ParseM α} {z : ParseM PUnit}
    (hx : Leads p q x) (hy : Replays q y) (hz : Leads q p z) (hf : ∀ c, Replays p (f c)) :
    Replays p (do let _ ← x; let c ← y; z; f c) :=
  (hx.bind fun _ => (of_replays hy).bind fun c => hz.bind fun _ => .of_replays (hf c)).replays

end Leads

end ShaderEffect

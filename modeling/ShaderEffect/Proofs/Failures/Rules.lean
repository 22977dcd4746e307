import ShaderEffect.Proofs.Failures.Ids
import ShaderEffect.Proofs.Reading.Generation

/-!
Rules to prove that parsing reports what goes wrong.

A part of the parser that fails is said to give nothing, or false. Whether there is a reason for
that can only be seen in the whole run, in which the error may have come up before. What a part
gives is therefore judged by what the run comes to, and what is known where a part begins is carried
along in front of it, as a proposition `Γ`. Instances of the classes `Supplies`, `Admits` and
`Honest` collect the parts that behave so.
-/
namespace ShaderEffect

variable {α γ δ β : Type}

/-- Whether errors are counted, and one is among the messages that were added if and only if the
count has grown. -/
structure Reader.Accounts (r r' : Reader) : Prop where
  errors : r.errors ≤ r'.errors
  recorded : ∃ added, r'.diagnostics = r.diagnostics ++ added ∧
    (r.errors < Parser.errorLimit → (Diagnostics.hasErrors added = true ↔ r.errors < r'.errors))

/-- How deep a reader stands in blocks and namespaces. -/
def Reader.depth (r : Reader) : UInt32 × UInt32 :=
  (r.symbols.current.level, r.symbols.current.namespaceLevel)

/-- What a complete part leaves behind: errors are counted, and the scope is the one it began in. -/
structure Leaves (r : Reader) (g : Generator β) (r' : Reader) (g' : Generator β) : Prop where
  accounts : r.Accounts r'
  depth : r'.depth = r.depth
  grows : g.Grows g'

namespace Reader.Accounts

variable {r r₁ r' : Reader}

theorem of_eq (herrors : r'.errors = r.errors) (hdiagnostics : r'.diagnostics = r.diagnostics) :
    r.Accounts r' where
  errors := Nat.le_of_eq herrors.symm
  recorded := by
    refine ⟨[], by rw [hdiagnostics, List.append_nil], fun _ => ?_⟩
    simp only [herrors, Nat.lt_irrefl, iff_false]
    decide

theorem refl (r : Reader) : r.Accounts r := of_eq rfl rfl

theorem trans (h : r.Accounts r₁) (h' : r₁.Accounts r') : r.Accounts r' where
  errors := Nat.le_trans h.errors h'.errors
  recorded := by
    obtain ⟨added, hadded, hiff⟩ := h.recorded
    obtain ⟨more, hmore, hiff'⟩ := h'.recorded
    refine ⟨added ++ more, by rw [hmore, hadded, List.append_assoc], fun hlimit => ?_⟩
    have herrors := h.errors
    have herrors' := h'.errors
    have hfirst := hiff hlimit
    rw [Diagnostics.hasErrors, List.any_append, Bool.or_eq_true]
    by_cases hreached : r₁.errors < Parser.errorLimit
    · have hsecond := hiff' hreached
      rw [Diagnostics.hasErrors] at hfirst hsecond
      rw [hfirst, hsecond]
      omega
    -- Beyond the limit nothing is recorded, but an error was recorded in front of it.
    · rw [Diagnostics.hasErrors] at hfirst
      have hlt : r.errors < r₁.errors := by omega
      exact ⟨fun _ => by omega, fun _ => .inl (hfirst.mpr hlt)⟩

end Reader.Accounts

namespace Leaves

variable {r r₁ r' : Reader} {g g₁ g' : Generator β}

theorem refl (r : Reader) (g : Generator β) : Leaves r g r g := ⟨.refl r, rfl, .refl g⟩

theorem trans (h : Leaves r g r₁ g₁) (h' : Leaves r₁ g₁ r' g') : Leaves r g r' g' :=
  ⟨h.accounts.trans h'.accounts, h'.depth.trans h.depth, h.grows.trans h'.grows⟩

end Leaves

/-- Whether a run comes at least as far as this: the ids handed out so far count, and
so do the errors. -/
structure Horizon.Covers (w : Horizon) (r : Reader) (g : Generator β) : Prop where
  nextId : g.nextId ≤ w.count
  failed : 0 < r.errors → w.failed

theorem Horizon.Covers.of_leaves {w : Horizon} {r r' : Reader} {g g' : Generator β}
    (h : w.Covers r' g') (haccounts : r.Accounts r') (hgrows : g.Grows g') : w.Covers r g :=
  ⟨Nat.le_trans hgrows.nextId h.nextId,
    fun herrors => h.failed (Nat.lt_of_lt_of_le herrors haccounts.errors)⟩

/-- Where in a source a part stands. -/
inductive Place where
  /-- In a function whose parameters lie in the scope of the given level. -/
  | inside (level : UInt32)
  /-- At the head of such a function, in that scope. -/
  | head (level : UInt32)
  /-- Outside of functions, with room for so many namespaces in each other. -/
  | outside (room : Nat)

namespace Place

/-- Whether a scope is that of the parameters of the current function. -/
def Owns : Place → Scope → Prop
  | inside level, scope | head level, scope =>
    scope.level = level ∧ scope.namespaceLevel < scope.level
  | outside _, _ => False

/-- Whether a reader is where it should be: outside of functions there are no blocks. -/
def Holds : Place → Reader → Prop
  | inside _, _ => True
  | head level, r =>
    r.symbols.current.level = level ∧ r.symbols.current.namespaceLevel < r.symbols.current.level
  | outside room, r =>
    r.symbols.current.level = r.symbols.current.namespaceLevel
      ∧ r.symbols.current.level.toNat + room < 2 ^ 32

theorem Holds.of_depth {σ : Place} {r r' : Reader} (h : σ.Holds r) (hdepth : r'.depth = r.depth) :
    σ.Holds r' := by
  obtain ⟨hlevel, hnamespace⟩ := Prod.mk.inj hdepth
  cases σ with
  | inside => trivial
  | head level => rwa [Holds, hlevel, hnamespace]
  | outside room => rwa [Holds, hlevel, hnamespace]

end Place

/-- Whether a function or a texture that did not fail is one of the generator's. Only the parameters
of the current function are not. -/
structure Registered (σ : Place) (g : Generator β) (symbol : Symbol) (scope : Scope) : Prop where
  function : symbol.kind = .function → symbol.id ≠ Id.invalid →
    ∃ d ∈ g.functions, d.definition = symbol.id
  texture : symbol.type.isTexture → symbol.id ≠ Id.invalid →
    symbol.id ∈ g.result.textures.map (·.id) ∨ σ.Owns scope

theorem Registered.of_grows {σ : Place} {g g' : Generator β} {symbol : Symbol} {scope : Scope}
    (h : Registered σ g symbol scope) (hgrows : g.Grows g') : Registered σ g' symbol scope where
  function hkind hid :=
    (h.function hkind hid).imp fun _ hd => ⟨hgrows.functions.subset hd.1, hd.2⟩
  texture htype hid := (h.texture htype hid).imp_left fun hmem => hgrows.textures.subset hmem

/-- Names that failed need not be known to the generator. -/
theorem Registered.of_invalid {σ : Place} {g : Generator β} {symbol : Symbol} {scope : Scope}
    (h : symbol.id = Id.invalid) : Registered σ g symbol scope :=
  ⟨fun _ hid => absurd h hid, fun _ hid => absurd h hid⟩

/-- Outside of functions it does not matter how deep. -/
theorem Registered.outside {room inner : Nat} {g : Generator β} {symbol : Symbol} {scope : Scope}
    (h : Registered (.outside inner) g symbol scope) : Registered (.outside room) g symbol scope :=
  ⟨h.function, h.texture⟩

/-- What a request has to be made of. -/
def Request.Fits (w : Horizon) : Request → Prop
  | load e _ | store e _ => Proper w e
  | emitPhi _ _ _ _ _ _ _ t | constant t _ | unary _ _ t _ | select _ t _ _ _
    | defineVariable _ t _ _ _ => Proper w t
  | binary _ _ t u _ _ => Proper w t ∧ Proper w u
  | call _ _ t args | callIntrinsic _ _ t args | construct _ t args => Proper w t ∧ Proper w args
  | defineStruct _ d => Proper w d.members
  | defineUniform _ u => Proper w u.type
  | defineFunction _ d => Proper w d
  | defineEntryPoint d _ => w.typed → Proper w d
  | _ => True

/-- Whether it matters what a request is made of, or what is made of its answer. -/
abbrev Request.isDemanding : Request → Bool
  | findStruct _ | findFunction _ | load .. | store .. | emitPhi .. | constant .. | unary ..
    | binary .. => true
  | select .. | call .. | callIntrinsic .. | construct .. | defineStruct ..
    | defineTexture .. => true
  | defineSampler .. | defineUniform .. | defineVariable .. | defineFunction ..
    | defineEntryPoint .. => true
  | _ => false

/-- What the answer to a request is made of. -/
def Request.Gives (w : Horizon) : (q : Request) → q.Answer → Prop
  | emitPhi .., id | load .., id | constant .., id | unary .., id | binary .., id
    | select .., id => Proper w id
  | call .., id | callIntrinsic .., id | construct .., id | defineUniform .., id
    | defineVariable .., id => Proper w id
  | findStruct _, found => Maybe w found
  | findFunction _, found => w.typed → Maybe w found
  | defineStruct .., d => w.Made d.definition
  | defineTexture .., t => w.Made t.id
  | defineSampler .., s => w.Made s.id
  | defineFunction .., d =>
    Proper w d ∧ w.Made d.definition ∧ ∀ p ∈ d.parameters, w.Made p.definition
  | _, _ => True

/-- Whether a texture is recorded. -/
def Texture.IsRecorded (t : Texture) (g : Generator β) : Prop :=
  t.id ∈ g.result.textures.map (·.id)

/-- Whether a function is recorded. -/
def FunctionDecl.IsRecorded (d : FunctionDecl) (g : Generator β) : Prop :=
  ∃ d' ∈ g.functions, d'.definition = d.definition

/-- What the state behind a request holds of its answer. -/
def Request.Records (g' : Generator β) : (q : Request) → q.Answer → Prop
  | defineTexture .., t => t.IsRecorded g'
  | defineFunction .., d => d.IsRecorded g'
  | _, _ => True

/-- Whether a target answers requests with ids that it hands out, or that it was given. -/
class Backend.Numbering (w : Horizon) (β : Type) [Backend β] where
  /-- What the target relies on in its own state. -/
  Tidy : Generator β → Prop
  grows : ∀ {q : Request} {g g' : Generator β} {a : q.Answer},
    q.handle g = .ok (a, g') → g.Grows g'
  answers : ∀ {q : Request} {g g' : Generator β} {a : q.Answer},
    q.handle g = .ok (a, g') → g'.nextId ≤ w.count →
    q.Fits w → Tidy g → Tidy g' ∧ q.Gives w a ∧ q.Records g' a

/-- What parsing relies on wherever it stands. -/
structure Upright (w : Horizon) [Backend β] [Backend.Numbering w β] (σ : Place) (r : Reader)
    (g : Generator β) : Prop where
  proper : Proper w r
  registered : ∀ e ∈ r.symbols.entries, Registered σ g e.symbol e.scope
  place : σ.Holds r
  tidy : Backend.Numbering.Tidy w g

theorem Upright.inside {w : Horizon} [Backend β] [Backend.Numbering w β] {level : UInt32}
    {r : Reader} {g : Generator β}
    (h : Upright w (.head level) r g) : Upright w (.inside level) r g :=
  ⟨h.proper, fun e he => ⟨(h.registered e he).function, (h.registered e he).texture⟩,
    trivial, h.tidy⟩

/-- Whether the result of a computation satisfies `P`, if there is one. -/
class Supplies (w : Horizon) (Γ : Prop) (P : α → Prop) (x : Except Fault α) : Prop where
  result : ∀ {a}, x = .ok a → Γ → P a

namespace Supplies

variable {w : Horizon} {Γ : Prop} {P : α → Prop}

/-- Goes on behind a computation of which something is known. -/
theorem andThen (R : γ → Prop) {x : Except Fault γ} {f : γ → Except Fault α}
    [hx : Supplies w Γ R x] (hf : ∀ c, Supplies w (Γ ∧ R c) P (f c)) :
    Supplies w Γ P (x >>= f) where
  result h hΓ := by
    obtain ⟨c, hc, h⟩ := except_bind_eq_ok.mp h
    exact (hf c).result h ⟨hΓ, hx.result hc hΓ⟩

theorem weaken {Γ' : Prop} {x : Except Fault α} (hx : Supplies w Γ P x) (h : Γ' → Γ) :
    Supplies w Γ' P x :=
  ⟨fun ha hΓ => hx.result ha (h hΓ)⟩

theorem of_pure {a : α} (h : Γ → P a) : Supplies w Γ P (pure a) :=
  ⟨fun ha hΓ => except_pure_eq_ok.mp ha ▸ h hΓ⟩

instance anything {x : Except Fault α} : Supplies w Γ Anything x := ⟨fun _ _ => trivial⟩

instance pure [Judged α] {a : α} [h : Entails Γ (Proper w a)] :
    Supplies w Γ (Proper w) (pure a) := of_pure h.entails

instance pure_none [Judged α] :
    Supplies w Γ (Maybe w) (Pure.pure none : Except Fault (Option α)) :=
  of_pure fun _ a ha => absurd ha (Option.not_mem_none a)

instance pure_some [Judged α] {a : α} [h : Entails Γ (Proper w a)] :
    Supplies w Γ (Maybe w) (Pure.pure (some a)) :=
  of_pure fun hΓ _ ha => Option.some.inj ha ▸ h.entails hΓ

instance throw {e : Fault} : Supplies w Γ P (throw e : Except Fault α) := ⟨nofun⟩

instance bind_anything {x : Except Fault γ} {f : γ → Except Fault α}
    [hf : ∀ c, Supplies w Γ P (f c)] : Supplies w Γ P (x >>= f) :=
  andThen Anything fun c => (hf c).weaken And.left

instance bind_cases {x : Except Fault (Option γ)} {f : Option γ → Except Fault α}
    [hsome : ∀ c, Supplies w Γ P (f (some c))]
    [hnone : Supplies w Γ P (f none)] : Supplies w Γ P (x >>= f) :=
  have : ∀ c, Supplies w Γ P (f c) := fun c => c.casesOn hnone hsome
  bind_anything

instance bind [Judged γ] {x : Except Fault γ} {f : γ → Except Fault α}
    [hx : Supplies w Γ (Proper w) x]
    [hf : ∀ c, Supplies w (Γ ∧ Proper w c) P (f c)] : Supplies w Γ P (x >>= f) :=
  andThen (Proper w) hf

instance ite {c : Prop} [Decidable c] {x y : Except Fault α} [hx : Supplies w Γ P x]
    [hy : Supplies w Γ P y] :
    Supplies w Γ P (if c then x else y) := by
  split <;> assumption

end Supplies

/-- What reading leaves behind: no name is new. -/
structure Reader.Looks (r r' : Reader) : Prop extends r.Accounts r' where
  depth : r'.depth = r.depth
  returnType : r'.returnType = r.returnType
  entries : r'.symbols.entries ⊆ r.symbols.entries

namespace Reader.Looks

variable {r r₁ r' : Reader}

theorem refl (r : Reader) : r.Looks r := ⟨.refl r, rfl, rfl, List.Subset.refl _⟩

theorem trans (h : r.Looks r₁) (h' : r₁.Looks r') : r.Looks r' :=
  ⟨h.toAccounts.trans h'.toAccounts, h'.depth.trans h.depth, h'.returnType.trans h.returnType,
    List.Subset.trans h'.entries h.entries⟩

theorem leaves {g : Generator β} (h : r.Looks r') :
    Leaves r g r' g := ⟨h.toAccounts, h.depth, .refl g⟩

theorem proper {w : Horizon} (h : r.Looks r') (hr : Proper w r) : Proper w r' :=
  ⟨fun e he => hr.1 e (h.entries he), h.returnType ▸ hr.2⟩

theorem upright {w : Horizon} [Backend β] [Backend.Numbering w β] {σ : Place} {g : Generator β}
    (h : r.Looks r') (hr : Upright w σ r g) : Upright w σ r' g where
  proper := h.proper hr.proper
  registered e he := hr.registered e (h.entries he)
  place := hr.place.of_depth h.depth
  tidy := hr.tidy

end Reader.Looks

/-- Whether the result of reading a part satisfies `P`, and no name is new. -/
class Admits (w : Horizon) (Γ : Prop) (P : α → Prop) (x : ReadM α) : Prop where
  looks : ∀ {r a r'}, x r = .ok (a, r') → r.Looks r'
  result : ∀ {r a r'},
    x r = .ok (a, r') → (0 < r'.errors → w.failed) → Γ → Proper w r → P a

namespace Admits

variable {w : Horizon} {Γ : Prop} {P : α → Prop}

/-- Goes on behind a part of which something is known. -/
theorem of_bind {R : γ → Prop} {x : ReadM γ} {f : γ → ReadM α} (hx : Admits w Γ R x)
    (hf : ∀ c, Admits w (Γ ∧ R c) P (f c)) : Admits w Γ P (x >>= f) where
  looks h := by
    obtain ⟨c, r₁, hc, h⟩ := bind_eq_ok.mp h
    exact (hx.looks hc).trans ((hf c).looks h)
  result h hfailed hΓ hr := by
    obtain ⟨c, r₁, hc, h⟩ := bind_eq_ok.mp h
    have hlooks := (hf c).looks h
    have hfailed₁ := fun herrors => hfailed (Nat.lt_of_lt_of_le herrors hlooks.errors)
    exact (hf c).result h hfailed ⟨hΓ, hx.result hc hfailed₁ hΓ hr⟩
      ((hx.looks hc).proper hr)

theorem andThen (R : γ → Prop) {x : ReadM γ} {f : γ → ReadM α} [hx : Admits w Γ R x]
    (hf : ∀ c, Admits w (Γ ∧ R c) P (f c)) : Admits w Γ P (x >>= f) :=
  of_bind hx hf

theorem weaken {Γ' : Prop} {x : ReadM α} (hx : Admits w Γ P x) (h : Γ' → Γ) :
    Admits w Γ' P x where
  looks := hx.looks
  result hrun hfailed hΓ := hx.result hrun hfailed (h hΓ)

theorem mono {R : α → Prop} {x : ReadM α} (hx : Admits w Γ R x)
    (h : ∀ a, Γ → R a → P a) : Admits w Γ P x where
  looks := hx.looks
  result hrun hfailed hΓ hr := h _ hΓ (hx.result hrun hfailed hΓ hr)

/-- Goes on behind a part of which nothing is known. -/
theorem of_pass {x : ReadM γ} {f : γ → ReadM α} (hx : Admits w Γ Anything x)
    (hf : ∀ c, Admits w Γ P (f c)) :
    Admits w Γ P (x >>= f) :=
  of_bind hx fun c => (hf c).weaken And.left

theorem pass {x : ReadM γ} {f : γ → ReadM α} [hx : Admits w Γ Anything x]
    (hf : ∀ c, Admits w Γ P (f c)) :
    Admits w Γ P (x >>= f) :=
  of_pass hx hf

instance bind_anything {x : ReadM γ} {f : γ → ReadM α} [hx : Admits w Γ Anything x]
    [hf : ∀ c, Admits w Γ P (f c)] : Admits w Γ P (x >>= f) :=
  pass hf

instance bind_cases {x : ReadM (Option γ)} {f : Option γ → ReadM α}
    [hx : Admits w Γ Anything x] [hsome : ∀ c, Admits w Γ P (f (some c))]
    [hnone : Admits w Γ P (f none)] : Admits w Γ P (x >>= f) :=
  have : ∀ c, Admits w Γ P (f c) := fun c => c.casesOn hnone hsome
  bind_anything

instance bind_failed {x : ReadM γ} {f : γ → ReadM α} [hx : Admits w Γ (Failed w) x]
    [hf : ∀ c, Admits w (Γ ∧ w.failed) P (f c)] : Admits w Γ P (x >>= f) :=
  andThen (Failed w) hf

instance bind [Judged γ] {x : ReadM γ} {f : γ → ReadM α} [hx : Admits w Γ (Proper w) x]
    [hf : ∀ c, Admits w (Γ ∧ Proper w c) P (f c)] : Admits w Γ P (x >>= f) :=
  andThen (Proper w) hf

instance bind_maybe [Judged γ] {x : ReadM (Option γ)} {f : Option γ → ReadM α}
    [hx : Admits w Γ (Maybe w) x] [hsome : ∀ c, Admits w (Γ ∧ Proper w c) P (f (some c))]
    [hnone : Admits w Γ P (f none)] : Admits w Γ P (x >>= f) :=
  andThen (Maybe w) fun c => by
    cases c with
    | none => exact hnone.weaken And.left
    | some c => exact (hsome c).weaken (And.imp_right fun h => h c rfl)

instance bind_option [Judged γ] {x : ReadM (Option γ)} {f : Option γ → ReadM α}
    [hx : Admits w Γ (Proper w) x] [hsome : ∀ c, Admits w (Γ ∧ Proper w c) P (f (some c))]
    [hnone : Admits w (Γ ∧ w.failed) P (f none)] :
    Admits w Γ P (x >>= f) :=
  andThen (Proper w) fun c => by
    cases c with
    | none => exact hnone
    | some c => exact hsome c

instance bind_bool {x : ReadM Bool} {f : Bool → ReadM α} [hx : Admits w Γ (Proper w) x]
    [htrue : Admits w Γ P (f true)] [hfalse : Admits w (Γ ∧ w.failed) P (f false)] :
    Admits w Γ P (x >>= f) :=
  andThen (Proper w) fun c => by
    cases c with
    | false => exact hfalse.weaken (And.imp_right fun h => h.resolve_left Bool.false_ne_true)
    | true => exact htrue.weaken And.left

theorem of_pure {a : α} (h : Γ → P a) : Admits w Γ P (pure a : ReadM α) where
  looks hrun := (pure_eq_ok.mp hrun).2 ▸ .refl _
  result hrun _ hΓ _ := (pure_eq_ok.mp hrun).1 ▸ h hΓ

instance pure_anything {a : α} :
    Admits w Γ Anything (pure a : ReadM α) := of_pure fun _ => trivial

instance pure [Judged α] {a : α} [h : Entails Γ (Proper w a)] :
    Admits w Γ (Proper w) (pure a : ReadM α) :=
  of_pure h.entails

instance pure_none [Judged α] : Admits w Γ (Maybe w) (Pure.pure none : ReadM (Option α)) :=
  of_pure fun _ a ha => absurd ha (Option.not_mem_none a)

instance pure_some [Judged α] {a : α} [h : Entails Γ (Proper w a)] :
    Admits w Γ (Maybe w) (Pure.pure (some a) : ReadM (Option α)) :=
  of_pure fun hΓ _ ha => Option.some.inj ha ▸ h.entails hΓ

instance ite {c : Prop} [Decidable c] {x y : ReadM α} [hx : Admits w Γ P x]
    [hy : Admits w Γ P y] :
    Admits w Γ P (if c then x else y) := by
  split <;> assumption

instance ite_true {x y : ReadM α} [hx : Admits w Γ P x] :
    Admits w Γ P (if true = true then x else y) := hx
instance ite_false {x y : ReadM α} [hy : Admits w Γ P y] :
    Admits w Γ P (if false = true then x else y) := hy
instance ite_not_true {x y : ReadM α} [hy : Admits w Γ P y] :
    Admits w Γ P (if (!true) = true then x else y) := hy
instance ite_not_false {x y : ReadM α} [hx : Admits w Γ P x] :
    Admits w Γ P (if (!false) = true then x else y) := hx

instance throw {e : Fault} : Admits w Γ P (throw e : ReadM α) where
  looks h := (throw_eq_ok.mp h).elim
  result h := (throw_eq_ok.mp h).elim

instance liftM {x : Except Fault α} [hx : Supplies w Γ P x] :
    Admits w Γ P (liftM x : ReadM α) where
  looks h := (liftM_eq_ok.mp h).2 ▸ .refl _
  result h _ hΓ _ := hx.result (liftM_eq_ok.mp h).1 hΓ

instance get : Admits w Γ (Proper w) (get : ReadM Reader) where
  looks h := (get_eq_ok.mp h).2 ▸ .refl _
  result h _ _ hr := (get_eq_ok.mp h).1 ▸ hr

theorem modify {f : Reader → Reader} (hf : ∀ r : Reader, r.Looks (f r)) :
    Admits w Γ Anything (modify f : ReadM PUnit) where
  looks h := modify_eq_ok.mp h ▸ hf _
  result _ _ _ _ := trivial

/-- What holds of every round holds of a loop. -/
theorem readLoop_of {R : α → Prop} {Q : γ → Prop} {step : α → ReadM (α ⊕ γ)} {a : α}
    (hstep : ∀ a, Admits w (Γ ∧ R a) (Sum.elim R Q) (step a)) (ha : Γ → R a) :
    Admits w Γ Q (Parser.readLoop step a) := by
  have hrepeat (rounds : Nat) : ∀ a, Admits w (Γ ∧ R a) Q (repeatWith step rounds a) := by
    induction rounds with
    | zero => exact fun _ => throw
    | succ rounds ih =>
      refine fun a => andThen (Sum.elim R Q) fun c => ?_
      cases c with
      | inl a => exact (ih a).weaken fun h => ⟨h.1.1, h.2⟩
      | inr c => exact of_pure And.right
  exact of_pass (get.mono fun _ _ _ => trivial)
    fun r => (hrepeat _ a).weaken fun hΓ => ⟨hΓ, ha hΓ⟩

instance readLoop [Judged α] [Judged γ] {step : α → ReadM (α ⊕ γ)} {a : α}
    [ha : Entails Γ (Proper w a)]
    [hstep : ∀ a, Admits w (Γ ∧ Proper w a) (Proper w) (step a)] :
    Admits w Γ (Proper w) (Parser.readLoop step a) :=
  readLoop_of (R := Proper w)
    (fun a => (hstep a).mono fun c _ hc => by cases c <;> exact hc) ha.entails

instance readLoop_anything {step : α → ReadM (α ⊕ γ)} {a : α}
    [hstep : ∀ a, Admits w Γ Anything (step a)] :
    Admits w Γ Anything (Parser.readLoop step a) :=
  readLoop_of (R := Anything)
    (fun a => ((hstep a).weaken And.left).mono fun c _ _ => by cases c <;> trivial) fun _ => trivial

instance forM {f : γ → ReadM PUnit} [hf : ∀ c, Admits w Γ Anything (f c)] {l : List γ} :
    Admits w Γ Anything (l.forM f) := by
  induction l with
  | nil => exact pure_anything
  | cons c l ih => exact bind_anything

/-- If each of some complaints is an error, there is none of them or an error. -/
theorem forM_failed {f : γ → ReadM PUnit} (hf : ∀ Γ c, Admits w Γ (Failed w) (f c))
    {l : List γ} :
    Admits w Γ (fun _ => Proper w l.isEmpty) (l.forM f) := by
  cases l with
  | nil => exact of_pure fun _ => .inl rfl
  | cons c l =>
    have (c : γ) : Admits w (Γ ∧ w.failed) Anything (f c) := (hf _ c).mono fun _ _ _ => trivial
    have hrest : Admits w (Γ ∧ w.failed) Anything (l.forM f) := forM
    exact of_bind (hf Γ c) fun _ => hrest.mono fun _ h _ => .inr h.2

instance mapM [Judged γ] [Judged α] {f : γ → ReadM α} {l : List γ}
    [hf : ∀ Γ c, Admits w Γ (Proper w) (f c)] :
    Admits w Γ (Proper w) (l.mapM f) := by
  induction l with
  | nil => exact of_pure fun _ => List.forall_mem_nil _
  | cons c l ih =>
    rw [List.mapM_cons]
    refine of_bind (hf Γ c) fun a => ?_
    refine of_bind (ih.weaken And.left) fun as => of_pure fun h => ?_
    exact List.forall_mem_cons.mpr ⟨h.1.2, h.2⟩

end Admits

/-- Whether a part of the parser leaves the scope it began in and records its errors, and what
parsing relies on still holds behind it, with a result that satisfies `P`. -/
class Honest (w : Horizon) (β : Type) [Backend β] [Backend.Numbering w β] (σ : Place)
    (Γ : Prop) (P : α → Prop) (x : ParseM α) : Prop where
  leaves : ∀ {s r g a r' g'}, Parses (β := β) x s r g a r' g' → Leaves r g r' g'
  result : ∀ {s r g a r' g'}, Parses (β := β) x s r g a r' g' →
    w.Covers r' g' → Γ → Upright w σ r g →
    Upright w σ r' g' ∧ P a

namespace Honest

variable {w : Horizon} [Backend β] [Backend.Numbering w β] {σ : Place} {Γ : Prop}
  {P : α → Prop}

/-- Goes on behind a part of which something is known. -/
theorem of_bind {R : γ → Prop} {x : ParseM γ} {f : γ → ParseM α}
    (hx : Honest w β σ Γ R x)
    (hf : ∀ c, Honest w β σ (Γ ∧ R c) P (f c)) : Honest w β σ Γ P (x >>= f) where
  leaves h := by
    obtain ⟨c, r₁, g₁, hc, h⟩ := Parses.bind_iff.mp h
    exact (hx.leaves hc).trans ((hf c).leaves h)
  result h hcovers hΓ hr := by
    obtain ⟨c, r₁, g₁, hc, h⟩ := Parses.bind_iff.mp h
    have hleaves := (hf c).leaves h
    obtain ⟨hr₁, hR⟩ := hx.result hc (hcovers.of_leaves hleaves.accounts hleaves.grows) hΓ hr
    exact (hf c).result h hcovers ⟨hΓ, hR⟩ hr₁

theorem andThen (R : γ → Prop) {x : ParseM γ} {f : γ → ParseM α}
    [hx : Honest w β σ Γ R x]
    (hf : ∀ c, Honest w β σ (Γ ∧ R c) P (f c)) : Honest w β σ Γ P (x >>= f) :=
  of_bind hx hf

theorem weaken {Γ' : Prop} {x : ParseM α} (hx : Honest w β σ Γ P x) (h : Γ' → Γ) :
    Honest w β σ Γ' P x where
  leaves := hx.leaves
  result hrun hcovers hΓ := hx.result hrun hcovers (h hΓ)

theorem mono {R : α → Prop} {x : ParseM α} (hx : Honest w β σ Γ R x)
    (h : ∀ a, Γ → R a → P a) : Honest w β σ Γ P x where
  leaves := hx.leaves
  result hrun hcovers hΓ hr := (hx.result hrun hcovers hΓ hr).imp_right (h _ hΓ)

/-- Goes on behind a part of which nothing is known. -/
theorem of_pass {x : ParseM γ} {f : γ → ParseM α} (hx : Honest w β σ Γ Anything x)
    (hf : ∀ c, Honest w β σ Γ P (f c)) :
    Honest w β σ Γ P (x >>= f) :=
  of_bind hx fun c => (hf c).weaken And.left

theorem pass {x : ParseM γ} {f : γ → ParseM α} [hx : Honest w β σ Γ Anything x]
    (hf : ∀ c, Honest w β σ Γ P (f c)) :
    Honest w β σ Γ P (x >>= f) :=
  of_pass hx hf

instance bind_anything {x : ParseM γ} {f : γ → ParseM α} [hx : Honest w β σ Γ Anything x]
    [hf : ∀ c, Honest w β σ Γ P (f c)] : Honest w β σ Γ P (x >>= f) :=
  pass hf

instance bind_cases {x : ParseM (Option γ)} {f : Option γ → ParseM α}
    [hx : Honest w β σ Γ Anything x] [hsome : ∀ c, Honest w β σ Γ P (f (some c))]
    [hnone : Honest w β σ Γ P (f none)] : Honest w β σ Γ P (x >>= f) :=
  have : ∀ c, Honest w β σ Γ P (f c) := fun c => c.casesOn hnone hsome
  bind_anything

instance bind_failed {x : ParseM γ} {f : γ → ParseM α} [hx : Honest w β σ Γ (Failed w) x]
    [hf : ∀ c, Honest w β σ (Γ ∧ w.failed) P (f c)] : Honest w β σ Γ P (x >>= f) :=
  andThen (Failed w) hf

instance bind [Judged γ] {x : ParseM γ} {f : γ → ParseM α}
    [hx : Honest w β σ Γ (Proper w) x]
    [hf : ∀ c, Honest w β σ (Γ ∧ Proper w c) P (f c)] : Honest w β σ Γ P (x >>= f) :=
  andThen (Proper w) hf

instance bind_maybe [Judged γ] {x : ParseM (Option γ)} {f : Option γ → ParseM α}
    [hx : Honest w β σ Γ (Maybe w) x]
    [hsome : ∀ c, Honest w β σ (Γ ∧ Proper w c) P (f (some c))]
    [hnone : Honest w β σ Γ P (f none)] :
    Honest w β σ Γ P (x >>= f) :=
  andThen (Maybe w) fun c => by
    cases c with
    | none => exact hnone.weaken And.left
    | some c => exact (hsome c).weaken (And.imp_right fun h => h c rfl)

theorem andThenSome [Judged γ] {x : ParseM (Option γ)} {f : Option γ → ParseM α}
    [hx : Honest w β σ Γ (Proper w) x]
    (hsome : ∀ c, Honest w β σ (Γ ∧ Proper w c) P (f (some c)))
    (hnone : Honest w β σ (Γ ∧ w.failed) P (f none)) :
    Honest w β σ Γ P (x >>= f) :=
  andThen (Proper w) fun c => by
    cases c with
    | none => exact hnone
    | some c => exact hsome c

instance bind_option [Judged γ] {x : ParseM (Option γ)} {f : Option γ → ParseM α}
    [hx : Honest w β σ Γ (Proper w) x]
    [hsome : ∀ c, Honest w β σ (Γ ∧ Proper w c) P (f (some c))]
    [hnone : Honest w β σ (Γ ∧ w.failed) P (f none)] :
    Honest w β σ Γ P (x >>= f) :=
  andThenSome hsome hnone

instance bind_present {x : ParseM (Option γ)} {f : Option γ → ParseM α}
    [hx : Honest w β σ Γ (Present w) x] [hsome : ∀ c, Honest w β σ Γ P (f (some c))]
    [hnone : Honest w β σ (Γ ∧ w.failed) P (f none)] :
    Honest w β σ Γ P (x >>= f) :=
  andThen (Present w) fun c => by
    cases c with
    | none => exact hnone.weaken (And.imp_right fun h => h rfl)
    | some c => exact (hsome c).weaken And.left

theorem of_bind_true {x : ParseM Bool} {f : Bool → ParseM α}
    (hx : Honest w β σ Γ (Proper w) x)
    (htrue : Honest w β σ Γ P (f true)) (hfalse : Honest w β σ (Γ ∧ w.failed) P (f false)) :
    Honest w β σ Γ P (x >>= f) :=
  of_bind hx fun c => by
    cases c with
    | false => exact hfalse.weaken (And.imp_right fun h => h.resolve_left Bool.false_ne_true)
    | true => exact htrue.weaken And.left

theorem andThenTrue {x : ParseM Bool} {f : Bool → ParseM α} [hx : Honest w β σ Γ (Proper w) x]
    (htrue : Honest w β σ Γ P (f true)) (hfalse : Honest w β σ (Γ ∧ w.failed) P (f false)) :
    Honest w β σ Γ P (x >>= f) :=
  of_bind_true hx htrue hfalse

instance bind_bool {x : ParseM Bool} {f : Bool → ParseM α} [hx : Honest w β σ Γ (Proper w) x]
    [htrue : Honest w β σ Γ P (f true)] [hfalse : Honest w β σ (Γ ∧ w.failed) P (f false)] :
    Honest w β σ Γ P (x >>= f) :=
  andThenTrue htrue hfalse

/-- What can stand in a function can stand at its head. -/
theorem of_inside {level : UInt32} {x : ParseM α} (hx : Honest w β (.inside level) Γ P x) :
    Honest w β (.head level) Γ P x where
  leaves := hx.leaves
  result h hcovers hΓ hr := by
    obtain ⟨hr', hP⟩ := hx.result h hcovers hΓ hr.inside
    have hplace := hr.place.of_depth (hx.leaves h).depth
    exact ⟨⟨hr'.proper,
      fun e he => ⟨(hr'.registered e he).function, (hr'.registered e he).texture⟩, hplace,
      hr'.tidy⟩, hP⟩

theorem of_pure {a : α} (h : Γ → P a) : Honest w β σ Γ P (pure a : ParseM α) where
  leaves hrun := by
    obtain ⟨-, rfl, rfl⟩ := hrun.pure
    exact .refl _ _
  result hrun _ hΓ hr := by
    obtain ⟨rfl, rfl, rfl⟩ := hrun.pure
    exact ⟨hr, h hΓ⟩

instance pure_anything {a : α} :
    Honest w β σ Γ Anything (pure a : ParseM α) := of_pure fun _ => trivial

instance pure [Judged α] {a : α} [h : Entails Γ (Proper w a)] :
    Honest w β σ Γ (Proper w) (pure a : ParseM α) :=
  of_pure h.entails

instance pure_none [Judged α] :
    Honest w β σ Γ (Maybe w) (Pure.pure none : ParseM (Option α)) :=
  of_pure fun _ a ha => absurd ha (Option.not_mem_none a)

instance pure_some [Judged α] {a : α} [h : Entails Γ (Proper w a)] :
    Honest w β σ Γ (Maybe w) (Pure.pure (some a) : ParseM (Option α)) :=
  of_pure fun hΓ _ ha => Option.some.inj ha ▸ h.entails hΓ

instance pure_present {a : α} :
    Honest w β σ Γ (Present w) (Pure.pure (some a) : ParseM (Option α)) :=
  of_pure fun _ => nofun

instance pure_absent [h : Entails Γ w.failed] :
    Honest w β σ Γ (Present w) (Pure.pure none : ParseM (Option α)) :=
  of_pure fun hΓ _ => h.entails hΓ

instance pure_first [Judged α] {a : α} {c : γ} [h : Entails Γ (Proper w a)] :
    Honest w β σ Γ (First w) (Pure.pure (a, c) : ParseM (α × γ)) :=
  of_pure h.entails

instance ite {c : Prop} [Decidable c] {x y : ParseM α} [hx : Honest w β σ Γ P x]
    [hy : Honest w β σ Γ P y] :
    Honest w β σ Γ P (if c then x else y) := by
  split <;> assumption

instance ite_true {x y : ParseM α} [hx : Honest w β σ Γ P x] :
    Honest w β σ Γ P (if true = true then x else y) := hx
instance ite_false {x y : ParseM α} [hy : Honest w β σ Γ P y] :
    Honest w β σ Γ P (if false = true then x else y) := hy

instance ite_not_true {x y : ParseM α} [hy : Honest w β σ Γ P y] :
    Honest w β σ Γ P (if (!true) = true then x else y) :=
  hy

instance ite_not_false {x y : ParseM α} [hx : Honest w β σ Γ P x] :
    Honest w β σ Γ P (if (!false) = true then x else y) :=
  hx

instance throw {e : Fault} : Honest w β σ Γ P (throw e : ParseM α) where
  leaves h := absurd h Parses.not_throw
  result h := absurd h Parses.not_throw

instance liftM {x : ReadM α} [hx : Admits w Γ P x] :
    Honest w β σ Γ P (liftM x : ParseM α) where
  leaves h := by
    obtain ⟨hrun, rfl⟩ := h.read
    exact (hx.looks hrun).leaves
  result h hcovers hΓ hr := by
    obtain ⟨hrun, rfl⟩ := h.read
    exact ⟨(hx.looks hrun).upright hr, hx.result hrun hcovers.failed hΓ hr.proper⟩

instance except {x : Except Fault α} [hx : Supplies w Γ P x] :
    Honest w β σ Γ P (MonadLiftT.monadLift x : ParseM α) :=
  liftM (x := MonadLiftT.monadLift x)

instance get : Honest w β σ Γ (Proper w) (get : ParseM Reader) where
  leaves h := by
    obtain ⟨-, rfl, rfl⟩ := h.of_run rfl
    exact .refl _ _
  result h _ _ hr := by
    obtain ⟨rfl, rfl, rfl⟩ := h.of_run rfl
    exact ⟨hr, hr.proper⟩

instance surroundings : Honest w β σ Γ Anything (read : ParseM Surroundings) where
  leaves h := by
    obtain ⟨-, rfl, rfl⟩ := h.of_run rfl
    exact .refl _ _
  result h _ _ hr := by
    obtain ⟨-, rfl, rfl⟩ := h.of_run rfl
    exact ⟨hr, trivial⟩

instance withReader {f : Surroundings → Surroundings} {x : ParseM α}
    [hx : Honest w β σ Γ P x] :
    Honest w β σ Γ P (withReader f x) where
  leaves h := hx.leaves (s := f _) h
  result h := hx.result (s := f _) h

instance map {x : ParseM γ} {f : γ → α} [hx : Honest w β σ Γ Anything x] :
    Honest w β σ Γ Anything (f <$> x) := by
  rw [map_eq_pure_bind]
  infer_instance

instance forM_proper [Judged γ] {f : γ → ParseM PUnit} {l : List γ}
    [hl : Entails Γ (Proper w l)] [hf : ∀ c, Honest w β σ (Γ ∧ Proper w c) Anything (f c)] :
    Honest w β σ Γ Anything (l.forM f) := by
  replace hl := hl.entails
  induction l with
  | nil => exact pure_anything
  | cons c l ih =>
    have hc : Γ → Γ ∧ Proper w c := fun hΓ => ⟨hΓ, (List.forall_mem_cons.mp (hl hΓ)).1⟩
    have := ih fun hΓ => (List.forall_mem_cons.mp (hl hΓ)).2
    exact of_pass ((hf c).weaken hc) fun _ => this

instance mapM [Judged γ] [Judged α] {f : γ → ParseM α} {l : List γ}
    [hl : Entails Γ (Proper w l)]
    [hf : ∀ c, Honest w β σ (Γ ∧ Proper w c) (Proper w) (f c)] :
    Honest w β σ Γ (Proper w) (l.mapM f) := by
  replace hl := hl.entails
  induction l with
  | nil => exact of_pure fun _ => List.forall_mem_nil _
  | cons c l ih =>
    have hc : Γ → Γ ∧ Proper w c := fun hΓ => ⟨hΓ, (List.forall_mem_cons.mp (hl hΓ)).1⟩
    have hrest := ih fun hΓ => (List.forall_mem_cons.mp (hl hΓ)).2
    rw [List.mapM_cons]
    refine of_bind ((hf c).weaken hc) fun a => ?_
    refine of_bind (hrest.weaken And.left) fun as => of_pure fun h => ?_
    exact List.forall_mem_cons.mpr ⟨h.1.2, h.2⟩

instance mapM_prod [Judged α] {f : γ × δ → ParseM α} {l : List (γ × δ)}
    [hf : ∀ c d, Honest w β σ Γ (Proper w) (f (c, d))] :
    Honest w β σ Γ (Proper w) (l.mapM f) := by
  induction l with
  | nil => exact of_pure fun _ => List.forall_mem_nil _
  | cons c l ih =>
    rw [List.mapM_cons]
    refine of_bind (hf c.1 c.2) fun a => ?_
    refine of_bind (ih.weaken And.left) fun as => of_pure fun h => ?_
    exact List.forall_mem_cons.mpr ⟨h.1.2, h.2⟩

/-- What holds of every round holds of a loop. -/
theorem loop_of {R : α → Prop} {Q : γ → Prop} {step : α → ParseM (α ⊕ γ)} {a : α}
    (hstep : ∀ a, Honest w β σ (Γ ∧ R a) (Sum.elim R Q) (step a)) (ha : Γ → R a) :
    Honest w β σ Γ Q (Parser.loop step a) := by
  have hrepeat (rounds : Nat) :
      ∀ a, Honest w β σ (Γ ∧ R a) Q (repeatWith step rounds a) := by
    induction rounds with
    | zero => exact fun _ => throw
    | succ rounds ih =>
      refine fun a => andThen (Sum.elim R Q) fun c => ?_
      cases c with
      | inl a => exact (ih a).weaken fun h => ⟨h.1.1, h.2⟩
      | inr c => exact of_pure And.right
  exact of_pass (get.mono fun _ _ _ => trivial)
    fun r => (hrepeat _ a).weaken fun hΓ => ⟨hΓ, ha hΓ⟩

instance loop [Judged α] [Judged γ] {step : α → ParseM (α ⊕ γ)} {a : α}
    [ha : Entails Γ (Proper w a)]
    [hstep : ∀ a, Honest w β σ (Γ ∧ Proper w a) (Proper w) (step a)] :
    Honest w β σ Γ (Proper w) (Parser.loop step a) :=
  loop_of (R := Proper w) (fun a => (hstep a).mono fun c _ hc => by cases c <;> exact hc) ha.entails

theorem of_request {q : Request} {P : q.Answer → Prop} (hfits : Γ → q.Fits w)
    (hP : ∀ a, q.Gives w a → P a) : Honest w β σ Γ P (Parser.emit q) where
  leaves h := by
    obtain ⟨rfl, hq⟩ := h.emit
    exact ⟨.refl _, rfl, Backend.Numbering.grows w hq⟩
  result h hcovers hΓ hr := by
    obtain ⟨rfl, hq⟩ := h.emit
    have hgrows := Backend.Numbering.grows w hq
    obtain ⟨htidy, hgives, -⟩ := Backend.Numbering.answers hq hcovers.nextId (hfits hΓ) hr.tidy
    exact ⟨⟨hr.proper, fun e he => (hr.registered e he).of_grows hgrows, hr.place, htidy⟩,
      hP _ hgives⟩

-- Which request it is tells the type of the answer, not the other way around.
instance idle {q : Request} [hq : IsFalse q.isDemanding] :
    @Honest (no_index q.Answer) w β _ _ σ Γ Anything (Parser.emit q) := by
  refine of_request (fun _ => ?_) fun _ _ => trivial
  have hq := hq.eq_false
  cases q <;> trivial

instance isInFunction : Honest w β σ Γ Anything (Parser.emit .isInFunction : ParseM Bool) := idle

instance findTexture {id : Id} :
    Honest w β σ Γ Anything (Parser.emit (.findTexture id) : ParseM (Option Texture)) :=
  idle

instance findStruct {id : Id} :
    Honest w β σ Γ (Maybe w) (Parser.emit (.findStruct id) : ParseM (Option StructDecl)) :=
  have hfits : Γ → (Request.findStruct id).Fits w := fun _ => trivial
  of_request hfits fun _ h => h

instance findFunction {id : Id} :
    Honest w β σ Γ (fun found => w.typed → Maybe w found)
      (Parser.emit (.findFunction id) : ParseM (Option FunctionDecl)) :=
  have hfits : Γ → (Request.findFunction id).Fits w := fun _ => trivial
  of_request hfits fun _ h => h

instance emitPhi {location : Location} {condition conditionBlock yesValue yes noValue no : Id}
    {t : Ty} [h : Entails Γ (Proper w t)] :
    Honest w β σ Γ (Proper w)
      (Parser.emit (.emitPhi location condition conditionBlock yesValue yes noValue no
        t) : ParseM Id) :=
  of_request h.entails fun _ h => h

instance load {e : Expression} {forceNew : Bool} [h : Entails Γ (Proper w e)] :
    Honest w β σ Γ (Proper w) (Parser.emit (.load e forceNew) : ParseM Id) :=
  of_request h.entails fun _ h => h

instance constant {t : Ty} {value : Constant} [h : Entails Γ (Proper w t)] :
    Honest w β σ Γ (Proper w) (Parser.emit (.constant t value) : ParseM Id) :=
  of_request h.entails fun _ h => h

instance unary {location : Location} {op : UnaryOp} {t : Ty} {value : Id}
    [h : Entails Γ (Proper w t)] :
    Honest w β σ Γ (Proper w) (Parser.emit (.unary location op t value) : ParseM Id) :=
  of_request h.entails fun _ h => h

instance binary {location : Location} {op : BinaryOp} {t u : Ty} {left right : Id}
    [ht : Entails Γ (Proper w t)] [hu : Entails Γ (Proper w u)] :
    Honest w β σ Γ (Proper w) (Parser.emit (.binary location op t u left right) : ParseM Id) :=
  of_request (fun hΓ => ⟨ht.entails hΓ, hu.entails hΓ⟩) fun _ h => h

instance select {location : Location} {t : Ty} {condition yes no : Id}
    [h : Entails Γ (Proper w t)] :
    Honest w β σ Γ (Proper w) (Parser.emit (.select location t condition yes no) : ParseM Id) :=
  of_request h.entails fun _ h => h

instance call {location : Location} {function : Id} {t : Ty} {args : List Expression}
    [ht : Entails Γ (Proper w t)] [hargs : Entails Γ (Proper w args)] :
    Honest w β σ Γ (Proper w) (Parser.emit (.call location function t args) : ParseM Id) :=
  of_request (fun hΓ => ⟨ht.entails hΓ, hargs.entails hΓ⟩) fun _ h => h

instance callIntrinsic {location : Location} {i : Intrinsic} {t : Ty} {args : List Expression}
    [ht : Entails Γ (Proper w t)] [hargs : Entails Γ (Proper w args)] :
    Honest w β σ Γ (Proper w) (Parser.emit (.callIntrinsic location i t args) : ParseM Id) :=
  of_request (fun hΓ => ⟨ht.entails hΓ, hargs.entails hΓ⟩) fun _ h => h

instance construct {location : Location} {t : Ty} {args : List Expression}
    [ht : Entails Γ (Proper w t)] [hargs : Entails Γ (Proper w args)] :
    Honest w β σ Γ (Proper w) (Parser.emit (.construct location t args) : ParseM Id) :=
  of_request (fun hΓ => ⟨ht.entails hΓ, hargs.entails hΓ⟩) fun _ h => h

instance defineUniform {location : Location} {u : Uniform} [h : Entails Γ (Proper w u.type)] :
    Honest w β σ Γ (Proper w) (Parser.emit (.defineUniform location u) : ParseM Id) :=
  of_request h.entails fun _ h => h

instance defineVariable {location : Location} {t : Ty} {name : String} {isGlobal : Bool} {init : Id}
    [h : Entails Γ (Proper w t)] :
    Honest w β σ Γ (Proper w)
      (Parser.emit (.defineVariable location t name isGlobal init) : ParseM Id) :=
  of_request h.entails fun _ h => h

instance store {e : Expression} {value : Id} [h : Entails Γ (Proper w e)] :
    Honest w β σ Γ Anything (Parser.emit (.store e value) : ParseM Unit) :=
  of_request h.entails fun _ _ => trivial

instance defineEntryPoint {d : FunctionDecl} {isPixelShader : Bool}
    [h : Entails Γ (w.typed → Proper w d)] :
    Honest w β σ Γ Anything (Parser.emit (.defineEntryPoint d isPixelShader) : ParseM Unit) :=
  of_request h.entails fun _ _ => trivial

/-- A structure that is defined has an id. -/
theorem defineStruct {location : Location} {decl : StructDecl}
    [h : Entails Γ (Proper w decl.members)] :
    Honest w β σ Γ (fun d => w.Made d.definition)
      (Parser.emit (.defineStruct location decl) : ParseM StructDecl) :=
  have hfits : Γ → (Request.defineStruct location decl).Fits w := h.entails
  of_request hfits fun _ h => h

instance defineSampler {location : Location} {sampler : Sampler} :
    Honest w β σ Γ (Proper w) (Parser.emit (.defineSampler location sampler) : ParseM Sampler) :=
  have hfits : Γ → (Request.defineSampler location sampler).Fits w := fun _ => trivial
  of_request hfits fun _ h => h

instance leaveFunction :
    Honest w β σ Γ Anything (Parser.emit .leaveFunction : ParseM Unit) := idle

instance markRenderTarget {id : Id} :
    Honest w β σ Γ Anything (Parser.emit (.markRenderTarget id) : ParseM Unit) := idle

instance defineTechnique {t : Technique} :
    Honest w β σ Γ Anything (Parser.emit (.defineTechnique t) : ParseM Unit) :=
  idle

end Honest
end ShaderEffect

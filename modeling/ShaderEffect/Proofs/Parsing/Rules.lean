import ShaderEffect.Proofs.Evaluation

namespace ShaderEffect

section

variable {α γ π : Type} [Inhabited π]

/-- Whether all that a part of the parser can do, whatever it is answered, satisfies `Q`. -/
def Parsing (x : ParseM α) (s : Surroundings) (r : Reader)
    (Q : List (Entry π) → α → Reader → Prop) :
    Prop :=
  (x s r).Ensures fun es result => Q es result.1 result.2

namespace Parsing

variable {s : Surroundings} {r : Reader} {Q R : List (Entry π) → α → Reader → Prop}

theorem mono {x : ParseM α} (h : Parsing x s r Q) (hQR : ∀ es a r', Q es a r' → R es a r') :
    Parsing x s r R :=
  Script.Ensures.mono h fun es result => hQR es result.1 result.2

@[simp]
theorem pure_iff (a : α) : Parsing (pure a) s r Q ↔ Q [] a r := Iff.rfl

@[simp]
theorem bind_iff (x : ParseM γ) (f : γ → ParseM α) :
    Parsing (x >>= f) s r Q ↔
      Parsing x s r fun es a r' => Parsing (f a) s r' fun es' c r'' => Q (es ++ es') c r'' :=
  Script.ensures_bind _ _ _

/-- Goes on behind a part of which something is known. -/
theorem bind {P : List (Entry π) → γ → Reader → Prop} {x : ParseM γ} {f : γ → ParseM α}
    (hx : Parsing x s r P)
    (hf : ∀ es a r', P es a r' → Parsing (f a) s r' fun es' c r'' => Q (es ++ es') c r'') :
    Parsing (x >>= f) s r Q :=
  (bind_iff x f).mpr (hx.mono hf)

@[simp]
theorem map_iff (x : ParseM γ) (f : γ → α) :
    Parsing (f <$> x) s r Q ↔ Parsing x s r fun es a r' => Q es (f a) r' := by
  rw [map_eq_pure_bind, bind_iff]
  simp only [pure_iff, List.append_nil]

@[simp]
theorem read_iff (x : ReadM α) :
    Parsing (liftM x : ParseM α) s r Q ↔ ∀ a r', x r = .ok (a, r') → Q [] a r' := by
  change (x.toParse s r).Ensures _ ↔ _
  unfold ReadM.toParse
  cases x r with
  | error e => simp only [Script.Ensures, reduceCtorEq, false_implies, implies_true]
  | ok result => simp only [Script.Ensures, Except.ok.injEq]; grind

@[simp]
theorem except_iff (x : Except Fault α) :
    Parsing (liftM x : ParseM α) s r Q ↔ ∀ a, x = .ok a → Q [] a r := by
  change Parsing (liftM (liftM x : ReadM α) : ParseM α) s r Q ↔ _
  rw [read_iff]
  constructor
  · intro h a ha
    exact h a r (liftM_eq_ok.mpr ⟨ha, rfl⟩)
  · intro h a r' hr
    obtain ⟨ha, rfl⟩ := liftM_eq_ok.mp hr
    exact h a ha

theorem bind_read_iff (x : ReadM γ) (f : γ → ParseM α) :
    Parsing (liftM x >>= f) s r Q ↔ ∀ a r', x r = .ok (a, r') → Parsing (f a) s r' Q := by
  rw [bind_iff, read_iff]
  simp only [List.nil_append]

theorem bind_except_iff (x : Except Fault γ) (f : γ → ParseM α) :
    Parsing (liftM x >>= f) s r Q ↔ ∀ a, x = .ok a → Parsing (f a) s r Q := by
  rw [bind_iff, except_iff]
  simp only [List.nil_append]

@[simp]
theorem get_iff {Q : List (Entry π) → Reader → Reader → Prop} :
    Parsing (get : ParseM Reader) s r Q ↔ Q [] r r := Iff.rfl

@[simp]
theorem modify_iff {f : Reader → Reader} {Q : List (Entry π) → PUnit → Reader → Prop} :
    Parsing (modify f : ParseM PUnit) s r Q ↔ Q [] ⟨⟩ (f r) := Iff.rfl

theorem bind_get_iff (f : Reader → ParseM α) :
    Parsing (get >>= f) s r Q ↔ Parsing (f r) s r Q := Iff.rfl

@[simp]
theorem surroundings_iff {Q : List (Entry π) → Surroundings → Reader → Prop} :
    Parsing (MonadReader.read : ParseM Surroundings) s r Q ↔ Q [] s r := Iff.rfl

theorem bind_surroundings_iff (f : Surroundings → ParseM α) :
    Parsing (MonadReader.read >>= f) s r Q ↔ Parsing (f s) s r Q := Iff.rfl

@[simp]
theorem withReader_iff {f : Surroundings → Surroundings} {x : ParseM α} :
    Parsing (withReader f x) s r Q ↔ Parsing x (f s) r Q := Iff.rfl

@[simp]
theorem throw_iff (e : Fault) : Parsing (throw e : ParseM α) s r Q ↔ True := Iff.rfl

@[simp]
theorem emit_iff (q : Request) {Q : List (Entry π) → q.Answer → Reader → Prop} :
    Parsing (Parser.emit q) s r Q ↔
      ∀ answer note, (q.isQuiet = true → note = default) →
        Q [⟨q, answer, note⟩] answer r := Iff.rfl

/-- Goes on behind a part of which nothing needs to be known. -/
theorem bind_any {x : ParseM γ} {f : γ → ParseM α} {Q : α → Reader → Prop}
    (h : ∀ a r', Parsing (f a) s r' fun (_ : List (Entry π)) c r'' => Q c r'') :
    Parsing (x >>= f) s r fun (_ : List (Entry π)) c r'' => Q c r'' := by
  rw [bind_iff]
  exact Script.Ensures.mono (Script.ensures_true _) fun _ result _ => h result.1 result.2

/-- Goes on behind a request. -/
theorem bind_emit {q : Request} {f : q.Answer → ParseM α}
    (h : ∀ answer note,
      Parsing (f answer) s r fun es a r' => Q (⟨q, answer, note⟩ :: es) a r') :
    Parsing (Parser.emit q >>= f) s r Q := fun answer note _ => h answer note

/-- Goes on behind a request of which nothing is noted. -/
theorem bind_quiet {q : Request} {f : q.Answer → ParseM α} (hq : q.isQuiet = true)
    (h : ∀ answer, Parsing (f answer) s r fun es a r' => Q (.quiet q answer :: es) a r') :
    Parsing (Parser.emit q >>= f) s r Q := by
  intro answer note hnote
  rw [hnote hq]
  exact h answer

@[simp]
theorem ite_iff {c : Prop} [Decidable c] {x y : ParseM α} :
    Parsing (if c then x else y) s r Q ↔ (c → Parsing x s r Q)
      ∧ (¬c → Parsing y s r Q) := by
  split <;> simp_all

/-- What a loop does follows from an invariant that each of its rounds keeps. -/
theorem loop {step : α → ParseM (α ⊕ γ)} {a : α}
    {Q : List (Entry π) → γ → Reader → Prop}
    (inv : List (Entry π) → α → Reader → Prop) (hstart : inv [] a r)
    (hstep : ∀ es a r, inv es a r → Parsing (step a) s r fun es' c r' =>
      c.elim (fun a' => inv (es ++ es') a' r') fun c => Q (es ++ es') c r') :
    Parsing (Parser.loop step a) s r Q := by
  have repeats (rounds : Nat) : ∀ es a r, inv es a r →
      Parsing (repeatWith step rounds a) s r fun es' c r' => Q (es ++ es') c r' := by
    induction rounds with
    | zero => intro es a r h; trivial
    | succ rounds ih =>
      intro es a r h
      rw [repeatWith, bind_iff]
      refine (hstep es a r h).mono fun es' c r' hc => ?_
      cases c with
      | inl a' =>
        refine (ih _ _ _ hc).mono fun es'' c r'' hc => ?_
        rwa [List.append_assoc] at hc
      | inr c =>
        rw [pure_iff, List.append_nil]
        exact hc
  rw [Parser.loop, bind_iff, get_iff]
  simpa only [List.nil_append] using repeats r.rounds [] a r hstart

end Parsing

end

variable {α β γ δ π : Type}

/-- A shape of requests, with what is known in front of them and behind them. -/
structure Shape (π : Type) where
  Holds : List Fact → List (Entry π) → List Fact → Prop
  nil (known : List Fact) : Holds known [] known
  append {known known' known'' : List Fact} {es fs : List (Entry π)} :
    Holds known es known' → Holds known' fs known'' → Holds known (es ++ fs) known''
  subset {known known' : List Fact} {es : List (Entry π)} :
    Holds known es known' → known ⊆ known'

variable [Inhabited π]

/-- Evaluations, which are straight where short circuits are not asked for. -/
def Shape.evaluations (s : Surroundings) : Shape π where
  Holds known es known' := ∃ t : Evaluation π, t.entries = es
    ∧ (s.noShortCircuit = true → t.isStraight = true)
    ∧ t.Grounded known ∧ t.extend known = known'
  nil known := ⟨.nothing, rfl, fun _ => rfl, trivial, rfl⟩
  append := by
    rintro known _ _ _ _ ⟨t, rfl, ht, hgrounded, rfl⟩ ⟨u, rfl, hu, hgrounded', rfl⟩
    refine ⟨.andThen t u, rfl, fun hs => ?_, ⟨hgrounded, hgrounded'⟩, rfl⟩
    simp only [Evaluation.isStraight, ht hs, hu hs, Bool.and_self]
  subset := by
    rintro known _ _ ⟨t, _, _, _, rfl⟩
    exact t.subset_extend known

/-- Whether some requests have a shape, and the result is good, if there is a result. -/
def Results (S : Shape π) (known : List Fact) (es : List (Entry π)) (result : Option α)
    (good : α → List Fact → Prop) : Prop :=
  ∀ a, result = some a → ∃ known', S.Holds known es known' ∧ good a known'

/-- How a flag is seen that tells whether there was no error. -/
def whether (ok : Bool) : Option Unit :=
  if ok then some () else none

theorem whether_eq_some {ok : Bool} {u : Unit} : whether ok = some u ↔ ok = true := by
  cases ok <;> simp [whether]

theorem whether_eq_none {ok : Bool} : whether ok = none ↔ ok = false := by
  cases ok <;> simp [whether]

/-- Whether a part of the parser requests an evaluation and gives a good result. -/
abbrev Gives (π : Type) [Inhabited π] (s : Surroundings) (r : Reader) (known : List Fact)
    (x : ParseM α) (good : α → List Fact → Prop) : Prop :=
  Parsing x s r fun (es : List (Entry π)) a _ => Results (.evaluations s) known es (some a) good

/-- Whether a part of the parser requests an evaluation and gives a good result, if it gives one. -/
abbrev MayGive (π : Type) [Inhabited π] (s : Surroundings) (r : Reader) (known : List Fact)
    (x : ParseM (Option α)) (good : α → List Fact → Prop) : Prop :=
  Parsing x s r fun (es : List (Entry π)) a _ => Results (.evaluations s) known es a good

/-- Whether a part of the parser requests what has a shape, unless it fails. -/
abbrev Does (S : Shape π) (s : Surroundings) (r : Reader) (known : List Fact) (x : ParseM Bool) :
    Prop :=
  Parsing x s r fun (es : List (Entry π)) ok _ => Results S known es (whether ok) fun _ _ => True

variable {S : Shape π} {s : Surroundings} {r : Reader} {known known' : List Fact}
  {es fs : List (Entry π)} {good : α → List Fact → Prop} {good' : δ → List Fact → Prop}

namespace Results

omit [Inhabited π]

theorem none : Results S known es none good := nofun

theorem nothing {result : Option α} (h : ∀ a, result = some a → good a known) :
    Results S known [] result good :=
  fun a ha => ⟨known, S.nil known, h a ha⟩

theorem done {a : α} (h : good a known) : Results S known [] (some a) good :=
  nothing fun _ hb => Option.some.inj hb ▸ h

/-- Requests that go on behind others. -/
theorem append {result : Option α} (h : S.Holds known es known')
    (h' : Results S known' fs result good) :
    Results S known (es ++ fs) result good := by
  intro a ha
  obtain ⟨known'', hfs, hgood⟩ := h' a ha
  exact ⟨known'', S.append h hfs, hgood⟩

end Results

theorem Shape.holds_step {e : Entry π} (he : e.request.isPlain = true) :
    (Shape.evaluations s).Holds known [e] (e.extend known) :=
  ⟨.step ⟨e, he⟩, rfl, fun _ => rfl, trivial, rfl⟩

/-- An evaluation that begins with a step. -/
theorem Results.step {e : Entry π} {result : Option α} (he : e.request.isPlain = true)
    (h : Results (.evaluations s) (e.extend known) es result good) :
    Results (.evaluations s) known (e :: es) result good :=
  Results.append (Shape.holds_step he) h

namespace Parsing

variable {view : γ → Option δ}

theorem done_results {c : γ} (h : ∀ d, view c = some d → good' d known) :
    Parsing (pure c) s r fun (es : List (Entry π)) c _ => Results S known es (view c) good' :=
  Results.nothing h

theorem step_results {q : Request} {view : q.Answer → Option δ} (hq : q.isPlain = true)
    (h : ∀ (note : π) answer d, view answer = some d →
      good' d (Entry.extend known ⟨q, answer, note⟩)) :
    Parsing (Parser.emit q) s r fun (es : List (Entry π)) c _ =>
      Results (.evaluations s) known es (view c) good' := by
  intro answer note _ d hd
  exact Results.step hq (Results.done (h note answer d hd)) d rfl

theorem bind_step {q : Request} {f : q.Answer → ParseM γ} (hq : q.isPlain = true)
    (hf : ∀ answer (note : π), Parsing (f answer) s r fun (es : List (Entry π)) c _ =>
      Results (.evaluations s) (Entry.extend known ⟨q, answer, note⟩) es (view c) good') :
    Parsing (Parser.emit q >>= f) s r fun (es : List (Entry π)) c _ =>
      Results (.evaluations s) known es (view c) good' := by
  rw [bind_iff, emit_iff]
  intro answer note _
  exact (hf answer note).mono fun es c _ h => Results.step hq h

theorem bind_results (view : β → Option α) {view' : γ → Option δ} {x : ParseM β}
    {f : β → ParseM γ}
    (hx : Parsing x s r fun (es : List (Entry π)) b _ => Results S known es (view b) good)
    (hfail : ∀ b r', view b = none →
      Parsing (f b) s r' fun (_ : List (Entry π)) c _ => view' c = none)
    (hf : ∀ b a known' r', view b = some a → known ⊆ known' → good a known' →
      Parsing (f b) s r' fun (es : List (Entry π)) c _ => Results S known' es (view' c) good') :
    Parsing (x >>= f) s r fun (es : List (Entry π)) c _ => Results S known es (view' c) good' := by
  rw [bind_iff]
  refine hx.mono fun es b r' hb => ?_
  cases hview : view b with
  | none =>
    refine (hfail b r' hview).mono fun es' c _ hc => ?_
    rw [hc]
    exact Results.none
  | some a =>
    obtain ⟨known', hholds, hgood⟩ := hb a hview
    refine (hf b a _ r' hview (S.subset hholds) hgood).mono fun es' c _ hc => ?_
    exact Results.append hholds hc

theorem read_results {x : ReadM (Option α)}
    (h : ∀ a r', x r = .ok (some a, r') → good a known) :
    Parsing (liftM x) s r fun (es : List (Entry π)) a _ => Results S known es a good := by
  rw [read_iff]
  intro a r' hx b hb
  subst hb
  exact Results.done (h b r' hx) b rfl

/-- Goes on with what a part gives that can fail. -/
theorem bind_option {view' : γ → Option δ} {x : ParseM (Option α)}
    {f : Option α → ParseM γ}
    (hx : Parsing x s r fun (es : List (Entry π)) a _ => Results S known es a good)
    (hfail : ∀ r', Parsing (f none) s r' fun (_ : List (Entry π)) c _ => view' c = none)
    (hf : ∀ a known' r', known ⊆ known' → good a known' →
      Parsing (f (some a)) s r' fun (es : List (Entry π)) c _ =>
        Results S known' es (view' c) good') :
    Parsing (x >>= f) s r fun (es : List (Entry π)) c _ => Results S known es (view' c) good' :=
  bind_results id hx (fun b r' hb => by cases hb; exact hfail r')
    fun b a known' r' hb => by cases hb; exact hf a known' r'

/-- Goes on with what a part gives that cannot fail. -/
theorem bind_value {view' : γ → Option δ} {x : ParseM α} {f : α → ParseM γ}
    (hx : Parsing x s r fun (es : List (Entry π)) a _ => Results S known es (some a) good)
    (hf : ∀ a known' r', known ⊆ known' → good a known' →
      Parsing (f a) s r' fun (es : List (Entry π)) c _ => Results S known' es (view' c) good') :
    Parsing (x >>= f) s r fun (es : List (Entry π)) c _ => Results S known es (view' c) good' :=
  bind_results some hx (fun b r' hb => by cases hb)
    fun b a known' r' hb => by cases hb; exact hf b known' r'

/-- Goes on behind a part that tells whether it failed. -/
theorem bind_does {view' : γ → Option δ} {x : ParseM Bool} {f : Bool → ParseM γ}
    (hx : Does S s r known x)
    (hfail : ∀ r', Parsing (f false) s r' fun (_ : List (Entry π)) c _ => view' c = none)
    (hf : ∀ known' r', known ⊆ known' →
      Parsing (f true) s r' fun (es : List (Entry π)) c _ => Results S known' es (view' c) good') :
    Parsing (x >>= f) s r fun (es : List (Entry π)) c _ => Results S known es (view' c) good' :=
  bind_results whether hx (fun b r' hb => by obtain rfl := whether_eq_none.mp hb; exact hfail r')
    fun b a known' r' hb hknown _ => by
      obtain rfl := whether_eq_some.mp hb
      exact hf known' r' hknown

/-- Reading at the end of a part changes nothing of what was requested. -/
theorem read_does {x : ReadM Bool} : Does S s r known (liftM x) := by
  rw [Does, read_iff]
  exact fun _ _ _ => Results.nothing fun _ _ => trivial

/-- Parts that are done for all members of a list in turn. -/
theorem mapM_results {f : α → ParseM β} (xs : List α) :
    (∀ a known r, Gives π s r known (f a) fun _ _ => True) →
      ∀ known r, Gives π s r known (xs.mapM f) fun _ _ => True := by
  intro hf
  induction xs with
  | nil => exact fun known r => done_results fun _ _ => trivial
  | cons a xs ih =>
    intro known r
    rw [List.mapM_cons]
    refine bind_value (hf a known r) fun b known' r' _ _ => ?_
    exact bind_value (ih known' r') fun bs known'' r'' _ _ => done_results fun _ _ => trivial

theorem forM_results {f : α → ParseM PUnit} (xs : List α) :
    (∀ a known r, Gives π s r known (f a) fun _ _ => True) →
      ∀ known r, Gives π s r known (xs.forM f) fun _ _ => True := by
  intro hf
  induction xs with
  | nil => exact fun known r => done_results fun _ _ => trivial
  | cons a xs ih =>
    intro known r
    exact bind_value (hf a known r) fun _ known' r' _ _ => ih known' r'

/-- How a round of a loop is seen that goes on with some states and ends with some results. -/
def roundView (state : α → Option β) (view : γ → Option δ) :
    α ⊕ γ → Option (β ⊕ δ) :=
  Sum.elim (fun a => (state a).map .inl) fun c => (view c).map .inr

/-- A loop requests what has a shape if each of its rounds does, from a state that is not
seen as failed on. -/
theorem loop_results {step : α → ParseM (α ⊕ γ)} {a : α} (state : α → Option β)
    (view : γ → Option δ)
    (good : β → List Fact → Prop) (hstart : ∀ b, state a = some b → good b known)
    (hfail : ∀ a r, state a = none → Parsing (step a) s r fun (_ : List (Entry π)) c _ =>
      roundView state view c = none)
    (hstep : ∀ a b known r, state a = some b → good b known →
      Parsing (step a) s r fun (es : List (Entry π)) c _ =>
        Results S known es (roundView state view c) (Sum.elim good good')) :
    Parsing (Parser.loop step a) s r fun (es : List (Entry π)) c _ =>
      Results S known es (view c) good' := by
  refine Parsing.loop (fun es a _ => Results S known es (state a) good) (Results.nothing hstart) ?_
  intro es a r ha
  have hround (es' : List (Entry π)) (c : α ⊕ γ)
      (h : Results S known (es ++ es') (roundView state view c) (Sum.elim good good')) :
      c.elim (fun a' => Results S known (es ++ es') (state a') good)
        fun c => Results S known (es ++ es') (view c) good' := by
    cases c with
    | inl a' => exact fun b hb => h (.inl b) (congrArg (Option.map Sum.inl) hb)
    | inr c => exact fun d hd => h (.inr d) (congrArg (Option.map Sum.inr) hd)
  cases hstate : state a with
  | none =>
    refine (hfail a r hstate).mono fun es' c _ hc => hround es' c ?_
    rw [hc]
    exact Results.none
  | some b =>
    obtain ⟨known', hholds, hgood⟩ := ha b hstate
    exact (hstep a b known' r hstate hgood).mono fun es' c _ hc =>
      hround es' c (Results.append hholds hc)

/-- A loop whose states never fail. -/
theorem loop_values {step : α → ParseM (α ⊕ γ)} {a : α} {view : γ → Option δ}
    (good : α → List Fact → Prop) (hstart : good a known)
    (hstep : ∀ a known r, good a known → Parsing (step a) s r fun (es : List (Entry π)) c _ =>
      Results S known es (roundView some view c) (Sum.elim good good')) :
    Parsing (Parser.loop step a) s r fun (es : List (Entry π)) c _ =>
      Results S known es (view c) good' :=
  loop_results some view good (fun b hb => Option.some.inj hb ▸ hstart)
    (fun a r ha => by cases ha) fun a b known r hb => Option.some.inj hb ▸ hstep a known r

/-- Goes on with what a part gives that can fail, whatever the requests are to have in common. -/
theorem bind_option_holds (known : List Fact) {Q : List (Entry π) → γ → Reader → Prop}
    {x : ParseM (Option α)} {f : Option α → ParseM γ}
    (hx : Parsing x s r fun (es : List (Entry π)) a _ => Results S known es a good)
    (hfail : ∀ es r', Parsing (f none) s r' fun es' c r'' => Q (es ++ es') c r'')
    (hf : ∀ a es known' r', S.Holds known es known' →
      good a known' → Parsing (f (some a)) s r' fun es' c r'' => Q (es ++ es') c r'') :
    Parsing (x >>= f) s r Q := by
  rw [bind_iff]
  refine hx.mono fun es a r' ha => ?_
  cases a with
  | none => exact hfail es r'
  | some a =>
    obtain ⟨known', hholds, hgood⟩ := ha a rfl
    exact hf a es known' r' hholds hgood

theorem bind_does_holds (known : List Fact) {Q : List (Entry π) → γ → Reader → Prop}
    {x : ParseM Bool} {f : Bool → ParseM γ}
    (hx : Does S s r known x)
    (hfail : ∀ es r', Parsing (f false) s r' fun es' c r'' => Q (es ++ es') c r'')
    (hf : ∀ es known' r', S.Holds known es known' →
      Parsing (f true) s r' fun es' c r'' => Q (es ++ es') c r'') :
    Parsing (x >>= f) s r Q := by
  rw [bind_iff]
  refine hx.mono fun es ok r' hok => ?_
  cases ok with
  | false => exact hfail es r'
  | true =>
    obtain ⟨known', hholds, -⟩ := hok () rfl
    exact hf es known' r' hholds

/-- A semicolon behind what a part gives. -/
theorem bind_semicolon {x : ParseM (Option α)} {f : Option α → ParseM (Option α)}
    (hx : Parsing x s r fun (es : List (Entry π)) a _ => Results S known es a good)
    (hnone : f none = pure none) (hsome : ∀ a, f (some a) = do
      if ← Parser.expect .semicolon then return some a else return none) :
    Parsing (x >>= f) s r fun (es : List (Entry π)) a _ => Results S known es a good := by
  refine .bind_option hx (fun _ => ?_) fun a _ _ _ ha => ?_
  · rw [hnone]
    rfl
  rw [hsome]
  simp only [ite_iff, bind_read_iff, pure_iff]
  exact fun _ _ _ => ⟨fun _ => Results.done ha, fun _ => Results.none⟩

/-- A round of a loop that goes on with what a part gives, and ends where it gives nothing. -/
theorem bind_proceed {x : ParseM (Option α)} {f : Option α → ParseM (β ⊕ Option γ)}
    {next : α → β} {good'' : β → List Fact → Prop} {good' : γ → List Fact → Prop}
    (hx : Parsing x s r fun (es : List (Entry π)) a _ => Results S known es a good)
    (hsome : ∀ a, f (some a) = pure (.inl (next a))) (hnone : f none = pure (.inr none))
    (hgood : ∀ a known, good a known → good'' (next a) known) :
    Parsing (x >>= f) s r fun (es : List (Entry π)) c _ =>
      Results S known es (roundView some (fun c => c) c) (Sum.elim good'' good') := by
  refine .bind_option hx (fun _ => ?_) fun a known' _ _ ha => ?_
  · rw [hnone]
    rfl
  · rw [hsome]
    exact done_results fun _ h => Option.some.inj h ▸ hgood a known' ha

end Parsing
end ShaderEffect

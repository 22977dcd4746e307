import ShaderEffect.Parser.Run
import ShaderEffect.Proofs.Splicing.Moments

/-!
Rules to prove that code is put into blocks that were entered later.

The parser makes ids for blocks, enters each of them at most once, and returns to blocks that it
came from. What holds of every moment that a script leads to is proved by following the script,
so that it also holds where the script was not followed to its end. Between the parts of the
parser it is enough to know which ids are reserved for blocks that are still to be entered, and
which blocks were seen.

Instances of the class `Keeps` collect the parts that do not leave the block they began in for good.
-/
namespace ShaderEffect

variable {α γ δ β : Type}

namespace Script

/-- Whether every moment that a script leads to is sound as long as the ids do not run out, and its
results satisfy `Q`, whatever the answers are. -/
def Holds : Script α → Moment → (α → Moment → Prop) → Prop
  | done a, m, Q => Q a m
  | fault _, _, _ => True
  | ask q next, m, Q =>
    ∀ a m', q.Next a m m' → m'.nextId ≤ 2 ^ 32 → m'.Sound ∧ (next a).Holds m' Q

variable {x : Script α} {m : Moment} {Q R : α → Moment → Prop}

theorem Holds.mono (h : x.Holds m Q) (hQR : ∀ a m', Q a m' → R a m') : x.Holds m R := by
  induction x generalizing m with
  | done a => exact hQR a m h
  | fault e => trivial
  | ask q next ih =>
    exact fun a m' hnext hid => ⟨(h a m' hnext hid).1, ih a (h a m' hnext hid).2⟩

theorem Holds.bind {f : α → Script γ} {R : γ → Moment → Prop} (h : x.Holds m Q)
    (hf : ∀ a m', Q a m' → (f a).Holds m' R) : (x >>= f).Holds m R := by
  induction x generalizing m with
  | done a => exact hf a m h
  | fault e => trivial
  | ask q next ih =>
    exact fun a m' hnext hid => ⟨(h a m' hnext hid).1, ih a (h a m' hnext hid).2⟩

/-- What was asked for, with the block that was current. -/
abbrev History := List (Id × Request)

/-- The blocks that were entered. -/
def History.entered (es : History) : List Id :=
  es.filterMap fun e => e.2.entered?

/-- The blocks that end in switches which were put together where there was no current block. -/
def History.dropped (es : History) : List Id :=
  es.filterMap fun e => e.2.dropped? e.1

theorem History.entered_cons (e : Id × Request) (es : History) :
    entered (e :: es) = e.2.entered?.toList ++ es.entered := by
  rw [entered, List.filterMap_cons]
  cases e.2.entered? <;> rfl

theorem History.dropped_cons (e : Id × Request) (es : History) :
    dropped (e :: es) = (e.2.dropped? e.1).toList ++ es.dropped := by
  rw [dropped, List.filterMap_cons]
  cases e.2.dropped? e.1 <;> rfl

/-- Runs a script for a number of requests, or to its end. Gives what was asked for and what is
left of the script. -/
def advance [Backend β] :
    Nat → Script α → Generator β → Except Fault (History × Script α × Generator β)
  | n + 1, ask q next, g => do
    let (a, g') ← q.handle g
    let (es, rest, g') ← (next a).advance n g'
    return ((g.currentBlock, q) :: es, rest, g')
  | _, x, g => return ([], x, g)

theorem run_of_advance [Backend β] {n : Nat} {x rest : Script α} {g g' : Generator β}
    {es : History} (h : x.advance n g = .ok (es, rest, g')) : rest.run g' = x.run g := by
  induction n generalizing x g es with
  | zero => cases h; rfl
  | succ n ih =>
    cases x with
    | done a | fault e => cases h; rfl
    | ask q next =>
      obtain ⟨⟨a, g₁⟩, ha, h⟩ := except_bind_eq_ok.mp h
      obtain ⟨⟨es', rest', g₂⟩, hrest, h⟩ := except_bind_eq_ok.mp h
      cases except_pure_eq_ok.mp h
      rw [ih hrest]
      show _ = (q.handle g >>= _ : Except Fault _)
      rw [ha]
      rfl

end Script

namespace Spirv

variable {x rest : Script α} {g g' : Generator State} {l d : List Id} {Q : α → Moment → Prop}

theorem nextId_le_of_run {a : α} (h : x.run g = .ok (a, g')) : g.nextId ≤ g'.nextId := by
  induction x generalizing g with
  | done b => exact Nat.le_of_eq (congrArg Generator.nextId (pure_eq_ok.mp h).2)
  | fault e => cases h
  | ask q next ih =>
    obtain ⟨b, g₁, hq, h⟩ := bind_eq_ok.mp h
    exact Nat.le_trans (countsUp_handle q hq) (ih b h)

theorem nextId_le_of_advance {n : Nat} {es : Script.History}
    (h : x.advance n g = .ok (es, rest, g')) :
    g.nextId ≤ g'.nextId := by
  induction n generalizing x g es with
  | zero => cases h; exact Nat.le_refl _
  | succ n ih =>
    cases x with
    | done a | fault e => cases h; exact Nat.le_refl _
    | ask q next =>
      obtain ⟨⟨a, g₁⟩, ha, h⟩ := except_bind_eq_ok.mp h
      obtain ⟨⟨es', rest', g₂⟩, hrest, h⟩ := except_bind_eq_ok.mp h
      cases except_pure_eq_ok.mp h
      exact Nat.le_trans (countsUp_handle q ha) (ih hrest)

theorem moment_nil : moment g (l ++ []) (d ++ []) = moment g l d := by
  rw [List.append_nil, List.append_nil]

/-- Where a script is broken off, the moment is sound, and the rest of the script
goes on from there. -/
theorem holds_advance {n : Nat} {es : Script.History} (hx : x.Holds (moment g l d) Q)
    (hsound : (moment g l d).Sound)
    (h : x.advance n g = .ok (es, rest, g')) (hid : g'.nextId ≤ 2 ^ 32) :
    (moment g' (l ++ es.entered) (d ++ es.dropped)).Sound
      ∧ rest.Holds (moment g' (l ++ es.entered) (d ++ es.dropped)) Q := by
  induction n generalizing x g l d es with
  | zero =>
    cases h
    exact moment_nil.symm ▸ ⟨hsound, hx⟩
  | succ n ih =>
    cases x with
    | done a | fault e =>
      cases h
      exact moment_nil.symm ▸ ⟨hsound, hx⟩
    | ask q next =>
      obtain ⟨⟨a, g₁⟩, ha, h⟩ := except_bind_eq_ok.mp h
      obtain ⟨⟨es', rest', g₂⟩, hrest, h⟩ := except_bind_eq_ok.mp h
      cases except_pure_eq_ok.mp h
      obtain ⟨hsound, hx⟩ :=
        hx a _ (handle_next ha) (Nat.le_trans (nextId_le_of_advance hrest) hid)
      rw [Script.History.entered_cons, Script.History.dropped_cons, ← List.append_assoc,
        ← List.append_assoc]
      exact ih hx hsound hrest

/-- Where a script ends with a result, its property holds of the moment. -/
theorem holds_run {a : α} (hx : x.Holds (moment g l d) Q) (h : x.run g = .ok (a, g'))
    (hid : g'.nextId ≤ 2 ^ 32) :
    ∃ more lost, Q a (moment g' (l ++ more) (d ++ lost)) := by
  induction x generalizing g l d with
  | done b =>
    obtain ⟨rfl, rfl⟩ := pure_eq_ok.mp h
    exact ⟨[], [], by rwa [List.append_nil, List.append_nil]⟩
  | fault e => cases h
  | ask q next ih =>
    obtain ⟨b, g₁, hq, h⟩ := bind_eq_ok.mp h
    obtain ⟨more, lost, hQ⟩ :=
      ih b (hx b _ (handle_next hq) (Nat.le_trans (nextId_le_of_run h) hid)).2 h
    exact ⟨_, _, by rwa [List.append_assoc, List.append_assoc] at hQ⟩

end Spirv

/-- Whether every moment that a part of the parser leads to is sound, and `Q`
holds where it ends. -/
def Visits (x : ParseM α) (s : Surroundings) (r : Reader) (m : Moment)
    (Q : α → Reader → Moment → Prop) : Prop :=
  (x s r).Holds m fun c => Q c.1 c.2

namespace Visits

variable {s : Surroundings} {r : Reader} {m : Moment} {Q R : α → Reader → Moment → Prop}

/-- A part that is run is a script. -/
theorem holds {x : ParseM α} (h : Visits x s r m Q) :
    ((x.run s).run r).Holds m fun c => Q c.1 c.2 := h

theorem mono {x : ParseM α} (h : Visits x s r m Q) (hQR : ∀ a r' m', Q a r' m' → R a r' m') :
    Visits x s r m R :=
  Script.Holds.mono h fun c => hQR c.1 c.2

theorem bind {x : ParseM γ} {f : γ → ParseM α} {P : γ → Reader → Moment → Prop}
    (hx : Visits x s r m P) (hf : ∀ c r' m', P c r' m' → Visits (f c) s r' m' Q) :
    Visits (x >>= f) s r m Q :=
  Script.Holds.bind hx fun c => hf c.1 c.2

theorem pure {a : α} (h : Q a r m) : Visits (pure a) s r m Q := h

theorem throw {e : Fault} : Visits (throw e : ParseM α) s r m Q := trivial

theorem read {x : ReadM α} (h : ∀ a r', x r = .ok (a, r') → Q a r' m) :
    Visits (liftM x : ParseM α) s r m Q := by
  show (x.toParse s r).Holds m _
  unfold ReadM.toParse
  split
  · next a r' hx => exact h a r' hx
  · trivial

theorem bind_read {x : ReadM γ} {f : γ → ParseM α}
    (h : ∀ c r', x r = .ok (c, r') → Visits (f c) s r' m Q) :
    Visits (liftM x >>= f) s r m Q :=
  bind (read h) fun _ _ _ => id

theorem bind_except {x : Except Fault γ} {f : γ → ParseM α}
    (h : ∀ c r', Visits (f c) s r' m Q) :
    Visits (MonadLiftT.monadLift x >>= f) s r m Q :=
  bind_read (x := MonadLiftT.monadLift x) fun c r' _ => h c r'

theorem bind_surroundings {f : Surroundings → ParseM α} (h : Visits (f s) s r m Q) :
    Visits (MonadReader.read >>= f) s r m Q := h

theorem bind_get {f : Reader → ParseM α} (h : Visits (f r) s r m Q) :
    Visits (get >>= f) s r m Q := h

theorem bind_modify {g : Reader → Reader} {f : PUnit → ParseM α}
    (h : Visits (f ⟨⟩) s (g r) m Q) :
    Visits (modify g >>= f) s r m Q := h

theorem bind_emit {q : Request} {f : q.Answer → ParseM α}
    (h : ∀ a m', q.Next a m m' → m'.nextId ≤ 2 ^ 32 → m'.Sound ∧ Visits (f a) s r m' Q) :
    Visits (Parser.emit q >>= f) s r m Q := h

theorem emit {q : Request} {Q : q.Answer → Reader → Moment → Prop}
    (h : ∀ a m', q.Next a m m' → m'.nextId ≤ 2 ^ 32 → m'.Sound ∧ Q a r m') :
    Visits (Parser.emit q) s r m Q := h

theorem withReader {x : ParseM α} {f : Surroundings → Surroundings} (h : Visits x (f s) r m Q) :
    Visits (withReader f x) s r m Q := h

theorem isInBlock {f : Bool → ParseM α} (h : m.Sound)
    (hf : Visits (f (decide (m.current ≠ 0))) s r m Q) :
    Visits (Parser.emit .isInBlock >>= f) s r m Q :=
  bind_emit (q := .isInBlock) fun _ _ hnext _ => by
    obtain ⟨rfl, rfl⟩ := hnext
    exact ⟨h, hf⟩

theorem isInFunction {f : Bool → ParseM α} (h : m.Sound) (hf : Visits (f m.inFunction) s r m Q) :
    Visits (Parser.emit .isInFunction >>= f) s r m Q :=
  bind_emit (q := .isInFunction) fun _ _ hnext _ => by
    obtain ⟨rfl, rfl⟩ := hnext
    exact ⟨h, hf⟩

/-- What a loop does follows from an invariant that each of its rounds keeps. -/
theorem loop {step : α → ParseM (α ⊕ γ)} {a : α} {Q : γ → Reader → Moment → Prop}
    (inv : α → Reader → Moment → Prop) (hstart : inv a r m)
    (hstep : ∀ a r m, inv a r m →
      Visits (step a) s r m fun c r' m' => c.elim (inv · r' m') (Q · r' m')) :
    Visits (Parser.loop step a) s r m Q := by
  have hrepeats (rounds : Nat) :
      ∀ a r m, inv a r m → Visits (repeatWith step rounds a) s r m Q := by
    induction rounds with
    | zero => exact fun _ _ _ _ => throw
    | succ rounds ih =>
      refine fun a r m h => bind (hstep a r m h) fun c r' m' hc => ?_
      cases c with
      | inl a' => exact ih a' r' m' hc
      | inr c => exact pure hc
  exact hrepeats r.rounds a r m hstart

end Visits

namespace Moment

/-- Whether there is a block to add code to, if a function is generated. -/
structure Calm (inside : Bool) (m : Moment) : Prop where
  sound : m.Sound
  function : m.inFunction = inside
  current : inside = true → m.current ≠ 0

/-- What is done to a moment: blocks are entered that were made since, and the current block is one
of them, or the one that it was, or there is none. -/
structure Moves (m m' : Moment) : Prop where
  sound : m'.Sound
  nextId : m.nextId ≤ m'.nextId
  function : m'.inFunction = m.inFunction
  entered : ∃ new, m'.entered = m.entered ++ new ∧ ∀ id ∈ new, m.nextId ≤ id.toNat
  current : m'.current = 0 ∨ m'.current = m.current ∨ m'.current ∉ m.entered

/-- What is done to a moment where there is still a block to add code to. -/
structure Stays (inside : Bool) (m m' : Moment) : Prop extends Moves m m' where
  dropped : m'.dropped = m.dropped
  calm : m'.Calm inside

variable {m m₁ m' : Moment} {inside : Bool} {n : Nat} {first : Id}

namespace Moves

/-- Where no block is entered, the current block stays or is left. -/
theorem of_sound (h : m'.Sound) (hn : m'.nextId ≥ m.nextId)
    (hfunction : m'.inFunction = m.inFunction) (hentered : m'.entered = m.entered)
    (hcurrent : m'.current = 0 ∨ m'.current = m.current) : m.Moves m' where
  sound := h
  nextId := hn
  function := hfunction
  entered := ⟨[], by rw [hentered, List.append_nil], List.forall_mem_nil _⟩
  current := hcurrent.imp_right .inl

theorem refl (h : m.Sound) : m.Moves m :=
  of_sound h (Nat.le_refl _) rfl rfl (.inr rfl)

theorem subset (h : m.Moves m') : m.entered ⊆ m'.entered := by
  obtain ⟨new, hnew, -⟩ := h.entered
  exact hnew ▸ List.subset_append_left _ _

theorem trans (h : m.Moves m₁) (h' : m₁.Moves m') : m.Moves m' where
  sound := h'.sound
  nextId := Nat.le_trans h.nextId h'.nextId
  function := h'.function.trans h.function
  entered := by
    obtain ⟨new, hnew, hmade⟩ := h.entered
    obtain ⟨more, hmore, hmade'⟩ := h'.entered
    exact ⟨new ++ more, by rw [hmore, hnew, List.append_assoc],
      List.forall_mem_append.mpr ⟨hmade, fun id hid => Nat.le_trans h.nextId (hmade' id hid)⟩⟩
  current := by
    obtain hzero | hsame | hnew := h'.current
    · exact .inl hzero
    · exact hsame ▸ h.current
    · exact .inr (.inr fun hmem => hnew (h.subset hmem))

/-- The current block stays behind one that was entered in front of it. -/
theorem later (h : m.Moves m') (hfirst : first ∈ m.entered)
    (hlater : m.current ≠ 0 → [first, m.current].Sublist m.entered)
    (hcurrent : m'.current ≠ 0) :
    [first, m'.current].Sublist m'.entered := by
  obtain ⟨new, hentered, -⟩ := h.entered
  obtain hzero | hsame | hnew := h.current
  · exact absurd hzero hcurrent
  · rw [hsame] at hcurrent ⊢
    exact hentered ▸ List.sublist_append_of_sublist_left (hlater hcurrent)
  · have hmem : m'.current ∈ m.entered ++ new :=
      hentered ▸ h.sound.current.resolve_left hcurrent
    rw [hentered]
    exact List.Sublist.append (List.singleton_sublist.mpr hfirst)
      (List.singleton_sublist.mpr ((List.mem_append.mp hmem).resolve_left hnew))

end Moves

theorem Stays.refl (h : m.Calm inside) : m.Stays inside m :=
  { Moves.refl h.sound with dropped := rfl, calm := h }

theorem Stays.trans (h : m.Stays inside m₁) (h' : m₁.Stays inside m') : m.Stays inside m' :=
  { h.toMoves.trans h'.toMoves with dropped := h'.dropped.trans h.dropped, calm := h'.calm }

theorem Calm.idle (h : m.Calm inside) (hn : n ≥ m.nextId) :
    m.Stays inside { m with nextId := n } where
  toMoves := .of_sound (h.sound.idle hn) hn rfl rfl (.inr rfl)
  dropped := rfl
  calm := ⟨h.sound.idle hn, h.function, h.current⟩

end Moment

/-- Whether a part of the parser, where there is a block to add code to, leaves one behind. -/
class Keeps (inside : Bool) (x : ParseM α) : Prop where
  visits : ∀ {s r m}, m.Calm inside → Visits x s r m fun _ _ m' => m.Stays inside m'

namespace Keeps

variable {inside : Bool}

theorem of_bind {x : ParseM γ} {f : γ → ParseM α} (hx : Keeps inside x)
    (hf : ∀ c, Keeps inside (f c)) :
    Keeps inside (x >>= f) where
  visits h := (hx.visits h).bind fun c _ _ hstays =>
    ((hf c).visits hstays.calm).mono fun _ _ _ => hstays.trans

instance bind {x : ParseM γ} {f : γ → ParseM α} [hx : Keeps inside x]
    [hf : ∀ c, Keeps inside (f c)] :
    Keeps inside (x >>= f) :=
  of_bind hx hf

instance bind_option {x : ParseM (Option γ)} {f : Option γ → ParseM α} [hx : Keeps inside x]
    [hsome : ∀ c, Keeps inside (f (some c))] [hnone : Keeps inside (f none)] :
    Keeps inside (x >>= f) :=
  of_bind hx fun c => c.casesOn hnone hsome

instance bind_prod {x : ParseM (γ × δ)} {f : γ × δ → ParseM α} [hx : Keeps inside x]
    [hf : ∀ c d, Keeps inside (f (c, d))] : Keeps inside (x >>= f) :=
  of_bind hx fun c => hf c.1 c.2

instance pure {a : α} : Keeps inside (pure a : ParseM α) where
  visits h := .refl h

instance throw {e : Fault} : Keeps inside (throw e : ParseM α) where
  visits _ := .throw

instance ite {c : Prop} [Decidable c] {x y : ParseM α} [hx : Keeps inside x]
    [hy : Keeps inside y] :
    Keeps inside (if c then x else y) := by
  split <;> assumption

/-- Reading makes no requests. -/
instance liftM {x : ReadM α} : Keeps inside (liftM x : ParseM α) where
  visits h := .read fun _ _ _ => .refl h

instance except {x : Except Fault α} : Keeps inside (MonadLiftT.monadLift x : ParseM α) :=
  liftM (x := MonadLiftT.monadLift x)

instance get : Keeps inside (get : ParseM Reader) where
  visits h := .refl h

instance forM {f : γ → ParseM PUnit} [hf : ∀ c, Keeps inside (f c)] {l : List γ} :
    Keeps inside (l.forM f) := by
  induction l with
  | nil => exact pure
  | cons c l ih => exact bind

instance mapM {f : γ → ParseM α} [hf : ∀ c, Keeps inside (f c)] {l : List γ} :
    Keeps inside (l.mapM f) := by
  induction l with
  | nil => exact pure
  | cons c l ih =>
    rw [List.mapM_cons]
    infer_instance

theorem of_loop {step : α → ParseM (α ⊕ γ)} {a : α} (hstep : ∀ a, Keeps inside (step a)) :
    Keeps inside (Parser.loop step a) where
  visits {s r m} h := .loop (fun _ _ m' => m.Stays inside m') (.refl h) fun a _ _ hstays =>
    ((hstep a).visits hstays.calm).mono fun c _ _ hstays' => by
      cases c with
      | inl => exact hstays.trans hstays'
      | inr => exact hstays.trans hstays'

instance loop {step : α → ParseM (α ⊕ γ)} {a : α} [hstep : ∀ a, Keeps inside (step a)] :
    Keeps inside (Parser.loop step a) :=
  of_loop hstep

-- Which request it is tells the type of the answer, not the other way around.
instance emit {q : Request} [hq : IsFalse q.turns] :
    @Keeps (no_index q.Answer) inside (Parser.emit q) where
  visits h := .emit fun _ _ hnext _ => by
    obtain ⟨n, hn, rfl⟩ := hnext.idle hq.eq_false
    exact ⟨h.sound.idle hn, h.idle hn⟩

instance isInFunction : Keeps inside (Parser.emit .isInFunction : ParseM Bool) where
  visits h := .emit fun _ _ ⟨_, heq⟩ _ => heq.symm ▸ ⟨h.sound, .refl h⟩

/-- Entry points are defined where no function is generated. -/
instance defineEntryPoint {decl : FunctionDecl} {isPixelShader : Bool} :
    Keeps false (Parser.emit (.defineEntryPoint decl isPixelShader) : ParseM Unit) where
  visits {s r m} h := .emit fun _ _ ⟨n, hn, heq⟩ _ => by
    obtain rfl | rfl := heq
    · exact ⟨h.sound.idle hn, h.idle hn⟩
    · have hsound := (h.sound.leave hn).forget false
      exact ⟨hsound, .of_sound hsound hn h.function.symm rfl (.inl rfl), rfl,
        hsound, rfl, nofun⟩

end Keeps

namespace Moment

/-- What is known within a part of the parser that began in `m₀` and has gone well so far: some
ids are reserved for blocks that are still to be entered, and some blocks were seen, of which at
most the first was entered before. -/
structure Underway (m₀ : Moment) (reserved seen : List Id) (m : Moment) :
    Prop extends Moves m₀ m where
  dropped : m.dropped = m₀.dropped
  inFunction : m.inFunction = true
  distinct : reserved.Nodup
  reserved : ∀ id ∈ reserved,
    id ≠ 0 ∧ m₀.nextId ≤ id.toNat ∧ id.toNat < m.nextId ∧ id ∉ m.entered
  seen : ∀ id ∈ seen, id ∈ m.entered ∧ (id = m₀.current ∨ id ∉ m₀.entered)

/-- What is known of a block that was just entered. -/
structure Opened (id : Id) (seen : List Id) (m : Moment) : Prop where
  current : m.current = id
  ne_zero : m.current ≠ 0
  later : ∀ first ∈ seen, [first, m.current].Sublist m.entered

namespace Underway

variable {m₀ m m' : Moment} {reserved seen front back : List Id} {id first : Id} {n : Nat}

theorem start (h : m.Sound) (hm : m.inFunction = true) : Underway m [] [] m where
  toMoves := .refl h
  dropped := rfl
  inFunction := hm
  distinct := List.nodup_nil
  reserved := List.forall_mem_nil _
  seen := List.forall_mem_nil _

theorem calm (h : Underway m₀ reserved seen m) (hcurrent : m.current ≠ 0) : m.Calm true :=
  ⟨h.sound, h.inFunction, fun _ => hcurrent⟩

theorem ne_zero (h : Underway m₀ reserved seen m) (hid : id ∈ seen) : id ≠ 0 :=
  (h.sound.made id (h.seen id hid).1).1

/-- Parts that make their own blocks leave those alone that are reserved. -/
theorem moves (h : Underway m₀ reserved seen m) (hmoves : m.Moves m')
    (hdropped : m'.dropped = m.dropped) :
    Underway m₀ reserved seen m' where
  toMoves := h.toMoves.trans hmoves
  dropped := hdropped.trans h.dropped
  inFunction := hmoves.function.trans h.inFunction
  distinct := h.distinct
  reserved id hid := by
    obtain ⟨hzero, hmade, hless, hnew⟩ := h.reserved id hid
    obtain ⟨new, hentered, hlater⟩ := hmoves.entered
    refine ⟨hzero, hmade, Nat.lt_of_lt_of_le hless hmoves.nextId, fun hmem => ?_⟩
    obtain hold | hmem := List.mem_append.mp (hentered ▸ hmem)
    · exact hnew hold
    · exact Nat.not_lt.mpr (hlater id hmem) hless
  seen id hid := (h.seen id hid).imp_left fun hmem => hmoves.subset hmem

/-- An id that is handed out is reserved. -/
theorem make (h : Underway m₀ reserved seen m) (hid : m.nextId + 1 ≤ 2 ^ 32) :
    Underway m₀ (reserved ++ [UInt32.ofNat m.nextId]) seen { m with nextId := m.nextId + 1 } := by
  have hnext :=
    h.moves (.of_sound (h.sound.idle (Nat.le_succ _)) (Nat.le_succ _) rfl rfl (.inr rfl)) rfl
  have hnat : (UInt32.ofNat m.nextId).toNat = m.nextId :=
    UInt32.toNat_ofNat_of_lt' (Nat.lt_of_succ_le hid)
  have hlater (id : Id) (hmem : id.toNat < m.nextId) : id ≠ UInt32.ofNat m.nextId := by
    rintro rfl
    exact Nat.lt_irrefl _ (hnat ▸ hmem)
  refine { hnext with distinct := ?_, reserved := ?_ }
  · refine List.nodup_append.mpr ⟨h.distinct, List.nodup_singleton _,
      fun id hmem other hother => ?_⟩
    obtain rfl := List.mem_singleton.mp hother
    exact hlater id (h.reserved id hmem).2.2.1
  · refine List.forall_mem_append.mpr ⟨hnext.reserved,
      List.forall_mem_singleton.mpr ⟨?_, ?_, ?_, fun hmem => ?_⟩⟩
    · exact (hlater 0 h.sound.positive).symm
    · exact hnat.symm ▸ h.nextId
    · exact hnat.symm ▸ Nat.lt_succ_self _
    · exact hlater _ (h.sound.made _ hmem).2 rfl

/-- A block that is entered comes behind those that were seen. -/
theorem enter (h : Underway m₀ (front ++ id :: back) seen m)
    (hm' : m' = { m with current := id, entered := m.entered ++ [id] }) :
    Underway m₀ (front ++ back) (id :: seen) m' ∧ m'.Opened id seen := by
  obtain ⟨hzero, hmade, hless, hnew⟩ := h.reserved id (by simp)
  obtain ⟨hid, hdistinct⟩ := List.nodup_cons.mp (List.nodup_middle.mp h.distinct)
  have hold : id ∉ m₀.entered := fun hmem => hnew (h.subset hmem)
  subst hm'
  refine ⟨⟨⟨h.sound.enter hzero hless hnew, h.nextId, h.function, ?_, .inr (.inr hold)⟩,
    h.dropped, h.inFunction, hdistinct, fun other hother => ?_, fun other hother => ?_⟩, rfl,
    hzero, fun first hfirst => ?_⟩
  · obtain ⟨new, hentered, hlater⟩ := h.entered
    exact ⟨new ++ [id], by rw [hentered, List.append_assoc],
      List.forall_mem_append.mpr ⟨hlater, List.forall_mem_singleton.mpr hmade⟩⟩
  · obtain ⟨hzero', hmade', hless', hnew'⟩ := h.reserved other (by grind)
    refine ⟨hzero', hmade', hless', fun hmem => ?_⟩
    obtain hmem | hmem := List.mem_append.mp hmem
    · exact hnew' hmem
    · exact hid (List.mem_singleton.mp hmem ▸ hother)
  · obtain rfl | hother := List.mem_cons.mp hother
    · exact ⟨List.mem_concat_self, .inr hold⟩
    · exact (h.seen other hother).imp_left (List.mem_append_left _)
  · exact List.Sublist.append (List.singleton_sublist.mpr (h.seen first hfirst).1)
      (List.Sublist.refl [id])

/-- A part that ends where there is a block to add code to stays. -/
theorem stays (h : Underway m₀ reserved seen m) (hcurrent : m.current ≠ 0) :
    m₀.Stays true m :=
  { h.toMoves with dropped := h.dropped, calm := h.calm hcurrent }

theorem leave (h : Underway m₀ reserved seen m) (hn : n ≥ m.nextId) :
    Underway m₀ reserved seen { m with nextId := n, current := 0 } :=
  h.moves (.of_sound (h.sound.leave hn) hn rfl rfl (.inl rfl)) rfl

/-- The current block was seen. -/
theorem see (h : Underway m₀ reserved seen m) (hcurrent : m.current ≠ 0) :
    Underway m₀ reserved (m.current :: seen) m :=
  { h with
    seen := List.forall_mem_cons.mpr ⟨⟨h.sound.current.resolve_left hcurrent,
      h.current.resolve_left hcurrent⟩, h.seen⟩ }

/-- Only blocks that were seen are returned to. -/
theorem select (h : Underway m₀ reserved seen m) (hid : id = 0 ∨ id ∈ seen) :
    Underway m₀ reserved seen { m with current := id } :=
  { h with
    sound := h.sound.select (hid.imp_right fun hmem => (h.seen id hmem).1)
    current := hid.imp_right fun hmem => (h.seen id hmem).2
    reserved := h.reserved }

/-- Code is put into a block that was entered behind it. -/
theorem splice (h : Underway m₀ reserved seen m) (hfirst : [first, m.current].Sublist m.entered)
    (hn : n ≥ m.nextId) :
    Underway m₀ reserved seen { m.splice first with nextId := n } :=
  h.moves (.of_sound ((h.sound.splice (.inl hfirst)).idle hn) hn rfl rfl (.inr rfl)) rfl

end Underway
end Moment

namespace Visits

open Moment

variable {s : Surroundings} {r : Reader} {m₀ m : Moment} {reserved seen back : List Id}
  {id first : Id} {Q : α → Reader → Moment → Prop}

theorem keep {x : ParseM γ} {f : γ → ParseM α} [hx : Keeps true x]
    (h : Underway m₀ reserved seen m) (hcurrent : m.current ≠ 0)
    (hf : ∀ c r' m', Underway m₀ reserved seen m' →
      m'.current ≠ 0 → Visits (f c) s r' m' Q) :
    Visits (x >>= f) s r m Q :=
  (hx.visits (h.calm hcurrent)).bind fun c r' m' hstays =>
    hf c r' m' (h.moves hstays.toMoves hstays.dropped) (hstays.calm.current rfl)

theorem make {f : Id → ParseM α} (h : Underway m₀ reserved seen m)
    (hf : ∀ id m', Underway m₀ (reserved ++ [id]) seen m' →
      m'.current = m.current → Visits (f id) s r m' Q) :
    Visits (Parser.emit .makeId >>= f) s r m Q :=
  bind_emit fun a m' ⟨ha, hm'⟩ hid => by
    subst ha hm'
    exact ⟨(h.make hid).sound, hf _ _ (h.make hid) rfl⟩

theorem enter (front : List Id) {f : Unit → ParseM α}
    (h : Underway m₀ (front ++ id :: back) seen m)
    (hf : ∀ m', Underway m₀ (front ++ back) (id :: seen) m' →
      m'.Opened id seen → Visits (f ()) s r m' Q) :
    Visits (Parser.emit (.enterBlock id) >>= f) s r m Q :=
  bind_emit fun _ _ hm' _ => ⟨(h.enter hm').1.sound, hf _ (h.enter hm').1 (h.enter hm').2⟩

/-- Goes on where the current block was left, if there was one. -/
theorem leave {q : Request} {f : q.Answer → ParseM α} (hq : q.leaves = true)
    (h : Underway m₀ reserved seen m)
    (hf : ∀ a m', Underway m₀ reserved seen m' → m'.current = 0 → Visits (f a) s r m' Q) :
    Visits (Parser.emit q >>= f) s r m Q :=
  bind_emit fun a m' hnext _ => by
    obtain ⟨n, hn, rfl⟩ := hnext.leaves hq
    exact ⟨(h.leave hn).sound, hf a _ (h.leave hn) rfl⟩

/-- Goes on where a block was left that is given. -/
theorem leave_seen {q : Request} {f : q.Answer → ParseM α} (block : q.Answer → Id)
    (hq : ∀ {a m m'}, q.Next a m m' → m.current ≠ 0 → block a = m.current)
    (hleaves : q.leaves = true) (h : Underway m₀ reserved seen m) (hcurrent : m.current ≠ 0)
    (hf : ∀ a m', Underway m₀ reserved (block a :: seen) m' →
      m'.current = 0 → Visits (f a) s r m' Q) :
    Visits (Parser.emit q >>= f) s r m Q :=
  bind_emit fun a m' hnext _ => by
    have hblock := hq hnext hcurrent
    obtain ⟨n, hn, rfl⟩ := hnext.leaves hleaves
    have hleft := (h.see hcurrent).leave hn
    exact ⟨hleft.sound, hf a _ (hblock ▸ hleft) rfl⟩

theorem branch {target : Id} {flow : Flow} {f : Id → ParseM α}
    (h : Underway m₀ reserved seen m) (hcurrent : m.current ≠ 0)
    (hf : ∀ left m', Underway m₀ reserved (left :: seen) m' →
      m'.current = 0 → Visits (f left) s r m' Q) :
    Visits (Parser.emit (.leaveAndBranch target flow) >>= f) s r m Q :=
  leave_seen (q := .leaveAndBranch target flow) (fun left => left) And.left rfl h hcurrent hf

theorem branchIf {condition yes no : Id} {f : Id → ParseM α} (h : Underway m₀ reserved seen m)
    (hcurrent : m.current ≠ 0)
    (hf : ∀ left m', Underway m₀ reserved (left :: seen) m' →
      m'.current = 0 → Visits (f left) s r m' Q) :
    Visits (Parser.emit (.leaveAndBranchConditional condition yes no) >>= f) s r m Q :=
  leave_seen (q := .leaveAndBranchConditional condition yes no) (fun left => left) And.left
    rfl h hcurrent hf

theorem switch {selector target : Id} {f : Id → ParseM α} (h : Underway m₀ reserved seen m)
    (hcurrent : m.current ≠ 0)
    (hf : ∀ left m', Underway m₀ reserved (left :: seen) m' →
      m'.current = 0 → Visits (f left) s r m' Q) :
    Visits (Parser.emit (.leaveAndSwitch selector target) >>= f) s r m Q :=
  leave_seen (q := .leaveAndSwitch selector target) (fun left => left) And.left rfl h hcurrent hf

theorem select {f : Id → ParseM α} (h : Underway m₀ reserved seen m)
    (hid : id = 0 ∨ id ∈ seen)
    (hf : ∀ m', Underway m₀ reserved seen m' →
      m'.current = id → Visits (f m.current) s r m' Q) :
    Visits (Parser.emit (.setBlock id) >>= f) s r m Q :=
  bind_emit fun a m' ⟨ha, hm'⟩ _ => by
    subst ha hm'
    exact ⟨(h.select hid).sound, hf _ (h.select hid) rfl⟩

/-- Goes on where code was put into the current block. -/
theorem splice {q : Request} {f : q.Answer → ParseM α} (hq : q.first? = some first)
    (h : Underway m₀ reserved seen m) (hfirst : [first, m.current].Sublist m.entered)
    (hf : ∀ a m', Underway m₀ reserved seen m' →
      m'.current = m.current → Visits (f a) s r m' Q) :
    Visits (Parser.emit q >>= f) s r m Q :=
  bind_emit fun a m' hnext _ => by
    obtain ⟨n, hn, rfl⟩ := hnext.splices hq
    exact ⟨(h.splice hfirst hn).sound, hf a _ (h.splice hfirst hn) rfl⟩

end Visits

-- What a part does is only told by the rules.
attribute [irreducible] Visits

end ShaderEffect

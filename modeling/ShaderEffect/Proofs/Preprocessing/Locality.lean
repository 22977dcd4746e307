import ShaderEffect.Preprocessor.Run
import ShaderEffect.Proofs.Computation
import ShaderEffect.Proofs.Preprocessing.Lexing

namespace ShaderEffect.Preprocessor

variable {α γ : Type}

/-- Where a source is read. -/
structure Setting where
  files : Files
  includePaths : List String
  /-- The name of the source. -/
  source : String

/-- Where the source of a state is read. -/
def setting (q : Preprocessor) : Setting :=
  ⟨q.files, q.includePaths, q.reached.source⟩

/-- What surrounds a line: the text around it, and what was done before it was reached. -/
structure Surroundings where
  setting : Setting
  before : List Char
  /-- The line itself. -/
  text : List Char
  after : List Char
  serial : Nat
  pushed : Nat
  output : String
  line : Int
  column : Int
  diagnostics : Diagnostics
  groups : List Group
  usedMacros : List String
  pragmas : List Pragma
  included : List (String × String)
  /-- The source was pushed first. -/
  serial_le : serial ≤ pushed
  /-- Groups are open in the source alone. -/
  level_eq : ∀ g ∈ groups, g.level = 0

namespace Surroundings

variable (c : Surroundings)

/-- The number of an input, given the number it has where the line is all there is. -/
def number (n : Nat) : Nat :=
  if n = 0 then c.serial else n + c.pushed

/-- The source around the line. -/
def bottom (input : Input) : Input :=
  { input with
    text := c.before ++ input.text ++ c.after
    cursor := input.cursor.within c.before.length c.after
    next := input.next.shift c.before.length
    serial := c.number input.serial }

/-- A text that was pushed on top of the source. -/
def above (input : Input) : Input :=
  { input with serial := c.number input.serial }

/-- An input stack whose bottom is the line. -/
def inputs : List Input → List Input
  | [] => []
  | input :: rest => c.bottom input :: rest.map c.above

/-- A state on the line, in its surroundings. The location of an invocation does not count. -/
def embed (invocation : Location) (q : Preprocessor) : Preprocessor :=
  { q with
    stack := c.inputs q.stack
    token := if q.level = 0 then q.token.shift c.before.length else q.token
    reached := { q.reached with line := c.line, column := c.column }
    pushed := q.pushed + c.pushed
    output := c.output
    diagnostics := c.diagnostics ++ q.diagnostics
    groups := c.groups
    usedMacros := c.usedMacros
    pragmas := c.pragmas
    included := c.included
    invocation }

variable {c} {i : Location} {q : Preprocessor}

theorem number_inj {m n : Nat} : c.number m = c.number n ↔ m = n := by
  have := c.serial_le
  unfold number
  split_ifs <;> omega

theorem number_of_pos {n : Nat} (hn : 0 < n) : c.number n = n + c.pushed :=
  if_neg hn.ne'

theorem inputs_getElem? (stack : List Input) (n : Nat) :
    (c.inputs stack)[n]? = stack[n]?.map (if n = 0 then c.bottom else c.above) := by
  cases stack with
  | nil => rfl
  | cons input rest => cases n <;> simp [inputs]

theorem inputs_length (stack : List Input) : (c.inputs stack).length = stack.length := by
  cases stack <;> simp [inputs]

theorem inputs_take (stack : List Input) (n : Nat) :
    (c.inputs stack).take n = c.inputs (stack.take n) := by
  cases stack with
  | nil => simp [inputs]
  | cons input rest => cases n <;> simp [inputs]

theorem inputs_set (stack : List Input) (n : Nat) (input : Input) :
    (c.inputs stack).set n (if n = 0 then c.bottom input else c.above input)
      = c.inputs (stack.set n input) := by
  cases stack with
  | nil => rfl
  | cons first rest => cases n <;> simp [inputs, List.map_set]

theorem inputs_append {stack : List Input} (hne : stack ≠ []) (input : Input) :
    c.inputs (stack ++ [input]) = c.inputs stack ++ [c.above input] := by
  cases stack with
  | nil => exact absurd rfl hne
  | cons first rest => simp [inputs]

theorem inputs_getLast? (stack : List Input) :
    (c.inputs stack).getLast?.map (·.hidden) = stack.getLast?.map (·.hidden) := by
  rw [List.getLast?_eq_getElem?, List.getLast?_eq_getElem?, inputs_length, inputs_getElem?,
    Option.map_map]
  split <;> rfl

@[simp]
theorem embed_token_kind : (c.embed i q).token.kind = q.token.kind := by
  unfold embed
  dsimp only
  split <;> rfl

@[simp]
theorem embed_token_location : (c.embed i q).token.location = q.token.location := by
  unfold embed
  dsimp only
  split <;> rfl

@[simp]
theorem embed_token_raw : (c.embed i q).token.raw = q.token.raw := by
  unfold embed
  dsimp only
  split <;> rfl

@[simp]
theorem embed_token_text : (c.embed i q).token.text = q.token.text := by
  unfold embed
  dsimp only
  split <;> rfl

@[simp]
theorem embed_token_word : (c.embed i q).token.word = q.token.word := by
  unfold embed
  dsimp only
  split <;> rfl

@[simp] theorem embed_files : (c.embed i q).files = q.files := rfl
@[simp] theorem embed_includePaths : (c.embed i q).includePaths = q.includePaths := rfl
@[simp] theorem embed_macros : (c.embed i q).macros = q.macros := rfl
@[simp] theorem embed_success : (c.embed i q).success = q.success := rfl
@[simp] theorem embed_level : (c.embed i q).level = q.level := rfl
@[simp] theorem embed_nextLevel : (c.embed i q).nextLevel = q.nextLevel := rfl
@[simp] theorem embed_source : (c.embed i q).reached.source = q.reached.source := rfl
@[simp] theorem embed_expansions : (c.embed i q).expansions = q.expansions := rfl
@[simp] theorem embed_overflow : (c.embed i q).overflow = q.overflow := rfl
@[simp] theorem embed_stack : (c.embed i q).stack = c.inputs q.stack := rfl
@[simp] theorem embed_pushed : (c.embed i q).pushed = q.pushed + c.pushed := rfl

@[simp]
theorem embed_findMacro? (name : String) : (c.embed i q).findMacro? name = q.findMacro? name := rfl

@[simp]
theorem embed_nextKind : (c.embed i q).nextKind = q.nextKind := by
  unfold nextKind
  simp only [embed_stack, embed_nextLevel, inputs_getElem?]
  cases q.stack[q.nextLevel]? with
  | none => rfl
  | some input => cases q.nextLevel <;> rfl

end Surroundings

/-- Whether the bottom input is a line that was read from the front. -/
structure Placed (text : List Char) (b : Input) : Prop where
  text : b.text = text
  whole : Token.IsWhole b.text
  rest : b.cursor.rest = b.text.drop b.cursor.offset
  offset : b.cursor.offset ≤ b.text.length
  next : b.next.offset + b.next.length ≤ b.cursor.offset
  newline : b.next.kind = .endOfLine → 0 < b.next.length ∧ b.cursor.location.column = 1
  ended : b.next.kind = .eof → b.cursor.rest = []
  hidden : b.hidden = []
  isArgument : b.isArgument = false
  endReported : b.endReported = false
  serial : b.serial = 0

/-- What is true of a state on a line as long as nothing but the line was read. -/
structure Sound (c : Surroundings) (q : Preprocessor) : Prop where
  setting : q.setting = c.setting
  groups : q.groups = []
  overflow : q.success = true → q.overflow = false
  pushed : 0 < q.pushed
  named : ∀ input ∈ q.stack, input.name ≠ "" → input.name = q.reached.source
  placed : ∀ b, q.stack.head? = some b → b.name ≠ "" → Placed c.text b
  token : ∀ b, q.stack.head? = some b → b.name ≠ "" → q.level = 0 →
    q.token.offset + q.token.length ≤ b.next.offset

/-- Whether the end of the line is still to be read, and there was no error. -/
structure OnLine (q : Preprocessor) : Prop where
  success : q.success = true
  bottom :
    ∃ b, q.stack.head? = some b
      ∧ b.name ≠ "" ∧ (b.next.kind = .endOfLine ∨ b.cursor.rest ≠ [])

theorem OnLine.stack_ne_nil {q : Preprocessor} (h : OnLine q) : q.stack ≠ [] := by
  obtain ⟨-, b, hb, -⟩ := h
  rintro hnil
  rw [hnil] at hb
  cases hb

/-- Whether a computation that stays on its line does in the line's surroundings what it does on
the line alone. -/
class Local (c : Surroundings) (x y : PreM α) : Prop where
  onLine : ∀ ⦃q a q'⦄, x q = .ok (a, q') → OnLine q' → OnLine q
  embed : ∀ ⦃q a q'⦄, x q = .ok (a, q') → Sound c q → OnLine q' →
    Sound c q' ∧ ∀ i, ∃ j, y (c.embed i q) = .ok (a, c.embed j q')

namespace Local

variable {c : Surroundings} {x y : PreM α}

instance pure {a : α} : Local c (pure a : PreM α) (pure a) where
  onLine q b q' h hend := by
    obtain ⟨-, rfl⟩ := pure_eq_ok.mp h
    exact hend
  embed q b q' h hq hend := by
    obtain ⟨rfl, rfl⟩ := pure_eq_ok.mp h
    exact ⟨hq, fun i => ⟨i, rfl⟩⟩

instance throw {e : Fault} : Local c (throw e : PreM α) y where
  onLine _ _ _ h := absurd h throw_eq_ok.mp
  embed _ _ _ h := absurd h throw_eq_ok.mp

instance bind {x y : PreM γ} {f g : γ → PreM α} [hx : Local c x y]
    [hf : ∀ a, Local c (f a) (g a)] :
    Local c (x >>= f) (y >>= g) where
  onLine q b q' h hend := by
    obtain ⟨a, q₁, h₁, h₂⟩ := bind_eq_ok.mp h
    exact hx.onLine h₁ ((hf a).onLine h₂ hend)
  embed q b q' h hq hend := by
    obtain ⟨a, q₁, h₁, h₂⟩ := bind_eq_ok.mp h
    obtain ⟨hq₁, hy⟩ := hx.embed h₁ hq ((hf a).onLine h₂ hend)
    obtain ⟨hq', hg⟩ := (hf a).embed h₂ hq₁ hend
    refine ⟨hq', fun i => ?_⟩
    obtain ⟨j, hj⟩ := hy i
    obtain ⟨k, hk⟩ := hg j
    exact ⟨k, bind_eq_ok.mpr ⟨a, _, hj, hk⟩⟩

/-- Goes on behind a part that is local. -/
theorem andThen {x y : PreM γ} {f g : γ → PreM α} [hx : Local c x y]
    (hf : ∀ a, Local c (f a) (g a)) :
    Local c (x >>= f) (y >>= g) :=
  bind

instance bind_option {x y : PreM (Option γ)} {f g : Option γ → PreM α} [hx : Local c x y]
    [hsome : ∀ a, Local c (f (some a)) (g (some a))] [hnone : Local c (f none) (g none)] :
    Local c (x >>= f) (y >>= g) :=
  have : ∀ a, Local c (f a) (g a) := fun a => a.casesOn hnone hsome
  bind

instance bind_sum {δ : Type} {x y : PreM (γ ⊕ δ)} {f g : γ ⊕ δ → PreM α}
    [hx : Local c x y] [hinl : ∀ a, Local c (f (.inl a)) (g (.inl a))]
    [hinr : ∀ a, Local c (f (.inr a)) (g (.inr a))] :
    Local c (x >>= f) (y >>= g) :=
  have : ∀ a, Local c (f a) (g a) := fun a => a.casesOn hinl hinr
  bind

instance ite {p : Prop} [Decidable p] {x x' y y' : PreM α} [hx : Local c x y]
    [hx' : Local c x' y'] :
    Local c (if p then x else x') (if p then y else y') := by
  split <;> assumption

instance seqRight {x y : PreM γ} {x' y' : PreM α} [hx : Local c x y] [hx' : Local c x' y'] :
    Local c (x *> x') (y *> y') := by
  rw [seqRight_eq_bind, seqRight_eq_bind]
  infer_instance

instance liftM {x : Except Fault α} : Local c (liftM x : PreM α) (liftM x) where
  onLine q b q' h hend := by
    obtain ⟨-, rfl⟩ := liftM_eq_ok.mp h
    exact hend
  embed q b q' h hq hend := by
    obtain ⟨hx, rfl⟩ := liftM_eq_ok.mp h
    exact ⟨hq, fun i => ⟨i, liftM_eq_ok.mpr ⟨hx, rfl⟩⟩⟩

instance foldlM {f g : α → γ → PreM α} [hf : ∀ a b, Local c (f a b) (g a b)]
    {l : List γ} {a : α} :
    Local c (l.foldlM f a) (l.foldlM g a) := by
  induction l generalizing a with
  | nil => exact pure
  | cons b l ih =>
    have : ∀ a, Local c (l.foldlM f a) (l.foldlM g a) := fun _ => ih
    rw [List.foldlM_cons, List.foldlM_cons]
    exact bind

/-- A computation may look at what is the same in the surroundings. -/
theorem get {f g : Preprocessor → PreM α} (h : ∀ q i, Local c (f q) (g (c.embed i q))) :
    Local c (get >>= f) (get >>= g) where
  onLine q b q' hx hend := by
    obtain ⟨_, _, hget, hx⟩ := bind_eq_ok.mp hx
    obtain ⟨rfl, rfl⟩ := get_eq_ok.mp hget
    exact (h q {}).onLine hx hend
  embed q b q' hx hq hend := by
    obtain ⟨_, _, hget, hx⟩ := bind_eq_ok.mp hx
    obtain ⟨rfl, rfl⟩ := get_eq_ok.mp hget
    refine ⟨((h q {}).embed hx hq hend).1, fun i => ?_⟩
    obtain ⟨j, hj⟩ := ((h q i).embed hx hq hend).2 i
    exact ⟨j, bind_eq_ok.mpr ⟨_, _, get_eq_ok.mpr ⟨rfl, rfl⟩, hj⟩⟩

/-- A change of the state that the surroundings do not matter for. -/
theorem modify {f : Preprocessor → Preprocessor} (hon : ∀ q, OnLine (f q) → OnLine q)
    (hsound : ∀ q, Sound c q → OnLine (f q) → Sound c (f q))
    (hembed : ∀ q i, Sound c q → OnLine (f q) → ∃ j, f (c.embed i q) = c.embed j (f q)) :
    Local c (modify f : PreM Unit) (modify f) where
  onLine q b q' h hend := by
    obtain rfl := modify_eq_ok.mp h
    exact hon q hend
  embed q b q' h hq hend := by
    obtain rfl := modify_eq_ok.mp h
    refine ⟨hsound q hq hend, fun i => ?_⟩
    obtain ⟨j, hj⟩ := hembed q i hq hend
    exact ⟨j, modify_eq_ok.mpr hj⟩

/-- Where an error was reported, nothing more is said. -/
theorem of_failed (hon : ∀ ⦃q a q'⦄, x q = .ok (a, q') → ¬OnLine q') : Local c x y where
  onLine _ _ _ h hend := absurd hend (hon h)
  embed _ _ _ h _ hend := absurd hend (hon h)

instance repeatWhile {x y : PreM Bool} [hx : Local c x y] {rounds : Nat} :
    Local c (repeatWhile x rounds) (repeatWhile y rounds) := by
  induction rounds with
  | zero => exact throw
  | succ rounds ih =>
    unfold ShaderEffect.repeatWhile
    infer_instance

instance repeatWith {step step' : γ → PreM (γ ⊕ α)}
    [hstep : ∀ a, Local c (step a) (step' a)] {rounds : Nat} {a : γ} :
    Local c (repeatWith step rounds a) (repeatWith step' rounds a) := by
  induction rounds generalizing a with
  | zero => exact throw
  | succ rounds ih =>
    unfold ShaderEffect.repeatWith
    have : ∀ a,
        Local c (ShaderEffect.repeatWith step rounds a) (ShaderEffect.repeatWith step' rounds a) :=
      fun a => ih
    exact bind_sum

end Local

end ShaderEffect.Preprocessor

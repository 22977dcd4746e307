import ShaderEffect.Proofs.Parsing.Switch
import ShaderEffect.Proofs.Splicing.Operands

/-!
Statements put the code in front of them into the block behind them.

The blocks of a selection or a loop are made in front of what it consists of, and entered in
between. What it consists of makes its own blocks and leaves those alone, so that they can still be
entered. A statement is put together in its last block, and so is the code in front of it.

A switch statement can be broken off behind a section that jumps. It is then put together where
there is no block, and it is wrong.
-/
namespace ShaderEffect

namespace Moment

/-- What reading a statement does. Switch statements without a block to put them into are wrong. -/
structure Leads (ok : Bool) (m m' : Moment) : Prop extends Moves m m' where
  dropped : ok = true → m'.dropped = m.dropped

variable {m₀ m m₁ m' : Moment} {reserved seen : List Id} {id first : Id} {inside ok ok' : Bool}

theorem Moves.leads (h : m.Moves m') : m.Leads false m' :=
  { h with dropped := nofun }

theorem Stays.leads (h : m.Stays inside m') : m.Leads ok m' :=
  { h with dropped := fun _ => h.dropped }

namespace Underway

theorem leads (h : m₀.Underway reserved seen m) : m₀.Leads ok m :=
  { h with dropped := fun _ => h.dropped }

/-- Only one of the blocks that were seen is returned to. -/
theorem only (h : m₀.Underway reserved seen m) (hid : id ∈ seen) :
    m₀.Underway reserved [id] m :=
  { h with seen := List.forall_mem_singleton.mpr (h.seen id hid) }

/-- Ids that are reserved need not be used. -/
theorem release (h : m₀.Underway reserved seen m) : m₀.Underway [] seen m :=
  { h with distinct := List.nodup_nil, reserved := List.forall_mem_nil _ }

end Underway
end Moment

open Moment

/-- Whether the statements and expressions that lie inside of others only enter
blocks of their own. -/
class Executes (recurse : Parser.Recurse) : Prop extends Evaluates recurse where
  statement : ∀ {newScope s r m}, m.Sound → m.inFunction = true →
    Visits (recurse (.statement newScope) : ParseM Bool) s r m fun ok _ m' => m.Leads ok m'

namespace Visits

variable {α : Type} {s : Surroundings} {r : Reader} {m₀ m : Moment} {reserved seen : List Id}
  {Q : α → Reader → Moment → Prop}

/-- Goes on behind a statement that is right. -/
theorem proceed {x : ParseM Bool} {f : Bool → ParseM α} (h : m₀.Underway reserved seen m)
    (hx : Visits x s r m fun ok _ m' => m.Leads ok m')
    (htrue : ∀ r' m', m₀.Underway reserved seen m' → m.Moves m' → Visits (f true) s r' m' Q)
    (hfalse : ∀ r' m', m₀.Moves m' → Visits (f false) s r' m' Q) : Visits (x >>= f) s r m Q :=
  hx.bind fun ok r' m' hleads => by
    cases ok with
    | true => exact htrue r' m' (h.moves hleads.toMoves (hleads.dropped rfl)) hleads.toMoves
    | false => exact hfalse r' m' (h.toMoves.trans hleads.toMoves)

/-- Goes on where something was there that is needed. -/
theorem require {x : ReadM Bool} {f : Bool → ParseM α} (htrue : ∀ r', Visits (f true) s r' m Q)
    (hfalse : ∀ r', Visits (f false) s r' m Q) : Visits (liftM x >>= f) s r m Q :=
  bind_read fun found r' _ => found.rec (hfalse r') (htrue r')

/-- Reports are nothing that is generated. -/
theorem report {c : Prop} [Decidable c] {γ : Type} {x : ReadM γ} {y : γ → ReadM Unit}
    {f : Unit → ParseM α} (hf : ∀ r', Visits (f ()) s r' m Q) :
    Visits (if c then liftM x >>= fun a => liftM (y a) >>= f else f ()) s r m Q := by
  split
  · exact bind_read fun _ _ _ => bind_read fun _ r' _ => hf r'
  · exact hf r

/-- Where nothing is requested any more. -/
theorem leads {x : ReadM Bool} (h : m₀.Underway reserved seen m) :
    Visits (liftM x : ParseM Bool) s r m fun ok _ m' => m₀.Leads ok m' :=
  .read fun _ _ _ => h.leads

end Visits

namespace Parser

variable {inside : Bool} {recurse : Recurse} [Evaluates recurse]

instance parseInParentheses_stays : Keeps inside (parseInParentheses recurse) := by
  unfold parseInParentheses
  infer_instance

omit [Evaluates recurse] in
instance loadScalar_stays {e : Expression} {base : Base} {message : String} :
    Keeps inside (loadScalar e base message) := by
  unfold loadScalar
  infer_instance

instance parseCondition_stays {message : String} :
    Keeps inside (parseCondition recurse message) := by
  unfold parseCondition
  infer_instance

instance parseLocals_stays {t : Ty} : Keeps inside (parseLocals recurse t) := by
  unfold parseLocals
  infer_instance

instance parseLocalsOrExpression_stays : Keeps inside (parseLocalsOrExpression recurse) := by
  unfold parseLocalsOrExpression
  infer_instance

instance parseSimpleStatement_stays : Keeps inside (parseSimpleStatement recurse) := by
  unfold parseSimpleStatement
  infer_instance

instance parseForStart_stays : Keeps inside (parseForStart recurse) := by
  unfold parseForStart
  infer_instance

instance parseForStep_stays : Keeps inside (parseForStep recurse) := by
  unfold parseForStep
  infer_instance

end Parser

namespace Parser

variable {recurse : Recurse} [Executes recurse] {s : Surroundings} {r : Reader} {m₀ m : Moment}
  {reserved seen back : List Id} {location : Location} {hint : ControlHint} {newScope : Bool}

omit [Executes recurse] in
theorem parseJump_visits {targets : List Id} {flow : Flow} {code : Int} {message : String}
    (h : m.Calm true) :
    Visits (parseJump location targets flow code message) s r m fun ok _ m' => m.Leads ok m' := by
  have hstart := Underway.start h.sound h.function
  unfold parseJump
  cases targets with
  | nil => exact .bind_read fun _ _ _ => .pure hstart.leads
  | cons target targets => exact .leave rfl hstart fun _ _ hleft _ => .leads hleft

theorem parseReturn_visits (h : m.Calm true) :
    Visits (parseReturn recurse location) s r m fun ok _ m' => m.Leads ok m' := by
  have hstart := Underway.start h.sound h.function
  have hcurrent := h.current rfl
  unfold parseReturn
  refine .keep hstart hcurrent fun p r₁ m₁ h₁ hcurrent₁ =>
    .bind_read fun isEmpty r₂ _ => ?_
  cases isEmpty with
  | true =>
    simp only [if_true]
    split
    · exact .bind_read fun _ _ _ => .bind_read fun _ _ _ => .pure h₁.leads
    · exact .leave rfl h₁ fun _ _ hleft _ => .leads hleft
  | false =>
    refine .keep h₁ hcurrent₁ fun e r₃ m₃ h₃ hcurrent₃ => ?_
    rcases e with _ | e
    · exact .leads h₃
    dsimp only
    split
    · exact .bind_read fun _ _ _ => .bind_read fun _ _ _ => .pure h₃.leads
    split
    · exact .bind_read fun _ _ _ => .bind_read fun _ _ _ => .pure h₃.leads
    refine .bind_read fun _ _ _ =>
      .bind_read fun e r₅ _ => .keep h₃ hcurrent₃ fun value r₆ m₆ h₆ hcurrent₆ => ?_
    exact .leave rfl h₆ fun _ _ hleft _ => .leads hleft

theorem parseStatements_visits (h : m.Sound) (hm : m.inFunction = true) :
    Visits (parseStatements recurse) s r m fun ok _ m' => m.Leads ok m' := by
  unfold parseStatements
  refine .loop (fun _ _ m' => m.Underway [] [] m') (Underway.start h hm) fun _ r₁ m₁ h₁ => ?_
  refine .bind_read fun isClose r₂ _ => .bind_read fun isEnd r₃ _ => ?_
  split
  · exact .pure h₁.leads
  · refine .proceed h₁ (Executes.statement h₁.sound h₁.inFunction)
      (fun r₄ m₄ h₄ _ => ?_) fun _ _ h => ?_
    · exact .pure h₄
    · exact .pure h.leads

/-- The scopes of names are nothing that is generated. -/
theorem parseBlock_visits (h : m.Sound) (hm : m.inFunction = true) :
    Visits (parseBlock recurse newScope) s r m fun ok _ m' => m.Leads ok m' := by
  unfold parseBlock
  have hstart := Underway.start h hm
  refine .bind_read fun isOpen r₁ _ => ?_
  cases isOpen with
  | false => exact .pure hstart.leads
  | true =>
    cases newScope with
    | true =>
      refine .bind_read fun _ r₂ _ => ?_
      refine .proceed hstart (parseStatements_visits h hm) (fun r₃ m₃ h₃ _ => ?_)
        fun r₃ m₃ h₃ => ?_
      · exact .bind_read fun _ _ _ => .leads h₃
      · exact .bind_read fun _ _ _ => .bind_read fun _ _ _ => .pure h₃.leads
    | false =>
      refine .proceed hstart (parseStatements_visits h hm) (fun r₃ m₃ h₃ _ => ?_)
        fun r₃ m₃ h₃ => ?_
      · exact .leads h₃
      · exact .bind_read fun _ _ _ => .pure h₃.leads

theorem parseElse_visits (h : m.Calm true) :
    Visits (parseElse recurse) s r m fun ok _ m' => m.Leads ok m' := by
  unfold parseElse
  refine .bind_read fun isElse r₁ _ => ?_
  cases isElse with
  | true => exact Executes.statement h.sound h.function
  | false => exact .pure (Stays.refl h).leads

/-- The code in front of an if statement is put into the block behind it. -/
theorem parseIf_visits (h : m.Calm true) :
    Visits (parseIf recurse location hint) s r m fun ok _ m' => m.Leads ok m' := by
  unfold parseIf makeBlock branchIf branchTo enterBlock
  refine .make (Underway.start h.sound h.function) fun yes m₁ h₁ hcurrent₁ => ?_
  refine .make h₁ fun no m₂ h₂ hcurrent₂ => .make h₂ fun merge m₃ h₃ hcurrent₃ => ?_
  have hcurrent₃ : m₃.current ≠ 0 := by
    rw [hcurrent₃, hcurrent₂, hcurrent₁]
    exact h.current rfl
  refine .keep h₃ hcurrent₃ fun condition r₄ m₄ h₄ hcurrent₄ => ?_
  rcases condition with _ | condition
  · exact .pure h₄.leads
  refine .branchIf h₄ hcurrent₄ fun conditionEnd m₅ h₅ _ =>
    .enter [] h₅ fun m₆ h₆ hopened => ?_
  refine .proceed h₆ (Executes.statement h₆.sound h₆.inFunction) (fun r₇ m₇ h₇ _ => ?_)
    fun _ _ h => .pure h.leads
  refine .leave rfl h₇ fun yesEnd m₈ h₈ _ => .enter [] h₈ fun m₉ h₉ hopened => ?_
  refine .proceed h₉ (parseElse_visits (h₉.calm hopened.ne_zero))
    (fun r₁₀ m₁₀ h₁₀ _ => ?_) fun _ _ h => .pure h.leads
  refine .leave rfl h₁₀ fun noEnd m₁₁ h₁₁ _ =>
    .enter [] h₁₁ fun m₁₂ h₁₂ hopened => ?_
  exact .splice rfl h₁₂ (hopened.later conditionEnd (by simp)) fun _ _ h _ => .pure h.leads

section

variable {α : Type} {Q : α → Reader → Moment → Prop} {b : LoopBlocks} {first before : Id}

omit [Executes recurse]

/-- The blocks of a loop are made in one go. -/
theorem makeLoopBlocks_visits {f : LoopBlocks → ParseM α} (h : m₀.Underway [] seen m)
    (hcurrent : m.current ≠ 0)
    (hf : ∀ b m', m₀.Underway [b.merge, b.header, b.next, b.body] seen m' →
      m'.current ≠ 0 → Visits (f b) s r m' Q) :
    Visits (makeLoopBlocks >>= f) s r m Q := by
  unfold makeLoopBlocks makeBlock
  simp only [bind_assoc, pure_bind]
  refine .make h fun merge m₁ h₁ hcurrent₁ =>
    .make h₁ fun header m₂ h₂ hcurrent₂ => ?_
  refine .make h₂ fun next m₃ h₃ hcurrent₃ =>
    .make h₃ fun body m₄ h₄ hcurrent₄ => ?_
  refine hf ⟨merge, header, next, body⟩ m₄ h₄ ?_
  rwa [hcurrent₄, hcurrent₃, hcurrent₂, hcurrent₁]

/-- Goes on in the first block behind the header of a loop. The block in front of it was seen. -/
theorem openLoop_visits (mid : List Id) {f : Id → ParseM α}
    (h : m₀.Underway (b.merge :: b.header :: (mid ++ first :: back)) seen m)
    (hcurrent : m.current ≠ 0)
    (hf : ∀ before m', m₀.Underway (b.merge :: (mid ++ back)) [before] m' →
      m'.current ≠ 0 → Visits (f before) s r m' Q) :
    Visits (openLoop b first >>= f) s r m Q := by
  unfold openLoop branchTo enterBlock
  simp only [bind_assoc, pure_bind]
  refine .branch h hcurrent fun before m₁ h₁ _ =>
    .enter [b.merge] h₁ fun m₂ h₂ hopened => ?_
  refine .branch h₂ hopened.ne_zero fun _ m₃ h₃ _ =>
    .enter (b.merge :: mid) h₃ fun m₄ h₄ hopened => ?_
  exact hf before m₄ (h₄.only (by simp)) hopened.ne_zero

/-- The code in front of a loop is put into the block behind it. -/
theorem closeLoop_visits {condition conditionEnd bodyEnd : Id} {f : Unit → ParseM α}
    (h : m₀.Underway (b.merge :: back) seen m) (hbefore : before ∈ seen)
    (hf : ∀ m', m₀.Underway back (b.merge :: seen) m' → Visits (f ()) s r m' Q) :
    Visits (closeLoop location b condition before conditionEnd bodyEnd hint >>= f) s r m Q := by
  unfold closeLoop enterBlock
  simp only [bind_assoc]
  refine .enter [] h fun m₁ h₁ hopened => ?_
  exact .splice rfl h₁ (hopened.later before hbefore) fun _ m₂ h₂ _ => hf m₂ h₂

end

theorem parseLoopBody_visits {b : LoopBlocks} (h : m₀.Underway reserved seen m) :
    Visits (parseLoopBody recurse b newScope) s r m fun bodyEnd _ m' =>
      bodyEnd.elim (m₀.Moves m') fun _ => m₀.Underway reserved seen m' := by
  unfold parseLoopBody branchTo
  refine .proceed h (.withReader (Executes.statement h.sound h.inFunction))
    (fun r₁ m₁ h₁ _ => ?_) fun _ _ h => .pure h
  exact .leave rfl h₁ fun _ _ hleft _ => .pure hleft

theorem parseForCondition_visits {b : LoopBlocks} (h : m₀.Underway reserved seen m)
    (hcurrent : m.current ≠ 0) :
    Visits (parseForCondition recurse b) s r m fun condition _ m' =>
      condition.elim (m₀.Moves m') fun _ => m₀.Underway reserved seen m' := by
  unfold parseForCondition branchTo branchIf
  refine .bind_read fun isEmpty r₁ _ => ?_
  cases isEmpty with
  | true => exact .leave rfl h fun _ _ hleft _ => .pure hleft
  | false =>
    refine .keep h hcurrent fun e r₂ m₂ h₂ hcurrent₂ => ?_
    rcases e with _ | e
    · exact .pure h₂.toMoves
    refine .keep h₂ hcurrent₂ fun condition r₃ m₃ h₃ hcurrent₃ => ?_
    rcases condition with _ | condition
    · exact .pure h₃.toMoves
    exact .leave rfl h₃ fun _ _ hleft _ => .pure hleft

theorem parseFor_visits (h : m.Calm true) :
    Visits (parseFor recurse location hint) s r m fun ok _ m' => m.Leads ok m' := by
  have hstart := Underway.start h.sound h.function
  unfold parseFor makeBlock enterBlock branchTo
  refine .require (fun r₁ => ?_) fun _ => .pure hstart.leads
  refine .keep hstart (h.current rfl) fun isStarted r₂ m₂ h₂ hcurrent₂ => ?_
  rcases isStarted with _ | _
  · exact .pure h₂.leads
  refine .require (fun r₃ => ?_) fun _ => .pure h₂.leads
  refine makeLoopBlocks_visits h₂ hcurrent₂ fun b m₃ h₃ hcurrent₃ =>
    .make h₃ fun first m₄ h₄ hcurrent₄ => ?_
  refine openLoop_visits [b.next, b.body] h₄ (hcurrent₄ ▸ hcurrent₃)
    fun before m₅ h₅ hcurrent₅ => ?_
  refine .bind (parseForCondition_visits h₅ hcurrent₅) fun condition r₆ m₆ h₆ => ?_
  rcases condition with _ | ⟨condition, conditionEnd⟩
  · exact .pure h₆.leads
  replace h₆ : m.Underway [b.merge, b.next, b.body] [before] m₆ := h₆
  refine .require (fun r₇ => ?_) fun _ => .pure h₆.leads
  -- What is done behind each round is read in front of the body.
  refine .enter [b.merge] h₆ fun m₈ h₈ hopened =>
    .keep h₈ hopened.ne_zero fun isStep r₉ m₉ h₉ hcurrent₉ => ?_
  rcases isStep with _ | _
  · exact .pure h₉.leads
  refine .require (fun r₁₀ => ?_) fun _ => .pure h₉.leads
  refine .leave rfl h₉ fun _ m₁₁ h₁₁ _ =>
    .enter [b.merge] h₁₁ fun m₁₂ h₁₂ _ => ?_
  refine .bind (parseLoopBody_visits h₁₂) fun bodyEnd r₁₃ m₁₃ h₁₃ => ?_
  rcases bodyEnd with _ | bodyEnd
  · exact .pure h₁₃.leads
  · exact closeLoop_visits h₁₃ (by simp) fun _ h => .pure h.leads

theorem parseWhile_visits (h : m.Calm true) :
    Visits (parseWhile recurse location hint) s r m fun ok _ m' => m.Leads ok m' := by
  unfold parseWhile makeBlock enterBlock branchTo branchIf
  refine makeLoopBlocks_visits (Underway.start h.sound h.function) (h.current rfl)
    fun b m₁ h₁ hcurrent₁ => ?_
  refine .make h₁ fun first m₂ h₂ hcurrent₂ => ?_
  refine openLoop_visits [b.next, b.body] h₂ (hcurrent₂ ▸ hcurrent₁)
    fun before m₃ h₃ hcurrent₃ => ?_
  refine .keep h₃ hcurrent₃ fun condition r₄ m₄ h₄ hcurrent₄ => ?_
  rcases condition with _ | condition
  · exact .pure h₄.leads
  refine .leave rfl h₄ fun conditionEnd m₅ h₅ _ =>
    .enter [b.merge, b.next] h₅ fun m₆ h₆ _ => ?_
  refine .bind (parseLoopBody_visits h₆) fun bodyEnd r₇ m₇ h₇ => ?_
  rcases bodyEnd with _ | bodyEnd
  · exact .pure h₇.leads
  refine .enter [b.merge] h₇ fun m₈ h₈ _ => .leave rfl h₈ fun _ m₉ h₉ _ => ?_
  exact closeLoop_visits h₉ (by simp) fun _ h => .pure h.leads

theorem parseDo_visits (h : m.Calm true) :
    Visits (parseDo recurse location hint) s r m fun ok _ m' => m.Leads ok m' := by
  unfold parseDo enterBlock branchIf
  refine makeLoopBlocks_visits (Underway.start h.sound h.function) (h.current rfl)
    fun b m₁ h₁ hcurrent₁ => ?_
  refine openLoop_visits [b.next] h₁ hcurrent₁ fun before m₂ h₂ hcurrent₂ => ?_
  refine .bind (parseLoopBody_visits h₂) fun bodyEnd r₃ m₃ h₃ => ?_
  rcases bodyEnd with _ | bodyEnd
  · exact .pure h₃.leads
  refine .enter [b.merge] h₃ fun m₄ h₄ hopened =>
    .require (fun r₅ => ?_) fun _ => .pure h₄.leads
  refine .keep h₄ hopened.ne_zero fun condition r₆ m₆ h₆ hcurrent₆ => ?_
  rcases condition with _ | condition
  · exact .pure h₆.leads
  refine .require (fun r₇ => .leave rfl h₆ fun _ m₈ h₈ _ => ?_) fun _ => .pure h₆.leads
  exact closeLoop_visits h₈ (by simp) fun _ h => .pure h.leads

section

variable {c c' : Cases} {merge first : Id} {isLast : Bool}

/-- What is known between the sections of a switch statement. Where there is no block to add code
to, no label is next. -/
structure Sections (m₀ : Moment) (merge first : Id) (c : Cases) (r : Reader) (m : Moment) : Prop
    extends m₀.Underway [merge] [first] m where
  merge_eq : c.merge = merge
  later : m.current ≠ 0 → [first, m.current].Sublist m.entered
  skips : m.current ≠ 0 ∨ atLabel r = false

/-- What is known behind the last section of a switch statement. There is a block to put it into,
unless the source was broken off. -/
structure Closes (m₀ : Moment) (first : Id) (r : Reader) (m : Moment) :
    Prop extends m₀.Underway [] [first] m where
  later : m.current ≠ 0 → [first, m.current].Sublist m.entered
  broken : m.current = 0 → r.next.kind = .eof

omit [Executes recurse] in
theorem Closes.of_next {r' : Reader} (h : Closes m₀ first r m) (hnext : r'.next = r.next) :
    Closes m₀ first r' m :=
  { h with broken := hnext ▸ h.broken }

theorem parseCaseValue_visits (h : m.Calm true) :
    Visits (parseCaseValue recurse c) s r m fun c' _ m' =>
      m.Stays true m' ∧ ∀ read ∈ c', read.merge = c.merge := by
  unfold parseCaseValue
  refine (Evaluates.sequence.visits h).bind fun e r₁ m₁ h₁ => ?_
  rcases e with _ | e
  · exact .pure ⟨h₁, nofun⟩
  dsimp only
  split
  · exact .bind_read fun _ _ _ => .pure ⟨h₁, nofun⟩
  split
  · exact .bind_read fun _ _ _ => .pure ⟨h₁, fun _ hread => Option.some.inj hread ▸ rfl⟩
  · exact .pure ⟨h₁, fun _ hread => Option.some.inj hread ▸ rfl⟩

omit [Executes recurse] in
theorem addDefault_merge (h : addDefault c r = .ok (c', r')) : c'.merge = c.merge := by
  obtain ⟨-, h⟩ | ⟨-, h⟩ := ite_eq_ok.mp h
  · obtain ⟨t, r₁, -, h⟩ := bind_eq_ok.mp h
    obtain ⟨_, r₂, -, h⟩ := bind_eq_ok.mp h
    cases (pure_eq_ok.mp h).1
    rfl
  · cases (pure_eq_ok.mp h).1
    rfl

omit [Executes recurse] in
theorem endLabel_visits (h : m₀.Underway [merge] [first] m) (hmerge : c.merge = merge)
    (hcurrent : m.current ≠ 0) (hlater : [first, m.current].Sublist m.entered) :
    Visits (endLabel c) s r m fun next r' m' =>
      next.elim (Sections m₀ merge first · r' m') fun c' =>
      c'.elim (m₀.Moves m') (Sections m₀ merge first · r' m') := by
  refine .read fun next r' hnext => ?_
  simp only [endLabel, bind_eq_ok, ite_eq_ok, pure_eq_ok] at hnext
  obtain ⟨_, _, _, ⟨_, rfl, rfl⟩ | ⟨_, rfl, rfl⟩⟩ := hnext
  · exact { h with merge_eq := hmerge, later := fun _ => hlater, skips := .inl hcurrent }
  · exact h.toMoves

/-- Where there is no block to add code to, no label is read. -/
theorem parseLabels_visits (h : Sections m₀ merge first c r m) :
    Visits (parseLabels recurse c) s r m fun c' r' m' =>
      c'.elim (m₀.Moves m') (Sections m₀ merge first · r' m') := by
  unfold parseLabels
  refine .loop (Sections m₀ merge first) h fun c₁ r₁ m₁ h₁ =>
    .bind_read fun isCase r₂ hcase => ?_
  obtain ⟨rfl, hsame⟩ := accept_eq_ok hcase
  have hat (hkind : r₁.next.kind = .caseWord ∨ r₁.next.kind = .defaultWord) :
      m₁.current ≠ 0 :=
    h₁.skips.resolve_right (by rcases hkind with hkind | hkind <;> simp [atLabel, hkind])
  split
  · next hcase =>
    have hcurrent := hat (.inl (of_decide_eq_true hcase))
    refine .bind (parseCaseValue_visits (h₁.calm hcurrent)) fun c₃ r₃ m₃ hread => ?_
    obtain ⟨hstays, hmerge⟩ := hread
    have h₃ := h₁.moves hstays.toMoves hstays.dropped
    rcases c₃ with _ | c₃
    · exact .pure h₃.toMoves
    have hcurrent₃ := hstays.calm.current rfl
    exact endLabel_visits h₃ ((hmerge c₃ rfl).trans h₁.merge_eq) hcurrent₃
      (hstays.later (h₁.seen first (by simp)).1 h₁.later hcurrent₃)
  · next hnot =>
    obtain rfl := hsame (by simpa using hnot)
    refine .bind_read fun isDefault r₃ hdefault => ?_
    obtain ⟨rfl, hsame⟩ := accept_eq_ok hdefault
    split
    · next hdefault =>
      have hcurrent := hat (.inr (of_decide_eq_true hdefault))
      refine .bind_read fun c₄ r₄ hadd => ?_
      exact endLabel_visits h₁.toUnderway ((addDefault_merge hadd).trans h₁.merge_eq) hcurrent
        (h₁.later hcurrent)
    · next hnot' =>
      obtain rfl := hsame (by simpa using hnot')
      exact .pure h₁

omit [Executes recurse] in
/-- A section ends where the next one begins, or behind all of them. -/
theorem endCase_visits (h : m₀.Underway [merge] [first] m) (hmerge : c.merge = merge) :
    Visits (endCase c isLast) s r m fun c' _ m' =>
      m₀.Underway (if isLast then [] else [merge]) [first] m'
      ∧ c'.merge = merge ∧ m'.current ≠ 0 ∧ [first, m'.current].Sublist m'.entered := by
  unfold endCase makeBlock branchTo enterBlock
  refine .isInBlock h.sound (.report fun r₁ => ?_)
  cases isLast with
  | true =>
    subst hmerge
    refine .leave rfl h fun ended m₂ h₂ _ => .enter [] h₂ fun m₃ h₃ hopened => ?_
    exact .pure ⟨h₃.only (by simp), rfl, hopened.ne_zero, hopened.later first (by simp)⟩
  | false =>
    refine .make h fun next m₂ h₂ _ =>
      .leave rfl h₂ fun ended m₃ h₃ _ => .enter [merge] h₃ fun m₄ h₄ hopened => ?_
    exact .pure ⟨h₄.only (by simp), hmerge, hopened.ne_zero, hopened.later first (by simp)⟩

theorem parseSection_visits (h : Sections m₀ merge first c r m) :
    Visits (parseSection recurse c) s r m fun next r' m' =>
      next.elim (Sections m₀ merge first · r' m') fun result =>
        result.elim (m₀.Moves m') fun _ => Closes m₀ first r' m' := by
  unfold parseSection
  refine .bind_read fun isClose r₁ hclose => ?_
  obtain ⟨rfl, rfl⟩ := peek_eq_ok hclose
  split
  · refine .bind (endCase_visits h.toUnderway h.merge_eq)
      fun c' r₂ m₂ ⟨h₂, _, hcurrent, hlater⟩ => ?_
    exact .pure { h₂ with later := fun _ => hlater, broken := (absurd · hcurrent) }
  refine .proceed h.toUnderway (Executes.statement h.sound h.inFunction)
    (fun r₂ m₂ h₂ hmoves => ?_) fun _ _ h => .pure h
  have hlater := hmoves.later (h.seen first (by simp)).1 h.later
  refine .bind_read fun isCase r₃ hcase => .bind_read fun isDefault r₄ hdefault => ?_
  obtain ⟨rfl, rfl⟩ := peek_eq_ok hcase
  obtain ⟨rfl, rfl⟩ := peek_eq_ok hdefault
  split
  · refine .bind (endCase_visits h₂ h.merge_eq)
      fun c' r₅ m₅ ⟨h₅, hmerge, hcurrent, hlater⟩ => ?_
    exact .pure { h₅ with merge_eq := hmerge, later := fun _ => hlater, skips := .inl hcurrent }
  · next hat =>
    exact .pure
      { h₂ with
        merge_eq := h.merge_eq
        later := hlater
        skips := .inr (by simpa [atLabel] using hat) }

/-- Sections are read up to the brace that ends them, or the end of the source. -/
theorem parseCases_visits (h : Sections m₀ merge first c r m) :
    Visits (parseCases recurse c) s r m fun c' r' m' =>
      c'.elim (m₀.Moves m') fun _ => Closes m₀ first r' m' := by
  unfold parseCases
  refine .loop (Sections m₀ merge first) h fun c₁ r₁ m₁ h₁ =>
    .bind_read fun isEnd r₂ hend => ?_
  obtain ⟨rfl, rfl⟩ := peek_eq_ok hend
  split
  · next hend =>
      exact .pure { h₁.release with later := h₁.later, broken := fun _ => by simpa using hend }
  refine .bind (parseLabels_visits h₁) fun c₃ r₃ m₃ h₃ => ?_
  rcases c₃ with _ | c₃
  · exact .pure h₃
  · exact parseSection_visits h₃

omit [Executes recurse] in
/-- A switch statement is put into its last block. Where there is none the source was broken off, so
that the brace is missing. -/
theorem emitSwitch_visits {selector defaultLabel : Id} {cases : List (UInt32 × Id)} {valid : Bool}
    (h : Closes m₀ first r m) :
    Visits (do
        Parser.emit (.emitSwitch location selector first defaultLabel cases hint)
        return (← expect .braceClose) && valid) s r m fun ok _ m' => m₀.Leads ok m' := by
  refine .bind_emit (q := .emitSwitch location selector first defaultLabel cases hint)
    fun _ m₁ hnext hid => ?_
  by_cases hcurrent : m.current = 0
  · have hfirst := (h.seen first (by simp)).1
    have hmoves : m.Moves m₁ := by
      obtain rfl | rfl := hnext
      · exact .of_sound h.sound.note (Nat.le_refl _) rfl rfl (.inr rfl)
      · refine .of_sound (h.sound.note.splice (.inr ⟨hcurrent, hfirst, ?_⟩)) (Nat.le_refl _)
          rfl rfl (.inr rfl)
        simp [Moment.note, hcurrent]
    refine ⟨hmoves.sound, .bind_read fun isClosed r₂ hclosed => .pure ?_⟩
    obtain rfl := expect_ne_next (by simp [h.broken hcurrent]) hclosed
    exact (h.toMoves.trans hmoves).leads
  · have h₁ : m₀.Underway [] [first] m₁ := by
      have hnote : m.note first = m := by simp [Moment.note, hcurrent]
      obtain rfl | rfl := hnext
      · exact hnote.symm ▸ h.toUnderway
      · exact hnote.symm ▸ h.splice (h.later hcurrent) (Nat.le_refl _)
    exact ⟨h₁.sound, .bind_read fun _ _ _ => .pure h₁.leads⟩

theorem parseSwitchBody_visits {selector : Id} (h : m₀.Underway [merge] [first] m) :
    Visits (parseSwitchBody recurse location selector first merge hint) s r m
      fun ok _ m' => m₀.Leads ok m' := by
  unfold parseSwitchBody makeBlock enterBlock
  refine .make h fun body m₁ h₁ _ => .enter [merge] h₁ fun m₂ h₂ hopened => ?_
  have hsections : Sections m₀ merge first { merge, defaultLabel := merge } r m₂ :=
    { h₂.only (by simp) with
      merge_eq := rfl, later := fun _ => hopened.later first (by simp),
      skips := .inl hopened.ne_zero }
  refine .bind (parseCases_visits hsections) fun c r₃ m₃ h₃ => ?_
  rcases c with _ | c
  · exact .read fun ok r' hok => failAfter_eq_ok hok ▸ h₃.leads
  dsimp only
  split
  · exact .bind_read fun _ r₄ hwarning =>
      emitSwitch_visits (h₃.of_next (warning_next hwarning))
  · exact emitSwitch_visits h₃

/-- The code in front of a switch statement is put into the block behind it. -/
theorem parseSwitch_visits (h : m.Calm true) :
    Visits (parseSwitch recurse location hint) s r m fun ok _ m' => m.Leads ok m' := by
  unfold parseSwitch makeBlock
  refine .make (Underway.start h.sound h.function) fun merge m₁ h₁ hcurrent₁ => ?_
  refine .keep h₁ (hcurrent₁ ▸ h.current rfl) fun e r₂ m₂ h₂ hcurrent₂ => ?_
  rcases e with _ | e
  · exact .pure h₂.leads
  refine .keep h₂ hcurrent₂ fun selector r₃ m₃ h₃ hcurrent₃ => ?_
  rcases selector with _ | selector
  · exact .pure h₃.leads
  refine .switch h₃ hcurrent₃ fun selectorEnd m₄ h₄ _ =>
    .require (fun r₅ => ?_) fun _ => .pure h₄.leads
  exact .withReader (parseSwitchBody_visits h₄)

end

omit [Executes recurse] in
theorem inScope_visits {part : ParseM Bool}
    (hpart : ∀ {r}, Visits part s r m fun ok _ m' => m.Leads ok m') :
    Visits (inScope part) s r m fun ok _ m' => m.Leads ok m' := by
  unfold inScope
  exact .bind_read fun _ _ _ => .bind hpart fun _ _ _ hleads => .bind_read fun _ _ _ => .pure hleads

theorem parseKeywordStatement?_visits {h : Hints} (hm : m.Calm true) :
    Visits (parseKeywordStatement? recurse h) s r m
      fun keyword _ m' => keyword.elim (m = m') (m.Leads · m') := by
  unfold parseKeywordStatement?
  have hbehind {part : ParseM Bool}
      (hpart : ∀ {r}, Visits part s r m fun ok _ m' => m.Leads ok m') {r : Reader} : Visits (do
          consume
          return some (← part) : ParseM (Option Bool)) s r m
        fun keyword _ m' => keyword.elim (m = m') (m.Leads · m') :=
    .bind_read fun _ _ _ => .bind hpart fun _ _ _ hleads => .pure hleads
  refine .bind_read fun t r₁ _ => ?_
  dsimp only
  split
  · exact hbehind (parseIf_visits hm)
  · exact hbehind (parseSwitch_visits hm)
  · exact hbehind (inScope_visits (parseFor_visits hm))
  · exact hbehind (inScope_visits (parseWhile_visits hm))
  · exact hbehind (parseDo_visits hm)
  · exact hbehind (.bind_surroundings (parseJump_visits hm))
  · exact hbehind (.bind_surroundings (parseJump_visits hm))
  · exact hbehind (parseReturn_visits hm)
  · exact hbehind (.leave rfl (Underway.start hm.sound hm.function)
      fun _ _ hleft _ => .leads hleft)
  · exact .pure rfl

/-- Where there is no block to add code to, nothing is read. -/
theorem parseStatement_visits (h : m.Sound) (hm : m.inFunction = true) :
    Visits (parseStatement recurse newScope) s r m fun ok _ m' => m.Leads ok m' := by
  have hstart := Underway.start h hm
  unfold parseStatement
  refine .isInBlock h ?_
  split
  · exact .bind_read fun _ _ _ => .bind_read fun _ _ _ => .pure hstart.leads
  · next hblock =>
    have hcalm := hstart.calm (by simpa using hblock)
    refine .bind_read fun hints r₁ _ => ?_
    rcases hints with _ | hints
    · exact .pure hstart.leads
    refine .bind_read fun isBlock r₂ _ => ?_
    split
    · exact parseBlock_visits h hm
    refine .bind_read fun isEmpty r₃ _ => ?_
    split
    · exact .pure hstart.leads
    refine .isInFunction h ?_
    rw [hm]
    refine .bind (parseKeywordStatement?_visits hcalm) fun keyword r₅ m₅ hkeyword => ?_
    rcases keyword with _ | ok
    · subst hkeyword
      exact (parseSimpleStatement_stays.visits hcalm).mono fun _ _ _ hstays => hstays.leads
    · exact .pure hkeyword

end Parser
end ShaderEffect

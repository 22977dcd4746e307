import ShaderEffect.Proofs.Weave.Scene

namespace ShaderEffect

variable {β π κ : Type} [Backend β] [Inhabited π] {W : Weave π κ} {L : Loom β κ}
  {observe : Request → Generator β → Generator β → π} {g g' : Generator β}

/-- Whether entries are run, and the ids they make stay different from each other. -/
def RunsInRange (observe : Request → Generator β → Generator β → π) (g : Generator β)
    (es : List (Entry π)) (g' : Generator β) : Prop :=
  Runs observe g es g' ∧ g'.nextId ≤ 2 ^ 32

namespace Weave.Models

theorem nextId_le_of_runs (hm : W.Models L observe) {es : List (Entry π)}
    (h : Runs observe g es g') :
    g.nextId ≤ g'.nextId := by
  induction es generalizing g with
  | nil => exact Nat.le_of_eq (congrArg _ h.symm)
  | cons e es ih =>
    obtain ⟨g₁, hrun, -, hruns⟩ := h
    exact Nat.le_trans (hm.nextId_le hrun) (ih hruns)

theorem runsInRange_append (hm : W.Models L observe) {es fs : List (Entry π)} :
    RunsInRange observe g (es ++ fs) g'
      ↔ ∃ g₁, RunsInRange observe g es g₁ ∧ RunsInRange observe g₁ fs g' := by
  simp only [RunsInRange, runs_append]
  constructor
  · rintro ⟨⟨g₁, hes, hfs⟩, hid⟩
    exact ⟨g₁, ⟨hes, Nat.le_trans (hm.nextId_le_of_runs hfs) hid⟩, hfs, hid⟩
  · rintro ⟨g₁, ⟨hes, -⟩, hfs, hid⟩
    exact ⟨⟨g₁, hes, hfs⟩, hid⟩

theorem runsInRange_cons (hm : W.Models L observe) {e : Entry π} {es : List (Entry π)} :
    RunsInRange observe g (e :: es) g' ↔ ∃ g₁, e.request.handle g = .ok (e.answer, g₁)
      ∧ e.note = noteOf observe e.request g g₁
      ∧ g₁.nextId ≤ 2 ^ 32 ∧ RunsInRange observe g₁ es g' := by
  constructor
  · rintro ⟨⟨g₁, hrun, hnote, hruns⟩, hid⟩
    exact ⟨g₁, hrun, hnote, Nat.le_trans (hm.nextId_le_of_runs hruns) hid, hruns, hid⟩
  · rintro ⟨g₁, hrun, hnote, -, hruns, hid⟩
    exact ⟨⟨g₁, hrun, hnote, hruns⟩, hid⟩

end Weave.Models

theorem runsInRange_nil : RunsInRange observe g [] g' ↔ g' = g ∧ g.nextId ≤ 2 ^ 32 := by
  simp only [RunsInRange, Runs]
  constructor
  · rintro ⟨rfl, hid⟩
    exact ⟨rfl, hid⟩
  · rintro ⟨rfl, hid⟩
    exact ⟨rfl, hid⟩

/-- What is said of the last request. -/
theorem runsInRange_singleton {e : Entry π} (h : RunsInRange observe g [e] g') :
    e.request.handle g = .ok (e.answer, g') ∧ e.note = noteOf observe e.request g g' := by
  obtain ⟨⟨g₁, hrun, hnote, rfl⟩, -⟩ := h
  exact ⟨hrun, hnote⟩

omit [Inhabited π] in
theorem handle_isInFunction {answer : Bool} :
    Request.isInFunction.handle g = .ok (answer, g')
      ↔ Backend.isInFunction g = answer ∧ g = g' := by
  simp only [Request.handle, bind_eq_ok, get_eq_ok, pure_eq_ok]
  grind

omit [Inhabited π] in
theorem handle_isInBlock {answer : Bool} :
    Request.isInBlock.handle g = .ok (answer, g') ↔ g.isInBlock = answer ∧ g = g' := by
  simp only [Request.handle, bind_eq_ok, get_eq_ok, pure_eq_ok]
  grind

/-- Outside of functions nothing is evaluated in blocks of its own: a short circuit asks for a
function first. What holds of all plain requests therefore holds of an evaluation there. -/
theorem evaluation_outside {R : Generator β → Generator β → Prop}
    (IsOutside : Generator β → Prop) (hrefl : ∀ g, R g g)
    (htrans : ∀ {g g₁ g'}, R g g₁ → R g₁ g' → R g g')
    (hplain : ∀ {r : Request} {a : r.Answer} {g g'},
      r.isPlain = true → r.handle g = .ok (a, g') → R g g')
    (hstays : ∀ {g g'}, R g g' → IsOutside g → IsOutside g')
    (hasks : ∀ {g : Generator β}, IsOutside g → Backend.isInFunction g = false)
    {t : Evaluation π} (hruns : Runs observe g t.entries g') (hg : IsOutside g) : R g g' := by
  have hnot {es : List (Entry π)} {g g' : Generator β}
      (hruns : Runs observe g (.quiet .isInFunction true :: es) g') (hg : IsOutside g) : False := by
    obtain ⟨g₁, hask, -⟩ := hruns
    have htrue : Backend.isInFunction g = true := (handle_isInFunction.mp hask).1
    rw [hasks hg] at htrue
    cases htrue
  induction t generalizing g g' with
  | nothing =>
    obtain rfl := hruns
    exact hrefl _
  | step s =>
    obtain ⟨g₁, hrun, -, rfl⟩ := hruns
    exact hplain s.property hrun
  | andThen x y ihx ihy =>
    obtain ⟨g₁, hx, hy⟩ := runs_append.mp hruns
    have hfirst := ihx hx hg
    exact htrans hfirst (ihy hy (hstays hfirst hg))
  | folded b e t =>
    simp only [Evaluation.entries, Parser.Branches.opening, List.cons_append] at hruns
    exact (hnot hruns hg).elim
  | circuit c t =>
    simp only [Evaluation.entries, Parser.Branches.opening, List.cons_append] at hruns
    exact (hnot hruns hg).elim
  | choice c yes no =>
    simp only [Evaluation.entries, Parser.Arms.opening, List.cons_append] at hruns
    exact (hnot hruns hg).elim

/-- Ids that are made are different from each other, and from those made before. -/
theorem Weave.Models.made_spec (hm : W.Models L observe) {es : List (Entry π)}
    (h : RunsInRange observe g es g') :
    (made es).Nodup ∧ ∀ id ∈ made es, g.nextId ≤ id.toNat := by
  induction es generalizing g with
  | nil => exact ⟨List.nodup_nil, nofun⟩
  | cons e es ih =>
    obtain ⟨g₁, hrun, -, hid, hruns⟩ := hm.runsInRange_cons.mp h
    obtain ⟨hnodup, hrange⟩ := ih hruns
    obtain ⟨r, answer, note⟩ := e
    cases r with
    | makeId =>
      simp only [Request.handle, Generator.makeId, bind_eq_ok, get_eq_ok, set_eq_ok,
        pure_eq_ok] at hrun
      obtain ⟨_, _, ⟨rfl, rfl⟩, _, _, rfl, rfl, rfl⟩ := hrun
      have hid : (UInt32.ofNat g.nextId).toNat = g.nextId := UInt32.toNat_ofNat_of_lt' hid
      refine ⟨List.nodup_cons.mpr ⟨fun hmem => ?_, hnodup⟩, fun id hmem => ?_⟩
      · exact Nat.not_succ_le_self _ (hid ▸ hrange _ hmem)
      · obtain rfl | hmem := List.mem_cons.mp hmem
        · exact Nat.le_of_eq hid.symm
        · exact Nat.le_of_succ_le (hrange id hmem)
    | _ => exact ⟨hnodup, fun id hmem => Nat.le_trans (hm.nextId_le hrun) (hrange id hmem)⟩

/-- Whether a block is added to, or was the last that was left. -/
def Generator.IsAt (g : Generator β) (b : Id) (ended : Bool) : Prop :=
  if ended then g.currentBlock = 0 ∧ g.lastBlock = b else g.currentBlock = b

omit [Inhabited π] in
theorem Evaluation.tip_of_not_moves {t : Evaluation π} (b : Id) (h : t.moves = false) :
    t.tip b = b := by
  induction t with
  | andThen x y ihx ihy =>
    simp only [moves, Bool.or_eq_false_iff] at h
    simp only [tip, ihx h.1, ihy h.2]
  | circuit | choice => cases h
  | _ => rfl

theorem Weave.run_of_not_moves (W : Weave π κ) {t : Evaluation π} (k : κ)
    (h : t.moves = false) :
    W.run k t = W.remainder k t := by
  induction t generalizing k with
  | andThen x y ihx ihy =>
    simp only [Evaluation.moves, Bool.or_eq_false_iff] at h
    simp only [run, remainder, h.1, Bool.false_eq_true, if_false, ihx _ h.1, ihy _ h.2]
  | circuit | choice => cases h
  | _ => rfl

namespace Scene

variable {cells : List (Cell κ)} {spare : List Id} {b : Id} {k : κ} {names : List Id}

theorem steps (hm : W.Models L observe) (ss : List (Step π))
    (hruns : RunsInRange observe g (Step.entries ss) g')
    (h : Scene W L g (⟨b, k, names⟩ :: cells) spare) (hg : g.currentBlock = b) :
    g'.currentBlock = b ∧ Scene W L g' (⟨b, W.addSteps k ss, names⟩ :: cells) spare := by
  induction ss generalizing g k with
  | nil =>
    obtain ⟨rfl, -⟩ := runsInRange_nil.mp hruns
    exact ⟨hg, h⟩
  | cons s ss ih =>
    obtain ⟨g₁, hrun, hnote, -, hruns⟩ := hm.runsInRange_cons.mp hruns
    obtain ⟨hg₁, h₁⟩ := h.plain hm hg s.property hrun hnote
    exact ih hruns h₁ hg₁

/-- Behind the question whether a function is open, all is as it was. -/
theorem thenAsk (hm : W.Models L observe) {answer : Bool} {es : List (Entry π)}
    (hruns : RunsInRange observe g (.quiet .isInFunction answer :: es) g') :
    RunsInRange observe g es g' := by
  obtain ⟨g₁, hask, -, -, hruns⟩ := hm.runsInRange_cons.mp hruns
  obtain ⟨-, rfl⟩ := handle_isInFunction.mp hask
  exact hruns

theorem thenSet (hm : W.Models L observe) {id ended : Id} {es : List (Entry π)}
    (hruns : RunsInRange observe g (.quiet (.setBlock id) ended :: es) g')
    (h : Scene W L g cells spare) :
    ended = g.currentBlock ∧ ∃ g₁, g₁.currentBlock = id
      ∧ RunsInRange observe g₁ es g' ∧ Scene W L g₁ cells spare := by
  obtain ⟨g₁, hset, -, -, hruns⟩ := hm.runsInRange_cons.mp hruns
  obtain ⟨hended, hg₁, -, h₁⟩ := h.setBlock hset
  exact ⟨hended, g₁, hg₁, hruns, h₁⟩

theorem thenMake (hm : W.Models L observe) {id : Id} {es : List (Entry π)}
    (hruns : RunsInRange observe g (.quiet .makeId id :: es) g') (h : Scene W L g cells spare) :
    ∃ g₁, g₁.currentBlock = g.currentBlock
      ∧ RunsInRange observe g₁ es g' ∧ Scene W L g₁ cells (id :: spare) := by
  obtain ⟨g₁, hmake, -, hid, hruns⟩ := hm.runsInRange_cons.mp hruns
  obtain ⟨hg₁, -, h₁⟩ := h.makeId hmake hid
  exact ⟨g₁, hg₁, hruns, h₁⟩

theorem thenEnter (hm : W.Models L observe) {id : Id} {es : List (Entry π)} (front : List Id)
    (hruns : RunsInRange observe g (.quiet (.enterBlock id) () :: es) g')
    (h : Scene W L g cells (front ++ id :: spare)) :
    ∃ g₁, g₁.currentBlock = id ∧ RunsInRange observe g₁ es g'
      ∧ Scene W L g₁ (⟨id, W.enter id, [id]⟩ :: cells) (front ++ spare) := by
  obtain ⟨g₁, henter, -, -, hruns⟩ := hm.runsInRange_cons.mp hruns
  obtain ⟨hg₁, h₁⟩ := h.enter hm front henter
  exact ⟨g₁, hg₁, hruns, h₁⟩

theorem thenSteps (hm : W.Models L observe) (ss : List (Step π)) {es : List (Entry π)}
    (hruns : RunsInRange observe g (Step.entries ss ++ es) g')
    (h : Scene W L g (⟨b, k, names⟩ :: cells) spare) (hg : g.currentBlock = b) :
    ∃ g₁, g₁.currentBlock = b ∧ RunsInRange observe g₁ es g'
      ∧ Scene W L g₁ (⟨b, W.addSteps k ss, names⟩ :: cells) spare := by
  obtain ⟨g₁, hsteps, hruns⟩ := hm.runsInRange_append.mp hruns
  obtain ⟨hg₁, h₁⟩ := h.steps hm ss hsteps hg
  exact ⟨g₁, hg₁, hruns, h₁⟩

theorem goOnUnless (hm : W.Models L observe) (ended : Bool) {target last next : Id}
    (front : List Id) (hruns : RunsInRange observe g (ShaderEffect.goOn target last next) g')
    (h : Scene W L g (⟨b, k, names⟩ :: cells) (front ++ next :: spare)) (hg : g.IsAt b ended) :
    last = b ∧ g'.currentBlock = next ∧ Scene W L g'
      (⟨next, W.enter next, [next]⟩ :: ⟨last, W.goOnUnless ended k target, names⟩ :: cells)
      (front ++ spare) := by
  obtain ⟨g₁, hleave, -, -, hruns⟩ := hm.runsInRange_cons.mp hruns
  obtain ⟨henter, -⟩ := runsInRange_singleton hruns
  cases ended with
  | false =>
    obtain ⟨rfl, -, -, h₁⟩ := h.leave hm (e := .goOn target) hg hleave
    obtain ⟨hg₂, h₂⟩ := h₁.enter hm front henter
    exact ⟨rfl, hg₂, h₂⟩
  | true =>
    obtain ⟨hnone, rfl⟩ := hg
    obtain ⟨rfl, rfl⟩ := hm.stay hleave hnone
    obtain ⟨hg₂, h₂⟩ := h.enter hm front henter
    exact ⟨rfl, hg₂, h₂⟩

theorem goOn (hm : W.Models L observe) {target last next : Id} (front : List Id)
    (hruns : RunsInRange observe g (ShaderEffect.goOn target last next) g')
    (h : Scene W L g (⟨b, k, names⟩ :: cells) (front ++ next :: spare))
    (hg : g.currentBlock = b) :
    last = b ∧ g'.currentBlock = next
      ∧ Scene W L g' (⟨next, W.enter next, [next]⟩
        :: ⟨last, W.goOn k target, names⟩ :: cells) (front ++ spare) :=
  h.goOnUnless hm false front hruns hg

theorem goOnIf (hm : W.Models L observe) {condition yes no last next : Id} (front : List Id)
    (hruns : RunsInRange observe g (ShaderEffect.goOnIf condition yes no last next) g')
    (h : Scene W L g (⟨b, k, names⟩ :: cells) (front ++ next :: spare))
    (hg : g.currentBlock = b) :
    last = b ∧ g'.currentBlock = next
      ∧ Scene W L g' (⟨next, W.enter next, [next]⟩
        :: ⟨last, W.goOnIf k condition yes no, names⟩ :: cells) (front ++ spare) := by
  obtain ⟨g₁, hleave, -, -, hruns⟩ := hm.runsInRange_cons.mp hruns
  obtain ⟨henter, -⟩ := runsInRange_singleton hruns
  obtain ⟨rfl, -, -, h₁⟩ := h.leave hm (e := .branchIf condition yes no) hg hleave
  obtain ⟨hg₂, h₂⟩ := h₁.enter hm front henter
  exact ⟨rfl, hg₂, h₂⟩

/-- The block that a right operand is read in has been entered. -/
theorem opening (hm : W.Models L observe) {c : Parser.Branches}
    (hruns : RunsInRange observe g c.opening g')
    (h : Scene W L g (⟨b, k, names⟩ :: cells) spare) (hg : g.currentBlock = b) :
    c.left = b ∧ g'.currentBlock = c.right
      ∧ Scene W L g' (⟨c.right, W.enter c.right, [c.right]⟩ :: ⟨b, k, names⟩ :: cells)
        (c.merge :: spare) := by
  unfold Parser.Branches.opening at hruns
  obtain ⟨hleft, g₁, -, hruns, h₁⟩ := h.thenSet hm (thenAsk hm hruns)
  obtain ⟨g₂, -, hruns, h₂⟩ := h₁.thenMake hm hruns
  obtain ⟨g₃, -, hruns, h₃⟩ := h₂.thenMake hm hruns
  obtain ⟨g₄, hg₄, hruns, h₄⟩ := h₃.thenEnter hm [c.merge] hruns
  obtain ⟨rfl, -⟩ := runsInRange_nil.mp hruns
  exact ⟨hleft.trans hg, hg₄, h₄⟩

/-- What is left in the block in which an evaluation began, if it ended in another. -/
def leftover (W : Weave π κ) (b : Id) (k : κ) (t : Evaluation π) : List (Cell κ) :=
  if t.moves then [⟨b, W.remainder k t, []⟩] else []

omit [Backend β] in
/-- The block in which an evaluation began. -/
theorem operand {t : Evaluation π} {names' : List Id}
    (h : Scene W L g (⟨t.tip b, W.run k t, names'⟩ :: leftover W b k t ++ cells) spare) :
    Scene W L g (⟨b, W.remainder k t, []⟩ :: cells) spare := by
  by_cases hmoves : t.moves = true
  · rw [leftover, if_pos hmoves] at h
    exact h.drop []
  · rw [leftover, if_neg hmoves, t.tip_of_not_moves b (by simpa using hmoves),
      W.run_of_not_moves k (by simpa using hmoves)] at h
    exact h.rename (List.nil_subset _)

/-- The short circuit has been generated once its right operand has been read. -/
theorem closing (hm : W.Models L observe) {c : Circuit π} {right : κ}
    (hruns : RunsInRange observe g c.closing g')
    (h : Scene W L g (⟨c.right, right, []⟩ :: ⟨c.left, k, names⟩ :: cells)
      (c.merge :: spare)) (hleft : c.left ∈ names) :
    g'.currentBlock = c.merge ∧ Scene W L g'
      (⟨c.merge, W.phi c.merge c.note (W.enter c.merge) (W.circuitTest c k)
          (some (W.goOn (W.addSteps right c.loads) c.merge)) none, names ++ [c.merge]⟩
        :: ⟨c.left, W.rest (W.circuitTest c k), []⟩ :: cells) spare := by
  simp only [Circuit.closing, List.append_assoc, List.cons_append] at hruns
  obtain ⟨-, g₁, hg₁, hruns, h₁⟩ := h.thenSet hm hruns
  obtain ⟨g₂, hg₂, hruns, h₂⟩ := (h₁.bring [_]).thenSteps hm c.tests hruns hg₁
  obtain ⟨g₃, hbranch, -, -, hruns⟩ := hm.runsInRange_cons.mp hruns
  obtain ⟨-, -, -, h₃⟩ :=
    h₂.leave hm (e := .branchIf c.condition c.right c.merge) hg₂ hbranch
  obtain ⟨-, g₄, hg₄, hruns, h₄⟩ := h₃.thenSet hm hruns
  obtain ⟨g₅, hg₅, hruns, h₅⟩ := (h₄.bring [_]).thenSteps hm c.loads hruns hg₄
  obtain ⟨g₆, hleave, -, -, hruns⟩ := hm.runsInRange_cons.mp hruns
  obtain ⟨hend, -, -, h₆⟩ := h₅.leave hm (e := .goOn c.merge) hg₅ hleave
  obtain ⟨g₇, hg₇, hruns, h₇⟩ := h₆.thenEnter hm [] hruns
  obtain ⟨hphi, hnote⟩ := runsInRange_singleton hruns
  rw [show c.rightEnd = _ from hend] at hphi hnote
  have h₈ := h₇.circuit hm hg₇ (List.mem_singleton.mpr rfl) hleft hphi
  rw [show c.note = _ from hnote]
  exact h₈

/-- The block of the first arm has been entered. -/
theorem openingArms (hm : W.Models L observe) {c : Parser.Arms}
    (hruns : RunsInRange observe g c.opening g')
    (h : Scene W L g (⟨b, k, names⟩ :: cells) spare) (hg : g.currentBlock = b) :
    c.condition = b ∧ g'.currentBlock = c.yes
      ∧ Scene W L g' (⟨c.yes, W.enter c.yes, [c.yes]⟩ :: ⟨b, k, names⟩ :: cells)
        (c.no :: c.merge :: spare) := by
  unfold Parser.Arms.opening at hruns
  obtain ⟨g₁, hg₁, hruns, h₁⟩ := h.thenMake hm (thenAsk hm hruns)
  obtain ⟨hcondition, g₂, -, hruns, h₂⟩ := h₁.thenSet hm hruns
  obtain ⟨g₃, -, hruns, h₃⟩ := h₂.thenMake hm hruns
  obtain ⟨g₄, -, hruns, h₄⟩ := h₃.thenMake hm hruns
  obtain ⟨g₅, hg₅, hruns, h₅⟩ := h₄.thenEnter hm [c.no] hruns
  obtain ⟨rfl, -⟩ := runsInRange_nil.mp hruns
  exact ⟨hcondition.trans (hg₁.trans hg), hg₅, h₅⟩

/-- The block of the second arm has been entered. -/
theorem between (hm : W.Models L observe) {c : Choice π}
    (hruns : RunsInRange observe g c.between g') (h : Scene W L g cells (c.no :: spare)) :
    g'.currentBlock = c.no ∧ Scene W L g' (⟨c.no, W.enter c.no, [c.no]⟩ :: cells) spare := by
  unfold Choice.between at hruns
  obtain ⟨-, g₁, -, hruns, h₁⟩ := h.thenSet hm hruns
  obtain ⟨g₂, hg₂, hruns, h₂⟩ := h₁.thenEnter hm [] hruns
  obtain ⟨rfl, -⟩ := runsInRange_nil.mp hruns
  exact ⟨hg₂, h₂⟩

/-- The conditional expression has been generated once both arms have been read. -/
theorem closingArms (hm : W.Models L observe) {c : Choice π} {yes no : κ}
    (hruns : RunsInRange observe g c.closing g')
    (h : Scene W L g (⟨c.no, no, []⟩ :: ⟨c.yes, yes, []⟩ :: ⟨c.condition, k, names⟩
      :: cells) (c.merge :: spare)) (hcondition : c.condition ∈ names) :
    g'.currentBlock = c.merge ∧ Scene W L g'
      (⟨c.merge, W.phi c.merge c.note (W.enter c.merge) (W.choiceTest c k)
          (some (W.goOn (W.addSteps yes c.yesLoads) c.merge))
          (some (W.goOn (W.addSteps no c.noLoads) c.merge)), names ++ [c.merge]⟩
        :: ⟨c.condition, W.rest (W.choiceTest c k), []⟩ :: cells) spare := by
  simp only [Choice.closing, List.append_assoc, List.cons_append] at hruns
  obtain ⟨-, g₁, hg₁, hruns, h₁⟩ := h.thenSet hm hruns
  obtain ⟨g₂, hg₂, hruns, h₂⟩ := (h₁.bring [_, _]).thenSteps hm c.tests hruns hg₁
  obtain ⟨g₃, hbranch, -, -, hruns⟩ := hm.runsInRange_cons.mp hruns
  obtain ⟨-, -, -, h₃⟩ := h₂.leave hm (e := .branchIf c.value c.yes c.no) hg₂ hbranch
  obtain ⟨-, g₄, hg₄, hruns, h₄⟩ := h₃.thenSet hm hruns
  obtain ⟨g₅, hg₅, hruns, h₅⟩ := (h₄.bring [_, _]).thenSteps hm c.yesLoads hruns hg₄
  obtain ⟨g₆, hleaveYes, -, -, hruns⟩ := hm.runsInRange_cons.mp hruns
  obtain ⟨hyesEnd, -, -, h₆⟩ := h₅.leave hm (e := .goOn c.merge) hg₅ hleaveYes
  obtain ⟨-, g₇, hg₇, hruns, h₇⟩ := h₆.thenSet hm hruns
  obtain ⟨g₈, hg₈, hruns, h₈⟩ := (h₇.bring [_, _]).thenSteps hm c.noLoads hruns hg₇
  obtain ⟨g₉, hleaveNo, -, -, hruns⟩ := hm.runsInRange_cons.mp hruns
  obtain ⟨hnoEnd, -, -, h₉⟩ := h₈.leave hm (e := .goOn c.merge) hg₈ hleaveNo
  obtain ⟨g₁₀, hg₁₀, hruns, h₁₀⟩ := h₉.thenEnter hm [] hruns
  obtain ⟨hphi, hnote⟩ := runsInRange_singleton hruns
  rw [show c.yesEnd = _ from hyesEnd, show c.noEnd = _ from hnoEnd] at hphi hnote
  have h₁₁ := h₁₀.choice hm hg₁₀ (List.mem_singleton.mpr rfl) hcondition hphi
  rw [show c.note = _ from hnote]
  exact h₁₁

/-- Running an evaluation weaves its code. -/
theorem evaluation (hm : W.Models L observe) (t : Evaluation π)
    (hruns : RunsInRange observe g t.entries g')
    (h : Scene W L g (⟨b, k, names⟩ :: cells) spare) (hg : g.currentBlock = b)
    (hb : b ∈ names) :
    g'.currentBlock = t.tip b ∧ ∃ names', names ⊆ names' ∧ t.tip b ∈ names'
      ∧ Scene W L g' (⟨t.tip b, W.run k t, names'⟩ :: leftover W b k t ++ cells) spare := by
  induction t generalizing g g' b k names cells spare with
  | nothing =>
    obtain ⟨rfl, -⟩ := runsInRange_nil.mp hruns
    exact ⟨hg, names, List.Subset.refl _, hb, h⟩
  | step s =>
    simp only [Evaluation.entries, hm.runsInRange_cons, runsInRange_nil] at hruns
    obtain ⟨g₁, hrun, hnote, -, rfl, -⟩ := hruns
    obtain ⟨hg₁, h₁⟩ := h.plain hm hg s.property hrun hnote
    exact ⟨hg₁, names, List.Subset.refl _, hb, h₁⟩
  | andThen x y ihx ihy =>
    obtain ⟨g₁, hx, hy⟩ := hm.runsInRange_append.mp hruns
    obtain ⟨hg₁, names₁, hsub₁, htip₁, h₁⟩ := ihx hx h hg hb
    obtain ⟨hg', names', hsub', htip', h'⟩ := ihy hy h₁ hg₁ htip₁
    refine ⟨hg', names', List.Subset.trans hsub₁ hsub', htip', ?_⟩
    -- What is left of the block where the evaluation began is left by the first part that moves
    -- away from it.
    by_cases hmoves : x.moves = true
    · have hleft : leftover W b k (.andThen x y) = leftover W b k x := by
        simp only [leftover, Evaluation.moves, hmoves, Bool.true_or, if_true, Weave.remainder]
      rw [hleft]
      exact h'.sublist (((List.sublist_append_right _ _).cons_cons _))
    · have hmoves : x.moves = false := by simpa using hmoves
      have hleft : leftover W b k (.andThen x y) = leftover W (x.tip b) (W.run k x) y := by
        simp only [leftover, Evaluation.moves, hmoves, Bool.false_or, Weave.remainder,
          Bool.false_eq_true, if_false, x.tip_of_not_moves b hmoves, W.run_of_not_moves k hmoves]
      have hnone : leftover W b k x = [] := by
        simp only [leftover, hmoves, Bool.false_eq_true, if_false]
      rw [hleft]
      rwa [hnone] at h'
  | folded c operandEnd t ih =>
    simp only [Evaluation.entries, hm.runsInRange_append, hm.runsInRange_cons,
      runsInRange_nil] at hruns
    obtain ⟨g₁, ⟨g₂, hopening, ht⟩, g₃, hset, -, -, rfl, -⟩ := hruns
    obtain ⟨hleft, hg₂, h₂⟩ := h.opening hm hopening hg
    obtain ⟨-, names₁, -, -, h₁⟩ := ih ht h₂ hg₂ (List.mem_singleton.mpr rfl)
    obtain ⟨-, hg₃, -, h₃⟩ := h₁.operand.setBlock hset
    exact ⟨hg₃.trans hleft, names, List.Subset.refl _, hb, (h₃.drop []).forget⟩
  | circuit c t ih =>
    simp only [Evaluation.entries, hm.runsInRange_append] at hruns
    obtain ⟨g₁, ⟨g₂, hopening, ht⟩, hclosing⟩ := hruns
    obtain ⟨rfl, hg₂, h₂⟩ := h.opening hm hopening hg
    obtain ⟨-, names₁, -, -, h₁⟩ := ih ht h₂ hg₂ (List.mem_singleton.mpr rfl)
    obtain ⟨hg', h'⟩ := h₁.operand.closing hm hclosing hb
    exact ⟨hg', names ++ [c.merge], List.subset_append_left _ _, by simp [Evaluation.tip], h'⟩
  | choice c yes no ihy ihn =>
    simp only [Evaluation.entries, hm.runsInRange_append] at hruns
    obtain ⟨g₁, ⟨g₂, ⟨g₃, ⟨g₄, hopening, hyes⟩, hbetween⟩, hno⟩,
        hclosing⟩ := hruns
    obtain ⟨rfl, hg₄, h₄⟩ := h.openingArms hm hopening hg
    obtain ⟨-, names₁, -, -, h₁⟩ := ihy hyes h₄ hg₄ (List.mem_singleton.mpr rfl)
    obtain ⟨hg₃, h₃⟩ := h₁.operand.between hm hbetween
    obtain ⟨-, names₂, -, -, h₂⟩ := ihn hno h₃ hg₃ (List.mem_singleton.mpr rfl)
    obtain ⟨hg', h'⟩ := h₂.operand.closingArms hm hclosing hb
    exact ⟨hg', names ++ [c.merge], List.subset_append_left _ _, by simp [Evaluation.tip], h'⟩

/-- Running an evaluation weaves its code. What is left where it began does not matter. -/
theorem value (hm : W.Models L observe) {t : Evaluation π}
    (hruns : RunsInRange observe g t.entries g')
    (h : Scene W L g (⟨b, k, names⟩ :: cells) spare) (hg : g.currentBlock = b)
    (hb : b ∈ names) :
    g'.currentBlock = t.tip b ∧ ∃ names', names ⊆ names' ∧ t.tip b ∈ names'
      ∧ Scene W L g' (⟨t.tip b, W.run k t, names'⟩ :: cells) spare := by
  obtain ⟨hg', names', hsub, htip, h'⟩ := h.evaluation hm t hruns hg hb
  exact ⟨hg', names', hsub, htip, h'.sublist ((List.sublist_append_right _ _).cons_cons _)⟩

omit [Backend β] in
/-- The block in which a loop finds the code in front of its next round. -/
theorem nextBlock {t : Evaluation π} {next last : Id} {ending : Ending} {c : Cell κ}
    (hlast : last = t.tip next) (hnext : next ∈ names)
    (h : Scene W L g (c :: ⟨last, W.leave (W.run (W.enter next) t) ending default, names⟩
      :: leftover W next (W.enter next) t ++ cells) spare) :
    ∃ block names',
      Scene W L g (c :: ⟨block, W.nextCode t next ending, names'⟩ :: cells) spare
      ∧ if W.follows = true then next ∈ names' else block = next := by
  by_cases hmoves : t.moves = true
  · by_cases hW : W.follows = true
    · refine ⟨last, names, ?_, by rwa [if_pos hW]⟩
      simp only [Weave.nextCode, hmoves, hW, Bool.not_true, Bool.and_false,
        Bool.false_eq_true, if_false]
      exact h.sublist (((List.sublist_append_right _ _).cons_cons _).cons_cons _)
    · refine ⟨next, [], ?_, by rw [if_neg hW]⟩
      simp only [leftover, hmoves, if_true] at h
      simp only [Weave.nextCode, hmoves, hW, Bool.true_and, Bool.not_false, if_true]
      exact h.drop [_]
  · have hmoves : t.moves = false := by simpa using hmoves
    simp only [leftover, hmoves, Bool.false_eq_true, if_false] at h
    refine ⟨last, names, ?_, ?_⟩
    · simp only [Weave.nextCode, hmoves, Bool.false_and, Bool.false_eq_true, if_false]
      exact h
    · split
      · exact hnext
      · rw [hlast, t.tip_of_not_moves next hmoves]

/-- A statement leaves the blocks of a scene alone other than the one it begins in, and ends in a
block that holds its code. Nothing is generated behind a part of it that left its block for good. -/
def Weaves (W : Weave π κ) (L : Loom β κ)
    (observe : Request → Generator β → Generator β → π) (t : Statement π) :
    Prop :=
  ∀ {g g' : Generator β} {cells : List (Cell κ)} {spare : List Id} {b : Id} {k : κ}
    {names : List Id}, RunsInRange observe g t.entries g' →
      Scene W L g (⟨b, k, names⟩ :: cells) spare →
        g.currentBlock = b →
          b ∈ names → t.Live ∧ g'.IsAt (t.tip b) t.ends
            ∧ ∃ names', names ⊆ names' ∧ t.tip b ∈ names'
              ∧ Scene W L g' (⟨t.tip b, W.flow k t, names'⟩ :: cells) spare

theorem statementStart (hm : W.Models L observe) {es : List (Entry π)}
    (hruns : RunsInRange observe g (ShaderEffect.statementStart ++ es) g') :
    RunsInRange observe g es g' := by
  simp only [ShaderEffect.statementStart, List.cons_append, hm.runsInRange_cons,
    List.nil_append] at hruns
  obtain ⟨g₁, hask, -, -, g₂, hask', -, -, hruns⟩ := hruns
  obtain ⟨-, rfl⟩ := handle_isInBlock.mp hask
  obtain ⟨-, rfl⟩ := handle_isInFunction.mp hask'
  exact hruns

theorem weaves_leave (hm : W.Models L observe) (value : Evaluation π) (exit : Exit π) :
    Weaves W L observe (.leave value exit) := by
  intro g g' cells spare b k names hruns h hg hb
  simp only [Statement.entries, List.append_assoc] at hruns
  have hruns := statementStart hm hruns
  simp only [hm.runsInRange_append, hm.runsInRange_cons, runsInRange_nil] at hruns
  obtain ⟨g₁, hvalue, g₂, hexit, hnote, -, rfl, -⟩ := hruns
  obtain ⟨hg₁, names', hsub, htip, h₁⟩ := h.value hm hvalue hg hb
  suffices hleave : g'.currentBlock = 0 ∧ g'.lastBlock = value.tip b ∧ Scene W L g'
      (⟨value.tip b, W.leave (W.run k value) exit.ending exit.note, names'⟩ :: cells) spare from
    ⟨trivial, ⟨hleave.1, hleave.2.1⟩, names', hsub, htip, hleave.2.2⟩
  cases exit with
  | discard ended note =>
    obtain ⟨-, hg₂, hlast, h₂⟩ := h₁.leave hm (e := .kill) hg₁ hexit
    exact ⟨hg₂, hlast, by rw [show (Exit.discard ended note).note = _ from hnote]; exact h₂⟩
  | giveBack value ended note =>
    obtain ⟨-, hg₂, hlast, h₂⟩ := h₁.leave hm (e := .giveBack value) hg₁ hexit
    exact ⟨hg₂, hlast, by
      rw [show (Exit.giveBack value ended note).note = _ from hnote]; exact h₂⟩
  | jump target ended flow =>
    obtain ⟨-, hg₂, hlast, h₂⟩ := h₁.leave hm (e := .branch target flow) hg₁ hexit
    exact ⟨hg₂, hlast, h₂⟩

theorem weaves_branch (hm : W.Models L observe) (s : Selection π) (test : Evaluation π)
    {yes no : Statement π} (hyes : Weaves W L observe yes) (hno : Weaves W L observe no) :
    Weaves W L observe (.branch s test yes no) := by
  intro g g' cells spare b k names hruns h hg hb
  simp only [Statement.entries, List.append_assoc, List.cons_append, List.nil_append] at hruns
  obtain ⟨g₁, hg₁, hruns, h₁⟩ := h.thenMake hm (statementStart hm hruns)
  obtain ⟨g₂, hg₂, hruns, h₂⟩ := h₁.thenMake hm hruns
  obtain ⟨g₃, hg₃, hruns, h₃⟩ := h₂.thenMake hm hruns
  obtain ⟨g₄, htest, hruns⟩ := hm.runsInRange_append.mp hruns
  obtain ⟨hg₄, names₄, hsub, htip, h₄⟩ :=
    h₃.value hm htest (hg₃.trans (hg₂.trans (hg₁.trans hg))) hb
  obtain ⟨g₅, hyesStart, hruns⟩ := hm.runsInRange_append.mp hruns
  obtain ⟨hcondition, hg₅, h₅⟩ := h₄.goOnIf hm [s.merge, s.no] hyesStart hg₄
  obtain ⟨g₆, hyesRuns, hruns⟩ := hm.runsInRange_append.mp hruns
  obtain ⟨hliveYes, hg₆, names₆, -, -, h₆⟩ :=
    hyes hyesRuns h₅ hg₅ (List.mem_singleton.mpr rfl)
  obtain ⟨g₇, hnoStart, hruns⟩ := hm.runsInRange_append.mp hruns
  obtain ⟨hyesEnd, hg₇, h₇⟩ := h₆.goOnUnless hm _ [s.merge] hnoStart hg₆
  obtain ⟨g₈, hnoRuns, hruns⟩ := hm.runsInRange_append.mp hruns
  obtain ⟨hliveNo, hg₈, names₈, -, -, h₈⟩ :=
    hno hnoRuns h₇ hg₇ (List.mem_singleton.mpr rfl)
  obtain ⟨g₉, hmergeStart, hruns⟩ := hm.runsInRange_append.mp hruns
  obtain ⟨hnoEnd, hg₉, h₉⟩ := h₈.goOnUnless hm _ [] hmergeStart hg₈
  obtain ⟨hif, hnote⟩ := runsInRange_singleton hruns
  obtain ⟨hg₁₀, h₁₀⟩ :=
    h₉.ifElse hm hg₉ (List.mem_singleton.mpr rfl) (hcondition ▸ htip) hif hnote
  exact ⟨⟨hliveYes, hliveNo⟩, hg₁₀, names₄ ++ [s.merge],
    List.subset_append_of_subset_left _ hsub, by simp [Statement.tip], h₁₀⟩

/-- The blocks of a loop are made. -/
theorem loopMakes (hm : W.Models L observe) {l : Looping π}
    (hruns : RunsInRange observe g l.makes g') (h : Scene W L g cells spare) :
    g'.currentBlock = g.currentBlock
      ∧ Scene W L g' cells (l.body :: l.next :: l.header :: l.merge :: spare) := by
  unfold Looping.makes at hruns
  obtain ⟨g₁, hg₁, hruns, h₁⟩ := h.thenMake hm hruns
  obtain ⟨g₂, hg₂, hruns, h₂⟩ := h₁.thenMake hm hruns
  obtain ⟨g₃, hg₃, hruns, h₃⟩ := h₂.thenMake hm hruns
  obtain ⟨g₄, hg₄, hruns, h₄⟩ := h₃.thenMake hm hruns
  obtain ⟨rfl, -⟩ := runsInRange_nil.mp hruns
  exact ⟨hg₄.trans (hg₃.trans (hg₂.trans hg₁)), h₄⟩

/-- A loop is entered, and so is its first block. -/
theorem loopOpens (hm : W.Models L observe) {l : Looping π} {first : Id} (front : List Id)
    (hruns : RunsInRange observe g (l.opens first) g')
    (h : Scene W L g (⟨b, k, names⟩ :: cells) (first :: front ++ l.header :: spare))
    (hg : g.currentBlock = b) :
    l.before = b ∧ g'.currentBlock = first ∧ Scene W L g' (⟨first, W.enter first, [first]⟩
      :: ⟨l.header, W.goOn (W.enter l.header) first, [l.header]⟩
      :: ⟨l.before, W.goOn k l.header, names⟩ :: cells)
      (front ++ spare) := by
  simp only [Looping.opens, hm.runsInRange_append] at hruns
  obtain ⟨g₁, hheader, hfirst⟩ := hruns
  obtain ⟨hbefore, hg₁, h₁⟩ := h.goOn hm (first :: front) hheader hg
  obtain ⟨hheaderEnd, hg₂, h₂⟩ := h₁.goOn hm [] hfirst hg₁
  exact ⟨hbefore, hg₂, hheaderEnd ▸ h₂⟩

/-- The condition of a loop leads to its body or out of it. -/
theorem loopTest (hm : W.Models L observe) {l : Looping π} {first next : Id}
    (test : Option (Evaluation π))
    (front : List Id) (hruns : RunsInRange observe g (match test with
      | some test =>
        test.entries ++ ShaderEffect.goOnIf l.condition l.body l.merge l.conditionEnd next
      | none => ShaderEffect.goOn l.body l.conditionEnd next) g')
    (h : Scene W L g (⟨first, W.enter first, [first]⟩ :: cells) (front ++ next :: spare))
    (hg : g.currentBlock = first) :
    g'.currentBlock = next ∧ ∃ names', Scene W L g' (⟨next, W.enter next, [next]⟩
      :: ⟨l.conditionEnd, W.testCode l first test, names'⟩ :: cells) (front ++ spare) := by
  cases test with
  | none =>
    obtain ⟨-, hg', h'⟩ := h.goOn hm front hruns hg
    exact ⟨hg', [first], h'⟩
  | some test =>
    obtain ⟨g₁, htest, hbranch⟩ := hm.runsInRange_append.mp hruns
    obtain ⟨hg₁, names₁, -, -, h₁⟩ := h.value hm htest hg (List.mem_singleton.mpr rfl)
    obtain ⟨-, hg', h'⟩ := h₁.goOnIf hm front hbranch hg₁
    exact ⟨hg', names₁, h'⟩

theorem weaves_forLoop (hm : W.Models L observe) (l : Looping π) (first : Id)
    (start : Evaluation π) (test : Option (Evaluation π)) (step : Evaluation π)
    {body : Statement π} (hbody : Weaves W L observe body) :
    Weaves W L observe (.forLoop l first start test step body) := by
  intro g g' cells spare b k names hruns h hg hb
  simp only [Statement.entries, List.append_assoc, List.cons_append, List.nil_append] at hruns
  obtain ⟨g₁, hstart, hruns⟩ := hm.runsInRange_append.mp (statementStart hm hruns)
  obtain ⟨hg₁, names₁, hsub, htip, h₁⟩ := h.value hm hstart hg hb
  obtain ⟨g₂, hmakes, hruns⟩ := hm.runsInRange_append.mp hruns
  obtain ⟨hg₂, h₂⟩ := h₁.loopMakes hm hmakes
  obtain ⟨g₃, hg₃, hruns, h₃⟩ := h₂.thenMake hm hruns
  obtain ⟨g₄, hopens, hruns⟩ := hm.runsInRange_append.mp hruns
  obtain ⟨hbefore, hg₄, h₄⟩ :=
    h₃.loopOpens hm [l.body, l.next] hopens (hg₃.trans (hg₂.trans hg₁))
  obtain ⟨g₅, htest, hruns⟩ := hm.runsInRange_append.mp hruns
  obtain ⟨hg₅, names₅, h₅⟩ := h₄.loopTest hm test [l.body] htest hg₄
  obtain ⟨g₆, hstep, hruns⟩ := hm.runsInRange_append.mp hruns
  obtain ⟨hg₆, names₆, hsub₆, -, h₆⟩ :=
    h₅.evaluation hm step hstep hg₅ (List.mem_singleton.mpr rfl)
  obtain ⟨g₇, hround, hruns⟩ := hm.runsInRange_append.mp hruns
  obtain ⟨hnext, hg₇, h₇⟩ := h₆.goOn hm [] hround hg₆
  obtain ⟨next, names₇, h₇, hfound⟩ :=
    h₇.nextBlock hnext (hsub₆ (List.mem_singleton.mpr rfl))
  obtain ⟨g₈, hbodyRuns, hruns⟩ := hm.runsInRange_append.mp hruns
  obtain ⟨hlive, hg₈, names₈, -, -, h₈⟩ :=
    hbody hbodyRuns h₇ hg₇ (List.mem_singleton.mpr rfl)
  obtain ⟨g₉, hout, hruns⟩ := hm.runsInRange_append.mp hruns
  obtain ⟨-, hg₉, h₉⟩ := h₈.goOnUnless hm _ [] hout hg₈
  obtain ⟨hloop, hnote⟩ := runsInRange_singleton hruns
  obtain ⟨hg₁₀, h₁₀⟩ :=
    h₉.whileLoop hm hg₉ (List.mem_singleton.mpr rfl) (hbefore ▸ htip) hfound hloop hnote
  exact ⟨hlive, hg₁₀, names₁ ++ [l.merge], List.subset_append_of_subset_left _ hsub,
    by simp [Statement.tip], h₁₀⟩

theorem weaves_whileLoop (hm : W.Models L observe) (l : Looping π) (first : Id)
    (test : Evaluation π) {body : Statement π} (hbody : Weaves W L observe body) :
    Weaves W L observe (.whileLoop l first test body) := by
  intro g g' cells spare b k names hruns h hg hb
  simp only [Statement.entries, List.append_assoc, List.cons_append, List.nil_append] at hruns
  obtain ⟨g₁, hmakes, hruns⟩ := hm.runsInRange_append.mp (statementStart hm hruns)
  obtain ⟨hg₁, h₁⟩ := h.loopMakes hm hmakes
  obtain ⟨g₂, hg₂, hruns, h₂⟩ := h₁.thenMake hm hruns
  obtain ⟨g₃, hopens, hruns⟩ := hm.runsInRange_append.mp hruns
  obtain ⟨hbefore, hg₃, h₃⟩ :=
    h₂.loopOpens hm [l.body, l.next] hopens (hg₂.trans (hg₁.trans hg))
  obtain ⟨g₄, htest, hruns⟩ := hm.runsInRange_append.mp hruns
  obtain ⟨g₅, hround, hruns⟩ := hm.runsInRange_append.mp hruns
  obtain ⟨hg₅, names₅, h₅⟩ :=
    h₃.loopTest hm (some test) [] (hm.runsInRange_append.mpr ⟨g₄, htest, hround⟩) hg₃
  obtain ⟨g₆, hbodyRuns, hruns⟩ := hm.runsInRange_append.mp hruns
  obtain ⟨hlive, hg₆, names₆, -, -, h₆⟩ :=
    hbody hbodyRuns h₅ hg₅ (List.mem_singleton.mpr rfl)
  obtain ⟨g₇, hnext, hruns⟩ := hm.runsInRange_append.mp hruns
  obtain ⟨-, hg₇, h₇⟩ := h₆.goOnUnless hm _ [] hnext hg₆
  obtain ⟨g₈, hout, hruns⟩ := hm.runsInRange_append.mp hruns
  obtain ⟨hnextEnd, hg₈, h₈⟩ := h₇.goOn hm [] hout hg₇
  rw [hnextEnd] at h₈
  have hfound : if W.follows = true then l.next ∈ [l.next] else l.next = l.next := by
    split
    · exact List.mem_singleton.mpr rfl
    · rfl
  obtain ⟨hloop, hnote⟩ := runsInRange_singleton hruns
  obtain ⟨hg₉, h₉⟩ :=
    (h₈.perm ((List.Perm.swap _ _ _).cons _)).whileLoop hm hg₈ (List.mem_singleton.mpr rfl)
      (hbefore ▸ hb) hfound hloop hnote
  exact ⟨hlive, hg₉, names ++ [l.merge], List.subset_append_left _ _, by
    simp [Statement.tip], h₉⟩

theorem weaves_doLoop (hm : W.Models L observe) (l : Looping π) (test : Evaluation π)
    {body : Statement π} (hbody : Weaves W L observe body) :
    Weaves W L observe (.doLoop l body test) := by
  intro g g' cells spare b k names hruns h hg hb
  simp only [Statement.entries, List.append_assoc] at hruns
  obtain ⟨g₁, hmakes, hruns⟩ := hm.runsInRange_append.mp (statementStart hm hruns)
  obtain ⟨hg₁, h₁⟩ := h.loopMakes hm hmakes
  obtain ⟨g₂, hopens, hruns⟩ := hm.runsInRange_append.mp hruns
  obtain ⟨hbefore, hg₂, h₂⟩ := h₁.loopOpens hm [l.next] hopens (hg₁.trans hg)
  obtain ⟨g₃, hbodyRuns, hruns⟩ := hm.runsInRange_append.mp hruns
  obtain ⟨hlive, hg₃, names₃, -, -, h₃⟩ :=
    hbody hbodyRuns h₂ hg₂ (List.mem_singleton.mpr rfl)
  obtain ⟨g₄, hnext, hruns⟩ := hm.runsInRange_append.mp hruns
  obtain ⟨-, hg₄, h₄⟩ := h₃.goOnUnless hm _ [] hnext hg₃
  obtain ⟨g₅, htest, hruns⟩ := hm.runsInRange_append.mp hruns
  obtain ⟨hg₅, names₅, hsub₅, -, h₅⟩ :=
    h₄.evaluation hm test htest hg₄ (List.mem_singleton.mpr rfl)
  obtain ⟨g₆, hout, hruns⟩ := hm.runsInRange_append.mp hruns
  obtain ⟨hnextEnd, hg₆, h₆⟩ := h₅.goOnIf hm [] hout hg₅
  obtain ⟨next, names₆, h₆, hfound⟩ :=
    h₆.nextBlock hnextEnd (hsub₅ (List.mem_singleton.mpr rfl))
  obtain ⟨hloop, hnote⟩ := runsInRange_singleton hruns
  obtain ⟨hg₇, h₇⟩ :=
    h₆.doLoop hm hg₆ (List.mem_singleton.mpr rfl) (hbefore ▸ hb) hfound hloop hnote
  exact ⟨hlive, hg₇, names ++ [l.merge], List.subset_append_left _ _, by
    simp [Statement.tip], h₇⟩

/-- The sections of a switch statement leave the blocks of a scene alone other than the one they
begin in. Each of them ends in a block that holds its code. -/
def WeavesSections (W : Weave π κ) (L : Loom β κ)
    (observe : Request → Generator β → Generator β → π) (s : Sections π) : Prop :=
  ∀ {g g' : Generator β} {cells : List (Cell κ)} {spare : List Id} {b merge : Id} {k : κ}
    {names : List Id},
    RunsInRange observe g (s.entries merge) g' →
      Scene W L g (⟨b, k, names⟩ :: cells) (merge :: spare) →
      g.currentBlock = b → b ∈ names → s.Live ∧ g'.currentBlock = merge ∧ Scene W L g'
        (⟨merge, W.enter merge, [merge]⟩ :: (sections (W.sectionCodes k s)).reverse
          ++ cells) spare

/-- A section is left in any way but by reaching its end. -/
theorem sectionBody (hm : W.Models L observe) {values : Evaluation π} {body : Statement π}
    {es : List (Entry π)} (hbody : Weaves W L observe body)
    (hruns : RunsInRange observe g (values.entries
      ++ (body.entries ++ .quiet .isInBlock false :: es)) g')
    (h : Scene W L g (⟨b, k, names⟩ :: cells) spare) (hg : g.currentBlock = b)
    (hb : b ∈ names) :
    body.Live ∧ body.ends = true
      ∧ ∃ g₁ last, RunsInRange observe g₁ es g' ∧ g₁.IsAt last true
      ∧ Scene W L g₁ (⟨last, W.flow (W.run k values) body, []⟩ :: cells) spare := by
  simp only [hm.runsInRange_append, hm.runsInRange_cons] at hruns
  obtain ⟨g₁, hvalues, g₂, hbodyRuns, g₃, hask, -, -, hruns⟩ := hruns
  obtain ⟨hg₁, names₁, -, htip, h₁⟩ := h.value hm hvalues hg hb
  obtain ⟨hlive, hg₂, names₂, -, -, h₂⟩ := hbody hbodyRuns h₁ hg₁ htip
  obtain ⟨hnone, rfl⟩ := handle_isInBlock.mp hask
  have hnone : g₂.currentBlock = 0 := by simpa [Generator.isInBlock] using hnone
  cases hends : body.ends with
  | false =>
    rw [hends] at hg₂
    exact absurd (hg₂.symm.trans hnone) (h₂.used _ (by simp)).1
  | true =>
    rw [hends] at hg₂
    exact ⟨hlive, rfl, g₂, _, hruns, hg₂, h₂.rename (List.nil_subset _)⟩

theorem weavesSections_last (hm : W.Models L observe) (l : Labels) (values : Evaluation π)
    {body : Statement π} (hbody : Weaves W L observe body) :
    WeavesSections W L observe (.last l values body) := by
  intro g g' cells spare b merge k names hruns h hg hb
  simp only [Sections.entries, List.append_assoc] at hruns
  obtain ⟨hlive, hends, g₁, last, hout, hg₁, h₁⟩ := h.sectionBody hm hbody hruns hg hb
  obtain ⟨-, hg', h'⟩ := h₁.goOnUnless hm _ [] hout hg₁
  exact ⟨⟨hlive, hends⟩, hg', h'⟩

theorem weavesSections_more (hm : W.Models L observe) (l : Labels) (values : Evaluation π)
    {body : Statement π} (next : Id) {rest : Sections π} (hbody : Weaves W L observe body)
    (hrest : WeavesSections W L observe rest) :
    WeavesSections W L observe (.more l values body next rest) := by
  intro g g' cells spare b merge k names hruns h hg hb
  simp only [Sections.entries, List.append_assoc, List.cons_append] at hruns
  obtain ⟨hlive, hends, g₁, last, hruns, hg₁, h₁⟩ := h.sectionBody hm hbody hruns hg hb
  simp only [hm.runsInRange_append, hm.runsInRange_cons] at hruns
  obtain ⟨g₂, hnext, -, hid, g₃, hgo, hrestRuns⟩ := hruns
  obtain ⟨hg₂, hlast₂, h₂⟩ := h₁.makeId hnext hid
  obtain ⟨-, hg₃, h₃⟩ :=
    h₂.goOnUnless hm true [] hgo ⟨hg₂.trans hg₁.1, hlast₂.trans hg₁.2⟩
  obtain ⟨hliveRest, hg', h'⟩ := hrest hrestRuns h₃ hg₃ (List.mem_singleton.mpr rfl)
  refine ⟨⟨hlive, hends, hliveRest⟩, hg', ?_⟩
  simp only [Weave.sectionCodes, sections, List.map_cons, List.reverse_cons, List.append_assoc,
    List.cons_append, List.nil_append]
  exact h'

omit [Backend β] in
theorem sectionCodes_labels (k : κ) (s : Sections π) :
    (W.sectionCodes k s).map (·.1) = s.labels := by
  cases s with
  | last => rfl
  | more _ _ _ _ rest =>
    simp only [Weave.sectionCodes, List.map_cons, Sections.labels, sectionCodes_labels _ rest]

theorem weaves_switch (hm : W.Models L observe) (d : Dispatch π) (selector : Evaluation π)
    {s : Sections π} (hlabels : Labels.Proper d.merge d.defaultLabel s.labels)
    (hs : WeavesSections W L observe s) :
    Weaves W L observe (.switch d selector s) := by
  intro g g' cells spare b k names hruns h hg hb
  simp only [Statement.entries, List.append_assoc, List.cons_append, List.nil_append] at hruns
  obtain ⟨g₁, hg₁, hruns, h₁⟩ := h.thenMake hm (statementStart hm hruns)
  obtain ⟨g₂, hselector, hruns⟩ := hm.runsInRange_append.mp hruns
  obtain ⟨hg₂, names₂, hsub, htip, h₂⟩ := h₁.value hm hselector (hg₁.trans hg) hb
  obtain ⟨g₃, hleave, -, -, hruns⟩ := hm.runsInRange_cons.mp hruns
  obtain ⟨hend, -, -, h₃⟩ := h₂.leave hm (e := .switch d.selector d.merge) hg₂ hleave
  obtain ⟨g₄, -, hruns, h₄⟩ := h₃.thenMake hm hruns
  obtain ⟨g₅, hg₅, hruns, h₅⟩ := h₄.thenEnter hm [] hruns
  obtain ⟨g₆, hsections, hruns⟩ := hm.runsInRange_append.mp hruns
  obtain ⟨hlive, hg₆, h₆⟩ := hs hsections h₅ hg₅ (List.mem_singleton.mpr rfl)
  obtain ⟨hswitch, hnote⟩ := runsInRange_singleton hruns
  rw [← hend] at h₆ htip
  rw [Sections.cases, ← sectionCodes_labels (W := W) (W.enter d.first) s] at hswitch hnote
  rw [← sectionCodes_labels (W := W) (W.enter d.first) s] at hlabels
  have hperm : ((sections (W.sectionCodes (W.enter d.first) s)).reverse
      ++ ⟨d.selectorEnd, W.leave (W.run k selector) (.switch d.selector d.merge) default,
        names₂⟩ :: cells).Perm
      (⟨d.selectorEnd, W.leave (W.run k selector) (.switch d.selector d.merge) default,
        names₂⟩
        :: sections (W.sectionCodes (W.enter d.first) s) ++ cells) :=
    List.perm_middle.trans (((List.reverse_perm _).append_right _).cons _)
  obtain ⟨hg', h'⟩ :=
    (h₆.perm (hperm.symm.cons _)).switch hm hg₆ (List.mem_singleton.mpr rfl) htip
      hlabels hswitch hnote
  exact ⟨hlive, hg', names₂ ++ [d.merge],
    List.subset_append_of_subset_left _ hsub, by simp [Statement.tip], h'⟩

/-- Where there is no block to add to, nothing is generated. -/
theorem isIdle_of_runs {g g' : Generator β} (t : Statement π)
    (hruns : Runs observe g t.entries g')
    (hg : g.currentBlock = 0) : g' = g ∧ t.isIdle = true := by
  have hstart {es : List (Entry π)} (h : Runs observe g (.quiet .isInBlock true :: es) g') :
      False := by
    obtain ⟨g₁, hask, -⟩ := h
    have htrue := (handle_isInBlock.mp hask).1
    simp only [Generator.isInBlock, hg, ne_eq, not_true, decide_false, Bool.false_eq_true] at htrue
  match t with
  | .nothing => exact ⟨hruns, rfl⟩
  | .andThen x y =>
    obtain ⟨g₁, hx, hy⟩ := runs_append.mp hruns
    obtain ⟨rfl, hidlex⟩ := isIdle_of_runs x hx hg
    obtain ⟨rfl, hidley⟩ := isIdle_of_runs y hy hg
    exact ⟨rfl, by rw [Statement.isIdle, hidlex, hidley, Bool.and_self]⟩
  | .nested .. | .evaluate .. => exact (hstart hruns).elim
  | .leave .. | .branch .. | .switch .. | .forLoop .. | .whileLoop .. | .doLoop .. =>
    simp only [Statement.entries, ShaderEffect.statementStart, List.append_assoc,
      List.cons_append] at hruns
    exact (hstart hruns).elim

theorem weaves_andThen (hm : W.Models L observe) {x y : Statement π} (hx : Weaves W L observe x)
    (hy : Weaves W L observe y) : Weaves W L observe (.andThen x y) := by
  intro g g' cells spare b k names hruns h hg hb
  obtain ⟨g₁, hxRuns, hyRuns⟩ := hm.runsInRange_append.mp hruns
  obtain ⟨hliveX, hg₁, names₁, hsub₁, htip₁, h₁⟩ := hx hxRuns h hg hb
  cases hends : x.ends with
  | false =>
    rw [hends] at hg₁
    obtain ⟨hliveY, hg', names', hsub', htip', h'⟩ := hy hyRuns h₁ hg₁ htip₁
    simp only [Statement.Live, Statement.ends, hends, Bool.false_or]
    exact ⟨⟨hliveX, hliveY, fun h => absurd h Bool.false_ne_true⟩, hg', names',
      List.Subset.trans hsub₁ hsub', htip', h'⟩
  | true =>
    obtain ⟨rfl, hidle⟩ := isIdle_of_runs y hyRuns.1 (by rw [hends] at hg₁; exact hg₁.1)
    simp only [Statement.ends, Statement.tip, Weave.flow, Statement.ends_of_isIdle hidle,
      Statement.tip_of_isIdle _ hidle, W.flow_of_isIdle _ hidle, Bool.or_false]
    exact ⟨⟨hliveX, Statement.live_of_isIdle hidle, fun _ => hidle⟩, hg₁, names₁, hsub₁,
      htip₁, h₁⟩

theorem weaves_nothing : Weaves W L observe .nothing := by
  intro g g' cells spare b k names hruns h hg hb
  obtain ⟨rfl, -⟩ := runsInRange_nil.mp hruns
  exact ⟨trivial, hg, names, List.Subset.refl _, hb, h⟩

theorem weaves_nested (hm : W.Models L observe) {body : Statement π}
    (hbody : Weaves W L observe body) :
    Weaves W L observe (.nested body) := by
  intro g g' cells spare b k names hruns h hg hb
  obtain ⟨g₁, hask, -, -, hruns⟩ := hm.runsInRange_cons.mp hruns
  obtain ⟨-, rfl⟩ := handle_isInBlock.mp hask
  exact hbody hruns h hg hb

theorem weaves_evaluate (hm : W.Models L observe) (inFunction : Bool) (value : Evaluation π) :
    Weaves W L observe (.evaluate inFunction value) := by
  intro g g' cells spare b k names hruns h hg hb
  simp only [Statement.entries, hm.runsInRange_cons] at hruns
  obtain ⟨g₁, hask, -, -, g₂, hask', -, -, hruns⟩ := hruns
  obtain ⟨-, rfl⟩ := handle_isInBlock.mp hask
  obtain ⟨-, rfl⟩ := handle_isInFunction.mp hask'
  exact ⟨trivial, h.value hm hruns hg hb⟩

mutual

/-- Running a statement weaves its code. -/
theorem statement (hm : W.Models L observe) {test : Evaluation π → Prop} :
    (t : Statement π) → t.All test → Weaves W L observe t
  | .nothing, _ => weaves_nothing
  | .andThen x y, ht => weaves_andThen hm (statement hm x ht.1) (statement hm y ht.2)
  | .nested body, ht => weaves_nested hm (statement hm body ht)
  | .evaluate inFunction value, _ => weaves_evaluate hm inFunction value
  | .leave value exit, _ => weaves_leave hm value exit
  | .branch s condition yes no, ht =>
    weaves_branch hm s condition (statement hm yes ht.2.1) (statement hm no ht.2.2)
  | .switch d selector s, ht => weaves_switch hm d selector ht.2.1 (statement_sections hm s ht.2.2)
  | .forLoop l first start condition step body, ht =>
    weaves_forLoop hm l first start condition step (statement hm body ht.2.2.2)
  | .whileLoop l first condition body, ht =>
    weaves_whileLoop hm l first condition (statement hm body ht.2)
  | .doLoop l body condition, ht => weaves_doLoop hm l condition (statement hm body ht.1)

theorem statement_sections (hm : W.Models L observe) {test : Evaluation π → Prop} :
    (s : Sections π) → s.All test → WeavesSections W L observe s
  | .last l values body, hs => weavesSections_last hm l values (statement hm body hs.2)
  | .more l values body next rest, hs =>
    weavesSections_more hm l values next (statement hm body hs.2.1)
      (statement_sections hm rest hs.2.2)

end

/-- Running the requests of a function leaves its code in the block that was left last. -/
theorem procedure (hm : W.Models L observe) {test : Evaluation π → Prop} {f : Procedure π}
    (hall : f.body.All test) (hruns : RunsInRange observe g f.inside g') (h : Scene W L g [] []) :
    g'.currentBlock = 0 ∧ f.body.Live ∧ f.fallsOut.isSome = !f.body.ends
      ∧ L.holds g'.target g'.lastBlock (W.function f) := by
  obtain ⟨location, decl, made, entry, body, fallsOut⟩ := f
  simp only [Procedure.inside, List.cons_append, List.nil_append] at hruns
  obtain ⟨g₁, -, hruns, h₁⟩ := h.thenMake hm hruns
  obtain ⟨g₂, hg₂, hruns, h₂⟩ := h₁.thenEnter hm [] hruns
  obtain ⟨g₃, hbodyRuns, hruns⟩ := hm.runsInRange_append.mp hruns
  obtain ⟨g₄, hask, -, -, hruns⟩ := hm.runsInRange_cons.mp hruns
  obtain ⟨hlive, hg₃, names, -, -, h₃⟩ :=
    statement hm body hall hbodyRuns h₂ hg₂ (List.mem_singleton.mpr rfl)
  obtain ⟨hinBlock, rfl⟩ := handle_isInBlock.mp hask
  have hinBlock : Generator.isInBlock _ = fallsOut.isSome := hinBlock
  have htip : body.tip entry ≠ 0 := (h₃.used _ (by simp)).1
  cases hends : body.ends with
  | true =>
    rw [hends] at hg₃
    have hnone : fallsOut.isSome = false := by rw [← hinBlock, Generator.isInBlock, hg₃.1]; rfl
    obtain rfl : fallsOut = none := by simpa using hnone
    obtain ⟨rfl, -⟩ := runsInRange_nil.mp hruns
    exact ⟨hg₃.1, hlive, rfl, hg₃.2 ▸ h₃.holds _ List.mem_cons_self⟩
  | false =>
    rw [hends] at hg₃
    have hg₃ : g₃.currentBlock = body.tip entry := hg₃
    have hsome : fallsOut.isSome = true := by
      rw [← hinBlock, Generator.isInBlock, hg₃]; exact decide_eq_true htip
    obtain ⟨⟨ended, note⟩, rfl⟩ := Option.isSome_iff_exists.mp hsome
    obtain ⟨hleave, hnote⟩ := runsInRange_singleton hruns
    obtain ⟨-, hcurrent, hlast, h₅⟩ := h₃.leave hm (e := .giveBack 0) hg₃ hleave
    have hnote : note = noteOf observe (Ending.giveBack 0).request g₃ g' := hnote
    refine ⟨hcurrent, hlive, rfl, ?_⟩
    rw [hlast, Weave.function, hnote]
    exact h₅.holds _ List.mem_cons_self

end Scene
end ShaderEffect

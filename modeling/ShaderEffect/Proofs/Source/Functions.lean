import ShaderEffect.Proofs.Parsing.Source
import ShaderEffect.Proofs.Source.Parts
import ShaderEffect.Proofs.Weave.Simulation

/-!
Functions in a source text.

What a source without errors had generated is a list of declarations and functions. A function is
written in two steps: what declares it, and in braces behind that its body, which is the code of the
block that ended last. Between functions no block has code.
-/
namespace ShaderEffect

open Source

namespace Source

open Generator

variable {α γ δ : Type}

theorem Writes.stays {g g' : Generator (State δ)} (h : Writes g g') : Inside g g' :=
  fun hin => ⟨h.inFunction.trans hin, h.inside hin⟩

/-- Whether a part of a generator goes on with the function that is generated, and writes
nothing outside of it. -/
class Staying (x : SourceM δ α) : Prop where
  inside : ∀ {g a g'}, x g = .ok (a, g') → Inside g g'

namespace Staying

instance (priority := low) writing {x : SourceM δ α} [hx : Writing x] : Staying x :=
  ⟨fun h => (hx.writes h).stays⟩

instance bind {x : SourceM δ γ} {f : γ → SourceM δ α} [hx : Staying x]
    [hf : ∀ c, Staying (f c)] : Staying (x >>= f) where
  inside h := by
    obtain ⟨c, g₁, hc, h⟩ := bind_eq_ok.mp h
    exact (hx.inside hc).trans ((hf c).inside h)

instance ite {c : Prop} [Decidable c] {x y : SourceM δ α} [hx : Staying x] [hy : Staying y] :
    Staying (if c then x else y) := by
  split <;> assumption

instance mapM {f : γ → SourceM δ α} [hf : ∀ c, Staying (f c)] {l : List γ} :
    Staying (l.mapM f) := by
  induction l with
  | nil =>
    rw [List.mapM_nil]
    infer_instance
  | cons c l ih =>
    rw [List.mapM_cons]
    infer_instance

/-- Code that goes into a block may have marks. -/
instance write {ls : Lines} : Staying (write ls : SourceM δ Unit) :=
  ⟨fun h => (write_spec h).inside⟩

instance take {id : Id} : Staying (take id : SourceM δ Lines) :=
  ⟨fun h => (take_spec h).2.changes.inside⟩

instance setBlock {id : Id} : Staying (setBlock id : SourceM δ Id) where
  inside h hin := by
    obtain ⟨-, rfl⟩ := setBlock_spec h
    exact ⟨hin, rfl⟩

end Staying

section Parts

variable [Dialect δ]

instance enterBlock_staying {id : Id} : Staying (enterBlock id : SourceM δ Unit) := by
  unfold enterBlock
  infer_instance

instance endBlock_staying {ls : Lines} : Staying (endBlock ls : SourceM δ Id) := by
  unfold endBlock
  infer_instance

instance leaveAndKill_staying [Literals δ]
    [∀ t c, Writing (Literals.literal t c : SourceM δ String)] :
    Staying (leaveAndKill : SourceM δ Id) := by
  unfold leaveAndKill
  infer_instance

instance leaveAndReturn_staying {value : Id} : Staying (leaveAndReturn value : SourceM δ Id) := by
  unfold leaveAndReturn
  infer_instance

instance leaveAndBranch_staying {target : Id} {flow : Flow} :
    Staying (leaveAndBranch target flow : SourceM δ Id) := by
  unfold leaveAndBranch alreadyEnded
  cases flow <;> infer_instance

instance leaveOpen_staying : Staying (leaveOpen : SourceM δ Id) := by
  unfold leaveOpen alreadyEnded
  infer_instance

instance attributeLines_staying {isLoop : Bool} {hint : ControlHint} :
    Staying (attributeLines isLoop hint : SourceM δ Lines) := by
  unfold attributeLines
  infer_instance

instance selectionLines_staying {location : Location} {hint : ControlHint} :
    Staying (selectionLines location hint : SourceM δ Lines) := by
  unfold selectionLines
  infer_instance

instance takeBranch_staying {block conditionBlock : Id} :
    Staying (takeBranch block conditionBlock : SourceM δ Lines) := by
  unfold takeBranch
  infer_instance

instance loopHead_staying {location : Location} {condition : Id} {isDo : Bool}
    {hint : ControlHint} :
    Staying (loopHead location condition isDo hint : SourceM δ LoopHead) := by
  unfold loopHead
  infer_instance

instance takeSection_staying {defaultLabel : Id} {group : Id × List UInt32} :
    Staying (takeSection defaultLabel group : SourceM δ Lines) := by
  unfold takeSection
  infer_instance

instance emitIf_staying {location : Location} {condition conditionBlock trueBlock falseBlock : Id}
    {hint : ControlHint} :
    Staying (emitIf location condition conditionBlock trueBlock falseBlock hint :
      SourceM δ Unit) := by
  unfold emitIf
  infer_instance

instance emitPhi_staying {location : Location}
    {condition conditionBlock trueValue trueBlock falseValue falseBlock : Id} {t : Ty} :
    Staying (emitPhi location condition conditionBlock trueValue trueBlock falseValue falseBlock t :
      SourceM δ Id) := by
  unfold emitPhi
  infer_instance

instance emitLoop_staying {location : Location}
    {condition before header conditionBlock body continueBlock : Id} {hint : ControlHint} :
    Staying (emitLoop location condition before header conditionBlock body continueBlock hint :
      SourceM δ Unit) := by
  unfold emitLoop
  infer_instance

instance emitSwitch_staying {location : Location} {selector selectorBlock defaultLabel : Id}
    {cases : List (UInt32 × Id)} {hint : ControlHint} :
    Staying (emitSwitch location selector selectorBlock defaultLabel cases hint :
      SourceM δ Unit) := by
  unfold emitSwitch
  infer_instance

end Parts

/-- A part of a generator that leaves the current block does nothing if there is none. -/
theorem eq_of_not_isInBlock {x : SourceM δ Id} {g g' : Generator (State δ)} {ended : Id} (h : (do
      if !(← get).isInBlock then return 0
      x : SourceM δ Id) g = .ok (ended, g')) (hg : g.currentBlock = 0) : g' = g := by
  obtain ⟨_, _, hget, h⟩ := bind_eq_ok.mp h
  obtain ⟨rfl, rfl⟩ := get_eq_ok.mp hget
  rw [if_pos (by simpa [isInBlock] using hg)] at h
  exact (pure_eq_ok.mp h).2.symm

namespace Textual

variable [Dialect δ] [Literals δ] [Backend (State δ)] [hδ : Textual δ]
  {g g' : Generator (State δ)}

include hδ

/-- Requests made for the body of a function write nothing outside of it. -/
theorem inside_handle {r : Request} {a : r.Answer} (hr : r.isInside = true)
    (h : r.handle g = .ok (a, g')) :
    Inside g g' := by
  have hliteral := hδ.literal
  have hplain (hr : r.isPlain = true) : Inside g g' := ((writing_plain hr).writes h).stays
  -- Requests about blocks are answered by what both languages share, the others by code that
  -- only writes lines of the current block.
  cases r with
  | isInBlock =>
    obtain ⟨-, rfl⟩ := handle_isInBlock.mp h
    exact fun hin => ⟨hin, rfl⟩
  | makeId => exact (Writing.makeId.writes h).stays
  | setBlock => exact Staying.setBlock.inside h
  | enterBlock =>
    rw [Request.handle, hδ.enterBlock] at h
    exact Staying.inside h
  | leaveAndKill =>
    rw [Request.handle, hδ.leaveAndKill] at h
    exact Staying.inside h
  | leaveAndReturn =>
    rw [Request.handle, hδ.leaveAndReturn] at h
    exact Staying.inside h
  | leaveAndSwitch =>
    rw [Request.handle, hδ.leaveAndSwitch] at h
    exact leaveOpen_staying.inside h
  | leaveAndBranch =>
    rw [Request.handle, hδ.leaveAndBranch] at h
    exact Staying.inside h
  | leaveAndBranchConditional =>
    rw [Request.handle, hδ.leaveAndBranchConditional] at h
    exact leaveOpen_staying.inside h
  | emitIf =>
    rw [Request.handle, hδ.emitIf] at h
    exact Staying.inside h
  | emitPhi =>
    rw [Request.handle, hδ.emitPhi] at h
    exact Staying.inside h
  | emitLoop =>
    rw [Request.handle, hδ.emitLoop] at h
    exact Staying.inside h
  | emitSwitch =>
    rw [Request.handle, hδ.emitSwitch] at h
    exact Staying.inside h
  | defineVariable location t name isGlobal init =>
    cases isGlobal with
    | false => exact hplain rfl
    | true => cases hr
  | isInFunction | findStruct | findTexture | findFunction | load | store | constant | unary
    | binary | select
  | call | callIntrinsic | construct => exact hplain rfl
  | _ => cases hr

theorem inside_runs {es : List (Entry Note)} (hes : areInside es = true)
    (h : Runs observe g es g') : Inside g g' := by
  induction es generalizing g with
  | nil =>
    obtain rfl := h
    exact fun hin => ⟨hin, rfl⟩
  | cons e es ih =>
    obtain ⟨g₁, hrun, -, hruns⟩ := h
    rw [areInside_cons, Bool.and_eq_true] at hes
    exact (inside_handle hes.1 hrun).trans (ih hes.2 hruns)

/-- The end of a function writes no marks. Where there is no block to end, it writes nothing. -/
theorem unmarked_ending {e : Ending} {ended : Id}
    (he : e = .kill ∨ ∃ value, e = .giveBack value)
    (h : e.handle g = .ok (ended, g')) : Unmarked (newLines g g') := by
  by_cases hg : g.currentBlock = 0
  · have hsame : g' = g := by
      obtain rfl | ⟨value, rfl⟩ := he
      · have h : Backend.leaveAndKill g = .ok (ended, g') := h
        rw [hδ.leaveAndKill] at h
        exact eq_of_not_isInBlock h hg
      · have h : Backend.leaveAndReturn value g = .ok (ended, g') := h
        rw [hδ.leaveAndReturn] at h
        exact eq_of_not_isInBlock h hg
    rw [hsame, newLines, Nat.add_zero, List.drop_length]
    exact .nil
  · obtain ⟨new, -, hcloses, hnew⟩ := handle_ending h hg
    rw [newLines_of_closes hcloses hg]
    obtain rfl | ⟨value, rfl⟩ := he
    · exact hnew
    · exact hnew

/-- What is noted of a request has no marks. -/
theorem unmarked_note {r : Request} {a : r.Answer} (hr : r.isPhi = false)
    (h : r.handle g = .ok (a, g')) :
    Unmarked (noteOf observe r g g').lines := by
  have hhints := hintLines_unmarked (δ := δ)
  have hplain (hr : r.isPlain = true) : Unmarked (noteOf observe r g g').lines := by
    rw [note_plain h hr]
    exact (newLines_of_writes ((writing_plain hr).writes h)).1
  cases r with
  | leaveAndKill => exact unmarked_ending (.inl rfl) h
  | leaveAndReturn value => exact unmarked_ending (.inr ⟨value, rfl⟩) h
  | emitIf location condition _ _ _ hint =>
    have := hhints false hint
    show Unmarked (g.target.ifHeader location condition hint)
    unfold State.ifHeader ifLine
    infer_instance
  | emitSwitch location selector _ _ _ hint =>
    have := hhints false hint
    show Unmarked (g.target.switchHeader location selector hint)
    unfold State.switchHeader switchLine
    infer_instance
  | emitLoop location condition _ _ conditionBlock _ _ hint =>
    have := hhints true hint
    show Unmarked (g.target.loopNote location condition conditionBlock hint).lines
    unfold State.loopNote
    infer_instance
  | emitPhi => cases hr
  | defineVariable location t name isGlobal init =>
    cases isGlobal with
    | false => exact hplain rfl
    | true => exact .nil
  | load | store | constant | unary | binary | select | call | callIntrinsic | construct =>
    exact hplain rfl
  | _ => exact .nil

theorem areUnmarked_of_runs {es : List (Entry Note)} (h : Runs observe g es g') :
    AreUnmarked es := by
  induction es generalizing g with
  | nil => exact List.forall_mem_nil _
  | cons e es ih =>
    obtain ⟨g₁, hrun, hnote, hruns⟩ := h
    exact areUnmarked_cons.mpr ⟨fun hphi => hnote ▸ unmarked_note hphi hrun, ih hruns⟩

end Textual

/-- What holds of the state whenever no function is being generated. -/
structure Resting (g : Generator (State δ)) : Prop where
  positive : 0 < g.nextId
  block : g.currentBlock = 0
  inFunction : g.target.inFunction = false
  blocks : ∀ b ≠ 0, Table.get? g.target.blocks b = none

/-- What holds once a function has been declared. -/
structure Declared (g : Generator (State δ)) : Prop where
  positive : 0 < g.nextId
  inFunction : g.target.inFunction = true
  blocks : ∀ b ≠ 0, Table.get? g.target.blocks b = none

theorem Resting.follows {g g' : Generator (State δ)} (h : Resting g) (h' : Follows g g') :
    Resting g' where
  positive := Nat.lt_of_lt_of_le h.positive h'.nextId
  block := h'.current.trans h.block
  inFunction := h'.inFunction.trans h.inFunction
  blocks b hb := (h'.others b (h.block.symm ▸ hb)).trans (h.blocks b hb)

/-- Code can be woven once a function has been declared. -/
theorem Declared.scene {g : Generator (State δ)} (h : Declared g) (bare : Bool) :
    Scene (weave bare) loom g [] [] where
  positive := h.positive
  distinct := List.nodup_nil
  used := nofun
  holds := nofun
  named _ := nofun
  vacant := nofun
  unmoved _ := nofun
  fresh b hb := by
    have hne : b ≠ 0 := by
      rintro rfl
      exact absurd h.positive (Nat.not_lt.mpr hb)
    exact ⟨⟨hne, h.blocks b hne⟩, fun _ => rfl⟩

section Declarations

variable [Dialect δ] {g g' : Generator (State δ)}

instance defineParameter_writing {p : Member} :
    Writing (defineParameter p : SourceM δ (Member × String)) := by
  unfold defineParameter
  infer_instance

/-- What declares a function is written outside of it. -/
theorem defineFunction_spec {location : Location} {decl made : FunctionDecl} (h : Resting g)
    (hrun : defineFunction location decl g = .ok (made, g')) :
    Declared g' ∧ ∃ head,
      Unmarked head ∧ g'.target.globals.toList = g.target.globals.toList ++ head := by
  obtain ⟨definition, g₁, hid, hrun⟩ := bind_eq_ok.mp hrun
  obtain ⟨_, g₂, hname, hrun⟩ := bind_eq_ok.mp hrun
  obtain ⟨parameters, g₃, hparameters, hrun⟩ := bind_eq_ok.mp hrun
  obtain ⟨mark, g₄, hmark, hrun⟩ := bind_eq_ok.mp hrun
  obtain ⟨result, g₅, hresult, hrun⟩ := bind_eq_ok.mp hrun
  obtain ⟨name, g₆, hcallee, hrun⟩ := bind_eq_ok.mp hrun
  obtain ⟨_, g₇, hglobal, hrun⟩ := bind_eq_ok.mp hrun
  obtain ⟨_, g₈, hstart, hrun⟩ := bind_eq_ok.mp hrun
  obtain ⟨_, g₉, hadd, hrun⟩ := bind_eq_ok.mp hrun
  obtain ⟨rfl, rfl⟩ := pure_eq_ok.mp hrun
  -- Everything in front of the line that declares the function only gives names.
  have hnamed : Writes g g₃ :=
    ((Writing.writes hid).trans (Writing.writes hname)).trans (Writing.writes hparameters)
  have hwrites : Writes g g₆ :=
    ((hnamed.trans (Writing.writes hmark)).trans (Writing.writes hresult)).trans
      (Writing.writes hcallee)
  have hresting := h.follows hwrites.toFollows
  obtain ⟨new, hnew, hglobals⟩ := hwrites.outside
  obtain ⟨rfl, -⟩ := locationLines_spec hmark
  obtain rfl := modify_eq_ok.mp hglobal
  obtain rfl := modify_eq_ok.mp hstart
  obtain rfl := modify_eq_ok.mp hadd
  refine ⟨⟨hresting.positive, rfl, hresting.blocks⟩, _, ?_,
    (Array.toList_appendList.trans (congrArg (· ++ _) hglobals)).trans (List.append_assoc ..)⟩
  infer_instance

omit [Dialect δ] in
/-- A function is left with its body in braces, and without code in any block. -/
theorem leaveFunction_spec {u : Unit} (hrun : leaveFunction g = .ok (u, g'))
    (hin : g.target.inFunction = true) :
    g' = { g with target := { g.target with
      globals := g.target.globals
        ++ ([.text 0 "\x7b"] ++ g.target.code g.lastBlock ++ [.text 0 "\x7d"])
      inFunction := false
      blocks := [] } } := by
  obtain ⟨_, _, htarget, hrun⟩ := bind_eq_ok.mp hrun
  obtain ⟨rfl, rfl⟩ := getTarget_eq_ok.mp htarget
  rw [if_neg (by simp [hin])] at hrun
  obtain ⟨_, _, hget, hrun⟩ := bind_eq_ok.mp hrun
  obtain ⟨rfl, rfl⟩ := get_eq_ok.mp hget
  obtain ⟨body, g₁, htake, hrun⟩ := bind_eq_ok.mp hrun
  obtain ⟨rfl, rfl⟩ := take_eq_ok htake
  obtain ⟨_, g₂, hwrite, hrun⟩ := bind_eq_ok.mp hrun
  obtain rfl := modify_eq_ok.mp hwrite
  obtain rfl := modifyTarget_eq_ok.mp hrun
  rfl

end Declarations

end Source

/-- The statements that are written for a function. -/
def Procedure.parts (bare : Bool) (f : Procedure Note) : List Part :=
  f.body.parts bare []

/-- Whether some lines are the text of a function, and all that its requests wrote stands in it. -/
structure Procedure.IsText (bare : Bool) (f : Procedure Note) (ls : Lines) : Prop where
  /-- The body stands in braces behind what declares the function. -/
  braces : ∃ head, ls = head ++ ([.text 0 "\x7b"] ++ f.text bare ++ [.text 0 "\x7d"])
  unmarked : Unmarked ls
  /-- Lines stand in the body as often as they were written, apart from what is put around parts of
  statements, repeated, moved or dropped. -/
  tally : ∀ c, (f.text bare).tally c + Lines.tally c ((f.parts bare).flatMap (Part.moved bare))
      + Lines.tally c ((f.parts bare).flatMap Part.dropped)
    = (written f.inside).tally c + Lines.tally c ((f.parts bare).flatMap (Part.frame bare))
      + Lines.tally c ((f.parts bare).flatMap Part.repeated)
  moved : ∀ p ∈ f.parts bare, p.moved bare = []
    ∨ ∃ id line, p.condition? = some id ∧ p.moved bare = [line] ∧ line.Declares id
  /-- The text of a statement stands in the body in one piece. -/
  within : ∀ p ∈ f.parts bare, (p.statement.text bare p.again).Within (f.text bare)
  labels : ∀ p ∈ f.parts bare, p.ListsLabels bare

/-- Whether some lines were written for a part of a source. -/
def Item.IsText (bare : Bool) (i : Item Note) (ls : Lines) : Prop :=
  match i with
  | .outside .. | .evaluate _ => True
  | .procedure f => f.IsText bare ls

section Functions

variable {bare : Bool} {f : Procedure Note}

theorem Procedure.written_inside :
    written f.inside = written f.body.entries ++ f.fallsOut.elim [] (·.2.lines) := by
  cases hfalls : f.fallsOut with
  | none => simp [Procedure.inside, hfalls, Entry.lines]
  | some fallsOut => simp [Procedure.inside, hfalls, Entry.lines]

theorem Procedure.areUnmarked_body (h : AreUnmarked f.inside) : AreUnmarked f.body.entries := by
  simp only [Procedure.inside, areUnmarked_append] at h
  exact h.1.2

theorem Procedure.unmarked_text (h : AreUnmarked f.inside) : Unmarked (f.text bare) := by
  have : Unmarked (f.body.text bare []) := f.body.unmarked_text (Procedure.areUnmarked_body h) .nil
  have : Unmarked (f.fallsOut.elim [] (·.2.lines)) := by
    cases hfalls : f.fallsOut with
    | none => exact .nil
    | some fallsOut =>
      simp only [Procedure.inside, hfalls, areUnmarked_append, areUnmarked_cons] at h
      exact h.2.2 _ List.mem_cons_self rfl
  rw [Procedure.text]
  infer_instance

/-- All that was written for a function stands in its text. -/
theorem Procedure.isText {allowed : Evaluation Note → Prop}
    (hallowed : ∀ t, allowed t → t.isStraight = true)
    (hall : f.body.All allowed) (h : AreUnmarked f.inside) {head : Lines} (hhead : Unmarked head) :
    f.IsText bare (head ++ ([.text 0 "\x7b"] ++ f.text bare ++ [.text 0 "\x7d"])) where
  braces := ⟨head, rfl⟩
  unmarked := by
    have : Unmarked (f.text bare) := Procedure.unmarked_text h
    infer_instance
  tally c := by
    have hbody := @Statement.tally_text bare c _ hallowed f.body hall []
    rw [Procedure.written_inside, Procedure.text, Procedure.parts, Lines.tally_append,
      Lines.tally_append]
    omega
  moved p _ := p.moved_cases bare
  within p hp := (f.body.within_text [] p hp).mono (List.prefix_append _ _).isInfix
  labels p hp := f.body.listsLabels hall [] p hp

end Functions

namespace Source

variable {δ : Type} [Dialect δ] [Literals δ] [Backend (State δ)] [hδ : Textual δ]
  {g g' : Generator (State δ)}

include hδ

/-- A function adds its text to the source, and leaves no code behind. -/
theorem Resting.procedure {allowed : Evaluation Note → Prop}
    (hallowed : ∀ t, allowed t → t.isStraight = true) {f : Procedure Note} (h : Resting g)
    (hall : f.body.All allowed) (hscoped : f.body.Scoped [] [])
    (hruns : RunsInRange observe g f.entries g') :
    Resting g' ∧ ∃ ls, f.IsText (Dialect.movesBareDeclarations δ) ls
      ∧ g'.target.globals.toList = g.target.globals.toList ++ ls := by
  have hm := Textual.models (δ := δ)
  rw [Procedure.entries, List.cons_append, hm.runsInRange_cons] at hruns
  obtain ⟨g₁, hdefine, -, -, hruns⟩ := hruns
  obtain ⟨g₂, hinside, hruns⟩ := hm.runsInRange_append.mp hruns
  obtain ⟨g₃, hleave, -, -, hnil⟩ := hm.runsInRange_cons.mp hruns
  obtain ⟨rfl, -⟩ := runsInRange_nil.mp hnil
  rw [Request.handle, hδ.defineFunction] at hdefine
  rw [Request.handle, hδ.leaveFunction] at hleave
  obtain ⟨hdeclared, head, hhead, hglobals⟩ := defineFunction_spec h hdefine
  -- The body is woven in blocks of its own, and the source stays as it is meanwhile.
  obtain ⟨hblock, -, -, hholds⟩ := Scene.procedure hm hall hinside (hdeclared.scene _)
  obtain ⟨hin, hkept⟩ := Textual.inside_runs f.areInside_inside hinside.1 hdeclared.inFunction
  have hunmarked := Textual.areUnmarked_of_runs hinside.1
  have hcode :=
    hholds.2.trans (Procedure.function_eq hallowed hall hscoped
      (Procedure.areUnmarked_body hunmarked))
  have hnext := hm.nextId_le_of_runs hinside.1
  -- The block that ended last holds the body.
  obtain rfl := leaveFunction_spec hleave hin
  refine ⟨⟨Nat.lt_of_lt_of_le hdeclared.positive hnext, hblock, rfl, fun _ _ => rfl⟩, _,
    Procedure.isText hallowed hall hunmarked hhead, ?_⟩
  refine Array.toList_appendList.trans ?_
  rw [hkept, hglobals, hcode, List.append_assoc]

/-- Outside of functions an evaluation only adds to what is written there. -/
theorem follows_evaluation {t : Evaluation Note} (hruns : Runs observe g t.entries g')
    (hg : g.target.inFunction = false) :
    Follows g g' := by
  refine evaluation_outside (fun g => g.target.inFunction = false)
    (fun g => (Writes.refl g).toFollows) Follows.trans
    (fun hr h => ((Textual.writing_plain hr).writes h).toFollows)
    (fun h hg => h.inFunction.trans hg) (fun {g} hg => ?_) hruns hg
  rw [hδ.isInFunction, hg]

/-- Each part of a source adds its own lines. -/
theorem Resting.item {i : Item Note} (h : Resting g) (hi : i.Proper { noShortCircuit := true })
    (hruns : RunsInRange observe g i.entries g') :
    Resting g' ∧ ∃ ls, i.IsText (Dialect.movesBareDeclarations δ) ls
      ∧ g'.target.globals.toList = g.target.globals.toList ++ ls := by
  cases i with
  | outside e he =>
    obtain ⟨g₁, hrun, -, rfl⟩ := hruns.1
    have hfollows := Textual.follows_outside he hrun
    obtain ⟨new, hglobals⟩ := hfollows.globals
    exact ⟨h.follows hfollows, new, trivial, hglobals⟩
  | evaluate t =>
    have hfollows := follows_evaluation hruns.1 h.inFunction
    obtain ⟨new, hglobals⟩ := hfollows.globals
    exact ⟨h.follows hfollows, new, trivial, hglobals⟩
  | procedure f => exact h.procedure (fun t ht => ht rfl) hi.1 hi.2.1 hruns

theorem Resting.items {items : List (Item Note)} (h : Resting g)
    (hitems : ∀ i ∈ items, i.Proper { noShortCircuit := true })
    (hruns : RunsInRange observe g (items.flatMap Item.entries) g') :
    ∃ pieces, List.Forall₂ (Item.IsText (Dialect.movesBareDeclarations δ)) items pieces
      ∧ g'.target.globals.toList = g.target.globals.toList ++ pieces.flatten := by
  induction items generalizing g with
  | nil =>
    obtain ⟨rfl, -⟩ := runsInRange_nil.mp hruns
    exact ⟨[], .nil, (List.append_nil _).symm⟩
  | cons i items ih =>
    obtain ⟨g₁, hi, hrest⟩ := Textual.models.runsInRange_append.mp hruns
    obtain ⟨h₁, ls, hls, hglobals⟩ := h.item (hitems i List.mem_cons_self) hi
    obtain ⟨pieces, hpieces, hglobals'⟩ :=
      ih h₁ (fun j hj => hitems j (List.mem_cons_of_mem _ hj)) hrest
    refine ⟨ls :: pieces, .cons hls hpieces, ?_⟩
    rw [hglobals', hglobals, List.append_assoc, List.flatten_cons]

omit hδ in
/-- Whether the text of a source consists of one piece for each part of what was read, and the
pieces of functions hold all that was written for them. -/
def KeepsText (source : String) (p p' : Parser) (g₀ g : Generator (State δ)) : Prop :=
  ∃ (items : List (Item Note)) (pieces : List Lines) (front : Lines),
    (Parser.parseSource source p).record observe g₀
      = .ok ((items.flatMap Item.entries, true, p'), g)
      ∧ (∀ i ∈ items, i.Proper { noShortCircuit := true })
      ∧ List.Forall₂ (Item.IsText (Dialect.movesBareDeclarations δ)) items pieces
      ∧ Backend.finish g = .ok (.text (Lines.render (front ++ pieces.flatten)), g)

theorem Resting.keepsText {source : String} {p p' : Parser} (h : Resting g)
    (hg : g.target.globals = #[]) (hp : p.noShortCircuit = true)
    (hrun : (Parser.parseSource source p).run g = .ok ((true, p'), g'))
    (hid : g'.nextId ≤ 2 ^ 32) : KeepsText source p p' g g' := by
  -- What the parser ensures of every history holds of the one that was run.
  have hensures :=
    Script.Ensures.mono (π := Note) (Parser.parseSource_ensures source p) fun es r h => h
  obtain ⟨es, hrecord, hruns, hitems⟩ := Script.record_of_run hensures hrun
  obtain ⟨items, rfl, hproper⟩ := hitems rfl
  rw [hp] at hproper
  obtain ⟨pieces, hpieces, hglobals⟩ := h.items hproper ⟨hruns, hid⟩
  obtain ⟨front, hfinish⟩ := hδ.finish g'
  rw [hglobals, hg, List.nil_append] at hfinish
  exact ⟨items, pieces, front, hrecord, hproper, hpieces, hfinish⟩

end Source

namespace Source

/-- Nothing that is written for the statements of a source without errors is lost in GLSL or HLSL,
in any nesting. The text of a function is its body in braces behind what declares it. Each line that
was written into a block stands in it once, except that continue statements repeat what their loop
runs in front of the next round, that the declaration of the condition of a loop may move, and that
a switch statement drops what stands in front of its labels. No mark of a loop remains, and every
value of a case label stands once, in front of the section that it leads to. Ids are words, so that
there may not be more of them than there are words. -/
theorem statements_keep_text {source : String} {p p' : Parser} (hp : p.noShortCircuit = true) :
    (∀ (options : Glsl.Options) (g : Generator (State Glsl.Language)),
      (Parser.parseSource source p).run (Glsl.generator options) = .ok ((true, p'), g) →
        g.nextId ≤ 2 ^ 32 → KeepsText source p p' (Glsl.generator options) g)
      ∧ ∀ (options : Hlsl.Options) (g : Generator (State Hlsl.Language)),
        (Parser.parseSource source p).run (Hlsl.generator options) = .ok ((true, p'), g) →
          g.nextId ≤ 2 ^ 32 → KeepsText source p p' (Hlsl.generator options) g := by
  refine ⟨fun options g hrun hid => ?_, fun options g hrun hid => ?_⟩
  · exact Resting.keepsText ⟨Nat.one_pos, rfl, rfl, fun _ _ => rfl⟩ rfl hp hrun hid
  · exact Resting.keepsText ⟨Nat.one_pos, rfl, rfl, fun _ _ => rfl⟩ rfl hp hrun hid

/-- What is decided of a run is known of its result. -/
theorem run_of_any {β : Type} {x : Except Fault ((Bool × Parser) × Generator β)}
    (h : x.toOption.any (fun result => result.1.1 && decide (result.2.nextId ≤ 2 ^ 32)) = true) :
    ∃ p' g, x = .ok ((true, p'), g) ∧ g.nextId ≤ 2 ^ 32 := by
  obtain ⟨⟨⟨accepted, p'⟩, g⟩, rfl, hresult⟩ := exists_of_any h
  obtain ⟨rfl, hid⟩ : accepted = true ∧ g.nextId ≤ 2 ^ 32 := by simpa using hresult
  exact ⟨p', g, rfl, hid⟩

/-- A loop whose condition is evaluated behind a switch statement that goes on with the loop. -/
private def circling : String :=
  "int f(int a) \x7b do \x7b switch (a) \x7b case 1: continue; \x7d a--; \x7d "
    ++ "while (a > 0); return a; \x7d"

set_option maxRecDepth 10000 in
/-- The hypotheses hold of a continue statement in a switch statement. -/
theorem statements_keep_text_of_circling :
    (∃ p' g, (Parser.parseSource circling { noShortCircuit := true }).run (Glsl.generator {})
      = .ok ((true, p'), g)
      ∧ g.nextId ≤ 2 ^ 32
      ∧ KeepsText circling { noShortCircuit := true } p' (Glsl.generator {}) g)
      ∧ ∃ p' g, (Parser.parseSource circling { noShortCircuit := true }).run (Hlsl.generator {})
        = .ok ((true, p'), g) ∧ g.nextId ≤ 2 ^ 32
          ∧ KeepsText circling { noShortCircuit := true } p' (Hlsl.generator {}) g := by
  constructor
  · obtain ⟨p', g, hrun, hid⟩ :=
      run_of_any (x := (Parser.parseSource circling { noShortCircuit := true }).run
        (Glsl.generator {})) (by decide +kernel)
    exact ⟨p', g, hrun, hid, (statements_keep_text rfl).1 {} g hrun hid⟩
  · obtain ⟨p', g, hrun, hid⟩ :=
      run_of_any (x := (Parser.parseSource circling { noShortCircuit := true }).run
        (Hlsl.generator {})) (by decide +kernel)
    exact ⟨p', g, hrun, hid, (statements_keep_text rfl).2 {} g hrun hid⟩

end Source

end ShaderEffect

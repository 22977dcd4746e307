import ShaderEffect.Proofs.Spirv.Ids
import ShaderEffect.Proofs.Spirv.Strand
import ShaderEffect.Proofs.Weave.Scene

namespace ShaderEffect.Spirv

open Generator

/-- How the code of a block is found in the state. -/
def loom : Loom State Strand where
  holds s b k := s.blocks.get? b = some k.toBasicBlock
  vacant s b := s.blocks.get? b = none
  find s b :=
    match s.spliced.get? (s.final b) with
    | none => some (s.final b)
    | some _ => none

/-- The code of a selection that gives a value. -/
def phiCode (s : State) (merge conditionBlock trueBlock falseBlock : Id) : List Instruction :=
  let arm (id : Id) : List Instruction := if id = conditionBlock then [] else s.code id
  s.structured conditionBlock (mergeOf merge 0) ++ arm trueBlock ++ arm falseBlock

/-- What is noted of a request: the instructions that it computed in the current block, and what a
function returns. -/
def observe (r : Request) (g g' : Generator State) : List Instruction :=
  let before := (g.target.block g.currentBlock).body.length
  let after := g'.target.block g.currentBlock
  match r with
  | .leaveAndReturn _ => after.body.drop before ++ after.terminator.toList
  | .emitPhi _ _ conditionBlock _ trueBlock _ falseBlock _ =>
    after.body.drop ((phiCode g.target g.currentBlock conditionBlock trueBlock falseBlock).length
      + before)
  | _ => after.body.drop before

namespace Strand

theorem toBasicBlock_flatten (k : Strand) :
    k.toBasicBlock.flatten = k.close.flatMap Block.code := by
  simp [toBasicBlock, BasicBlock.flatten, close, Block.code]

theorem toBasicBlock_structured (k : Strand) (merge : Instruction) :
    k.toBasicBlock.body ++ merge :: k.toBasicBlock.terminator.toList
      = (k.close merge).flatMap Block.code := by
  simp [toBasicBlock, close, Block.code]

theorem toBasicBlock_behind (k : Strand) (blocks : List Block) :
    (k.behind blocks).toBasicBlock
      = { k.toBasicBlock with body := blocks.flatMap Block.code ++ k.toBasicBlock.body } := by
  simp [toBasicBlock, behind]

theorem toBasicBlock_append (k : Strand) {values : List Instruction}
    (h : ∀ i ∈ values, i.IsOrdinary) :
    (k.append values).toBasicBlock = k.toBasicBlock.append values := by
  have hfilter : values.filter (·.op ∉ structural) = values :=
    List.filter_eq_self.mpr fun i hi => decide_eq_true (h i hi)
  rw [append, hfilter]
  simp [toBasicBlock, BasicBlock.append]

theorem head_toBasicBlock (k : Strand) :
    ∃ rest, k.toBasicBlock.body = { op := Op.label, result := k.entry } :: rest := by
  obtain ⟨done, label, body, terminator⟩ := k
  cases done with
  | nil => exact ⟨body, rfl⟩
  | cons b done => exact ⟨_, rfl⟩

end Strand

section Code

variable {s : State} {b : Id} {k : Strand}

theorem code_of_holds (h : loom.holds s b k) : s.code b = k.close.flatMap Block.code := by
  rw [State.code, show s.blocks.get? b = some k.toBasicBlock from h, Option.map_some,
    Option.getD_some, Strand.toBasicBlock_flatten]

theorem structured_of_holds (h : loom.holds s b k) (merge : Instruction) :
    s.structured b merge = (k.close merge).flatMap Block.code := by
  rw [State.structured, show s.blocks.get? b = some k.toBasicBlock from h]
  exact k.toBasicBlock_structured merge

theorem entryLabel_of_holds (h : loom.holds s b k) : s.entryLabel b = k.entry := by
  obtain ⟨rest, hhead⟩ := k.head_toBasicBlock
  have hget : s.blocks.get? b
      = some { body := { op := Op.label, result := k.entry } :: rest,
               terminator := k.toBasicBlock.terminator } := by
    rw [show s.blocks.get? b = some k.toBasicBlock from h, ← hhead]
  rw [State.entryLabel, hget]
  exact if_pos rfl

theorem block_of_holds (h : loom.holds s b k) : s.block b = k.toBasicBlock := by
  rw [State.block, show s.blocks.get? b = some k.toBasicBlock from h, Option.getD_some]

end Code

theorem final_go_congr {s s' : State} (h : s'.spliced = s.spliced) (n : Nat) (b : Id) :
    State.final.go s' n b = State.final.go s n b := by
  induction n generalizing b with
  | zero => rfl
  | succ n ih =>
    rw [State.final.go, State.final.go, h]
    cases s.spliced.get? b with
    | none => rfl
    | some next => exact ih next

theorem find_congr {s s' : State} (h : s'.spliced = s.spliced) : loom.find s' = loom.find s := by
  funext b
  simp only [loom, State.final, final_go_congr h, h]

/-- Code is found where it ends up if that did not move on. -/
theorem find_eq_some_iff {s : State} {b home : Id} :
    loom.find s b = some home ↔ s.final b = home ∧ s.spliced.get? home = none := by
  simp only [loom]
  cases hnone : s.spliced.get? (s.final b) with
  | none =>
    rw [Option.some.injEq]
    exact ⟨fun heq => ⟨heq, heq ▸ hnone⟩, And.left⟩
  | some next =>
    refine iff_of_false nofun ?_
    rintro ⟨rfl, hhome⟩
    rw [hnone] at hhome
    cases hhome

/-- The way to the old place of code that moves may have one step more. -/
theorem final_go_splice {s s' : State} {entered current : Id}
    (hget : ∀ c, s'.spliced.get? c = if c = entered then some current else s.spliced.get? c)
    (hne : entered ≠ current) (hentered : s.spliced.get? entered = none)
    (hcurrent : s.spliced.get? current = none) (n : Nat) {b home : Id}
    (hgo : State.final.go s n b = home) (hhome : s.spliced.get? home = none) :
    State.final.go s' (n + 1) b = if home = entered then current else home := by
  have hend (n : Nat) :
      State.final.go s' (n + 1) home = if home = entered then current else home := by
    rw [State.final.go, hget]
    by_cases heq : home = entered
    · rw [if_pos heq, if_pos heq]
      cases n with
      | zero => rfl
      | succ n => simp only [State.final.go, hget, if_neg hne.symm, hcurrent]
    · rw [if_neg heq, if_neg heq, hhome]
  induction n generalizing b with
  | zero =>
    obtain rfl : b = home := hgo
    exact hend 0
  | succ n ih =>
    cases hnext : s.spliced.get? b with
    | none =>
      obtain rfl : b = home := by rwa [State.final.go, hnext] at hgo
      exact hend (n + 1)
    | some next =>
      have hb : b ≠ entered := fun heq => by rw [heq, hentered] at hnext; cases hnext
      rw [State.final.go, hnext] at hgo
      rw [State.final.go, hget, if_neg hb, hnext]
      exact ih hgo

/-- Code that was found in a block is found in the block that it moves to. -/
theorem find_splice {s s' : State} {entered current b home : Id}
    (hs : s'.spliced = s.spliced.set entered current) (hne : entered ≠ current)
    (hentered : loom.find s entered = some entered) (hcurrent : loom.find s current = some current)
    (hb : loom.find s b = some home) :
    loom.find s' b = some (if home = entered then current else home) := by
  have hentered := (find_eq_some_iff.mp hentered).2
  have hcurrent := (find_eq_some_iff.mp hcurrent).2
  obtain ⟨hfinal, hhome⟩ := find_eq_some_iff.mp hb
  have hget (c : Id) :
      s'.spliced.get? c = if c = entered then some current else s.spliced.get? c := by
    rw [hs, Table.get?_set]
    simp only [beq_iff_eq]
  have hlength : s'.spliced.length = s.spliced.length + 1 := by
    rw [hs, Table.length_set_of_none hentered]
  refine find_eq_some_iff.mpr ⟨?_, ?_⟩
  · rw [State.final, hlength]
    exact final_go_splice hget hne hentered hcurrent _ hfinal hhome
  · rw [hget]
    by_cases heq : home = entered
    · rw [if_pos heq, if_neg hne.symm, hcurrent]
    · rw [if_neg heq, if_neg heq, hhome]

section Values

variable {g g' : Generator State}

theorem Extends.find_eq (h : Extends g g') : loom.find g'.target = loom.find g.target :=
  find_congr h.spliced

theorem Extends.keeps (h : Extends g g') : loom.Keeps [g.currentBlock] g.target g'.target := by
  intro b hb
  have hb : g'.target.blocks.get? b = g.target.blocks.get? b := h.others b (by simpa using hb)
  exact ⟨fun k hk => hb.trans hk, fun hvacant => hb.trans hvacant⟩

theorem Extends.holds (h : Extends g g') {k : Strand} (hk : loom.holds g.target g.currentBlock k) :
    loom.holds g'.target g.currentBlock
      (k.append ((g'.target.block g.currentBlock).body.drop
        (g.target.block g.currentBlock).body.length)) := by
  obtain ⟨new, hnew, hcode⟩ := h.code
  have hget : g.target.blocks.get? g.currentBlock = some k.toBasicBlock := hk
  have hpresent := h.present (by rw [hget]; rfl)
  obtain ⟨after, hafter⟩ := Option.isSome_iff_exists.mp hpresent
  have hblock : g'.target.block g.currentBlock = after := by rw [State.block, hafter]; rfl
  rw [hblock, block_of_holds hk] at hcode
  subst hcode
  show g'.target.blocks.get? g.currentBlock = _
  rw [hafter, hblock, block_of_holds hk]
  rw [show (k.toBasicBlock.append new).body.drop k.toBasicBlock.body.length = new by
    simp [BasicBlock.append], Strand.toBasicBlock_append k hnew]

end Values

/-- Whether nothing but the current block has changed. -/
structure Writes (g g' : Generator State) (v : BasicBlock) : Prop where
  rest : g' = { g with target := { g.target with blocks := g'.target.blocks } }
  blocks (b : Id) :
    g'.target.blocks.get? b = if b = g.currentBlock then some v else g.target.blocks.get? b

section Blocks

variable {g g' : Generator State}

theorem writes_currentBody {f : BasicBlock → BasicBlock} {u : Unit}
    (h : (currentBody >>= fun b => setCurrentBody (f b)) g = .ok (u, g')) :
    Writes g g' (f (g.target.block g.currentBlock)) := by
  obtain ⟨b, g₁, hbody, h⟩ := bind_eq_ok.mp h
  obtain ⟨_, _, hsame, hbody⟩ := bind_eq_ok.mp hbody
  obtain ⟨rfl, rfl⟩ := get_eq_ok.mp hsame
  obtain ⟨_, _, hsame, h⟩ := bind_eq_ok.mp h
  obtain ⟨rfl, rfl⟩ := get_eq_ok.mp hsame
  obtain rfl := modifyTarget_eq_ok.mp h
  cases hget : g.target.blocks.get? g.currentBlock with
  | some body =>
    simp only [hget, pure_eq_ok] at hbody
    obtain ⟨rfl, rfl⟩ := hbody
    refine ⟨rfl, fun b => ?_⟩
    simp [State.block, hget, Table.get?_set]
  | none =>
    simp only [hget] at hbody
    obtain ⟨_, _, hset, hbody⟩ := bind_eq_ok.mp hbody
    obtain rfl := modifyTarget_eq_ok.mp hset
    obtain ⟨rfl, rfl⟩ := pure_eq_ok.mp hbody
    refine ⟨rfl, fun b => ?_⟩
    by_cases hb : b = g.currentBlock <;> simp [State.block, hget, Table.get?_set, hb]

theorem Writes.of_add {i : Instruction} {u : Unit} (h : add i g = .ok (u, g')) :
    Writes g g' ((g.target.block g.currentBlock).append [i]) :=
  writes_currentBody (f := fun b => b.append [i]) h

namespace Writes

variable {v : BasicBlock}

theorem currentBlock (h : Writes g g' v) : g'.currentBlock = g.currentBlock := by
  rw [h.rest]

theorem nextId (h : Writes g g' v) : g'.nextId = g.nextId := by
  rw [h.rest]

theorem lastBlock (h : Writes g g' v) : g'.lastBlock = g.lastBlock := by
  rw [h.rest]

theorem spliced (h : Writes g g' v) : g'.target.spliced = g.target.spliced := by
  rw [h.rest]

theorem current (h : Writes g g' v) : g'.target.current = g.target.current := by
  rw [h.rest]

theorem functions (h : Writes g g' v) : g'.target.functions = g.target.functions := by
  rw [h.rest]

theorem keeps (h : Writes g g' v) : loom.Keeps [g.currentBlock] g.target g'.target := by
  intro b hb
  have hb : g'.target.blocks.get? b = g.target.blocks.get? b := by
    rw [h.blocks, if_neg (by simpa using hb)]
  exact ⟨fun k hk => hb.trans hk, fun hvacant => hb.trans hvacant⟩

theorem holds (h : Writes g g' v) {k : Strand} (hk : v = k.toBasicBlock) :
    loom.holds g'.target g.currentBlock k := by
  show g'.target.blocks.get? _ = _
  rw [h.blocks, if_pos rfl, hk]

theorem block (h : Writes g g' v) : g'.target.block g.currentBlock = v := by
  rw [State.block, h.blocks, if_pos rfl, Option.getD_some]

end Writes

theorem setBlock_eq_ok {id ended : Id} :
    (setBlock id : SpirvM Id) g = .ok (ended, g') ↔ ended = g.currentBlock
      ∧ g' = { g with lastBlock := g.currentBlock, currentBlock := id } := by
  simp only [setBlock, bind_eq_ok, get_eq_ok, set_eq_ok, pure_eq_ok]
  constructor
  · rintro ⟨_, _, ⟨rfl, rfl⟩, _, _, rfl, rfl, rfl⟩
    exact ⟨rfl, rfl⟩
  · rintro ⟨rfl, rfl⟩
    exact ⟨g, g, ⟨rfl, rfl⟩, ⟨⟩, _, rfl, rfl, rfl⟩

theorem enterBlock_spec {id : Id} {u : Unit} (h : enterBlock id g = .ok (u, g')) :
    Writes { g with lastBlock := g.currentBlock, currentBlock := id } g'
      ((g.target.block id).append [{ op := Op.label, result := id }]) := by
  obtain ⟨_, g₁, hset, hadd⟩ := bind_eq_ok.mp h
  obtain ⟨-, rfl⟩ := setBlock_eq_ok.mp hset
  exact .of_add hadd

/-- Ending a block sets its terminator and leaves no block to add to. -/
theorem terminate_spec {i : Instruction} {ended : Id} (h : terminate i g = .ok (ended, g')) :
    ended = g.currentBlock
      ∧ ∃ g₁, Writes g g₁ { g.target.block g.currentBlock with terminator := some i }
      ∧ g' = { g₁ with lastBlock := g.currentBlock, currentBlock := 0 } := by
  have h' : ((currentBody >>= fun b => setCurrentBody { b with terminator := some i })
      >>= fun _ => setBlock 0) g
      = .ok (ended, g') := by
    rw [bind_assoc]; exact h
  obtain ⟨_, g₁, hwrite, hset⟩ := bind_eq_ok.mp h'
  have hwrites := writes_currentBody (f := fun b => { b with terminator := some i }) hwrite
  obtain ⟨rfl, rfl⟩ := setBlock_eq_ok.mp hset
  rw [hwrites.currentBlock]
  exact ⟨rfl, g₁, hwrites, rfl⟩

/-- A block is ended once: behind its end there is nothing to do. -/
theorem terminateOr_cases {otherwise : Generator State → Id} {i : SpirvM Instruction} {ended : Id}
    (h : terminateOr otherwise i g = .ok (ended, g')) :
    (g.currentBlock = 0 ∧ ended = otherwise g ∧ g' = g)
      ∨ (g.currentBlock ≠ 0
        ∧ ∃ t g₁, i g = .ok (t, g₁) ∧ terminate t g₁ = .ok (ended, g')) := by
  obtain ⟨_, _, hget, h⟩ := bind_eq_ok.mp h
  obtain ⟨rfl, rfl⟩ := get_eq_ok.mp hget
  obtain ⟨hout, h⟩ | ⟨hin, h⟩ := ite_eq_ok.mp h
  · obtain ⟨rfl, rfl⟩ := pure_eq_ok.mp h
    exact .inl ⟨by simpa [isInBlock] using hout, rfl, rfl⟩
  · exact .inr ⟨by simpa [isInBlock] using hin, bind_eq_ok.mp h⟩

theorem splice_spec {entered : Id} {code : List Instruction} {u : Unit}
    (h : splice entered code g = .ok (u, g')) :
    ∃ g₁, Writes g g₁
        { g.target.block g.currentBlock with
          body := code ++ (g.target.block g.currentBlock).body }
      ∧ g' = { g₁ with
          target :=
            { g₁.target with spliced := g₁.target.spliced.set entered g.currentBlock } } := by
  have h' : ((currentBody >>= fun b => setCurrentBody { b with body := code ++ b.body })
      >>= fun _ => do
      let current := (← get).currentBlock
      modifyTarget fun s => { s with spliced := s.spliced.set entered current }) g
      = .ok (u, g') := by
    rw [bind_assoc]; exact h
  obtain ⟨_, g₁, hwrite, h'⟩ := bind_eq_ok.mp h'
  have hwrites := writes_currentBody (f := fun b => { b with body := code ++ b.body }) hwrite
  simp only [modifyTarget, bind_eq_ok, get_eq_ok, modify_eq_ok] at h'
  obtain ⟨_, _, ⟨rfl, rfl⟩, rfl⟩ := h'
  exact ⟨g₁, hwrites, by rw [← hwrites.currentBlock]⟩

/-- Putting a selection together is splicing the code of its blocks. -/
theorem emitIf_eq_splice (first yes no : Id) (hint : ControlHint) (g : Generator State) :
    emitIf first yes no hint g = splice first
      (g.target.structured first (mergeOf g.currentBlock hint) ++ g.target.code yes
        ++ g.target.code no) g :=
  rfl

/-- Putting a loop together is splicing the code of its blocks. -/
theorem emitLoop_eq_splice (first header conditionBlock body next : Id) (hint : ControlHint)
    (g : Generator State) :
    emitLoop first header conditionBlock body next hint g = splice first
      (g.target.code first ++ g.target.structured header (loopMergeOf g.currentBlock next hint)
        ++ (if conditionBlock = 0 then [] else g.target.code conditionBlock)
        ++ g.target.code body ++ g.target.code (g.target.final next)) g :=
  rfl

/-- Putting a selection with a value together is splicing its code and computing the value. -/
theorem emitPhi_eq_ok {first trueValue trueBlock falseValue falseBlock id : Id} {t : Ty} :
    emitPhi first trueValue trueBlock falseValue falseBlock t g = .ok (id, g') ↔
      ∃ g₁, splice first (phiCode g.target g.currentBlock first trueBlock falseBlock) g
        = .ok ((), g₁)
        ∧ (valueType t >>= fun type =>
          emit Op.phi type [trueValue, trueBlock, falseValue, falseBlock]) g₁ = .ok (id, g') := by
  change (splice first (phiCode g.target g.currentBlock first trueBlock falseBlock) >>= fun _ =>
    valueType t >>= fun type => emit Op.phi type [trueValue, trueBlock, falseValue, falseBlock]) g
    = _ ↔ _
  rw [bind_eq_ok]
  exact ⟨fun ⟨_, h⟩ => h, fun ⟨g₁, h⟩ => ⟨(), g₁, h⟩⟩

/-- The instruction that selects a section of a switch statement, with the labels it leads to. -/
def selecting (s : State) (t : Instruction) (defaultLabel : Id) (cases : List (UInt32 × Id)) :
    Instruction :=
  let targets := cases.flatMap fun (literal, label) => [literal, s.entryLabel label]
  { t with operands := t.operands.take 1 ++ s.entryLabel defaultLabel :: targets }

/-- A generator in which the selector of a switch statement leads to the sections. -/
def directed (g : Generator State) (first : Id) (body : List Instruction) (t : Instruction)
    (defaultLabel : Id) (cases : List (UInt32 × Id)) : Generator State :=
  let t := selecting g.target t defaultLabel cases
  { g with target :=
             { g.target with blocks := g.target.blocks.set first { body, terminator := some t } } }

/-- The code that a switch statement is put together from, once its selector leads
to the sections. -/
def switchCode (g : Generator State) (first defaultLabel : Id) (cases : List (UInt32 × Id))
    (hint : ControlHint) :
    List Instruction :=
  let labels := distinct (cases.map (·.2))
  g.target.structured first (mergeOf g.currentBlock hint) ++ labels.flatMap g.target.code
    ++ if defaultLabel ≠ g.currentBlock && !labels.contains defaultLabel then
      g.target.code defaultLabel else []

/-- Putting a switch statement together is splicing its code once its selector leads
to the sections. -/
theorem emitSwitch_eq_splice {first defaultLabel : Id} {cases : List (UInt32 × Id)}
    {hint : ControlHint} {body : List Instruction} {t : Instruction}
    (hget : g.target.blocks.get? first = some ⟨body, some t⟩) (hop : t.op = Op.switch) :
    emitSwitch first defaultLabel cases hint g
      = splice first (switchCode (directed g first body t defaultLabel cases) first defaultLabel
        cases hint) (directed g first body t defaultLabel cases) := by
  rw [emitSwitch, bind_of_eq_ok (show getTarget g = .ok (g.target, g) from rfl)]
  simp only [hget]
  rw [if_pos hop]
  rfl

/-- Where the selector of a switch statement is not found, nothing happens. -/
theorem emitSwitch_cases {first defaultLabel : Id} {cases : List (UInt32 × Id)}
    {hint : ControlHint} {u : Unit} (h : emitSwitch first defaultLabel cases hint g = .ok (u, g')) :
    g' = g ∨ ∃ body t t' code, g.target.blocks.get? first = some ⟨body, some t⟩
      ∧ t'.result = t.result
      ∧ splice first code
        { g with target :=
                   { g.target with blocks := g.target.blocks.set first ⟨body, some t'⟩ } }
        = .ok (u, g') := by
  have hrun := h
  rw [emitSwitch, bind_of_eq_ok (show getTarget g = .ok (g.target, g) from rfl)] at hrun
  cases hget : g.target.blocks.get? first with
  | none =>
    simp only [hget] at hrun
    exact .inl (pure_eq_ok.mp hrun).2.symm
  | some b =>
    obtain ⟨body, _ | t⟩ := b
    · simp only [hget] at hrun
      exact .inl (pure_eq_ok.mp hrun).2.symm
    · by_cases hop : t.op = Op.switch
      · rw [emitSwitch_eq_splice hget hop] at h
        exact .inr ⟨body, t, selecting g.target t defaultLabel cases, _, rfl, rfl, h⟩
      · simp only [hget, if_neg hop] at hrun
        exact .inl (pure_eq_ok.mp hrun).2.symm

end Blocks

section Ends

variable {g g' : Generator State}

/-- What is known of a block that was ended by an instruction, behind others that were
computed for it. -/
structure EndedBy (g g₁ g' : Generator State) (ended : Id) (new : List Instruction)
    (t : Instruction) : Prop where
  ended : ended = g.currentBlock
  current : g'.currentBlock = 0
  last : g'.lastBlock = g.currentBlock
  find : loom.find g'.target = loom.find g.target
  keeps : loom.Keeps [g.currentBlock] g.target g'.target
  ordinary : ∀ j ∈ new, j.IsOrdinary
  code : g₁.target.block g.currentBlock = (g.target.block g.currentBlock).append new
  block : g'.target.block g.currentBlock
    = { (g.target.block g.currentBlock).append new with terminator := some t }
  holds : ∀ k, loom.holds g.target g.currentBlock k →
    loom.holds g'.target g.currentBlock { k.append new with terminator := some t }

/-- A block that is ended by some instruction, possibly computed from values. -/
theorem endedBy_of_terminateOr {otherwise : Generator State → Id} {i : SpirvM Instruction}
    {ended : Id} (h : terminateOr otherwise i g = .ok (ended, g')) (hi : Computes i)
    (hg : g.currentBlock ≠ 0) :
    ∃ t g₁ new, i g = .ok (t, g₁) ∧ EndedBy g g₁ g' ended new t := by
  obtain ⟨hzero, -⟩ | ⟨-, t, g₁, hrun, hterminate⟩ := terminateOr_cases h
  · exact absurd hzero hg
  have hextends := hi hrun
  obtain ⟨rfl, g₂, hwrites, rfl⟩ := terminate_spec hterminate
  obtain ⟨new, hnew, hcode⟩ := hextends.code
  have hcurrent := hextends.current
  have hblock := hwrites.block
  have hkeeps := hwrites.keeps
  rw [hcurrent] at hkeeps hblock ⊢
  refine ⟨t, g₁, new, hrun, rfl, rfl, rfl, ?_, ?_, hnew, hcode, ?_, fun k hk => ?_⟩
  · exact (find_congr hwrites.spliced).trans hextends.find_eq
  · intro b hb
    have hfirst := hextends.keeps b hb
    have hsecond := hkeeps b hb
    exact ⟨fun k hk => hsecond.1 k (hfirst.1 k hk), fun hvacant => hsecond.2 (hfirst.2 hvacant)⟩
  · rw [← hcode]
    exact hblock
  · show g₂.target.blocks.get? g.currentBlock = _
    rw [hwrites.blocks, if_pos hcurrent.symm, hcurrent, hcode, block_of_holds hk,
      ← Strand.toBasicBlock_append k hnew]
    rfl

/-- The instruction that a block ends with. -/
def IsTerminator (t : Instruction) : Ending → Prop
  | .giveBack _ => (t.op = Op.ret ∨ t.op = Op.returnValue) ∧ t.result = 0
  | e => t = terminator [] e

/-- No block ends with an instruction that has a result. -/
theorem IsTerminator.result {t : Instruction} {e : Ending} (h : IsTerminator t e) :
    t.result = 0 := by
  cases e with
  | giveBack => exact h.2
  | kill | switch | branch | branchIf => rw [h]; rfl

theorem returnInstruction (value : Id) :
    ∃ i : SpirvM Instruction, leaveAndReturn value = terminateOr (fun _ => 0) i ∧ Computes i
      ∧ ∀ g t g', i g = .ok (t, g') → (t.op = Op.ret ∨ t.op = Op.returnValue)
        ∧ t.result = 0 := by
  refine ⟨_, rfl, ?_, ?_⟩
  · grind
  · intro g t g' h
    obtain ⟨_, _, htarget, h⟩ := bind_eq_ok.mp h
    obtain ⟨rfl, rfl⟩ := getTarget_eq_ok.mp htarget
    cases hc : g.target.current with
    | none =>
      simp only [hc, pure_eq_ok] at h
      obtain ⟨rfl, -⟩ := h
      exact ⟨.inl rfl, rfl⟩
    | some f =>
      simp only [hc, ite_eq_ok, bind_eq_ok, pure_eq_ok] at h
      grind

theorem handle_ending {e : Ending} {ended : Id} (h : e.handle g = .ok (ended, g')) :
    ∃ otherwise i, terminateOr otherwise i g = .ok (ended, g') ∧ Computes i
      ∧ ∀ t g₁, i g = .ok (t, g₁) →
        IsTerminator t e ∧ (e.request.isQuiet = true → g₁ = g) := by
  have hfixed (t u : Instruction) (g₁ : Generator State)
      (h : (pure t : SpirvM Instruction) g = .ok (u, g₁)) :
      u = t ∧ g₁ = g :=
    ⟨(pure_eq_ok.mp h).1.symm, (pure_eq_ok.mp h).2.symm⟩
  cases e with
  | giveBack value =>
    obtain ⟨i, heq, hi, hop⟩ := returnInstruction value
    change leaveAndReturn value g = _ at h
    rw [heq] at h
    exact ⟨_, i, h, hi, fun t g₁ ht => ⟨hop g t g₁ ht, nofun⟩⟩
  | kill =>
    change leaveAndKill g = _ at h
    exact ⟨_, _, h, computes_pure _,
      fun t g₁ ht => (hfixed _ t g₁ ht).imp_right fun heq _ => heq⟩
  | switch selector target =>
    change leaveAndSwitch selector target g = _ at h
    exact ⟨_, _, h, computes_pure _,
      fun t g₁ ht => (hfixed _ t g₁ ht).imp_right fun heq _ => heq⟩
  | branch target flow =>
    change leaveAndBranch target g = _ at h
    exact ⟨_, _, h, computes_pure _,
      fun t g₁ ht => (hfixed _ t g₁ ht).imp_right fun heq _ => heq⟩
  | branchIf condition yes no =>
    change leaveAndBranchConditional condition yes no g = _ at h
    exact ⟨_, _, h, computes_pure _,
      fun t g₁ ht => (hfixed _ t g₁ ht).imp_right fun heq _ => heq⟩

/-- What is noted of the end of a block tells its code and its terminator. -/
theorem strand_leave {e : Ending} {t : Instruction} {new : List Instruction}
    (hnew : ∀ i ∈ new, i.IsOrdinary)
    (ht : IsTerminator t e) (hquiet : e.request.isQuiet = true → new = [])
    (hblock : g'.target.block g.currentBlock
      = { (g.target.block g.currentBlock).append new with terminator := some t }) (k : Strand) :
    weave.leave k e (noteOf observe e.request g g')
      = { k.append new with terminator := some t } := by
  have hdrop :
      (g'.target.block g.currentBlock).body.drop (g.target.block g.currentBlock).body.length
        = new := by
    simp [hblock, BasicBlock.append]
  have hplain {note : List Instruction} (ht : t = terminator [] e)
      (heq : terminator note e = terminator [] e)
      (hnote : note = new) : weave.leave k e note = { k.append new with terminator := some t } := by
    subst hnote
    simp only [weave, heq, ht]
  cases e with
  | giveBack value =>
    have hnote : noteOf observe (Ending.giveBack value).request g g' = new ++ [t] := by
      simp only [noteOf, Ending.request, Request.isQuiet, observe, hdrop]
      simp [hblock]
    have hreturn : ∀ i ∈ new, ¬(i.op = Op.ret ∨ i.op = Op.returnValue) := by
      rintro i hi (hop | hop) <;> exact hnew i hi (by rw [hop]; decide)
    have hstructural : t.op ∈ structural := by
      obtain hop | hop := ht.1 <;> rw [hop] <;> decide
    have hfind : (new ++ [t]).find? (fun i => decide (i.op = Op.ret ∨ i.op = Op.returnValue))
        = some t := by
      rw [List.find?_append, List.find?_eq_none.mpr (by simpa using hreturn), Option.none_or]
      exact List.find?_cons_of_pos (decide_eq_true ht.1)
    rw [hnote]
    simp only [weave, terminator, hfind, Option.getD_some, Strand.append, List.filter_append]
    simp [hstructural]
  | kill => exact hplain ht rfl hdrop
  | switch | branch | branchIf => exact hplain ht rfl (hquiet rfl).symm

theorem leave_spec {e : Ending} {ended : Id} (h : e.handle g = .ok (ended, g'))
    (hg : g.currentBlock ≠ 0) :
    ended = g.currentBlock ∧ g'.currentBlock = 0 ∧ g'.lastBlock = g.currentBlock
      ∧ loom.find g'.target = loom.find g.target
      ∧ loom.Keeps [g.currentBlock] g.target g'.target
      ∧ ∀ k, loom.holds g.target g.currentBlock k →
        loom.holds g'.target g.currentBlock (weave.leave k e (noteOf observe e.request g g')) := by
  obtain ⟨otherwise, i, hrun, hi, hterminator⟩ := handle_ending h
  obtain ⟨t, g₁, new, ht, hleft⟩ := endedBy_of_terminateOr hrun hi hg
  obtain ⟨ht, hquiet⟩ := hterminator t g₁ ht
  have hquiet (hr : e.request.isQuiet = true) : new = [] := by
    have hcode := hleft.code
    rw [hquiet hr] at hcode
    have hbody := congrArg BasicBlock.body hcode
    simpa [BasicBlock.append] using hbody
  refine ⟨hleft.ended, hleft.current, hleft.last, hleft.find, hleft.keeps, fun k hk => ?_⟩
  rw [strand_leave hleft.ordinary ht hquiet hleft.block]
  exact hleft.holds k hk

theorem stay_spec {target : Id} {flow : Flow} {ended : Id}
    (h : Backend.leaveAndBranch target flow g = .ok (ended, g')) (hg : g.currentBlock = 0) :
    ended = g.lastBlock ∧ g' = g := by
  obtain ⟨-, hended⟩ | ⟨hne, -⟩ := terminateOr_cases h
  · exact hended
  · exact absurd hg hne

end Ends

section Constructs

variable {g g₁ g' : Generator State} {entered : Id} {start : Strand}

theorem keeps_mono {changed more : List Id} {s s' : State} (h : loom.Keeps changed s s')
    (hsub : changed ⊆ more) :
    loom.Keeps more s s' :=
  fun b hb => h b fun hb' => hb (hsub hb')

/-- Splicing finished blocks puts them in front of the current one. -/
theorem splice_weaves {code : List Instruction} {blocks : List Block} {u : Unit}
    (h : splice entered code g = .ok (u, g')) (hcode : code = blocks.flatMap Block.code)
    (hstart : loom.holds g.target g.currentBlock start) :
    Moves weave loom entered g g' ∧ loom.Keeps [g.currentBlock] g.target g'.target
      ∧ loom.holds g'.target g.currentBlock (start.behind blocks) := by
  obtain ⟨g₁, hwrites, rfl⟩ := splice_spec h
  refine ⟨⟨hwrites.currentBlock, fun _ hne hentered hcurrent b home hb => ?_⟩, hwrites.keeps,
    hwrites.holds ?_⟩
  · refine find_splice ?_ hne hentered hcurrent hb
    rw [hwrites.spliced]
  · rw [hcode, Strand.toBasicBlock_behind, block_of_holds hstart]

/-- Code that was moved is found where values have been computed since. -/
theorem Extends.moves (h : Extends g₁ g') (hmoves : Moves weave loom entered g g₁) :
    Moves weave loom entered g g' where
  current := h.current.trans hmoves.current
  find hW hne hentered hcurrent b home hb := by
    rw [h.find_eq]
    exact hmoves.find hW hne hentered hcurrent b home hb

theorem ifElse_spec {s : Selection (List Instruction)} {u : Unit} {test yes no : Strand}
    (h : Backend.emitIf s.location s.condition s.conditionEnd s.yesEnd s.noEnd s.hint g
      = .ok (u, g')) (hmerge : g.currentBlock = s.merge)
    (hstart : loom.holds g.target s.merge start) (htest : loom.holds g.target s.conditionEnd test)
    (hyes : loom.holds g.target s.yesEnd yes) (hno : loom.holds g.target s.noEnd no) :
    Moves weave loom s.conditionEnd g g' ∧ loom.Keeps [s.merge] g.target g'.target
      ∧ loom.holds g'.target s.merge (weave.ifElse s start test yes no) := by
  rw [← hmerge] at hstart ⊢
  refine splice_weaves ((emitIf_eq_splice _ _ _ _ g).symm.trans h) ?_ hstart
  rw [structured_of_holds htest, code_of_holds hyes, code_of_holds hno, hmerge]
  simp only [List.flatMap_append]

/-- A selection that gives a value puts the blocks of its arms in front of the current one. -/
theorem phi_spec {conditionBlock trueValue trueBlock falseValue falseBlock id : Id} {t : Ty}
    {blocks : List Block}
    (h : emitPhi conditionBlock trueValue trueBlock falseValue falseBlock t g = .ok (id, g'))
    (hcode : phiCode g.target g.currentBlock conditionBlock trueBlock falseBlock
      = blocks.flatMap Block.code) (hstart : loom.holds g.target g.currentBlock start) :
    Moves weave loom conditionBlock g g' ∧ loom.Keeps [g.currentBlock] g.target g'.target
      ∧ loom.holds g'.target g.currentBlock ((start.behind blocks).append
        ((g'.target.block g.currentBlock).body.drop
          ((phiCode g.target g.currentBlock conditionBlock trueBlock falseBlock).length
            + (g.target.block g.currentBlock).body.length))) := by
  obtain ⟨g₁, hsplice, hvalue⟩ := emitPhi_eq_ok.mp h
  obtain ⟨t', g₂, htype, hemit⟩ := bind_eq_ok.mp hvalue
  obtain ⟨hmoves, hkeeps, hholds⟩ := splice_weaves hsplice hcode hstart
  have hextends : Extends g₁ g' :=
    (computes_valueType t _ htype).trans (computes_emit (by decide) _ _ hemit)
  refine ⟨hextends.moves hmoves, fun b hb => ?_, ?_⟩
  · have hfirst := hkeeps b hb
    have hsecond := hextends.keeps b (hmoves.current.symm ▸ hb)
    exact ⟨fun k hk => hsecond.1 k (hfirst.1 k hk), fun hvacant => hsecond.2 (hfirst.2 hvacant)⟩
  · have hlength : (g₁.target.block g.currentBlock).body.length
        = (phiCode g.target g.currentBlock conditionBlock trueBlock falseBlock).length
          + (g.target.block g.currentBlock).body.length := by
      rw [block_of_holds hholds, block_of_holds hstart, Strand.toBasicBlock_behind, ← hcode]
      exact List.length_append
    rw [← hlength]
    rw [← hmoves.current] at hholds ⊢
    exact hextends.holds hholds

theorem circuit_spec {location : Location} {condition left right leftValue rightValue merge id : Id}
    {t : Ty} {test yes : Strand}
    (h : Backend.emitPhi location condition left rightValue right leftValue left t g = .ok (id, g'))
    (hmerge : g.currentBlock = merge) (hne : [merge, right, left].Nodup)
    (hstart : loom.holds g.target merge start)
    (htest : loom.holds g.target left test) (hyes : loom.holds g.target right yes) :
    Moves weave loom left g g' ∧ loom.Keeps [merge] g.target g'.target
      ∧ loom.holds g'.target merge (weave.phi merge
        (observe (.emitPhi location condition left rightValue right leftValue left t) g g') start
        test (some yes) none) := by
  subst hmerge
  have hright : right ≠ left := by simp_all
  refine phi_spec h ?_ hstart
  simp only [phiCode, if_neg hright, if_pos, structured_of_holds htest, code_of_holds hyes,
    Option.map_some, Option.getD_some, Option.map_none, Option.getD_none, List.flatMap_append,
    List.flatMap_nil]

theorem choice_spec {location : Location}
    {condition conditionBlock yesValue yesEnd noValue noEnd merge id : Id}
    {t : Ty} {test yes no : Strand}
    (h : Backend.emitPhi location condition conditionBlock yesValue yesEnd noValue noEnd t g
      = .ok (id, g'))
    (hmerge : g.currentBlock = merge) (hne : [merge, noEnd, yesEnd, conditionBlock].Nodup)
    (hstart : loom.holds g.target merge start) (htest : loom.holds g.target conditionBlock test)
    (hyes : loom.holds g.target yesEnd yes) (hno : loom.holds g.target noEnd no) :
    Moves weave loom conditionBlock g g' ∧ loom.Keeps [merge] g.target g'.target
      ∧ loom.holds g'.target merge
        (weave.phi merge
          (observe (.emitPhi location condition conditionBlock yesValue yesEnd noValue noEnd t) g
            g') start test (some yes) (some no)) := by
  subst hmerge
  have hyesEnd : yesEnd ≠ conditionBlock := by simp_all
  have hnoEnd : noEnd ≠ conditionBlock := by simp_all
  refine phi_spec h ?_ hstart
  simp only [phiCode, if_neg hyesEnd, if_neg hnoEnd, structured_of_holds htest, code_of_holds hyes,
    code_of_holds hno, Option.map_some, Option.getD_some, List.flatMap_append]

/-- A loop puts all of its blocks in front of the one behind it. -/
theorem loop_spec {l : Looping (List Instruction)} {conditionEnd nextBlock : Id} {u : Unit}
    {before header body next : Strand} (test : Option Strand)
    (h : emitLoop l.before l.header conditionEnd l.bodyEnd l.next l.hint g = .ok (u, g'))
    (hmerge : g.currentBlock = l.merge) (hfound : loom.find g.target l.next = some nextBlock)
    (hstart : loom.holds g.target l.merge start) (hbefore : loom.holds g.target l.before before)
    (hheader : loom.holds g.target l.header header)
    (htest : (if conditionEnd = 0 then [] else g.target.code conditionEnd)
      = ((test.map Strand.close).getD []).flatMap Block.code)
    (hbody : loom.holds g.target l.bodyEnd body) (hnext : loom.holds g.target nextBlock next) :
    Moves weave loom l.before g g' ∧ loom.Keeps [l.merge] g.target g'.target
      ∧ loom.holds g'.target l.merge (weave.loop l start before header test body next) := by
  have hfinal : g.target.final l.next = nextBlock := by
    simp only [loom] at hfound
    split at hfound
    · exact Option.some.inj hfound
    · cases hfound
  rw [← hmerge] at hstart ⊢
  refine splice_weaves ((emitLoop_eq_splice _ _ _ _ _ _ g).symm.trans h) ?_ hstart
  rw [structured_of_holds hheader, code_of_holds hbefore, code_of_holds hbody, hfinal,
    code_of_holds hnext, htest, hmerge]
  simp only [List.flatMap_append]

end Constructs

section Switch

variable {g g' : Generator State} {s : State} {merge defaultLabel : Id}
  {sections : List (Labels × Strand)}

/-- A label is seen once, however often it appears. -/
theorem distinct_section (seen : List Id) {label : Id} (hlabel : label ∉ seen)
    (literals : List UInt32) :
    (literals.map fun _ => label).foldl
      (fun seen l => if seen.contains l then seen else seen ++ [l]) seen
      = if literals = [] then seen else seen ++ [label] := by
  cases literals with
  | nil => rfl
  | cons value literals =>
    have hrest :
        (literals.map fun _ => label).foldl (fun seen l =>
          if seen.contains l then seen else seen ++ [l]) (seen ++ [label]) = seen ++ [label] := by
      induction literals with
      | nil => rfl
      | cons _ _ ih => rw [List.map_cons, List.foldl_cons, if_pos (by simp), ih]
    rw [List.map_cons, List.foldl_cons, if_neg (by simpa using hlabel), hrest,
      if_neg (List.cons_ne_nil _ _)]

/-- The labels that cases lead to are those of the sections that have case labels,
in their order. -/
theorem distinct_cases (hne : (sections.map (·.1.ended)).Nodup) :
    distinct ((Labels.cases (sections.map (·.1))).map (·.2))
      = (sections.filter (·.1.literals ≠ [])).map (·.1.ended) := by
  suffices h : ∀ seen : List Id, (seen ++ sections.map (·.1.ended)).Nodup →
      ((Labels.cases (sections.map (·.1))).map (·.2)).foldl
          (fun seen l => if seen.contains l then seen else seen ++ [l]) seen
        = seen ++ (sections.filter (·.1.literals ≠ [])).map (·.1.ended) from
    h [] hne
  clear hne
  induction sections with
  | nil => exact fun seen _ => (List.append_nil seen).symm
  | cons c sections ih =>
    intro seen hne
    have hlabel : c.1.ended ∉ seen := fun h => (List.nodup_append.mp hne).2.2 _ h _ (by simp) rfl
    simp only [Labels.cases, List.map_cons, List.flatMap_cons, List.map_append, List.map_map,
      List.foldl_append]
    rw [show ((fun p : UInt32 × Id => p.2) ∘ fun value => (value, c.1.ended))
      = fun _ => c.1.ended from rfl, distinct_section seen hlabel]
    by_cases hnone : c.1.literals = []
    · rw [if_pos hnone, List.filter_cons_of_neg (by simpa using hnone)]
      exact ih seen (hne.sublist ((List.sublist_cons_self _ _).append_left _))
    · rw [if_neg hnone, List.filter_cons_of_pos (by simpa using hnone)]
      refine (ih (seen ++ [c.1.ended]) (by simpa using hne)).trans ?_
      simp

/-- The code of the sections of a switch statement, as it is put together. -/
theorem sections_code {s : State} (hapart : Labels.AreApart merge defaultLabel sections)
    (hsections : ∀ c ∈ sections, loom.holds s c.1.ended c.2) :
    let labels := distinct ((Labels.cases (sections.map (·.1))).map (·.2))
    labels.flatMap s.code
        ++ (if defaultLabel ≠ merge && !labels.contains defaultLabel then
          s.code defaultLabel else [])
      = ((reachable sections).flatMap (·.2.close)).flatMap Block.code := by
  intro labels
  have hlabels : labels = (sections.filter (·.1.literals ≠ [])).map (·.1.ended) :=
    distinct_cases hapart.nodup
  have hlabelled : labels.flatMap s.code
      = ((sections.filter (·.1.literals ≠ [])).flatMap (·.2.close)).flatMap Block.code := by
    simp only [hlabels, List.flatMap_map, List.flatMap_assoc]
    exact List.flatMap_congr fun c hc => code_of_holds (hsections c (List.mem_filter.mp hc).1)
  rw [reachable, List.flatMap_append, List.flatMap_append, hlabelled, Labels.filter_bareDefault]
  congr 1
  obtain ⟨hnone, rfl⟩ | ⟨c, hone, rfl⟩ := hapart.default_cases
  · simp [hnone]
  · have hc : c ∈ sections.filter (·.1.isDefault) := by
      rw [hone]; exact List.mem_singleton.mpr rfl
    have hc := (List.mem_filter.mp hc).1
    have hmem : c.1.ended ∈ labels ↔ c.1.literals ≠ [] :=
      hlabels ▸ hapart.ended_mem_labelled hc
    by_cases hlit : c.1.literals = []
    · simp [hone, hlit, hapart.ended_ne_merge hc, hmem, code_of_holds (hsections c hc)]
    · simp [hone, hlit, hmem]

theorem entryLabel_default {s : State} {start : Strand}
    (hapart : Labels.AreApart merge defaultLabel sections) (hstart : loom.holds s merge start)
    (hsections : ∀ c ∈ sections, loom.holds s c.1.ended c.2) :
    s.entryLabel defaultLabel = defaultEntry start sections := by
  rw [defaultEntry, ← List.head?_filter]
  obtain ⟨hnone, rfl⟩ | ⟨c, hone, rfl⟩ := hapart.default_cases
  · rw [hnone]
    exact entryLabel_of_holds hstart
  · have hc : c ∈ sections.filter (·.1.isDefault) := by
      rw [hone]; exact List.mem_singleton.mpr rfl
    rw [hone]
    exact entryLabel_of_holds (hsections c (List.mem_filter.mp hc).1)

theorem caseTargets_cases {s : State} (hsections : ∀ c ∈ sections, loom.holds s c.1.ended c.2) :
    (Labels.cases (sections.map (·.1))).flatMap (fun p => [p.1, s.entryLabel p.2])
      = caseTargets sections := by
  simp only [Labels.cases, caseTargets, List.flatMap_map, List.flatMap_assoc]
  refine List.flatMap_congr fun c hc => ?_
  rw [entryLabel_of_holds (hsections c hc)]

/-- The code of a selector that leads to the sections of its switch statement. -/
def dispatch (s : State) (d : Dispatch (List Instruction)) (selector : Strand)
    (cases : List (UInt32 × Id)) :
    Strand :=
  let targets := cases.flatMap fun p => [p.1, s.entryLabel p.2]
  let operands := d.selector :: s.entryLabel d.defaultLabel :: targets
  { selector with terminator := some { op := Op.switch, operands } }

/-- A generator with the code of a selector that is complete. -/
def dispatched (g : Generator State) (selectorEnd : Id) (k : Strand) : Generator State :=
  { g with target := { g.target with blocks := g.target.blocks.set selectorEnd k.toBasicBlock } }

/-- Once the selector is complete, putting a switch statement together is splicing its code. -/
theorem emitSwitch_eq_ok {d : Dispatch (List Instruction)} {u : Unit} {selector : Strand}
    {cases : List (UInt32 × Id)}
    (h : emitSwitch d.selectorEnd d.defaultLabel cases d.hint g = .ok (u, g'))
    (hselector : loom.holds g.target d.selectorEnd
      (weave.leave selector (.switch d.selector d.merge) default)) :
    let g₁ := dispatched g d.selectorEnd (dispatch g.target d selector cases)
    let s := g₁.target
    let labels := distinct (cases.map (·.2))
    splice d.selectorEnd (s.structured d.selectorEnd (mergeOf g.currentBlock d.hint)
      ++ (labels.flatMap s.code
      ++ if d.defaultLabel ≠ g.currentBlock && !labels.contains d.defaultLabel then
        s.code d.defaultLabel else []))
      g₁ = .ok (u, g') := by
  have hget : g.target.blocks.get? d.selectorEnd = some
      { selector.toBasicBlock with
        terminator := some { op := Op.switch, operands := [d.selector, d.merge] } } := by
    have hselector : g.target.blocks.get? d.selectorEnd = some _ := hselector
    rw [hselector, show (default : List Instruction) = [] from rfl]
    simp [weave, Strand.append, Strand.toBasicBlock, terminator]
  rw [emitSwitch_eq_splice hget rfl, switchCode, List.append_assoc] at h
  exact h

/-- Completing the selector changes the code of its block only. -/
theorem dispatched_spec (g : Generator State) (selectorEnd : Id) (k : Strand) :
    (dispatched g selectorEnd k).currentBlock = g.currentBlock
      ∧ loom.find (dispatched g selectorEnd k).target = loom.find g.target
      ∧ loom.holds (dispatched g selectorEnd k).target selectorEnd k
      ∧ loom.Keeps [selectorEnd] g.target (dispatched g selectorEnd k).target := by
  have hblocks (b : Id) : (dispatched g selectorEnd k).target.blocks.get? b
      = if b = selectorEnd then some k.toBasicBlock else g.target.blocks.get? b := by
    simp [dispatched, Table.get?_set]
  refine ⟨rfl, find_congr rfl, ?_, fun b hb => ?_⟩
  · show (dispatched g selectorEnd k).target.blocks.get? _ = _
    rw [hblocks, if_pos rfl]
  · have hb : (dispatched g selectorEnd k).target.blocks.get? b = g.target.blocks.get? b := by
      rw [hblocks, if_neg (by simpa using hb)]
    exact ⟨fun k hk => hb.trans hk, fun hvacant => hb.trans hvacant⟩

theorem switch_spec {d : Dispatch (List Instruction)} {u : Unit} {start selector : Strand}
    (h : emitSwitch d.selectorEnd d.defaultLabel (Labels.cases (sections.map (·.1))) d.hint g
      = .ok (u, g')) (hmerge : g.currentBlock = d.merge)
    (hne : (d.merge :: d.selectorEnd :: sections.map (·.1.ended)).Nodup)
    (hne' : d.merge ≠ 0 ∧ ∀ c ∈ sections, c.1.ended ≠ 0)
    (hlabels : Labels.Proper d.merge d.defaultLabel (sections.map (·.1)))
    (hstart : loom.holds g.target d.merge start)
    (hselector : loom.holds g.target d.selectorEnd
      (weave.leave selector (.switch d.selector d.merge) default))
    (hsections : ∀ c ∈ sections, loom.holds g.target c.1.ended c.2) :
    Moves weave loom d.selectorEnd g g' ∧ loom.Keeps [d.merge, d.selectorEnd] g.target g'.target
      ∧ loom.holds g'.target d.merge (weave.switch d start selector sections) := by
  obtain ⟨hapart, hend⟩ := Labels.areApart hne hne' hlabels
  have hother : d.merge ≠ d.selectorEnd := fun heq => hend (heq ▸ List.mem_cons_self)
  -- The selector's block gets a terminator with the first blocks of the sections, and is then
  -- put in front of the merge block together with their code.
  have h := emitSwitch_eq_ok h hselector
  simp only at h
  have hdispatch : dispatch g.target d selector (Labels.cases (sections.map (·.1)))
      = { selector with terminator := some (switchOf d start sections) } := by
    simp only [dispatch, switchOf, caseTargets_cases hsections,
      entryLabel_default hapart hstart hsections]
  rw [hdispatch] at h
  generalize hk : { selector with terminator := some (switchOf d start sections) } = k at h
  obtain ⟨hcurrent, hfind, hselected, hkeeps⟩ := dispatched_spec g d.selectorEnd k
  generalize dispatched g d.selectorEnd k = g₁ at h hcurrent hfind hselected hkeeps
  have hsections₁ : ∀ c ∈ sections, loom.holds g₁.target c.1.ended c.2 := fun c hc => by
    have hne : c.1.ended ≠ d.selectorEnd := fun heq =>
      hend (heq ▸ List.mem_cons_of_mem _ (List.mem_map.mpr ⟨c, hc, rfl⟩))
    exact (hkeeps _ (List.mem_singleton.not.mpr hne)).1 _ (hsections c hc)
  have hstart₁ : loom.holds g₁.target g₁.currentBlock start := by
    rw [hcurrent, hmerge]
    exact (hkeeps _ (List.mem_singleton.not.mpr hother)).1 _ hstart
  have hcode := sections_code hapart hsections₁
  rw [hmerge] at h
  simp only at hcode
  rw [structured_of_holds hselected, hcode, ← List.flatMap_append] at h
  obtain ⟨hmoves, hkeeps', hholds⟩ := splice_weaves h rfl hstart₁
  rw [hcurrent, hmerge] at hkeeps' hholds
  refine ⟨⟨hmoves.current.trans hcurrent, fun hW hne hentered hhere b home hb => ?_⟩,
    fun b hb => ?_, ?_⟩
  · have hfound := hmoves.find hW
    rw [hfind, hcurrent] at hfound
    exact hfound hne hentered hhere b home hb
  · rw [List.mem_cons, not_or] at hb
    have hfirst := hkeeps b hb.2
    have hsecond := hkeeps' b (List.mem_singleton.not.mpr hb.1)
    exact ⟨fun k hk => hsecond.1 k (hfirst.1 k hk), fun hvacant => hsecond.2 (hfirst.2 hvacant)⟩
  · rw [← hk] at hholds
    exact hholds

end Switch

section Models

variable {g g' : Generator State}

/-- What is noted of a plain request is what it adds to the current block. -/
theorem note_plain {r : Request} {answer : r.Answer} (h : r.handle g = .ok (answer, g'))
    (hr : r.isPlain = true) :
    noteOf observe r g g'
      = (g'.target.block g.currentBlock).body.drop (g.target.block g.currentBlock).body.length := by
  have hask {α : Type} {f : Generator State → α} {a : α}
      (h : (do return f (← get) : SpirvM α) g = .ok (a, g')) :
      [] = (g'.target.block g.currentBlock).body.drop
        (g.target.block g.currentBlock).body.length := by
    simp only [bind_eq_ok, get_eq_ok, pure_eq_ok] at h
    obtain ⟨_, _, ⟨rfl, rfl⟩, -, rfl⟩ := h
    exact List.drop_length.symm
  cases r with
  | isInFunction | findStruct | findTexture | findFunction => exact hask h
  | defineVariable location t name isGlobal init =>
    cases isGlobal with
    | false => rfl
    | true => cases hr
  | load | store | constant | unary | binary | select | call | callIntrinsic | construct => rfl
  | _ => cases hr

theorem plain_spec {r : Request} {answer : r.Answer} (h : r.handle g = .ok (answer, g'))
    (hr : r.isPlain = true) :
    Adds loom g g' ∧ loom.Keeps [g.currentBlock] g.target g'.target
      ∧ ∀ k, loom.holds g.target g.currentBlock k →
        loom.holds g'.target g.currentBlock (weave.add k (noteOf observe r g g')) := by
  have hextends := computes_handle (.inl hr) h
  refine ⟨⟨hextends.current, hextends.find_eq⟩, hextends.keeps, fun k hk => ?_⟩
  rw [note_plain h hr]
  exact hextends.holds hk

theorem enter_spec {id : Id} {u : Unit} (h : Backend.enterBlock id g = .ok (u, g')) :
    g'.currentBlock = id ∧ g'.lastBlock = g.currentBlock ∧ g'.nextId = g.nextId
      ∧ loom.find g'.target = loom.find g.target ∧ loom.Keeps [id] g.target g'.target
      ∧ (loom.vacant g.target id → loom.holds g'.target id (weave.enter id)) := by
  have hwrites := enterBlock_spec h
  refine ⟨hwrites.currentBlock, hwrites.lastBlock, hwrites.nextId, find_congr hwrites.spliced,
    hwrites.keeps, fun hvacant => ?_⟩
  have hempty : g.target.block id = {} := by
    rw [State.block, show g.target.blocks.get? id = none from hvacant]
    rfl
  exact hwrites.holds (by rw [hempty]; rfl)

/-- The binary target puts code together as its weave says. -/
theorem models : weave.Models loom observe where
  nextId_le h := countsUp_handle _ h
  plain h hr _ := plain_spec h hr
  enter h := enter_spec h
  leave h hg := leave_spec h hg
  stay h hg := stay_spec h hg
  ifElse h _ hmerge _ hstart htest hyes hno :=
    have ⟨hmoves, hkeeps, hholds⟩ := ifElse_spec h hmerge hstart htest hyes hno
    ⟨hmoves, keeps_mono hkeeps (by simp), hholds⟩
  circuit h hmerge hne hstart htest hyes :=
    have ⟨hmoves, hkeeps, hholds⟩ := circuit_spec h hmerge hne hstart htest hyes
    ⟨hmoves, keeps_mono hkeeps (by simp), hholds, (hkeeps _ (by simp_all [eq_comm])).1 _ htest⟩
  choice h hmerge hne hstart htest hyes hno :=
    have ⟨hmoves, hkeeps, hholds⟩ := choice_spec h hmerge hne hstart htest hyes hno
    ⟨hmoves, keeps_mono hkeeps (by simp), hholds, (hkeeps _ (by simp_all [eq_comm])).1 _ htest⟩
  whileLoop h _ hmerge _ htest' hfound hstart hbefore hheader htest hbody hnext :=
    have ⟨hmoves, hkeeps, hholds⟩ := loop_spec (some _) h hmerge hfound hstart hbefore hheader
      ((if_neg htest').trans (code_of_holds htest)) hbody hnext
    ⟨hmoves, keeps_mono hkeeps (by simp), hholds⟩
  doLoop h _ hmerge _ hfound hstart hbefore hheader hbody hnext :=
    have ⟨hmoves, hkeeps, hholds⟩ := loop_spec none h hmerge hfound hstart hbefore hheader
      (if_pos rfl) hbody hnext
    ⟨hmoves, keeps_mono hkeeps (by simp), hholds⟩
  switch h _ hmerge hne hne' hlabels hstart hselector hsections :=
    have ⟨hmoves, hkeeps, hholds⟩ :=
      switch_spec h hmerge hne hne' hlabels hstart hselector hsections
    ⟨hmoves, keeps_mono hkeeps (by simp), hholds⟩

end Models

end ShaderEffect.Spirv

import ShaderEffect.Proofs.Spirv.Structure
import ShaderEffect.Proofs.Spirv.Weaving
import ShaderEffect.Proofs.Weave.Simulation

namespace ShaderEffect.Spirv

open Generator

/-- Whether functions have not changed, apart from new variables of the one being generated. -/
structure Inside (g g' : Generator State) : Prop where
  functions : g'.target.functions = g.target.functions
  locals : ∃ new : List Instruction, (∀ i ∈ new, i.IsLocal)
    ∧ g'.target.current = g.target.current.map (·.addLocals new)

namespace Inside

variable {g g₁ g' : Generator State}

theorem of_eq (hfunctions : g'.target.functions = g.target.functions)
    (hcurrent : g'.target.current = g.target.current) : Inside g g' :=
  ⟨hfunctions, [], nofun, by simp [hcurrent]⟩

theorem trans (h : Inside g g₁) (h' : Inside g₁ g') : Inside g g' := by
  obtain ⟨new, hnew, hlocals⟩ := h.locals
  obtain ⟨more, hmore, hlocals'⟩ := h'.locals
  refine ⟨h'.functions.trans h.functions, new ++ more,
    fun i hi => (List.mem_append.mp hi).elim (hnew i) (hmore i), ?_⟩
  rw [hlocals', hlocals, Option.map_map]
  simp [Function.comp_def]

end Inside

variable {g g' : Generator State}

theorem Extends.inside (h : Extends g g') : Inside g g' :=
  ⟨h.functions, h.locals⟩

theorem Writes.inside {v : BasicBlock} (h : Writes g g' v) : Inside g g' :=
  .of_eq h.functions h.current

theorem inside_splice {entered : Id} {code : List Instruction} {u : Unit}
    (h : splice entered code g = .ok (u, g')) :
    Inside g g' := by
  obtain ⟨g₁, hwrites, rfl⟩ := splice_spec h
  exact hwrites.inside.trans (.of_eq rfl rfl)

theorem inside_ending {e : Ending} {ended : Id} (h : e.handle g = .ok (ended, g')) :
    Inside g g' := by
  obtain ⟨otherwise, i, hrun, hi, -⟩ := handle_ending h
  obtain ⟨-, -, rfl⟩ | ⟨-, t, g₁, ht, hterminate⟩ := terminateOr_cases hrun
  · exact .of_eq rfl rfl
  · obtain ⟨-, g₂, hwrites, rfl⟩ := terminate_spec hterminate
    exact (hi ht).inside.trans (hwrites.inside.trans (.of_eq rfl rfl))

theorem inside_emitPhi {conditionBlock trueValue trueBlock falseValue falseBlock id : Id} {t : Ty}
    (h : emitPhi conditionBlock trueValue trueBlock falseValue falseBlock t g = .ok (id, g')) :
    Inside g g' := by
  obtain ⟨g₁, hsplice, hvalue⟩ := emitPhi_eq_ok.mp h
  obtain ⟨t', g₂, htype, hemit⟩ := bind_eq_ok.mp hvalue
  exact (inside_splice hsplice).trans
    ((computes_valueType t _ htype).trans (computes_emit (by decide) _ _ hemit)).inside

theorem inside_emitSwitch {selectorBlock defaultLabel : Id} {cases : List (UInt32 × Id)}
    {hint : ControlHint} {u : Unit}
    (h : emitSwitch selectorBlock defaultLabel cases hint g = .ok (u, g')) : Inside g g' := by
  obtain rfl | ⟨body, t, t', code, -, -, hsplice⟩ := emitSwitch_cases h
  · exact .of_eq rfl rfl
  · have hinside := inside_splice hsplice
    exact ⟨hinside.functions, hinside.locals⟩

/-- Requests made for the body of a function leave functions as they are. -/
theorem inside_handle {r : Request} {answer : r.Answer} (hr : r.isInside = true)
    (h : r.handle g = .ok (answer, g')) : Inside g g' := by
  cases r with
  | isInBlock =>
    obtain ⟨-, rfl⟩ := handle_isInBlock.mp h
    exact .of_eq rfl rfl
  | makeId => exact (computes_makeId h).inside
  | setBlock id =>
    obtain ⟨-, rfl⟩ := setBlock_eq_ok.mp h
    exact .of_eq rfl rfl
  | enterBlock id => exact .of_eq (enterBlock_spec h).functions (enterBlock_spec h).current
  | leaveAndKill => exact inside_ending (e := .kill) h
  | leaveAndReturn value => exact inside_ending (e := .giveBack value) h
  | leaveAndSwitch selector target => exact inside_ending (e := .switch selector target) h
  | leaveAndBranch target flow => exact inside_ending (e := .branch target flow) h
  | leaveAndBranchConditional condition yes no =>
    exact inside_ending (e := .branchIf condition yes no) h
  | emitIf location condition conditionBlock yes no hint =>
    exact inside_splice ((emitIf_eq_splice conditionBlock yes no hint g).symm.trans h)
  | emitPhi => exact inside_emitPhi h
  | emitLoop location condition before header conditionBlock body next hint =>
    exact inside_splice
      ((emitLoop_eq_splice before header conditionBlock body next hint g).symm.trans h)
  | emitSwitch => exact inside_emitSwitch h
  | defineVariable location t name isGlobal init =>
    cases isGlobal with
    | false => exact (computes_handle (.inl rfl) h).inside
    | true => cases hr
  | isInFunction | findStruct | findTexture | findFunction | load | store | constant | unary
    | binary | select
  | call | callIntrinsic | construct => exact (computes_handle (.inl rfl) h).inside
  | _ => cases hr

/-- The requests of the body of a function leave functions as they are. -/
theorem inside_runs {es : List (Entry (List Instruction))} (hes : areInside es = true)
    (h : Runs observe g es g') : Inside g g' := by
  induction es generalizing g with
  | nil =>
    obtain rfl := h
    exact .of_eq rfl rfl
  | cons e es ih =>
    obtain ⟨g₁, hrun, -, hruns⟩ := h
    rw [areInside_cons, Bool.and_eq_true] at hes
    exact (inside_handle hes.1 hrun).trans (ih hes.2 hruns)

/-- The instructions of a function. Its variables stand behind the first label. -/
def FunctionCode.code (f : FunctionCode) : List Instruction :=
  f.declaration.toList ++ f.definition.take 1 ++ f.locals.toList ++ f.definition.drop 1

/-- Whether the parts of a function are well formed. Lines may be recorded in front of
what is declared. -/
structure WellFormed (choices : List Choices) (signature : List Instruction) (blocks : List Block) :
    Prop where
  signature : ∃ n, (signature.filter (·.op ≠ Op.line)).map (·.op)
    = Op.function :: List.replicate n Op.functionParameter
  nonempty : blocks ≠ []
  labels : (labelsOf blocks).Nodup
  blocks : ∀ b ∈ blocks, b.Proper blocks choices

/-- Whether some instructions are a well-formed function. -/
def IsFunction (choices : List Choices) (code : List Instruction) : Prop :=
  ∃ signature blocks, WellFormed choices signature blocks
    ∧ code = signature ++ blocks.flatMap Block.code ++ [{ op := Op.functionEnd }]

def FunctionCode.declare (f : FunctionCode) (new : List Instruction) : FunctionCode :=
  { f with declaration := f.declaration ++ new.toArray }

/-- Whether parts of a function were declared between two states, and apart from that only
values were computed. -/
structure Declares (new : List Instruction) (g g' : Generator State) : Prop where
  current : g'.currentBlock = g.currentBlock
  last : g'.lastBlock = g.lastBlock
  nextId : g.nextId ≤ g'.nextId
  functions : g'.target.functions = g.target.functions
  spliced : g'.target.spliced = g.target.spliced
  others : ∀ b ≠ g.currentBlock, g'.target.blocks.get? b = g.target.blocks.get? b
  terminator :
    (g'.target.block g.currentBlock).terminator = (g.target.block g.currentBlock).terminator
  declared : ∃ locals : List Instruction, (∀ i ∈ locals, i.IsLocal)
    ∧ g'.target.current = g.target.current.map fun f => (f.addLocals locals).declare new

theorem Extends.declares {g g' : Generator State} (h : Extends g g') : Declares [] g g' where
  current := h.current
  last := h.last
  nextId := h.nextId
  functions := h.functions
  spliced := h.spliced
  others := h.others
  terminator := by
    obtain ⟨new, -, hcode⟩ := h.code
    rw [hcode, BasicBlock.append]
  declared := by
    obtain ⟨locals, hlocals, hcurrent⟩ := h.locals
    exact ⟨locals, hlocals, by simpa [FunctionCode.declare] using hcurrent⟩

theorem Declares.trans {new more : List Instruction} {g g₁ g' : Generator State}
    (h : Declares new g g₁) (h' : Declares more g₁ g') : Declares (new ++ more) g g' where
  current := h'.current.trans h.current
  last := h'.last.trans h.last
  nextId := Nat.le_trans h.nextId h'.nextId
  functions := h'.functions.trans h.functions
  spliced := h'.spliced.trans h.spliced
  others b hb := (h'.others b (h.current.symm ▸ hb)).trans (h.others b hb)
  terminator := (h.current ▸ h'.terminator).trans h.terminator
  declared := by
    obtain ⟨locals, hlocals, hcurrent⟩ := h.declared
    obtain ⟨others, hothers, hcurrent'⟩ := h'.declared
    refine ⟨locals ++ others,
      fun i hi => (List.mem_append.mp hi).elim (hlocals i) (hothers i), ?_⟩
    rw [hcurrent', hcurrent, Option.map_map]
    simp [Function.comp_def, FunctionCode.declare, FunctionCode.addLocals]

/-- Whether a part of the generator declares parts of a function, given by their operations. -/
def Signs {α : Type} (x : SpirvM α) (parts : List Opcode) : Prop :=
  ∀ ⦃g a g'⦄, x g = .ok (a, g') →
    ∃ new : List Instruction, (new.filter (·.op ≠ Op.line)).map (·.op) = parts
      ∧ Declares new g g'

section Rules

variable {α γ : Type} {parts more : List Opcode}

theorem Computes.signs {x : SpirvM α} (h : Computes x) : Signs x [] :=
  fun _ _ _ hx => ⟨[], rfl, (h hx).declares⟩

theorem signs_bind {x : SpirvM γ} {f : γ → SpirvM α} (hx : Signs x parts)
    (hf : ∀ c, Signs (f c) more) :
    Signs (x >>= f) (parts ++ more) := by
  intro g a g' h
  obtain ⟨c, g₁, hc, h⟩ := bind_eq_ok.mp h
  obtain ⟨new, hnew, hdeclares⟩ := hx hc
  obtain ⟨new', hnew', hdeclares'⟩ := hf c h
  exact ⟨new ++ new', by rw [List.filter_append, List.map_append, hnew, hnew'],
    hdeclares.trans hdeclares'⟩

/-- Goes on behind what only computes values. -/
theorem signs_behind {x : SpirvM γ} {f : γ → SpirvM α} (hx : Computes x)
    (hf : ∀ c, Signs (f c) parts) :
    Signs (x >>= f) parts :=
  signs_bind hx.signs hf

theorem declares_addDeclaration {i : Instruction} {g g' : Generator State} {u : Unit}
    (h : addDeclaration i g = .ok (u, g')) : Declares [i] g g' := by
  obtain ⟨code, hcurrent, rfl⟩ := modifyFunction_eq_ok.mp h
  refine ⟨rfl, rfl, Nat.le_refl _, rfl, rfl, fun _ _ => rfl, rfl, [], List.forall_mem_nil _, ?_⟩
  simp [hcurrent, FunctionCode.declare]

theorem signs_addDeclaration {i : Instruction} (hi : i.op ≠ Op.line) :
    Signs (addDeclaration i) [i.op] :=
  fun _ _ _ h => ⟨[i], by simp [hi], declares_addDeclaration h⟩

/-- Goes on behind recording a line. -/
theorem signs_line {location : Location} {f : SpirvM α} (hf : Signs f parts) :
    Signs (do
      if let some i ← lineInstruction location then addDeclaration i
      f) parts := by
  intro g a g' h
  obtain ⟨line, g₁, hline, h⟩ := bind_eq_ok.mp h
  obtain ⟨new, hnew, hdeclares⟩ : ∃ new : List Instruction,
      (new.filter (·.op ≠ Op.line)).map (·.op) = parts
      ∧ Declares new g₁ g' := by
    cases line with
    | none => exact hf h
    | some i =>
      obtain ⟨_, g₂, hadd, h⟩ := bind_eq_ok.mp h
      obtain ⟨new, hnew, hdeclares⟩ := hf h
      refine ⟨i :: new, ?_, (declares_addDeclaration hadd).trans hdeclares⟩
      rw [List.filter_cons_of_neg (by simp [lineInstruction_op hline]), hnew]
  exact ⟨new, hnew, (computes_lineInstruction _ hline).declares.trans hdeclares⟩

end Rules

theorem signs_declareParameter (p : Member) :
    Signs (declareParameter p) [Op.functionParameter] := by
  refine signs_line ?_
  refine signs_behind computes_makeId fun id =>
    signs_behind (computes_pointerType _ _ _) fun type => ?_
  refine signs_bind (signs_addDeclaration (by decide : Op.functionParameter ≠ Op.line))
    fun _ => Computes.signs ?_
  grind

theorem signs_parameters (ps : List Member) :
    Signs (ps.mapM declareParameter) (List.replicate ps.length Op.functionParameter) := by
  induction ps with
  | nil => exact (computes_pure _).signs
  | cons p ps ih =>
    rw [List.mapM_cons]
    refine signs_bind (signs_declareParameter p) fun _ => ?_
    rw [← List.append_nil (List.replicate ps.length Op.functionParameter)]
    exact signs_bind ih fun _ => (computes_pure _).signs

/-- A function is started with its declaration, and without code. -/
theorem startFunction_spec {location : Location} {decl made : FunctionDecl} {g g' : Generator State}
    (h : startFunction location decl g = .ok (made, g')) :
    ∃ new : List Instruction, (new.filter (·.op ≠ Op.line)).map (·.op)
        = Op.function :: List.replicate decl.parameters.length Op.functionParameter
      ∧ Declares new
        { g with target := { g.target with current := some { returnType := decl.returnType } } }
        g' := by
  obtain ⟨_, g₁, hset, h⟩ := bind_eq_ok.mp h
  obtain rfl := modify_eq_ok.mp hset
  refine signs_line ?_ h
  refine signs_behind computes_makeId fun id =>
    signs_behind (computes_valueType _ _) fun result => ?_
  refine signs_behind (computes_functionType _ _) fun type => ?_
  refine signs_bind (signs_addDeclaration (by decide : Op.function ≠ Op.line)) fun _ => ?_
  refine signs_behind (computes_addName _ _) fun _ => ?_
  rw [← List.append_nil (List.replicate _ Op.functionParameter)]
  exact signs_bind (signs_parameters _) fun _ => (computes_pure _).signs

/-- Blocks with variables behind the label of the first one. -/
def withLocals (locals : List Instruction) : List Block → List Block
  | [] => []
  | b :: rest => { b with body := locals ++ b.body } :: rest

theorem labelsOf_withLocals (locals : List Instruction) (blocks : List Block) :
    labelsOf (withLocals locals blocks) = labelsOf blocks := by
  cases blocks <;> rfl

theorem tail_withLocals (locals : List Instruction) (blocks : List Block) :
    (withLocals locals blocks).tail = blocks.tail := by
  cases blocks <;> rfl

theorem Instruction.IsLocal.isOrdinary {i : Instruction} (h : i.IsLocal) : i.IsOrdinary := by
  obtain h | h := h <;> rw [IsOrdinary, h] <;> decide

theorem Block.Proper.congr {choices : List Choices} {blocks blocks' : List Block} {b : Block}
    (h : b.Proper blocks choices) (hlabels : labelsOf blocks' = labelsOf blocks)
    (htail : blocks'.tail = blocks.tail) :
    b.Proper blocks' choices where
  body := h.body
  merge i hi := ⟨(h.merge i hi).op, hlabels ▸ (h.merge i hi).targets⟩
  terminator := by
    obtain ⟨i, hi, hterminates⟩ := h.terminator
    refine ⟨i, hi, hterminates.op, hlabels ▸ hterminates.targets, fun hswitch => ?_⟩
    obtain ⟨c, hc, hdispatches⟩ := hterminates.switch hswitch
    exact ⟨c, hc, hdispatches.operands, htail ▸ hdispatches.sections⟩

theorem WellFormed.withLocals {choices : List Choices} {signature locals : List Instruction}
    {blocks : List Block} (h : WellFormed choices signature blocks)
    (hlocals : ∀ i ∈ locals, i.IsLocal) :
    WellFormed choices signature (withLocals locals blocks) where
  signature := h.signature
  nonempty hnil := by
    cases blocks with
    | nil => exact h.nonempty rfl
    | cons => cases hnil
  labels := (labelsOf_withLocals locals blocks).symm ▸ h.labels
  blocks b hb := by
    have hproper {b : Block} (hb : b.Proper blocks choices) :=
      hb.congr (labelsOf_withLocals locals blocks) (tail_withLocals locals blocks)
    cases blocks with
    | nil => exact absurd rfl h.nonempty
    | cons first rest =>
      obtain rfl | hb := List.mem_cons.mp hb
      · have hfirst := hproper (h.blocks first List.mem_cons_self)
        refine ⟨fun i hi => ?_, hfirst.merge, hfirst.terminator⟩
        exact (List.mem_append.mp hi).elim (fun hi => (hlocals i hi).isOrdinary) (hfirst.body i)
      · exact hproper (h.blocks b (List.mem_cons_of_mem _ hb))

/-- A function whose parts are well formed is a well-formed function once its code
is put together. -/
theorem isFunction_code {choices : List Choices} {f : FunctionCode} {blocks : List Block}
    (h : WellFormed choices f.declaration.toList blocks)
    (hlocals : ∀ i ∈ f.locals.toList, i.IsLocal)
    (hdefinition : f.definition = blocks.flatMap Block.code ++ [{ op := Op.functionEnd }]) :
    IsFunction choices f.code := by
  refine ⟨_, _, h.withLocals hlocals, ?_⟩
  cases blocks with
  | nil => exact absurd rfl h.nonempty
  | cons b rest =>
    rw [FunctionCode.code, hdefinition]
    simp [withLocals, Block.code]

/-- A strand whose last block is ended, as the blocks of a function. -/
theorem wellFormed_close {choices : List Choices} {signature : List Instruction}
    {n : Nat} {k : Strand}
    (hsignature : (signature.filter (·.op ≠ Op.line)).map (·.op)
      = Op.function :: List.replicate n Op.functionParameter)
    (hlabels : k.labels.Nodup) (hk : k.Grows k.close choices) (hends : k.Ends k.close choices) :
    WellFormed choices signature k.close where
  signature := ⟨n, hsignature⟩
  nonempty := by simp [Strand.close]
  labels := by rwa [Strand.labelsOf_close]
  blocks := hk.close hends (by simp)

/-- What leaving a function does. -/
theorem leaveFunction_spec {g g' : Generator State} {u : Unit} {f : FunctionCode} {k : Strand}
    (h : leaveFunction g = .ok (u, g')) (hf : g.target.current = some f)
    (hk : loom.holds g.target g.lastBlock k) :
    g' = { g with target := { g.target with
      functions := g.target.functions.push
        { f with definition := k.close.flatMap Block.code ++ [{ op := Op.functionEnd }] }
      current := none
      blocks := []
      spliced := [] } } := by
  simp only [leaveFunction, modifyTarget, bind_eq_ok, get_eq_ok] at h
  obtain ⟨_, _, ⟨rfl, rfl⟩, h⟩ := h
  rw [hf] at h
  simp only [modify_eq_ok, code_of_holds hk] at h
  have hstarts :
      (k.close.flatMap Block.code ++ [({ op := Op.functionEnd } : Instruction)]).head?.any
      (·.op == Op.label) = true := by
    rw [← Strand.toBasicBlock_flatten]
    obtain ⟨rest, hhead⟩ := k.head_toBasicBlock
    simp [BasicBlock.flatten, hhead]
  rw [← h, if_pos hstarts]

/-- What holds of the state whenever no function is being generated. -/
structure Resting (g : Generator State) : Prop where
  positive : 0 < g.nextId
  block : g.currentBlock = 0
  current : g.target.current = none
  spliced : g.target.spliced = []
  blocks : ∀ b ≠ 0, g.target.blocks.get? b = none

/-- Whether, besides, all functions are well formed. -/
structure Between (choices : List Choices) (g : Generator State) : Prop extends Resting g where
  functions : ∀ f ∈ g.target.functions, IsFunction choices f.code

section Between

variable {choices : List Choices} {g g₁ g' : Generator State}

theorem Resting.extends (h : Resting g) (h' : Extends g g') : Resting g' where
  positive := Nat.lt_of_lt_of_le h.positive h'.nextId
  block := h'.current.trans h.block
  current := by
    obtain ⟨new, -, hlocals⟩ := h'.locals
    rw [hlocals, h.current]
    rfl
  spliced := h'.spliced.trans h.spliced
  blocks b hb := (h'.others b (h.block ▸ hb)).trans (h.blocks b hb)

theorem Between.extends (h : Between choices g) (h' : Extends g g') : Between choices g' :=
  ⟨h.toResting.extends h', h'.functions ▸ h.functions⟩

/-- Whether a function has been declared, and nothing but variables added to it. -/
def FunctionCode.IsDeclared (f : FunctionCode) : Prop :=
  (∀ i ∈ f.locals.toList, i.IsLocal)
    ∧ ∃ n, (f.declaration.toList.filter (·.op ≠ Op.line)).map (·.op)
    = Op.function :: List.replicate n Op.functionParameter

/-- What holds once a function has been declared. -/
structure Declared (g : Generator State) : Prop where
  positive : 0 < g.nextId
  spliced : g.target.spliced = []
  blocks : ∀ b ≠ 0, g.target.blocks.get? b = none
  current : ∃ f, g.target.current = some f ∧ f.IsDeclared

theorem Resting.startFunction {location : Location} {decl made : FunctionDecl} (h : Resting g)
    (hrun : startFunction location decl g = .ok (made, g')) :
    Declared g' ∧ g'.currentBlock = 0 ∧ g'.target.functions = g.target.functions := by
  obtain ⟨new, hnew, hdeclares⟩ := startFunction_spec hrun
  obtain ⟨locals, hlocals, hcurrent⟩ := hdeclares.declared
  refine ⟨⟨Nat.lt_of_lt_of_le h.positive hdeclares.nextId, hdeclares.spliced.trans h.spliced,
    fun b hb => (hdeclares.others b (h.block ▸ hb)).trans (h.blocks b hb), ?_⟩,
    hdeclares.current.trans h.block, hdeclares.functions⟩
  refine ⟨_, hcurrent, ?_, decl.parameters.length, ?_⟩
  · simpa [FunctionCode.declare, FunctionCode.addLocals] using hlocals
  · simpa [FunctionCode.declare, FunctionCode.addLocals] using hnew

/-- While the body of a function is generated, it stays declared. -/
theorem Declared.inside (h : Declared g) (h' : Inside g g') :
    ∃ f, g'.target.current = some f ∧ f.IsDeclared := by
  obtain ⟨f, hf, hlocals, hsignature⟩ := h.current
  obtain ⟨new, hnew, hcurrent⟩ := h'.locals
  refine ⟨f.addLocals new, by rw [hcurrent, hf]; rfl, fun i hi => ?_, hsignature⟩
  simp only [FunctionCode.addLocals, Array.toList_append, List.mem_append] at hi
  exact hi.elim (hlocals i) (hnew i)

/-- A function is left once its last block is ended. -/
theorem Declared.resting {k : Strand} {u : Unit} (h : Declared g) (hinside : Inside g g₁)
    (hnext : g.nextId ≤ g₁.nextId) (hblock : g₁.currentBlock = 0)
    (hholds : loom.holds g₁.target g₁.lastBlock k)
    (hrun : leaveFunction g₁ = .ok (u, g')) : Resting g' := by
  obtain ⟨f, hf, -⟩ := h.inside hinside
  obtain rfl := leaveFunction_spec hrun hf hholds
  exact ⟨Nat.lt_of_lt_of_le h.positive hnext, hblock, rfl, rfl, fun _ _ => rfl⟩

/-- A function whose blocks are well formed is added to those that are finished. -/
theorem Declared.areFunctions {k : Strand} {u : Unit} (h : Declared g) (hinside : Inside g g₁)
    (hfunctions : ∀ f ∈ g.target.functions, IsFunction choices f.code)
    (hholds : loom.holds g₁.target g₁.lastBlock k) (hlabels : k.labels.Nodup)
    (hk : k.Grows k.close choices)
    (hends : k.Ends k.close choices) (hrun : leaveFunction g₁ = .ok (u, g')) :
    ∀ f ∈ g'.target.functions, IsFunction choices f.code := by
  obtain ⟨f, hf, hlocals, n, hsignature⟩ := h.inside hinside
  obtain rfl := leaveFunction_spec hrun hf hholds
  intro code hcode
  obtain hcode | rfl := Array.mem_push.mp hcode
  · exact hfunctions code (hinside.functions ▸ hcode)
  · exact isFunction_code (wellFormed_close hsignature hlabels hk hends) hlocals rfl

/-- Code can be woven once a function has been declared. -/
theorem Declared.scene (h : Declared g) : Scene weave loom g [] [] where
  positive := h.positive
  distinct := List.nodup_nil
  used := nofun
  holds := nofun
  named _ := nofun
  vacant := nofun
  unmoved _ := nofun
  fresh b hb := by
    have hne : b ≠ 0 := by
      rintro rfl
      exact absurd h.positive (Nat.not_lt.mpr hb)
    refine ⟨h.blocks b hne, fun _ => ?_⟩
    simp [loom, State.final, State.final.go, h.spliced, Table.get?]

variable {test : Evaluation (List Instruction) → Prop}
  (htest : ∀ t, test t → t.isStraight = true)

include htest

/-- The blocks of a function are well formed. -/
theorem grows_function {f : Procedure (List Instruction)} (hall : f.body.All test)
    (hlive : f.body.Live) (hscoped : f.body.Scoped [] []) (hswitches : f.body.switches ⊆ choices)
    (hends : f.fallsOut.isSome = !f.body.ends) :
    (weave.function f).Grows (weave.function f).close choices
      ∧ (weave.function f).Ends (weave.function f).close choices := by
  have hflow : (weave.flow (weave.enter f.entry) f.body).Precedes (weave.function f) := by
    rw [Weave.function]
    split
    · exact (Strand.Precedes.refl _).leave _ _
    · exact .refl _
  have hwithin : (weave.flow (weave.enter f.entry) f.body).Within (weave.function f).close :=
    (Strand.Within.of_close List.infix_rfl).of_precedes hflow
  have hnone : ∀ l ∈ (none : Option Id), l ∈ labelsOf (weave.function f).close :=
    fun l hl => absurd hl (Option.not_mem_none l)
  have hbody : Strand.GrowsBy (weave.function f).close choices f.body :=
    Strand.growsBy htest f.body hall hlive hscoped hnone hnone hswitches
  obtain ⟨hgrows, hended⟩ := hbody.grows _ hwithin (Strand.grows_enter _)
  generalize (weave.function f).close = blocks at *
  rw [Weave.function]
  cases hfalls : f.fallsOut with
  | none =>
    rw [hfalls] at hends
    exact ⟨hgrows, hended (by simpa using hends)⟩
  | some fallsOut =>
    exact ⟨hgrows.leave _ _, _, rfl, terminates_terminator (e := .giveBack 0) _ trivial⟩

/-- The labels of a function are different from each other. -/
theorem nodup_labels_function {f : Procedure (List Instruction)} (hall : f.body.All test)
    (hruns : RunsInRange observe g f.inside g') : (weave.function f).labels.Nodup := by
  have hlabels : (weave.function f).labels = (weave.flow (weave.enter f.entry) f.body).labels := by
    rw [Weave.function]
    split
    · exact Strand.labels_leave ..
    · rfl
  have hmade : made f.inside = f.entry :: made f.body.entries := by
    cases hfalls : f.fallsOut <;> simp [Procedure.inside, hfalls, made_cons, Entry.made?]
  have hnodup := hmade ▸ (models.made_spec hruns).1
  rw [hlabels, List.nodup_iff_count_le_one]
  intro a
  have hcount := Strand.count_labels_flow htest a f.body hall (weave.enter f.entry)
  have hone := List.nodup_iff_count_le_one.mp hnodup a
  rw [Strand.labels_enter, ← List.count_append] at hcount
  exact Nat.le_trans hcount hone

omit htest in
/-- How a function is generated: it is declared, its body is generated, and its
code is collected. -/
structure Collects (f : Procedure (List Instruction)) (g g₁ g₂ g' : Generator State) :
    Prop where
  define : defineFunction f.location f.decl g = .ok (f.made, g₁)
  declared : Declared g₁
  functions : g₁.target.functions = g.target.functions
  inside : RunsInRange observe g₁ f.inside g₂
  block : g₂.currentBlock = 0
  live : f.body.Live
  fallsOut : f.fallsOut.isSome = !f.body.ends
  holds : loom.holds g₂.target g₂.lastBlock (weave.function f)
  leave : leaveFunction g₂ = .ok ((), g')

omit htest in
theorem Resting.collects {f : Procedure (List Instruction)} (h : Resting g) (hall : f.body.All test)
    (hruns : RunsInRange observe g f.entries g') : ∃ g₁ g₂, Collects f g g₁ g₂ g' := by
  rw [Procedure.entries, List.cons_append, models.runsInRange_cons] at hruns
  obtain ⟨g₁, hdefine, -, -, hruns⟩ := hruns
  obtain ⟨g₂, hinside, hruns⟩ := models.runsInRange_append.mp hruns
  obtain ⟨g₃, hleave, -, -, hnil⟩ := models.runsInRange_cons.mp hruns
  obtain ⟨rfl, -⟩ := runsInRange_nil.mp hnil
  have hstart : defineFunction f.location f.decl g = .ok (f.made, g₁) := hdefine
  simp only [defineFunction, bind_eq_ok, modify_eq_ok, pure_eq_ok] at hstart
  obtain ⟨made, g₄, hstart, _, _, rfl, -, rfl⟩ := hstart
  obtain ⟨hdeclared, -, hfunctions⟩ := h.startFunction hstart
  have hdeclared : Declared { g₄ with functions := g₄.functions ++ [made] } :=
    ⟨hdeclared.positive, hdeclared.spliced, hdeclared.blocks, hdeclared.current⟩
  obtain ⟨hblock, hlive, hends, hholds⟩ := Scene.procedure models hall hinside hdeclared.scene
  exact ⟨_, _, hdefine, hdeclared, hfunctions, hinside, hblock, hlive, hends, hholds, hleave⟩

omit htest in
theorem Collects.isInside {f : Procedure (List Instruction)} {g₂ : Generator State}
    (h : Collects f g g₁ g₂ g') :
    Inside g₁ g₂ :=
  inside_runs f.areInside_inside h.inside.1

omit htest in
theorem Collects.resting {f : Procedure (List Instruction)} {g₂ : Generator State}
    (h : Collects f g g₁ g₂ g') :
    Resting g' :=
  h.declared.resting h.isInside (models.nextId_le_of_runs h.inside.1) h.block h.holds h.leave

theorem Between.procedure {f : Procedure (List Instruction)} (h : Between choices g)
    (hall : f.body.All test) (hscoped : f.body.Scoped [] [])
    (hswitches : f.body.switches ⊆ choices) (hruns : RunsInRange observe g f.entries g') :
    Between choices g' := by
  obtain ⟨g₁, g₂, hcollects⟩ := h.toResting.collects hall hruns
  obtain ⟨hgrows, hended⟩ :=
    grows_function htest hall hcollects.live hscoped hswitches hcollects.fallsOut
  exact ⟨hcollects.resting,
    hcollects.declared.areFunctions hcollects.isInside (hcollects.functions ▸ h.functions)
    hcollects.holds (nodup_labels_function htest hall hcollects.inside) hgrows hended
      hcollects.leave⟩

omit htest

/-- How a wrapper around the first function of a stage is made: a function with one block is
started, in which the function of the stage is called, and is recorded once it has been left. -/
structure Wrapping (decl : FunctionDecl) (isPixelShader : Bool) (g g' : Generator State) where
  wrapper : FunctionDecl
  started : Generator State
  start : startFunction {} { returnType := { base := .void } } g = .ok (wrapper, started)
  id : Id
  made : Generator State
  make : makeId started = .ok (id, made)
  entered : Generator State
  enter : enterBlock id made = .ok ((), entered)
  stage : Stage
  called : Generator State
  call : callAsStage decl isPixelShader entered = .ok (stage, called)
  ended : Id
  returned : Generator State
  giveBack : leaveAndReturn 0 called = .ok (ended, returned)
  left : Generator State
  leave : leaveFunction returned = .ok ((), left)
  record : addEntryPointRecord stage wrapper.definition decl.uniqueName left = .ok ((), g')

/-- An entry point that exists is not made again. -/
theorem emitEntryPoint_cases {decl : FunctionDecl} {isPixelShader : Bool} {u : Unit}
    (h : emitEntryPoint decl isPixelShader g = .ok (u, g')) :
    ∃ isNew g₁, addEntryPoint decl.uniqueName isPixelShader g = .ok (isNew, g₁)
      ∧ (g' = g₁ ∨ Nonempty (Wrapping decl isPixelShader g₁ g')) := by
  obtain ⟨isNew, g₁, hadd, h⟩ := bind_eq_ok.mp h
  refine ⟨isNew, g₁, hadd, ?_⟩
  obtain ⟨-, h⟩ | ⟨-, h⟩ := ite_eq_ok.mp h
  · exact .inl (pure_eq_ok.mp h).2.symm
  · obtain ⟨wrapper, started, start, h⟩ := bind_eq_ok.mp h
    obtain ⟨id, made, make, h⟩ := bind_eq_ok.mp h
    obtain ⟨_, entered, enter, h⟩ := bind_eq_ok.mp h
    obtain ⟨stage, called, call, h⟩ := bind_eq_ok.mp h
    obtain ⟨ended, returned, giveBack, h⟩ := bind_eq_ok.mp h
    obtain ⟨_, left, leave, record⟩ := bind_eq_ok.mp h
    exact .inr ⟨{ start := start, make, enter, call, giveBack, leave, record, .. }⟩

/-- What is known of a wrapper around a function that is the start of a stage: it is one block,
which has just been entered in the first state, from which the function has been called in the
second, and which has been left in the third. -/
structure Wraps (id : Id) (g g₁ g₂ g₃ : Generator State) : Prop where
  entered : g₁.currentBlock = id
  starts : loom.holds g₁.target id (weave.enter id)
  called : g₂.currentBlock = id
  inside : Inside g g₃
  nextId : g.nextId ≤ g₃.nextId
  block : g₃.currentBlock = 0
  last : g₃.lastBlock = id
  code : ∃ k : Strand, loom.holds g₃.target id k ∧ k.labels = [id]
    ∧ ∀ choices, k.Grows k.close choices ∧ k.Ends k.close choices

theorem Wrapping.inside {decl : FunctionDecl} {isPixelShader : Bool}
    (w : Wrapping decl isPixelShader g g') :
    Inside w.started w.returned := by
  have hreturn : (Ending.giveBack 0).handle w.called = .ok (w.ended, w.returned) := w.giveBack
  have henter := enterBlock_spec w.enter
  exact (computes_makeId w.make).inside.trans (Inside.trans (.of_eq henter.functions henter.current)
    ((computes_callAsStage _ _ w.call).inside.trans (inside_ending hreturn)))

theorem Wrapping.wraps {decl : FunctionDecl} {isPixelShader : Bool}
    (w : Wrapping decl isPixelShader g g')
    (h : Declared w.started) (hid : w.returned.nextId ≤ 2 ^ 32) :
    Wraps w.id w.started w.entered w.called w.returned := by
  have hextends := computes_callAsStage _ _ w.call
  have hnext : w.made.nextId ≤ w.returned.nextId :=
    Nat.le_trans (countsUp_enterBlock _ w.enter)
      (Nat.le_trans hextends.nextId (countsUp_leaveAndReturn _ w.giveBack))
  obtain ⟨-, -, hmade⟩ := h.scene.makeId w.make (Nat.le_trans hnext hid)
  obtain ⟨hcurrent, hscene⟩ := hmade.enter models [] w.enter
  have hne : w.id ≠ 0 := (hscene.used _ (by simp)).1
  have hstarts : loom.holds w.entered.target w.id (weave.enter w.id) :=
    hscene.holds _ List.mem_cons_self
  have hcalled : w.called.currentBlock = w.id := hextends.current.trans hcurrent
  have hholds := hextends.holds (hcurrent.symm ▸ hstarts)
  rw [← hextends.current, hcalled] at hholds
  have hreturn : (Ending.giveBack 0).handle w.called = .ok (w.ended, w.returned) := w.giveBack
  obtain ⟨-, hblock, hlast, -, -, hleft⟩ := leave_spec hreturn (hcalled ▸ hne)
  rw [hcalled] at hlast hleft
  exact
    { entered := hcurrent
      starts := hstarts
      called := hcalled
      inside := w.inside
      nextId := Nat.le_trans (computes_makeId w.make).nextId hnext
      block := hblock
      last := hlast
      code := ⟨_, hleft _ hholds, by simp,
        fun choices => ⟨((Strand.grows_enter _).append _).leave _ _, _, rfl,
        terminates_terminator (e := .giveBack 0) _ trivial⟩⟩ }

/-- A wrapper is a function of its own. -/
theorem Between.entryPoint {decl : FunctionDecl} {isPixelShader : Bool} {u : Unit}
    (h : Between choices g) (hid : g'.nextId ≤ 2 ^ 32)
    (hrun : emitEntryPoint decl isPixelShader g = .ok (u, g')) : Between choices g' := by
  obtain ⟨isNew, g₁, hadd, hmade⟩ := emitEntryPoint_cases hrun
  have h := h.extends (computes_addEntryPoint _ _ hadd)
  obtain rfl | ⟨⟨w⟩⟩ := hmade
  · exact h
  have hrecords := computes_addEntryPointRecord _ _ _ w.record
  obtain ⟨hdeclared, -, hfunctions⟩ := h.toResting.startFunction w.start
  have hwraps := w.wraps hdeclared
    (Nat.le_trans (countsUp_leaveFunction w.leave) (Nat.le_trans hrecords.nextId hid))
  obtain ⟨k, hholds, hlabels, hk⟩ := hwraps.code
  rw [← hwraps.last] at hholds
  refine Between.extends ⟨?_, ?_⟩ hrecords
  · exact hdeclared.resting hwraps.inside hwraps.nextId hwraps.block hholds w.leave
  · exact hdeclared.areFunctions hwraps.inside (hfunctions ▸ h.functions) hholds
      (hlabels ▸ List.nodup_singleton w.id) (hk choices).1 (hk choices).2 w.leave

end Between

end ShaderEffect.Spirv

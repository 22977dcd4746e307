import ShaderEffect.Proofs.Computation
import ShaderEffect.Proofs.Table
import ShaderEffect.Spirv.Generator.Backend

/-!
What generating a value leaves alone.

Values are computed by adding instructions to the current block and variables to the function being
generated. Blocks other than the current one, finished functions and the blocks that code was moved
to stay as they are.
-/
namespace ShaderEffect.Spirv

open Generator

/-- The operations that functions and blocks are made of. -/
def structural : List Opcode :=
  [Op.function, Op.functionParameter, Op.functionEnd, Op.label, Op.selectionMerge, Op.loopMerge,
    Op.branch, Op.branchConditional, Op.switch, Op.kill, Op.ret, Op.returnValue, Op.unreachable]

/-- Whether an instruction computes or stores something, instead of being part of the structure
of its function. -/
abbrev Instruction.IsOrdinary (i : Instruction) : Prop :=
  i.op ∉ structural

/-- A block, which is empty if it was never entered. -/
def State.block (s : State) (b : Id) : BasicBlock :=
  (s.blocks.get? b).getD {}

def BasicBlock.append (b : BasicBlock) (more : List Instruction) : BasicBlock :=
  { b with body := b.body ++ more }

def FunctionCode.addLocals (f : FunctionCode) (more : List Instruction) : FunctionCode :=
  { f with locals := f.locals ++ more.toArray }

@[simp] theorem BasicBlock.append_nil (b : BasicBlock) : b.append [] = b := by
  simp [append]

@[simp] theorem BasicBlock.append_append (b : BasicBlock) (new more : List Instruction) :
    (b.append new).append more = b.append (new ++ more) := by
  simp [append]

@[simp] theorem FunctionCode.addLocals_nil (f : FunctionCode) : f.addLocals [] = f := by
  simp [addLocals]

@[simp] theorem FunctionCode.addLocals_addLocals (f : FunctionCode) (new more : List Instruction) :
    (f.addLocals new).addLocals more = f.addLocals (new ++ more) := by
  simp [addLocals]

/-- Whether an instruction declares a variable, or records where that is done. -/
def Instruction.IsLocal (i : Instruction) : Prop :=
  i.op = Op.var ∨ i.op = Op.line

/-- Whether nothing has happened between two states but the computation of values in
the current block. -/
structure Extends (g g' : Generator State) : Prop where
  current : g'.currentBlock = g.currentBlock
  last : g'.lastBlock = g.lastBlock
  nextId : g.nextId ≤ g'.nextId
  functions : g'.target.functions = g.target.functions
  spliced : g'.target.spliced = g.target.spliced
  others : ∀ b ≠ g.currentBlock, g'.target.blocks.get? b = g.target.blocks.get? b
  present : (g.target.blocks.get? g.currentBlock).isSome →
    (g'.target.blocks.get? g.currentBlock).isSome
  code : ∃ new : List Instruction, (∀ i ∈ new, i.IsOrdinary)
    ∧ g'.target.block g.currentBlock = (g.target.block g.currentBlock).append new
  locals : ∃ new : List Instruction, (∀ i ∈ new, i.IsLocal)
    ∧ g'.target.current = g.target.current.map (·.addLocals new)

namespace Extends

variable {g g₁ g' : Generator State}

theorem refl (g : Generator State) : Extends g g where
  current := rfl
  last := rfl
  nextId := Nat.le_refl _
  functions := rfl
  spliced := rfl
  others _ _ := rfl
  present := id
  code := ⟨[], nofun, (BasicBlock.append_nil _).symm⟩
  locals := ⟨[], nofun, by simp⟩

theorem trans (h : Extends g g₁) (h' : Extends g₁ g') : Extends g g' where
  current := h'.current.trans h.current
  last := h'.last.trans h.last
  nextId := Nat.le_trans h.nextId h'.nextId
  functions := h'.functions.trans h.functions
  spliced := h'.spliced.trans h.spliced
  others b hb := (h'.others b (h.current ▸ hb)).trans (h.others b hb)
  present hb := h.current ▸ h'.present (h.current ▸ h.present hb)
  code := by
    obtain ⟨new, hnew, hcode⟩ := h.code
    obtain ⟨more, hmore, hcode'⟩ := h'.code
    refine ⟨new ++ more, fun i hi => (List.mem_append.mp hi).elim (hnew i) (hmore i), ?_⟩
    rw [← h.current, hcode', h.current, hcode, BasicBlock.append_append]
  locals := by
    obtain ⟨new, hnew, hlocals⟩ := h.locals
    obtain ⟨more, hmore, hlocals'⟩ := h'.locals
    refine ⟨new ++ more, fun i hi => (List.mem_append.mp hi).elim (hnew i) (hmore i), ?_⟩
    rw [hlocals', hlocals, Option.map_map]
    simp [Function.comp_def]

/-- Neither the blocks nor the functions have changed. -/
theorem of_eq (hcurrent : g'.currentBlock = g.currentBlock) (hlast : g'.lastBlock = g.lastBlock)
    (hnext : g.nextId ≤ g'.nextId) (hfunctions : g'.target.functions = g.target.functions)
    (hspliced : g'.target.spliced = g.target.spliced) (hblocks : g'.target.blocks = g.target.blocks)
    (hlocals : g'.target.current = g.target.current) : Extends g g' where
  current := hcurrent
  last := hlast
  nextId := hnext
  functions := hfunctions
  spliced := hspliced
  others b _ := by rw [hblocks]
  present := by rw [hblocks]; exact id
  code := ⟨[], nofun, by rw [State.block, State.block, hblocks, BasicBlock.append_nil]⟩
  locals := ⟨[], nofun, by simp [hlocals]⟩

end Extends

/-- Whether a part of the generator does nothing but compute values in the current block. -/
def Computes {α : Type} (x : SpirvM α) : Prop :=
  ∀ ⦃g a g'⦄, x g = .ok (a, g') → Extends g g'

section Rules

variable {α γ : Type}

@[grind .] theorem computes_pure (a : α) : Computes (pure a : SpirvM α) := by
  intro g b g' h
  obtain ⟨-, rfl⟩ := pure_eq_ok.mp h
  exact .refl g

@[grind ←] theorem computes_bind {x : SpirvM γ} {f : γ → SpirvM α} (hx : Computes x)
    (hf : ∀ c, Computes (f c)) :
    Computes (x >>= f) := by
  intro g a g' h
  obtain ⟨c, g₁, hc, h⟩ := bind_eq_ok.mp h
  exact (hx hc).trans (hf c h)

@[grind ←] theorem computes_seq {x : SpirvM PUnit} {f : PUnit → SpirvM α} (hx : Computes x)
    (hf : Computes (f ⟨⟩)) : Computes (x >>= f) :=
  computes_bind hx fun _ => hf

@[grind ←] theorem computes_map {x : SpirvM γ} (f : γ → α) (hx : Computes x) :
    Computes (f <$> x) := by
  rw [map_eq_pure_bind]
  exact computes_bind hx fun _ => computes_pure _

@[grind .] theorem computes_get : Computes (get : SpirvM (Generator State)) := by
  intro g a g' h
  obtain ⟨-, rfl⟩ := get_eq_ok.mp h
  exact .refl g

@[grind .] theorem computes_throw (e : Fault) : Computes (throw e : SpirvM α) :=
  fun _ _ _ h => (throw_eq_ok.mp h).elim

@[grind .] theorem computes_liftM (x : Except Fault α) : Computes (liftM x : SpirvM α) := by
  intro g a g' h
  obtain ⟨-, rfl⟩ := liftM_eq_ok.mp h
  exact .refl g

@[grind ←] theorem computes_mapM {f : γ → SpirvM α} (hf : ∀ c, Computes (f c))
    (l : List γ) :
    Computes (l.mapM f) := by
  induction l with
  | nil => exact computes_pure _
  | cons c l ih =>
    rw [List.mapM_cons]
    exact computes_bind (hf c) fun _ => computes_bind ih fun _ => computes_pure _

@[grind ←] theorem computes_foldlM {f : α → γ → SpirvM α} (hf : ∀ a c, Computes (f a c))
    (l : List γ) (a : α) :
    Computes (l.foldlM f a) := by
  induction l generalizing a with
  | nil => exact computes_pure _
  | cons c l ih =>
    rw [List.foldlM_cons]
    exact computes_bind (hf a c) ih

@[grind ←] theorem computes_forM {f : γ → SpirvM PUnit} (hf : ∀ c, Computes (f c))
    (l : List γ) :
    Computes (l.forM f) := by
  induction l with
  | nil => exact computes_pure _
  | cons c l ih => exact computes_bind (hf c) fun _ => ih

end Rules

/-- What of the state belongs to code. -/
@[grind =] def State.woven (s : State) :
    Array FunctionCode × Option FunctionCode × Table Id BasicBlock × Table Id Id :=
  (s.functions, s.current, s.blocks, s.spliced)

/-- A change that leaves code alone. -/
@[grind ←] theorem computes_modifyTarget {f : State → State}
    (hf : (fun s => (f s).woven) = fun s => s.woven) :
    Computes (modifyTarget f) := by
  intro g a g' h
  obtain rfl := modify_eq_ok.mp h
  have hwoven := congrFun hf g.target
  simp only [State.woven, Prod.mk.injEq] at hwoven
  obtain ⟨hfunctions, hcurrent, hblocks, hspliced⟩ := hwoven
  exact .of_eq rfl rfl (Nat.le_refl _) hfunctions hspliced hblocks hcurrent

@[grind .] theorem computes_modifyResult (f : Module → Module) :
    Computes (modifyResult f : SpirvM Unit) := by
  intro g a g' h
  obtain rfl := modify_eq_ok.mp h
  exact .of_eq rfl rfl (Nat.le_refl _) rfl rfl rfl rfl

theorem computes_modify {f : Generator State → Generator State}
    (htarget : ∀ g, (f g).target = g.target)
    (hcurrent : ∀ g, (f g).currentBlock = g.currentBlock)
    (hlast : ∀ g, (f g).lastBlock = g.lastBlock)
    (hnext : ∀ g, (f g).nextId = g.nextId) : Computes (modify f) := by
  intro g a g' h
  obtain rfl := modify_eq_ok.mp h
  exact .of_eq (hcurrent g) (hlast g) (Nat.le_of_eq (hnext g).symm)
    (congrArg State.functions (htarget g)) (congrArg State.spliced (htarget g))
    (congrArg State.blocks (htarget g)) (congrArg State.current (htarget g))

@[grind .] theorem computes_getTarget : Computes (getTarget : SpirvM State) :=
  computes_bind computes_get fun _ => computes_pure _

@[grind .] theorem computes_makeId : Computes (makeId : SpirvM Id) := by
  intro g a g' h
  simp only [makeId, bind_eq_ok, get_eq_ok, set_eq_ok, pure_eq_ok] at h
  obtain ⟨_, _, ⟨rfl, rfl⟩, _, _, rfl, rfl, rfl⟩ := h
  exact .of_eq rfl rfl (Nat.le_succ _) rfl rfl rfl rfl

theorem State.block_set_self (s : State) (b : Id) (v : BasicBlock) :
    ({ s with blocks := s.blocks.set b v } : State).block b = v := by
  simp [block]

/-- The current block exists once it was asked for. -/
theorem currentBody_eq_ok {g g' : Generator State} {b : BasicBlock} :
    currentBody g = .ok (b, g') →
      b = g.target.block g.currentBlock ∧ (g'.target.blocks.get? g.currentBlock).isSome
        ∧ Extends g g' := by
  intro h
  simp only [currentBody, bind_eq_ok, get_eq_ok] at h
  obtain ⟨_, _, ⟨rfl, rfl⟩, h⟩ := h
  cases hget : g.target.blocks.get? g.currentBlock with
  | some body =>
    rw [hget] at h
    obtain ⟨rfl, rfl⟩ := pure_eq_ok.mp h
    exact ⟨by rw [State.block, hget]; rfl, by rw [hget]; rfl, .refl _⟩
  | none =>
    rw [hget] at h
    simp only [modifyTarget, bind_eq_ok, modify_eq_ok, pure_eq_ok] at h
    obtain ⟨_, _, rfl, rfl, rfl⟩ := h
    have hempty : g.target.block g.currentBlock = {} := by rw [State.block, hget]; rfl
    refine ⟨hempty.symm, by simp, ⟨rfl, rfl, Nat.le_refl _, rfl, rfl, ?_, ?_, ?_, ?_⟩⟩
    · exact fun b hb => Table.get?_set_of_ne hb
    · simp
    · exact ⟨[], List.forall_mem_nil _, by rw [hempty, State.block_set_self]; rfl⟩
    · exact ⟨[], List.forall_mem_nil _, by simp⟩

@[grind .] theorem computes_currentBody : Computes currentBody :=
  fun _ _ _ h => (currentBody_eq_ok h).2.2

@[grind ←] theorem computes_add {i : Instruction} (hi : i.IsOrdinary) : Computes (add i) := by
  intro g u g' h
  simp only [add, setCurrentBody, modifyTarget, bind_eq_ok, get_eq_ok, modify_eq_ok] at h
  obtain ⟨b, g₁, hbody, _, _, ⟨rfl, rfl⟩, rfl⟩ := h
  obtain ⟨rfl, hsome, hextends⟩ := currentBody_eq_ok hbody
  obtain ⟨new, hnew, hcode⟩ := hextends.code
  refine ⟨hextends.current, hextends.last, hextends.nextId, hextends.functions, hextends.spliced,
    ?_, ?_, ?_, hextends.locals⟩
  · intro b hb
    exact (Table.get?_set_of_ne (hextends.current.symm ▸ hb)).trans (hextends.others b hb)
  · simp [hextends.current]
  · refine ⟨[i], by simpa using hi, ?_⟩
    rw [← hextends.current, State.block_set_self, hextends.current]
    rfl

theorem modifyFunction_eq_ok {f : FunctionCode → FunctionCode}
    {g g' : Generator State} {u : Unit} :
    modifyFunction f g = .ok (u, g') ↔
      ∃ code, g.target.current = some code
        ∧ g' = { g with target := { g.target with current := some (f code) } } := by
  rw [modifyFunction, bind_of_eq_ok (getTarget_eq_ok.mpr ⟨rfl, rfl⟩)]
  cases hcurrent : g.target.current with
  | none =>
    constructor
    · exact fun h => (throw_eq_ok.mp h).elim
    · rintro ⟨_, hcode, -⟩
      cases hcode
  | some code =>
    constructor
    · exact fun h => ⟨code, rfl, (modifyTarget_eq_ok.mp h).symm⟩
    · rintro ⟨_, hcode, rfl⟩
      obtain rfl := Option.some.inj hcode
      exact modifyTarget_eq_ok.mpr rfl

/-- A change of the variables of the function being generated. -/
theorem computes_modifyFunction {f : FunctionCode → FunctionCode} (more : List Instruction)
    (hmore : ∀ i ∈ more, i.IsLocal) (hf : ∀ c, f c = c.addLocals more) :
    Computes (modifyFunction f) := by
  intro g a g' h
  obtain ⟨code, hcurrent, rfl⟩ := modifyFunction_eq_ok.mp h
  refine ⟨rfl, rfl, Nat.le_refl _, rfl, rfl, fun _ _ => rfl, id, ?_, more, hmore, ?_⟩
  · exact ⟨[], List.forall_mem_nil _, by simp [State.block]⟩
  · simp [hcurrent, hf]

end ShaderEffect.Spirv

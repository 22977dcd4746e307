import ShaderEffect.Proofs.Spirv.Values
import ShaderEffect.Proofs.Statement

namespace ShaderEffect.Spirv

open Generator

/-- Whether a part of the generator gives no id back. -/
def CountsUp {α : Type} (x : SpirvM α) : Prop :=
  ∀ ⦃g a g'⦄, x g = .ok (a, g') → g.nextId ≤ g'.nextId

section Rules

variable {α γ : Type}

@[grind ←] theorem Computes.countsUp {x : SpirvM α} (h : Computes x) : CountsUp x :=
  fun _ _ _ hx => (h hx).nextId

@[grind ←] theorem countsUp_bind {x : SpirvM γ} {f : γ → SpirvM α} (hx : CountsUp x)
    (hf : ∀ c, CountsUp (f c)) :
    CountsUp (x >>= f) := by
  intro g a g' h
  obtain ⟨c, g₁, hc, h⟩ := bind_eq_ok.mp h
  exact Nat.le_trans (hx hc) (hf c h)

@[grind ←] theorem countsUp_seq {x : SpirvM PUnit} {f : PUnit → SpirvM α} (hx : CountsUp x)
    (hf : CountsUp (f ⟨⟩)) : CountsUp (x >>= f) :=
  countsUp_bind hx fun _ => hf

@[grind ←] theorem countsUp_map {x : SpirvM γ} (f : γ → α) (hx : CountsUp x) :
    CountsUp (f <$> x) := by
  rw [map_eq_pure_bind]
  exact countsUp_bind hx fun _ => (computes_pure _).countsUp

@[grind ←] theorem countsUp_mapM {f : γ → SpirvM α} (hf : ∀ c, CountsUp (f c))
    (l : List γ) :
    CountsUp (l.mapM f) := by
  induction l with
  | nil => exact (computes_pure _).countsUp
  | cons c l ih =>
    rw [List.mapM_cons]
    exact countsUp_bind (hf c) fun _ => countsUp_bind ih fun _ => (computes_pure _).countsUp

@[grind ←] theorem countsUp_modify {f : Generator State → Generator State}
    (hf : (fun g => (f g).nextId) = fun g => g.nextId) : CountsUp (modify f) := by
  intro g a g' h
  obtain rfl := modify_eq_ok.mp h
  exact Nat.le_of_eq (congrFun hf g).symm

@[grind .] theorem countsUp_modifyTarget (f : State → State) : CountsUp (modifyTarget f) :=
  countsUp_modify rfl

@[grind .] theorem countsUp_setBlock (id : Id) : CountsUp (setBlock id : SpirvM Id) := by
  intro g a g' h
  simp only [setBlock, bind_eq_ok, get_eq_ok, set_eq_ok, pure_eq_ok] at h
  obtain ⟨_, _, ⟨rfl, rfl⟩, _, _, rfl, rfl, rfl⟩ := h
  exact Nat.le_refl _

end Rules

@[grind .] theorem countsUp_setCurrentBody (b : BasicBlock) : CountsUp (setCurrentBody b) := by
  grind [setCurrentBody]

@[grind .] theorem countsUp_add (i : Instruction) : CountsUp (add i) := by
  grind [add]

@[grind .] theorem countsUp_modifyFunction (f : FunctionCode → FunctionCode) :
    CountsUp (modifyFunction f) := by
  grind [modifyFunction]

@[grind .] theorem countsUp_addDeclaration (i : Instruction) : CountsUp (addDeclaration i) := by
  grind [addDeclaration]

@[grind .] theorem countsUp_enterBlock (id : Id) : CountsUp (enterBlock id) := by
  grind [enterBlock]

@[grind .] theorem countsUp_terminate (i : Instruction) : CountsUp (terminate i) := by
  grind [terminate]

@[grind ←] theorem countsUp_terminateOr (otherwise : Generator State → Id)
    {i : SpirvM Instruction} (hi : CountsUp i) : CountsUp (terminateOr otherwise i) := by
  grind [terminateOr]

@[grind .] theorem countsUp_leaveAndKill : CountsUp leaveAndKill := by
  grind [leaveAndKill]

@[grind .] theorem countsUp_leaveAndReturn (value : Id) : CountsUp (leaveAndReturn value) := by
  grind [leaveAndReturn]

@[grind .] theorem countsUp_leaveAndSwitch (selector target : Id) :
    CountsUp (leaveAndSwitch selector target) := by
  grind [leaveAndSwitch]

@[grind .] theorem countsUp_leaveAndBranch (target : Id) : CountsUp (leaveAndBranch target) := by
  grind [leaveAndBranch]

@[grind .] theorem countsUp_leaveAndBranchConditional (condition yes no : Id) :
    CountsUp (leaveAndBranchConditional condition yes no) := by
  grind [leaveAndBranchConditional]

@[grind .] theorem countsUp_splice (entered : Id) (code : List Instruction) :
    CountsUp (splice entered code) := by
  grind [splice]

@[grind .] theorem countsUp_selectionMerge (hint : ControlHint) :
    CountsUp (selectionMerge hint) := by
  grind [selectionMerge]

@[grind .] theorem countsUp_emitIf (conditionBlock yes no : Id) (hint : ControlHint) :
    CountsUp (emitIf conditionBlock yes no hint) := by
  grind [emitIf]

@[grind .] theorem countsUp_emitPhi
    (conditionBlock trueValue trueBlock falseValue falseBlock : Id) (t : Ty) :
    CountsUp (emitPhi conditionBlock trueValue trueBlock falseValue falseBlock t) := by
  grind [emitPhi, ordinary_operations]

@[grind .] theorem countsUp_emitLoop (before header conditionBlock body next : Id)
    (hint : ControlHint) :
    CountsUp (emitLoop before header conditionBlock body next hint) := by
  grind [emitLoop]

@[grind .] theorem countsUp_emitSwitch (selectorBlock defaultLabel : Id)
    (cases : List (UInt32 × Id))
    (hint : ControlHint) : CountsUp (emitSwitch selectorBlock defaultLabel cases hint) := by
  refine countsUp_bind computes_getTarget.countsUp fun s => ?_
  split
  · grind
  · exact (computes_pure _).countsUp

@[grind .] theorem countsUp_declareParameter (p : Member) : CountsUp (declareParameter p) := by
  unfold declareParameter
  extract_lets declare
  have hdeclare : CountsUp (declare ()) := by grind
  refine countsUp_bind (computes_lineInstruction _).countsUp fun line => ?_
  cases line <;> grind

@[grind .] theorem countsUp_startFunction (location : Location) (decl : FunctionDecl) :
    CountsUp (startFunction location decl) := by
  unfold startFunction
  extract_lets declare
  have hdeclare : CountsUp (declare ()) := by
    dsimp only [declare]
    refine countsUp_bind computes_makeId.countsUp
      fun id => countsUp_bind (by grind) fun result => ?_
    grind
  refine countsUp_bind (countsUp_modifyTarget _) fun _ => ?_
  refine countsUp_bind (computes_lineInstruction _).countsUp fun line => ?_
  cases line <;> grind

@[grind .] theorem countsUp_leaveFunction : CountsUp leaveFunction := by
  grind [leaveFunction]

@[grind .] theorem computes_addEntryPoint (name : String) (isPixelShader : Bool) :
    Computes (addEntryPoint name isPixelShader : SpirvM Bool) := by
  grind [addEntryPoint]

@[grind .] theorem computes_declareVarying (stage : Stage) (t : Ty) (semantic : String)
    (storage : StorageClass) :
    Computes (declareVarying stage t semantic storage) := by
  unfold declareVarying
  refine computes_bind computes_makeId fun id => computes_bind (by grind) fun _ => ?_
  refine computes_bind computes_getTarget fun s => ?_
  grind

@[grind .] theorem computes_declareOutputs (stage : Stage) (t : Ty) (semantic : String) :
    Computes (declareOutputs stage t semantic) := by
  grind [declareOutputs]

@[grind .] theorem computes_readInputs (stage : Stage) (t : Ty) (semantic : String) :
    Computes (readInputs stage t semantic) := by
  have hordinary := ordinary_operations
  refine computes_bind computes_get fun g => computes_bind computes_get fun g' => ?_
  refine computes_bind (computes_foldlM (fun _ _ => ?_) _ _) fun read => ?_
  · grind
  · grind

@[grind .] theorem computes_writeOutputs (t : Ty) (value : Id) (outputs : List Id) :
    Computes (writeOutputs t value outputs) := by
  grind [writeOutputs, ordinary_operations]

@[grind .] theorem computes_passParameter (stage : Stage) (p : Member) :
    Computes (passParameter stage p) := by
  grind [passParameter]

@[grind .] theorem computes_returnParameter (p : Passed) : Computes (returnParameter p) := by
  grind [returnParameter, ordinary_operations]

@[grind .] theorem computes_invertPosition (position : Id) :
    Computes (invertPosition position) := by
  grind [invertPosition]

@[grind .] theorem computes_addEntryPointRecord (stage : Stage) (wrapper : Id) (name : String) :
    Computes (addEntryPointRecord stage wrapper name) := by
  grind [addEntryPointRecord]

@[grind .] theorem computes_callAsStage (fn : FunctionDecl) (isPixelShader : Bool) :
    Computes (callAsStage fn isPixelShader) := by
  unfold callAsStage
  refine computes_bind (computes_foldlM (fun _ _ => by grind) _ _) fun passed => ?_
  refine computes_bind (computes_emitCall _ _ _ _) fun result => ?_
  refine computes_bind (computes_forM (fun p => computes_returnParameter p) _) fun _ => ?_
  extract_lets finish
  have hfinish (stage : Stage) : Computes (finish stage) := by grind
  clear_value finish
  grind

@[grind .] theorem countsUp_emitEntryPoint (fn : FunctionDecl) (isPixelShader : Bool) :
    CountsUp (emitEntryPoint fn isPixelShader) := by
  refine countsUp_bind (computes_addEntryPoint _ _).countsUp fun isNew => ?_
  split
  · exact (computes_pure _).countsUp
  refine countsUp_bind (countsUp_startFunction _ _) fun wrapper => ?_
  refine countsUp_bind computes_makeId.countsUp
    fun entry => countsUp_bind (countsUp_enterBlock _) fun _ => ?_
  refine countsUp_bind (computes_callAsStage _ _).countsUp fun stage => ?_
  refine countsUp_bind (countsUp_leaveAndReturn _)
    fun _ => countsUp_bind countsUp_leaveFunction fun _ => ?_
  exact (computes_addEntryPointRecord _ _ _).countsUp

theorem computes_addStruct (decl : StructDecl) :
    Computes (modify fun g : Generator State => { g with structs := g.structs ++ [decl] }) :=
  computes_modify (fun _ => rfl) (fun _ => rfl) (fun _ => rfl) fun _ => rfl

theorem computes_defineStruct (location : Location) (decl : StructDecl) :
    Computes (defineStruct location decl) := by
  refine computes_bind (by grind) fun members => ?_
  extract_lets define
  have hdefine : Computes (define ()) := by
    refine computes_bind (computes_addType _ _)
      fun id => computes_bind (computes_addName _ _) fun _ => ?_
    refine computes_bind (computes_forM (fun c => computes_addMemberName _ _ _) _) fun _ => ?_
    exact computes_bind (computes_addStruct _) fun _ => computes_pure _
  clear_value define
  refine computes_bind (computes_lineInstruction _) fun line => ?_
  cases line <;> grind

theorem computes_defineTexture (texture : Texture) : Computes (defineTexture texture) := by
  grind [defineTexture]

theorem computes_defineSampler (location : Location) (sampler : Sampler) :
    Computes (defineSampler location sampler) := by
  refine computes_bind computes_makeId fun id => computes_bind computes_get fun g => ?_
  refine computes_bind (computes_modifyResult _) fun _ => ?_
  refine computes_bind (computes_declareVariable _ _ _ _ _ _) fun _ => ?_
  grind

@[grind .] theorem computes_addSpecConstant (u : Uniform) :
    Computes (addSpecConstant u : SpirvM Unit) :=
  computes_modifyResult _

@[grind .] theorem computes_defineSpecConstant (u : Uniform) : Computes (defineSpecConstant u) := by
  unfold defineSpecConstant
  extract_lets value define
  have hdefine (id : Id) : Computes (define id) := by
    refine computes_bind computes_get fun g => ?_
    grind
  clear_value define
  grind

@[grind .] theorem computes_openUniformBlock : Computes openUniformBlock := by
  grind [openUniformBlock]

@[grind .] theorem computes_placeUniform (u : Uniform) :
    Computes (placeUniform u : SpirvM Uniform) := by
  grind [placeUniform]

@[grind .] theorem computes_defineUniformMember (u : Uniform) :
    Computes (defineUniformMember u) := by
  refine computes_bind computes_openUniformBlock
    fun _ => computes_bind (computes_placeUniform _) fun u => ?_
  refine computes_bind computes_getTarget fun s => computes_bind (by grind) fun type => ?_
  refine computes_bind (by grind) fun _ => computes_bind (by grind) fun _ => ?_
  grind

theorem computes_defineUniform (u : Uniform) : Computes (defineUniform u) := by
  grind [defineUniform]

theorem computes_defineVariable (location : Location) (t : Ty) (name : String)
    (isGlobal : Bool) (init : Id) :
    Computes (defineVariable location t name isGlobal init) := by
  grind [defineVariable]

theorem countsUp_defineFunction (location : Location) (decl : FunctionDecl) :
    CountsUp (defineFunction location decl) := by
  refine countsUp_bind (countsUp_startFunction _ _) fun decl => ?_
  refine countsUp_bind (countsUp_modify rfl) fun _ => (computes_pure _).countsUp

theorem computes_markRenderTarget (id : Id) : Computes (markRenderTarget id : SpirvM Unit) := by
  unfold markRenderTarget
  exact computes_modifyResult _

theorem computes_defineTechnique (t : Technique) : Computes (defineTechnique t : SpirvM Unit) := by
  unfold defineTechnique
  exact computes_modifyResult _

/-- No request gives an id back. -/
theorem countsUp_handle (r : Request) : CountsUp (r.handle : SpirvM r.Answer) := by
  have hask {α : Type} (f : Generator State → α) : CountsUp (do return f (← get)) :=
    (computes_bind computes_get fun _ => computes_pure _).countsUp
  cases r with
  | isInBlock | isInFunction | findStruct | findTexture | findFunction => exact hask _
  | makeId => exact computes_makeId.countsUp
  | setBlock => exact countsUp_setBlock _
  | enterBlock => exact countsUp_enterBlock _
  | leaveAndKill => exact countsUp_leaveAndKill
  | leaveAndReturn => exact countsUp_leaveAndReturn _
  | leaveAndSwitch => exact countsUp_leaveAndSwitch _ _
  | leaveAndBranch => exact countsUp_leaveAndBranch _
  | leaveAndBranchConditional => exact countsUp_leaveAndBranchConditional _ _ _
  | emitIf => exact countsUp_emitIf _ _ _ _
  | emitPhi => exact countsUp_emitPhi _ _ _ _ _ _
  | emitLoop => exact countsUp_emitLoop _ _ _ _ _ _
  | emitSwitch => exact countsUp_emitSwitch _ _ _ _
  | load => exact (computes_loadValue _).countsUp
  | store => exact (computes_storeValue _ _).countsUp
  | constant => exact (computes_constantId _ _).countsUp
  | unary => exact (computes_emitUnary _ _ _ _).countsUp
  | binary => exact (computes_emitBinary _ _ _ _ _ _).countsUp
  | select => exact (computes_emitSelect _ _ _ _ _).countsUp
  | call => exact (computes_emitCall _ _ _ _).countsUp
  | callIntrinsic => exact (computes_emitIntrinsic _ _ _ _).countsUp
  | construct => exact (computes_emitConstruct _ _ _).countsUp
  | defineStruct => exact (computes_defineStruct _ _).countsUp
  | defineTexture => exact (computes_defineTexture _).countsUp
  | defineSampler => exact (computes_defineSampler _ _).countsUp
  | defineUniform => exact (computes_defineUniform _).countsUp
  | defineVariable => exact (computes_defineVariable _ _ _ _ _).countsUp
  | defineFunction => exact countsUp_defineFunction _ _
  | leaveFunction => exact countsUp_leaveFunction
  | defineEntryPoint => exact countsUp_emitEntryPoint _ _
  | markRenderTarget => exact (computes_markRenderTarget _).countsUp
  | defineTechnique => exact (computes_defineTechnique _).countsUp

/-- Plain requests, and those that are made between functions, compute values or nothing at all. -/
theorem computes_handle {r : Request}
    (hr : r.isPlain = true ∨ r.isOutside = true
      ∧ ∀ decl isPixelShader, r ≠ .defineEntryPoint decl isPixelShader) :
    Computes (r.handle : SpirvM r.Answer) := by
  have hask {α : Type} (f : Generator State → α) : Computes (do return f (← get)) :=
    computes_bind computes_get fun _ => computes_pure _
  cases r with
  | isInFunction | findStruct | findTexture | findFunction => exact hask _
  | load => exact computes_loadValue _
  | store => exact computes_storeValue _ _
  | constant => exact computes_constantId _ _
  | unary => exact computes_emitUnary _ _ _ _
  | binary => exact computes_emitBinary _ _ _ _ _ _
  | select => exact computes_emitSelect _ _ _ _ _
  | call => exact computes_emitCall _ _ _ _
  | callIntrinsic => exact computes_emitIntrinsic _ _ _ _
  | construct => exact computes_emitConstruct _ _ _
  | defineStruct => exact computes_defineStruct _ _
  | defineTexture => exact computes_defineTexture _
  | defineSampler => exact computes_defineSampler _ _
  | defineUniform => exact computes_defineUniform _
  | defineVariable => exact computes_defineVariable _ _ _ _ _
  | markRenderTarget => exact computes_markRenderTarget _
  | defineTechnique => exact computes_defineTechnique _
  | _ => simp [Request.isPlain, Request.isOutside] at hr

end ShaderEffect.Spirv

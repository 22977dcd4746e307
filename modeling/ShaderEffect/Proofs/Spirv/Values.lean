import ShaderEffect.Proofs.Spirv.Frame

namespace ShaderEffect.Spirv

open Generator

/-- The operations that values are computed by. -/
theorem ordinary_operations :
    Op.extInst ∉ structural
    ∧ Op.line ∉ structural ∧ Op.store ∉ structural ∧ Op.load ∉ structural
    ∧ Op.accessChain ∉ structural ∧ Op.compositeExtract ∉ structural
    ∧ Op.compositeConstruct ∉ structural
    ∧ Op.compositeInsert ∉ structural ∧ Op.vectorShuffle ∉ structural
    ∧ Op.vectorExtractDynamic ∉ structural
    ∧ Op.select ∉ structural ∧ Op.functionCall ∉ structural ∧ Op.phi ∉ structural
    ∧ Op.fOrdNotEqual ∉ structural ∧ Op.inotEqual ∉ structural
    ∧ Op.convertFToS ∉ structural
    ∧ Op.convertFToU ∉ structural ∧ Op.convertSToF ∉ structural
    ∧ Op.convertUToF ∉ structural
    ∧ Op.bitcast ∉ structural ∧ Op.fdiv ∉ structural
    ∧ Op.image ∉ structural ∧ Op.imageGather ∉ structural
    ∧ Op.imageFetch ∉ structural ∧ Op.imageSampleImplicitLod ∉ structural
    ∧ Op.imageSampleExplicitLod ∉ structural ∧ Op.imageQuerySizeLod ∉ structural := by
  and_intros <;> decide

@[grind ←] theorem computes_emit {op : Opcode} (hop : op ∉ structural) (type : Id)
    (operands : List UInt32) :
    Computes (emit op type operands) := by
  unfold emit
  exact computes_bind computes_makeId fun _ =>
    computes_bind (computes_add hop) fun _ => computes_pure _

@[grind .] theorem computes_emitExtended (type : Id) (op : ExtendedOp) (operands : List UInt32) :
    Computes (emitExtended type op operands) :=
  computes_bind computes_getTarget fun _ => computes_emit (by decide) _ _

@[grind .] theorem computes_emitStore (pointer value : Id) : Computes (emitStore pointer value) :=
  computes_add (i := { op := Op.store, operands := [pointer, value] })
    (by decide : Op.store ∉ structural)

@[grind .] theorem computes_lineInstruction (location : Location) :
    Computes (lineInstruction location) := by
  refine computes_bind computes_getTarget fun s => ?_
  split
  · exact computes_pure _
  · extract_lets goOn
    have hgoOn (file : Id) : Computes (goOn file) := computes_pure _
    split
    · exact computes_bind (computes_pure _) hgoOn
    · refine computes_bind computes_makeId fun file =>
        computes_bind (computes_modifyTarget rfl) fun _ => ?_
      exact computes_bind (computes_pure _) hgoOn

theorem lineInstruction_op {location : Location} {g g' : Generator State} {i : Option Instruction}
    (h : lineInstruction location g = .ok (i, g')) : ∀ j ∈ i, j.op = Op.line := by
  simp only [lineInstruction, bind_eq_ok, ite_eq_ok, pure_eq_ok] at h
  obtain ⟨s, _, -, ⟨-, rfl, rfl⟩ | ⟨-, h⟩⟩ := h
  · exact fun j hj => absurd hj (Option.not_mem_none j)
  · cases hfile : s.sourceFiles.get? location.source with
    | some file =>
      simp only [hfile, bind_eq_ok, pure_eq_ok] at h
      grind
    | none =>
      simp only [hfile, bind_eq_ok, pure_eq_ok] at h
      grind

@[grind .] theorem computes_addBlockLocation (location : Location) :
    Computes (addBlockLocation location) := by
  unfold addBlockLocation
  refine computes_bind computes_currentBody fun _ g a g' h => ?_
  obtain ⟨i, g₁, hline, h⟩ := bind_eq_ok.mp h
  refine (computes_lineInstruction location hline).trans ?_
  cases i with
  | none => exact computes_pure _ h
  | some i =>
    have hi : i.IsOrdinary := by
      rw [Instruction.IsOrdinary, lineInstruction_op hline i rfl]
      grind [ordinary_operations]
    exact computes_add hi h

@[grind .] theorem computes_addName (id : Id) (name : String) : Computes (addName id name) :=
  computes_modifyTarget (by ext1 s; split <;> rfl)

@[grind .] theorem computes_addMemberName (id : Id) (index : UInt32) (name : String) :
    Computes (addMemberName id index name) :=
  computes_modifyTarget (by ext1 s; split <;> rfl)

@[grind .] theorem computes_addAnnotation (i : Instruction) : Computes ( addAnnotation i) :=
  computes_modifyTarget rfl

@[grind .] theorem computes_decorate (id : Id) (d : Decoration) (values : List UInt32) :
    Computes (decorate id d values) :=
  computes_addAnnotation _

@[grind .] theorem computes_decorateMember (id : Id) (index : UInt32) (d : Decoration)
    (values : List UInt32) :
    Computes (decorateMember id index d values) :=
  computes_addAnnotation _

@[grind .] theorem computes_addCapability (c : Capability) : Computes (addCapability c) :=
  computes_modifyTarget (by ext1 s; split <;> rfl)

@[grind .] theorem computes_decorateSemantic (id : Id) (semantic : String) :
    Computes (decorateSemantic id semantic) := by
  refine computes_bind computes_getTarget fun s => ?_
  split
  · refine computes_bind (computes_modifyTarget ?_) fun _ => computes_addAnnotation _
    ext1 s
    split <;> rfl
  · exact computes_pure _

@[grind .] theorem computes_addType (op : Opcode) (operands : List UInt32) :
    Computes (addType op operands) :=
  computes_bind computes_makeId
    fun _ => computes_bind (computes_modifyTarget rfl) fun _ => computes_pure _

@[grind ←] theorem computes_cachedType (key : TypeKey) {make : SpirvM Id} (h : Computes make) :
    Computes (cachedType key make) := by
  refine computes_bind computes_getTarget fun s => ?_
  split
  · exact computes_pure _
  · exact computes_bind h
      fun _ => computes_bind (computes_modifyTarget rfl) fun _ => computes_pure _

@[grind .] theorem computes_floatType : Computes floatType :=
  computes_cachedType _ (computes_addType _ _)

@[grind .] theorem computes_textureType : Computes textureType :=
  computes_cachedType _ (computes_bind computes_floatType fun _ => computes_addType _ _)

@[grind .] theorem computes_baseType (t : Ty) : Computes (baseType t) := by
  refine computes_cachedType _ ?_
  split
  case h_6 => exact computes_pure _
  case h_7 => exact computes_bind computes_floatType fun _ => computes_addType _ _
  case h_8 => exact computes_bind computes_textureType fun _ => computes_addType _ _
  case h_9 | h_10 => exact computes_throw _
  all_goals exact computes_addType _ _

@[grind .] theorem computes_scalarType (base : Base) : Computes (scalarType base) :=
  computes_baseType _

@[grind .] theorem computes_vectorType (t : Ty) : Computes (vectorType t) :=
  computes_cachedType _ (computes_bind (computes_scalarType _) fun _ => computes_addType _ _)

@[grind .] theorem computes_matrixType (t : Ty) : Computes (matrixType t) := by
  refine computes_cachedType _ (computes_bind (computes_vectorType _) fun column => ?_)
  split
  · exact computes_pure _
  · exact computes_addType _ _

@[grind .] theorem computes_elementType (t : Ty) : Computes (elementType t) := by
  unfold elementType
  split
  · exact computes_matrixType t
  · split
    · exact computes_vectorType t
    · exact computes_baseType t

@[grind ←] theorem computes_cachedConstant (key : ConstantKey) {make : SpirvM Id}
    (h : Computes make) :
    Computes (cachedConstant key make) := by
  refine computes_bind computes_getTarget fun s => ?_
  split
  · exact computes_pure _
  · exact computes_bind h
      fun _ => computes_bind (computes_modifyTarget rfl) fun _ => computes_pure _

@[grind ←] theorem computes_addConstantOf (op : Opcode) {type : SpirvM Id} (h : Computes type)
    (operands : List UInt32) : Computes (addConstantOf op type operands) := by
  refine computes_bind computes_makeId fun result => computes_bind h fun type => ?_
  exact computes_bind (computes_modifyTarget rfl) fun _ => computes_pure _

@[grind .] theorem computes_scalarConstant (t : Ty) (value : Constant) :
    Computes (scalarConstant t value) := by
  refine computes_cachedConstant _ ?_
  split
  · exact computes_addConstantOf _ (computes_baseType t) _
  · exact computes_addConstantOf _ (computes_baseType t) _

@[grind .] theorem computes_wordConstant (w : UInt32) : Computes (wordConstant w) :=
  computes_scalarConstant _ _

@[grind .] theorem computes_valueType (t : Ty) (stride : UInt32) :
    Computes (valueType t stride) := by
  unfold valueType
  split
  · refine computes_cachedType _ (computes_bind (computes_elementType _) fun element => ?_)
    refine computes_bind (computes_wordConstant _)
      fun length => computes_bind (computes_addType _ _) fun id => ?_
    split
    · exact computes_bind (computes_decorate _ _ _) fun _ => computes_pure _
    · exact computes_pure _
  · exact computes_elementType t

@[grind .] theorem computes_pointerType (t : Ty) (storage : StorageClass) (stride : UInt32) :
    Computes (pointerType t storage stride) :=
  computes_cachedType _ (computes_bind (computes_valueType t stride) fun _ => computes_addType _ _)

@[grind .] theorem computes_functionType (result : Ty) (params : List Ty) :
    Computes (functionType result params) := by
  unfold functionType
  refine computes_bind (computes_valueType _ _) fun result => ?_
  refine computes_bind (computes_mapM (fun t => computes_pointerType t _ _) params) fun params => ?_
  refine computes_bind computes_getTarget fun s => ?_
  split
  · exact computes_pure _
  · refine computes_bind (computes_addType _ _) fun id => ?_
    exact computes_bind (computes_modifyTarget rfl) fun _ => computes_pure _

@[grind .] theorem computes_addConstant (op : Opcode) (t : Ty) (operands : List UInt32) :
    Computes (addConstant op t operands) :=
  computes_addConstantOf op (computes_valueType t 0) operands

@[grind ←] theorem computes_compositeConstant (t : Ty) (value : Constant)
    {row : Constant → SpirvM Id}
    (h : ∀ c, Computes (row c)) : Computes (compositeConstant t value row) := by
  refine computes_cachedConstant _ (computes_bind (computes_mapM (fun i => h _) _) fun rows => ?_)
  split
  · exact computes_pure _
  · exact computes_addConstant _ t _

@[grind .] theorem computes_vectorConstant (t : Ty) (value : Constant) :
    Computes (vectorConstant t value) :=
  computes_compositeConstant t value (computes_scalarConstant _)

@[grind .] theorem computes_elementConstant (t : Ty) (value : Constant) :
    Computes (elementConstant t value) := by
  unfold elementConstant
  split
  · exact computes_cachedConstant _ (computes_addConstant _ t [])
  · split
    · exact computes_compositeConstant t value (computes_vectorConstant _)
    · split
      · exact computes_vectorConstant t value
      · exact computes_scalarConstant t value

@[grind .] theorem computes_constantId (t : Ty) (value : Constant) :
    Computes (constantId t value) := by
  unfold constantId
  split
  · exact computes_elementConstant t value
  · split
    · exact computes_bind (computes_throw _) fun _ => by grind
    · exact computes_bind (computes_mapM (fun _ => computes_elementConstant _ _) _)
        fun _ => computes_addConstant _ t _

@[grind .] theorem computes_uniformConstant (t : Ty) (lane : UInt32) :
    Computes (uniformConstant t lane) :=
  computes_bind (computes_liftM _) fun _ => computes_elementConstant _ _

@[grind .] theorem computes_constantOf (t : Ty) (isOne : Bool) : Computes (constantOf t isOne) :=
  computes_uniformConstant t _

theorem computes_addLocal {i : Instruction} (hi : i.IsLocal) :
    Computes (modifyFunction fun f => { f with locals := f.locals.push i }) :=
  computes_modifyFunction [i] (by simpa using hi) fun f => by simp [FunctionCode.addLocals]

@[grind .] theorem computes_declareVariable (id : Id) (location : Location) (t : Ty) (name : String)
    (storage : StorageClass) (init : Id) :
    Computes (declareVariable id location t name storage init) := by
  unfold declareVariable
  extract_lets isLocal addTo declare mark
  have haddTo {i : Instruction} (hi : i.IsLocal) : Computes (addTo i) := by
    dsimp only [addTo]
    split
    · exact computes_addLocal hi
    · grind
  have hdeclare : Computes (declare ()) := by
    refine computes_bind (computes_pointerType _ _ _)
      fun type => computes_bind (haddTo (.inl rfl)) fun _ => ?_
    grind
  have hmark : Computes (mark ()) := by
    intro g u g' h
    obtain ⟨i, g₁, hline, h⟩ := bind_eq_ok.mp h
    refine (computes_lineInstruction location hline).trans ?_
    cases i with
    | none => exact hdeclare h
    | some i =>
      exact computes_bind (haddTo (.inr (lineInstruction_op hline i rfl))) (fun _ => hdeclare) h
  refine computes_bind computes_getTarget fun s => ?_
  split
  · exact computes_bind (computes_throw _) fun _ => hmark
  · exact hmark

@[grind .] theorem computes_temporary (location : Location) (t : Ty) :
    Computes (temporary location t) := by
  grind [temporary]

@[grind .] theorem computes_takeIndices (t : Ty) (chain : List Access) :
    Computes (takeIndices t chain) := by
  induction chain generalizing t with
  | nil => exact computes_pure _
  | cons a rest ih => cases a <;> grind [takeIndices]

@[grind .] theorem computes_resolvePlace (e : Expression) : Computes (resolvePlace e) := by
  unfold resolvePlace
  refine computes_bind computes_getTarget fun s => ?_
  extract_lets root member storage asWords base resolve
  have hresolve (first : List Id) : Computes (resolve first) := by
    dsimp only [resolve]
    split <;>
    · refine computes_bind (computes_takeIndices _ _) fun taken => ?_
      grind [ordinary_operations]
  cases member with
  | some i => exact computes_bind (computes_wordConstant i) fun _ => hresolve _
  | none => exact hresolve _

@[grind .] theorem computes_extractLane (source : Ty) (value lane : UInt32) :
    Computes (extractLane source value lane) := by
  grind [extractLane, ordinary_operations]

@[grind .] theorem computes_emitSwizzle (source target : Ty) (lanes : List Int) (value : Id) :
    Computes (emitSwizzle source target lanes value) := by
  grind [emitSwizzle, ordinary_operations]

@[grind .] theorem computes_truncateMatrix (source target : Ty) (value : Id) :
    Computes (truncateMatrix source target value) := by
  unfold truncateMatrix
  have hordinary := ordinary_operations
  refine computes_bind (computes_scalarType _)
    fun scalar => computes_bind (computes_valueType _ _) fun row => ?_
  refine computes_bind (computes_mapM (fun r => ?_) _) fun rows => ?_
  · grind
  · split <;> grind

@[grind .] theorem computes_emitCast (source target : Ty) (value : Id) :
    Computes (emitCast source target value) := by
  grind [emitCast, ordinary_operations]

@[grind .] theorem computes_applyAccess (location : Location) (value : Id) (a : Access) :
    Computes (applyAccess location value a) := by
  cases a <;> grind [applyAccess, ordinary_operations]

@[grind .] theorem computes_loadPlace (p : Place) : Computes (loadPlace p) := by
  grind [loadPlace, ordinary_operations]

@[grind .] theorem computes_loadValue (e : Expression) : Computes (loadValue e) := by
  grind [loadValue]

@[grind .] theorem computes_mergeLanes (pointer : Id) (t target : Ty) (lanes : List Int)
    (value : Id) :
    Computes (mergeLanes pointer t target lanes value) := by
  grind [mergeLanes, ordinary_operations]

@[grind .] theorem computes_storeValue (e : Expression) (value : Id) :
    Computes (storeValue e value) := by
  grind [storeValue]

theorem pick_ordinary {float signed unsigned : Opcode} (t : Ty) (hfloat : float ∉ structural)
    (hsigned : signed ∉ structural) (hunsigned : unsigned ∉ structural) :
    pick t float signed unsigned ∉ structural := by
  unfold pick
  split
  · exact hfloat
  · split <;> assumption

theorem binaryOpcode_ordinary (op : BinaryOp) (t : Ty) : binaryOpcode op t ∉ structural := by
  cases op with
  | equal | notEqual =>
    unfold binaryOpcode
    dsimp only
    split
    · decide
    · exact pick_ordinary t (by decide) (by decide) (by decide)
  | bitXor | bitOr | bitAnd | shiftLeft | or | and => dsimp only [binaryOpcode]; decide
  | _ => exact pick_ordinary t (by decide) (by decide) (by decide)

theorem unaryOpcode_ordinary (op : UnaryOp) (t : Ty) : unaryOpcode op t ∉ structural := by
  cases op with
  | negate =>
    unfold unaryOpcode
    dsimp only
    split <;> decide
  | complement | not => dsimp only [unaryOpcode]; decide

@[grind .] theorem computes_emitUnary (location : Location) (op : UnaryOp) (t : Ty) (value : Id) :
    Computes (emitUnary location op t value) := by
  grind [emitUnary, unaryOpcode_ordinary]

@[grind .] theorem computes_emitBinary (location : Location) (op : BinaryOp) (result operands : Ty)
    (left right : Id) :
    Computes (emitBinary location op result operands left right) := by
  grind [emitBinary, binaryOpcode_ordinary]

@[grind .] theorem computes_emitSelect (location : Location) (t : Ty) (condition yes no : Id) :
    Computes (emitSelect location t condition yes no) := by
  grind [emitSelect, ordinary_operations]

@[grind .] theorem computes_emitCall (location : Location) (function : Id) (result : Ty)
    (args : List Expression) :
    Computes (emitCall location function result args) := by
  grind [emitCall, ordinary_operations]

@[grind .] theorem computes_emitConstruct (location : Location) (t : Ty) (args : List Expression) :
    Computes (emitConstruct location t args) := by
  grind [emitConstruct, ordinary_operations]

theorem coreOp_ordinary {i : Intrinsic} {op : Opcode} (h : coreOp? i = some op) :
    op ∉ structural := by
  unfold coreOp? at h
  split at h <;> first | (obtain rfl := Option.some.inj h; decide) | cases h

theorem swappedOp_ordinary {i : Intrinsic} {op : Opcode} (h : swappedOp? i = some op) :
    op ∉ structural := by
  unfold swappedOp? at h
  split at h <;> first | (obtain rfl := Option.some.inj h; decide) | cases h

@[grind .] theorem computes_offsetOperands (arg : Expression) (mask : ImageOperands) :
    Computes (offsetOperands arg mask) := by
  grind [offsetOperands]

@[grind .] theorem computes_loadImage (sampler : Expression) : Computes (loadImage sampler) := by
  grind [loadImage, ordinary_operations]

@[grind .] theorem computes_sampleLevel (result : Id) (sampler coordinates : Expression)
    (offset : Option Expression) : Computes (sampleLevel result sampler coordinates offset) := by
  have hordinary := ordinary_operations
  unfold sampleLevel
  refine computes_bind (computes_loadValue _)
    fun image => computes_bind (computes_valueType _ _) fun pair => ?_
  refine computes_bind (by grind) fun point => computes_bind computes_floatType fun type => ?_
  cases offset <;> grind

@[grind .] theorem computes_gatherChannel (result : Id) (channel : Fin 4) (args : List Expression) :
    Computes (gatherChannel result channel args) := by
  have hordinary := ordinary_operations
  unfold gatherChannel
  split
  · refine computes_bind (computes_loadValue _)
      fun image => computes_bind (computes_wordConstant _) fun _ => ?_
    split <;> grind
  · exact computes_throw _

@[grind .] theorem computes_splitExponent (location : Location) (result : Id) (t : Ty)
    (value target : Id) :
    Computes (splitExponent location result t value target) := by
  grind [splitExponent, ordinary_operations]

@[grind .] theorem computes_emitComposed (location : Location) (intrinsic : Intrinsic) (t : Ty)
    (result : Id) (args : List Expression) :
    Computes (emitComposed location intrinsic t result args) := by
  have hordinary := ordinary_operations
  unfold emitComposed
  split <;> grind

@[grind .] theorem computes_emitIntrinsic (location : Location) (intrinsic : Intrinsic) (t : Ty)
    (args : List Expression) :
    Computes (emitIntrinsic location intrinsic t args) := by
  refine computes_bind (computes_addBlockLocation _)
    fun _ => computes_bind (computes_valueType _ _) fun result => ?_
  split
  · grind
  · next op _ hop => exact computes_emit (coreOp_ordinary hop) _ _
  · next op _ _ hop => exact computes_emit (swappedOp_ordinary hop) _ _
  · grind
  · grind

end ShaderEffect.Spirv

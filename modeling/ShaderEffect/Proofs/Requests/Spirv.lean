import ShaderEffect.Proofs.Computation
import ShaderEffect.Proofs.Requests.Rules
import ShaderEffect.Spirv.Generator.Backend

namespace ShaderEffect.Spirv

open Generator

instance : HasUniformBlock State where
  specConstants s := s.options.uniformsToSpecConstants
  lines _ := []

/-- Everything but the settings may change. -/
instance leavesBlock {capabilities : State → List Capability} {extensions : State → List String}
    {entryPoints executionModes debugStrings debugNames annotations types globals : State →
      Array Instruction} {extendedSet uniformType uniformVariable : State → Id}
    {uniformMembers : State → Array Id} {memberOf : State → Table Id UInt32}
    {specConstants : State → List Id} {storage : State → Table Id StorageClass}
    {typeIds : State → Table TypeKey Id} {constantIds : State → Table ConstantKey Id}
    {functionTypes : State → List FunctionType} {sourceFiles : State → Table String Id}
    {locations : State → Interface.Locations} {functions : State → Array FunctionCode}
    {current : State → Option FunctionCode} {blocks : State → Table Id BasicBlock}
    {spliced : State → Table Id Id} :
    LeavesBlock fun s : State =>
      { s with
        capabilities := capabilities s
        extensions := extensions s
        entryPoints := entryPoints s
        executionModes := executionModes s
        debugStrings := debugStrings s
        debugNames := debugNames s
        annotations := annotations s
        types := types s
        globals := globals s
        extendedSet := extendedSet s
        uniformType := uniformType s
        uniformVariable := uniformVariable s
        uniformMembers := uniformMembers s
        memberOf := memberOf s
        specConstants := specConstants s
        storage := storage s
        typeIds := typeIds s
        constantIds := constantIds s
        functionTypes := functionTypes s
        sourceFiles := sourceFiles s
        locations := locations s
        functions := functions s
        current := current s
        blocks := blocks s
        spliced := spliced s } :=
  ⟨fun _ => rfl, fun _ => rfl⟩

instance currentBody_steady : Steady currentBody := by
  unfold currentBody
  refine .andThen fun g => ?_
  split <;> infer_instance

instance setCurrentBody_steady {b : BasicBlock} : Steady (setCurrentBody b) := by
  unfold setCurrentBody
  infer_instance

instance add_steady {i : Instruction} : Steady (add i) := by
  unfold add
  infer_instance

instance emit_steady {op : Opcode} {type : Id} {operands : List UInt32} :
    Steady (emit op type operands) := by
  unfold emit
  infer_instance

instance emitExtended_steady {type : Id} {op : ExtendedOp} {operands : List UInt32} :
    Steady (emitExtended type op operands) := by
  unfold emitExtended
  infer_instance

instance emitStore_steady {pointer value : Id} : Steady (emitStore pointer value) := by
  unfold emitStore
  infer_instance

instance addType_steady {op : Opcode} {operands : List UInt32} : Steady (addType op operands) := by
  unfold addType
  infer_instance

instance lineInstruction_steady {location : Location} : Steady (lineInstruction location) := by
  unfold lineInstruction
  refine .andThen fun s => ?_
  split
  · infer_instance
  · split <;> infer_instance

instance addBlockLocation_steady {location : Location} : Steady (addBlockLocation location) := by
  unfold addBlockLocation
  infer_instance

instance modifyFunction_steady {f : FunctionCode → FunctionCode} : Steady (modifyFunction f) := by
  unfold modifyFunction
  refine .andThen fun s => ?_
  split <;> infer_instance

instance addDeclaration_steady {i : Instruction} : Steady (addDeclaration i) := by
  unfold addDeclaration
  infer_instance

instance addName_steady {id : Id} {name : String} : Steady (addName id name) := by
  unfold addName
  infer_instance

instance addMemberName_steady {id : Id} {index : UInt32} {name : String} :
    Steady (addMemberName id index name) := by
  unfold addMemberName
  infer_instance

instance addAnnotation_steady {i : Instruction} : Steady ( addAnnotation i) := by
  unfold addAnnotation
  infer_instance

instance decorate_steady {id : Id} {d : Decoration} {values : List UInt32} :
    Steady (decorate id d values) := by
  unfold decorate
  infer_instance

instance decorateMember_steady {id : Id} {index : UInt32} {d : Decoration} {values : List UInt32} :
    Steady (decorateMember id index d values) := by
  unfold decorateMember
  infer_instance

instance addCapability_steady {c : Capability} : Steady (addCapability c) := by
  unfold addCapability
  infer_instance

instance decorateSemantic_steady {id : Id} {semantic : String} :
    Steady (decorateSemantic id semantic) := by
  unfold decorateSemantic
  infer_instance

instance cachedType_steady {key : TypeKey} {make : SpirvM Id} [Steady make] :
    Steady (cachedType key make) := by
  unfold cachedType
  refine .andThen fun s => ?_
  split <;> infer_instance

instance floatType_steady : Steady floatType := by
  unfold floatType
  infer_instance

instance textureType_steady : Steady textureType := by
  unfold textureType
  infer_instance

instance baseType_steady {t : Ty} : Steady (baseType t) := by
  unfold baseType
  cases t.base <;> infer_instance

instance scalarType_steady {base : Base} : Steady (scalarType base) := by
  unfold scalarType
  infer_instance

instance vectorType_steady {t : Ty} : Steady (vectorType t) := by
  unfold vectorType
  infer_instance

instance matrixType_steady {t : Ty} : Steady (matrixType t) := by
  unfold matrixType
  infer_instance

instance elementType_steady {t : Ty} : Steady (elementType t) := by
  unfold elementType
  infer_instance

instance cachedConstant_steady {key : ConstantKey} {make : SpirvM Id} [Steady make] :
    Steady (cachedConstant key make) := by
  unfold cachedConstant
  refine .andThen fun s => ?_
  split <;> infer_instance

instance addConstantOf_steady {op : Opcode} {type : SpirvM Id} [Steady type]
    {operands : List UInt32} :
    Steady (addConstantOf op type operands) := by
  unfold addConstantOf
  infer_instance

instance scalarConstant_steady {t : Ty} {value : Constant} : Steady (scalarConstant t value) := by
  unfold scalarConstant
  infer_instance

instance wordConstant_steady {w : UInt32} : Steady (wordConstant w) := by
  unfold wordConstant
  infer_instance

instance valueType_steady {t : Ty} {stride : UInt32} : Steady (valueType t stride) := by
  unfold valueType
  infer_instance

instance pointerType_steady {t : Ty} {storage : StorageClass} {stride : UInt32} :
    Steady (pointerType t storage stride) := by
  unfold pointerType
  infer_instance

instance functionType_steady {result : Ty} {params : List Ty} :
    Steady (functionType result params) := by
  unfold functionType
  refine .andThen fun result => .andThen fun params => .andThen fun s => ?_
  split <;> infer_instance

instance addConstant_steady {op : Opcode} {t : Ty} {operands : List UInt32} :
    Steady (addConstant op t operands) := by
  unfold addConstant
  infer_instance

instance compositeConstant_steady {t : Ty} {value : Constant} {row : Constant → SpirvM Id}
    [∀ c, Steady (row c)] :
    Steady (compositeConstant t value row) :=
  have : Steady (do
      let rows ← (List.range t.rows.toNat).mapM fun i => row (rowLanes t value i)
      match rows with
      | [id] => return id
      | ids => addConstant Op.constantComposite t ids : SpirvM Id) := by
    refine .andThen fun rows => ?_
    split <;> infer_instance
  cachedConstant_steady

instance vectorConstant_steady {t : Ty} {value : Constant} : Steady (vectorConstant t value) := by
  unfold vectorConstant
  infer_instance

instance elementConstant_steady {t : Ty} {value : Constant} : Steady (elementConstant t value) := by
  unfold elementConstant
  infer_instance

instance constantId_steady {t : Ty} {value : Constant} : Steady (constantId t value) := by
  unfold constantId
  infer_instance

instance uniformConstant_steady {t : Ty} {lane : UInt32} : Steady (uniformConstant t lane) := by
  unfold uniformConstant
  infer_instance

instance constantOf_steady {t : Ty} {isOne : Bool} : Steady (constantOf t isOne) := by
  unfold constantOf
  infer_instance

instance enterBlock_steady {id : Id} : Steady (enterBlock id) := by
  unfold enterBlock
  infer_instance

instance terminate_steady {i : Instruction} : Steady (terminate i) := by
  unfold terminate
  infer_instance

instance terminateOr_steady {otherwise : Generator State → Id}
    {i : SpirvM Instruction} [Steady i] :
    Steady (terminateOr otherwise i) := by
  unfold terminateOr
  infer_instance

instance leaveAndKill_steady : Steady leaveAndKill := by
  unfold leaveAndKill
  infer_instance

instance leaveAndReturn_steady {value : Id} : Steady (leaveAndReturn value) :=
  have : Steady (do
      match (← getTarget).current with
      | none => return { op := Op.ret }
      | some f =>
        if f.returnType.isVoid then return { op := Op.ret }
        if value ≠ 0 then return { op := Op.returnValue, operands := [value] }
        let undefined ← addConstantOf Op.undef (valueType f.returnType) []
        return { op := Op.returnValue, operands := [undefined] } : SpirvM Instruction) := by
    refine .andThen fun s => ?_
    split <;> infer_instance
  terminateOr_steady

instance leaveAndSwitch_steady {selector defaultTarget : Id} :
    Steady (leaveAndSwitch selector defaultTarget) := by
  unfold leaveAndSwitch
  infer_instance

instance leaveAndBranch_steady {target : Id} : Steady (leaveAndBranch target) := by
  unfold leaveAndBranch
  infer_instance

instance leaveAndBranchConditional_steady {condition trueTarget falseTarget : Id} :
    Steady (leaveAndBranchConditional condition trueTarget falseTarget) := by
  unfold leaveAndBranchConditional
  infer_instance

instance splice_steady {entered : Id} {code : List Instruction} : Steady (splice entered code) := by
  unfold splice
  infer_instance

instance selectionMerge_steady {hint : ControlHint} : Steady (selectionMerge hint) := by
  unfold selectionMerge
  infer_instance

instance emitIf_steady {conditionBlock trueBlock falseBlock : Id} {hint : ControlHint} :
    Steady (emitIf conditionBlock trueBlock falseBlock hint) := by
  unfold emitIf
  infer_instance

instance emitPhi_steady {conditionBlock trueValue trueBlock falseValue falseBlock : Id} {t : Ty} :
    Steady (emitPhi conditionBlock trueValue trueBlock falseValue falseBlock t) := by
  unfold emitPhi
  infer_instance

instance emitLoop_steady {before header conditionBlock body continueBlock : Id}
    {hint : ControlHint} :
    Steady (emitLoop before header conditionBlock body continueBlock hint) := by
  unfold emitLoop
  infer_instance

instance emitSwitch_steady {selectorBlock defaultLabel : Id} {cases : List (UInt32 × Id)}
    {hint : ControlHint} :
    Steady (emitSwitch selectorBlock defaultLabel cases hint) := by
  unfold emitSwitch
  refine .andThen fun s => ?_
  split <;> infer_instance

set_option synthInstance.maxSize 65536 in
instance declareVariable_steady {id : Id} {location : Location} {t : Ty} {name : String}
    {storage : StorageClass} {init : Id} :
    Steady (declareVariable id location t name storage init) := by
  unfold declareVariable
  infer_instance

instance temporary_steady {location : Location} {t : Ty} : Steady (temporary location t) := by
  unfold temporary
  infer_instance

instance takeIndices_steady {t : Ty} {chain : List Access} : Steady (takeIndices t chain) := by
  induction chain generalizing t with
  | nil =>
    unfold takeIndices
    infer_instance
  | cons a chain ih =>
    unfold takeIndices
    cases a <;> infer_instance

instance resolvePlace_steady {e : Expression} : Steady (resolvePlace e) := by
  unfold resolvePlace
  refine .andThen fun s => ?_
  extract_lets root member storage asWords base rest
  have hrest (first : List Id) : Steady (rest first) := by
    dsimp only [rest]
    split <;> infer_instance
  clear_value rest
  dsimp only [member]
  split <;> infer_instance

instance extractLane_steady {source : Ty} {value lane : UInt32} :
    Steady (extractLane source value lane) := by
  unfold extractLane
  infer_instance

instance emitSwizzle_steady {source target : Ty} {lanes : List Int} {value : Id} :
    Steady (emitSwizzle source target lanes value) := by
  unfold emitSwizzle
  infer_instance

instance truncateMatrix_steady {source target : Ty} {value : Id} :
    Steady (truncateMatrix source target value) := by
  unfold truncateMatrix
  refine .andThen fun scalar => .andThen fun row => .andThen fun rows => ?_
  split <;> infer_instance

instance emitCast_steady {source target : Ty} {value : Id} :
    Steady (emitCast source target value) := by
  unfold emitCast
  cases target.base <;> infer_instance

instance applyAccess_steady {location : Location} {value : Id} {a : Access} :
    Steady (applyAccess location value a) := by
  cases a <;> unfold applyAccess <;> infer_instance

instance loadPlace_steady {p : Place} : Steady (loadPlace p) := by
  unfold loadPlace
  infer_instance

instance loadValue_steady {e : Expression} : Steady (loadValue e) := by
  unfold loadValue
  infer_instance

instance replaceLanes_bounded {rows : UInt32} {lanes : List Int} {k : UInt32}
    {shuffle : List UInt32} :
    Bounded (replaceLanes rows lanes k shuffle) := by
  induction lanes generalizing k shuffle with
  | nil =>
    unfold replaceLanes
    infer_instance
  | cons lane lanes ih =>
    unfold replaceLanes
    infer_instance

instance mergeLanes_steady {pointer : Id} {t target : Ty} {lanes : List Int} {value : Id} :
    Steady (mergeLanes pointer t target lanes value) := by
  unfold mergeLanes
  infer_instance

instance storeValue_steady {e : Expression} {value : Id} : Steady (storeValue e value) := by
  unfold storeValue
  refine .andThen fun _ => .andThen fun p => ?_
  dsimp only
  split <;> infer_instance

instance emitUnary_steady {location : Location} {op : UnaryOp} {t : Ty} {value : Id} :
    Steady (emitUnary location op t value) := by
  unfold emitUnary
  infer_instance

instance emitBinary_steady {location : Location} {op : BinaryOp} {result operands : Ty}
    {left right : Id} :
    Steady (emitBinary location op result operands left right) := by
  unfold emitBinary
  infer_instance

instance emitSelect_steady {location : Location} {t : Ty} {condition yes no : Id} :
    Steady (emitSelect location t condition yes no) := by
  unfold emitSelect
  infer_instance

instance emitCall_steady {location : Location} {function : Id} {result : Ty}
    {args : List Expression} :
    Steady (emitCall location function result args) := by
  unfold emitCall
  infer_instance

instance emitConstruct_steady {location : Location} {t : Ty} {args : List Expression} :
    Steady (emitConstruct location t args) := by
  unfold emitConstruct
  refine .andThen fun _ => ?_
  dsimp only
  split
  · infer_instance
  · refine .andThen fun row => .andThen fun rows => ?_
    split <;> infer_instance

instance offsetOperands_steady {arg : Expression} {mask : ImageOperands} :
    Steady (offsetOperands arg mask) := by
  unfold offsetOperands
  infer_instance

instance loadImage_steady {sampler : Expression} : Steady (loadImage sampler) := by
  unfold loadImage
  infer_instance

instance sampleLevel_steady {result : Id} {sampler coordinates : Expression}
    {offset : Option Expression} :
    Steady (sampleLevel result sampler coordinates offset) := by
  unfold sampleLevel
  cases offset <;> infer_instance

instance gatherChannel_steady {result : Id} {channel : Fin 4} {args : List Expression} :
    Steady (gatherChannel result channel args) := by
  unfold gatherChannel
  split
  · refine .andThen fun image => .andThen fun channel => ?_
    split <;> infer_instance
  · infer_instance

instance splitExponent_steady {location : Location} {result : Id} {t : Ty} {value target : Id} :
    Steady (splitExponent location result t value target) := by
  unfold splitExponent
  infer_instance

instance emitComposed_steady {location : Location} {i : Intrinsic} {t : Ty} {result : Id}
    {args : List Expression} :
    Steady (emitComposed location i t result args) := by
  unfold emitComposed
  dsimp only
  split <;> infer_instance

instance emitIntrinsic_steady {location : Location} {i : Intrinsic} {t : Ty}
    {args : List Expression} :
    Steady (emitIntrinsic location i t args) := by
  unfold emitIntrinsic
  refine .andThen fun _ => .andThen fun result => ?_
  dsimp only
  split <;> infer_instance

set_option synthInstance.maxSize 65536 in
instance declareParameter_steady {p : Member} : Steady (declareParameter p) := by
  unfold declareParameter
  infer_instance

set_option synthInstance.maxSize 65536 in
instance startFunction_steady {location : Location} {decl : FunctionDecl} :
    Steady (startFunction location decl) := by
  unfold startFunction
  infer_instance

instance leaveFunction_steady : Steady leaveFunction := by
  unfold leaveFunction
  refine .andThen fun g => ?_
  dsimp only
  split <;> infer_instance

set_option synthInstance.maxSize 65536 in
instance declareVarying_steady {stage : Stage} {t : Ty} {semantic : String}
    {storage : StorageClass} :
    Steady (declareVarying stage t semantic storage) := by
  unfold declareVarying
  refine .andThen fun id => .andThen fun _ => .andThen fun s => ?_
  dsimp only
  split <;> infer_instance

instance declareOutputs_steady {stage : Stage} {t : Ty} {semantic : String} :
    Steady (declareOutputs stage t semantic) := by
  unfold declareOutputs
  infer_instance

instance readInputs_steady {stage : Stage} {t : Ty} {semantic : String} :
    Steady (readInputs stage t semantic) := by
  unfold readInputs
  infer_instance

instance writeOutputs_steady {t : Ty} {value : Id} {outputs : List Id} :
    Steady (writeOutputs t value outputs) := by
  unfold writeOutputs
  refine .andThen fun g => ?_
  split <;> infer_instance

instance passParameter_steady {stage : Stage} {p : Member} : Steady (passParameter stage p) := by
  unfold passParameter
  infer_instance

instance returnParameter_steady {p : Passed} : Steady (returnParameter p) := by
  unfold returnParameter
  cases p.outputs <;> infer_instance

instance invertPosition_steady {position : Id} : Steady (invertPosition position) := by
  unfold invertPosition
  infer_instance

instance addEntryPointRecord_steady {stage : Stage} {wrapper : Id} {name : String} :
    Steady (addEntryPointRecord stage wrapper name) := by
  unfold addEntryPointRecord
  infer_instance

set_option synthInstance.maxSize 65536 in
instance callAsStage_steady {fn : FunctionDecl} {isPixelShader : Bool} :
    Steady (callAsStage fn isPixelShader) := by
  unfold callAsStage
  infer_instance

instance emitEntryPoint_steady {fn : FunctionDecl} {isPixelShader : Bool} :
    Steady (emitEntryPoint fn isPixelShader) := by
  unfold emitEntryPoint
  infer_instance

/-- A structure is defined behind the others. -/
theorem defineStruct_answers (location : Location) (decl : StructDecl) (g : Generator State) :
    Answers (defineStruct location decl) g fun decl' g' =>
      g'.structs = g.structs ++ [decl'] ∧ decl'.members = decl.members
        ∧ g'.uniformBlock = g.uniformBlock ∧ g.Grows g' := by
  unfold defineStruct
  refine Steady.next fun members g₁ h₁ => ?_
  refine Steady.next fun line g₂ h₂ => ?_
  extract_lets rest
  have hrest (g₃ : Generator State) (h : g.Stays g₃) :
      Answers (rest ⟨⟩) g₃ fun decl' g' =>
      g'.structs = g.structs ++ [decl'] ∧ decl'.members = decl.members
        ∧ g'.uniformBlock = g.uniformBlock ∧ g.Grows g' := by
    refine Steady.next fun id g₄ h₄ => ?_
    refine Steady.next fun _ g₅ h₅ => ?_
    refine Steady.next fun _ g₆ h₆ => ?_
    have h := ((h.trans h₄).trans h₅).trans h₆
    refine .of_ok rfl ⟨congrArg (· ++ _) h.structs, rfl, h.block, h.grows.trans ?_⟩
    exact ⟨List.prefix_refl _, List.prefix_refl _, Nat.le_refl _⟩
  have h := h₁.trans h₂
  split
  · exact Steady.next fun _ g₃ h₃ => hrest g₃ (h.trans h₃)
  · exact hrest g₂ h

instance defineTexture_steady {texture : Texture} : Steady (defineTexture texture) :=
  have {t : Texture} :
    Steady (modifyResult fun m => { m with textures := m.textures ++ [t] } : SpirvM Unit) :=
    .modifyResult (fun m => List.map_append ▸ List.prefix_append _ _) fun _ => ⟨rfl, rfl⟩
  by
    unfold defineTexture
    infer_instance

instance defineSampler_steady {location : Location} {sampler : Sampler} :
    Steady (defineSampler location sampler) :=
  have {binding : UInt32} :
    Steady (modifyResult fun m => { m with samplerBindings := binding } : SpirvM Unit) :=
    .modifyResult (fun _ => List.prefix_refl _) fun _ => ⟨rfl, rfl⟩
  have {s : Sampler} :
    Steady (modifyResult fun m => { m with samplers := m.samplers ++ [s] } : SpirvM Unit) :=
    .modifyResult (fun _ => List.prefix_refl _) fun _ => ⟨rfl, rfl⟩
  by
    unfold defineSampler
    infer_instance

instance defineSpecConstant_steady {u : Uniform} : Steady (defineSpecConstant u) := by
  unfold defineSpecConstant
  infer_instance

instance openUniformBlock_steady : Steady openUniformBlock := by
  unfold openUniformBlock
  infer_instance

/-- A member of the uniform block is no line of text. -/
def IsMemberLine (_ : Uniform) (lines : List Source.Line) : Prop :=
  lines = []

set_option synthInstance.maxSize 65536 in
theorem defineUniform_answers (u : Uniform) (g : Generator State) :
    Answers (defineUniform u) g fun _ g' =>
    g.Keeps g' ∧ UniformBlock.Takes IsMemberLine u g.uniformBlock g'.uniformBlock := by
  have hconstants : g.target.options.uniformsToSpecConstants = g.uniformBlock.specConstants := rfl
  unfold defineUniform UniformBlock.Takes Uniform.isConstant
  refine .bind_getTarget ?_
  rw [hconstants]
  split
  · exact (Steady.answers g).mono fun _ _ h => ⟨h.toKeeps, h.block⟩
  · unfold defineUniformMember
    refine Steady.next fun _ g₁ h₁ => ?_
    refine (placeUniform_answers u g₁).bind (fun _ _ h => h.1.structs)
      fun v g₂ ⟨h₂, hv, hblock⟩ => ?_
    rw [h₁.block] at hv hblock
    subst hv
    refine (Steady.answers g₂).mono fun id g₃ h₃ => ?_
    refine ⟨(h₁.toKeeps.trans h₂).trans h₃.toKeeps, [], rfl, ?_⟩
    rw [h₃.block, hblock, List.append_nil]

instance defineVariable_steady {location : Location} {t : Ty} {name : String}
    {isGlobal : Bool} {init : Id} :
    Steady (defineVariable location t name isGlobal init) := by
  unfold defineVariable
  infer_instance

instance defineFunction_steady {location : Location} {decl : FunctionDecl} :
    Steady (defineFunction location decl) :=
  have {decl : FunctionDecl} :
    Steady (modify fun g => { g with functions := g.functions ++ [decl] } : SpirvM Unit) :=
    .modify fun _ => ⟨⟨rfl, List.prefix_append _ _, List.prefix_refl _, Nat.le_refl _⟩, rfl⟩
  by
    unfold defineFunction
    infer_instance

/-- Requests but for the definition of a structure or a uniform leave everything as it was. -/
theorem handle_steady {q : Request} (hstruct : q.definesStruct = false)
    (huniform : q.uniform? = none) :
    Steady (q.handle : GenM State q.Answer) := by
  cases q with
  | defineStruct => exact nomatch hstruct
  | defineUniform => exact nomatch huniform
  | enterBlock => exact enterBlock_steady
  | leaveAndKill => exact leaveAndKill_steady
  | leaveAndReturn => exact leaveAndReturn_steady
  | leaveAndSwitch => exact leaveAndSwitch_steady
  | leaveAndBranchConditional => exact leaveAndBranchConditional_steady
  | leaveAndBranch => exact leaveAndBranch_steady
  | emitIf => exact emitIf_steady
  | emitPhi => exact emitPhi_steady
  | emitLoop => exact emitLoop_steady
  | emitSwitch => exact emitSwitch_steady
  | load => exact loadValue_steady
  | store => exact storeValue_steady
  | constant => exact constantId_steady
  | unary => exact emitUnary_steady
  | binary => exact emitBinary_steady
  | select => exact emitSelect_steady
  | call => exact emitCall_steady
  | callIntrinsic => exact emitIntrinsic_steady
  | construct => exact emitConstruct_steady
  | defineTexture => exact defineTexture_steady
  | defineSampler => exact defineSampler_steady
  | defineVariable => exact defineVariable_steady
  | defineFunction => exact defineFunction_steady
  | leaveFunction => exact leaveFunction_steady
  | defineEntryPoint => exact emitEntryPoint_steady
  | _ =>
    dsimp only [Request.handle]
    infer_instance

instance : Backend.Answering State IsMemberLine where
  defineStruct := defineStruct_answers
  defineUniform _ := defineUniform_answers
  steady := handle_steady

end ShaderEffect.Spirv

import ShaderEffect.Proofs.References.Instructions
import ShaderEffect.Proofs.References.Operands

/-!
The generator of the binary format makes types and constants only of what is defined.

An id of a type that was asked for before is taken from the state, which keeps only ids of the
section. Otherwise its parts are asked for first, and stand in the section when the
instruction made of them is added. Values and functions add nothing to the section but through
the types they ask for.

A structure is defined behind its members, and known from then on. So whatever a request refers to
may be known in front of it for its answer to refer to what is known behind it.
-/
namespace ShaderEffect.Spirv

open Generator

variable {Γ : Set Id}

section

variable {t : Ty} {value : Constant}

instance cachedType_grounded {key : TypeKey} {make : SpirvM Id}
    [hmake : Grounded Γ make Id.named] :
    Grounded Γ (cachedType key make) Id.named := by
  unfold cachedType
  refine .andThen refs fun s => ?_
  split
  · next id hid =>
    have hknown : Id.named id ⊆ refs s := (Table.named_subset hid).trans s.typeIds_subset
    exact .of_pure (hknown.trans Set.subset_union_right)
  · -- What the table then has for the key is what was just made.
    exact .of_bind (hmake.weaken Set.subset_union_left) fun id => inferInstance

instance floatType_grounded : Grounded Γ floatType Id.named :=
  have : Grounded Γ (addType Op.typeFloat [32]) Id.named := addType_grounded [] rfl
  cachedType_grounded

/-- The type of images follows that of their texels. -/
instance imageType_grounded :
    Grounded Γ (do addType Op.typeImage [← floatType, 1, 0, 0, 0, 1, 0] : SpirvM Id) Id.named :=
  .andThen Id.named fun texel => addType_grounded [texel] rfl

instance textureType_grounded : Grounded Γ textureType Id.named := by
  unfold textureType
  infer_instance

instance baseType_grounded [Includes Γ (refs t)] : Grounded Γ (baseType t) Id.named := by
  have hsampler :
      Grounded Γ (do addType Op.typeSampledImage [← textureType] : SpirvM Id) Id.named :=
    .andThen Id.named fun image => addType_grounded [image] rfl
  have hplain (op : Opcode) : Grounded Γ (addType op []) Id.named := addType_grounded [] op.ids_nil
  have hint (sign : UInt32) : Grounded Γ (addType Op.typeInt [32, sign]) Id.named :=
    addType_grounded [] rfl
  have hfloat : Grounded Γ (addType Op.typeFloat [32]) Id.named := addType_grounded [] rfl
  unfold baseType
  cases t.base <;> infer_instance

instance scalarType_grounded {base : Base} : Grounded Γ (scalarType base) Id.named := by
  unfold scalarType
  infer_instance

instance vectorType_grounded : Grounded Γ (vectorType t) Id.named :=
  have :
    Grounded Γ (do addType Op.typeVector [← scalarType t.base, t.rows] : SpirvM Id) Id.named :=
    .andThen Id.named fun component => addType_grounded [component] rfl
  cachedType_grounded

instance matrixType_grounded : Grounded Γ (matrixType t) Id.named := by
  unfold matrixType
  have (column : Id) :
      Grounded (Γ ∪ Id.named column) (addType Op.typeMatrix [column, t.rows]) Id.named :=
    addType_grounded [column] rfl
  have : Grounded Γ (do
      let column ← vectorType (.vector t.base t.cols)
      if t.rows = 1 then return column
      addType Op.typeMatrix [column, t.rows] : SpirvM Id) Id.named :=
    .andThen Id.named fun column => inferInstance
  infer_instance

instance elementType_grounded [Includes Γ (refs t)] : Grounded Γ (elementType t) Id.named := by
  unfold elementType
  infer_instance

instance cachedConstant_grounded {key : ConstantKey} {make : SpirvM Id}
    [hmake : Grounded Γ make Id.named] :
    Grounded Γ (cachedConstant key make) Id.named := by
  unfold cachedConstant
  refine .andThen refs fun s => ?_
  split
  · next id hid =>
    have hknown : Id.named id ⊆ refs s := (Table.named_subset hid).trans s.constantIds_subset
    exact .of_pure (hknown.trans Set.subset_union_right)
  · exact .of_bind (hmake.weaken Set.subset_union_left) fun id => inferInstance

/-- A constant is defined behind its type and the constants that it is made of. -/
theorem addConstantOf_grounded {op : Opcode} {type : SpirvM Id} {operands : List UInt32}
    (ids : List Id) (hids : op.ids operands = ids) [htype : Grounded Γ type Id.named]
    [h : Includes Γ (Id.namedAll ids)] :
    Grounded Γ (addConstantOf op type operands) Id.named := by
  unfold addConstantOf
  refine .of_pass makeId_grounded fun result => .of_bind htype fun type => ?_
  refine .of_bind (declare_grounded fun _ => ?_) fun _ => .of_pure Set.subset_union_right
  have hcites : Instruction.cites { op, type, result, operands } = type :: ids := congrArg _ hids
  exact hcites ▸ Includes.namedCons.subset

instance scalarConstant_grounded [Includes Γ (refs t)] :
    Grounded Γ (scalarConstant t value) Id.named := by
  have htruth (op : Opcode) : Grounded Γ (addConstantOf op (baseType t) []) Id.named :=
    addConstantOf_grounded [] op.ids_nil
  have hnumber : Grounded Γ (addConstantOf Op.constant (baseType t) [value.word]) Id.named :=
    addConstantOf_grounded [] rfl
  unfold scalarConstant
  infer_instance

instance wordConstant_grounded {word : UInt32} : Grounded Γ (wordConstant word) Id.named := by
  unfold wordConstant
  infer_instance

instance valueType_grounded {stride : UInt32} [Includes Γ (refs t)] :
    Grounded Γ (valueType t stride) Id.named := by
  have : Grounded Γ (do
      let element ← elementType t.element
      let length ← wordConstant (UInt32.ofInt t.arrayLength)
      let id ← addType Op.typeArray [element, length]
      if stride ≠ 0 then decorate id .arrayStride [stride]
      return id : SpirvM Id) Id.named := by
    refine .andThen Id.named fun element => .andThen Id.named fun length => ?_
    exact .of_bind (addType_grounded [element, length] rfl) fun id => inferInstance
  unfold valueType
  infer_instance

instance pointerType_grounded {storage : StorageClass} {stride : UInt32} [Includes Γ (refs t)] :
    Grounded Γ (pointerType t storage stride) Id.named := by
  unfold pointerType
  extract_lets storage
  have : Grounded Γ (do
      let target ← valueType t stride
      addType Op.typePointer [storage, target] : SpirvM Id) Id.named :=
    .andThen Id.named fun target => addType_grounded [target] rfl
  infer_instance

instance functionType_grounded {result : Ty} {params : List Ty}
    [hresult : Includes Γ (refs result)]
    [hparams : Includes Γ (refs params)] : Grounded Γ (functionType result params) Id.named := by
  unfold functionType
  refine .andThen Id.named fun result => .of_bind (R := Id.namedAll) ?_ fun params => ?_
  · refine .mapM_of (R := refs) (fun t => pointerType_grounded) fun t ht => ?_
    exact (refs_subset_of_mem ht).trans (hparams.subset.trans Set.subset_union_left)
  · refine .andThen refs fun s => ?_
    split
    · next f hf =>
      have hknown : refs f ⊆ refs s :=
        (refs_subset_of_mem (List.mem_of_find?_eq_some hf)).trans s.functionTypes_subset
      exact .of_pure (hknown.trans Set.subset_union_right)
    · exact .of_bind (addType_grounded (result :: params) rfl) fun id => inferInstance

theorem addConstant_grounded {op : Opcode} {operands : List UInt32} (ids : List Id)
    (hids : op.ids operands = ids) [Includes Γ (refs t)] [Includes Γ (Id.namedAll ids)] :
    Grounded Γ (addConstant op t operands) Id.named :=
  addConstantOf_grounded ids hids

theorem mapM_named {α : Type} {f : α → SpirvM Id} (hf : ∀ a, Grounded Γ (f a) Id.named)
    {l : List α} :
    Grounded Γ (l.mapM f) Id.namedAll :=
  .mapM_of (R := fun _ => ∅) (fun a => (hf a).weaken Set.subset_union_left)
    fun _ _ => Set.empty_subset _

instance compositeConstant_grounded {row : Constant → SpirvM Id} [ht : Includes Γ (refs t)]
    [hrow : ∀ c, Grounded Γ (row c) Id.named] :
    Grounded Γ (compositeConstant t value row) Id.named := by
  have : Grounded Γ (do
      let rows ← (List.range t.rows.toNat).mapM fun i => row (rowLanes t value i)
      match rows with
      | [id] => return id
      | ids => addConstant Op.constantComposite t ids : SpirvM Id) Id.named := by
    refine .of_bind (R := Id.namedAll) (mapM_named fun i => hrow (rowLanes t value i))
      fun rows => ?_
    split
    · exact .of_pure ((named_subset_namedAll List.mem_cons_self).trans Set.subset_union_right)
    · exact addConstant_grounded rows rfl
  unfold compositeConstant
  infer_instance

instance vectorConstant_grounded [Includes Γ (refs t)] :
    Grounded Γ (vectorConstant t value) Id.named := by
  unfold vectorConstant
  infer_instance

instance elementConstant_grounded [Includes Γ (refs t)] :
    Grounded Γ (elementConstant t value) Id.named := by
  have : Grounded Γ (addConstant Op.constantNull t []) Id.named := addConstant_grounded [] rfl
  unfold elementConstant
  infer_instance

instance constantId_grounded [Includes Γ (refs t)] :
    Grounded Γ (constantId t value) Id.named := by
  have harray : Grounded Γ (do
      let ids ← (List.range t.arrayLength.toNat).mapM fun i =>
        elementConstant t.element (value.elements.getD i {})
      addConstant Op.constantComposite t ids : SpirvM Id) Id.named :=
    .of_bind (R := Id.namedAll) (mapM_named fun i => elementConstant_grounded)
      fun ids => addConstant_grounded ids rfl
  unfold constantId
  infer_instance

instance uniformConstant_grounded {lane : UInt32} [Includes Γ (refs t)] :
    Grounded Γ (uniformConstant t lane) Id.named := by
  unfold uniformConstant
  infer_instance

instance constantOf_grounded {isOne : Bool} [Includes Γ (refs t)] :
    Grounded Γ (constantOf t isOne) Id.named := by
  unfold constantOf
  infer_instance

end

instance : References Place := ⟨fun p => refs p.type ∪ refs p.rest⟩

namespace Includes

variable {p : Place} {t : Ty}

instance place {pointer : Id} {storage : StorageClass} {asWords : Bool} {rest : List Access}
    [ht : Includes Γ (refs t)] [hrest : Includes Γ (refs rest)] :
    Includes Γ (refs (Place.mk pointer t storage asWords rest)) :=
  ⟨Set.union_subset ht.subset hrest.subset⟩

instance placeType [h : Includes Γ (refs p)] :
    Includes Γ (refs p.type) := ⟨Set.subset_union_left.trans h.subset⟩
instance placeRest [h : Includes Γ (refs p)] :
    Includes Γ (refs p.rest) := ⟨Set.subset_union_right.trans h.subset⟩

end Includes

set_option synthInstance.maxSize 65536 in
instance declareVariable_grounded {id : Id} {location : Location} {t : Ty} {name : String}
    {storage : StorageClass} {init : Id} [Includes Γ (refs t)] :
    Grounded Γ (declareVariable id location t name storage init) refs := by
  unfold declareVariable
  dsimp only
  infer_instance

instance temporary_grounded {location : Location} {t : Ty} [Includes Γ (refs t)] :
    Grounded Γ (temporary location t) refs := by
  unfold temporary
  infer_instance

instance takeIndices_grounded {t : Ty} {chain : List Access} [ht : Includes Γ (refs t)]
    [hchain : Includes Γ (refs chain)] : Grounded Γ (takeIndices t chain) refs := by
  -- Each access leads to its target, from which the accesses behind it go on.
  induction chain generalizing t Γ with
  | nil =>
    unfold takeIndices
    infer_instance
  | cons a chain ih =>
    have ha : Includes Γ (refs a) := .head (h := hchain)
    have hrest : Includes Γ (refs chain) := .tail (h := hchain)
    have hnext {make : SpirvM Id} (hmake : Grounded Γ make refs) : Grounded Γ (do
        let id ← make
        let (ids, t, rest) ← takeIndices a.target chain
        return (id :: ids, t, rest)) refs :=
      .of_pass hmake fun id => .of_bind ih fun c => inferInstance
    unfold takeIndices
    cases a with
    | dynamicIndex => exact hnext inferInstance
    | member _ _ i => exact hnext inferInstance
    | constantIndex _ _ i => exact hnext inferInstance
    | cast => infer_instance
    | swizzle => infer_instance

set_option synthInstance.maxSize 65536 in
instance resolvePlace_grounded {e : Expression} [he : Includes Γ (refs e)] :
    Grounded Γ (resolvePlace e) refs := by
  unfold resolvePlace
  refine .of_pass getTarget_grounded fun s => ?_
  extract_lets root member storage asWords base rest
  have hrest (first : List Id) : Grounded Γ (rest first) refs := by
    dsimp only [rest]
    cases hchain : e.chain with
    | nil =>
      have : Includes Γ (refs root) := by
        dsimp only [root]
        rw [hchain]
        exact (inferInstance : Includes Γ (refs e.type))
      infer_instance
    | cons a chain =>
      have hall : Includes Γ (refs (a :: chain)) := hchain ▸ Includes.chain
      have ha : Includes Γ (refs a) := .head (h := hall)
      have : Includes Γ (refs chain) := .tail (h := hall)
      have : Includes Γ (refs root) := by
        dsimp only [root]
        rw [hchain]
        exact (inferInstance : Includes Γ (refs a.source))
      infer_instance
  cases member <;> infer_instance

instance extractLane_grounded {source : Ty} {value lane : UInt32} :
    Grounded Γ (extractLane source value lane) refs := by
  unfold extractLane
  infer_instance

instance emitSwizzle_grounded {source target : Ty} {lanes : List Int} {value : Id}
    [Includes Γ (refs target)] :
    Grounded Γ (emitSwizzle source target lanes value) refs := by
  unfold emitSwizzle
  infer_instance

instance truncateMatrix_grounded {source target : Ty} {value : Id} [Includes Γ (refs target)] :
    Grounded Γ (truncateMatrix source target value) refs := by
  unfold truncateMatrix
  refine .pass fun scalar => .pass fun row => .pass fun rows => ?_
  split <;> infer_instance

instance emitCast_grounded {source target : Ty} {value : Id} [Includes Γ (refs source)]
    [Includes Γ (refs target)] :
    Grounded Γ (emitCast source target value) refs := by
  unfold emitCast
  cases target.base <;> infer_instance

instance applyAccess_grounded {location : Location} {value : Id} {a : Access}
    [Includes Γ (refs a)] :
    Grounded Γ (applyAccess location value a) refs := by
  have hsource : Includes Γ (refs a.source) := inferInstance
  have htarget : Includes Γ (refs a.target) := inferInstance
  cases a <;> unfold applyAccess <;> dsimp only [Access.source, Access.target] at hsource htarget
    <;> infer_instance

set_option synthInstance.maxSize 65536 in
instance loadPlace_grounded {p : Place} [Includes Γ (refs p)] :
    Grounded Γ (loadPlace p) refs := by
  unfold loadPlace
  infer_instance

set_option synthInstance.maxSize 65536 in
instance loadValue_grounded {e : Expression} [Includes Γ (refs e)] :
    Grounded Γ (loadValue e) refs := by
  unfold loadValue
  infer_instance

instance mergeLanes_grounded {pointer : Id} {t target : Ty} {lanes : List Int} {value : Id}
    [Includes Γ (refs t)] :
    Grounded Γ (mergeLanes pointer t target lanes value) refs := by
  unfold mergeLanes
  infer_instance

instance storeValue_grounded {e : Expression} {value : Id} [Includes Γ (refs e)] :
    Grounded Γ (storeValue e value) refs := by
  unfold storeValue
  refine .pass fun _ => .andThen refs fun p => ?_
  split <;> infer_instance

instance emitUnary_grounded {location : Location} {op : UnaryOp} {t : Ty} {value : Id}
    [Includes Γ (refs t)] :
    Grounded Γ (emitUnary location op t value) refs := by
  unfold emitUnary
  infer_instance

instance emitBinary_grounded {location : Location} {op : BinaryOp} {result operands : Ty}
    {left right : Id} [Includes Γ (refs result)] :
    Grounded Γ (emitBinary location op result operands left right) refs := by
  unfold emitBinary
  infer_instance

instance emitSelect_grounded {location : Location} {t : Ty} {condition yes no : Id}
    [Includes Γ (refs t)] :
    Grounded Γ (emitSelect location t condition yes no) refs := by
  unfold emitSelect
  infer_instance

instance emitCall_grounded {location : Location} {function : Id} {result : Ty}
    {args : List Expression} [Includes Γ (refs result)] :
    Grounded Γ (emitCall location function result args) refs := by
  unfold emitCall
  infer_instance

instance emitConstruct_grounded {location : Location} {t : Ty} {args : List Expression}
    [Includes Γ (refs t)] :
    Grounded Γ (emitConstruct location t args) refs := by
  unfold emitConstruct
  refine .pass fun _ => ?_
  dsimp only
  split
  · infer_instance
  · refine .pass fun row => .pass fun rows => ?_
    split <;> infer_instance

instance offsetOperands_grounded {arg : Expression} {mask : ImageOperands} :
    Grounded Γ (offsetOperands arg mask) refs := by
  unfold offsetOperands
  infer_instance

instance loadImage_grounded {sampler : Expression} [Includes Γ (refs sampler)] :
    Grounded Γ (loadImage sampler) refs := by
  unfold loadImage
  infer_instance

instance sampleLevel_grounded {result : Id} {sampler coordinates : Expression}
    {offset : Option Expression} [Includes Γ (refs sampler)] :
    Grounded Γ (sampleLevel result sampler coordinates offset) refs := by
  unfold sampleLevel
  cases offset <;> infer_instance

instance gatherChannel_grounded {result : Id} {channel : Fin 4} {args : List Expression}
    [hargs : Includes Γ (refs args)] : Grounded Γ (gatherChannel result channel args) refs := by
  unfold gatherChannel
  split
  · have : Includes Γ (refs _) := .head (h := hargs)
    refine .pass fun image => .pass fun channel => ?_
    split <;> infer_instance
  · infer_instance

instance splitExponent_grounded {location : Location} {result : Id} {t : Ty} {value target : Id} :
    Grounded Γ (splitExponent location result t value target) refs := by
  unfold splitExponent
  infer_instance

instance emitComposed_grounded {location : Location} {i : Intrinsic} {t : Ty} {result : Id}
    {args : List Expression} [Includes Γ (refs t)] [hargs : Includes Γ (refs args)] :
    Grounded Γ (emitComposed location i t result args) refs := by
  have hfirst {first : Expression} {rest : List Expression} (hcons : args = first :: rest) :
      Includes Γ (refs first) :=
    .head (h := hcons ▸ hargs)
  unfold emitComposed
  dsimp only
  split <;> first | infer_instance | exact have := hfirst rfl; inferInstance

instance emitIntrinsic_grounded {location : Location} {i : Intrinsic} {t : Ty}
    {args : List Expression} [Includes Γ (refs t)] [Includes Γ (refs args)] :
    Grounded Γ (emitIntrinsic location i t args) refs := by
  unfold emitIntrinsic
  refine .pass fun _ => .pass fun result => ?_
  dsimp only
  split <;> infer_instance

instance enterBlock_grounded {id : Id} : Grounded Γ (enterBlock id) refs := by
  unfold enterBlock
  infer_instance

instance terminate_grounded {i : Instruction} : Grounded Γ (terminate i) refs := by
  unfold terminate
  infer_instance

instance terminateOr_grounded {otherwise : Generator State → Id} {i : SpirvM Instruction}
    [Grounded Γ i refs] :
    Grounded Γ (terminateOr otherwise i) refs := by
  unfold terminateOr
  refine .of_pass get_grounded fun g => ?_
  infer_instance

instance leaveAndReturn_grounded {value : Id} : Grounded Γ (leaveAndReturn value) refs := by
  have : Grounded Γ (do
      match (← getTarget).current with
      | none => return { op := Op.ret }
      | some f =>
        if f.returnType.isVoid then return { op := Op.ret }
        if value ≠ 0 then return { op := Op.returnValue, operands := [value] }
        let undefined ← addConstantOf Op.undef (valueType f.returnType) []
        return { op := Op.returnValue, operands := [undefined] } : SpirvM Instruction) refs := by
    refine .andThen refs fun s => ?_
    split
    · infer_instance
    · next f hf =>
      have hcode : Includes (Γ ∪ refs s) (refs f) := .of_some hf
      have : Includes (Γ ∪ refs s) (refs f.returnType) := ⟨hcode.subset⟩
      have : Grounded (Γ ∪ refs s)
          (addConstantOf Op.undef (valueType f.returnType) []) Id.named :=
        addConstantOf_grounded [] (Opcode.ids_nil _)
      infer_instance
  unfold leaveAndReturn
  infer_instance

instance leaveAndKill_grounded : Grounded Γ leaveAndKill refs := terminateOr_grounded

instance leaveAndSwitch_grounded {selector defaultTarget : Id} :
    Grounded Γ (leaveAndSwitch selector defaultTarget) refs :=
  terminateOr_grounded

instance leaveAndBranch_grounded {target : Id} : Grounded Γ (leaveAndBranch target) refs :=
  terminateOr_grounded

instance leaveAndBranchConditional_grounded {condition trueTarget falseTarget : Id} :
    Grounded Γ (leaveAndBranchConditional condition trueTarget falseTarget) refs :=
  terminateOr_grounded

instance splice_grounded {entered : Id} {code : List Instruction} :
    Grounded Γ (splice entered code) refs := by
  unfold splice
  infer_instance

instance selectionMerge_grounded {hint : ControlHint} : Grounded Γ (selectionMerge hint) refs := by
  unfold selectionMerge
  infer_instance

instance emitIf_grounded {conditionBlock trueBlock falseBlock : Id} {hint : ControlHint} :
    Grounded Γ (emitIf conditionBlock trueBlock falseBlock hint) refs := by
  unfold emitIf
  infer_instance

instance emitPhi_grounded {conditionBlock trueValue trueBlock falseValue falseBlock : Id} {t : Ty}
    [Includes Γ (refs t)] :
    Grounded Γ (emitPhi conditionBlock trueValue trueBlock falseValue falseBlock t) refs := by
  unfold emitPhi
  infer_instance

instance emitLoop_grounded {before header conditionBlock body continueBlock : Id}
    {hint : ControlHint} :
    Grounded Γ (emitLoop before header conditionBlock body continueBlock hint) refs := by
  unfold emitLoop
  infer_instance

instance emitSwitch_grounded {selectorBlock defaultLabel : Id} {cases : List (UInt32 × Id)}
    {hint : ControlHint} :
    Grounded Γ (emitSwitch selectorBlock defaultLabel cases hint) refs := by
  unfold emitSwitch
  refine .of_pass getTarget_grounded fun s => ?_
  split <;> infer_instance

set_option synthInstance.maxSize 65536 in
instance declareParameter_grounded {p : Member} [Includes Γ (refs p)] :
    Grounded Γ (declareParameter p) refs := by
  unfold declareParameter
  infer_instance

set_option synthInstance.maxSize 65536 in
instance startFunction_grounded {location : Location} {decl : FunctionDecl}
    [Includes Γ (refs decl)] :
    Grounded Γ (startFunction location decl) refs := by
  unfold startFunction
  infer_instance

instance leaveFunction_grounded : Grounded Γ leaveFunction refs := by
  unfold leaveFunction
  refine .andThen refs fun g => ?_
  dsimp only
  split
  · infer_instance
  · infer_instance

instance : References Passed := ⟨fun p => refs p.type⟩

namespace Includes

variable {t : Ty} {p : Passed}

instance varyingType [h : Includes Γ (refs t)] :
    Includes Γ (refs (varyingType t)) := ⟨h.subset⟩
instance passedType [h : Includes Γ (refs p)] : Includes Γ (refs p.type) := ⟨h.subset⟩

instance passed {location : Location} {variable_ : Id} {outputs : Option (List Id)}
    [h : Includes Γ (refs t)] :
    Includes Γ (refs (Passed.mk t location variable_ outputs)) := ⟨h.subset⟩

instance varyings {g : Generator State} {semantic : String} [hg : Includes Γ (refs g)]
    [Includes Γ (refs t)] :
    Includes Γ (refs (varyings g t semantic)) := by
  unfold Spirv.varyings
  split
  · next members hmembers =>
    have : Includes Γ (refs members) := .of_some hmembers
    infer_instance
  · infer_instance

end Includes

set_option synthInstance.maxSize 65536 in
instance declareVarying_grounded {stage : Stage} {t : Ty} {semantic : String}
    {storage : StorageClass} [Includes Γ (refs t)] :
    Grounded Γ (declareVarying stage t semantic storage) refs := by
  unfold declareVarying
  refine .pass fun id => .pass fun _ => .of_pass getTarget_grounded fun s => ?_
  extract_lets builtIn
  cases builtIn <;> infer_instance

set_option synthInstance.maxSize 65536 in
instance declareOutputs_grounded {stage : Stage} {t : Ty} {semantic : String}
    [Includes Γ (refs t)] :
    Grounded Γ (declareOutputs stage t semantic) refs := by
  unfold declareOutputs
  infer_instance

set_option synthInstance.maxSize 65536 in
instance readInputs_grounded {stage : Stage} {t : Ty} {semantic : String} [Includes Γ (refs t)] :
    Grounded Γ (readInputs stage t semantic) refs := by
  unfold readInputs
  infer_instance

instance writeOutputs_grounded {t : Ty} {value : Id} {outputs : List Id} :
    Grounded Γ (writeOutputs t value outputs) refs := by
  unfold writeOutputs
  refine .andThen refs fun g => ?_
  split
  · infer_instance
  · next members hmembers =>
    have : Includes (Γ ∪ refs g) (refs members) := .of_some hmembers
    infer_instance

instance passParameter_grounded {stage : Stage} {p : Member} [Includes Γ (refs p)] :
    Grounded Γ (passParameter stage p) refs := by
  unfold passParameter
  infer_instance

instance returnParameter_grounded {p : Passed} [Includes Γ (refs p)] :
    Grounded Γ (returnParameter p) refs := by
  unfold returnParameter
  split <;> infer_instance

instance invertPosition_grounded {position : Id} : Grounded Γ (invertPosition position) refs := by
  unfold invertPosition
  infer_instance

instance addEntryPointRecord_grounded {stage : Stage} {wrapper : Id} {name : String} :
    Grounded Γ (addEntryPointRecord stage wrapper name) refs := by
  unfold addEntryPointRecord
  infer_instance

set_option synthInstance.maxSize 65536 in
instance callAsStage_grounded {fn : FunctionDecl} {isPixelShader : Bool} [Includes Γ (refs fn)] :
    Grounded Γ (callAsStage fn isPixelShader) refs := by
  unfold callAsStage
  infer_instance

instance emitEntryPoint_grounded {fn : FunctionDecl} {isPixelShader : Bool}
    [Includes Γ (refs fn)] :
    Grounded Γ (emitEntryPoint fn isPixelShader) refs := by
  unfold emitEntryPoint
  infer_instance

/-- Goes on behind the record of a location, which has no result. -/
theorem grounded_of_line {α : Type} {P : α → Set Id} {location : Location}
    {f : Option Instruction → SpirvM α} (hnone : Grounded Γ (f none) P)
    (hsome : ∀ operands, Grounded Γ (f (some { op := Op.line, operands })) P) :
    Grounded Γ (lineInstruction location >>= f) P where
  ensures := by
    intro g a g' hrun hΓ hg
    obtain ⟨line, g₁, hline, hrun⟩ := bind_eq_ok.mp hrun
    obtain ⟨hg₁, hmore, -⟩ := lineInstruction_grounded.ensures hline hΓ hg
    have hf : Grounded Γ (f line) P := by
      cases line with
      | none => exact hnone
      | some i =>
        obtain ⟨operands, rfl⟩ := lineInstruction_eq_ok hline i rfl
        exact hsome operands
    obtain ⟨hg', hmore', hP⟩ := hf.ensures hrun (hΓ.trans hmore) hg₁
    exact ⟨hg', hmore.trans hmore', hP⟩

/-- A structure that is recorded is known. -/
instance recordStruct_grounded {d : StructDecl} [h : Includes Γ (refs d)] :
    Grounded Γ (modify fun g => { g with structs := g.structs ++ [d] } : SpirvM PUnit) refs :=
  grounded_of_kept fun {g _ _} hrun => by
    obtain rfl := modify_eq_ok.mp hrun
    have : Includes (Γ ∪ refs g) (refs d) := ⟨h.subset.trans Set.subset_union_left⟩
    exact ⟨rfl, Includes.subset, Set.empty_subset _⟩

instance recordFunction_grounded {d : FunctionDecl} [h : Includes Γ (refs d)] :
    Grounded Γ (modify fun g => { g with functions := g.functions ++ [d] } : SpirvM PUnit) refs :=
  grounded_of_kept fun {g _ _} hrun => by
    obtain rfl := modify_eq_ok.mp hrun
    have : Includes (Γ ∪ refs g) (refs d) := ⟨h.subset.trans Set.subset_union_left⟩
    exact ⟨rfl, Includes.subset, Set.empty_subset _⟩

/-- A structure is defined behind the types of its members. -/
instance defineStruct_grounded {location : Location} {decl : StructDecl}
    [hmembers : Includes Γ (refs decl.members)] :
    Grounded Γ (defineStruct location decl) refs := by
  unfold defineStruct
  refine .of_bind (R := Id.namedAll)
    (.mapM_of (R := refs) (fun m => valueType_grounded) fun m hm => ?_) fun members => ?_
  · exact (refs_subset_of_mem hm).trans hmembers.subset
  · have hrest : Grounded (Γ ∪ Id.namedAll members) (do
        let id ← addType Op.typeStruct members
        addName id decl.uniqueName
        decl.members.zipIdx.forM fun c => addMemberName id (UInt32.ofNat c.2) c.1.name
        let decl := { decl with definition := id }
        modify fun g => { g with structs := g.structs ++ [decl] }
        return decl : SpirvM StructDecl) refs :=
      .of_bind (addType_grounded members rfl) fun id => inferInstance
    -- A record of a location may stand between the members and the structure.
    exact grounded_of_line hrest fun operands =>
      .of_pass (declare_grounded fun h => absurd rfl h) fun _ => hrest

instance defineTexture_grounded {t : Texture} : Grounded Γ (defineTexture t) refs := by
  unfold defineTexture
  infer_instance

instance defineSampler_grounded {location : Location} {s : Sampler} :
    Grounded Γ (defineSampler location s) refs := by
  unfold defineSampler
  infer_instance

set_option synthInstance.maxSize 65536 in
instance defineSpecConstant_grounded {u : Uniform} [Includes Γ (refs u)] :
    Grounded Γ (defineSpecConstant u) refs := by
  have htruth (op : Opcode) : Grounded Γ (addConstant op u.type []) Id.named :=
    addConstant_grounded [] op.ids_nil
  have hnumber (word : UInt32) : Grounded Γ (addConstant Op.specConstant u.type [word]) Id.named :=
    addConstant_grounded [] rfl
  unfold defineSpecConstant
  infer_instance

instance openUniformBlock_grounded : Grounded Γ openUniformBlock refs := by
  unfold openUniformBlock
  infer_instance

/-- The types of the members of the uniform block are defined before it is closed. -/
instance defineUniformMember_grounded {u : Uniform} [Includes Γ (refs u)] :
    Grounded Γ (defineUniformMember u) refs := by
  unfold defineUniformMember
  refine .pass fun _ =>
    .andThen refs fun u => .of_pass getTarget_grounded fun s => .andThen Id.named fun type => ?_
  infer_instance

instance defineUniform_grounded {u : Uniform} [Includes Γ (refs u)] :
    Grounded Γ (defineUniform u) refs := by
  unfold defineUniform
  infer_instance

instance defineVariable_grounded {location : Location} {t : Ty} {name : String}
    {isGlobal : Bool} {init : Id}
    [Includes Γ (refs t)] : Grounded Γ (defineVariable location t name isGlobal init) refs := by
  unfold defineVariable
  infer_instance

instance defineFunction_grounded {location : Location} {decl : FunctionDecl}
    [Includes Γ (refs decl)] :
    Grounded Γ (defineFunction location decl) refs := by
  unfold defineFunction
  infer_instance

/-- What a request refers to is defined in front of it, and what its answer refers to behind it. -/
theorem handle_grounded (q : Request) : Grounded q.uses (q.handle : SpirvM q.Answer) q.gives := by
  cases q with
  | load e => exact loadValue_grounded (Γ := refs e)
  | store e => exact storeValue_grounded (Γ := refs e)
  | constant t => exact forget_grounded (h := constantId_grounded (Γ := refs t))
  | unary _ _ t => exact emitUnary_grounded (Γ := refs t)
  | binary _ _ t u => exact emitBinary_grounded (Γ := refs t ∪ refs u)
  | select _ t => exact emitSelect_grounded (Γ := refs t)
  | call _ _ t args => exact emitCall_grounded (Γ := refs t ∪ refs args)
  | callIntrinsic _ _ t args => exact emitIntrinsic_grounded (Γ := refs t ∪ refs args)
  | construct _ t args => exact emitConstruct_grounded (Γ := refs t ∪ refs args)
  | emitPhi _ _ _ _ _ _ _ t => exact emitPhi_grounded (Γ := refs t)
  | defineStruct _ d => exact defineStruct_grounded (Γ := refs d.members)
  | defineUniform _ u => exact defineUniform_grounded (Γ := refs u)
  | defineVariable _ t => exact defineVariable_grounded (Γ := refs t)
  | defineFunction _ d => exact defineFunction_grounded (Γ := refs d)
  | defineEntryPoint d => exact emitEntryPoint_grounded (Γ := refs d)
  | findStruct => exact .andThen refs fun g => Grounded.pure
  | findFunction => exact .andThen refs fun g => Grounded.pure
  | isInBlock | isInFunction | findTexture =>
    exact .andThen refs fun g => .of_pure (Set.empty_subset _)
  | makeId => exact makeId_grounded
  | setBlock => exact setBlock_grounded
  | enterBlock => exact enterBlock_grounded
  | leaveAndKill => exact leaveAndKill_grounded
  | leaveAndReturn => exact leaveAndReturn_grounded
  | leaveAndSwitch => exact leaveAndSwitch_grounded
  | leaveAndBranch => exact leaveAndBranch_grounded
  | leaveAndBranchConditional => exact leaveAndBranchConditional_grounded
  | emitIf => exact emitIf_grounded
  | emitLoop => exact emitLoop_grounded
  | emitSwitch => exact emitSwitch_grounded
  | defineTexture => exact defineTexture_grounded
  | defineSampler => exact defineSampler_grounded
  | leaveFunction => exact leaveFunction_grounded
  | markRenderTarget => exact markRenderTarget_grounded
  | defineTechnique => exact defineTechnique_grounded

end ShaderEffect.Spirv

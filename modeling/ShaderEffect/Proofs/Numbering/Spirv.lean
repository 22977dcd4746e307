import ShaderEffect.Proofs.Numbering.Instructions
import ShaderEffect.Proofs.Requests.Spirv

namespace ShaderEffect.Spirv

open Generator

variable {α γ : Type} {w : Horizon} {Γ : Prop} {P : α → Prop}

instance setBlock_numbers {id : Id} : Numbers Accrues w Γ Anything (setBlock id : SpirvM Id) where
  course h := by
    simp only [setBlock, bind_eq_ok, get_eq_ok, set_eq_ok, pure_eq_ok] at h
    obtain ⟨_, _, ⟨rfl, rfl⟩, _, _, rfl, -, rfl⟩ := h
    exact .of_target rfl rfl
  result h _ _ hg := by
    simp only [setBlock, bind_eq_ok, get_eq_ok, set_eq_ok, pure_eq_ok] at h
    obtain ⟨_, _, ⟨rfl, rfl⟩, _, _, rfl, -, rfl⟩ := h
    exact ⟨hg.of_eq rfl rfl rfl, trivial⟩

instance add_numbers {i : Instruction} {id : Id} [hi : i.Defines id]
    [hproper : Entails Γ (Proper w i)] :
    Numbers (Spends id) w Γ Anything (add i) := by
  refine numbers_current (f := fun b => { b with body := b.body ++ [i] }) (i := i)
    fun b => List.Perm.subperm ?_
  rw [BasicBlock.flatten, List.append_assoc]
  exact List.perm_middle

instance emit_numbers {op : Opcode} {type : Id} {operands : List UInt32}
    [Entails Γ (w.Made type)] :
    Numbers Accrues w Γ w.Made (emit op type operands) := by
  unfold emit
  exact numbers_new fun id => numbers_before add_numbers fun _ => inferInstance

instance emitExtended_numbers {type : Id} {op : ExtendedOp} {operands : List UInt32}
    [Entails Γ (w.Made type)] :
    Numbers Accrues w Γ w.Made (emitExtended type op operands) := by
  unfold emitExtended
  infer_instance

instance emitStore_numbers {pointer value : Id} :
    Numbers Accrues w Γ Anything (emitStore pointer value) := by
  unfold emitStore
  infer_instance

instance addType_numbers {op : Opcode} {operands : List UInt32} :
    Numbers Accrues w Γ w.Made (addType op operands) := by
  unfold addType
  exact numbers_new fun id => numbers_before modifyTarget_numbers fun _ => inferInstance

theorem lineInstruction_eq_ok {location : Location} {g g' : Generator State}
    {line : Option Instruction} (h : lineInstruction location g = .ok (line, g')) :
    ∀ i ∈ line, ∃ operands, i = { op := Op.line, operands } := by
  simp only [lineInstruction, bind_eq_ok, ite_eq_ok, pure_eq_ok] at h
  obtain ⟨s, _, -, ⟨-, rfl, rfl⟩ | ⟨-, h⟩⟩ := h
  · exact fun _ hi => absurd hi (Option.not_mem_none _)
  · cases hfile : s.sourceFiles.get? location.source with
    | some file =>
      simp only [hfile, bind_eq_ok, pure_eq_ok] at h
      grind
    | none =>
      simp only [hfile, bind_eq_ok, pure_eq_ok] at h
      grind

instance lineInstruction_numbers {location : Location} :
    Numbers Accrues w Γ Anything (lineInstruction location) := by
  unfold lineInstruction
  refine .pass fun s => ?_
  split
  · infer_instance
  · split
    · infer_instance
    · exact numbers_new fun file => numbers_before modifyTarget_numbers fun _ => inferInstance

/-- Goes on behind the record of a location, which has no result. -/
theorem of_line {location : Location} {id : Id} {f : Option Instruction → SpirvM α}
    (hnone : Numbers (Spends id) w Γ P (f none))
    (hsome : ∀ operands, Numbers (Spends id) w Γ P (f (some { op := Op.line, operands }))) :
    Numbers (Spends id) w Γ P (lineInstruction location >>= f) :=
  .compose (fun line => ∀ i ∈ line, ∃ operands, i = { op := Op.line, operands })
    lineInstruction_numbers (fun _ _ _ => lineInstruction_eq_ok) (fun line hline => by
      cases line with
      | none => exact hnone.weaken And.left
      | some i =>
        obtain ⟨operands, rfl⟩ := hline i rfl
        exact (hsome operands).weaken And.left)
    (fun _ _ _ => .later) fun _ _ => Spends.nextId

instance bind_line {location : Location} {id : Id} {f : Option Instruction → SpirvM α}
    [hnone : Numbers (Spends id) w Γ P (f none)]
    [hsome : ∀ operands, Numbers (Spends id) w Γ P (f (some { op := Op.line, operands }))] :
    Numbers (Spends id) w Γ P (lineInstruction location >>= f) :=
  of_line hnone hsome

instance addBlockLocation_numbers {location : Location} :
    Numbers Accrues w Γ Anything (addBlockLocation location) := by
  unfold addBlockLocation
  infer_instance

/-- A function gains an instruction. -/
theorem modifyFunction_numbers {id : Id} {i : Instruction} {f : FunctionCode → FunctionCode}
    (hf : ∀ c, (f c).listed.Perm (i :: c.listed))
    (hreturn : ∀ c, (f c).returnType = c.returnType) [hi : i.Defines id]
    [hproper : Entails Γ (Proper w i)] : Numbers (Spends id) w Γ Anything (modifyFunction f) := by
  have hgains {g g' : Generator State} {u : Unit} (h : modifyFunction f g = .ok (u, g')) :
      ∃ s, g' = { g with target := s } ∧ g.target.Gains i s := by
    obtain ⟨code, hcurrent, rfl⟩ := modifyFunction_eq_ok.mp h
    refine ⟨_, rfl, ?_, ?_⟩
    · have hplaced := hf code
      simp only [List.perm_iff_count, State.placed, hcurrent, Option.map_some, Option.getD_some,
        List.count_append, List.count_cons] at hplaced ⊢
      intro j
      have := hplaced j
      omega
    · simp only [State.kept, hcurrent, Option.map_some, hreturn]
  constructor
  · intro g u g' h
    obtain ⟨s, rfl, hs⟩ := hgains h
    refine .of_le rfl fun b r _ => ?_
    rw [hs.code, hs.taken, hi.result]
    omega
  · intro g u g' h _ hΓ hg
    obtain ⟨s, rfl, hs⟩ := hgains h
    exact ⟨⟨hg.structs, hg.functions, hs.numbered (hproper.entails hΓ) hg.target⟩, trivial⟩

instance addDeclaration_numbers {i : Instruction} {id : Id} [i.Defines id]
    [Entails Γ (Proper w i)] :
    Numbers (Spends id) w Γ Anything (addDeclaration i) := by
  unfold addDeclaration
  refine modifyFunction_numbers (i := i) (fun c => ?_) fun c => rfl
  simp only [FunctionCode.listed, Array.toList_push, List.append_assoc]
  exact List.perm_middle

instance addLocal_numbers {i : Instruction} {id : Id} [i.Defines id] [Entails Γ (Proper w i)] :
    Numbers (Spends id) w Γ Anything
      (modifyFunction fun f => { f with locals := f.locals.push i }) := by
  refine modifyFunction_numbers (i := i) (fun c => ?_) fun c => rfl
  simp only [FunctionCode.listed, Array.toList_push, List.append_assoc, List.singleton_append]
  rw [← List.append_assoc, ← List.append_assoc]
  exact List.perm_middle

instance addName_numbers {id : Id} {name : String} :
    Numbers Accrues w Γ Anything (addName id name) := by
  unfold addName
  infer_instance

instance addMemberName_numbers {id : Id} {index : UInt32} {name : String} :
    Numbers Accrues w Γ Anything (addMemberName id index name) := by
  unfold addMemberName
  infer_instance

instance addAnnotation_numbers {i : Instruction} {id : Id} [i.Defines id]
    [Entails Γ (Proper w i)] :
    Numbers (Spends id) w Γ Anything ( addAnnotation i) := by
  unfold addAnnotation
  infer_instance

instance decorate_numbers {id : Id} {d : Decoration} {values : List UInt32} :
    Numbers Accrues w Γ Anything (decorate id d values) := by
  unfold decorate
  infer_instance

instance decorateMember_numbers {id : Id} {index : UInt32} {d : Decoration} {values : List UInt32} :
    Numbers Accrues w Γ Anything (decorateMember id index d values) := by
  unfold decorateMember
  infer_instance

instance addCapability_numbers {c : Capability} :
    Numbers Accrues w Γ Anything (addCapability c) := by
  unfold addCapability
  infer_instance

instance decorateSemantic_numbers {id : Id} {semantic : String} :
    Numbers Accrues w Γ Anything (decorateSemantic id semantic) := by
  unfold decorateSemantic
  infer_instance

instance enterBlock_numbers {id : Id} : Numbers (Spends id) w Γ Anything (enterBlock id) := by
  unfold enterBlock
  exact numbers_later setBlock_numbers fun _ => inferInstance

instance terminate_numbers {i : Instruction} [i.Defines 0] [Entails Γ (Proper w i)] :
    Numbers Accrues w Γ Anything (terminate i) := by
  have : Numbers Accrues w Γ Anything
      (currentBody >>= fun b => setCurrentBody { b with terminator := some i } : SpirvM Unit) := by
    refine numbers_current (f := fun b => { b with terminator := some i }) (i := i) fun b => ?_
    have hperm : (b.body ++ [i]).Perm (i :: b.body) := List.perm_append_singleton i b.body
    exact hperm.subperm.trans ((List.sublist_append_left b.body _).cons_cons i).subperm
  unfold terminate
  rw [← bind_assoc]
  infer_instance

/-- What a block ends with has no result. -/
theorem terminateOr_numbers {otherwise : Generator State → Id} {i : SpirvM Instruction}
    (hi : Numbers Accrues w Γ Anything i)
    (hend : ∀ g j g', i g = .ok (j, g') → ∃ op operands, j = { op, operands }) :
    Numbers Accrues w Γ Anything (terminateOr otherwise i) := by
  unfold terminateOr
  refine .of_bind .get fun g => ?_
  split
  · infer_instance
  · refine .compose _ (hi.weaken And.left) hend (fun j hj => ?_) (fun _ _ _ => .later)
      fun _ _ => Spends.nextId
    obtain ⟨op, operands, rfl⟩ := hj
    infer_instance

theorem terminateOr_pure_numbers {otherwise : Generator State → Id} {op : Opcode}
    {operands : List UInt32} :
    Numbers Accrues w Γ Anything (terminateOr otherwise (return { op, operands })) :=
  terminateOr_numbers .pure_anything fun _ _ _ h => ⟨op, operands, (pure_eq_ok.mp h).1.symm⟩

instance leaveAndKill_numbers : Numbers Accrues w Γ Anything leaveAndKill :=
  terminateOr_pure_numbers

instance leaveAndSwitch_numbers {selector defaultTarget : Id} :
    Numbers Accrues w Γ Anything (leaveAndSwitch selector defaultTarget) :=
  terminateOr_pure_numbers

instance leaveAndBranch_numbers {target : Id} :
    Numbers Accrues w Γ Anything (leaveAndBranch target) :=
  terminateOr_pure_numbers

instance leaveAndBranchConditional_numbers {condition trueTarget falseTarget : Id} :
    Numbers Accrues w Γ Anything (leaveAndBranchConditional condition trueTarget falseTarget) :=
  terminateOr_pure_numbers

/-- Whether the type that is found at a place, and those behind it, are proper. -/
instance : Judged Place := ⟨fun w p => Proper w p.type ∧ Proper w p.rest⟩

section

variable {p : Place}

instance {pointer : Id} {t : Ty} {storage : StorageClass} {asWords : Bool} {rest : List Access}
    [ht : Entails Γ (Proper w t)] [hrest : Entails Γ (Proper w rest)] :
    Entails Γ (Proper w (Place.mk pointer t storage asWords rest)) :=
  ⟨fun hΓ => ⟨ht.entails hΓ, hrest.entails hΓ⟩⟩

instance [h : Entails Γ (Proper w p)] :
    Entails Γ (Proper w p.type) := ⟨fun hΓ => (h.entails hΓ).1⟩
instance [h : Entails Γ (Proper w p)] :
    Entails Γ (Proper w p.rest) := ⟨fun hΓ => (h.entails hΓ).2⟩

instance {a : Access} [h : Entails Γ (Proper w a)] :
    Entails Γ (Proper w a.target) := ⟨fun hΓ => (h.entails hΓ).2⟩
instance {a : Access} [h : Entails Γ (Proper w a)] :
    Entails Γ (Proper w a.source) := ⟨fun hΓ => (h.entails hΓ).1⟩

end

instance cachedType_numbers {key : TypeKey} {make : SpirvM Id}
    [hmake : Numbers Accrues w Γ w.Made make] :
    Numbers Accrues w Γ w.Made (cachedType key make) := by
  unfold cachedType
  refine .of_bind Numbers.getTarget_holds fun s => ?_
  split
  · next id hid => exact .of_pure fun h => h.2.typeIds key id hid
  · exact .of_bind (hmake.weaken And.left) fun id => inferInstance

instance floatType_numbers : Numbers Accrues w Γ w.Made floatType := by
  unfold floatType
  infer_instance

instance textureType_numbers : Numbers Accrues w Γ w.Made textureType := by
  unfold textureType
  infer_instance

section

variable [w.Typed]

/-- Instructions refer to structures by their ids. -/
instance {t : Ty} [h : Entails Γ (Proper w t)] : Entails Γ (w.Made t.definition) :=
  ⟨fun hΓ => (h.entails hΓ).2 Horizon.Typed.typed⟩

instance baseType_numbers {t : Ty} [Entails Γ (Proper w t)] :
    Numbers Accrues w Γ w.Made (baseType t) := by
  unfold baseType
  cases t.base <;> infer_instance

instance scalarType_numbers {base : Base} [Entails Γ (Proper w base)] :
    Numbers Accrues w Γ w.Made (scalarType base) := by
  unfold scalarType
  infer_instance

instance vectorType_numbers {t : Ty} [Entails Γ (Proper w t)] :
    Numbers Accrues w Γ w.Made (vectorType t) := by
  unfold vectorType
  infer_instance

instance matrixType_numbers {t : Ty} [Entails Γ (Proper w t)] :
    Numbers Accrues w Γ w.Made (matrixType t) := by
  unfold matrixType
  infer_instance

instance elementType_numbers {t : Ty} [Entails Γ (Proper w t)] :
    Numbers Accrues w Γ w.Made (elementType t) := by
  unfold elementType
  infer_instance

instance cachedConstant_numbers {key : ConstantKey} {make : SpirvM Id}
    [hmake : Numbers Accrues w Γ w.Made make] :
    Numbers Accrues w Γ w.Made (cachedConstant key make) := by
  unfold cachedConstant
  refine .of_bind Numbers.getTarget_holds fun s => ?_
  split
  · next id hid => exact .of_pure fun h => h.2.constantIds key id hid
  · exact .of_bind (hmake.weaken And.left) fun id => inferInstance

instance addConstantOf_numbers {op : Opcode} {type : SpirvM Id}
    [htype : Numbers Accrues w Γ w.Made type]
    {operands : List UInt32} : Numbers Accrues w Γ w.Made (addConstantOf op type operands) := by
  unfold addConstantOf
  refine numbers_new fun id => numbers_later (htype.weaken And.left) fun type => ?_
  exact numbers_before modifyTarget_numbers fun _ => inferInstance

instance scalarConstant_numbers {t : Ty} {value : Constant} [Entails Γ (Proper w t)] :
    Numbers Accrues w Γ w.Made (scalarConstant t value) := by
  unfold scalarConstant
  infer_instance

instance wordConstant_numbers {word : UInt32} :
    Numbers Accrues w Γ w.Made (wordConstant word) := by
  unfold wordConstant
  infer_instance

instance valueType_numbers {t : Ty} {stride : UInt32} [Entails Γ (Proper w t)] :
    Numbers Accrues w Γ w.Made (valueType t stride) := by
  unfold valueType
  infer_instance

instance pointerType_numbers {t : Ty} {storage : StorageClass} {stride : UInt32}
    [Entails Γ (Proper w t)] :
    Numbers Accrues w Γ w.Made (pointerType t storage stride) := by
  unfold pointerType
  infer_instance

instance functionType_numbers {result : Ty} {params : List Ty} [Entails Γ (Proper w result)]
    [Entails Γ (Proper w params)] :
    Numbers Accrues w Γ w.Made (functionType result params) := by
  unfold functionType
  refine .andThen w.Made
    fun result => .andThen (Proper w) fun params => .of_bind Numbers.getTarget_holds fun s => ?_
  split
  · next f hf => exact .of_pure fun h => h.2.functionTypes f (List.mem_of_find?_eq_some hf)
  · infer_instance

instance addConstant_numbers {op : Opcode} {t : Ty} {operands : List UInt32}
    [Entails Γ (Proper w t)] :
    Numbers Accrues w Γ w.Made (addConstant op t operands) := by
  unfold addConstant
  infer_instance

instance compositeConstant_numbers {t : Ty} {value : Constant} {row : Constant → SpirvM Id}
    [Entails Γ (Proper w t)] [hrow : ∀ c, Numbers Accrues w Γ w.Made (row c)] :
    Numbers Accrues w Γ w.Made (compositeConstant t value row) :=
  have : Numbers Accrues w Γ w.Made (do
      let rows ← (List.range t.rows.toNat).mapM fun i => row (rowLanes t value i)
      match rows with
      | [id] => return id
      | ids => addConstant Op.constantComposite t ids : SpirvM Id) := by
    refine .of_bind (.mapM_all fun i => hrow (rowLanes t value i)) fun rows => ?_
    split
    · exact .of_pure fun h => h.2 _ List.mem_cons_self
    · infer_instance
  cachedConstant_numbers

instance vectorConstant_numbers {t : Ty} {value : Constant} [Entails Γ (Proper w t)] :
    Numbers Accrues w Γ w.Made (vectorConstant t value) := by
  unfold vectorConstant
  infer_instance

instance elementConstant_numbers {t : Ty} {value : Constant} [Entails Γ (Proper w t)] :
    Numbers Accrues w Γ w.Made (elementConstant t value) := by
  unfold elementConstant
  infer_instance

instance constantId_numbers {t : Ty} {value : Constant} [Entails Γ (Proper w t)] :
    Numbers Accrues w Γ w.Made (constantId t value) := by
  unfold constantId
  infer_instance

instance uniformConstant_numbers {t : Ty} {lane : UInt32} [Entails Γ (Proper w t)] :
    Numbers Accrues w Γ w.Made (uniformConstant t lane) := by
  unfold uniformConstant
  infer_instance

instance constantOf_numbers {t : Ty} {isOne : Bool} [Entails Γ (Proper w t)] :
    Numbers Accrues w Γ w.Made (constantOf t isOne) := by
  unfold constantOf
  infer_instance

instance leaveAndReturn_numbers {value : Id} :
    Numbers Accrues w Γ Anything (leaveAndReturn value) := by
  unfold leaveAndReturn
  refine terminateOr_numbers (.of_bind Numbers.getTarget_holds fun s => ?_) fun g j g' h => ?_
  · cases hcurrent : s.current with
    | none => exact .pure_anything
    | some f =>
      have : Entails (Γ ∧ Tended.Holds w s) (Proper w f.returnType) :=
        ⟨fun h => h.2.returnType f hcurrent⟩
      infer_instance
  · obtain ⟨s, _, -, h⟩ := bind_eq_ok.mp h
    cases hcurrent : s.current with
    | none =>
      rw [hcurrent] at h
      exact ⟨_, _, (pure_eq_ok.mp h).1.symm⟩
    | some f =>
      simp only [hcurrent, ite_eq_ok, bind_eq_ok, pure_eq_ok] at h
      grind

instance declareVariable_numbers {id : Id} {location : Location} {t : Ty} {name : String}
    {storage : StorageClass} {init : Id} [Entails Γ (w.Made id)] [Entails Γ (Proper w t)] :
    Numbers (Spends id) w Γ Anything (declareVariable id location t name storage init) := by
  unfold declareVariable
  extract_lets isLocal addTo declare mark
  have haddTo {Γ' : Prop} {i : Instruction} {id : Id} [i.Defines id] [Entails Γ' (Proper w i)] :
      Numbers (Spends id) w Γ' Anything (addTo i) := by
    dsimp only [addTo]
    split <;> infer_instance
  have hdeclare : Numbers (Spends id) w Γ Anything (declare ()) := by
    refine numbers_later pointerType_numbers fun type => numbers_before haddTo fun _ => ?_
    infer_instance
  have hline (operands : List UInt32) :
      Numbers (Spends id) w Γ Anything (do addTo { op := Op.line, operands }; declare ()) :=
    numbers_later haddTo fun _ => hdeclare.weaken And.left
  have hmark : Numbers (Spends id) w Γ Anything (mark ()) := bind_line
  refine numbers_later Numbers.getTarget fun s => ?_
  split
  · exact numbers_later (Q := Anything) .throw fun _ => hmark.weaken fun h => h.1.1
  · exact hmark.weaken And.left

instance temporary_numbers {location : Location} {t : Ty} [Entails Γ (Proper w t)] :
    Numbers Accrues w Γ w.Made (temporary location t) := by
  unfold temporary
  exact numbers_new fun id => numbers_before declareVariable_numbers fun _ => inferInstance

instance takeIndices_numbers {t : Ty} {chain : List Access} [ht : Entails Γ (Proper w t)]
    [hchain : Entails Γ (Proper w chain)] :
    Numbers Accrues w Γ (fun c => Proper w c.2) (takeIndices t chain) := by
  induction chain generalizing t Γ with
  | nil =>
    unfold takeIndices
    exact .of_pure fun hΓ => ⟨ht.entails hΓ, List.forall_mem_nil _⟩
  | cons a chain ih =>
    have ha : Entails Γ (Proper w a) :=
      ⟨fun hΓ => (List.forall_mem_cons.mp (hchain.entails hΓ)).1⟩
    have hrest : Entails Γ (Proper w chain) :=
      ⟨fun hΓ => (List.forall_mem_cons.mp (hchain.entails hΓ)).2⟩
    have hnext {make : SpirvM Id} (hmake : Numbers Accrues w Γ Anything make) :
        Numbers Accrues w Γ (fun c => Proper w c.2) (do
          let id ← make
          let (ids, t, rest) ← takeIndices a.target chain
          return (id :: ids, t, rest)) :=
      .of_pass hmake fun id => .of_bind ih fun c => .of_pure And.right
    unfold takeIndices
    cases a with
    | dynamicIndex => exact hnext .pure_anything
    | member _ _ i => exact hnext wordConstant_numbers.forget
    | constantIndex _ _ i => exact hnext wordConstant_numbers.forget
    | cast => exact .of_pure fun hΓ => ⟨ht.entails hΓ, hchain.entails hΓ⟩
    | swizzle => exact .of_pure fun hΓ => ⟨ht.entails hΓ, hchain.entails hΓ⟩

instance resolvePlace_numbers {e : Expression} [he : Entails Γ (Proper w e)] :
    Numbers Accrues w Γ (Proper w) (resolvePlace e) := by
  unfold resolvePlace
  refine .pass fun s => ?_
  extract_lets root member storage asWords base rest
  have hrest (first : List Id) : Numbers Accrues w Γ (Proper w) (rest first) := by
    dsimp only [rest]
    cases hchain : e.chain with
    | nil =>
      have : Entails Γ (Proper w root) := by
        dsimp only [root]
        rw [hchain]
        exact (inferInstance : Entails Γ (Proper w e.type))
      exact .of_bind takeIndices_numbers fun c => inferInstance
    | cons a chain =>
      have ha : Entails Γ (Proper w (a :: chain)) :=
        ⟨fun hΓ => hchain ▸ (he.entails hΓ).2.2⟩
      have : Entails Γ (Proper w a) :=
        ⟨fun hΓ => (List.forall_mem_cons.mp (ha.entails hΓ)).1⟩
      have : Entails Γ (Proper w chain) :=
        ⟨fun hΓ => (List.forall_mem_cons.mp (ha.entails hΓ)).2⟩
      have : Entails Γ (Proper w root) := by
        dsimp only [root]
        rw [hchain]
        exact (inferInstance : Entails Γ (Proper w a.source))
      exact .of_bind takeIndices_numbers fun c => inferInstance
  cases hmember : member with
  | some i =>
    exact .of_pass wordConstant_numbers.forget fun _ => .of_pass .pure_anything fun _ => hrest _
  | none => exact .of_pass .pure_anything fun _ => hrest _

instance extractLane_numbers {source : Ty} {value lane : UInt32} [Entails Γ (Proper w source)] :
    Numbers Accrues w Γ w.Made (extractLane source value lane) := by
  unfold extractLane
  infer_instance

instance emitSwizzle_numbers {source target : Ty} {lanes : List Int} {value : Id}
    [Entails Γ (Proper w source)] [Entails Γ (Proper w target)] :
    Numbers Accrues w Γ w.Made (emitSwizzle source target lanes value) := by
  unfold emitSwizzle
  infer_instance

instance truncateMatrix_numbers {source target : Ty} {value : Id} [Entails Γ (Proper w target)] :
    Numbers Accrues w Γ (Proper w) (truncateMatrix source target value) := by
  unfold truncateMatrix
  refine .andThen w.Made fun scalar => .andThen w.Made fun row => .andThen (Proper w) fun rows => ?_
  split
  · exact .of_pure fun h => h.2 _ List.mem_cons_self
  · infer_instance

instance emitCast_numbers {source target : Ty} {value : Id} [Entails Γ (Proper w source)]
    [Entails Γ (Proper w target)] [Entails Γ (Proper w value)] :
    Numbers Accrues w Γ (Proper w) (emitCast source target value) := by
  unfold emitCast
  cases target.base <;> infer_instance

instance applyAccess_numbers {location : Location} {value : Id} {a : Access}
    [Entails Γ (Proper w value)] [ha : Entails Γ (Proper w a)] :
    Numbers Accrues w Γ (Proper w) (applyAccess location value a) := by
  have hsource : Entails Γ (Proper w a.source) := inferInstance
  have htarget : Entails Γ (Proper w a.target) := inferInstance
  cases a <;> unfold applyAccess <;> dsimp only [Access.source, Access.target] at hsource htarget
    <;> infer_instance

set_option synthInstance.maxSize 65536 in
instance loadPlace_numbers {p : Place} [Entails Γ (Proper w p)] :
    Numbers Accrues w Γ (Proper w) (loadPlace p) := by
  unfold loadPlace
  infer_instance

set_option synthInstance.maxSize 65536 in
instance loadValue_numbers {e : Expression} [Entails Γ (Proper w e)] :
    Numbers Accrues w Γ (Proper w) (loadValue e) := by
  unfold loadValue
  infer_instance

instance mergeLanes_numbers {pointer : Id} {t target : Ty} {lanes : List Int} {value : Id}
    [Entails Γ (Proper w t)] :
    Numbers Accrues w Γ w.Made (mergeLanes pointer t target lanes value) := by
  unfold mergeLanes
  refine .andThen w.Made fun type => .andThen w.Made fun base => ?_
  split
  · infer_instance
  · refine .andThen w.Made fun scalar => ?_
    refine .foldlM_of (Q := Anything) (fun result k => ?_) (fun _ _ _ => trivial) fun h => h.1.2
    infer_instance

instance storeValue_numbers {e : Expression} {value : Id} [Entails Γ (Proper w e)] :
    Numbers Accrues w Γ Anything (storeValue e value) := by
  unfold storeValue
  refine .pass fun _ => .andThen (Proper w) fun p => ?_
  dsimp only
  split
  · exact .of_pass mergeLanes_numbers.forget fun _ => inferInstance
  · infer_instance

instance emitUnary_numbers {location : Location} {op : UnaryOp} {t : Ty} {value : Id}
    [Entails Γ (Proper w t)] :
    Numbers Accrues w Γ w.Made (emitUnary location op t value) := by
  unfold emitUnary
  infer_instance

instance emitBinary_numbers {location : Location} {op : BinaryOp} {result operands : Ty}
    {left right : Id} [Entails Γ (Proper w result)] :
    Numbers Accrues w Γ w.Made (emitBinary location op result operands left right) := by
  unfold emitBinary
  infer_instance

instance emitSelect_numbers {location : Location} {t : Ty} {condition yes no : Id}
    [Entails Γ (Proper w t)] :
    Numbers Accrues w Γ w.Made (emitSelect location t condition yes no) := by
  unfold emitSelect
  infer_instance

instance emitCall_numbers {location : Location} {function : Id} {result : Ty}
    {args : List Expression} [Entails Γ (Proper w result)] :
    Numbers Accrues w Γ w.Made (emitCall location function result args) := by
  unfold emitCall
  infer_instance

instance emitConstruct_numbers {location : Location} {t : Ty} {args : List Expression}
    [Entails Γ (Proper w t)] :
    Numbers Accrues w Γ (Proper w) (emitConstruct location t args) := by
  unfold emitConstruct
  refine .pass fun _ => ?_
  dsimp only
  split
  · infer_instance
  · refine .andThen w.Made fun row => .andThen (Proper w) fun rows => ?_
    split
    · exact .of_pure fun h => h.2 _ List.mem_cons_self
    · infer_instance

instance offsetOperands_numbers {arg : Expression} {mask : ImageOperands} :
    Numbers Accrues w Γ Anything (offsetOperands arg mask) := by
  unfold offsetOperands
  infer_instance

instance loadImage_numbers {sampler : Expression} [Entails Γ (Proper w sampler)] :
    Numbers Accrues w Γ w.Made (loadImage sampler) := by
  unfold loadImage
  infer_instance

instance sampleLevel_numbers {result : Id} {sampler coordinates : Expression}
    {offset : Option Expression} [Entails Γ (w.Made result)] [Entails Γ (Proper w sampler)] :
    Numbers Accrues w Γ w.Made (sampleLevel result sampler coordinates offset) := by
  unfold sampleLevel
  cases offset <;> infer_instance

instance gatherChannel_numbers {result : Id} {channel : Fin 4} {args : List Expression}
    [Entails Γ (w.Made result)] [hargs : Entails Γ (Proper w args)] :
    Numbers Accrues w Γ w.Made (gatherChannel result channel args) := by
  unfold gatherChannel
  split
  · have : Entails Γ (Proper w _) :=
      ⟨fun hΓ => (List.forall_mem_cons.mp (hargs.entails hΓ)).1⟩
    refine .andThen (Proper w) fun image => .andThen (Proper w) fun channel => ?_
    split <;> infer_instance
  · infer_instance

instance splitExponent_numbers {location : Location} {result : Id} {t : Ty} {value target : Id}
    [Entails Γ (w.Made result)] :
    Numbers Accrues w Γ w.Made (splitExponent location result t value target) := by
  unfold splitExponent
  infer_instance

instance emitComposed_numbers {location : Location} {i : Intrinsic} {t : Ty} {result : Id}
    {args : List Expression} [Entails Γ (w.Made result)] [Entails Γ (Proper w t)]
    [hargs : Entails Γ (Proper w args)] :
    Numbers Accrues w Γ (Proper w) (emitComposed location i t result args) := by
  have hfirst {first : Expression} {rest : List Expression} (h : args = first :: rest) :
      Entails Γ (Proper w first) :=
    ⟨fun hΓ => (List.forall_mem_cons.mp (h ▸ hargs.entails hΓ)).1⟩
  unfold emitComposed
  dsimp only
  split <;> first | infer_instance | exact have := hfirst rfl; inferInstance

instance emitIntrinsic_numbers {location : Location} {i : Intrinsic} {t : Ty}
    {args : List Expression} [Entails Γ (Proper w t)] [Entails Γ (Proper w args)] :
    Numbers Accrues w Γ (Proper w) (emitIntrinsic location i t args) := by
  unfold emitIntrinsic
  refine .pass fun _ => .andThen w.Made fun result => ?_
  dsimp only
  split <;> infer_instance

end

end ShaderEffect.Spirv

import ShaderEffect.Proofs.Failures.Operands
import ShaderEffect.Proofs.Numbering.Spirv

namespace ShaderEffect

/-- Whether a request begins a block, or moves code that was there to another place. -/
abbrev Request.movesCode : Request → Bool
  | enterBlock _ | emitIf .. | emitPhi .. | emitLoop .. | emitSwitch .. | leaveFunction
    | defineEntryPoint .. => true
  | _ => false

namespace Spirv

open Generator

variable {w : Horizon} {Γ : Prop}

/-- The current block is made of other instructions and of what it holds. -/
theorem setCurrentBody_numbers {code : List Instruction} {f : BasicBlock → BasicBlock}
    (hf : ∀ b, (f b).flatten ⊆ code ++ b.flatten) [hcode : Entails Γ (Proper w code)] :
    Numbers Onward w Γ Anything (currentBody >>= fun b => setCurrentBody (f b)) where
  course {g _ _} h := by
    obtain ⟨b, g₁, hbody, h⟩ := bind_eq_ok.mp h
    obtain ⟨rfl, blocks, rfl, -⟩ := setCurrentBody_eq_ok hbody h
    exact Nat.le_refl _
  result {g _ _} h _ hΓ hg := by
    obtain ⟨b, g₁, hbody, h⟩ := bind_eq_ok.mp h
    obtain ⟨rfl, blocks, rfl, hblocks⟩ := setCurrentBody_eq_ok hbody h
    refine ⟨⟨hg.structs, hg.functions, { hg.target with code := fun b => ?_ }⟩, trivial⟩
    have hold := hg.target.code b
    rw [State.code_eq_flatten] at hold ⊢
    rw [hblocks]
    split
    · next hb =>
      subst hb
      exact fun i hi => List.forall_mem_append.mpr ⟨hcode.entails hΓ, hold⟩ i (hf _ hi)
    · exact hold

theorem modifyTarget_onward {f : State → State} (hf : Γ → ∀ s :
    State, s.Numbered w → (f s).Numbered w) :
    Numbers Onward w Γ Anything (modifyTarget f : SpirvM Unit) where
  course h := by
    obtain rfl := modify_eq_ok.mp h
    exact Nat.le_refl _
  result h _ hΓ hg := by
    obtain rfl := modify_eq_ok.mp h
    exact ⟨⟨hg.structs, hg.functions, hf hΓ _ hg.target⟩, trivial⟩

section

variable {s : State} {id : Id} {merge : Instruction}

instance [h : Entails Γ (Tended.Holds w s)] : Entails Γ (Proper w (s.code id)) :=
  ⟨fun hΓ => (h.entails hΓ).code id⟩

instance {labels : List Id} [h : Entails Γ (Tended.Holds w s)] :
    Entails Γ (Proper w (labels.flatMap s.code)) where
  entails hΓ i hi := by
    obtain ⟨label, -, hi⟩ := List.mem_flatMap.mp hi
    exact (h.entails hΓ).code label i hi

theorem State.structured_subset (s : State) (id : Id) (merge : Instruction) :
    s.structured id merge ⊆ merge :: s.code id := by
  unfold structured code
  cases s.blocks.get? id with
  | none => exact List.nil_subset _
  | some b =>
    intro i hi
    simp only [BasicBlock.flatten, Option.map_some, Option.getD_some, List.mem_cons,
      List.mem_append] at hi ⊢
    exact or_left_comm.mp hi

instance [h : Entails Γ (Tended.Holds w s)] [hmerge : Entails Γ (Proper w merge)] :
    Entails Γ (Proper w (s.structured id merge)) :=
  ⟨fun hΓ i hi => List.forall_mem_cons.mpr ⟨hmerge.entails hΓ, (h.entails hΓ).code id⟩ i
    (s.structured_subset id merge hi)⟩

end

instance splice_numbers {entered : Id} {code : List Instruction} [Entails Γ (Proper w code)] :
    Numbers Onward w Γ Anything (splice entered code) := by
  have hput : Numbers Onward w Γ Anything
      (currentBody >>= fun b => setCurrentBody { b with body := code ++ b.body } : SpirvM Unit) :=
    setCurrentBody_numbers fun b => by
      rw [BasicBlock.flatten, BasicBlock.flatten, List.append_assoc]
      exact List.Subset.refl (code ++ _)
  unfold splice
  rw [← bind_assoc]
  infer_instance

instance selectionMerge_numbers {hint : ControlHint} :
    Numbers Onward w Γ (Proper w) (selectionMerge hint) := by
  unfold selectionMerge
  infer_instance

instance emitIf_numbers {conditionBlock trueBlock falseBlock : Id} {hint : ControlHint} :
    Numbers Onward w Γ Anything (emitIf conditionBlock trueBlock falseBlock hint) := by
  unfold emitIf
  exact .andThen (Proper w) fun merge => .of_bind Numbers.getTarget_holds fun s => splice_numbers

instance emitLoop_numbers {before header conditionBlock body continueBlock : Id}
    {hint : ControlHint} :
    Numbers Onward w Γ Anything
      (emitLoop before header conditionBlock body continueBlock hint) := by
  unfold emitLoop
  exact .of_bind Numbers.get fun g => .of_bind Numbers.getTarget_holds fun s => splice_numbers

instance emitPhi_numbers {conditionBlock trueValue trueBlock falseValue falseBlock : Id} {t : Ty}
    [w.Typed] [Entails Γ (Proper w t)] :
    Numbers Onward w Γ w.Made
      (emitPhi conditionBlock trueValue trueBlock falseValue falseBlock t) := by
  unfold emitPhi
  refine .andThen (Proper w) fun merge => .of_bind Numbers.getTarget_holds fun s => ?_
  exact .of_pass splice_numbers fun _ => .andThen w.Made fun type => inferInstance

/-- A block that is kept may lose its end to another. -/
theorem setBlock_numbered {s : State} (hs : s.Numbered w) {id : Id} {b : BasicBlock}
    (hb : Proper w b.flatten) :
    State.Numbered w { s with blocks := s.blocks.set id b } where
  placed := hs.placed
  code c := by
    rw [State.code, Table.get?_set]
    split
    · exact hb
    · exact hs.code c
  extendedSet := hs.extendedSet
  uniformType := hs.uniformType
  uniformVariable := hs.uniformVariable
  typeIds := hs.typeIds
  constantIds := hs.constantIds
  functionTypes := hs.functionTypes
  returnType := hs.returnType

instance emitSwitch_numbers {selectorBlock defaultLabel : Id} {cases : List (UInt32 × Id)}
    {hint : ControlHint} :
    Numbers Onward w Γ Anything (emitSwitch selectorBlock defaultLabel cases hint) := by
  unfold emitSwitch
  refine .of_bind Numbers.getTarget_holds fun s => ?_
  split
  · next body t hblock =>
    have hcode : (Γ ∧ Tended.Holds w s) → Proper w (body ++ [t]) := fun h => by
      have hcode := h.2.code selectorBlock
      rwa [State.code, hblock] at hcode
    refine @Numbers.ite _ _ _ _ _ _ _ _ _ _ _ ?_ .pure_anything
    dsimp only
    refine .of_pass (modifyTarget_onward fun h s hs => setBlock_numbered hs ?_) fun _ => ?_
    · obtain ⟨hbody, ht⟩ := List.forall_mem_append.mp (hcode h)
      have htype : Proper w t := List.forall_mem_singleton.mp ht
      exact List.forall_mem_append.mpr ⟨hbody, List.forall_mem_singleton.mpr htype⟩
    · refine .andThen (Proper w) fun merge =>
        .of_bind Numbers.getTarget_holds fun s => .of_bind .get fun g => ?_
      exact splice_numbers
  · infer_instance

/-- The state once the code of a block is that of the function being generated. -/
def State.collect (s : State) (last : Id) : State :=
  match s.current with
  | none => s
  | some f =>
    let definition := s.code last ++ [{ op := Op.functionEnd }]
    let starts := definition.head?.any (·.op == Op.label)
    { s with
      functions := if starts then s.functions.push { f with definition } else s.functions
      current := none
      blocks := []
      spliced := [] }

theorem leaveFunction_eq_ok {g g' : Generator State} {u : Unit}
    (h : leaveFunction g = .ok (u, g')) :
    g' = { g with target := g.target.collect g.lastBlock } := by
  simp only [leaveFunction, modifyTarget, bind_eq_ok, get_eq_ok] at h
  obtain ⟨_, _, ⟨rfl, rfl⟩, h⟩ := h
  rw [State.collect]
  cases hcurrent : g.target.current with
  | none =>
    rw [hcurrent] at h
    exact (pure_eq_ok.mp h).2.symm
  | some f =>
    rw [hcurrent] at h
    exact (modify_eq_ok.mp h).symm

/-- No instruction finds more than one place. -/
theorem State.collect_placed (s : State) (last : Id) :
    (s.collect last).placed.Subperm ({ op := Op.functionEnd } :: (s.placed ++ s.code last)) := by
  have hrest {l : List Instruction} (h : l.Subperm s.placed) :
      l.Subperm ({ op := Op.functionEnd } :: (s.placed ++ s.code last)) :=
    h.trans (((List.sublist_append_left _ _).cons _).subperm)
  rw [collect]
  cases hcurrent : s.current with
  | none => exact hrest (List.Subperm.refl _)
  | some f =>
    dsimp only
    split
    · have hfewer : List.Sublist ({ op := Op.functionEnd }
          :: (s.entryPoints.toList ++ s.executionModes.toList ++ s.debugStrings.toList
            ++ s.debugNames.toList ++ s.annotations.toList ++ s.types.toList ++ s.globals.toList
            ++ s.functions.toList.flatMap FunctionCode.listed
            ++ (f.declaration.toList ++ f.locals.toList) ++ s.code last))
          ({ op := Op.functionEnd } :: (s.placed ++ s.code last)) := by
        simp only [placed, hcurrent, Option.map_some, Option.getD_some, FunctionCode.listed]
        refine List.Sublist.cons_cons _
          (List.Sublist.append_right (List.Sublist.append_left ?_ _) _)
        exact List.sublist_append_left _ _
      refine (List.Perm.subperm ?_).trans hfewer.subperm
      simp only [List.perm_iff_count, placed, Array.toList_push, List.flatMap_append,
        List.flatMap_singleton, FunctionCode.listed, Option.map_none, Option.getD_none,
        List.count_append, List.count_cons, List.count_nil]
      intro i
      omega
    · refine hrest (List.Sublist.subperm ?_)
      simp only [placed, hcurrent, Option.map_none, Option.getD_none]
      exact List.Sublist.append_left (List.nil_sublist _) _

theorem State.Numbered.collect {s : State} (hs : s.Numbered w) (last : Id) :
    (s.collect last).Numbered w := by
  have hplaced : Proper w (s.collect last).placed := by
    intro i hi
    rcases List.mem_cons.mp ((s.collect_placed last).subset hi) with rfl | hi
    · exact Horizon.made_zero
    · exact List.forall_mem_append.mpr ⟨hs.placed, hs.code last⟩ i hi
  revert hplaced
  rw [State.collect]
  cases hcurrent : s.current with
  | none => exact fun _ => hs
  | some f =>
    exact fun hplaced =>
      { hs with placed := hplaced, code := fun _ => List.forall_mem_nil _, returnType := nofun }

instance leaveFunction_numbers : Numbers Onward w Γ Anything leaveFunction where
  course h := leaveFunction_eq_ok h ▸ Nat.le_refl _
  result h _ _ hg := by
    obtain rfl := leaveFunction_eq_ok h
    exact ⟨⟨hg.structs, hg.functions, State.Numbered.collect hg.target _⟩, trivial⟩

theorem members_proper {g : Generator State} (hg : g.Tidy w) {t : Ty} {members : List Member}
    (h : g.members? t = some members) : Proper w members := by
  unfold members? at h
  split_ifs at h
  obtain ⟨d, hd, rfl⟩ := Option.map_eq_some_iff.mp h
  exact (hg.findStruct _ hd).2

theorem varyings_proper {g : Generator State} (hg : g.Tidy w) {t : Ty} (ht : Proper w t)
    {semantic : String} :
    ∀ c ∈ varyings g t semantic, Proper w c.1 := by
  unfold varyings
  split
  · next members hmembers =>
      exact List.forall_mem_map.mpr fun m hm => members_proper hg hmembers m hm
  · exact List.forall_mem_singleton.mpr ht

section

variable [w.Typed]

theorem declareParameter_numbers {p : Member} : Numbers Accrues w (Γ ∧ Proper w p)
    (fun p' => w.Made p'.definition ∧ Proper w p') (declareParameter p) := by
  unfold declareParameter
  have hrest {Γ' : Prop} (hp : Γ' → Proper w p) :
      Numbers Accrues w Γ' (fun p' => w.Made p'.definition ∧ Proper w p') (do
      let id ← makeId
      let type ← pointerType p.type .functionMemory
      addDeclaration { op := Op.functionParameter, type, result := id }
      addName id p.name
      if p.type.isSampler then
        modifyTarget fun s => { s with storage := s.storage.set id StorageClass.uniformConstant }
      return { p with definition := id }) := by
    have : Entails Γ' (Proper w p) := ⟨hp⟩
    refine numbers_new fun id => numbers_later pointerType_numbers fun type => ?_
    refine numbers_before addDeclaration_numbers fun _ => .pass fun _ => ?_
    have hgive : Numbers Accrues w (((Γ' ∧ w.Made id) ∧ w.Made type) ∧ Anything ())
        (fun p' => w.Made p'.definition ∧ Proper w p')
        (pure { p with definition := id } : SpirvM Member) :=
      .of_pure fun h => ⟨h.1.1.2, hp h.1.1.1⟩
    exact .either (.pass fun _ => hgive) hgive
  exact of_line (hrest And.right) fun operands =>
    numbers_later addDeclaration_numbers fun _ => hrest fun h => h.1.2

/-- What a function that is started is made of. -/
def FunctionDecl.Started (w : Horizon) (d : FunctionDecl) : Prop :=
  Proper w d ∧ w.Made d.definition ∧ ∀ p ∈ d.parameters, w.Made p.definition

/-- A function and its parameters have ids of their own, and types as they were given. -/
theorem startFunction_numbers {location : Location} {decl : FunctionDecl}
    (h : Γ → Proper w decl) :
    Numbers Accrues w Γ (FunctionDecl.Started w) (startFunction location decl) := by
  unfold startFunction
  have hrest {Γ' : Prop} (hΓ' : Γ' → Γ) : Numbers Accrues w Γ' (FunctionDecl.Started w) (do
      let id ← makeId
      let result ← valueType decl.returnType
      let type ← functionType decl.returnType (decl.parameters.map (·.type))
      addDeclaration { op := Op.function, type := result, result := id, operands := [0, type] }
      addName id (if decl.uniqueName ≠ "" then decl.uniqueName else decl.name)
      let parameters ← decl.parameters.mapM declareParameter
      return { decl with definition := id, parameters }) := by
    have : Entails Γ' (Proper w decl) := ⟨fun hΓ => h (hΓ' hΓ)⟩
    have : Entails Γ' (Proper w (decl.parameters.map (·.type))) :=
      ⟨fun hΓ => List.forall_mem_map.mpr (h (hΓ' hΓ)).2⟩
    refine numbers_new fun id => numbers_later valueType_numbers fun result => ?_
    refine numbers_later functionType_numbers
      fun type => numbers_before addDeclaration_numbers fun _ => .pass fun _ => ?_
    refine .of_bind (.mapM_of (fun p => declareParameter_numbers)
      fun hΓ => (h (hΓ' hΓ.1.1.1.1)).2) fun ps => ?_
    refine .of_pure fun hΓ =>
      ⟨⟨(h (hΓ' hΓ.1.1.1.1.1)).1, fun p hp => (hΓ.2 p hp).2⟩, hΓ.1.1.1.1.2, ?_⟩
    exact fun p hp => (hΓ.2 p hp).1
  have : Entails Γ (Proper w decl) := ⟨h⟩
  refine .of_pass modifyTarget_numbers fun _ => of_line (hrest id) fun operands => ?_
  exact numbers_later addDeclaration_numbers fun _ => hrest And.left

instance : Judged Stage := ⟨fun w s => Proper w s.position⟩
instance : Judged Passed := ⟨fun w p => Proper w p.type⟩

instance {t : Ty} [h : Entails Γ (Proper w t)] :
    Entails Γ (Proper w (varyingType t)) := ⟨h.entails⟩
instance {p : Passed} [h : Entails Γ (Proper w p)] :
    Entails Γ (Proper w p.type) := ⟨h.entails⟩
instance {s : Stage} [h : Entails Γ (Proper w s)] :
    Entails Γ (Proper w s.position) := ⟨h.entails⟩

instance declareVarying_numbers {stage : Stage} {t : Ty} {semantic : String}
    {storage : StorageClass} [hstage : Entails Γ (Proper w stage)] [Entails Γ (Proper w t)] :
    Numbers Accrues w Γ (Proper w) (declareVarying stage t semantic storage) := by
  unfold declareVarying
  refine numbers_new fun id => numbers_before declareVariable_numbers fun _ => .pass fun s => ?_
  extract_lets builtIn isPosition give flat centroid noperspective
  have hgive : Numbers Accrues w ((Γ ∧ w.Made id) ∧ Anything ()) (Proper w) (give ()) := by
    refine .of_pure fun h => ⟨.inl h.1.2, ?_⟩
    change Proper w (if isPosition = true then id else stage.position)
    split
    · exact .inl h.1.2
    · exact hstage.entails h.1.1
  have hflat : Numbers Accrues w ((Γ ∧ w.Made id) ∧ Anything ()) (Proper w) (flat ()) :=
    .either (.pass fun _ => hgive) hgive
  have hcentroid :
      Numbers Accrues w ((Γ ∧ w.Made id) ∧ Anything ()) (Proper w) (centroid ()) :=
    .either (.pass fun _ => hflat) hflat
  have hrest :
      Numbers Accrues w ((Γ ∧ w.Made id) ∧ Anything ()) (Proper w) (noperspective ()) :=
    .either (.pass fun _ => hcentroid) hcentroid
  clear_value noperspective
  cases builtIn
  · exact .pass fun _ => .pass fun _ => .pass fun _ => hrest
  · exact .pass fun _ => hrest

instance declareOutputs_numbers {stage : Stage} {t : Ty} {semantic : String}
    [hstage : Entails Γ (Proper w stage)] [ht : Entails Γ (Proper w t)] :
    Numbers Accrues w Γ (fun c => Proper w c.2) (declareOutputs stage t semantic) := by
  unfold declareOutputs
  refine .of_bind .get fun g => .foldlM_of (Q := fun c => Proper w c.1) (fun c part => ?_)
    (fun h => varyings_proper h.2 (ht.entails h.1)) fun h => hstage.entails h.1
  obtain ⟨ids, stage⟩ := c
  obtain ⟨part, semantic⟩ := part
  have : Entails ((Γ ∧ g.Tidy w) ∧ Proper w stage ∧ Proper w part) (Proper w stage) :=
    ⟨fun h => h.2.1⟩
  have : Entails ((Γ ∧ g.Tidy w) ∧ Proper w stage ∧ Proper w part) (Proper w part) :=
    ⟨fun h => h.2.2⟩
  exact .of_bind declareVarying_numbers fun ⟨id, stage⟩ => .of_pure fun h => h.2.2

instance readInputs_numbers {stage : Stage} {t : Ty} {semantic : String}
    [hstage : Entails Γ (Proper w stage)] [ht : Entails Γ (Proper w t)] :
    Numbers Accrues w Γ (fun c => Proper w c.2) (readInputs stage t semantic) := by
  unfold readInputs
  refine .of_bind .get fun g₀ => .of_bind .get fun g => ?_
  refine .of_bind (Q := fun c => Proper w c.2)
    (.foldlM_of (Q := fun c => Proper w c.1) (fun c part => ?_)
    (fun h => varyings_proper h.2 (ht.entails h.1.1)) fun h => hstage.entails h.1.1) fun c => ?_
  · obtain ⟨ids, stage⟩ := c
    obtain ⟨part, semantic⟩ := part
    have : Entails (((Γ ∧ g₀.Tidy w) ∧ g.Tidy w) ∧ Proper w stage ∧ Proper w part)
        (Proper w stage) :=
      ⟨fun h => h.2.1⟩
    have : Entails (((Γ ∧ g₀.Tidy w) ∧ g.Tidy w) ∧ Proper w stage ∧ Proper w part)
        (Proper w part) :=
      ⟨fun h => h.2.2⟩
    refine .of_bind declareVarying_numbers fun ⟨input, stage⟩ =>
      .of_bind valueType_numbers fun type => ?_
    exact .of_bind emit_numbers fun _ => .of_pure fun h => h.1.1.2.2
  · obtain ⟨values, stage⟩ := c
    have hvalue :
        Numbers Accrues w (((Γ ∧ g₀.Tidy w) ∧ g.Tidy w) ∧ Proper w stage)
          (fun c => Proper w c.2) (do
        return (← emit Op.compositeConstruct (← valueType t.plain) values, stage) :
            SpirvM (Id × Stage)) :=
      .of_bind valueType_numbers
        fun type => .of_bind emit_numbers fun _ => .of_pure fun h => h.1.1.2
    exact .either hvalue (.of_pure And.right)

instance writeOutputs_numbers {t : Ty} {value : Id} {outputs : List Id} [Entails Γ (Proper w t)] :
    Numbers Accrues w Γ Anything (writeOutputs t value outputs) := by
  unfold writeOutputs
  refine .of_bind .get fun g => ?_
  split
  · infer_instance
  · next members hmembers =>
    refine .forM_of (Q := fun c => Proper w c.1.1) (fun c => ?_) fun h c hc => ?_
    · obtain ⟨⟨m, output⟩, k⟩ := c
      have : Entails ((Γ ∧ g.Tidy w) ∧ Proper w m) (Proper w m) := .here
      infer_instance
    · exact members_proper h.2 hmembers _ (List.of_mem_zip (List.fst_mem_of_mem_zipIdx hc)).1

instance passParameter_numbers {stage : Stage} {p : Member} [hstage : Entails Γ (Proper w stage)]
    [hp : Entails Γ (Proper w p)] : Numbers Accrues w Γ (Proper w) (passParameter stage p) := by
  unfold passParameter
  refine .of_bind temporary_numbers fun id => .either ?_ ?_
  · exact .of_bind declareOutputs_numbers fun ⟨outputs, stage⟩ =>
      .of_pure fun h => ⟨hp.entails h.1.1, h.2⟩
  · refine .of_bind readInputs_numbers fun ⟨value, stage⟩ =>
      .of_pass emitStore_numbers fun _ => ?_
    exact .of_pure fun h => ⟨hp.entails h.1.1, h.2⟩

instance returnParameter_numbers {p : Passed} [Entails Γ (Proper w p)] :
    Numbers Accrues w Γ Anything (returnParameter p) := by
  unfold returnParameter
  split <;> infer_instance

instance invertPosition_numbers {position : Id} [Entails Γ (Proper w position)] :
    Numbers Accrues w Γ Anything (invertPosition position) := by
  unfold invertPosition
  refine .andThen (Proper w) fun e => .andThen (Proper w) fun y => .andThen w.Made fun negated => ?_
  infer_instance

instance addEntryPointRecord_numbers {stage : Stage} {wrapper : Id} {name : String} :
    Numbers Accrues w Γ Anything (addEntryPointRecord stage wrapper name) := by
  unfold addEntryPointRecord
  extract_lets model bare record mode
  have hbare : Proper w bare ∧ bare.result = 0 := ⟨Horizon.made_zero, rfl⟩
  have hrecord : Proper w record ∧ record.result = 0 := hbare
  clear_value record
  have : record.Defines 0 := ⟨hrecord.2⟩
  have : Entails Γ (Proper w record) := ⟨fun _ => hrecord.1⟩
  have hmode (m : ExecutionMode) :
      Settles 0 w Γ fun s => { s with executionModes := s.executionModes.push (mode m) } :=
    .executionModes
  refine @modifyTarget_numbers _ _ _ _ ?_
  cases stage.isPixelShader with
  | false => exact .entryPoints
  | true =>
    cases stage.writesDepth with
    | false => exact Settles.entryPoints.after (hmode .originUpperLeft)
    | true =>
      exact (Settles.entryPoints.after (hmode .originUpperLeft)).after (hmode .depthReplacing)

instance callAsStage_numbers {fn : FunctionDecl} {isPixelShader : Bool}
    [hfn : Entails Γ (Proper w fn)] :
    Numbers Accrues w Γ Anything (callAsStage fn isPixelShader) := by
  unfold callAsStage
  refine .of_bind (Q := fun c : List Passed × Stage => Proper w c.1 ∧ Proper w c.2)
    (.foldlM_of (Q := Proper w) (fun c p => ?_) (fun h => (hfn.entails h).2)
      fun h => ⟨List.forall_mem_nil _, .inl Horizon.made_zero⟩) fun c => ?_
  · obtain ⟨done, stage⟩ := c
    have : Entails (Γ ∧ (Proper w done ∧ Proper w stage) ∧ Proper w p) (Proper w stage) :=
      ⟨fun h => h.2.1.2⟩
    have : Entails (Γ ∧ (Proper w done ∧ Proper w stage) ∧ Proper w p) (Proper w p) :=
      ⟨fun h => h.2.2⟩
    refine .of_bind passParameter_numbers fun ⟨passed, stage⟩ =>
      .of_pure fun h => ⟨?_, h.2.2⟩
    exact List.forall_mem_append.mpr ⟨h.1.2.1.1, List.forall_mem_singleton.mpr h.2.1⟩
  · obtain ⟨passed, stage⟩ := c
    have : Entails (Γ ∧ Proper w passed ∧ Proper w stage) (Proper w stage) :=
      ⟨fun h => h.2.2⟩
    dsimp only
    have hinvert {Γ' : Prop} {stage : Stage} :
        Numbers Accrues w (Γ' ∧ Proper w stage) Anything (do
        if (← getTarget).options.invertY && !isPixelShader && stage.position ≠ 0 then
          invertPosition stage.position
        return stage : SpirvM Stage) :=
      .pass fun s => .either inferInstance .pure_anything
    refine .andThen w.Made fun result => ?_
    refine .of_pass (.forM_of (Q := Proper w) (fun p => returnParameter_numbers) fun h => h.1.2.1)
      fun _ => ?_
    refine .either ?_ ?_
    · exact .of_bind (Numbers.pure (a := stage)) fun stage => hinvert
    · refine .of_bind declareOutputs_numbers fun c => .of_pass writeOutputs_numbers fun _ => ?_
      have : Entails (((Γ ∧ Proper w passed ∧ Proper w stage) ∧ w.Made result)
          ∧ Proper w c.2) (Proper w c.2) := .here
      exact .of_bind (Numbers.pure (a := c.2)) fun stage => hinvert

instance emitEntryPoint_numbers {fn : FunctionDecl} {isPixelShader : Bool}
    [Entails Γ (Proper w fn)] :
    Numbers Onward w Γ Anything (emitEntryPoint fn isPixelShader) := by
  unfold emitEntryPoint
  have hstart :
      Numbers Onward w Γ (FunctionDecl.Started w)
        (startFunction {} { returnType := { base := .void } }) :=
    numbers_onward (startFunction_numbers fun _ =>
      ⟨⟨Base.noConfusion, fun _ => Horizon.made_zero⟩, List.forall_mem_nil _⟩)
  refine .pass fun isNew => .either .pure_anything ?_
  refine .of_pass hstart.forget fun wrapper =>
    .andThen w.Made fun id => .of_pass (numbers_onward enterBlock_numbers) fun _ => ?_
  exact .pass fun stage => .pass fun _ => .pass fun _ => inferInstance

/-- A structure has an id of its own, and members as they were given. -/
theorem defineStruct_numbers {location : Location} {decl : StructDecl}
    (h : Γ → Proper w decl.members) :
    Numbers Accrues w Γ (fun d => w.Made d.definition) (defineStruct location decl) := by
  unfold defineStruct
  have hrest {Γ' : Prop} (hΓ' : Γ' → Γ) (members : List Id) :
      Numbers Accrues w Γ' (fun d => w.Made d.definition) (do
      let id ← addType Op.typeStruct members
      addName id decl.uniqueName
      decl.members.zipIdx.forM fun c => addMemberName id (UInt32.ofNat c.2) c.1.name
      let decl := { decl with definition := id }
      modify fun g => { g with structs := g.structs ++ [decl] }
      return decl) := by
    refine .andThen w.Made fun id => .pass fun _ => .pass fun _ => ?_
    exact .recordStruct (fun hΓ => ⟨fun _ => hΓ.2, h (hΓ' hΓ.1)⟩) And.right
  refine .of_pass (.forget (.mapM_of (P := w.Made) (fun m => valueType_numbers) h))
    fun members => ?_
  exact of_line (hrest id members) fun operands =>
    .of_pass modifyTarget_numbers fun _ => hrest id members

omit [w.Typed] in
theorem defineTexture_numbers {t : Texture} :
    Numbers Accrues w Γ (fun t => w.Made t.id) (defineTexture t) := by
  unfold defineTexture
  exact .andThen w.Made fun id => .pass fun _ => .of_pure And.right

theorem defineTexture_yields {t : Texture} : Yields Texture.IsRecorded (defineTexture t) := by
  unfold defineTexture
  have {t : Texture} : Yields Texture.IsRecorded (modifyResult
      (fun m => { m with textures := m.textures ++ [t] }) >>= fun _ => pure t : SpirvM Texture) :=
    .texture fun _ => rfl
  infer_instance

theorem defineSampler_numbers {location : Location} {s : Sampler} :
    Numbers Accrues w Γ (fun s => w.Made s.id) (defineSampler location s) := by
  unfold defineSampler
  refine numbers_new fun id => numbers_later .get fun g => numbers_later .modifyResult fun _ => ?_
  refine numbers_before declareVariable_numbers
    fun _ => .pass fun _ => .pass fun _ => .pass fun _ => ?_
  exact .of_pure fun h => h.1.1.1.2

set_option synthInstance.maxSize 65536 in
instance defineSpecConstant_numbers {u : Uniform} [Entails Γ (Proper w u.type)] :
    Numbers Accrues w Γ w.Made (defineSpecConstant u) := by
  unfold defineSpecConstant
  infer_instance

omit [w.Typed] in
/-- The ids of the uniform block are taken where they were just handed out. -/
theorem numbers_openUniformBlock {f : Id → Id → SpirvM Unit} (hf : ∀ type variable_,
    Numbers Accrues w Γ Anything (f type variable_)) : Numbers Accrues w Γ Anything (do
      let type ← makeId
      let variable_ ← makeId
      modifyTarget fun s => { s with uniformType := type, uniformVariable := variable_ }
      f type variable_) := by
  have hopens {g g' : Generator State} {u : Unit} (h : (do
      let type ← makeId
      let variable_ ← makeId
      modifyTarget fun s => { s with uniformType := type, uniformVariable := variable_ }
      f type variable_ : SpirvM Unit) g = .ok (u, g')) :
      f (UInt32.ofNat g.nextId) (UInt32.ofNat (g.nextId + 1))
        { g with
          nextId := g.nextId + 2
          target :=
            { g.target with
              uniformType := UInt32.ofNat g.nextId,
              uniformVariable := UInt32.ofNat (g.nextId + 1) } } = .ok (u, g') := h
  -- Both ids were made here, which pays for the two places where the state now names them.
  constructor
  · intro g u g' h
    refine Spends.later ⟨Nat.le_add_right _ 2, fun hcount b r hr => ?_⟩
      ((hf _ _).course (hopens h))
    have hcount : g.nextId + 2 ≤ 2 ^ 32 := hcount
    have hfirst := handed_succ (n := g.nextId) (by omega) r
    have hsecond := handed_succ (n := g.nextId + 1) (by omega) r
    have hall := handed_add (Nat.le_succ g.nextId) (Nat.le_succ (g.nextId + 1)) r
    rw [if_neg (Ne.symm hr), Nat.add_zero]
    let s : State :=
      { g.target with uniformType := UInt32.ofNat g.nextId,
                      uniformVariable := UInt32.ofNat (g.nextId + 1) }
    have hplaced : s.placed = g.target.placed := rfl
    have hcode : s.code b = g.target.code b := rfl
    have hids : [s.extendedSet, s.uniformType, s.uniformVariable]
        = [g.target.extendedSet, UInt32.ofNat g.nextId, UInt32.ofNat (g.nextId + 1)] := rfl
    change s.taken r + results (s.code b) r ≤ g.target.taken r + _
      + handed g.nextId (g.nextId + 1 + 1) r
    rw [State.taken, State.taken, hplaced, hcode, hids]
    simp only [List.count_cons, List.count_nil, beq_iff_eq, Nat.succ_eq_add_one,
      Nat.add_assoc] at hall hsecond ⊢
    omega
  · intro g u g' h hcount hΓ hg
    have hnext := ((hf _ _).course (hopens h)).nextId
    have hmade {n : Nat} (hn : n < g.nextId + 2) : w.Made (UInt32.ofNat n) :=
      Horizon.made_ofNat (Nat.lt_of_lt_of_le hn (Nat.le_trans hnext hcount))
    refine (hf _ _).result (hopens h) hcount hΓ ⟨hg.structs, hg.functions, ?_⟩
    exact { hg.target with uniformType := hmade (by omega), uniformVariable := hmade (by omega) }

instance openUniformBlock_numbers : Numbers Accrues w Γ Anything openUniformBlock := by
  unfold openUniformBlock
  have hopen := numbers_openUniformBlock (w := w) (Γ := Γ) (f := fun type variable_ => do
    decorate type .block []
    decorate variable_ .descriptorSet [0]
    decorate variable_ .binding [0]) fun _ _ => inferInstance
  exact .pass fun s => .either hopen .pure_anything

set_option synthInstance.maxSize 65536 in
instance defineUniformMember_numbers {u : Uniform} [hu : Entails Γ (Proper w u.type)] :
    Numbers Accrues w Γ w.Made (defineUniformMember u) := by
  unfold defineUniformMember
  refine .pass fun _ => .of_bind .placeUniform_type fun placed => ?_
  have : Entails (Γ ∧ placed.type = u.type) (Proper w placed.type) :=
    ⟨fun h => h.2 ▸ hu.entails h.1⟩
  have : Entails (Γ ∧ placed.type = u.type)
      (Proper w (if placed.type.isBoolean then { placed.type with base := .uint }
        else placed.type)) := inferInstance
  infer_instance

instance defineUniform_numbers {u : Uniform} [Entails Γ (Proper w u.type)] :
    Numbers Accrues w Γ w.Made (defineUniform u) := by
  unfold defineUniform
  infer_instance

instance defineVariable_numbers {location : Location} {t : Ty} {name : String} {isGlobal : Bool}
    {init : Id} [Entails Γ (Proper w t)] :
    Numbers Accrues w Γ w.Made (defineVariable location t name isGlobal init) := by
  unfold defineVariable
  exact numbers_new fun id => numbers_before declareVariable_numbers fun _ => .pure_made

/-- A function and its parameters have ids of their own, and types as they were given. -/
theorem defineFunction_numbers {location : Location} {decl : FunctionDecl}
    (h : Γ → Proper w decl) :
    Numbers Accrues w Γ (FunctionDecl.Started w) (defineFunction location decl) := by
  unfold defineFunction
  exact .of_bind (startFunction_numbers h) fun d => .recordFunction (fun hΓ => hΓ.2.1) And.right

instance defineFunction_yields {location : Location} {decl : FunctionDecl} :
    Yields FunctionDecl.IsRecorded (defineFunction location decl) := by
  unfold defineFunction
  infer_instance

/-- What is asked for is done with new ids, behind the code of the current block. -/
theorem handle_accrues (q : Request) (hq : q.movesCode = false) :
    Numbers Accrues w (q.Fits w) (q.Gives w) (q.handle : GenM State q.Answer) := by
  -- Each request runs one of the parts above. Those that move code are left out by `hq`.
  cases q with
  | load e => exact loadValue_numbers (Γ := Proper w e)
  | store e => exact storeValue_numbers (Γ := Proper w e)
  | constant t => exact (constantId_numbers (Γ := Proper w t)).mono fun _ _ h => .inl h
  | unary _ _ t => exact (emitUnary_numbers (Γ := Proper w t)).mono fun _ _ h => .inl h
  | binary _ _ t u =>
    exact (emitBinary_numbers (Γ := Proper w t ∧ Proper w u)).mono fun _ _ h => .inl h
  | select _ t => exact (emitSelect_numbers (Γ := Proper w t)).mono fun _ _ h => .inl h
  | call _ _ t args =>
    exact (emitCall_numbers (Γ := Proper w t ∧ Proper w args)).mono fun _ _ h => .inl h
  | callIntrinsic _ _ t args => exact emitIntrinsic_numbers (Γ := Proper w t ∧ Proper w args)
  | construct _ t args => exact emitConstruct_numbers (Γ := Proper w t ∧ Proper w args)
  | defineUniform _ u =>
    exact (defineUniform_numbers (Γ := Proper w u.type)).mono fun _ _ h => .inl h
  | defineVariable _ t => exact (defineVariable_numbers (Γ := Proper w t)).mono fun _ _ h => .inl h
  | defineStruct => exact defineStruct_numbers id
  | defineTexture => exact defineTexture_numbers
  | defineSampler => exact defineSampler_numbers
  | defineFunction => exact defineFunction_numbers id
  | findStruct => exact .of_bind .get fun g => .of_pure fun h => h.2.findStruct
  | findFunction => exact .of_bind .get fun g => .of_pure fun h htyped => h.2.findFunction htyped
  | isInBlock | isInFunction | findTexture => exact .of_bind .get fun g => .of_pure fun _ => trivial
  | makeId => exact Numbers.makeId.forget
  | setBlock => exact setBlock_numbers
  | leaveAndKill => exact leaveAndKill_numbers
  | leaveAndReturn => exact leaveAndReturn_numbers
  | leaveAndSwitch => exact leaveAndSwitch_numbers
  | leaveAndBranch => exact leaveAndBranch_numbers
  | leaveAndBranchConditional => exact leaveAndBranchConditional_numbers
  | markRenderTarget id =>
    exact (inferInstance : Numbers Accrues w True Anything (modifyResult fun m =>
      { m with textures :=
                 m.textures.map fun t =>
                   if t.id = id then { t with renderTarget := true } else t }))
  | defineTechnique t =>
    exact (inferInstance : Numbers Accrues w True Anything
      (modifyResult fun m => { m with techniques := m.techniques ++ [t] }))
  | _ => cases hq

/-- Whatever is asked for, ids are handed out or were given. -/
theorem handle_numbers (q : Request) :
    Numbers Onward w (q.Fits w) (q.Gives w) (q.handle : GenM State q.Answer) := by
  cases hq : q.movesCode with
  | false => exact numbers_onward (handle_accrues q hq)
  | true =>
    cases q with
    | enterBlock => exact numbers_onward enterBlock_numbers
    | emitIf => exact emitIf_numbers
    | emitPhi _ _ _ _ _ _ _ t => exact (emitPhi_numbers (Γ := Proper w t)).mono fun _ _ h => .inl h
    | emitLoop => exact emitLoop_numbers
    | emitSwitch => exact emitSwitch_numbers
    | leaveFunction => exact leaveFunction_numbers
    | defineEntryPoint d =>
      exact (emitEntryPoint_numbers (Γ := Proper w d)).weaken fun h => h Horizon.Typed.typed
    | _ => cases hq

theorem handle_yields (q : Request) :
    Yields (fun a g' => q.Records g' a) (q.handle : GenM State q.Answer) := by
  cases q with
  | defineTexture => exact defineTexture_yields
  | defineFunction => exact defineFunction_yields
  | _ => exact ⟨fun _ => trivial⟩

instance : Backend.Numbering w State :=
  .of_numbers w Onward Backend.Answering.grows handle_numbers handle_yields

end

end Spirv
end ShaderEffect

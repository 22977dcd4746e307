import ShaderEffect.Proofs.Numbering.Spirv
import ShaderEffect.Proofs.References.Rules
import ShaderEffect.Proofs.Table

/-!
The ids that instructions cite, and the order of the types.

An instruction of the section of types may only cite what stands in front of it. What a state keeps
of types and constants for later, and what was told about structures, is in the section already, so
that a part of the generator that cites nothing else leaves the section in order.
-/
namespace ShaderEffect

/-- The ids of a list. -/
def Id.namedAll (ids : List Id) : Set Id :=
  {i | ∃ id ∈ ids, i ∈ Id.named id}

theorem named_subset_namedAll {id : Id} {ids : List Id} (h : id ∈ ids) :
    Id.named id ⊆ Id.namedAll ids :=
  fun _ hi => ⟨id, h, hi⟩

theorem namedAll_cons {id : Id} {ids : List Id} :
    Id.namedAll (id :: ids) = Id.named id ∪ Id.namedAll ids := by
  ext i
  simp only [Id.namedAll, Set.mem_ofPred_eq, Set.mem_union, List.mem_cons, exists_eq_or_imp]

theorem namedAll_append {ids more : List Id} :
    Id.namedAll (ids ++ more) = Id.namedAll ids ∪ Id.namedAll more := by
  ext i
  simp only [Id.namedAll, Set.mem_ofPred_eq, Set.mem_union, List.mem_append,
    or_and_right, exists_or]

namespace Includes

variable {Γ : Set Id} {id : Id} {ids : List Id}

instance namedNil :
    Includes Γ (Id.namedAll []) := ⟨fun _ ⟨_, hid, _⟩ => absurd hid List.not_mem_nil⟩

instance namedCons [hid : Includes Γ (Id.named id)] [hids : Includes Γ (Id.namedAll ids)] :
    Includes Γ (Id.namedAll (id :: ids)) :=
  ⟨namedAll_cons.subset.trans (Set.union_subset hid.subset hids.subset)⟩

end Includes

/-- The ids that a table has for its keys. -/
def Table.named {κ : Type} [BEq κ] (t : Table κ Id) : Set Id :=
  {i | ∃ key, ∃ id ∈ t.get? key, i ∈ Id.named id}

theorem Table.named_subset {κ : Type} [BEq κ] {t : Table κ Id} {key : κ} {id : Id}
    (h : t.get? key = some id) :
    Id.named id ⊆ t.named :=
  fun _ hi => ⟨key, id, h, hi⟩

theorem Table.named_set {κ : Type} [BEq κ] [LawfulBEq κ] (t : Table κ Id) (key : κ) (id : Id) :
    (t.set key id).named ⊆ Id.named id ∪ t.named := by
  rintro i ⟨k, c, hc, hi⟩
  rw [Table.get?_set] at hc
  split at hc
  · exact .inl (Option.some.inj hc ▸ hi)
  · exact .inr ⟨k, c, hc, hi⟩

namespace Spirv

open Generator

variable {α : Type}

/-- The ids behind the numbers of cases. -/
def caseIds : List UInt32 → List Id
  | _ :: target :: rest => target :: caseIds rest
  | _ => []

/-- The ids among the operands behind the leading ones. -/
def OperandTail.ids (t : OperandTail) (ops : List UInt32) : List Id :=
  match t with
  | refs => ops
  | cases => caseIds ops
  | image => ops.drop 1
  | literals | decoration | ignored => []

/-- The ids among operands with the given arrangement. -/
def operandIds (tail : OperandTail) : List Operand → List UInt32 → List Id
  | [], ops => tail.ids ops
  | .ref :: more, ops => ops.take 1 ++ operandIds tail more (ops.drop 1)
  | .text :: more, ops => operandIds tail more (ops.drop (readText ops).2)
  | _ :: more, ops => operandIds tail more (ops.drop 1)

/-- The ids among the operands of an operation. -/
def Opcode.ids (op : Opcode) (ops : List UInt32) : List Id :=
  match op.info? with
  | none => ops
  | some i => operandIds i.tail i.operands ops

/-- The ids that an instruction cites: its type, and those among its operands. -/
def Instruction.cites (i : Instruction) : List Id :=
  i.type :: i.op.ids i.operands

/-- Whether the ids that an instruction cites are results of instructions in front of it. 0 stands
for no id, and a record of a location cites its file, which is in a section of its own. -/
def DefinedBeforeUse (l : List Instruction) : Prop :=
  ∀ before i after, l = before ++ i :: after → i.op ≠ Op.line →
    ∀ id ∈ i.cites, id ≠ 0 → ∃ j ∈ before, j.result = id

@[simp] theorem operandIds_nil (tail : OperandTail) (operands : List Operand) :
    operandIds tail operands [] = [] := by
  induction operands with
  | nil => cases tail <;> rfl
  | cons o more ih =>
    cases o <;> simpa only [operandIds, List.drop_nil, List.take_nil, List.nil_append] using ih

/-- No operands, no ids. -/
theorem Opcode.ids_nil (op : Opcode) : op.ids [] = [] := by
  unfold Opcode.ids
  split
  · rfl
  · exact operandIds_nil ..

namespace DefinedBeforeUse

variable {l : List Instruction} {i : Instruction}

theorem nil : DefinedBeforeUse [] := by
  intro before i after h
  exact absurd h.symm (List.append_ne_nil_of_right_ne_nil before (List.cons_ne_nil i after))

theorem snoc (h : DefinedBeforeUse l)
    (hi : i.op ≠ Op.line → ∀ id ∈ i.cites, id ≠ 0 → ∃ j ∈ l, j.result = id) :
    DefinedBeforeUse (l ++ [i]) := by
  intro before j after heq
  -- The instruction is the last one, or stands in front of it and was in order before.
  obtain rfl | ⟨rest, last, rfl⟩ := List.eq_nil_or_concat after
  · obtain ⟨rfl, hlast⟩ := List.append_inj' heq rfl
    exact List.cons.inj hlast |>.1 ▸ hi
  · rw [List.concat_eq_append, ← List.cons_append, ← List.append_assoc] at heq
    exact h before j rest (List.append_inj' heq rfl).1

end DefinedBeforeUse

/-- The results of the section of types. -/
def State.declared (s : State) : Set Id :=
  {id | ∃ i ∈ s.types.toList, i.result = id}

instance : References FunctionType := ⟨fun f => Id.named f.id⟩
instance : References FunctionCode := ⟨fun f => refs f.returnType⟩

instance : References State :=
  ⟨fun s => s.typeIds.named ∪ s.constantIds.named ∪ refs s.functionTypes
    ∪ Id.namedAll s.uniformMembers.toList
    ∪ refs s.current⟩

theorem State.typeIds_subset (s : State) : s.typeIds.named ⊆ refs s :=
  fun _ hi => .inl (.inl (.inl (.inl hi)))

theorem State.constantIds_subset (s : State) : s.constantIds.named ⊆ refs s :=
  fun _ hi => .inl (.inl (.inl (.inr hi)))

theorem State.functionTypes_subset (s : State) : refs s.functionTypes ⊆ refs s :=
  fun _ hi => .inl (.inl (.inr hi))

theorem State.uniformMembers_subset (s : State) : Id.namedAll s.uniformMembers.toList ⊆ refs s :=
  fun _ hi => .inl (.inr hi)

instance : References (Generator State) :=
  ⟨fun g => refs g.structs ∪ refs g.functions ∪ refs g.target⟩

/-- Whether the types are in order, and everything that is known is among them. -/
structure InOrder (g : Generator State) : Prop where
  types : DefinedBeforeUse g.target.types.toList
  known : refs g ⊆ g.target.declared

/-- The known ids of a generator of the binary format are those of its types,
which stay in order. -/
instance : Traced SpirvM where
  Ensures Γ x P := ∀ {g a g'}, x g = .ok (a, g') → Γ ⊆ g.target.declared → InOrder g →
    InOrder g' ∧ g.target.declared ⊆ g'.target.declared ∧ P a ⊆ g'.target.declared
  of_pure h := by
    intro g a g' hrun hΓ hg
    obtain ⟨rfl, rfl⟩ := pure_eq_ok.mp hrun
    exact ⟨hg, Set.Subset.rfl, h.trans hΓ⟩
  of_throw := by
    intro α Γ P e g a g' hrun
    exact (throw_eq_ok.mp hrun).elim
  of_bind hx hf := by
    intro g a g' hrun hΓ hg
    obtain ⟨c, g₁, hc, hrun⟩ := bind_eq_ok.mp hrun
    -- The section only grows, so that what was known in front of the first part is known behind it.
    obtain ⟨hg₁, hmore, hR⟩ := hx hc hΓ hg
    obtain ⟨hg', hmore', hP⟩ := hf c hrun (Set.union_subset (hΓ.trans hmore) hR) hg₁
    exact ⟨hg', hmore.trans hmore', hP⟩
  mono hx hΓ hQ := by
    intro g a g' hrun hΔ hg
    obtain ⟨hg', hmore, hP⟩ := hx hrun (hΓ.trans hΔ) hg
    exact ⟨hg', hmore, (hQ a).trans (Set.union_subset (hΔ.trans hmore) hP)⟩

namespace Includes

variable {Γ : Set Id} {g : Generator State} {s : State}

instance structs [h : Includes Γ (refs g)] : Includes Γ (refs g.structs) :=
  ⟨(Set.subset_union_left.trans Set.subset_union_left).trans h.subset⟩

instance functions [h : Includes Γ (refs g)] : Includes Γ (refs g.functions) :=
  ⟨(Set.subset_union_right.trans Set.subset_union_left).trans h.subset⟩

instance target [h : Includes Γ (refs g)] :
    Includes Γ (refs g.target) := ⟨Set.subset_union_right.trans h.subset⟩

instance generator {result : Module} {structs : List StructDecl} {functions : List FunctionDecl}
    {nextId : Nat} {lastBlock currentBlock : Id} [hstructs : Includes Γ (refs structs)]
    [hfunctions : Includes Γ (refs functions)] [htarget : Includes Γ (refs s)] :
    Includes Γ (refs (Generator.mk result structs functions nextId lastBlock currentBlock s)) :=
  ⟨Set.union_subset (Set.union_subset hstructs.subset hfunctions.subset) htarget.subset⟩

instance current [h : Includes Γ (refs s)] :
    Includes Γ (refs s.current) := ⟨Set.subset_union_right.trans h.subset⟩

instance code {t : Ty} {declaration locals : Array Instruction} {definition : List Instruction}
    [h : Includes Γ (refs t)] :
    Includes Γ (refs (FunctionCode.mk t declaration locals definition)) := ⟨h.subset⟩

theorem find [References α] {l : List α} {p : α → Bool} [h : Includes Γ (refs l)] :
    Includes Γ (refs (l.find? p)) where
  subset := by
    rintro i ⟨a, ha, hi⟩
    exact h.subset ⟨a, List.mem_of_find?_eq_some ha, hi⟩

instance findStruct {id : Id} [Includes Γ (refs g)] : Includes Γ (refs (g.findStruct? id)) := find
instance findFunction {id : Id} [Includes Γ (refs g)] :
    Includes Γ (refs (g.findFunction? id)) := find

instance members {t : Ty} [Includes Γ (refs g)] : Includes Γ (refs (g.members? t)) := by
  unfold members?
  infer_instance

end Includes

variable {Γ : Set Id} {P : α → Set Id}

/-- A part that leaves the types as they are, and tells nothing but what is known. -/
theorem grounded_of_kept {x : SpirvM α} (h : ∀ {g a g'}, x g = .ok (a, g') →
    g'.target.types = g.target.types ∧ refs g' ⊆ Γ ∪ refs g ∧ P a ⊆ Γ ∪ refs g) :
    Grounded Γ x P where
  ensures := by
    intro g a g' hrun hΓ hg
    obtain ⟨htypes, hrefs, hP⟩ := h hrun
    have hdeclared : g'.target.declared = g.target.declared := by
      rw [State.declared, htypes, State.declared]
    have hknown := Set.union_subset hΓ hg.known
    exact ⟨⟨htypes ▸ hg.types, hdeclared ▸ hrefs.trans hknown⟩, hdeclared.symm.subset,
      hdeclared ▸ hP.trans hknown⟩

/-- Whether a change keeps the types and what is known of them. -/
class Keeps (Γ : Set Id) (f : State → State) : Prop where
  types : ∀ s, (f s).types = s.types
  refs : ∀ s, refs (f s) ⊆ Γ ∪ refs s

/-- What is known after each part of a state has changed to something that is known. -/
theorem State.refs_subset {s s' : State} (htypes : s'.typeIds.named ⊆ Γ ∪ s.typeIds.named)
    (hconstants : s'.constantIds.named ⊆ Γ ∪ s.constantIds.named)
    (hfunctions : refs s'.functionTypes ⊆ Γ ∪ refs s.functionTypes)
    (hmembers : Id.namedAll s'.uniformMembers.toList ⊆ Γ ∪ Id.namedAll s.uniformMembers.toList)
    (hcurrent : refs s'.current ⊆ Γ ∪ refs s.current) : refs s' ⊆ Γ ∪ refs s := by
  rintro i ((((hi | hi) | hi) | hi) | hi)
  · exact (htypes hi).imp id fun hi => s.typeIds_subset hi
  · exact (hconstants hi).imp id fun hi => s.constantIds_subset hi
  · exact (hfunctions hi).imp id fun hi => s.functionTypes_subset hi
  · exact (hmembers hi).imp id fun hi => s.uniformMembers_subset hi
  · exact (hcurrent hi).imp id .inr

namespace Keeps

instance ite {c : State → Prop} [∀ s, Decidable (c s)] {f h : State → State} [hf : Keeps Γ f]
    [hh : Keeps Γ h] :
    Keeps Γ fun s => if c s then f s else h s where
  types s := by split <;> [exact hf.types s; exact hh.types s]
  refs s := by split <;> [exact hf.refs s; exact hh.refs s]

/-- What tells nothing about types may change. -/
instance rest {options : State → Options} {capabilities : State → List Capability}
    {extensions : State → List String}
    {entryPoints executionModes debugStrings debugNames annotations globals : State →
      Array Instruction} {extendedSet uniformType uniformVariable : State → Id}
    {memberOf : State → Table Id UInt32} {specConstants : State → List Id}
    {storage : State → Table Id StorageClass} {sourceFiles : State → Table String Id}
    {locations : State → Interface.Locations} {functions : State → Array FunctionCode}
    {blocks : State → Table Id BasicBlock} {spliced : State → Table Id Id} :
    Keeps Γ fun s : State =>
      { s with
        options := options s
        capabilities := capabilities s
        extensions := extensions s
        entryPoints := entryPoints s
        executionModes := executionModes s
        debugStrings := debugStrings s
        debugNames := debugNames s
        annotations := annotations s
        globals := globals s
        extendedSet := extendedSet s
        uniformType := uniformType s
        uniformVariable := uniformVariable s
        memberOf := memberOf s
        specConstants := specConstants s
        storage := storage s
        sourceFiles := sourceFiles s
        locations := locations s
        functions := functions s
        blocks := blocks s
        spliced := spliced s } :=
  ⟨fun _ => rfl, fun _ => Set.subset_union_right⟩

/-- One function may follow another. -/
instance current {functions : State → Array FunctionCode} {blocks : State → Table Id BasicBlock}
    {spliced : State → Table Id Id} {code : Option FunctionCode}
    [h : Includes Γ (ShaderEffect.refs code)] :
    Keeps Γ fun s =>
      { s with
        functions := functions s, current := code, blocks := blocks s, spliced := spliced s } where
  types _ := rfl
  refs _ := State.refs_subset Set.subset_union_right Set.subset_union_right Set.subset_union_right
    Set.subset_union_right (h.subset.trans Set.subset_union_left)

instance typeIds {key : TypeKey} {id : Id} [h : Includes Γ (Id.named id)] :
    Keeps Γ fun s => { s with typeIds := s.typeIds.set key id } where
  types _ := rfl
  refs _ := State.refs_subset ((Table.named_set ..).trans (Set.union_subset_union_left _ h.subset))
    Set.subset_union_right Set.subset_union_right Set.subset_union_right Set.subset_union_right

instance constantIds {key : ConstantKey} {id : Id} [h : Includes Γ (Id.named id)] :
    Keeps Γ fun s => { s with constantIds := s.constantIds.set key id } where
  types _ := rfl
  refs _ := State.refs_subset Set.subset_union_right
    ((Table.named_set ..).trans (Set.union_subset_union_left _ h.subset)) Set.subset_union_right
    Set.subset_union_right Set.subset_union_right

instance functionTypes {result id : Id} {params : List Id} [h : Includes Γ (Id.named id)] :
    Keeps Γ fun s =>
      { s with functionTypes := s.functionTypes ++ [⟨result, params, id⟩] } where
  types _ := rfl
  refs s := by
    have : Includes Γ (ShaderEffect.refs (FunctionType.mk result params id)) := ⟨h.subset⟩
    have hnew : Includes Γ (ShaderEffect.refs [FunctionType.mk result params id]) := inferInstance
    refine State.refs_subset Set.subset_union_right Set.subset_union_right ?_ Set.subset_union_right
      Set.subset_union_right
    rw [refs_append, Set.union_comm]
    exact Set.union_subset_union_left _ hnew.subset

instance uniformMembers {id : Id} [h : Includes Γ (Id.named id)] :
    Keeps Γ fun s => { s with uniformMembers := s.uniformMembers.push id } where
  types _ := rfl
  refs s := by
    refine State.refs_subset Set.subset_union_right Set.subset_union_right Set.subset_union_right ?_
      Set.subset_union_right
    rw [Array.toList_push, namedAll_append, Set.union_comm]
    exact Set.union_subset_union_left _ Includes.namedCons.subset

end Keeps

instance modifyTarget_grounded {f : State → State} [hf : Keeps Γ f] :
    Grounded Γ (modifyTarget f : SpirvM Unit) refs :=
  grounded_of_kept fun h => by
    obtain rfl := modify_eq_ok.mp h
    refine ⟨hf.types _, ?_, Set.empty_subset _⟩
    exact Set.union_subset (Set.subset_union_left.trans Set.subset_union_right)
      ((hf.refs _).trans (Set.union_subset_union_right _ Set.subset_union_right))

/-- An instruction that cites what is known defines its result. -/
theorem declare_grounded {i : Instruction} (hi : i.op ≠ Op.line → Id.namedAll i.cites ⊆ Γ) :
    Grounded Γ (modifyTarget fun s => { s with types := s.types.push i } : SpirvM Unit)
      fun _ => Id.named i.result where
  ensures := by
    intro g _ g' hrun hΓ hg
    obtain rfl := modify_eq_ok.mp hrun
    have hdeclared :
        g.target.declared ⊆ State.declared { g.target with types := g.target.types.push i } :=
      fun id ⟨j, hj, heq⟩ => ⟨j, by simpa using .inl (by simpa using hj), heq⟩
    refine ⟨⟨?_, hg.known.trans hdeclared⟩, hdeclared, ?_⟩
    · rw [Array.toList_push]
      refine hg.types.snoc fun hop id hid hne => ?_
      exact hΓ (hi hop ⟨id, hid, rfl, hne⟩)
    · rintro id ⟨rfl, -⟩
      exact ⟨i, by simp, rfl⟩

instance pure_grounded {id : Id} [h : Includes Γ (Id.named id)] :
    Grounded Γ (pure id : SpirvM Id) Id.named :=
  .of_pure h.subset

/-- An id tells nothing where it is not asked for. -/
instance (priority := low) forget_grounded {x : SpirvM Id} [h : Grounded Γ x Id.named] :
    Grounded Γ x refs :=
  h.mono Set.Subset.rfl fun _ => Set.empty_subset _

instance get_grounded : Grounded Γ (get : SpirvM (Generator State)) refs :=
  grounded_of_kept fun h => by
    obtain ⟨rfl, rfl⟩ := get_eq_ok.mp h
    exact ⟨rfl, Set.subset_union_right, Set.subset_union_right⟩

instance getTarget_grounded : Grounded Γ (getTarget : SpirvM State) refs := by
  unfold getTarget
  infer_instance

instance modifyResult_grounded {f : Module → Module} :
    Grounded Γ (modifyResult f : SpirvM Unit) refs :=
  grounded_of_kept fun h => by
    obtain rfl := modify_eq_ok.mp h
    exact ⟨rfl, Set.subset_union_right, Set.empty_subset _⟩

instance makeId_grounded : Grounded Γ (makeId : SpirvM Id) refs :=
  grounded_of_kept fun h => by
    obtain ⟨rfl, rfl⟩ := Prod.mk.inj (Except.ok.inj h)
    exact ⟨rfl, Set.subset_union_right, Set.empty_subset _⟩

instance setBlock_grounded {id : Id} : Grounded Γ (setBlock id : SpirvM Id) refs :=
  grounded_of_kept fun h => by
    obtain ⟨rfl, rfl⟩ := Prod.mk.inj (Except.ok.inj h)
    exact ⟨rfl, Set.subset_union_right, Set.empty_subset _⟩

instance liftM_grounded {x : Except Fault α} [hx : Grounded Γ x P] :
    Grounded Γ (liftM x : SpirvM α) P :=
  grounded_of_kept fun h => by
    obtain ⟨hx', rfl⟩ := liftM_eq_ok.mp h
    exact ⟨rfl, Set.subset_union_right, (hx.ensures _ hx').trans Set.subset_union_left⟩

instance placeUniform_grounded {u : Uniform} [Includes Γ (refs u)] :
    Grounded Γ (placeUniform u : SpirvM Uniform) refs := by
  unfold placeUniform
  infer_instance

instance addSpecConstant_grounded {u : Uniform} :
    Grounded Γ (addSpecConstant u : SpirvM Unit) refs := by
  unfold addSpecConstant
  infer_instance

instance addEntryPoint_grounded {name : String} {isPixelShader : Bool} :
    Grounded Γ (addEntryPoint name isPixelShader : SpirvM Bool) refs := by
  unfold addEntryPoint
  infer_instance

instance markRenderTarget_grounded {id : Id} :
    Grounded Γ (markRenderTarget id : SpirvM Unit) refs := by
  unfold markRenderTarget
  infer_instance

instance defineTechnique_grounded {t : Technique} :
    Grounded Γ (defineTechnique t : SpirvM Unit) refs := by
  unfold defineTechnique
  infer_instance

instance currentBody_grounded : Grounded Γ currentBody refs := by
  unfold currentBody
  refine .pass fun g => ?_
  split <;> infer_instance

instance setCurrentBody_grounded {b : BasicBlock} : Grounded Γ (setCurrentBody b) refs := by
  unfold setCurrentBody
  infer_instance

instance add_grounded {i : Instruction} : Grounded Γ (add i) refs := by
  unfold add
  infer_instance

instance emit_grounded {op : Opcode} {type : Id} {operands : List UInt32} :
    Grounded Γ (emit op type operands) refs := by
  unfold emit
  infer_instance

instance emitExtended_grounded {type : Id} {op : ExtendedOp} {operands : List UInt32} :
    Grounded Γ (emitExtended type op operands) refs := by
  unfold emitExtended
  infer_instance

instance emitStore_grounded {pointer value : Id} : Grounded Γ (emitStore pointer value) refs := by
  unfold emitStore
  infer_instance

/-- A type is defined behind the ids that it is made of. -/
theorem addType_grounded {op : Opcode} {operands : List UInt32} (ids : List Id)
    (hids : op.ids operands = ids)
    [h : Includes Γ (Id.namedAll ids)] : Grounded Γ (addType op operands) Id.named := by
  unfold addType
  refine .of_pass makeId_grounded fun result =>
    .of_bind (declare_grounded fun _ => ?_) fun _ => .of_pure Set.subset_union_right
  have hcites : Instruction.cites { op, result, operands } = 0 :: ids := congrArg _ hids
  exact hcites ▸ Includes.namedCons.subset

instance lineInstruction_grounded {location : Location} :
    Grounded Γ (lineInstruction location) refs := by
  unfold lineInstruction
  refine .pass fun s => ?_
  split
  · infer_instance
  · split <;> infer_instance

instance addBlockLocation_grounded {location : Location} :
    Grounded Γ (addBlockLocation location) refs := by
  unfold addBlockLocation
  infer_instance

/-- A function keeps the type of what it returns. -/
theorem modifyFunction_grounded {f : FunctionCode → FunctionCode}
    (hf : ∀ c, (f c).returnType = c.returnType) :
    Grounded Γ (modifyFunction f) refs := by
  unfold modifyFunction
  refine .andThen refs fun s => ?_
  split
  · infer_instance
  · next code hcode =>
    have hknown : Includes (Γ ∪ refs s) (refs code) := .of_some hcode
    have : Includes (Γ ∪ refs s) (refs (f code)) :=
      ⟨(congrArg refs (hf code)).subset.trans hknown.subset⟩
    infer_instance

instance addDeclaration_grounded {i : Instruction} : Grounded Γ (addDeclaration i) refs :=
  modifyFunction_grounded fun _ => rfl

instance addLocal_grounded {i : Instruction} :
    Grounded Γ (modifyFunction fun f => { f with locals := f.locals.push i }) refs :=
  modifyFunction_grounded fun _ => rfl

instance addName_grounded {id : Id} {name : String} : Grounded Γ (addName id name) refs := by
  unfold addName
  infer_instance

instance addMemberName_grounded {id : Id} {index : UInt32} {name : String} :
    Grounded Γ (addMemberName id index name) refs := by
  unfold addMemberName
  infer_instance

instance addAnnotation_grounded {i : Instruction} : Grounded Γ ( addAnnotation i) refs := by
  unfold addAnnotation
  infer_instance

instance decorate_grounded {id : Id} {d : Decoration} {values : List UInt32} :
    Grounded Γ (decorate id d values) refs := by
  unfold decorate
  infer_instance

instance decorateMember_grounded {id : Id} {index : UInt32} {d : Decoration}
    {values : List UInt32} :
    Grounded Γ (decorateMember id index d values) refs := by
  unfold decorateMember
  infer_instance

instance addCapability_grounded {c : Capability} : Grounded Γ (addCapability c) refs := by
  unfold addCapability
  infer_instance

instance decorateSemantic_grounded {id : Id} {semantic : String} :
    Grounded Γ (decorateSemantic id semantic) refs := by
  unfold decorateSemantic
  infer_instance

end Spirv
end ShaderEffect

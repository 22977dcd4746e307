import ShaderEffect.Proofs.Numbering.Rules
import ShaderEffect.Proofs.Spirv.Frame

namespace ShaderEffect.Spirv

open Generator

variable {α γ : Type}

/-- How many of some instructions have an id as their result. -/
def results (l : List Instruction) (r : Id) : Nat :=
  (l.map (·.result)).count r

@[simp] theorem results_nil (r : Id) : results [] r = 0 := rfl

@[simp] theorem results_append (l m : List Instruction) (r : Id) :
    results (l ++ m) r = results l r + results m r := by
  simp only [results, List.map_append, List.count_append]

@[simp] theorem results_cons (i : Instruction) (l : List Instruction) (r : Id) :
    results (i :: l) r = results l r + if i.result = r then 1 else 0 := by
  simp only [results, List.map_cons, List.count_cons, beq_iff_eq]

/-- The instructions of a function, in no particular order. -/
def FunctionCode.listed (f : FunctionCode) : List Instruction :=
  f.declaration.toList ++ f.locals.toList ++ f.definition

/-- The instructions that have found their place: those of the sections, and those of the current
function that are in no block. -/
def State.placed (s : State) : List Instruction :=
  s.entryPoints.toList ++ s.executionModes.toList ++ s.debugStrings.toList ++ s.debugNames.toList
    ++ s.annotations.toList ++ s.types.toList ++ s.globals.toList
    ++ s.functions.toList.flatMap FunctionCode.listed
    ++ (s.current.map FunctionCode.listed).getD []

/-- How often an id is taken: by the instructions that have found their place, and by those that the
module is closed with. -/
def State.taken (s : State) (r : Id) : Nat :=
  results s.placed r + [s.extendedSet, s.uniformType, s.uniformVariable].count r

/-- Whether an id is one of those handed out between two states, as a number. -/
def handed (first next : Nat) (r : Id) : Nat :=
  if first ≤ r.toNat ∧ r.toNat < next then 1 else 0

theorem handed_add {first second third : Nat} (h : first ≤ second)
    (h' : second ≤ third) (r : Id) :
    handed first second r + handed second third r = handed first third r := by
  unfold handed
  split_ifs <;> omega

@[simp] theorem handed_self (n : Nat) (r : Id) : handed n n r = 0 :=
  if_neg (by omega)

theorem handed_succ {n : Nat} (h : n < 2 ^ 32) (r : Id) :
    handed n (n + 1) r = if UInt32.ofNat n = r then 1 else 0 := by
  have heq : UInt32.ofNat n = r ↔ n ≤ r.toNat ∧ r.toNat < n + 1 := by
    rw [← UInt32.toNat_inj, UInt32.toNat_ofNat_of_lt' h]
    omega
  simp only [handed, heq]

/-- Whether no id is taken more often than before, unless it was handed out in between or
is the given one. -/
structure Spends (id : Id) (g g' : Generator State) : Prop where
  nextId : g.nextId ≤ g'.nextId
  taken : g'.nextId ≤ 2 ^ 32 →
    ∀ b r, r ≠ 0 → g'.target.taken r + results (g'.target.code b) r ≤
    g.target.taken r + results (g.target.code b) r + handed g.nextId g'.nextId r
      + if id = r then 1 else 0

/-- Whether every id that is taken between two states was handed out between them. -/
abbrev Accrues : Generator State → Generator State → Prop :=
  Spends 0

namespace Spends

variable {id : Id} {g g₁ g' : Generator State}

theorem of_le (hnext : g'.nextId = g.nextId)
    (htaken : ∀ b r, r ≠ 0 → g'.target.taken r + results (g'.target.code b) r ≤
    g.target.taken r + results (g.target.code b) r + if id = r then 1 else 0) : Spends id g g' where
  nextId := Nat.le_of_eq hnext.symm
  taken _ b r hr := by
    have := htaken b r hr
    rw [hnext, handed_self]
    omega

theorem of_target (hnext : g'.nextId = g.nextId) (htarget : g'.target = g.target) :
    Spends id g g' :=
  of_le hnext fun _ _ _ => htarget ▸ Nat.le_add_right _ _

/-- What is taken later. -/
theorem later (h : Accrues g g₁) (h' : Spends id g₁ g') : Spends id g g' where
  nextId := Nat.le_trans h.nextId h'.nextId
  taken hcount b r hr := by
    have hfirst := h.taken (Nat.le_trans h'.nextId hcount) b r hr
    have hsecond := h'.taken hcount b r hr
    rw [if_neg (Ne.symm hr)] at hfirst
    rw [← handed_add h.nextId h'.nextId]
    omega

/-- What was taken before. -/
theorem before (h : Spends id g g₁) (h' : Accrues g₁ g') : Spends id g g' where
  nextId := Nat.le_trans h.nextId h'.nextId
  taken hcount b r hr := by
    have hfirst := h.taken (Nat.le_trans h'.nextId hcount) b r hr
    have hsecond := h'.taken hcount b r hr
    rw [if_neg (Ne.symm hr)] at hsecond
    rw [← handed_add h.nextId h'.nextId]
    omega

/-- An id that is taken where it was just handed out. -/
theorem of_new (h : Spends (UInt32.ofNat g.nextId) { g with nextId := g.nextId + 1 } g') :
    Accrues g g' where
  nextId := Nat.le_trans (Nat.le_succ _) h.nextId
  taken hcount b r hr := by
    have htaken := h.taken hcount b r hr
    have hnext : g.nextId < 2 ^ 32 :=
      Nat.lt_of_lt_of_le (Nat.lt_succ_self _) (Nat.le_trans h.nextId hcount)
    rw [← handed_add (Nat.le_add_right g.nextId 1) h.nextId, handed_succ hnext,
      if_neg (Ne.symm hr)]
    simp only at htaken ⊢
    omega

end Spends

instance : Course Accrues where
  idle hnext _ _ htarget := .of_target hnext htarget
  trans := .later
  nextId := Spends.nextId
  makeId g := by
    refine ⟨Nat.le_succ _, fun _ b r _ => ?_⟩
    simp only
    omega

/-- Nothing but an id that was handed out stands for the type of a proper instruction. -/
instance : Judged Instruction := ⟨fun w i => w.Made i.type⟩

/-- Whether the ids that a state holds were handed out. -/
structure State.Numbered (w : Horizon) (s : State) : Prop where
  placed : Proper w s.placed
  code : ∀ b, Proper w (s.code b)
  extendedSet : w.Made s.extendedSet
  uniformType : w.Made s.uniformType
  uniformVariable : w.Made s.uniformVariable
  typeIds : ∀ key, ∀ id ∈ s.typeIds.get? key, w.Made id
  constantIds : ∀ key, ∀ id ∈ s.constantIds.get? key, w.Made id
  functionTypes : ∀ f ∈ s.functionTypes, w.Made f.id
  returnType : ∀ f ∈ s.current, Proper w f.returnType

instance {w : Horizon} : Tended w State := ⟨State.Numbered w⟩

variable {w : Horizon} {Γ : Prop} {P : α → Prop}

instance {op : Opcode} {type result : Id} {operands : List UInt32}
    [htype : Entails Γ (w.Made type)] :
    Entails Γ (Proper w (Instruction.mk op type result operands)) :=
  ⟨htype.entails⟩

instance {i : Instruction} {text : String} [hi : Entails Γ (Proper w i)] :
    Entails Γ (Proper w (i.addText text)) :=
  ⟨hi.entails⟩

/-- Whether an instruction has the given id as its result. -/
class Instruction.Defines (i : Instruction) (id : Id) : Prop where
  result : i.result = id

namespace Instruction.Defines

instance {op : Opcode} {type result : Id} {operands : List UInt32} :
    Defines (Instruction.mk op type result operands) result := ⟨rfl⟩

instance {i : Instruction} {id : Id} {text : String} [hi : Defines i id] :
    Defines (i.addText text) id := ⟨hi.result⟩

end Instruction.Defines

section

/-- An id that is handed out and taken once is accounted for. -/
theorem numbers_new {f : Id → SpirvM α}
    (hf : ∀ id, Numbers (Spends id) w (Γ ∧ w.Made id) P (f id)) :
    Numbers Accrues w Γ P (makeId >>= f) where
  course h := by
    obtain ⟨id, g₁, hid, h⟩ := bind_eq_ok.mp h
    obtain ⟨rfl, rfl⟩ := Prod.mk.inj (Except.ok.inj hid)
    exact .of_new ((hf _).course h)
  result h hcount hΓ hg := by
    obtain ⟨id, g₁, hid, h⟩ := bind_eq_ok.mp h
    have hcount₁ := Nat.le_trans ((hf id).course h).nextId hcount
    obtain ⟨hg₁, hmade⟩ := (Numbers.makeId (R := Accrues)).result hid hcount₁ hΓ hg
    exact (hf id).result h hcount ⟨hΓ, hmade⟩ hg₁

variable {id : Id}

/-- What is taken by a later part. -/
theorem numbers_later {Q : γ → Prop} {x : SpirvM γ} {f : γ → SpirvM α}
    (hx : Numbers Accrues w Γ Q x) (hf : ∀ c, Numbers (Spends id) w (Γ ∧ Q c) P (f c)) :
    Numbers (Spends id) w Γ P (x >>= f) :=
  .compose Anything hx (fun _ _ _ _ => trivial) (fun c _ => hf c) (fun _ _ _ => .later)
    fun _ _ => Spends.nextId

/-- What is taken by an earlier part. -/
theorem numbers_before {Q : γ → Prop} {x : SpirvM γ} {f : γ → SpirvM α}
    (hx : Numbers (Spends id) w Γ Q x)
    (hf : ∀ c, Numbers Accrues w (Γ ∧ Q c) P (f c)) : Numbers (Spends id) w Γ P (x >>= f) :=
  .compose Anything hx (fun _ _ _ _ => trivial) (fun c _ => hf c) (fun _ _ _ => .before)
    fun _ _ => Spends.nextId

end

/-- Ids that are handed out in order are all that most parts need to know of each other. -/
theorem numbers_onward {id : Id} {x : SpirvM α} (hx : Numbers (Spends id) w Γ P x) :
    Numbers Onward w Γ P x where
  course h := (hx.course h).nextId
  result := hx.result

instance (priority := low) numbers_of_accrues {x : SpirvM α} [hx : Numbers Accrues w Γ P x] :
    Numbers Onward w Γ P x :=
  numbers_onward hx

/-- What holds ids apart from the instructions that have found their place. -/
def State.kept (s : State) :=
  (s.extendedSet, s.uniformType, s.uniformVariable, s.typeIds, s.constantIds, s.functionTypes,
    s.current.map (·.returnType), s.blocks)

/-- Whether an instruction has found its place, and nothing else has changed. -/
structure State.Gains (i : Instruction) (s s' : State) : Prop where
  placed : s'.placed.Perm (i :: s.placed)
  kept : s'.kept = s.kept

namespace State.Gains

variable {i : Instruction} {s s' : State}

theorem code (h : s.Gains i s') (b : Id) : s'.code b = s.code b := by
  have hkept := h.kept
  simp only [State.kept, Prod.mk.injEq] at hkept
  rw [State.code, State.code, hkept.2.2.2.2.2.2.2]

theorem taken (h : s.Gains i s') (r : Id) :
    s'.taken r = s.taken r + if i.result = r then 1 else 0 := by
  have hkept := h.kept
  simp only [State.kept, Prod.mk.injEq] at hkept
  have hcount : results s'.placed r = results (i :: s.placed) r := (h.placed.map _).count_eq r
  simp only [State.taken, hcount, results_cons, hkept.1, hkept.2.1, hkept.2.2.1]
  omega

theorem numbered (h : s.Gains i s') (hi : Proper w i) (hs : s.Numbered w) : s'.Numbered w := by
  have hkept := h.kept
  simp only [State.kept, Prod.mk.injEq] at hkept
  obtain ⟨hset, htype, hvariable, htypes, hconstants, hfunctions, hcurrent, -⟩ := hkept
  refine ⟨fun j hj => ?_, fun b => h.code b ▸ hs.code b, hset ▸ hs.extendedSet,
    htype ▸ hs.uniformType, hvariable ▸ hs.uniformVariable, htypes ▸ hs.typeIds,
    hconstants ▸ hs.constantIds, hfunctions ▸ hs.functionTypes, fun f hf => ?_⟩
  · rcases List.mem_cons.mp (h.placed.mem_iff.mp hj) with rfl | hj
    · exact hi
    · exact hs.placed j hj
  · have hreturn : s.current.map (·.returnType) = some f.returnType :=
      hcurrent ▸ Option.map_eq_some_iff.mpr ⟨f, hf, rfl⟩
    obtain ⟨f', hf', hreturn⟩ := Option.map_eq_some_iff.mp hreturn
    exact hreturn ▸ hs.returnType f' hf'

end State.Gains

/-- Whether a change takes no id but the given one, and no ids that were not handed out. -/
class Settles (id : Id) (w : Horizon) (Γ : Prop) (f : State → State) : Prop where
  taken : ∀ s r, r ≠ 0 → (f s).taken r ≤ s.taken r + if id = r then 1 else 0
  code : ∀ s b, (f s).code b = s.code b
  numbered : ∀ {s}, Γ → s.Numbered w → (f s).Numbered w

namespace Settles

variable {id : Id}

instance ite {c : State → Prop} [∀ s, Decidable (c s)] {f h : State → State}
    [hf : Settles id w Γ f] [hh : Settles id w Γ h] :
    Settles id w Γ fun s => if c s then f s else h s where
  taken s := by split <;> [exact hf.taken s; exact hh.taken s]
  code s := by split <;> [exact hf.code s; exact hh.code s]
  numbered hΓ hs := by split <;> [exact hf.numbered hΓ hs; exact hh.numbered hΓ hs]

/-- One change after another that takes no id. -/
theorem after {f h : State → State} (hf : Settles id w Γ f) (hh : Settles 0 w Γ h) :
    Settles id w Γ fun s => h (f s) where
  taken s r hr := by
    have hfirst := hf.taken s r hr
    have hsecond := hh.taken (f s) r hr
    rw [if_neg (Ne.symm hr)] at hsecond
    omega
  code s b := (hh.code (f s) b).trans (hf.code s b)
  numbered hΓ hs := hh.numbered hΓ (hf.numbered hΓ hs)

/-- What holds no ids may change. -/
instance rest {capabilities : State → List Capability} {extensions : State → List String}
    {uniformMembers : State → Array Id} {memberOf : State → Table Id UInt32}
    {specConstants : State → List Id}
    {storage : State → Table Id StorageClass} {sourceFiles : State → Table String Id}
    {locations : State → Interface.Locations} {spliced : State → Table Id Id} :
    Settles id w Γ fun s : State =>
      { s with
        capabilities := capabilities s
        extensions := extensions s
        uniformMembers := uniformMembers s
        memberOf := memberOf s
        specConstants := specConstants s
        storage := storage s
        sourceFiles := sourceFiles s
        locations := locations s
        spliced := spliced s } :=
  ⟨fun _ _ _ => Nat.le_add_right _ _, fun _ _ => rfl, fun _ h => { h with }⟩

instance typeIds {key : TypeKey} {type : Id} [h : Entails Γ (w.Made type)] :
    Settles id w Γ fun s => { s with typeIds := s.typeIds.set key type } where
  taken _ _ _ := Nat.le_add_right _ _
  code _ _ := rfl
  numbered hΓ hs :=
    { hs with
      typeIds := fun k t ht => by
        rw [Table.get?_set] at ht
        split at ht
        · exact Option.some.inj ht ▸ h.entails hΓ
        · exact hs.typeIds k t ht }

instance constantIds {key : ConstantKey} {constant : Id} [h : Entails Γ (w.Made constant)] :
    Settles id w Γ fun s => { s with constantIds := s.constantIds.set key constant } where
  taken _ _ _ := Nat.le_add_right _ _
  code _ _ := rfl
  numbered hΓ hs :=
    { hs with
      constantIds := fun k c hc => by
        rw [Table.get?_set] at hc
        split at hc
        · exact Option.some.inj hc ▸ h.entails hΓ
        · exact hs.constantIds k c hc }

instance functionTypes {result type : Id} {params : List Id} [h : Entails Γ (w.Made type)] :
    Settles id w Γ fun s =>
      { s with functionTypes := s.functionTypes ++ [⟨result, params, type⟩] } where
  taken _ _ _ := Nat.le_add_right _ _
  code _ _ := rfl
  numbered hΓ hs :=
    { hs with
      functionTypes :=
        List.forall_mem_append.mpr ⟨hs.functionTypes,
          List.forall_mem_singleton.mpr (h.entails hΓ)⟩ }

/-- A function begins without instructions. -/
instance current {t : Ty} [h : Entails Γ (Proper w t)] :
    Settles id w Γ fun s => { s with current := some { returnType := t } } where
  taken s r _ := by
    simp only [State.taken, State.placed, Option.map_some, Option.getD_some, results_append]
    simp only [FunctionCode.listed, List.append_nil, results_nil]
    omega
  code _ _ := rfl
  numbered hΓ hs :=
    { hs with
      placed := fun i hi => by
        refine hs.placed i ?_
        simp only [State.placed, List.mem_append, Option.map_some, Option.getD_some,
          FunctionCode.listed, List.not_mem_nil, or_false] at hi ⊢
        exact .inl hi
      returnType := fun f hf => Option.some.inj hf ▸ h.entails hΓ }

variable {i : Instruction}

theorem of_gains {f : State → State} (h : ∀ s :
    State, s.Gains i (f s)) [hi : i.Defines id] [hproper : Entails Γ (Proper w i)] :
    Settles id w Γ f where
  taken s r _ := Nat.le_of_eq (hi.result ▸ (h s).taken r)
  code s := (h s).code
  numbered {s} hΓ := (h s).numbered (hproper.entails hΓ)

variable [i.Defines id] [Entails Γ (Proper w i)]

instance types : Settles id w Γ fun s => { s with types := s.types.push i } :=
  of_gains (i := i) fun s => ⟨by
    simp only [List.perm_iff_count, State.placed, Array.toList_push, List.count_append,
      List.count_cons, List.count_nil]
    omega, rfl⟩

instance globals : Settles id w Γ fun s => { s with globals := s.globals.push i } :=
  of_gains (i := i) fun s => ⟨by
    simp only [List.perm_iff_count, State.placed, Array.toList_push, List.count_append,
      List.count_cons, List.count_nil]
    omega, rfl⟩

instance entryPoints : Settles id w Γ fun s => { s with entryPoints := s.entryPoints.push i } :=
  of_gains (i := i) fun s => ⟨by
    simp only [List.perm_iff_count, State.placed, Array.toList_push, List.count_append,
      List.count_cons, List.count_nil]
    omega, rfl⟩

instance executionModes :
    Settles id w Γ fun s => { s with executionModes := s.executionModes.push i } :=
  of_gains (i := i) fun s => ⟨by
    simp only [List.perm_iff_count, State.placed, Array.toList_push, List.count_append,
      List.count_cons, List.count_nil]
    omega, rfl⟩

instance annotations : Settles id w Γ fun s => { s with annotations := s.annotations.push i } :=
  of_gains (i := i) fun s => ⟨by
    simp only [List.perm_iff_count, State.placed, Array.toList_push, List.count_append,
      List.count_cons, List.count_nil]
    omega, rfl⟩

instance debugNames : Settles id w Γ fun s => { s with debugNames := s.debugNames.push i } :=
  of_gains (i := i) fun s => ⟨by
    simp only [List.perm_iff_count, State.placed, Array.toList_push, List.count_append,
      List.count_cons, List.count_nil]
    omega, rfl⟩

instance debugStrings {sourceFiles : State → Table String Id} :
    Settles id w Γ fun s =>
      { s with debugStrings := s.debugStrings.push i, sourceFiles := sourceFiles s } :=
  of_gains (i := i) fun s => ⟨by
    simp only [List.perm_iff_count, State.placed, Array.toList_push, List.count_append,
      List.count_cons, List.count_nil]
    omega, rfl⟩

end Settles

instance modifyTarget_numbers {id : Id} {f : State → State} [hf : Settles id w Γ f] :
    Numbers (Spends id) w Γ Anything (modifyTarget f : SpirvM Unit) where
  course {g _ _} h := by
    obtain rfl := modify_eq_ok.mp h
    refine .of_le rfl fun b r hr => ?_
    have htaken := hf.taken g.target r hr
    simp only [hf.code]
    omega
  result h _ hΓ hg := by
    obtain rfl := modify_eq_ok.mp h
    exact ⟨⟨hg.structs, hg.functions, hf.numbered hΓ hg.target⟩, trivial⟩

def State.withBlocks (s : State) (blocks : Table Id BasicBlock) : State :=
  { s with blocks }

theorem State.code_eq_flatten (s : State) (b : Id) : s.code b = (s.block b).flatten := by
  unfold code block
  cases s.blocks.get? b <;> rfl

/-- The current block exists once it was asked for, and is otherwise as it was. -/
theorem currentBody_eq_withBlocks {g g' : Generator State} {b : BasicBlock}
    (h : currentBody g = .ok (b, g')) :
    g' = { g with target := g.target.withBlocks g'.target.blocks }
      ∧ ∀ b, g'.target.block b = g.target.block b := by
  simp only [currentBody, bind_eq_ok, get_eq_ok] at h
  obtain ⟨_, _, ⟨rfl, rfl⟩, h⟩ := h
  cases hget : g.target.blocks.get? g.currentBlock with
  | some body =>
    rw [hget] at h
    exact (pure_eq_ok.mp h).2 ▸ ⟨rfl, fun _ => rfl⟩
  | none =>
    rw [hget] at h
    obtain ⟨_, _, hmodify, h⟩ := bind_eq_ok.mp h
    obtain rfl := modify_eq_ok.mp hmodify
    refine (pure_eq_ok.mp h).2 ▸ ⟨rfl, fun b => ?_⟩
    by_cases hb : b = g.currentBlock
    · rw [hb, State.block_set_self, State.block, hget, Option.getD_none]
    · rw [State.block, State.block, Table.get?_set_of_ne hb]

/-- Nothing but the current block changes where it is set. -/
theorem setCurrentBody_eq_ok {g g₁ g' : Generator State} {b new : BasicBlock} {u : Unit}
    (hbody : currentBody g = .ok (b, g₁)) (h : setCurrentBody new g₁ = .ok (u, g')) :
    b = g.target.block g.currentBlock
      ∧ ∃ blocks, g' = { g with target := g.target.withBlocks blocks } ∧
      ∀ b, (g.target.withBlocks blocks).block b
        = if b = g.currentBlock then new else g.target.block b := by
  obtain ⟨hb, -, hextends⟩ := currentBody_eq_ok hbody
  have hg₁ := (currentBody_eq_withBlocks hbody).1
  simp only [setCurrentBody, modifyTarget, bind_eq_ok, get_eq_ok, modify_eq_ok] at h
  obtain ⟨_, _, ⟨rfl, rfl⟩, rfl⟩ := h
  refine ⟨hb, g₁.target.blocks.set g.currentBlock new, ?_, fun b => ?_⟩
  · rw [hextends.current, hg₁]
    rfl
  · by_cases hcurrent : b = g.currentBlock
    · rw [if_pos hcurrent, hcurrent, State.block, State.withBlocks, Table.get?_set_self,
        Option.getD_some]
    · rw [if_neg hcurrent, State.block, State.withBlocks, Table.get?_set_of_ne hcurrent,
        hextends.others b hcurrent]
      rfl

theorem results_le_of_subperm {l m : List Instruction} (h : l.Subperm m) (r : Id) :
    results l r ≤ results m r := by
  obtain ⟨l', hl', hsub⟩ := h
  rw [results, ← (hl'.map Instruction.result).count_eq r]
  exact (hsub.map Instruction.result).count_le r

instance currentBody_numbers : Numbers Accrues w Γ Anything currentBody where
  course {g _ _} h := by
    obtain ⟨hg', hblock⟩ := currentBody_eq_withBlocks h
    refine .of_le (hg' ▸ rfl) fun b r _ => ?_
    rw [State.code_eq_flatten, State.code_eq_flatten, hblock, hg']
    exact Nat.le_add_right _ _
  result {g _ _} h _ _ hg := by
    obtain ⟨hg', hblock⟩ := currentBody_eq_withBlocks h
    rw [hg'] at hblock ⊢
    refine ⟨⟨hg.structs, hg.functions, { hg.target with code := fun b => ?_ }⟩, trivial⟩
    rw [State.code_eq_flatten, hblock, ← State.code_eq_flatten]
    exact hg.target.code b

/-- The current block gains an instruction, and may lose others. -/
theorem numbers_current {id : Id} {i : Instruction} {f : BasicBlock → BasicBlock}
    (hf : ∀ b, (f b).flatten.Subperm (i :: b.flatten)) [hi : i.Defines id]
    [hproper : Entails Γ (Proper w i)] :
    Numbers (Spends id) w Γ Anything (currentBody >>= fun b => setCurrentBody (f b)) where
  course {g _ _} h := by
    obtain ⟨b, g₁, hbody, h⟩ := bind_eq_ok.mp h
    obtain ⟨rfl, blocks, rfl, hblocks⟩ := setCurrentBody_eq_ok hbody h
    refine .of_le rfl fun b r _ => ?_
    have htaken : (g.target.withBlocks blocks).taken r = g.target.taken r := rfl
    have hle := results_le_of_subperm (hf (g.target.block g.currentBlock)) r
    rw [results_cons, hi.result] at hle
    simp only [State.code_eq_flatten, hblocks, htaken]
    split
    · next hb =>
      subst hb
      omega
    · exact Nat.le_add_right _ _
  result {g _ _} h _ hΓ hg := by
    obtain ⟨b, g₁, hbody, h⟩ := bind_eq_ok.mp h
    obtain ⟨rfl, blocks, rfl, hblocks⟩ := setCurrentBody_eq_ok hbody h
    refine ⟨⟨hg.structs, hg.functions, { hg.target with code := fun b => ?_ }⟩, trivial⟩
    have hcode := hg.target.code b
    rw [State.code_eq_flatten] at hcode ⊢
    rw [hblocks]
    split
    · next hb =>
      subst hb
      exact fun j hj => (List.forall_mem_cons.mpr ⟨hproper.entails hΓ, hcode⟩) j
        ((hf _).subset hj)
    · exact hcode

end ShaderEffect.Spirv

import ShaderEffect.Proofs.Numbering.Blocks
import ShaderEffect.Proofs.Spirv.Function

namespace ShaderEffect

/-- Where code is added, which blocks were entered so far, and where code was put. -/
structure Moment where
  nextId : Nat
  current : Id
  inFunction : Bool
  /-- The block that the code entered through a block was put into. -/
  spliced : Table Id Id
  /-- The blocks that were entered, in order. -/
  entered : List Id
  /-- The blocks that end in a switch which was put together where there was no current block. -/
  dropped : List Id

/-- The block that a request enters. -/
def Request.entered? : Request → Option Id
  | .enterBlock id => some id
  | _ => none

/-- The block that ends in the switch which a request puts together, if there is
no current block. -/
def Request.dropped? (current : Id) : Request → Option Id
  | .emitSwitch _ _ selectorBlock _ _ _ => if current = 0 then some selectorBlock else none
  | _ => none

/-- Puts the code that was entered through a block into the current block. -/
def Moment.splice (m : Moment) (first : Id) : Moment :=
  { m with spliced := m.spliced.set first m.current }

/-- Notes a switch. -/
def Moment.note (m : Moment) (first : Id) : Moment :=
  { m with dropped := m.dropped ++ if m.current = 0 then [first] else [] }

namespace Request

/-- Whether a request moves between blocks, moves code that was there, or begins or
ends a function. -/
abbrev turns : Request → Bool
  | .isInBlock | .isInFunction | .makeId | .setBlock _ | .enterBlock _ | .emitIf .. | .emitPhi ..
    | .emitLoop .. => true
  | .leaveAndKill | .leaveAndReturn _ | .leaveAndSwitch .. | .leaveAndBranch ..
    | .leaveAndBranchConditional .. => true
  | .emitSwitch .. | .defineFunction .. | .leaveFunction | .defineEntryPoint .. => true
  | _ => false

/-- Whether a request leaves the current block. -/
abbrev leaves : Request → Bool
  | .leaveAndKill | .leaveAndReturn _ | .leaveAndSwitch .. | .leaveAndBranch ..
    | .leaveAndBranchConditional .. => true
  | _ => false

/-- The block through which the code was entered that a request puts into the current block. -/
abbrev first? : Request → Option Id
  | .emitIf _ _ first _ _ _ | .emitPhi _ _ first _ _ _ _ _ | .emitLoop _ _ first _ _ _ _ _ =>
    some first
  | _ => none

/-- How a request that is answered leads from one moment to the next. -/
def Next : (q : Request) → q.Answer → Moment → Moment → Prop
  | .isInBlock, a, m, m' => a = decide (m.current ≠ 0) ∧ m' = m
  | .isInFunction, a, m, m' => a = m.inFunction ∧ m' = m
  | .makeId, a, m, m' => a = UInt32.ofNat m.nextId ∧ m' = { m with nextId := m.nextId + 1 }
  | .setBlock id, a, m, m' => a = m.current ∧ m' = { m with current := id }
  | .enterBlock id, _, m, m' => m' = { m with current := id, entered := m.entered ++ [id] }
  | .leaveAndKill, _, m, m' | .leaveAndReturn _, _, m, m' =>
    ∃ n ≥ m.nextId, m' = { m with nextId := n, current := 0 }
  | .leaveAndSwitch .., a, m, m' | .leaveAndBranch .., a, m, m'
    | .leaveAndBranchConditional .., a, m, m' =>
    (m.current ≠ 0 → a = m.current) ∧ ∃ n ≥ m.nextId,
      m' = { m with nextId := n, current := 0 }
  | .emitIf _ _ first _ _ _, _, m, m' | .emitLoop _ _ first _ _ _ _ _, _, m, m' =>
    m' = m.splice first
  | .emitPhi _ _ first _ _ _ _ _, _, m, m' =>
    ∃ n ≥ m.nextId, m' = { m.splice first with nextId := n }
  | .emitSwitch _ _ first _ _ _, _, m, m' => m' = m.note first ∨ m' = (m.note first).splice first
  | .defineFunction .., _, m, m' =>
    ∃ n ≥ m.nextId, m' = { m with nextId := n, inFunction := true }
  | .leaveFunction, _, m, m' =>
    m' = { m with inFunction := false, spliced := if m.inFunction then [] else m.spliced }
  | .defineEntryPoint .., _, m, m' => ∃ n ≥ m.nextId,
    m' = { m with nextId := n }
      ∨ m' = { m with nextId := n, current := 0, inFunction := false, spliced := [] }
  | _, _, m, m' => ∃ n ≥ m.nextId, m' = { m with nextId := n }

variable {q : Request} {a : q.Answer} {m m' : Moment}

theorem Next.idle (h : q.Next a m m') (hq : q.turns = false) :
    ∃ n ≥ m.nextId, m' = { m with nextId := n } := by
  cases q <;> first | exact h | cases hq

theorem Next.leaves (h : q.Next a m m') (hq : q.leaves = true) :
    ∃ n ≥ m.nextId, m' = { m with nextId := n, current := 0 } := by
  cases q <;> first | exact h | exact h.2 | cases hq

theorem Next.splices {first : Id} (h : q.Next a m m') (hq : q.first? = some first) :
    ∃ n ≥ m.nextId, m' = { m.splice first with nextId := n } := by
  cases q with
  | emitPhi => cases hq; exact h
  | emitIf | emitLoop => cases hq; exact ⟨m.nextId, Nat.le_refl _, h⟩
  | _ => cases hq

end Request

namespace Spirv

open Generator

/-- The moment of a state behind which some blocks were entered and others dropped. -/
def moment (g : Generator State) (entered dropped : List Id) : Moment where
  nextId := g.nextId
  current := g.currentBlock
  inFunction := g.target.current.isSome
  spliced := g.target.spliced
  entered
  dropped

variable {g g₁ g' : Generator State} {l d : List Id}

theorem moment_eq (hcurrent : g'.currentBlock = g.currentBlock)
    (hfunction : g'.target.current.isSome = g.target.current.isSome)
    (hspliced : g'.target.spliced = g.target.spliced) :
    moment g' l d = { moment g l d with nextId := g'.nextId } := by
  simp only [moment, hcurrent, hfunction, hspliced]

theorem Extends.moment_eq (h : Extends g g') :
    moment g' l d = { moment g l d with nextId := g'.nextId } := by
  refine Spirv.moment_eq h.current ?_ h.spliced
  obtain ⟨new, -, hlocals⟩ := h.locals
  rw [hlocals, Option.isSome_map]

theorem Declares.moment_eq {new : List Instruction} (h : Declares new g g') :
    moment g' l d = { moment g l d with nextId := g'.nextId } := by
  refine Spirv.moment_eq h.current ?_ h.spliced
  obtain ⟨locals, -, hcurrent⟩ := h.declared
  rw [hcurrent, Option.isSome_map]

/-- Values that are computed leave everything as it was, apart from the next id. -/
theorem Computes.idle {α : Type} {x : SpirvM α} {a : α} (hx : Computes x)
    (h : x g = .ok (a, g')) :
    ∃ n ≥ g.nextId, moment g' l d = { moment g l d with nextId := n } :=
  ⟨g'.nextId, (hx h).nextId, (hx h).moment_eq⟩

theorem splice_next {first : Id} {code : List Instruction} {u : Unit}
    (h : splice first code g = .ok (u, g')) :
    moment g' l d = (moment g l d).splice first := by
  obtain ⟨g₁, hwrites, rfl⟩ := splice_spec h
  simp only [moment, Moment.splice, hwrites.nextId, hwrites.currentBlock, hwrites.current,
    hwrites.spliced]

theorem ending_next {e : Ending} {ended : Id} (h : e.handle g = .ok (ended, g')) :
    (g.currentBlock ≠ 0 → ended = g.currentBlock)
      ∧ ∃ n ≥ g.nextId, moment g' l d = { moment g l d with nextId := n, current := 0 } := by
  obtain ⟨otherwise, i, hrun, hi, -⟩ := handle_ending h
  obtain ⟨hcurrent, -, rfl⟩ | ⟨-, t, g₁, ht, hterminate⟩ := terminateOr_cases hrun
  · exact ⟨(absurd hcurrent ·), _, Nat.le_refl _, by simp only [moment, hcurrent]⟩
  · obtain ⟨hended, g₂, hwrites, rfl⟩ := terminate_spec hterminate
    have hextends := hi ht
    refine ⟨fun _ => hended.trans hextends.current, g₁.nextId, hextends.nextId, ?_⟩
    have hmoment := hextends.moment_eq (l := l) (d := d)
    simp only [moment, Moment.mk.injEq] at hmoment ⊢
    exact ⟨hwrites.nextId, trivial, hwrites.current ▸ hmoment.2.2.1,
      hwrites.spliced.trans hmoment.2.2.2.1, trivial, trivial⟩

theorem emitPhi_next {first trueValue trueBlock falseValue falseBlock id : Id} {t : Ty}
    (h : emitPhi first trueValue trueBlock falseValue falseBlock t g = .ok (id, g')) :
    ∃ n ≥ g.nextId, moment g' l d = { (moment g l d).splice first with nextId := n } := by
  obtain ⟨g₁, hsplice, hvalue⟩ := emitPhi_eq_ok.mp h
  obtain ⟨t', g₂, htype, hemit⟩ := bind_eq_ok.mp hvalue
  have hextends := (computes_valueType t _ htype).trans (computes_emit (by decide) _ _ hemit)
  obtain ⟨g₀, hwrites, rfl⟩ := splice_spec hsplice
  exact ⟨g'.nextId, hwrites.nextId ▸ hextends.nextId, by
    rw [hextends.moment_eq, splice_next hsplice]⟩

/-- A switch whose selector is not found is left out. -/
theorem emitSwitch_next {first defaultLabel : Id} {cases : List (UInt32 × Id)} {hint : ControlHint}
    {u : Unit} (h : emitSwitch first defaultLabel cases hint g = .ok (u, g')) :
    moment g' l d = moment g l d
      ∨ moment g' l d = (moment g l d).splice first := by
  obtain rfl | ⟨body, t, t', code, -, -, hsplice⟩ := emitSwitch_cases h
  · exact .inl rfl
  · have hmoment := splice_next (l := l) (d := d) hsplice
    exact .inr hmoment

theorem startFunction_next {location : Location} {decl made : FunctionDecl}
    (h : startFunction location decl g = .ok (made, g')) :
    ∃ n ≥ g.nextId, moment g' l d = { moment g l d with nextId := n, inFunction := true } := by
  obtain ⟨new, -, hdeclares⟩ := startFunction_spec h
  exact ⟨g'.nextId, hdeclares.nextId, hdeclares.moment_eq⟩

theorem defineFunction_next {location : Location} {decl made : FunctionDecl}
    (h : defineFunction location decl g = .ok (made, g')) :
    ∃ n ≥ g.nextId, moment g' l d = { moment g l d with nextId := n, inFunction := true } := by
  simp only [defineFunction, bind_eq_ok, modify_eq_ok, pure_eq_ok] at h
  obtain ⟨decl, g₁, hstart, _, _, rfl, rfl, rfl⟩ := h
  obtain ⟨n, hn, hmoment⟩ := startFunction_next hstart
  exact ⟨n, hn, hmoment⟩

/-- What was put together in a function is forgotten behind it. -/
theorem leaveFunction_next {u : Unit} (h : leaveFunction g = .ok (u, g')) :
    moment g' l d = { moment g l d with
      inFunction := false,
      spliced := if g.target.current.isSome then [] else g.target.spliced } := by
  obtain rfl := leaveFunction_eq_ok h
  simp only [moment, State.collect]
  cases hcurrent : g.target.current <;> simp [hcurrent]

/-- An entry point that exists is not made again. -/
theorem emitEntryPoint_next {fn : FunctionDecl} {isPixelShader : Bool} {u : Unit}
    (h : emitEntryPoint fn isPixelShader g = .ok (u, g')) :
    ∃ n ≥ g.nextId, moment g' l d = { moment g l d with nextId := n }
      ∨ moment g' l d
        = { moment g l d with nextId := n, current := 0, inFunction := false, spliced := [] } := by
  refine ⟨g'.nextId, countsUp_emitEntryPoint _ _ h, ?_⟩
  obtain ⟨isNew, g₁, hadd, hmade⟩ := emitEntryPoint_cases h
  have hadds := computes_addEntryPoint _ _ hadd
  obtain rfl | ⟨⟨w⟩⟩ := hmade
  · exact .inl hadds.moment_eq
  -- The function that was started is still there when it is left, and its one block has ended.
  obtain ⟨new, -, hlocals⟩ := w.inside.locals
  obtain ⟨_, -, hstarted⟩ := startFunction_next (l := l) (d := d) w.start
  have hfunction : w.returned.target.current.isSome = true := by
    rw [hlocals, Option.isSome_map]
    exact congrArg Moment.inFunction hstarted
  obtain ⟨-, _, -, hended⟩ := ending_next (e := .giveBack 0) (l := l) (d := d) w.giveBack
  right
  rw [(computes_addEntryPointRecord _ _ _ w.record).moment_eq, leaveFunction_next w.leave, hended,
    if_pos hfunction]
  rfl

/-- What a request leaves behind is what it says. -/
theorem handle_next {q : Request} {a : q.Answer} (h : q.handle g = .ok (a, g')) :
    q.Next a (moment g l d)
      (moment g' (l ++ q.entered?.toList) (d ++ (q.dropped? g.currentBlock).toList)) := by
  have hquiet (he : q.entered? = none) (hd : q.dropped? g.currentBlock = none) :
      moment g' (l ++ q.entered?.toList) (d ++ (q.dropped? g.currentBlock).toList)
        = moment g' l d := by
    rw [he, hd, Option.toList_none, List.append_nil, List.append_nil]
  -- Only requests about blocks change the moment. What the others run leaves blocks and their
  -- ids alone, which `computes_handle` says of all of them.
  cases q with
  | isInBlock =>
    obtain ⟨rfl, rfl⟩ := handle_isInBlock.mp h
    rw [hquiet rfl rfl]
    exact ⟨rfl, rfl⟩
  | isInFunction =>
    obtain ⟨_, _, hget, h⟩ := bind_eq_ok.mp h
    obtain ⟨rfl, rfl⟩ := get_eq_ok.mp hget
    obtain ⟨rfl, rfl⟩ := pure_eq_ok.mp h
    rw [hquiet rfl rfl]
    exact ⟨rfl, rfl⟩
  | makeId =>
    obtain ⟨rfl, rfl⟩ := Prod.mk.inj (Except.ok.inj h)
    rw [hquiet rfl rfl]
    exact ⟨rfl, rfl⟩
  | setBlock id =>
    obtain ⟨rfl, rfl⟩ := setBlock_eq_ok.mp h
    rw [hquiet rfl rfl]
    exact ⟨rfl, rfl⟩
  | enterBlock id =>
    have hwrites := enterBlock_spec h
    simp only [Request.entered?, Request.dropped?, Option.toList_some, Option.toList_none,
      List.append_nil, Request.Next,
      moment, hwrites.nextId, hwrites.currentBlock, hwrites.current, hwrites.spliced]
  | leaveAndKill => exact hquiet rfl rfl ▸ (ending_next (e := .kill) h).2
  | leaveAndReturn value => exact hquiet rfl rfl ▸ (ending_next (e := .giveBack value) h).2
  | leaveAndSwitch selector target =>
    exact hquiet rfl rfl ▸ ending_next (e := .switch selector target) h
  | leaveAndBranch target flow => exact hquiet rfl rfl ▸ ending_next (e := .branch target flow) h
  | leaveAndBranchConditional condition yes no =>
    exact hquiet rfl rfl ▸ ending_next (e := .branchIf condition yes no) h
  | emitIf location condition conditionBlock yes no hint =>
    rw [hquiet rfl rfl]
    exact splice_next ((emitIf_eq_splice conditionBlock yes no hint g).symm.trans h)
  | emitPhi => exact hquiet rfl rfl ▸ emitPhi_next h
  | emitLoop location condition before header conditionBlock body next hint =>
    rw [hquiet rfl rfl]
    exact splice_next
      ((emitLoop_eq_splice before header conditionBlock body next hint g).symm.trans h)
  | emitSwitch location selector first defaultLabel cases hint =>
    have hnote :
        (Request.dropped? g.currentBlock
          (.emitSwitch location selector first defaultLabel cases hint)).toList
        = if g.currentBlock = 0 then [first] else [] := by
      simp only [Request.dropped?]
      split <;> rfl
    rw [hnote]
    change Request.Next _ a _ (moment g' (l ++ []) _)
    rw [List.append_nil]
    have hdropped (m : Moment) (hm : moment g' l d = m) : ∀ new,
        moment g' l (d ++ new) = { m with dropped := m.dropped ++ new } := fun _ => hm ▸ rfl
    exact (emitSwitch_next h).imp (hdropped _ · _) (hdropped _ · _)
  | defineFunction location decl =>
    rw [hquiet rfl rfl]
    exact defineFunction_next h
  | leaveFunction => exact hquiet rfl rfl ▸ leaveFunction_next h
  | defineEntryPoint => exact hquiet rfl rfl ▸ emitEntryPoint_next h
  | defineVariable location t name isGlobal init =>
    cases isGlobal with
    | false => exact hquiet rfl rfl ▸ (computes_handle (.inl rfl)).idle h
    | true => exact hquiet rfl rfl ▸ (computes_handle (.inr ⟨rfl, by simp⟩)).idle h
  | findStruct | findTexture | findFunction | load | store | constant | unary | binary | select
    | call | callIntrinsic
  | construct => exact hquiet rfl rfl ▸ (computes_handle (.inl rfl)).idle h
  | defineStruct | defineTexture | defineSampler | defineUniform | markRenderTarget
    | defineTechnique =>
    exact hquiet rfl rfl ▸ (computes_handle (.inr ⟨rfl, by simp⟩)).idle h

end Spirv

/-- What comes behind something in a list without repetitions has a greater index. -/
theorem idxOf_lt_of_sublist {l : List Id} {a b : Id} (h : [a, b].Sublist l) (hl : l.Nodup) :
    l.idxOf a < l.idxOf b := by
  obtain ⟨front, back, rfl, ha, hb⟩ := List.cons_sublist_iff.mp h
  have hdisjoint := List.disjoint_of_nodup_append hl
  have hb : b ∉ front := fun hfront => hdisjoint hfront (List.singleton_sublist.mp hb)
  rw [List.idxOf_append_of_mem ha, List.idxOf_append_of_notMem hb]
  exact Nat.lt_of_lt_of_le (List.idxOf_lt_length_of_mem ha) (Nat.le_add_right _ _)

namespace Moment

/-- Whether ids were handed out before they were entered, once, and code was put into blocks that
were entered behind those that it was entered through, or dropped. -/
structure Sound (m : Moment) : Prop where
  positive : 0 < m.nextId
  nodup : m.entered.Nodup
  made : ∀ id ∈ m.entered, id ≠ 0 ∧ id.toNat < m.nextId
  current : m.current = 0 ∨ m.current ∈ m.entered
  spliced : ∀ a b, m.spliced.get? a = some b →
    [a, b].Sublist m.entered ∨ b = 0 ∧ a ∈ m.entered ∧ a ∈ m.dropped

namespace Sound

variable {m : Moment} {first id : Id} {n : Nat}

theorem idle (h : m.Sound) (hn : n ≥ m.nextId) : Sound { m with nextId := n } where
  positive := Nat.lt_of_lt_of_le h.positive hn
  nodup := h.nodup
  made id hid := ⟨(h.made id hid).1, Nat.lt_of_lt_of_le (h.made id hid).2 hn⟩
  current := h.current
  spliced := h.spliced

theorem leave (h : m.Sound) (hn : n ≥ m.nextId) : Sound { m with nextId := n, current := 0 } :=
  { h.idle hn with current := .inl rfl }

/-- Where nothing is put together any more there is no order to keep. -/
theorem forget (h : m.Sound) (inFunction : Bool) : Sound { m with inFunction, spliced := [] } :=
  { h with spliced := nofun }

theorem select (h : m.Sound) (hid : id = 0 ∨ id ∈ m.entered) : Sound { m with current := id } :=
  { h with current := hid }

theorem enter (h : m.Sound) (hzero : id ≠ 0) (hmade : id.toNat < m.nextId)
    (hnew : id ∉ m.entered) :
    Sound { m with current := id, entered := m.entered ++ [id] } where
  positive := h.positive
  nodup := List.nodup_append.mpr ⟨h.nodup, List.nodup_singleton id, by grind⟩
  made := List.forall_mem_append.mpr ⟨h.made, List.forall_mem_singleton.mpr ⟨hzero, hmade⟩⟩
  current := .inr List.mem_concat_self
  spliced a b hb := (h.spliced a b hb).imp List.sublist_append_of_sublist_left
    fun ⟨hb, ha, hdropped⟩ => ⟨hb, List.mem_append_left _ ha, hdropped⟩

theorem splice (h : m.Sound) (hfirst : [first, m.current].Sublist m.entered
    ∨ m.current = 0 ∧ first ∈ m.entered ∧ first ∈ m.dropped) :
    (m.splice first).Sound where
  positive := h.positive
  nodup := h.nodup
  made := h.made
  current := h.current
  spliced a b hb := by
    by_cases ha : a = first
    · subst ha
      obtain rfl := Option.some.inj ((Table.get?_set_self _ _ _).symm.trans hb)
      exact hfirst
    · exact h.spliced a b ((Table.get?_set_of_ne ha).symm.trans hb)

theorem note (h : m.Sound) : (m.note first).Sound :=
  { h with spliced := fun a b hb => (h.spliced a b hb).imp_right fun ⟨hb, ha, hdropped⟩ =>
      ⟨hb, ha, List.mem_append_left _ hdropped⟩ }

/-- Code is put into a block that was entered later, or into none, which has a
greater index, too. -/
theorem idxOf_lt (h : m.Sound) {a b : Id} (hb : m.spliced.get? a = some b) :
    m.entered.idxOf a < m.entered.idxOf b := by
  obtain hlater | ⟨rfl, ha, -⟩ := h.spliced a b hb
  · exact idxOf_lt_of_sublist hlater h.nodup
  · rw [List.idxOf_of_notMem fun hzero => (h.made 0 hzero).1 rfl]
    exact List.idxOf_lt_length_of_mem ha

end Sound
end Moment

namespace Spirv.State

variable {s : State} {l : List Id}

/-- Whether the code that was entered through a block was put into another. -/
def Follows (s : State) (a b : Id) : Prop :=
  s.spliced.get? a = some b

theorem not_transGen_follows (h : ∀ a b, s.Follows a b → l.idxOf a < l.idxOf b) (id : Id) :
    ¬Relation.TransGen s.Follows id id := by
  intro hcircle
  have hless := Relation.TransGen.lift (p := (· < ·)) l.idxOf h _ _ hcircle
  rw [Function.onFun, Relation.transGen_eq_self] at hless
  exact Nat.lt_irrefl _ hless

/-- Every step leaves fewer blocks that can still be followed, so that there are as many
steps as it takes. -/
theorem final_go (h : ∀ a b, s.Follows a b → l.idxOf a < l.idxOf b) (n : Nat) (id : Id)
    (hn : (s.spliced.filter fun e => l.idxOf id ≤ l.idxOf e.1).length ≤ n) :
    Relation.ReflTransGen s.Follows id (final.go s n id)
      ∧ s.spliced.get? (final.go s n id) = none := by
  have hmem {a b : Id} (hb : s.Follows a b) : (a, b) ∈ s.spliced := by
    obtain ⟨front, back, heq, -⟩ := List.lookup_eq_some_iff.mp hb
    exact heq ▸ List.mem_append_right _ List.mem_cons_self
  -- By induction on the fuel. Each step leads to a block that was entered later, so that fewer
  -- entries lie behind than there is fuel.
  induction n generalizing id with
  | zero =>
    refine ⟨.refl, Option.eq_none_iff_forall_ne_some.mpr fun b hb => ?_⟩
    have hnil := List.length_eq_zero_iff.mp (Nat.le_zero.mp hn)
    exact List.filter_eq_nil_iff.mp hnil (id, b) (hmem hb) (by simp)
  | succ n ih =>
    rw [final.go]
    cases hb : s.spliced.get? id with
    | none => exact ⟨.refl, hb⟩
    | some b =>
      have hless := h id b hb
      have hfewer : (s.spliced.filter fun e => l.idxOf b ≤ l.idxOf e.1).length
          < (s.spliced.filter fun e => l.idxOf id ≤ l.idxOf e.1).length := by
        have hsame : (s.spliced.filter fun e => l.idxOf b ≤ l.idxOf e.1)
            = (s.spliced.filter fun e => l.idxOf id ≤ l.idxOf e.1).filter fun e =>
              l.idxOf b ≤ l.idxOf e.1 := by
          rw [List.filter_filter]
          refine List.filter_congr fun e _ => ?_
          grind
        rw [hsame, List.length_filter_lt_length_iff_exists]
        exact ⟨(id, b), List.mem_filter.mpr ⟨hmem hb, by simp⟩, by simpa using hless⟩
      obtain ⟨hfollows, hnone⟩ := ih b (Nat.le_of_lt_succ (Nat.lt_of_lt_of_le hfewer hn))
      exact ⟨.head hb hfollows, hnone⟩

/-- Code is followed to a block from which it was not put elsewhere. -/
theorem final_spec (h : ∀ a b, s.Follows a b → l.idxOf a < l.idxOf b) (id : Id) :
    Relation.ReflTransGen s.Follows id (s.final id) ∧ s.spliced.get? (s.final id) = none :=
  final_go h _ id (List.length_filter_le _ _)

end Spirv.State
end ShaderEffect

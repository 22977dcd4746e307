import ShaderEffect.Proofs.Numbering.Blocks
import ShaderEffect.Proofs.Spirv.Definitions
import ShaderEffect.Proofs.Spirv.ControlFlow

/-!
Every id that is taken while a source is read was handed out before, and is taken once.

While the body of a function is generated, ids are either taken by instructions that find their
place at once, or supplied for the code that is put together when the function is left. Between the
parts of a source all of them have found their place.
-/
namespace ShaderEffect.Spirv

open Generator

/-- Whether no block ends with an instruction that has a result. -/
def State.Closes (s : State) : Prop :=
  ∀ b, ∀ t ∈ (s.block b).terminator, t.result = 0

/-- Whether the ids that find their place between two states, and others besides, were handed out
between them, each of them once. -/
structure Accounts (ids : List Id) (g g' : Generator State) : Prop where
  nextId : g.nextId ≤ g'.nextId
  closes : g.target.Closes → g'.target.Closes
  taken : g.target.Closes → g'.nextId ≤ 2 ^ 32 → ∀ r ≠ 0,
    g'.target.taken r + ids.count r ≤ g.target.taken r + handed g.nextId g'.nextId r

variable {g g₁ g' : Generator State} {ids more : List Id}

namespace Accounts

theorem of_taken (hnext : g'.nextId = g.nextId)
    (htaken : ∀ r, g'.target.taken r = g.target.taken r)
    (hcloses : g.target.Closes → g'.target.Closes) : Accounts [] g g' where
  nextId := Nat.le_of_eq hnext.symm
  closes := hcloses
  taken _ _ r _ := by rw [htaken, hnext, handed_self]; exact Nat.le_refl _

theorem of_target (hnext : g'.nextId = g.nextId) (htarget : g'.target = g.target) :
    Accounts [] g g' :=
  of_taken hnext (fun _ => by rw [htarget]) fun h => by rwa [htarget]

theorem trans (h : Accounts ids g g₁) (h' : Accounts more g₁ g') :
    Accounts (ids ++ more) g g' where
  nextId := Nat.le_trans h.nextId h'.nextId
  closes hg := h'.closes (h.closes hg)
  taken hg hcount r hr := by
    have hfirst := h.taken hg (Nat.le_trans h'.nextId hcount) r hr
    have hsecond := h'.taken (h.closes hg) hcount r hr
    rw [List.count_append, ← handed_add h.nextId h'.nextId]
    omega

end Accounts

theorem results_terminator {s : State} (h : s.Closes) (b : Id) {r : Id} (hr : r ≠ 0) :
    results (s.block b).terminator.toList r = 0 := by
  cases ht : (s.block b).terminator with
  | none => rfl
  | some t => simp [h b t ht, Ne.symm hr]

theorem Writes.closes {v : BasicBlock} (h : Writes g g' v)
    (hv : g.target.Closes → ∀ t ∈ v.terminator, t.result = 0)
    (hg : g.target.Closes) : g'.target.Closes := by
  intro b t ht
  rw [State.block, h.blocks] at ht
  split at ht
  · exact hv hg t ht
  · exact hg b t ht

theorem Writes.accounts {v : BasicBlock} (h : Writes g g' v)
    (hv : g.target.Closes → ∀ t ∈ v.terminator, t.result = 0) : Accounts [] g g' :=
  .of_taken h.nextId (fun _ => by rw [h.rest]; rfl) (h.closes hv)

theorem Extends.closes (h : Extends g g') (hg : g.target.Closes) : g'.target.Closes := by
  intro b t ht
  by_cases hb : b = g.currentBlock
  · obtain ⟨new, -, hcode⟩ := h.code
    rw [hb, hcode] at ht
    exact hg _ t ht
  · rw [State.block, h.others b hb] at ht
    exact hg b t ht

/-- What is computed in the current block takes the ids that are handed out for it. -/
theorem Extends.accounts (h : Extends g g') (haccrues : Accrues g g') :
    Accounts (((g'.target.block g.currentBlock).body.drop
      (g.target.block g.currentBlock).body.length).map (·.result)) g g' where
  nextId := h.nextId
  closes := h.closes
  taken hg hcount r hr := by
    obtain ⟨new, -, hcode⟩ := h.code
    have htaken := haccrues.taken hcount g.currentBlock r hr
    rw [State.code_eq_flatten, State.code_eq_flatten, hcode, if_neg (Ne.symm hr)] at htaken
    have hnew : results new r = (new.map (·.result)).count r := rfl
    rw [hcode]
    simp only [BasicBlock.append, BasicBlock.flatten, results_append, List.drop_left] at htaken ⊢
    omega

/-- Some run. How states follow each other does not depend on what it comes to. -/
abbrev someRun : Horizon where
  count := 1
  failed := True
  typed := True
  pos := Nat.one_pos
  lt := by decide

instance : someRun.Typed := ⟨trivial⟩

theorem accrues_handle {q : Request} {answer : q.Answer} (hq : q.movesCode = false)
    (h : q.handle g = .ok (answer, g')) :
    Accrues g g' :=
  (handle_accrues (w := someRun) q hq).course h

theorem accounts_plain {q : Request} {answer : q.Answer} (hq : q.isPlain = true)
    (h : q.handle g = .ok (answer, g')) :
    Accounts ((noteOf observe q g g').map (·.result)) g g' := by
  have hmoves : q.movesCode = false := by cases q <;> first | rfl | cases hq
  rw [note_plain h hq]
  exact (computes_handle (.inl hq) h).accounts (accrues_handle hmoves h)

theorem accounts_splice {entered : Id} {code : List Instruction} {u : Unit}
    (h : splice entered code g = .ok (u, g')) :
    Accounts [] g g' := by
  obtain ⟨g₁, hwrites, rfl⟩ := splice_spec h
  have hsplice := hwrites.accounts fun hg t ht => hg _ t ht
  exact ⟨hsplice.nextId, hsplice.closes, hsplice.taken⟩

theorem accounts_ending {e : Ending} {ended : Id} (h : e.handle g = .ok (ended, g'))
    (haccrues : Accrues g g') :
    Accounts ((noteOf observe e.request g g').map (·.result)) g g' := by
  obtain ⟨otherwise, i, hrun, hi, hterminator⟩ := handle_ending h
  obtain ⟨hg, -, rfl⟩ | ⟨hg, t, g₁, ht, hterminate⟩ := terminateOr_cases hrun
  · -- There is nothing to end.
    refine ⟨Nat.le_refl _, id, fun hcloses _ r hr => ?_⟩
    have hnote : results (noteOf observe e.request g' g') r = 0 := by
      cases e <;> simp [noteOf, Ending.request, Request.isQuiet, observe,
        results_terminator hcloses _ hr]
    rw [handed_self]
    exact Nat.le_of_eq (congrArg _ hnote)
  · have hextends := hi ht
    obtain ⟨-, g₂, hwrites, heq⟩ := terminate_spec hterminate
    obtain ⟨new, -, hcode⟩ := hextends.code
    have htarget : g'.target = g₂.target := heq ▸ rfl
    have hblock : g'.target.block g.currentBlock
        = { (g.target.block g.currentBlock).append new with terminator := some t } := by
      rw [htarget, ← hcode, ← hextends.current]
      exact hwrites.block
    have hresult := (hterminator t g₁ ht).1.result
    refine ⟨haccrues.nextId, fun hcloses => ?_, fun hcloses hcount r hr => ?_⟩
    · rw [htarget]
      exact hwrites.closes (fun _ t' ht' => Option.some.inj ht' ▸ hresult)
        (hextends.closes hcloses)
    · have htaken := haccrues.taken hcount g.currentBlock r hr
      have hnote : ((noteOf observe e.request g g').map (·.result)).count r ≤ results new r := by
        change results (noteOf observe e.request g g') r ≤ _
        cases e <;> simp [noteOf, Ending.request, Request.isQuiet, observe, hblock,
          BasicBlock.append, hresult, Ne.symm hr]
      rw [State.code_eq_flatten, State.code_eq_flatten, hblock, if_neg (Ne.symm hr)] at htaken
      have hold := results_terminator hcloses g.currentBlock hr
      simp only [BasicBlock.append, BasicBlock.flatten, results_append, hold] at htaken
      omega

theorem accounts_emitPhi (location : Location) (condition : Id)
    {conditionBlock trueValue trueBlock falseValue falseBlock id : Id} {t : Ty}
    (h : emitPhi conditionBlock trueValue trueBlock falseValue falseBlock t g = .ok (id, g')) :
    Accounts
      ((observe (.emitPhi location condition conditionBlock trueValue trueBlock falseValue
        falseBlock t) g g').map (·.result)) g g' := by
  obtain ⟨g₁, hsplice, hvalue⟩ := emitPhi_eq_ok.mp h
  obtain ⟨t', g₂, htype, hemit⟩ := bind_eq_ok.mp hvalue
  have hextends : Extends g₁ g' :=
    (computes_valueType t _ htype).trans (computes_emit (by decide) _ _ hemit)
  have haccrues : Accrues g₁ g' :=
    ((valueType_numbers (w := someRun) (Γ := Proper someRun t)).course htype).later
      ((emit_numbers (w := someRun) (Γ := someRun.Made t')).course hemit)
  obtain ⟨g₃, hwrites, heq⟩ := splice_spec hsplice
  have hcurrent : g₁.currentBlock = g.currentBlock := heq ▸ hwrites.currentBlock
  have hlength : (g₁.target.block g.currentBlock).body.length
      = (phiCode g.target g.currentBlock conditionBlock trueBlock falseBlock).length
        + (g.target.block g.currentBlock).body.length := by
    rw [heq]
    refine (congrArg (fun b : BasicBlock => b.body.length) hwrites.block).trans ?_
    exact List.length_append
  have haccounts := hextends.accounts haccrues
  rw [hcurrent, hlength] at haccounts
  exact (accounts_splice hsplice).trans haccounts

theorem accounts_setBlock {id : Id} {b : BasicBlock}
    (hb : g.target.Closes → ∀ t ∈ b.terminator, t.result = 0) :
    Accounts [] g { g with target := { g.target with blocks := g.target.blocks.set id b } } :=
  .of_taken rfl (fun _ => rfl) fun hg c t ht => by
    rw [State.block, Table.get?_set] at ht
    split at ht
    · exact hb hg t ht
    · exact hg c t ht

theorem accounts_emitSwitch {selectorBlock defaultLabel : Id} {cases : List (UInt32 × Id)}
    {hint : ControlHint} {u : Unit}
    (h : emitSwitch selectorBlock defaultLabel cases hint g = .ok (u, g')) : Accounts [] g g' := by
  obtain rfl | ⟨body, t, t', code, hget, hresult, hsplice⟩ := emitSwitch_cases h
  · exact .of_target rfl rfl
  · -- The selector's block leads to other blocks, and still has no result at its end.
    change Accounts ([] ++ []) g g'
    refine .trans (accounts_setBlock fun hg t'' ht'' => ?_) (accounts_splice hsplice)
    have hblock : g.target.block selectorBlock = ⟨body, some t⟩ := by
      rw [State.block, hget, Option.getD_some]
    exact Option.some.inj ht'' ▸ hresult.trans (hg selectorBlock t (by rw [hblock]; rfl))

/-- A request that is made for the body of a function accounts for the ids that it supplies. -/
theorem accounts_handle {q : Request} {answer : q.Answer} (hq : q.isInside = true)
    (h : q.handle g = .ok (answer, g')) :
    Accounts (supplied ⟨q, answer, noteOf observe q g g'⟩) g g' := by
  -- An id is paid for once, by the request that makes it or hands it out. Constructs move
  -- instructions between blocks and define nothing new.
  cases q with
  | isInBlock =>
    obtain ⟨-, rfl⟩ := handle_isInBlock.mp h
    exact .of_target rfl rfl
  | makeId =>
    obtain ⟨rfl, rfl⟩ := Prod.mk.inj (Except.ok.inj h)
    refine ⟨Nat.le_succ _, id, fun _ hcount r _ => Nat.le_of_eq ?_⟩
    rw [handed_succ hcount]
    simp [supplied, List.count_cons]
  | setBlock id =>
    obtain ⟨-, rfl⟩ := setBlock_eq_ok.mp h
    exact .of_target rfl rfl
  | enterBlock id =>
    have hentered : Accounts [] g { g with lastBlock := g.currentBlock, currentBlock := id } :=
      .of_target rfl rfl
    exact hentered.trans ((enterBlock_spec h).accounts fun hg t ht => hg id t ht)
  | leaveAndKill => exact accounts_ending (e := .kill) h (accrues_handle rfl h)
  | leaveAndReturn value => exact accounts_ending (e := .giveBack value) h (accrues_handle rfl h)
  | leaveAndSwitch selector target =>
    exact accounts_ending (e := .switch selector target) h (accrues_handle rfl h)
  | leaveAndBranch target flow =>
    exact accounts_ending (e := .branch target flow) h (accrues_handle rfl h)
  | leaveAndBranchConditional condition yes no =>
    exact accounts_ending (e := .branchIf condition yes no) h (accrues_handle rfl h)
  | emitIf location condition conditionBlock yes no hint =>
    exact accounts_splice ((emitIf_eq_splice conditionBlock yes no hint g).symm.trans h)
  | emitPhi location condition => exact accounts_emitPhi location condition h
  | emitLoop location condition before header conditionBlock body next hint =>
    exact accounts_splice
      ((emitLoop_eq_splice before header conditionBlock body next hint g).symm.trans h)
  | emitSwitch => exact accounts_emitSwitch h
  | defineVariable location t name isGlobal init =>
    cases isGlobal with
    | false => exact accounts_plain rfl h
    | true => cases hq
  | isInFunction | findStruct | findTexture | findFunction | load | store | constant | unary
    | binary | select
  | call | callIntrinsic | construct => exact accounts_plain rfl h
  | _ => cases hq

/-- Requests that are made for the body of a function account for the ids that they supply. -/
theorem accounts_runs {es : List (Entry (List Instruction))} (hes : areInside es = true)
    (h : Runs observe g es g') :
    Accounts (supply es) g g' := by
  induction es generalizing g with
  | nil =>
    obtain rfl := h
    exact .of_target rfl rfl
  | cons e es ih =>
    obtain ⟨g₁, hrun, hnote, hruns⟩ := h
    rw [areInside_cons, Bool.and_eq_true] at hes
    have hfirst := accounts_handle hes.1 hrun
    rw [← hnote] at hfirst
    exact hfirst.trans (ih hes.2 hruns)

/-- Where other blocks stay as they are, what is taken has found its place. -/
theorem Spends.taken_le {id : Id} (h : Spends id g g')
    (hothers : ∀ b ≠ g.currentBlock, g'.target.blocks.get? b = g.target.blocks.get? b)
    (hcount : g'.nextId ≤ 2 ^ 32) {r : Id} (hr : r ≠ 0) :
    g'.target.taken r ≤ g.target.taken r + handed g.nextId g'.nextId r
      + if id = r then 1 else 0 := by
  have hne : g.currentBlock + 1 ≠ g.currentBlock := by simp
  have htaken := h.taken hcount (g.currentBlock + 1) r hr
  have hcode : g'.target.code (g.currentBlock + 1) = g.target.code (g.currentBlock + 1) := by
    rw [State.code, State.code, hothers _ hne]
  rw [hcode] at htaken
  omega

/-- A function is started with ids of its own. -/
theorem accounts_startFunction {location : Location} {decl made : FunctionDecl}
    (h : startFunction location decl g = .ok (made, g')) : Accounts [] g g' := by
  obtain ⟨new, -, hdeclares⟩ := startFunction_spec h
  have haccrues : Accrues g g' :=
    (startFunction_numbers (w := someRun) (Γ := Proper someRun decl) id).course h
  refine ⟨haccrues.nextId, fun hg b t ht => ?_, fun _ hcount r hr => ?_⟩
  · by_cases hb : b = g.currentBlock
    · rw [hb, hdeclares.terminator] at ht
      exact hg _ t ht
    · rw [State.block, hdeclares.others b hb] at ht
      exact hg b t ht
  · have htaken := haccrues.taken_le (fun b hb => hdeclares.others b hb) hcount hr
    rw [if_neg (Ne.symm hr)] at htaken
    exact htaken

theorem accounts_defineFunction {location : Location} {decl made : FunctionDecl}
    (h : defineFunction location decl g = .ok (made, g')) : Accounts [] g g' := by
  obtain ⟨started, g₁, hstart, h⟩ := bind_eq_ok.mp h
  obtain ⟨_, g₂, hmodify, h⟩ := bind_eq_ok.mp h
  obtain ⟨-, rfl⟩ := pure_eq_ok.mp h
  have hrecord : Accounts [] g₁ g₂ := by
    obtain rfl := modify_eq_ok.mp hmodify
    exact .of_target rfl rfl
  exact (accounts_startFunction hstart).trans hrecord

/-- What holds between the parts of a source: all ids that are taken were handed out, and
are taken once. -/
structure Accounted (g : Generator State) : Prop extends Resting g where
  closes : g.target.Closes
  taken : ∀ r ≠ 0, g.target.taken r ≤ handed 0 g.nextId r

/-- Leaving a function takes the ids of its code. -/
theorem State.collect_taken (s : State) (last : Id) {r : Id} (hr : r ≠ 0) :
    (s.collect last).taken r ≤ s.taken r + results (s.code last) r := by
  have hplaced := results_le_of_subperm (s.collect_placed last) r
  rw [results_cons, results_append, if_neg (Ne.symm hr)] at hplaced
  have hkept :
      (s.collect last).extendedSet = s.extendedSet ∧ (s.collect last).uniformType = s.uniformType
      ∧ (s.collect last).uniformVariable = s.uniformVariable := by
    rw [State.collect]
    cases s.current <;> exact ⟨rfl, rfl, rfl⟩
  simp only [taken, hkept.1, hkept.2.1, hkept.2.2]
  omega

theorem State.collect_closes {s : State} {f : FunctionCode} (h : s.current = some f) (last : Id) :
    (s.collect last).Closes := by
  rw [State.collect, h]
  exact fun b t ht => absurd ht (Option.not_mem_none t)

/-- The block of a wrapper takes the id that was made for it. -/
theorem Wrapping.takes_label {decl : FunctionDecl} {isPixelShader : Bool}
    (w : Wrapping decl isPixelShader g g')
    (hwraps : Wraps w.id w.started w.entered w.called w.returned)
    (hid : w.entered.nextId ≤ 2 ^ 32) (r : Id) :
    w.entered.nextId = w.started.nextId + 1
      ∧ results (w.entered.target.code w.id) r = handed w.started.nextId (w.started.nextId + 1) r
      ∧ w.entered.target.taken r = w.started.target.taken r := by
  obtain ⟨hmake, hmade⟩ := Prod.mk.inj (Except.ok.inj w.make)
  have hentered := (enterBlock_spec w.enter).rest
  have hnext : w.entered.nextId = w.started.nextId + 1 := by rw [hentered, ← hmade]
  have hlt : w.started.nextId + 1 ≤ 2 ^ 32 := hnext ▸ hid
  refine ⟨hnext, ?_, by rw [hentered, ← hmade]; rfl⟩
  rw [code_of_holds hwraps.starts, handed_succ hlt, hmake]
  exact Strand.taken_enter _

namespace Accounted

/-- What was accounted for in a part of a source is accounted for in all of it. -/
theorem of_accounts (h : Accounted g) (hresting : Resting g') (haccounts : Accounts ids g g')
    (hid : g'.nextId ≤ 2 ^ 32) : Accounted g' where
  toResting := hresting
  closes := haccounts.closes h.closes
  taken r hr := by
    have hbefore := h.taken r hr
    have htaken := haccounts.taken h.closes hid r hr
    rw [← handed_add (Nat.zero_le g.nextId) haccounts.nextId]
    omega

/-- Values that are computed between the parts of a source are accounted for. -/
theorem computed (h : Accounted g) (hextends : Extends g g') (haccrues : Accrues g g')
    (hid : g'.nextId ≤ 2 ^ 32) :
    Accounted g' :=
  h.of_accounts (h.toResting.extends hextends) (hextends.accounts haccrues) hid

/-- Once a function is left, the ids of its code have found their place. -/
theorem of_leave {f : FunctionCode} {u : Unit} (hresting : Resting g')
    (hf : g₁.target.current = some f) (hleave : leaveFunction g₁ = .ok (u, g'))
    (htaken : ∀ r ≠ 0, g₁.target.taken r + results (g₁.target.code g₁.lastBlock) r
      ≤ handed 0 g₁.nextId r) :
    Accounted g' := by
  obtain rfl := leaveFunction_eq_ok hleave
  refine ⟨hresting, State.collect_closes hf _, fun r hr => ?_⟩
  exact Nat.le_trans (g₁.target.collect_taken g₁.lastBlock hr) (htaken r hr)

theorem procedure {test : Evaluation (List Instruction) → Prop} {f : Procedure (List Instruction)}
    (h : Accounted g) (hall : f.body.All test) (hruns : RunsInRange observe g f.entries g') :
    Accounted g' := by
  obtain ⟨g₁, g₂, hcollects⟩ := h.toResting.collects hall hruns
  have haccounts := (accounts_defineFunction hcollects.define).trans
    (accounts_runs f.areInside_inside hcollects.inside.1)
  obtain ⟨code, hcode, -⟩ := hcollects.declared.inside hcollects.isInside
  refine of_leave hcollects.resting hcode hcollects.leave fun r hr => ?_
  have hbefore := h.taken r hr
  have htaken := haccounts.taken h.closes hcollects.inside.2 r hr
  have hfunction : results (g₂.target.code g₂.lastBlock) r ≤ (supply f.inside).count r := by
    rw [code_of_holds hcollects.holds]
    exact Strand.taken_function_le hr f
  rw [← handed_add (Nat.zero_le g.nextId) haccounts.nextId]
  rw [List.nil_append] at htaken
  omega

theorem entryPoint {decl : FunctionDecl} {isPixelShader : Bool} {u : Unit} (h : Accounted g)
    (hid : g'.nextId ≤ 2 ^ 32) (hrun : emitEntryPoint decl isPixelShader g = .ok (u, g')) :
    Accounted g' := by
  obtain ⟨isNew, g₁, hadd, hmade⟩ := emitEntryPoint_cases hrun
  have hadds := computes_addEntryPoint _ _ hadd
  have haccrues : Accrues g g₁ := (Numbers.addEntryPoint (w := someRun) (Γ := True)).course hadd
  obtain rfl | ⟨⟨w⟩⟩ := hmade
  · exact h.computed hadds haccrues hid
  have hrecords := computes_addEntryPointRecord _ _ _ w.record
  have hreturned := Nat.le_trans (countsUp_leaveFunction w.leave) (Nat.le_trans hrecords.nextId hid)
  obtain ⟨hdeclared, -⟩ := (h.toResting.extends hadds).startFunction w.start
  have hwraps := w.wraps hdeclared hreturned
  obtain ⟨k, hholds, -⟩ := hwraps.code
  obtain ⟨f, hf, -⟩ := hdeclared.inside hwraps.inside
  rw [← hwraps.last] at hholds
  refine computed
    (of_leave (hdeclared.resting hwraps.inside hwraps.nextId hwraps.block hholds w.leave) hf w.leave
    fun r hr => ?_) hrecords
      ((addEntryPointRecord_numbers (w := someRun) (Γ := True)).course w.record) hid
  have hstarted := Nat.le_trans hwraps.nextId hreturned
  have hstarts := accounts_startFunction w.start
  have h₁ := h.computed hadds haccrues (Nat.le_trans hstarts.nextId hstarted)
  have hinside : Accrues w.entered w.returned :=
    ((callAsStage_numbers (w := someRun) (Γ := Proper someRun decl)).course w.call).later
      ((leaveAndReturn_numbers (w := someRun) (Γ := True)).course w.giveBack)
  obtain ⟨hnext, hlabel, htaken⟩ :=
    w.takes_label hwraps (Nat.le_trans hinside.nextId hreturned) r
  have hlater : w.started.nextId + 1 ≤ w.returned.nextId := hnext ▸ hinside.nextId
  have hbefore := h₁.taken r hr
  have hstart := hstarts.taken h₁.closes hstarted r hr
  have hcalled := hinside.taken hreturned w.id r hr
  rw [htaken, hlabel, if_neg (Ne.symm hr), hnext] at hcalled
  rw [List.count_nil] at hstart
  rw [hwraps.last,
    ← handed_add (Nat.zero_le g₁.nextId) (Nat.le_trans hstarts.nextId hwraps.nextId),
    ← handed_add hstarts.nextId hwraps.nextId,
    ← handed_add (Nat.le_add_right w.started.nextId 1) hlater]
  omega

/-- Between the parts of a source, all ids are accounted for. -/
theorem item {s : Surroundings} {i : Item (List Instruction)} (h : Accounted g) (hi : i.Proper s)
    (hruns : RunsInRange observe g i.entries g') : Accounted g' := by
  cases i with
  | outside e he =>
    obtain ⟨q, answer, note⟩ := e
    obtain ⟨⟨g₁, hrun, -, rfl⟩, hid⟩ := hruns
    by_cases hentry : ∃ decl isPixelShader, q = .defineEntryPoint decl isPixelShader
    · obtain ⟨decl, isPixelShader, rfl⟩ := hentry
      exact h.entryPoint hid hrun
    · have hmoves : q.movesCode = false := by
        cases q with
        | defineEntryPoint decl isPixelShader => exact absurd ⟨decl, isPixelShader, rfl⟩ hentry
        | _ => first | rfl | cases he
      refine h.computed (computes_handle (.inr ⟨he, fun decl isPixelShader heq => ?_⟩) hrun)
        (accrues_handle hmoves hrun) hid
      exact hentry ⟨decl, isPixelShader, heq⟩
  | evaluate t =>
    exact h.of_accounts (h.toResting.extends (extends_evaluation hruns.1 h.current))
      (accounts_runs t.areInside_entries hruns.1) hruns.2
  | procedure f => exact h.procedure hi.1 hruns

theorem items {s : Surroundings} {items : List (Item (List Instruction))} (h : Accounted g)
    (hitems : ∀ i ∈ items, i.Proper s)
    (hruns : RunsInRange observe g (items.flatMap Item.entries) g') :
    Accounted g' := by
  induction items generalizing g with
  | nil =>
    obtain ⟨rfl, -⟩ := runsInRange_nil.mp hruns
    exact h
  | cons i items ih =>
    obtain ⟨g₁, hi, hrest⟩ := models.runsInRange_append.mp hruns
    exact ih (h.item (hitems i List.mem_cons_self) hi)
      (fun j hj => hitems j (List.mem_cons_of_mem _ hj)) hrest

end Accounted

end ShaderEffect.Spirv

import ShaderEffect.Proofs.Numbering.Instructions
import ShaderEffect.Proofs.Spirv.Weaving

/-!
The ids that the code of a function defines.

Putting blocks together takes no ids. What the code of a function defines are the ids of its blocks,
which were made for them, and the results of what was computed in them, each as often as it was made
or computed. What is left of a block whose code was moved is never used again.
-/
namespace ShaderEffect.Spirv

/-- The ids that a request supplies: the one that it makes, or the results of what it computes.
Putting blocks together computes nothing. -/
def supplied : Entry (List Instruction) → List Id
  | ⟨.makeId, id, _⟩ => [id]
  | ⟨.emitIf .., _, _⟩ | ⟨.emitLoop .., _, _⟩ | ⟨.emitSwitch .., _, _⟩ => []
  | e => e.note.map (·.result)

/-- The ids that some requests supply. -/
def supply (es : List (Entry (List Instruction))) : List Id :=
  es.flatMap supplied

@[simp] theorem supply_nil : supply [] = [] :=
  rfl

@[simp] theorem supply_append (es fs : List (Entry (List Instruction))) :
    supply (es ++ fs) = supply es ++ supply fs :=
  List.flatMap_append

@[simp] theorem supply_cons (e : Entry (List Instruction)) (es : List (Entry (List Instruction))) :
    supply (e :: es) = supplied e ++ supply es :=
  List.flatMap_cons

theorem supplied_step (s : Step (List Instruction)) :
    supplied s.val = s.val.note.map (·.result) := by
  obtain ⟨⟨q, answer, note⟩, hplain⟩ := s
  cases q with
  | makeId | emitIf | emitLoop | emitSwitch => cases hplain
  | _ => rfl

@[simp] theorem default_instructions : (default : List Instruction) = [] :=
  rfl

namespace Strand

/-- How often an id is taken by the code of a strand. -/
def taken (k : Strand) (r : Id) : Nat :=
  results (k.close.flatMap Block.code) r

variable {r : Id}

theorem taken_eq (k : Strand) :
    k.taken r = results (k.done.flatMap Block.code) r + (if k.label = r then 1 else 0)
    + results k.body r + results k.terminator.toList r := by
  simp only [taken, close, Block.code, List.flatMap_append, List.flatMap_cons, List.flatMap_nil,
    results_append, results_cons, Option.toList_none, List.append_nil]
  omega

@[simp] theorem taken_enter (id : Id) : (weave.enter id).taken r = if id = r then 1 else 0 := by
  simp [taken_eq, weave]

theorem taken_behind (k : Strand) (blocks : List Block) :
    (k.behind blocks).taken r = results (blocks.flatMap Block.code) r + k.taken r := by
  simp only [taken_eq, behind, List.flatMap_append, results_append]
  omega

theorem taken_append_le (k : Strand) (values : List Instruction) :
    (k.append values).taken r ≤ k.taken r + results values r := by
  have hfilter :=
    results_le_of_subperm (values.filter_sublist (p := (·.op ∉ structural))).subperm r
  simp only [taken_eq, append, results_append]
  omega

/-- What a block ends with is what was computed to end it, or defines nothing. -/
theorem results_terminator_le (note : List Instruction) (e : Ending) (hr : r ≠ 0) :
    results (note.filter (·.op ∉ structural)) r + results [Spirv.terminator note e] r
      ≤ results note r := by
  have hfilter :=
    results_le_of_subperm (note.filter_sublist (p := (·.op ∉ structural))).subperm r
  have hnone {i : Instruction} (hi : i.result = 0) : results [i] r = 0 := by
    simp [hi, Ne.symm hr]
  cases e with
  | giveBack value =>
    rw [Spirv.terminator]
    cases hfind : note.find? fun i => decide (i.op = Op.ret ∨ i.op = Op.returnValue) with
    | none => simpa [hnone] using hfilter
    | some t =>
      have hop : t.op ∈ structural := by
        have hfound := List.find?_some hfind
        obtain hop | hop := of_decide_eq_true hfound <;> rw [hop] <;> decide
      have ht : t ∈ note.filter fun i => !decide (i.op ∉ structural) :=
        List.mem_filter.mpr ⟨List.mem_of_find?_eq_some hfind, by simpa using hop⟩
      have hone := results_le_of_subperm (List.singleton_sublist.mpr ht).subperm r
      have hall :=
        results_le_of_subperm (List.filter_append_perm (·.op ∉ structural) note).subperm r
      rw [results_append] at hall
      rw [Option.getD_some]
      omega
  | kill | switch | branch | branchIf => rw [hnone rfl]; exact hfilter

theorem taken_leave_le (k : Strand) (e : Ending) (note : List Instruction) (hr : r ≠ 0) :
    (weave.leave k e note).taken r ≤ k.taken r + results note r := by
  have hterminator := results_terminator_le note e hr
  simp only [taken_eq, weave, append, results_append, Option.toList_some]
  omega

/-- An instruction in front of the end of a block defines nothing. -/
theorem results_close (k : Strand) (merge : Instruction) (hmerge : merge.result = 0)
    (hr : r ≠ 0) :
    results ((k.close merge).flatMap Block.code) r = k.taken r := by
  simp only [taken_eq, close, Block.code, List.flatMap_append, List.flatMap_cons, List.flatMap_nil,
    results_append, results_cons, results_nil, Option.toList_some, List.append_nil, hmerge,
    Ne.symm hr, if_false]
  omega

section Weave

variable (k : Strand) (hr : r ≠ 0)

include hr

theorem taken_goOn_le (target : Id) : (weave.goOn k target).taken r ≤ k.taken r :=
  k.taken_leave_le (.goOn target) [] hr

theorem taken_goOnUnless_le (ended : Bool) (target : Id) :
    (weave.goOnUnless ended k target).taken r ≤ k.taken r := by
  cases ended with
  | true => exact Nat.le_refl _
  | false => exact k.taken_goOn_le hr target

theorem taken_goOnIf_le (condition yes no : Id) :
    (weave.goOnIf k condition yes no).taken r ≤ k.taken r :=
  k.taken_leave_le (.branchIf condition yes no) [] hr

theorem taken_ifElse (s : Selection (List Instruction)) (test yes no : Strand) :
    (weave.ifElse s k test yes no).taken r = k.taken r + test.taken r + yes.taken r
      + no.taken r := by
  have htest := test.results_close (mergeOf s.merge s.hint) rfl hr
  simp only [weave, taken_behind, List.flatMap_append, results_append, htest]
  simp only [taken]
  omega

theorem taken_phi_le (merge : Id) (note : List Instruction) (test : Strand)
    (yes no : Option Strand) :
    (weave.phi merge note k test yes no).taken r
      ≤ k.taken r + test.taken r + yes.elim 0 (taken · r) + no.elim 0 (taken · r)
        + results note r := by
  have harm (arm : Option Strand) :
      results (((arm.map close).getD []).flatMap Block.code) r = arm.elim 0 (taken · r) := by
    cases arm <;> rfl
  have htest := test.results_close (mergeOf merge 0) rfl hr
  refine Nat.le_trans (taken_append_le _ note) ?_
  simp only [taken_behind, List.flatMap_append, results_append, htest, harm]
  omega

theorem taken_loop (l : Looping (List Instruction)) (before header : Strand) (test : Option Strand)
    (body next : Strand) :
    (weave.loop l k before header test body next).taken r = k.taken r + before.taken r
      + header.taken r + test.elim 0 (taken · r) + body.taken r + next.taken r := by
  have htest : results (((test.map close).getD []).flatMap Block.code) r
      = test.elim 0 (taken · r) := by
    cases test <;> rfl
  have hheader := header.results_close (loopMergeOf l.merge l.next l.hint) rfl hr
  simp only [weave, taken_behind, List.flatMap_append, results_append, hheader, htest]
  simp only [taken]
  omega

omit hr in
/-- No section is reached twice. -/
theorem results_reachable_le (sections : List (Labels × Strand)) :
    results (((reachable sections).flatMap (·.2.close)).flatMap Block.code) r
      ≤ (sections.map (·.2.taken r)).sum := by
  induction sections with
  | nil => exact Nat.le_refl _
  | cons s sections ih =>
    simp only [reachable, List.flatMap_append, results_append] at ih
    by_cases hlit : s.1.literals = [] <;> by_cases hdefault : s.1.isDefault = true <;>
      simp [reachable, hlit, hdefault, taken] at ih ⊢ <;> omega

theorem taken_switch_le (d : Dispatch (List Instruction)) (selector : Strand)
    (sections : List (Labels × Strand)) :
    (weave.switch d k selector sections).taken r
      ≤ k.taken r + selector.taken r + (sections.map (·.2.taken r)).sum := by
  have hreached := results_reachable_le (r := r) sections
  have hclose :=
    ({ selector with terminator := some (switchOf d k sections) } : Strand).results_close
      (mergeOf d.merge d.hint) rfl hr
  have hselector : ({ selector with terminator := some (switchOf d k sections) } : Strand).taken r
      ≤ selector.taken r := by
    simp [taken_eq, switchOf, Ne.symm hr]
  simp only [weave, taken_behind, List.flatMap_append, results_append, hclose]
  omega

omit hr in
theorem taken_add_le (s : Step (List Instruction)) :
    (weave.add k s.val.note).taken r ≤ k.taken r + (supplied s.val).count r := by
  rw [supplied_step]
  exact k.taken_append_le s.val.note

omit hr in
theorem taken_addSteps_le (steps : List (Step (List Instruction))) :
    (weave.addSteps k steps).taken r ≤ k.taken r + (supply (Step.entries steps)).count r := by
  induction steps generalizing k with
  | nil => exact Nat.le_refl _
  | cons s steps ih =>
    have hstep := k.taken_add_le (r := r) s
    have hrest := ih (weave.add k s.val.note)
    simp only [Step.entries, List.map_cons, supply_cons, List.count_append] at hrest ⊢
    exact Nat.le_trans hrest (by omega)

theorem taken_circuitTest_le (c : Circuit (List Instruction)) :
    (weave.circuitTest c k).taken r ≤ k.taken r + (supply (Step.entries c.tests)).count r :=
  Nat.le_trans (taken_goOnIf_le _ hr ..) (k.taken_addSteps_le c.tests)

theorem taken_choiceTest_le (c : Choice (List Instruction)) :
    (weave.choiceTest c k).taken r ≤ k.taken r + (supply (Step.entries c.tests)).count r :=
  Nat.le_trans (taken_goOnIf_le _ hr ..) (k.taken_addSteps_le c.tests)

omit hr in
theorem supply_circuit (c : Circuit (List Instruction)) (t : Evaluation (List Instruction)) :
    supply (Evaluation.circuit c t).entries = c.right :: c.merge :: (supply t.entries
      ++ (supply (Step.entries c.tests)
        ++ (supply (Step.entries c.loads) ++ c.note.map (·.result)))) := by
  simp [Evaluation.entries, Parser.Branches.opening, Circuit.closing, supplied]

omit hr in
theorem supply_choice (c : Choice (List Instruction)) (yes no : Evaluation (List Instruction)) :
    supply (Evaluation.choice c yes no).entries
      = c.merge :: c.yes :: c.no :: (supply yes.entries ++ (supply no.entries
      ++ (supply (Step.entries c.tests)
        ++ (supply (Step.entries c.yesLoads) ++ (supply (Step.entries c.noLoads)
        ++ c.note.map (·.result)))))) := by
  simp [Evaluation.entries, Parser.Arms.opening, Choice.between, Choice.closing, supplied]

theorem taken_remainder_le (t : Evaluation (List Instruction)) :
    (weave.remainder k t).taken r ≤ k.taken r + (supply t.entries).count r := by
  induction t generalizing k with
  | nothing | folded => exact Nat.le_add_right _ _
  | step s =>
    rw [Evaluation.entries, supply_cons, supply_nil, List.append_nil]
    exact k.taken_add_le s
  | andThen x y ihx ihy =>
    have hx := ihx k
    have hy := ihy (weave.remainder k x)
    rw [Evaluation.entries, supply_append, List.count_append, Weave.remainder]
    split <;> omega
  | circuit c t =>
    have htest := k.taken_circuitTest_le hr c
    rw [supply_circuit]
    simp only [List.count_cons, List.count_append]
    exact Nat.le_trans htest (by omega)
  | choice c yes no =>
    have htest := k.taken_choiceTest_le hr c
    rw [supply_choice]
    simp only [List.count_cons, List.count_append]
    exact Nat.le_trans htest (by omega)

omit k in
theorem taken_operand_le (t : Evaluation (List Instruction)) (block : Id)
    (loads : List (Step (List Instruction)))
    (merge : Id) : (weave.operand t block loads merge).taken r
      ≤ (if block = r then 1 else 0) + (supply t.entries).count r
        + (supply (Step.entries loads)).count r := by
  have hremainder := (weave.enter block).taken_remainder_le hr t
  have hloads := (weave.remainder (weave.enter block) t).taken_addSteps_le (r := r) loads
  rw [taken_enter] at hremainder
  exact Nat.le_trans (taken_goOn_le _ hr merge) (by omega)

/-- An evaluation takes the ids of the blocks that were made for it, and the results of
what was computed. -/
theorem taken_run_le (t : Evaluation (List Instruction)) :
    (weave.run k t).taken r ≤ k.taken r + (supply t.entries).count r := by
  induction t generalizing k with
  | nothing | folded => exact Nat.le_add_right _ _
  | step s =>
    rw [Evaluation.entries, supply_cons, supply_nil, List.append_nil]
    exact k.taken_add_le s
  | andThen x y ihx ihy =>
    have hx := ihx k
    have hy := ihy (weave.run k x)
    rw [Evaluation.entries, supply_append, List.count_append, Weave.run]
    omega
  | circuit c t =>
    have htest := k.taken_circuitTest_le hr c
    have hright := taken_operand_le hr t c.right c.loads c.merge
    have hphi := (weave.enter c.merge).taken_phi_le hr c.merge c.note (weave.circuitTest c k)
      (some (weave.operand t c.right c.loads c.merge)) none
    have hnote : results c.note r = (c.note.map (·.result)).count r := rfl
    rw [taken_enter] at hphi
    rw [supply_circuit, Weave.run]
    simp only [List.count_cons, List.count_append, beq_iff_eq, Option.elim_some,
      Option.elim_none] at hphi ⊢
    omega
  | choice c yes no =>
    have htest := k.taken_choiceTest_le hr c
    have hyes := taken_operand_le hr yes c.yes c.yesLoads c.merge
    have hno := taken_operand_le hr no c.no c.noLoads c.merge
    have hphi := (weave.enter c.merge).taken_phi_le hr c.merge c.note (weave.choiceTest c k)
      (some (weave.operand yes c.yes c.yesLoads c.merge))
      (some (weave.operand no c.no c.noLoads c.merge))
    have hnote : results c.note r = (c.note.map (·.result)).count r := rfl
    rw [taken_enter] at hphi
    rw [supply_choice, Weave.run]
    simp only [List.count_cons, List.count_append, beq_iff_eq, Option.elim_some] at hphi ⊢
    omega

theorem taken_nextCode_le (t : Evaluation (List Instruction)) (next : Id) (e : Ending) :
    (weave.nextCode t next e).taken r ≤ (if next = r then 1 else 0)
      + (supply t.entries).count r := by
  have hremainder := (weave.enter next).taken_remainder_le hr t
  have hrun := (weave.enter next).taken_run_le hr t
  have hleave := (weave.run (weave.enter next) t).taken_leave_le e [] hr
  rw [taken_enter] at hremainder hrun
  rw [results_nil] at hleave
  rw [Weave.nextCode]
  split
  · exact hremainder
  · exact Nat.le_trans hleave hrun

theorem taken_testCode_le (l : Looping (List Instruction)) (first : Id)
    (t : Option (Evaluation (List Instruction))) :
    (weave.testCode l first t).taken r
      ≤ (if first = r then 1 else 0) + (t.elim [] (supply ·.entries)).count r := by
  cases t with
  | none =>
    rw [← taken_enter (r := r) first]
    exact taken_goOn_le _ hr l.body
  | some t =>
    have hrun := (weave.enter first).taken_run_le hr t
    rw [taken_enter] at hrun
    exact Nat.le_trans (taken_goOnIf_le _ hr ..) hrun

omit k

mutual

/-- A statement takes the ids of the blocks that were made for it, and the results of what was
computed in them. -/
theorem taken_flow_le : (t : Statement (List Instruction)) → (k : Strand) →
    (weave.flow k t).taken r ≤ k.taken r + (supply t.entries).count r
  | .nothing, _ => Nat.le_add_right _ _
  | .andThen x y, k => by
    -- The second part goes on with the code of the first one, and what both were supplied with adds
    -- up.
    have hx := taken_flow_le x k
    have hy := taken_flow_le y (weave.flow k x)
    rw [Weave.flow, Statement.entries, supply_append, List.count_append]
    omega
  | .nested body, k => taken_flow_le body k
  | .evaluate _ value, k => k.taken_run_le hr value
  | .leave value exit, k => by
    have hvalue := k.taken_run_le hr value
    have hleave := (weave.run k value).taken_leave_le exit.ending exit.note hr
    have hexit : supplied exit.entry = exit.note.map (·.result) := by cases exit <;> rfl
    have hnote : results exit.note r = (exit.note.map (·.result)).count r := rfl
    rw [Weave.flow]
    simp only [Statement.entries, statementStart, supply_append, supply_cons, supply_nil,
      List.count_append, hexit, List.append_nil]
    omega
  | .branch s test yes no, k => by
    have htest := k.taken_run_le hr test
    have hends := taken_goOnIf_le (weave.run k test) hr s.condition s.yes s.no
    have hyes := taken_flow_le yes (weave.enter s.yes)
    have hno := taken_flow_le no (weave.enter s.no)
    have hyesEnd := taken_goOnUnless_le (weave.flow (weave.enter s.yes) yes) hr yes.ends s.merge
    have hnoEnd := taken_goOnUnless_le (weave.flow (weave.enter s.no) no) hr no.ends s.merge
    rw [taken_enter] at hyes hno
    rw [Weave.flow, taken_ifElse _ hr, taken_enter]
    simp [Statement.entries, statementStart, goOn, goOnIf, supplied, List.count_cons]
    omega
  | .switch d selector sections, k => by
    have hselector := k.taken_run_le hr selector
    have hsections := taken_sections_le d.merge sections (weave.enter d.first)
    have hswitch := (weave.enter d.merge).taken_switch_le hr d (weave.run k selector)
      (weave.sectionCodes (weave.enter d.first) sections)
    rw [taken_enter] at hsections hswitch
    rw [Weave.flow]
    simp [Statement.entries, statementStart, supplied, List.count_cons]
    omega
  | .forLoop l first start test step body, k => by
    have hstart := k.taken_run_le hr start
    have hbefore := taken_goOn_le (weave.run k start) hr l.header
    have hheader := taken_goOn_le (weave.enter l.header) hr first
    have htest := taken_testCode_le hr l first test
    have hbody := taken_flow_le body (weave.enter l.body)
    have hbodyEnd := taken_goOnUnless_le (weave.flow (weave.enter l.body) body) hr body.ends l.next
    have hnext := taken_nextCode_le hr step l.next (.goOn l.header)
    rw [taken_enter] at hheader hbody
    rw [Weave.flow, taken_loop _ hr, taken_enter]
    cases test <;> simp [Statement.entries, statementStart, Looping.makes, Looping.opens,
      Looping.closes, goOn, goOnIf, supplied, List.count_cons] at htest ⊢ <;> omega
  | .whileLoop l first test body, k => by
    have hbefore := taken_goOn_le k hr l.header
    have hheader := taken_goOn_le (weave.enter l.header) hr first
    have htest := taken_testCode_le hr l first (some test)
    have hbody := taken_flow_le body (weave.enter l.body)
    have hbodyEnd := taken_goOnUnless_le (weave.flow (weave.enter l.body) body) hr body.ends l.next
    have hnext := taken_goOn_le (weave.enter l.next) hr l.header
    rw [taken_enter] at hheader hbody hnext
    rw [Weave.flow, taken_loop _ hr, taken_enter]
    simp [Statement.entries, statementStart, Looping.makes, Looping.opens, Looping.closes, goOn,
      goOnIf, supplied, List.count_cons] at htest ⊢
    omega
  | .doLoop l body test, k => by
    have hbefore := taken_goOn_le k hr l.header
    have hheader := taken_goOn_le (weave.enter l.header) hr l.body
    have hbody := taken_flow_le body (weave.enter l.body)
    have hbodyEnd := taken_goOnUnless_le (weave.flow (weave.enter l.body) body) hr body.ends l.next
    have hnext := taken_nextCode_le hr test l.next (.branchIf l.condition l.header l.merge)
    rw [taken_enter] at hheader hbody
    rw [Weave.flow, taken_loop _ hr, taken_enter]
    simp [Statement.entries, statementStart, Looping.makes, Looping.opens, Looping.closes, goOn,
      goOnIf, supplied, List.count_cons]
    omega

/-- Sections take the ids of the blocks that were made for them, and the results of what was
computed in them. -/
theorem taken_sections_le (merge : Id) : (s : Sections (List Instruction)) → (k : Strand) →
    ((weave.sectionCodes k s).map (·.2.taken r)).sum
      ≤ k.taken r + (supply (s.entries merge)).count r
  | .last l values body, k => by
    have hvalues := k.taken_run_le hr values
    have hbody := taken_flow_le body (weave.run k values)
    simp [Weave.sectionCodes, Sections.entries, goOn, supplied]
    omega
  | .more l values body next rest, k => by
    have hvalues := k.taken_run_le hr values
    have hbody := taken_flow_le body (weave.run k values)
    have hrest := taken_sections_le merge rest (weave.enter next)
    rw [taken_enter] at hrest
    simp [Weave.sectionCodes, Sections.entries, goOn, supplied, List.count_cons]
    omega

end

/-- A function takes the ids of the blocks that were made for it, and the results of what was
computed in them. -/
theorem taken_function_le (f : Procedure (List Instruction)) :
    (weave.function f).taken r ≤ (supply f.inside).count r := by
  have hbody := taken_flow_le hr f.body (weave.enter f.entry)
  rw [taken_enter] at hbody
  rw [Weave.function]
  cases hfalls : f.fallsOut with
  | none =>
    simp [Procedure.inside, hfalls, supplied, List.count_cons]
    omega
  | some fallsOut =>
    have hleave :=
      (weave.flow (weave.enter f.entry) f.body).taken_leave_le (.giveBack 0) fallsOut.2 hr
    have hnote : results fallsOut.2 r = (fallsOut.2.map (·.result)).count r := rfl
    simp [Procedure.inside, hfalls, supplied, List.count_cons]
    omega

end Weave
end Strand
end ShaderEffect.Spirv

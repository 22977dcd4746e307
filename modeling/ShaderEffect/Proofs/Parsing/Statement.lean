import ShaderEffect.Proofs.Parsing.Variable
import ShaderEffect.Proofs.Statement

namespace ShaderEffect

variable {π : Type} [Inhabited π]

/-- What all evaluations are where short circuits are not asked for. -/
def Surroundings.Allows (s : Surroundings) (t : Evaluation π) : Prop :=
  s.noShortCircuit = true → t.isStraight = true

/-- Statements whose jumps lead where the surroundings say. -/
def Shape.statements (s : Surroundings) : Shape π where
  Holds known es known' := ∃ t : Statement π, t.entries = es ∧ t.All s.Allows
    ∧ t.Scoped s.breakTargets s.continueTargets ∧ t.Grounded known ∧ t.extend known = known'
  nil known := ⟨.nothing, by simp only [Statement.entries], by simp only [Statement.All],
    by simp only [Statement.Scoped], by simp only [Statement.Grounded], by
      simp only [Statement.extend]⟩
  append := by
    rintro known _ _ _ _ ⟨t, rfl, hall, hscoped, hgrounded, rfl⟩
      ⟨u, rfl, hall', hscoped', hgrounded', rfl⟩
    refine ⟨.andThen t u, ?_, ?_, ?_, ?_, ?_⟩
    · simp only [Statement.entries]
    · simpa only [Statement.All] using ⟨hall, hall'⟩
    · simpa only [Statement.Scoped] using ⟨hscoped, hscoped'⟩
    · simpa only [Statement.Grounded] using ⟨hgrounded, hgrounded'⟩
    · simp only [Statement.extend]
  subset := by
    rintro known _ _ ⟨t, _, _, _, _, rfl⟩
    exact t.subset_extend known

namespace Parser

/-- Whether all statements that lie inside of others request what they should. -/
structure Recurse.ReadsStatements (π : Type) [Inhabited π] (recurse : Recurse) : Prop extends
    recurse.ReadsExpressions π where
  statement (newScope : Bool) (s : Surroundings) (r : Reader) (known : List Fact) :
    Does (.statements s : Shape π) s r known (recurse (.statement newScope))

variable {s : Surroundings} {r : Reader} {known : List Fact} {recurse : Recurse}

/-- A statement as it is requested. -/
theorem statement_results {ok : Bool} {es : List (Entry π)} (t : Statement π)
    (hentries : t.entries = es) (hall : t.All s.Allows)
    (hscoped : t.Scoped s.breakTargets s.continueTargets) (hgrounded : t.Grounded known) :
    Results (.statements s) known es (whether ok) fun _ _ => True :=
  fun _ _ => ⟨_, ⟨t, hentries, hall, hscoped, hgrounded, rfl⟩, trivial⟩

theorem parseStatements_does (hrec : recurse.ReadsStatements π) :
    Does (.statements s : Shape π) s r known (parseStatements recurse) := by
  refine Parsing.loop_values (fun _ _ => True) trivial fun _ known r _ => ?_
  simp only [Parsing.ite_iff, Parsing.bind_read_iff, Parsing.pure_iff]
  refine fun _ _ _ _ _ _ => ⟨fun _ => Results.done trivial, fun _ => ?_⟩
  refine .bind_does (hrec.statement true s _ known) (fun _ => ?_) fun _ _ _ => ?_
  · exact rfl
  · exact Results.done trivial

theorem parseBlock_does (hrec : recurse.ReadsStatements π) (newScope : Bool) :
    Does (.statements s : Shape π) s r known (parseBlock recurse newScope) := by
  have hskip {r : Reader} : Parsing (do
      skipBlock
      return false : ParseM Bool) s r fun (_ : List (Entry π)) ok _ => whether ok = none := by
    rw [Parsing.bind_read_iff]
    exact fun _ _ _ => rfl
  simp only [Does, parseBlock, Parsing.ite_iff, Parsing.bind_read_iff, Parsing.pure_iff]
  refine fun _ _ _ => ⟨fun _ => Results.none, fun _ => ?_⟩
  cases newScope with
  | false =>
    refine ⟨fun h => absurd h Bool.false_ne_true, fun _ => ?_⟩
    refine .bind_does (parseStatements_does hrec) (fun _ => ?_) fun _ _ _ => ?_
    · exact hskip
    · exact Parsing.read_does
  | true =>
    refine ⟨fun _ _ _ _ => ?_, fun h => absurd rfl h⟩
    refine .bind_does (parseStatements_does hrec) (fun _ => ?_) fun _ _ _ => ?_
    · simp only [if_true, Parsing.bind_read_iff]
      exact fun _ _ _ => hskip
    · simp only [if_true, Parsing.bind_read_iff]
      exact fun _ _ _ => Parsing.read_does

theorem parseJump_results (location : Location) {targets : List Id} {flow : Flow} (code : Int)
    (message : String) (htargets : ∀ target ended, targets.head? = some target →
      (Exit.jump target ended flow : Exit π).Scoped s.breakTargets s.continueTargets) :
    Parsing (parseJump location targets flow code message) s r fun (es : List (Entry π)) ok _ =>
      Results (.statements s) known (statementStart ++ es) (whether ok) fun _ _ => True := by
  cases targets with
  | nil =>
    simp only [parseJump, Parsing.bind_read_iff, Parsing.pure_iff]
    exact fun _ _ _ => Results.none
  | cons target rest =>
    refine .bind_quiet rfl fun ended => ?_
    rw [Parsing.read_iff]
    intro ok _ _
    refine statement_results (.leave .nothing (.jump target ended flow)) ?_ ?_ ?_ ?_
    · simp only [Statement.entries, Evaluation.entries, Exit.entry, List.append_nil]
    · simp only [Statement.All]
      exact fun _ => rfl
    · simpa only [Statement.Scoped] using htargets target ended rfl
    · simp only [Statement.Grounded, Evaluation.Grounded]

/-- A return statement, behind the requests made in front of every statement. -/
theorem parseReturn_results (hrec : recurse.ReadsStatements π) (location : Location) :
    Parsing (parseReturn recurse location) s r fun (es : List (Entry π)) ok _ =>
      Results (.statements s) known (statementStart ++ es) (whether ok) fun _ _ => True := by
  have hreturn (t : Evaluation π) (value ended : Id) (note : π) {ok : Bool} {es : List (Entry π)}
      (ht : s.Allows t) (hgrounded : t.Grounded known)
      (hes : t.entries ++ [⟨.leaveAndReturn value, ended, note⟩] = es) :
      Results (.statements s) known (statementStart ++ es) (whether ok) fun _ _ => True := by
    refine statement_results (.leave t (.giveBack value ended note)) ?_ ?_ ?_ ?_
    · simp only [Statement.entries, Exit.entry, ← hes, List.append_assoc]
    · simpa only [Statement.All] using ht
    · simp only [Statement.Scoped, Exit.Scoped]
    · simpa only [Statement.Grounded] using hgrounded
  simp only [parseReturn, Parsing.bind_get_iff, Parsing.bind_read_iff, Parsing.ite_iff,
    Parsing.pure_iff]
  refine fun _ _ _ =>
    ⟨fun _ => ⟨fun _ _ _ _ _ _ _ => Results.none, fun _ => .bind_emit fun ended note => ?_⟩,
      fun _ => ?_⟩
  · rw [Parsing.read_iff]
    exact fun ok _ _ => hreturn .nothing 0 ended note (fun _ => rfl) trivial rfl
  · refine .bind_option_holds known (hrec.sequence s _ known) (fun es _ => ?_)
      fun e es known' _ hholds _ => ?_
    · rw [Parsing.read_iff]
      intro ok _ hok
      simp only [failAfter, bind_eq_ok, pure_eq_ok] at hok
      obtain ⟨_, _, _, rfl, _⟩ := hok
      exact Results.none
    · obtain ⟨t, rfl, ht, hgrounded, rfl⟩ := hholds
      simp only [Parsing.ite_iff, Parsing.bind_read_iff, Parsing.bind_except_iff, Parsing.pure_iff]
      refine ⟨fun _ _ _ _ _ _ _ => Results.none,
        fun _ => ⟨fun _ _ _ _ _ _ _ => Results.none, fun _ _ _ _ e' _ => ?_⟩⟩
      refine .bind_emit fun value note => .bind_emit fun ended note' => ?_
      rw [Parsing.read_iff]
      intro ok _ _
      let load : Step π := ⟨⟨.load e' false, value, note⟩, rfl⟩
      refine hreturn (.andThen t (.step load)) value ended note' (fun hs => ?_)
        ⟨hgrounded, trivial⟩ ?_
      · simp only [Evaluation.isStraight, ht hs, Bool.and_self]
      · simp only [Evaluation.entries, List.append_assoc, List.cons_append, List.nil_append, load]

theorem parseElse_does (hrec : recurse.ReadsStatements π) :
    Does (.statements s : Shape π) s r known (parseElse recurse) := by
  rw [Does, parseElse, Parsing.bind_read_iff]
  intro found _ _
  cases found with
  | false => exact Results.done trivial
  | true => exact hrec.statement true s _ known

theorem parseIf_results (hrec : recurse.ReadsStatements π) (location : Location)
    (hint : ControlHint) :
    Parsing (parseIf recurse location hint) s r fun (es : List (Entry π)) ok _ =>
      Results (.statements s) known (statementStart ++ es) (whether ok) fun _ _ => True := by
  unfold parseIf
  refine .bind_quiet rfl fun yes => .bind_quiet rfl fun no => .bind_quiet rfl fun merge => ?_
  refine .bind_option_holds known (parseCondition_gives hrec.toReadsExpressions _)
    (fun _ _ => Results.none) fun condition es known₁ _ hholds hcondition => ?_
  obtain ⟨test, rfl, htest, hgtest, rfl⟩ := hholds
  refine .bind_quiet rfl fun conditionEnd => .bind_quiet rfl fun _ => ?_
  refine .bind_does_holds _ (hrec.statement true s _ (test.extend known)) (fun _ _ => Results.none)
    fun es known₂ _ hholds => ?_
  obtain ⟨first, rfl, hfirst, hsfirst, hgfirst, rfl⟩ := hholds
  refine .bind_quiet rfl fun yesEnd => .bind_quiet rfl fun _ => ?_
  refine .bind_does_holds (first.extend (test.extend known)) (parseElse_does hrec)
    (fun _ _ => Results.none) fun es known₃ _ hholds => ?_
  obtain ⟨second, rfl, hsecond, hssecond, hgsecond, rfl⟩ := hholds
  refine .bind_quiet rfl fun noEnd => .bind_quiet rfl fun _ => .bind_emit fun _ note => ?_
  let selection : Selection π :=
    { yes, no, merge, condition, conditionEnd, yesEnd, noEnd, location, hint, note }
  refine statement_results (.branch selection test first second) ?_ ?_ ?_ ?_
  · simp only [Statement.entries, goOn, goOnIf, List.append_assoc, List.cons_append,
      List.nil_append, selection]
  · simpa only [Statement.All] using ⟨htest, hfirst, hsecond⟩
  · simpa only [Statement.Scoped] using ⟨hsfirst, hssecond⟩
  · simpa only [Statement.Grounded] using ⟨hgtest, hcondition, hgfirst, hgsecond⟩

/-- The surroundings of the body of a loop. -/
abbrev LoopBlocks.inside (b : LoopBlocks) (s : Surroundings) : Surroundings :=
  { s with
    breakTargets := b.merge :: s.breakTargets
    continueTargets := b.next :: s.continueTargets }

/-- What the body of a loop requests, up to the block in which it ended. -/
def IsLoopBody (s : Surroundings) (b : LoopBlocks) (known : List Fact) (es : List (Entry π))
    (ended : Id) (body : Statement π) : Prop :=
  body.entries ++ [.quiet (.leaveAndBranch b.next .plain) ended] = es ∧ body.All s.Allows
    ∧ body.Scoped (b.merge :: s.breakTargets) (b.next :: s.continueTargets)
    ∧ body.Grounded known

theorem parseLoopBody_parses (hrec : recurse.ReadsStatements π) (b : LoopBlocks) (newScope : Bool)
    (known : List Fact) :
    Parsing (parseLoopBody recurse b newScope) s r fun (es : List (Entry π)) ended _ =>
      ∀ id, ended = some id → ∃ body, IsLoopBody s b known es id body := by
  have hbody (r : Reader) :
      Does (.statements (b.inside s) : Shape π) s r known
        (withReader b.inside (recurse (.statement newScope))) :=
    hrec.statement newScope (b.inside s) r known
  unfold parseLoopBody
  refine .bind_does_holds known (hbody r) (fun _ _ => ?_) fun es _ _ hholds =>
    .bind_quiet rfl fun ended => ?_
  · exact fun _ h => by cases h
  · intro id hid
    obtain rfl := Option.some.inj hid
    obtain ⟨body, rfl, hall, hscoped, hgrounded, -⟩ := hholds
    exact ⟨body, rfl, hall, hscoped, hgrounded⟩

theorem parseWhile_results (hrec : recurse.ReadsStatements π) (location : Location)
    (hint : ControlHint) :
    Parsing (parseWhile recurse location hint) s r fun (es : List (Entry π)) ok _ =>
      Results (.statements s) known (statementStart ++ es) (whether ok) fun _ _ => True := by
  simp only [parseWhile, makeLoopBlocks, openLoop, closeLoop, bind_assoc, pure_bind]
  refine .bind_quiet rfl fun merge => .bind_quiet rfl fun header => .bind_quiet rfl fun next =>
    .bind_quiet rfl fun body => .bind_quiet rfl fun first => ?_
  refine .bind_quiet rfl fun before => .bind_quiet rfl fun _ => .bind_quiet rfl fun headerEnd =>
    .bind_quiet rfl fun _ => ?_
  refine .bind_option_holds known (parseCondition_gives hrec.toReadsExpressions _)
    (fun _ _ => Results.none) fun condition es _ _ hholds hcondition => ?_
  obtain ⟨test, rfl, htest, hgtest, rfl⟩ := hholds
  refine .bind_quiet rfl fun conditionEnd => .bind_quiet rfl fun _ => ?_
  refine .bind (parseLoopBody_parses hrec ⟨merge, header, next, body⟩ false (test.extend known))
    fun es bodyEnd _ hbody => ?_
  cases bodyEnd with
  | none => exact Results.none
  | some bodyEnd =>
    obtain ⟨inner, rfl, hinner, hsinner, hginner⟩ := hbody bodyEnd rfl
    refine .bind_quiet rfl fun _ => .bind_quiet rfl fun nextEnd => .bind_quiet rfl fun _ =>
      .bind_emit fun _ note => ?_
    let loop : Looping π :=
      { merge, header, next, body, before, headerEnd, condition, conditionEnd, bodyEnd, nextEnd,
        location, hint, note }
    refine statement_results (.whileLoop loop first test inner) ?_ ?_ ?_ ?_
    · simp only [Statement.entries, Looping.makes, Looping.opens, Looping.closes, goOn, goOnIf,
        List.append_assoc, List.cons_append, List.nil_append, loop]
    · simpa only [Statement.All] using ⟨htest, hinner⟩
    · simpa only [Statement.Scoped] using hsinner
    · simpa only [Statement.Grounded] using ⟨hgtest, hcondition, hginner⟩

theorem parseDo_results (hrec : recurse.ReadsStatements π) (location : Location)
    (hint : ControlHint) :
    Parsing (parseDo recurse location hint) s r fun (es : List (Entry π)) ok _ =>
      Results (.statements s) known (statementStart ++ es) (whether ok) fun _ _ => True := by
  simp only [parseDo, makeLoopBlocks, openLoop, closeLoop, bind_assoc, pure_bind]
  refine .bind_quiet rfl fun merge => .bind_quiet rfl fun header => .bind_quiet rfl fun next =>
    .bind_quiet rfl fun body => ?_
  refine .bind_quiet rfl fun before => .bind_quiet rfl fun _ => .bind_quiet rfl fun headerEnd =>
    .bind_quiet rfl fun _ => ?_
  refine .bind (parseLoopBody_parses hrec ⟨merge, header, next, body⟩ true known)
    fun es bodyEnd _ hbody => ?_
  cases bodyEnd with
  | none => exact Results.none
  | some bodyEnd =>
    obtain ⟨inner, rfl, hinner, hsinner, hginner⟩ := hbody bodyEnd rfl
    refine .bind_quiet rfl fun _ => ?_
    simp only [Parsing.bind_read_iff, Parsing.ite_iff, Parsing.pure_iff]
    refine fun _ _ _ => ⟨fun _ => Results.none, fun _ => ?_⟩
    refine .bind_option_holds (inner.extend known) (parseCondition_gives hrec.toReadsExpressions _)
      (fun _ _ => Results.none) fun condition es _ _ hholds hcondition => ?_
    obtain ⟨test, rfl, htest, hgtest, rfl⟩ := hholds
    simp only [Parsing.bind_read_iff, Parsing.ite_iff, Parsing.pure_iff]
    refine fun _ _ _ => ⟨fun _ => Results.none,
      fun _ => .bind_quiet rfl fun nextEnd => .bind_quiet rfl fun _ =>
      .bind_emit fun _ note => ?_⟩
    let loop : Looping π :=
      { merge, header, next, body, before, headerEnd, condition, conditionEnd := 0, bodyEnd,
        nextEnd, location, hint, note }
    refine statement_results (.doLoop loop inner test) ?_ ?_ ?_ ?_
    · simp only [Statement.entries, Looping.makes, Looping.opens, Looping.closes, goOn, goOnIf,
        List.append_assoc, List.cons_append, List.nil_append, loop]
    · simpa only [Statement.All] using ⟨hinner, htest⟩
    · simpa only [Statement.Scoped] using hsinner
    · simpa only [Statement.Grounded] using ⟨hginner, hgtest, hcondition⟩

theorem parseForStart_does (hrec : recurse.ReadsStatements π) :
    Does (.evaluations s : Shape π) s r known (parseForStart recurse) := by
  rw [Does, parseForStart, Parsing.bind_read_iff]
  intro type _ _
  cases type with
  | some t => exact parseLocals_does hrec.toReadsExpressions t
  | none =>
    simp only [Parsing.bind_read_iff, Parsing.ite_iff, Parsing.pure_iff]
    exact fun _ _ _ => ⟨fun _ => Results.done trivial,
      fun _ => isSome_does (hrec.sequence _ _ _)⟩

theorem parseForStep_does (hrec : recurse.ReadsStatements π) :
    Does (.evaluations s : Shape π) s r known (parseForStep recurse) := by
  simp only [Does, parseForStep, Parsing.bind_read_iff, Parsing.ite_iff, Parsing.pure_iff]
  exact fun _ _ _ => ⟨fun _ => Results.done trivial, fun _ => isSome_does (hrec.sequence _ _ _)⟩

/-- The requests of the condition of a for loop, up to the block in which it ended. -/
def forTestEntries (b : LoopBlocks) (condition ended : Id) :
    Option (Evaluation π) → List (Entry π)
  | some test =>
    test.entries ++ [.quiet (.leaveAndBranchConditional condition b.body b.merge) ended]
  | none => [.quiet (.leaveAndBranch b.body .plain) ended]

theorem parseForCondition_parses (hrec : recurse.ReadsStatements π) (b : LoopBlocks)
    (known : List Fact) :
    Parsing (parseForCondition recurse b) s r fun (es : List (Entry π)) result _ =>
      ∀ c, result = some c → ∃ test, forTestEntries b c.1 c.2 test = es
        ∧ ∀ t ∈ test, s.Allows t ∧ t.Grounded known ∧ .value c.1 ∈ t.extend known := by
  simp only [parseForCondition, Parsing.bind_read_iff, Parsing.ite_iff]
  refine fun _ _ _ => ⟨fun _ => .bind_quiet rfl fun ended => ?_, fun _ => ?_⟩
  · intro c hc
    obtain rfl := Option.some.inj hc
    exact ⟨none, rfl, fun t ht => by cases ht⟩
  · refine .bind_option_holds known (hrec.sequence s _ known) (fun _ _ c hc => by cases hc)
      fun e es known₁ _ hfirst he => ?_
    refine .bind_option_holds known₁ (loadScalar_gives he rfl _) (fun _ _ c hc => by cases hc)
      fun condition es' known₂ _ hsecond hcondition => .bind_quiet rfl fun ended => ?_
    intro c hc
    obtain rfl := Option.some.inj hc
    obtain ⟨test, hentries, htest, hgrounded, rfl⟩ :=
      (Shape.evaluations s).append hfirst hsecond
    refine ⟨some test, ?_, fun t ht => ?_⟩
    · simp only [forTestEntries, hentries, List.append_assoc]
    · obtain rfl := Option.some.inj ht
      exact ⟨htest, hgrounded, hcondition⟩

theorem parseFor_results (hrec : recurse.ReadsStatements π) (location : Location)
    (hint : ControlHint) :
    Parsing (parseFor recurse location hint) s r fun (es : List (Entry π)) ok _ =>
      Results (.statements s) known (statementStart ++ es) (whether ok) fun _ _ => True := by
  simp only [parseFor, makeLoopBlocks, openLoop, closeLoop, bind_assoc, pure_bind,
    Parsing.bind_read_iff, Parsing.ite_iff, Parsing.pure_iff]
  -- A part that goes wrong leaves no result, so that the statement is put together from parts that
  -- are right.
  refine fun _ _ _ => ⟨fun _ => Results.none, fun _ => ?_⟩
  refine .bind_does_holds known (parseForStart_does hrec) (fun _ _ => Results.none)
    fun es _ _ hholds => ?_
  obtain ⟨start, rfl, hstart, hgstart, rfl⟩ := hholds
  simp only [Parsing.bind_read_iff, Parsing.ite_iff, Parsing.pure_iff, Bool.not_true,
    Bool.false_eq_true, if_false]
  refine fun _ _ _ => ⟨fun _ => Results.none, fun _ => ?_⟩
  refine .bind_quiet rfl fun merge => .bind_quiet rfl fun header => .bind_quiet rfl fun next =>
    .bind_quiet rfl fun body => .bind_quiet rfl fun first => ?_
  refine .bind_quiet rfl fun before => .bind_quiet rfl fun _ => .bind_quiet rfl fun headerEnd =>
    .bind_quiet rfl fun _ => ?_
  refine .bind (parseForCondition_parses hrec ⟨merge, header, next, body⟩ (start.extend known))
    fun es found _ hfound => ?_
  cases found with
  | none => exact Results.none
  | some found =>
    obtain ⟨condition, conditionEnd⟩ := found
    obtain ⟨test, rfl, htest⟩ := hfound (condition, conditionEnd) rfl
    simp only [Parsing.bind_read_iff, Parsing.ite_iff, Parsing.pure_iff]
    refine fun _ _ _ => ⟨fun _ => Results.none, fun _ => .bind_quiet rfl fun _ => ?_⟩
    let tested := (test.elim id fun t known => t.extend known) (start.extend known)
    refine .bind_does_holds tested (parseForStep_does hrec) (fun _ _ => Results.none)
      fun es _ _ hholds => ?_
    obtain ⟨step, rfl, hstep, hgstep, rfl⟩ := hholds
    simp only [Parsing.bind_read_iff, Parsing.ite_iff, Parsing.pure_iff, Bool.not_true,
      Bool.false_eq_true, if_false]
    refine fun _ _ _ => ⟨fun _ => Results.none,
      fun _ => .bind_quiet rfl fun nextEnd => .bind_quiet rfl fun _ => ?_⟩
    refine .bind (parseLoopBody_parses hrec ⟨merge, header, next, body⟩ false
      (step.extend tested)) fun es bodyEnd _ hbody => ?_
    cases bodyEnd with
    | none => exact Results.none
    | some bodyEnd =>
      obtain ⟨inner, rfl, hinner, hsinner, hginner⟩ := hbody bodyEnd rfl
      refine .bind_quiet rfl fun _ => .bind_emit fun _ note => ?_
      let loop : Looping π :=
        { merge, header, next, body, before, headerEnd, condition, conditionEnd, bodyEnd,
          nextEnd, location, hint, note }
      refine statement_results (.forLoop loop first start test step inner) ?_ ?_ ?_ ?_
      · cases test <;> simp only [Statement.entries, forTestEntries, Looping.makes, Looping.opens,
          Looping.closes, goOn, goOnIf, List.append_assoc, List.cons_append, List.nil_append, loop]
      · simpa only [Statement.All] using ⟨hstart, fun t ht => (htest t ht).1, hstep, hinner⟩
      · simpa only [Statement.Scoped] using hsinner
      · simpa only [Statement.Grounded] using
          ⟨hgstart, fun t ht => (htest t ht).2, hgstep, hginner⟩

end Parser
end ShaderEffect

import ShaderEffect.Proofs.Parsing.Call

namespace ShaderEffect.Parser

variable {π : Type} [Inhabited π] {s : Surroundings} {r : Reader} {known : List Fact}
  {recurse : Recurse} {e e' : Expression}

theorem foldUnary_isConstant {op : UnaryOp} (h : e.foldUnary? op = .ok (some e')) :
    e'.isConstant = true := by
  unfold Expression.foldUnary? at h
  split at h
  · cases except_pure_eq_ok.mp h
  · rename_i hc
    obtain ⟨value, -, h⟩ := except_bind_eq_ok.mp h
    obtain rfl := Option.some.inj (except_pure_eq_ok.mp h)
    simpa using hc

theorem applyUnary_gives (location : Location) (op : UnaryOp) :
    Gives π s r known (applyUnary location op e) isGood := by
  unfold applyUnary
  rw [Gives, Parsing.bind_except_iff]
  intro folded hfolded
  cases folded with
  | some folded =>
    refine Parsing.done_results fun _ h => ?_
    obtain rfl := Option.some.inj h
    exact Expression.isKnown_of_isConstant (foldUnary_isConstant hfolded)
  | none =>
    refine .bind_value load_gives_any fun value _ _ _ _ => .bind_step rfl fun result _ => ?_
    refine Parsing.done_results fun _ h => ?_
    obtain rfl := Option.some.inj h
    exact Expression.isKnown_toRvalue _ _ List.mem_cons_self

/-- Gives what a part gives that cannot fail. -/
theorem give_gives {x : ParseM Expression} (hx : Gives π s r known x isGood) :
    MayGive π s r known (do return some (← x)) isGood := by
  refine .bind_value hx fun e _ _ _ he => Parsing.done_results fun _ h => ?_
  obtain rfl := Option.some.inj h
  exact he

theorem parsePrefix_gives (hrec : recurse.ReadsExpressions π) (kind : Token.Kind)
    (location : Location) :
    MayGive π s r known (parsePrefix recurse kind location) isGood := by
  unfold parsePrefix
  refine .bind_option (hrec.unary _ _ _) (fun _ => rfl) fun e known₁ _ _ he => ?_
  have hstep (r : Reader) : MayGive π s r known₁ (do
      let value ← load e
      applyStep location kind e value
      return some e) isGood := by
    refine .bind_value load_gives_any fun value known₂ _ hknown₂ _ => ?_
    refine .bind_value (applyStep_gives _ _ _) fun _ known₃ _ hknown₃ _ => ?_
    refine Parsing.done_results fun _ h => ?_
    obtain rfl := Option.some.inj h
    exact Expression.isKnown_mono (List.Subset.trans hknown₂ hknown₃) he
  simp only [Parsing.ite_iff, Parsing.bind_read_iff, Parsing.pure_iff, Results.none,
    implies_true, true_and]
  intro _
  split
  · simp only [Parsing.ite_iff, Parsing.bind_read_iff, Parsing.pure_iff, Results.none,
      implies_true, true_and]
    exact fun _ => hstep _
  · simp only [Parsing.ite_iff, Parsing.bind_read_iff, Parsing.pure_iff, Results.none,
      implies_true, true_and]
    exact fun _ => hstep _
  · simp only [Parsing.ite_iff, Parsing.bind_read_iff, Parsing.pure_iff, Results.none,
      implies_true, true_and]
    exact fun _ => give_gives (applyUnary_gives _ _)
  · simp only [Parsing.ite_iff, Parsing.bind_except_iff, pure_bind]
    exact ⟨fun _ => give_gives (applyUnary_gives _ _),
      fun _ _ _ => give_gives (applyUnary_gives _ _)⟩
  · exact give_gives (applyUnary_gives _ _)
  · exact Results.done he

theorem parseCast_gives (hrec : recurse.ReadsExpressions π) (location : Location) (t : Ty) :
    MayGive π s r known (parseCast recurse location t) isGood := by
  simp only [MayGive, parseCast, Parsing.ite_iff, Parsing.bind_read_iff, Parsing.pure_iff,
    Results.none, implies_true, true_and]
  intro _ _ _ _
  refine .bind_option (hrec.unary _ _ _) (fun _ => rfl) fun e known₁ _ _ he => ?_
  simp only [Parsing.ite_iff, Parsing.bind_read_iff, Parsing.pure_iff, Results.none,
    implies_true, true_and]
  exact ⟨fun _ => Results.done he, fun _ _ => giveCast_gives he t⟩

/-- What stands behind a parenthesis is an expression, and not a type that something is cast to. -/
theorem parseInner_gives (hrec : recurse.ReadsExpressions π) :
    MayGive π s r known (do
      let some e ← (recurse .sequence : ParseM (Option Expression)) | return none
      if !(← expect .parenClose) then return none
      parsePostfix recurse e) isGood := by
  refine .bind_option (hrec.sequence _ _ _) (fun _ => rfl) fun e known₁ _ _ he => ?_
  simp only [Parsing.ite_iff, Parsing.bind_read_iff, Parsing.pure_iff, Results.none,
    implies_true, true_and]
  exact fun _ _ _ _ => parsePostfix_gives hrec he

theorem parseParenthesized_gives (hrec : recurse.ReadsExpressions π) (location : Location) :
    MayGive π s r known (parseParenthesized recurse location) isGood := by
  simp only [MayGive, parseParenthesized, Parsing.bind_read_iff]
  intro _ _ _ type _ _ isConstructor _ _
  cases type with
  | none => exact parseInner_gives hrec
  | some t =>
    simp only [Parsing.ite_iff, Parsing.bind_read_iff]
    exact ⟨fun _ => parseCast_gives hrec location t, fun _ _ _ _ => parseInner_gives hrec⟩

/-- Nothing needs to be known of elements. -/
theorem elements_results (c : Elements ⊕ Option Elements) :
    Results (.evaluations s) known ([] : List (Entry π)) (Parsing.roundView some (fun a => a) c)
      (Sum.elim (fun _ _ => True) fun (_ : Elements) _ => True) := by
  rcases c with _ | _ | _
  · exact Results.done trivial
  · exact Results.none
  · exact Results.done trivial

theorem giveUpElements_view {r r' : Reader} {c : Elements ⊕ Option Elements}
    (h : giveUpElements r = .ok (c, r')) :
    Parsing.roundView some (fun a => a) c = none := by
  simp only [giveUpElements, bind_eq_ok, pure_eq_ok] at h
  obtain ⟨_, _, _, rfl, _⟩ := h
  rfl

theorem nextElement_results (hrec : recurse.ReadsExpressions π) (elements : Elements) :
    Parsing (do
      let some e ← (recurse .assignment : ParseM (Option Expression)) | giveUpElements
      addElement elements e) s r fun (es : List (Entry π)) c _ =>
      Results (.evaluations s) known es (Parsing.roundView some (fun a => a) c)
        (Sum.elim (fun _ _ => True) fun (_ : Elements) _ => True) := by
  refine .bind_option (hrec.assignment _ _ _) (fun _ => ?_) fun e known₁ _ _ _ => ?_
  · exact (Parsing.read_iff _).mpr fun _ _ h => giveUpElements_view h
  · exact (Parsing.read_iff _).mpr fun _ _ _ => elements_results _

theorem parseElement_results (hrec : recurse.ReadsExpressions π) (elements : Elements) :
    Parsing (parseElement recurse elements) s r fun (es : List (Entry π)) c _ =>
      Results (.evaluations s) known es (Parsing.roundView some (fun a => a) c)
        (Sum.elim (fun _ _ => True) fun (_ : Elements) _ => True) := by
  simp only [parseElement, Parsing.ite_iff, Parsing.bind_read_iff, Parsing.read_iff,
    Parsing.pure_iff]
  refine fun _ _ _ => ⟨fun _ => elements_results _,
    fun _ => ⟨fun _ _ _ _ => ⟨fun _ _ _ _ => elements_results _, fun _ => ?_⟩,
      fun _ => ?_⟩⟩
  all_goals
    exact fun _ _ _ => ⟨fun _ => elements_results _, fun _ => nextElement_results hrec elements⟩

theorem arrayOf_gives (location : Location) (elements : Elements) :
    Gives π s r known (arrayOf location elements) isGood := by
  have hcasts : Gives π s r known (elements.values.mapM fun e => do
      return (← e.addCast elements.type).value) fun _ _ => True := by
    refine Parsing.mapM_results _ (fun e known r => ?_) known r
    rw [Gives, Parsing.bind_except_iff]
    exact fun _ _ => Parsing.done_results fun _ _ => trivial
  have hloads : Gives π s r known (elements.values.mapM fun e => do
      return e.toRvalue e.location (← load e) e.type) fun _ _ => True := by
    refine Parsing.mapM_results _ (fun e known r => ?_) known r
    exact .bind_value load_gives_any fun _ _ _ _ _ => Parsing.done_results fun _ _ => trivial
  unfold arrayOf
  dsimp only
  rw [Gives, Parsing.ite_iff]
  refine ⟨fun _ => .bind_value hcasts fun values _ _ _ _ => ?_,
    fun _ => .bind_value hloads fun values _ _ _ _ => .bind_step rfl fun result _ => ?_⟩
  · exact Parsing.done_results fun _ h => Option.some.inj h
      ▸ Expression.isKnown_of_isConstant rfl
  · refine Parsing.done_results fun _ h => ?_
    obtain rfl := Option.some.inj h
    exact Expression.isKnown_toRvalue _ _ List.mem_cons_self

theorem parseInitializerList_gives (hrec : recurse.ReadsExpressions π) (location : Location) :
    MayGive π s r known (parseInitializerList recurse location) isGood := by
  have helements : MayGive π s r known (loop (parseElement recurse) {}) fun _ _ => True :=
    Parsing.loop_values (fun _ _ => True) trivial fun _ _ _ _ => parseElement_results hrec _
  refine .bind_option helements (fun _ => rfl) fun elements known₁ _ _ _ => ?_
  refine .bind_value (arrayOf_gives location elements) fun e known₂ _ _ he => ?_
  simp only [Parsing.ite_iff, Parsing.bind_read_iff, Parsing.pure_iff, Results.none,
    implies_true, and_true]
  exact fun _ _ _ _ => Results.done he

theorem loadComponents_gives (base : Base) (arg : Expression) (known : List Fact) (r : Reader) :
    Gives π s r known (loadComponents base arg) fun _ _ => True := by
  refine Parsing.mapM_results _ (fun e known r => ?_) known r
  simp only [Gives, Parsing.bind_except_iff]
  intro _ _ _ _
  exact .bind_value load_gives_any fun _ _ _ _ _ => Parsing.done_results fun _ _ => trivial

theorem construct_gives (location : Location) (t : Ty) {args : List Expression}
    (hargs : areGood args known) :
    Gives π s r known (construct location t args) isGood := by
  have hparts : Gives π s r known (do
      let parts ← args.mapM (loadComponents t.base)
      let result ← emit (.construct location t parts.flatten)
      return Expression.toRvalue {} location result t) isGood := by
    refine .bind_value (Parsing.mapM_results _ (loadComponents_gives t.base) _ _)
      fun _ _ _ _ _ => ?_
    refine .bind_step rfl fun result _ => Parsing.done_results fun _ h => ?_
    obtain rfl := Option.some.inj h
    exact Expression.isKnown_toRvalue _ _ List.mem_cons_self
  unfold construct
  simp only [Gives, Parsing.ite_iff, Parsing.bind_except_iff]
  refine ⟨fun _ lanes _ => Results.done (Expression.isKnown_of_isConstant rfl), fun _ => ?_⟩
  split
  · rw [Parsing.except_iff]
    intro e he
    exact Results.done ((Expression.addCast_refines he).1.isKnown (hargs _ List.mem_cons_self))
  · exact hparts

theorem parseConstructor_gives (hrec : recurse.ReadsExpressions π) (t : Ty) (location : Location) :
    MayGive π s r known (parseConstructor recurse t location) isGood := by
  simp only [MayGive, parseConstructor, Parsing.ite_iff, Parsing.bind_read_iff, Parsing.pure_iff,
    Results.none, implies_true, true_and]
  intro _ _ _ _ _ _ _ _ _
  refine .bind_option (parseArguments_gives hrec _ fun arg known r => ?_) (fun _ => rfl)
    fun args known₁ _ _ hargs => ?_
  · simp only [Gives, Parsing.ite_iff, Parsing.bind_read_iff, Parsing.pure_iff]
    exact ⟨fun _ _ _ _ => Results.done trivial, fun _ => Results.done trivial⟩
  · simp only [Parsing.ite_iff, Parsing.bind_read_iff, Parsing.pure_iff, Results.none,
      implies_true, true_and]
    exact fun _ _ _ _ _ => give_gives (construct_gives location t hargs)

theorem parseIdentifier_gives (hrec : recurse.ReadsExpressions π) (location : Location) :
    MayGive π s r known (parseIdentifier recurse location) isGood := by
  unfold parseIdentifier
  rw [MayGive, Parsing.bind_read_iff]
  intro n _ _
  cases n with
  | none => exact Results.none
  | some n =>
    simp only [Parsing.ite_iff, Parsing.bind_read_iff]
    refine fun _ _ _ => ⟨fun _ => parseCall_gives hrec n location, fun _ => ?_⟩
    split
    · exact Results.done (Expression.isKnown_toLvalue _ _ _)
    · exact Results.done (Expression.isKnown_of_isConstant rfl)
    all_goals
      rw [Parsing.bind_read_iff]
      exact fun _ _ _ => Results.none

theorem literal_isConstant {location : Location} {t : Token} (h : literal? location t = some e) :
    e.isConstant = true := by
  unfold literal? at h
  split at h <;> cases h <;> rfl

/-- A part that gives an expression together with a flag. -/
theorem pair_results {x : ParseM (Option Expression)} (hx : MayGive π s r known x isGood)
    (more : Bool) :
    Parsing (do return (← x, more)) s r fun (es : List (Entry π)) c _ =>
      Results (.evaluations s) known es c.1 isGood := by
  rw [Parsing.bind_iff]
  refine hx.mono fun es e _ he => ?_
  rwa [Parsing.pure_iff, List.append_nil]

theorem parseOperand_gives (hrec : recurse.ReadsExpressions π) :
    Parsing (parseOperand recurse) s r fun (es : List (Entry π)) c _ =>
      Results (.evaluations s) known es c.1 isGood := by
  unfold parseOperand
  rw [Parsing.bind_read_iff]
  intro t _ _
  dsimp only
  split
  iterate 6
    rw [Parsing.bind_read_iff]
    exact fun _ _ _ => pair_results (parsePrefix_gives hrec _ _) _
  · rw [Parsing.bind_read_iff]
    exact fun _ _ _ => pair_results (parseParenthesized_gives hrec _) _
  · rw [Parsing.bind_read_iff]
    exact fun _ _ _ => pair_results (parseInitializerList_gives hrec _) _
  · rw [Parsing.bind_read_iff]
    exact fun _ _ _ => Results.done (Expression.isKnown_of_isConstant rfl)
  · split
    · rename_i e he
      have hdone : isGood e known := Expression.isKnown_of_isConstant (literal_isConstant he)
      simp only [Parsing.ite_iff, Parsing.bind_read_iff, Parsing.pure_iff]
      exact fun _ _ _ => ⟨fun _ _ _ _ => Results.done hdone, fun _ => Results.done hdone⟩
    · rw [Parsing.bind_read_iff]
      intro type _ _
      cases type with
      | none => exact pair_results (parseIdentifier_gives hrec _) _
      | some type => exact pair_results (parseConstructor_gives hrec _ _) _

theorem parseUnary_reads (hrec : recurse.ReadsExpressions π) :
    ReadsExpression π (parseUnary recurse) := by
  intro s r known
  refine Parsing.bind_results (·.1) (parseOperand_gives hrec) (fun c r' hc => ?_)
    fun c e known' r' hc hknown he => ?_
  · obtain ⟨_, more⟩ := c
    obtain rfl : _ = none := hc
    exact rfl
  · obtain ⟨_, more⟩ := c
    obtain rfl : _ = some e := hc
    cases more with
    | true => exact parsePostfix_gives hrec he
    | false => exact Results.done he

omit [Inhabited π] in
/-- What the load of a number gives is known. -/
theorem mem_extend_load_cast {id : Id} {forceNew : Bool} {note : π} {t : Ty}
    (he : e.isKnown known = true) (hcast : e.addCast t = .ok e') (ht : t.isNumeric = true) :
    .value id ∈ Entry.extend known ⟨.load e' forceNew, id, note⟩ := by
  obtain ⟨hrefines, hbase⟩ := Expression.addCast_refines hcast
  refine mem_extend_load (Expression.isSolid_or_isComputed (hrefines.isKnown he) ?_)
  simpa only [Ty.isNumeric, hbase] using ht

omit [Inhabited π] in
theorem mem_extend_load_cast_any {id : Id} {forceNew : Bool} {note : π} {t : Ty}
    (he : e.isKnown known = true) (hcast : e.addCast t = .ok e') :
    .valueOrNone id ∈ Entry.extend known ⟨.load e' forceNew, id, note⟩ :=
  mem_extend_load_any ((Expression.addCast_refines hcast).1.isKnown he)

/-- Goes on behind the question whether there are blocks to branch to, which is only asked
where it matters. -/
theorem bind_canBranch {allowed : Bool} {f : Bool → ParseM (Option Expression)}
    (hyes : allowed = true → Parsing (f true) s r fun (es : List (Entry π)) a _ =>
      Results (.evaluations s) known (.quiet .isInFunction true :: es) a isGood)
    (hno : Parsing (f false) s r fun (es : List (Entry π)) a _ =>
      Results (.evaluations s) known es a isGood) :
    Parsing (canBranch allowed >>= f) s r fun (es : List (Entry π)) a _ =>
      Results (.evaluations s) known es a isGood := by
  unfold canBranch
  cases allowed with
  | false => exact hno
  | true =>
    refine .bind_quiet rfl fun inFunction => ?_
    cases inFunction with
    | true => exact hyes rfl
    | false => exact hno.mono fun es a _ h => h.step rfl

/-- A short circuit that is left is an evaluation. -/
theorem circuit_results (c : Circuit π) {t : Evaluation π} {es : List (Entry π)}
    {location : Location} {type : Ty} (hs : s.noShortCircuit = false)
    (hentries : (Evaluation.circuit c t).entries = es)
    (hgrounded : (Evaluation.circuit c t).Grounded known) :
    Results (.evaluations s) known es (some (e.toRvalue location c.result type)) isGood := by
  intro a ha
  obtain rfl := Option.some.inj ha
  refine ⟨_, ⟨.circuit c t, hentries, fun h => ?_, hgrounded, rfl⟩, ?_⟩
  · rw [hs] at h
    cases h
  · exact Expression.isKnown_toRvalue _ _ List.mem_cons_self

/-- A short circuit that is folded is an evaluation. -/
theorem folded_results (b : Branches) (operandEnd : Id) (t : Evaluation π)
    (hs : s.noShortCircuit = false) (he : e.isConstant = true) :
    Results (.evaluations s) known (Evaluation.folded b operandEnd t).entries (some e) isGood := by
  intro a ha
  obtain rfl := Option.some.inj ha
  refine ⟨known, ⟨.folded b operandEnd t, rfl, fun h => ?_, trivial, rfl⟩,
    Expression.isKnown_of_isConstant he⟩
  rw [hs] at h
  cases h

theorem foldConstants_isConstant {op : BinaryOp} {l r : Expression}
    (h : foldConstants? op l r = .ok (some e)) : e.isConstant = true := by
  unfold foldConstants? at h
  split at h
  · unfold Expression.foldBinary? at h
    split at h
    · cases except_pure_eq_ok.mp h
    · rename_i hc
      obtain ⟨value, -, h⟩ := except_bind_eq_ok.mp h
      cases value with
      | none => cases except_pure_eq_ok.mp h
      | some value =>
        obtain rfl := Option.some.inj (except_pure_eq_ok.mp h)
        simpa using hc
  · cases except_pure_eq_ok.mp h

/-- Leaving the blocks of a short circuit, behind the requests made so far. -/
theorem joinRight_results {b : Branches} {t : Evaluation π} {value leftValue : Id}
    (operandEnd : Id) (tests : List (Step π)) {l right right' : Expression} {type : Ty}
    (hs : s.noShortCircuit = false) (ht : t.Grounded known) (htype : type.isNumeric = true)
    (hvalue : .value value ∈ Step.extend (t.extend known) tests)
    (hleft : .value leftValue ∈ Step.extend (t.extend known) tests)
    (hright : right.isKnown (t.extend known) = true) (hright' : right.addCast type = .ok right') :
    Parsing (joinRight b l right' value leftValue type) s r fun es e _ =>
      Results (.evaluations s) known (b.opening ++ t.entries ++ .quiet (.setBlock b.left) operandEnd
        :: Step.entries tests ++ es) (some e) isGood := by
  unfold joinRight
  refine .bind_quiet rfl
    fun leftEnd => .bind_quiet rfl fun away => .bind_emit fun rightValue note => ?_
  refine .bind_quiet rfl fun rightEnd => .bind_quiet rfl fun _ => .bind_emit fun result note' => ?_
  refine circuit_results
    { b with
      operandEnd, tests, condition := value, leftEnd, away
      loads := [⟨⟨.load right' false, rightValue, note⟩, rfl⟩]
      rightEnd, location := l.location, leftValue, rightValue, type, result, note := note' }
    hs ?_ ⟨ht, hvalue, hleft, ?_⟩
  · simp only [Evaluation.entries, Circuit.closing, Step.entries, List.map_cons, List.map_nil,
      List.append_assoc, List.cons_append, List.nil_append]
  · exact mem_extend_load_cast
      (Expression.isKnown_mono (Step.subset_extend _ _) hright) hright' htype

/-- Finishing a short circuit, behind the requests made so far. -/
theorem closeRight_results (b : Branches) {t : Evaluation π} (operandEnd leftValue : Id)
    (note : π) {op : BinaryOp} {l l' right right' : Expression} {type : Ty}
    (hs : s.noShortCircuit = false) (ht : t.Grounded known) (htype : type.isNumeric = true)
    (hl : l.isKnown known = true) (hl' : l.addCast type = .ok l')
    (hright : right.isKnown (t.extend known) = true) (hright' : right.addCast type = .ok right') :
    Parsing (closeRight b op l l' right' leftValue type) s r fun es e _ =>
      Results (.evaluations s) known (b.opening ++ t.entries ++ .quiet (.setBlock b.left) operandEnd
        :: ⟨.load l' false, leftValue, note⟩ :: es) (some e) isGood := by
  have hl := Expression.isKnown_mono (t.subset_extend known) hl
  let first : Step π := ⟨⟨.load l' false, leftValue, note⟩, rfl⟩
  have hleft : .value leftValue ∈ first.val.extend (t.extend known) :=
    mem_extend_load_cast hl hl' htype
  rw [closeRight, Parsing.bind_except_iff]
  refine fun condition hcondition => .bind_emit fun value note₁ => ?_
  let second : Step π := ⟨⟨.load condition false, value, note₁⟩, rfl⟩
  have hvalue : .value value ∈ second.val.extend (first.val.extend (t.extend known)) :=
    mem_extend_load_cast (Expression.isKnown_mono (Entry.subset_extend _ _) hl) hcondition rfl
  have hleft₂ := Entry.subset_extend _ second.val hleft
  rw [Parsing.ite_iff]
  refine ⟨fun _ => .bind_emit fun negated note₂ => ?_, fun _ => ?_⟩
  · let third : Step π :=
      ⟨⟨.unary l'.location .not (.scalar .bool) value, negated, note₂⟩, rfl⟩
    refine (joinRight_results operandEnd [first, second, third] hs ht htype List.mem_cons_self
      (Entry.subset_extend _ third.val hleft₂) hright hright').mono fun es e _ he => ?_
    simpa [Step.entries] using he
  · refine (joinRight_results operandEnd [first, second] hs ht htype hvalue hleft₂ hright
      hright').mono fun es e _ he => ?_
    simpa [Step.entries] using he

theorem convertOperands_spec {op : BinaryOp} {l l' right right' : Expression} {t : Ty}
    {r r' : Reader} (h : convertOperands op l right r = .ok (some (t, l', right'), r')) :
    l.addCast t = .ok l'
      ∧ right.addCast t = .ok right' ∧ (op.isLogical = true → t.isNumeric = true) := by
  obtain ⟨isRight, r₁, -, h⟩ := bind_eq_ok.mp h
  obtain ⟨-, h⟩ | ⟨-, h⟩ := ite_eq_ok.mp h
  · cases (pure_eq_ok.mp h).1
  obtain ⟨_, r₂, -, h⟩ := bind_eq_ok.mp h
  obtain ⟨_, r₃, -, h⟩ := bind_eq_ok.mp h
  obtain ⟨left, r₄, hl, h⟩ := bind_eq_ok.mp h
  obtain ⟨right, r₅, hr, h⟩ := bind_eq_ok.mp h
  cases (pure_eq_ok.mp h).1
  refine ⟨(liftM_eq_ok.mp hl).1, (liftM_eq_ok.mp hr).1, fun hop => ?_⟩
  rw [if_pos hop]
  rfl

theorem applyBinary_gives (op : BinaryOp) (l right : Expression) (leftValue : Id) (t : Ty) :
    Gives π s r known (applyBinary op l right leftValue t) isGood := by
  unfold applyBinary
  refine .bind_value load_gives_any fun rightValue _ _ _ _ => .bind_step rfl fun result _ => ?_
  refine Parsing.done_results fun _ h => ?_
  obtain rfl := Option.some.inj h
  exact Expression.isKnown_toRvalue _ _ List.mem_cons_self

theorem parseBinary_gives (hrec : recurse.ReadsExpressions π) (op : BinaryOp)
    (he : e.isKnown known = true) :
    MayGive π s r known (parseBinary recurse op e) isGood := by
  rw [MayGive, parseBinary, Parsing.bind_surroundings_iff]
  refine bind_canBranch (fun hshort => ?_) ?_
  · simp only [Bool.and_eq_true, Bool.not_eq_true'] at hshort
    obtain ⟨⟨hop, hs⟩, -⟩ := hshort
    -- The right operand of a short circuit is read into a block of its own.
    rw [if_pos rfl, Parsing.bind_iff, Parsing.map_iff, openRight]
    refine .bind_quiet rfl fun left => .bind_quiet rfl fun right => .bind_quiet rfl fun merge =>
      .bind_quiet rfl fun _ => ?_
    rw [Parsing.pure_iff, Parsing.bind_iff]
    refine (hrec.multary op.strength s r known).mono fun es operand r₁ hoperand => ?_
    cases operand with
    | none => exact Results.none
    | some operand =>
      obtain ⟨_, ⟨t, rfl, -, ht, rfl⟩, hgood⟩ := hoperand operand rfl
      dsimp only
      rw [Parsing.bind_read_iff]
      intro converted r₂ hconverted
      rcases converted with _ | ⟨type, l', right'⟩
      · exact Results.none
      · obtain ⟨hl', hright', htype⟩ := convertOperands_spec hconverted
        refine .bind_quiet rfl fun operandEnd => ?_
        rw [Parsing.bind_except_iff]
        intro folded hfolded
        cases folded with
        | some folded =>
          exact folded_results ⟨left, right, merge⟩ operandEnd t hs
            (foldConstants_isConstant hfolded)
        | none =>
          refine .bind_emit fun leftValue note => ?_
          rw [Parsing.bind_iff]
          refine (closeRight_results ⟨left, right, merge⟩ operandEnd leftValue note hs ht
            (htype hop) he hl' hgood hright').mono fun es e _ he => ?_
          simpa [Branches.opening] using he
  · rw [if_neg Bool.false_ne_true, pure_bind]
    refine .bind_option (hrec.multary _ _ _ _) (fun _ => rfl)
      fun operand known₁ _ hknown₁ hoperand => ?_
    dsimp only
    rw [Parsing.bind_read_iff]
    intro converted _ _
    rcases converted with _ | ⟨type, l', right'⟩
    · exact Results.none
    · dsimp only
      rw [Parsing.bind_except_iff]
      intro folded hfolded
      cases folded with
      | some folded =>
        exact Results.done (Expression.isKnown_of_isConstant (foldConstants_isConstant hfolded))
      | none =>
        exact .bind_value load_gives_any fun _ _ _ _ _ => give_gives (applyBinary_gives _ _ _ _ _)

theorem convertArms_spec {c yes yes' no no' : Expression} {t : Ty} {r r' : Reader}
    (h : convertArms c yes no r = .ok (some (t, yes', no'), r')) :
    yes.addCast t = .ok yes' ∧ no.addCast t = .ok no' := by
  obtain ⟨-, h⟩ | ⟨-, h⟩ := ite_eq_ok.mp h
  · obtain ⟨_, r₁, -, h⟩ := bind_eq_ok.mp h
    cases (pure_eq_ok.mp h).1
  obtain ⟨-, h⟩ | ⟨-, h⟩ := ite_eq_ok.mp h
  · obtain ⟨_, r₁, -, h⟩ := bind_eq_ok.mp h
    cases (pure_eq_ok.mp h).1
  obtain ⟨_, r₁, -, h⟩ := bind_eq_ok.mp h
  obtain ⟨_, r₂, -, h⟩ := bind_eq_ok.mp h
  obtain ⟨yes', r₃, hyes, h⟩ := bind_eq_ok.mp h
  obtain ⟨no', r₄, hno, h⟩ := bind_eq_ok.mp h
  cases (pure_eq_ok.mp h).1
  exact ⟨(liftM_eq_ok.mp hyes).1, (liftM_eq_ok.mp hno).1⟩

theorem selectBoth_gives (c yes no : Expression) (t : Ty) :
    Gives π s r known (selectBoth c yes no t) isGood := by
  rw [Gives, selectBoth, Parsing.bind_except_iff]
  intro condition _
  refine .bind_value load_gives_any fun _ _ _ _ _ => .bind_value load_gives_any fun _ _ _ _ _ => ?_
  refine .bind_value load_gives_any fun _ _ _ _ _ => .bind_step rfl fun result _ => ?_
  refine Parsing.done_results fun _ h => ?_
  obtain rfl := Option.some.inj h
  exact Expression.isKnown_toRvalue _ _ List.mem_cons_self

/-- A conditional expression is an evaluation. -/
theorem choice_results (c : Choice π) {yes no : Evaluation π} {es : List (Entry π)}
    {location : Location} {type : Ty} (hs : s.noShortCircuit = false)
    (hentries : (Evaluation.choice c yes no).entries = es)
    (hgrounded : (Evaluation.choice c yes no).Grounded known) :
    Results (.evaluations s) known es (some (e.toRvalue location c.result type)) isGood := by
  intro a ha
  obtain rfl := Option.some.inj ha
  refine ⟨_, ⟨.choice c yes no, hentries, fun h => ?_, hgrounded, rfl⟩, ?_⟩
  · rw [hs] at h
    cases h
  · exact Expression.isKnown_toRvalue _ _ List.mem_cons_self

/-- Leaving the blocks of a conditional expression, behind the requests made so far. -/
theorem selectOne_results (arms : Arms) (yesOperandEnd : Id) {first second : Evaluation π}
    {c yes yes' no no' : Expression} {t : Ty} (hs : s.noShortCircuit = false)
    (hc : c.isKnown known = true)
    (hfirst : first.Grounded known) (hsecond : second.Grounded (first.extend known))
    (hyes : yes.isKnown (first.extend known) = true) (hyes' : yes.addCast t = .ok yes')
    (hno : no.isKnown (second.extend (first.extend known)) = true) (hno' : no.addCast t = .ok no') :
    Parsing (selectOne arms c yes' no' t) s r fun es e _ =>
      Results (.evaluations s) known
        (arms.opening ++ first.entries ++ [Entry.quiet (.setBlock 0) yesOperandEnd,
        Entry.quiet (.enterBlock arms.no) ()] ++ second.entries ++ es) (some e) isGood := by
  unfold selectOne
  refine .bind_quiet rfl fun noOperandEnd => ?_
  rw [Parsing.bind_except_iff]
  refine fun condition hcondition =>
    .bind_emit fun value note₁ => .bind_quiet rfl fun conditionEnd => ?_
  refine .bind_quiet rfl
    fun awayYes => .bind_emit fun trueValue note₂ => .bind_quiet rfl fun yesEnd => ?_
  refine .bind_quiet rfl
    fun awayNo => .bind_emit fun falseValue note₃ => .bind_quiet rfl fun noEnd => ?_
  refine .bind_quiet rfl fun _ => .bind_emit fun result note => ?_
  -- The three values that are loaded are the steps of the choice between the two blocks.
  let test : Step π := ⟨⟨.load condition false, value, note₁⟩, rfl⟩
  let loadYes : Step π := ⟨⟨.load yes' false, trueValue, note₂⟩, rfl⟩
  let loadNo : Step π := ⟨⟨.load no' false, falseValue, note₃⟩, rfl⟩
  have hknown : known ⊆ second.extend (first.extend known) :=
    List.Subset.trans (first.subset_extend known) (second.subset_extend _)
  have hyes :=
    Expression.isKnown_mono
      (List.Subset.trans (second.subset_extend _) (Step.subset_extend _ [test])) hyes
  have hno := Expression.isKnown_mono (Step.subset_extend _ [test, loadYes]) hno
  refine choice_results
    { arms with
      yesOperandEnd, noOperandEnd, tests := [test], value, conditionEnd, awayYes,
      yesLoads := [loadYes]
      trueValue, yesEnd, awayNo, noLoads := [loadNo], falseValue, noEnd,
      location := condition.location
      type := t, result, note }
    hs ?_ ⟨hfirst, hsecond, ?_, ?_, ?_, fun ht => ⟨?_, ?_⟩⟩
  · simp only [Evaluation.entries, Choice.between, Choice.closing, Step.entries, List.map_cons,
      List.map_nil, List.append_assoc, List.cons_append, List.nil_append, test, loadYes, loadNo]
  · exact mem_extend_load_cast (Expression.isKnown_mono hknown hc) hcondition rfl
  · exact mem_extend_load_cast_any hyes hyes'
  · exact mem_extend_load_cast_any hno hno'
  · exact mem_extend_load_cast hyes hyes' ht
  · exact mem_extend_load_cast hno hno' ht

theorem parseConditional_gives (hrec : recurse.ReadsExpressions π) (he : e.isKnown known = true) :
    MayGive π s r known (parseConditional recurse e) isGood := by
  simp only [MayGive, parseConditional, Parsing.ite_iff, Parsing.bind_read_iff, Parsing.pure_iff,
    Results.none, implies_true, true_and, Parsing.bind_surroundings_iff]
  refine fun _ => bind_canBranch (fun hshort => ?_) ?_
  · simp only [Bool.and_eq_true, Bool.not_eq_true'] at hshort
    obtain ⟨hs, -⟩ := hshort
    -- Each arm is read into a block of its own.
    rw [if_pos rfl, Parsing.bind_iff, Parsing.map_iff, openArms]
    refine .bind_quiet rfl
      fun merge => .bind_quiet rfl fun condition => .bind_quiet rfl fun yesBlock =>
      .bind_quiet rfl fun noBlock => .bind_quiet rfl fun _ => ?_
    rw [Parsing.pure_iff, Parsing.bind_iff]
    refine (hrec.sequence s r known).mono fun es yes r₁ hyes => ?_
    cases yes with
    | none => exact Results.none
    | some yes =>
      obtain ⟨_, ⟨first, rfl, -, hfirst, rfl⟩, hyes⟩ := hyes yes rfl
      dsimp only
      simp only [Parsing.ite_iff, Parsing.bind_read_iff, Parsing.pure_iff, Results.none,
        implies_true, true_and]
      refine fun _ _ _ _ => .bind_quiet rfl fun yesOperandEnd => .bind_quiet rfl fun _ => ?_
      rw [Parsing.bind_iff]
      refine (hrec.assignment s _ (first.extend known)).mono fun es no r₂ hno => ?_
      cases no with
      | none => exact Results.none
      | some no =>
        obtain ⟨_, ⟨second, rfl, -, hsecond, rfl⟩, hno⟩ := hno no rfl
        dsimp only
        rw [Parsing.bind_read_iff]
        intro converted _ hconverted
        rcases converted with _ | ⟨type, yes', no'⟩
        · exact Results.none
        · obtain ⟨hyes', hno'⟩ := convertArms_spec hconverted
          dsimp only
          rw [Parsing.bind_iff]
          refine (selectOne_results ⟨merge, condition, yesBlock, noBlock⟩ yesOperandEnd hs he
            hfirst hsecond hyes hyes' hno hno').mono fun es e _ he => ?_
          simpa [Arms.opening] using he
  · rw [if_neg Bool.false_ne_true, pure_bind]
    refine .bind_option (hrec.sequence _ _ _) (fun _ => rfl) fun yes _ _ _ _ => ?_
    simp only [Parsing.ite_iff, Parsing.bind_read_iff, Parsing.pure_iff, Results.none,
      implies_true, true_and]
    intro _ _ _ _
    refine .bind_option (hrec.assignment _ _ _) (fun _ => rfl) fun no _ _ _ _ => ?_
    dsimp only
    rw [Parsing.bind_read_iff]
    intro converted _ _
    rcases converted with _ | ⟨type, yes', no'⟩
    · exact Results.none
    · exact give_gives (selectBoth_gives _ _ _ _)

theorem parseMultary_reads (hrec : recurse.ReadsExpressions π) (strength : Nat) :
    ReadsExpression π (parseMultary recurse strength) := by
  intro s r known
  refine .bind_option (hrec.unary _ _ _) (fun _ => rfl) fun first known₁ _ _ hfirst => ?_
  refine Parsing.loop_values isGood hfirst fun e known r he => ?_
  dsimp only
  rw [Parsing.bind_read_iff]
  intro t _ _
  split
  · exact Parsing.done_results fun _ h => Option.some.inj h ▸ he
  · rw [Parsing.ite_iff]
    refine ⟨fun _ => Parsing.done_results fun _ h => Option.some.inj h ▸ he, fun _ => ?_⟩
    rw [Parsing.bind_read_iff]
    intro _ _ _
    split
    · exact .bind_proceed (parseBinary_gives hrec _ he) (fun _ => rfl) rfl fun _ _ => id
    · exact .bind_proceed (parseConditional_gives hrec he) (fun _ => rfl) rfl fun _ _ => id

theorem assign_gives (op : Option BinaryOp) {l right : Expression}
    (hr : right.isKnown known = true) :
    MayGive π s r known (assign op l right) isGood := by
  simp only [MayGive, assign, Parsing.ite_iff, Parsing.bind_read_iff, Parsing.bind_except_iff,
    Parsing.pure_iff, Results.none, implies_true, true_and]
  intro _ _ _ _ _ _ right' hcast
  obtain ⟨hrefines, hbase⟩ := Expression.addCast_refines hcast
  have hstore {known₁ : List Fact} {r : Reader} {result : Id}
      (hresult : .valueOrNone result ∈ known₁
        ∧ (l.type.isNumeric = true → .value result ∈ known₁)) :
      MayGive π s r known₁ (do
        emit (.store l result)
        return some (l.toRvalue l.location result l.type)) isGood := by
    refine .bind_step rfl fun _ _ => Parsing.done_results fun _ h => ?_
    obtain rfl := Option.some.inj h
    cases hnumeric : l.type.isNumeric with
    | true => exact Expression.isKnown_toRvalue _ _ (hresult.2 hnumeric)
    | false => exact Expression.isKnown_toRvalue_other _ hnumeric hresult.1
  refine .bind_value (load_gives (hrefines.isKnown hr)) fun value known₁ _ _ hvalue => ?_
  cases op with
  | none =>
    refine hstore ⟨hvalue.1, fun hnumeric => hvalue.2 ?_⟩
    simpa only [Ty.isNumeric, hbase] using hnumeric
  | some op =>
    refine .bind_value load_gives_any fun old _ _ _ _ => ?_
    exact .bind_step rfl fun result _ =>
      hstore ⟨List.mem_cons_of_mem _ List.mem_cons_self, fun _ => List.mem_cons_self⟩

theorem parseAssignment_reads (hrec : recurse.ReadsExpressions π) :
    ReadsExpression π (parseAssignment recurse) := by
  intro s r known
  refine .bind_option (hrec.multary _ _ _ _) (fun _ => rfl) fun l known₁ _ _ hl => ?_
  dsimp only
  rw [Parsing.bind_read_iff]
  intro t _ _
  split
  · exact Results.done hl
  · rw [Parsing.bind_read_iff]
    intro _ _ _
    exact .bind_option (hrec.assignment _ _ _) (fun _ => rfl)
      fun right _ _ _ hr => assign_gives _ hr

theorem parseSequence_reads (hrec : recurse.ReadsExpressions π) :
    ReadsExpression π (parseSequence recurse) := by
  intro s r known
  refine .bind_option (hrec.assignment _ _ _) (fun _ => rfl) fun first known₁ _ _ hfirst => ?_
  refine Parsing.loop_values isGood hfirst fun e known r he => ?_
  rw [Parsing.bind_read_iff]
  intro more _ _
  rw [Parsing.ite_iff]
  refine ⟨fun _ => Parsing.done_results fun _ h => Option.some.inj h ▸ he, fun _ => ?_⟩
  exact .bind_proceed (hrec.assignment _ _ _) (fun _ => rfl) rfl fun _ _ => id

end ShaderEffect.Parser

import ShaderEffect.Proofs.Parsing.Rules

namespace ShaderEffect.Parser

variable {π : Type} {s : Surroundings} {r r' : Reader} {known : List Fact} {e e' : Expression}

/-- An expression that is known. -/
abbrev isGood (e : Expression) (known : List Fact) : Prop :=
  e.isKnown known = true

/-- Whether a part of the parser reads expressions: it gives one that is known, and requests its
evaluation. -/
def ReadsExpression (π : Type) [Inhabited π] (x : ParseM (Option Expression)) : Prop :=
  ∀ s r known, MayGive π s r known x isGood

/-- Whether all parts that lie inside of others read expressions where they should. -/
structure Recurse.ReadsExpressions (π : Type) [Inhabited π] (recurse : Recurse) : Prop where
  unary : ReadsExpression π (recurse .unary)
  multary (strength : Nat) : ReadsExpression π (recurse (.multary strength))
  assignment : ReadsExpression π (recurse .assignment)
  sequence : ReadsExpression π (recurse .sequence)

/-- A value that is loaded is known. -/
theorem mem_extend_load {id : Id} {forceNew : Bool} {note : π}
    (h : (e.isSolid known || e.isComputed) = true) :
    .value id ∈ Entry.extend known ⟨.load e forceNew, id, note⟩ := by
  simp only [Entry.extend, Entry.facts, h, if_true, Fact.ofValue, List.mem_append,
    List.mem_cons, true_or]

/-- What is loaded from an expression that is known is a value, or nothing. -/
theorem mem_extend_load_any {id : Id} {forceNew : Bool} {note : π} (he : e.isKnown known = true) :
    .valueOrNone id ∈ Entry.extend known ⟨.load e forceNew, id, note⟩ := by
  simp only [Expression.isKnown, Bool.or_eq_true, Bool.and_eq_true, decide_eq_true_eq] at he
  simp only [Entry.extend, Entry.facts, Expression.isComputed, Fact.ofValue]
  grind

theorem isSolid_of_isAssignable (h : isAssignable e = true) : e.isSolid known = true := by
  simp only [isAssignable, Bool.and_eq_true] at h
  simp only [Expression.isSolid, h.1.1, Bool.or_true, Bool.true_or]

variable [Inhabited π]

/-- Loading an expression. There is a value where it is used as a number. -/
theorem load_gives (he : e.isKnown known = true) :
    Gives π s r known (load e) fun id known' =>
      .valueOrNone id ∈ known' ∧ (e.type.isNumeric = true → .value id ∈ known') := by
  refine .step_results rfl fun note id d hd => ?_
  obtain rfl := Option.some.inj hd
  exact ⟨mem_extend_load_any he,
    fun ht => mem_extend_load (Expression.isSolid_or_isComputed he ht)⟩

/-- Loading an expression of which nothing is known. -/
theorem load_gives_any : Gives π s r known (load e) fun _ _ => True :=
  .step_results rfl fun _ _ _ _ => trivial

theorem applyStep_gives (location : Location) (kind : Token.Kind) (value : Id) :
    Gives π s r known (applyStep location kind e value) fun _ _ => True := by
  unfold applyStep
  rw [Gives, Parsing.bind_except_iff]
  intro ones _
  refine .bind_step rfl fun one _ => .bind_step rfl fun result _ => ?_
  exact .step_results rfl fun _ _ _ _ => trivial

theorem parseStepBehind_gives (location : Location) (kind : Token.Kind) :
    MayGive π s r known (parseStepBehind location kind e) isGood := by
  simp only [MayGive, parseStepBehind, Parsing.ite_iff, Parsing.bind_read_iff, Parsing.pure_iff,
    Results.none, implies_true, true_and]
  intro _ hassignable
  have hsolid : e.isSolid known = true := isSolid_of_isAssignable (by simpa using hassignable)
  refine .bind_step rfl fun value note => .bind_value (applyStep_gives location kind value) ?_
  intro _ known' r' hknown _
  refine Parsing.done_results fun _ he => ?_
  obtain rfl := Option.some.inj he
  exact Expression.isKnown_toRvalue _ _
    (hknown (mem_extend_load (by simp only [hsolid, Bool.true_or])))

theorem invalidSubscript_gives (location : Location) (subscript reason : String) :
    MayGive π s r known (liftM (invalidSubscript location subscript reason)) isGood := by
  refine .read_results fun e' r' h => ?_
  simp only [invalidSubscript, bind_eq_ok, pure_eq_ok, reduceCtorEq, false_and, and_false,
    exists_false] at h

theorem swizzle_gives (he : e.isKnown known = true) (location : Location) (subscript : String)
    (lanes : Except String (List Nat)) :
    MayGive π s r known (liftM (swizzle e location subscript lanes)) isGood := by
  cases lanes with
  | error reason => exact invalidSubscript_gives location subscript reason
  | ok lanes =>
    refine .read_results fun e' r' h => ?_
    simp only [swizzle, bind_eq_ok, liftM_eq_ok, pure_eq_ok, Option.some.injEq] at h
    obtain ⟨picked, _, ⟨hpicked, rfl⟩, rfl, rfl⟩ := h
    exact ((Expression.addSwizzle_refines hpicked).trans
      (Expression.makeReadOnly_refines _)).isKnown he

theorem selectConstant_gives (he : e.isKnown known = true) (index : Expression) :
    MayGive π s r known (liftM (selectConstant e index)) isGood := by
  refine .read_results fun e' r' h => ?_
  simp only [selectConstant, ite_eq_ok, bind_eq_ok, liftM_eq_ok, pure_eq_ok, Option.some.injEq,
    reduceCtorEq, false_and, and_false, exists_false, false_or] at h
  obtain ⟨_, _, _, ⟨hindex, _⟩, rfl, _⟩ := h
  exact (Expression.addConstantIndex_refines hindex).isKnown he

theorem selectMember_gives (location : Location) (name : String) :
    MayGive π s r known (selectMember e location name) isGood := by
  unfold selectMember
  refine .bind_step rfl fun decl _ => ?_
  dsimp only
  split
  · exact invalidSubscript_gives _ _ _
  · refine Parsing.done_results fun _ he => ?_
    obtain rfl := Option.some.inj he
    exact (Expression.makeReadOnly_refines _).isKnown (Expression.isKnown_addMember _ _)

/-- Gives an expression that was converted. -/
theorem giveCast_gives (he : e.isKnown known = true) (t : Ty) :
    MayGive π s r known (do return some (← e.addCast t)) isGood := by
  rw [MayGive, Parsing.bind_except_iff]
  intro e' h
  refine Parsing.done_results fun _ he' => ?_
  obtain rfl := Option.some.inj he'
  exact (Expression.addCast_refines h).1.isKnown he

theorem parseMember_gives (he : e.isKnown known = true) :
    MayGive π s r known (parseMember e) isGood := by
  simp only [MayGive, parseMember, Parsing.ite_iff, Parsing.bind_read_iff, Parsing.pure_iff,
    Results.none, implies_true, true_and]
  intro _ _ _ _ t _ _ _ _ _ _ _
  refine ⟨fun _ => swizzle_gives he _ _ _,
    fun _ => ⟨fun _ => swizzle_gives he _ _ _, fun _ => ?_⟩⟩
  refine ⟨fun _ => selectMember_gives _ _,
    fun _ => ⟨fun _ => ?_, fun _ => invalidSubscript_gives _ _ _⟩⟩
  refine ⟨fun _ => invalidSubscript_gives _ _ _,
    fun _ => ⟨fun _ => invalidSubscript_gives _ _ _, fun _ => ?_⟩⟩
  exact giveCast_gives he _

theorem selectDynamic_gives (he : e.isKnown known = true) (index : Expression) :
    Gives π s r known (selectDynamic e index) isGood := by
  simp only [Gives, selectDynamic, Parsing.ite_iff, pure_bind]
  refine ⟨fun hc => ?_, fun hc => ?_⟩
  · refine .bind_step rfl fun value _ => .bind_step rfl fun temp _ => ?_
    refine .bind_value load_gives_any fun id known' _ _ _ => Parsing.done_results fun _ he => ?_
    obtain rfl := Option.some.inj he
    exact (Expression.addDynamicIndex_refines rfl id).isKnown (Expression.isKnown_toLvalue _ _ _)
  · refine .bind_value load_gives_any fun id known' _ hknown _ =>
      Parsing.done_results fun _ he' => ?_
    obtain rfl := Option.some.inj he'
    refine (Expression.addDynamicIndex_refines ?_ id).isKnown (Expression.isKnown_mono hknown he)
    simpa using hc

variable {recurse : Recurse}

theorem parseIndex_gives (hrec : recurse.ReadsExpressions π) (he : e.isKnown known = true) :
    MayGive π s r known (parseIndex recurse e) isGood := by
  simp only [MayGive, parseIndex, Parsing.ite_iff, Parsing.bind_read_iff, Parsing.pure_iff,
    Results.none, implies_true, true_and]
  intro _
  refine .bind_option (hrec.sequence _ _ _) (fun _ => rfl) fun index known' _ hknown _ => ?_
  have he' := Expression.isKnown_mono hknown he
  simp only [Parsing.ite_iff, Parsing.bind_read_iff, Parsing.pure_iff, Results.none,
    implies_true, true_and]
  intro _ _ _ _ _
  refine ⟨fun _ => selectConstant_gives he' index, fun _ => ?_⟩
  refine .bind_value (selectDynamic_gives he' index) fun e' _ _ _ hgood => ?_
  exact Parsing.done_results fun _ h => Option.some.inj h ▸ hgood

theorem parsePostfix_gives (hrec : recurse.ReadsExpressions π) (he : e.isKnown known = true) :
    MayGive π s r known (parsePostfix recurse e) isGood := by
  refine Parsing.loop_values isGood he fun e known r he => ?_
  rw [Parsing.bind_read_iff]
  intro t r' _
  dsimp only
  split
  · rw [Parsing.bind_read_iff]
    exact fun _ _ _ => .bind_proceed (parseStepBehind_gives _ _) (fun _ => rfl) rfl fun _ _ => id
  · rw [Parsing.bind_read_iff]
    exact fun _ _ _ => .bind_proceed (parseStepBehind_gives _ _) (fun _ => rfl) rfl fun _ _ => id
  · rw [Parsing.bind_read_iff]
    exact fun _ _ _ => .bind_proceed (parseMember_gives he) (fun _ => rfl) rfl fun _ _ => id
  · rw [Parsing.bind_read_iff]
    exact fun _ _ _ => .bind_proceed (parseIndex_gives hrec he) (fun _ => rfl) rfl fun _ _ => id
  · exact Parsing.done_results fun _ h => Option.some.inj h ▸ he

end ShaderEffect.Parser

namespace ShaderEffect

/-- Whether a symbol is that of a function of the effect, or of an overload of a built-in one. -/
def Symbol.IsCallable (f : Symbol) : Prop :=
  (f.kind = .function ∧ f.intrinsic = none) ∨
    ∃ o ∈ Intrinsic.overloads, f.kind = .intrinsic ∧ f.intrinsic = some o.variant
      ∧ f.type = o.decl.returnType ∧ f.function = some o.decl

namespace SymbolTable

theorem considerFunction_function {args : List Ty} {e : Entry} {fn : FunctionDecl} {c : Choice}
    (h : c.symbol.kind = .function ∧ c.symbol.intrinsic = none) :
    (considerFunction args e fn c).symbol.kind = .function
      ∧ (considerFunction args e fn c).symbol.intrinsic = none := by
  unfold considerFunction
  dsimp only
  split
  · exact h
  · split <;> exact h
  · exact h

theorem chooseFunction_function {args : List Ty} {scope : Scope} (entries : List Entry) {c : Choice}
    (h : c.symbol.kind = .function ∧ c.symbol.intrinsic = none) :
    (chooseFunction args scope entries c).symbol.kind = .function
      ∧ (chooseFunction args scope entries c).symbol.intrinsic = none := by
  induction entries generalizing c with
  | nil => exact h
  | cons e rest ih =>
    unfold chooseFunction
    split
    · exact ih h
    · split
      · exact ih h
      · split
        · exact h
        · split
          · exact ih h
          · exact ih (considerFunction_function h)

theorem considerIntrinsic_isCallable {args : List Ty} {c : Choice} {o : Intrinsic.Overload}
    (ho : o ∈ Intrinsic.overloads) (h : c.symbol.IsCallable) :
    (considerIntrinsic args c o).symbol.IsCallable := by
  unfold considerIntrinsic
  split
  · exact .inr ⟨o, ho, rfl, rfl, rfl, rfl⟩
  · split <;> exact h
  · exact h

theorem foldl_considerIntrinsic_isCallable {args : List Ty} (os : List Intrinsic.Overload)
    {c : Choice} (hos : os ⊆ Intrinsic.overloads) (h : c.symbol.IsCallable) :
    (os.foldl (considerIntrinsic args) c).symbol.IsCallable := by
  induction os generalizing c with
  | nil => exact h
  | cons o os ih =>
    exact ih (fun _ hx => hos (List.mem_cons_of_mem _ hx))
      (considerIntrinsic_isCallable (hos List.mem_cons_self) h)

theorem resolveCall_isCallable (t : SymbolTable) (name : String) (args : List Ty) (scope : Scope) :
    (t.resolveCall name args scope).symbol.IsCallable := by
  unfold resolveCall
  dsimp only
  split
  · refine foldl_considerIntrinsic_isCallable _ (fun o ho => (List.mem_filter.mp ho).1) (.inl ?_)
    exact chooseFunction_function _ ⟨rfl, rfl⟩
  · exact .inl (chooseFunction_function _ ⟨rfl, rfl⟩)

end SymbolTable

/-- What a built-in function passes on is the value of a number, and one without a
result gives nothing. -/
theorem Intrinsic.overloads_sound : ∀ o ∈ Intrinsic.overloads,
    (o.variant = .sincos → o.decl.returnType.base = .void)
      ∧ (o.variant.passesOn = true → ∀ p ∈ o.decl.parameters,
        p.type.isNumeric = true ∧ p.type.has .output = false ∧ p.type.isSampler = false) := by
  decide +kernel

namespace Parser

variable {π : Type} [Inhabited π] {s : Surroundings} {r : Reader} {known : List Fact}
  {recurse : Recurse}

/-- Whether all parameters are numbers that are passed as values. -/
def takesNumbers (params : List Member) : Prop :=
  ∀ p ∈ params, p.type.isNumeric = true ∧ p.type.has .output = false
    ∧ p.type.isSampler = false

theorem prepareArgument_gives (isUser : Bool) {arg : Expression} (harg : arg.isKnown known = true)
    (t : Ty) :
    MayGive π s r known (prepareArgument isUser arg t) fun pair known' =>
      isUser = false → t.isNumeric = true → t.has .output = false → t.isSampler = false →
        .value pair.2.base ∈ known' := by
  simp only [MayGive, prepareArgument, Parsing.ite_iff, Parsing.bind_read_iff,
    Parsing.bind_except_iff, Parsing.pure_iff, Results.none, implies_true, true_and]
  intro _ _ _ _ arg' hcast
  obtain ⟨hrefines, hbase⟩ := Expression.addCast_refines hcast
  refine ⟨fun hsampler => ?_, fun hsampler => ⟨fun hvariable => ?_, fun hvariable => ?_⟩⟩
  · refine Results.done fun _ _ _ h => ?_
    rw [hsampler] at h
    cases h
  · refine .bind_step rfl fun temp _ => Parsing.done_results fun _ _ huser _ houtput _ => ?_
    simp only [huser, houtput, Bool.or_self, Bool.false_eq_true] at hvariable
  · refine .bind_value (load_gives (hrefines.isKnown harg)) fun value known' _ _ hvalue => ?_
    refine Parsing.done_results fun pair hpair _ hnumeric _ _ => ?_
    obtain rfl := Option.some.inj hpair
    refine hvalue.2 ?_
    simpa only [Ty.isNumeric, hbase] using hnumeric

theorem prepareArguments_gives (isUser : Bool) (args : List (Expression × Member))
    {known : List Fact} {r : Reader} (hargs : ∀ a ∈ args, a.1.isKnown known = true) :
    MayGive π s r known (prepareArguments isUser args) fun pairs known' =>
      isUser = false → takesNumbers (args.map (·.2)) →
        ∀ pair ∈ pairs, .value pair.2.base ∈ known' := by
  induction args generalizing known r with
  | nil =>
    unfold prepareArguments
    refine Parsing.done_results fun pairs hpairs => ?_
    obtain rfl := Option.some.inj hpairs
    exact fun _ _ pair hpair => absurd hpair List.not_mem_nil
  | cons a rest ih =>
    obtain ⟨arg, p⟩ := a
    unfold prepareArguments
    refine .bind_option (prepareArgument_gives isUser (hargs _ List.mem_cons_self) p.type)
      (fun _ => rfl) fun first known₁ _ hknown₁ hfirst => ?_
    refine .bind_option (ih fun a ha => ?_) (fun _ => rfl) fun more known₂ _ hknown₂ hmore => ?_
    · exact Expression.isKnown_mono hknown₁ (hargs a (List.mem_cons_of_mem _ ha))
    · refine Parsing.done_results fun pairs hpairs huser hparams pair hpair => ?_
      obtain rfl := Option.some.inj hpairs
      obtain ⟨hnumeric, houtput, hsampler⟩ := hparams p List.mem_cons_self
      rcases List.mem_cons.mp hpair with rfl | hpair
      · exact hknown₂ (hfirst huser hnumeric houtput hsampler)
      · exact hmore huser (fun q hq => hparams q (List.mem_cons_of_mem _ hq)) pair hpair

omit [Inhabited π] in
/-- What a call gives is known, since a function without a result gives nothing that has a value. -/
theorem isKnown_callIntrinsic {i : Intrinsic} {t : Ty} {location : Location}
    {args : List Expression} {id : Id} {note : π} {known' : List Fact}
    (hknown : Entry.extend known ⟨.callIntrinsic location i t args, id, note⟩ ⊆ known')
    (hvoid : i = .sincos → t.base = .void)
    (hargs : i.passesOn = true → ∀ a ∈ args, .value a.base ∈ known) :
    (Expression.toRvalue {} location id t).isKnown known' = true := by
  by_cases hi : i = .sincos
  · refine Expression.isKnown_toRvalue_other _ ?_ (hknown ?_)
    · simp only [Ty.isNumeric, hvoid hi]
    · simp only [Entry.extend, Entry.facts, hi, if_true, List.mem_append,
        List.mem_singleton, true_or]
  · refine Expression.isKnown_toRvalue _ _ (hknown ?_)
    have hall : (i.passesOn && !args.all (.value ·.base ∈ known)) = false := by
      cases hp : i.passesOn with
      | false => rfl
      | true => simpa using hargs hp
    simp [Entry.extend, Entry.facts, Fact.ofValue, hi, hall]

/-- Arguments are passed on, some of them. -/
theorem passArguments_gives {isMoved : Expression × Expression → Bool}
    {source target : Expression × Expression → Expression}
    (pairs : List (Expression × Expression)) (known : List Fact) (r : Reader) :
    Gives π s r known (pairs.forM fun pair => do
      if isMoved pair then
        let value ← load (source pair)
        emit (.store (target pair) value)) fun _ _ => True := by
  refine Parsing.forM_results pairs (fun pair known r => ?_) known r
  rw [Gives, Parsing.ite_iff]
  refine ⟨fun _ => .bind_value load_gives_any fun _ _ _ _ _ => ?_, fun _ => ?_⟩
  · exact .step_results rfl fun _ _ _ _ => trivial
  · exact Parsing.done_results fun _ _ => trivial

theorem emitCall_gives {f : Symbol} (hf : f.IsCallable) (location : Location)
    {args : List Expression} (hargs : ∀ a ∈ args, a.isKnown known = true) :
    MayGive π s r known (emitCall location f args) isGood := by
  unfold emitCall
  dsimp only
  refine .bind_option (prepareArguments_gives _ _ fun a ha => ?_) (fun _ => rfl)
    fun pairs known₁ _ _ hpairs => ?_
  · exact hargs _ (List.of_mem_zip ha).1
  refine .bind_value (passArguments_gives pairs known₁ _) fun _ known₂ _ hknown₂ _ => ?_
  have hfinish {known₃ : List Fact} {r : Reader} {e : Expression}
      (he : e.isKnown known₃ = true) :
      MayGive π s r known₃ (do
        pairs.forM fun pair => do
          if isPassed pair.2 .output then
            let value ← load pair.2
            emit (.store pair.1 value)
        return some e) isGood := by
    refine .bind_value (passArguments_gives pairs known₃ _) fun _ known₄ _ hknown₄ _ => ?_
    refine Parsing.done_results fun _ h => ?_
    obtain rfl := Option.some.inj h
    exact Expression.isKnown_mono hknown₄ he
  rcases hf with ⟨hkind, hintrinsic⟩ | ⟨o, ho, hkind, hintrinsic, htype, hfunction⟩
  · simp only [hkind, hintrinsic]
    refine .bind_step rfl fun result note => hfinish ?_
    exact Expression.isKnown_toRvalue _ _ List.mem_cons_self
  · obtain ⟨hvoid, hnumbers⟩ := Intrinsic.overloads_sound o ho
    have huser : decide (f.kind = Symbol.Kind.function) = false := by rw [hkind]; rfl
    simp only [hintrinsic, huser]
    refine .bind_step rfl fun result note => hfinish ?_
    refine isKnown_callIntrinsic (List.Subset.refl _) (fun hi => htype ▸ hvoid hi)
      fun hi a ha => ?_
    obtain ⟨pair, hpair, rfl⟩ := List.mem_map.mp ha
    refine hknown₂ (hpairs huser (fun p hp => hnumbers hi p ?_) pair hpair)
    obtain ⟨q, hq, rfl⟩ := List.mem_map.mp hp
    simpa [hfunction] using (List.of_mem_zip hq).2

/-- Expressions that are all known. -/
abbrev areGood (es : List Expression) (known : List Fact) : Prop :=
  ∀ e ∈ es, e.isKnown known = true

/-- One more argument. -/
theorem nextArgument_results (hrec : recurse.ReadsExpressions π)
    {check : Expression → ParseM Bool}
    (hcheck : ∀ e known r, Gives π s r known (check e) fun _ _ => True) {args : List Expression}
    (hargs : areGood args known) :
    Parsing (do
      let some arg ← recurse .assignment | return .inr none
      if ← check arg then return .inl (args ++ [arg]) else return .inr none) s r
      fun (es : List (Entry π)) c _ =>
        Results (.evaluations s) known es (Parsing.roundView some (fun a => a) c)
        (Sum.elim areGood areGood) := by
  refine .bind_option (hrec.assignment _ _ _) (fun _ => rfl) fun arg known₁ _ hknown₁ harg => ?_
  refine .bind_value (hcheck arg _ _) fun good known₂ _ hknown₂ _ => ?_
  rw [Parsing.ite_iff]
  refine ⟨fun _ => Parsing.done_results fun _ h => ?_, fun _ => Results.none⟩
  obtain rfl := Option.some.inj h
  intro a ha
  rcases List.mem_append.mp ha with ha | ha
  · exact Expression.isKnown_mono (List.Subset.trans hknown₁ hknown₂) (hargs a ha)
  · obtain rfl := List.mem_singleton.mp ha
    exact Expression.isKnown_mono hknown₂ harg

theorem parseArguments_gives (hrec : recurse.ReadsExpressions π) (close : Token.Kind)
    {check : Expression → ParseM Bool}
    (hcheck : ∀ e known r, Gives π s r known (check e) fun _ _ => True) :
    MayGive π s r known (parseArguments recurse close check) areGood := by
  refine Parsing.loop_values areGood (fun a ha => absurd ha List.not_mem_nil)
    fun args known r hargs => ?_
  simp only [Parsing.bind_read_iff, Parsing.ite_iff, Parsing.pure_iff]
  refine fun _ _ _ =>
    ⟨fun _ => ?_, fun _ => ⟨fun _ _ _ _ => ⟨fun _ => ?_, fun _ => ?_⟩, fun _ => ?_⟩⟩
  · exact Results.done hargs
  · exact Results.none
  · exact nextArgument_results hrec hcheck hargs
  · exact nextArgument_results hrec hcheck hargs

theorem parseCall_gives (hrec : recurse.ReadsExpressions π) (n : Named) (location : Location) :
    MayGive π s r known (parseCall recurse n location) isGood := by
  simp only [MayGive, parseCall, Parsing.ite_iff, Parsing.bind_read_iff, Parsing.pure_iff,
    Results.none, implies_true, true_and]
  intro _
  have hargs :
      MayGive π s r known (parseArguments recurse .parenClose fun _ => return true) areGood :=
    parseArguments_gives hrec _ fun _ _ _ => Parsing.done_results fun _ _ => trivial
  refine .bind_option hargs (fun _ => rfl) fun args known' _ _ hargs => ?_
  simp only [Parsing.ite_iff, Parsing.bind_read_iff, Parsing.pure_iff, Results.none,
    implies_true, true_and]
  intro _ _ _ _
  refine .bind_step rfl fun inFunction _ => ?_
  simp only [Parsing.ite_iff, Parsing.bind_read_iff, Parsing.pure_iff, Results.none, implies_true,
    true_and, Parsing.bind_get_iff, and_true]
  intro _ _ _
  refine emitCall_gives (SymbolTable.resolveCall_isCallable _ _ _ _) location fun a ha => ?_
  exact Expression.isKnown_mono (Entry.subset_extend _ _) (hargs a ha)

end Parser
end ShaderEffect

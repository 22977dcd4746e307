import ShaderEffect.Proofs.Parsing.Operation

namespace ShaderEffect.Parser

variable {α π : Type} [Inhabited π] {s : Surroundings} {r : Reader} {known : List Fact}
  {recurse : Recurse} {t : Ty} {S : Shape π}

theorem parseCommaSeparated_results {item : α → ParseM (Option α)}
    (hitem : ∀ a known r, Parsing (item a) s r fun (es : List (Entry π)) a _ =>
      Results S known es a fun _ _ => True) (a : α) :
    Parsing (parseCommaSeparated item a) s r fun (es : List (Entry π)) a _ =>
      Results S known es a fun _ _ => True := by
  refine Parsing.loop_values (fun _ _ => True) trivial fun (isFirst, a) known r _ => ?_
  cases isFirst with
  | true => exact .bind_proceed (hitem a known r) (fun _ => rfl) rfl fun _ _ => id
  | false =>
    simp only [Bool.not_false, if_true, Parsing.bind_read_iff, Parsing.ite_iff, Parsing.pure_iff]
    refine fun _ _ _ => ⟨fun _ => Results.done trivial,
      fun _ _ _ _ => ⟨fun _ => Results.none, fun _ => ?_⟩⟩
    exact .bind_proceed (hitem a known _) (fun _ => rfl) rfl fun _ _ => id

theorem parseLength_gives (hrec : recurse.ReadsExpressions π) :
    MayGive π s r known (parseLength recurse) fun _ _ => True := by
  simp only [MayGive, parseLength, Parsing.ite_iff, Parsing.bind_read_iff, Parsing.pure_iff]
  refine fun _ _ _ => ⟨fun _ => Results.done trivial, fun _ => ?_⟩
  refine .bind_option (hrec.sequence _ _ _) (fun _ => rfl) fun e _ _ _ _ => ?_
  simp only [Parsing.ite_iff, Parsing.bind_read_iff, Parsing.pure_iff, Results.none,
    implies_true, true_and]
  exact fun _ _ _ _ _ _ => Results.done trivial

/-- Whether two types differ at most in their shapes. -/
structure SameKind (t t' : Ty) : Prop where
  base : t'.base = t.base
  qualifiers : t'.qualifiers = t.qualifiers

theorem arraySize_gives {x : ParseM (Option Int)} (hx : MayGive π s r known x fun _ _ => True) :
    MayGive π s r known (do
      let length ← x
      let some arrayLength := length | return none
      if ← peek .bracketOpen then
        error (← nextToken).location 3119 "arrays cannot be multi-dimensional"
        return none
      return some { t with arrayLength }) fun t' _ => SameKind t t' := by
  refine .bind_option hx (fun _ => rfl) fun n _ _ _ _ => ?_
  simp only [Parsing.ite_iff, Parsing.bind_read_iff, Parsing.pure_iff, Results.none,
    implies_true, true_and]
  exact fun _ _ _ _ => Results.done ⟨rfl, rfl⟩

theorem parseArraySize_gives (hrec : recurse.ReadsExpressions π) :
    MayGive π s r known (parseArraySize recurse t) fun t' _ => SameKind t t' := by
  unfold parseArraySize
  rw [MayGive, Parsing.bind_read_iff]
  intro bracket r' _
  cases bracket with
  | true => exact arraySize_gives (parseLength_gives hrec)
  | false => exact arraySize_gives (Parsing.done_results fun _ _ => trivial)

theorem parseStateValue_gives (hrec : recurse.ReadsExpressions π)
    (values : List (String × UInt32)) :
    MayGive π s r known (parseStateValue recurse values) fun _ _ => True := by
  have hvalue {r : Reader} : MayGive π s r known (recurse (.multary 0)) fun _ _ => True := by
    refine (hrec.multary 0 s r known).mono fun es e _ he a ha => ?_
    obtain ⟨known', h, -⟩ := he a ha
    exact ⟨known', h, trivial⟩
  simp only [MayGive, parseStateValue, Parsing.bind_read_iff]
  intro _ _ _ named _ _
  cases named with
  | false => exact hvalue
  | true =>
    refine (Parsing.bind_read_iff _ _).mpr fun t _ _ => ?_
    split
    · exact Results.done trivial
    · refine (Parsing.bind_read_iff _ _).mpr fun _ _ _ => hvalue

theorem applyTexture_gives (resource : Resource) (e : Expression) :
    MayGive π s r known (applyTexture resource e) fun _ _ => True := by
  simp only [MayGive, applyTexture, Parsing.ite_iff, Parsing.bind_read_iff, Parsing.pure_iff,
    Results.none, implies_true, true_and]
  refine fun _ _ => .bind_step rfl fun texture _ => ?_
  cases texture with
  | none => exact Results.done trivial
  | some texture => exact Results.done trivial

theorem parseProperty_gives (hrec : recurse.ReadsExpressions π) (resource : Resource) :
    MayGive π s r known (parseProperty recurse resource) fun _ _ => True := by
  simp only [MayGive, parseProperty, Parsing.ite_iff, Parsing.bind_read_iff, Parsing.pure_iff,
    Results.none, implies_true, true_and]
  intro _ _ _ _ _ _ _ _ _ _ _
  refine .bind_option (parseStateValue_gives hrec _) (fun _ => rfl) fun e known' r' _ _ => ?_
  dsimp only
  split
  · exact .bind_semicolon (applyTexture_gives _ _) rfl fun _ => rfl
  · exact .bind_semicolon (.read_results fun _ _ _ => trivial) rfl fun _ => rfl

theorem parseProperties_gives (hrec : recurse.ReadsExpressions π) :
    MayGive π s r known (parseProperties recurse) fun _ _ => True := by
  refine Parsing.loop_values (fun _ _ => True) trivial fun resource known r _ => ?_
  simp only [Parsing.ite_iff, Parsing.bind_read_iff, Parsing.pure_iff]
  refine fun _ _ _ => ⟨fun _ _ _ _ => ⟨fun _ => Results.done trivial, fun _ => Results.none⟩,
    fun _ => ?_⟩
  refine .bind_option (parseProperty_gives hrec resource) (fun _ => ?_) fun resource _ _ _ _ => ?_
  · rw [Parsing.bind_read_iff]
    exact fun _ _ _ => rfl
  · exact Results.done trivial

theorem annotationValue_gives (hrec : recurse.ReadsExpressions π) (name : String) :
    MayGive π s r known (do
      let some e ← recurse (.multary 0) | return none
      if ← expect .semicolon then return some (name, e) else return none) fun _ _ => True := by
  refine .bind_option (hrec.multary _ _ _ _) (fun _ => rfl) fun e _ _ _ _ => ?_
  simp only [Parsing.ite_iff, Parsing.bind_read_iff, Parsing.pure_iff, Results.none,
    implies_true, and_true]
  exact fun _ _ _ _ => Results.done trivial

theorem parseAnnotation_gives (hrec : recurse.ReadsExpressions π) :
    MayGive π s r known ( parseAnnotation recurse) fun _ _ => True := by
  simp only [MayGive, parseAnnotation, Parsing.ite_iff, Parsing.bind_read_iff, Parsing.pure_iff,
    Results.none, implies_true, true_and]
  refine fun _ _ _ => ⟨?_, ?_⟩
  · intros
    exact annotationValue_gives hrec _
  · intros
    exact annotationValue_gives hrec _

/-- Annotations as they are seen: there are none unless all of them are valid. -/
def Annotations.view (a : Annotations) : Option Unit :=
  whether a.valid

theorem parseAnnotations_does (hrec : recurse.ReadsExpressions π) :
    Parsing (parseAnnotations recurse) s r fun (es : List (Entry π)) a _ =>
      Results (.evaluations s) known es a.view fun _ _ => True := by
  simp only [parseAnnotations, Parsing.ite_iff, Parsing.bind_read_iff, Parsing.pure_iff]
  refine fun _ _ _ => ⟨fun _ => Results.done trivial, fun _ => ?_⟩
  refine Parsing.loop_values (fun _ _ => True) trivial fun a known r _ => ?_
  simp only [Parsing.ite_iff, Parsing.bind_read_iff, Parsing.pure_iff]
  refine fun _ _ _ => ⟨fun _ _ _ _ => Results.nothing fun d _ => ?_, fun _ => ?_⟩
  · cases d <;> trivial
  · refine .bind_option (parseAnnotation_gives hrec) (fun _ => ?_)
      fun annotation known' _ _ _ => ?_
    · rw [Parsing.bind_read_iff]
      exact fun _ _ _ => rfl
    · simp only [Parsing.ite_iff, Parsing.bind_read_iff, Parsing.pure_iff]
      exact ⟨fun _ => Results.done trivial, fun _ _ _ _ => Results.done trivial⟩

theorem parseInitializer_gives (hrec : recurse.ReadsExpressions π) (name : String)
    (isGlobal : Bool) :
    MayGive π s r known (parseInitializer recurse name t isGlobal)
      fun init _ => SameKind t init.1 := by
  refine .bind_option (hrec.assignment _ _ _) (fun _ => rfl) fun e _ _ _ _ => ?_
  simp only [Parsing.ite_iff, Parsing.bind_read_iff, Parsing.bind_except_iff, Parsing.pure_iff,
    Results.none, implies_true, true_and]
  intro _ _ _ _ _ _ e' _
  refine Results.done ?_
  dsimp only
  split
  · exact ⟨rfl, rfl⟩
  · exact ⟨rfl, rfl⟩

/-- What stands behind a name as it is seen: it is nothing unless its annotations are valid. -/
def Tail.view (tail : Tail) : Option Tail :=
  if tail.valid then some tail else none

theorem Tail.eq_of_view {tail tail' : Tail} (h : tail.view = some tail') : tail = tail' := by
  unfold Tail.view at h
  split at h
  · exact Option.some.inj h
  · cases h

theorem parseValue_gives (hrec : recurse.ReadsExpressions π) (location : Location) (name : String)
    (isGlobal : Bool) {tail : Tail} (ht : SameKind t tail.type) :
    MayGive π s r known (parseValue recurse location name isGlobal tail) fun tail' _ =>
      SameKind t tail'.type ∧ tail'.valid = tail.valid := by
  simp only [MayGive, parseValue, Parsing.ite_iff, Parsing.bind_read_iff, Parsing.pure_iff,
    Results.none, implies_true, true_and]
  have hdone {tail' : Tail} (h : tail'.type = tail.type) (hv : tail'.valid = tail.valid) :
      Results (.evaluations s) known ([] : List (Entry π)) (some tail') fun tail' _ =>
        SameKind t tail'.type ∧ tail'.valid = tail.valid := Results.done ⟨h ▸ ht, hv⟩
  refine fun _ _ _ =>
    ⟨fun _ => ?_, fun _ => ⟨fun _ _ => ⟨fun _ => hdone rfl rfl, fun _ => hdone rfl rfl⟩,
    fun _ => ⟨fun _ _ _ _ => ⟨fun _ _ => ?_, fun _ => hdone rfl rfl⟩,
      fun _ => hdone rfl rfl⟩⟩⟩
  · refine .bind_option (parseInitializer_gives hrec name isGlobal) (fun _ => rfl)
      fun init _ _ _ hinit => ?_
    exact Results.done ⟨⟨hinit.base.trans ht.base, hinit.qualifiers.trans ht.qualifiers⟩,
      rfl⟩
  · refine .bind_option (parseProperties_gives hrec) (fun _ => rfl) fun resource _ _ _ _ => ?_
    exact Results.done ⟨ht, rfl⟩

theorem parseTail_gives (hrec : recurse.ReadsExpressions π) (location : Location) (name : String)
    (isGlobal : Bool) :
    Parsing (parseTail recurse location name t isGlobal) s r fun (es : List (Entry π)) tail _ =>
      Results (.evaluations s) known es (tail.bind Tail.view)
        fun tail' _ => SameKind t tail'.type := by
  have hvalue {annotations : Annotations} (known : List Fact) {r : Reader} :
      MayGive π s r known (parseValue recurse location name isGlobal
        { type := t, annotations := annotations.entries, valid := annotations.valid })
        fun tail' _ =>
          SameKind t tail'.type ∧ tail'.valid = annotations.valid :=
    parseValue_gives hrec location name isGlobal ⟨rfl, rfl⟩
  -- The flag of the annotations stays with what is read behind them.
  have hbehind {x : ParseM Annotations} {r : Reader}
      (hx : Parsing x s r fun (es : List (Entry π)) a _ =>
        Results (.evaluations s) known es a.view fun _ _ => True) :
      Parsing (do
        let annotations ← x
        parseValue recurse location name isGlobal
          { type := t, annotations := annotations.entries, valid := annotations.valid }) s r
        fun (es : List (Entry π)) tail _ =>
          Results (.evaluations s) known es (tail.bind Tail.view)
            fun tail' _ => SameKind t tail'.type := by
    refine .bind_results Annotations.view hx (fun a r' ha => ?_) fun a _ known' r' ha _ _ => ?_
    · refine (hvalue known).mono fun es tail _ h => ?_
      cases tail with
      | none => rfl
      | some tail =>
        obtain ⟨_, _, _, hvalid⟩ := h tail rfl
        simp only [Option.bind_some, Tail.view, hvalid, whether_eq_none.mp ha,
          Bool.false_eq_true, if_false]
    · refine (hvalue known').mono fun es tail _ h tail' htail => ?_
      obtain ⟨tail, rfl, hview⟩ := Option.bind_eq_some_iff.mp htail
      obtain ⟨known'', hholds, hkind, -⟩ := h tail rfl
      obtain rfl := Tail.eq_of_view hview
      exact ⟨known'', hholds, hkind⟩
  simp only [parseTail, Parsing.ite_iff, Parsing.bind_read_iff, Parsing.pure_iff]
  refine fun _ _ _ => ⟨fun _ _ _ _ => ⟨fun _ => Results.none, fun _ _ _ _ => ?_⟩,
    fun _ => ⟨fun _ => ?_, fun _ => ?_⟩⟩
  · exact ⟨fun _ _ _ _ => Results.none, fun _ => Results.done ⟨rfl, rfl⟩⟩
  · exact hbehind (parseAnnotations_does hrec)
  · exact hbehind (Results.done trivial)

theorem reportFailed_true {location : Location} {name : String}
    {checks : List (Bool × Int × String)} {r r' : Reader}
    (h : reportFailed location name checks r = .ok (true, r')) : checks.filter (·.1) = [] := by
  simp only [reportFailed, bind_eq_ok, pure_eq_ok] at h
  obtain ⟨_, _, _, hempty, _⟩ := h
  exact List.isEmpty_iff.mp hempty

theorem checkVariable_local {location : Location} {name : String} {t' : Ty} {r r' : Reader}
    (h : checkVariable location name t false r = .ok (some t', r')) :
    t' = t ∧ t.isTexture = false ∧ t.isSampler = false ∧ t.has .uniform = false := by
  simp only [checkVariable, checkLocal, ite_eq_ok, bind_eq_ok, pure_eq_ok, reduceCtorEq, false_and,
    and_false, exists_false, false_or, Bool.false_eq_true, Option.some.injEq] at h
  obtain ⟨-, -, -, ok, _, hreport, ⟨rfl, rfl, rfl⟩ | h⟩ := h
  · have hnone := reportFailed_true hreport
    simp only [List.filter_cons, List.filter_nil] at hnone
    grind
  · cases h

theorem defineStorage_gives (location : Location) (name : String) (tail : Tail) :
    Gives π s r known (defineStorage location name tail false) fun _ _ => True := by
  unfold defineStorage
  simp only [Gives, Bool.false_eq_true, if_false, pure_bind]
  split
  · refine .bind_value load_gives_any fun value _ _ _ _ => ?_
    exact .step_results rfl fun _ _ _ _ => trivial
  · exact .step_results rfl fun _ _ _ _ => trivial

theorem defineSymbol_gives (location : Location) (name : String) {tail : Tail}
    (htexture : tail.type.isTexture = false) (hsampler : tail.type.isSampler = false)
    (huniform : tail.type.has .uniform = false) :
    MayGive π s r known (defineSymbol location name tail false) fun _ _ => True := by
  unfold defineSymbol
  dsimp only
  split
  · exact Results.done trivial
  · simp only [htexture, hsampler, huniform, Bool.false_eq_true, if_false]
    refine .bind_value (defineStorage_gives location name tail) fun id _ _ _ _ => ?_
    exact Parsing.done_results fun _ _ => trivial

/-- Declares a variable from behind what stands behind its name. -/
theorem declareVariable_does {isGlobal : Bool} {location : Location} {name : String}
    {x : ParseM (Option Tail)} {good : Tail → List Fact → Prop}
    (hx : Parsing x s r fun (es : List (Entry π)) tail _ =>
      Results S known es (tail.bind Tail.view) good)
    (hdefine : ∀ tail known r, good tail known →
      Parsing (defineSymbol location name tail isGlobal) s r fun (es : List (Entry π)) symbol _ =>
        Results S known es symbol fun _ _ => True) :
    Does S s r known do
      let some tail ← x | return false
      if tail.type.arrayLength < 0 then
        declarationError location 3074 name "implicit array missing initial value"
        return false
      let some symbol ← defineSymbol location name tail isGlobal | return false
      return (← declareOnce location name symbol isGlobal) && tail.valid := by
  refine .bind_results (·.bind Tail.view) hx (fun tail r' htail => ?_)
    fun tail tail' known' r' htail _ hgood => ?_
  · cases tail with
    | none => exact rfl
    | some tail =>
      have hvalid : tail.valid = false := by simpa [Tail.view] using htail
      simp only [Parsing.ite_iff, Parsing.bind_read_iff, Parsing.pure_iff]
      refine ⟨fun _ _ _ _ => rfl, fun _ => .bind_any fun symbol r'' => ?_⟩
      cases symbol with
      | none => exact rfl
      | some symbol =>
        simp only [Parsing.bind_read_iff, Parsing.pure_iff, hvalid, Bool.and_false]
        exact fun _ _ _ => rfl
  · obtain ⟨tail, rfl, hview⟩ := Option.bind_eq_some_iff.mp htail
    obtain rfl := Tail.eq_of_view hview
    simp only [Parsing.ite_iff, Parsing.bind_read_iff, Parsing.pure_iff]
    refine ⟨fun _ _ _ _ => Results.none, fun _ => ?_⟩
    refine .bind_option (hdefine tail known' _ hgood) (fun _ => rfl) fun symbol _ _ _ _ => ?_
    simp only [Parsing.bind_read_iff, Parsing.pure_iff]
    exact fun _ _ _ => Results.nothing fun _ _ => trivial

theorem parseVariable_does (hrec : recurse.ReadsExpressions π) (t : Ty) :
    Does (.evaluations s : Shape π) s r known (parseVariable recurse t false) := by
  simp only [Does, parseVariable, Parsing.bind_read_iff]
  intro _ _ _ checked _ hchecked
  cases checked with
  | none => exact Results.none
  | some checked =>
    obtain ⟨rfl, htexture, hsampler, huniform⟩ := checkVariable_local hchecked
    refine .bind_option (parseArraySize_gives hrec) (fun _ => rfl) fun sized _ _ _ hsized => ?_
    refine declareVariable_does (parseTail_gives hrec _ _ _) fun tail known r htail => ?_
    refine defineSymbol_gives _ _ ?_ ?_ ?_
    · simpa only [Ty.isTexture, htail.base, hsized.base] using htexture
    · simpa only [Ty.isSampler, htail.base, hsized.base] using hsampler
    · simpa only [Ty.has, htail.qualifiers, hsized.qualifiers] using huniform

theorem parseLocals_does (hrec : recurse.ReadsExpressions π) (t : Ty) :
    Does (.evaluations s : Shape π) s r known (parseLocals recurse t) := by
  unfold parseLocals
  refine .bind_results id (parseCommaSeparated_results (fun a known r => ?_) ()) (fun a _ ha => ?_)
    fun a _ known' _ ha _ _ => ?_
  · simp only [Parsing.ite_iff, Parsing.bind_read_iff, Parsing.pure_iff, Results.none,
      implies_true, true_and]
    refine fun _ _ _ _ => .bind_does (parseVariable_does hrec t) (fun _ => rfl) fun _ _ _ => ?_
    exact Results.done trivial
  · obtain rfl : a = none := ha
    exact rfl
  · exact Parsing.done_results fun _ _ => trivial

/-- A part that gives whether there is an expression. -/
theorem isSome_does {x : ParseM (Option Expression)} (hx : MayGive π s r known x isGood) :
    Does (.evaluations s : Shape π) s r known (do
      let e ← x
      return e.isSome) := by
  refine .bind_option hx (fun _ => rfl) fun e _ _ _ _ => ?_
  exact Parsing.done_results fun _ _ => trivial

theorem parseLocalsOrExpression_does (hrec : recurse.ReadsExpressions π) :
    Does (.evaluations s : Shape π) s r known (parseLocalsOrExpression recurse) := by
  rw [Does, parseLocalsOrExpression, Parsing.bind_read_iff]
  intro type _ _
  cases type with
  | some t => exact parseLocals_does hrec t
  | none => exact isSome_does (hrec.sequence _ _ _)

theorem parseInParentheses_gives (hrec : recurse.ReadsExpressions π) :
    MayGive π s r known (parseInParentheses recurse) isGood := by
  simp only [MayGive, parseInParentheses, Parsing.ite_iff, Parsing.bind_read_iff, Parsing.pure_iff,
    Results.none, implies_true, true_and]
  refine fun _ _ _ _ => .bind_option (hrec.sequence _ _ _) (fun _ => rfl) fun e _ _ _ he => ?_
  simp only [Parsing.ite_iff, Parsing.bind_read_iff, Parsing.pure_iff, Results.none,
    implies_true, and_true]
  exact fun _ _ _ _ => Results.done he

theorem loadScalar_gives {e : Expression} (he : e.isKnown known = true) {base : Base}
    (hbase : (Ty.scalar base).isNumeric = true) (message : String) :
    MayGive π s r known (loadScalar e base message) fun id known' => .value id ∈ known' := by
  simp only [MayGive, loadScalar, Parsing.ite_iff, Parsing.bind_read_iff, Parsing.bind_except_iff,
    Parsing.pure_iff, Results.none, implies_true, true_and]
  intro _ e' hcast
  obtain ⟨hrefines, htype⟩ := Expression.addCast_refines hcast
  refine .bind_value (load_gives (hrefines.isKnown he)) fun id known' _ _ hid => ?_
  refine Parsing.done_results fun _ h => Option.some.inj h ▸ hid.2 ?_
  simpa only [Ty.isNumeric, htype] using hbase

theorem parseCondition_gives (hrec : recurse.ReadsExpressions π) (message : String) :
    MayGive π s r known (parseCondition recurse message) fun id known' => .value id ∈ known' :=
  .bind_option (parseInParentheses_gives hrec) (fun _ => rfl)
    fun _ _ _ _ he => loadScalar_gives he rfl message

end ShaderEffect.Parser

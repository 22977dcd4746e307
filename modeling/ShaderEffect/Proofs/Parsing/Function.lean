import ShaderEffect.Parser.Function
import ShaderEffect.Proofs.Parsing.Switch

namespace ShaderEffect

variable {π : Type} [Inhabited π]

namespace Parser

variable {s : Surroundings} {r : Reader} {known : List Fact} {recurse : Recurse}

theorem inScope_results {part : ParseM Bool} {Q : List (Entry π) → Bool → Prop}
    (h : ∀ r, Parsing part s r fun (es : List (Entry π)) ok _ => Q es ok) :
    Parsing (inScope part) s r fun (es : List (Entry π)) ok _ => Q es ok := by
  unfold inScope
  rw [Parsing.bind_read_iff]
  intro _ _ _
  refine .bind (h _) fun es ok _ hok => ?_
  rw [Parsing.bind_read_iff]
  intro _ _ _
  rw [Parsing.pure_iff, List.append_nil]
  exact hok

/-- A statement that begins with a keyword, behind the requests made in front of every statement. -/
theorem parseKeywordStatement_results (hrec : recurse.ReadsStatements π) (h : Hints)
    (known : List Fact) :
    Parsing (parseKeywordStatement? recurse h) s r fun (es : List (Entry π)) result _ =>
      result.elim (es = []) fun ok =>
        Results (.statements s) known (statementStart ++ es) (whether ok) fun _ _ => True := by
  have hbehind {part : ParseM Bool} {r : Reader}
      (hpart : ∀ r, Parsing part s r fun (es : List (Entry π)) ok _ =>
        Results (.statements s) known (statementStart ++ es) (whether ok) fun _ _ => True) :
      Parsing (do
        consume
        return some (← part)) s r
        fun (es : List (Entry π)) result _ => result.elim (es = []) fun ok =>
          Results (.statements s) known (statementStart ++ es) (whether ok) fun _ _ => True := by
    rw [Parsing.bind_read_iff]
    intro _ _ _
    refine .bind (hpart _) fun es ok _ hok => ?_
    rw [Parsing.pure_iff, List.append_nil]
    exact hok
  have hdiscard (r : Reader) : Parsing (do
      let _ ← emit .leaveAndKill
      expect .semicolon) s r fun (es : List (Entry π)) ok _ =>
        Results (.statements s) known (statementStart ++ es) (whether ok) fun _ _ => True := by
    refine .bind_emit fun ended note => ?_
    rw [Parsing.read_iff]
    intro ok _ _
    refine statement_results (.leave .nothing (.discard ended note)) ?_ ?_ ?_ ?_
    · simp only [Statement.entries, Evaluation.entries, Exit.entry, List.append_nil]
    · simp only [Statement.All]
      exact fun _ => rfl
    · simp only [Statement.Scoped, Exit.Scoped]
    · simp only [Statement.Grounded, Evaluation.Grounded]
  unfold parseKeywordStatement?
  rw [Parsing.bind_read_iff]
  intro token _ _
  dsimp only
  split
  · exact hbehind fun _ => parseIf_results hrec _ _
  · exact hbehind fun _ => parseSwitch_results hrec _ _
  · exact hbehind fun _ => inScope_results fun _ => parseFor_results hrec _ _
  · exact hbehind fun _ => inScope_results fun _ => parseWhile_results hrec _ _
  · exact hbehind fun _ => parseDo_results hrec _ _
  · exact hbehind fun _ => parseJump_results _ _ _ fun _ _ h => h
  · exact hbehind fun _ => parseJump_results _ _ _ fun _ _ h => h
  · exact hbehind fun _ => parseReturn_results hrec _
  · exact hbehind hdiscard
  · exact rfl

theorem parseSimpleStatement_does (hrec : recurse.ReadsStatements π) :
    Does (.evaluations s : Shape π) s r known (parseSimpleStatement recurse) := by
  refine .bind_does (parseLocalsOrExpression_does hrec.toReadsExpressions) (fun _ => ?_)
    fun _ _ _ => ?_
  · simp only [Bool.false_eq_true, if_false, Parsing.read_iff]
    exact fun ok _ hok => by rw [failAfter_eq_ok hok]; rfl
  · exact Parsing.read_does

/-- Statements in braces, behind what was asked in front of them. -/
theorem nested_results {ok : Bool} {es : List (Entry π)}
    (h : Results (.statements s) known es (whether ok) fun _ _ => True) :
    Results (.statements s) known (.quiet .isInBlock true :: es) (whether ok) fun _ _ => True := by
  intro u hok
  obtain ⟨_, ⟨t, rfl, hall, hscoped, hgrounded, -⟩, -⟩ := h u hok
  refine statement_results (.nested t) ?_ ?_ ?_ ?_ u hok
  · simp only [Statement.entries]
  · simpa only [Statement.All] using hall
  · simpa only [Statement.Scoped] using hscoped
  · simpa only [Statement.Grounded] using hgrounded

/-- An evaluation that is a statement of its own. -/
theorem evaluate_results {ok inFunction : Bool} {es : List (Entry π)}
    (h : Results (.evaluations s) known es (whether ok) fun _ _ => True) :
    Results (.statements s) known (.quiet .isInBlock true :: .quiet .isInFunction inFunction :: es)
      (whether ok) fun _ _ => True := by
  intro u hok
  obtain ⟨_, ⟨t, rfl, hallowed, hgrounded, -⟩, -⟩ := h u hok
  refine statement_results (.evaluate inFunction t) ?_ ?_ ?_ ?_ u hok
  · simp only [Statement.entries]
  · simp only [Statement.All]
    exact hallowed
  · simp only [Statement.Scoped]
  · simpa only [Statement.Grounded] using hgrounded

theorem parseStatement_does (hrec : recurse.ReadsStatements π) (newScope : Bool) :
    Does (.statements s : Shape π) s r known (parseStatement recurse newScope) := by
  unfold parseStatement
  refine .bind_quiet rfl fun inBlock => ?_
  cases inBlock with
  | false =>
    simp only [Bool.not_false, if_true, Parsing.bind_read_iff, Parsing.pure_iff]
    exact fun _ _ _ _ _ _ => Results.none
  | true =>
    simp only [Bool.not_true, Bool.false_eq_true, if_false, Parsing.bind_read_iff]
    intro hints r₁ _
    cases hints with
    | none => exact Results.none
    | some hints =>
      simp only [Parsing.bind_read_iff, Parsing.ite_iff, Parsing.pure_iff]
      refine fun _ _ _ => ⟨fun _ => ?_, fun _ _ _ _ => ⟨fun _ => ?_, fun _ => ?_⟩⟩
      · exact (parseBlock_does hrec newScope).mono fun _ _ _ h => nested_results h
      · exact nested_results (Results.done trivial)
      · refine .bind_quiet rfl fun inFunction => ?_
        cases inFunction with
        | false =>
          exact (parseSimpleStatement_does hrec).mono fun _ _ _ h => evaluate_results h
        | true =>
          refine .bind (parseKeywordStatement_results hrec hints known) fun es result _ h => ?_
          cases result with
          | some ok =>
            rw [Parsing.pure_iff, List.append_nil]
            exact h
          | none =>
            obtain rfl : es = [] := h
            exact (parseSimpleStatement_does hrec).mono fun _ _ _ h => evaluate_results h

end Parser

/-- Whether what a part of a source had generated is as the surroundings ask for. Functions know
nothing of the values of others. -/
def Item.Proper (s : Surroundings) : Item π → Prop
  | .outside .. | .evaluate _ => True
  | .procedure f =>
    f.body.All s.Allows ∧ f.body.Scoped s.breakTargets s.continueTargets ∧ f.body.Grounded []

/-- Parts of a source outside of functions. They know nothing of each other's values. -/
def Shape.items (s : Surroundings) : Shape π where
  Holds known es known' := known = known' ∧ ∃ items : List (Item π),
    items.flatMap Item.entries = es ∧ ∀ i ∈ items, i.Proper s
  nil known := ⟨rfl, [], rfl, fun _ hi => absurd hi List.not_mem_nil⟩
  append := by
    rintro known _ _ _ _ ⟨rfl, items, rfl, hitems⟩ ⟨rfl, more, rfl, hmore⟩
    refine ⟨rfl, items ++ more, List.flatMap_append, fun i hi => ?_⟩
    exact (List.mem_append.mp hi).elim (hitems i) (hmore i)
  subset := by
    rintro known _ _ ⟨rfl, _⟩
    exact List.Subset.refl _

variable {α : Type} {s : Surroundings} {r : Reader} {known : List Fact} {es : List (Entry π)}

theorem Shape.holds_item (i : Item π) (hi : i.Proper s) :
    (Shape.items s).Holds known i.entries known :=
  ⟨rfl, [i], List.flatMap_singleton .., fun j hj => by rwa [List.mem_singleton.mp hj]⟩

/-- An evaluation outside of functions. -/
theorem Results.item {result : Option α} {good : α → List Fact → Prop} {good' : α → Prop}
    (h : Results (.evaluations s) [] es result good)
    (hgood : ∀ a known, good a known → good' a) :
    Results (.items s) known es result fun a _ => good' a := by
  intro a ha
  obtain ⟨_, ⟨t, rfl, -⟩, hgood'⟩ := h a ha
  exact ⟨known, Shape.holds_item (.evaluate t) trivial, hgood a _ hgood'⟩

namespace Parser

variable {recurse : Recurse}

/-- The body of a function, and what ends the function. -/
theorem parseBody_parses (hrec : recurse.ReadsStatements π) (location : Location)
    (decl : FunctionDecl) :
    Parsing (parseBody recurse location decl) s r fun (es : List (Entry π)) ok _ => ok = true →
      ∃ f : Procedure π, es ++ [Entry.quiet .leaveFunction ()] = f.entries
        ∧ (Item.procedure f).Proper s := by
  unfold parseBody
  refine .bind_quiet rfl fun made => ?_
  simp only [Parsing.bind_read_iff, Parsing.ite_iff, Parsing.pure_iff]
  have hfailed {P : Prop} (h : false = true) : P := absurd h Bool.false_ne_true
  refine fun _ _ _ => ⟨fun _ => hfailed, fun _ _ _ _ => ⟨fun _ => hfailed, fun _ => ?_⟩⟩
  refine .bind_quiet rfl fun entry => .bind_quiet rfl fun _ => ?_
  refine .bind_does_holds [] (parseBlock_does hrec false) (fun _ _ => ?_) fun es _ _ hholds => ?_
  · refine .bind_quiet rfl fun inBlock => ?_
    cases inBlock with
    | false => exact hfailed
    | true => exact .bind_emit fun _ _ => hfailed
  · obtain ⟨body, rfl, hall, hscoped, hgrounded, -⟩ := hholds
    refine .bind_quiet rfl fun inBlock => ?_
    cases inBlock with
    | false =>
      exact fun _ => ⟨⟨location, decl, made, entry, body, none⟩, by
        simp [Procedure.entries, Procedure.inside], hall, hscoped, hgrounded⟩
    | true =>
      refine .bind_emit fun ended note _ => ?_
      exact ⟨⟨location, decl, made, entry, body, some (ended, note)⟩, by
        simp [Procedure.entries, Procedure.inside], hall, hscoped, hgrounded⟩

/-- Parameters as they are seen: there are none unless all of them are valid. -/
def Fields.view (f : Fields) : Option Unit :=
  whether f.valid

theorem parseParameter_gives (hrec : recurse.ReadsExpressions π) (fields : Fields) :
    MayGive π s r known (parseParameter recurse fields) fun _ _ => True := by
  simp only [MayGive, parseParameter, Parsing.ite_iff, Parsing.bind_read_iff, Parsing.pure_iff]
  refine fun _ _ _ => ⟨fun _ => Results.none, fun _ type _ _ => ?_⟩
  cases type with
  | none => exact Results.none
  | some type =>
    simp only [Parsing.ite_iff, Parsing.bind_read_iff, Parsing.pure_iff]
    refine fun _ _ _ => ⟨fun _ => Results.none, fun _ _ _ _ valid _ _ => ?_⟩
    refine .bind_option (parseArraySize_gives hrec) (fun _ => rfl) fun sized _ _ _ _ => ?_
    simp only [Parsing.bind_read_iff]
    intro explicit _ _ semantic _ _
    cases semantic with
    | none => exact Results.none
    | some semantic =>
      rw [Parsing.bind_read_iff]
      exact fun _ _ _ => Results.done trivial

theorem parseParameters_results (hrec : recurse.ReadsExpressions π) :
    Parsing (parseParameters recurse) s r fun (es : List (Entry π)) result _ =>
      Results (.evaluations s) known es result.1.view fun _ _ => True := by
  refine Parsing.loop_values (fun _ _ => True) trivial
    fun fields known r _ => ?_
  simp only [Parsing.ite_iff, Parsing.bind_read_iff, Parsing.pure_iff]
  refine fun _ _ _ => ⟨fun _ => Results.nothing fun d _ => ?_, fun _ => ?_⟩
  · cases d <;> trivial
  · refine .bind_option (parseParameter_gives hrec fields) (fun _ => ?_) fun fields' _ _ _ _ => ?_
    · rw [Parsing.bind_read_iff]
      exact fun _ _ _ => rfl
    · exact Results.nothing fun d _ => by cases d <;> trivial

/-- What stands between the parenthesis and the body of a function as it is seen. -/
def signatureView (result : Option (FunctionDecl × Bool)) : Option FunctionDecl :=
  result.bind fun (decl, valid) => if valid then some decl else none

theorem parseSignature_results (hrec : recurse.ReadsExpressions π) (location : Location)
    (name uniqueName : String) (t : Ty) :
    Parsing (parseSignature recurse location name uniqueName t) s r
      fun (es : List (Entry π)) result _ =>
      Results (.evaluations s) known es (signatureView result) fun _ _ => True := by
  refine .bind_results (fun c : Fields × Bool => c.1.view) (parseParameters_results hrec) ?_ ?_
  · rintro ⟨fields, complete⟩ r' hfields
    have hfields : fields.valid = false := whether_eq_none.mp hfields
    simp only [Parsing.ite_iff, Parsing.bind_read_iff, Parsing.pure_iff]
    refine fun _ _ _ => ⟨fun _ => rfl, fun _ semantic _ _ => ?_⟩
    cases semantic with
    | none => exact rfl
    | some semantic =>
      simp only [Parsing.ite_iff, Parsing.bind_read_iff, Parsing.pure_iff]
      refine fun _ _ _ => ⟨fun _ _ _ _ => rfl, fun _ => ?_⟩
      simp only [signatureView, Option.bind_some, hfields, Bool.false_eq_true, if_false]
  · rintro ⟨fields, complete⟩ _ known' r' _ _ _
    simp only [Parsing.ite_iff, Parsing.bind_read_iff, Parsing.pure_iff]
    refine fun _ _ _ => ⟨fun _ => Results.none, fun _ semantic _ _ => ?_⟩
    cases semantic with
    | none => exact Results.none
    | some semantic =>
      simp only [Parsing.ite_iff, Parsing.bind_read_iff, Parsing.pure_iff]
      exact fun _ _ _ => ⟨fun _ _ _ _ => Results.none,
        fun _ => Results.nothing fun _ _ => trivial⟩

theorem parseFunction_does (hrec : recurse.ReadsStatements π) (t : Ty) :
    Does (.items s : Shape π) s r known (parseFunction recurse t) := by
  simp only [Does, parseFunction, Parsing.ite_iff, Parsing.bind_read_iff, Parsing.pure_iff]
  refine fun _ _ _ _ _ _ =>
    ⟨fun _ => Results.none, fun _ => ⟨fun _ _ _ _ => Results.none, fun _ unique _ _ => ?_⟩⟩
  rw [Parsing.bind_iff, Parsing.modify_iff]
  simp only [List.nil_append, Parsing.bind_read_iff]
  intro _ r₁ _
  refine .bind_results signatureView
    ((parseSignature_results hrec.toReadsExpressions _ _ unique t).mono fun _ _ _ h =>
      h.item fun _ _ => id) ?_ ?_
  · rintro (_ | ⟨decl, valid⟩) r' hview
    · rw [Parsing.bind_read_iff]
      exact fun _ _ _ => rfl
    · obtain rfl : valid = false := by simpa [signatureView] using hview
      refine .bind_any fun ok _ => ?_
      rw [Parsing.bind_read_iff]
      refine fun _ _ _ => .bind_any fun _ _ => ?_
      rw [Parsing.pure_iff, Bool.and_false]
      rfl
  · rintro (_ | ⟨decl, valid⟩) _ known' r' hview _ _
    · cases hview
    · refine .bind (parseBody_parses hrec _ decl) fun es ok _ hbody => ?_
      rw [Parsing.bind_read_iff]
      refine fun _ _ _ => .bind_quiet rfl fun _ u hok => ?_
      obtain ⟨f, hentries, hproper⟩ :=
        hbody (Bool.and_eq_true_iff.mp (whether_eq_some.mp hok)).1
      refine ⟨known', ?_, trivial⟩
      rw [hentries]
      exact Shape.holds_item (.procedure f) hproper

end Parser
end ShaderEffect

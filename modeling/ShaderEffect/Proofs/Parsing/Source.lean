import ShaderEffect.Parser.Run
import ShaderEffect.Proofs.Parsing.Function

namespace ShaderEffect.Parser

variable {α γ δ π : Type} [Inhabited π] {s : Surroundings} {r : Reader} {known : List Fact}
  {recurse : Recurse}

/-- Goes on behind a request that is made between functions. -/
theorem bind_outside {q : Request} {f : q.Answer → ParseM γ} {view : γ → Option δ}
    {good : δ → List Fact → Prop} (hq : q.isOutside = true)
    (hf : ∀ answer, Parsing (f answer) s r fun (es : List (Entry π)) c _ =>
      Results (.items s) known es (view c) good) :
    Parsing (emit q >>= f) s r fun (es : List (Entry π)) c _ =>
      Results (.items s) known es (view c) good := by
  refine .bind_emit fun answer note => (hf answer).mono fun es c _ h => ?_
  exact Results.append (Shape.holds_item (.outside ⟨q, answer, note⟩ hq) trivial) h

/-- Goes on behind a step outside of functions. -/
theorem bind_outside_step {q : Request} {f : q.Answer → ParseM γ} {view : γ → Option δ}
    {good : δ → List Fact → Prop} (hq : q.isPlain = true)
    (hf : ∀ answer, Parsing (f answer) s r fun (es : List (Entry π)) c _ =>
      Results (.items s) known es (view c) good) :
    Parsing (emit q >>= f) s r fun (es : List (Entry π)) c _ =>
      Results (.items s) known es (view c) good := by
  refine .bind_emit fun answer note => (hf answer).mono fun es c _ h => ?_
  exact Results.append
    (Shape.holds_item (.evaluate (.step ⟨⟨q, answer, note⟩, hq⟩)) trivial) h

theorem defineStorage_items (location : Location) (name : String) (tail : Tail) :
    Parsing (defineStorage location name tail true) s r fun (es : List (Entry π)) id _ =>
      Results (.items s) known es (some id) fun _ _ => True := by
  have hdefine (unique : String) (value : Id) (r : Reader) :
      Parsing (emit (.defineVariable location tail.type unique true value)) s r
        fun (es : List (Entry π)) id _ =>
        Results (.items s) known es (some id) fun _ _ => True := by
    intro id note _ _ _
    exact ⟨known, Shape.holds_item (.outside ⟨_, id, note⟩ rfl) trivial, trivial⟩
  simp only [defineStorage, if_true, Parsing.bind_read_iff]
  intro unique _ _
  cases tail.init with
  | none => exact hdefine unique 0 _
  | some e => exact bind_outside_step rfl fun value => hdefine unique value _

theorem defineSymbol_items (location : Location) (name : String) (tail : Tail) :
    Parsing (defineSymbol location name tail true) s r fun (es : List (Entry π)) symbol _ =>
      Results (.items s) known es symbol fun _ _ => True := by
  unfold defineSymbol
  dsimp only
  split
  · exact Results.done trivial
  · simp only [Parsing.ite_iff, Parsing.bind_read_iff, Parsing.pure_iff]
    refine ⟨fun _ unique _ _ => ?_,
      fun _ => ⟨fun _ _ _ _ => ⟨fun _ => Results.none, fun _ unique _ _ => ?_⟩,
      fun _ => ⟨fun _ => ?_, fun _ => ?_⟩⟩⟩
    · exact bind_outside rfl fun _ => Results.done trivial
    · exact bind_outside rfl fun _ => Results.done trivial
    · exact bind_outside rfl fun _ => Results.done trivial
    · exact .bind_value (defineStorage_items location name tail)
        fun _ _ _ _ _ => Results.done trivial

theorem parseVariable_items (hrec : recurse.ReadsExpressions π) (t : Ty) :
    Does (.items s : Shape π) s r known (parseVariable recurse t true) := by
  simp only [Does, parseVariable, Parsing.bind_read_iff]
  intro _ _ _ checked _ _
  cases checked with
  | none => exact Results.none
  | some checked =>
    refine .bind_option ((parseArraySize_gives hrec).mono fun _ _ _ h => h.item fun _ _ => id)
      (fun _ => rfl) fun sized _ _ _ _ => ?_
    refine declareVariable_does ((parseTail_gives hrec _ _ _).mono fun _ _ _ h =>
      h.item fun _ _ => id) fun tail known r _ => defineSymbol_items _ _ tail

theorem parseGlobal_results (hrec : recurse.ReadsExpressions π) (t : Ty) (isFirst : Bool) :
    Parsing (parseGlobal recurse t isFirst) s r fun (es : List (Entry π)) result _ =>
      Results (.items s) known es result fun _ _ => True := by
  simp only [parseGlobal, Parsing.ite_iff, Parsing.bind_read_iff, Parsing.pure_iff]
  refine fun _ _ _ => ⟨fun _ => Results.none, fun _ _ _ _ => ?_⟩
  refine .bind_does (parseVariable_items hrec t) (fun _ => ?_) fun _ _ _ => Results.done trivial
  simp only [Bool.false_eq_true, if_false, Parsing.bind_read_iff, Parsing.pure_iff]
  exact fun _ _ _ _ _ _ => trivial

theorem parseGlobals_does (hrec : recurse.ReadsExpressions π) (t : Ty) :
    Does (.items s : Shape π) s r known (parseGlobals recurse t) := by
  unfold parseGlobals
  exact .bind_option
    (parseCommaSeparated_results (fun isFirst _ _ => parseGlobal_results hrec t isFirst) true)
    (fun _ => rfl) fun _ _ _ _ _ => Parsing.read_does

theorem parseField_gives (hrec : recurse.ReadsExpressions π) (t : Ty) (fields : Fields) :
    MayGive π s r known (parseField recurse t fields) fun _ _ => True := by
  simp only [MayGive, parseField, Parsing.ite_iff, Parsing.bind_read_iff, Parsing.pure_iff]
  refine fun _ _ _ => ⟨fun _ => Results.none, fun _ _ _ _ valid _ _ => ?_⟩
  refine .bind_option (parseArraySize_gives hrec) (fun _ => rfl) fun sized _ _ _ _ => ?_
  simp only [Parsing.bind_read_iff]
  intro explicit _ _ semantic _ _
  cases semantic with
  | none => exact Results.none
  | some semantic => exact Results.done trivial

theorem parseFields_gives (hrec : recurse.ReadsExpressions π) :
    MayGive π s r known (parseFields recurse) fun _ _ => True := by
  refine Parsing.loop_values (fun _ _ => True) trivial fun fields known r _ => ?_
  simp only [Parsing.ite_iff, Parsing.bind_read_iff, Parsing.pure_iff]
  refine fun _ _ _ => ⟨fun _ => Results.done trivial, fun _ type _ _ => ?_⟩
  cases type with
  | none =>
    simp only [Parsing.bind_read_iff, Parsing.pure_iff]
    exact fun _ _ _ _ _ _ => Results.none
  | some t =>
    refine .bind_option
      (parseCommaSeparated_results (fun fields _ _ => parseField_gives hrec t fields) fields)
      (fun _ => rfl) fun fields _ _ _ _ => ?_
    simp only [Parsing.bind_read_iff, Parsing.ite_iff, Parsing.pure_iff]
    exact fun _ _ _ => ⟨fun _ => Results.done trivial, fun _ => Results.none⟩

theorem parseStruct_does (hrec : recurse.ReadsExpressions π) :
    Does (.items s : Shape π) s r known (parseStruct recurse) := by
  simp only [Does, parseStruct, Parsing.ite_iff, Parsing.bind_read_iff, Parsing.pure_iff]
  refine fun _ _ _ name _ _ unique _ _ _ _ _ => ⟨fun _ => Results.none, fun _ => ?_⟩
  refine .bind_option ((parseFields_gives hrec).mono fun _ _ _ h => h.item fun _ _ => id)
    (fun _ => ?_) fun fields _ _ _ _ => ?_
  · simp only [Parsing.bind_read_iff, Parsing.pure_iff]
    exact fun _ _ _ _ _ _ => rfl
  · have hdefine (r : Reader) (location : Location) (decl : StructDecl) (known : List Fact) :
        Does (.items s : Shape π) s r known do
          let decl ← emit (.defineStruct location decl)
          if !(← declareOnce location name { kind := .struct, id := decl.definition } true) then
            return false
          return (← expect .braceClose) && fields.valid := by
      refine bind_outside rfl fun decl => ?_
      simp only [Parsing.ite_iff, Parsing.bind_read_iff, Parsing.pure_iff]
      exact fun _ _ _ => ⟨fun _ => Results.none,
        fun _ _ _ _ => Results.nothing fun _ _ => trivial⟩
    simp only [Parsing.ite_iff, Parsing.bind_read_iff]
    exact ⟨fun _ _ _ _ => hdefine _ _ _ _, fun _ => hdefine _ _ _ _⟩

theorem assignShader_results (d : PassDraft) (isPixel : Bool) (n : Named) (location : Location) :
    Parsing (assignShader d isPixel n location) s r fun (es : List (Entry π)) d _ =>
      Results (.items s) known es (some d) fun _ _ => True := by
  simp only [assignShader, Parsing.ite_iff, Parsing.bind_read_iff, Parsing.pure_iff]
  refine ⟨fun _ _ _ _ => Results.done trivial,
    fun _ => ⟨fun _ _ _ _ => Results.done trivial, fun _ => ?_⟩⟩
  refine bind_outside_step rfl fun decl => ?_
  cases decl with
  | none => exact Results.done trivial
  | some decl =>
    refine bind_outside rfl fun _ => ?_
    simp only [Parsing.ite_iff, Parsing.pure_iff]
    exact ⟨fun _ => Results.done trivial, fun _ => Results.done trivial⟩

theorem assignRenderTarget_results (d : PassDraft) (index : Nat) (n : Named) (location : Location) :
    Parsing (assignRenderTarget d index n location) s r fun (es : List (Entry π)) d _ =>
      Results (.items s) known es (some d) fun _ _ => True := by
  simp only [assignRenderTarget, Parsing.ite_iff, Parsing.bind_read_iff, Parsing.pure_iff]
  refine ⟨fun _ _ _ _ => Results.done trivial,
    fun _ => ⟨fun _ _ _ _ => Results.done trivial, fun _ => ?_⟩⟩
  refine bind_outside_step rfl fun texture => ?_
  cases texture with
  | none => exact Results.done trivial
  | some texture =>
    refine bind_outside rfl fun _ => ?_
    simp only [Parsing.ite_iff, Parsing.bind_read_iff, Parsing.pure_iff]
    exact ⟨fun _ _ _ _ => Results.done trivial, fun _ => Results.done trivial⟩

theorem parseReference_results (d : PassDraft) (reference : PassReference) :
    Parsing (parseReference d reference) s r fun (es : List (Entry π)) d _ =>
      Results (.items s) known es d fun _ _ => True := by
  unfold parseReference
  rw [Parsing.bind_read_iff]
  intro named _ _
  cases named with
  | none => exact Results.none
  | some n =>
    simp only [Parsing.ite_iff, Parsing.bind_read_iff, Parsing.pure_iff]
    refine fun _ _ _ => ⟨fun _ => Results.done trivial, fun _ => ?_⟩
    have hdone {x : ParseM PassDraft} {r : Reader}
        (hx : Parsing x s r fun (es : List (Entry π)) d _ =>
          Results (.items s) known es (some d) fun _ _ => True) :
        Parsing (do return some (← x)) s r fun (es : List (Entry π)) d _ =>
          Results (.items s) known es d fun _ _ => True :=
      .bind_value hx fun _ _ _ _ _ => Results.done trivial
    cases reference with
    | vertexShader => exact hdone (assignShader_results d false n _)
    | pixelShader => exact hdone (assignShader_results d true n _)
    | renderTarget index => exact hdone (assignRenderTarget_results d index n _)

theorem setPassValue_gives (d : PassDraft) (state : Token) (e : Expression) :
    MayGive π s r known (do
      let e' ← e.addCast (.scalar .uint)
      match d.pass.set? (Text.lower state.text) e'.value.word with
      | some pass =>
        return some { d with pass, valid := d.valid && (e.isConstant && e.type.isScalar) }
      | none =>
        error state.location 3004 ("unrecognized pass state " ++ inQuotes state.text)
        return some { d with valid := false }) fun _ _ => True := by
  rw [MayGive, Parsing.bind_except_iff]
  intro e' _
  split
  · exact Results.done trivial
  · rw [Parsing.bind_read_iff]
    exact fun _ _ _ => Results.done trivial

theorem parsePassValue_gives (hrec : recurse.ReadsExpressions π) (d : PassDraft) (state : Token) :
    MayGive π s r known (parsePassValue recurse d state) fun _ _ => True := by
  refine .bind_option (parseStateValue_gives hrec _) (fun _ => rfl) fun e known' _ _ _ => ?_
  simp only [Parsing.ite_iff, Parsing.bind_read_iff]
  exact ⟨fun _ _ _ _ => setPassValue_gives d state e, fun _ => setPassValue_gives d state e⟩

theorem parsePassState_results (hrec : recurse.ReadsExpressions π) (d : PassDraft) :
    Parsing (parsePassState recurse d) s r fun (es : List (Entry π)) d _ =>
      Results (.items s) known es d fun _ _ => True := by
  simp only [parsePassState, Parsing.ite_iff, Parsing.bind_read_iff, Parsing.pure_iff]
  refine fun _ _ _ => ⟨fun _ => Results.none,
    fun _ state _ _ _ _ _ => ⟨fun _ => Results.none, fun _ => ?_⟩⟩
  split
  · exact .bind_semicolon (parseReference_results d _) rfl fun _ => rfl
  · exact .bind_semicolon ((parsePassValue_gives hrec d state).mono fun _ _ _ h =>
      h.item fun _ _ => id) rfl fun _ => rfl

theorem parsePassStates_results (hrec : recurse.ReadsExpressions π) :
    Parsing (parsePassStates recurse) s r fun (es : List (Entry π)) d _ =>
      Results (.items s) known es d fun _ _ => True := by
  refine Parsing.loop_values (fun _ _ => True) trivial fun d known r _ => ?_
  simp only [Parsing.ite_iff, Parsing.bind_read_iff, Parsing.pure_iff]
  refine fun _ _ _ => ⟨fun _ => Results.done trivial, fun _ => ?_⟩
  refine .bind_option (parsePassState_results hrec d) (fun _ => ?_)
    fun d _ _ _ _ => Results.done trivial
  rw [Parsing.bind_read_iff]
  exact fun _ _ _ => rfl

theorem parsePass_results (hrec : recurse.ReadsExpressions π) :
    Parsing (parsePass recurse) s r fun (es : List (Entry π)) pass _ =>
      Results (.items s) known es pass fun _ _ => True := by
  simp only [parsePass, Parsing.ite_iff, Parsing.bind_read_iff, Parsing.pure_iff]
  refine fun _ _ _ => ⟨fun _ => Results.none,
    fun _ _ _ _ _ _ _ _ _ _ => ⟨fun _ => Results.none, fun _ => ?_⟩⟩
  refine .bind_option (parsePassStates_results hrec) (fun _ => rfl) fun d known' _ _ _ => ?_
  simp only [pure_bind, Parsing.ite_iff, Parsing.bind_read_iff, Parsing.pure_iff]
  refine ⟨fun _ _ _ _ _ _ _ => ⟨fun _ => Results.none, fun _ => ?_⟩,
    fun _ _ _ _ => ⟨fun _ => Results.none, fun _ => ?_⟩⟩
  · exact Results.nothing fun _ _ => trivial
  · exact Results.nothing fun _ _ => trivial

/-- Passes as they are seen: there are none unless all of them are valid. -/
def Passes.view (p : Passes) : Option Unit :=
  whether p.valid

theorem parsePasses_results (hrec : recurse.ReadsExpressions π) :
    Parsing (parsePasses recurse) s r fun (es : List (Entry π)) result _ =>
      Results (.items s) known es (result.bind Passes.view) fun _ _ => True := by
  refine Parsing.loop_results Passes.view (fun c : Option Passes => c.bind Passes.view)
    (fun _ _ => True) (fun _ _ => trivial) ?_ ?_
  · intro passes r hpasses
    have hpasses : passes.valid = false := whether_eq_none.mp hpasses
    rw [Parsing.bind_read_iff]
    intro atEnd _ _
    rw [Parsing.ite_iff]
    refine ⟨fun _ => ?_, fun _ => .bind_any fun pass _ => ?_⟩
    · simp only [Parsing.pure_iff, Parsing.roundView, Sum.elim_inr, Option.bind_some,
        Passes.view, hpasses]
      rfl
    · cases pass with
      | none =>
        simp only [Parsing.bind_read_iff, Parsing.ite_iff, Parsing.pure_iff]
        exact fun _ _ _ _ _ _ => ⟨fun _ => rfl, fun _ _ _ _ => rfl⟩
      | some pass =>
        simp only [Parsing.pure_iff, Parsing.roundView, Sum.elim_inl, Passes.view, hpasses]
        rfl
  · intro passes _ known r _ _
    simp only [Parsing.bind_read_iff, Parsing.ite_iff, Parsing.pure_iff]
    refine fun _ _ _ => ⟨fun _ => Results.nothing fun d _ => ?_, fun _ => ?_⟩
    · cases d <;> trivial
    · refine .bind_option (parsePass_results hrec) (fun _ => ?_) fun pass _ _ _ _ => ?_
      · simp only [Parsing.bind_read_iff, Parsing.ite_iff, Parsing.pure_iff]
        exact fun _ _ _ _ _ _ => ⟨fun _ => rfl, fun _ _ _ _ => rfl⟩
      · exact Results.nothing fun d _ => by cases d <;> trivial

theorem parseTechnique_does (hrec : recurse.ReadsExpressions π) :
    Does (.items s : Shape π) s r known (parseTechnique recurse) := by
  simp only [Does, parseTechnique, Parsing.ite_iff, Parsing.bind_read_iff, Parsing.pure_iff]
  refine fun _ _ _ => ⟨fun _ => Results.none, fun _ _ _ _ => ?_⟩
  refine .bind_results Annotations.view
    ((parseAnnotations_does hrec).mono fun _ _ _ h => h.item fun _ _ => id)
    (fun annotations _ h => ?_) fun annotations _ _ _ _ _ _ => ?_
  · have h : annotations.valid = false := whether_eq_none.mp h
    simp only [Parsing.ite_iff, Parsing.bind_read_iff, Parsing.pure_iff]
    refine fun _ _ _ => ⟨fun _ => rfl, fun _ => .bind_any fun passes _ => ?_⟩
    cases passes with
    | none => exact rfl
    | some passes =>
      refine .bind_any fun _ _ => ?_
      simp only [Parsing.bind_read_iff, Parsing.pure_iff, h, Bool.and_false]
      exact fun _ _ _ => rfl
  · simp only [Parsing.ite_iff, Parsing.bind_read_iff, Parsing.pure_iff]
    refine fun _ _ _ => ⟨fun _ => Results.none, fun _ => ?_⟩
    refine .bind_results (·.bind Passes.view) (parsePasses_results hrec) (fun passes _ h => ?_)
      fun passes _ _ _ h _ _ => ?_
    · cases passes with
      | none => exact rfl
      | some passes =>
        have h : passes.valid = false := whether_eq_none.mp h
        refine .bind_any fun _ _ => ?_
        simp only [Parsing.bind_read_iff, Parsing.pure_iff, h, Bool.and_false, Bool.false_and]
        exact fun _ _ _ => rfl
    · cases passes with
      | none => cases h
      | some passes =>
        refine bind_outside rfl fun _ => ?_
        simp only [Parsing.bind_read_iff, Parsing.pure_iff]
        exact fun _ _ _ => Results.nothing fun _ _ => trivial

/-- Whether everything that lies inside of other things requests what it should. -/
structure Recurse.ReadsDeclarations (π : Type) [Inhabited π] (recurse : Recurse) : Prop extends
    recurse.ReadsStatements π where
  declaration (s : Surroundings) (r : Reader) (known : List Fact) :
    Does (.items s : Shape π) s r known (recurse .declaration)

theorem parseNamespace_does (hrec : recurse.ReadsDeclarations π) :
    Does (.items s : Shape π) s r known (parseNamespace recurse) := by
  simp only [Does, parseNamespace, Parsing.ite_iff, Parsing.bind_read_iff, Parsing.pure_iff]
  refine fun _ _ _ => ⟨fun _ => Results.none,
    fun _ _ _ _ _ _ _ => ⟨fun _ => Results.none, fun _ => ?_⟩⟩
  rw [Parsing.bind_iff, Parsing.modify_iff]
  simp only [List.nil_append]
  have hdeclarations (r : Reader) : Does (.items s : Shape π) s r known (loop (fun () => do
      if (← peek .braceClose) || (← peek .eof) then return .inr true
      let ok : Bool ← recurse .declaration
      if ok then return .inl () else return .inr false) ()) := by
    refine Parsing.loop_values (fun _ _ => True) trivial fun _ known r _ => ?_
    simp only [Parsing.ite_iff, Parsing.bind_read_iff, Parsing.pure_iff]
    refine fun _ _ _ _ _ _ => ⟨fun _ => Results.done trivial, fun _ => ?_⟩
    refine .bind_does (hrec.declaration s _ known) (fun _ => ?_) fun _ _ _ => ?_
    · exact rfl
    · exact Results.done trivial
  refine .bind_does (hdeclarations _) (fun _ => ?_) fun _ _ _ => ?_
  · simp only [Parsing.bind_get_iff, Parsing.bind_except_iff]
    intro symbols _
    rw [Parsing.bind_iff, Parsing.modify_iff]
    simp only [Parsing.bind_read_iff, Parsing.pure_iff, Bool.and_false]
    exact fun _ _ _ => rfl
  · simp only [Parsing.bind_get_iff, Parsing.bind_except_iff]
    intro symbols _
    rw [Parsing.bind_iff, Parsing.modify_iff]
    simp only [Parsing.bind_read_iff, Parsing.pure_iff]
    exact fun _ _ _ => Results.nothing fun _ _ => trivial

theorem parseTyped_does (hrec : recurse.ReadsStatements π) :
    Does (.items s : Shape π) s r known (parseTyped recurse) := by
  unfold parseTyped
  rw [Does, Parsing.bind_read_iff]
  intro type _ _
  cases type with
  | none =>
    simp only [Parsing.ite_iff, Parsing.bind_read_iff, Parsing.pure_iff]
    exact fun _ _ _ => ⟨fun _ => Results.done trivial, fun _ _ _ _ _ _ _ _ _ _ => Results.none⟩
  | some t =>
    simp only [Parsing.ite_iff, Parsing.bind_read_iff, Parsing.pure_iff]
    refine fun _ _ _ => ⟨fun _ => Results.none, fun _ _ _ _ => ⟨fun _ => ?_, fun _ => ?_⟩⟩
    · simp only [parseFunctionOrPlaceholder, Parsing.bind_read_iff]
      refine fun _ _ _ => .bind_does (parseFunction_does hrec t) (fun _ => ?_)
        fun _ _ _ => Results.done trivial
      simp only [Bool.false_eq_true, if_false, Parsing.bind_read_iff, Parsing.pure_iff]
      exact fun _ _ _ => rfl
    · exact parseGlobals_does hrec.toReadsExpressions t

theorem parseDeclaration_does (hrec : recurse.ReadsDeclarations π) :
    Does (.items s : Shape π) s r known (parseDeclaration recurse) := by
  have hexpressions : recurse.ReadsExpressions π := hrec.toReadsExpressions
  simp only [Does, parseDeclaration, Parsing.ite_iff, Parsing.bind_read_iff]
  refine fun _ _ _ => ⟨fun _ => ?_,
    fun _ _ _ _ => ⟨fun _ => ?_, fun _ _ _ _ => ⟨fun _ => ?_, fun _ => ?_⟩⟩⟩
  · exact parseNamespace_does hrec
  · refine .bind_does (parseStruct_does hexpressions) (fun _ => ?_) fun _ _ _ => Parsing.read_does
    exact rfl
  · exact parseTechnique_does hexpressions
  · exact parseTyped_does hrec.toReadsStatements

/-- The parser requests what it should, however deep the parts of a source lie
inside of each other. -/
theorem parse_reads (depth : Nat) : (parse depth).ReadsDeclarations π := by
  induction depth with
  | zero =>
    -- Nothing is requested where the depth is exhausted.
    exact
      { unary := fun _ _ _ => trivial
        multary := fun _ _ _ _ => trivial
        assignment := fun _ _ _ => trivial
        sequence := fun _ _ _ => trivial
        statement := fun _ _ _ _ => trivial
        declaration := fun _ _ _ => trivial }
  | succ depth ih =>
    exact
      { unary := parseUnary_reads ih.toReadsExpressions
        multary := fun strength => parseMultary_reads ih.toReadsExpressions strength
        assignment := parseAssignment_reads ih.toReadsExpressions
        sequence := parseSequence_reads ih.toReadsExpressions
        statement := fun newScope _ _ _ => parseStatement_does ih.toReadsStatements newScope
        declaration := fun _ _ _ => parseDeclaration_does ih }

theorem parseDeclarations_does (source : String) :
    Does (.items s : Shape π) s r known (parseDeclarations source) := by
  have hround (r : Reader) : Does (.items s : Shape π) s r known (loop (fun valid => do
      if ← peek .eof then return .inr valid
      let ok : Bool ← parse (depthFor source.length) .declaration
      return .inl (valid && ok)) true) := by
    refine Parsing.loop_results whether whether (fun _ _ => True) (fun _ _ => trivial) ?_ ?_
    · intro valid r hvalid
      obtain rfl : valid = false := whether_eq_none.mp hvalid
      simp only [Parsing.ite_iff, Parsing.bind_read_iff, Parsing.pure_iff]
      exact fun _ _ _ => ⟨fun _ => rfl, fun _ => .bind_any fun ok _ => rfl⟩
    · intro valid _ known r hvalid _
      obtain rfl : valid = true := whether_eq_some.mp hvalid
      simp only [Parsing.ite_iff, Parsing.bind_read_iff, Parsing.pure_iff]
      refine fun _ _ _ => ⟨fun _ => Results.done trivial, fun _ => ?_⟩
      refine .bind_does ((parse_reads _).declaration s _ known) (fun _ => ?_) fun _ _ _ => ?_
      · exact rfl
      · exact Results.done trivial
  unfold parseDeclarations
  rw [Does, Parsing.bind_iff, Parsing.modify_iff]
  simp only [List.nil_append, Parsing.bind_read_iff]
  refine fun _ _ _ => .bind_does (hround _) (fun _ => ?_) fun _ _ _ => ?_
  · exact rfl
  · exact Results.nothing fun _ _ => trivial

/-- What a source without errors had generated, whatever was parsed before it. -/
theorem parseSource_ensures (source : String) (p : Parser) :
    (parseSource source p).Ensures fun (es : List (Entry π)) result => result.1 = true →
      ∃ items : List (Item π), items.flatMap Item.entries = es
        ∧ ∀ i ∈ items, i.Proper { noShortCircuit := p.noShortCircuit } := by
  have hparse : Does (.items { noShortCircuit := p.noShortCircuit } : Shape π)
      { noShortCircuit := p.noShortCircuit } p.toReader [] (parseDeclarations source) :=
    parseDeclarations_does source
  unfold parseSource
  refine (Script.ensures_bind _ _ _).mpr (Script.Ensures.mono hparse ?_)
  rintro es ⟨valid, reader⟩ h hvalid
  obtain ⟨_, ⟨-, items, hentries, hproper⟩, -⟩ := h () (whether_eq_some.mpr hvalid)
  exact ⟨items, hentries.trans (List.append_nil es).symm, hproper⟩

end ShaderEffect.Parser

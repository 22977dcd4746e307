import ShaderEffect.Glsl.Backend
import ShaderEffect.Proofs.Reading.Termination
import ShaderEffect.Proofs.Reuse.Statements

namespace ShaderEffect

namespace Parser

variable {p : Position}

instance assignShader_replays {d : PassDraft} {isPixel : Bool} {n : Named} {location : Location} :
    Replays p (assignShader d isPixel n location) := by
  unfold assignShader
  dsimp only
  infer_instance

instance assignRenderTarget_replays {d : PassDraft} {index : Nat} {n : Named}
    {location : Location} :
    Replays p (assignRenderTarget d index n location) := by
  unfold assignRenderTarget
  dsimp only
  infer_instance

instance checkSemantics_agrees {location : Location} {decl : FunctionDecl} :
    Agrees p (checkSemantics location decl) := by
  unfold checkSemantics
  dsimp only
  infer_instance

instance checkInput_agrees {location : Location} {decl : FunctionDecl} {outputs : Table String Ty}
    {m : Member} :
    Agrees p (checkInput location decl outputs m) := by
  unfold checkInput
  dsimp only
  split <;> infer_instance

instance checkStages_agrees {location : Location} {vertex pixel : FunctionDecl} :
    Agrees p (checkStages location vertex pixel) := by
  unfold checkStages
  dsimp only
  infer_instance

instance checkPass_agrees {location : Location} {d : PassDraft} :
    Agrees p (checkPass location d) := by
  unfold checkPass
  dsimp only
  split
  · refine .of_bind inferInstance fun valid => ?_
    split <;> infer_instance
  · infer_instance

section

variable [IsTrue p.begun] {recurse : Recurse} [Faithful recurse]

instance parseReference_replays {d : PassDraft} {reference : PassReference} :
    Replays p (parseReference d reference) := by
  unfold parseReference
  refine .of_bind inferInstance fun found => ?_
  cases found with
  | none => infer_instance
  | some n =>
    refine .of_bind inferInstance fun t => ?_
    split
    · infer_instance
    · cases reference <;> infer_instance

instance parsePassValue_replays {d : PassDraft} {state : Token} :
    Replays p (parsePassValue recurse d state) := by
  have hset (literal : Bool) (e : Expression) : Replays p (do
      let e ← e.addCast (.scalar .uint)
      match d.pass.set? (Text.lower state.text) e.value.word with
      | some pass => return some { d with pass, valid := d.valid && literal }
      | none =>
        error state.location 3004 ("unrecognized pass state " ++ inQuotes state.text)
        return some { d with valid := false } : ParseM (Option PassDraft)) := by
    refine .of_bind inferInstance fun e => ?_
    split <;> infer_instance
  unfold parsePassValue
  refine .of_bind inferInstance fun found => ?_
  cases found with
  | none => infer_instance
  | some e =>
    dsimp only
    split
    · exact .of_bind inferInstance fun _ => hset _ e
    · exact hset _ e

instance parsePassState_replays {d : PassDraft} : Replays p (parsePassState recurse d) := by
  unfold parsePassState
  refine .of_bind inferInstance fun isName => ?_
  split
  · infer_instance
  refine .of_bind inferInstance fun state => .of_bind inferInstance fun isEqual => ?_
  split
  · infer_instance
  dsimp only
  split <;> infer_instance

instance parsePassStates_replays : Replays p (parsePassStates recurse) := by
  unfold parsePassStates
  infer_instance

set_option synthInstance.maxSize 65536 in
instance parsePass_replays : Replays p (parsePass recurse) := by
  unfold parsePass
  infer_instance

instance parsePasses_replays : Replays p (parsePasses recurse) := by
  unfold parsePasses
  infer_instance

set_option synthInstance.maxSize 65536 in
instance parseTechnique_replays : Replays p (parseTechnique recurse) := by
  unfold parseTechnique
  infer_instance

end

theorem accept_run (kind : Token.Kind) (r : Reader) :
    accept kind r = if r.next.kind = kind then .ok (true, r.consumed) else .ok (false, r) := by
  have hrun : accept kind r =
      (if decide (r.next.kind = kind) = true then (do consume; return true : ReadM Bool)
        else return false) r := rfl
  rw [hrun]
  by_cases h : r.next.kind = kind
    <;> simp only [h, decide_true, decide_false, if_true, if_false] <;> rfl

theorem expect_passes {kind : Token.Kind} {r : Reader} (h : r.next.kind = kind) :
    expect kind r = .ok (true, r.consumed) := by
  have hrun : expect kind r = (accept kind r).bind _ := rfl
  rw [hrun, accept_run, if_pos h]
  rfl

theorem expect_refuses {kind : Token.Kind} {r : Reader} (h : r.next.kind ≠ kind) :
    ∃ r', expect kind r = .ok (false, r') := by
  have hrun : expect kind r = (accept kind r).bind _ := rfl
  rw [hrun, accept_run, if_neg h]
  exact ⟨_, rfl⟩

/-- A name that is read contains no separator. -/
theorem name_replays {α : Type} {a : α} {f : Token → ParseM α}
    (hf : ∀ t, ':' ∉ t.text.toList → Replays (p.past true) (f t)) : Replays p (do
      if !(← expect .identifier) then return a
      f (← currentToken)) where
  coincides.meets {s earlier r₁ r₂} h := by
    by_cases hkind : r₂.next.kind = .identifier
    · have hrun (r : Reader) (hr : r.next.kind = .identifier) : (do
          if !(← expect .identifier) then return a
          f (← currentToken) : ParseM α) s r = f r.next s r.consumed :=
        ReadM.toParse_bind (expect_passes hr)
      rw [hrun r₁ (h.next ▸ hkind), hrun r₂ hkind, h.next]
      exact ((hf _ (h.plain hkind)).coincides.meets h.consumed).mono fun _ _ hresult =>
        hresult.imp_right fun halike => halike.of_past (b := true)
    · have hrun (r : Reader) (hr : r.next.kind ≠ .identifier) : (do
          if !(← expect .identifier) then return a
          f (← currentToken) : ParseM α) s r
          = (do let _ ← expect .identifier; return a : ParseM α) s r := by
        obtain ⟨r', hr'⟩ := expect_refuses hr
        rw [ReadM.toParse_bind hr', ReadM.toParse_bind hr']
        rfl
      rw [hrun r₁ (h.next ▸ hkind), hrun r₂ hkind]
      exact (inferInstance :
        Replays p (do let _ ← expect .identifier; return a : ParseM α)).coincides.meets h

end Parser

namespace SymbolTable

theorem stripEnding_append (s ending : String) : Text.stripEnding ending (s ++ ending) = s := by
  have hsuffix : ending.toList.isSuffixOf (s ++ ending).toList = true := by
    rw [String.toList_append]
    exact List.isSuffixOf_iff_suffix.mpr (List.suffix_append _ _)
  have hlength : (s ++ ending).length - ending.length = s.toList.length := by
    rw [String.length_append, Nat.add_sub_cancel, String.length_toList]
  rw [Text.stripEnding, if_pos hsuffix, hlength, String.toList_append, List.take_left,
    String.ofList_toList]

theorem indexOf_separator {name rest : List Char} (h : ':' ∉ name) :
    Text.indexOf? [':', ':'] (name ++ ':' :: ':' :: rest) = some name.length := by
  induction name with
  | nil => rfl
  | cons c name ih =>
    obtain ⟨hc, hname⟩ := not_or.mp (List.mem_cons.not.mp h)
    have hno : List.isPrefixOf [':', ':'] (c :: (name ++ ':' :: ':' :: rest)) = false := by
      simp [List.isPrefixOf, hc]
    rw [List.cons_append, Text.indexOf?, hno, if_neg Bool.false_ne_true, ih hname]
    rfl

/-- The namespace around one is the one it was entered from, if its name contains no separator. -/
theorem outerPath_append {path name : String} (hpath : [':', ':'] <:+ path.toList)
    (hname : ':' ∉ name.toList) :
    outerPath (path ++ name ++ "::") = .ok path := by
  obtain ⟨outer, houter⟩ := hpath
  have hlast : Text.indexOf? [':', ':'] (path ++ name).toList.reverse
      = some name.toList.length := by
    rw [String.toList_append, ← houter, List.reverse_append, List.reverse_append]
    have hreverse :=
      @indexOf_separator name.toList.reverse outer.reverse (by rwa [List.mem_reverse])
    rwa [List.length_reverse] at hreverse
  have houtside : throughLastSeparator (path ++ name).toList = some path.toList := by
    rw [throughLastSeparator, hlast, Option.map_some, String.toList_append, List.length_append,
      Nat.add_sub_cancel, List.take_left]
  rw [outerPath, stripEnding_append]
  simp only [houtside]
  exact congrArg Except.ok String.ofList_toList

end SymbolTable

namespace Position

instance Outer.past {p : Position} {b : Bool} [hp : p.Outer] :
    (p.past b).Outer := ⟨hp.outside, hp.level, hp.path⟩

instance Outer.within {p : Position} [hp : p.Outer] {name : String} : (p.within name).Outer where
  outside := hp.outside
  level := congrArg (· + 1) hp.level
  path := by
    rw [Position.within, String.toList_append]
    exact List.suffix_append _ _

end Position

namespace Reader.Alike

variable {p : Position} {earlier : Diagnostics} {r₁ r₂ : Reader}

/-- What is declared outside of a function can be in the table anywhere outside. -/
theorem moved {q : Position} [hp : p.Outer] [hq : q.Outer] (h : r₁.Alike p earlier r₂)
    {t : SymbolTable} (hbegun : q.begun = p.begun) (hsaved : q.saved = p.saved)
    (hentries : t.entries = r₂.symbols.entries) (hcurrent : t.current = q.scope) :
    Reader.Alike q earlier ({ r₁ with symbols := t } : Reader)
      ({ r₂ with symbols := t } : Reader) :=
  { h with
    symbols := rfl
    token := fun hq => h.token (hbegun ▸ hq)
    saved := fun hq => h.saved (hsaved ▸ hq)
    returnType := fun hinside => absurd hinside (by simp [hq.outside])
    scope := hcurrent
    entries := fun e he =>
      .inl ((h.entries e (hentries ▸ he)).resolve_right fun hlocal =>
        absurd hlocal.1 (by simp [hp.outside])) }

theorem namespaced [hp : p.Outer] {name : String} (h : r₁.Alike p earlier r₂) :
    Reader.Alike (p.within name) earlier
      ({ r₁ with symbols := r₁.symbols.enterNamespace name } : Reader)
      ({ r₂ with symbols := r₂.symbols.enterNamespace name } : Reader) := by
  have hcurrent : (r₂.symbols.enterNamespace name).current = (p.within name).scope := by
    rw [SymbolTable.enterNamespace, h.scope]
    rfl
  rw [h.symbols]
  exact h.moved (t := r₂.symbols.enterNamespace name) rfl rfl rfl hcurrent

end Reader.Alike

namespace Parser

variable {p : Position}

theorem enterNamespace_leads [p.Outer] {name : String} :
    Leads p (p.within name) (modify fun r :
    Reader => { r with symbols := r.symbols.enterNamespace name }) :=
  .modify fun h => h.namespaced

/-- A namespace is left for the one around it. -/
theorem leaveNamespace_leads [hp : p.Outer] {α : Type} {name : String} {x : ParseM α}
    (hname : ':' ∉ name.toList) (hx : Replays p x) : Leads (p.within name) p (do
      let symbols ← (← get).symbols.leaveNamespace
      modify fun r : Reader => { r with symbols }
      x) where
  meets {s earlier r₁ r₂} h := by
    have hleave : r₂.symbols.leaveNamespace = .ok { r₂.symbols with current := p.scope } := by
      rw [SymbolTable.leaveNamespace, h.scope]
      simp only [Position.within, SymbolTable.outerPath_append hp.path hname, UInt32.add_sub_cancel]
      rfl
    have hrun (r : Reader) (hr : r.symbols = r₂.symbols) : (do
        let symbols ← (← get).symbols.leaveNamespace
        modify fun r : Reader => { r with symbols }
        x : ParseM α) s r
        = x s { r with symbols := { r₂.symbols with current := p.scope } } := by
      rw [ParseM.get_bind, hr, ParseM.except_bind hleave]
      rfl
    rw [hrun r₁ h.symbols, hrun r₂ rfl]
    exact hx.coincides.meets (h.moved rfl rfl rfl rfl)

section

variable {recurse : Recurse} [Faithful recurse]

instance parseNamespace_replays [p.Outer] : Replays p (parseNamespace recurse) := by
  unfold parseNamespace
  refine name_replays fun t ht => ?_
  refine .of_bind inferInstance fun opened => ?_
  split
  · infer_instance
  · exact (enterNamespace_leads.bind fun _ => (Leads.of_replays inferInstance).bind fun valid =>
      leaveNamespace_leads ht inferInstance).replays

instance parseFunctionOrPlaceholder_replays {t : Ty} [IsTrue p.begun] [p.Outer] :
    Replays p (parseFunctionOrPlaceholder recurse t) := by
  unfold parseFunctionOrPlaceholder
  infer_instance

instance parseGlobalName_agrees {isFirst : Bool} : Agrees p (parseGlobalName isFirst) := by
  unfold parseGlobalName
  infer_instance

instance parseGlobal_replays {t : Ty} {isFirst : Bool} [IsTrue p.begun] :
    Replays p (parseGlobal recurse t isFirst) := by
  unfold parseGlobal
  infer_instance

instance parseGlobals_replays {t : Ty} [IsTrue p.begun] : Replays p (parseGlobals recurse t) := by
  unfold parseGlobals
  infer_instance

/-- What is no type is passed over before it is looked at. -/
instance parseTyped_replays [p.Outer] : Replays p (parseTyped recurse) := by
  have hnamed (q : Position) [IsTrue q.begun] [q.Outer] (t : Ty) : Replays q (do
      if !(← expect .identifier) then return false
      if ← peek .parenOpen then parseFunctionOrPlaceholder recurse t
        else parseGlobals recurse t) := inferInstance
  unfold parseTyped
  refine .of_bind_token parseType_token fun found => ?_
  cases found with
  | none =>
    refine .of_bind inferInstance fun ended => ?_
    split
    · infer_instance
    · exact .of_bind_token consume_token fun _ => inferInstance
  | some t => exact hnamed (p.past true) t

instance parseDeclaration_replays [p.Outer] : Replays p (parseDeclaration recurse) := by
  unfold parseDeclaration
  refine .behind accept_token inferInstance ?_
  refine .behind accept_token inferInstance ?_
  exact .behind accept_token inferInstance (by rw [if_neg Bool.false_ne_true]; infer_instance)

end

/-- The parts of the grammar are read alike, however deep they are nested. -/
instance parse_faithful (depth : Nat) : Faithful (parse depth) := by
  induction depth with
  | zero => exact ⟨.throw, .throw, .throw, .throw, .throw, .throw⟩
  | succ depth ih =>
    exact ⟨parseUnary_replays, parseMultary_replays, parseAssignment_replays,
      parseSequence_replays, parseStatement_replays, parseDeclaration_replays⟩

end Parser

/-- The position in front of a source. -/
def Position.start : Position where
  scope := .root
  inFunction := false
  begun := false
  saved := false

instance : Position.start.Outer := ⟨rfl, rfl, ⟨[], by decide⟩⟩

namespace Parser

/-- In front of a source, all that readers differ in is out of reach. -/
theorem startOf_alike (source : String) {earlier : Diagnostics} {r₁ r₂ : Reader}
    (h : r₁.diagnostics = earlier ++ r₂.diagnostics) :
    (startOf source r₁).consumed.Alike .start earlier (startOf source r₂).consumed where
  cursor := rfl
  next := rfl
  symbols := rfl
  errors := rfl
  rounds := rfl
  diagnostics := h
  token := fun hbegun => absurd hbegun Bool.false_ne_true
  saved := fun hsaved => absurd hsaved Bool.false_ne_true
  returnType := fun hinside => absurd hinside Bool.false_ne_true
  plain := Token.lex_plain _
  scope := rfl
  entries := fun _ he => absurd he List.not_mem_nil

theorem parseDeclarations_matches (source : String) {s : Surroundings} {earlier : Diagnostics}
    {r₁ r₂ : Reader} (h : r₁.diagnostics = earlier ++ r₂.diagnostics) :
    (parseDeclarations source s r₁).Matches
      (fun c₁ c₂ => c₁.1 = c₂.1 ∧ c₁.2.Alike .start earlier c₂.2)
      (parseDeclarations source s r₂) := by
  have hround (valid : Bool) : Replays .start (declarationsRound source valid) := by
    unfold declarationsRound
    infer_instance
  have hrest : Replays .start (do
      let valid ← loop (declarationsRound source) true
      return valid && (← get).errors = 0 : ParseM Bool) :=
    .of_bind inferInstance fun valid => .bind_get (fun h => by rw [h.errors]) fun _ => .pure
  rw [parseDeclarations_eq]
  exact hrest.coincides.meets (startOf_alike source h)

/-- A parser that has read other sources reads the next one as a new parser does. Whatever the
answers of the generator are, it makes the same requests in the same order, gives the same result
and adds the same messages. -/
theorem parseSource_reuse (source : String) (p : Parser) :
    (do let (ok, q) ← parseSource source p; return (ok, q.diagnostics)) = (do
      let (ok, q) ← parseSource source { noShortCircuit := p.noShortCircuit }
      return (ok, p.diagnostics ++ q.diagnostics)) := by
  have hparse (q : Parser) (f : Diagnostics → Diagnostics) :
      (do let (ok, q') ← parseSource source q; return (ok, f q'.diagnostics)) =
        (fun c => (c.1, f c.2.diagnostics))
          <$> parseDeclarations source { noShortCircuit := q.noShortCircuit } q.toReader := by
    rw [map_eq_pure_bind, parseSource, bind_assoc]
    rfl
  have hmatches :=
    @parseDeclarations_matches source { noShortCircuit := p.noShortCircuit } _ p.toReader {}
      (List.append_nil p.diagnostics).symm
  have hmap := @Script.Matches.map_eq _ _ _ _ _ _ (fun c => (c.1, c.2.diagnostics))
    (fun c => (c.1, p.diagnostics ++ c.2.diagnostics)) hmatches
    fun c₁ c₂ ⟨hok, halike⟩ => Prod.ext hok halike.diagnostics
  exact (hparse p id).trans
    (hmap.trans (hparse { noShortCircuit := p.noShortCircuit } (p.diagnostics ++ ·)).symm)

end Parser

variable {β : Type} [Backend β]

/-- What is read alike by one reader and itself leads it from one position to the other. -/
theorem Leads.position {α : Type} {p q : Position} {x : ParseM α} {s : Surroundings}
    {r r' : Reader} {g g' : Generator β} {a : α} (hx : Leads p q x) (h : r.Alike p [] r)
    (hrun : Parses x s r g a r' g') : r'.Alike q [] r' := by
  obtain ⟨c, hc, heq, halike⟩ := (hx.meets h).run hrun
  obtain rfl : c = (a, r') := (Prod.mk.inj (Except.ok.inj (hc.symm.trans hrun))).1
  exact halike

namespace Parser

/-- Reads the head of a namespace, up to its brace. -/
def namespaceHead : ReadM (Option String) := do
  if !(← accept .namespaceWord) then return none
  if !(← expect .identifier) then return none
  let name := (← currentToken).text
  if !(← expect .braceOpen) then return none
  return some name

/-- The states in which a declaration can begin, with the bound for the parts that lie inside of
each other: behind the head of a source, behind another declaration, whether it was right or wrong,
and behind the head of a namespace. -/
inductive AtDeclaration : Nat → Surroundings → Reader → Generator β → Prop where
  | first (source : String) (p : Parser) (g : Generator β) :
    AtDeclaration (depthFor source.length) { noShortCircuit := p.noShortCircuit }
      (startOf source p.toReader).consumed g
  | next {depth : Nat} {s : Surroundings} {r r' : Reader} {g g' : Generator β} {ok : Bool}
      (h : AtDeclaration depth s r g)
    (hread : Parses (parse depth .declaration) s r g ok r' g') : AtDeclaration depth s r' g'
  | inside {depth : Nat} {s : Surroundings} {r r' : Reader} {g g' : Generator β} {name : String}
    (h : AtDeclaration (depth + 1) s r g)
      (hhead : Parses (liftM namespaceHead) s r g (some name) r' g') :
    AtDeclaration depth s { r' with symbols := r'.symbols.enterNamespace name } g'

instance namespaceHead_agrees {p : Position} : Agrees p namespaceHead := by
  unfold namespaceHead
  exact .behind accept_token inferInstance (by rw [Bool.not_false, if_pos rfl]; infer_instance)

/-- Where a declaration begins, there is no local of a function, and the scope is one
of a namespace. -/
theorem AtDeclaration.position {depth : Nat} {s : Surroundings} {r : Reader} {g : Generator β}
    (h : AtDeclaration depth s r g) : ∃ p : Position, p.Outer ∧ r.Alike p [] r := by
  induction h with
  | first source p g => exact ⟨.start, inferInstance, startOf_alike source rfl⟩
  | next _ hread ih =>
    obtain ⟨p, hp, halike⟩ := ih
    exact ⟨p, hp, (Leads.of_replays Faithful.declaration).position halike hread⟩
  | inside _ hhead ih =>
    obtain ⟨p, hp, halike⟩ := ih
    have hbehind := (Leads.of_replays inferInstance).position halike hhead
    exact ⟨p.within _, inferInstance, hbehind.namespaced⟩

end Parser
end ShaderEffect

import ShaderEffect.Proofs.Failures.Statements
import ShaderEffect.Proofs.Reading.Sources

namespace ShaderEffect.Parser

variable {β : Type} [Backend β] {w : Horizon} [Backend.Numbering w β] {σ : Place}
  {room : Nat} {Γ : Prop}

/-- Everything that has no semantic is reported. -/
instance checkSemantics_admits {location : Location} {decl : FunctionDecl} :
    Admits w Γ (Proper w) (checkSemantics location decl) := by
  unfold checkSemantics
  extract_lets noResult missing complain
  have hrest (Γ : Prop) :
      Admits w Γ (fun ok => Proper w noResult.not → Proper w ok) (complain ()) := by
    refine .of_bind (.forM_failed fun _ p => ?_) fun _ => .of_pure fun h hresult => ?_
    · infer_instance
    · exact (Entails.andAlso (Γ := Proper w noResult.not ∧ Proper w missing.isEmpty)).entails
        ⟨hresult, h.2⟩
  split
  · exact .andThen (Failed w) fun _ => (hrest _).mono fun _ h hok => hok (.inr h.2)
  · rename_i hresult
    exact (hrest _).mono fun _ _ hok =>
      hok (.inl (Bool.not_eq_true' _ ▸ Bool.eq_false_iff.mpr hresult))

instance checkInput_admits {location : Location} {decl : FunctionDecl} {outputs : Table String Ty}
    {m : Member} :
    Admits w Γ (Proper w) (checkInput location decl outputs m) := by
  unfold checkInput
  dsimp only
  split <;> infer_instance

instance checkStages_admits {location : Location} {vertex pixel : FunctionDecl} :
    Admits w Γ (Proper w) (checkStages location vertex pixel) := by
  unfold checkStages
  dsimp only
  infer_instance

/-- Everything that is wrong with a pass is reported. -/
instance checkPass_admits {location : Location} {d : PassDraft} :
    Admits w Γ (Proper w) (checkPass location d) := by
  unfold checkPass
  dsimp only
  generalize (!d.pass.srgbWrite || d.srgbTargets) = convertible
  split
  · refine .andThen (Proper w) fun valid => ?_
    cases convertible <;> split <;> infer_instance
  · infer_instance

theorem lookUp_declared {exclusive : Bool} {r r' : Reader} {n : Named}
    (h : lookUp exclusive r = .ok (some n, r')) :
    n.symbol = {} ∨ ∃ e ∈ r'.symbols.entries, e.symbol = n.symbol := by
  obtain ⟨t, r₁, -, h⟩ := bind_eq_ok.mp h
  obtain ⟨path, r₂, -, h⟩ := bind_eq_ok.mp h
  cases path with
  | none => cases (pure_eq_ok.mp h).1
  | some name =>
    have hfind {from_ : Scope} {r₃ : Reader} (h : (do
        let symbol := (← get).symbols.find name from_ exclusive
        return some { identifier := name, scope := from_, symbol } : ReadM (Option Named)) r₃
        = .ok (some n, r')) :
        n.symbol = {} ∨ ∃ e ∈ r'.symbols.entries, e.symbol = n.symbol := by
      obtain ⟨r₄, r₅, hget, h⟩ := bind_eq_ok.mp h
      obtain ⟨rfl, rfl⟩ := get_eq_ok.mp hget
      obtain ⟨hn, rfl⟩ := pure_eq_ok.mp h
      obtain rfl := Option.some.inj hn
      exact find_eq_or _ _ _ _
    cases exclusive with
    | true => exact hfind h
    | false =>
      obtain ⟨from_, r₃, -, h⟩ := bind_eq_ok.mp h
      exact hfind h

/-- The name that is read stands for something that was declared, or for nothing. -/
theorem acceptSymbol_declared {r r' : Reader} {n : Named} (h : acceptSymbol r = .ok (some n, r')) :
    n.symbol = {} ∨ ∃ e ∈ r'.symbols.entries, e.symbol = n.symbol := by
  obtain ⟨exclusive, r₁, -, h⟩ := bind_eq_ok.mp h
  cases exclusive with
  | true =>
    obtain ⟨ok, r₂, -, h⟩ := bind_eq_ok.mp h
    cases ok with
    | true => exact lookUp_declared h
    | false => cases (pure_eq_ok.mp h).1
  | false =>
    obtain ⟨ok, r₂, -, h⟩ := bind_eq_ok.mp h
    cases ok with
    | true => exact lookUp_declared h
    | false =>
      obtain ⟨t, r₃, -, h⟩ := bind_eq_ok.mp h
      obtain ⟨_, r₄, -, h⟩ := bind_eq_ok.mp h
      cases (pure_eq_ok.mp h).1

section

variable {d : PassDraft} {n : Named} {location : Location}

/-- A function that is declared is found. -/
theorem assignShader_result {isPixel : Bool} {s : Surroundings} {r r' : Reader}
    {g g' : Generator β} {d' : PassDraft}
    (h : Parses (assignShader d isPixel n location) s r g d' r' g') (hcovers : w.Covers r' g')
    (hd : Proper w d) (hr : Upright w σ r g)
    (hfunction : n.symbol.type.isFunction = true →
      ∃ decl ∈ g.functions, decl.definition = n.symbol.id) :
    Upright w σ r' g' ∧ Proper w d' := by
  unfold assignShader at h
  dsimp only at h
  split at h
  · exact (inferInstance : Honest w β σ (Proper w d) (Proper w) _).result h hcovers hd hr
  split at h
  · exact (inferInstance : Honest w β σ (Proper w d) (Proper w) _).result h hcovers hd hr
  rename_i htype
  obtain ⟨decl, hdecl, hid⟩ := hfunction (by simpa using htype)
  obtain ⟨found, r₁, g₁, hask, hrest⟩ := Parses.bind_iff.mp h
  have hfind : g.findFunction? n.symbol.id = found := (Prod.mk.inj (Except.ok.inj hask.emit.2)).1
  cases found with
  | none => exact absurd (decide_eq_true hid) (List.find?_eq_none.mp hfind decl hdecl)
  | some decl =>
    have hnext : Honest w β σ (Proper w d ∧ (w.typed → Proper w decl)) (Proper w) (do
        emit (.defineEntryPoint decl isPixel)
        if isPixel then
          return { d with pixel := some decl,
                          pass := { d.pass with pixelShader := decl.uniqueName } }
        return { d with vertex := some decl,
                        pass := { d.pass with vertexShader := decl.uniqueName } }) := inferInstance
    have hleaves := hnext.leaves hrest
    have hcovers₁ := hcovers.of_leaves hleaves.accounts hleaves.grows
    obtain ⟨hr₁, hdecl⟩ :=
      (Honest.findFunction (Γ := True)).result hask hcovers₁ trivial hr
    exact hnext.result hrest hcovers ⟨hd, fun htyped => hdecl htyped decl rfl⟩ hr₁

/-- A texture that is declared is found. -/
theorem assignRenderTarget_result {index : Nat} {s : Surroundings} {r r' : Reader}
    {g g' : Generator β} {d' : PassDraft}
    (h : Parses (assignRenderTarget d index n location) s r g d' r' g') (hcovers : w.Covers r' g')
    (hd : Proper w d) (hr : Upright w σ r g)
    (htexture : n.symbol.type.isTexture = true → n.symbol.id ∈ g.result.textures.map (·.id)) :
    Upright w σ r' g' ∧ Proper w d' := by
  unfold assignRenderTarget at h
  dsimp only at h
  split at h
  · exact (inferInstance : Honest w β σ (Proper w d) (Proper w) _).result h hcovers hd hr
  split at h
  · exact (inferInstance : Honest w β σ (Proper w d) (Proper w) _).result h hcovers hd hr
  rename_i htype
  obtain ⟨t, ht, hid⟩ := List.mem_map.mp (htexture (by simpa using htype))
  obtain ⟨found, r₁, g₁, hask, hrest⟩ := Parses.bind_iff.mp h
  obtain ⟨rfl, hfound⟩ := hask.emit
  obtain ⟨hfind, rfl⟩ := Prod.mk.inj (Except.ok.inj hfound)
  cases found with
  | none => exact absurd (decide_eq_true hid) (List.find?_eq_none.mp hfind t ht)
  | some t =>
    refine (?_ : Honest w β σ (Proper w d) (Proper w) _).result hrest hcovers hd hr
    refine .pass fun _ => ?_
    generalize (_ && _ && (_ || _) : Bool) = differs
    cases differs <;> infer_instance

instance assignShader_honest {isPixel : Bool} :
    Honest w β σ Γ Anything (assignShader d isPixel n location) := by
  unfold assignShader
  dsimp only
  split
  · infer_instance
  split
  · infer_instance
  refine .andThen (fun found => w.typed → Maybe w found) fun found => ?_
  cases found with
  | none => infer_instance
  | some decl =>
    have : Entails (Γ ∧ (w.typed → Maybe w (some decl))) (w.typed → Proper w decl) :=
      ⟨fun h htyped => h.2 htyped decl rfl⟩
    infer_instance

instance assignRenderTarget_honest {index : Nat} :
    Honest w β σ Γ Anything (assignRenderTarget d index n location) := by
  unfold assignRenderTarget
  dsimp only
  infer_instance

/-- Sets what a name refers to. -/
def refer (d : PassDraft) (n : Named) (location : Location) : PassReference → ParseM PassDraft
  | .vertexShader => assignShader d false n location
  | .pixelShader => assignShader d true n location
  | .renderTarget index => assignRenderTarget d index n location

/-- Sets what a name refers to that may have failed. -/
def setReference (d : PassDraft) (reference : PassReference) (n : Named) :
    ParseM (Option PassDraft) := do
  let location := (← currentToken).location
  if n.symbol.id = Id.invalid then return some { d with valid := false }
  return some (← refer d n location reference)

theorem parseReference_eq {reference : PassReference} : parseReference d reference = (do
    match ← acceptSymbol with
    | some n => setReference d reference n
    | none => return none) := by
  unfold parseReference
  congr
  funext found
  cases found <;> cases reference <;> rfl

instance refer_honest {reference : PassReference} :
    Honest w β σ Γ Anything (refer d n location reference) := by
  cases reference <;> unfold refer <;> infer_instance

instance setReference_honest {reference : PassReference} :
    Honest w β σ Γ Anything (setReference d reference n) := by
  unfold setReference
  infer_instance

/-- A function or a texture that is known is found. -/
theorem refer_result {reference : PassReference} {s : Surroundings} {r r' : Reader}
    {g g' : Generator β} {d' : PassDraft}
    (h : Parses (refer d n location reference) s r g d' r' g') (hcovers : w.Covers r' g')
    (hd : Proper w d) (hr : Upright w σ r g)
    (hfunction : n.symbol.type.isFunction = true →
      ∃ decl ∈ g.functions, decl.definition = n.symbol.id)
    (htexture : n.symbol.type.isTexture = true → n.symbol.id ∈ g.result.textures.map (·.id)) :
    Upright w σ r' g' ∧ Proper w d' := by
  cases reference with
  | vertexShader => exact assignShader_result h hcovers hd hr hfunction
  | pixelShader => exact assignShader_result h hcovers hd hr hfunction
  | renderTarget index => exact assignRenderTarget_result h hcovers hd hr htexture

end

/-- What a name outside of functions stands for is known to the generator, unless it failed. -/
theorem acceptSymbol_registered {s : Surroundings} {r r' : Reader} {g g' : Generator β} {n : Named}
    (h : Parses (liftM acceptSymbol) s r g (some n) r' g') (hr : Upright w (.outside room) r' g')
    (hid : n.symbol.id ≠ Id.invalid) :
    (n.symbol.type.isFunction = true → ∃ decl ∈ g'.functions, decl.definition = n.symbol.id)
      ∧ (n.symbol.type.isTexture = true → n.symbol.id ∈ g'.result.textures.map (·.id)) := by
  rcases acceptSymbol_declared h.read.1 with hnone | ⟨e, he, hsymbol⟩
  · rw [hnone]
    exact ⟨fun h => absurd h (by decide), fun h => absurd h (by decide)⟩
  · obtain ⟨hfunction, htexture⟩ := hr.registered e he
    obtain ⟨-, -, -, hkind, -⟩ := hr.proper.1 e he
    rw [hsymbol] at hfunction htexture hkind
    exact ⟨fun htype => hfunction (hkind htype) hid,
      fun htype => (htexture htype hid).resolve_right id⟩

/-- Names that stand in for something that failed are passed over, and all others are known
to the generator. -/
instance parseReference_honest {d : PassDraft} {reference : PassReference}
    [hd : Entails Γ (Proper w d)] :
    Honest w β (.outside room) Γ (Proper w) (parseReference d reference) where
  leaves h := by
    rw [parseReference_eq] at h
    exact (inferInstance : Honest w β (.outside room) Γ Anything (do
      match ← acceptSymbol with
      | some n => setReference d reference n
      | none => return none)).leaves h
  result h hcovers hΓ hr := by
    rw [parseReference_eq] at h
    obtain ⟨found, r₁, g₁, haccept, hrest⟩ := Parses.bind_iff.mp h
    have hread :
        Honest w β (.outside room) Γ (Proper w) (liftM acceptSymbol : ParseM (Option Named)) :=
      inferInstance
    cases found with
    | none =>
      obtain ⟨rfl, rfl, rfl⟩ := hrest.pure
      exact hread.result haccept hcovers hΓ hr
    | some n =>
      have hleaves := (setReference_honest (w := w) (σ := .outside room) (Γ := Γ)).leaves hrest
      obtain ⟨hr₁, hn⟩ :=
        hread.result haccept (hcovers.of_leaves hleaves.accounts hleaves.grows) hΓ hr
      obtain ⟨t, r₂, g₂, hcurrent, hset⟩ := Parses.bind_iff.mp hrest
      obtain ⟨hlook, rfl⟩ := hcurrent.read
      have hr₂ :=
        ((inferInstance : Admits w True Anything currentToken).looks hlook).upright hr₁
      dsimp only at hset
      split at hset
      · rename_i hinvalid
        obtain ⟨rfl, rfl, rfl⟩ := hset.pure
        exact ⟨hr₂, .inr (hinvalid ▸ hn.1).failed⟩
      · rename_i hvalid
        obtain ⟨d', r₃, g₃, hassign, hpure⟩ := Parses.bind_iff.mp hset
        obtain ⟨rfl, rfl, rfl⟩ := hpure.pure
        obtain ⟨hfunction, htexture⟩ := acceptSymbol_registered haccept hr₁ hvalid
        exact refer_result hassign hcovers (hd.entails hΓ) hr₂ hfunction htexture

section

variable {depth : Nat} {recurse : Recurse} [Reliable w β depth recurse]

instance parsePassValue_honest {d : PassDraft} {state : Token} [Entails Γ (Proper w d)] :
    Honest w β σ Γ (Proper w) (parsePassValue recurse d state) := by
  unfold parsePassValue
  refine .andThenSome (fun e => ?_) inferInstance
  dsimp only
  generalize (e.isConstant && e.type.isScalar) = literal
  cases literal
  · refine .andThen (Failed w)
      fun _ => .weaken (Γ := (_ ∧ _) ∧ w.failed) (.pass fun e => ?_) id
    split <;> infer_instance
  · refine .pass fun e => ?_
    split <;> infer_instance

instance parsePassState_honest {d : PassDraft} [Entails Γ (Proper w d)] :
    Honest w β (.outside room) Γ (Proper w) (parsePassState recurse d) := by
  unfold parsePassState
  refine .andThenTrue (.pass fun state => .andThenTrue ?_ inferInstance) inferInstance
  rw [Bool.not_true, if_neg Bool.false_ne_true]
  split <;> infer_instance

instance passStatesRound_honest {d : PassDraft} [Entails Γ (Proper w d)] :
    Honest w β (.outside room) Γ (Proper w) (passStatesRound recurse d) := by
  unfold passStatesRound
  infer_instance

instance parsePassStates_honest :
    Honest w β (.outside room) Γ (Proper w) (parsePassStates recurse) := by
  rw [parsePassStates_eq]
  infer_instance

instance parsePass_honest : Honest w β (.outside room) Γ (Proper w) (parsePass recurse) := by
  unfold parsePass
  refine .andThenTrue (.pass fun location => .pass fun _ => .andThenTrue ?_ inferInstance)
    inferInstance
  rw [Bool.not_true, if_neg Bool.false_ne_true]
  refine .andThenSome (fun d => ?_) inferInstance
  dsimp only
  split
  · refine .andThenTrue inferInstance inferInstance
  · rename_i hvalid
    refine .weaken (Γ := w.failed) ?_ fun h => ?_
    · infer_instance
    · exact (show Proper w d.valid from h.2).resolve_left hvalid

instance passesRound_honest {s : Passes} [Entails Γ (Proper w s)] :
    Honest w β (.outside room) Γ (Proper w) (passesRound recurse s) := by
  unfold passesRound
  infer_instance

instance parsePasses_honest : Honest w β (.outside room) Γ (Proper w) (parsePasses recurse) := by
  rw [parsePasses_eq]
  infer_instance

instance parseTechnique_honest :
    Honest w β (.outside room) Γ (Proper w) (parseTechnique recurse) := by
  unfold parseTechnique
  infer_instance

end

section

variable {recurse : Recurse} [Reliable w β room recurse]

instance namespaceRound_honest {u : Unit} :
    Honest w β (.outside room) Γ (Proper w) (namespaceRound recurse u) := by
  unfold namespaceRound
  infer_instance

/-- A part in a namespace of its own runs between entering and leaving it. -/
theorem namespaced_parses {α γ : Type} {name : String} {x : ParseM γ} {f : γ → ParseM α}
    {s : Surroundings} {r r' : Reader} {g g' : Generator β} {a : α} (h : Parses (do
      modify fun p : Reader => { p with symbols := p.symbols.enterNamespace name }
      let c ← x
      let symbols ← (← get).symbols.leaveNamespace
      modify fun p => { p with symbols }
      f c) s r g a r' g') :
    ∃ c r₁ g₁ symbols,
      Parses x s { r with symbols := r.symbols.enterNamespace name } g c r₁ g₁
        ∧ r₁.symbols.leaveNamespace = .ok symbols
        ∧ Parses (f c) s { r₁ with symbols } g₁ a r' g' := by
  obtain ⟨_, r₀, g₀, henter, hrest₀⟩ := Parses.bind_iff.mp h
  obtain ⟨-, rfl, rfl⟩ := henter.of_run rfl
  obtain ⟨c, r₁, g₁, hx, hrest₁⟩ := Parses.bind_iff.mp hrest₀
  obtain ⟨p, r₂, g₂, hget, hrest₂⟩ := Parses.bind_iff.mp hrest₁
  obtain ⟨rfl, rfl, rfl⟩ := hget.of_run rfl
  obtain ⟨symbols, r₃, g₃, hleave, hrest₃⟩ := Parses.bind_iff.mp hrest₂
  generalize hleft : r₁.symbols.leaveNamespace = left at hleave
  obtain ⟨hread, rfl⟩ := hleave.read
  obtain ⟨hsymbols, rfl⟩ := liftM_eq_ok.mp hread
  obtain ⟨_, r₄, g₄, hset, hrest₄⟩ := Parses.bind_iff.mp hrest₃
  obtain ⟨-, rfl, rfl⟩ := hset.of_run rfl
  exact ⟨c, _, _, symbols, hx, hleft.trans hsymbols, hrest₄⟩

theorem leaveNamespace_depth {t t' : SymbolTable} (h : t.leaveNamespace = .ok t') :
    t'.current.level = t.current.level - 1 ∧ t'.current.namespaceLevel
      = t.current.namespaceLevel - 1 := by
  unfold SymbolTable.leaveNamespace at h
  obtain ⟨name, -, h⟩ := except_bind_eq_ok.mp h
  rw [← except_pure_eq_ok.mp h]
  exact ⟨rfl, rfl⟩

/-- Behind a namespace the place is as deep as in front of it. -/
theorem depth_of_leaveNamespace {name : String} {r r₁ : Reader} {symbols : SymbolTable}
    (h : r₁.depth = Reader.depth { r with symbols := r.symbols.enterNamespace name })
    (hleave : r₁.symbols.leaveNamespace = .ok symbols) :
    Reader.depth { r₁ with symbols } = r.depth := by
  obtain ⟨hlevel, hnamespace⟩ := Prod.mk.inj h
  obtain ⟨hlevel', hnamespace'⟩ := leaveNamespace_depth hleave
  refine Prod.ext (hlevel'.trans ?_) (hnamespace'.trans ?_)
  · exact (congrArg (· - 1) hlevel).trans (UInt32.add_sub_cancel _ _)
  · exact (congrArg (· - 1) hnamespace).trans (UInt32.add_sub_cancel _ _)

/-- What is declared in a namespace stays declared behind it. -/
theorem namespaced_honest {α γ : Type} {P : α → Prop} {name : String} (R : γ → Prop)
    {x : ParseM γ} {f : γ → ParseM α} (hx : Honest w β (.outside room) Γ R x)
    (hf : ∀ c, Honest w β (.outside (room + 1)) (Γ ∧ R c) P (f c)) :
    Honest w β (.outside (room + 1)) Γ P (do
      modify fun p => { p with symbols := p.symbols.enterNamespace name }
      let c ← x
      let symbols ← (← get).symbols.leaveNamespace
      modify fun p => { p with symbols }
      f c) := by
  constructor
  · intro s r g a r' g' h
    obtain ⟨c, r₁, g₁, symbols, hrun, hleave, hrest⟩ := namespaced_parses h
    have hleaves := hx.leaves hrun
    have hentered : r.Accounts { r with symbols := r.symbols.enterNamespace name } := .of_eq rfl rfl
    have hleft : r₁.Accounts { r₁ with symbols } := .of_eq rfl rfl
    have hinside : Leaves r g { r₁ with symbols } g₁ :=
      ⟨(hentered.trans hleaves.accounts).trans hleft,
        depth_of_leaveNamespace hleaves.depth hleave, hleaves.grows⟩
    exact hinside.trans ((hf c).leaves hrest)
  · intro s r g a r' g' h hcovers hΓ hr
    obtain ⟨c, r₁, g₁, symbols, hrun, hleave, hrest⟩ := namespaced_parses h
    have hleaves := (hf c).leaves hrest
    have hcovers₁ := hcovers.of_leaves hleaves.accounts hleaves.grows
    obtain ⟨heq, hroom⟩ := hr.place
    have hplace : (r.symbols.current.level + 1).toNat + room < 2 ^ 32 := by
      rw [UInt32.toNat_add]
      simp only [UInt32.reduceToNat]
      omega
    obtain ⟨hr₁, hc⟩ := hx.result hrun ⟨hcovers₁.nextId, hcovers₁.failed⟩ hΓ
      ⟨hr.proper, fun e he => (hr.registered e he).outside,
        ⟨congrArg (· + 1) heq, hplace⟩, hr.tidy⟩
    have hentries := leaveNamespace_entries hleave
    refine (hf c).result hrest hcovers ⟨hΓ, hc⟩
      ⟨⟨fun e he => hr₁.proper.1 e (hentries ▸ he), hr₁.proper.2⟩,
      fun e he => (hr₁.registered e (hentries ▸ he)).outside, ?_, hr₁.tidy⟩
    exact hr.place.of_depth (depth_of_leaveNamespace (hx.leaves hrun).depth hleave)

instance parseNamespace_honest :
    Honest w β (.outside (room + 1)) Γ (Proper w) (parseNamespace recurse) := by
  rw [parseNamespace_eq]
  refine .andThenTrue (.pass fun token => .andThenTrue ?_ inferInstance) inferInstance
  rw [Bool.not_true, if_neg Bool.false_ne_true]
  refine namespaced_honest (Proper w) inferInstance fun valid => ?_
  infer_instance

instance parseFunctionOrPlaceholder_honest {t : Ty} [Entails Γ (Proper w t)] :
    Honest w β (.outside (room + 1)) Γ (Proper w) (parseFunctionOrPlaceholder recurse t) := by
  unfold parseFunctionOrPlaceholder
  refine .pass fun token => .andThenTrue inferInstance ?_
  rw [if_neg Bool.false_ne_true]
  refine .of_pass (declare_honest (fun h => ?_) fun _ _ _ => .of_invalid rfl) fun _ => inferInstance
  exact ⟨.inr ⟨h.2, rfl⟩, nofun, nofun, fun _ => rfl, nofun⟩

instance parseGlobalName_admits {isFirst : Bool} :
    Admits w Γ (Proper w) (parseGlobalName isFirst) := by
  unfold parseGlobalName
  infer_instance

instance parseGlobal_honest {t : Ty} {isFirst : Bool} [Entails Γ (Proper w t)] :
    Honest w β σ Γ (Present w) (parseGlobal recurse t isFirst) := by
  unfold parseGlobal
  refine .andThenTrue (.pass fun token => .andThenTrue inferInstance ?_) inferInstance
  rw [if_neg Bool.false_ne_true]
  refine .of_pass (declare_honest (fun h => ?_) fun _ _ _ => .of_invalid rfl) fun _ => inferInstance
  exact Symbol.variable_proper (.inr ⟨h.2, rfl⟩)
    ((inferInstance : Entails Γ (Proper w t)).entails h.1)

instance parseGlobals_honest {t : Ty} [Entails Γ (Proper w t)] :
    Honest w β σ Γ (Proper w) (parseGlobals recurse t) := by
  unfold parseGlobals
  have hitem (isFirst : Bool) :
      Honest w β σ (Γ ∧ Anything isFirst) (fun o => o.elim w.failed Anything)
        (parseGlobal recurse t isFirst) :=
    (inferInstance : Honest w β σ _ (Present w) _).mono fun o _ ho => by
      cases o with
      | none => exact ho rfl
      | some a => trivial
  have hitems :
      Honest w β σ Γ (fun o => o.elim w.failed Anything)
        (parseCommaSeparated (parseGlobal recurse t) true) :=
    parseCommaSeparated_of hitem fun _ => trivial
  refine .of_bind hitems fun read => ?_
  cases read with
  | none => exact .of_pure fun h => .inr h.2
  | some a => infer_instance

instance parseTyped_honest :
    Honest w β (.outside (room + 1)) Γ (Proper w) (parseTyped recurse) := by
  unfold parseTyped
  infer_instance

instance parseDeclaration_honest :
    Honest w β (.outside (room + 1)) Γ (Proper w) (parseDeclaration recurse) := by
  unfold parseDeclaration
  infer_instance

end

/-- The parts of the grammar are honest, however deep they are nested. -/
instance parse_reliable (depth : Nat) : Reliable w β depth (parse depth) := by
  induction depth with
  | zero => exact ⟨.throw, .throw, .throw, .throw, .throw, .throw⟩
  | succ depth ih =>
    exact ⟨parseUnary_honest, parseMultary_honest, parseAssignment_honest, parseSequence_honest,
      parseStatement_honest, parseDeclaration_honest⟩

end ShaderEffect.Parser

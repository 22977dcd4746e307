import ShaderEffect.Proofs.Failures.Operands
import ShaderEffect.Proofs.Reading.Declarations

namespace ShaderEffect

/-- What a declaration leaves behind: at most one name is new, and a local one lies in
the current scope. -/
structure Reader.Adds (symbol : Symbol) (isGlobal : Bool) (r r' : Reader) :
    Prop extends r.Accounts r' where
  depth : r'.depth = r.depth
  returnType : r'.returnType = r.returnType
  entries : ∀ e ∈ r'.symbols.entries, e ∈ r.symbols.entries
    ∨ e.symbol = symbol ∧ (isGlobal = false → e.scope = r.symbols.current)

namespace Reader.Adds

variable {r r' : Reader} {symbol : Symbol} {isGlobal : Bool}

theorem refl (r : Reader) : r.Adds symbol isGlobal r := ⟨.refl r, rfl, rfl, fun _ => .inl⟩

theorem looks {r₁ : Reader} (h : r.Adds symbol isGlobal r₁) (h' : r₁.Looks r') :
    r.Adds symbol isGlobal r' :=
  ⟨h.toAccounts.trans h'.toAccounts, h'.depth.trans h.depth, h'.returnType.trans h.returnType,
    fun e he => h.entries e (h'.entries he)⟩

theorem leaves {β : Type} {g : Generator β} (h : r.Adds symbol isGlobal r') : Leaves r g r' g :=
  ⟨h.toAccounts, h.depth, .refl g⟩

theorem upright {β : Type} [Backend β] {w : Horizon} [Backend.Numbering w β] {σ : Place}
    {g : Generator β} (h : r.Adds symbol isGlobal r') (hr : Upright w σ r g)
    (hsymbol : Proper w symbol)
    (hregistered : ∀ scope, (isGlobal = false → scope = r.symbols.current) →
      Registered σ g symbol scope) :
    Upright w σ r' g where
  proper := by
    refine ⟨fun e he => ?_, h.returnType ▸ hr.proper.2⟩
    obtain he | ⟨heq, -⟩ := h.entries e he
    · exact hr.proper.1 e he
    · exact heq ▸ hsymbol
  registered e he := by
    obtain he | ⟨heq, hscope⟩ := h.entries e he
    · exact hr.registered e he
    · exact heq ▸ hregistered e.scope hscope
  place := hr.place.of_depth h.depth
  tidy := hr.tidy

end Reader.Adds

/-- What stands for a variable is no function. -/
theorem Symbol.variable_proper {w : Horizon} {id : Id} {t : Ty} (hid : Proper w id)
    (ht : Proper w t) :
    Proper w ({ kind := .variable, id, type := t } : Symbol) :=
  ⟨hid, fun _ => ht, nofun, fun hfunction => absurd (of_decide_eq_true hfunction) ht.1, nofun⟩

namespace Parser

theorem declare_adds {name : String} {symbol : Symbol} {isGlobal : Bool} {r r' : Reader} {ok : Bool}
    (h : declare name symbol isGlobal r = .ok (ok, r')) : r.Adds symbol isGlobal r' := by
  obtain ⟨r₁, r₂, hget, h⟩ := bind_eq_ok.mp h
  obtain ⟨rfl, rfl⟩ := get_eq_ok.mp hget
  obtain ⟨found, r₃, hfound, h⟩ := bind_eq_ok.mp h
  obtain ⟨hinsert, rfl⟩ := liftM_eq_ok.mp hfound
  cases found with
  | none =>
    obtain ⟨-, rfl⟩ := pure_eq_ok.mp h
    exact .refl _
  | some symbols =>
    obtain ⟨_, r₂, hset, h⟩ := bind_eq_ok.mp h
    obtain ⟨-, rfl⟩ := pure_eq_ok.mp h
    obtain rfl := set_eq_ok.mp hset
    obtain ⟨hcurrent, hentries⟩ := insert_spec hinsert
    refine ⟨.of_eq rfl rfl,
      congrArg (fun scope : Scope => (scope.level, scope.namespaceLevel)) hcurrent, rfl,
      fun e he => ?_⟩
    exact (hentries e he).imp_right fun hnew => ⟨hnew.symbol, hnew.inside⟩

/-- A name that is taken is an error. -/
theorem declareOnce_adds {location : Location} {name : String} {symbol : Symbol} {isGlobal : Bool}
    {r r' : Reader} {ok : Bool} (h : declareOnce location name symbol isGlobal r = .ok (ok, r')) :
    r.Adds symbol isGlobal r' ∧ (ok = true ∨ 0 < r'.errors) := by
  obtain ⟨found, r₁, hfound, h⟩ := bind_eq_ok.mp h
  have hadds := declare_adds hfound
  cases found with
  | true =>
    obtain ⟨rfl, rfl⟩ := pure_eq_ok.mp h
    exact ⟨hadds, .inl rfl⟩
  | false =>
    obtain ⟨_, r₂, herror, h⟩ := bind_eq_ok.mp h
    obtain ⟨-, rfl⟩ := pure_eq_ok.mp h
    obtain ⟨hlooks, hfails⟩ := error_fails herror
    exact ⟨hadds.looks hlooks, .inr hfails⟩

variable {β : Type} [Backend β] {w : Horizon} [Backend.Numbering w β] {σ : Place} {Γ : Prop}

/-- Declaring a name is honest if the name stands for something that the generator need not know. -/
theorem of_adds {α : Type} {P : α → Prop} {x : ReadM α} {symbol : Symbol} {isGlobal : Bool}
    (hx : ∀ {r a r'}, x r = .ok (a, r') →
      r.Adds symbol isGlobal r' ∧ ((0 < r'.errors → w.failed) → P a))
    (hsymbol : Γ → Proper w symbol)
    (hregistered : Γ → ∀ (g : Generator β) scope, Registered σ g symbol scope) :
    Honest w β σ Γ P (liftM x : ParseM α) where
  leaves h := by
    obtain ⟨hrun, rfl⟩ := h.read
    exact (hx hrun).1.leaves
  result h hcovers hΓ hr := by
    obtain ⟨hrun, rfl⟩ := h.read
    obtain ⟨hadds, hP⟩ := hx hrun
    exact ⟨hadds.upright hr (hsymbol hΓ) fun scope _ => hregistered hΓ _ scope,
      hP hcovers.failed⟩

theorem declare_honest {name : String} {symbol : Symbol} {isGlobal : Bool}
    (hsymbol : Γ → Proper w symbol)
    (hregistered : Γ → ∀ (g : Generator β) scope, Registered σ g symbol scope) :
    Honest w β σ Γ Anything (liftM (declare name symbol isGlobal) : ParseM Bool) :=
  of_adds (fun h => ⟨declare_adds h, fun _ => trivial⟩) hsymbol hregistered

theorem declareOnce_honest {location : Location} {name : String} {symbol : Symbol} {isGlobal : Bool}
    (hsymbol : Γ → Proper w symbol)
    (hregistered : Γ → ∀ (g : Generator β) scope, Registered σ g symbol scope) :
    Honest w β σ Γ (Proper w)
      (liftM (declareOnce location name symbol isGlobal) : ParseM Bool) :=
  of_adds (fun h => (declareOnce_adds h).imp_right fun hok hfailed => hok.imp_right hfailed)
    hsymbol hregistered

instance declarationError_admits {location : Location} {code : Int} {name message : String} :
    Admits w Γ (Failed w) (declarationError location code name message) := by
  unfold declarationError
  infer_instance

/-- A check that failed is an error. -/
instance reportFailed_admits {location : Location} {name : String}
    {checks : List (Bool × Int × String)} :
    Admits w Γ (Proper w) (reportFailed location name checks) := by
  unfold reportFailed
  exact .of_bind (.forM_failed fun _ _ => declarationError_admits) fun _ => .of_pure And.right

/-- What the items of a list keep, the list keeps. -/
theorem parseCommaSeparated_of {α : Type} {R : α → Prop} {item : α → ParseM (Option α)}
    (hitem : ∀ a, Honest w β σ (Γ ∧ R a) (fun o => o.elim w.failed R) (item a)) {a : α}
    (ha : Γ → R a) :
    Honest w β σ Γ (fun o => o.elim w.failed R) (parseCommaSeparated item a) := by
  rw [parseCommaSeparated_eq]
  refine .loop_of (R := fun c => R c.2) (fun c => ?_) ha
  obtain ⟨isFirst, a⟩ := c
  have hnext : Honest w β σ (Γ ∧ R a) (Sum.elim (fun d => R d.2) fun o => o.elim w.failed R)
      (itemsRound item (true, a)) :=
    .of_bind (hitem a) fun o => by cases o <;> exact .of_pure And.right
  cases isFirst with
  | true => exact hnext
  | false =>
    unfold itemsRound at hnext ⊢
    refine .pass fun closing => ?_
    split
    · exact .of_pure And.right
    · exact .andThenTrue hnext (.of_pure And.right)

instance parseCommaSeparated_honest {α : Type} [Judged α] {item : α → ParseM (Option α)}
    [hitem : ∀ a, Honest w β σ (Γ ∧ Proper w a) (Proper w) (item a)] {a : α}
    [ha : Entails Γ (Proper w a)] :
    Honest w β σ Γ (Proper w) (parseCommaSeparated item a) :=
  parseCommaSeparated_of hitem ha.entails

instance parseSemantic_admits : Admits w Γ (Proper w) parseSemantic := by
  unfold parseSemantic
  infer_instance

section

variable {room : Nat} {recurse : Recurse} [Reliable w β room recurse]

instance parseLength_honest : Honest w β σ Γ (Proper w) (parseLength recurse) := by
  unfold parseLength
  dsimp only
  infer_instance

set_option synthInstance.maxSize 65536 in
instance parseArraySize_honest {t : Ty} [Entails Γ (Proper w t)] :
    Honest w β σ Γ (Proper w) (parseArraySize recurse t) := by
  unfold parseArraySize
  infer_instance

set_option synthInstance.maxSize 65536 in
instance parseAnnotation_honest : Honest w β σ Γ (Proper w) ( parseAnnotation recurse) := by
  unfold parseAnnotation
  infer_instance

instance annotationsRound_honest {s : Annotations} [Entails Γ (Proper w s)] :
    Honest w β σ Γ (Proper w) (annotationsRound recurse s) := by
  unfold annotationsRound
  infer_instance

instance parseAnnotations_honest : Honest w β σ Γ (Proper w) (parseAnnotations recurse) := by
  rw [parseAnnotations_eq]
  infer_instance

instance parseField_honest {t : Ty} {s : Fields} [Entails Γ (Proper w t)]
    [Entails Γ (Proper w s)] :
    Honest w β σ Γ (Proper w) (parseField recurse t s) := by
  unfold parseField
  infer_instance

instance fieldsRound_honest {s : Fields} [Entails Γ (Proper w s)] :
    Honest w β σ Γ (Proper w) (fieldsRound recurse s) := by
  unfold fieldsRound
  infer_instance

instance parseFields_honest : Honest w β σ Γ (Proper w) (parseFields recurse) := by
  rw [parseFields_eq]
  infer_instance

instance parseStructName_admits {location : Location} :
    Admits w Γ Anything (parseStructName location) := by
  unfold parseStructName
  infer_instance

/-- The name of a structure stands for the structure. -/
instance parseStruct_honest : Honest w β σ Γ (Proper w) (parseStruct recurse) := by
  unfold parseStruct
  refine .pass fun token => .pass fun name => .pass fun unique => .andThenTrue ?_ inferInstance
  refine .andThenSome (fun fields => ?_) inferInstance
  have hrest : Honest w β σ (Γ ∧ Proper w fields) (Proper w) (do
      let decl ← emit (.defineStruct token.location
        { name, uniqueName := unique, members := fields.members })
      if !(← declareOnce token.location name { kind := .struct, id := decl.definition } true) then
        return false
      return (← expect .braceClose) && fields.valid) := by
    refine .of_bind .defineStruct fun decl => ?_
    refine .of_bind_true (declareOnce_honest (fun h => ?_) fun _ _ _ => ⟨nofun, nofun⟩)
      inferInstance inferInstance
    exact ⟨.inl h.2, nofun, fun _ => h.2, nofun, nofun⟩
  dsimp only
  split
  · exact .pass fun _ => hrest
  · exact hrest

end

/-- The name that stands in for a texture is one that failed before. -/
instance applyTexture_honest {resource : Resource} {e : Expression} [he : Entails Γ (Proper w e)] :
    Honest w β σ Γ (Proper w) (applyTexture resource e) := by
  unfold applyTexture
  split
  · rename_i hinvalid
    exact .of_pure fun hΓ => (hinvalid ▸ (he.entails hΓ).1 : w.Valid Id.invalid).failed
  · infer_instance

instance applyNumber_admits {resource : Resource} {location : Location} {name : String}
    {e : Expression} :
    Admits w Γ (Proper w) (applyNumber resource location name e) := by
  unfold applyNumber
  split
  · infer_instance
  · refine .pass fun e => ?_
    split <;> infer_instance

section

variable {room : Nat} {recurse : Recurse} [Reliable w β room recurse]

instance parseStateValue_honest {values : List (String × UInt32)} :
    Honest w β σ Γ (Proper w) (parseStateValue recurse values) := by
  unfold parseStateValue
  refine .pass fun _ => .pass fun isName => ?_
  split
  · refine .pass fun t => ?_
    split <;> infer_instance
  · infer_instance

instance parseProperty_honest {resource : Resource} :
    Honest w β σ Γ (Proper w) (parseProperty recurse resource) := by
  unfold parseProperty
  dsimp only
  infer_instance

instance propertiesRound_honest {resource : Resource} :
    Honest w β σ Γ (Proper w) (propertiesRound recurse resource) := by
  unfold propertiesRound
  infer_instance

instance parseProperties_honest : Honest w β σ Γ (Proper w) (parseProperties recurse) := by
  rw [parseProperties_eq]
  infer_instance

instance checkGlobal_admits {location : Location} {name : String} {t : Ty}
    [Entails Γ (Proper w t)] :
    Admits w Γ (Proper w) (checkGlobal location name t) := by
  unfold checkGlobal
  infer_instance

instance checkLocal_admits {location : Location} {name : String} {t : Ty}
    [Entails Γ (Proper w t)] :
    Admits w Γ (Proper w) (checkLocal location name t) := by
  unfold checkLocal
  dsimp only
  infer_instance

instance checkVariable_admits {location : Location} {name : String} {t : Ty} {isGlobal : Bool}
    [Entails Γ (Proper w t)] :
    Admits w Γ (Proper w) (checkVariable location name t isGlobal) := by
  unfold checkVariable
  infer_instance

instance parseInitializer_honest {name : String} {t : Ty} {isGlobal : Bool}
    [Entails Γ (Proper w t)] :
    Honest w β σ Γ (Proper w) (parseInitializer recurse name t isGlobal) := by
  unfold parseInitializer
  dsimp only
  infer_instance

set_option synthInstance.maxSize 65536 in
instance parseValue_honest {location : Location} {name : String} {isGlobal : Bool} {tail : Tail}
    [Entails Γ (Proper w tail)] :
    Honest w β σ Γ (Proper w) (parseValue recurse location name isGlobal tail) := by
  unfold parseValue
  dsimp only
  infer_instance

instance parseTail_honest {location : Location} {name : String} {t : Ty} {isGlobal : Bool}
    [Entails Γ (Proper w t)] :
    Honest w β σ Γ (Proper w) (parseTail recurse location name t isGlobal) := by
  unfold parseTail
  dsimp only
  infer_instance

instance checkSampler_admits {location : Location} {name : String} {resource : Resource} :
    Admits w Γ (Proper w) (checkSampler location name resource) := by
  unfold checkSampler
  infer_instance

end

instance defineStorage_honest {location : Location} {name : String} {tail : Tail} {isGlobal : Bool}
    [htail : Entails Γ (Proper w tail)] :
    Honest w β σ Γ (Proper w) (defineStorage location name tail isGlobal) := by
  unfold defineStorage
  cases hinit : tail.init with
  | none => infer_instance
  | some e =>
    have : Entails Γ (Proper w e) := ⟨fun hΓ => (htail.entails hΓ).2.1 e hinit⟩
    infer_instance

/-- Whether a symbol stands for something that the generator need not know. -/
def Unlisted (w : Horizon) (symbol : Symbol) : Prop :=
  Proper w symbol ∧ symbol.kind ≠ .function ∧ symbol.type.isTexture = false

omit [Backend β] [Backend.Numbering w β] in
theorem Unlisted.registered {symbol : Symbol} (h : Unlisted w symbol) (g : Generator β)
    (scope : Scope) :
    Registered σ g symbol scope :=
  ⟨fun hkind => absurd hkind h.2.1, fun htype => absurd htype (Bool.eq_false_iff.mp h.2.2)⟩

/-- Only textures are known to the generator. -/
theorem defineSymbol_honest {location : Location} {name : String} {tail : Tail} {isGlobal : Bool}
    [htail : Entails Γ (Proper w tail)] (htype : tail.type.isTexture = false) :
    Honest w β σ Γ (fun found => found.elim w.failed (Unlisted w))
      (defineSymbol location name tail isGlobal) := by
  have hsome {Δ : Prop} (id : Id) (hid : Δ → Proper w id) (hΓ : Δ → Γ) :
      Honest w β σ Δ (fun found => found.elim w.failed (Unlisted w))
        (pure (some { kind := .variable, id, type := tail.type }) : ParseM (Option Symbol)) :=
    .of_pure fun h => ⟨Symbol.variable_proper (hid h) (htail.entails (hΓ h)).1, by simp, htype⟩
  unfold defineSymbol
  dsimp only
  split
  · rename_i value hfolded
    have hkind {kind : Symbol.Kind} (h : .constant = kind) (hother : kind ≠ .constant) :
        False := hother h.symm
    exact .of_pure fun hΓ => ⟨⟨.inl Horizon.made_zero, fun _ => (htail.entails hΓ).1,
      fun h => (hkind h (by decide)).elim,
      fun hfunction => absurd (of_decide_eq_true hfunction) (htail.entails hΓ).1.1,
      fun d hd => absurd hd (Option.not_mem_none d)⟩, fun h => hkind h (by decide), htype⟩
  rw [htype, if_neg Bool.false_ne_true]
  split
  · refine .andThenTrue (.pass fun _ => .andThen (Proper w) fun sampler => ?_) (.of_pure And.right)
    exact hsome sampler.id (fun h => .inl h.2) And.left
  split
  · exact .andThen (Proper w) fun id => hsome id And.right And.left
  · exact .andThen (Proper w) fun id => hsome id And.right And.left

/-- What is declared right where the generator has answered is known to the generator. -/
theorem emit_declareOnce {α : Type} {P : α → Prop} {q : Request} {location : Location}
    {name : q.Answer → String} {symbol : q.Answer → Symbol} {isGlobal : Bool}
    {f : q.Answer → Bool → ParseM α} (R : q.Answer → Prop) (hfits : Γ → q.Fits w)
    (hanswer : Γ → ∀ (g' : Generator β) a,
      q.Gives w a → q.Records g' a →
        R a ∧ Proper w (symbol a) ∧ ∀ scope, Registered σ g' (symbol a) scope)
    (hf : ∀ a ok, Honest w β σ ((Γ ∧ R a) ∧ Proper w ok) P (f a ok)) :
    Honest w β σ Γ P (do
      let a ← emit q
      let ok ← declareOnce location (name a) (symbol a) isGlobal
      f a ok) where
  leaves h := by
    obtain ⟨a, r₁, g₁, hask, hrest⟩ := Parses.bind_iff.mp h
    obtain ⟨rfl, hq⟩ := hask.emit
    obtain ⟨ok, r₂, g₂, hread, hrest⟩ := Parses.bind_iff.mp hrest
    obtain ⟨hdeclare, rfl⟩ := hread.read
    have hdefined : Leaves r₁ _ r₁ g₁ := ⟨.refl _, rfl, Backend.Numbering.grows w hq⟩
    exact (hdefined.trans (declareOnce_adds hdeclare).1.leaves).trans ((hf a ok).leaves hrest)
  result h hcovers hΓ hr := by
    obtain ⟨a, r₁, g₁, hask, hrest⟩ := Parses.bind_iff.mp h
    obtain ⟨rfl, hq⟩ := hask.emit
    obtain ⟨ok, r₂, g₂, hread, hrest⟩ := Parses.bind_iff.mp hrest
    obtain ⟨hdeclare, rfl⟩ := hread.read
    have hleaves := (hf a ok).leaves hrest
    have hcovers₂ := hcovers.of_leaves hleaves.accounts hleaves.grows
    have hgrows := Backend.Numbering.grows w hq
    obtain ⟨htidy, hgives, hrecords⟩ :=
      Backend.Numbering.answers hq hcovers₂.nextId (hfits hΓ) hr.tidy
    obtain ⟨hR, hsymbol, hregistered⟩ := hanswer hΓ g₁ a hgives hrecords
    obtain ⟨hadds, hok⟩ := declareOnce_adds hdeclare
    have hr₁ : Upright w σ r₁ g₁ :=
      ⟨hr.proper, fun e he => (hr.registered e he).of_grows hgrows, hr.place, htidy⟩
    have hr₂ := hadds.upright hr₁ hsymbol fun scope _ => hregistered scope
    exact (hf a ok).result hrest hcovers ⟨⟨hΓ, hR⟩, hok.imp_right hcovers₂.failed⟩ hr₂

theorem defineSymbol_texture {location : Location} {name : String} {tail : Tail} {isGlobal : Bool}
    (htype : tail.type.isTexture = true) : defineSymbol location name tail isGlobal = (do
      let texture :=
        { tail.resource.texture with
          uniqueName := ← uniqueName "V" name
          annotations := tail.annotations }
      let texture ← emit (.defineTexture location texture)
      return some { kind := .variable, id := texture.id, type := tail.type }) := by
  have hnumeric : tail.type.isNumeric = false := by
    rw [Ty.isNumeric, of_decide_eq_true htype]
  unfold defineSymbol
  simp only [hnumeric, htype, Bool.false_and, Bool.false_eq_true, if_true, if_false]

/-- A variable is declared as what was defined for it. -/
theorem defineSymbol_declareOnce {location : Location} {name : String} {tail : Tail}
    {isGlobal : Bool} [htail : Entails Γ (Proper w tail)] : Honest w β σ Γ (Proper w) (do
      let some symbol ← defineSymbol location name tail isGlobal | return false
      return (← declareOnce location name symbol isGlobal) && tail.valid) := by
  cases htype : tail.type.isTexture with
  | true =>
    rw [defineSymbol_texture htype]
    simp only [bind_assoc, pure_bind]
    refine .pass fun unique =>
      emit_declareOnce Anything (fun _ => trivial) ?_ fun _ _ => inferInstance
    refine fun hΓ g' texture hmade hrecorded =>
      ⟨trivial, Symbol.variable_proper (.inl hmade) (htail.entails hΓ).1, ?_⟩
    exact fun _ => ⟨nofun, fun _ _ => .inl hrecorded⟩
  | false =>
    refine .of_bind (defineSymbol_honest htype) fun found => ?_
    cases found with
    | none => exact .of_pure fun h => .inr h.2
    | some symbol =>
      exact .of_bind (declareOnce_honest (fun h => h.2.1) fun h => h.2.registered)
        fun _ => inferInstance

section

variable {room : Nat} {recurse : Recurse} [Reliable w β room recurse]

instance parseVariable_honest {t : Ty} {isGlobal : Bool} [Entails Γ (Proper w t)] :
    Honest w β σ Γ (Proper w) (parseVariable recurse t isGlobal) := by
  unfold parseVariable
  have (token : Token) (tail : Tail) (Δ : Prop) :
      Honest w β σ (Δ ∧ Proper w tail) (Proper w) (do
      let some symbol ← defineSymbol token.location token.text tail isGlobal | return false
      return (← declareOnce token.location token.text symbol isGlobal) && tail.valid) :=
    defineSymbol_declareOnce
  infer_instance

end

end Parser
end ShaderEffect

import ShaderEffect.Parser.Resource
import ShaderEffect.Parser.Variable
import ShaderEffect.Proofs.Parsing.Rules
import ShaderEffect.Proofs.Reading.Operands

namespace ShaderEffect.Parser

variable {β : Type} [Backend β] [Backend.Lasting β] {bound : Nat} {recurse : Recurse}
  {p : Progress}

instance declarationError_reads {location : Location} {code : Int} {name message : String} :
    Reads .some (declarationError location code name message) := by
  unfold declarationError
  infer_instance

instance reportFailed_reads {location : Location} {name : String}
    {checks : List (Bool × Int × String)} :
    Reads .some (reportFailed location name checks) := by
  unfold reportFailed
  dsimp only
  infer_instance

instance declareOnce_reads {location : Location} {name : String} {symbol : Symbol} {isGlobal : Bool}
    [IsFalse (namesStruct symbol)] : Reads .some (declareOnce location name symbol isGlobal) := by
  unfold declareOnce
  infer_instance

/-- Reads an item of a list, with the comma in front of it. -/
def itemsRound {α : Type} (item : α → ParseM (Option α)) :
    Bool × α → ParseM ((Bool × α) ⊕ Option α) :=
  fun (isFirst, a) => do
    if !isFirst then
      if ← peek .semicolon then return .inr (some a)
      if !(← expect .comma) then return .inr none
    match ← item a with
    | some a => return .inl (false, a)
    | none => return .inr none

theorem parseCommaSeparated_eq {α : Type} (item : α → ParseM (Option α)) (a : α) :
    parseCommaSeparated item a = loop (itemsRound item) (true, a) := rfl

instance itemsRound_consumes {α : Type} {item : α → ParseM (Option α)}
    [h : ∀ a, Wanders β bound .consuming (item a)] {c : Bool × α} :
    Wanders β bound .consuming (itemsRound item c) := by
  have : ∀ a, Wanders β bound .some (item a) := fun a => .of_consuming (h a)
  unfold itemsRound
  dsimp only
  infer_instance

instance parseCommaSeparated_wanders {α : Type} {item : α → ParseM (Option α)}
    [∀ a, Wanders β bound .consuming (item a)] {a : α} :
    Wanders β bound .some (parseCommaSeparated item a) := by
  rw [parseCommaSeparated_eq]
  infer_instance

/-- What an item does to what was read before it, a whole list does. -/
theorem parseCommaSeparated_keeps {α : Type} {item : α → ParseM (Option α)}
    (R : α → α → Prop) (hrefl : ∀ a, R a a) (htrans : ∀ a b c, R a b → R b c → R a c)
    (hitem : ∀ a s r, Parsing (item a) s r fun (_ : List (Entry Unit)) found _ =>
      ∀ a' ∈ found, R a a') {a : α} {s : Surroundings} {r : Reader} :
    Parsing (parseCommaSeparated item a) s r fun (_ : List (Entry Unit)) found _ =>
      ∀ a' ∈ found, R a a' := by
  rw [parseCommaSeparated_eq]
  refine Parsing.loop (fun _ c _ => R a c.2) (hrefl a) fun _ c r hc => ?_
  have hnext (r : Reader) : Parsing (do
      match ← item c.2 with
      | some a => return .inl (false, a)
      | none => return .inr none : ParseM ((Bool × α) ⊕ Option α)) s r
      fun (_ : List (Entry Unit)) d _ =>
        d.elim (fun c' => R a c'.2) fun found => ∀ a' ∈ found, R a a' := by
    refine Parsing.bind (hitem c.2 s r) fun _ found r' hfound => ?_
    cases found with
    | none => exact fun _ h => absurd h (by simp)
    | some a' => exact htrans a c.2 a' hc (hfound a' rfl)
  unfold itemsRound
  dsimp only
  split
  · refine .bind_any fun closing r => ?_
    split
    · exact fun a' h => Option.some.inj h ▸ hc
    · refine .bind_any fun comma r => ?_
      split
      · exact fun _ h => absurd h (by simp)
      · exact hnext r
  · exact hnext r

section

variable [htame : Tame β bound recurse]

instance parseLength_wanders : Wanders β bound .some (parseLength recurse) := by
  unfold parseLength
  dsimp only
  infer_instance

set_option synthInstance.maxSize 65536 in
instance parseArraySize_wanders {t : Ty} : Wanders β bound .some (parseArraySize recurse t) := by
  unfold parseArraySize
  infer_instance

instance parseSemantic_reads : Reads .some parseSemantic := by
  unfold parseSemantic
  infer_instance

omit [Backend.Lasting β] in
/-- An annotation may end where its type was looked for. -/
theorem parseAnnotation_ends {s : Surroundings} {r : Reader} {g : Generator β} (hr : Ready bound r)
    (hg : Sane r g) :
    Concludes ( parseAnnotation recurse) s r g fun found r' g' =>
      Pends r g r' g' ∧ (found.isSome → Advances r g r' g' ∧ r'.left < r.left) := by
  unfold parseAnnotation
  refine Concludes.bind_read (acceptType_ends hr.rounds) fun type r₁ htype => ?_
  extract_lets rest
  have hrest (r₂ : Reader) (g₂ : Generator β) (h : Pends r g r₂ g₂) :
      Concludes (rest ()) s r₂ g₂ fun found r' g' =>
      Pends r g r' g' ∧ (found.isSome → Advances r g r' g' ∧ r'.left < r.left) := by
    refine Concludes.bind_read (expect_ends (Q := fun ok r' => if ok = true then
      r₂.next.kind = .identifier ∧ r' = r₂.consumed else r₂.Stays r')
      (fun hkind => ⟨hkind, rfl⟩) fun _ _ h => h) ?_
    rintro (_ | _) r₃ hr₃
    · exact Concludes.pure ⟨h.stays hr₃, nofun⟩
    · obtain ⟨hkind, rfl⟩ := hr₃
      have hlt := Reader.left_consumed_lt (r := r₂) (hkind ▸ nofun)
      have hadv := h.advances (r₂.moves_consumed.advances h.sane) fun _ => hlt
      refine Concludes.of_wanders .some ?_ (hr.leads hadv.leads) hadv.sane fun found r' g' h' _ =>
        ⟨(hadv.trans h').pends, fun _ => ⟨hadv.trans h', ?_⟩⟩
      · infer_instance
      · exact Nat.lt_of_le_of_lt h'.leads.left (Nat.lt_of_lt_of_le hlt h.wavers.left)
  cases type with
  | none => exact hrest r₁ g (htype.tries.pends hg)
  | some t =>
    have hadv := htype.advances hg
    refine Wanders.next .some (hr.leads hadv.leads) hadv.sane fun token r₂ g₂ h₂ _ => ?_
    have hadv := hadv.trans h₂
    refine Wanders.next .some (hr.leads hadv.leads) hadv.sane fun _ r₃ g₃ h₃ _ => ?_
    exact hrest r₃ g₃ (hadv.trans h₃).pends

/-- Reads an annotation, or skips to behind the block after an error. -/
def annotationsRound (recurse : Recurse) (s : Annotations) :
    ParseM (Annotations ⊕ Annotations) := do
  if ← peek .greater then
    let closed ← expect .greater
    return .inr { s with valid := closed && s.valid }
  match ← parseAnnotation recurse with
  | none =>
    consumeUntil .greater
    return .inr { s with valid := false }
  | some (name, e) =>
    if e.isConstant then
      return .inl { s with entries := s.entries ++ [{ type := e.type, name, value := e.value }] }
    error e.location 3011 "value must be a literal expression"
    return .inl { s with valid := false }

theorem parseAnnotations_eq : parseAnnotations recurse = (do
    if !(← accept .less) then return {}
    loop (annotationsRound recurse) {}) := rfl

instance annotationsRound_consumes {a : Annotations} :
    Wanders β bound .consuming (annotationsRound recurse a) where
  ends s r g hr hg := by
    unfold annotationsRound
    refine Concludes.bind_read (peek_ends (Q := fun _ r' => r' = r) rfl) fun closing r' hr' => ?_
    obtain rfl := hr'.symm
    split
    · exact (inferInstance : Wanders β bound .consuming _).ends hr hg
    · refine Concludes.behindPending .greater (pure (.inr { a with valid := false })) ?_
        inferInstance ?_ hr (parseAnnotation_ends hr hg)
      · rfl
      · rintro ⟨name, e⟩
        infer_instance

instance parseAnnotations_wanders : Wanders β bound .some (parseAnnotations recurse) := by
  rw [parseAnnotations_eq]
  infer_instance

/-- Whether the structures in some members are defined. -/
def MembersDefined (members : List Member) (g : Generator β) : Prop :=
  ∀ m ∈ members, m.type.isStruct → ∃ d ∈ g.structs, d.definition = m.type.definition

omit [Backend β] [Backend.Lasting β] in
theorem MembersDefined.of_structs {members : List Member} {g g' : Generator β}
    (h : MembersDefined members g)
    (hg : g.structs ⊆ g'.structs) : MembersDefined members g' := fun m hm hstruct =>
  (h m hm hstruct).imp fun _ hd => ⟨hg hd.1, hd.2⟩

instance parseField_consumes {t : Ty} {s : Fields} :
    Wanders β bound .consuming (parseField recurse t s) := by
  unfold parseField
  infer_instance

omit [Backend β] [Backend.Lasting β] htame in
/-- The length of an array does not change which structure it is made of. -/
theorem parseArraySize_type {t : Ty} {s : Surroundings} {r : Reader} :
    Parsing (parseArraySize recurse t) s r fun (_ : List (Entry Unit)) found _ =>
      ∀ t' ∈ found, t'.isStruct = t.isStruct ∧ t'.definition = t.definition := by
  unfold parseArraySize
  refine .bind_any fun isArray r => ?_
  split
  -- With brackets or without, what is behind the length is the same.
  all_goals
    refine .bind_any fun length r => ?_
    cases length with
    | none => exact fun t' ht' => absurd ht' (by simp)
    | some length =>
      refine .bind_any fun _ r => ?_
      split
      · exact .bind_any fun _ _ => .bind_any fun _ _ t' ht' => absurd ht' (by simp)
      · exact fun t' ht' => Option.some.inj ht' ▸ ⟨rfl, rfl⟩

/-- Whether members that were added to others have a type, but for their lengths. -/
def AddsMembers (t : Ty) (a b : Fields) : Prop :=
  ∀ m ∈ b.members,
    m ∈ a.members ∨ m.type.isStruct = t.isStruct ∧ m.type.definition = t.definition

omit [Backend β] [Backend.Lasting β] htame in
theorem parseField_members {t : Ty} {fields : Fields} {s : Surroundings} {r : Reader} :
    Parsing (parseField recurse t fields) s r fun (_ : List (Entry Unit)) found _ =>
      ∀ fields' ∈ found, AddsMembers t fields fields' := by
  unfold parseField
  have hnone (r : Reader) : Parsing (pure none) s r fun (_ : List (Entry Unit)) found _ =>
      ∀ fields' ∈ found, AddsMembers t fields fields' :=
    fun _ h => absurd h (by simp)
  refine .bind_any fun ok r => ?_
  split
  · exact hnone r
  refine .bind_any fun name r => .bind_any fun valid r => ?_
  refine Parsing.bind parseArraySize_type fun _ type r htype => ?_
  cases type with
  | none => exact hnone r
  | some type =>
    refine .bind_any fun sized r => .bind_any fun semantic r => ?_
    cases semantic with
    | none => exact hnone r
    | some semantic =>
      intro fields' h m hm
      obtain rfl := Option.some.inj h
      obtain hm | hm := List.mem_append.mp hm
      · exact .inl hm
      · obtain rfl := List.mem_singleton.mp hm
        exact .inr (htype type rfl)

/-- Reads the members of one type, up to the brace. -/
def fieldsRound (recurse : Recurse) (s : Fields) : ParseM (Fields ⊕ Option Fields) := do
  if ← peek .braceClose then return .inr (some s)
  match ← parseType with
  | none =>
    let t ← nextToken
    error t.location 3000 (unexpectedFor t "struct member type")
    return .inr none
  | some t =>
    let some s ← parseCommaSeparated (parseField recurse t) s | return .inr none
    if ← expect .semicolon then return .inl s else return .inr none

theorem parseFields_eq : parseFields recurse = loop (fieldsRound recurse) {} := rfl

omit [Backend β] [Backend.Lasting β] htame in
/-- All the members of one list have its type, but for their lengths. -/
theorem parseMembers_type {t : Ty} {fields : Fields} {s : Surroundings} {r : Reader} :
    Parsing (parseCommaSeparated (parseField recurse t) fields) s r
      fun (_ : List (Entry Unit)) found _ =>
      ∀ fields' ∈ found, AddsMembers t fields fields' :=
  parseCommaSeparated_keeps (AddsMembers t) (fun _ _ hm => .inl hm)
    (fun _ _ _ hab hbc m hm => (hbc m hm).elim (hab m) .inr) fun _ _ _ => parseField_members

/-- What reading more members does: their types are defined, if those of the members before were. -/
def FieldsRead (r : Reader) (g : Generator β) (fields fields' : Fields) (r' : Reader)
    (g' : Generator β) : Prop :=
  Advances r g r' g' ∧ (MembersDefined fields.members g → MembersDefined fields'.members g')

omit [Backend.Lasting β] in
/-- A round either ends where a type was looked for, or has read members of a type
that is defined. -/
theorem fieldsRound_ends {fields : Fields} {s : Surroundings} {r : Reader} {g : Generator β}
    (hr : Ready bound r) (hg : Sane r g) :
    Concludes (fieldsRound recurse fields) s r g fun c r' g' => Pends r g r' g' ∧
      c.elim (fun fields' => FieldsRead r g fields fields' r' g' ∧ r'.left < r.left) fun found =>
        ∀ fields' ∈ found, FieldsRead r g fields fields' r' g' := by
  unfold fieldsRound
  refine Concludes.bind_read (peek_ends (Q := fun _ r' => r' = r) rfl) fun closing r' hr' => ?_
  obtain rfl := hr'.symm
  split
  · exact Concludes.pure ⟨(Advances.refl hg).pends,
      fun s hs => Option.some.inj hs ▸ ⟨.refl hg, id⟩⟩
  refine Concludes.bind_read (parseType_ends hr.rounds) fun type r₁ htype => ?_
  have hpends := htype.tries.pends hg
  cases type with
  | none =>
    refine Concludes.bind_read (nextToken_ends (Q := fun _ r' => r' = r₁) rfl) fun t r' hr' => ?_
    obtain rfl := hr'.symm
    refine Concludes.bind_read (error_ends (Q := fun _ r' => r₁.Stays r') fun _ h => h)
      fun _ r₂ hstays => ?_
    exact Concludes.pure ⟨hpends.stays hstays, by simp⟩
  | some t =>
    have hadv := htype.advances hg
    have hlt := (htype.leads rfl).2
    have hr₁ := hr.leads hadv.leads
    -- A type that is a structure was read from the name of one, which was declared when the
    -- generator had defined it.
    have hstruct : t.isStruct → ∃ d ∈ g.structs, d.definition = t.definition := by
      intro hstruct
      obtain ⟨e, he, hkind, hid⟩ := htype.declared t rfl hstruct
      obtain ⟨d, hd, hdefinition⟩ := hg.defined e he hkind
      exact ⟨d, hd, hdefinition.trans hid⟩
    have hlist : Wanders β bound .some (parseCommaSeparated (parseField recurse t) fields) :=
      inferInstance
    refine ((hlist.ends hr₁ hadv.sane).and (P := fun found _ =>
      ∀ fields' ∈ found, AddsMembers t fields fields')
      parseMembers_type).bind fun found r₂ g₂ ⟨⟨hadv₂, _⟩, hfound⟩ => ?_
    have hlt₂ := Nat.lt_of_le_of_lt hadv₂.leads.left hlt
    have hadv₂ := hadv.trans hadv₂
    cases found with
    | none => exact Concludes.pure ⟨hadv₂.pends, by simp⟩
    | some fields' =>
      have hdefined : MembersDefined fields.members g → MembersDefined fields'.members g₂ := by
        intro hfields m hm hm'
        obtain hm | ⟨heq, hdefinition⟩ := hfound fields' rfl m hm
        · exact (hfields.of_structs hadv₂.structs) m hm hm'
        · obtain ⟨d, hd, hd'⟩ := hstruct (heq ▸ hm')
          exact ⟨d, hadv₂.structs hd, hd'.trans hdefinition.symm⟩
      refine Concludes.bind_read (expect_ends (Q := fun _ r' => r₂.Moves r')
        (fun _ => r₂.moves_consumed) fun _ _ h => h.moves) fun ok r₃ hmoves => ?_
      have hadv₃ := hmoves.advances hadv₂.sane
      have hlt₃ := Nat.lt_of_le_of_lt hmoves.left hlt₂
      have hadv₃ := hadv₂.trans hadv₃
      split
      · exact Concludes.pure ⟨hadv₃.pends, ⟨hadv₃, hdefined⟩, hlt₃⟩
      · exact Concludes.pure ⟨hadv₃.pends, by simp⟩

omit [Backend.Lasting β] in
/-- Reading members ends where a type was looked for, or in front of the brace behind them. -/
theorem parseFields_ends {s : Surroundings} {r : Reader} {g : Generator β} (hr : Ready bound r)
    (hg : Sane r g) :
    Concludes (parseFields recurse) s r g fun found r' g' =>
      Pends r g r' g' ∧ ∀ fields ∈ found, FieldsRead r g {} fields r' g' := by
  rw [parseFields_eq]
  refine Concludes.loop (fun _ r' => r'.left) (fun fields r' g' => FieldsRead r g {} fields r' g')
    ⟨.refl hg, id⟩ hr.rounds fun fields r₁ g₁ ⟨hadv, hfields⟩ => ?_
  refine (fieldsRound_ends (hr.leads hadv.leads) hadv.sane).mono fun c r' g' ⟨hpends, hc⟩ => ?_
  cases c with
  | inl fields' => exact ⟨⟨hadv.trans hc.1.1, hc.1.2 ∘ hfields⟩, hc.2⟩
  | inr found =>
    exact ⟨hadv.trans_pends hpends,
      fun fields' h => ⟨hadv.trans (hc fields' h).1, (hc fields' h).2 ∘ hfields⟩⟩

instance parseStructName_reads {location : Location} : Reads .some (parseStructName location) := by
  unfold parseStructName
  infer_instance

/-- A structure whose members are defined makes the next layer. -/
theorem defineStruct_ends {location : Location} {decl : StructDecl} {s : Surroundings} {r : Reader}
    {g : Generator β} (hg : Sane r g) (hmembers : MembersDefined decl.members g) :
    Concludes (emit (.defineStruct location decl)) s r g fun decl' r' g' =>
      r' = r ∧ Advances r g r g' ∧ ∃ d ∈ g'.structs, d.definition = decl'.definition := by
  refine Concludes.emit ?_
  refine (Backend.Lasting.defineStruct hg.layered).mono fun decl' g' ⟨hstructs, hdecl⟩ => ?_
  have hsub : g.structs ⊆ g'.structs := hstructs ▸ List.subset_append_left _ _
  refine ⟨rfl, ⟨.refl r, ⟨?_, fun e he hkind => ?_⟩, hsub⟩, decl', ?_, rfl⟩
  · exact hstructs ▸ hg.layered.snoc (hdecl ▸ hmembers)
  · exact (hg.defined e he hkind).imp fun _ hd => ⟨hsub hd.1, hd.2⟩
  · exact hstructs ▸ List.mem_append_right _ List.mem_cons_self

omit [Backend β] [Backend.Lasting β] htame in
/-- The name of a structure that is defined may be declared. -/
theorem declareStruct_ends {location : Location} {name : String} {id : Id} {r : Reader}
    {g : Generator β} (hg : Sane r g) (hid : ∃ d ∈ g.structs, d.definition = id) :
    Ends (declareOnce location name { kind := .struct, id } true) r
      fun _ r' => Advances r g r' g := by
  unfold declareOnce
  refine declare_ends.bind fun ok r' ⟨hleft, hrounds, hsaved, hsymbols⟩ => ?_
  have hadv : Advances r g r' g := by
    refine ⟨⟨Nat.le_of_eq hleft, hrounds, .inl hsaved⟩,
      ⟨hg.layered, fun e he hkind => ?_⟩, fun _ hd => hd⟩
    obtain he | heq := hsymbols e he
    · exact hg.defined e he hkind
    · exact heq ▸ hid
  split
  · exact Ends.pure hadv
  · exact Ends.bind (error_ends (Q := fun _ r₂ => r'.Stays r₂) fun _ h => h) fun _ _ hstays =>
      Ends.pure (hadv.trans (hstays.moves.advances hadv.sane))

instance parseStruct_wanders : Wanders β bound .some (parseStruct recurse) where
  ends s r g hr hg := by
    unfold parseStruct
    refine Wanders.next .some hr hg fun token r₁ g₁ h _ => ?_
    extract_lets location
    refine Wanders.next .some (hr.leads h.leads) h.sane fun name r₂ g₂ h₂ _ => ?_
    have h := h.trans h₂
    refine Wanders.next .some (hr.leads h.leads) h.sane fun unique r₃ g₃ h₃ _ => ?_
    have h := h.trans h₃
    refine Wanders.next .some (hr.leads h.leads) h.sane fun ok r₄ g₄ h₄ _ => ?_
    have h := h.trans h₄
    split
    · exact Concludes.pure ⟨h, trivial⟩
    refine (parseFields_ends (hr.leads h.leads) h.sane).bind
      fun found r₅ g₅ ⟨hpends, hfound⟩ => ?_
    cases found with
    | none =>
      refine Concludes.bind_read (hpends.skip (hr.leads h.leads).rounds)
        fun _ r₆ ⟨h₆, _⟩ => ?_
      have h := h.trans h₆
      exact Concludes.of_wanders .some inferInstance (hr.leads h.leads) h.sane
        fun _ _ _ h' hp => ⟨h.trans h', hp⟩
    | some fields =>
      obtain ⟨h₅, hdefined⟩ := hfound fields rfl
      have hmembers := hdefined fun m hm => absurd hm (by simp)
      have h := h.trans h₅
      dsimp -zeta only
      extract_lets rest
      have hrest (r₆ : Reader) (g₆ : Generator β) (h₆ : Advances r₅ g₅ r₆ g₆) :
          Concludes (rest ()) s r₆ g₆ fun ok r' g' =>
            Advances r g r' g' ∧ Progress.some.Holds ok r r' := by
        have h := h.trans h₆
        refine (defineStruct_ends h.sane (hmembers.of_structs h₆.structs)).bind ?_
        rintro decl r₇ g₇ ⟨rfl, h₇, hdecl⟩
        have h := h.trans h₇
        refine Concludes.bind_read (declareStruct_ends h.sane hdecl) fun ok r₈ h₈ => ?_
        have h := h.trans h₈
        exact Concludes.of_wanders .some inferInstance (hr.leads h.leads) h.sane
          fun _ _ _ h' hp => ⟨h.trans h', hp⟩
      split
      · exact Wanders.next .some (hr.leads h.leads) h.sane fun _ r₆ g₆ h₆ _ =>
          hrest r₆ g₆ h₆
      · exact hrest r₅ g₅ (.refl h.sane)

end

instance applyTexture_wanders {resource : Resource} {e : Expression} :
    Wanders β bound .some (applyTexture resource e) := by
  unfold applyTexture
  infer_instance

instance applyNumber_reads {resource : Resource} {location : Location} {name : String}
    {e : Expression} :
    Reads .some (applyNumber resource location name e) := by
  unfold applyNumber
  split
  · infer_instance
  · refine .andThen fun e => ?_
    split <;> infer_instance

section

variable [htame : Tame β bound recurse]

/-- A name that has no value of its own is read again as an expression. -/
instance parseStateValue_wanders {values : List (String × UInt32)} :
    Wanders β bound .some (parseStateValue recurse values) where
  ends s r g hr hg := by
    unfold parseStateValue
    let r₀ : Reader := { r with savedNext := r.next, savedCursor := r.cursor }
    refine Concludes.bind_read (Ends.of_ok (Q := fun _ r' => r' = r₀) rfl rfl) ?_
    rintro _ _ rfl
    -- An expression that begins at the saved place passes it.
    have hvalue (r₁ : Reader) (hnext : r₁.next = r.next) (hcursor : r₁.cursor = r.cursor)
        (hsaved : r₁.saved = (r.next, r.cursor)) (hrounds : r₁.rounds = r.rounds)
        (hkeeps : r.KeepsStructs r₁) :
        Concludes (recurse (.multary 0) : ParseM (Option Expression)) s r₁ g fun e r' g' =>
          Advances r g r' g' ∧ Progress.some.Holds e r r' := by
      have hleft : r₁.left = r.left := by rw [Reader.left, Reader.left, hnext, hcursor]
      have hdepth := hr.depth
      refine (htame.ends (.multary 0) (show 6 * r₁.left + 1 < bound by omega)
        (by have := hr.rounds; omega) (hg.of_keeps hkeeps)).mono fun e r' g' ⟨h, hlt⟩ =>
          ⟨⟨?_, h.sane, h.structs⟩, trivial⟩
      refine .of_saved r₁ hsaved hrounds (Nat.le_of_eq hleft) h.leads
        fun hopens => hleft ▸ hlt (.inr ?_)
      exact (congrArg (fun t : Token => Reader.BeginsType t.kind) hnext).mpr hopens
    refine Concludes.bind_read
      (accept_ends (Q := fun c r' =>
        if c = true then r.next.kind = .identifier ∧ r' = r₀.consumed
      else r' = r₀) (fun h => ⟨h, rfl⟩) fun _ => rfl) ?_
    rintro (_ | _) r₁ hr₁
    · obtain rfl := hr₁
      exact hvalue r₀ rfl rfl rfl rfl (.refl r)
    · obtain ⟨hkind, rfl⟩ := hr₁
      have hlt := Reader.left_consumed_lt (r := r₀)
        (show r.next.kind ≠ .eof from hkind ▸ nofun)
      refine Concludes.bind_read (Ends.of_ok (Q := fun _ r' => r' = r₀.consumed) rfl rfl) ?_
      rintro t _ rfl
      split
      · have hadv : Advances r g r₀.consumed g :=
          ⟨.of_saved r₀ rfl rfl (Nat.le_refl _) r₀.moves_consumed.leads fun _ => hlt,
            hg.of_keeps (.refl r), fun _ hd => hd⟩
        exact Concludes.pure ⟨hadv, trivial⟩
      · refine Concludes.bind_read
          (Ends.of_ok (Q := fun _ r' =>
            r' = { r₀.consumed with next := r.next, cursor := r.cursor }) rfl rfl) ?_
        rintro _ _ rfl
        exact hvalue _ rfl rfl rfl rfl (.refl r)

set_option synthInstance.maxSize 65536 in
instance parseProperty_consumes {resource : Resource} :
    Wanders β bound .consuming (parseProperty recurse resource) := by
  unfold parseProperty
  dsimp only
  infer_instance

/-- Reads a property, or skips to behind the block after an error. -/
def propertiesRound (recurse : Recurse) (r : Resource) : ParseM (Resource ⊕ Option Resource) := do
  if ← peek .braceClose then
    if ← expect .braceClose then return .inr (some r) else return .inr none
  match ← parseProperty recurse r with
  | some r => return .inl r
  | none =>
    consumeUntil .braceClose
    return .inr none

theorem parseProperties_eq : parseProperties recurse = loop (propertiesRound recurse) {} := rfl

instance propertiesRound_consumes {resource : Resource} :
    Wanders β bound .consuming (propertiesRound recurse resource) := by
  unfold propertiesRound
  infer_instance

instance parseProperties_wanders : Wanders β bound .some (parseProperties recurse) := by
  rw [parseProperties_eq]
  infer_instance

instance checkGlobal_reads {location : Location} {name : String} {t : Ty} :
    Reads .some (checkGlobal location name t) := by
  unfold checkGlobal
  infer_instance

instance checkLocal_reads {location : Location} {name : String} {t : Ty} :
    Reads .some (checkLocal location name t) := by
  unfold checkLocal
  dsimp only
  infer_instance

instance checkVariable_reads {location : Location} {name : String} {t : Ty} {isGlobal : Bool} :
    Reads .some (checkVariable location name t isGlobal) := by
  unfold checkVariable
  infer_instance

instance parseInitializer_wanders {name : String} {t : Ty} {isGlobal : Bool} :
    Wanders β bound .some (parseInitializer recurse name t isGlobal) := by
  unfold parseInitializer
  dsimp only
  infer_instance

instance parseValue_wanders {location : Location} {name : String} {isGlobal : Bool} {tail : Tail} :
    Wanders β bound .some (parseValue recurse location name isGlobal tail) := by
  unfold parseValue
  dsimp only
  infer_instance

instance parseTail_wanders {location : Location} {name : String} {t : Ty} {isGlobal : Bool} :
    Wanders β bound .some (parseTail recurse location name t isGlobal) := by
  unfold parseTail
  dsimp only
  infer_instance

instance checkSampler_reads {location : Location} {name : String} {resource : Resource} :
    Reads .some (checkSampler location name resource) := by
  unfold checkSampler
  infer_instance

instance defineStorage_wanders {location : Location} {name : String} {tail : Tail}
    {isGlobal : Bool} :
    Wanders β bound .some (defineStorage location name tail isGlobal) := by
  unfold defineStorage
  dsimp only
  cases tail.init <;> infer_instance

instance defineSymbol_wanders {location : Location} {name : String} {tail : Tail}
    {isGlobal : Bool} :
    Wanders β bound .some (defineSymbol location name tail isGlobal) := by
  unfold defineSymbol
  dsimp only
  split <;> infer_instance

omit [Backend β] [Backend.Lasting β] htame in
/-- What is defined is no structure. -/
theorem defineSymbol_kind {location : Location} {name : String} {tail : Tail} {isGlobal : Bool}
    {s : Surroundings} {r : Reader} :
    Parsing (defineSymbol location name tail isGlobal) s r fun (_ : List (Entry Unit)) found _ =>
      ∀ symbol ∈ found, namesStruct symbol = false := by
  unfold defineSymbol
  dsimp only
  split
  · exact fun symbol h => Option.some.inj h ▸ rfl
  · have hsome (id : Id)
        (r : Reader) : Parsing (pure (some { kind := .variable, id, type := tail.type }) :
        ParseM (Option Symbol)) s r fun (_ : List (Entry Unit)) found _ =>
          ∀ symbol ∈ found, namesStruct symbol = false :=
      fun symbol h => Option.some.inj h ▸ rfl
    split
    · exact .bind_any fun _ _ => .bind_any fun texture r => hsome texture.id r
    split
    · refine .bind_any fun valid r => ?_
      split
      · exact fun symbol h => absurd h (by simp)
      · exact .bind_any fun _ _ => .bind_any fun sampler r => hsome sampler.id r
    split
    · exact .bind_any fun id r => hsome id r
    · exact .bind_any fun id r => hsome id r

instance parseVariable_wanders {t : Ty} {isGlobal : Bool} :
    Wanders β bound .some (parseVariable recurse t isGlobal) := by
  unfold parseVariable
  refine .andThen fun token => ?_
  refine .andThenSome (fun t => ?_) inferInstance
  refine .andThenSome (fun t => ?_) inferInstance
  refine .andThenSome (fun tail => ?_) inferInstance
  dsimp only
  split
  · infer_instance
  refine ⟨fun s r g hr hg => ?_⟩
  have hdefine : Wanders β bound .some (defineSymbol token.location token.text tail isGlobal) :=
    inferInstance
  refine ((hdefine.ends hr hg).and
    (P := fun found _ => ∀ symbol ∈ found, namesStruct symbol = false)
    defineSymbol_kind).bind fun found r₁ g₁ ⟨⟨h, _⟩, hfound⟩ => ?_
  refine Concludes.of_wanders .some ?_ (hr.leads h.leads) h.sane
    fun _ _ _ h' hp => ⟨h.trans h', hp⟩
  cases found with
  | none => infer_instance
  | some symbol =>
    have : IsFalse (namesStruct symbol) := ⟨hfound symbol rfl⟩
    infer_instance

end

end ShaderEffect.Parser

import ShaderEffect.Proofs.Reading.Names

namespace ShaderEffect

namespace Reader

/-- What looking for a type in vain does to the place: it lies behind every token that was returned
to, or at a name that was returned to. -/
structure Wavers (r r' : Reader) : Prop where
  left : r'.left ≤ r.left
  rounds : r'.rounds = r.rounds
  settled : r'.saved = r.saved ∨ r'.Settled ∨ r'.left ≤ r'.savedLeft ∧ r'.AtName

/-- What looking for a type in vain does. -/
structure Tries (r r' : Reader) : Prop extends Wavers r r' where
  structs : r.KeepsStructs r'

variable {r r₁ r' : Reader}

theorem Leads.wavers (h : r.Leads r') : r.Wavers r' :=
  ⟨h.left, h.rounds, h.settled.imp_right .inl⟩

theorem Wavers.ready (h : r.Wavers r') (hr : r.left < r.rounds) : r'.left < r'.rounds :=
  h.rounds ▸ Nat.lt_of_le_of_lt h.left hr

theorem Leads.trans_wavers (h : r.Leads r₁) (h' : r₁.Wavers r') : r.Wavers r' where
  left := Nat.le_trans h'.left h.left
  rounds := h'.rounds.trans h.rounds
  settled := by
    obtain hsaved | hsettled := h'.settled
    · exact h.settled.imp hsaved.trans fun hsettled => .inl (hsettled.of_le hsaved h'.left)
    · exact .inr hsettled

/-- Once the name that was returned to is read, every token that was returned to is passed. -/
theorem Wavers.leads (h : r.Wavers r₁) (h' : r₁.Leads r')
    (hname : r₁.AtName → r'.left < r₁.left) : r.Leads r' where
  left := Nat.le_trans h'.left h.left
  rounds := h'.rounds.trans h.rounds
  settled := by
    obtain hsaved | hsettled := h'.settled
    · obtain hsaved₁ | hsettled | ⟨hle, hat⟩ := h.settled
      · exact .inl (hsaved.trans hsaved₁)
      · exact .inr (hsettled.of_le hsaved h'.left)
      · have hlt : r'.left < r'.savedLeft :=
          savedLeft_eq hsaved ▸ Nat.lt_of_lt_of_le (hname hat) hle
        exact .inr ⟨Nat.le_of_lt hlt, fun _ => hlt⟩
    · exact .inr hsettled

theorem Moves.tries (h : r.Moves r') : r.Tries r' :=
  ⟨h.leads.wavers, h.structs⟩

theorem Moves.trans_tries (h : r.Moves r₁) (h' : r₁.Tries r') : r.Tries r' :=
  ⟨h.leads.trans_wavers h'.toWavers, h.structs.trans h'.structs⟩

theorem Wavers.stays (h : r.Wavers r₁) (h' : r₁.Stays r') : r.Wavers r' := by
  refine ⟨h'.left ▸ h.left, h'.rounds.trans h.rounds, ?_⟩
  rw [h'.saved, Settled, savedLeft_eq h'.saved, savedNext_eq h'.saved, h'.left, AtName, h'.next]
  exact h.settled

theorem Tries.stays (h : r.Tries r₁) (h' : r₁.Stays r') : r.Tries r' :=
  ⟨h.toWavers.stays h', fun e he => h.structs e (h'.symbols ▸ he)⟩

/-- A token that was read is passed. -/
theorem Settled.of_saved (hsaved : r'.saved = (r.next, r.cursor)) (hlt : r'.left < r.left) :
    r'.Settled := by
  have hleft : r'.savedLeft = r.left :=
    congrArg (fun place : Token × Token.Cursor => Token.remaining place.1 place.2) hsaved
  exact ⟨hleft ▸ Nat.le_of_lt hlt, fun _ => hleft ▸ hlt⟩

/-- A place that was saved where a part began is passed with what the part consumes. -/
theorem Leads.of_saved (r₀ : Reader) (hsaved : r₀.saved = (r.next, r.cursor))
    (hrounds : r₀.rounds = r.rounds) (hleft : r₀.left ≤ r.left) (h : r₀.Leads r')
    (hopens : r.Opens → r'.left < r.left) : r.Leads r' := by
  have hleft' := Nat.le_trans h.left hleft
  refine ⟨hleft', h.rounds.trans hrounds, .inr ?_⟩
  obtain heq | hsettled := h.settled
  · have hsaved' := heq.trans hsaved
    have hplace : r'.savedLeft = r.left :=
      congrArg (fun place : Token × Token.Cursor => Token.remaining place.1 place.2) hsaved'
    rw [Settled, hplace, show r'.savedNext = r.next from congrArg Prod.fst hsaved']
    exact ⟨hleft', hopens⟩
  · exact hsettled

end Reader

namespace Parser

/-- Whether a type is a structure only if one of its id is declared. -/
def Declared (r : Reader) (t : Ty) : Prop :=
  t.isStruct → ∃ e ∈ r.symbols.entries, e.symbol.kind = .struct ∧ e.symbol.id = t.definition

/-- What reading the name of a type does. Only the name of a structure is remembered,
where it begins. -/
structure TypeRead (found : Option Ty) (r r' : Reader) : Prop where
  tries : r.Tries r'
  opens : r.Opens → r'.left < r.left ∨ r'.AtName ∧ r'.left = r.left
  stays : ¬r.Opens → r' = r
  consumed : found.isSome → r'.left < r.left ∧ r.Opens
  declared : ∀ t ∈ found, Declared r t
  saved : ∀ t ∈ found, r'.saved = if t.isStruct then (r.next, r.cursor) else r.saved

/-- How the name of a type is read, as far as fewer than `limit` tokens are left. -/
def ReadsTypes (limit : Nat) (inner : ReadM (Option Ty)) : Prop :=
  ∀ ⦃r : Reader⦄,
    r.left < limit → r.left < r.rounds → Ends inner r fun found r' => TypeRead found r r'

instance expectDimension_reads {code : Int} {message : String} :
    Reads .some (expectDimension code message) := by
  unfold expectDimension
  infer_instance

variable {limit : Nat} {inner : ReadM (Option Ty)}

theorem not_isStruct_of_isScalar {t : Ty} (h : t.isScalar = true) : t.isStruct = false := by
  unfold Ty.isScalar Ty.isNumeric at h
  unfold Ty.isStruct
  cases hbase : t.base <;> simp_all

theorem TypeRead.moves {found : Option Ty} {r r' : Reader} (h : TypeRead found r r') {t : Ty}
    (ht : t ∈ found) (hstruct : t.isStruct = false) : r.Moves r' := by
  have hsaved := h.saved t ht
  rw [if_neg (by simp [hstruct])] at hsaved
  exact ⟨h.tries.left, h.tries.rounds, hsaved, h.tries.structs⟩

/-- What reading a part of a type does that is not a structure. -/
def PartRead (found : Option Ty) (r r' : Reader) : Prop :=
  r.Tries r' ∧ ∀ t ∈ found, t.isStruct = false ∧ r.Moves r'

theorem PartRead.none {r r' : Reader} (h : r.Tries r') : PartRead none r r' := ⟨h, by simp⟩

theorem PartRead.some {t : Ty} {r r' : Reader} (h : r.Moves r') (ht : t.isStruct = false) :
    PartRead (some t) r r' :=
  ⟨h.tries, fun _ ht' => Option.some.inj ht' ▸ ⟨ht, h⟩⟩

/-- The elements of vectors and matrices are no structures. -/
theorem expectElement_ends (hinner : ReadsTypes limit inner) (noun : String) (code : Int)
    {r : Reader} (hlimit : r.left < limit) (hr : r.left < r.rounds) :
    Ends (expectElement inner noun code) r fun found r' => PartRead found r r' := by
  unfold expectElement
  refine (hinner hlimit hr).bind fun found r₁ h => ?_
  cases found with
  | none =>
    refine Ends.bind (Ends.of_ok (Q := fun _ r' => r' = r₁) rfl rfl) fun _ r' hr' => ?_
    subst hr'
    exact Ends.bind (error_ends fun r' hstays => h.tries.stays hstays)
      fun _ r' htries => Ends.pure (.none htries)
  | some t =>
    dsimp only
    split
    · have hstruct := not_isStruct_of_isScalar ‹_›
      exact Ends.pure (.some (h.moves rfl hstruct) hstruct)
    · refine Ends.bind (Ends.of_ok (Q := fun _ r' => r' = r₁) rfl rfl) fun _ r' hr' => ?_
      subst hr'
      exact Ends.bind (error_ends fun r' hstays => h.tries.stays hstays)
        fun _ r' htries => Ends.pure (.none htries)

/-- The elements of a vector or matrix are read behind a token, so that at least one less is left
for them. What follows them is read behind a type that is no structure. -/
theorem elements_ends (hinner : ReadsTypes limit inner) {t : Ty} (ht : t.isStruct = false)
    {noun : String} {code : Int} {behind : Ty → ReadM (Option Ty)} {r : Reader}
    (hlimit : r.left ≤ limit) (hr : r.left < r.rounds)
    (hbehind : ∀ element r₁, element.isStruct = false →
      r.Moves r₁ → Ends (behind element) r₁ fun found r' => PartRead found r r') :
    Ends (do
      if !(← accept .less) then return some t
      let some element ← expectElement inner noun code | return none
      behind element) r fun found r' => PartRead found r r' := by
  refine Reads.next .consuming hr fun ok r₁ hmoves hlt => ?_
  have hr₁ := hmoves.ready hr
  cases ok with
  | false => exact Ends.pure (.some hmoves ht)
  | true =>
    have hlimit₁ : r₁.left < limit := Nat.lt_of_lt_of_le (hlt rfl) hlimit
    refine (expectElement_ends hinner _ _ hlimit₁ hr₁).bind fun found r₂ h => ?_
    cases found with
    | none => exact Ends.pure (.none (hmoves.trans_tries h.1))
    | some element =>
      obtain ⟨hstruct, hmoves₂⟩ := h.2 element rfl
      exact hbehind element r₂ hstruct (hmoves.trans hmoves₂)

/-- What follows `vector`. -/
theorem acceptVector_ends (hinner : ReadsTypes limit inner) {r : Reader} (hlimit : r.left ≤ limit)
    (hr : r.left < r.rounds) : Ends (acceptVector inner) r fun found r' => PartRead found r r' := by
  refine elements_ends hinner rfl hlimit hr fun element r₂ hstruct hmoves₂ => ?_
  refine Reads.next .some (hmoves₂.ready hr) fun rows r₃ hmoves₃ _ => ?_
  have hmoves₃ := hmoves₂.trans hmoves₃
  cases rows with
  | none => exact Ends.pure (.none hmoves₃.tries)
  | some rows =>
    refine Reads.next .some (hmoves₃.ready hr) fun ok r₄ hmoves₄ _ => ?_
    have hmoves₄ := hmoves₃.trans hmoves₄
    split
    · exact Ends.pure (.some hmoves₄ hstruct)
    · exact Ends.pure (.none hmoves₄.tries)

/-- What follows `matrix`. -/
theorem acceptMatrix_ends (hinner : ReadsTypes limit inner) {r : Reader} (hlimit : r.left ≤ limit)
    (hr : r.left < r.rounds) : Ends (acceptMatrix inner) r fun found r' => PartRead found r r' := by
  refine elements_ends hinner rfl hlimit hr fun element r₂ hstruct hmoves₂ => ?_
  refine Reads.next .some (hmoves₂.ready hr) fun rows r₃ hmoves₃ _ => ?_
  have hmoves₃ := hmoves₂.trans hmoves₃
  cases rows with
  | none => exact Ends.pure (.none hmoves₃.tries)
  | some rows =>
    refine Reads.next .some (hmoves₃.ready hr) fun cols r₄ hmoves₄ _ => ?_
    have hmoves₄ := hmoves₃.trans hmoves₄
    cases cols with
    | none => exact Ends.pure (.none hmoves₄.tries)
    | some cols =>
      refine Reads.next .some (hmoves₄.ready hr) fun ok r₅ hmoves₅ _ => ?_
      have hmoves₅ := hmoves₄.trans hmoves₅
      split
      · exact Ends.pure (.some hmoves₅ hstruct)
      · exact Ends.pure (.none hmoves₅.tries)

theorem keywordType_not_isStruct {kind : Token.Kind} {t : Ty} (h : keywordType? kind = some t) :
    t.isStruct = false := by
  cases kind <;> simp only [keywordType?, reduceCtorEq, Option.some.injEq] at h <;> subst h <;> rfl

/-- What is read behind the keyword of a vector or matrix makes a type. -/
theorem TypeRead.of_part {found : Option Ty} {r r' : Reader} (hkeyword : r.next.kind ≠ .eof)
    (hopens : r.Opens) (h : PartRead found r.consumed r') : TypeRead found r r' := by
  have hlt := Nat.lt_of_le_of_lt h.1.left (Reader.left_consumed_lt hkeyword)
  refine ⟨r.moves_consumed.trans_tries h.1, fun _ => .inl hlt, fun hnot => absurd hopens hnot,
    fun _ => ⟨hlt, hopens⟩, ?_, ?_⟩
  · exact fun t ht hstruct => absurd hstruct (by simp [(h.2 t ht).1])
  · intro t ht
    rw [if_neg (by simp [(h.2 t ht).1])]
    exact (h.2 t ht).2.saved

/-- What a vector or matrix is made of is read behind its keyword. -/
theorem part_ends (kind : Token.Kind) {part : ReadM (Option Ty)} {r : Reader} {depth : Nat}
    (hlimit : r.left < depth + 1)
    (hr : r.left < r.rounds) (hend : kind ≠ .eof) (hkind : r.next.kind = kind) (hopens : r.Opens)
    (hends : r.consumed.left ≤ depth → r.consumed.left < r.consumed.rounds →
      Ends part r.consumed fun found r' => PartRead found r.consumed r') :
    Ends part r.consumed fun found r' => TypeRead found r r' := by
  have hlt := Reader.left_consumed_lt (r := r) (hkind ▸ hend)
  exact (hends (by omega) (r.moves_consumed.ready hr)).mono fun found r' =>
    .of_part (hkind ▸ hend) hopens

/-- A name that is not that of a type is given back. -/
theorem TypeRead.restored {r r' : Reader} (hname : r.AtName) (hrounds : r'.rounds = r.rounds)
    (hstructs : r.KeepsStructs r') (hsaved : r'.saved = (r.next, r.cursor)) :
    TypeRead none r { r' with next := r'.savedNext, cursor := r'.savedCursor } := by
  obtain ⟨hnext, hcursor⟩ := Prod.mk.inj hsaved
  have hleft : Reader.left { r' with next := r'.savedNext, cursor := r'.savedCursor } = r.left :=
    congrArg₂ Token.remaining hnext hcursor
  have hname' : Reader.AtName { r' with next := r'.savedNext, cursor := r'.savedCursor } := by
    simpa only [Reader.AtName, hnext] using hname
  exact ⟨⟨⟨Nat.le_of_eq hleft, hrounds, .inr (.inr ⟨Nat.le_refl _, hname'⟩)⟩,
    hstructs⟩, fun _ => .inr ⟨hname', hleft⟩, fun hnot => absurd hname.opens hnot,
    nofun, by simp, by simp⟩

/-- The name of a structure is a type. -/
theorem TypeRead.struct {r r' : Reader} {symbol : Symbol} (hname : r.AtName)
    (hlt : r'.left < r.left) (hrounds : r'.rounds = r.rounds) (hstructs : r.KeepsStructs r')
    (hsaved : r'.saved = (r.next, r.cursor)) (hkind : symbol.kind = .struct)
    (hentry : ∃ e ∈ r'.symbols.entries, e.symbol = symbol) :
    TypeRead (some { base := .struct, definition := symbol.id }) r r' where
  tries := ⟨⟨Nat.le_of_lt hlt, hrounds, .inr (.inl (.of_saved hsaved hlt))⟩, hstructs⟩
  opens _ := .inl hlt
  stays hnot := absurd hname.opens hnot
  consumed _ := ⟨hlt, hname.opens⟩
  declared t ht _ := by
    obtain rfl := Option.some.inj ht
    obtain ⟨e', he', rfl⟩ := hentry
    obtain ⟨e, he, heq⟩ := hstructs e' he' hkind
    exact ⟨e, he, heq ▸ hkind, congrArg Symbol.id heq⟩
  saved t ht := by
    obtain rfl := Option.some.inj ht
    exact hsaved

/-- Reading the name of a type costs the token it begins with. -/
theorem acceptTypeNested_ends (depth : Nat) : ReadsTypes depth (acceptTypeNested depth) := by
  -- Elements of vectors and matrices are read one level deeper, behind at least one token.
  induction depth with
  | zero => exact fun r h => absurd h (Nat.not_lt_zero _)
  | succ depth ih =>
    intro r hlimit hr
    unfold acceptTypeNested
    refine Ends.bind (peek_ends (Q := fun c r' => c = decide (r.next.kind = .identifier) ∧ r' = r)
      ⟨rfl, rfl⟩) ?_
    rintro _ r ⟨rfl, rfl⟩
    refine Ends.bind (peek_ends (Q := fun c r' => c = decide (r.next.kind = .colonColon) ∧ r' = r)
      ⟨rfl, rfl⟩) ?_
    rintro _ r ⟨rfl, rfl⟩
    split
    · rename_i hpeek
      have hname : r.AtName := by simpa [Reader.AtName] using hpeek
      -- A name is looked up, and given back unless it is that of a structure.
      let r₀ : Reader := { r with savedNext := r.next, savedCursor := r.cursor }
      refine Ends.bind (Ends.of_ok (Q := fun _ r' => r' = r₀) rfl rfl) fun _ r' hr' => ?_
      subst hr'
      refine Ends.bind
        ((acceptSymbol_consumes.ends (r := r₀) hr).and (acceptSymbol_ends (r := r₀) hr)) ?_
      rintro found r₂ ⟨⟨hmoves, -⟩, hlt, hfound⟩
      have hrestored := TypeRead.restored hname hmoves.rounds hmoves.structs hmoves.saved
      cases found with
      | none => exact Ends.of_ok rfl hrestored
      | some n =>
        dsimp only
        split
        · rename_i hkind
          obtain ⟨name, from_, exclusive, hfind⟩ := hfound n rfl
          refine Ends.pure (.struct hname (hlt hname) hmoves.rounds hmoves.structs
            hmoves.saved hkind ?_)
          rw [hfind] at hkind ⊢
          exact (find_eq_or r₂.symbols name from_ exclusive).resolve_left
            fun hnone => by rw [hnone] at hkind; cases hkind
        · exact Ends.of_ok rfl hrestored
    · rename_i hpeek
      have hname : ¬r.AtName := by simpa [Reader.AtName] using hpeek
      refine Ends.bind
        (accept_ends (Q := fun c r' =>
          if c = true then r.next.kind = .vectorType ∧ r' = r.consumed
        else r.next.kind ≠ .vectorType ∧ r' = r) (fun h => ⟨h, rfl⟩) fun h => ⟨h, rfl⟩)
          ?_
      rintro (_ | _) r' ⟨hvector, rfl⟩
      case true =>
        exact part_ends .vectorType hlimit hr nofun hvector (.inr (.inr (.inl hvector)))
          (acceptVector_ends ih)
      refine Ends.bind
        (accept_ends (Q := fun c r₁ =>
          if c = true then r'.next.kind = .matrixType ∧ r₁ = r'.consumed
        else r'.next.kind ≠ .matrixType ∧ r₁ = r') (fun h => ⟨h, rfl⟩)
          fun h => ⟨h, rfl⟩) ?_
      rintro (_ | _) r ⟨hmatrix, rfl⟩
      case true =>
        exact part_ends .matrixType hlimit hr nofun hmatrix (.inr (.inr (.inr (.inl hmatrix))))
          (acceptMatrix_ends ih)
      refine Ends.bind (Ends.of_ok (Q := fun t r' => t = r.next ∧ r' = r) rfl ⟨rfl, rfl⟩) ?_
      rintro _ r ⟨rfl, rfl⟩
      cases hkeyword : keywordType? r.next.kind with
      | none =>
        refine Ends.pure ⟨(Reader.Moves.refl r).tries, fun hopens => ?_, fun _ => rfl,
          nofun, by simp, by simp⟩
        obtain h | h | h | h | h := hopens
        · exact absurd (.inl h) hname
        · exact absurd (.inr h) hname
        · exact absurd h hvector
        · exact absurd h hmatrix
        · rw [hkeyword] at h; cases h
      | some t =>
        have hend : r.next.kind ≠ .eof := by
          intro heof
          rw [heof] at hkeyword
          cases hkeyword
        refine Ends.bind (consume_ends (Q := fun _ r' => r' = r.consumed) rfl) ?_
        rintro _ _ rfl
        exact Ends.pure (.of_part hend (.inr (.inr (.inr (.inr (by rw [hkeyword]; rfl)))))
          (.some (.refl _) (keywordType_not_isStruct hkeyword)))

/-- Where a type is missing, whoever consumes a name that was returned to leaves it behind. -/
theorem TypeRead.lt {r r₁ r' : Reader} (h : TypeRead none r r₁) (hopens : r.Opens)
    (hle : r'.left ≤ r₁.left)
    (hname : r₁.AtName → r'.left < r₁.left) : r'.left < r.left := by
  obtain hlt | ⟨hat, heq⟩ := h.opens hopens
  · exact Nat.lt_of_le_of_lt hle hlt
  · exact heq ▸ hname hat

/-- Behind the name of a type, every token that was returned to is passed. -/
theorem TypeRead.leads {t : Ty} {r r' : Reader} (h : TypeRead (some t) r r') : r.Leads r' := by
  refine ⟨h.tries.left, h.tries.rounds, ?_⟩
  have hsaved := h.saved t rfl
  split at hsaved
  · exact .inr (.of_saved hsaved (h.consumed rfl).1)
  · exact .inl hsaved

/-- As deep as the tokens that are left allow, a type is read whole. -/
theorem acceptType_ends {r : Reader} (hr : r.left < r.rounds) :
    Ends acceptType r fun found r' => TypeRead found r r' := by
  show Ends (acceptTypeNested r.rounds) r _
  exact acceptTypeNested_ends r.rounds hr hr

/-- Reads each modifier at most once. -/
def qualifiersRound (all : Qualifiers) : ReadM (Qualifiers ⊕ Qualifiers) := do
  let found ← qualifierKeywords.foldlM (fun found (kind, q) => do
    if ← accept kind then return found ||| q else return found) (0 : Qualifiers)
  if found = 0 then return .inr all
  if all &&& found = found then
    warning (← currentToken).location 3048 "duplicate usages specified"
  return .inl (all ||| found)

theorem acceptQualifiers_eq : acceptQualifiers = readLoop qualifiersRound 0 := rfl

/-- Modifiers that were found cost a token. -/
theorem acceptKeywords_ends (keywords : List (Token.Kind × Qualifiers))
    (hend : ∀ k ∈ keywords, k.1 ≠ .eof) :
    ∀ (found : Qualifiers) (r : Reader), Ends (keywords.foldlM (fun found (kind, q) => do
      if ← accept kind then return found ||| q else return found) found) r fun found' r' =>
        r.Moves r' ∧ (found' = found ∧ r' = r ∨ r'.left < r.left) := by
  induction keywords with
  | nil => exact fun found r => Ends.pure ⟨.refl r, .inl ⟨rfl, rfl⟩⟩
  | cons k keywords ih =>
    intro found r
    have ih := ih fun k' hk' => hend k' (List.mem_cons_of_mem _ hk')
    rw [List.foldlM_cons]
    refine Ends.bind (P := fun found' r' =>
      r.Moves r' ∧ (found' = found ∧ r' = r ∨ r'.left < r.left)) ?_ ?_
    · refine Ends.bind
        (accept_ends (Q := fun c r' => r.Moves r' ∧ if c = true then r'.left < r.left else r' = r)
        (fun h => ⟨r.moves_consumed, Reader.left_consumed_lt (h ▸ hend k List.mem_cons_self)⟩)
        fun _ => ⟨.refl r, rfl⟩) ?_
      rintro (_ | _) r' ⟨hmoves, hr'⟩
      · exact Ends.pure ⟨hmoves, .inl ⟨rfl, hr'⟩⟩
      · exact Ends.pure ⟨hmoves, .inr hr'⟩
    · rintro found' r₁ ⟨hmoves, hr₁⟩
      refine (ih found' r₁).mono fun found₂ r' ⟨hmoves', hr'⟩ =>
        ⟨hmoves.trans hmoves', ?_⟩
      obtain ⟨rfl, rfl⟩ | hlt := hr₁
      · exact hr'
      · exact .inr (Nat.lt_of_le_of_lt hmoves'.left hlt)

/-- A round in which no modifier was found is the last one. -/
theorem qualifiersRound_ends {all : Qualifiers} {r : Reader} (hr : r.left < r.rounds) :
    Ends (qualifiersRound all) r fun c r' =>
      r.Moves r' ∧ (r'.left < r.left ∨ c = .inr all ∧ r' = r) := by
  refine Ends.bind (acceptKeywords_ends qualifierKeywords (by decide) 0 r)
    fun found r₁ ⟨hmoves, hr₁⟩ => ?_
  have hrest : Reads .some (do
      if all &&& found = found then
        warning (← currentToken).location 3048 "duplicate usages specified"
      return .inl (all ||| found) : ReadM (Qualifiers ⊕ Qualifiers)) := inferInstance
  dsimp only
  split
  · exact Ends.pure ⟨hmoves, hr₁.symm.imp id fun h => ⟨rfl, h.2⟩⟩
  · rename_i hfound
    have hlt := hr₁.resolve_left fun h => hfound h.1
    refine (hrest.ends (hmoves.ready hr)).mono fun c r' ⟨hmoves', _⟩ =>
      ⟨hmoves.trans hmoves', .inl ?_⟩
    exact Nat.lt_of_le_of_lt hmoves'.left hlt

/-- Without a modifier, nothing is read. -/
theorem acceptQualifiers_ends {r : Reader} (hr : r.left < r.rounds) :
    Ends acceptQualifiers r fun _ r' => r.Moves r' ∧ (r'.left < r.left ∨ r' = r) := by
  show Ends (repeatWith qualifiersRound r.rounds 0) r _
  refine Ends.repeatWith (fun _ r' => r'.left)
    (fun _ r' => r.Moves r' ∧ (r'.left < r.left ∨ r' = r)) ?_ _ _ _ ⟨.refl r, .inr rfl⟩ hr
  rintro all r₁ ⟨hmoves, hr₁⟩
  refine (qualifiersRound_ends (hmoves.ready hr)).mono fun c r' ⟨hmoves', hr'⟩ => ?_
  obtain hlt | ⟨rfl, rfl⟩ := hr'
  · have hlt' := Nat.lt_of_lt_of_le hlt hmoves.left
    cases c with
    | inl all => exact ⟨⟨hmoves.trans hmoves', .inl hlt'⟩, hlt⟩
    | inr all => exact ⟨hmoves.trans hmoves', .inl hlt'⟩
  · exact ⟨hmoves, hr₁⟩

/-- What reading a type with its modifiers does. -/
structure TypeParsed (found : Option Ty) (r r' : Reader) : Prop where
  tries : r.Tries r'
  leads : found.isSome → r.Leads r' ∧ r'.left < r.left
  declared : ∀ t ∈ found, Declared r t
  /-- In vain, a token was read, or the next one is that of a name, or nothing was read. -/
  vain : found = none →
    r'.left < r.left ∨ r'.AtName ∧ r'.left = r.left ∨ r' = r ∧ ¬r.Opens

theorem parseType_ends {r : Reader} (hr : r.left < r.rounds) :
    Ends parseType r fun found r' => TypeParsed found r r' := by
  refine (acceptQualifiers_ends hr).bind fun qualifiers r₁ ⟨hmoves, hr₁⟩ => ?_
  refine (acceptType_ends (hmoves.ready hr)).bind fun found r₂ h => ?_
  have htries := hmoves.trans_tries h.tries
  cases found with
  | none =>
    refine Ends.pure ⟨htries, nofun, by simp, fun _ => ?_⟩
    obtain hlt | rfl := hr₁
    · exact .inl (Nat.lt_of_le_of_lt h.tries.left hlt)
    · by_cases hopens : r₁.Opens
      · exact (h.opens hopens).imp_right .inl
      · exact .inr (.inr ⟨h.stays hopens, hopens⟩)
  | some t =>
    have hlt := Nat.lt_of_lt_of_le (h.consumed rfl).1 hmoves.left
    -- The modifiers do not change which structure a type stands for.
    have hsome (t' : Ty) (hstruct : t'.isStruct = t.isStruct)
        (hdefinition : t'.definition = t.definition) :
        TypeParsed (some t') r r₂ := by
      refine ⟨htries, fun _ => ⟨hmoves.leads.trans h.leads, hlt⟩,
        fun t'' ht'' hstruct' => ?_, nofun⟩
      obtain rfl := Option.some.inj ht''
      obtain ⟨e, he, hkind, hid⟩ := h.declared t rfl (hstruct ▸ hstruct')
      obtain ⟨e', he', heq⟩ := hmoves.structs e he hkind
      exact ⟨e', he', heq ▸ hkind, by rw [heq, hid, hdefinition]⟩
    dsimp only
    split
    · refine Ends.bind (Ends.of_ok (Q := fun _ r' => r' = r₂) rfl rfl) fun _ r₃ hr₃ => ?_
      obtain rfl := hr₃.symm
      refine Ends.bind (error_ends (Q := fun _ r' => r₂.Stays r') fun r' hstays => hstays)
        fun _ r' hstays => ?_
      exact Ends.pure ⟨htries.stays hstays, nofun, by simp, fun _ => .inl (hstays.left ▸ hlt)⟩
    · split
      · exact Ends.pure (hsome _ rfl rfl)
      · exact Ends.pure (hsome _ rfl rfl)

end Parser
end ShaderEffect

import ShaderEffect.Proofs.Reading.Generation

namespace ShaderEffect

namespace Reader

/-- Behind the next token. -/
def consumed (r : Reader) : Reader :=
  let (next, cursor) := Token.lex .forParser r.cursor
  { r with token := r.next, next, cursor }

/-- In a new scope. -/
def entered (r : Reader) : Reader := { r with symbols := r.symbols.enterScope }

/-- Behind the current scope, whose locals are forgotten. -/
def exited (r : Reader) : Reader := { r with symbols := r.symbols.leaveScope }

/-- Whether two readers differ at most in their messages and the token behind them. -/
structure Stays (r r' : Reader) : Prop where
  next : r'.next = r.next
  cursor : r'.cursor = r.cursor
  saved : r'.saved = r.saved
  rounds : r'.rounds = r.rounds
  symbols : r'.symbols = r.symbols

theorem Stays.left {r r' : Reader} (h : r.Stays r') : r'.left = r.left := by
  rw [Reader.left, Reader.left, h.next, h.cursor]

theorem Stays.moves {r r' : Reader} (h : r.Stays r') : r.Moves r' :=
  ⟨Nat.le_of_eq h.left, h.rounds, h.saved, fun e he _ => ⟨e, h.symbols ▸ he, rfl⟩⟩

variable (r : Reader)

theorem left_consumed_le : r.consumed.left ≤ r.cursor.rest.length :=
  Token.remaining_lexFrom_le _ _ _

theorem moves_consumed : r.Moves r.consumed :=
  ⟨Nat.le_trans r.left_consumed_le (Nat.le_add_right _ _), rfl, rfl, .refl r⟩

theorem left_consumed_lt {r : Reader} (h : r.next.kind ≠ .eof) : r.consumed.left < r.left := by
  have hleft : r.left = r.cursor.rest.length + 1 := by rw [left, Token.remaining, if_neg h]
  exact hleft ▸ Nat.lt_succ_of_le r.left_consumed_le

end Reader

namespace Parser

open Reads

variable {p : Progress}

theorem consume_ends {r : Reader} {Q : Unit → Reader → Prop} (h : Q () r.consumed) :
    Ends consume r Q :=
  Ends.of_ok rfl h

instance consume_reads : Reads .some consume where
  ends r _ := consume_ends ⟨r.moves_consumed, trivial⟩

instance currentToken_reads : Reads .some currentToken where
  ends r _ := Ends.pure ⟨.refl r, trivial⟩

instance nextToken_reads : Reads .some nextToken where
  ends r _ := Ends.pure ⟨.refl r, trivial⟩

instance peek_reads {kind : Token.Kind} : Reads .some (peek kind) where
  ends r _ := Ends.pure ⟨.refl r, trivial⟩

instance scope_reads : Reads .some scope where
  ends r _ := Ends.pure ⟨.refl r, trivial⟩

instance error_reads {location : Location} {code : Int} {message : String} :
    Reads .some (error location code message) where
  ends r _ := Ends.pure ⟨⟨Nat.le_refl _, rfl, rfl, .refl r⟩, trivial⟩

instance warning_reads {location : Location} {code : Int} {message : String} :
    Reads .some (warning location code message) where
  ends r _ := Ends.pure ⟨⟨Nat.le_refl _, rfl, rfl, .refl r⟩, trivial⟩

theorem error_ends {location : Location} {code : Int} {message : String} {r : Reader}
    {Q : Unit → Reader → Prop}
    (h : ∀ r', r.Stays r' → Q () r') : Ends (error location code message) r Q :=
  Ends.of_ok rfl (h _ ⟨rfl, rfl, rfl, rfl, rfl⟩)

theorem peek_ends {kind : Token.Kind} {r : Reader} {Q : Bool → Reader → Prop}
    (h : Q (r.next.kind = kind) r) :
    Ends (peek kind) r Q :=
  Ends.of_ok rfl h

theorem nextToken_ends {r : Reader} {Q : Token → Reader → Prop} (h : Q r.next r) :
    Ends nextToken r Q :=
  Ends.of_ok rfl h

theorem accept_ends {kind : Token.Kind} {r : Reader} {Q : Bool → Reader → Prop}
    (hyes : r.next.kind = kind → Q true r.consumed) (hno : r.next.kind ≠ kind → Q false r) :
    Ends (accept kind) r Q := by
  refine Ends.bind (peek_ends (Q := fun c r' => c = decide (r.next.kind = kind) ∧ r' = r)
    ⟨rfl, rfl⟩) ?_
  rintro _ _ ⟨rfl, rfl⟩
  split
  · exact Ends.bind (consume_ends (Q := fun _ r' => r' = _) rfl) fun _ r' hr' =>
      Ends.pure (hr' ▸ hyes (of_decide_eq_true ‹_›))
  · exact Ends.pure (hno (of_decide_eq_false (eq_false_of_ne_true ‹_›)))

/-- Whether a kind of token stands for the end of the text. -/
abbrev isEnd : Token.Kind → Bool
  | .eof => true
  | _ => false

instance accept_consumes {kind : Token.Kind} [hkind : IsFalse (isEnd kind)] :
    Reads .consuming (accept kind) where
  ends r _ := by
    have hne : kind ≠ .eof := by
      rintro rfl
      exact absurd hkind.eq_false nofun
    refine accept_ends (fun h => ⟨r.moves_consumed, fun _ => ?_⟩) fun _ => ⟨.refl r, nofun⟩
    exact Reader.left_consumed_lt (h ▸ hne)

instance accept_reads {kind : Token.Kind} : Reads .some (accept kind) where
  ends r _ := accept_ends (fun _ => ⟨r.moves_consumed, trivial⟩) fun _ => ⟨.refl r, trivial⟩

instance expect_consumes {kind : Token.Kind} [IsFalse (isEnd kind)] :
    Reads .consuming (expect kind) := by
  unfold expect
  infer_instance

instance expect_reads {kind : Token.Kind} : Reads .some (expect kind) := by
  unfold expect
  infer_instance

theorem expect_ends {kind : Token.Kind} {r : Reader} {Q : Bool → Reader → Prop}
    (hyes : r.next.kind = kind → Q true r.consumed)
    (hno : r.next.kind ≠ kind → ∀ r', r.Stays r' → Q false r') :
    Ends (expect kind) r Q := by
  refine Ends.bind
    (accept_ends (Q := fun c r' => if c = true then r.next.kind = kind ∧ r' = r.consumed
    else r.next.kind ≠ kind ∧ r' = r) (fun h => ⟨h, rfl⟩) fun h => ⟨h, rfl⟩) ?_
  rintro (_ | _) r' ⟨hkind, rfl⟩
  · exact Ends.of_ok rfl (hno hkind _ ⟨rfl, rfl, rfl, rfl, rfl⟩)
  · exact Ends.pure (hyes hkind)

/-- Passes a token that is not the one looked for. -/
def skipRound (kind : Token.Kind) (_ : Unit) : ReadM (Unit ⊕ Unit) := do
  if ← accept kind then return .inr ()
  if ← peek .eof then return .inr ()
  consume
  return .inl ()

theorem consumeUntil_eq (kind : Token.Kind) :
    consumeUntil kind = readLoop (skipRound kind) () := rfl

/-- A round either ends at its beginning, which is then at the end of the text, or
consumes a token. -/
theorem skipRound_ends {kind : Token.Kind} {r : Reader} {u : Unit} :
    Ends (skipRound kind u) r fun c r' => r.Moves r' ∧
      (r'.left < r.left ∨ c = .inr () ∧ r.next.kind = .eof) := by
  refine Ends.bind (P := fun found r' => r.Moves r' ∧
    (found = false → r' = r) ∧ (found = true → r.next.kind = .eof ∨ r'.left < r.left)) ?_ ?_
  · refine accept_ends (fun h => ⟨r.moves_consumed, nofun, fun _ => ?_⟩)
      fun _ => ⟨.refl r, fun _ => rfl, nofun⟩
    exact (em _).imp id Reader.left_consumed_lt
  rintro found r₁ ⟨hmoves, hstays, hfound⟩
  cases found with
  | true => exact Ends.pure ⟨hmoves, (hfound rfl).symm.imp id fun h => ⟨rfl, h⟩⟩
  | false =>
    obtain rfl := hstays rfl
    refine Ends.bind (peek_ends (Q := fun c r' => c = decide (r₁.next.kind = .eof) ∧ r' = r₁)
      ⟨rfl, rfl⟩) ?_
    rintro _ r ⟨rfl, rfl⟩
    by_cases heof : r.next.kind = .eof
    · rw [decide_eq_true heof]
      exact Ends.pure ⟨hmoves, .inr ⟨rfl, heof⟩⟩
    · rw [decide_eq_false heof]
      exact Ends.bind (consume_ends (Q := fun _ r' => r' = r.consumed) rfl) fun _ r' hr' =>
        Ends.pure (hr' ▸ ⟨r.moves_consumed, .inl (Reader.left_consumed_lt heof)⟩)

instance skipRound_consumes {kind : Token.Kind} {u : Unit} :
    Reads .consuming (skipRound kind u) where
  ends _ _ := skipRound_ends.mono fun c _ ⟨hmoves, h⟩ =>
    ⟨hmoves, fun hc => h.resolve_right fun ⟨hinr, _⟩ => by subst hinr; cases hc⟩

/-- Unless the text ends, at least one token is passed. -/
theorem consumeUntil_ends {kind : Token.Kind} {r : Reader} (hr : r.left < r.rounds) :
    Ends (consumeUntil kind) r
      fun _ r' => r.Moves r' ∧ (r.next.kind ≠ .eof → r'.left < r.left) := by
  show Ends (repeatWith (skipRound kind) r.rounds ()) r _
  refine Ends.repeatWith (fun _ r' => r'.left) (fun _ r' => r.Moves r' ∧
    (r' = r ∨ r'.left < r.left)) ?_ _ _ _ ⟨.refl r, .inl rfl⟩ hr
  rintro _ r₁ ⟨hmoves, hr₁⟩
  refine skipRound_ends.mono fun c r' ⟨hmoves', h⟩ => ?_
  have hle := hmoves.left
  have hle' := hmoves'.left
  have hall := hmoves.trans hmoves'
  cases c with
  | inl u =>
    obtain hlt | ⟨hinr, _⟩ := h
    · exact ⟨⟨hall, .inr (by omega)⟩, hlt⟩
    · cases hinr
  | inr u =>
    refine ⟨hall, fun hne => ?_⟩
    obtain rfl | hlt := hr₁
    · exact h.resolve_right fun ⟨_, heof⟩ => hne heof
    · omega

instance consumeUntil_reads {kind : Token.Kind} : Reads .some (consumeUntil kind) := by
  rw [consumeUntil_eq]
  infer_instance

instance failAfter_reads {kind : Token.Kind} : Reads p (failAfter kind) :=
  of_stopping (by unfold failAfter; infer_instance)

instance enterScope_reads : Reads .some enterScope where
  ends r _ := Ends.pure ⟨⟨Nat.le_refl _, rfl, rfl, .refl r⟩, trivial⟩

instance leaveScope_reads : Reads .some leaveScope where
  ends _ _ :=
    Ends.pure ⟨⟨Nat.le_refl _, rfl, rfl,
      fun e he _ => ⟨e, (List.mem_filter.mp he).1, rfl⟩⟩, trivial⟩

instance uniqueName_reads {mark name : String} : Reads .some (uniqueName mark name) := by
  unfold uniqueName
  infer_instance

/-- Reads one part of a qualified name. -/
def pathRound (identifier : String) : ReadM (String ⊕ Option String) := do
  if !(← accept .colonColon) then return .inr (some identifier)
  if !(← expect .identifier) then return .inr none
  return .inl (identifier ++ "::" ++ (← currentToken).text)

theorem acceptPath_eq (identifier : String) :
    acceptPath identifier = readLoop pathRound identifier := rfl

instance pathRound_consumes {identifier : String} : Reads .consuming (pathRound identifier) := by
  unfold pathRound
  infer_instance

instance acceptPath_reads {identifier : String} : Reads .some (acceptPath identifier) := by
  rw [acceptPath_eq]
  infer_instance

/-- Reads a name from behind its first word and looks it up. -/
def lookUp (exclusive : Bool) : ReadM (Option Named) := do
  let some identifier ← acceptPath (← currentToken).text | return none
  let from_ ← if exclusive then pure Scope.root else scope
  let symbol := (← get).symbols.find identifier from_ exclusive
  return some { identifier, scope := from_, symbol }

/-- What a name stands for was declared, if it stands for anything. -/
theorem find_eq_or (t : SymbolTable) (name : String) (from_ : Scope) (exclusive : Bool) :
    t.find name from_ exclusive = {} ∨ ∃ e ∈ t.entries,
      e.symbol = t.find name from_ exclusive := by
  have hfold (l : List SymbolTable.Entry) (found : Symbol) :
      l.foldl (fun found e => if found.kind = .invalid then e.symbol else found) found = found
        ∨ ∃ e ∈ l, e.symbol
          = l.foldl (fun found e => if found.kind = .invalid then e.symbol else found) found := by
    induction l generalizing found with
    | nil => exact .inl rfl
    | cons e l ih =>
      rw [List.foldl_cons]
      obtain heq | ⟨e', he', heq⟩ := ih (if found.kind = .invalid then e.symbol else found)
      · rw [heq]
        by_cases hkind : found.kind = .invalid
        · exact .inr ⟨e, List.mem_cons_self, (if_pos hkind).symm⟩
        · exact .inl (if_neg hkind)
      · exact .inr ⟨e', List.mem_cons_of_mem _ he', heq⟩
  have hmem {e : SymbolTable.Entry} {p : SymbolTable.Entry → Bool}
      (he : e ∈ (t.named name).filter p) : e ∈ t.entries :=
    (List.mem_filter.mp (List.mem_reverse.mp (List.mem_filter.mp he).1)).1
  unfold SymbolTable.find
  simp only
  split
  · rename_i e hfind
    exact .inr ⟨e, hmem (List.mem_of_find?_eq_some hfind), rfl⟩
  · exact (hfold _ {}).imp id fun ⟨e, he, heq⟩ => ⟨e, hmem he, heq⟩

theorem acceptSymbol_consumes : Reads .consuming acceptSymbol := by
  unfold acceptSymbol
  infer_instance

instance acceptSymbol_reads [p.Proceeds] :
    Reads p acceptSymbol := of_consuming acceptSymbol_consumes

/-- Where a name begins, a token is consumed whether or not the name is complete. What a complete
name stands for was looked up. -/
theorem acceptSymbol_ends {r : Reader} (hr : r.left < r.rounds) :
    Ends acceptSymbol r fun found r' => (r.AtName → r'.left < r.left) ∧ ∀ n ∈ found,
      ∃ name from_ exclusive, n.symbol = r'.symbols.find name from_ exclusive := by
  unfold acceptSymbol
  refine Ends.bind (P := fun exclusive r₁ =>
    r.Moves r₁ ∧ if exclusive = true then r₁.left < r.left else
    r₁ = r ∧ r.next.kind ≠ .colonColon) ?_ fun exclusive r₁ ⟨hmoves, hr₁⟩ => ?_
  · exact accept_ends (fun h => ⟨r.moves_consumed, Reader.left_consumed_lt (h ▸ nofun)⟩)
      fun h => ⟨.refl r, rfl, h⟩
  extract_lets rest
  -- What follows the first word of the name.
  have hrest (r₂ : Reader) (hmoves : r.Moves r₂) (hlt : r₂.left < r.left) :
      Ends (rest ()) r₂ fun found r' =>
      (r.AtName → r'.left < r.left) ∧ ∀ n ∈ found,
        ∃ name from_ exclusive, n.symbol = r'.symbols.find name from_ exclusive := by
    have hr₂ := hmoves.ready hr
    dsimp only [rest]
    refine Reads.next .some hr₂ fun t r₃ hmoves₃ _ => ?_
    refine Reads.next .some (hmoves₃.ready hr₂) fun path r₄ hmoves₄ _ => ?_
    have hlt₄ := Nat.lt_of_le_of_lt (hmoves₃.trans hmoves₄).left hlt
    cases path with
    | none => exact Ends.pure ⟨fun _ => hlt₄, by simp⟩
    | some name =>
      have hfound (from_ : Scope) : (r.AtName → r₄.left < r.left) ∧ ∀ n ∈ some
          ({ identifier := name, scope := from_,
             symbol := r₄.symbols.find name from_ exclusive } : Named),
          ∃ name from_ exclusive, n.symbol = r₄.symbols.find name from_ exclusive := by
        refine ⟨fun _ => hlt₄, fun n hn => ?_⟩
        obtain rfl := Option.some.inj hn
        exact ⟨_, _, _, rfl⟩
      dsimp only
      split
      · exact Ends.of_ok rfl (hfound _)
      · exact Ends.of_ok rfl (hfound _)
  have hr' := hmoves.ready hr
  split
  · rename_i hexclusive
    rw [if_pos hexclusive] at hr₁
    refine Reads.next .some hr' fun ok r₂ hmoves₂ _ => ?_
    split
    · exact Ends.pure ⟨fun _ => Nat.lt_of_le_of_lt hmoves₂.left hr₁, by simp⟩
    · exact hrest r₂ (hmoves.trans hmoves₂) (Nat.lt_of_le_of_lt hmoves₂.left hr₁)
  · rename_i hexclusive
    rw [if_neg hexclusive] at hr₁
    obtain ⟨rfl, hne⟩ := hr₁
    refine Ends.bind (P := fun ok r₂ =>
      r₁.Moves r₂ ∧ if ok = true then r₂.left < r₁.left else ¬r₁.AtName) ?_ ?_
    · exact accept_ends (fun h => ⟨r₁.moves_consumed, Reader.left_consumed_lt (h ▸ nofun)⟩)
        fun h => ⟨.refl r₁, not_or_intro h hne⟩
    rintro ok r₂ ⟨hmoves₂, hr₂⟩
    cases ok with
    | true => exact hrest r₂ hmoves₂ (by simpa using hr₂)
    | false => exact Ends.of_ok rfl ⟨fun hname => absurd hname (by simpa using hr₂), by simp⟩

theorem mem_insertEntry {new e : SymbolTable.Entry} {l : List SymbolTable.Entry}
    (h : e ∈ SymbolTable.insertEntry new l) : e = new ∨ e ∈ l := by
  induction l with
  | nil => exact .inl (List.mem_singleton.mp h)
  | cons e' l ih =>
    unfold SymbolTable.insertEntry at h
    split at h
    · exact List.mem_cons.mp h
    · obtain rfl | h := List.mem_cons.mp h
      · exact .inr List.mem_cons_self
      · exact (ih h).imp id (List.mem_cons_of_mem _)

/-- Whether an entry is what declaring a symbol adds: a local lies in the current scope, and
everything global lies in namespaces. -/
structure IsDeclared (t : SymbolTable) (symbol : Symbol) (isGlobal : Bool) (e : SymbolTable.Entry) :
    Prop where
  symbol : e.symbol = symbol
  inside : isGlobal = false → e.scope = t.current
  outside : isGlobal = true → e.scope.level = e.scope.namespaceLevel

/-- Only what is declared is new. -/
theorem insert_spec {t t' : SymbolTable} {name : String} {symbol : Symbol} {isGlobal : Bool}
    (h : t.insert name symbol isGlobal = .ok (some t')) :
    t'.current = t.current
      ∧ ∀ e ∈ t'.entries, e ∈ t.entries ∨ IsDeclared t symbol isGlobal e := by
  have hadd {u : SymbolTable} {new : SymbolTable.Entry} (hnew : IsDeclared t symbol isGlobal new)
      (hu : u.current = t.current
        ∧ ∀ e ∈ u.entries, e ∈ t.entries ∨ IsDeclared t symbol isGlobal e) :
      (u.add new).current = t.current ∧ ∀ e ∈ (u.add new).entries,
        e ∈ t.entries ∨ IsDeclared t symbol isGlobal e := by
    refine ⟨hu.1, fun e he => ?_⟩
    obtain rfl | he := mem_insertEntry (show e ∈ SymbolTable.insertEntry new u.entries from he)
    · exact .inr hnew
    · exact hu.2 e he
  have hself : t.current = t.current ∧ ∀ e ∈ t.entries,
      e ∈ t.entries ∨ IsDeclared t symbol isGlobal e :=
    ⟨rfl, fun _ => .inl⟩
  unfold SymbolTable.insert at h
  dsimp only at h
  split at h
  · cases h
  · split at h
    · rename_i hlocal
      obtain rfl := Option.some.inj (Except.ok.inj h)
      exact hadd ⟨rfl, fun _ => rfl,
        fun hglobal => by rw [hglobal] at hlocal; cases hlocal⟩ hself
    · rename_i hglobal
      split at h
      · cases h
      · obtain rfl := Option.some.inj (Except.ok.inj h)
        generalize (SymbolTable.pathSplits _ _ _).zipIdx = splits
        induction splits using List.reverseRecOn with
        | nil => exact hself
        | append_singleton splits split ih =>
          rw [List.foldl_append]
          exact hadd ⟨rfl, fun hfalse => absurd (hfalse ▸ rfl) hglobal, fun _ => rfl⟩ ih

instance {t : SymbolTable} {name : String} {symbol : Symbol} {isGlobal : Bool} :
    Bounded (t.insert name symbol isGlobal) := by
  unfold SymbolTable.insert
  dsimp only
  infer_instance

/-- A declaration does not move on. -/
theorem declare_ends {name : String} {symbol : Symbol} {isGlobal : Bool} {r : Reader} :
    Ends (declare name symbol isGlobal) r fun _ r' =>
      r'.left = r.left ∧ r'.rounds = r.rounds ∧ r'.saved = r.saved ∧
      ∀ e ∈ r'.symbols.entries, e ∈ r.symbols.entries ∨ e.symbol = symbol := by
  unfold declare
  refine Ends.bind (Ends.of_ok (Q := fun p r' => p = r ∧ r' = r) rfl ⟨rfl, rfl⟩) ?_
  rintro _ r ⟨rfl, rfl⟩
  refine Ends.bind
    (Ends.liftM (Q := fun found r' => r.symbols.insert name symbol isGlobal = .ok found ∧ r' = r)
    fun found hfound => ⟨hfound, rfl⟩) ?_
  rintro found r ⟨hfound, rfl⟩
  cases found with
  | none => exact Ends.pure ⟨rfl, rfl, rfl, fun e he => .inl he⟩
  | some symbols =>
    exact Ends.of_ok rfl
      ⟨rfl, rfl, rfl, fun e he => ((insert_spec hfound).2 e he).imp_right (·.symbol)⟩

/-- Whether a symbol stands for a structure. -/
abbrev namesStruct (symbol : Symbol) : Bool :=
  match symbol.kind with
  | .struct => true
  | _ => false

theorem namesStruct_iff {symbol : Symbol} :
    namesStruct symbol = true ↔ symbol.kind = .struct := by
  unfold namesStruct
  split <;> simp_all

/-- Declaring anything else than a structure adds no structure. -/
instance declare_reads {name : String} {symbol : Symbol} {isGlobal : Bool}
    [h : IsFalse (namesStruct symbol)] :
    Reads .some (declare name symbol isGlobal) where
  ends r _ := by
    refine declare_ends.mono fun _ r' ⟨hleft, hrounds, hsaved, hsymbols⟩ =>
      ⟨⟨Nat.le_of_eq hleft, hrounds, hsaved, ?_⟩, trivial⟩
    intro e he hkind
    refine (hsymbols e he).elim (fun he => ⟨e, he, rfl⟩) fun heq => ?_
    rw [heq, ← namesStruct_iff, h.eq_false] at hkind
    cases hkind

end Parser
end ShaderEffect

import ShaderEffect.Proofs.Conditions.Reading
import ShaderEffect.Proofs.Preprocessing.Inputs

/-!
Macros with parameters: what is written for a name that is not called, and what a
call is replaced by.

Whether a name is a call shows behind the blanks that follow it. Where it is none, what is written
in its place is the last token that was passed over: the name itself, or the last blank behind the
name. In a call, operands of `##` are expanded like all arguments before they are put side by side.
-/
namespace ShaderEffect.Preprocessor

variable {p q q' : Preprocessor} {t : Token} {raw rest blanks : List Token} {hidden : List String}
  {macros : List (String × Macro)} {fuel n : Nat}

/-- Whether these tokens are what is left of a line of a file in which some macros are hidden. -/
def FacesIn (hidden : List String) (p : Preprocessor) (raw : List Token) : Prop :=
  ∃ input n, p.stack[p.nextLevel]? = some input ∧ lineAhead n input.next input.cursor = some raw
    ∧ input.name ≠ "" ∧ input.hidden = hidden

theorem FacesIn.faces (h : FacesIn hidden p raw) : Faces p raw :=
  let ⟨input, n, hget, hline, _⟩ := h
  ⟨input, n, hget, hline⟩

theorem FacesIn.read (h : FacesIn hidden p (t :: raw))
    (ht : t.kind = .stringLiteral → isClosed t.raw = true) :
    ∃ q, consume p = .ok (true, q)
      ∧ Reads p q ∧ FacesIn hidden q raw ∧ q.token = t ∧ q.level = q.nextLevel := by
  obtain ⟨input, n, hget, hline, hname, hhidden⟩ := h
  obtain ⟨q, m, next, cursor, hconsume, hreads, hget', hline', htoken⟩ :=
    consume_lineAhead hget hline ht
  refine ⟨q, hconsume, hreads, ⟨_, m, hget', hline', hname, hhidden⟩, htoken, ?_⟩
  rw [(consume_keeps hconsume).1, hreads.nextLevel_eq]

/-- Whether one state follows another one with no more than tokens read and expansions
counted between them. -/
def Continues (p q : Preprocessor) : Prop :=
  ∃ output reached level token stack expansions overflow invocation,
    q = { p with output, reached, level, token, stack, expansions, overflow, invocation }

theorem Continues.refl (p : Preprocessor) : Continues p p :=
  ⟨_, _, _, _, _, _, _, _, rfl⟩

theorem Continues.trans (h : Continues p q) (h' : Continues q q') : Continues p q' := by
  obtain ⟨_, _, _, _, _, _, _, _, rfl⟩ := h
  obtain ⟨output, reached, level, token, stack, expansions, overflow, invocation, rfl⟩ := h'
  exact ⟨output, reached, level, token, stack, expansions, overflow, invocation, rfl⟩

theorem Reads.continues (h : Reads p q) : Continues p q := by
  obtain ⟨output, reached, level, token, stack, rfl⟩ := h
  exact ⟨output, reached, level, token, stack, _, _, _, rfl⟩

theorem Continues.macros_eq (h : Continues p q) : q.macros = p.macros := by
  obtain ⟨_, _, _, _, _, _, _, _, rfl⟩ := h
  rfl

theorem Continues.groups_eq (h : Continues p q) : q.groups = p.groups := by
  obtain ⟨_, _, _, _, _, _, _, _, rfl⟩ := h
  rfl

/-- Blanks are passed over, and the last of them is the current token then. -/
theorem skipSpaces_blanks (h : FacesIn hidden p (blanks ++ rest))
    (hblanks : ∀ b ∈ blanks, b.kind = .space) (hrest : ∀ t ∈ rest.head?, t.kind ≠ .space)
    (hlevel : p.level = p.nextLevel) (hfuel : blanks.length < fuel) :
    ∃ q, skipSpaces fuel p = .ok ((), q)
      ∧ Reads p q ∧ FacesIn hidden q rest ∧ q.token = blanks.getLastD p.token
      ∧ q.level = q.nextLevel := by
  induction blanks generalizing p fuel with
  | nil =>
    obtain ⟨fuel, rfl⟩ := Nat.exists_eq_add_one_of_ne_zero (Nat.ne_zero_of_lt hfuel)
    refine ⟨p, skipSpaces_stop ?_, .refl p, h, rfl, hlevel⟩
    cases rest with
    | nil => exact h.faces.nextKind_nil ▸ Token.Kind.noConfusion
    | cons t rest => exact h.faces.nextKind_cons.1 ▸ hrest t rfl
  | cons b blanks ih =>
    obtain ⟨fuel, rfl⟩ := Nat.exists_eq_add_one_of_ne_zero (Nat.ne_zero_of_lt hfuel)
    have hb : b.kind = .space := hblanks b List.mem_cons_self
    obtain ⟨q, hconsume, hreads, hface, htoken, hlevel⟩ :=
      h.read fun hstring => by rw [hb] at hstring; cases hstring
    obtain ⟨q', hskip, hreads', hface', htoken', hlevel'⟩ :=
      ih hface (fun b hmem => hblanks b (List.mem_cons_of_mem _ hmem)) hlevel
        (Nat.lt_of_succ_lt_succ hfuel)
    refine ⟨q', skipSpaces_step (h.faces.nextKind_cons.1.trans hb) hconsume hskip,
      hreads.trans hreads', hface', ?_, hlevel'⟩
    rw [htoken', htoken, List.getLastD_cons]

/-- Whether a token is the name of a macro with parameters that is not hidden. -/
def isFunctionName (macros : List (String × Macro)) (hidden : List String) (t : Token) : Bool :=
  t.kind = .identifier && !isBuiltin t.text && (macros.lookup t.text).any (·.functionLike)
    && !hidden.contains t.text

/-- A first expansion in a file is counted. -/
theorem countExpansion_file {input : Input} (location : Location) (hfile : input.name ≠ "")
    (hexpansions : p.expansions < expansionLimit) :
    countExpansion input location p =
      .ok (true, { p with invocation := location, overflow := false,
                          expansions := p.expansions + 1 }) := by
  unfold countExpansion
  rw [if_pos hfile]
  refine bind_eq_ok.mpr ⟨(), _, modify_eq_ok.mpr rfl,
    bind_eq_ok.mpr ⟨_, _, get_eq_ok.mpr ⟨rfl, rfl⟩, ?_⟩⟩
  dsimp only
  rw [if_neg Bool.false_ne_true, if_neg (Nat.not_le.mpr hexpansions)]
  exact bind_eq_ok.mpr ⟨(), _, modify_eq_ok.mpr rfl, rfl⟩

/-- A name that is not called is left, and the blanks behind it are passed over. -/
theorem expandIdentifier_uncalled (h : FacesIn hidden p (blanks ++ rest))
    (hblanks : ∀ b ∈ blanks, b.kind = .space)
    (hrest : ∀ t ∈ rest.head?, t.kind ≠ .space ∧ t.kind ≠ .parenOpen)
    (hname : isFunctionName p.macros hidden p.token = true) (hlevel : p.level = p.nextLevel)
    (hexpansions : p.expansions < expansionLimit) (hfuel : blanks.length < fuel) :
    ∃ q, expandIdentifier (fuel + 1) p = .ok (false, q)
      ∧ Continues p q ∧ FacesIn hidden q rest
      ∧ q.token = blanks.getLastD p.token := by
  have ⟨input, n, hget, hline, hfile, hhidden⟩ := h
  simp only [isFunctionName, Bool.and_eq_true, Bool.not_eq_true', Option.any_eq_true] at hname
  obtain ⟨⟨⟨-, hbuiltin⟩, m, hfind, hfunction⟩, hvisible⟩ := hname
  let p₁ : Preprocessor :=
    { p with invocation := p.token.location, overflow := false, expansions := p.expansions + 1 }
  -- The expansion is counted before the parenthesis is looked for, and the blanks in front of
  -- what stands there instead are gone.
  have hcount : countExpansion input p.token.location p = .ok (true, p₁) :=
    countExpansion_file _ hfile hexpansions
  have hskip :
      ∃ q, skipSpaces fuel p₁ = .ok ((), q)
      ∧ Reads p₁ q ∧ FacesIn hidden q rest ∧ q.token = blanks.getLastD p.token
      ∧ q.level = q.nextLevel :=
    skipSpaces_blanks ⟨input, n, hget, hline, hfile, hhidden⟩ hblanks
      (fun t ht => (hrest t ht).1) hlevel hfuel
  obtain ⟨q, hskip, hreads, hface, htoken, -⟩ := hskip
  have hpeek : peek .parenOpen q = .ok (false, q) := by
    rw [peek_eq, decide_eq_false]
    cases rest with
    | nil => exact hface.faces.nextKind_nil ▸ Token.Kind.noConfusion
    | cons t rest => exact hface.faces.nextKind_cons.1 ▸ (hrest t rfl).2
  have haccept : accept fuel .parenOpen p₁ = .ok (false, q) :=
    bind_eq_ok.mpr ⟨(), q, hskip, bind_eq_ok.mpr ⟨false, q, hpeek, rfl⟩⟩
  have hcall (expand : String → PreM String) :
      replaceCall fuel expand p.token.text p.token.location m p₁ = .ok (false, q) := by
    unfold replaceCall
    simp only [hfunction, Bool.not_true, Bool.false_eq_true, if_false]
    exact bind_eq_ok.mpr ⟨false, q, haccept, rfl⟩
  refine ⟨q, ?_, .trans ⟨_, _, _, _, _, _, _, _, rfl⟩ hreads.continues, hface, htoken⟩
  unfold expandIdentifier
  refine bind_eq_ok.mpr ⟨_, _, get_eq_ok.mpr ⟨rfl, rfl⟩, ?_⟩
  have hfind' : p.findMacro? p.token.text = some m := hfind
  simp only [builtinText?_eq_none hbuiltin, hfind', hlevel, hget, hhidden, hvisible,
    Bool.false_eq_true, if_false]
  exact bind_eq_ok.mpr ⟨true, p₁, hcount, hcall _⟩

theorem Continues.of_reset (h : Reads p q) : Continues p { q with expansions := 0 } :=
  .trans h.continues ⟨_, _, _, _, _, _, _, _, rfl⟩

theorem handleToken_uncalled (line : String) (h : FacesIn hidden p (blanks ++ rest))
    (hblanks : ∀ b ∈ blanks, b.kind = .space)
    (hrest : ∀ t ∈ rest.head?, t.kind ≠ .space ∧ t.kind ≠ .parenOpen)
    (hname : isFunctionName p.macros hidden p.token = true) (hlevel : p.level = p.nextLevel)
    (hexpansions : p.expansions < expansionLimit) (hactive : isActive p.groups = true)
    (hfuel : blanks.length + 1 < fuel) :
    ∃ q, handleToken fuel line p = .ok (.inl (line ++ (blanks.getLastD p.token).raw), q)
      ∧ Continues p q ∧ FacesIn hidden q rest := by
  obtain ⟨fuel, rfl⟩ := Nat.exists_eq_add_one_of_ne_zero (Nat.ne_zero_of_lt hfuel)
  have hkind : p.token.kind = .identifier := by
    simp only [isFunctionName, Bool.and_eq_true, decide_eq_true_eq] at hname
    exact hname.1.1.1
  obtain ⟨q, hexpand, hcontinues, hface, htoken⟩ :=
    expandIdentifier_uncalled h hblanks hrest hname hlevel hexpansions
      (Nat.lt_of_succ_lt_succ hfuel)
  have hprocess :
      processToken (fuel + 1) line p = .ok (line ++ (blanks.getLastD p.token).raw, q) := by
    refine bind_eq_ok.mpr ⟨_, _, get_eq_ok.mpr ⟨rfl, rfl⟩, ?_⟩
    simp only [hkind, directive?]
    exact bind_eq_ok.mpr ⟨false, q, hexpand,
      bind_eq_ok.mpr ⟨_, _, get_eq_ok.mpr ⟨rfl, rfl⟩, by rw [htoken]; rfl⟩⟩
  refine ⟨q, ?_, hcontinues, hface⟩
  refine bind_eq_ok.mpr ⟨_, _, get_eq_ok.mpr ⟨rfl, rfl⟩, ?_⟩
  simp only [hkind, conditional?]
  refine bind_eq_ok.mpr ⟨_, _, get_eq_ok.mpr ⟨rfl, rfl⟩, ?_⟩
  rw [isSkipping_eq, hactive, Bool.not_true, if_neg Bool.false_ne_true]
  exact bind_eq_ok.mpr ⟨_, _, hprocess, rfl⟩

/-- A token of text that names no macro is written. -/
theorem processNext_plain (line : String) (h : FacesIn hidden p (t :: raw))
    (hkind : t.kind ∈ .stringLiteral :: writtenKinds)
    (hclosed : t.kind = .stringLiteral → isClosed t.raw = true)
    (hname : t.kind = .identifier → isReplaced p.macros t.text = false)
    (hactive : isActive p.groups = true) (hfuel : 0 < fuel) :
    ∃ q, processNext fuel line p = .ok (.inl (line ++ t.raw), q)
      ∧ Continues p q ∧ FacesIn hidden q raw := by
  obtain ⟨q, hconsume, hreads, hface, rfl, -⟩ := h.read hclosed
  have hcontinues : Continues p { q with expansions := 0 } := .of_reset hreads
  rw [← hcontinues.groups_eq] at hactive
  rw [← hcontinues.macros_eq] at hname
  exact ⟨_, processNext_eq_ok hconsume
    (adds_of_text hfuel hactive hkind hname line _ rfl rfl rfl rfl rfl), hcontinues, hface⟩

/-- The name of a macro that is not called is written, unless there are blanks behind it: then the
last of these is. -/
theorem processNext_uncalled (line : String) (h : FacesIn hidden p (t :: (blanks ++ rest)))
    (hblanks : ∀ b ∈ blanks, b.kind = .space)
    (hrest : ∀ t ∈ rest.head?, t.kind ≠ .space ∧ t.kind ≠ .parenOpen)
    (hname : isFunctionName p.macros hidden t = true)
    (hactive : isActive p.groups = true) (hfuel : blanks.length + 1 < fuel) :
    ∃ q, processNext fuel line p = .ok (.inl (line ++ (blanks.getLastD t).raw), q)
      ∧ Continues p q ∧ FacesIn hidden q rest := by
  have hclosed : t.kind = .stringLiteral → isClosed t.raw = true := by
    intro hstring
    simp [isFunctionName, hstring] at hname
  obtain ⟨q, hconsume, hreads, hface, rfl, hlevel⟩ := h.read hclosed
  have hcontinues : Continues p { q with expansions := 0 } := .of_reset hreads
  rw [← hcontinues.groups_eq] at hactive
  rw [← hcontinues.macros_eq] at hname
  obtain ⟨q', hhandle, hcontinues', hface'⟩ :=
    handleToken_uncalled (p := { q with expansions := 0 }) line hface hblanks hrest hname hlevel
      (by decide : 0 < expansionLimit) hactive hfuel
  exact ⟨q', processNext_eq_ok hconsume hhandle, hcontinues.trans hcontinues', hface'⟩

/-- What is written for the tokens of a line without calls, where some of the tokens are
names of macros with parameters. Such a name and the blanks behind it are passed over as long
as a blank follows. -/
def written (isName : Token → Bool) : (seeking : Bool) → List Token → String
  | _, [] => ""
  | seeking, t :: ts =>
    let seeks := isName t || (seeking && t.kind = .space)
    (if seeks && ts.head?.map (·.kind) = some .space then "" else t.raw) ++ written isName seeks ts

section

variable {isName : Token → Bool} {seeking : Bool}

theorem written_plain (ht : isName t = false) :
    written isName false (t :: raw) = t.raw ++ written isName false raw := by
  simp only [written, ht, Bool.false_and, Bool.or_false, Bool.false_eq_true, if_false]

theorem written_of_head (hraw : ∀ t ∈ raw.head?, t.kind ≠ .space) :
    written isName seeking raw = written isName false raw := by
  cases raw with
  | nil => rfl
  | cons t raw => simp only [written, decide_eq_false (hraw t rfl), Bool.and_false]

theorem written_seeking (ht : (isName t || (seeking && t.kind = .space)) = true)
    (hblanks : ∀ b ∈ blanks, b.kind = .space)
    (hrest : ∀ t ∈ rest.head?, t.kind ≠ .space) :
    written isName seeking (t :: (blanks ++ rest))
      = (blanks.getLastD t).raw ++ written isName false rest := by
  induction blanks generalizing t seeking with
  | nil =>
    have hhead : ¬rest.head?.map (·.kind) = some .space := by
      intro h
      obtain ⟨u, hu, hspace⟩ := Option.map_eq_some_iff.mp h
      exact hrest u hu hspace
    simp only [written, ht, List.nil_append, decide_eq_false hhead, Bool.and_false,
      Bool.false_eq_true, if_false]
    rw [written_of_head hrest]
    rfl
  | cons b blanks ih =>
    have hb : b.kind = .space := hblanks b List.mem_cons_self
    have hseeks : (isName b || (true && decide (b.kind = .space))) = true := by simp [hb]
    have hnext := ih hseeks fun b hmem => hblanks b (List.mem_cons_of_mem _ hmem)
    rw [List.getLastD_cons, ← hnext, written, ht]
    simp [hb]

theorem written_eq_join
    (h : ∀ t b rest, t :: b :: rest <:+ raw → isName t = true → b.kind ≠ .space) :
    written isName false raw = String.join (raw.map (·.raw)) := by
  induction raw with
  | nil => rfl
  | cons t raw ih =>
    have hraw := ih fun u b rest hsuffix => h u b rest (hsuffix.trans (List.suffix_cons t raw))
    rw [List.map_cons, String.join_cons, ← hraw]
    by_cases ht : isName t = true
    · have hspace : ∀ b ∈ raw.head?, b.kind ≠ .space := by
        intro b hb
        obtain ⟨rest, rfl⟩ := List.head?_eq_some_iff.mp hb
        exact h t b rest List.suffix_rfl ht
      have hseeks : (isName t || (false && t.kind = .space)) = true := by rw [ht, Bool.true_or]
      have hwritten := written_seeking hseeks (List.forall_mem_nil _) hspace
      rwa [List.nil_append] at hwritten
    · exact written_plain (Bool.eq_false_of_not_eq_true ht)

theorem written_length_le (seeking : Bool) (raw : List Token) :
    (written isName seeking raw).length ≤ (String.join (raw.map (·.raw))).length := by
  induction raw generalizing seeking with
  | nil => exact Nat.le_refl _
  | cons t raw ih =>
    rw [written, List.map_cons, String.join_cons, String.length_append, String.length_append]
    refine Nat.add_le_add ?_ (ih _)
    split
    · exact Nat.zero_le _
    · exact Nat.le_refl _

theorem written_length_lt {b : Token} (ht : isName t = true) (hb : b.kind = .space)
    (htext : t.raw ≠ "") (h : t :: b :: rest <:+ raw) (seeking : Bool) :
    (written isName seeking raw).length < (String.join (raw.map (·.raw))).length := by
  induction raw generalizing seeking with
  | nil => exact absurd (List.suffix_nil.mp h) (List.cons_ne_nil _ _)
  | cons u raw ih =>
    rw [written, List.map_cons, String.join_cons, String.length_append, String.length_append]
    obtain heq | hsuffix := List.suffix_cons_iff.mp h
    · obtain ⟨rfl, rfl⟩ := List.cons.inj heq
      refine Nat.add_lt_add_of_lt_of_le ?_ (written_length_le _ _)
      simpa [ht, hb] using Nat.pos_of_ne_zero (String.length_eq_zero_iff.not.mpr htext)
    · refine Nat.add_lt_add_of_le_of_lt ?_ (ih hsuffix _)
      split
      · exact Nat.zero_le _
      · exact Nat.le_refl _

/-- Nothing of a line is lost exactly where no name of a macro with parameters has a
blank behind it. -/
theorem written_eq_join_iff (hraw : ∀ t ∈ raw, t.raw ≠ "") :
    written isName false raw = String.join (raw.map (·.raw)) ↔
      ∀ t b rest, t :: b :: rest <:+ raw → isName t = true → b.kind ≠ .space := by
  refine ⟨fun heq t b rest hsuffix ht hb => ?_, written_eq_join⟩
  have htext : t.raw ≠ "" := hraw t (hsuffix.subset List.mem_cons_self)
  exact absurd (congrArg String.length heq) (written_length_lt ht hb htext hsuffix false).ne

-- A name is lost with a blank behind it, and kept without one.
example :
    written (·.text = "F") false [{ kind := .identifier, text := "F", raw := "F" },
      { kind := .space, raw := " " }, { kind := .plus, raw := "+" }] = " +" := by decide

end

/-- A line of text, or what is left of it, in which names of macros with parameters are not called,
and no other macros are named. -/
structure IsUncalled (macros : List (String × Macro)) (hidden : List String) (raw : List Token) :
    Prop where
  kinds : ∀ t ∈ raw, t.kind ∈ .stringLiteral :: writtenKinds
  closed : ∀ t ∈ raw, t.kind = .stringLiteral → isClosed t.raw = true
  names : ∀ t ∈ raw, t.kind = .identifier →
    isReplaced macros t.text = true → isFunctionName macros hidden t = true
  uncalled : ∀ t rest, t :: rest <:+ raw → isFunctionName macros hidden t = true →
    ∀ u ∈ (rest.dropWhile (·.kind = .space)).head?, u.kind ≠ .parenOpen

theorem IsUncalled.of_suffix (h : IsUncalled macros hidden raw) (hrest : rest <:+ raw) :
    IsUncalled macros hidden rest where
  kinds t ht := h.kinds t (hrest.subset ht)
  closed t ht := h.closed t (hrest.subset ht)
  names t ht := h.names t (hrest.subset ht)
  uncalled t more hmore := h.uncalled t more (hmore.trans hrest)

/-- The first token of what is left of a line is handled, with the blanks behind it if these
are passed over. -/
theorem uncalled_round (line : String) (h : FacesIn hidden p (t :: raw))
    (hraw : IsUncalled p.macros hidden (t :: raw))
    (hactive : isActive p.groups = true) (hfuel : raw.length + 1 < fuel) :
    ∃ q out rest, processNext fuel line p = .ok (.inl (line ++ out), q)
      ∧ Continues p q ∧ FacesIn hidden q rest ∧ rest <:+ raw
      ∧ written (isFunctionName p.macros hidden) false (t :: raw)
        = out ++ written (isFunctionName p.macros hidden) false rest := by
  by_cases hname : isFunctionName p.macros hidden t = true
  · let blanks := raw.takeWhile (·.kind = .space)
    let rest := raw.dropWhile (·.kind = .space)
    have hsplit : raw = blanks ++ rest := List.takeWhile_append_dropWhile.symm
    have hblanks : ∀ b ∈ blanks, b.kind = .space :=
      fun b hb => by simpa using List.mem_takeWhile_imp hb
    have hspace : ∀ u ∈ rest.head?, u.kind ≠ .space := by
      intro u hu
      have := List.head?_dropWhile_not (fun t : Token => decide (t.kind = .space)) raw
      rw [show (raw.dropWhile _).head? = some u from hu] at this
      simpa using this
    have hparen : ∀ u ∈ rest.head?, u.kind ≠ .parenOpen :=
      hraw.uncalled t raw List.suffix_rfl hname
    have hlength : blanks.length + 1 < fuel :=
      (Nat.succ_le_succ (List.takeWhile_prefix _).length_le).trans_lt hfuel
    rw [hsplit] at h
    obtain ⟨q, hnext, hcontinues, hface⟩ :=
      processNext_uncalled line h hblanks (fun u hu => ⟨hspace u hu, hparen u hu⟩) hname
        hactive hlength
    refine ⟨q, _, rest, hnext, hcontinues, hface, List.dropWhile_suffix _, ?_⟩
    rw [hsplit]
    exact written_seeking (by rw [hname, Bool.true_or]) hblanks hspace
  · have hplain : t.kind = .identifier → isReplaced p.macros t.text = false := fun hkind =>
      Bool.eq_false_of_not_eq_true fun hreplaced =>
        hname (hraw.names t List.mem_cons_self hkind hreplaced)
    obtain ⟨q, hnext, hcontinues, hface⟩ :=
      processNext_plain line h (hraw.kinds t List.mem_cons_self) (hraw.closed t List.mem_cons_self)
        hplain hactive (Nat.zero_lt_of_lt hfuel)
    exact ⟨q, _, raw, hnext, hcontinues, hface, List.suffix_rfl,
      written_plain (Bool.eq_false_of_not_eq_true hname)⟩

/-- A line without calls is written with its names as they are, except for those that have a
blank behind them. -/
theorem uncalled_line (line : String) (h : FacesIn hidden p raw)
    (hraw : IsUncalled p.macros hidden raw) (hactive : isActive p.groups = true)
    (hfuel : raw.length < fuel) :
    ∃ q, Passes fuel raw.length line p (line
      ++ written (isFunctionName p.macros hidden) false raw) q ∧ Continues p q
      ∧ FacesIn hidden q [] := by
  induction hn : raw.length using Nat.strong_induction_on generalizing raw p line with
  | _ n ih =>
  subst hn
  cases raw with
  | nil => exact ⟨p, by rw [written, String.append_empty]; exact .refl, .refl p, h⟩
  | cons t raw =>
    obtain ⟨q, out, rest, hnext, hcontinues, hface, hsuffix, hwritten⟩ :=
      uncalled_round line h hraw hactive hfuel
    have hlength : rest.length < raw.length + 1 := Nat.lt_succ_of_le hsuffix.length_le
    have hrest : IsUncalled q.macros hidden rest :=
      hcontinues.macros_eq ▸ hraw.of_suffix (hsuffix.trans (List.suffix_cons t raw))
    obtain ⟨q', hpasses, hcontinues', hend⟩ := ih rest.length hlength (line ++ out) hface hrest
      (hcontinues.groups_eq ▸ hactive) (hlength.trans hfuel) rfl
    refine ⟨q', ?_, hcontinues.trans hcontinues', hend⟩
    rw [hwritten, ← String.append_assoc, ← hcontinues.macros_eq]
    exact ((passes_of_next hnext).trans hpasses).mono (by rw [List.length_cons]; omega)

/-- A line without calls is written as it is if no name of a macro with parameters has a
blank behind it. -/
theorem uncalled_line_kept (line : String) (h : FacesIn hidden p raw)
    (hraw : IsUncalled p.macros hidden raw)
    (hblank : ∀ t b rest, t :: b :: rest <:+ raw → isFunctionName p.macros hidden t = true →
      b.kind ≠ .space) (hactive : isActive p.groups = true) (hfuel : raw.length < fuel) :
    ∃ q, Passes fuel raw.length line p (line ++ String.join (raw.map (·.raw))) q
      ∧ Continues p q ∧ FacesIn hidden q [] :=
  written_eq_join hblank ▸ uncalled_line line h hraw hactive hfuel

variable {name : String} {m : Macro} {args : List String} {expand : String → PreM String}
  {left right : List Piece}

/-- Blanks are cut off behind a text as they are behind what it is appended to, once that
has none itself. -/
theorem trimRight_trimRight_append (s t : String) :
    trimRight (trimRight s ++ t) = trimRight s ++ trimRight t := by
  have htrimmed : (s.toList.reverse.dropWhile isPadding).dropWhile isPadding
      = s.toList.reverse.dropWhile isPadding :=
    List.dropWhile_idempotent _ _
  have hdrop : (t.toList.reverse ++ s.toList.reverse.dropWhile isPadding).dropWhile isPadding =
      t.toList.reverse.dropWhile isPadding ++ s.toList.reverse.dropWhile isPadding := by
    rw [List.dropWhile_append, htrimmed]
    split
    · rename_i hblank
      rw [List.isEmpty_iff.mp hblank, List.nil_append]
    · rfl
  refine String.toList_injective ?_
  simp only [trimRight, String.toList_append, String.toList_ofList, List.reverse_append,
    List.reverse_reverse, hdrop]

/-- A text in front of what is replaced so far. -/
def Replaced.behind (front : String) (r : Replaced) : Replaced :=
  { r with text := front ++ r.text }

theorem replaceArgument_behind (front out : String) (index : Int) (f : String → PreM String) :
    replaceArgument name args index f (front ++ out)
      = Replaced.behind front <$> replaceArgument name args index f out := by
  unfold replaceArgument
  split
  · simp [Replaced.behind]
  · simp [Replaced.behind, String.append_assoc]

theorem replacePiece_behind (front : String) (r : Replaced) (piece : Piece) :
    replacePiece name args expand (r.behind (trimRight front)) piece =
      Replaced.behind (trimRight front) <$> replacePiece name args expand r piece := by
  cases piece with
  | text s =>
    simp only [replacePiece, Replaced.behind, String.append_assoc, map_pure]
    rfl
  | argument index => exact replaceArgument_behind _ _ _ _
  | stringize index => exact replaceArgument_behind _ _ _ _
  | concat => simp [replacePiece, Replaced.behind, trimRight_trimRight_append]

theorem foldlM_behind (front : String) (pieces : List Piece) (r : Replaced) :
    pieces.foldlM (replacePiece name args expand) (r.behind (trimRight front)) =
      Replaced.behind (trimRight front) <$> pieces.foldlM (replacePiece name args expand) r := by
  induction pieces generalizing r with
  | nil => simp
  | cons piece pieces ih =>
    simp only [List.foldlM_cons, replacePiece_behind, map_eq_pure_bind, bind_assoc, pure_bind, ih]

/-- Pieces in front of which blanks are dropped. -/
def unpadded : List Piece → List Piece
  | [] => []
  | piece :: pieces => Macro.onText trimLeft piece :: pieces

theorem foldlM_joining (pieces : List Piece) :
    (·.text) <$> pieces.foldlM (replacePiece name args expand) { joining := true } =
      (·.text) <$> (unpadded pieces).foldlM (replacePiece name args expand) {} := by
  cases pieces with
  | nil => simp [unpadded]
  | cons piece pieces => cases piece <;> simp [unpadded, Macro.onText, replacePiece]

/-- What stands on the two sides of a `##` is replaced on its own, and there are no
blanks between. -/
theorem replacement_concat (hm : m.replacement = left ++ .concat :: right) :
    replacement name m args expand = (do
      let front ← replacement name { m with replacement := left } args expand
      let back ← replacement name { m with replacement := unpadded right } args expand
      return trimRight front ++ back) := by
  have hright (r : Replaced) :
      (·.text) <$> right.foldlM (replacePiece name args expand)
        { text := trimRight r.text, joining := true } = (trimRight r.text ++ ·)
          <$> (·.text) <$> (unpadded right).foldlM (replacePiece name args expand) {} := by
    have hsplit : ({ text := trimRight r.text, joining := true } : Replaced) =
        Replaced.behind (trimRight r.text) { joining := true } := by
      rw [Replaced.behind, String.append_empty]
    rw [hsplit, foldlM_behind, ← foldlM_joining]
    simp only [Functor.map_map, Replaced.behind]
  simp only [replacement, hm, List.foldlM_append, List.foldlM_cons, bind_assoc]
  congr 1
  funext r
  have hjoined := hright r
  simp only [map_eq_pure_bind, bind_assoc, pure_bind] at hjoined
  simp only [replacePiece, pure_bind]
  exact hjoined

/-- Texts side by side, without blanks between them. -/
def pasted : List String → String
  | [] => ""
  | [s] => s
  | s :: rest => trimRight s ++ pasted rest

theorem replacement_argument {i : Nat} {operand : String} (hm : m.replacement = [.argument i])
    (h : args[i]? = some operand) :
    replacement name m args expand = expand operand := by
  have hlt : ¬(i : Int) ≥ args.length := by
    have := (List.getElem?_eq_some_iff.mp h).1
    omega
  have hat : (liftM (at? args (i : Int)) : PreM String) = pure operand := by
    simp only [at?, Int.natCast_nonneg, if_true, Int.toNat_natCast, h]
    rfl
  simp only [replacement, hm, List.foldlM_cons, List.foldlM_nil, replacePiece, replaceArgument,
    if_neg hlt, hat, pure_bind, bind_assoc, String.empty_append, bind_pure]

/-- The operands of `##` are expanded before they are put side by side, however many there are. -/
theorem replacement_operands {parameters : List Nat} {operands : List String}
    (hm : m.replacement = (parameters.map fun i => Piece.argument i).intersperse .concat)
    (hargs : parameters.map (args[·]?) = operands.map some) :
    replacement name m args expand = do return pasted (← operands.mapM expand) := by
  induction parameters generalizing m operands with
  | nil =>
    obtain rfl : operands = [] := List.map_eq_nil_iff.mp hargs.symm
    simp [replacement, hm, pasted]
  | cons i parameters ih =>
    obtain ⟨operand, operands, rfl⟩ : ∃ s l, operands = s :: l := by
      cases operands with
      | nil => cases hargs
      | cons s l => exact ⟨s, l, rfl⟩
    obtain ⟨hfirst, hrest⟩ := List.cons.inj hargs
    cases parameters with
    | nil =>
      obtain rfl : operands = [] := List.map_eq_nil_iff.mp hrest.symm
      rw [replacement_argument hm hfirst]
      simp [pasted]
    | cons j parameters =>
      obtain ⟨operand', operands, rfl⟩ : ∃ s l, operands = s :: l := by
        cases operands with
        | nil => cases hrest
        | cons s l => exact ⟨s, l, rfl⟩
      let right := ((j :: parameters).map fun i => Piece.argument i).intersperse .concat
      have hsplit : m.replacement = [.argument i] ++ .concat :: right := hm
      have hright : unpadded right = right := by
        cases parameters <;> rfl
      rw [replacement_concat hsplit, replacement_argument rfl hfirst, hright, ih rfl hrest]
      simp only [List.mapM_cons, bind_assoc, pure_bind]
      rfl

/-- Operands that expand to themselves, and have no blanks at their ends, are put side by
side as they are. -/
theorem replacement_plain_operands {parameters : List Nat} {operands : List String}
    (hm : m.replacement = (parameters.map fun i => Piece.argument i).intersperse .concat)
    (hargs : parameters.map (args[·]?) = operands.map some)
    (hplain : ∀ s ∈ operands, expand s = pure s)
    (htrimmed : ∀ s ∈ operands, trimRight s = s) :
    replacement name m args expand = pure (String.join operands) := by
  have hexpand : operands.mapM expand = pure operands := by
    clear hargs htrimmed
    induction operands with
    | nil => rfl
    | cons s operands ih =>
      rw [List.mapM_cons, hplain s List.mem_cons_self, pure_bind,
        ih fun t ht => hplain t (List.mem_cons_of_mem _ ht), pure_bind]
  have hjoin : pasted operands = String.join operands := by
    clear hargs hplain hexpand
    induction operands with
    | nil => rfl
    | cons s operands ih =>
      have hrest := ih fun t ht => htrimmed t (List.mem_cons_of_mem _ ht)
      cases operands with
      | nil => simp [pasted, String.join_cons]
      | cons t operands =>
        have htext : trimRight s = s := htrimmed s List.mem_cons_self
        calc pasted (s :: t :: operands) = trimRight s ++ pasted (t :: operands) := rfl
          _ = s ++ String.join (t :: operands) := by rw [htext, hrest]
          _ = String.join (s :: t :: operands) := String.join_cons.symm
  rw [replacement_operands hm hargs, hexpand, pure_bind, hjoin]

end ShaderEffect.Preprocessor

/-!
The arguments of a macro call.

A call ends at the parenthesis that closes it, and its arguments are what stands between the commas
that no further parenthesis surrounds. It is complete if anything is left to read behind it: a call
at the very end of the text counts as broken off.
-/
namespace ShaderEffect.Preprocessor

/-- Reading a list of tokens, each of which has something left behind it. -/
inductive Consumes : Preprocessor → List Token → Preprocessor → Prop where
  | nil {p : Preprocessor} : Consumes p [] p
  | cons {p p₁ q : Preprocessor} {ts : List Token} (h : consume p = .ok (true, p₁))
      (hne : p₁.token.kind ≠ .eof) (hts : Consumes p₁ ts q) : Consumes p (p₁.token :: ts) q

variable {p p₁ q r : Preprocessor} {a : Arguments} {t : Token} {ts run : List Token}
  {depth fuel : Nat} {more : Bool}

/-- How many parentheses are open behind a token. -/
def depthBehind (depth : Nat) (t : Token) : Nat :=
  match t.kind with
  | .parenOpen => depth + 1
  | .parenClose => depth - 1
  | _ => depth

/-- Whether a list closes the parentheses that are open in front of it, and its
own, and no others. -/
def Balanced : (depth : Nat) → List Token → Prop
  | depth, [] => depth = 0
  | depth, t :: ts => (t.kind = .parenClose → 0 < depth) ∧ Balanced (depthBehind depth t) ts

/-- The tokens of a list, each with the number of parentheses that are open in front of it. -/
def withDepths : (depth : Nat) → List Token → List (Token × Nat)
  | _, [] => []
  | depth, t :: ts => (t, depth) :: withDepths (depthBehind depth t) ts

/-- Whether a token ends an argument. -/
def separates (x : Token × Nat) : Bool :=
  x.1.kind = .comma && x.2 = 0

/-- The longest runs of tokens between those that end an argument. -/
def runs (depth : Nat) (ts : List Token) : List (List Token) :=
  ((withDepths depth ts).splitOnP separates).map (·.map Prod.fst)

/-- The text of a token in an argument. -/
def pieceText (t : Token) : String :=
  if t.kind = .space then " " else t.raw

/-- The text of an argument. -/
def argumentText (run : List Token) : String :=
  trimRight (trimLeft (String.join (run.map pieceText)))

@[simp]
theorem runs_nil : runs depth [] = [[]] := by
  simp [runs, withDepths, List.splitOnP_nil]

theorem runs_of_separates (h : separates (t, depth) = true) :
    runs depth (t :: ts) = [] :: runs (depthBehind depth t) ts := by
  simp [runs, withDepths, List.splitOnP_cons_eq_if_modifyHead, h]

theorem runs_of_not_separates (h : separates (t, depth) = false) :
    runs depth (t :: ts) = (runs (depthBehind depth t) ts).modifyHead (t :: ·) := by
  simp only [runs, withDepths, List.splitOnP_cons_eq_if_modifyHead, h, Bool.false_eq_true, if_false]
  cases (withDepths (depthBehind depth t) ts).splitOnP separates <;> rfl

theorem modifyHead_nil_append (l : List (List Token)) : l.modifyHead ([] ++ ·) = l :=
  congrFun List.modifyHead_id l

theorem depthBehind_of_open (h : t.kind = .parenOpen) : depthBehind depth t = depth + 1 := by
  simp only [depthBehind, h]

theorem depthBehind_of_close (h : t.kind = .parenClose) : depthBehind depth t = depth - 1 := by
  simp only [depthBehind, h]

theorem depthBehind_of_ne (hopen : t.kind ≠ .parenOpen) (hclose : t.kind ≠ .parenClose) :
    depthBehind depth t = depth := by
  unfold depthBehind
  split
  · exact absurd ‹_› hopen
  · exact absurd ‹_› hclose
  · rfl

/-- The arguments whose last one is a run that goes on. -/
def Arguments.of (done : List String) (run : List Token) (depth : Nat) : Arguments :=
  { done, current := String.join (run.map pieceText), depth }

theorem Arguments.add_of {done : List String} {depth' : Nat} :
    (Arguments.of done run depth).add t depth' = Arguments.of done (run ++ [t]) depth' := by
  simp [Arguments.add, Arguments.of, String.join_append, pieceText]

/-- What a token does to the arguments. -/
def Arguments.after (a : Arguments) (t : Token) : Arguments ⊕ Option (List String) :=
  match t.kind, a.depth with
  | .comma, 0 => .inl { done := a.finished }
  | .parenOpen, n => .inl (a.add t (n + 1))
  | .parenClose, 0 => .inr (some a.finished)
  | .parenClose, n + 1 => .inl (a.add t n)
  | _, n => .inl (a.add t n)

theorem readArgument_eq (h : consume p = .ok (true, p₁)) (hne : p₁.token.kind ≠ .eof) :
    readArgument a p = .ok (a.after p₁.token, p₁) := by
  unfold readArgument
  refine bind_eq_ok.mpr ⟨true, p₁, h,
    bind_eq_ok.mpr ⟨p₁, p₁, get_eq_ok.mpr ⟨rfl, rfl⟩, ?_⟩⟩
  simp only [Bool.not_true, Bool.false_or, decide_eq_true_eq, if_neg hne]
  unfold Arguments.after
  generalize p₁.token.kind = kind
  generalize a.depth = depth
  cases kind <;> cases depth <;> rfl

/-- The end of the input is noticed before the token is. -/
theorem readArgument_eq_none (h : consume q = .ok (false, r)) :
    readArgument a q = .ok (.inr none, r) := by
  unfold readArgument
  exact bind_eq_ok.mpr ⟨false, r, h,
    bind_eq_ok.mpr ⟨r, r, get_eq_ok.mpr ⟨rfl, rfl⟩, rfl⟩⟩

theorem after_of_separates {done : List String} (h : separates (t, depth) = true) :
    (Arguments.of done run depth).after t =
      .inl (Arguments.of (done ++ [argumentText run]) [] (depthBehind depth t)) := by
  obtain ⟨hcomma, rfl⟩ : t.kind = .comma ∧ depth = 0 := by simpa [separates] using h
  rw [depthBehind_of_ne (by simp [hcomma]) (by simp [hcomma])]
  simp only [Arguments.after, hcomma, Arguments.of]
  rfl

theorem after_of_not_separates {done : List String} (hclose : t.kind = .parenClose → 0 < depth)
    (h : separates (t, depth) = false) :
    (Arguments.of done run depth).after t
      = .inl (Arguments.of done (run ++ [t]) (depthBehind depth t)) := by
  have hcomma : t.kind = .comma → depth ≠ 0 := by simpa [separates] using h
  rw [← Arguments.add_of]
  unfold Arguments.after
  rw [show (Arguments.of done run depth).depth = depth from rfl]
  split
  case h_1 hkind hdepth => exact absurd hdepth (hcomma hkind)
  case h_2 hkind => rw [depthBehind_of_open hkind]
  case h_3 hkind hdepth => exact absurd hdepth (hclose hkind).ne'
  case h_4 n hkind hdepth => rw [depthBehind_of_close hkind, hdepth, Nat.succ_sub_one]
  case h_5 hopen _ hzero hsucc =>
    have hclose : t.kind ≠ .parenClose := fun hkind => by cases depth <;> simp_all
    rw [depthBehind_of_ne hopen hclose]

theorem after_of_close {done : List String} (hclose : t.kind = .parenClose) :
    (Arguments.of done run 0).after t = .inr (some (done ++ [argumentText run])) := by
  simp only [Arguments.after, hclose, Arguments.of]
  rfl

/-- Reading the rest of a call adds to the arguments that were finished, and to the one
that was begun. -/
theorem repeatWith_readArgument {done : List String} (hconsumes : Consumes p ts q)
    (hts : Balanced depth ts) (hlast : consume q = .ok (more, r))
    (hclose : r.token.kind = .parenClose) (hfuel : ts.length < fuel) :
    repeatWith readArgument fuel (Arguments.of done run depth) p =
      .ok (if more then some (done ++ ((runs depth ts).modifyHead (run ++ ·)).map argumentText)
        else none, r) := by
  -- By induction on the tokens read. The depth is generalized, since a parenthesis changes what
  -- a comma behind it does.
  induction hconsumes generalizing done run depth fuel with
  | @nil p =>
    obtain ⟨fuel, rfl⟩ := Nat.exists_eq_succ_of_ne_zero (Nat.ne_zero_of_lt hfuel)
    obtain rfl : depth = 0 := hts
    have hround : readArgument (Arguments.of done run 0) p =
        .ok (.inr (if more then some (done ++ [argumentText run]) else none), r) := by
      cases more with
      | true => rw [readArgument_eq hlast (by simp [hclose]), after_of_close hclose, if_pos rfl]
      | false => exact readArgument_eq_none hlast
    refine bind_eq_ok.mpr ⟨_, _, hround, ?_⟩
    simp [pure, StateT.pure, Except.pure]
  | @cons p p₁ q ts h hne _ ih =>
    obtain ⟨fuel, rfl⟩ := Nat.exists_eq_succ_of_ne_zero (Nat.ne_zero_of_lt hfuel)
    have hfuel : ts.length < fuel := Nat.lt_of_succ_lt_succ hfuel
    obtain ⟨hopen, hts⟩ := hts
    cases hsep : separates (p₁.token, depth) with
    | true =>
      have hround := (readArgument_eq (a := Arguments.of done run depth) h hne).trans
        (by rw [after_of_separates hsep])
      refine bind_eq_ok.mpr ⟨_, _, hround, (ih hts hlast hfuel).trans ?_⟩
      simp only [runs_of_separates hsep, modifyHead_nil_append, List.modifyHead_cons,
        List.append_nil, List.map_cons, List.append_assoc, List.singleton_append]
    | false =>
      have hround := (readArgument_eq (a := Arguments.of done run depth) h hne).trans
        (by rw [after_of_not_separates hopen hsep])
      refine bind_eq_ok.mpr ⟨_, _, hround, (ih hts hlast hfuel).trans ?_⟩
      simp [runs_of_not_separates hsep, List.modifyHead_modifyHead, Function.comp_def]

theorem Finish.stack_ne_nil {level : Nat} (h : Finish level q false r) : r.stack ≠ [] := by
  generalize hb : false = b at h
  cases h with
  | goesOn heof =>
    intro hnil
    simp [nextKind, hnil] at heof
  | reports _ _ hget =>
    intro hnil
    simp_all [withInput]
  | ends => cases hb

/-- Something is left to read unless the stack was emptied. -/
theorem popFinished_true_iff {level : Nat} (h : popFinished level q = .ok (more, r)) :
    more = true ↔ r.stack ≠ [] := by
  induction level generalizing q with
  | zero =>
    unfold popFinished at h
    obtain ⟨finished, q₁, hfinish, h⟩ := bind_eq_ok.mp h
    cases finished with
    | false =>
      obtain ⟨rfl, rfl⟩ := pure_eq_ok.mp h
      exact iff_of_true rfl (isFinished_eq_ok.mp hfinish).stack_ne_nil
    | true =>
      obtain ⟨_, _, hempty, h⟩ := bind_eq_ok.mp h
      obtain rfl := modify_eq_ok.mp hempty
      obtain ⟨rfl, rfl⟩ := pure_eq_ok.mp h
      exact iff_of_false Bool.false_ne_true (not_not.mpr rfl)
  | succ level ih =>
    unfold popFinished at h
    obtain ⟨finished, q₁, hfinish, h⟩ := bind_eq_ok.mp h
    cases finished with
    | false =>
      obtain ⟨rfl, rfl⟩ := pure_eq_ok.mp h
      exact iff_of_true rfl (isFinished_eq_ok.mp hfinish).stack_ne_nil
    | true =>
      obtain ⟨_, _, _, h⟩ := bind_eq_ok.mp h
      exact ih h

theorem consume_true_iff (h : consume q = .ok (more, r)) : more = true ↔ r.stack ≠ [] := by
  cases hget : q.stack[q.nextLevel]? with
  | some input =>
    rw [consume_of_some hget] at h
    unfold noted at h
    split at h
    · obtain ⟨_, _, _, h⟩ := bind_eq_ok.mp h
      exact popFinished_true_iff h
    · exact popFinished_true_iff h
  | none =>
    by_cases hstack : q.stack = []
    · rw [consume_of_nil hstack] at h
      cases h
      exact iff_of_false Bool.false_ne_true (not_not.mpr hstack)
    · rw [consume_of_none hstack hget] at h
      cases h

/-- The arguments of a call are the texts of the runs between its commas, and what is read
is the call, up to the parenthesis that closes it. At the very end of the text the call
counts as broken off. -/
theorem collectArguments_eq (hconsumes : Consumes p ts q) (hts : Balanced 0 ts)
    (hlast : consume q = .ok (more, r))
    (hclose : r.token.kind = .parenClose) (hfuel : ts.length < fuel) :
    collectArguments fuel p
      = .ok (if r.stack = [] then none else some ((runs 0 ts).map argumentText), r) := by
  have hcall : repeatWith readArgument fuel (Arguments.of [] [] 0) p = _ :=
    repeatWith_readArgument hconsumes hts hlast hclose hfuel
  rw [modifyHead_nil_append, List.nil_append] at hcall
  by_cases hstack : r.stack = []
  · rw [if_neg ((consume_true_iff hlast).not.mpr (not_not.mpr hstack))] at hcall
    rwa [if_pos hstack]
  · rw [if_pos ((consume_true_iff hlast).mpr hstack)] at hcall
    rwa [if_neg hstack]

end ShaderEffect.Preprocessor

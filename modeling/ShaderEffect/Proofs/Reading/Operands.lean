import ShaderEffect.Parser.Operation
import ShaderEffect.Proofs.Reading.Types

namespace ShaderEffect
namespace Parser
namespace Nonterminal

/-- How many parts of the grammar can begin where this one begins, besides itself. -/
def rank : Nonterminal → Nat
  | unary => 0
  | multary _ => 1
  | assignment => 2
  | sequence => 3
  | statement _ => 4
  | declaration => 5

/-- Whether a part certainly costs a token where it begins, even if it is wrong. -/
def Opens (r : Reader) : Nonterminal → Prop
  | unary | multary _ | assignment | sequence => r.Opens
  | statement _ => False
  | declaration => r.next.kind ≠ .eof

/-- What counts as a result that reading goes on with. -/
def isGood : (n : Nonterminal) → n.Value → Prop
  | unary | multary _ | assignment | sequence => fun e => e.isSome = true
  | statement _ | declaration => fun ok => ok = true

end Nonterminal

end Parser

/-- What parsing a part does that may end where a type was looked for in vain. -/
structure Pends {β : Type} (r : Reader) (g : Generator β) (r' : Reader) (g' : Generator β) :
    Prop where
  wavers : r.Wavers r'
  sane : Sane r' g'
  structs : g.structs ⊆ g'.structs

section

variable {β : Type} {r r₁ r' : Reader} {g g₁ g' : Generator β}

theorem Advances.pends (h : Advances r g r' g') : Pends r g r' g' :=
  ⟨h.leads.wavers, h.sane, h.structs⟩

theorem Advances.trans_pends (h : Advances r g r₁ g₁) (h' : Pends r₁ g₁ r' g') :
    Pends r g r' g' :=
  ⟨h.leads.trans_wavers h'.wavers, h'.sane, fun _ hd => h'.structs (h.structs hd)⟩

theorem Reader.Tries.pends (h : r.Tries r') (hg : Sane r g) : Pends r g r' g :=
  ⟨h.toWavers, hg.of_keeps h.structs, fun _ hd => hd⟩

/-- Once the name that was returned to is read, the part is complete. -/
theorem Pends.advances (h : Pends r g r₁ g₁) (h' : Advances r₁ g₁ r' g')
    (hname : r₁.AtName → r'.left < r₁.left) :
    Advances r g r' g' :=
  ⟨h.wavers.leads h'.leads hname, h'.sane, fun _ hd => h'.structs (h.structs hd)⟩

theorem Pends.stays (h : Pends r g r₁ g₁) (h' : r₁.Stays r') : Pends r g r' g₁ :=
  ⟨h.wavers.stays h', h.sane.of_keeps fun e he _ => ⟨e, h'.symbols ▸ he, rfl⟩, h.structs⟩

theorem Parser.TypeRead.advances {t : Ty} (h : Parser.TypeRead (some t) r r') (hg : Sane r g) :
    Advances r g r' g :=
  ⟨h.leads, hg.of_keeps h.tries.structs, fun _ hd => hd⟩

theorem Parser.TypeParsed.advances {t : Ty} (h : Parser.TypeParsed (some t) r r') (hg : Sane r g) :
    Advances r g r' g :=
  ⟨(h.leads rfl).1, hg.of_keeps h.tries.structs, fun _ hd => hd⟩

theorem Reader.AtName.ne_eof {r : Reader} (h : r.AtName) : r.next.kind ≠ .eof := by
  rcases h with h | h <;> rw [h] <;> nofun

/-- Skipping passes the name. -/
theorem Pends.skip (h : Pends r g r₁ g₁) (hr : r.left < r.rounds) {kind : Token.Kind} :
    Ends (Parser.consumeUntil kind) r₁ fun _ r' =>
      Advances r g r' g₁
        ∧ r'.left ≤ r₁.left ∧ (r₁.next.kind ≠ .eof → r'.left < r₁.left) :=
  (Parser.consumeUntil_ends (h.wavers.ready hr)).mono fun _ _ ⟨hmoves, hlt⟩ =>
    ⟨h.advances (hmoves.advances h.sane) fun hname => hlt hname.ne_eof, hmoves.left, hlt⟩

end

/-- Behind a token that is not the end of the text, there is room for whatever follows. -/
theorem Concludes.behind {α β : Type} [Backend β] [Outcome α] {bound : Nat}
    {f : Unit → ParseM α} (hf : Wanders β bound .some (f ())) {s : Surroundings} {r : Reader}
    {g : Generator β} (hdepth : 6 * r.left ≤ bound) (hr : r.left < r.rounds) (hg : Sane r g)
    (hend : r.next.kind ≠ .eof) :
    Concludes (Parser.consume >>= f) s r g fun _ r' g' =>
      Advances r g r' g' ∧ r'.left < r.left := by
  refine Concludes.bind_read (Parser.consume_ends (Q := fun _ r' => r' = r.consumed) rfl) ?_
  rintro _ _ rfl
  have hlt := Reader.left_consumed_lt hend
  have hadv := r.moves_consumed.advances hg
  refine Concludes.of_wanders .some hf (.of_lt hdepth hr hadv.leads hlt) hadv.sane
    fun a r' g' h _ => ?_
  exact ⟨hadv.trans h, Nat.lt_of_le_of_lt h.leads.left hlt⟩

/-- Goes on behind a token that is asked for, where there is room only behind it. -/
theorem Concludes.afterToken {α β : Type} [Backend β] [Outcome α] {bound : Nat}
    {kind : Token.Kind} {f : Bool → ParseM α} (hkind : kind ≠ .eof)
    (htrue : Wanders β bound .some (f true)) {s : Surroundings} {r : Reader} {g : Generator β}
    {Q : α → Reader → Generator β → Prop} (hdepth : 6 * r.left ≤ bound)
    (hr : r.left < r.rounds) (hg : Sane r g)
    (hQ : ∀ a r' g', Advances r g r' g' → r'.left < r.left → Q a r' g')
    (hfalse : r.next.kind ≠ kind → Concludes (f false) s r g Q) :
    Concludes (Parser.accept kind >>= f) s r g Q := by
  refine Concludes.bind_read
    (Parser.accept_ends (Q := fun c r' => if c = true then r.next.kind = kind ∧ r' = r.consumed
    else r.next.kind ≠ kind ∧ r' = r) (fun h => ⟨h, rfl⟩) fun h => ⟨h, rfl⟩) ?_
  rintro (_ | _) r₁ ⟨hnext, rfl⟩
  · exact hfalse hnext
  · have hlt := Reader.left_consumed_lt (r := r) (hnext ▸ hkind)
    have hadv := r.moves_consumed.advances hg
    exact Concludes.of_wanders .some htrue (.of_lt hdepth hr hadv.leads hlt) hadv.sane
      fun a r' g' h _ =>
      hQ a r' g' (hadv.trans h) (Nat.lt_of_le_of_lt h.leads.left hlt)

/-- Goes on behind a part that may end where a type was looked for: what follows
skips from there. -/
theorem Concludes.behindPending {α β γ : Type} [Backend β] [Outcome α] {bound : Nat}
    (kind : Token.Kind) (last : ParseM α) {x : ParseM (Option γ)} {f : Option γ → ParseM α}
    (hnone : f none = do Parser.consumeUntil kind; last) (hlast : Wanders β bound .stopping last)
    (hsome : ∀ c, Wanders β bound .some (f (some c))) {s : Surroundings} {r : Reader}
    {g : Generator β} (hr : Ready bound r) (hx : Concludes x s r g fun found r' g' =>
      Pends r g r' g' ∧ (found.isSome → Advances r g r' g' ∧ r'.left < r.left)) :
    Concludes (x >>= f) s r g
      fun a r' g' => Advances r g r' g' ∧ Progress.consuming.Holds a r r' := by
  refine hx.bind fun found r₁ g₁ ⟨hpends, hfound⟩ => ?_
  cases found with
  | none =>
    rw [hnone]
    refine Concludes.bind_read (hpends.skip hr.rounds) fun _ r₂ ⟨hadv, _⟩ => ?_
    exact Concludes.of_wanders .stopping hlast (hr.leads hadv.leads) hadv.sane fun a r' g' h hp =>
      ⟨hadv.trans h, fun ha => absurd ha hp⟩
  | some c =>
    obtain ⟨hadv, hlt⟩ := hfound rfl
    exact Concludes.of_wanders .some (hsome c) (hr.leads hadv.leads) hadv.sane fun a r' g' h _ =>
      ⟨hadv.trans h, fun _ => Nat.lt_of_le_of_lt h.leads.left hlt⟩

/-- Whether the parts that lie inside of others end, where their nesting is at most `bound` deep. -/
class Tame (β : Type) [Backend β] (bound : Nat) (recurse : Parser.Recurse) : Prop where
  ends : ∀ (n : Parser.Nonterminal) ⦃s : Surroundings⦄ ⦃r : Reader⦄
    ⦃g : Generator β⦄, 6 * r.left + n.rank < bound →
      r.left < r.rounds → Sane r g → Concludes (recurse n) s r g fun a r' g' =>
        Advances r g r' g' ∧ (n.isGood a ∨ n.Opens r → r'.left < r.left)

variable {β : Type} [Backend β] {bound : Nat} {recurse : Parser.Recurse}

namespace Parser

variable {p : Progress} [p.Proceeds]

section

variable [h : Tame β bound recurse]

/-- Behind a token, there is room for every part of the grammar. -/
theorem recurse_ends (n : Nonterminal) {s : Surroundings} {r : Reader} {g : Generator β}
    (hr : Ready bound r) (hg : Sane r g) : Concludes (recurse n) s r g fun a r' g' =>
      Advances r g r' g' ∧ (n.isGood a → r'.left < r.left) := by
  have hrank : n.rank ≤ 5 := by cases n <;> simp only [Nonterminal.rank] <;> omega
  have hdepth := hr.depth
  exact (h.ends n (by omega) hr.rounds hg).mono fun a r' g' ⟨hadv, hlt⟩ =>
    ⟨hadv, fun ha => hlt (.inl ha)⟩

instance unary_wanders : Wanders β bound p (recurse .unary : ParseM (Option Expression)) :=
  .of_consuming ⟨fun _ _ _ => recurse_ends .unary⟩

instance multary_wanders {strength : Nat} :
    Wanders β bound p (recurse (.multary strength) : ParseM (Option Expression)) :=
  .of_consuming ⟨fun _ _ _ => recurse_ends (.multary strength)⟩

instance assignment_wanders :
    Wanders β bound p (recurse .assignment : ParseM (Option Expression)) :=
  .of_consuming ⟨fun _ _ _ => recurse_ends .assignment⟩

instance sequence_wanders : Wanders β bound p (recurse .sequence : ParseM (Option Expression)) :=
  .of_consuming ⟨fun _ _ _ => recurse_ends .sequence⟩

instance statement_wanders {newScope : Bool} :
    Wanders β bound p (recurse (.statement newScope) : ParseM Bool) :=
  .of_consuming ⟨fun _ _ _ => recurse_ends (.statement newScope)⟩

instance declaration_wanders : Wanders β bound p (recurse .declaration : ParseM Bool) :=
  .of_consuming ⟨fun _ _ _ => recurse_ends .declaration⟩

end

variable [Tame β bound recurse] [Backend.Lasting β]

instance : Wanders β bound .consuming (parseInParentheses recurse) := by
  unfold parseInParentheses
  infer_instance

instance : Wanders β bound .some (parseElse recurse) := by
  unfold parseElse
  infer_instance

end Parser
end ShaderEffect

namespace ShaderEffect.Parser

-- The parser's longer parts consist of more than a hundred steps.

variable {β : Type} [Backend β] [Backend.Lasting β] {bound : Nat} {recurse : Recurse}
  {p : Progress}

instance warnTruncation_reads {e : Expression} {t : Ty} : Reads .some (warnTruncation e t) := by
  unfold warnTruncation
  infer_instance

instance load_wanders {e : Expression} : Wanders β bound .some (load e) := by
  unfold load
  infer_instance

instance applyStep_wanders {location : Location} {kind : Token.Kind} {e : Expression} {value : Id} :
    Wanders β bound .some (applyStep location kind e value) := by
  unfold applyStep
  infer_instance

instance parseStepBehind_wanders {location : Location} {kind : Token.Kind} {e : Expression} :
    Wanders β bound .some (parseStepBehind location kind e) := by
  unfold parseStepBehind
  infer_instance

instance invalidSubscript_reads {location : Location} {subscript reason : String} :
    Reads .some (invalidSubscript location subscript reason) := by
  unfold invalidSubscript
  infer_instance

instance swizzle_reads {e : Expression} {location : Location} {subscript : String}
    {lanes : Except String (List Nat)} : Reads .some (swizzle e location subscript lanes) := by
  unfold swizzle
  split <;> infer_instance

instance selectMember_wanders {e : Expression} {location : Location} {name : String} :
    Wanders β bound .some (selectMember e location name) := by
  unfold selectMember
  refine .andThen fun decl => ?_
  dsimp only
  split <;> infer_instance

set_option synthInstance.maxSize 65536 in
instance parseMember_wanders {e : Expression} : Wanders β bound .some (parseMember e) := by
  unfold parseMember
  dsimp only
  infer_instance

instance selectConstant_reads {e index : Expression} : Reads .some (selectConstant e index) := by
  unfold selectConstant
  infer_instance

instance selectDynamic_wanders {e index : Expression} :
    Wanders β bound .some (selectDynamic e index) := by
  unfold selectDynamic
  infer_instance

section

variable [htame : Tame β bound recurse]

instance parseIndex_wanders {e : Expression} : Wanders β bound .some (parseIndex recurse e) := by
  unfold parseIndex
  infer_instance

instance applyUnary_wanders {location : Location} {op : UnaryOp} {e : Expression} :
    Wanders β bound .some (applyUnary location op e) := by
  unfold applyUnary
  infer_instance

instance parseCast_wanders {location : Location} {t : Ty} :
    Wanders β bound .some (parseCast recurse location t) := by
  unfold parseCast
  infer_instance

instance giveUpElements_reads : Reads p giveUpElements :=
  .of_stopping (by unfold giveUpElements; infer_instance)

instance addElement_reads {s : Elements} {e : Expression} : Reads .some (addElement s e) := by
  unfold addElement
  dsimp only
  infer_instance

set_option synthInstance.maxSize 65536 in
instance parseElement_consumes {s : Elements} :
    Wanders β bound .consuming (parseElement recurse s) := by
  unfold parseElement
  infer_instance

/-- Reads one thing that follows an operand. -/
def postfixRound (recurse : Recurse) (e : Expression) :
    ParseM (Expression ⊕ Option Expression) := do
  let proceed (r : Option Expression) : Expression ⊕ Option Expression :=
    match r with
    | some e => .inl e
    | none => .inr none
  let t ← nextToken
  match t.kind with
  | .plusPlus | .minusMinus =>
    consume
    return proceed (← parseStepBehind t.location t.kind e)
  | .dot =>
    consume
    return proceed (← parseMember e)
  | .bracketOpen =>
    consume
    return proceed (← parseIndex recurse e)
  | _ => return .inr (some e)

theorem parsePostfix_eq (e : Expression) :
    parsePostfix recurse e = loop (postfixRound recurse) e := rfl

instance postfixRound_consumes {e : Expression} :
    Wanders β bound .consuming (postfixRound recurse e) where
  ends s r g hr hg := by
    have hdepth : 6 * r.left ≤ bound := by have := hr.depth; omega
    refine Concludes.bind_read
      (nextToken_ends (Q := fun t r' => t = r.next ∧ r' = r) ⟨rfl, rfl⟩) ?_
    rintro _ r ⟨rfl, rfl⟩
    dsimp only
    split
    all_goals first
      | exact Concludes.pure ⟨.refl hg, nofun⟩
      | exact (Concludes.behind inferInstance hdepth hr.rounds hg (by simp_all)).mono
          fun _ _ _ ⟨h, hlt⟩ => ⟨h, fun _ => hlt⟩

instance parsePostfix_wanders {e : Expression} :
    Wanders β bound .some (parsePostfix recurse e) := by
  rw [parsePostfix_eq]
  infer_instance

instance prepareArgument_wanders {isUser : Bool} {arg : Expression} {t : Ty} :
    Wanders β bound .some (prepareArgument isUser arg t) := by
  unfold prepareArgument
  infer_instance

instance prepareArguments_wanders {isUser : Bool} {args : List (Expression × Member)} :
    Wanders β bound .some (prepareArguments isUser args) := by
  induction args with
  | nil => exact .pure
  | cons first rest ih =>
    unfold prepareArguments
    infer_instance

instance emitCall_wanders {location : Location} {symbol : Symbol} {args : List Expression} :
    Wanders β bound .some (emitCall location symbol args) := by
  unfold emitCall
  refine .andThenSome (fun pairs => ?_) inferInstance
  refine .andThen fun _ => ?_
  dsimp only
  split <;> infer_instance

/-- Reads an argument and looks at it. -/
def argumentsRound (recurse : Recurse) (close : Token.Kind) (check : Expression → ParseM Bool)
    (args : List Expression) : ParseM (List Expression ⊕ Option (List Expression)) := do
  if ← peek close then return .inr (some args)
  if !args.isEmpty then
    if !(← expect .comma) then return .inr none
  let some arg ← recurse .assignment | return .inr none
  if ← check arg then return .inl (args ++ [arg]) else return .inr none

theorem parseArguments_eq (close : Token.Kind) (check : Expression → ParseM Bool) :
    parseArguments recurse close check = loop (argumentsRound recurse close check) [] := rfl

instance argumentsRound_consumes {close : Token.Kind} {check : Expression → ParseM Bool}
    [∀ arg, Wanders β bound .some (check arg)] {args : List Expression} :
    Wanders β bound .consuming (argumentsRound recurse close check args) := by
  unfold argumentsRound
  infer_instance

instance parseArguments_wanders {close : Token.Kind} {check : Expression → ParseM Bool}
    [∀ arg, Wanders β bound .some (check arg)] :
    Wanders β bound .some (parseArguments recurse close check) := by
  rw [parseArguments_eq]
  infer_instance

set_option synthInstance.maxSize 65536 in
instance parseCall_wanders {n : Named} {location : Location} :
    Wanders β bound .some (parseCall recurse n location) := by
  unfold parseCall
  dsimp only
  infer_instance

instance parsePrefix_wanders {kind : Token.Kind} {location : Location} :
    Wanders β bound .some (parsePrefix recurse kind location) := by
  unfold parsePrefix
  refine .andThenSome (fun e => ?_) inferInstance
  dsimp only
  split
  · infer_instance
  split <;> infer_instance

instance arrayOf_wanders {location : Location} {s : Elements} :
    Wanders β bound .some (arrayOf location s) := by
  unfold arrayOf
  infer_instance

instance parseInitializerList_wanders {location : Location} :
    Wanders β bound .some (parseInitializerList recurse location) := by
  unfold parseInitializerList
  infer_instance

instance {base : Base} {args : List Expression} : Bounded (constantComponents base args) := by
  unfold constantComponents
  infer_instance

instance {arg : Expression} {row col : Nat} : Bounded (componentAt arg row col) := by
  unfold componentAt
  infer_instance

instance loadComponents_wanders {base : Base} {arg : Expression} :
    Wanders β bound .some (loadComponents base arg) := by
  unfold loadComponents
  infer_instance

instance construct_wanders {location : Location} {t : Ty} {args : List Expression} :
    Wanders β bound .some (construct location t args) := by
  unfold construct
  split
  · infer_instance
  · split <;> infer_instance

set_option synthInstance.maxSize 65536 in
instance parseConstructor_wanders {t : Ty} {location : Location} :
    Wanders β bound .some (parseConstructor recurse t location) := by
  unfold parseConstructor
  dsimp only
  infer_instance

/-- A name is read even if it cannot be used. -/
theorem parseIdentifier_ends {location : Location} {s : Surroundings} {r : Reader}
    {g : Generator β} (hdepth : 6 * r.left ≤ bound) (hr : r.left < r.rounds) (hg : Sane r g) :
    Concludes (parseIdentifier recurse location) s r g fun e r' g' =>
      Advances r g r' g' ∧ (e.isSome ∨ r.AtName → r'.left < r.left) := by
  refine Concludes.bind_read ((acceptSymbol_consumes.ends hr).and (acceptSymbol_ends hr)) ?_
  rintro found r₁ ⟨⟨hmoves, hlt⟩, hname, -⟩
  have hadv := hmoves.advances hg
  cases found with
  | none => exact Concludes.pure ⟨hadv, fun h => hname (h.resolve_left nofun)⟩
  | some n =>
    have hlt : r₁.left < r.left := hlt rfl
    refine Concludes.of_wanders .some ?_ (.of_lt hdepth hr hadv.leads hlt) hadv.sane
      fun e r' g' h _ =>
      ⟨hadv.trans h, fun _ => Nat.lt_of_le_of_lt h.leads.left hlt⟩
    refine .andThen fun isCall => ?_
    split
    · infer_instance
    · split <;> infer_instance

/-- Reads a string literal. -/
def stringsRound (s : String) : ReadM (String ⊕ String) := do
  if ← accept .stringLiteral then return .inl (s ++ (← currentToken).text) else return .inr s

theorem parseStrings_eq : parseStrings = readLoop stringsRound "" := rfl

/-- A round either consumes a literal or finds none. -/
theorem stringsRound_ends {text : String} {r : Reader} : Ends (stringsRound text) r fun c r' =>
    r.Moves r' ∧ (r'.left < r.left ∨ c = .inr text ∧ r.next.kind ≠ .stringLiteral) := by
  refine Ends.bind (accept_ends (Q := fun c r' => r.Moves r' ∧
    if c = true then r'.left < r.left else r.next.kind ≠ .stringLiteral)
    (fun h => ⟨r.moves_consumed, Reader.left_consumed_lt (h ▸ nofun)⟩)
    fun h => ⟨.refl r, h⟩) ?_
  rintro (_ | _) r₁ ⟨hmoves, hr₁⟩
  · exact Ends.pure ⟨hmoves, .inr ⟨rfl, hr₁⟩⟩
  · exact Ends.of_ok rfl ⟨hmoves, .inl hr₁⟩

/-- Where there is a literal, it is read. -/
theorem parseStrings_ends {r : Reader} (hr : r.left < r.rounds)
    (hkind : r.next.kind = .stringLiteral) :
    Ends parseStrings r fun _ r' => r.Moves r' ∧ r'.left < r.left := by
  show Ends (repeatWith stringsRound r.rounds "") r _
  refine Ends.repeatWith (fun _ r' => r'.left)
    (fun _ r' => r.Moves r' ∧ (r' = r ∨ r'.left < r.left)) ?_ _ _ _ ⟨.refl r, .inl rfl⟩ hr
  rintro text r₁ ⟨hmoves, hr₁⟩
  refine stringsRound_ends.mono fun c r' ⟨hmoves', h⟩ => ?_
  obtain hlt | ⟨rfl, hne⟩ := h
  · have hlt' := Nat.lt_of_lt_of_le hlt hmoves.left
    cases c with
    | inl text => exact ⟨⟨hmoves.trans hmoves', .inr hlt'⟩, hlt⟩
    | inr text => exact ⟨hmoves.trans hmoves', hlt'⟩
  · obtain rfl | hlt := hr₁
    · exact absurd hkind hne
    · exact ⟨hmoves.trans hmoves', Nat.lt_of_le_of_lt hmoves'.left hlt⟩

/-- A constructor that follows a parenthesis is read from the parenthesis on once more. -/
instance parseParenthesized_wanders {location : Location} :
    Wanders β bound .some (parseParenthesized recurse location) where
  ends s r g hr hg := by
    unfold parseParenthesized
    let r₀ : Reader := { r with savedNext := r.next, savedCursor := r.cursor }
    refine Concludes.bind_read (Ends.of_ok (Q := fun _ r' => r' = r₀) rfl rfl) ?_
    rintro _ _ rfl
    refine Concludes.bind_read (acceptType_ends hr.rounds) fun type r₁ htype => ?_
    refine Concludes.bind_read (peek_ends (Q := fun _ r' => r' = r₁) rfl)
      fun isConstructor r' hr' => ?_
    obtain rfl := hr'.symm
    extract_lets rest
    -- What is read behind the attempt to read a type, whose place is passed with the first token of
    -- it.
    have hrest (r₂ : Reader) (hr₂ : Ready bound r₂) (hkeeps : r.KeepsStructs r₂)
        (hleads : ∀ r', r₂.Leads r' → (r₂.Opens → r'.left < r₂.left) → r.Leads r') :
        Concludes (rest ()) s r₂ g fun e r' g' =>
          Advances r g r' g' ∧ Progress.some.Holds e r r' := by
      have hdepth := hr₂.depth
      refine (htame.ends .sequence (show 6 * r₂.left + 3 < bound by omega) hr₂.rounds
        (hg.of_keeps hkeeps)).bind fun e r₃ g₃ ⟨h, hlt⟩ => ?_
      have hadv : Advances r g r₃ g₃ :=
        ⟨hleads r₃ h.leads fun hopens => hlt (.inr hopens), h.sane, h.structs⟩
      refine Concludes.of_wanders .some ?_ (hr.leads hadv.leads) hadv.sane
        fun e' r' g' h' _ => ⟨hadv.trans h', trivial⟩
      split <;> infer_instance
    cases type with
    | none =>
      have hleft₁ : r₁.left ≤ r.left := htype.tries.left
      refine hrest r₁ ⟨by have := hr.depth; omega, htype.tries.ready hr.rounds⟩
        htype.tries.structs ?_
      intro r' hr' hlt
      refine .of_saved r₀ rfl rfl (Nat.le_refl _)
        (htype.tries.leads hr' fun hname => hlt hname.opens) fun hopens => ?_
      exact htype.lt hopens hr'.left fun hname => hlt hname.opens
    | some t =>
      obtain ⟨hlt, hopens⟩ := htype.consumed rfl
      have hsaved : r₁.saved = (r.next, r.cursor) := by
        have h := htype.saved t rfl
        split at h <;> exact h
      dsimp only
      split
      · have hleads : r.Leads r₁ :=
          .of_saved r₀ rfl rfl (Nat.le_refl _) htype.leads fun _ => hlt
        have hadv : Advances r g r₁ g :=
          ⟨hleads, hg.of_keeps htype.tries.structs, fun _ hd => hd⟩
        exact Concludes.of_wanders .some inferInstance (hr.leads hleads) hadv.sane
          fun e r' g' h _ =>
          ⟨hadv.trans h, trivial⟩
      · let r₂ : Reader := { r₁ with next := r₁.savedNext, cursor := r₁.savedCursor }
        have hnext : r₂.next = r.next := congrArg Prod.fst hsaved
        have hleft : r₂.left = r.left := congrArg (fun place : Token × Token.Cursor =>
          Token.remaining place.1 place.2) hsaved
        refine Concludes.bind_read (Ends.of_ok (Q := fun _ r' => r' = r₂) rfl rfl) ?_
        rintro _ _ rfl
        refine hrest r₂ ⟨hleft ▸ hr.depth, hleft ▸ htype.tries.rounds ▸ hr.rounds⟩
          htype.tries.structs fun r' h hlt => ?_
        refine .of_saved r₂ hsaved htype.tries.rounds (Nat.le_of_eq hleft) h
          fun _ => hleft ▸ hlt ?_
        rwa [Reader.Opens, hnext]

theorem literal_kind_ne_eof {location : Location} {t : Token} {e : Expression}
    (h : literal? location t = some e) :
    t.kind ≠ .eof := by
  intro heof
  rw [literal?, heof] at h
  cases h

/-- An operand costs a token. So does what could be a type, even if it is wrong. -/
theorem parseOperand_ends {s : Surroundings} {r : Reader} {g : Generator β}
    (hdepth : 6 * r.left ≤ bound)
    (hr : r.left < r.rounds) (hg : Sane r g) : Concludes (parseOperand recurse) s r g fun c r' g' =>
      Advances r g r' g' ∧ (c.1.isSome ∨ r.Opens → r'.left < r.left) := by
  have hbehind {f : Unit → ParseM (Option Expression × Bool)}
      (hf : Wanders β bound .some (f ()))
      (hend : r.next.kind ≠ .eof) : Concludes (consume >>= f) s r g fun c r' g' =>
        Advances r g r' g' ∧ (c.1.isSome ∨ r.Opens → r'.left < r.left) :=
    (Concludes.behind hf hdepth hr hg hend).mono fun _ _ _ ⟨h, hlt⟩ => ⟨h, fun _ => hlt⟩
  unfold parseOperand
  refine Concludes.bind_read
    (nextToken_ends (Q := fun t r' => t = r.next ∧ r' = r) ⟨rfl, rfl⟩) ?_
  rintro _ r ⟨rfl, rfl⟩
  dsimp only
  split
  case h_9 =>
    refine Concludes.bind_read (parseStrings_ends hr ‹_›) fun text r' ⟨hmoves, hlt⟩ => ?_
    exact Concludes.pure ⟨hmoves.advances hg, fun _ => hlt⟩
  all_goals try exact hbehind inferInstance (by simp_all)
  split
  · exact hbehind inferInstance (literal_kind_ne_eof ‹_›)
  · refine Concludes.bind_read (acceptType_ends hr) fun type r₁ htype => ?_
    have hsane := hg.of_keeps htype.tries.structs
    cases type with
    | some type =>
      obtain ⟨hlt, -⟩ := htype.consumed rfl
      have hadv := htype.advances hg
      refine Concludes.of_wanders .some inferInstance (.of_lt hdepth hr htype.leads hlt) hsane
        fun c r' g' h _ =>
        ⟨hadv.trans h, fun _ => Nat.lt_of_le_of_lt h.leads.left hlt⟩
    -- No type was read, but tokens may be gone that could have been one, so that what is left
    -- is measured behind them.
    | none =>
      have hdepth₁ : 6 * r₁.left ≤ bound := by have := htype.tries.left; omega
      refine (parseIdentifier_ends hdepth₁ (htype.tries.ready hr) hsane).bind
        fun e r' g' ⟨h, hlt⟩ => ?_
      have hname (hname : r₁.AtName) := hlt (.inr hname)
      refine Concludes.pure ⟨⟨htype.tries.leads h.leads hname, h.sane, h.structs⟩,
        fun hc => ?_⟩
      obtain he | hopens := hc
      · exact Nat.lt_of_lt_of_le (hlt (.inl he)) htype.tries.left
      · exact htype.lt hopens h.leads.left hname

/-- What follows an operand may be missing. -/
theorem parseUnary_ends {s : Surroundings} {r : Reader} {g : Generator β}
    (hdepth : 6 * r.left ≤ bound)
    (hr : r.left < r.rounds) (hg : Sane r g) : Concludes (parseUnary recurse) s r g fun e r' g' =>
      Advances r g r' g' ∧ (e.isSome ∨ r.Opens → r'.left < r.left) := by
  refine (parseOperand_ends hdepth hr hg).bind fun c r₁ g₁ ⟨h, hlt⟩ => ?_
  split
  · have hlt := hlt (.inl rfl)
    exact Concludes.of_wanders .some inferInstance (.of_lt hdepth hr h.leads hlt) h.sane
      fun e r' g' h' _ =>
      ⟨h.trans h', fun _ => Nat.lt_of_le_of_lt h'.leads.left hlt⟩
  · exact Concludes.pure ⟨h, hlt⟩

end

instance canBranch_wanders {allowed : Bool} : Wanders β bound .some (canBranch allowed) := by
  unfold canBranch
  infer_instance

instance openRight_wanders : Wanders β bound .some openRight := by
  unfold openRight
  infer_instance

instance checkOperands_reads {op : BinaryOp} {l r : Expression} :
    Reads .some (checkOperands op l r) := by
  unfold checkOperands
  dsimp only
  split
  · infer_instance
  · split <;> split <;> infer_instance

set_option synthInstance.maxSize 65536 in
instance joinRight_wanders {b : Branches} {l r : Expression} {value leftValue : Id} {t : Ty} :
    Wanders β bound .some (joinRight b l r value leftValue t) := by
  unfold joinRight
  infer_instance

instance closeRight_wanders {b : Branches} {op : BinaryOp} {condition l r : Expression}
    {leftValue : Id} {t : Ty} :
    Wanders β bound .some (closeRight b op condition l r leftValue t) := by
  unfold closeRight
  infer_instance

instance {op : BinaryOp} {l r : Expression} : Bounded (foldConstants? op l r) := by
  unfold foldConstants?
  infer_instance

instance convertOperands_reads {op : BinaryOp} {l r : Expression} :
    Reads .some (convertOperands op l r) := by
  unfold convertOperands
  dsimp only
  infer_instance

instance applyBinary_wanders {op : BinaryOp} {l r : Expression} {leftValue : Id} {t : Ty} :
    Wanders β bound .some (applyBinary op l r leftValue t) := by
  unfold applyBinary
  dsimp only
  infer_instance

instance openArms_wanders : Wanders β bound .some openArms := by
  unfold openArms
  infer_instance

instance selectBoth_wanders {c yes no : Expression} {t : Ty} :
    Wanders β bound .some (selectBoth c yes no t) := by
  unfold selectBoth
  infer_instance

set_option synthInstance.maxSize 65536 in
instance selectOne_wanders {arms : Arms} {c yes no : Expression} {t : Ty} :
    Wanders β bound .some (selectOne arms c yes no t) := by
  unfold selectOne
  infer_instance

instance convertArms_reads {c yes no : Expression} : Reads .some (convertArms c yes no) := by
  unfold convertArms
  dsimp only
  infer_instance

instance assign_wanders {op : Option BinaryOp} {l r : Expression} :
    Wanders β bound .some (assign op l r) := by
  unfold assign
  cases op <;> infer_instance

section

variable [htame : Tame β bound recurse]

set_option synthInstance.maxSize 65536 in
instance parseBinary_wanders {op : BinaryOp} {l : Expression} :
    Wanders β bound .some (parseBinary recurse op l) := by
  unfold parseBinary
  dsimp only
  infer_instance

set_option synthInstance.maxSize 65536 in
instance parseConditional_wanders {c : Expression} :
    Wanders β bound .some (parseConditional recurse c) := by
  unfold parseConditional
  dsimp only
  infer_instance

/-- Reads an operator that binds tightly enough, with what stands behind it. -/
def multaryRound (recurse : Recurse) (strength : Nat) (e : Expression) :
    ParseM (Expression ⊕ Option Expression) := do
  let kind := (← nextToken).kind
  match operatorStrength? kind with
  | none => return .inr (some e)
  | some s =>
    if s ≤ strength then return .inr (some e)
    consume
    let r ←
      match BinaryOp.ofKind? kind with
      | some op => parseBinary recurse op e
      | none => parseConditional recurse e
    match r with
    | some e => return .inl e
    | none => return .inr none

theorem parseMultary_eq (strength : Nat) : parseMultary recurse strength = (do
    let some first ← recurse .unary | return none
    loop (multaryRound recurse strength) first) := rfl

theorem operatorStrength_eof : operatorStrength? .eof = none := rfl

instance multaryRound_consumes {strength : Nat} {e : Expression} :
    Wanders β bound .consuming (multaryRound recurse strength e) where
  ends s r g hr hg := by
    have hdepth : 6 * r.left ≤ bound := by have := hr.depth; omega
    refine Concludes.bind_read
      (nextToken_ends (Q := fun t r' => t = r.next ∧ r' = r) ⟨rfl, rfl⟩) ?_
    rintro _ r ⟨rfl, rfl⟩
    dsimp only
    split
    · exact Concludes.pure ⟨.refl hg, nofun⟩
    rename_i strength' hstrength
    have hend : r.next.kind ≠ .eof :=
      fun heof => by rw [heof, operatorStrength_eof] at hstrength; cases hstrength
    split
    · exact Concludes.pure ⟨.refl hg, nofun⟩
    refine (Concludes.behind ?_ hdepth hr.rounds hg hend).mono fun _ _ _ ⟨h, hlt⟩ =>
      ⟨h, fun _ => hlt⟩
    split <;> infer_instance

omit [Backend.Lasting β] in
/-- Goes on behind a first operand, which costs a token. -/
theorem behindFirst {x : ParseM (Option Expression)}
    {f : Option Expression → ParseM (Option Expression)}
    (hsome : ∀ e, Wanders β bound .some (f (some e))) (hnone : f none = pure none)
    {s : Surroundings} {r : Reader}
    {g : Generator β} (hdepth : 6 * r.left ≤ bound) (hr : r.left < r.rounds)
    (hx : Concludes x s r g
      fun e r' g' => Advances r g r' g' ∧ (e.isSome ∨ r.Opens → r'.left < r.left)) :
    Concludes (x >>= f) s r g
      fun e r' g' => Advances r g r' g' ∧ (e.isSome ∨ r.Opens → r'.left < r.left) := by
  refine hx.bind fun e r₁ g₁ ⟨h, hlt⟩ => ?_
  cases e with
  | none =>
    rw [hnone]
    exact Concludes.pure ⟨h, hlt⟩
  | some e =>
    have hlt := hlt (.inl rfl)
    exact Concludes.of_wanders .some (hsome e) (.of_lt hdepth hr h.leads hlt) h.sane
      fun _ _ _ h' _ =>
      ⟨h.trans h', fun _ => Nat.lt_of_le_of_lt h'.leads.left hlt⟩

theorem parseMultary_ends {strength : Nat} {s : Surroundings} {r : Reader} {g : Generator β}
    (hdepth : 6 * r.left + 1 ≤ bound) (hr : r.left < r.rounds) (hg : Sane r g) :
    Concludes (parseMultary recurse strength) s r g fun e r' g' =>
      Advances r g r' g' ∧ (e.isSome ∨ r.Opens → r'.left < r.left) := by
  have hroom : 6 * r.left ≤ bound := by omega
  rw [parseMultary_eq]
  refine behindFirst (fun e => ?_) ?_ hroom hr (htame.ends .unary hdepth hr hg)
  case refine_2 => rfl
  exact (Wanders.loop : Wanders β bound .some (loop (multaryRound recurse strength) e))

theorem parseAssignment_ends {s : Surroundings} {r : Reader} {g : Generator β}
    (hdepth : 6 * r.left + 2 ≤ bound) (hr : r.left < r.rounds) (hg : Sane r g) :
    Concludes (parseAssignment recurse) s r g fun e r' g' =>
      Advances r g r' g' ∧ (e.isSome ∨ r.Opens → r'.left < r.left) := by
  have hroom : 6 * r.left ≤ bound := by omega
  unfold parseAssignment
  refine behindFirst (fun e => ?_) ?_ hroom hr (htame.ends (.multary 0) hdepth hr hg)
  case refine_2 => rfl
  refine .andThen fun t => ?_
  split <;> infer_instance

/-- Reads a comma and what stands behind it. -/
def sequenceRound (recurse : Recurse) (e : Expression) :
    ParseM (Expression ⊕ Option Expression) := do
  if !(← accept .comma) then return .inr (some e)
  match ← recurse .assignment with
  | some e => return .inl e
  | none => return .inr none

theorem parseSequence_eq : parseSequence recurse = (do
    let some first ← recurse .assignment | return none
    loop (sequenceRound recurse) first) := rfl

instance sequenceRound_consumes {e : Expression} :
    Wanders β bound .consuming (sequenceRound recurse e) := by
  unfold sequenceRound
  infer_instance

omit [Backend.Lasting β] in
theorem parseSequence_ends {s : Surroundings} {r : Reader} {g : Generator β}
    (hdepth : 6 * r.left + 3 ≤ bound) (hr : r.left < r.rounds) (hg : Sane r g) :
    Concludes (parseSequence recurse) s r g fun e r' g' =>
      Advances r g r' g' ∧ (e.isSome ∨ r.Opens → r'.left < r.left) := by
  have hroom : 6 * r.left ≤ bound := by omega
  rw [parseSequence_eq]
  refine behindFirst (fun e => ?_) ?_ hroom hr (htame.ends .assignment hdepth hr hg)
  case refine_2 => rfl
  exact (Wanders.loop : Wanders β bound .some (loop (sequenceRound recurse) e))

end

end ShaderEffect.Parser

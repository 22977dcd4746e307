import ShaderEffect.Proofs.Reading.Sources
import ShaderEffect.Proofs.Requests.Source
import ShaderEffect.Proofs.Requests.Spirv

/-!
Parsing terminates.

Loops get one round more than there are tokens, and parts of the grammar may lie inside of each
other six times as deep. Neither bound is ever reached: a round that asks for another one has read a
token, and so has a part that another one begins with.
-/
namespace ShaderEffect.Parser

variable {β : Type} [Backend β]

/-- Reads a declaration of a source, right or wrong. -/
def declarationsRound (source : String) (valid : Bool) : ParseM (Bool ⊕ Bool) := do
  if ← peek .eof then return .inr valid
  let ok : Bool ← parse (depthFor source.length) .declaration
  return .inl (valid && ok)

/-- The reader in front of the first token of a source. -/
def startOf (source : String) (p : Reader) : Reader :=
  { p with
    cursor := Token.Cursor.start source {}
    symbols := {}
    errors := 0
    rounds := source.length + 2 }

theorem parseDeclarations_eq (source : String) : parseDeclarations source = (do
    modify (startOf source)
    consume
    let valid ← loop (declarationsRound source) true
    return valid && (← get).errors = 0) := rfl

/-- A declaration is read where there is room for as many parts as there are tokens. -/
instance declarationsRound_consumes [Backend.Lasting β] {source : String} {valid : Bool} :
    Wanders β (depthFor source.length) .consuming (declarationsRound source valid) where
  ends s r g hr hg := by
    refine Concludes.bind_read
      (peek_ends (Q := fun c r' => c = decide (r.next.kind = .eof) ∧ r = r') ⟨rfl, rfl⟩) ?_
    rintro _ _ ⟨rfl, rfl⟩
    split
    · exact Concludes.pure ⟨.refl hg, nofun⟩
    · rename_i hend
      have hdepth : 6 * r.left + Nonterminal.declaration.rank < depthFor source.length := hr.depth
      refine ((parse_tame (depthFor source.length)).ends .declaration hdepth hr.rounds hg).bind ?_
      exact fun ok r' g' ⟨h, hlt⟩ =>
        Concludes.pure ⟨h, fun _ => hlt (.inr fun heof => hend (decide_eq_true heof))⟩

/-- In front of a source, there is room for as many parts as there are tokens. -/
theorem startOf_ready (source : String) (r : Reader) :
    Ready (depthFor source.length) (startOf source r).consumed := by
  have hleft : (startOf source r).consumed.left ≤ source.toList.length :=
    (startOf source r).left_consumed_le
  have hrounds : (startOf source r).consumed.rounds = source.length + 2 :=
    (startOf source r).moves_consumed.rounds
  rw [String.length_toList] at hleft
  exact ⟨by unfold depthFor; omega, by omega⟩

omit [Backend β] in
/-- In front of a source, there are no names. -/
theorem startOf_sane {source : String} {r : Reader} {g : Generator β} (hg : Layered g.structs) :
    Sane (startOf source r).consumed g := by
  have hnames : (startOf source r).symbols.entries = [] := rfl
  have hstart : Sane (startOf source r) g :=
    ⟨hg, fun e he => absurd he (hnames ▸ List.not_mem_nil)⟩
  exact hstart.of_keeps (startOf source r).moves_consumed.structs

/-- A source is read to its end, by whichever reader. -/
theorem parseDeclarations_ends [Backend.Lasting β] {source : String} {s : Surroundings}
    {r : Reader} {g : Generator β} (hg : Layered g.structs) :
    Concludes (parseDeclarations source) s r g fun _ _ g' => Layered g'.structs := by
  rw [parseDeclarations_eq]
  refine Concludes.bind_modify ?_
  refine Concludes.bind_read (P := fun _ r' => Ready (depthFor source.length) r' ∧ Sane r' g)
    (consume_ends ⟨startOf_ready source r, startOf_sane hg⟩)
    fun _ r₁ ⟨hready, hsane⟩ => ?_
  refine Wanders.next .some hready hsane fun valid r' g' h _ => ?_
  exact Concludes.bind_get (Concludes.pure h.sane.layered)

/-- A source is parsed to its end, by whichever parser. -/
theorem parseSource_ends [Backend.Lasting β] {source : String} {p : Parser} {g : Generator β}
    (hg : Layered g.structs) :
    Ends (parseSource source p).run g fun _ g' => Layered g'.structs := by
  unfold parseSource
  rw [Script.run_bind]
  exact Ends.bind (parseDeclarations_ends hg) fun _ _ h => Ends.pure h

/-- Reads the name of a local and what is declared by it. -/
def parseLocal (recurse : Recurse) (t : Ty) (_ : Unit) : ParseM (Option Unit) := do
  if !(← expect .identifier) then return none
  if ← parseVariable recurse t false then return some () else return none

/-- Whether an argument of a constructor can be used. -/
def checkComponent (arg : Expression) : ParseM Bool := do
  if !arg.type.isNumeric then error arg.location 3017 "cannot convert non-numeric types"
  return arg.type.isNumeric

/-- The rounds of the loops of the parser, in which parts of the grammar lie inside of others up to
`depth`. The first of some globals has no round in the list, since its name is read in front of the
loop. -/
inductive IsRound : (depth : Nat) → {α γ : Type} → ParseM (α ⊕ γ) → Prop
  | declarations (source : String)
      (valid : Bool) : IsRound (depthFor source.length) (declarationsRound source valid)
  | namespaces (depth : Nat) : IsRound depth (namespaceRound (parse depth) ())
  | globals (depth : Nat) (t : Ty)
      (a : Bool) : IsRound depth (itemsRound (parseGlobal (parse depth) t) (false, a))
  | fields (depth : Nat) (s : Fields) : IsRound depth (fieldsRound (parse depth) s)
  | fieldNames (depth : Nat) (t : Ty)
      (c : Bool × Fields) : IsRound depth (itemsRound (parseField (parse depth) t) c)
  | parameters (depth : Nat) (s : Fields) : IsRound depth (parametersRound (parse depth) s)
  | annotations (depth : Nat) (s : Annotations) : IsRound depth (annotationsRound (parse depth) s)
  | properties (depth : Nat) (p : Resource) : IsRound depth (propertiesRound (parse depth) p)
  | passes (depth : Nat) (s : Passes) : IsRound depth (passesRound (parse depth) s)
  | passStates (depth : Nat) (d : PassDraft) : IsRound depth (passStatesRound (parse depth) d)
  | statements (depth : Nat) : IsRound depth (statementsRound (parse depth) ())
  | localNames (depth : Nat) (t : Ty)
      (c : Bool × Unit) : IsRound depth (itemsRound (parseLocal (parse depth) t) c)
  | labels (depth : Nat) (s : Cases) : IsRound depth (labelsRound (parse depth) s)
  | cases (depth : Nat) (s : Cases) : IsRound depth (casesRound (parse depth) s)
  | arguments (depth : Nat) (args : List Expression) :
      IsRound depth (argumentsRound (parse depth) .parenClose (fun _ => pure true) args)
  | components (depth : Nat) (args : List Expression) :
      IsRound depth (argumentsRound (parse depth) .parenClose checkComponent args)
  | elements (depth : Nat) (s : Elements) : IsRound depth (parseElement (parse depth) s)
  | operators (depth strength : Nat)
      (e : Expression) : IsRound depth (multaryRound (parse depth) strength e)
  | operands (depth : Nat) (e : Expression) : IsRound depth (sequenceRound (parse depth) e)
  | postfixes (depth : Nat) (e : Expression) : IsRound depth (postfixRound (parse depth) e)
  | qualifiers (depth : Nat) (all : Qualifiers) : IsRound depth (liftM (qualifiersRound all))
  | strings (depth : Nat) (s : String) : IsRound depth (liftM (stringsRound s))
  | names (depth : Nat) (identifier : String) : IsRound depth (liftM (pathRound identifier))
  | attributes (depth : Nat) (h : Hints) : IsRound depth (liftM (attributesRound h))
  | skipped (depth : Nat) (kind : Token.Kind) : IsRound depth (liftM (skipRound kind ()))
  | skippedBlock (depth level : Nat) : IsRound depth (liftM (skipBlockRound level))

variable [Backend.Lasting β]

/-- Reads a local behind its name. -/
instance parseLocal_consumes {depth : Nat} {t : Ty} {u : Unit} :
    Wanders β depth .consuming (parseLocal (parse depth) t u) := by
  have := parse_tame (β := β) depth
  unfold parseLocal
  infer_instance

instance checkComponent_wanders {bound : Nat} {arg : Expression} :
    Wanders β bound .some (checkComponent arg) := by
  unfold checkComponent
  infer_instance

/-- A round that asks for another one has read a token. -/
theorem IsRound.ends {depth : Nat} {α γ : Type} {x : ParseM (α ⊕ γ)} (h : IsRound depth x)
    {s : Surroundings} {r : Reader} {g : Generator β} (hr : Ready depth r) (hg : Sane r g) :
    Concludes x s r g fun c r' g' =>
      Pends r g r' g' ∧ (c.isLeft = true → Advances r g r' g' ∧ r'.left < r.left) := by
  have := parse_tame (β := β) depth
  have hround {x : ParseM (α ⊕ γ)} (hx : Concludes x s r g fun c r' g' =>
      Advances r g r' g' ∧ Progress.consuming.Holds c r r') : Concludes x s r g fun c r' g' =>
        Pends r g r' g' ∧ (c.isLeft = true → Advances r g r' g' ∧ r'.left < r.left) :=
    hx.mono fun c r' g' ⟨hadv, hlt⟩ => ⟨hadv.pends, fun hc => ⟨hadv, hlt hc⟩⟩
  cases h with
  | fields fields =>
    refine (fieldsRound_ends hr hg).mono fun c r' g' ⟨hpends, hc⟩ =>
      ⟨hpends, fun hleft => ?_⟩
    cases c with
    | inl fields' => exact ⟨hc.1.1, hc.2⟩
    | inr => cases hleft
  | qualifiers all =>
    refine hround
      (Concludes.read ((qualifiersRound_ends hr.rounds).mono fun c r' ⟨hmoves, hlt⟩ => ?_))
    exact ⟨hmoves.advances hg, fun hc => hlt.resolve_right fun h => by rw [h.1] at hc; cases hc⟩
  | strings text =>
    refine hround (Concludes.read (stringsRound_ends.mono fun c r' ⟨hmoves, hlt⟩ => ?_))
    exact ⟨hmoves.advances hg, fun hc => hlt.resolve_right fun h => by rw [h.1] at hc; cases hc⟩
  | _ => exact hround (Wanders.ends hr hg)

/-- The states of a generator between the sources that are parsed with it. -/
inductive Parsed (g₀ : Generator β) : Generator β → Prop
  | start : Parsed g₀ g₀
  | source {g g' : Generator β} {source : String} {p : Parser} {result : Bool × Parser}
      (h : Parsed g₀ g) (hrun : (parseSource source p).run g = .ok (result, g')) : Parsed g₀ g'

/-- Whether parsing with a generator terminates. -/
structure Terminates (g₀ : Generator β) : Prop where
  /-- No bound is reached, whatever was parsed before. -/
  sources : ∀ {g : Generator β}, Parsed g₀ g → ∀ (source : String) (p : Parser),
    (parseSource source p).run g ≠ .error .exhausted
  /-- A round reads a token, and every token that it returned to, or it is the last
  one of its loop. -/
  rounds : ∀ {depth : Nat} {α γ : Type} {x : ParseM (α ⊕ γ)}, IsRound depth x →
    ∀ {s : Surroundings} {r : Reader} {g : Generator β}, Ready depth r → Sane r g →
      Concludes x s r g fun c r' g' => Ready depth r' ∧ Sane r' g' ∧
        (c.isLeft = true → r'.left < r.left ∧ (r'.saved = r.saved ∨ r'.Settled))
  /-- A part of the grammar reads every token that it returned to, and it has read a token
  if it is right. -/
  parts : ∀ {depth : Nat} (n : Nonterminal) {s : Surroundings} {r : Reader} {g : Generator β},
    Ready depth r →
    Sane r g → Concludes (parse depth n) s r g fun a r' g' => Ready depth r' ∧ Sane r' g' ∧
      (r'.saved = r.saved ∨ r'.Settled) ∧ (n.isGood a → r'.left < r.left)

theorem Parsed.layered {g₀ g : Generator β} (h₀ : Layered g₀.structs) (h : Parsed g₀ g) :
    Layered g.structs := by
  induction h with
  | start => exact h₀
  | source _ hrun ih => exact (parseSource_ends ih).result hrun

theorem Terminates.of_layered {g₀ : Generator β} (h₀ : Layered g₀.structs) :
    Terminates g₀ where
  sources h _ _ := (parseSource_ends (h.layered h₀)).ne_exhausted
  rounds h _ _ _ hr hg := (h.ends hr hg).mono fun _ _ _ ⟨hpends, hlt⟩ =>
    ⟨hr.of_left hpends.wavers.left hpends.wavers.rounds, hpends.sane, fun hc =>
      ⟨(hlt hc).2, (hlt hc).1.leads.settled⟩⟩
  parts {depth} n _ _ _ hr hg :=
    have := parse_tame (β := β) depth
    (recurse_ends n hr hg).mono fun _ _ _ ⟨h, hlt⟩ =>
      ⟨hr.leads h.leads, h.sane, h.leads.settled, hlt⟩

/-- Parsing terminates with each generator. -/
theorem parsing_terminates : (∀ o : Spirv.Options, Terminates (Spirv.generator o)) ∧
    (∀ o : Glsl.Options, Terminates (Glsl.generator o)) ∧ ∀ o :
    Hlsl.Options, Terminates (Hlsl.generator o) :=
  ⟨fun _ => .of_layered .nil, fun _ => .of_layered .nil, fun _ => .of_layered .nil⟩

end ShaderEffect.Parser

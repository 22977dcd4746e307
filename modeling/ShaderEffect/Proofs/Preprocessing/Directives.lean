import ShaderEffect.Proofs.Preprocessing.Inputs

namespace ShaderEffect.Preprocessor

open Surroundings

variable {c : Surroundings} {α : Type}

instance readArgument_local {a : Arguments} : Local c (readArgument a) (readArgument a) := by
  unfold readArgument
  refine .andThen fun more => .get fun q i => ?_
  simp only [embed_token_kind]
  have hadd (depth : Nat) : a.add (c.embed i q).token depth = a.add q.token depth := by
    simp [Arguments.add]
  simp only [hadd]
  split
  · infer_instance
  · split <;> infer_instance

instance collectArguments_local {fuel : Nat} :
    Local c (collectArguments fuel) (collectArguments fuel) := by
  unfold collectArguments
  infer_instance

instance replaceArgument_local {name out : String} {args : List String} {index : Int}
    {f : String → PreM String} [hf : ∀ arg, Local c (f arg) (f arg)] :
    Local c (replaceArgument name args index f out) (replaceArgument name args index f out) := by
  unfold replaceArgument
  split
  · refine .get fun q i => ?_
    rw [embed_token_location]
    infer_instance
  · infer_instance

section

variable {expand : String → PreM String} [hexpand : ∀ arg, Local c (expand arg) (expand arg)]

instance replacePiece_local {name : String} {args : List String} {r : Replaced} {piece : Piece} :
    Local c (replacePiece name args expand r piece) (replacePiece name args expand r piece) := by
  unfold replacePiece
  cases piece <;> infer_instance

instance replacement_local {name : String} {m : Macro} {args : List String} :
    Local c (replacement name m args expand) (replacement name m args expand) := by
  unfold replacement
  infer_instance

end

/-- One round of expanding an argument that was pushed under a number. -/
def argumentRound (expand : PreM Bool) (level serial : Nat) (out : String) :
    PreM (String ⊕ String) := do
  let p ← get
  if hasEnded p level serial && p.nextLevel < level then return .inr out
  if !(← consume) then return .inr out
  let p ← get
  if p.token.kind = .eof then
    return if p.level = level then .inr out else .inl out
  if p.token.kind = .identifier then
    if ← expand then return .inl out
  return .inl (out ++ (← get).token.raw)

theorem expandArgument_eq (fuel : Nat) (expand : PreM Bool) (arg : String) :
    expandArgument fuel expand arg = (do
      if arg = "" then return ""
      push arg "" true
      let p ← get
      repeatWith (argumentRound expand (p.stack.length - 1) (p.pushed - 1)) fuel "") := rfl

theorem embed_hasEnded {q : Preprocessor} {i : Location} {level serial : Nat} :
    hasEnded (c.embed i q) level (c.number serial) = hasEnded q level serial := by
  unfold hasEnded
  rw [embed_stack, inputs_getElem?]
  cases q.stack[level]? with
  | none => rfl
  | some input => cases level <;> simp [above, bottom, number_inj]

/-- A text is known by the number under which it was pushed. -/
instance argumentRound_local {expand : PreM Bool} [hexpand : Local c expand expand]
    {level serial : Nat} {out : String} :
    Local c (argumentRound expand level serial out)
      (argumentRound expand level (c.number serial) out) := by
  unfold argumentRound
  refine .get fun q i => ?_
  rw [embed_hasEnded, embed_nextLevel]
  split
  · infer_instance
  refine .andThen fun more => ?_
  split
  · infer_instance
  refine .get fun q i => ?_
  rw [embed_token_kind, embed_level]
  split
  · infer_instance
  have hraw : Local c (do return .inl (out ++ (← get).token.raw) : PreM (String ⊕ String))
      (do return .inl (out ++ (← get).token.raw)) := by
    refine .get fun q i => ?_
    rw [embed_token_raw]
    infer_instance
  split <;> infer_instance

instance expandArgument_local {fuel : Nat} {expand : PreM Bool} [hexpand : Local c expand expand]
    {arg : String} :
    Local c (expandArgument fuel expand arg) (expandArgument fuel expand arg) := by
  rw [expandArgument_eq]
  split
  · infer_instance
  have hrounds (level serial : Nat) :
      Local c (repeatWith (argumentRound expand level serial) fuel "")
      (repeatWith (argumentRound expand level (c.number serial)) fuel "") := inferInstance
  constructor
  · intro q a q' h hend
    obtain ⟨_, q₁, hpush, h⟩ := bind_eq_ok.mp h
    obtain ⟨_, _, hget, h⟩ := bind_eq_ok.mp h
    obtain ⟨rfl, rfl⟩ := get_eq_ok.mp hget
    exact (push_local (c := c)).onLine hpush ((hrounds _ _).onLine h hend)
  · intro q a q' h hq hend
    obtain ⟨_, q₁, hpush, h⟩ := bind_eq_ok.mp h
    obtain ⟨_, _, hget, h⟩ := bind_eq_ok.mp h
    obtain ⟨rfl, rfl⟩ := get_eq_ok.mp hget
    obtain ⟨hq₁, hembed⟩ := (push_local (c := c)).embed hpush hq ((hrounds _ _).onLine h hend)
    obtain ⟨hq', hloop⟩ := (hrounds _ _).embed h hq₁ hend
    refine ⟨hq', fun i => ?_⟩
    obtain ⟨j, hj⟩ := hembed i
    obtain ⟨k, hk⟩ := hloop j
    refine ⟨k,
      bind_eq_ok.mpr ⟨(), _, hj, bind_eq_ok.mpr ⟨_, _, get_eq_ok.mpr ⟨rfl, rfl⟩, ?_⟩⟩⟩
    have hserial : c.number (q₁.pushed - 1) = q₁.pushed + c.pushed - 1 := by
      have := (push_keeps hpush).2
      have := hq.pushed
      rw [number_of_pos (by omega)]
      omega
    rw [embed_pushed, embed_stack, inputs_length, ← hserial]
    exact hk

instance addExpansion_local :
    Local c (modify fun p => { p with expansions := p.expansions + 1 } : PreM Unit)
    (modify fun p => { p with expansions := p.expansions + 1 }) :=
  .modify (fun _ hend => ⟨hend.success, hend.bottom⟩)
    (fun _ hq _ => ⟨hq.setting, hq.groups, hq.overflow, hq.pushed, hq.named, hq.placed,
      hq.token⟩) fun _ i _ _ => ⟨i, rfl⟩

instance noteInvocation_local {location : Location} :
    Local c (modify fun p => { p with invocation := location, overflow := false } : PreM Unit)
      (modify fun p => { p with invocation := location, overflow := false }) :=
  .modify (fun _ hend => ⟨hend.success, hend.bottom⟩)
    (fun _ hq _ => ⟨hq.setting, hq.groups, fun _ => rfl, hq.pushed, hq.named, hq.placed,
      hq.token⟩) fun _ _ _ _ => ⟨location, rfl⟩

/-- A line in which there are too many expansions fails, so that nothing is asked of it. -/
instance reportExpansions_local {location location' : Location} :
    Local c (do
        error location "macro recursion too high"
        modify fun p => { p with overflow := true }
        return false)
      (do
        error location' "macro recursion too high"
        modify fun p => { p with overflow := true }
        return false) := by
  refine .of_failed fun q a q' h hend => ?_
  obtain ⟨_, q₁, herror, h⟩ := bind_eq_ok.mp h
  obtain ⟨_, _, hset, h⟩ := bind_eq_ok.mp h
  obtain rfl := modify_eq_ok.mp hset
  obtain ⟨-, rfl⟩ := pure_eq_ok.mp h
  exact not_onLine_of_error herror ⟨hend.success, hend.bottom⟩

/-- Counts an expansion, as far as that does not depend on the input. -/
def countOnward : PreM Bool := do
  let p ← get
  if p.overflow then return false
  if p.expansions ≥ expansionLimit then
    error p.invocation "macro recursion too high"
    modify fun p => { p with overflow := true }
    return false
  modify fun p => { p with expansions := p.expansions + 1 }
  return true

theorem countExpansion_eq (input : Input) (location : Location) :
    countExpansion input location = (do
      if input.name ≠ "" then modify fun p => { p with invocation := location, overflow := false }
      countOnward) := rfl

instance countOnward_local : Local c countOnward countOnward := by
  unfold countOnward
  refine .get fun q i => ?_
  rw [embed_overflow, embed_expansions]
  infer_instance

theorem countExpansion_local {input input' : Input} (location : Location)
    (h : input'.name = input.name) :
    Local c (countExpansion input location) (countExpansion input' location) := by
  rw [countExpansion_eq, countExpansion_eq, h]
  infer_instance

instance replaceCall_local {fuel : Nat} {expand : String → PreM String}
    [hexpand : ∀ arg, Local c (expand arg) (expand arg)]
    {name : String} {location : Location} {m : Macro} :
    Local c (replaceCall fuel expand name location m)
      (replaceCall fuel expand name location m) := by
  unfold replaceCall
  dsimp only
  infer_instance

instance expandIdentifier_local {fuel : Nat} :
    Local c (expandIdentifier fuel) (expandIdentifier fuel) := by
  induction fuel with
  | zero => exact .throw
  | succ fuel ih =>
    unfold expandIdentifier
    refine .get fun q i => ?_
    simp only [embed_token_text, embed_token_location, embed_findMacro?, embed_stack, embed_level,
      inputs_getElem?]
    split
    · infer_instance
    · cases q.findMacro? q.token.text with
      | none => infer_instance
      | some m =>
        cases q.stack[q.level]? with
        | none =>
          rw [Option.map_none]
          infer_instance
        | some input =>
          have hname : ((if q.level = 0 then c.bottom else c.above) input).name = input.name := by
            split <;> rfl
          have hhidden : ((if q.level = 0 then c.bottom else c.above) input).hidden
              = input.hidden := by
            split <;> rfl
          have hcount := countExpansion_local (c := c) q.token.location hname
          simp only [Option.map_some, hhidden]
          infer_instance

instance evaluateDefined_local {fuel : Nat} :
    Local c (evaluateDefined fuel) (evaluateDefined fuel) := by
  unfold evaluateDefined
  refine .andThen fun parens => .andThen fun named => ?_
  split
  · infer_instance
  refine .get fun q i => ?_
  rw [embed_token_text, embed_findMacro?]
  infer_instance

instance expandNames_local {fuel : Nat} : Local c (expandNames fuel) (expandNames fuel) := by
  unfold expandNames
  infer_instance

theorem embed_resolveInclude {q : Preprocessor} {i : Location} {name : String} :
    resolveInclude (c.embed i q) name = resolveInclude q name := rfl

instance evaluateExists_local {fuel : Nat} :
    Local c (evaluateExists fuel) (evaluateExists fuel) := by
  unfold evaluateExists
  refine .andThen fun parens => .andThen fun expanded => ?_
  split
  · refine .get fun q i => ?_
    infer_instance
  refine .andThen fun named => ?_
  split
  · infer_instance
  refine .get fun q i => ?_
  dsimp only
  rw [embed_token_text]
  have hresult (name : String) :
      Local c (do let p ← get; return some (truth (p.files.exists? (resolveInclude p name))))
      (do let p ← get; return some (truth (p.files.exists? (resolveInclude p name)))) := by
    refine .get fun q i => ?_
    rw [embed_resolveInclude, embed_files]
    infer_instance
  split <;> infer_instance

/-- Gives a condition up. -/
def refuse (message : String) : PreM (ConditionState ⊕ Option Condition.Sorted) := do
  error (← get).token.location message
  return .inr none

/-- Goes on with a condition behind the current token. -/
def proceed (sorted : Condition.Sorted) : PreM (ConditionState ⊕ Option Condition.Sorted) := do
  return .inl { sorted, previous := (← get).token.kind }

/-- Handles the current token of a condition, which may be an operator. -/
def conditionItem (fuel : Nat) (s : ConditionState) (op : Option Operator) :
    PreM (ConditionState ⊕ Option Condition.Sorted) := do
  let operand (v : Option UInt32) : PreM (ConditionState ⊕ Option Condition.Sorted) :=
    match v with
    | some v => return .inl { sorted := s.sorted.push v, previous := .intLiteral }
    | none => return .inr none
  let t := (← get).token
  match t.kind with
  | .parenOpen => proceed s.sorted.openParenthesis
  | .parenClose =>
    match s.sorted.closeParenthesis? with
    | some sorted => proceed sorted
    | none => refuse "unmatched ')'"
  | .identifier =>
    if ← expandIdentifier fuel then return .inl s
    match (← get).token.text with
    | "defined" => operand (← evaluateDefined fuel)
    | "exists" => operand (← evaluateExists fuel)
    | _ => proceed (s.sorted.push 0)
  | .intLiteral | .uintLiteral => proceed (s.sorted.push t.word)
  | _ =>
    match op with
    | some op => proceed (s.sorted.add op)
    | none => refuse "invalid expression"

theorem readConditionToken_eq (fuel : Nat) (s : ConditionState) : readConditionToken fuel s = (do
    if ← atLineEnd then return .inr (some s.sorted)
    if s.sorted.waiting.length ≥ conditionLimit || s.sorted.items.length ≥ conditionLimit then
      return ← refuse "expression evaluator ran out of stack space"
    let _ ← consume
    let kind := (← get).token.kind
    if kind = .space then return .inl s
    if kind = .backslash then
      if ← accept fuel .endOfLine then return .inl s
    conditionItem fuel s (Operator.ofKind? s.previous kind)) := rfl

instance refuse_local {message : String} : Local c (refuse message) (refuse message) := by
  unfold refuse
  infer_instance

instance proceed_local {sorted : Condition.Sorted} : Local c (proceed sorted) (proceed sorted) := by
  unfold proceed
  refine .get fun q i => ?_
  rw [embed_token_kind]
  infer_instance

instance conditionItem_local {fuel : Nat} {s : ConditionState} {op : Option Operator} :
    Local c (conditionItem fuel s op) (conditionItem fuel s op) := by
  unfold conditionItem
  dsimp only
  refine .get fun q i => ?_
  rw [embed_token_kind, embed_token_word]
  split
  · infer_instance
  · split <;> infer_instance
  · refine .andThen fun expanded => ?_
    split
    · infer_instance
    refine .get fun q i => ?_
    rw [embed_token_text]
    split <;> infer_instance
  · infer_instance
  · infer_instance
  · split <;> infer_instance

instance readConditionToken_local {fuel : Nat} {s : ConditionState} :
    Local c (readConditionToken fuel s) (readConditionToken fuel s) := by
  rw [readConditionToken_eq]
  refine .andThen fun ended => ?_
  split
  · infer_instance
  split
  · infer_instance
  refine .andThen fun _ => .get fun q i => ?_
  dsimp only
  rw [embed_token_kind]
  infer_instance

instance evaluateCondition_local {fuel : Nat} :
    Local c (evaluateCondition fuel) (evaluateCondition fuel) := by
  unfold evaluateCondition
  refine .get fun q i => ?_
  dsimp only
  rw [embed_token_kind]
  refine .andThen fun r => ?_
  split
  · split
    · infer_instance
    · split <;> infer_instance
  · infer_instance

instance readParameters_local {fuel : Nat} :
    Local c (readParameters fuel) (readParameters fuel) := by
  unfold readParameters
  have hround (names : List String) : Local c
      (do
        if !(← accept fuel .identifier) then return .inr names
        let names := names ++ [(← get).token.text]
        if ← accept fuel .comma then return .inl names else return .inr names : PreM (List String
          ⊕ List String)) (do
        if !(← accept fuel .identifier) then return .inr names
        let names := names ++ [(← get).token.text]
        if ← accept fuel .comma then return .inl names else return .inr names) := by
    refine .andThen fun named => ?_
    split
    · infer_instance
    refine .get fun q i => ?_
    dsimp only
    rw [embed_token_text]
    infer_instance
  infer_instance

theorem calledAtOnce_eq_ok {q q' : Preprocessor} {b : Bool} :
    calledAtOnce q = .ok (b, q') ↔ ∃ input, q.stack[q.level]? = some input ∧ q' = q ∧
      b = decide (input.text[q.token.offset + q.token.length]? = some '(') := by
  unfold calledAtOnce
  simp only [bind_eq_ok, get_eq_ok]
  constructor
  · rintro ⟨_, _, ⟨rfl, rfl⟩, h⟩
    cases hget : q.stack[q.level]? with
    | none =>
      rw [hget] at h
      exact absurd h throw_eq_ok.mp
    | some input =>
      rw [hget] at h
      obtain ⟨rfl, rfl⟩ := pure_eq_ok.mp h
      exact ⟨input, rfl, rfl, rfl⟩
  · rintro ⟨input, hget, rfl, rfl⟩
    refine ⟨q', q', ⟨rfl, rfl⟩, ?_⟩
    rw [hget]
    exact pure_eq_ok.mpr ⟨rfl, rfl⟩

/-- The byte behind a token of the line is on the line, too. -/
theorem token_stop_lt {q : Preprocessor} {input : Input} (hq : Sound c q) (hend : OnLine q)
    (hlevel : q.level = 0) (hget : q.stack[0]? = some input) :
    q.token.offset + q.token.length < input.text.length := by
  obtain ⟨-, b, hb, hname, hline⟩ := hend
  obtain rfl : input = b := by
    rw [List.head?_eq_getElem?, hget] at hb
    exact Option.some.inj hb
  have hplaced := hq.placed input hb hname
  have htoken := hq.token input hb hname hlevel
  have hnext := hplaced.next
  have hoffset := hplaced.offset
  obtain hnewline | hrest := hline
  · have := (hplaced.newline hnewline).1
    omega
  · have : input.cursor.rest.length = input.text.length - input.cursor.offset := by
      rw [hplaced.rest, List.length_drop]
    have := List.length_pos_of_ne_nil hrest
    omega

instance calledAtOnce_local : Local c calledAtOnce calledAtOnce where
  onLine q b q' h hend := by
    obtain ⟨input, -, rfl, -⟩ := calledAtOnce_eq_ok.mp h
    exact hend
  embed q b q' h hq hend := by
    obtain ⟨input, hget, rfl, rfl⟩ := calledAtOnce_eq_ok.mp h
    refine ⟨hq,
      fun i => ⟨i, calledAtOnce_eq_ok.mpr ⟨(if q'.level = 0 then c.bottom else c.above) input,
        ?_, rfl, ?_⟩⟩⟩
    · rw [embed_level, embed_stack, inputs_getElem?, hget]
      rfl
    · by_cases hlevel : q'.level = 0
      · rw [hlevel] at hget
        have hlt := token_stop_lt hq hend hlevel hget
        have htoken : (c.embed i q').token = q'.token.shift c.before.length := if_pos hlevel
        have hbyte : (c.bottom input).text[(q'.token.shift c.before.length).offset +
            (q'.token.shift c.before.length).length]?
            = input.text[q'.token.offset + q'.token.length]? := by
          show (c.before ++ input.text ++ c.after)[q'.token.offset + c.before.length
            + q'.token.length]? = _
          rw [List.append_assoc, List.getElem?_append_right (by omega),
            List.getElem?_append_left (by omega)]
          congr 1
          omega
        rw [htoken, if_pos hlevel, hbyte]
      · have htoken : (c.embed i q').token = q'.token := if_neg hlevel
        rw [htoken, if_neg hlevel]
        rfl

instance readSignature_local {fuel : Nat} : Local c (readSignature fuel) (readSignature fuel) := by
  unfold readSignature
  infer_instance

instance readPiece_local {fuel : Nat} {m : Macro} :
    Local c (readPiece fuel m) (readPiece fuel m) := by
  have hverbatim : Local c
      (do return .inl { m with replacement := Macro.appendText m.replacement (← get).token.raw } :
        PreM (Macro ⊕ Option Macro))
      (do
        return .inl
          { m with replacement := Macro.appendText m.replacement (← get).token.raw }) := by
    refine .get fun q i => ?_
    rw [embed_token_raw]
    infer_instance
  unfold readPiece
  refine .andThen fun ended => ?_
  split
  · infer_instance
  refine .andThen fun _ => .get fun q i => ?_
  dsimp only
  rw [embed_token_kind, embed_token_text]
  split
  · refine .andThen fun doubled => ?_
    split
    · infer_instance
    split
    · refine .andThen fun named => ?_
      split
      · infer_instance
      refine .get fun q i => ?_
      rw [embed_token_text]
      split <;> infer_instance
    · infer_instance
  · infer_instance
  · split <;> infer_instance
  · infer_instance

/-- Reads the rest of a definition. -/
def defineAs (fuel : Nat) (name : String) (location : Location) : PreM Unit := do
  let some start ← readSignature fuel | return
  let some m ← repeatWith (readPiece fuel) fuel start | return
  match (← get).define? name m with
  | some p => set p
  | none => error location ("redefinition of '" ++ name ++ "'")

/-- Reads a macro name and goes on with it. -/
def withMacroName (fuel : Nat) (f : String → Location → PreM Unit) : PreM Unit := do
  if !(← expect fuel .identifier) then return
  let p ← get
  if p.token.text = "defined" then
    warning p.token.location "macro name 'defined' is reserved"
    skipLine fuel
    return
  f p.token.text p.token.location

theorem readMacroName_bind {f : String → Location → PreM Unit} {g : Option Token → PreM Unit}
    (hnone : g none = pure ()) (hsome : ∀ t, g (some t) = f t.text t.location) (fuel : Nat) :
    readMacroName fuel >>= g = withMacroName fuel f := by
  unfold readMacroName withMacroName
  rw [bind_assoc]
  congr 1
  funext named
  cases named with
  | false => exact hnone
  | true =>
    simp only [Bool.not_true, Bool.false_eq_true, if_false, bind_assoc]
    congr 1
    funext p
    split
    · simp only [bind_assoc, pure_bind, hnone]
    · rw [pure_bind, hsome]

theorem parseDefine_eq (fuel : Nat) : parseDefine fuel = withMacroName fuel (defineAs fuel) :=
  readMacroName_bind rfl (fun _ => rfl) fuel

theorem parseUndef_eq (fuel : Nat) :
    parseUndef fuel = withMacroName fuel fun name _ => modify fun p => p.undefine name :=
  readMacroName_bind rfl (fun _ => rfl) fuel

instance withMacroName_local {fuel : Nat} {f : String → Location → PreM Unit}
    [hf : ∀ name location, Local c (f name location) (f name location)] :
    Local c (withMacroName fuel f) (withMacroName fuel f) := by
  unfold withMacroName
  refine .andThen fun named => ?_
  split
  · infer_instance
  refine .get fun q i => ?_
  rw [embed_token_text, embed_token_location]
  infer_instance

theorem embed_define? {q : Preprocessor} {i : Location} {name : String} {m : Macro} :
    (c.embed i q).define? name m = (q.define? name m).map (c.embed i) := by
  unfold define?
  rw [embed_findMacro?]
  cases q.findMacro? name <;> rfl

/-- Adds a macro unless there is one of that name. -/
def addMacro (name : String) (location : Location) (m : Macro) : PreM Unit := do
  match (← get).define? name m with
  | some p => set p
  | none => error location ("redefinition of '" ++ name ++ "'")

theorem addMacro_eq_ok {name : String} {location : Location} {m : Macro} {q q' : Preprocessor}
    {u : Unit} (h : addMacro name location m q = .ok (u, q')) :
    q.define? name m = some q' ∨ (q.define? name m = none ∧ ¬OnLine q') := by
  obtain ⟨_, _, hget, h⟩ := bind_eq_ok.mp h
  obtain ⟨rfl, rfl⟩ := get_eq_ok.mp hget
  cases hdefine : q.define? name m with
  | none =>
    rw [hdefine] at h
    exact .inr ⟨rfl, not_onLine_of_error h⟩
  | some p =>
    rw [hdefine] at h
    exact .inl (congrArg some (set_eq_ok.mp h))

theorem define?_eq_some {q q' : Preprocessor} {name : String} {m : Macro}
    (h : q.define? name m = some q') :
    q' = { q with macros := q.macros ++ [(name, m)] } := by
  unfold define? at h
  split at h
  · cases h
  · exact (Option.some.inj h).symm

instance addMacro_local {name : String} {location : Location} {m : Macro} :
    Local c (addMacro name location m) (addMacro name location m) where
  onLine q _ q' h hend := by
    obtain hdefine | ⟨-, hfailed⟩ := addMacro_eq_ok h
    · obtain rfl := define?_eq_some hdefine
      exact ⟨hend.success, hend.bottom⟩
    · exact absurd hend hfailed
  embed q _ q' h hq hend := by
    obtain hdefine | ⟨-, hfailed⟩ := addMacro_eq_ok h
    · refine ⟨?_, fun i => ⟨i, ?_⟩⟩
      · obtain rfl := define?_eq_some hdefine
        exact ⟨hq.setting, hq.groups, hq.overflow, hq.pushed, hq.named, hq.placed, hq.token⟩
      · refine bind_eq_ok.mpr ⟨_, _, get_eq_ok.mpr ⟨rfl, rfl⟩, ?_⟩
        rw [embed_define?, hdefine]
        exact set_eq_ok.mpr rfl
    · exact absurd hend hfailed

instance defineAs_local {fuel : Nat} {name : String} {location : Location} :
    Local c (defineAs fuel name location) (defineAs fuel name location) := by
  have hadd (m : Macro) :
      Local c (addMacro name location m) (addMacro name location m) := inferInstance
  unfold addMacro at hadd
  unfold defineAs
  infer_instance

instance parseDefine_local {fuel : Nat} : Local c (parseDefine fuel) (parseDefine fuel) := by
  rw [parseDefine_eq]
  infer_instance

instance parseUndef_local {fuel : Nat} : Local c (parseUndef fuel) (parseUndef fuel) := by
  have hundefine (name : String) :
      Local c (modify fun p => p.undefine name : PreM Unit) (modify fun p => p.undefine name) :=
    .modify (fun q hend => ⟨hend.success, hend.bottom⟩)
      (fun q hq _ => ⟨hq.setting, hq.groups, hq.overflow, hq.pushed, hq.named, hq.placed,
        hq.token⟩) fun q i _ _ => ⟨i, rfl⟩
  rw [parseUndef_eq]
  infer_instance

end ShaderEffect.Preprocessor

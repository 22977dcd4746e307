import ShaderEffect.Proofs.Parsing.Source
import ShaderEffect.Proofs.Spirv.Function

namespace ShaderEffect.Spirv

open Generator

section Items

variable {choices : List Choices} {g g' : Generator State}

/-- Outside of functions an evaluation only computes values. -/
theorem extends_evaluation {t : Evaluation (List Instruction)} (hruns : Runs observe g t.entries g')
    (hg : g.target.current = none) : Extends g g' := by
  refine evaluation_outside (fun g => g.target.current = none) Extends.refl Extends.trans
    (fun hr h => computes_handle (.inl hr) h) (fun h hg => ?_) (fun {g} hg => ?_) hruns hg
  · obtain ⟨new, -, hcurrent⟩ := h.locals
    rw [hcurrent, hg]
    rfl
  · exact congrArg Option.isSome hg

/-- Between the parts of a source no function is being generated, and finished functions
are well formed. -/
theorem Between.item {i : Item (List Instruction)} (h : Between choices g)
    (hi : i.Proper { noShortCircuit := true }) (hswitches : i.switches ⊆ choices)
    (hruns : RunsInRange observe g i.entries g') : Between choices g' := by
  cases i with
  | outside e he =>
    obtain ⟨r, answer, note⟩ := e
    obtain ⟨⟨g₁, hrun, -, rfl⟩, hid⟩ := hruns
    by_cases hentry : ∃ decl isPixelShader, r = .defineEntryPoint decl isPixelShader
    · obtain ⟨decl, isPixelShader, rfl⟩ := hentry
      exact h.entryPoint hid hrun
    · refine h.extends (computes_handle (.inr ⟨he, fun decl isPixelShader heq => ?_⟩) hrun)
      exact hentry ⟨decl, isPixelShader, heq⟩
  | evaluate t => exact h.extends (extends_evaluation hruns.1 h.current)
  | procedure f => exact h.procedure (fun t ht => ht rfl) hi.1 hi.2.1 hswitches hruns

theorem Between.items {items : List (Item (List Instruction))} (h : Between choices g)
    (hitems : ∀ i ∈ items, i.Proper { noShortCircuit := true })
    (hswitches : items.flatMap Item.switches ⊆ choices)
    (hruns : RunsInRange observe g (items.flatMap Item.entries) g') : Between choices g' := by
  induction items generalizing g with
  | nil =>
    obtain ⟨rfl, -⟩ := runsInRange_nil.mp hruns
    exact h
  | cons i items ih =>
    obtain ⟨g₁, hi, hrest⟩ := models.runsInRange_append.mp hruns
    refine ih (h.item (hitems i List.mem_cons_self) (fun c hc => hswitches ?_) hi)
      (fun j hj => hitems j (List.mem_cons_of_mem _ hj)) (fun c hc => hswitches ?_) hrest
    · exact List.mem_append_left _ hc
    · exact List.mem_append_right _ hc

theorem between_generator (options : Options) : Between choices (generator options) where
  positive := Nat.two_pos
  block := rfl
  current := rfl
  spliced := rfl
  blocks _ _ := rfl
  functions := by simp [generator]

end Items

/-- The ids that are set aside for what a module is closed with. -/
def State.reserved (s : State) : List Id :=
  [s.extendedSet, s.uniformType, s.uniformVariable]

/-- Whether a part of the generator always gives a result, and sets no ids aside. -/
def Succeeds {α : Type} (x : SpirvM α) : Prop :=
  ∀ g, ∃ a g', x g = .ok (a, g') ∧ g'.target.reserved = g.target.reserved

section Finish

variable {α γ : Type}

theorem succeeds_pure (a : α) : Succeeds (pure a : SpirvM α) :=
  fun g => ⟨a, g, rfl, rfl⟩

theorem succeeds_bind {x : SpirvM γ} {f : γ → SpirvM α} (hx : Succeeds x)
    (hf : ∀ c, Succeeds (f c)) :
    Succeeds (x >>= f) := by
  intro g
  obtain ⟨c, g₁, hc, hkept⟩ := hx g
  obtain ⟨a, g', ha, hkept'⟩ := hf c g₁
  exact ⟨a, g', bind_eq_ok.mpr ⟨c, g₁, hc, ha⟩, hkept'.trans hkept⟩

theorem succeeds_get : Succeeds (get : SpirvM (Generator State)) :=
  fun g => ⟨g, g, rfl, rfl⟩

theorem succeeds_getTarget : Succeeds (getTarget : SpirvM State) :=
  succeeds_bind succeeds_get fun _ => succeeds_pure _

theorem succeeds_modifyTarget {f : State → State} (hf : ∀ s, (f s).reserved = s.reserved) :
    Succeeds (modifyTarget f) :=
  fun g => ⟨(), { g with target := f g.target }, rfl, hf g.target⟩

theorem succeeds_makeId : Succeeds (makeId : SpirvM Id) :=
  fun g => ⟨UInt32.ofNat g.nextId, { g with nextId := g.nextId + 1 }, rfl, rfl⟩

theorem succeeds_cachedType (key : TypeKey) {make : SpirvM Id} (hmake : Succeeds make) :
    Succeeds (cachedType key make) := by
  refine succeeds_bind succeeds_getTarget fun s => ?_
  cases s.typeIds.get? key with
  | some id => exact succeeds_pure id
  | none =>
    refine succeeds_bind hmake
      fun _ => succeeds_bind (succeeds_modifyTarget fun _ => rfl) fun _ => ?_
    exact succeeds_pure _

/-- The uniform block has a type. -/
theorem succeeds_structPointer (definition : Id) (storage : StorageClass) :
    Succeeds (pointerType { base := .struct, definition, qualifiers := .uniform } storage) := by
  refine succeeds_cachedType _ (succeeds_bind ?_ fun target => ?_)
  · exact succeeds_cachedType _ (succeeds_pure _)
  · refine succeeds_bind succeeds_makeId fun _ =>
      succeeds_bind (succeeds_modifyTarget fun _ => rfl) fun _ => ?_
    exact succeeds_pure _

theorem succeeds_addName (id : Id) (name : String) : Succeeds (addName id name) :=
  succeeds_modifyTarget fun s => by split <;> rfl

/-- Nothing is recorded of where the uniform block is. -/
theorem succeeds_lineInstruction : Succeeds (lineInstruction {}) := by
  refine succeeds_bind succeeds_getTarget fun s => ?_
  simp only [Bool.or_true, decide_true, if_true]
  exact succeeds_pure _

theorem succeeds_declareUniforms (id definition : Id) :
    Succeeds (declareVariable id {} { base := .struct, definition, qualifiers := .uniform }
      "$Globals" .uniform 0) := by
  unfold declareVariable
  extract_lets isLocal addTo declare mark
  have hlocal : isLocal = false := by decide
  have haddTo (i : Instruction) : Succeeds (addTo i) := by
    simp only [addTo, hlocal, Bool.false_eq_true, if_false]
    exact succeeds_modifyTarget fun _ => rfl
  have hdeclare : Succeeds (declare ()) := by
    refine succeeds_bind (succeeds_structPointer _ _)
      fun type => succeeds_bind (haddTo _) fun _ => ?_
    refine succeeds_bind (succeeds_addName _ _)
      fun _ => succeeds_bind (succeeds_modifyTarget fun _ => rfl) fun _ => ?_
    simp only [hlocal, Bool.false_eq_true]
    exact succeeds_pure _
  have hmark : Succeeds (mark ()) := by
    intro g
    refine succeeds_bind succeeds_lineInstruction (fun line => ?_) g
    cases line with
    | none => exact hdeclare
    | some i => exact succeeds_bind (haddTo i) fun _ => hdeclare
  refine succeeds_bind succeeds_getTarget fun s => ?_
  simp only [hlocal, Bool.false_eq_true]
  exact hmark

/-- The uniform block is closed with its type and its variable. -/
def closeUniforms (s : State) : SpirvM Unit := do
  modifyTarget fun s =>
    { s with
      types := s.types.push
        { op := Op.typeStruct, result := s.uniformType, operands := s.uniformMembers.toList } }
  addName s.uniformType "$Globals"
  declareVariable s.uniformVariable {}
      { base := .struct, definition := s.uniformType, qualifiers := .uniform } "$Globals" .uniform 0

theorem computes_closeUniforms (s : State) : Computes (closeUniforms s) :=
  computes_bind (computes_modifyTarget rfl) fun _ => computes_bind (computes_addName _ _) fun _ =>
    computes_declareVariable _ _ _ _ _ _

/-- The header of a module: no id is as large as the number that comes next. -/
def headerOf (g : Generator State) : Header :=
  { major := 1, minor := 3, bound := UInt32.ofNat g.nextId }

/-- A module is put together from what was generated, and the uniform block if there is one. -/
theorem finish_cases (g : Generator State) : ∃ g' : Generator State,
    (g' = g ∨ closeUniforms g.target g = .ok ((), g') ∧ g'.target.reserved = g.target.reserved)
      ∧ finish g = .ok (.words (assemble (headerOf g') g'.target.sections), g') := by
  unfold finish
  extract_lets done
  have hdone (g : Generator State) :
      done () g = .ok (.words (assemble (headerOf g) g.target.sections), g) := rfl
  have hopen (f : State → SpirvM Code) : (getTarget >>= f) g = f g.target g := rfl
  rw [hopen]
  split
  · have hclose : Succeeds (closeUniforms g.target) := by
      refine succeeds_bind (succeeds_modifyTarget fun _ => rfl)
        fun _ => succeeds_bind (succeeds_addName _ _) fun _ => ?_
      exact succeeds_declareUniforms _ _
    obtain ⟨u, g', hx, hkept⟩ := hclose g
    refine ⟨g', .inr ⟨hx, hkept⟩, ?_⟩
    simp only [← bind_assoc]
    rw [closeUniforms, ← bind_assoc] at hx
    exact bind_eq_ok.mpr ⟨u, g', hx, hdone g'⟩
  · exact ⟨g, .inl rfl, hdone g⟩

/-- The module is put together from what was generated. -/
theorem finish_spec (g : Generator State) : ∃ g' : Generator State, Extends g g'
    ∧ finish g = .ok (.words (assemble (headerOf g') g'.target.sections), g') := by
  obtain ⟨g', rfl | ⟨hclose, -⟩, hfinish⟩ := finish_cases g
  · exact ⟨g', .refl g', hfinish⟩
  · exact ⟨g', computes_closeUniforms _ hclose, hfinish⟩

end Finish

/-- The code of functions is the last section of a module. -/
theorem getLast?_sections (s : State) :
    s.sections.getLast? = some (s.functions.toList.map FunctionCode.code).flatten := by
  rw [State.sections, ← List.flatMap_def, List.getLast?_append_of_ne_nil _ (List.cons_ne_nil _ _)]
  rfl

/-- Every function of a source without errors is well formed in the binary form, in any nesting of
statements: it is a declaration followed by blocks, each of which has one label and one terminator;
labels are different from each other, and everything that leads to a block, or names one behind a
construct, leads to a block of the same function. Each switch statement sends every value of its
case labels, and all others, to the first block of the section that they belong to. Ids are words,
so that there may not be more of them than there are words. -/
theorem structured_control_flow {options : Options} {source : String} {p p' : Parser}
    {g : Generator State} (hp : p.noShortCircuit = true)
    (hrun : (Parser.parseSource source p).run (generator options) = .ok ((true, p'), g))
    (hid : g.nextId ≤ 2 ^ 32) :
    ∃ (items : List (Item (List Instruction))) (g' : Generator State),
      (Parser.parseSource source p).record observe (generator options)
          = .ok ((items.flatMap Item.entries, true, p'), g)
        ∧ (∀ i ∈ items, i.Proper { noShortCircuit := true })
        ∧ Backend.finish g = .ok (.words (assemble (headerOf g') g'.target.sections), g')
        ∧ g'.target.sections.getLast?
          = some (g'.target.functions.toList.map FunctionCode.code).flatten
        ∧ ∀ code ∈ g'.target.functions.toList.map FunctionCode.code,
          IsFunction (items.flatMap Item.switches) code := by
  have hensures :=
    Script.Ensures.mono (π := List Instruction) (Parser.parseSource_ensures source p)
      fun es r h => h
  obtain ⟨es, hrecord, hruns, hitems⟩ := Script.record_of_run hensures hrun
  obtain ⟨items, rfl, hproper⟩ := hitems rfl
  rw [hp] at hproper
  have hbetween : Between (items.flatMap Item.switches) g :=
    (between_generator options).items hproper (List.Subset.refl _) ⟨hruns, hid⟩
  obtain ⟨g', hextends, hfinish⟩ := finish_spec g
  refine ⟨items, g', hrecord, hproper, hfinish, getLast?_sections _, fun code hcode => ?_⟩
  obtain ⟨f, hf, rfl⟩ := List.mem_map.mp hcode
  exact hbetween.functions f (by rw [← hextends.functions]; exact Array.mem_toList_iff.mp hf)

/-- A function with a switch statement in a loop. -/
private def nested : String :=
  "int f(int a) \x7b while (a < 3) \x7b switch (a) \x7b case 1: continue; "
    ++ "default: a++; break; \x7d \x7d return a; \x7d"

set_option maxRecDepth 10000 in
/-- The hypotheses hold of a switch statement in a loop. -/
theorem structured_control_flow_of_nested :
    ∃ p' g, (Parser.parseSource nested { noShortCircuit := true }).run (generator {})
      = .ok ((true, p'), g)
      ∧ g.nextId ≤ 2 ^ 32
      ∧ ∃ (items : List (Item (List Instruction))) (g' : Generator State),
        (Parser.parseSource nested { noShortCircuit := true }).record observe (generator {})
            = .ok ((items.flatMap Item.entries, true, p'), g)
          ∧ (∀ i ∈ items, i.Proper { noShortCircuit := true })
          ∧ Backend.finish g = .ok (.words (assemble (headerOf g') g'.target.sections), g')
          ∧ g'.target.sections.getLast?
            = some (g'.target.functions.toList.map FunctionCode.code).flatten
          ∧ ∀ code ∈ g'.target.functions.toList.map FunctionCode.code,
            IsFunction (items.flatMap Item.switches) code := by
  have hread :
      ((Parser.parseSource nested { noShortCircuit := true }).run (generator {})).toOption.any
      (fun result => result.1.1 && decide (result.2.nextId ≤ 2 ^ 32)) = true := by decide +kernel
  obtain ⟨⟨⟨accepted, p'⟩, g⟩, hrun, hread⟩ := exists_of_any hread
  obtain ⟨rfl, hid⟩ : accepted = true ∧ g.nextId ≤ 2 ^ 32 := by simpa using hread
  exact ⟨p', g, hrun, hid, structured_control_flow rfl hrun hid⟩

end ShaderEffect.Spirv

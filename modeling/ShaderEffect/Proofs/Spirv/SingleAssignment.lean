import ShaderEffect.Proofs.Failures.Compilation
import ShaderEffect.Proofs.References.Sources
import ShaderEffect.Proofs.References.Spirv
import ShaderEffect.Proofs.Spirv.Accounts
import ShaderEffect.Proofs.Spirv.ControlFlow

namespace ShaderEffect.Spirv

open Generator

section Uniforms

variable {g g' : Generator State} {w : Horizon}

/-- Closing the uniform block takes the ids that were set aside for it. -/
theorem closeUniforms_spec [w.Typed] {u : Unit} (h : closeUniforms g.target g = .ok (u, g')) :
    g.nextId ≤ g'.nextId
      ∧ (g'.nextId ≤ 2 ^ 32 →
        ∀ r ≠ 0, g'.target.taken r ≤ g.target.taken r + handed g.nextId g'.nextId r
        + [g.target.uniformType, g.target.uniformVariable].count r)
      ∧ (g'.nextId ≤ w.count → g.Tidy w → g'.Tidy w) := by
  have hothers := (computes_closeUniforms _ h).others
  obtain ⟨_, g₁, hpush, h⟩ := bind_eq_ok.mp h
  obtain ⟨_, g₂, hname, hdeclare⟩ := bind_eq_ok.mp h
  obtain rfl := modify_eq_ok.mp hpush
  have hmade : Entails (g.Tidy w) (w.Made g.target.uniformVariable) :=
    ⟨fun hg => hg.target.uniformVariable⟩
  have hproper : Entails (g.Tidy w)
      (Proper w ({ base := .struct, definition := g.target.uniformType,
                   qualifiers := .uniform } : Ty)) :=
    ⟨fun hg => ⟨nofun, fun _ => hg.target.uniformType⟩⟩
  have htype : Settles g.target.uniformType w (g.Tidy w) _ := .types
    (i := { op := Op.typeStruct, result := g.target.uniformType,
            operands := g.target.uniformMembers.toList })
  have hnamed : Numbers Accrues w (g.Tidy w) Anything (addName g.target.uniformType "$Globals") :=
    addName_numbers
  have hdeclared : Numbers (Spends g.target.uniformVariable) w (g.Tidy w) Anything (declareVariable
    g.target.uniformVariable {}
      { base := .struct, definition := g.target.uniformType, qualifiers := .uniform }
    "$Globals" .uniform 0) := declareVariable_numbers
  have hspends := (hnamed.course hname).later (hdeclared.course hdeclare)
  refine ⟨hspends.nextId, fun hcount r hr => ?_, fun hcount hg => ?_⟩
  · have hpushed := htype.taken g.target r hr
    have hclosed := hspends.taken_le hothers hcount hr
    simp only [List.count_cons, List.count_nil, beq_iff_eq] at hpushed hclosed ⊢
    omega
  · have hcount₂ := Nat.le_trans (hdeclared.course hdeclare).nextId hcount
    refine (hdeclared.result hdeclare hcount hg (hnamed.result hname hcount₂ hg ?_).1).1
    exact ⟨hg.structs, hg.functions, htype.numbered hg hg.target⟩

end Uniforms

/-- The instructions of the sections of a module have found their place, or stand in front of all
that have. One of those defines the extended instruction set, and the others nothing. -/
theorem sections_subperm (s : State) : ∃ extended : Instruction, ∃ preamble : List Instruction,
    extended.type = 0 ∧ extended.result = s.extendedSet
      ∧ (∀ i ∈ preamble, i.type = 0 ∧ i.result = 0)
      ∧ s.sections.flatten.Subperm (extended :: preamble ++ s.placed) := by
  refine ⟨Instruction.addText { op := Op.extInstImport, result := s.extendedSet } "GLSL.std.450",
    (Capability.shader :: s.capabilities).map (fun c => { op := Op.capability, operands := [c] })
      ++ s.extensions.map (Instruction.addText { op := Op.extension })
      ++ [{ op := Op.memoryModel, operands := [0, 1] }, { op := Op.source, operands := [0, 0] }],
    rfl, rfl, ?_, ?_⟩
  · refine List.forall_mem_append.mpr ⟨List.forall_mem_append.mpr ⟨?_, ?_⟩, ?_⟩
    · exact List.forall_mem_map.mpr fun _ _ => ⟨rfl, rfl⟩
    · exact List.forall_mem_map.mpr fun _ _ => ⟨rfl, rfl⟩
    · simp
  · have hfunctions : (s.functions.toList.flatMap fun f =>
        f.declaration.toList ++ f.definition.take 1 ++ f.locals.toList ++ f.definition.drop 1).Perm
          (s.functions.toList.flatMap FunctionCode.listed) := by
      refine List.Perm.flatMap_left _ fun f _ => List.perm_iff_count.mpr fun i => ?_
      have hdefinition := congrArg (List.count i) (List.take_append_drop 1 f.definition)
      simp only [FunctionCode.listed, List.count_append] at hdefinition ⊢
      omega
    refine List.subperm_ext_iff.mpr fun i _ => ?_
    have hcount := hfunctions.count_eq i
    cases hdebug : s.options.debugInfo
      <;> simp only [State.sections, State.placed, hdebug, Bool.false_eq_true, if_true, if_false,
        List.flatten_append, List.flatten_cons, List.flatten_nil, List.count_append,
        List.count_cons, List.count_nil, hcount] <;> omega

/-- What is in the sections of a module has found its place, or is the extended instruction set. -/
theorem results_sections_le (s : State) {r : Id} (hr : r ≠ 0) :
    results s.sections.flatten r ≤ results s.placed r + if s.extendedSet = r then 1 else 0 := by
  obtain ⟨extended, preamble, -, hextended, hpreamble, hsections⟩ := sections_subperm s
  have hnone : results preamble r = 0 := List.count_eq_zero.mpr fun hmem => by
    obtain ⟨i, hi, heq⟩ := List.mem_map.mp hmem
    exact hr (heq ▸ (hpreamble i hi).2)
  have hle := results_le_of_subperm hsections r
  rw [results_append, results_cons, hnone, hextended] at hle
  omega

/-- What is in the sections of a module has found its place, or has no type. -/
theorem mem_sections {s : State} {i : Instruction} (hi : i ∈ s.sections.flatten) :
    i ∈ s.placed ∨ i.type = 0 := by
  obtain ⟨extended, preamble, htype, -, hpreamble, hsections⟩ := sections_subperm s
  obtain hi | hi := List.mem_append.mp (hsections.subset hi)
  · obtain rfl | hi := List.mem_cons.mp hi
    · exact .inr htype
    · exact .inr (hpreamble i hi).1
  · exact .inl hi

theorem accounted_generator (options : Options) : Accounted (generator options) where
  toResting := (between_generator options : Between [] _).toResting
  closes b t ht := absurd ht (Option.not_mem_none t)
  taken r hr := by
    have htaken : (generator options).target.taken r = [(1 : Id), 0, 0].count r := Nat.zero_add _
    have hset : (1 : Id) = r → r.toNat < 2 := fun h => h ▸ Nat.one_lt_two
    have hnext : (generator options).nextId = 2 := rfl
    rw [htaken, handed, hnext]
    simp only [List.count_cons, List.count_nil, beq_iff_eq, Ne.symm hr, if_false]
    split_ifs <;> simp_all

section Module

variable {g g' : Generator State}

/-- The ids that were set aside are taken when the module is closed. -/
theorem taken_of_closed (h : Accounted g)
    (hclose : g' = g ∨ closeUniforms g.target g = .ok ((), g')
      ∧ g'.target.reserved = g.target.reserved) (hid : g'.nextId ≤ 2 ^ 32) {r : Id}
    (hr : r ≠ 0) : results g'.target.sections.flatten r ≤ handed 0 g'.nextId r := by
  have hsections := results_sections_le g'.target hr
  have hbefore := h.taken r hr
  simp only [State.taken, List.count_cons, List.count_nil, beq_iff_eq] at hbefore
  obtain rfl | ⟨hclose, hreserved⟩ := hclose
  · omega
  · obtain ⟨hnext, htaken, -⟩ := closeUniforms_spec (w := someRun) hclose
    have htaken := htaken hid r hr
    simp only [State.reserved, List.cons.injEq] at hreserved
    simp only [State.taken, hreserved, List.count_cons, List.count_nil,
      beq_iff_eq] at htaken hsections
    rw [← handed_add (Nat.zero_le g.nextId) hnext]
    omega

end Module

/-- Every id of a module is defined by one instruction and lies below the bound in the header,
whatever the options are. So do the types of instructions. Ids are words, and so are the levels of
scopes, so that a source may not need more of them than there are. -/
theorem single_assignment {options : Options} {source : String} {p p' : Parser}
    {g : Generator State}
    (hrun : (Parser.parseSource source p).run (generator options) = .ok ((true, p'), g)) :
    ∃ g' : Generator State,
      Backend.finish g = .ok (.words (assemble (headerOf g') g'.target.sections), g')
        ∧ (g'.nextId < 2 ^ 32 →
          (∀ i ∈ g'.target.sections.flatten, i.result ≠ 0 →
              (g'.target.sections.flatten.map (·.result)).count i.result = 1)
            ∧ (∀ i ∈ g'.target.sections.flatten, i.result < (headerOf g').bound)
            ∧ (source.length < 2 ^ 29 →
              ∀ i ∈ g'.target.sections.flatten, i.type < (headerOf g').bound)) := by
  have hensures :=
    Script.Ensures.mono (π := List Instruction) (Parser.parseSource_ensures source p)
      fun es r h => h
  obtain ⟨es, -, (hruns : Runs observe _ _ _), hitems⟩ := Script.record_of_run hensures hrun
  obtain ⟨items, rfl, hproper⟩ := hitems rfl
  obtain ⟨g', hclose, hfinish⟩ := finish_cases g
  refine ⟨g', hfinish, fun hid => ?_⟩
  have hnext : g.nextId ≤ g'.nextId := by
    obtain rfl | ⟨hclose, -⟩ := hclose
    · exact Nat.le_refl _
    · exact (computes_closeUniforms _ hclose).nextId
  have haccounted :=
    (accounted_generator options).items hproper ⟨hruns, Nat.le_trans hnext hid.le⟩
  have hpositive : 0 < g'.nextId := Nat.lt_of_lt_of_le haccounted.positive hnext
  have hbound {id : Id} (h : id.toNat < g'.nextId) : id < (headerOf g').bound := by
    rwa [headerOf, UInt32.lt_iff_toNat_lt, UInt32.toNat_ofNat_of_lt' hid]
  have htaken {i : Instruction} (hi : i ∈ g'.target.sections.flatten) (hresult : i.result ≠ 0) :
      (g'.target.sections.flatten.map (·.result)).count i.result = 1
        ∧ i.result.toNat < g'.nextId := by
    have hone := List.one_le_count_iff.mpr (List.mem_map_of_mem (f := (·.result)) hi)
    have hle : (g'.target.sections.flatten.map (·.result)).count i.result
        ≤ handed 0 g'.nextId i.result :=
      taken_of_closed haccounted hclose hid.le hresult
    unfold handed at hle
    split at hle <;> omega
  refine ⟨fun i hi hresult => (htaken hi hresult).1, fun i hi => hbound ?_,
    fun hlength i hi => hbound ?_⟩
  · by_cases hresult : i.result = 0
    · rw [hresult]
      exact hpositive
    · exact (htaken hi hresult).2
  -- Types are among the ids that were handed out, which the parser sees to, whatever it asks for.
  · have hsession := Parser.Session.source .start hlength hrun
    have htidy : Backend.Numbering.Tidy (Horizon.reaching True g'.nextId hid True) g :=
      hsession.tidy (tidy_generator options) tidy_any hnext
    have htidy' : g'.Tidy (Horizon.reaching True g'.nextId hid True) := by
      obtain rfl | ⟨hclose, -⟩ := hclose
      · exact htidy
      · exact (closeUniforms_spec hclose).2.2 (Nat.le_max_right ..) htidy
    obtain hplaced | htype := mem_sections hi
    · have hmade : i.type.toNat < max 1 g'.nextId := htidy'.target.placed i hplaced
      omega
    · rw [htype]
      exact hpositive

/-- A loop whose condition is a short circuit that reads a uniform. -/
private def circling : String :=
  "uniform float u; float f(float a) \x7b while (a < u && u < 9.0) a = a + 1.0; return a; \x7d"

set_option maxRecDepth 10000 in
/-- The hypotheses hold of a loop whose condition is a short circuit. -/
theorem single_assignment_of_circling :
    ∃ p' g g', (Parser.parseSource circling {}).run (generator {}) = .ok ((true, p'), g)
      ∧ Backend.finish g = .ok (.words (assemble (headerOf g') g'.target.sections), g')
      ∧ g'.nextId < 2 ^ 32
      ∧ (∀ i ∈ g'.target.sections.flatten, i.result ≠ 0 →
          (g'.target.sections.flatten.map (·.result)).count i.result = 1)
      ∧ (∀ i ∈ g'.target.sections.flatten, i.result < (headerOf g').bound)
      ∧ ∀ i ∈ g'.target.sections.flatten, i.type < (headerOf g').bound := by
  have hread : ((Parser.parseSource circling {}).run (generator {})).toOption.any (fun c => c.1.1
      && (Backend.finish c.2).toOption.any fun d => decide (d.2.nextId < 2 ^ 32)) = true := by
        decide +kernel
  obtain ⟨⟨⟨accepted, p'⟩, g⟩, hrun, hread⟩ := exists_of_any hread
  obtain ⟨rfl, hfinished⟩ : accepted = true ∧ (Backend.finish g).toOption.any
      (fun d => decide (d.2.nextId < 2 ^ 32)) = true := by simpa using hread
  obtain ⟨g', hfinish, hmodule⟩ := single_assignment hrun
  have hid : g'.nextId < 2 ^ 32 := by simpa [hfinish, Except.toOption] using hfinished
  obtain ⟨hone, hresults, htypes⟩ := hmodule hid
  exact ⟨p', g, g', hrun, hfinish, hid, hone, hresults, htypes (by decide)⟩

end ShaderEffect.Spirv

/-!
Types and constants are defined before they are used.

The parser refers only to structures that it was told about, and was told only about structures that
the section of types defines. The uniform block, which is defined last, is made of types that were
asked for with its members.
-/
namespace ShaderEffect.Spirv

open Generator

variable {α : Type} {g g' : Generator State}

theorem inOrder_generator (options : Options) : InOrder (generator options) where
  types := .nil
  known := by
    rintro i ((⟨_, hd, _⟩ | ⟨_, hd, _⟩)
      | (((⟨_, _, hid, _⟩ | ⟨_, _, hid, _⟩) | ⟨_, hf, _⟩) | ⟨_, hid, _⟩)
      | ⟨_, hf, _⟩)
    · exact absurd hd List.not_mem_nil
    · exact absurd hd List.not_mem_nil
    · exact absurd hid (Option.not_mem_none _)
    · exact absurd hid (Option.not_mem_none _)
    · exact absurd hf List.not_mem_nil
    · exact absurd hid List.not_mem_nil
    · exact absurd hf (Option.not_mem_none _)

/-- Requests that refer only to what is known leave the types in order. -/
theorem InOrder.run {K : Set Id} {P : α → Set Id} {x : Script α} {a : α} (hx : x.Within K P)
    (hrun : x.run g = .ok (a, g')) (hK : K ⊆ g.target.declared) (hg : InOrder g) :
    InOrder g' := by
  -- What is known in front of a request grows by what its answer refers to.
  induction x generalizing K g with
  | done b =>
    obtain ⟨-, rfl⟩ := pure_eq_ok.mp hrun
    exact hg
  | fault e => exact (throw_eq_ok.mp hrun).elim
  | ask q next ih =>
    obtain ⟨answer, g₁, hanswer, hrun⟩ := bind_eq_ok.mp hrun
    obtain ⟨hg₁, hmore, hgives⟩ := (handle_grounded q).ensures hanswer (hx.1.trans hK) hg
    exact ih answer (hx.2 answer) hrun (Set.union_subset (hK.trans hmore) hgives) hg₁

/-- The uniform block is defined behind the types of its members, and used by nothing
but its variable. -/
theorem InOrder.closeUniforms {u : Unit} (h : closeUniforms g.target g = .ok (u, g'))
    (hg : InOrder g) : InOrder g' := by
  obtain ⟨_, g₁, hpush, h⟩ := bind_eq_ok.mp h
  let block : Instruction :=
    { op := Op.typeStruct, result := g.target.uniformType,
      operands := g.target.uniformMembers.toList }
  have hcites : Id.namedAll block.cites ⊆ refs g.target := by
    have hids : block.cites = 0 :: g.target.uniformMembers.toList := rfl
    rw [hids, namedAll_cons]
    exact Set.union_subset named_zero g.target.uniformMembers_subset
  have hpush : modifyTarget (fun s => { s with types := s.types.push block }) g
      = .ok ((), g₁) := hpush
  have hknown : refs g.target ⊆ g.target.declared := Set.subset_union_right.trans hg.known
  obtain ⟨hg₁, -, hblock⟩ := (declare_grounded fun _ => hcites).ensures hpush hknown hg
  -- The variable of the block asks for a pointer to it, whose type comes last.
  have hrest : Grounded (Id.named block.result) (do
      addName g.target.uniformType "$Globals"
      declareVariable g.target.uniformVariable {}
        { base := .struct, definition := block.result, qualifiers := .uniform } "$Globals"
        .uniform 0) refs :=
    inferInstance
  exact (hrest.ensures h hblock hg₁).1

/-- In the section of types of a module, every id that an instruction cites is the result of an
instruction in front of it. These are the types of constants and undefined values, and the parts
that types and constants are made of. -/
theorem types_defined_before_use {options : Options} {source : String} {p p' : Parser}
    {g : Generator State}
    (hrun : (Parser.parseSource source p).run (generator options) = .ok ((true, p'), g)) :
    ∃ (g' : Generator State) (header : Header),
      Backend.finish g = .ok (.words (assemble header g'.target.sections), g')
        ∧ DefinedBeforeUse g'.target.types.toList := by
  obtain ⟨r, hparses, -⟩ := Parser.parseSource_parses hrun
  have hgrounded : Grounded ∅ (Parser.parseDeclarations source) refs := inferInstance
  have hwithin :=
    hgrounded.ensures (s := { noShortCircuit := p.noShortCircuit }) (r := {}) Set.Subset.rfl
      (Set.union_subset refs_nil named_zero)
  have hg : InOrder g := (inOrder_generator options).run hwithin hparses (Set.empty_subset _)
  obtain ⟨g', hclose, hfinish⟩ := finish_cases g
  refine ⟨g', _, hfinish, ?_⟩
  obtain rfl | ⟨hclose, -⟩ := hclose
  · exact hg.types
  · exact (hg.closeUniforms hclose).types

/-- A uniform block that holds a structure with an array. -/
private def nesting : String :=
  "struct S \x7b float3 a[2]; int b; \x7d; uniform S u;"

set_option maxRecDepth 10000 in
/-- The types of structures and arrays are in order. -/
theorem types_of_nesting_defined_before_use :
    ∃ p' g g' header, (Parser.parseSource nesting {}).run (generator {}) = .ok ((true, p'), g)
      ∧ Backend.finish g = .ok (.words (assemble header g'.target.sections), g')
      ∧ DefinedBeforeUse g'.target.types.toList := by
  have haccepted :
      ((Parser.parseSource nesting {}).run (generator {})).toOption.any (fun c => c.1.1)
        = true := by
    decide +kernel
  obtain ⟨⟨⟨accepted, p'⟩, g⟩, hrun, haccepted⟩ := exists_of_any haccepted
  obtain rfl : accepted = true := haccepted
  obtain ⟨g', header, hfinish, htypes⟩ := types_defined_before_use hrun
  exact ⟨p', g, g', header, hrun, hfinish, htypes⟩

end ShaderEffect.Spirv

import ShaderEffect.Compilation
import ShaderEffect.Proofs.Failures.Sources
import ShaderEffect.Proofs.Numbering.Blocks
import ShaderEffect.Proofs.Numbering.Source
import ShaderEffect.Proofs.Preprocessing.Parts
import ShaderEffect.Proofs.Reading.Termination
import ShaderEffect.Proofs.Reuse.Sources

/-!
Failure is reported exactly when it happens.

A source that was not read without errors has left an error among the messages, and only such a
source has. The same holds of compilations, in which either the preprocessor or the parser fails.
The preprocessor only ever adds messages, and notes there whether an error is among them.
-/
namespace ShaderEffect

/-- Whether messages are added, and it is noted whether there is an error among them. -/
def Preprocessor.Tallies (p p' : Preprocessor) : Prop :=
  ∃ added, p'.diagnostics = p.diagnostics ++ added
    ∧ p'.success = (p.success && !Diagnostics.hasErrors added)

namespace Preprocessor

namespace Tallies

variable {p p₁ p' : Preprocessor}

/-- Where nothing is reported, nothing has to be noted. -/
theorem of_eq (hdiagnostics : p'.diagnostics = p.diagnostics) (hsuccess : p'.success = p.success) :
    p.Tallies p' := by
  refine ⟨[], by rw [hdiagnostics, List.append_nil], ?_⟩
  rw [hsuccess, Diagnostics.hasErrors, List.any_nil, Bool.not_false, Bool.and_true]

theorem trans (h : p.Tallies p₁) (h' : p₁.Tallies p') : p.Tallies p' := by
  obtain ⟨added, hadded, hsuccess⟩ := h
  obtain ⟨more, hmore, hsuccess'⟩ := h'
  refine ⟨added ++ more, by rw [hmore, hadded, List.append_assoc], ?_⟩
  rw [hsuccess', hsuccess, Diagnostics.hasErrors, Diagnostics.hasErrors, Diagnostics.hasErrors,
    List.any_append, Bool.not_or, Bool.and_assoc]

/-- A state with which there were no errors so far has failed behind an error. -/
theorem success_iff (h : p.Tallies p') (hstart : p.success = true) (hempty : p.diagnostics = []) :
    p'.success = true ↔ Diagnostics.hasErrors p'.diagnostics = false := by
  obtain ⟨added, hadded, hsuccess⟩ := h
  rw [hadded, hempty, List.nil_append, hsuccess, hstart, Bool.true_and, Bool.not_eq_true']

end Tallies

instance : IsPreorder Preprocessor Tallies where
  refl _ := .of_eq rfl rfl
  trans _ _ _ h h' := h.trans h'

instance report_tallies {severity : Severity} {location : Location} {message : String} :
    Relates Tallies (report severity location message) where
  relates h := by
    obtain rfl := modify_eq_ok.mp h
    refine ⟨_, rfl, ?_⟩
    cases severity <;> rfl

instance error_tallies {location : Location} {message : String} :
    Relates Tallies (error location message) := report_tallies

/-- A change of something else. -/
instance modify_tallies {f : Preprocessor → Preprocessor}
    [hdiagnostics : ∀ p, Same (f p).diagnostics p.diagnostics]
    [hsuccess : ∀ p, Same (f p).success p.success] :
    Relates Tallies (modify f : PreM Unit) where
  relates h := modify_eq_ok.mp h ▸ .of_eq (hdiagnostics _).eq (hsuccess _).eq

instance closeGroups_tallies {level : Nat} : Relates Tallies (closeGroups level) := by
  unfold closeGroups
  infer_instance

instance isFinished_tallies {level : Nat} : Relates Tallies (isFinished level) := by
  unfold isFinished
  refine .andThen fun ended => ?_
  split
  · infer_instance
  · refine .andThen fun _ => .andThen fun p => ?_
    split <;> infer_instance

instance popFinished_tallies {level : Nat} : Relates Tallies (popFinished level) := by
  induction level with
  | zero =>
    unfold popFinished
    infer_instance
  | succ level ih =>
    unfold popFinished
    infer_instance

instance enterSource_tallies {input : Input} : Relates Tallies (enterSource input) := by
  unfold enterSource
  infer_instance

instance consume_tallies : Relates Tallies consume := by
  unfold consume
  refine .andThen fun _ => .andThen fun p => ?_
  split
  · infer_instance
  · refine .andThen fun p => .andThen fun _ => .andThen fun p => ?_
    split <;> infer_instance

instance : Regrouping Tallies where
  alike h := .of_eq h.diagnostics h.success
  report := report_tallies
  consume := consume_tallies
  push _ _ := .of_eq rfl rfl
  truncate _ := .of_eq rfl rfl
  regroup _ _ := .of_eq rfl rfl

/-- What was preprocessed without messages so far has failed if and only if an
error is among them. -/
theorem appendText_success {fuel : Nat} {text name : String} {p p' : Preprocessor} {ok : Bool}
    (h : appendText fuel text name p = .ok (ok, p')) (hempty : p.diagnostics = []) :
    ok = true ↔ Diagnostics.hasErrors p'.diagnostics = false := by
  obtain ⟨_, p₁, hstart, h⟩ := bind_eq_ok.mp h
  obtain rfl := modify_eq_ok.mp hstart
  obtain ⟨_, p₂, hpush, h⟩ := bind_eq_ok.mp h
  obtain ⟨_, p₃, hprocess, h⟩ := bind_eq_ok.mp h
  obtain ⟨q, p₄, hget, h⟩ := bind_eq_ok.mp h
  obtain ⟨rfl, rfl⟩ := get_eq_ok.mp hget
  obtain ⟨rfl, rfl⟩ := pure_eq_ok.mp h
  have hread : Tallies _ p₂ := push_relates.relates hpush
  exact (hread.trans (processAll_relates.relates hprocess)).success_iff rfl hempty

theorem appendFile_success {fuel : Nat} {path : String} {p p' : Preprocessor} {ok : Bool}
    (h : appendFile fuel path p = .ok (.ok ok, p')) (hempty : p.diagnostics = []) :
    ok = true ↔ Diagnostics.hasErrors p'.diagnostics = false := by
  obtain ⟨q, p₁, hget, h⟩ := bind_eq_ok.mp h
  obtain ⟨rfl, rfl⟩ := get_eq_ok.mp hget
  cases hread : p.files.read path with
  | error e =>
    rw [hread] at h
    cases (pure_eq_ok.mp h).1
  | ok content =>
    rw [hread] at h
    obtain ⟨ok', p₂, happend, h⟩ := bind_eq_ok.mp h
    obtain ⟨heq, rfl⟩ := pure_eq_ok.mp h
    cases heq
    exact appendText_success happend hempty

end Preprocessor

/-- What a run comes to that hands out so many ids. -/
abbrev Horizon.reaching (typed : Prop) (count : Nat) (h : count < 2 ^ 32) (failed : Prop) :
    Horizon where
  count := max 1 count
  failed := failed
  typed := typed
  pos := by omega
  lt := by omega

instance {count : Nat} {h : count < 2 ^ 32} {failed : Prop} :
    (Horizon.reaching True count h failed).Typed := ⟨trivial⟩
instance {count : Nat} {h : count < 2 ^ 32} {failed : Prop} :
    (Horizon.reaching False count h failed).Untyped := ⟨id⟩

namespace Parser

variable {β : Type} [Backend β]

/-- What a parser reports of a source does not depend on what it read before. -/
theorem parseSource_parses {source : String} {p p' : Parser} {g g' : Generator β} {ok : Bool}
    (h : (parseSource source p).run g = .ok ((ok, p'), g')) : ∃ r : Reader,
      Parses (parseDeclarations source) { noShortCircuit := p.noShortCircuit } {} g ok r g'
        ∧ p'.diagnostics = p.diagnostics ++ r.diagnostics := by
  unfold parseSource at h
  rw [Script.run_bind] at h
  obtain ⟨⟨ok', r'⟩, g₁, hrun, h⟩ := bind_eq_ok.mp h
  obtain ⟨heq, rfl⟩ := pure_eq_ok.mp h
  obtain ⟨rfl, rfl⟩ := Prod.mk.inj heq
  have hmatches :=
    @parseDeclarations_matches source { noShortCircuit := p.noShortCircuit } _ p.toReader {}
      (List.append_nil p.diagnostics).symm
  obtain ⟨⟨ok, r⟩, hrun, rfl, halike⟩ := hmatches.run hrun
  exact ⟨r, hrun, halike.diagnostics⟩

/-- Reads the declarations of a source from behind its first token. -/
theorem parseDeclarations_parses {source : String} {s : Surroundings} {r r' : Reader}
    {g g' : Generator β} {ok : Bool} (h : Parses (parseDeclarations source) s r g ok r' g') :
    ∃ valid, Parses (do consume; loop (declarationsRound source) true : ParseM Bool) s
      (startOf source r) g valid r' g' ∧ ok = (valid && decide (r'.errors = 0)) := by
  rw [parseDeclarations_eq] at h
  obtain ⟨_, r₀, g₀, hstart, h⟩ := Parses.bind_iff.mp h
  obtain ⟨-, rfl, rfl⟩ := hstart.of_run rfl
  obtain ⟨_, r₁, g₁, hconsume, h⟩ := Parses.bind_iff.mp h
  obtain ⟨valid, r₂, g₂, hloop, h⟩ := Parses.bind_iff.mp h
  obtain ⟨r₃, r₄, g₄, hget, h⟩ := Parses.bind_iff.mp h
  obtain ⟨rfl, rfl, rfl⟩ := hget.of_run rfl
  obtain ⟨rfl, rfl, rfl⟩ := h.pure
  exact ⟨valid, Parses.bind_iff.mpr ⟨_, _, _, hconsume, hloop⟩, rfl⟩

section

variable {w : Horizon} [Backend.Numbering w β]

instance declarationsRound_honest {source : String} {valid : Bool} {Γ : Prop}
    [Entails Γ (Proper w valid)] :
    Honest w β (.outside (depthFor source.length)) Γ (Proper w)
      (declarationsRound source valid) := by
  unfold declarationsRound
  infer_instance

/-- The scopes of a source that is not too long can be counted. -/
theorem depthFor_lt {length : Nat} (h : length < 2 ^ 29) : depthFor length < 2 ^ 32 := by
  unfold depthFor
  omega

/-- In front of a source there are no names. -/
theorem startOf_upright {source : String} {g : Generator β} (hlength : source.length < 2 ^ 29)
    (htidy : Backend.Numbering.Tidy w g) :
    Upright w (.outside (depthFor source.length)) (startOf source {}) g where
  proper := ⟨fun _ he => absurd he List.not_mem_nil, nofun, fun _ => w.made_zero⟩
  registered _ he := absurd he List.not_mem_nil
  place := by
    have hlevel : (startOf source {}).symbols.current.level.toNat = 0 := rfl
    have hdepth := depthFor_lt hlength
    exact ⟨rfl, by omega⟩
  tidy := htidy

theorem declarations_honest (source : String) :
    Honest w β (.outside (depthFor source.length)) True (Proper w) (do
    consume
    loop (declarationsRound source) true : ParseM Bool) :=
  inferInstance

theorem parseDeclarations_grows (w : Horizon) [Backend.Numbering w β] {source : String}
    {s : Surroundings} {r r' : Reader} {g g' : Generator β} {ok : Bool}
    (h : Parses (parseDeclarations source) s r g ok r' g') :
    g.nextId ≤ g'.nextId := by
  obtain ⟨_, hrun, -⟩ := parseDeclarations_parses h
  exact ((declarations_honest (w := w) source).leaves hrun).grows.nextId

/-- A source fails if and only if it adds an error to the messages. -/
theorem parseDeclarations_reports {source : String} {s : Surroundings} {r' : Reader}
    {g g' : Generator β} {ok : Bool} (h : Parses (parseDeclarations source) s {} g ok r' g')
    (hlength : source.length < 2 ^ 29) (hcount : g'.nextId ≤ w.count)
    (hfailed : w.failed ↔ 0 < r'.errors) (htidy : Backend.Numbering.Tidy w g) :
    Backend.Numbering.Tidy w g'
      ∧ (ok = false ↔ Diagnostics.hasErrors r'.diagnostics = true) := by
  obtain ⟨valid, hrun, rfl⟩ := parseDeclarations_parses h
  have hstart := startOf_upright hlength htidy
  have hhonest := declarations_honest (β := β) (w := w) source
  obtain ⟨hupright, hvalid⟩ := hhonest.result hrun ⟨hcount, hfailed.mpr⟩ trivial hstart
  obtain ⟨added, hadded, hiff⟩ := (hhonest.leaves hrun).accounts.recorded
  have herrors : (startOf source {}).errors = 0 := rfl
  have hdiagnostics : (startOf source {}).diagnostics = [] := rfl
  rw [hdiagnostics, List.nil_append] at hadded
  rw [herrors] at hiff
  refine ⟨hupright.tidy, ?_⟩
  rw [hadded, hiff (by decide), ← hfailed, Bool.and_eq_false_iff, decide_eq_false_iff_not]
  constructor
  · rintro (rfl | hpositive)
    · exact hvalid.resolve_left Bool.false_ne_true
    · exact hfailed.mpr (Nat.pos_of_ne_zero hpositive)
  · exact fun hw => .inr (hfailed.mp hw).ne'

end

/-- The states of a generator between the sources that are parsed with it, none of
which is too long. -/
inductive Session (g₀ : Generator β) : Generator β → Prop
  | start : Session g₀ g₀
  | source {g g' : Generator β} {source : String} {p : Parser} {result : Bool × Parser}
      (h : Session g₀ g) (hlength : source.length < 2 ^ 29)
      (hrun : (parseSource source p).run g = .ok (result, g')) : Session g₀ g'

/-- Whether a parser that uses a generator reports failures: it fails on a source if and only if it
adds an error to its messages. Ids and the levels of scopes are words, so that a source may not need
more than there are. -/
structure Reports (g₀ : Generator β) : Prop where
  sources : ∀ {g g' : Generator β} {p p' : Parser} {source : String} {ok : Bool},
    Session g₀ g → source.length < 2 ^ 29 →
    (parseSource source p).run g = .ok ((ok, p'), g') → g'.nextId < 2 ^ 32 →
      ∃ added, p'.diagnostics = p.diagnostics ++ added
        ∧ (ok = false ↔ Diagnostics.hasErrors added = true)

variable {g₀ : Generator β}

/-- What a target relies on holds between sources, whichever run they belong to. -/
theorem Session.tidy {typed : Prop}
    [∀ count h failed, Backend.Numbering (Horizon.reaching typed count h failed) β]
    {g : Generator β} {count : Nat} {h : count < 2 ^ 32} {failed : Prop}
    (hsession : Session g₀ g)
    (hstart : g₀.nextId ≤ count →
      Backend.Numbering.Tidy (Horizon.reaching typed count h failed) g₀)
    (hany : ∀ {failed failed' g},
      Backend.Numbering.Tidy (Horizon.reaching typed count h failed) g →
      Backend.Numbering.Tidy (Horizon.reaching typed count h failed') (g : Generator β))
    (hcount : g.nextId ≤ count) :
    Backend.Numbering.Tidy (Horizon.reaching typed count h failed) g := by
  induction hsession with
  | start => exact hstart hcount
  | source _ hlength hrun ih =>
    obtain ⟨r, hparses, -⟩ := parseSource_parses hrun
    have hgrows := parseDeclarations_grows (Horizon.reaching typed count h failed) hparses
    have htidy : Backend.Numbering.Tidy (Horizon.reaching typed count h (0 < r.errors)) _ :=
      hany (ih (Nat.le_trans hgrows hcount))
    exact hany (parseDeclarations_reports hparses hlength
      (Nat.le_trans hcount (Nat.le_max_right ..)) .rfl htidy).1

/-- A target that gives ids that were handed out lets a parser report failures. -/
theorem Reports.of_numbering (typed : Prop)
    [∀ count h failed, Backend.Numbering (Horizon.reaching typed count h failed) β]
    (hstart : ∀ {count h failed}, g₀.nextId ≤ count →
      Backend.Numbering.Tidy (Horizon.reaching typed count h failed) g₀)
    (hany : ∀ {count h failed failed' g},
      Backend.Numbering.Tidy (Horizon.reaching typed count h failed) g →
      Backend.Numbering.Tidy (Horizon.reaching typed count h failed') (g : Generator β)) :
    Reports g₀ := by
  refine ⟨fun {g g' p p' source ok} hsession hlength hrun hcount => ?_⟩
  obtain ⟨r, hparses, hdiagnostics⟩ := parseSource_parses hrun
  have hgrows :=
    parseDeclarations_grows (Horizon.reaching typed g'.nextId hcount (0 < r.errors)) hparses
  have htidy : Backend.Numbering.Tidy (Horizon.reaching typed g'.nextId hcount (0 < r.errors)) g :=
    hsession.tidy hstart hany hgrows
  exact ⟨r.diagnostics, hdiagnostics,
    (parseDeclarations_reports hparses hlength (Nat.le_max_right ..) .rfl htidy).2⟩

end Parser

namespace Spirv

variable {count : Nat} {h : count < 2 ^ 32} {failed failed' : Prop}

/-- In the beginning, one id is handed out, which is that of the extended instruction set. -/
theorem tidy_generator (o : Options) (hcount : (generator o).nextId ≤ count) :
    (generator o).Tidy (Horizon.reaching True count h failed) where
  structs := List.forall_mem_nil _
  functions _ := List.forall_mem_nil _
  target :=
    { placed := List.forall_mem_nil _
      code := fun _ => List.forall_mem_nil _
      extendedSet := Nat.lt_of_lt_of_le hcount (Nat.le_max_right ..)
      uniformType := Horizon.made_zero
      uniformVariable := Horizon.made_zero
      typeIds := fun _ _ h => absurd h (Option.not_mem_none _)
      constantIds := fun _ _ h => absurd h (Option.not_mem_none _)
      functionTypes := List.forall_mem_nil _
      returnType := fun _ h => absurd h (Option.not_mem_none _) }

theorem tidy_any {g : Generator State} (hg : g.Tidy (Horizon.reaching True count h failed)) :
    g.Tidy (Horizon.reaching True count h failed') where
  structs := hg.structs
  functions := hg.functions
  target :=
    { placed := hg.target.placed
      code := hg.target.code
      extendedSet := hg.target.extendedSet
      uniformType := hg.target.uniformType
      uniformVariable := hg.target.uniformVariable
      typeIds := hg.target.typeIds
      constantIds := hg.target.constantIds
      functionTypes := hg.target.functionTypes
      returnType := hg.target.returnType }

theorem reports (o : Options) : Parser.Reports (generator o) :=
  .of_numbering True (tidy_generator o) tidy_any

end Spirv

namespace Source

variable {δ : Type} {count : Nat} {h : count < 2 ^ 32} {failed failed' : Prop}

theorem tidy_start {g : Generator (State δ)} (hstructs : g.structs = []) :
    g.Tidy (Horizon.reaching False count h failed) where
  structs := hstructs ▸ List.forall_mem_nil _
  functions := False.elim
  target := trivial

theorem tidy_any {g : Generator (State δ)} (hg : g.Tidy (Horizon.reaching False count h failed)) :
    g.Tidy (Horizon.reaching False count h failed') :=
  ⟨hg.structs, hg.functions, hg.target⟩

end Source

theorem Glsl.reports (o : Glsl.Options) : Parser.Reports (Glsl.generator o) :=
  .of_numbering False (fun _ => Source.tidy_start rfl) Source.tidy_any

theorem Hlsl.reports (o : Hlsl.Options) : Parser.Reports (Hlsl.generator o) :=
  .of_numbering False (fun _ => Source.tidy_start rfl) Source.tidy_any

/-- The number of the first id that is not handed out when a source is parsed. -/
def Parser.idsOf {β : Type} [Backend β] (source : String) (p : Parser) (g : Generator β) : Nat :=
  match (parseSource source p).run g with
  | .ok (_, g') => g'.nextId
  | .error _ => g.nextId

/-- The number of the first id that is not handed out when a preprocessed source is
parsed for a target. -/
def Options.idsOf (o : Options) (target : Target) (source : String) : Nat :=
  let { vulkanSemantics, debugInfo, uniformsToSpecConstants, invertY, noShortCircuit, .. } := o
  let p : Parser := { noShortCircuit }
  match target with
  | .spirv => Parser.idsOf source p
    (Spirv.generator { vulkanSemantics, debugInfo, uniformsToSpecConstants, invertY })
  | .glsl =>
    Parser.idsOf source p
      (Glsl.generator
        { version := o.glslVersion, vulkanSemantics, debugInfo, uniformsToSpecConstants, invertY })
  | .hlsl =>
    Parser.idsOf source p
      (Hlsl.generator { shaderModel := o.shaderModel, debugInfo, uniformsToSpecConstants })

/-- Whether what was parsed needs no more ids and scopes than words can count. -/
structure Result.Fits (r : Result) (o : Options) : Prop where
  length : r.preprocessed.length < 2 ^ 29
  ids : o.idsOf r.target r.preprocessed < 2 ^ 32

theorem generateWith_reports {β : Type} [Backend β] {g₀ : Generator β}
    (hreports : Parser.Reports g₀) {p : Parser} {source : String} {g : Generated}
    (h : generateWith g₀ p source = .ok g) (hlength : source.length < 2 ^ 29)
    (hids : Parser.idsOf source p g₀ < 2 ^ 32) :
    ∃ added, g.parser.diagnostics = p.diagnostics ++ added
      ∧ (g.success = false ↔ Diagnostics.hasErrors added = true) := by
  obtain ⟨⟨⟨ok, p'⟩, g'⟩, hrun, h⟩ := except_bind_eq_ok.mp h
  obtain ⟨⟨code, g''⟩, -, h⟩ := except_bind_eq_ok.mp h
  rw [← except_pure_eq_ok.mp h]
  rw [Parser.idsOf] at hids
  have hrun : (Parser.parseSource source p).run g₀ = .ok ((ok, p'), g') := hrun
  rw [hrun] at hids
  exact hreports.sources .start hlength hrun hids

/-- Code generation fails if and only if the parser adds an error to its messages. -/
theorem generate_reports {o : Options} {target : Target} {source : String} {g : Generated}
    (h : generate o target { noShortCircuit := o.noShortCircuit } source = .ok g)
    (hlength : source.length < 2 ^ 29) (hids : o.idsOf target source < 2 ^ 32) :
    g.success = false ↔ Diagnostics.hasErrors g.parser.diagnostics = true := by
  have hadded : ∃ added, g.parser.diagnostics = [] ++ added
      ∧ (g.success = false ↔ Diagnostics.hasErrors added = true) := by
    cases target with
    | spirv => exact generateWith_reports (Spirv.reports _) h hlength hids
    | glsl => exact generateWith_reports (Glsl.reports _) h hlength hids
    | hlsl => exact generateWith_reports (Hlsl.reports _) h hlength hids
  obtain ⟨added, hadded, hiff⟩ := hadded
  rwa [hadded, List.nil_append]

/-- Settings leave no messages. -/
theorem Options.preprocessor_diagnostics (o : Options) (files : Files) :
    (o.preprocessor files).diagnostics = [] := by
  have hdefine (p : Preprocessor) (d : String × String) :
      ((p.define? d.1 (Preprocessor.Macro.ofText d.2)).getD p).diagnostics = p.diagnostics := by
    unfold Preprocessor.define?
    split <;> rfl
  have hfold (defines : List (String × String)) : ∀ p : Preprocessor,
      (defines.foldl (fun p d => (p.define? d.1 (Preprocessor.Macro.ofText d.2)).getD p)
        p).diagnostics = p.diagnostics := by
    induction defines with
    | nil => exact fun _ => rfl
    | cons d defines ih => exact fun p => (ih _).trans (hdefine p d)
  exact hfold o.defines _

theorem finishCompilation_reports {o : Options} {target : Target} {p : Preprocessor} {ok : Bool}
    {r : Result} (h : finishCompilation o target p ok = .ok r)
    (hok : ok = true ↔ Diagnostics.hasErrors p.diagnostics = false) (hfits : r.Fits o) :
    r.success = false ↔ Diagnostics.hasErrors r.diagnostics = true := by
  unfold finishCompilation at h
  cases ok with
  | false =>
    rw [← except_pure_eq_ok.mp h]
    exact iff_of_true rfl (by simpa using hok)
  | true =>
    obtain ⟨g, hg, h⟩ := except_bind_eq_ok.mp h
    rw [← except_pure_eq_ok.mp h] at hfits ⊢
    have hreports := generate_reports hg hfits.length hfits.ids
    rw [Diagnostics.hasErrors] at hok hreports ⊢
    rw [List.any_append, hok.mp rfl, Bool.false_or]
    exact hreports

/-- A compilation fails if and only if there is an error among its messages, and a parser fails on a
source if and only if it adds one to them. Ids and the levels of scopes are words, so that a source
may not need more than there are. -/
theorem failure_reported :
    (∀ (o : Options) (files : Files) (name source : String) (r : Result),
      compile o files name source = .ok (.ok r) →
      r.Fits o → (r.success = false ↔ Diagnostics.hasErrors r.diagnostics = true))
    ∧ (∀ (o : Options) (files : Files) (path : String) (r : Result),
      compileFile o files path = .ok (.ok r) →
      r.Fits o → (r.success = false ↔ Diagnostics.hasErrors r.diagnostics = true))
    ∧ (∀ o : Spirv.Options, Parser.Reports (Spirv.generator o))
    ∧ (∀ o : Glsl.Options, Parser.Reports (Glsl.generator o))
    ∧ ∀ o : Hlsl.Options, Parser.Reports (Hlsl.generator o) := by
  refine ⟨fun o files name source r h hfits => ?_, fun o files path r h hfits => ?_,
    Spirv.reports, Glsl.reports, Hlsl.reports⟩
  · unfold compile at h
    cases htarget : o.checkTarget with
    | error e =>
      rw [htarget] at h
      cases except_pure_eq_ok.mp h
    | ok target =>
      rw [htarget] at h
      obtain ⟨⟨ok, p⟩, happend, h⟩ := except_bind_eq_ok.mp h
      obtain ⟨r', hfinish, h⟩ := except_bind_eq_ok.mp h
      cases except_pure_eq_ok.mp h
      have hok := Preprocessor.appendText_success happend (o.preprocessor_diagnostics files)
      exact finishCompilation_reports hfinish hok hfits
  · unfold compileFile at h
    cases htarget : o.checkTarget with
    | error e =>
      rw [htarget] at h
      cases except_pure_eq_ok.mp h
    | ok target =>
      rw [htarget] at h
      obtain ⟨⟨outcome, p⟩, happend, h⟩ := except_bind_eq_ok.mp h
      cases outcome with
      | error e => cases except_pure_eq_ok.mp h
      | ok ok =>
        obtain ⟨r', hfinish, h⟩ := except_bind_eq_ok.mp h
        cases except_pure_eq_ok.mp h
        have hok := Preprocessor.appendFile_success happend (o.preprocessor_diagnostics files)
        exact finishCompilation_reports hfinish hok hfits

/-- A function that gives a value that was not declared. -/
private def undeclared : String :=
  "int f() \x7b return g; \x7d"

set_option maxRecDepth 10000 in
/-- The hypotheses hold of a value that was not declared. -/
theorem failure_reported_of_undeclared :
    (∃ r, compile {} {} "effect.fx" undeclared = .ok (.ok r) ∧ r.Fits {}
      ∧ r.success = false ∧ Diagnostics.hasErrors r.diagnostics = true)
    ∧ ∃ p' g, (Parser.parseSource undeclared {}).run (Spirv.generator {}) = .ok ((false, p'), g)
      ∧ g.nextId < 2 ^ 32
      ∧ Diagnostics.hasErrors p'.diagnostics = true := by
  obtain ⟨hcompile, -, hspirv, -⟩ := failure_reported
  constructor
  · have hresult : (compile {} {} "effect.fx" undeclared).toOption.any (fun outcome =>
        outcome.toOption.any fun r =>
        !r.success && decide (r.preprocessed.length < 2 ^ 29)
        && decide (Options.idsOf {} r.target r.preprocessed < 2 ^ 32)) = true := by decide +kernel
    obtain ⟨outcome, hrun, houtcome⟩ := exists_of_any hresult
    obtain ⟨r, rfl, hr⟩ := exists_of_any houtcome
    obtain ⟨⟨hsuccess, hlength⟩,
        hids⟩ : (r.success = false ∧ r.preprocessed.length < 2 ^ 29)
        ∧ Options.idsOf {} r.target r.preprocessed < 2 ^ 32 := by simpa using hr
    exact ⟨r, hrun, ⟨hlength, hids⟩, hsuccess,
      (hcompile {} {} _ _ r hrun ⟨hlength, hids⟩).mp hsuccess⟩
  · have hread :
        ((Parser.parseSource undeclared {}).run (Spirv.generator {})).toOption.any (fun c =>
        !c.1.1 && decide (c.2.nextId < 2 ^ 32)) = true := by decide +kernel
    obtain ⟨⟨⟨ok, p'⟩, g⟩, hrun, hread⟩ := exists_of_any hread
    obtain ⟨rfl, hids⟩ : ok = false ∧ g.nextId < 2 ^ 32 := by simpa using hread
    obtain ⟨added, hadded, hiff⟩ := (hspirv {}).sources .start (by decide) hrun hids
    exact ⟨p', g, hrun, hids, hadded ▸ hiff.mp rfl⟩

end ShaderEffect

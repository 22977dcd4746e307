import ShaderEffect.Proofs.Failures.Declarations
import ShaderEffect.Proofs.Reading.Statements

namespace ShaderEffect

namespace Reader

variable {r r' : Reader}

theorem depth_exited (h : r'.depth = r.entered.depth) : r'.exited.depth = r.depth := by
  obtain ⟨hlevel, hnamespace⟩ := Prod.mk.inj h
  exact Prod.ext ((congrArg (· - 1) hlevel).trans (UInt32.add_sub_cancel _ _)) hnamespace

theorem proper_exited {w : Horizon} (h : Proper w r) : Proper w r.exited :=
  ⟨fun e he => h.1 e (List.mem_filter.mp he).1, h.2⟩

theorem Accounts.exited (h : r.entered.Accounts r') : r.Accounts r'.exited :=
  (of_eq rfl rfl : r.Accounts r.entered).trans (h.trans (of_eq rfl rfl))

end Reader

theorem Leaves.exited {β : Type} {r r' : Reader} {g g' : Generator β}
    (h : Leaves r.entered g r' g') :
    Leaves r g r'.exited g' :=
  ⟨h.accounts.exited, Reader.depth_exited h.depth, h.grows⟩

namespace Parses

variable {α : Type} {β : Type} [Backend β] {s : Surroundings} {r r' : Reader}
  {g g' : Generator β}

/-- A part in a scope of its own runs between entering and leaving it. -/
theorem scoped_iff {γ : Type} {a : α} {x : ParseM γ} {f : γ → ParseM α} :
    Parses (do Parser.enterScope; let c ← x; Parser.leaveScope; f c) s r g a r' g' ↔
      ∃ c r₁ g₁, Parses x s r.entered g c r₁ g₁
        ∧ Parses (f c) s r₁.exited g₁ a r' g' := by
  constructor
  · intro h
    obtain ⟨_, r₀, g₀, hread₀, h⟩ := bind_iff.mp h
    obtain ⟨henter, rfl⟩ := hread₀.read
    obtain rfl := modify_eq_ok.mp henter
    obtain ⟨c, r₁, g₁, hx, h⟩ := bind_iff.mp h
    obtain ⟨_, r₂, g₂, hread₂, h⟩ := bind_iff.mp h
    obtain ⟨hleave, rfl⟩ := hread₂.read
    obtain rfl := modify_eq_ok.mp hleave
    exact ⟨c, r₁, g₁, hx, h⟩
  · rintro ⟨c, r₁, g₁, hx, h⟩
    exact bind_iff.mpr ⟨(), r.entered, g, rfl,
      bind_iff.mpr ⟨c, r₁, g₁, hx, bind_iff.mpr ⟨(), r₁.exited, g₁, rfl, h⟩⟩⟩

end Parses

namespace Parser

variable {β : Type} [Backend β] {w : Horizon} [Backend.Numbering w β] {σ : Place}
  {level : UInt32} {Γ : Prop}

/-- A scope inside of a function is left as it was entered. -/
theorem scoped_inside {α γ : Type} {P : α → Prop} (R : γ → Prop) {x : ParseM γ}
    {f : γ → ParseM α} [hx : Honest w β (.inside level) Γ R x]
    (hf : ∀ c, Honest w β (.inside level) (Γ ∧ R c) P (f c)) :
    Honest w β (.inside level) Γ P (do enterScope; let c ← x; leaveScope; f c) where
  leaves h := by
    obtain ⟨c, r₁, g₁, hrun, hrest⟩ := Parses.scoped_iff.mp h
    exact (hx.leaves hrun).exited.trans ((hf c).leaves hrest)
  result h hcovers hΓ hr := by
    obtain ⟨c, r₁, g₁, hrun, hrest⟩ := Parses.scoped_iff.mp h
    have hleaves := (hf c).leaves hrest
    have hcovers₁ := hcovers.of_leaves hleaves.accounts hleaves.grows
    obtain ⟨hr₁, hc⟩ :=
      hx.result hrun ⟨hcovers₁.nextId, hcovers₁.failed⟩ hΓ
        ⟨hr.proper, hr.registered, trivial, hr.tidy⟩
    refine (hf c).result hrest hcovers ⟨hΓ, hc⟩ ⟨Reader.proper_exited hr₁.proper,
      fun e he => ?_, trivial, hr₁.tidy⟩
    exact hr₁.registered e (List.mem_filter.mp he).1

/-- What a function declares inside of it is forgotten behind it. -/
theorem scoped_outside {α γ : Type} {P : α → Prop} {room : Nat} (R : γ → Prop)
    {x : ParseM γ} {f : γ → ParseM α} (hx : ∀ level, Honest w β (.head level) Γ R x)
    (hf : ∀ c, Honest w β (.outside (room + 1)) (Γ ∧ R c) P (f c)) :
    Honest w β (.outside (room + 1)) Γ P (do enterScope; let c ← x; leaveScope; f c) where
  leaves h := by
    obtain ⟨c, r₁, g₁, hrun, hrest⟩ := Parses.scoped_iff.mp h
    exact ((hx 0).leaves hrun).exited.trans ((hf c).leaves hrest)
  result {s r g a r' g'} h hcovers hΓ hr := by
    obtain ⟨c, r₁, g₁, hrun, hrest⟩ := Parses.scoped_iff.mp h
    have hleaves := (hf c).leaves hrest
    have hcovers₁ := hcovers.of_leaves hleaves.accounts hleaves.grows
    have hx := hx (r.symbols.current.level + 1)
    have hdepth := (hx.leaves hrun).depth
    obtain ⟨heq, hroom⟩ := hr.place
    have hplace : r.symbols.current.namespaceLevel < r.symbols.current.level + 1 := by
      rw [← heq, UInt32.lt_iff_toNat_lt, UInt32.toNat_add]
      simp only [UInt32.reduceToNat]
      omega
    have hentered : Upright w (.head (r.symbols.current.level + 1)) r.entered g :=
      ⟨hr.proper, fun e he => ⟨(hr.registered e he).function, fun htype hid =>
        ((hr.registered e he).texture htype hid).imp_right False.elim⟩,
        ⟨rfl, hplace⟩, hr.tidy⟩
    obtain ⟨hr₁, hc⟩ := hx.result hrun ⟨hcovers₁.nextId, hcovers₁.failed⟩ hΓ hentered
    refine (hf c).result hrest hcovers ⟨hΓ, hc⟩ ⟨Reader.proper_exited hr₁.proper,
      fun e he => ?_, ?_, hr₁.tidy⟩
    · obtain ⟨he, hkept⟩ := List.mem_filter.mp he
      refine ⟨(hr₁.registered e he).function, fun htype hid =>
        ((hr₁.registered e he).texture htype hid).imp_right fun ⟨hlevel, hlocal⟩ => ?_⟩
      -- A parameter lies in the scope that is left.
      have hlevel₁ : r₁.symbols.current.level = e.scope.level := hr₁.place.1.trans hlevel.symm
      simp only [SymbolTable.Entry.isLocalFrom, hlevel₁, Bool.not_eq_true', Bool.and_eq_false_iff,
        decide_eq_false_iff_not] at hkept
      exact hkept.elim (fun h => h hlocal) fun h => h (UInt32.le_refl _)
    · exact hr.place.of_depth (Reader.depth_exited hdepth)

set_option synthInstance.maxSize 65536 in
instance attributesRound_admits {h : Hints} : Admits w Γ (Proper w) (attributesRound h) := by
  unfold attributesRound
  dsimp only
  infer_instance

instance parseAttributes_admits : Admits w Γ (Proper w) parseAttributes := by
  rw [parseAttributes_eq]
  infer_instance

instance skipBlockRound_admits {depth : Nat} : Admits w Γ Anything (skipBlockRound depth) := by
  unfold skipBlockRound
  infer_instance

instance skipBlock_admits : Admits w Γ Anything skipBlock := by
  rw [skipBlock_eq]
  infer_instance

instance inScope_honest {part : ParseM Bool} [Honest w β (.inside level) Γ (Proper w) part] :
    Honest w β (.inside level) Γ (Proper w) (inScope part) :=
  scoped_inside (Proper w) fun _ => .of_pure And.right

section

variable {room : Nat} {recurse : Recurse} [Reliable w β room recurse]

instance statementsRound_honest {u : Unit} :
    Honest w β (.inside level) Γ (Proper w) (statementsRound recurse u) := by
  unfold statementsRound
  infer_instance

instance parseStatements_honest :
    Honest w β (.inside level) Γ (Proper w) (parseStatements recurse) := by
  rw [parseStatements_eq]
  infer_instance

instance parseBlock_honest {newScope : Bool} :
    Honest w β (.inside level) Γ (Proper w) (parseBlock recurse newScope) := by
  cases newScope with
  | false =>
    unfold parseBlock
    infer_instance
  | true =>
    rw [parseBlock_inScope]
    infer_instance

instance parseInParentheses_honest : Honest w β σ Γ (Proper w) (parseInParentheses recurse) := by
  unfold parseInParentheses
  infer_instance

instance loadScalar_honest {e : Expression} {base : Base} {message : String}
    [Entails Γ (Proper w e)]
    [Entails Γ (Proper w base)] : Honest w β σ Γ (Proper w) (loadScalar e base message) := by
  unfold loadScalar
  infer_instance

instance parseCondition_honest {message : String} :
    Honest w β σ Γ (Proper w) (parseCondition recurse message) := by
  unfold parseCondition
  infer_instance

instance parseJump_honest {location : Location} {targets : List Id} {flow : Flow} {code : Int}
    {message : String} :
    Honest w β σ Γ (Proper w) (parseJump location targets flow code message) := by
  unfold parseJump
  split <;> infer_instance

set_option synthInstance.maxSize 65536 in
instance parseReturn_honest {location : Location} :
    Honest w β σ Γ (Proper w) (parseReturn recurse location) := by
  unfold parseReturn
  dsimp only
  infer_instance

instance parseLocals_honest {t : Ty} [Entails Γ (Proper w t)] :
    Honest w β σ Γ (Proper w) (parseLocals recurse t) := by
  unfold parseLocals
  infer_instance

instance enterBlock_honest {id : Id} : Honest w β σ Γ Anything (enterBlock id) :=
  inferInstanceAs (Honest w β σ Γ Anything (emit (.enterBlock id)))

instance branchTo_honest {target : Id} : Honest w β σ Γ Anything (branchTo target) :=
  inferInstanceAs (Honest w β σ Γ Anything (emit (.leaveAndBranch target .plain)))

instance branchIf_honest {condition yes no : Id} :
    Honest w β σ Γ Anything (branchIf condition yes no) :=
  inferInstanceAs (Honest w β σ Γ Anything (emit (.leaveAndBranchConditional condition yes no)))

instance makeBlock_honest : Honest w β σ Γ Anything makeBlock :=
  inferInstanceAs (Honest w β σ Γ Anything (emit (.makeId)))

instance parseElse_honest : Honest w β (.inside level) Γ (Proper w) (parseElse recurse) := by
  unfold parseElse
  infer_instance

set_option synthInstance.maxSize 65536 in
instance parseIf_honest {location : Location} {hint : ControlHint} :
    Honest w β (.inside level) Γ (Proper w) (parseIf recurse location hint) := by
  unfold parseIf
  infer_instance

instance parseCaseValue_honest {s : Cases} [Entails Γ (Proper w s)] :
    Honest w β σ Γ (Proper w) (parseCaseValue recurse s) := by
  unfold parseCaseValue
  refine .andThenSome (fun e => ?_) inferInstance
  dsimp only
  split
  · infer_instance
  · generalize s.labels.any _ = duplicate
    cases duplicate <;> infer_instance

instance addDefault_admits {s : Cases} [Entails Γ (Proper w s)] :
    Admits w Γ (Proper w) (addDefault s) := by
  unfold addDefault
  dsimp only
  generalize decide (s.defaultLabel ≠ s.merge) = duplicate
  cases duplicate <;> infer_instance

instance endLabel_admits {s : Cases} [Entails Γ (Proper w s)] :
    Admits w Γ (Proper w) (endLabel s) := by
  unfold endLabel
  infer_instance

instance labelsRound_honest {s : Cases} [Entails Γ (Proper w s)] :
    Honest w β σ Γ (Proper w) (labelsRound recurse s) := by
  unfold labelsRound
  infer_instance

instance parseLabels_honest {s : Cases} [Entails Γ (Proper w s)] :
    Honest w β σ Γ (Proper w) (parseLabels recurse s) := by
  rw [parseLabels_eq]
  infer_instance

set_option synthInstance.maxSize 65536 in
instance endCase_honest {s : Cases} {isLast : Bool} [Entails Γ (Proper w s)] :
    Honest w β σ Γ (Proper w) (endCase s isLast) := by
  unfold endCase
  refine .pass fun fallsThrough => ?_
  cases fallsThrough <;> infer_instance

instance parseSection_honest {s : Cases} [Entails Γ (Proper w s)] :
    Honest w β (.inside level) Γ (Proper w) (parseSection recurse s) := by
  unfold parseSection
  infer_instance

instance casesRound_honest {s : Cases} [Entails Γ (Proper w s)] :
    Honest w β (.inside level) Γ (Proper w) (casesRound recurse s) := by
  unfold casesRound
  infer_instance

instance parseCases_honest {s : Cases} [Entails Γ (Proper w s)] :
    Honest w β (.inside level) Γ (Proper w) (parseCases recurse s) := by
  rw [parseCases_eq]
  infer_instance

set_option synthInstance.maxSize 65536 in
instance parseSwitchBody_honest {location : Location} {selector selectorEnd merge : Id}
    {hint : ControlHint} :
    Honest w β (.inside level) Γ (Proper w)
      (parseSwitchBody recurse location selector selectorEnd merge hint) := by
  unfold parseSwitchBody
  infer_instance

instance parseSwitch_honest {location : Location} {hint : ControlHint} :
    Honest w β (.inside level) Γ (Proper w) (parseSwitch recurse location hint) := by
  unfold parseSwitch
  infer_instance

instance makeLoopBlocks_honest : Honest w β σ Γ Anything makeLoopBlocks := by
  unfold makeLoopBlocks
  infer_instance

instance openLoop_honest {b : LoopBlocks} {first : Id} :
    Honest w β σ Γ Anything (openLoop b first) := by
  unfold openLoop
  infer_instance

instance parseLoopBody_honest {b : LoopBlocks} {newScope : Bool} :
    Honest w β (.inside level) Γ (Present w) (parseLoopBody recurse b newScope) := by
  unfold parseLoopBody
  infer_instance

instance closeLoop_honest {location : Location} {b : LoopBlocks}
    {condition before conditionEnd bodyEnd : Id} {hint : ControlHint} :
    Honest w β σ Γ Anything
      (closeLoop location b condition before conditionEnd bodyEnd hint) := by
  unfold closeLoop
  exact .pass fun _ => inferInstanceAs (Honest w β σ Γ Anything (emit (.emitLoop ..)))

instance parseLocalsOrExpression_honest :
    Honest w β σ Γ (Proper w) (parseLocalsOrExpression recurse) := by
  unfold parseLocalsOrExpression
  infer_instance

instance parseForStart_honest : Honest w β σ Γ (Proper w) (parseForStart recurse) := by
  unfold parseForStart
  infer_instance

instance parseForCondition_honest {b : LoopBlocks} :
    Honest w β σ Γ (Present w) (parseForCondition recurse b) := by
  unfold parseForCondition
  infer_instance

instance parseForStep_honest : Honest w β σ Γ (Proper w) (parseForStep recurse) := by
  unfold parseForStep
  infer_instance

set_option synthInstance.maxSize 65536 in
instance parseFor_honest {location : Location} {hint : ControlHint} :
    Honest w β (.inside level) Γ (Proper w) (parseFor recurse location hint) := by
  unfold parseFor
  infer_instance

set_option synthInstance.maxSize 65536 in
instance parseWhile_honest {location : Location} {hint : ControlHint} :
    Honest w β (.inside level) Γ (Proper w) (parseWhile recurse location hint) := by
  unfold parseWhile
  infer_instance

set_option synthInstance.maxSize 65536 in
instance parseDo_honest {location : Location} {hint : ControlHint} :
    Honest w β (.inside level) Γ (Proper w) (parseDo recurse location hint) := by
  unfold parseDo
  infer_instance

instance parseKeywordStatement_honest {h : Hints} :
    Honest w β (.inside level) Γ (Maybe w) (parseKeywordStatement? recurse h) := by
  unfold parseKeywordStatement?
  refine .pass fun t => ?_
  dsimp only
  split <;> infer_instance

instance parseSimpleStatement_honest :
    Honest w β σ Γ (Proper w) (parseSimpleStatement recurse) := by
  unfold parseSimpleStatement
  infer_instance

set_option synthInstance.maxSize 65536 in
instance parseStatement_honest {newScope : Bool} :
    Honest w β (.inside level) Γ (Proper w) (parseStatement recurse newScope) := by
  unfold parseStatement
  infer_instance

end

instance withSemantic_admits {m : Member} {semantic : String} [Entails Γ (Proper w m)] :
    Admits w Γ (Proper w) (withSemantic m semantic) := by
  unfold withSemantic
  infer_instance

instance parseParameterType_admits : Admits w Γ (Proper w) parseParameterType := by
  unfold parseParameterType
  infer_instance

instance parseSeparator_admits {fields : Fields} :
    Admits w Γ (Proper w) (parseSeparator fields) := by
  unfold parseSeparator
  infer_instance

instance parseResultSemantic_admits {name : String} {t : Ty} :
    Admits w Γ (Proper w) (parseResultSemantic name t) := by
  unfold parseResultSemantic
  infer_instance

instance closeParameters_admits {complete : Bool} :
    Admits w Γ (Proper w) (closeParameters complete) := by
  unfold closeParameters
  infer_instance

section

variable {room : Nat} {recurse : Recurse} [Reliable w β room recurse]

set_option synthInstance.maxSize 65536 in
instance parseParameter_honest {s : Fields} [Entails Γ (Proper w s)] :
    Honest w β σ Γ (Proper w) (parseParameter recurse s) := by
  unfold parseParameter
  infer_instance

instance parametersRound_honest {s : Fields} [Entails Γ (Proper w s)] :
    Honest w β σ Γ (Proper w) (parametersRound recurse s) := by
  unfold parametersRound
  infer_instance

/-- What is missing of a list of parameters was reported. -/
instance parseParameters_honest : Honest w β σ Γ (Proper w) (parseParameters recurse) := by
  rw [parseParameters_eq]
  infer_instance

instance parseSignature_honest {location : Location} {name uniqueName : String} {t : Ty}
    [Entails Γ (Proper w t)] :
    Honest w β σ Γ (Proper w) (parseSignature recurse location name uniqueName t) := by
  unfold parseSignature
  dsimp only
  infer_instance

end

theorem declareParameters_adds {ps : List Member} {r r' : Reader} {ok : Bool}
    (h : declareParameters ps r = .ok (ok, r')) :
    r.Accounts r' ∧ r'.depth = r.depth := by
  induction ps generalizing r with
  | nil =>
    obtain ⟨-, rfl⟩ := pure_eq_ok.mp h
    exact ⟨.refl _, rfl⟩
  | cons p ps ih =>
    obtain ⟨found, r₁, hfound, h⟩ := bind_eq_ok.mp h
    have hadds := (declareOnce_adds hfound).1
    cases found with
    | true => exact ⟨hadds.toAccounts.trans (ih h).1, (ih h).2.trans hadds.depth⟩
    | false =>
      obtain ⟨-, rfl⟩ := pure_eq_ok.mp h
      exact ⟨hadds.toAccounts, hadds.depth⟩

/-- Parameters that are textures lie in the scope of the parameters of their function. -/
theorem declareParameters_honest {ps : List Member}
    (hps : Γ → Proper w ps ∧ ∀ p ∈ ps, w.Made p.definition) :
    Honest w β (.head level) Γ (Proper w) (liftM (declareParameters ps) : ParseM Bool) where
  leaves h := by
    obtain ⟨hrun, rfl⟩ := h.read
    obtain ⟨haccounts, hdepth⟩ := declareParameters_adds hrun
    exact ⟨haccounts, hdepth, .refl _⟩
  result h hcovers hΓ hr := by
    obtain ⟨hrun, rfl⟩ := h.read
    obtain ⟨hproper, hmade⟩ := hps hΓ
    have hfailed := hcovers.failed
    clear * - hrun hproper hmade hfailed hr
    rename_i r g ok r'
    induction ps generalizing r with
    | nil =>
      obtain ⟨rfl, rfl⟩ := pure_eq_ok.mp hrun
      exact ⟨hr, .inl rfl⟩
    | cons p ps ih =>
      obtain ⟨hp, hproper⟩ := List.forall_mem_cons.mp hproper
      obtain ⟨hid, hmade⟩ := List.forall_mem_cons.mp hmade
      obtain ⟨found, r₁, hfound, hrun⟩ := bind_eq_ok.mp hrun
      obtain ⟨hadds, hok⟩ := declareOnce_adds hfound
      have hr₁ := hadds.upright hr (Symbol.variable_proper (.inl hid) hp) fun scope hscope => by
        obtain rfl := hscope rfl
        exact ⟨nofun, fun _ _ => .inr hr.place⟩
      cases found with
      | true => exact ih hr₁ hrun hproper hmade
      | false =>
        obtain ⟨rfl, rfl⟩ := pure_eq_ok.mp hrun
        exact ⟨hr₁, .inr (hfailed (hok.resolve_left Bool.false_ne_true))⟩

instance returnType_honest {t : Ty} [ht : Entails Γ (Proper w t)] :
    Honest w β σ Γ Anything (modify fun p :
    Reader => { p with returnType := t } : ParseM PUnit) where
  leaves h := by
    obtain ⟨-, rfl, rfl⟩ := h.of_run rfl
    exact ⟨.of_eq rfl rfl, rfl, .refl _⟩
  result h _ hΓ hr := by
    obtain ⟨-, rfl, rfl⟩ := h.of_run rfl
    exact ⟨⟨⟨hr.proper.1, ht.entails hΓ⟩, hr.registered, hr.place.of_depth rfl,
      hr.tidy⟩, trivial⟩

section

variable {room : Nat} {recurse : Recurse} [Reliable w β room recurse]

/-- A function is known to the generator before its name stands for it. -/
instance parseBody_honest {location : Location} {decl : FunctionDecl}
    [hdecl : Entails Γ (Proper w decl)] :
    Honest w β (.head level) Γ (Proper w) (parseBody recurse location decl) := by
  unfold parseBody
  refine emit_declareOnce (fun d : FunctionDecl =>
    Proper w d ∧ ∀ p ∈ d.parameters, w.Made p.definition) hdecl.entails ?_ fun decl ok => ?_
  · rintro - g' decl ⟨hproper, hmade, hparameters⟩ hfunction
    refine ⟨⟨hproper, hparameters⟩, ⟨.inl hmade, nofun, nofun, fun _ => rfl,
      fun d hd => Option.some.inj hd ▸ hproper⟩, ?_⟩
    exact fun _ => ⟨fun _ _ => hfunction, nofun⟩
  cases ok with
  | false => exact .of_pure fun h => .inr (h.2.resolve_left Bool.false_ne_true)
  | true =>
    refine .of_bind_true (declareParameters_honest fun h => ⟨h.1.2.1.2, h.1.2.2⟩)
      (.of_inside ?_) inferInstance
    infer_instance

instance parseDefinition_honest {location : Location} {name unique : String} {t : Ty}
    [Entails Γ (Proper w t)] :
    Honest w β (.head level) Γ (Proper w) (parseDefinition recurse location name unique t) := by
  unfold parseDefinition
  infer_instance

instance parseFunction_honest {t : Ty} [ht : Entails Γ (Proper w t)] :
    Honest w β (.outside (room + 1)) Γ (Proper w) (parseFunction recurse t) := by
  unfold parseFunction
  refine .pass fun token => .andThenTrue ?_ inferInstance
  rw [Bool.not_true, if_neg Bool.false_ne_true]
  split
  · infer_instance
  refine .pass fun unique => .pass fun _ => ?_
  refine (congrArg (Honest w β _ Γ (Proper w)) (parseScoped_eq recurse)).mpr ?_
  refine scoped_outside (Proper w) (fun _ => parseDefinition_honest) fun found => ?_
  cases found with
  | none => exact .of_pure fun h => .inr h.2
  | some ok => exact .pass fun _ => .of_pure And.right

end

end Parser
end ShaderEffect

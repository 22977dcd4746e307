import ShaderEffect.Glsl.Backend
import ShaderEffect.Hlsl.Backend
import ShaderEffect.Proofs.Requests.Rules
import ShaderEffect.Source.Declaration

namespace ShaderEffect.Source

open Generator

variable {δ : Type} [Dialect δ]

instance : HasUniformBlock (State δ) where
  specConstants s := s.specConstants
  lines s := s.uniforms.toList

/-- Everything but the members of the uniform block, and which uniforms these are, may change. -/
instance leavesBlock {dialect : State δ → δ} {namer : State δ → Namer}
    {globals : State δ → Array Line} {blocks : State δ → Table Id (Array Line)}
    {inFunction : State δ → Bool} {returnType : State δ → Ty} :
    LeavesBlock fun s : State δ =>
      { s with
        dialect := dialect s
        namer := namer s
        globals := globals s
        blocks := blocks s
        inFunction := inFunction s
        returnType := returnType s } :=
  ⟨fun _ => rfl, fun _ => rfl⟩

instance nameOf_steady {id : Id} : Steady (nameOf id : SourceM δ String) := by
  unfold nameOf
  infer_instance

instance defineName_steady {naming : Naming} {id : Id} {name : String} :
    Steady (defineName naming id name : SourceM δ Unit) := by
  unfold defineName
  infer_instance

instance writeGlobal_steady {ls : Lines} : Steady (writeGlobal ls : SourceM δ Unit) := by
  unfold writeGlobal
  infer_instance

instance write_steady {ls : Lines} : Steady (write ls : SourceM δ Unit) := by
  unfold write
  infer_instance

instance writeText_steady {s : String} : Steady (writeText s : SourceM δ Unit) := by
  unfold writeText
  infer_instance

instance take_steady {id : Id} : Steady (take id : SourceM δ Lines) := by
  unfold take
  infer_instance

instance locationLines_steady {location : Location} :
    Steady (locationLines location : SourceM δ Lines) := by
  unfold locationLines
  infer_instance

instance writeLocation_steady {location : Location} :
    Steady (writeLocation location : SourceM δ Unit) := by
  unfold writeLocation
  infer_instance

instance typeName_steady {role : TypeRole} {t : Ty} :
    Steady (typeName role t : SourceM δ String) := by
  unfold typeName
  cases t.base <;> infer_instance

instance elementsOf_bounded {t : Ty} {c : Constant} : Bounded (elementsOf t c) := by
  unfold elementsOf
  infer_instance

instance declare_steady {location : Location} {t : Ty} {value : String} :
    Steady (declare location t value : SourceM δ Id) := by
  unfold declare
  infer_instance

instance enterBlock_steady {id : Id} : Steady (enterBlock id : SourceM δ Unit) := by
  unfold enterBlock
  infer_instance

instance endBlock_steady {ls : Lines} : Steady (endBlock ls : SourceM δ Id) := by
  unfold endBlock
  infer_instance

instance alreadyEnded_steady : Steady (alreadyEnded : SourceM δ Id) := by
  unfold alreadyEnded
  infer_instance

instance leaveAndReturn_steady {value : Id} : Steady (leaveAndReturn value : SourceM δ Id) := by
  unfold leaveAndReturn
  infer_instance

instance leaveAndBranch_steady {target : Id} {flow : Flow} :
    Steady (leaveAndBranch target flow : SourceM δ Id) := by
  unfold leaveAndBranch
  cases flow <;> infer_instance

instance leaveOpen_steady : Steady (leaveOpen : SourceM δ Id) := by
  unfold leaveOpen
  infer_instance

instance attributeLines_steady {isLoop : Bool} {hint : ControlHint} :
    Steady (attributeLines isLoop hint : SourceM δ Lines) := by
  unfold attributeLines
  infer_instance

instance selectionLines_steady {location : Location} {hint : ControlHint} :
    Steady (selectionLines location hint : SourceM δ Lines) := by
  unfold selectionLines
  infer_instance

instance emitIf_steady {location : Location} {condition conditionBlock trueBlock falseBlock : Id}
    {hint : ControlHint} :
    Steady (emitIf location condition conditionBlock trueBlock falseBlock hint :
      SourceM δ Unit) := by
  unfold emitIf
  infer_instance

instance takeBranch_steady {block conditionBlock : Id} :
    Steady (takeBranch block conditionBlock : SourceM δ Lines) := by
  unfold takeBranch
  infer_instance

instance emitPhi_steady {location : Location}
    {condition conditionBlock trueValue trueBlock falseValue falseBlock : Id} {t : Ty} :
    Steady (emitPhi location condition conditionBlock trueValue trueBlock falseValue falseBlock t :
      SourceM δ Id) := by
  unfold emitPhi
  infer_instance

instance takeSection_steady {defaultLabel : Id} {group : Id × List UInt32} :
    Steady (takeSection defaultLabel group : SourceM δ Lines) := by
  unfold takeSection
  infer_instance

instance emitSwitch_steady {location : Location} {selector selectorBlock defaultLabel : Id}
    {cases : List (UInt32 × Id)} {hint : ControlHint} :
    Steady (emitSwitch location selector selectorBlock defaultLabel cases hint :
      SourceM δ Unit) := by
  unfold emitSwitch
  infer_instance

instance loopHead_steady {location : Location} {condition : Id} {isDo : Bool} {hint : ControlHint} :
    Steady (loopHead location condition isDo hint : SourceM δ LoopHead) := by
  unfold loopHead
  infer_instance

instance emitLoop_steady {location : Location}
    {condition before header conditionBlock body continueBlock : Id} {hint : ControlHint} :
    Steady (emitLoop location condition before header conditionBlock body continueBlock hint :
      SourceM δ Unit) := by
  unfold emitLoop
  infer_instance

instance argumentNames_steady {args : List Expression} :
    Steady (argumentNames args : SourceM δ (List String)) := by
  unfold argumentNames
  infer_instance

instance callValue_steady {location : Location} {result : Ty} {call : String} :
    Steady (callValue location result call : SourceM δ Id) := by
  unfold callValue
  infer_instance

instance emitCall_steady {location : Location} {function : Id} {result : Ty}
    {args : List Expression} :
    Steady (emitCall location function result args : SourceM δ Id) := by
  unfold emitCall
  infer_instance

instance memberLine_steady {m : Member} : Steady (memberLine m : SourceM δ Line) := by
  unfold memberLine
  infer_instance

/-- A structure is defined behind the others. -/
theorem defineStruct_answers (location : Location) (decl : StructDecl) (g : Generator (State δ)) :
    Answers (defineStruct location decl) g fun decl' g' =>
      g'.structs = g.structs ++ [decl'] ∧ decl'.members = decl.members
        ∧ g'.uniformBlock = g.uniformBlock ∧ g.Grows g' := by
  unfold defineStruct
  refine Steady.next fun id g₁ h₁ => ?_
  refine Steady.next fun _ g₂ h₂ => ?_
  refine Steady.next fun _ g₃ h₃ => ?_
  refine Steady.next fun members g₄ h₄ => ?_
  refine Steady.next fun name g₅ h₅ => ?_
  refine Steady.next fun _ g₆ h₆ => ?_
  have h := ((((h₁.trans h₂).trans h₃).trans h₄).trans h₅).trans h₆
  refine .of_ok rfl ⟨congrArg (· ++ _) h.structs, rfl, h.block, h.grows.trans ?_⟩
  exact ⟨List.prefix_refl _, List.prefix_refl _, Nat.le_refl _⟩

set_option synthInstance.maxSize 65536 in
instance defineVariable_steady {location : Location} {t : Ty} {name : String}
    {isGlobal : Bool} {init : Id} :
    Steady (defineVariable location t name isGlobal init : SourceM δ Id) := by
  unfold defineVariable
  infer_instance

instance defineParameter_steady {p : Member} :
    Steady (defineParameter p : SourceM δ (Member × String)) := by
  unfold defineParameter
  infer_instance

instance defineFunction_steady {location : Location} {decl : FunctionDecl} :
    Steady (defineFunction location decl : SourceM δ FunctionDecl) :=
  have {decl : FunctionDecl} :
    Steady (modify fun g => { g with functions := g.functions ++ [decl] } : SourceM δ Unit) :=
    .modify fun _ => ⟨⟨rfl, List.prefix_append _ _, List.prefix_refl _, Nat.le_refl _⟩, rfl⟩
  by
    unfold defineFunction
    infer_instance

instance leaveFunction_steady : Steady (leaveFunction : SourceM δ Unit) := by
  unfold leaveFunction
  infer_instance

omit [Dialect δ] in
/-- A line of the uniform block is put behind the others. -/
theorem writeUniform_answers (s : String) (g : Generator (State δ)) :
    Answers (writeUniform s : SourceM δ Unit) g fun _ g' =>
      g.Keeps g' ∧ g'.uniformBlock
        = { g.uniformBlock with lines := g.uniformBlock.lines ++ [.text 1 s] } := by
  have hkeeps (s : State δ) : g.Keeps { g with target := s } :=
    ⟨rfl, List.prefix_refl _, List.prefix_refl _, Nat.le_refl _⟩
  refine .of_ok rfl ⟨hkeeps _, ?_⟩
  simp only [uniformBlock, HasUniformBlock.specConstants, HasUniformBlock.lines, Array.toList_push]

/-- A uniform that becomes no constant becomes a member of the uniform block. -/
theorem defineUniform_answers {asConstant : Location → Id → Uniform → SourceM δ Unit}
    {asMember : Id → Uniform → SourceM δ Unit} {IsMember : Uniform → List Line → Prop}
    [∀ location id u, Steady (asConstant location id u)]
    (hmember : ∀ id u g, Answers (asMember id u) g fun _ g' =>
      g.Keeps g' ∧ ∃ lines, IsMember u lines
        ∧ g'.uniformBlock = { g.uniformBlock with lines := g.uniformBlock.lines ++ lines })
    (location : Location) (u : Uniform) (g : Generator (State δ)) :
    Answers (defineUniform asConstant asMember location u) g fun _ g' =>
      g.Keeps g' ∧ UniformBlock.Takes IsMember u g.uniformBlock g'.uniformBlock := by
  unfold defineUniform
  refine Steady.next fun id g₁ h₁ => Steady.next fun _ g₂ h₂ => ?_
  have h := h₁.trans h₂
  refine .bind_getTarget ?_
  have hconstants : g₂.target.specConstants = g.uniformBlock.specConstants :=
    congrArg UniformBlock.specConstants h.block
  unfold UniformBlock.Takes Uniform.isConstant
  rw [hconstants]
  split
  · refine Steady.next fun _ g₃ h₃ => Steady.next fun _ g₄ h₄ => .pure ?_
    have h' := (h.trans h₃).trans h₄
    exact ⟨h'.toKeeps, h'.block⟩
  · refine (placeUniform_answers u g₂).bind (fun _ _ h => h.1.structs)
      fun v g₃ ⟨h₃, hv, hblock₃⟩ => ?_
    refine (hmember id v g₃).bind (fun _ _ h => h.1.structs)
      fun _ g₄ ⟨h₄, lines, hlines, hblock₄⟩ => .pure ?_
    rw [h.block] at hv hblock₃
    subst hv
    rw [hblock₃] at hblock₄
    exact ⟨(h.toKeeps.trans h₃).trans h₄, lines, hlines, hblock₄⟩

variable [Literals δ]

section

variable [hliteral : ∀ t c, Steady (Literals.literal t c : SourceM δ String)]

instance leaveAndKill_steady : Steady (leaveAndKill : SourceM δ Id) := by
  unfold leaveAndKill
  infer_instance

instance constantId_steady {t : Ty} {c : Constant} : Steady (constantId t c : SourceM δ Id) := by
  unfold constantId
  infer_instance

instance loadValue_steady {access : Expression → SourceM δ String} [∀ e, Steady (access e)]
    {e : Expression} {forceNew : Bool} : Steady (loadValue access e forceNew) := by
  unfold loadValue
  infer_instance

end

end ShaderEffect.Source

namespace ShaderEffect

/-- The structures inside of a structure come up before it. -/
theorem Layered.findIdx_lt {structs : List StructDecl} (h : Layered structs) {id : Id}
    {decl : StructDecl} (hfound : structs.find? (·.definition = id) = some decl) {m : Member}
    (hm : m ∈ decl.members) (hstruct : m.type.isStruct) :
    structs.findIdx (·.definition = m.type.definition) < structs.findIdx (·.definition = id) := by
  induction h with
  | nil => exact nomatch hfound
  | @snoc structs last _ hlast ih =>
    rw [List.find?_append] at hfound
    rw [List.findIdx_append, List.findIdx_append]
    cases hbefore : structs.find? (·.definition = id) with
    | some d =>
      obtain rfl : d = decl := by simpa [hbefore] using hfound
      have hlt := ih hbefore
      have hid : structs.findIdx (·.definition = id) < structs.length :=
        List.findIdx_lt_length_of_exists ⟨d,
          List.mem_of_find?_eq_some hbefore, by simpa using List.find?_some hbefore⟩
      rw [if_pos hid, if_pos (Nat.lt_trans hlt hid)]
      exact hlt
    | none =>
      obtain ⟨hid, rfl⟩ : last.definition = id ∧ last = decl := by
        rw [hbefore, Option.none_or, List.find?_singleton] at hfound
        simpa using hfound
      obtain ⟨d, hd, hdef⟩ := hlast m hm hstruct
      have hmember : structs.findIdx (·.definition = m.type.definition) < structs.length :=
        List.findIdx_lt_length_of_exists ⟨d, hd, by simpa using hdef⟩
      have habsent : ¬structs.findIdx (·.definition = id) < structs.length := by
        rw [List.findIdx_lt_length]
        simpa using hbefore
      rw [if_pos hmember, if_neg habsent]
      exact Nat.lt_of_lt_of_le hmember (Nat.le_add_left _ _)

namespace Glsl

open Source Generator

/-- How deep structures and arrays lie in the values of a type, at most. -/
def height (structs : List StructDecl) (t : Ty) : Nat :=
  (if t.isStruct then 2 * structs.findIdx (·.definition = t.definition) + 3 else 1)
    + if t.isArray then 1 else 0

theorem height_pos (structs : List StructDecl) (t : Ty) : 0 < height structs t := by
  unfold height
  split <;> omega

theorem height_le (structs : List StructDecl) (t : Ty) :
    height structs t ≤ 2 * structs.length + 4 := by
  have : structs.findIdx (·.definition = t.definition) ≤ structs.length := List.findIdx_le_length
  unfold height
  split <;> split <;> omega

theorem height_element {structs : List StructDecl} {t : Ty} (h : t.isArray = true) :
    height structs t.element < height structs t := by
  have helement : t.element.isArray = false := rfl
  have hstruct : t.element.isStruct = t.isStruct := rfl
  have hdefinition : t.element.definition = t.definition := rfl
  simp [height, h, helement, hstruct, hdefinition]

theorem height_member {β : Type} {g : Generator β} (hg : Layered g.structs) {t : Ty}
    (ht : t.isStruct = true) {members : List Member} (hmembers : g.members? t = some members)
    {m : Member} (hm : m ∈ members) :
    height g.structs m.type < height g.structs t := by
  simp only [members?, ht, if_true, findStruct?, Option.map_eq_some_iff] at hmembers
  obtain ⟨decl, hfound, rfl⟩ := hmembers
  simp only [height, ht, if_true]
  by_cases hstruct : m.type.isStruct
  · have := hg.findIdx_lt hfound hm hstruct
    rw [if_pos hstruct]
    split <;> split <;> omega
  · rw [if_neg hstruct]
    split <;> split <;> omega

instance constructorName_steady {t : Ty} : Steady (constructorName t) := by
  unfold constructorName
  infer_instance

/-- A value whose parts lie less deep than there is room for is written out. -/
theorem literalWithin_ends (depth : Nat) :
    ∀ {t : Ty} {c : Constant} {g : Generator (State Language)}, Layered g.structs →
      height g.structs t ≤ depth → Ends (literalWithin depth t c) g fun _ g' => g.Keeps g' := by
  induction depth with
  | zero => exact fun {t _ g} _ h => absurd (height_pos g.structs t) (Nat.not_lt.mpr h)
  | succ depth ih =>
    intro t c g hg hdepth
    -- The parts of a value are written out one after the other, with the same structures.
    have hparts {γ : Type} {l : List γ} (u : γ → Ty) (v : γ → Constant)
        {g₁ : Generator (State Language)}
        (h₁ : g.Keeps g₁) (hlt : ∀ p ∈ l, height g.structs (u p) < height g.structs t) :
        Ends (l.mapM fun p => literalWithin depth (u p) (v p)) g₁ fun _ g' => g.Keeps g' :=
      Ends.mapM (fun g' => g.Keeps g') h₁ fun p hp g' h' => by
        refine (ih (h'.structs ▸ hg) ?_).mono fun _ _ => h'.trans
        rw [h'.structs]
        exact Nat.le_of_lt_succ (Nat.lt_of_lt_of_le (hlt p hp) hdepth)
    unfold literalWithin
    split
    · rename_i harray
      refine (Steady.ends hg).bind fun elements g₁ h₁ => ?_
      refine (hparts (fun _ => t.element) id h₁.toKeeps fun _ _ => height_element harray).bind
        fun values g₂ h₂ => ?_
      exact (Steady.ends (h₂.structs ▸ hg)).bind fun name _ h₃ =>
        Ends.pure (h₂.trans h₃.toKeeps)
    split
    · rename_i hstruct
      refine Ends.bind_get ((hparts Member.type (fun _ => {}) (.refl g) fun m hm => ?_).bind
        fun values g₁ h₁ => ?_)
      · cases hmembers : g.members? t with
        | none => simp [hmembers] at hm
        | some members => exact height_member hg hstruct hmembers (by simpa [hmembers] using hm)
      · exact (Steady.ends (h₁.structs ▸ hg)).bind fun name _ h₂ =>
          Ends.pure (h₁.trans h₂.toKeeps)
    · exact Ends.pure (.refl g)

/-- Whatever room there is, a value that is written out leaves everything as it was. -/
theorem literalWithin_stays (depth : Nat) :
    ∀ {t : Ty} {c : Constant} {g g' : Generator (State Language)} {s : String},
    literalWithin depth t c g = .ok (s, g') → g.Stays g' := by
  induction depth with
  | zero => exact fun h => (throw_eq_ok.mp h).elim
  | succ depth ih =>
    intro t c g g' s h
    have hparts {γ : Type} (u : γ → Ty) (v : γ → Constant) (l : List γ)
        {g g' : Generator (State Language)}
        {values : List String} (h : l.mapM (fun p => literalWithin depth (u p) (v p)) g
          = .ok (values, g')) : g.Stays g' := by
      induction l generalizing g values with
      | nil => exact (pure_eq_ok.mp h).2 ▸ .refl g
      | cons p l ihl =>
        rw [List.mapM_cons] at h
        obtain ⟨value, g₁, hvalue, h⟩ := bind_eq_ok.mp h
        obtain ⟨values, g₂, hvalues, h⟩ := bind_eq_ok.mp h
        obtain ⟨-, rfl⟩ := pure_eq_ok.mp h
        exact (ih hvalue).trans (ihl hvalues)
    unfold literalWithin at h
    split at h
    · obtain ⟨elements, g₁, helements, h⟩ := bind_eq_ok.mp h
      obtain ⟨values, g₂, hvalues, h⟩ := bind_eq_ok.mp h
      obtain ⟨name, g₃, hname, h⟩ := bind_eq_ok.mp h
      have h₂ : g.Stays g₂ :=
        (Steady.stays helements).trans (hparts (fun _ => t.element) id elements hvalues)
      exact (pure_eq_ok.mp h).2 ▸ h₂.trans (Steady.stays hname)
    split at h
    · obtain ⟨g₀, g₁, hg, h⟩ := bind_eq_ok.mp h
      obtain ⟨values, g₂, hvalues, h⟩ := bind_eq_ok.mp h
      obtain ⟨name, g₃, hname, h⟩ := bind_eq_ok.mp h
      have h₂ : g.Stays g₂ :=
        (Steady.stays hg).trans (hparts Member.type (fun _ => {}) _ hvalues)
      exact (pure_eq_ok.mp h).2 ▸ h₂.trans (Steady.stays hname)
    · exact (pure_eq_ok.mp h).2 ▸ .refl g

/-- Structures and arrays lie at most twice as deep as there are structures. -/
instance literal_steady {t : Ty} {c : Constant} : Steady (literal t c) where
  answers _ :=
    { result := fun h => literalWithin_stays _ h
      ne_exhausted :=
        fun hg => (Ends.bind_get (literalWithin_ends _ hg (height_le _ _))).ne_exhausted }

instance {t : Ty} {c : Constant} : Steady (Literals.literal t c : SourceM Language String) :=
  literal_steady

instance uses_steady {f : Helpers → Helpers} : Steady (uses f) := by
  unfold uses
  infer_instance

instance laneAt_bounded {lanes : List Int} {i : Int} : Bounded (Path.laneAt lanes i) := by
  unfold Path.laneAt
  split <;> infer_instance

/-- Selecting from elements that were selected does not take too long. -/
theorem reselect?_bounded {elements : List Int} {a : Access} {selected : Except Fault (List Int)}
    (h : Path.reselect? elements a = some selected) : Bounded selected := by
  cases a with
  | constantIndex | swizzle =>
    obtain rfl := Option.some.inj h
    infer_instance
  | cast | member | dynamicIndex => exact nomatch h

instance applyText_steady {text : String} {a : Access} : Steady (Path.applyText text a) := by
  unfold Path.applyText
  cases a with
  | member source target i =>
    refine .andThen fun g => ?_
    split <;> infer_instance
  | _ => infer_instance

instance apply_steady {p : Path} {a : Access} : Steady (p.apply a) := by
  unfold Path.apply
  split
  · rename_i selected hselected
    obtain ⟨elements, -, hselected⟩ := Option.bind_eq_some_iff.mp hselected
    have := reselect?_bounded hselected
    infer_instance
  · cases a <;> infer_instance

instance pathOf_steady {e : Expression} : Steady (pathOf e) := by
  unfold pathOf
  infer_instance

instance accessText_steady {e : Expression} : Steady (accessText e) := by
  unfold accessText
  infer_instance

instance storeValue_steady {e : Expression} {value : Id} : Steady (storeValue e value) := by
  unfold storeValue
  refine .andThen fun _ => .andThen fun p => .andThen fun value => ?_
  dsimp only
  split <;> infer_instance

instance emitUnary_steady {location : Location} {op : UnaryOp} {t : Ty} {value : Id} :
    Steady (emitUnary location op t value) := by
  unfold emitUnary
  infer_instance

instance emitBinary_steady {location : Location} {op : BinaryOp} {result operands : Ty}
    {left right : Id} :
    Steady (emitBinary location op result operands left right) := by
  unfold emitBinary
  split <;> infer_instance

instance emitSelect_steady {location : Location} {t : Ty} {condition yes no : Id} :
    Steady (emitSelect location t condition yes no) := by
  unfold emitSelect
  infer_instance

instance emitConstruct_steady {location : Location} {t : Ty} {args : List Expression} :
    Steady (emitConstruct location t args) := by
  unfold emitConstruct
  infer_instance

instance emitFrexp_steady {location : Location} {result : Ty} {args : List Expression}
    {names : List String} :
    Steady (emitFrexp location result args names) := by
  unfold emitFrexp
  infer_instance

instance emitIntrinsic_steady {location : Location} {i : Intrinsic} {result : Ty}
    {args : List Expression} :
    Steady (emitIntrinsic location i result args) := by
  unfold emitIntrinsic
  infer_instance

instance currentOptions_steady : Steady currentOptions := by
  unfold currentOptions
  infer_instance

instance locationOf_steady {semantic : String} : Steady (locationOf semantic) := by
  unfold locationOf
  infer_instance

/-- Whether a part of a stage is steady. -/
class SteadyStage {α : Type} (x : StageM α) : Prop where
  steady : ∀ st, Steady (x st)

namespace SteadyStage

variable {α γ : Type}

instance pure {a : α} : SteadyStage (pure a : StageM α) :=
  ⟨fun _ => Steady.pure⟩

theorem andThen {x : StageM γ} {f : γ → StageM α} [hx : SteadyStage x]
    (hf : ∀ c, SteadyStage (f c)) :
    SteadyStage (x >>= f) where
  steady st := by
    have := hx.steady st
    show Steady (x st >>= fun result => f result.1 result.2)
    exact .andThen fun result => (hf result.1).steady result.2

instance bind {x : StageM γ} {f : γ → StageM α} [hx : SteadyStage x]
    [hf : ∀ c, SteadyStage (f c)] :
    SteadyStage (x >>= f) :=
  andThen hf

instance ite {c : Prop} [Decidable c] {x y : StageM α} [hx : SteadyStage x] [hy : SteadyStage y] :
    SteadyStage (if c then x else y) := by
  split <;> assumption

instance liftM {x : SourceM Language α} [Steady x] : SteadyStage (liftM x : StageM α) where
  steady st := by
    show Steady (x >>= fun a => Pure.pure (a, st))
    infer_instance

instance get : SteadyStage (get : StageM Stage) :=
  ⟨fun _ => Steady.pure⟩

instance set {st : Stage} : SteadyStage (set st : StageM PUnit) :=
  ⟨fun _ => Steady.pure⟩

instance mapM {f : γ → StageM α} [hf : ∀ c, SteadyStage (f c)] {l : List γ} :
    SteadyStage (l.mapM f) := by
  induction l with
  | nil => exact pure
  | cons c l ih =>
    rw [List.mapM_cons]
    infer_instance

instance forM {f : γ → StageM PUnit} [hf : ∀ c, SteadyStage (f c)] {l : List γ} :
    SteadyStage (l.forM f) := by
  induction l with
  | nil => exact pure
  | cons c l ih => exact bind

end SteadyStage

instance statement_steady {s : String} : SteadyStage (statement s) :=
  ⟨fun _ => Steady.pure⟩

instance varying_steady {t : Ty} {semantic name : String} {isOutput : Bool} :
    SteadyStage (varying t semantic name isOutput) := by
  unfold varying
  refine .andThen fun st => .andThen fun options => ?_
  split <;> infer_instance

instance converted_steady {t : Ty} {value : String} : SteadyStage (converted t value) := by
  unfold converted
  infer_instance

instance gatherInputs_steady {t : Ty} {semantic value name : String} :
    SteadyStage (gatherInputs t semantic value name) := by
  unfold gatherInputs
  infer_instance

instance scatterOutputs_steady {t : Ty} {semantic value name : String} :
    SteadyStage (scatterOutputs t semantic value name) := by
  unfold scatterOutputs
  infer_instance

instance declareParameter_steady {p : Member} {i : Nat} : SteadyStage (declareParameter p i) := by
  unfold declareParameter
  infer_instance

instance stageCall_steady {decl : FunctionDecl} {args : List String} :
    SteadyStage (stageCall decl args) := by
  unfold stageCall
  infer_instance

instance writeStage_steady {decl : FunctionDecl} {isPixelShader invertY : Bool} :
    SteadyStage (writeStage decl isPixelShader invertY) := by
  unfold writeStage
  infer_instance

instance emitEntryPoint_steady {decl : FunctionDecl} {isPixelShader : Bool} :
    Steady (emitEntryPoint decl isPixelShader) :=
  have {x : StageM Unit} [hx : SteadyStage x] {st : Stage} : Steady (x.run st) := hx.steady st
  by
    unfold emitEntryPoint
    infer_instance

instance defineTexture_steady {t : Texture} : Steady (defineTexture t) :=
  have {t : Texture} :
    Steady (modifyResult fun m => { m with textures := m.textures ++ [t] } :
      SourceM Language Unit) :=
    .modifyResult (fun m => List.map_append ▸ List.prefix_append _ _) fun _ => ⟨rfl, rfl⟩
  by
    unfold defineTexture
    infer_instance

instance defineSampler_steady {location : Location} {s : Sampler} :
    Steady (defineSampler location s) :=
  have {s : Sampler} : Steady (modifyResult fun m =>
      { m with samplerBindings := m.samplerBindings + 1, samplers := m.samplers ++ [s] } :
    SourceM Language Unit) :=
    .modifyResult (fun _ => List.prefix_refl _) fun _ => ⟨rfl, rfl⟩
  by
    unfold defineSampler
    infer_instance

/-- Whether some lines are the declaration of a member of the uniform block. -/
def IsMemberLine (_ : Uniform) (lines : List Line) : Prop :=
  ∃ text : String, lines = [.text 1 text]

theorem uniformMember_answers (id : Id) (u : Uniform) (g : Generator (State Language)) :
    Answers (uniformMember id u) g fun _ g' => g.Keeps g' ∧ ∃ lines, IsMemberLine u lines
      ∧ g'.uniformBlock = { g.uniformBlock with lines := g.uniformBlock.lines ++ lines } := by
  unfold uniformMember
  refine Steady.next fun o g₁ h₁ =>
    Steady.next fun type g₂ h₂ => Steady.next fun name g₃ h₃ => ?_
  refine (writeUniform_answers _ g₃).mono fun _ g₄ ⟨h₄, hblock⟩ => ?_
  have h := (h₁.trans h₂).trans h₃
  rw [h.block] at hblock
  exact ⟨h.toKeeps.trans h₄, _, ⟨_, rfl⟩, hblock⟩

instance uniformConstant_steady {location : Location} {id : Id} {u : Uniform} :
    Steady (uniformConstant location id u) := by
  unfold uniformConstant
  infer_instance

/-- Requests but for the definition of a structure or a uniform leave everything as it was. -/
theorem handle_steady {q : Request} (hstruct : q.definesStruct = false)
    (huniform : q.uniform? = none) :
    Steady (q.handle : GenM (State Language) q.Answer) := by
  cases q with
  | defineStruct => exact nomatch hstruct
  | defineUniform => exact nomatch huniform
  | enterBlock => exact enterBlock_steady
  | leaveAndKill => exact leaveAndKill_steady
  | leaveAndReturn => exact leaveAndReturn_steady
  | leaveAndSwitch | leaveAndBranchConditional => exact leaveOpen_steady
  | leaveAndBranch => exact leaveAndBranch_steady
  | emitIf => exact emitIf_steady
  | emitPhi => exact emitPhi_steady
  | emitLoop => exact emitLoop_steady
  | emitSwitch => exact emitSwitch_steady
  | load => exact loadValue_steady
  | store => exact storeValue_steady
  | constant => exact constantId_steady
  | unary => exact emitUnary_steady
  | binary => exact emitBinary_steady
  | select => exact emitSelect_steady
  | call => exact emitCall_steady
  | callIntrinsic => exact emitIntrinsic_steady
  | construct => exact emitConstruct_steady
  | defineTexture => exact defineTexture_steady
  | defineSampler => exact defineSampler_steady
  | defineVariable => exact defineVariable_steady
  | defineFunction => exact defineFunction_steady
  | leaveFunction => exact leaveFunction_steady
  | defineEntryPoint => exact emitEntryPoint_steady
  | _ =>
    dsimp only [Request.handle]
    infer_instance

instance : Backend.Answering (State Language) IsMemberLine where
  defineStruct := defineStruct_answers
  defineUniform := defineUniform_answers uniformMember_answers
  steady := handle_steady

end Glsl
end ShaderEffect

namespace ShaderEffect.Hlsl

open Source Generator

instance elementLiteral_steady {t : Ty} {c : Constant} : Steady (elementLiteral t c) := by
  unfold elementLiteral
  infer_instance

instance literal_steady {t : Ty} {c : Constant} : Steady (literal t c) := by
  unfold literal
  infer_instance

instance {t : Ty} {c : Constant} : Steady (Literals.literal t c : SourceM Language String) :=
  literal_steady

instance castText_steady {t : Ty} {value : String} : Steady (castText t value) := by
  unfold castText
  infer_instance

instance applyAccess_steady {text : String} {a : Access} : Steady (applyAccess text a) := by
  unfold applyAccess
  cases a with
  | member source target i =>
    refine .andThen fun g => ?_
    split <;> infer_instance
  | _ => infer_instance

instance accessText_steady {e : Expression} : Steady (accessText e) := by
  unfold accessText
  infer_instance

instance storeValue_steady {e : Expression} {value : Id} : Steady (storeValue e value) := by
  unfold storeValue
  infer_instance

instance emitUnary_steady {location : Location} {op : UnaryOp} {t : Ty} {value : Id} :
    Steady (emitUnary location op t value) := by
  unfold emitUnary
  infer_instance

instance emitBinary_steady {location : Location} {op : BinaryOp} {result operands : Ty}
    {left right : Id} :
    Steady (emitBinary location op result operands left right) := by
  unfold emitBinary
  infer_instance

instance emitSelect_steady {location : Location} {t : Ty} {condition yes no : Id} :
    Steady (emitSelect location t condition yes no) := by
  unfold emitSelect
  infer_instance

instance emitConstruct_steady {location : Location} {t : Ty} {args : List Expression} :
    Steady (emitConstruct location t args) := by
  unfold emitConstruct
  infer_instance

instance emitTextureSize_steady {location : Location} {result : Ty} {sampler : String}
    {level : Option String} :
    Steady (emitTextureSize location result sampler level) := by
  unfold emitTextureSize
  cases level <;> infer_instance

instance emitIntrinsic_steady {location : Location} {i : Intrinsic} {result : Ty}
    {args : List Expression} :
    Steady (emitIntrinsic location i result args) := by
  unfold emitIntrinsic
  refine .andThen fun names => ?_
  split <;> infer_instance

instance defineTexture_steady {location : Location} {t : Texture} :
    Steady (defineTexture location t) :=
  have {t : Texture} : Steady (modifyResult fun m =>
      { m with textureBindings := m.textureBindings + 2, textures := m.textures ++ [t] } :
    SourceM Language Unit) :=
    .modifyResult (fun m => List.map_append ▸ List.prefix_append _ _) fun _ => ⟨rfl, rfl⟩
  by
    unfold defineTexture
    infer_instance

instance stateRegister_steady {st : SamplerState} : Steady (stateRegister st) :=
  have {binding : UInt32} :
      Steady (modifyResult fun m => { m with samplerBindings := binding } :
        SourceM Language Unit) :=
    .modifyResult (fun _ => List.prefix_refl _) fun _ => ⟨rfl, rfl⟩
  by
    unfold stateRegister
    refine .andThen fun s => ?_
    split <;> infer_instance

instance defineSampler_steady {location : Location} {s : Sampler} :
    Steady (defineSampler location s) :=
  have {s : Sampler} :
    Steady (modifyResult fun m => { m with samplers := m.samplers ++ [s] } :
      SourceM Language Unit) :=
    .modifyResult (fun _ => List.prefix_refl _) fun _ => ⟨rfl, rfl⟩
  by
    unfold defineSampler
    refine .andThen fun id => .andThen fun _ => .andThen fun g => ?_
    split <;> infer_instance

/-- Whether some lines are the declaration of a member of the uniform block that says where
the member lies. -/
def IsMemberLine (u : Uniform) (lines : List Line) : Prop :=
  ∃ front : String, lines
    = [.text 1 (front ++ " : packoffset(" ++ packOffset u.slot.offset ++ ");")]

theorem uniformMember_answers (id : Id) (u : Uniform) (g : Generator (State Language)) :
    Answers (uniformMember id u) g fun _ g' => g.Keeps g' ∧ ∃ lines, IsMemberLine u lines
      ∧ g'.uniformBlock = { g.uniformBlock with lines := g.uniformBlock.lines ++ lines } := by
  unfold uniformMember
  refine Steady.next fun type g₁ h₁ => Steady.next fun name g₂ h₂ => ?_
  refine (writeUniform_answers _ g₂).mono fun _ g₃ ⟨h₃, hblock⟩ => ?_
  have h := h₁.trans h₂
  rw [h.block] at hblock
  exact ⟨h.toKeeps.trans h₃, _, ⟨_, rfl⟩, hblock⟩

instance uniformConstant_steady {location : Location} {id : Id} {u : Uniform} :
    Steady (uniformConstant location id u) := by
  unfold uniformConstant
  infer_instance

instance emitEntryPoint_steady {decl : FunctionDecl} {isPixelShader : Bool} :
    Steady (emitEntryPoint decl isPixelShader) := by
  unfold emitEntryPoint
  infer_instance

/-- Requests but for the definition of a structure or a uniform leave everything as it was. -/
theorem handle_steady {q : Request} (hstruct : q.definesStruct = false)
    (huniform : q.uniform? = none) :
    Steady (q.handle : GenM (State Language) q.Answer) := by
  cases q with
  | defineStruct => exact nomatch hstruct
  | defineUniform => exact nomatch huniform
  | enterBlock => exact enterBlock_steady
  | leaveAndKill => exact leaveAndKill_steady
  | leaveAndReturn => exact leaveAndReturn_steady
  | leaveAndSwitch | leaveAndBranchConditional => exact leaveOpen_steady
  | leaveAndBranch => exact leaveAndBranch_steady
  | emitIf => exact emitIf_steady
  | emitPhi => exact emitPhi_steady
  | emitLoop => exact emitLoop_steady
  | emitSwitch => exact emitSwitch_steady
  | load => exact loadValue_steady
  | store => exact storeValue_steady
  | constant => exact constantId_steady
  | unary => exact emitUnary_steady
  | binary _ _ _ operands => exact @emitBinary_steady _ _ _ operands _ _
  | select => exact emitSelect_steady
  | call => exact emitCall_steady
  | callIntrinsic => exact emitIntrinsic_steady
  | construct => exact emitConstruct_steady
  | defineTexture => exact defineTexture_steady
  | defineSampler => exact defineSampler_steady
  | defineVariable => exact defineVariable_steady
  | defineFunction => exact defineFunction_steady
  | leaveFunction => exact leaveFunction_steady
  | defineEntryPoint => exact emitEntryPoint_steady
  | _ =>
    dsimp only [Request.handle]
    infer_instance

instance : Backend.Answering (State Language) IsMemberLine where
  defineStruct := defineStruct_answers
  defineUniform := defineUniform_answers uniformMember_answers
  steady := handle_steady

end ShaderEffect.Hlsl

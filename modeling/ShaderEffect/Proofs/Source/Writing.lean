import ShaderEffect.Glsl.Backend
import ShaderEffect.Hlsl.Backend
import ShaderEffect.Proofs.Computation
import ShaderEffect.Proofs.Table

namespace ShaderEffect

namespace Source

open Generator

variable {α γ δ : Type}

/-- Whether no line is the place of code that a loop runs in front of its next round. -/
class Unmarked (ls : Lines) : Prop where
  content : ∀ l ∈ ls, ∀ loop, l.content ≠ .continueMark loop

namespace Unmarked

instance nil : Unmarked [] :=
  ⟨nofun⟩

theorem of_cons {l : Line} {ls : Lines} (hl : ∀ loop, l.content ≠ .continueMark loop)
    (h : Unmarked ls) :
    Unmarked (l :: ls) :=
  ⟨List.forall_mem_cons.mpr ⟨hl, h.content⟩⟩

instance text {depth : Nat} {s : String} {ls : Lines} [h : Unmarked ls] :
    Unmarked (.text depth s :: ls) :=
  of_cons nofun h

instance directive {s : String} {ls : Lines} [h : Unmarked ls] : Unmarked (.directive s :: ls) :=
  of_cons nofun h

instance declaration {type suffix : String} {id : Id} {init : Option String} {ls : Lines}
    [h : Unmarked ls] :
    Unmarked ({ content := .declaration type id suffix init } :: ls) :=
  of_cons nofun h

instance append {ls ms : Lines} [h : Unmarked ls] [h' : Unmarked ms] : Unmarked (ls ++ ms) :=
  ⟨List.forall_mem_append.mpr ⟨h.content, h'.content⟩⟩

instance ite {c : Prop} [Decidable c] {ls ms : Lines} [Unmarked ls] [Unmarked ms] :
    Unmarked (if c then ls else ms) := by
  split <;> assumption

instance overridable {name value : String} : Unmarked (overridable name value) := by
  unfold Source.overridable
  infer_instance

end Unmarked

/-- The lines of a block. -/
def State.code (s : State δ) (b : Id) : Lines :=
  ((Table.get? s.blocks b).getD #[]).toList

theorem State.code_congr {s s' : State δ} {b : Id}
    (h : Table.get? s'.blocks b = Table.get? s.blocks b) :
    s'.code b = s.code b := by
  rw [code, h, code]

/-- Whether nothing but the current block has changed, apart from what was written
outside of functions. -/
structure Follows (g g' : Generator (State δ)) : Prop where
  current : g'.currentBlock = g.currentBlock
  last : g'.lastBlock = g.lastBlock
  nextId : g.nextId ≤ g'.nextId
  inFunction : g'.target.inFunction = g.target.inFunction
  others : ∀ b ≠ g.currentBlock, Table.get? g'.target.blocks b = Table.get? g.target.blocks b
  code : ∃ new : Lines,
    Unmarked new ∧ g'.target.code g.currentBlock = g.target.code g.currentBlock ++ new
  globals : ∃ new : Lines, g'.target.globals.toList = g.target.globals.toList ++ new

/-- Whether, besides, nothing is written outside of a function while it is generated, and no
marks ever are. -/
structure Writes (g g' : Generator (State δ)) : Prop extends Follows g g' where
  inside : g.target.inFunction = true → g'.target.globals = g.target.globals
  outside : ∃ new, Unmarked new ∧ g'.target.globals.toList = g.target.globals.toList ++ new

theorem Follows.trans {g g₁ g' : Generator (State δ)} (h : Follows g g₁)
    (h' : Follows g₁ g') : Follows g g' where
  current := h'.current.trans h.current
  last := h'.last.trans h.last
  nextId := Nat.le_trans h.nextId h'.nextId
  inFunction := h'.inFunction.trans h.inFunction
  others b hb := (h'.others b (h.current.symm ▸ hb)).trans (h.others b hb)
  code := by
    obtain ⟨new, hnew, hcode⟩ := h.code
    obtain ⟨more, hmore, hcode'⟩ := h'.code
    rw [h.current, hcode] at hcode'
    exact ⟨new ++ more, inferInstance, hcode'.trans (List.append_assoc ..)⟩
  globals := by
    obtain ⟨new, hglobals⟩ := h.globals
    obtain ⟨more, hglobals'⟩ := h'.globals
    exact ⟨new ++ more, by rw [hglobals', hglobals, List.append_assoc]⟩

namespace Writes

variable {g g₁ g' : Generator (State δ)}

/-- Nothing is written. -/
theorem of_eq (hcurrent : g'.currentBlock = g.currentBlock) (hlast : g'.lastBlock = g.lastBlock)
    (hnext : g.nextId ≤ g'.nextId) (hfunction : g'.target.inFunction = g.target.inFunction)
    (hblocks : g'.target.blocks = g.target.blocks)
    (hglobals : g'.target.globals = g.target.globals) : Writes g g' where
  current := hcurrent
  last := hlast
  nextId := hnext
  inFunction := hfunction
  others _ _ := by rw [hblocks]
  code := ⟨[], inferInstance, by simp only [State.code, hblocks, List.append_nil]⟩
  globals := ⟨[], by rw [hglobals, List.append_nil]⟩
  inside _ := hglobals
  outside := ⟨[], inferInstance, by rw [hglobals, List.append_nil]⟩

theorem refl (g : Generator (State δ)) : Writes g g :=
  of_eq rfl rfl (Nat.le_refl _) rfl rfl rfl

theorem trans (h : Writes g g₁) (h' : Writes g₁ g') : Writes g g' where
  toFollows := h.toFollows.trans h'.toFollows
  inside hinside := (h'.inside (h.inFunction.trans hinside)).trans (h.inside hinside)
  outside := by
    obtain ⟨new, hnew, hglobals⟩ := h.outside
    obtain ⟨more, hmore, hglobals'⟩ := h'.outside
    exact ⟨new ++ more, inferInstance, by rw [hglobals', hglobals, List.append_assoc]⟩

end Writes

/-- Whether a part of a generator adds lines to the current block, or none at all. -/
class Writing (x : SourceM δ α) : Prop where
  writes : ∀ {g a g'}, x g = .ok (a, g') → Writes g g'

/-- Whether a change of what is kept leaves the code. -/
class KeepsCode (f : State δ → State δ) : Prop where
  inFunction : ∀ s, (f s).inFunction = s.inFunction
  blocks : ∀ s, (f s).blocks = s.blocks
  globals : ∀ s, (f s).globals = s.globals

/-- Everything but the code may change. -/
instance keepsCode {dialect : State δ → δ} {namer : State δ → Namer}
    {uniforms : State δ → Array Line}
    {returnType : State δ → Ty} : KeepsCode fun s : State δ =>
      { s with
        dialect := dialect s
        namer := namer s
        uniforms := uniforms s
        returnType := returnType s } :=
  ⟨fun _ => rfl, fun _ => rfl, fun _ => rfl⟩

namespace Writing

theorem of_refl {x : SourceM δ α} (h : ∀ {g a g'}, x g = .ok (a, g') → g = g') : Writing x :=
  ⟨fun hx => h hx ▸ .refl _⟩

instance pure {a : α} : Writing (pure a : SourceM δ α) :=
  of_refl fun h => (pure_eq_ok.mp h).2

/-- What always holds of the result of a part may decide what the next part does. -/
theorem compose (P : γ → Prop) {x : SourceM δ γ} {f : γ → SourceM δ α} [hx : Writing x]
    (hP : ∀ {g c g'}, x g = .ok (c, g') → P c) (hf : ∀ c, P c → Writing (f c)) :
    Writing (x >>= f) where
  writes h := by
    obtain ⟨c, g₁, hc, h⟩ := bind_eq_ok.mp h
    exact (hx.writes hc).trans ((hf c (hP hc)).writes h)

theorem andThen {x : SourceM δ γ} {f : γ → SourceM δ α} [Writing x]
    (hf : ∀ c, Writing (f c)) : Writing (x >>= f) :=
  compose (fun _ => True) (fun _ => trivial) fun c _ => hf c

instance bind {x : SourceM δ γ} {f : γ → SourceM δ α} [Writing x]
    [hf : ∀ c, Writing (f c)] : Writing (x >>= f) :=
  andThen hf

instance ite {c : Prop} [Decidable c] {x y : SourceM δ α} [hx : Writing x] [hy : Writing y] :
    Writing (if c then x else y) := by
  split <;> assumption

instance throw {e : Fault} : Writing (throw e : SourceM δ α) :=
  of_refl fun h => (throw_eq_ok.mp h).elim

instance except {x : Except Fault α} : Writing (liftM x : SourceM δ α) :=
  of_refl fun h => (liftM_eq_ok.mp h).2

instance get : Writing (get : SourceM δ (Generator (State δ))) :=
  of_refl fun h => (get_eq_ok.mp h).2

instance getTarget : Writing (getTarget : SourceM δ (State δ)) := by
  unfold Generator.getTarget
  infer_instance

theorem modify {f : Generator (State δ) → Generator (State δ)} (hf : ∀ g, Writes g (f g)) :
    Writing (modify f : SourceM δ PUnit) :=
  ⟨fun h => modify_eq_ok.mp h ▸ hf _⟩

instance makeId : Writing (makeId : SourceM δ Id) where
  writes h := by
    obtain ⟨-, rfl⟩ := Prod.mk.inj (Except.ok.inj h)
    exact .of_eq rfl rfl (Nat.le_succ _) rfl rfl rfl

instance modifyTarget {f : State δ → State δ} [hf : KeepsCode f] : Writing (modifyTarget f) :=
  modify fun _ => .of_eq rfl rfl (Nat.le_refl _) (hf.inFunction _) (hf.blocks _) (hf.globals _)

instance modifyResult {f : Module → Module} : Writing (modifyResult f : SourceM δ Unit) :=
  modify fun _ => .of_eq rfl rfl (Nat.le_refl _) rfl rfl rfl

instance mapM {f : γ → SourceM δ α} [hf : ∀ c, Writing (f c)] {l : List γ} :
    Writing (l.mapM f) := by
  induction l with
  | nil => exact pure
  | cons c l ih =>
    rw [List.mapM_cons]
    infer_instance

instance forM {f : γ → SourceM δ PUnit} [hf : ∀ c, Writing (f c)] {l : List γ} :
    Writing (l.forM f) := by
  induction l with
  | nil => exact pure
  | cons c l ih => exact bind

instance foldlM {f : α → γ → SourceM δ α} [hf : ∀ a c, Writing (f a c)]
    {l : List γ} {a : α} :
    Writing (l.foldlM f a) := by
  induction l generalizing a with
  | nil => exact pure
  | cons c l ih =>
    rw [List.foldlM_cons]
    infer_instance

instance addEntryPoint {name : String} {isPixelShader : Bool} :
    Writing (addEntryPoint name isPixelShader : SourceM δ Bool) := by
  unfold Generator.addEntryPoint
  infer_instance

instance placeUniform {u : Uniform} : Writing (placeUniform u : SourceM δ Uniform) := by
  unfold Generator.placeUniform
  infer_instance

instance addSpecConstant {u : Uniform} : Writing (addSpecConstant u : SourceM δ Unit) := by
  unfold Generator.addSpecConstant
  infer_instance

end Writing

instance addStruct_writing {d : StructDecl} :
    Writing (modify fun g => { g with structs := g.structs ++ [d] } : SourceM δ PUnit) :=
  .modify fun _ => .of_eq rfl rfl (Nat.le_refl _) rfl rfl rfl

theorem follows_writeGlobal {ls : Lines} {g g' : Generator (State δ)} {u : Unit}
    (h : writeGlobal ls g = .ok (u, g')) :
    Follows g g' := by
  obtain rfl := modify_eq_ok.mp h
  exact ⟨rfl, rfl, Nat.le_refl _, rfl, fun _ _ => rfl,
    ⟨[], inferInstance, (List.append_nil _).symm⟩, ls, by simp⟩

/-- A generator with some lines behind those of the current block. -/
def written (ls : Lines) (g : Generator (State δ)) : Generator (State δ) :=
  { g with target := { g.target with
      blocks := Table.set g.currentBlock ((Table.get? g.target.blocks g.currentBlock).getD #[]
        ++ ls) g.target.blocks } }

/-- Lines are written to the current block if there is one. -/
theorem write_of_block {ls : Lines} {g g' : Generator (State δ)} {u : Unit}
    (h : write ls g = .ok (u, g')) (hg : g.currentBlock ≠ 0) : g' = written ls g := by
  obtain ⟨_, _, hget, h⟩ := bind_eq_ok.mp h
  obtain ⟨rfl, rfl⟩ := get_eq_ok.mp hget
  rw [if_pos hg] at h
  exact (modify_eq_ok.mp h).symm

/-- Where there is no block, lines are written to the source itself unless a
function is generated. -/
theorem write_of_none {ls : Lines} {g g' : Generator (State δ)} {u : Unit}
    (h : write ls g = .ok (u, g')) (hg : g.currentBlock = 0) :
    (g.target.inFunction = true ∧ g' = g)
      ∨ (g.target.inFunction = false ∧ writeGlobal ls g = .ok (u, g')) := by
  obtain ⟨_, _, hget, h⟩ := bind_eq_ok.mp h
  obtain ⟨rfl, rfl⟩ := get_eq_ok.mp hget
  rw [if_neg (not_not.mpr hg)] at h
  obtain ⟨_, _, htarget, h⟩ := bind_eq_ok.mp h
  obtain ⟨rfl, rfl⟩ := getTarget_eq_ok.mp htarget
  obtain ⟨hout, h⟩ | ⟨hin, h⟩ := ite_eq_ok.mp h
  · exact .inr ⟨by simpa using hout, h⟩
  · exact .inl ⟨by simpa using hin, (pure_eq_ok.mp h).2.symm⟩

theorem written_current (ls : Lines) (g : Generator (State δ)) :
    (written ls g).target.code g.currentBlock = g.target.code g.currentBlock ++ ls := by
  simp [written, State.code]

theorem written_others (ls : Lines) (g : Generator (State δ)) {b : Id}
    (hb : b ≠ g.currentBlock) :
    Table.get? (written ls g).target.blocks b = Table.get? g.target.blocks b :=
  Table.get?_set_of_ne hb

instance write_writing {ls : Lines} [hls : Unmarked ls] : Writing (write ls : SourceM δ Unit) where
  writes {g _ g'} h := by
    by_cases hg : g.currentBlock = 0
    · obtain ⟨-, rfl⟩ | ⟨hout, h⟩ := write_of_none h hg
      · exact .refl _
      · refine ⟨follows_writeGlobal h,
          fun hin => absurd (hout.symm.trans hin) Bool.false_ne_true, ls, hls, ?_⟩
        obtain rfl := modify_eq_ok.mp h
        simp
    · obtain rfl := write_of_block h hg
      exact ⟨⟨rfl, rfl, Nat.le_refl _, rfl, fun _ => written_others ls g,
        ⟨ls, hls, written_current ls g⟩, [],
        (List.append_nil _).symm⟩, fun _ => rfl, [], inferInstance, (List.append_nil _).symm⟩

section

variable [Dialect δ]

instance nameOf_writing {id : Id} : Writing (nameOf id : SourceM δ String) := by
  unfold nameOf
  infer_instance

instance defineName_writing {naming : Naming} {id : Id} {name : String} :
    Writing (defineName naming id name : SourceM δ Unit) := by
  unfold defineName
  infer_instance

instance writeText_writing {s : String} : Writing (writeText s : SourceM δ Unit) := by
  unfold writeText
  infer_instance

/-- The lines in front of something that is recorded with its location. -/
def State.mark (s : State δ) (location : Location) : Lines :=
  if !s.debugInfo || location.source = "" then []
    else [.directive (Dialect.lineDirective s.dialect location).1]

instance mark_unmarked {s : State δ} {location : Location} : Unmarked (s.mark location) := by
  unfold State.mark
  split <;> infer_instance

/-- The state behind what was recorded with a location. -/
def State.marked (s : State δ) (location : Location) : State δ :=
  if !s.debugInfo || location.source = "" then s
  else { s with dialect := (Dialect.lineDirective s.dialect location).2 }

theorem locationLines_spec {location : Location} {g g' : Generator (State δ)} {ls : Lines}
    (h : locationLines location g = .ok (ls, g')) :
    ls = g.target.mark location ∧ g' = { g with target := g.target.marked location } := by
  obtain ⟨_, _, htarget, h⟩ := bind_eq_ok.mp h
  obtain ⟨rfl, rfl⟩ := getTarget_eq_ok.mp htarget
  unfold State.mark State.marked
  obtain ⟨hnone, h⟩ | ⟨hsome, h⟩ := ite_eq_ok.mp h
  · obtain ⟨rfl, rfl⟩ := pure_eq_ok.mp h
    rw [if_pos hnone, if_pos hnone]
    exact ⟨rfl, rfl⟩
  · obtain ⟨_, _, hmodify, h⟩ := bind_eq_ok.mp h
    obtain rfl := modifyTarget_eq_ok.mp hmodify
    obtain ⟨rfl, rfl⟩ := pure_eq_ok.mp h
    rw [if_neg hsome, if_neg hsome]
    exact ⟨rfl, rfl⟩

instance locationLines_writing {location : Location} :
    Writing (locationLines location : SourceM δ Lines) := by
  unfold locationLines
  infer_instance

theorem writing_behind_location {location : Location} {f : Lines → SourceM δ α}
    (hf : ∀ ls, Unmarked ls → Writing (f ls)) :
    Writing (locationLines location >>= f) :=
  .compose Unmarked (fun h => (locationLines_spec h).1 ▸ mark_unmarked) hf

instance writeLocation_writing {location : Location} :
    Writing (writeLocation location : SourceM δ Unit) :=
  writing_behind_location fun _ _ => inferInstance

instance typeName_writing {role : TypeRole} {t : Ty} :
    Writing (typeName role t : SourceM δ String) := by
  unfold typeName
  cases t.base <;> infer_instance

instance declare_writing {location : Location} {t : Ty} {value : String} :
    Writing (declare location t value : SourceM δ Id) := by
  unfold declare
  exact .andThen fun _ => writing_behind_location fun _ _ => inferInstance

instance argumentNames_writing {args : List Expression} :
    Writing (argumentNames args : SourceM δ (List String)) := by
  unfold argumentNames
  infer_instance

instance callValue_writing {location : Location} {result : Ty} {call : String} :
    Writing (callValue location result call : SourceM δ Id) := by
  unfold callValue
  infer_instance

instance emitCall_writing {location : Location} {function : Id} {result : Ty}
    {args : List Expression} :
    Writing (emitCall location function result args : SourceM δ Id) := by
  unfold emitCall
  infer_instance

/-- The members of a structure are lines of text. -/
theorem memberLines_unmarked {members : List Member} {g g' : Generator (State δ)} {ls : Lines}
    (h : members.mapM memberLine g = .ok (ls, g')) : Unmarked ls := by
  induction members generalizing g g' ls with
  | nil =>
    rw [List.mapM_nil] at h
    obtain ⟨rfl, -⟩ := pure_eq_ok.mp h
    infer_instance
  | cons m members ih =>
    rw [List.mapM_cons] at h
    obtain ⟨l, g₁, hline, h⟩ := bind_eq_ok.mp h
    obtain ⟨ls, g₂, hlines, h⟩ := bind_eq_ok.mp h
    obtain ⟨type, g₃, -, hline⟩ := bind_eq_ok.mp hline
    have := ih hlines
    obtain ⟨rfl, -⟩ := pure_eq_ok.mp h
    obtain ⟨rfl, -⟩ := pure_eq_ok.mp hline
    infer_instance

instance memberLine_writing {m : Member} : Writing (memberLine m : SourceM δ Line) := by
  unfold memberLine
  infer_instance

instance defineStruct_writing {location : Location} {decl : StructDecl} :
    Writing (defineStruct location decl : SourceM δ StructDecl) := by
  unfold defineStruct
  refine .andThen fun id =>
    .andThen fun _ => .andThen fun _ => .compose Unmarked memberLines_unmarked fun members _ => ?_
  refine .andThen fun name => ?_
  infer_instance

set_option synthInstance.maxSize 65536 in
instance defineVariable_writing {location : Location} {t : Ty} {name : String}
    {isGlobal : Bool} {init : Id} :
    Writing (defineVariable location t name isGlobal init : SourceM δ Id) := by
  unfold defineVariable
  infer_instance

instance writeUniform_writing {s : String} : Writing (writeUniform s : SourceM δ Unit) := by
  unfold writeUniform
  infer_instance

instance defineUniform_writing {asConstant : Location → Id → Uniform → SourceM δ Unit}
    {asMember : Id → Uniform → SourceM δ Unit}
    [∀ location id u, Writing (asConstant location id u)]
    [∀ id u, Writing (asMember id u)] {location : Location} {u : Uniform} :
    Writing (defineUniform asConstant asMember location u) := by
  unfold defineUniform
  infer_instance

variable [Literals δ] [∀ t c, Writing (Literals.literal t c : SourceM δ String)]

instance constantId_writing {t : Ty} {c : Constant} : Writing (constantId t c : SourceM δ Id) := by
  unfold constantId
  infer_instance

instance loadValue_writing {access : Expression → SourceM δ String} [∀ e, Writing (access e)]
    {e : Expression} {forceNew : Bool} : Writing (loadValue access e forceNew) := by
  unfold loadValue
  infer_instance

end

end Source

namespace Glsl

open Source Generator

instance constructorName_writing {t : Ty} : Writing (constructorName t) := by
  unfold constructorName
  infer_instance

instance literalWithin_writing {depth : Nat} {t : Ty} {c : Constant} :
    Writing (literalWithin depth t c) := by
  induction depth generalizing t c with
  | zero => exact .throw
  | succ depth ih =>
    unfold literalWithin
    infer_instance

instance literal_writing {t : Ty} {c : Constant} : Writing (literal t c) := by
  unfold literal
  infer_instance

instance {t : Ty} {c : Constant} : Writing (Literals.literal t c : SourceM Language String) :=
  literal_writing

instance uses_writing {f : Helpers → Helpers} : Writing (uses f) := by
  unfold uses
  infer_instance

instance applyText_writing {text : String} {a : Access} : Writing (Path.applyText text a) := by
  unfold Path.applyText
  cases a with
  | member source target i =>
    refine .andThen fun g => ?_
    split <;> infer_instance
  | _ => infer_instance

instance apply_writing {p : Path} {a : Access} : Writing (p.apply a) := by
  unfold Path.apply
  split
  · infer_instance
  · cases a <;> infer_instance

instance pathOf_writing {e : Expression} : Writing (pathOf e) := by
  unfold pathOf
  infer_instance

instance accessText_writing {e : Expression} : Writing (accessText e) := by
  unfold accessText
  infer_instance

instance storeValue_writing {e : Expression} {value : Id} : Writing (storeValue e value) := by
  unfold storeValue
  refine .andThen fun _ => .andThen fun p => .andThen fun value => ?_
  dsimp only
  split <;> infer_instance

instance emitUnary_writing {location : Location} {op : UnaryOp} {t : Ty} {value : Id} :
    Writing (emitUnary location op t value) := by
  unfold emitUnary
  infer_instance

instance emitBinary_writing {location : Location} {op : BinaryOp} {result operands : Ty}
    {left right : Id} :
    Writing (emitBinary location op result operands left right) := by
  unfold emitBinary
  split <;> infer_instance

instance emitSelect_writing {location : Location} {t : Ty} {condition yes no : Id} :
    Writing (emitSelect location t condition yes no) := by
  unfold emitSelect
  infer_instance

instance emitConstruct_writing {location : Location} {t : Ty} {args : List Expression} :
    Writing (emitConstruct location t args) := by
  unfold emitConstruct
  infer_instance

instance emitFrexp_writing {location : Location} {result : Ty} {args : List Expression}
    {names : List String} :
    Writing (emitFrexp location result args names) := by
  unfold emitFrexp
  infer_instance

instance emitIntrinsic_writing {location : Location} {i : Intrinsic} {result : Ty}
    {args : List Expression} :
    Writing (emitIntrinsic location i result args) := by
  unfold emitIntrinsic
  infer_instance

instance currentOptions_writing : Writing currentOptions := by
  unfold currentOptions
  infer_instance

instance defineTexture_writing {t : Texture} : Writing (defineTexture t) := by
  unfold defineTexture
  infer_instance

instance defineSampler_writing {location : Location} {s : Sampler} :
    Writing (defineSampler location s) := by
  unfold defineSampler
  infer_instance

instance uniformMember_writing {id : Id} {u : Uniform} : Writing (uniformMember id u) := by
  unfold uniformMember
  infer_instance

instance uniformConstant_writing {location : Location} {id : Id} {u : Uniform} :
    Writing (uniformConstant location id u) := by
  unfold uniformConstant
  infer_instance

/-- Whether a part of a stage writes nothing but what belongs to the stage. -/
class WritingStage {α : Type} (x : StageM α) : Prop where
  writing : ∀ st, Writing (x st)

namespace WritingStage

variable {α γ : Type}

instance pure {a : α} : WritingStage (pure a : StageM α) :=
  ⟨fun _ => Writing.pure⟩

theorem andThen {x : StageM γ} {f : γ → StageM α} [hx : WritingStage x]
    (hf : ∀ c, WritingStage (f c)) :
    WritingStage (x >>= f) where
  writing st := by
    have := hx.writing st
    show Writing (x st >>= fun result => f result.1 result.2)
    exact .andThen fun result => (hf result.1).writing result.2

instance bind {x : StageM γ} {f : γ → StageM α} [hx : WritingStage x]
    [hf : ∀ c, WritingStage (f c)] :
    WritingStage (x >>= f) :=
  andThen hf

instance ite {c : Prop} [Decidable c] {x y : StageM α} [hx : WritingStage x]
    [hy : WritingStage y] :
    WritingStage (if c then x else y) := by
  split <;> assumption

instance liftM {x : SourceM Language α} [Writing x] : WritingStage (liftM x : StageM α) where
  writing st := by
    show Writing (x >>= fun a => Pure.pure (a, st))
    infer_instance

instance get : WritingStage (get : StageM Stage) :=
  ⟨fun _ => Writing.pure⟩

instance set {st : Stage} : WritingStage (set st : StageM PUnit) :=
  ⟨fun _ => Writing.pure⟩

instance mapM {f : γ → StageM α} [hf : ∀ c, WritingStage (f c)] {l : List γ} :
    WritingStage (l.mapM f) := by
  induction l with
  | nil => exact pure
  | cons c l ih =>
    rw [List.mapM_cons]
    infer_instance

instance forM {f : γ → StageM PUnit} [hf : ∀ c, WritingStage (f c)] {l : List γ} :
    WritingStage (l.forM f) := by
  induction l with
  | nil => exact pure
  | cons c l ih => exact bind

end WritingStage

instance statement_writing {s : String} : WritingStage (statement s) :=
  ⟨fun _ => Writing.pure⟩

instance locationOf_writing {semantic : String} : Writing (locationOf semantic) := by
  unfold locationOf
  infer_instance

instance varying_writing {t : Ty} {semantic name : String} {isOutput : Bool} :
    WritingStage (varying t semantic name isOutput) := by
  unfold varying
  refine .andThen fun st => .andThen fun options => ?_
  split <;> infer_instance

instance converted_writing {t : Ty} {value : String} : WritingStage (converted t value) := by
  unfold converted
  infer_instance

instance gatherInputs_writing {t : Ty} {semantic value name : String} :
    WritingStage (gatherInputs t semantic value name) := by
  unfold gatherInputs
  infer_instance

instance scatterOutputs_writing {t : Ty} {semantic value name : String} :
    WritingStage (scatterOutputs t semantic value name) := by
  unfold scatterOutputs
  infer_instance

instance declareParameter_writing {p : Member} {i : Nat} : WritingStage (declareParameter p i) := by
  unfold declareParameter
  infer_instance

instance stageCall_writing {decl : FunctionDecl} {args : List String} :
    WritingStage (stageCall decl args) := by
  unfold stageCall
  infer_instance

instance writeStage_writing {decl : FunctionDecl} {isPixelShader invertY : Bool} :
    WritingStage (writeStage decl isPixelShader invertY) := by
  unfold writeStage
  infer_instance

/-- A stage is written outside of functions. -/
theorem follows_emitEntryPoint {decl : FunctionDecl} {isPixelShader : Bool}
    {g g' : Generator (State Language)} {u : Unit}
    (h : emitEntryPoint decl isPixelShader g = .ok (u, g')) : Follows g g' := by
  obtain ⟨isNew, g₁, hadd, h⟩ := bind_eq_ok.mp h
  have hadded : Writes g g₁ := Writing.writes hadd
  obtain ⟨-, h⟩ | ⟨-, h⟩ := ite_eq_ok.mp h
  · exact (pure_eq_ok.mp h).2 ▸ hadded.toFollows
  · obtain ⟨o, g₂, hoptions, h⟩ := bind_eq_ok.mp h
    obtain ⟨⟨_, st⟩, g₃, hstage, h⟩ := bind_eq_ok.mp h
    have hwritten : Writes g₂ g₃ := (writeStage_writing.writing _).writes hstage
    exact (hadded.trans ((Writing.writes hoptions).trans hwritten)).toFollows.trans
      (follows_writeGlobal h)

end Glsl

namespace Hlsl

open Source Generator

instance elementLiteral_writing {t : Ty} {c : Constant} : Writing (elementLiteral t c) := by
  unfold elementLiteral
  infer_instance

instance literal_writing {t : Ty} {c : Constant} : Writing (literal t c) := by
  unfold literal
  infer_instance

instance {t : Ty} {c : Constant} : Writing (Literals.literal t c : SourceM Language String) :=
  literal_writing

instance castText_writing {t : Ty} {value : String} : Writing (castText t value) := by
  unfold castText
  infer_instance

instance applyAccess_writing {text : String} {a : Access} : Writing (applyAccess text a) := by
  unfold applyAccess
  cases a with
  | member source target i =>
    refine .andThen fun g => ?_
    split <;> infer_instance
  | _ => infer_instance

instance accessText_writing {e : Expression} : Writing (accessText e) := by
  unfold accessText
  infer_instance

instance storeValue_writing {e : Expression} {value : Id} : Writing (storeValue e value) := by
  unfold storeValue
  infer_instance

instance emitUnary_writing {location : Location} {op : UnaryOp} {t : Ty} {value : Id} :
    Writing (emitUnary location op t value) := by
  unfold emitUnary
  infer_instance

instance emitBinary_writing {location : Location} {op : BinaryOp} {result operands : Ty}
    {left right : Id} :
    Writing (emitBinary location op result operands left right) := by
  unfold emitBinary
  infer_instance

instance emitSelect_writing {location : Location} {t : Ty} {condition yes no : Id} :
    Writing (emitSelect location t condition yes no) := by
  unfold emitSelect
  infer_instance

instance emitConstruct_writing {location : Location} {t : Ty} {args : List Expression} :
    Writing (emitConstruct location t args) := by
  unfold emitConstruct
  infer_instance

instance emitTextureSize_writing {location : Location} {result : Ty} {sampler : String}
    {level : Option String} :
    Writing (emitTextureSize location result sampler level) := by
  unfold emitTextureSize
  cases level <;> infer_instance

instance emitIntrinsic_writing {location : Location} {i : Intrinsic} {result : Ty}
    {args : List Expression} :
    Writing (emitIntrinsic location i result args) := by
  unfold emitIntrinsic
  refine .andThen fun names => ?_
  split <;> infer_instance

instance defineTexture_writing {location : Location} {t : Texture} :
    Writing (defineTexture location t) := by
  unfold defineTexture
  infer_instance

instance stateRegister_writing {st : SamplerState} : Writing (stateRegister st) := by
  unfold stateRegister
  refine .andThen fun s => ?_
  split <;> infer_instance

instance defineSampler_writing {location : Location} {s : Sampler} :
    Writing (defineSampler location s) := by
  unfold defineSampler
  refine .andThen fun id => .andThen fun _ => .andThen fun g => ?_
  split <;> infer_instance

instance uniformMember_writing {id : Id} {u : Uniform} : Writing (uniformMember id u) := by
  unfold uniformMember
  infer_instance

instance uniformConstant_writing {location : Location} {id : Id} {u : Uniform} :
    Writing (uniformConstant location id u) := by
  unfold uniformConstant
  infer_instance

instance emitEntryPoint_writing {decl : FunctionDecl} {isPixelShader : Bool} :
    Writing (emitEntryPoint decl isPixelShader) := by
  unfold emitEntryPoint
  infer_instance

end Hlsl

end ShaderEffect

import ShaderEffect.Proofs.Computation
import ShaderEffect.Proofs.Layout
import ShaderEffect.Script
import ShaderEffect.Source.Line

namespace ShaderEffect

variable {α γ β : Type}

open Generator

/-- Whether every structure inside of a structure was defined before it. -/
inductive Layered : List StructDecl → Prop where
  | nil : Layered []
  | snoc {structs : List StructDecl} {decl : StructDecl} (h : Layered structs)
      (hmembers : ∀ m ∈ decl.members, m.type.isStruct →
        ∃ d ∈ structs, d.definition = m.type.definition) :
      Layered (structs ++ [decl])

/-- What a request leaves as it was: the structures, and, in front of what was added, the functions
and the textures. -/
structure Generator.Keeps (g g' : Generator β) : Prop where
  structs : g'.structs = g.structs
  functions : g.functions <+: g'.functions
  textures : g.result.textures.map (·.id) <+: g'.result.textures.map (·.id)
  nextId : g.nextId ≤ g'.nextId

namespace Generator.Keeps

variable {g g₁ g' : Generator β}

theorem refl (g : Generator β) : g.Keeps g :=
  ⟨rfl, List.prefix_refl _, List.prefix_refl _, Nat.le_refl _⟩

theorem trans (h : g.Keeps g₁) (h' : g₁.Keeps g') : g.Keeps g' :=
  ⟨h'.structs.trans h.structs, h.functions.trans h'.functions, h.textures.trans h'.textures,
    Nat.le_trans h.nextId h'.nextId⟩

end Generator.Keeps

/-- Whether functions and textures stay defined, and no id is given back. -/
structure Generator.Grows (g g' : Generator β) : Prop where
  functions : g.functions <+: g'.functions
  textures : g.result.textures.map (·.id) <+: g'.result.textures.map (·.id)
  nextId : g.nextId ≤ g'.nextId

namespace Generator.Grows

variable {g g₁ g' : Generator β}

theorem refl (g : Generator β) :
    g.Grows g := ⟨List.prefix_refl _, List.prefix_refl _, Nat.le_refl _⟩

theorem trans (h : g.Grows g₁) (h' : g₁.Grows g') : g.Grows g' :=
  ⟨h.functions.trans h'.functions, h.textures.trans h'.textures,
    Nat.le_trans h.nextId h'.nextId⟩

end Generator.Grows

theorem Generator.Keeps.grows {g g' : Generator β} (h : g.Keeps g') : g.Grows g' :=
  ⟨h.functions, h.textures, h.nextId⟩

/-- What a generator has collected of the uniform block. -/
structure UniformBlock where
  uniforms : List Uniform
  size : UInt32
  /-- Whether scalar uniforms with an initial value are kept out of the block. -/
  specConstants : Bool
  /-- The lines of the members, if the code is a text. -/
  lines : List Source.Line

/-- Whether a uniform becomes a constant if constants are wanted. -/
def Uniform.isConstant (u : Uniform) (specConstants : Bool) : Bool :=
  specConstants && u.hasInitializer && u.type.isScalar

/-- Whether a block takes up a uniform that it is given, as a member with some lines. It does unless
the uniform becomes a constant. -/
def UniformBlock.Takes (IsMember : Uniform → List Source.Line → Prop) (u : Uniform)
    (b b' : UniformBlock) : Prop :=
  if u.isConstant b.specConstants then b' = b
  else
    ∃ lines, IsMember (Layout.placed u b.size) lines
      ∧ b' =
        { b with
          uniforms := b.uniforms ++ [Layout.placed u b.size]
          size := (Layout.place u.type b.size).stop
          lines := b.lines ++ lines }

/-- Where a target keeps its part of the uniform block. -/
class HasUniformBlock (β : Type) where
  specConstants : β → Bool
  lines : β → List Source.Line

/-- The uniform block as far as it is collected. -/
def Generator.uniformBlock [HasUniformBlock β] (g : Generator β) : UniformBlock where
  uniforms := g.result.uniforms
  size := g.result.uniformSize
  specConstants := HasUniformBlock.specConstants g.target
  lines := HasUniformBlock.lines g.target

/-- What every request leaves as it was unless it defines a structure or a uniform. -/
structure Generator.Stays [HasUniformBlock β] (g g' : Generator β) : Prop extends g.Keeps g' where
  block : g'.uniformBlock = g.uniformBlock

namespace Generator.Stays

variable [HasUniformBlock β] {g g₁ g' : Generator β}

theorem refl (g : Generator β) : g.Stays g :=
  ⟨.refl g, rfl⟩

theorem trans (h : g.Stays g₁) (h' : g₁.Stays g') : g.Stays g' :=
  ⟨h.toKeeps.trans h'.toKeeps, h'.block.trans h.block⟩

end Generator.Stays

/-- Whether the results of a part of a target satisfy `Q`, and there is one, or a fault other than
that it took too long, if structures are layered. -/
structure Answers (x : GenM β α) (g : Generator β) (Q : α → Generator β → Prop) :
    Prop where
  result : ∀ {a g'}, x g = .ok (a, g') → Q a g'
  ne_exhausted : Layered g.structs → x g ≠ .error .exhausted

/-- Whether a part of a target gives answers and leaves what was there as it was. -/
class Steady [HasUniformBlock β] (x : GenM β α) : Prop where
  answers : ∀ g : Generator β, Answers x g fun _ g' => g.Stays g'

/-- Whether a request defines a structure. -/
abbrev Request.definesStruct : Request → Bool
  | defineStruct .. => true
  | _ => false

/-- The uniform that a request defines. -/
abbrev Request.uniform? : Request → Option Uniform
  | defineUniform _ u => some u
  | _ => none

/-- Whether a target answers requests as long as structures are layered. Only the definition of a
structure adds to them. -/
class Backend.Lasting (β : Type) [Backend β] : Prop where
  keeps : ∀ {q : Request} {g : Generator β}, q.definesStruct = false → Layered g.structs →
    Ends q.handle g fun _ g' => g.Keeps g'
  defineStruct :
    ∀ {location : Location} {decl : StructDecl} {g : Generator β}, Layered g.structs →
    Ends (Backend.defineStruct location decl) g fun decl' g' =>
      g'.structs = g.structs ++ [decl'] ∧ decl'.members = decl.members

/-- Whether a target answers requests: a structure is put behind the others, a uniform is taken up,
and everything else stays as it was. -/
class Backend.Answering (β : Type) [Backend β] [HasUniformBlock β]
    (IsMember : outParam (Uniform → List Source.Line → Prop)) : Prop where
  defineStruct : ∀ (location : Location) (decl : StructDecl) (g : Generator β),
    Answers (Backend.defineStruct location decl) g fun decl' g' =>
      g'.structs = g.structs ++ [decl'] ∧ decl'.members = decl.members
        ∧ g'.uniformBlock = g.uniformBlock ∧ g.Grows g'
  defineUniform : ∀ (location : Location) (u : Uniform) (g : Generator β),
    Answers (Backend.defineUniform location u) g fun _ g' =>
      g.Keeps g' ∧ UniformBlock.Takes IsMember u g.uniformBlock g'.uniformBlock
  steady : ∀ {q : Request},
    q.definesStruct = false → q.uniform? = none → Steady (q.handle : GenM β q.Answer)

namespace Answers

variable {x : GenM β α} {g : Generator β} {Q R : α → Generator β → Prop}

theorem ends (h : Answers x g Q) (hg : Layered g.structs) : Ends x g Q := by
  have hne := h.ne_exhausted hg
  unfold Ends
  split
  next hx => exact h.result hx
  next hx => exact fun he => hne (hx.trans (congrArg _ he))

theorem mono (h : Answers x g Q) (hQR : ∀ a g', Q a g' → R a g') : Answers x g R :=
  ⟨fun hx => hQR _ _ (h.result hx), h.ne_exhausted⟩

theorem of_ok {a : α} {g' : Generator β} (hx : x g = .ok (a, g')) (hQ : Q a g') :
    Answers x g Q where
  result hx' := by
    obtain ⟨rfl, rfl⟩ : a = _ ∧ g' = _ := by simpa [hx] using hx'
    exact hQ
  ne_exhausted _ := by simp [hx]

theorem pure {a : α} (h : Q a g) : Answers (pure a) g Q :=
  of_ok rfl h

theorem bind {P : γ → Generator β → Prop} {x : GenM β γ} {f : γ → GenM β α}
    (hx : Answers x g P) (hstructs : ∀ c g', P c g' → g'.structs = g.structs)
    (hf : ∀ c g', P c g' → Answers (f c) g' Q) :
    Answers (x >>= f) g Q where
  result h := by
    obtain ⟨c, g₁, hc, ha⟩ := bind_eq_ok.mp h
    exact (hf c g₁ (hx.result hc)).result ha
  ne_exhausted hg :=
    ((hx.ends hg).bind (Q := fun _ _ => True) fun c g' hc =>
      ((hf c g' hc).ends (hstructs c g' hc ▸ hg)).mono fun _ _ _ => trivial).ne_exhausted

theorem bind_getTarget {f : β → GenM β α} (hf : Answers (f g.target) g Q) :
    Answers (getTarget >>= f) g Q :=
  ⟨fun h => hf.result h, fun hg h => hf.ne_exhausted hg h⟩

end Answers

variable [HasUniformBlock β]

/-- Whether a change of what a target keeps leaves its part of the uniform block. -/
class LeavesBlock (f : β → β) : Prop where
  specConstants : ∀ s, HasUniformBlock.specConstants (f s) = HasUniformBlock.specConstants s
  lines : ∀ s, HasUniformBlock.lines (f s) = HasUniformBlock.lines s

namespace LeavesBlock

instance ite {c : β → Prop} [∀ s, Decidable (c s)] {f h : β → β} [hf : LeavesBlock f]
    [hh : LeavesBlock h] :
    LeavesBlock fun s => if c s then f s else h s where
  specConstants s := by
    split
    · exact hf.specConstants s
    · exact hh.specConstants s
  lines s := by
    split
    · exact hf.lines s
    · exact hh.lines s

end LeavesBlock

namespace Steady

theorem ends {x : GenM β α} [hx : Steady x] {g : Generator β} (hg : Layered g.structs) :
    Ends x g fun _ g' => g.Stays g' :=
  (hx.answers g).ends hg

theorem stays {x : GenM β α} [hx : Steady x] {g g' : Generator β} {a : α}
    (h : x g = .ok (a, g')) : g.Stays g' :=
  (hx.answers g).result h

/-- Goes on behind a part that leaves everything as it was. -/
theorem next {x : GenM β γ} {f : γ → GenM β α} [hx : Steady x] {g : Generator β}
    {Q : α → Generator β → Prop}
    (hf : ∀ c g', g.Stays g' → Answers (f c) g' Q) : Answers (x >>= f) g Q :=
  (hx.answers g).bind (fun _ _ h => h.structs) hf

instance pure {a : α} : Steady (pure a : GenM β α) :=
  ⟨fun g => .pure (.refl g)⟩

theorem andThen {x : GenM β γ} {f : γ → GenM β α} [hx : Steady x]
    (hf : ∀ c, Steady (f c)) : Steady (x >>= f) where
  answers _ := next fun c g' h => ((hf c).answers g').mono fun _ _ => h.trans

instance bind {x : GenM β γ} {f : γ → GenM β α} [hx : Steady x] [hf : ∀ c, Steady (f c)] :
    Steady (x >>= f) :=
  andThen hf

instance bind_option {x : GenM β (Option γ)} {f : Option γ → GenM β α} [hx : Steady x]
    [hsome : ∀ c, Steady (f (some c))] [hnone : Steady (f none)] : Steady (x >>= f) :=
  have : ∀ c, Steady (f c) := fun c => c.casesOn hnone hsome
  bind

instance bind_prod {δ : Type} {x : GenM β (γ × δ)} {f : γ × δ → GenM β α}
    [hx : Steady x] [hf : ∀ c d, Steady (f (c, d))] : Steady (x >>= f) :=
  have : ∀ c, Steady (f c) := fun c => hf c.1 c.2
  bind

instance ite {c : Prop} [Decidable c] {x y : GenM β α} [hx : Steady x] [hy : Steady y] :
    Steady (if c then x else y) := by
  split <;> assumption

theorem of_fault {e : Fault} (he : e ≠ .exhausted) : Steady (throw e : GenM β α) :=
  ⟨fun _ => ⟨fun h => (throw_eq_ok.mp h).elim,
    fun _ => Ends.ne_exhausted (Q := fun _ _ => True) (Ends.throw he)⟩⟩

instance outOfRange : Steady (throw .outOfRange : GenM β α) := of_fault nofun
instance noFunction : Steady (throw .noFunction : GenM β α) := of_fault nofun

instance inexpressibleType {t : Target} {s : String} :
    Steady (throw (.inexpressibleType t s) : GenM β α) :=
  of_fault nofun

instance unknownTexture {s t : String} : Steady (throw (.unknownTexture s t) : GenM β α) :=
  of_fault nofun

instance except {x : Except Fault α} [Bounded x] : Steady (liftM x : GenM β α) :=
  ⟨fun g =>
    { result := fun h => (liftM_eq_ok.mp h).2 ▸ .refl g
      ne_exhausted :=
        fun _ => Ends.ne_exhausted (Q := fun _ _ => True) (Ends.liftM fun _ _ => trivial) }⟩

instance get : Steady (get : GenM β (Generator β)) :=
  ⟨fun g => .of_ok rfl (.refl g)⟩

theorem modify {f : Generator β → Generator β} (hf : ∀ g : Generator β, g.Stays (f g)) :
    Steady (modify f : GenM β PUnit) :=
  ⟨fun g => .of_ok rfl (hf g)⟩

/-- The result may change in everything but its textures and uniforms. -/
theorem modifyResult {f : Module → Module}
    (htextures : ∀ m, m.textures.map (·.id) <+: (f m).textures.map (·.id))
    (huniforms : ∀ m, (f m).uniforms = m.uniforms ∧ (f m).uniformSize = m.uniformSize) :
    Steady (modifyResult f : GenM β Unit) :=
  modify fun g => by
    refine ⟨⟨rfl, List.prefix_refl _, htextures g.result, Nat.le_refl _⟩, ?_⟩
    simp only [uniformBlock, huniforms]

instance getTarget : Steady (getTarget : GenM β β) := by
  unfold Generator.getTarget
  infer_instance

instance makeId : Steady (makeId : GenM β Id) :=
  ⟨fun g =>
    have hstays : g.Stays { g with nextId := g.nextId + 1 } :=
      ⟨⟨rfl, List.prefix_refl _, List.prefix_refl _, Nat.le_succ _⟩, rfl⟩
    .of_ok rfl hstays⟩

instance setBlock {id : Id} : Steady (setBlock id : GenM β Id) :=
  ⟨fun g =>
    have hstays : g.Stays { g with lastBlock := g.currentBlock, currentBlock := id } :=
      ⟨⟨rfl, List.prefix_refl _, List.prefix_refl _, Nat.le_refl _⟩, rfl⟩
    .of_ok rfl hstays⟩

instance modifyTarget {f : β → β} [hf : LeavesBlock f] : Steady (modifyTarget f) :=
  modify fun g => by
    refine ⟨⟨rfl, List.prefix_refl _, List.prefix_refl _, Nat.le_refl _⟩, ?_⟩
    simp only [uniformBlock, hf.specConstants, hf.lines]

instance mapM {f : γ → GenM β α} [hf : ∀ c, Steady (f c)] {l : List γ} :
    Steady (l.mapM f) := by
  induction l with
  | nil => exact pure
  | cons c l ih =>
    rw [List.mapM_cons]
    infer_instance

instance forM {f : γ → GenM β PUnit} [hf : ∀ c, Steady (f c)] {l : List γ} :
    Steady (l.forM f) := by
  induction l with
  | nil => exact pure
  | cons c l ih => exact bind

instance foldlM {f : α → γ → GenM β α} [hf : ∀ a c, Steady (f a c)]
    {l : List γ} {a : α} :
    Steady (l.foldlM f a) := by
  induction l generalizing a with
  | nil => exact pure
  | cons c l ih =>
    rw [List.foldlM_cons]
    infer_instance

end Steady

namespace Generator

instance markRenderTarget_steady {id : Id} : Steady (markRenderTarget id : GenM β Unit) :=
  .modifyResult fun m => by
    rw [List.map_map]
    have hid : ∀ t ∈ m.textures,
        t.id = (if t.id = id then { t with renderTarget := true } else t).id := fun t _ => by
      split <;> rfl
    exact List.map_congr_left hid ▸ List.prefix_refl _
  fun _ => ⟨rfl, rfl⟩

instance defineTechnique_steady {t : Technique} : Steady (defineTechnique t : GenM β Unit) :=
  .modifyResult (fun _ => List.prefix_refl _) fun _ => ⟨rfl, rfl⟩

instance addEntryPoint_steady {name : String} {isPixelShader : Bool} :
    Steady (addEntryPoint name isPixelShader : GenM β Bool) :=
  have {e : EntryPoint} :
      Steady (modifyResult fun m => { m with entryPoints := m.entryPoints ++ [e] } :
        GenM β Unit) :=
    .modifyResult (fun _ => List.prefix_refl _) fun _ => ⟨rfl, rfl⟩
  by
    unfold addEntryPoint
    infer_instance

instance addSpecConstant_steady {u : Uniform} : Steady (addSpecConstant u : GenM β Unit) :=
  .modifyResult (fun _ => List.prefix_refl _) fun _ => ⟨rfl, rfl⟩

/-- A uniform is put behind the others. -/
theorem placeUniform_answers (u : Uniform) (g : Generator β) :
    Answers (placeUniform u) g fun u' g' =>
    g.Keeps g' ∧ u' = Layout.placed u g.uniformBlock.size
      ∧ g'.uniformBlock =
        { g.uniformBlock with
          uniforms := g.uniformBlock.uniforms ++ [u']
          size := (Layout.place u.type g.uniformBlock.size).stop } :=
  have hkeeps (m : Module) (hm : m.textures = g.result.textures) : g.Keeps { g with result := m } :=
    ⟨rfl, List.prefix_refl _, hm ▸ List.prefix_refl _, Nat.le_refl _⟩
  .of_ok rfl ⟨hkeeps _ rfl, rfl, rfl⟩

end Generator

namespace Backend.Answering

variable [Backend β] {IsMember : Uniform → List Source.Line → Prop}
  [hβ : Backend.Answering β IsMember]

instance lasting : Backend.Lasting β where
  keeps {q g} hq hg := by
    cases huniform : q.uniform? with
    | none => exact (((hβ.steady hq huniform).answers g).ends hg).mono fun _ _ h => h.toKeeps
    | some u =>
      cases q with
      | defineUniform location u =>
        exact ((hβ.defineUniform location u g).ends hg).mono fun _ _ h => h.1
      | _ => cases huniform
  defineStruct {location decl g} hg :=
    ((hβ.defineStruct location decl g).ends hg).mono fun _ _ h => ⟨h.1, h.2.1⟩

include hβ in
/-- Only the definition of a uniform changes the uniform block. -/
theorem uniformBlock_eq {q : Request} (hq : q.uniform? = none) {g g' : Generator β} {a : q.Answer}
    (h : q.handle g = .ok (a, g')) : g'.uniformBlock = g.uniformBlock := by
  cases hstruct : q.definesStruct with
  | false => exact (((hβ.steady hstruct hq).answers g).result h).block
  | true =>
    cases q with
    | defineStruct location decl => exact ((hβ.defineStruct location decl g).result h).2.2.1
    | _ => cases hstruct

include hβ in
/-- Whatever is requested, functions and textures stay defined. -/
theorem grows {q : Request} {g g' : Generator β} {a : q.Answer} (h : q.handle g = .ok (a, g')) :
    g.Grows g' := by
  cases hstruct : q.definesStruct with
  | true =>
    cases q with
    | defineStruct location decl => exact ((hβ.defineStruct location decl g).result h).2.2.2
    | _ => cases hstruct
  | false =>
    cases huniform : q.uniform? with
    | none => exact (((hβ.steady hstruct huniform).answers g).result h).grows
    | some u =>
      cases q with
      | defineUniform location u => exact ((hβ.defineUniform location u g).result h).1.grows
      | _ => cases huniform

end Backend.Answering

end ShaderEffect

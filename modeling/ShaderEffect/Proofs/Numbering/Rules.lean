import ShaderEffect.Proofs.Failures.Rules
import ShaderEffect.Proofs.Requests.Rules

/-!
Rules to prove that the ids a target gives are ids that were handed out.

A part of a target is judged by the ids of the whole run, as the parts of the parser are: what it
relies on in the state of the target still holds behind it, as long as the ids do not run out.
Besides it is known how the state follows the one before, which is of one kind for all parts.
Instances of the class `Numbers` collect the parts that behave so.
-/
namespace ShaderEffect

variable {α γ δ β : Type}

open Generator

/-- Whether states that are related like this may follow each other where ids are
handed out in order. -/
class Course (R : Generator β → Generator β → Prop) : Prop where
  idle {g g' : Generator β} :
    g'.nextId = g.nextId → g'.lastBlock = g.lastBlock → g'.currentBlock = g.currentBlock →
    g'.target = g.target → R g g'
  trans {g g₁ g' : Generator β} : R g g₁ → R g₁ g' → R g g'
  nextId {g g' : Generator β} : R g g' → g.nextId ≤ g'.nextId
  makeId (g : Generator β) : R g { g with nextId := g.nextId + 1 }

theorem Course.refl (R : Generator β → Generator β → Prop) [Course R] (g : Generator β) :
    R g g :=
  idle rfl rfl rfl rfl

/-- Whether no id is given back. -/
def Onward (g g' : Generator β) : Prop :=
  g.nextId ≤ g'.nextId

instance : Course (Onward (β := β)) where
  idle hnext _ _ _ := Nat.le_of_eq hnext.symm
  trans := Nat.le_trans
  nextId := id
  makeId _ := Nat.le_succ _

/-- The types of a run matter with the structures they refer to. -/
class Horizon.Typed (w : Horizon) : Prop where
  typed : w.typed

/-- It does not matter which structures the types of a run refer to. -/
class Horizon.Untyped (w : Horizon) : Prop where
  not_typed : ¬w.typed

/-- What is known of what a target keeps. -/
class Tended (w : Horizon) (β : Type) where
  Holds : β → Prop

/-- What a target relies on in the whole state. -/
structure Generator.Tidy (w : Horizon) [Tended w β] (g : Generator β) : Prop where
  structs : Proper w g.structs
  functions : w.typed → Proper w g.functions
  target : Tended.Holds w g.target

section

variable {w : Horizon} [Tended w β]

theorem Generator.Tidy.of_eq {g g' : Generator β} (h : g.Tidy w)
    (hstructs : g'.structs = g.structs)
    (hfunctions : g'.functions = g.functions) (htarget : g'.target = g.target) : g'.Tidy w :=
  ⟨hstructs ▸ h.structs, hfunctions ▸ h.functions, htarget ▸ h.target⟩

theorem Generator.Tidy.findStruct {g : Generator β} (h : g.Tidy w) {id : Id} :
    Maybe w (g.findStruct? id) :=
  fun _ hd => h.structs _ (List.mem_of_find?_eq_some hd)

theorem Generator.Tidy.findFunction {g : Generator β} (h : g.Tidy w) (htyped : w.typed) {id : Id} :
    Maybe w (g.findFunction? id) :=
  fun _ hd => h.functions htyped _ (List.mem_of_find?_eq_some hd)

end

/-- Whether a part of a target keeps what the target relies on, with a result that satisfies `P`. -/
class Numbers (R : Generator β → Generator β → Prop) (w : Horizon) [Tended w β] (Γ : Prop)
    (P : α → Prop) (x : GenM β α) : Prop where
  course : ∀ {g a g'}, x g = .ok (a, g') → R g g'
  result : ∀ {g a g'},
    x g = .ok (a, g') → g'.nextId ≤ w.count → Γ → g.Tidy w → g'.Tidy w ∧ P a

namespace Numbers

variable {R : Generator β → Generator β → Prop} {w : Horizon} [Tended w β] {Γ : Prop}
  {P : α → Prop}

/-- Goes on behind a part of which something is known, whatever kinds of changes both parts make.
What always holds of the result of the first may decide what the second does. -/
theorem compose (S : γ → Prop) {R₁ R₂ : Generator β → Generator β → Prop}
    {Q : γ → Prop} {x : GenM β γ} {f : γ → GenM β α} (hx : Numbers R₁ w Γ Q x)
    (hS : ∀ g c g', x g = .ok (c, g') → S c)
    (hf : ∀ c, S c → Numbers R₂ w (Γ ∧ Q c) P (f c))
    (htrans : ∀ g g₁ g', R₁ g g₁ → R₂ g₁ g' → R g g')
    (hnext : ∀ g g', R₂ g g' → g.nextId ≤ g'.nextId) : Numbers R w Γ P (x >>= f) where
  course h := by
    obtain ⟨c, g₁, hc, h⟩ := bind_eq_ok.mp h
    exact htrans _ _ _ (hx.course hc) ((hf c (hS _ _ _ hc)).course h)
  result h hcount hΓ hg := by
    obtain ⟨c, g₁, hc, h⟩ := bind_eq_ok.mp h
    have hf := hf c (hS _ _ _ hc)
    obtain ⟨hg₁, hQ⟩ := hx.result hc (Nat.le_trans (hnext _ _ (hf.course h)) hcount) hΓ hg
    exact hf.result h hcount ⟨hΓ, hQ⟩ hg₁

variable [Course R]

/-- Goes on behind a part of which something is known. -/
theorem of_bind {Q : γ → Prop} {x : GenM β γ} {f : γ → GenM β α} (hx : Numbers R w Γ Q x)
    (hf : ∀ c, Numbers R w (Γ ∧ Q c) P (f c)) : Numbers R w Γ P (x >>= f) :=
  compose Anything hx (fun _ _ _ _ => trivial) (fun c _ => hf c) (fun _ _ _ => Course.trans)
    fun _ _ => Course.nextId

theorem andThen (Q : γ → Prop) {x : GenM β γ} {f : γ → GenM β α} [hx : Numbers R w Γ Q x]
    (hf : ∀ c, Numbers R w (Γ ∧ Q c) P (f c)) : Numbers R w Γ P (x >>= f) :=
  of_bind hx hf

omit [Course R] in
theorem weaken {Γ' : Prop} {x : GenM β α} (hx : Numbers R w Γ P x) (h : Γ' → Γ) :
    Numbers R w Γ' P x where
  course := hx.course
  result hrun hcount hΓ := hx.result hrun hcount (h hΓ)

omit [Course R] in
theorem mono {Q : α → Prop} {x : GenM β α} (hx : Numbers R w Γ Q x)
    (h : ∀ a, Γ → Q a → P a) : Numbers R w Γ P x where
  course := hx.course
  result hrun hcount hΓ hg := (hx.result hrun hcount hΓ hg).imp_right (h _ hΓ)

omit [Course R] in
/-- What is known of a result need not be used. -/
theorem forget {Q : α → Prop} {x : GenM β α} (hx : Numbers R w Γ Q x) :
    Numbers R w Γ Anything x :=
  hx.mono fun _ _ _ => trivial

/-- Goes on behind a part of which nothing is known. -/
theorem of_pass {x : GenM β γ} {f : γ → GenM β α} (hx : Numbers R w Γ Anything x)
    (hf : ∀ c, Numbers R w Γ P (f c)) :
    Numbers R w Γ P (x >>= f) :=
  of_bind hx fun c => (hf c).weaken And.left

theorem pass {x : GenM β γ} {f : γ → GenM β α} [hx : Numbers R w Γ Anything x]
    (hf : ∀ c, Numbers R w Γ P (f c)) :
    Numbers R w Γ P (x >>= f) :=
  of_pass hx hf

omit [Course R] in
/-- A part that changes nothing the target relies on. -/
theorem of_eq {x : GenM β α} (hcourse : ∀ {g a g'}, x g = .ok (a, g') → R g g')
    (heq : ∀ {g a g'}, x g = .ok (a, g') → g'.structs = g.structs
      ∧ g'.functions = g.functions ∧ g'.target = g.target ∧ (Γ → g.Tidy w → P a)) :
    Numbers R w Γ P x where
  course := hcourse
  result h _ hΓ hg := by
    obtain ⟨hstructs, hfunctions, htarget, hP⟩ := heq h
    exact ⟨hg.of_eq hstructs hfunctions htarget, hP hΓ hg⟩

omit [Course R] in
/-- A new id is proper. -/
instance (priority := low) proper_of_made {x : GenM β Id} [hx : Numbers R w Γ w.Made x] :
    Numbers R w Γ (Proper w) x :=
  hx.mono fun _ _ h => .inl h

instance bind_anything {x : GenM β γ} {f : γ → GenM β α} [hx : Numbers R w Γ Anything x]
    [hf : ∀ c, Numbers R w Γ P (f c)] : Numbers R w Γ P (x >>= f) :=
  pass hf

instance bind_prod {x : GenM β (γ × δ)} {f : γ × δ → GenM β α}
    [hx : Numbers R w Γ Anything x]
    [hf : ∀ c d, Numbers R w Γ P (f (c, d))] : Numbers R w Γ P (x >>= f) :=
  have : ∀ c, Numbers R w Γ P (f c) := fun c => hf c.1 c.2
  bind_anything

instance bind [Judged γ] {x : GenM β γ} {f : γ → GenM β α}
    [hx : Numbers R w Γ (Proper w) x]
    [hf : ∀ c, Numbers R w (Γ ∧ Proper w c) P (f c)] : Numbers R w Γ P (x >>= f) :=
  andThen (Proper w) hf

instance bind_made {x : GenM β Id} {f : Id → GenM β α} [hx : Numbers R w Γ w.Made x]
    [hf : ∀ c, Numbers R w (Γ ∧ w.Made c) P (f c)] : Numbers R w Γ P (x >>= f) :=
  andThen w.Made hf

theorem of_pure {a : α} (h : Γ → P a) : Numbers R w Γ P (pure a : GenM β α) :=
  of_eq (fun hrun => (pure_eq_ok.mp hrun).2 ▸ Course.refl R _) fun hrun => by
    obtain ⟨rfl, rfl⟩ := pure_eq_ok.mp hrun
    exact ⟨rfl, rfl, rfl, fun hΓ _ => h hΓ⟩

instance pure_anything {a : α} :
    Numbers R w Γ Anything (pure a : GenM β α) := of_pure fun _ => trivial

instance pure [Judged α] {a : α} [h : Entails Γ (Proper w a)] :
    Numbers R w Γ (Proper w) (pure a : GenM β α) :=
  of_pure h.entails

instance pure_made {a : Id} [h : Entails Γ (w.Made a)] :
    Numbers R w Γ w.Made (Pure.pure a : GenM β Id) :=
  of_pure h.entails

omit [Course R] in
theorem either {c : Prop} [Decidable c] {x y : GenM β α} (hx : Numbers R w Γ P x)
    (hy : Numbers R w Γ P y) :
    Numbers R w Γ P (if c then x else y) := by
  split <;> assumption

omit [Course R] in
instance ite {c : Prop} [Decidable c] {x y : GenM β α} [hx : Numbers R w Γ P x]
    [hy : Numbers R w Γ P y] :
    Numbers R w Γ P (if c then x else y) :=
  either hx hy

omit [Course R] in
instance throw {e : Fault} : Numbers R w Γ P (throw e : GenM β α) where
  course h := (throw_eq_ok.mp h).elim
  result h := (throw_eq_ok.mp h).elim

instance except {x : Except Fault α} [hx : Supplies w Γ P x] :
    Numbers R w Γ P (liftM x : GenM β α) :=
  of_eq (fun h => (liftM_eq_ok.mp h).2 ▸ Course.refl R _) fun h => by
    obtain ⟨hx', rfl⟩ := liftM_eq_ok.mp h
    exact ⟨rfl, rfl, rfl, fun hΓ _ => hx.result hx' hΓ⟩

instance get : Numbers R w Γ (Generator.Tidy w) (get : GenM β (Generator β)) :=
  of_eq (fun h => (get_eq_ok.mp h).2 ▸ Course.refl R _) fun h => by
    obtain ⟨rfl, rfl⟩ := get_eq_ok.mp h
    exact ⟨rfl, rfl, rfl, fun _ hg => hg⟩

instance bind_get {f : Generator β → GenM β α}
    [hf : ∀ g, Numbers R w (Γ ∧ g.Tidy w) P (f g)] :
    Numbers R w Γ P (MonadState.get >>= f) :=
  andThen (Generator.Tidy w) hf

theorem getTarget_holds : Numbers R w Γ (Tended.Holds w) (getTarget : GenM β β) :=
  of_bind get fun _ => of_pure fun h => h.2.target

instance getTarget : Numbers R w Γ Anything (getTarget : GenM β β) :=
  getTarget_holds.mono fun _ _ _ => trivial

instance makeId : Numbers R w Γ w.Made (makeId : GenM β Id) where
  course h := by
    obtain ⟨-, rfl⟩ := Prod.mk.inj (Except.ok.inj h)
    exact Course.makeId _
  result h hcount _ hg := by
    obtain ⟨rfl, rfl⟩ := Prod.mk.inj (Except.ok.inj h)
    exact ⟨hg.of_eq rfl rfl rfl, Horizon.made_ofNat hcount⟩

instance modifyResult {f : Module → Module} :
    Numbers R w Γ Anything (modifyResult f : GenM β Unit) :=
  of_eq (fun h => modify_eq_ok.mp h ▸ Course.idle rfl rfl rfl rfl) fun h => by
    obtain rfl := modify_eq_ok.mp h
    exact ⟨rfl, rfl, rfl, fun _ _ => trivial⟩

/-- A structure that is recorded is given. -/
theorem recordStruct {Q : StructDecl → Prop} {d : StructDecl} (hd : Γ → Proper w d)
    (hQ : Γ → Q d) : Numbers R w Γ Q
    (modify (fun g => { g with structs := g.structs ++ [d] })
      >>= fun _ => Pure.pure d : GenM β StructDecl) := by
  refine .of_bind (Q := Anything) ⟨fun h => modify_eq_ok.mp h ▸ Course.idle rfl rfl rfl rfl,
    fun h _ hΓ hg => ?_⟩ fun _ => of_pure fun hΓ => hQ hΓ.1
  obtain rfl := modify_eq_ok.mp h
  refine ⟨⟨?_, hg.functions, hg.target⟩, trivial⟩
  exact List.forall_mem_append.mpr ⟨hg.structs, List.forall_mem_singleton.mpr (hd hΓ)⟩

/-- A function that is recorded is given. -/
theorem recordFunction {Q : FunctionDecl → Prop} {d : FunctionDecl} (hd : Γ → Proper w d)
    (hQ : Γ → Q d) : Numbers R w Γ Q
    (modify (fun g => { g with functions := g.functions ++ [d] })
      >>= fun _ => Pure.pure d : GenM β FunctionDecl) := by
  refine .of_bind (Q := Anything) ⟨fun h => modify_eq_ok.mp h ▸ Course.idle rfl rfl rfl rfl,
    fun h _ hΓ hg => ?_⟩ fun _ => of_pure fun hΓ => hQ hΓ.1
  obtain rfl := modify_eq_ok.mp h
  refine ⟨⟨hg.structs, fun htyped => ?_, hg.target⟩, trivial⟩
  exact List.forall_mem_append.mpr ⟨hg.functions htyped, List.forall_mem_singleton.mpr (hd hΓ)⟩

/-- A uniform that is placed keeps its type. -/
theorem placeUniform_type {u : Uniform} :
    Numbers R w Γ (fun placed => placed.type = u.type) (placeUniform u : GenM β Uniform) := by
  unfold Generator.placeUniform
  exact .of_bind .get fun g => .of_pass .modifyResult fun _ => .of_pure fun _ => rfl

instance placeUniform {u : Uniform} : Numbers R w Γ Anything (placeUniform u : GenM β Uniform) :=
  placeUniform_type.forget

instance addSpecConstant {u : Uniform} :
    Numbers R w Γ Anything (addSpecConstant u : GenM β Unit) := by
  unfold Generator.addSpecConstant
  infer_instance

instance addEntryPoint {name : String} {isPixelShader : Bool} :
    Numbers R w Γ Anything (addEntryPoint name isPixelShader : GenM β Bool) := by
  unfold Generator.addEntryPoint
  infer_instance

theorem forM_of {Q : γ → Prop} {f : γ → GenM β PUnit}
    (hf : ∀ c, Numbers R w (Γ ∧ Q c) Anything (f c)) {l : List γ}
    (hl : Γ → ∀ c ∈ l, Q c) : Numbers R w Γ Anything (l.forM f) := by
  induction l with
  | nil => exact pure_anything
  | cons c l ih =>
    have hc : Γ → Γ ∧ Q c := fun hΓ => ⟨hΓ, (List.forall_mem_cons.mp (hl hΓ)).1⟩
    exact of_pass ((hf c).weaken hc) fun _ => ih fun hΓ => (List.forall_mem_cons.mp (hl hΓ)).2

instance forM {f : γ → GenM β PUnit} [hf : ∀ c, Numbers R w Γ Anything (f c)] {l : List γ} :
    Numbers R w Γ Anything (l.forM f) :=
  forM_of (fun c => (hf c).weaken And.left) fun _ _ _ => (trivial : Anything _)

instance mapM_anything {f : γ → GenM β α} [hf : ∀ c, Numbers R w Γ Anything (f c)]
    {l : List γ} :
    Numbers R w Γ Anything (l.mapM f) := by
  induction l with
  | nil => exact pure_anything
  | cons c l ih =>
    rw [List.mapM_cons]
    exact of_pass (hf c) fun _ => of_pass ih fun _ => pure_anything

/-- What holds of every result holds of all of them. -/
theorem mapM_of {Q : γ → Prop} {f : γ → GenM β α}
    (hf : ∀ c, Numbers R w (Γ ∧ Q c) P (f c)) {l : List γ}
    (hl : Γ → ∀ c ∈ l, Q c) : Numbers R w Γ (fun as => ∀ a ∈ as, P a) (l.mapM f) := by
  induction l with
  | nil => exact of_pure fun _ => List.forall_mem_nil _
  | cons c l ih =>
    have hc : Γ → Γ ∧ Q c := fun hΓ => ⟨hΓ, (List.forall_mem_cons.mp (hl hΓ)).1⟩
    have hrest := ih fun hΓ => (List.forall_mem_cons.mp (hl hΓ)).2
    rw [List.mapM_cons]
    refine of_bind ((hf c).weaken hc) fun a =>
      of_bind (hrest.weaken And.left) fun as => of_pure fun h => ?_
    exact List.forall_mem_cons.mpr ⟨h.1.2, h.2⟩

instance mapM [Judged γ] [Judged α] {f : γ → GenM β α} {l : List γ}
    [hl : Entails Γ (Proper w l)] [hf : ∀ c, Numbers R w (Γ ∧ Proper w c) (Proper w) (f c)] :
    Numbers R w Γ (Proper w) (l.mapM f) :=
  mapM_of hf hl.entails

/-- What holds of every result, whatever it is the result of, holds of all of them. -/
theorem mapM_all {f : γ → GenM β α} (hf : ∀ c, Numbers R w Γ P (f c)) {l : List γ} :
    Numbers R w Γ (fun as => ∀ a ∈ as, P a) (l.mapM f) :=
  mapM_of (fun c => (hf c).weaken And.left) fun _ _ _ => (trivial : Anything _)

instance mapM_proper [Judged α] {f : γ → GenM β α} {l : List γ}
    [hf : ∀ c, Numbers R w Γ (Proper w) (f c)] :
    Numbers R w Γ (Proper w) (l.mapM f) :=
  mapM_all hf

/-- What holds of a result and is kept by every step holds behind all of them. -/
theorem foldlM_of {Q : γ → Prop} {f : α → γ → GenM β α}
    (hf : ∀ a c, Numbers R w (Γ ∧ P a ∧ Q c) P (f a c)) {l : List γ}
    (hl : Γ → ∀ c ∈ l, Q c) {a : α} (ha : Γ → P a) :
    Numbers R w Γ P (l.foldlM f a) := by
  suffices h : ∀ a, Numbers R w (Γ ∧ P a) P (l.foldlM f a) from
    (h a).weaken fun hΓ => ⟨hΓ, ha hΓ⟩
  induction l with
  | nil => exact fun a => of_pure And.right
  | cons c l ih =>
    intro a
    have hc : Γ ∧ P a → Γ ∧ P a ∧ Q c :=
      fun h => ⟨h.1, h.2, (List.forall_mem_cons.mp (hl h.1)).1⟩
    have hrest := ih fun hΓ => (List.forall_mem_cons.mp (hl hΓ)).2
    rw [List.foldlM_cons]
    exact of_bind ((hf a c).weaken hc) fun a' => (hrest a').weaken fun h => ⟨h.1.1, h.2⟩

instance foldlM [Judged α] [Judged γ] {f : α → γ → GenM β α} {l : List γ} {a : α}
    [hl : Entails Γ (Proper w l)] [ha : Entails Γ (Proper w a)]
    [hf : ∀ a c, Numbers R w ((Γ ∧ Proper w a) ∧ Proper w c) (Proper w) (f a c)] :
    Numbers R w Γ (Proper w) (l.foldlM f a) :=
  foldlM_of (fun a c => (hf a c).weaken and_assoc.mpr) hl.entails ha.entails

end Numbers

/-- Whether a result stands for something that is in the state behind a part of a target. -/
class Yields (Q : α → Generator β → Prop) (x : GenM β α) : Prop where
  result : ∀ {g a g'}, x g = .ok (a, g') → Q a g'

namespace Yields

variable {Q : α → Generator β → Prop}

instance bind {x : GenM β γ} {f : γ → GenM β α} [hf : ∀ c, Yields Q (f c)] :
    Yields Q (x >>= f) where
  result h := by
    obtain ⟨c, g₁, -, h⟩ := bind_eq_ok.mp h
    exact (hf c).result h

theorem texture {t : Texture} {f : Module → Module}
    (hf : ∀ m, (f m).textures = m.textures ++ [t]) :
    Yields Texture.IsRecorded (modifyResult f >>= fun _ => pure t : GenM β Texture) where
  result h := by
    obtain ⟨_, g₁, hmodify, h⟩ := bind_eq_ok.mp h
    obtain ⟨rfl, rfl⟩ := pure_eq_ok.mp h
    obtain rfl := modify_eq_ok.mp hmodify
    rw [Texture.IsRecorded, hf, List.map_append]
    exact List.mem_append_right _ List.mem_cons_self

instance function {d : FunctionDecl} : Yields FunctionDecl.IsRecorded
    (modify (fun g => { g with functions := g.functions ++ [d] })
      >>= fun _ => pure d : GenM β FunctionDecl) where
  result h := by
    obtain ⟨_, g₁, hmodify, h⟩ := bind_eq_ok.mp h
    obtain ⟨rfl, rfl⟩ := pure_eq_ok.mp h
    obtain rfl := modify_eq_ok.mp hmodify
    exact ⟨d, List.mem_append_right _ List.mem_cons_self, rfl⟩

end Yields

/-- A target whose parts give ids that were handed out numbers what it is asked for. -/
@[reducible] def Backend.Numbering.of_numbers [Backend β] (w : Horizon) [Tended w β]
    (R : Generator β → Generator β → Prop)
    (hgrows : ∀ {q : Request} {g g' : Generator β} {a : q.Answer},
      q.handle g = .ok (a, g') → g.Grows g')
    (hnumbers : ∀ q : Request, Numbers R w (q.Fits w) (q.Gives w) (q.handle : GenM β q.Answer))
    (hyields : ∀ q : Request, Yields (fun a g' => q.Records g' a) (q.handle : GenM β q.Answer)) :
    Backend.Numbering w β where
  Tidy := Generator.Tidy w
  grows := hgrows
  answers {q g g' a} h hcount hfits hg := by
    obtain ⟨hg', hgives⟩ := (hnumbers q).result h hcount hfits hg
    exact ⟨hg', hgives, (hyields q).result h⟩

end ShaderEffect

import ShaderEffect.Parser.Run
import ShaderEffect.Proofs.Computation
import ShaderEffect.Proofs.Reading.Rules

/-!
Rules to prove that nothing refers to a structure before it is defined.

A type carries the id of its structure, and everything that has a type refers to it: expressions,
declarations and the symbols that stand for them. Instances of the class `Includes` tell from how a
value is made that what it refers to is known already.

The structures that are known grow along a script: each request may only refer to what is known in
front of it, and its answer makes more known. A part of the parser, of reading or of a target is
`Grounded` in a set of ids if this holds of it where these ids are known. One set of rules serves
the parts of all of them.
-/
namespace ShaderEffect

variable {α γ δ : Type}

/-- The id itself, unless it is 0, which names nothing. -/
def Id.named (id : Id) : Set Id :=
  {i | i = id ∧ i ≠ 0}

/-- Values that refer to structures. -/
class References (α : Type) where
  ids : α → Set Id

/-- The ids of the structures that a value refers to. -/
def refs [References α] (a : α) : Set Id :=
  References.ids a

/-- Values without types refer to nothing. -/
instance (priority := low) References.nothing : References α := ⟨fun _ => ∅⟩

instance References.list [References α] :
    References (List α) := ⟨fun l => {i | ∃ a ∈ l, i ∈ refs a}⟩
instance References.option [References α] :
    References (Option α) := ⟨fun o => {i | ∃ a ∈ o, i ∈ refs a}⟩
instance References.sum [References α] [References γ] :
    References (α ⊕ γ) := ⟨Sum.elim refs refs⟩
instance References.prod [References α] [References γ] :
    References (α × γ) := ⟨fun c => refs c.1 ∪ refs c.2⟩

instance : References Ty := ⟨fun t => Id.named t.definition⟩
instance : References Access := ⟨fun a => refs a.source ∪ refs a.target⟩
instance : References Expression := ⟨fun e => refs e.type ∪ refs e.chain⟩
instance : References Member := ⟨fun m => refs m.type⟩
instance : References FunctionDecl := ⟨fun d => refs d.returnType ∪ refs d.parameters⟩
instance : References StructDecl := ⟨fun d => Id.named d.definition ∪ refs d.members⟩
instance : References Uniform := ⟨fun u => refs u.type⟩

/-- The name of a structure refers to it. -/
instance : References Symbol :=
  ⟨fun s => {i | s.kind = .struct ∧ i ∈ Id.named s.id} ∪ refs s.type ∪ refs s.function⟩

instance : References SymbolTable.Entry := ⟨fun e => refs e.symbol⟩
instance : References SymbolTable := ⟨fun t => refs t.entries⟩
instance : References Reader := ⟨fun r => refs r.symbols ∪ refs r.returnType⟩

namespace Parser

instance : References Named := ⟨fun n => refs n.symbol⟩
instance : References Elements := ⟨fun s => refs s.values ∪ refs s.type⟩
instance : References Fields := ⟨fun s => refs s.members⟩
instance : References Tail := ⟨fun t => refs t.type ∪ refs t.init⟩

end Parser

theorem Symbol.refs_subset {s : Symbol} {A : Set Id}
    (hstruct : s.kind = .struct → Id.named s.id ⊆ A)
    (htype : refs s.type ⊆ A) (hfunction : refs s.function ⊆ A) : refs s ⊆ A :=
  Set.union_subset (Set.union_subset (fun _ hi => hstruct hi.1 hi.2) htype) hfunction

/-- Values of a type that refer to nothing. -/
class Bare (α : Type) [References α] : Prop where
  refs_eq : ∀ a : α, refs a = ∅

instance : @Bare α References.nothing := @Bare.mk α References.nothing fun _ => rfl

instance [References α] [Bare α] : Bare (List α) :=
  ⟨fun _ => Set.subset_empty_iff.mp fun _ ⟨a, _, hi⟩ => Bare.refs_eq a ▸ hi⟩

instance [References α] [Bare α] : Bare (Option α) :=
  ⟨fun _ => Set.subset_empty_iff.mp fun _ ⟨a, _, hi⟩ => Bare.refs_eq a ▸ hi⟩

instance [References α] [References γ] [Bare α] [Bare γ] : Bare (α × γ) :=
  ⟨fun c => (congrArg₂ _ (Bare.refs_eq c.1) (Bare.refs_eq c.2)).trans (Set.union_empty _)⟩

section

variable [References α] [References γ] {a : α} {l m : List α} {A : Set Id}

theorem refs_subset_of_mem (h : a ∈ l) : refs a ⊆ refs l :=
  fun _ hi => ⟨a, h, hi⟩

theorem refs_list_subset (h : ∀ a ∈ l, refs a ⊆ A) : refs l ⊆ A :=
  fun _ ⟨a, ha, hi⟩ => h a ha hi

theorem refs_subset_of_subset (h : l ⊆ m) : refs l ⊆ refs m :=
  refs_list_subset fun _ ha => refs_subset_of_mem (h ha)

theorem refs_nil : refs ([] : List α) ⊆ A :=
  refs_list_subset fun _ ha => absurd ha List.not_mem_nil

theorem refs_cons : refs (a :: l) = refs a ∪ refs l := by
  ext i
  constructor
  · rintro ⟨b, hb, hi⟩
    obtain rfl | hb := List.mem_cons.mp hb
    · exact .inl hi
    · exact .inr ⟨b, hb, hi⟩
  · rintro (hi | ⟨b, hb, hi⟩)
    · exact ⟨a, List.mem_cons_self, hi⟩
    · exact ⟨b, List.mem_cons_of_mem _ hb, hi⟩

theorem refs_append : refs (l ++ m) = refs l ∪ refs m := by
  ext i
  constructor
  · rintro ⟨b, hb, hi⟩
    exact (List.mem_append.mp hb).imp (fun hb => ⟨b, hb, hi⟩) fun hb => ⟨b, hb, hi⟩
  · rintro (⟨b, hb, hi⟩ | ⟨b, hb, hi⟩)
    · exact ⟨b, List.mem_append_left _ hb, hi⟩
    · exact ⟨b, List.mem_append_right _ hb, hi⟩

theorem refs_some : refs (some a) = refs a :=
  Set.ext fun _ => ⟨fun ⟨_, hb, hi⟩ => Option.some.inj hb ▸ hi,
    fun hi => ⟨a, rfl, hi⟩⟩

theorem refs_none : refs (none : Option α) ⊆ A :=
  fun _ ⟨_, ha, _⟩ => absurd ha (Option.not_mem_none _)

end

theorem named_zero {A : Set Id} : Id.named 0 ⊆ A :=
  fun _ ⟨heq, hne⟩ => absurd heq hne

/-- Whether some ids are among those that are known, by looking at how values are made. -/
class Includes (Γ A : Set Id) : Prop where
  subset : A ⊆ Γ

namespace Includes

variable {Γ A B : Set Id}

instance self : Includes A A := ⟨Set.Subset.rfl⟩
instance empty : Includes Γ ∅ := ⟨Set.empty_subset _⟩
instance here : Includes (Γ ∪ A) A := ⟨Set.subset_union_right⟩
instance there [h : Includes Γ A] :
    Includes (Γ ∪ B) A := ⟨Set.subset_union_of_subset_left h.subset _⟩
instance both [hA : Includes Γ A] [hB : Includes Γ B] :
    Includes Γ (A ∪ B) := ⟨Set.union_subset hA.subset hB.subset⟩

instance bare [References α] [Bare α] {a : α} :
    Includes Γ (refs a) := ⟨Bare.refs_eq a ▸ Set.empty_subset _⟩

instance ofSome [References α] {a : α} [h : Includes Γ (refs a)] :
    Includes Γ (refs (some a)) := ⟨refs_some.subset.trans h.subset⟩
instance ofNone [References α] : Includes Γ (refs (none : Option α)) := ⟨refs_none⟩

theorem of_some [References α] {o : Option α} {a : α} [h : Includes Γ (refs o)]
    (hsome : o = some a) : Includes Γ (refs a) :=
  ⟨refs_some.symm.subset.trans (hsome ▸ h.subset)⟩

instance mapOption [References α] [References γ] {o : Option α} {f : α → γ}
    [ho : Includes Γ (refs o)]
    [hf : ∀ a, Includes (refs a) (refs (f a))] : Includes Γ (refs (o.map f)) := by
  cases o with
  | none => exact ofNone
  | some a =>
    exact ⟨refs_some.subset.trans ((hf a).subset.trans (refs_some.symm.subset.trans ho.subset))⟩

instance getD [References α] {o : Option α} {d : α} [ho : Includes Γ (refs o)]
    [hd : Includes Γ (refs d)] :
    Includes Γ (refs (o.getD d)) := by
  cases o with
  | none => exact hd
  | some a => exact ⟨refs_some.symm.subset.trans ho.subset⟩

instance inl [References α] [References γ] {a : α} [h : Includes Γ (refs a)] :
    Includes Γ (refs (Sum.inl a : α ⊕ γ)) :=
  ⟨h.subset⟩

instance inr [References α] [References γ] {c : γ} [h : Includes Γ (refs c)] :
    Includes Γ (refs (Sum.inr c : α ⊕ γ)) :=
  ⟨h.subset⟩

instance pair [References α] [References γ] {a : α} {c : γ} [ha : Includes Γ (refs a)]
    [hc : Includes Γ (refs c)] :
    Includes Γ (refs (a, c)) := ⟨Set.union_subset ha.subset hc.subset⟩

instance fst [References α] [References γ] {c : α × γ} [h : Includes Γ (refs c)] :
    Includes Γ (refs c.1) :=
  ⟨Set.subset_union_left.trans h.subset⟩

instance snd [References α] [References γ] {c : α × γ} [h : Includes Γ (refs c)] :
    Includes Γ (refs c.2) :=
  ⟨Set.subset_union_right.trans h.subset⟩

instance nil [References α] : Includes Γ (refs ([] : List α)) := ⟨refs_nil⟩

instance cons [References α] {a : α} {l : List α} [ha : Includes Γ (refs a)]
    [hl : Includes Γ (refs l)] :
    Includes Γ (refs (a :: l)) :=
  ⟨refs_cons.subset.trans (Set.union_subset ha.subset hl.subset)⟩

instance append [References α] {l m : List α} [hl : Includes Γ (refs l)]
    [hm : Includes Γ (refs m)] :
    Includes Γ (refs (l ++ m)) :=
  ⟨refs_append.subset.trans (Set.union_subset hl.subset hm.subset)⟩

theorem of_mem [References α] {a : α} {l : List α} [hl : Includes Γ (refs l)] (h : a ∈ l) :
    Includes Γ (refs a) :=
  ⟨(refs_subset_of_mem h).trans hl.subset⟩

theorem head [References α] {a : α} {l : List α} [h : Includes Γ (refs (a :: l))] :
    Includes Γ (refs a) :=
  of_mem (l := a :: l) List.mem_cons_self

theorem tail [References α] {a : α} {l : List α} [h : Includes Γ (refs (a :: l))] :
    Includes Γ (refs l) :=
  ⟨(refs_subset_of_subset (List.subset_cons_self a l)).trans h.subset⟩

instance flatten [References α] {l : List (List α)} [hl : Includes Γ (refs l)] :
    Includes Γ (refs l.flatten) :=
  ⟨refs_list_subset fun _ ha =>
    have ⟨_, hpart, ha⟩ := List.mem_flatten.mp ha
    ((refs_subset_of_mem ha).trans (refs_subset_of_mem hpart)).trans hl.subset⟩

instance zip [References α] [References γ] {l : List α} {m : List γ} [hl : Includes Γ (refs l)]
    [hm : Includes Γ (refs m)] :
    Includes Γ (refs (l.zip m)) :=
  ⟨refs_list_subset fun _ hc => Set.union_subset
    ((refs_subset_of_mem (List.of_mem_zip hc).1).trans hl.subset)
    ((refs_subset_of_mem (List.of_mem_zip hc).2).trans hm.subset)⟩

instance zipIdx [References α] {l : List α} {n : Nat} [hl : Includes Γ (refs l)] :
    Includes Γ (refs (l.zipIdx n)) :=
  ⟨refs_list_subset fun _ hc => Set.union_subset
    ((refs_subset_of_mem (List.fst_mem_of_mem_zipIdx hc)).trans hl.subset) (Set.empty_subset _)⟩

/-- What is read off the parts of a list. -/
instance map [References α] [References γ] {l : List α} {f : α → γ}
    [hl : Includes Γ (refs l)]
    [hf : ∀ a, Includes (refs a) (refs (f a))] : Includes Γ (refs (l.map f)) :=
  ⟨refs_list_subset fun _ hc =>
    have ⟨a, ha, heq⟩ := List.mem_map.mp hc
    heq ▸ ((hf a).subset.trans (refs_subset_of_mem ha)).trans hl.subset⟩

instance ite [References α] {c : Prop} [Decidable c] {x y : α} [hx : Includes Γ (refs x)]
    [hy : Includes Γ (refs y)] :
    Includes Γ (refs (if c then x else y)) := by
  split <;> assumption

section

variable {t u : Ty} {b : Base}

instance zero : Includes Γ (Id.named 0) := ⟨named_zero⟩
instance definition [h : Includes Γ (refs t)] :
    Includes Γ (Id.named t.definition) := ⟨h.subset⟩

instance ty {rows cols : UInt32} {qualifiers : Qualifiers} {arrayLength : Int} {id : Id}
    [h : Includes Γ (Id.named id)] :
    Includes Γ (refs (Ty.mk b rows cols qualifiers arrayLength id)) := ⟨h.subset⟩

instance matrix {rows cols : UInt32} :
    Includes Γ (refs (Ty.matrix b rows cols)) := ⟨named_zero⟩
instance vector {rows : UInt32} : Includes Γ (refs (Ty.vector b rows)) := ⟨named_zero⟩
instance scalar : Includes Γ (refs (Ty.scalar b)) := ⟨named_zero⟩
instance plain [h : Includes Γ (refs t)] : Includes Γ (refs t.plain) := ⟨h.subset⟩
instance readOnly [h : Includes Γ (refs t)] : Includes Γ (refs t.readOnly) := ⟨h.subset⟩
instance element [h : Includes Γ (refs t)] : Includes Γ (refs t.element) := ⟨h.subset⟩
instance withQualifiers {q : Qualifiers} [h : Includes Γ (refs t)] :
    Includes Γ (refs (t.withQualifiers q)) := ⟨h.subset⟩

instance merge : Includes Γ (refs (t.merge u)) := by
  unfold Ty.merge
  dsimp only
  infer_instance

instance indexed [Includes Γ (refs t)] : Includes Γ (refs t.indexed) := by
  unfold Ty.indexed
  infer_instance

instance mergeElement [Includes Γ (refs t)] : Includes Γ (refs (Parser.mergeElement t u)) := by
  unfold Parser.mergeElement
  infer_instance

end

section

variable {e : Expression} {a : Access} {location : Location} {t u : Ty} {id : Id} {value : Constant}

instance type [h : Includes Γ (refs e)] :
    Includes Γ (refs e.type) := ⟨Set.subset_union_left.trans h.subset⟩
instance chain [h : Includes Γ (refs e)] :
    Includes Γ (refs e.chain) := ⟨Set.subset_union_right.trans h.subset⟩
instance source [h : Includes Γ (refs a)] :
    Includes Γ (refs a.source) := ⟨Set.subset_union_left.trans h.subset⟩
instance target [h : Includes Γ (refs a)] :
    Includes Γ (refs a.target) := ⟨Set.subset_union_right.trans h.subset⟩

instance expression {isLvalue isConstant : Bool} {accesses : List Access}
    [ht : Includes Γ (refs t)] [hchain : Includes Γ (refs accesses)] :
    Includes Γ (refs (Expression.mk id t value isLvalue isConstant location accesses)) :=
  ⟨Set.union_subset ht.subset hchain.subset⟩

instance toLvalue [ht : Includes Γ (refs t)] : Includes Γ (refs (e.toLvalue location id t)) := by
  unfold Expression.toLvalue
  infer_instance

instance toRvalue [ht : Includes Γ (refs t)] : Includes Γ (refs (e.toRvalue location id t)) := by
  unfold Expression.toRvalue
  infer_instance

instance ofConstant [ht : Includes Γ (refs t)] :
    Includes Γ (refs (Expression.ofConstant location value t)) := by
  unfold Expression.ofConstant
  infer_instance

instance ofWord {x : UInt32} : Includes Γ (refs (Expression.ofWord location x)) := ofConstant

instance ofText {text : String} : Includes Γ (refs (Expression.ofText location text)) := ofConstant

instance cast [ht : Includes Γ (refs t)] [hu : Includes Γ (refs u)] :
    Includes Γ (refs (Access.cast t u)) :=
  ⟨Set.union_subset ht.subset hu.subset⟩

instance member {i : UInt32} [ht : Includes Γ (refs t)] [hu : Includes Γ (refs u)] :
    Includes Γ (refs (Access.member t u i)) := ⟨Set.union_subset ht.subset hu.subset⟩

instance dynamicIndex [ht : Includes Γ (refs t)] [hu : Includes Γ (refs u)] :
    Includes Γ (refs (Access.dynamicIndex t u id)) := ⟨Set.union_subset ht.subset hu.subset⟩

instance constantIndex {i : UInt32} [ht : Includes Γ (refs t)] [hu : Includes Γ (refs u)] :
    Includes Γ (refs (Access.constantIndex t u i)) := ⟨Set.union_subset ht.subset hu.subset⟩

instance swizzle {lanes : List Int} [ht : Includes Γ (refs t)] [hu : Includes Γ (refs u)] :
    Includes Γ (refs (Access.swizzle t u lanes)) := ⟨Set.union_subset ht.subset hu.subset⟩

instance push [Includes Γ (refs e)] [Includes Γ (refs a)] : Includes Γ (refs (e.push a)) := by
  unfold Expression.push
  infer_instance

instance addMember {i : UInt32} [Includes Γ (refs e)] [Includes Γ (refs t)] :
    Includes Γ (refs (e.addMember i t)) := by
  unfold Expression.addMember
  infer_instance

instance addDynamicIndex [Includes Γ (refs e)] : Includes Γ (refs (e.addDynamicIndex id)) := by
  unfold Expression.addDynamicIndex
  infer_instance

instance makeReadOnly {duplicated : Bool} [Includes Γ (refs e)] :
    Includes Γ (refs (Parser.makeReadOnly e duplicated)) := by
  unfold Parser.makeReadOnly
  infer_instance

end

section

variable {m : Member} {ms : List Member} {d : FunctionDecl} {s : StructDecl} {n : Parser.Named}
  {t : Ty} {u : Uniform}

instance memberType [h : Includes Γ (refs m)] : Includes Γ (refs m.type) := ⟨h.subset⟩

instance memberOf {name semantic : String} {location : Location} {id : Id}
    [h : Includes Γ (refs t)] :
    Includes Γ (refs (Member.mk t name semantic location id)) := ⟨h.subset⟩

instance returnType [h : Includes Γ (refs d)] :
    Includes Γ (refs d.returnType) := ⟨Set.subset_union_left.trans h.subset⟩
instance parameters [h : Includes Γ (refs d)] :
    Includes Γ (refs d.parameters) := ⟨Set.subset_union_right.trans h.subset⟩

instance function {id : Id} {name unique semantic : String} [ht : Includes Γ (refs t)]
    [hms : Includes Γ (refs ms)] :
    Includes Γ (refs (FunctionDecl.mk id name unique t semantic ms)) :=
  ⟨Set.union_subset ht.subset hms.subset⟩

instance structId [h : Includes Γ (refs s)] : Includes Γ (Id.named s.definition) :=
  ⟨Set.subset_union_left.trans h.subset⟩

instance structMembers [h : Includes Γ (refs s)] : Includes Γ (refs s.members) :=
  ⟨Set.subset_union_right.trans h.subset⟩

instance struct {id : Id} {name unique : String} [hid : Includes Γ (Id.named id)]
    [hms : Includes Γ (refs ms)] :
    Includes Γ (refs (StructDecl.mk name unique ms id)) :=
  ⟨Set.union_subset hid.subset hms.subset⟩

instance uniform {name : String} {slot : Layout.Slot} {annotations : List Annotation}
    {hasInitializer : Bool} {initializer : Constant} [h : Includes Γ (refs t)] :
    Includes Γ (refs (Uniform.mk name t slot annotations hasInitializer initializer)) :=
  ⟨h.subset⟩

instance uniformType [h : Includes Γ (refs u)] : Includes Γ (refs u.type) := ⟨h.subset⟩

instance symbolType {s : Symbol} [h : Includes Γ (refs s)] : Includes Γ (refs s.type) :=
  ⟨(Set.subset_union_right.trans Set.subset_union_left).trans h.subset⟩

instance symbolFunction {s : Symbol} [h : Includes Γ (refs s)] : Includes Γ (refs s.function) :=
  ⟨Set.subset_union_right.trans h.subset⟩

instance symbol [h : Includes Γ (refs n)] : Includes Γ (refs n.symbol) := ⟨h.subset⟩

instance named {identifier : String} {from_ : Scope} {s : Symbol} [h : Includes Γ (refs s)] :
    Includes Γ (refs (Parser.Named.mk identifier from_ s)) := ⟨h.subset⟩

instance symbols {r : Reader} [h : Includes Γ (refs r)] : Includes Γ (refs r.symbols) :=
  ⟨Set.subset_union_left.trans h.subset⟩

instance resultType {r : Reader} [h : Includes Γ (refs r)] : Includes Γ (refs r.returnType) :=
  ⟨Set.subset_union_right.trans h.subset⟩

instance elements {values : List Expression} [hvalues : Includes Γ (refs values)]
    [ht : Includes Γ (refs t)] :
    Includes Γ (refs (Parser.Elements.mk values t)) :=
  ⟨Set.union_subset hvalues.subset ht.subset⟩

instance values {s : Parser.Elements} [h : Includes Γ (refs s)] : Includes Γ (refs s.values) :=
  ⟨Set.subset_union_left.trans h.subset⟩

instance elementsType {s : Parser.Elements} [h : Includes Γ (refs s)] :
    Includes Γ (refs s.type) :=
  ⟨Set.subset_union_right.trans h.subset⟩

instance fields {valid : Bool} [h : Includes Γ (refs ms)] :
    Includes Γ (refs (Parser.Fields.mk ms valid)) := ⟨h.subset⟩

instance members {s : Parser.Fields} [h : Includes Γ (refs s)] :
    Includes Γ (refs s.members) := ⟨h.subset⟩

instance tailOf {init : Option Expression} {resource : Parser.Resource}
    {annotations : List Annotation} {valid : Bool}
    [ht : Includes Γ (refs t)] [hinit : Includes Γ (refs init)] :
    Includes Γ (refs (Parser.Tail.mk t init resource annotations valid)) :=
  ⟨Set.union_subset ht.subset hinit.subset⟩

instance tailType {t : Parser.Tail} [h : Includes Γ (refs t)] : Includes Γ (refs t.type) :=
  ⟨Set.subset_union_left.trans h.subset⟩

instance tailInit {t : Parser.Tail} [h : Includes Γ (refs t)] : Includes Γ (refs t.init) :=
  ⟨Set.subset_union_right.trans h.subset⟩

end

end Includes

/-- The ids of the structures that a request refers to. -/
abbrev Request.uses : Request → Set Id
  | load e _ | store e _ => refs e
  | emitPhi _ _ _ _ _ _ _ t | constant t _ | unary _ _ t _ | select _ t _ _ _
    | defineVariable _ t _ _ _ => refs t
  | binary _ _ t u _ _ => refs t ∪ refs u
  | call _ _ t args | callIntrinsic _ _ t args | construct _ t args => refs t ∪ refs args
  | defineStruct _ d => refs d.members
  | defineUniform _ u => refs u
  | defineFunction _ d | defineEntryPoint d _ => refs d
  | _ => ∅

/-- The ids of the structures that the answer to a request makes known. -/
abbrev Request.gives : (q : Request) → q.Answer → Set Id
  | findStruct _, found => refs found
  | findFunction _, found => refs found
  | defineStruct .., d => refs d
  | defineFunction .., d => refs d
  | _, _ => ∅

namespace Script

/-- Whether each request of a script refers only to structures of a set that grows with the answers,
and the result then refers to some that are in it, as `P` says. -/
def Within : Set Id → (α → Set Id) → Script α → Prop
  | K, P, done a => P a ⊆ K
  | _, _, fault _ => True
  | K, P, ask q next => q.uses ⊆ K ∧ ∀ answer, (next answer).Within (K ∪ q.gives answer) P

theorem Within.bind {R : γ → Set Id} {P : α → Set Id} {x : Script γ} {f : γ → Script α}
    {K : Set Id} (hx : x.Within K R)
    (hf : ∀ c K', K ⊆ K' → R c ⊆ K' → (f c).Within K' P) : (x >>= f).Within K P := by
  induction x generalizing K with
  | done c => exact hf c K Set.Subset.rfl hx
  | fault e => trivial
  | ask q next ih =>
    exact ⟨hx.1, fun answer =>
      ih answer (hx.2 answer) fun c K' hK' => hf c K' (Set.subset_union_left.trans hK')⟩

theorem Within.mono {P Q : α → Set Id} {x : Script α} {K K' : Set Id} (hx : x.Within K P)
    (hK : K ⊆ K') (hQ : ∀ a, Q a ⊆ K' ∪ P a) : x.Within K' Q := by
  induction x generalizing K K' with
  | done a => exact (hQ a).trans (Set.union_subset Set.Subset.rfl (Set.Subset.trans hx hK))
  | fault e => trivial
  | ask q next ih =>
    refine ⟨hx.1.trans hK,
      fun answer => ih answer (hx.2 answer) (Set.union_subset_union_left _ hK) fun a => ?_⟩
    exact (hQ a).trans (Set.union_subset_union_left _ Set.subset_union_left)

end Script

/-- Computations along which a set of known ids grows. `Ensures Γ x P` says that, where `Γ` is
known in front of `x`, what `P` says of its result is known behind it. -/
class Traced (m : Type → Type) [Monad m] [MonadExceptOf Fault m] where
  Ensures : {α : Type} → Set Id → m α → (α → Set Id) → Prop
  of_pure : ∀ {α : Type} {Γ : Set Id} {P : α → Set Id} {a : α},
    P a ⊆ Γ → Ensures Γ (pure a) P
  of_throw : ∀ {α : Type} {Γ : Set Id} {P : α → Set Id} {e : Fault}, Ensures Γ (throw e) P
  of_bind : ∀ {γ α : Type} {Γ : Set Id} {R : γ → Set Id} {P : α → Set Id} {x : m γ}
    {f : γ → m α}, Ensures Γ x R → (∀ c, Ensures (Γ ∪ R c) (f c) P) →
      Ensures Γ (x >>= f) P
  mono : ∀ {α : Type} {Γ Δ : Set Id} {P Q : α → Set Id} {x : m α},
    Ensures Γ x P → Γ ⊆ Δ → (∀ a, Q a ⊆ Δ ∪ P a) → Ensures Δ x Q

/-- Values are computed with what is known all the time. -/
instance : Traced (Except Fault) where
  Ensures Γ x P := ∀ a, x = .ok a → P a ⊆ Γ
  of_pure h _ ha := except_pure_eq_ok.mp ha ▸ h
  of_throw := nofun
  of_bind hx hf a h := by
    obtain ⟨c, hc, h⟩ := except_bind_eq_ok.mp h
    exact (hf c a h).trans (Set.union_subset Set.Subset.rfl (hx c hc))
  mono hx hΓ hQ a ha := (hQ a).trans (Set.union_subset Set.Subset.rfl ((hx a ha).trans hΓ))

/-- Reading makes no requests. What the names in front of a part refer to is known. -/
instance : Traced ReadM where
  Ensures Γ x P :=
    ∀ {K r a r'}, x r = .ok (a, r') → Γ ⊆ K → refs r ⊆ K → refs r' ⊆ K ∧ P a ⊆ K
  of_pure h := by
    intro K r a r' hrun hΓ hr
    obtain ⟨rfl, rfl⟩ := pure_eq_ok.mp hrun
    exact ⟨hr, h.trans hΓ⟩
  of_throw hrun := (throw_eq_ok.mp hrun).elim
  of_bind hx hf := by
    intro K r a r' hrun hΓ hr
    obtain ⟨c, r₁, hc, hrun⟩ := bind_eq_ok.mp hrun
    obtain ⟨hr₁, hR⟩ := hx hc hΓ hr
    exact hf c hrun (Set.union_subset hΓ hR) hr₁
  mono hx hΓ hQ := by
    intro K r a r' hrun hΔ hr
    obtain ⟨hr', hP⟩ := hx hrun (hΓ.trans hΔ) hr
    exact ⟨hr', (hQ a).trans (Set.union_subset hΔ hP)⟩

/-- Parsing makes requests, which refer to what is known. -/
instance : Traced ParseM where
  Ensures Γ x P :=
    ∀ {K s r}, Γ ⊆ K → refs r ⊆ K → (x s r).Within K fun c => P c.1 ∪ refs c.2
  of_pure h := fun hΓ hr => Set.union_subset (h.trans hΓ) hr
  of_throw _ _ := trivial
  of_bind hx hf := by
    intro K s r hΓ hr
    refine (hx hΓ hr).bind fun c K' hK hc => ?_
    exact hf c.1 (Set.union_subset (hΓ.trans hK) (Set.subset_union_left.trans hc))
      (Set.subset_union_right.trans hc)
  mono hx hΓ hQ := by
    intro K s r hΔ hr
    refine (hx (hΓ.trans hΔ) hr).mono Set.Subset.rfl fun c => Set.union_subset ?_ ?_
    · exact (hQ c.1).trans (Set.union_subset_union hΔ Set.subset_union_left)
    · exact Set.subset_union_of_subset_right Set.subset_union_right _

variable {m : Type → Type} [Monad m] [MonadExceptOf Fault m] [Traced m]

/-- Whether a part refers only to structures that are known if those in `Γ` are, and leaves what
`P` says of its result known behind it. -/
class Grounded (Γ : Set Id) (x : m α) (P : α → Set Id) : Prop where
  ensures : Traced.Ensures Γ x P

namespace Grounded

variable {Γ Δ : Set Id} {P : α → Set Id}

theorem of_pure {a : α} (h : P a ⊆ Γ) : Grounded Γ (pure a : m α) P := ⟨Traced.of_pure h⟩

/-- Goes on behind a part of which something is known. -/
theorem of_bind {R : γ → Set Id} {x : m γ} {f : γ → m α} (hx : Grounded Γ x R)
    (hf : ∀ c, Grounded (Γ ∪ R c) (f c) P) :
    Grounded Γ (x >>= f) P := ⟨Traced.of_bind hx.ensures fun c => (hf c).ensures⟩

theorem andThen (R : γ → Set Id) {x : m γ} {f : γ → m α} [hx : Grounded Γ x R]
    (hf : ∀ c, Grounded (Γ ∪ R c) (f c) P) : Grounded Γ (x >>= f) P :=
  of_bind hx hf

theorem mono {Q : α → Set Id} {x : m α} (hx : Grounded Γ x P) (hΓ : Γ ⊆ Δ)
    (hQ : ∀ a, Q a ⊆ Δ ∪ P a) :
    Grounded Δ x Q := ⟨Traced.mono hx.ensures hΓ hQ⟩

theorem weaken {x : m α} (hx : Grounded Γ x P) (hΓ : Γ ⊆ Δ) : Grounded Δ x P :=
  hx.mono hΓ fun _ => Set.subset_union_right

/-- Goes on behind a part of which nothing is known. -/
theorem of_pass {R : γ → Set Id} {x : m γ} {f : γ → m α} (hx : Grounded Γ x R)
    (hf : ∀ c, Grounded Γ (f c) P) :
    Grounded Γ (x >>= f) P :=
  of_bind hx fun c => (hf c).weaken Set.subset_union_left

theorem pass [References γ] {x : m γ} {f : γ → m α} [hx : Grounded Γ x refs]
    (hf : ∀ c, Grounded Γ (f c) P) :
    Grounded Γ (x >>= f) P :=
  of_pass hx hf

theorem andThenOption [References γ] {x : m (Option γ)} {f : Option γ → m α}
    [hx : Grounded Γ x refs] (hsome : ∀ c, Grounded (Γ ∪ refs c) (f (some c)) P)
    (hnone : Grounded Γ (f none) P) : Grounded Γ (x >>= f) P :=
  of_bind hx fun c => by
    cases c with
    | none => exact hnone.weaken Set.subset_union_left
    | some c => exact (hsome c).weaken (Set.union_subset_union_right _ refs_some.symm.subset)

instance bind [References γ] {x : m γ} {f : γ → m α} [hx : Grounded Γ x refs]
    [hf : ∀ c, Grounded (Γ ∪ refs c) (f c) P] : Grounded Γ (x >>= f) P :=
  of_bind hx hf

instance bind_option [References γ] {x : m (Option γ)} {f : Option γ → m α}
    [hx : Grounded Γ x refs] [hsome : ∀ c, Grounded (Γ ∪ refs c) (f (some c)) P]
    [hnone : Grounded Γ (f none) P] : Grounded Γ (x >>= f) P :=
  andThenOption hsome hnone

instance bind_bare [References γ] [Bare γ] {x : m γ} {f : γ → m α} [hx : Grounded Γ x refs]
    [hf : ∀ c, Grounded Γ (f c) P] : Grounded Γ (x >>= f) P :=
  of_pass hx hf

instance pure [References α] {a : α} [h : Includes Γ (refs a)] :
    Grounded Γ (pure a : m α) refs := of_pure h.subset

instance throw {e : Fault} : Grounded Γ (throw e : m α) P := ⟨Traced.of_throw⟩

instance ite {c : Prop} [Decidable c] {x y : m α} [hx : Grounded Γ x P] [hy : Grounded Γ y P] :
    Grounded Γ (if c then x else y) P := by
  split <;> assumption

instance map [References γ] [References α] [LawfulMonad m] {x : m γ} {f : γ → α}
    [hx : Grounded Γ x refs]
    [hf : ∀ c, Includes (Γ ∪ refs c) (refs (f c))] : Grounded Γ (f <$> x) refs := by
  rw [map_eq_pure_bind]
  exact of_bind hx fun c => of_pure (hf c).subset

theorem mapM_of {R : γ → Set Id} [LawfulMonad m] {f : γ → m α}
    (hf : ∀ c, Grounded (Γ ∪ R c) (f c) P) {l : List γ} (hl : ∀ c ∈ l, R c ⊆ Γ) :
    Grounded Γ (l.mapM f) (fun as => {i | ∃ a ∈ as, i ∈ P a}) := by
  induction l generalizing Γ with
  | nil => exact of_pure fun _ ⟨a, ha, _⟩ => absurd ha List.not_mem_nil
  | cons c l ih =>
    obtain ⟨hc, hl⟩ := List.forall_mem_cons.mp hl
    rw [List.mapM_cons]
    refine of_bind ((hf c).weaken (Set.union_subset Set.Subset.rfl hc)) fun a => ?_
    -- What the result of the first part refers to stays known in front of the others.
    have hrest :=
      ih (Γ := Γ ∪ P a)
        (fun d => (hf d).weaken (Set.union_subset_union_left _ Set.subset_union_left))
      fun d hd => (hl d hd).trans Set.subset_union_left
    refine of_bind hrest fun as => of_pure fun i ⟨b, hb, hi⟩ => ?_
    obtain rfl | hb := List.mem_cons.mp hb
    · exact .inl (.inr hi)
    · exact .inr ⟨b, hb, hi⟩

instance mapM [LawfulMonad m] [References γ] [References α] {f : γ → m α} {l : List γ}
    [hl : Includes Γ (refs l)]
    [hf : ∀ c, Grounded (Γ ∪ refs c) (f c) refs] : Grounded Γ (l.mapM f) refs :=
  mapM_of hf fun _ hc => (refs_subset_of_mem hc).trans hl.subset

instance (priority := low) mapM_any [LawfulMonad m] [References α] {f : γ → m α} {l : List γ}
    [hf : ∀ c, Grounded Γ (f c) refs] : Grounded Γ (l.mapM f) refs :=
  mapM_of (R := fun _ => ∅) (fun c => (hf c).weaken Set.subset_union_left)
    fun _ _ => Set.empty_subset _

theorem forM_of {R : γ → Set Id} {f : γ → m PUnit}
    (hf : ∀ c, Grounded (Γ ∪ R c) (f c) refs) {l : List γ}
    (hl : ∀ c ∈ l, R c ⊆ Γ) : Grounded Γ (l.forM f) refs := by
  induction l with
  | nil => exact pure
  | cons c l ih =>
    obtain ⟨hc, hl⟩ := List.forall_mem_cons.mp hl
    exact of_pass ((hf c).weaken (Set.union_subset Set.Subset.rfl hc)) fun _ => ih hl

instance forM [References γ] {f : γ → m PUnit} {l : List γ} [hl : Includes Γ (refs l)]
    [hf : ∀ c, Grounded (Γ ∪ refs c) (f c) refs] : Grounded Γ (l.forM f) refs :=
  forM_of hf fun _ hc => (refs_subset_of_mem hc).trans hl.subset

instance (priority := low) forM_any {f : γ → m PUnit} {l : List γ}
    [hf : ∀ c, Grounded Γ (f c) refs] :
    Grounded Γ (l.forM f) refs :=
  forM_of (R := fun _ => ∅) (fun c => (hf c).weaken Set.subset_union_left)
    fun _ _ => Set.empty_subset _

/-- What is known of a value and kept by every step is known behind all of them. -/
instance foldlM [References γ] [References α] {f : α → γ → m α} {l : List γ} {a : α}
    [hl : Includes Γ (refs l)]
    [ha : Includes Γ (refs a)] [hf : ∀ a c, Grounded (Γ ∪ refs a ∪ refs c) (f a c) refs] :
    Grounded Γ (l.foldlM f a) refs := by
  suffices h : ∀ a, Grounded (Γ ∪ refs a) (l.foldlM f a) refs from
    (h a).weaken (Set.union_subset Set.Subset.rfl ha.subset)
  replace hl := hl.subset
  induction l with
  | nil => exact fun a => of_pure Set.subset_union_right
  | cons c l ih =>
    obtain ⟨hc, hl⟩ := Set.union_subset_iff.mp (refs_cons.symm.subset.trans hl)
    intro a
    rw [List.foldlM_cons]
    refine of_bind
      ((hf a c).weaken (Set.union_subset Set.Subset.rfl (hc.trans Set.subset_union_left)))
        fun a' => ?_
    exact (ih hl a').weaken (Set.union_subset_union_left _ Set.subset_union_left)

/-- What holds of every round holds of a loop. -/
theorem repeatWith {R : α → Set Id} {Q : γ → Set Id} {step : α → m (α ⊕ γ)}
    (hstep : ∀ a, Grounded (Γ ∪ R a) (step a) (Sum.elim R Q)) (rounds : Nat) (a : α) :
    Grounded (Γ ∪ R a) (repeatWith step rounds a) Q := by
  induction rounds generalizing a with
  | zero => exact throw
  | succ rounds ih =>
    refine of_bind (hstep a) fun c => ?_
    cases c with
    | inl a' => exact (ih a').weaken (Set.union_subset_union_left _ Set.subset_union_left)
    | inr c => exact of_pure Set.subset_union_right

/-- What can only be of one kind is known however it is computed. -/
instance (priority := low) anyway [References α] [h : ∀ a :
    α, Includes Γ (refs a)] {x : Except Fault α} :
    Grounded Γ x refs :=
  ⟨fun a _ => (h a).subset⟩

instance getReader : Grounded Γ (get : ReadM Reader) refs where
  ensures := by
    intro K r a r' hrun _ hr
    obtain ⟨rfl, rfl⟩ := get_eq_ok.mp hrun
    exact ⟨hr, hr⟩

/-- What is changed of a reader refers to what is known. -/
theorem modifyReader {f : Reader → Reader} (hf : ∀ r, refs (f r) ⊆ Γ ∪ refs r) :
    Grounded Γ (modify f : ReadM PUnit) refs where
  ensures := by
    intro K r _ r' hrun hΓ hr
    obtain rfl := modify_eq_ok.mp hrun
    exact ⟨(hf r).trans (Set.union_subset hΓ hr), Set.empty_subset _⟩

instance liftExcept {x : Except Fault α} [hx : Grounded Γ x P] :
    Grounded Γ (liftM x : ReadM α) P where
  ensures := by
    intro K r a r' hrun hΓ hr
    obtain ⟨hx', rfl⟩ := liftM_eq_ok.mp hrun
    exact ⟨hr, (hx.ensures _ hx').trans hΓ⟩

theorem readLoop_of {R : α → Set Id} {Q : γ → Set Id} {step : α → ReadM (α ⊕ γ)}
    {a : α} (hstep : ∀ a, Grounded (Γ ∪ R a) (step a) (Sum.elim R Q)) (ha : R a ⊆ Γ) :
    Grounded Γ (Parser.readLoop step a) Q :=
  of_pass getReader fun _ => (repeatWith hstep _ a).weaken (Set.union_subset Set.Subset.rfl ha)

instance readLoop [References α] [References γ] {step : α → ReadM (α ⊕ γ)} {a : α}
    [ha : Includes Γ (refs a)] [hstep : ∀ a, Grounded (Γ ∪ refs a) (step a) refs] :
    Grounded Γ (Parser.readLoop step a) refs :=
  readLoop_of hstep ha.subset

instance liftRead {x : ReadM α} [hx : Grounded Γ x P] : Grounded Γ (liftM x : ParseM α) P where
  ensures := by
    intro K s r hΓ hr
    show (x.toParse s r).Within K fun c => P c.1 ∪ refs c.2
    unfold ReadM.toParse
    split
    · next a r' hrun =>
      obtain ⟨hr', hP⟩ := hx.ensures hrun hΓ hr
      exact Set.union_subset hP hr'
    · trivial

instance except {x : Except Fault α} [hx : Grounded Γ x P] :
    Grounded Γ (MonadLiftT.monadLift x : ParseM α) P :=
  liftRead (x := MonadLiftT.monadLift x)

instance get : Grounded Γ (get : ParseM Reader) refs where
  ensures := fun _ hr => Set.union_subset hr hr

theorem modify {f : Reader → Reader} (hf : ∀ r, refs (f r) ⊆ Γ ∪ refs r) :
    Grounded Γ (modify f : ParseM PUnit) refs where
  ensures := fun hΓ hr =>
    Set.union_subset (Set.empty_subset _) ((hf _).trans (Set.union_subset hΓ hr))

instance surroundings : Grounded Γ (read : ParseM Surroundings) refs where
  ensures := fun _ hr => Set.union_subset (Set.empty_subset _) hr

instance withReader {f : Surroundings → Surroundings} {x : ParseM α} [hx : Grounded Γ x P] :
    Grounded Γ (withReader f x) P where
  ensures := fun hΓ hr => hx.ensures hΓ hr

theorem loop_of {R : α → Set Id} {Q : γ → Set Id} {step : α → ParseM (α ⊕ γ)} {a : α}
    (hstep : ∀ a, Grounded (Γ ∪ R a) (step a) (Sum.elim R Q)) (ha : R a ⊆ Γ) :
    Grounded Γ (Parser.loop step a) Q :=
  of_pass get fun _ => (repeatWith hstep _ a).weaken (Set.union_subset Set.Subset.rfl ha)

instance loop [References α] [References γ] {step : α → ParseM (α ⊕ γ)} {a : α}
    [ha : Includes Γ (refs a)] [hstep : ∀ a, Grounded (Γ ∪ refs a) (step a) refs] :
    Grounded Γ (Parser.loop step a) refs :=
  loop_of hstep ha.subset

theorem of_request {q : Request} {P : q.Answer → Set Id} (huses : q.uses ⊆ Γ)
    (hP : ∀ a, P a ⊆ Γ ∪ q.gives a) :
    Grounded Γ (Parser.emit q) P where
  ensures := fun hΓ hr =>
    ⟨huses.trans hΓ, fun a => Set.union_subset ((hP a).trans (Set.union_subset_union_left _ hΓ))
      (hr.trans Set.subset_union_left)⟩

-- Which request it is tells the type of the answer, not the other way around.
instance emit_bare {q : Request} [References q.Answer] [Bare q.Answer]
    [huses : Includes Γ q.uses] :
    @Grounded (no_index q.Answer) _ _ _ _ Γ (Parser.emit q) refs :=
  of_request huses.subset fun a => Bare.refs_eq a ▸ Set.empty_subset _

instance findStruct {id : Id} :
    Grounded Γ (Parser.emit (.findStruct id) : ParseM (Option StructDecl)) refs :=
  of_request (q := .findStruct id) (Set.empty_subset _) fun _ => Set.subset_union_right

instance findFunction {id : Id} :
    Grounded Γ (Parser.emit (.findFunction id) : ParseM (Option FunctionDecl)) refs :=
  of_request (q := .findFunction id) (Set.empty_subset _) fun _ => Set.subset_union_right

instance defineStruct {location : Location} {d : StructDecl} [h : Includes Γ (refs d.members)] :
    Grounded Γ (Parser.emit (.defineStruct location d) : ParseM StructDecl) refs :=
  of_request (q := .defineStruct location d) h.subset fun _ => Set.subset_union_right

instance defineFunction {location : Location} {d : FunctionDecl} [h : Includes Γ (refs d)] :
    Grounded Γ (Parser.emit (.defineFunction location d) : ParseM FunctionDecl) refs :=
  of_request (q := .defineFunction location d) h.subset fun _ => Set.subset_union_right

end Grounded
end ShaderEffect

import ShaderEffect.Proofs.Symbols.Tables

/-!
The choice between overloads: what a call is resolved to, apart from the order in which
functions are looked at.

The functions that accept the arguments are compared by the ranks of the conversions, the best
conversion first, and then by how far inside their namespaces are. One pass that keeps the best
function so far, with a count of those that are as good, finds the greatest ones in this order.
-/
namespace ShaderEffect

section Greatest

variable {α β γ : Type} [LinearOrder β] [LinearOrder γ] {f : α → β}
  {l l' : List α} {x b : α}

/-- The members of a list with the greatest value. -/
def greatest (f : α → β) (l : List α) : List α :=
  l.filter fun x => ∀ y ∈ l, f y ≤ f x

theorem mem_greatest : x ∈ greatest f l ↔ x ∈ l ∧ ∀ y ∈ l, f y ≤ f x := by
  rw [greatest, List.mem_filter, decide_eq_true_iff]

theorem greatest_singleton : greatest f [x] = [x] := by
  simp [greatest]

/-- The order of a list does not matter. -/
theorem greatest_perm (h : l.Perm l') : (greatest f l).Perm (greatest f l') := by
  have hsame : greatest f l' = l'.filter fun x => ∀ y ∈ l, f y ≤ f x := by
    simp only [greatest, h.mem_iff]
  rw [hsame, greatest]
  exact h.filter _

/-- A member above all others is the only greatest one. -/
theorem greatest_append_of_gt (hb : b ∈ greatest f l) (hx : f b < f x) :
    greatest f (l ++ [x]) = [x] := by
  obtain ⟨-, hmax⟩ := mem_greatest.mp hb
  have hnone : l.filter (fun y => ∀ z ∈ l ++ [x], f z ≤ f y) = [] := by
    refine List.filter_eq_nil_iff.mpr fun y hy hle => ?_
    have hxy : f x ≤ f y := of_decide_eq_true hle x (by simp)
    exact absurd (hx.trans_le hxy) (hmax y hy).not_gt
  have hall : ∀ z ∈ l ++ [x], f z ≤ f x := by
    intro z hz
    rcases List.mem_append.mp hz with hz | hz
    · exact (hmax z hz).trans hx.le
    · rw [List.mem_singleton.mp hz]
  rw [greatest, List.filter_append, hnone, List.nil_append, List.filter_singleton,
    decide_eq_true hall]
  rfl

/-- A member that is not above the greatest ones leaves them as they are, and joins them if
it is as great. -/
theorem greatest_append_of_le (hb : b ∈ greatest f l) (hx : f x ≤ f b) :
    greatest f (l ++ [x]) = greatest f l ++ if f x = f b then [x] else [] := by
  obtain ⟨hmem, hmax⟩ := mem_greatest.mp hb
  have hold : ∀ y ∈ l, decide (∀ z ∈ l ++ [x], f z ≤ f y)
      = decide (∀ z ∈ l, f z ≤ f y) := by
    intro y hy
    refine decide_eq_decide.mpr ⟨fun h z hz => h z (List.mem_append_left _ hz),
      fun h z hz => ?_⟩
    rcases List.mem_append.mp hz with hz | hz
    · exact h z hz
    · rw [List.mem_singleton.mp hz]
      exact hx.trans (h b hmem)
  have hnew : (∀ z ∈ l ++ [x], f z ≤ f x) ↔ f x = f b := by
    constructor
    · intro h
      exact le_antisymm hx (h b (List.mem_append_left _ hmem))
    · intro heq z hz
      rcases List.mem_append.mp hz with hz | hz
      · rw [heq]
        exact hmax z hz
      · rw [List.mem_singleton.mp hz]
  rw [greatest, List.filter_append, List.filter_congr hold, List.filter_singleton]
  simp only [hnew, greatest]
  split <;> simp_all

/-- A list that is not empty has a greatest member. -/
theorem greatest_ne_nil (h : l ≠ []) : greatest f l ≠ [] := by
  induction l using List.reverseRecOn with
  | nil => exact absurd rfl h
  | append_singleton l x ih =>
    by_cases hl : l = []
    · rw [hl, List.nil_append, greatest_singleton]
      exact List.cons_ne_nil _ _
    · obtain ⟨b, hb⟩ := List.exists_mem_of_ne_nil _ (ih hl)
      rcases lt_or_ge (f b) (f x) with hlt | hle
      · rw [greatest_append_of_gt hb hlt]
        exact List.cons_ne_nil _ _
      · rw [greatest_append_of_le hb hle]
        exact List.append_ne_nil_of_left_ne_nil (ih hl) _

/-- Those of the greatest members that come first in another order are the greatest in the
lexicographic one. -/
theorem greatest_greatest {g : α → γ} :
    greatest g (greatest f l) = greatest (fun x => toLex (f x, g x)) l := by
  have hsame :
      ∀ x ∈ l,
        (decide (∀ y ∈ greatest f l, g y ≤ g x) && decide (∀ y ∈ l, f y ≤ f x))
      = decide (∀ y ∈ l, toLex (f y, g y) ≤ toLex (f x, g x)) := by
    intro x hx
    rw [← Bool.decide_and, decide_eq_decide]
    simp only [mem_greatest, Prod.Lex.le_iff, ofLex_toLex]
    constructor
    · rintro ⟨hg, hf⟩ y hy
      rcases (hf y hy).lt_or_eq with hlt | heq
      · exact .inl hlt
      · exact .inr ⟨heq, hg y ⟨hy, fun z hz => heq ▸ hf z hz⟩⟩
    · intro h
      have hf : ∀ y ∈ l, f y ≤ f x := fun y hy => (h y hy).elim le_of_lt fun heq => heq.1.le
      refine ⟨fun y hy => ?_, hf⟩
      rcases h y hy.1 with hlt | heq
      · exact absurd (hy.2 x hx) hlt.not_ge
      · exact heq.2
  rw [greatest, greatest, List.filter_filter, ← greatest]
  exact List.filter_congr hsame

end Greatest

namespace SymbolTable

/-- Whether arguments can be passed: there is one for every parameter, and each has a conversion. -/
def Accepts (args : List Ty) (params : List Member) : Prop :=
  List.Forall₂ (fun a p => a.rank p.type ≠ 0) args params

/-- The ranks of the conversions of arguments to parameters, the best first. -/
def ranks (args : List Ty) (params : List Member) : List Nat :=
  (List.zipWith (fun a p => (a.rank p.type).toNat) args params).mergeSort (· ≥ ·)

instance (args : List Ty) (params : List Member) : Decidable (Accepts args params) := by
  unfold Accepts
  infer_instance

variable {args : List Ty} {params params' : List Member}

theorem ranks_length (h : Accepts args params) : (ranks args params).length = args.length := by
  rw [ranks, List.length_mergeSort, List.length_zipWith, h.length_eq, Nat.min_self]

theorem conversionRanks?_eq : conversionRanks? args params =
    if ((args.zip params).map fun x => x.1.rank x.2.type).contains 0 then none
    else some (((args.zip params).map fun x => x.1.rank x.2.type).mergeSort (· ≥ ·)) :=
  rfl

theorem conversionRanks?_of_accepts (h : Accepts args params) :
    ∃ rs, conversionRanks? args params = some rs ∧ rs.map UInt32.toNat = ranks args params := by
  let rs := (args.zip params).map fun x => x.1.rank x.2.type
  have hnonzero : rs.contains 0 = false := by
    rw [List.contains_eq_mem, decide_eq_false_iff_not]
    intro hzero
    obtain ⟨⟨a, p⟩, hap, hrank⟩ := List.mem_map.mp hzero
    exact (List.forall₂_iff_zip.mp h).2 hap hrank
  refine ⟨rs.mergeSort (· ≥ ·), ?_, ?_⟩
  · rw [conversionRanks?_eq, hnonzero]
    rfl
  · have hsort : (rs.mergeSort (· ≥ ·)).map UInt32.toNat
        = (rs.map UInt32.toNat).mergeSort (· ≥ ·) :=
      List.map_mergeSort fun a _ b _ => decide_eq_decide.mpr UInt32.le_iff_toNat_le
    have hzip : rs.map UInt32.toNat
        = List.zipWith (fun a p => (a.rank p.type).toNat) args params := by
      rw [List.map_map, List.map_zip_eq_zipWith]
      rfl
    rw [ranks, hsort, hzip]

theorem conversionRanks?_of_not_accepts (hlength : params.length = args.length)
    (h : ¬Accepts args params) :
    conversionRanks? args params = none := by
  have hzero : ((args.zip params).map fun x => x.1.rank x.2.type).contains 0 = true := by
    rw [List.contains_eq_mem, decide_eq_true_iff]
    by_contra hnone
    refine h (List.forall₂_iff_zip.mpr ⟨hlength.symm, fun {a p} hap hrank => hnone ?_⟩)
    exact List.mem_map.mpr ⟨(a, p), hap, hrank⟩
  rw [conversionRanks?_eq, hzero]
  rfl

/-- Ranks are compared by the first difference, as words are in a dictionary. -/
theorem compareRanks_eq {xs ys : List UInt32} (h : xs.length = ys.length) :
    compareRanks xs ys = if ys.map UInt32.toNat < xs.map UInt32.toNat then .lt
      else if xs.map UInt32.toNat < ys.map UInt32.toNat then .gt else .eq := by
  induction xs generalizing ys with
  | nil =>
    obtain rfl := List.length_eq_zero_iff.mp h.symm
    rfl
  | cons x xs ih =>
    obtain ⟨y, ys, rfl⟩ := List.exists_cons_of_length_eq_add_one h.symm
    simp only [compareRanks, List.map_cons, List.cons_lt_cons_iff, gt_iff_lt,
      UInt32.lt_iff_toNat_lt]
    rcases Nat.lt_trichotomy x.toNat y.toNat with hlt | heq | hgt
    · simp [hlt, hlt.not_gt, hlt.ne']
    · simp [heq, ih (Nat.succ.inj h)]
    · simp [hgt]

/-- The functions of a name, as they were declared. What stands for a function that
is wrong is none. -/
def functions (t : SymbolTable) (name : String) : List Entry :=
  t.entries.filter fun e => e.name = name ∧ e.symbol.kind = .function ∧ e.symbol.function.isSome

namespace Entry

/-- The parameters of a function. -/
def parameters (e : Entry) : List Member :=
  (e.symbol.function.map (·.parameters)).getD []

/-- What a call is resolved to, if it is resolved to a function. -/
def called (e : Entry) : Symbol :=
  { kind := .function, id := e.symbol.id, type := (e.symbol.function.map (·.returnType)).getD {},
    function := e.symbol.function }

/-- Whether a declaration is no deeper than a scope. This is how functions are found: of namespaces
that lie inside of each other, it is the ones around the scope. -/
def IsVisible (e : Entry) (scope : Scope) : Prop :=
  e.scope.level ≤ scope.level ∧ e.scope.namespaceLevel ≤ scope.namespaceLevel

instance (e : Entry) (scope : Scope) : Decidable (e.IsVisible scope) := by
  unfold IsVisible
  infer_instance

end Entry

/-- The functions that a call can be resolved to. -/
def candidates (t : SymbolTable) (name : String) (args : List Ty) (scope : Scope) : List Entry :=
  (t.functions name).filter fun e => e.IsVisible scope ∧ Accepts args e.parameters

theorem mem_functions {t : SymbolTable} {name : String} {e : Entry} :
    e ∈ t.functions name ↔
      e ∈ t.entries ∧ e.name = name ∧ e.symbol.kind = .function
        ∧ e.symbol.function.isSome := by
  rw [functions, List.mem_filter, decide_eq_true_iff]

/-- The best of some functions for a call: those with the greatest ranks, and of these the ones in
the innermost namespace. -/
def best (args : List Ty) (es : List Entry) : List Entry :=
  greatest (·.scope.namespaceLevel.toNat) (greatest (fun e => ranks args e.parameters) es)

/-- What a resolution says. A call that is ambiguous has no function. -/
def Resolution.outcome (r : Resolution) : Option Symbol × Bool :=
  (if r.ok then some r.symbol else none, r.ambiguous)

/-- What a call says that can be resolved to some functions equally well. -/
def decision : List Entry → Option Symbol × Bool
  | [] => (none, false)
  | [e] => (some e.called, false)
  | _ :: _ :: _ => (none, true)

/-- What is kept of a search that has found functions to be the best so far. -/
def kept (scope : Scope) : List Entry → Choice
  | [] => { namespaceLevel := scope.namespaceLevel }
  | e :: more =>
    { symbol := e.called
      best := some e.parameters
      count := more.length + 1
      namespaceLevel := e.scope.namespaceLevel }

/-- What functions are compared by: their ranks, and then the depth of their namespaces. -/
def key (args : List Ty) (e : Entry) : List Nat ×ₗ Nat :=
  toLex (ranks args e.parameters, e.scope.namespaceLevel.toNat)

theorem best_eq (es : List Entry) : best args es = greatest (key args) es :=
  greatest_greatest

theorem best_nil : best args [] = [] :=
  rfl

theorem best_ne_nil {es : List Entry} (h : es ≠ []) : best args es ≠ [] := by
  rw [best_eq]
  exact greatest_ne_nil h

theorem compareOverloads_eq (h : Accepts args params) (h' : Accepts args params') :
    compareOverloads args params (some params') =
      if ranks args params' < ranks args params then .lt
      else if ranks args params < ranks args params' then .gt else .eq := by
  obtain ⟨rs, hrs, hranks⟩ := conversionRanks?_of_accepts h
  obtain ⟨rs', hrs', hranks'⟩ := conversionRanks?_of_accepts h'
  have hlength : rs.length = rs'.length := by
    rw [← List.length_map (f := UInt32.toNat), hranks, ranks_length h, ← ranks_length h',
      ← hranks', List.length_map]
  rw [← hranks, ← hranks', ← compareRanks_eq hlength]
  simp only [compareOverloads, hrs, hrs']

/-- A further candidate, whose namespace is not inside of those of the others, is
taken into account. -/
theorem considerFunction_kept {scope : Scope} {seen : List Entry} {e : Entry} {fn : FunctionDecl}
    (hseen : ∀ x ∈ seen,
      Accepts args x.parameters ∧ e.scope.namespaceLevel ≤ x.scope.namespaceLevel)
    (hfn : e.symbol.function = some fn) (he : Accepts args e.parameters) :
    considerFunction args e fn (kept scope (best args seen))
      = kept scope (best args (seen ++ [e])) := by
  have hparameters : fn.parameters = e.parameters := by rw [Entry.parameters, hfn]; rfl
  have hcalled :
      e.called = { kind := .function, id := e.symbol.id, type := fn.returnType,
                   function := some fn } := by
    rw [Entry.called, hfn]
    rfl
  unfold considerFunction
  rw [hparameters]
  cases hbest : best args seen with
  | nil =>
    -- The first candidate is the best so far.
    obtain rfl : seen = [] := by_contra fun hne => best_ne_nil hne hbest
    obtain ⟨rs, hrs, -⟩ := conversionRanks?_of_accepts he
    have hnew : best args [e] = [e] := by rw [best_eq, greatest_singleton]
    simp only [kept, compareOverloads, hrs, Option.isSome_some, if_true, List.nil_append,
      hnew, hcalled]
    rfl
  | cons b more =>
    have hb : b ∈ greatest (key args) seen := by
      rw [← best_eq, hbest]
      exact List.mem_cons_self
    obtain ⟨hb', hlevel⟩ := hseen b (mem_greatest.mp hb).1
    rw [best_eq] at hbest
    have hcompare := compareOverloads_eq he hb'
    rw [best_eq]
    rcases lt_trichotomy (ranks args b.parameters) (ranks args e.parameters) with hlt | heq | hgt
    · -- It is better than all so far.
      have hkey : key args b < key args e := Prod.Lex.lt_iff.mpr (.inl hlt)
      rw [if_pos hlt] at hcompare
      rw [greatest_append_of_gt hb hkey]
      simp only [kept, hcompare, hcalled]
      rfl
    · -- It is as good, and counts unless there is one further inside.
      have hkey : key args e ≤ key args b :=
        Prod.Lex.le_iff.mpr (.inr ⟨heq.symm, UInt32.le_iff_toNat_le.mp hlevel⟩)
      have hsame : key args e = key args b ↔ b.scope.namespaceLevel = e.scope.namespaceLevel := by
        simp only [key, EmbeddingLike.apply_eq_iff_eq, Prod.mk.injEq, heq, true_and,
          UInt32.toNat_inj, eq_comm]
      rw [heq, if_neg (lt_irrefl _), if_neg (lt_irrefl _)] at hcompare
      rw [greatest_append_of_le hb hkey, hbest]
      by_cases hnamespace : b.scope.namespaceLevel = e.scope.namespaceLevel
      · rw [if_pos (hsame.mpr hnamespace)]
        simp only [kept, hcompare, List.cons_append, List.length_append, List.length_singleton]
        exact if_pos hnamespace
      · rw [if_neg (mt hsame.mp hnamespace), List.append_nil]
        simp only [kept, hcompare]
        exact if_neg hnamespace
    · -- It is worse.
      have hkey : key args e < key args b := Prod.Lex.lt_iff.mpr (.inl hgt)
      rw [if_neg hgt.not_gt, if_pos hgt] at hcompare
      rw [greatest_append_of_le hb hkey.le, hbest, if_neg hkey.ne, List.append_nil]
      simp only [kept, hcompare]

/-- A function that does not accept the arguments is worse than any that does, and than none. -/
theorem considerFunction_of_not_accepts {scope : Scope} {chosen : List Entry} {e : Entry}
    {fn : FunctionDecl} (hchosen : ∀ x ∈ chosen, Accepts args x.parameters)
    (hlength : fn.parameters.length = args.length) (hfn : ¬Accepts args fn.parameters) :
    considerFunction args e fn (kept scope chosen) = kept scope chosen := by
  have hnone := conversionRanks?_of_not_accepts hlength hfn
  have hworse : compareOverloads args fn.parameters (kept scope chosen).best = .gt := by
    cases chosen with
    | nil =>
      simp only [kept, compareOverloads, hnone, Option.isSome_none, Bool.false_eq_true, if_false]
    | cons b more =>
      obtain ⟨rs, hrs, -⟩ := conversionRanks?_of_accepts (hchosen b List.mem_cons_self)
      simp only [kept, compareOverloads, hnone, hrs]
  simp only [considerFunction, hworse]

/-- What can be chosen among the entries of a name. -/
def Entry.IsCandidate (args : List Ty) (scope : Scope) (e : Entry) : Prop :=
  (e.symbol.kind = .function ∧ e.symbol.function.isSome)
    ∧ e.IsVisible scope ∧ Accepts args e.parameters

instance (args : List Ty) (scope : Scope) (e : Entry) : Decidable (e.IsCandidate args scope) := by
  unfold Entry.IsCandidate
  infer_instance

theorem chooseFunction_of_candidate {scope : Scope} {rest : List Entry} {e : Entry}
    {fn : FunctionDecl} {c : Choice}
    (hargs : args ≠ []) (hfn : e.symbol.function = some fn) (he : e.IsCandidate args scope) :
    chooseFunction args scope (e :: rest) c
      = chooseFunction args scope rest (considerFunction args e fn c) := by
  obtain ⟨⟨hkind, -⟩, ⟨hlevel, hnamespace⟩, haccepts⟩ := he
  have hparameters : fn.parameters = e.parameters := by rw [Entry.parameters, hfn]; rfl
  have hlength : fn.parameters.length = args.length := by rw [hparameters, haccepts.length_eq]
  simp [chooseFunction, hkind, hfn, hlevel, hnamespace, hlength, hargs]

theorem chooseFunction_of_not_candidate {scope : Scope} {rest chosen : List Entry} {e : Entry}
    (hargs : args ≠ []) (hchosen : ∀ x ∈ chosen, Accepts args x.parameters)
    (he : ¬e.IsCandidate args scope) :
    chooseFunction args scope (e :: rest) (kept scope chosen)
      = chooseFunction args scope rest (kept scope chosen) := by
  rw [chooseFunction]
  split
  · rfl
  rename_i hvisible
  split
  · rfl
  rename_i fn hfn
  have hparameters : fn.parameters = e.parameters := by rw [Entry.parameters, hfn]; rfl
  rw [if_neg (by simp [hargs])]
  split
  · rfl
  rename_i hlength
  rw [considerFunction_of_not_accepts hchosen (not_not.mp hlength)]
  rw [hparameters]
  intro haccepts
  simp only [Bool.or_eq_true, decide_eq_true_eq, not_or, not_not, gt_iff_lt,
    UInt32.not_lt] at hvisible
  exact he ⟨⟨hvisible.2, by rw [hfn]; rfl⟩, hvisible.1, haccepts⟩

/-- The search, by induction on the entries to come: what is kept are the best of the candidates so
far. The entries come from the inside outwards, which is what the count relies on. -/
theorem chooseFunction_kept {scope : Scope} {es seen : List Entry} (hargs : args ≠ [])
    (horder : (seen ++ es).Pairwise fun a b => b.scope.namespaceLevel ≤ a.scope.namespaceLevel)
    (hseen : ∀ x ∈ seen, Accepts args x.parameters) :
    chooseFunction args scope es (kept scope (best args seen))
      = kept scope (best args (seen ++ es.filter (·.IsCandidate args scope))) := by
  induction es generalizing seen with
  | nil => rw [List.filter_nil, List.append_nil, chooseFunction]
  | cons e rest ih =>
    by_cases he : e.IsCandidate args scope
    · obtain ⟨fn, hfn⟩ := Option.isSome_iff_exists.mp he.1.2
      have hstep : considerFunction args e fn (kept scope (best args seen))
          = kept scope (best args (seen ++ [e])) := by
        refine considerFunction_kept (fun x hx => ⟨hseen x hx, ?_⟩) hfn he.2.2
        exact (List.pairwise_append.mp horder).2.2 x hx e List.mem_cons_self
      rw [List.append_cons] at horder
      have hseen' : ∀ x ∈ seen ++ [e], Accepts args x.parameters := by
        intro x hx
        rcases List.mem_append.mp hx with hx | hx
        · exact hseen x hx
        · rw [List.mem_singleton.mp hx]
          exact he.2.2
      have hfilter :=
        List.filter_cons_of_pos (p := (·.IsCandidate args scope)) (l := rest) (decide_eq_true he)
      rw [chooseFunction_of_candidate hargs hfn he, hstep, ih horder hseen', hfilter,
        List.append_assoc]
      rfl
    · have hbest : ∀ x ∈ best args seen, Accepts args x.parameters := by
        intro x hx
        rw [best_eq] at hx
        exact hseen x (mem_greatest.mp hx).1
      have horder' :
          (seen ++ rest).Pairwise fun a b => b.scope.namespaceLevel ≤ a.scope.namespaceLevel :=
        horder.sublist (List.Sublist.append_left (List.sublist_cons_self e rest) seen)
      rw [chooseFunction_of_not_candidate hargs hbest he, ih horder' hseen, List.filter_cons_of_neg]
      rwa [decide_eq_true_iff]

/-- The candidates in the order of the search. -/
theorem filter_named {t : SymbolTable} {name : String} {scope : Scope} :
    (t.named name).filter (·.IsCandidate args scope) = (t.candidates name args scope).reverse := by
  rw [named, List.filter_reverse, candidates, functions, List.filter_filter, List.filter_filter]
  congr 2
  funext e
  rw [← Bool.decide_and, ← Bool.decide_and, decide_eq_decide, Entry.IsCandidate]
  tauto

theorem Tidy.named {t : SymbolTable} (h : t.Tidy) (name : String) :
    (t.named name).Pairwise fun a b => b.scope.namespaceLevel ≤ a.scope.namespaceLevel := by
  rw [SymbolTable.named, List.pairwise_reverse]
  refine (h.ordered.filter _).imp_of_mem fun {a b} ha hb hle => hle ?_
  rw [of_decide_eq_true (List.mem_filter.mp ha).2, of_decide_eq_true (List.mem_filter.mp hb).2]

theorem decision_perm {es es' : List Entry} (h : es.Perm es') : decision es = decision es' := by
  rcases es with _ | ⟨e, _ | ⟨e₂, more⟩⟩
  · rw [List.nil_perm.mp h]
  · rw [List.singleton_perm.mp h]
  · have hlength := h.length_eq
    rcases es' with _ | ⟨e', _ | ⟨e₂', more'⟩⟩
    · cases hlength
    · cases hlength
    · rfl

theorem best_perm {es es' : List Entry} (h : es.Perm es') :
    (best args es).Perm (best args es') := by
  rw [best_eq, best_eq]
  exact greatest_perm h

theorem kept_count (scope : Scope) (es : List Entry) : (kept scope es).count = es.length := by
  cases es with
  | nil => rfl
  | cons e more => rfl

theorem outcome_kept (scope : Scope) {es : List Entry} (h : es ≠ []) :
    Resolution.outcome
        { symbol := (kept scope es).symbol, ok := (kept scope es).count = 1,
          ambiguous := (kept scope es).count > 1 } = decision es := by
  rcases es with _ | ⟨e, _ | ⟨e₂, more⟩⟩
  · exact absurd rfl h
  · rfl
  · simp [kept, Resolution.outcome, decision]

/-- A call that some function accepts is resolved to the best of these. Built-in functions
are not looked at. -/
theorem outcome_resolveCall {t : SymbolTable} (h : t.Tidy) {name : String} {scope : Scope}
    (hargs : args ≠ []) (hsome : t.candidates name args scope ≠ []) :
    (t.resolveCall name args scope).outcome
      = decision (best args (t.candidates name args scope)) := by
  have hsearch : chooseFunction args scope (t.named name) (kept scope (best args []))
      = kept scope (best args ([] ++ (t.named name).filter (·.IsCandidate args scope))) :=
    chooseFunction_kept hargs (h.named name) (by simp)
  rw [List.nil_append, filter_named, best_nil, kept] at hsearch
  have hne : best args (t.candidates name args scope).reverse ≠ [] :=
    best_ne_nil (by simpa using hsome)
  have hcount : (kept scope (best args (t.candidates name args scope).reverse)).count ≠ 0 := by
    rw [kept_count]
    exact mt List.length_eq_zero_iff.mp hne
  have hperm :
      (best args (t.candidates name args scope).reverse).Perm
        (best args (t.candidates name args scope)) :=
    best_perm (List.reverse_perm _)
  rw [← decision_perm hperm, ← outcome_kept scope hne, resolveCall, hsearch]
  simp only [if_neg hcount]

/-- The order of the functions does not matter. -/
theorem outcome_perm {t t' : SymbolTable} (h : t.Tidy) (h' : t'.Tidy) {name : String}
    {scope : Scope} (hargs : args ≠ []) (hsome : t.candidates name args scope ≠ [])
    (hperm : (t'.functions name).Perm (t.functions name)) :
    (t'.resolveCall name args scope).outcome = (t.resolveCall name args scope).outcome := by
  have hcandidates : (t'.candidates name args scope).Perm (t.candidates name args scope) :=
    hperm.filter _
  have hsome' : t'.candidates name args scope ≠ [] :=
    fun hnil => hsome (hnil ▸ hcandidates).nil_eq.symm
  rw [outcome_resolveCall h hargs hsome, outcome_resolveCall h' hargs hsome',
    decision_perm (best_perm hcandidates)]

/-- Functions of a namespace can be declared in any order. -/
theorem outcome_declare {t u u' : SymbolTable} (h : t.Built) {fs fs' : List (String × Symbol)}
    (hfs : fs.Perm fs') (hkind : ∀ f ∈ fs, f.2.kind = .function) (hu : t.declare fs = .ok u)
    (hu' : t.declare fs' = .ok u') {name : String} {scope : Scope} (hargs : args ≠ [])
    (hsome : u.candidates name args scope ≠ []) :
    (u'.resolveCall name args scope).outcome = (u.resolveCall name args scope).outcome :=
  outcome_perm (h.run hu).tidy (h.run hu').tidy hargs hsome
    ((declare_perm hfs hkind hu hu').filter _)

/-- Whether a scope and the functions of a name lie in one chain of nested namespaces. -/
structure Chained (t : SymbolTable) (name : String) (scope : Scope) : Prop where
  place : scope.IsPlace
  inside : scope.namespaceLevel ≤ scope.level
  nested : ∀ e ∈ t.functions name, e.scope.Encloses scope ∨ scope.Encloses e.scope
  isGlobal : ∀ e ∈ t.functions name, e.scope.level = e.scope.namespaceLevel
  /-- A level is a word, and wraps around in paths that are longer. -/
  room : scope.name.length < 2 ^ 32 ∧ ∀ e ∈ t.functions name, e.scope.name.length < 2 ^ 32

/-- In a chain the functions that can be seen are those of the namespaces around the scope. -/
theorem Chained.isVisible_iff {t : SymbolTable} (ht : t.Tidy) {name : String} {scope : Scope}
    (h : t.Chained name scope)
    {e : Entry} (he : e ∈ t.functions name) : e.IsVisible scope ↔ e.scope.Encloses scope := by
  have hplace : e.scope.IsPlace := ht.places e (mem_functions.mp he).1
  rw [← hplace.level_le_iff h.place (h.nested e he) (h.room.2 e he) h.room.1, Entry.IsVisible,
    h.isGlobal e he, and_iff_right_iff_imp]
  exact fun hle => UInt32.le_trans hle h.inside

/-- A call with arguments is resolved to the best of the functions that accept them: the one with
the greatest ranks that is furthest inside. It is ambiguous if there are several of these. Only
which functions there are matters, and not in which order those of a namespace were declared. -/
theorem resolveCall_best {t : SymbolTable} (h : t.Built) {name : String} {args : List Ty}
    (hargs : args ≠ []) {scope : Scope} (hsome : t.candidates name args scope ≠ []) :
    (t.resolveCall name args scope).outcome = decision (best args (t.candidates name args scope))
      ∧ (t.Chained name scope → ∀ e ∈ t.functions name,
        e.IsVisible scope ↔ e.scope.Encloses scope)
      ∧ (∀ t' : SymbolTable, t'.Built → (t'.functions name).Perm (t.functions name) →
          (t'.resolveCall name args scope).outcome = (t.resolveCall name args scope).outcome)
      ∧ ∀ (u t' : SymbolTable) (fs fs' : List (String × Symbol)), u.Built → fs.Perm fs' →
          (∀ f ∈ fs, f.2.kind = .function) →
            u.declare fs = .ok t → u.declare fs' = .ok t' →
          (t'.resolveCall name args scope).outcome = (t.resolveCall name args scope).outcome := by
  refine ⟨outcome_resolveCall h.tidy hargs hsome,
    fun hchained e he => hchained.isVisible_iff h.tidy he,
    fun t' h' hperm => outcome_perm h.tidy h'.tidy hargs hsome hperm, ?_⟩
  intro u t' fs fs' hu hfs hkind ht ht'
  exact outcome_declare hu hfs hkind ht ht' hargs hsome

private def overload (id : Id) (base : Base) : Symbol :=
  { kind := .function, id,
    function := some { name := "f", parameters := [{ type := .scalar base }] } }

/-- A function with two overloads, one of which is declared again in a namespace. -/
private def overloads : SymbolTable :=
  { current := { name := "::A::", level := 1, namespaceLevel := 1 }
    entries :=
      [{ name := "f", symbol := overload 10 .float, scope := .root },
        { name := "f", symbol := overload 11 .int, scope := .root },
        { name := "A::f", symbol := overload 12 .int, scope := .root },
        { name := "f", symbol := overload 12 .int,
          scope := { name := "::A::", level := 1, namespaceLevel := 1 } }] }

private theorem overloads_built : overloads.Built := by
  have hrun : SymbolTable.run {} [.insert "f" (overload 10 .float) true,
      .insert "f" (overload 11 .int) true,
      .enterNamespace "A" (by decide), .insert "f" (overload 12 .int) true] = .ok overloads := rfl
  exact Built.new.run hrun

private theorem overloads_chained : overloads.Chained "f" overloads.current where
  place := Scope.isPlace_root.inside (by decide : ':' ∉ "A".toList) 1
  inside := by decide
  nested := by unfold Scope.Encloses; decide +kernel
  isGlobal := by decide +kernel
  room := by decide +kernel

/-- Of functions that take an argument as it is, the one further inside is called. -/
theorem resolveCall_best_inside :
    overloads.Built ∧ [Ty.scalar .int] ≠ []
      ∧ overloads.candidates "f" [.scalar .int] overloads.current ≠ []
      ∧ (overloads.resolveCall "f" [.scalar .int] overloads.current).outcome.map (·.map (·.id))
        id = (some 12, false)
      ∧ ∀ e ∈ overloads.functions "f", e.IsVisible overloads.current
        ↔ e.scope.Encloses overloads.current := by
  have hargs : [Ty.scalar .int] ≠ [] := List.cons_ne_nil _ _
  have hsome : overloads.candidates "f" [.scalar .int] overloads.current ≠ [] := by
    rw [← List.isEmpty_eq_false_iff]
    decide +kernel
  obtain ⟨hbest, hvisible, -⟩ := resolveCall_best overloads_built hargs hsome
  refine ⟨overloads_built, hargs, hsome, ?_, hvisible overloads_chained⟩
  rw [hbest]
  decide +kernel

end SymbolTable
end ShaderEffect

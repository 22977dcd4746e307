import ShaderEffect.Proofs.Reuse.Sources

namespace ShaderEffect

/-- The path of nested namespaces, the outermost first. -/
def namespacePath (names : List (List Char)) : List Char :=
  [':', ':'] ++ names.flatMap (· ++ [':', ':'])

theorem namespacePath_append (names : List (List Char)) (name : List Char) :
    namespacePath (names ++ [name]) = namespacePath names ++ name ++ [':', ':'] := by
  simp [namespacePath]

theorem suffix_namespacePath (names : List (List Char)) : [':', ':'] <:+ namespacePath names := by
  rcases List.eq_nil_or_concat' names with rfl | ⟨outer, name, rfl⟩
  · exact List.suffix_refl _
  · rw [namespacePath_append]
    exact List.suffix_append _ _

/-- Every name of a path brings one separator, and so does the root. -/
theorem count_namespacePath {names : List (List Char)} (h : ∀ name ∈ names, ':' ∉ name) :
    (namespacePath names).count ':' = 2 * (names.length + 1) := by
  induction names using List.reverseRecOn with
  | nil => rfl
  | append_singleton outer name ih =>
    have hname : name.count ':' = 0 := List.count_eq_zero.mpr (h name (by simp))
    have houter : ∀ n ∈ outer, ':' ∉ n := fun n hn => h n (List.mem_append_left _ hn)
    rw [namespacePath_append, List.count_append, List.count_append, ih houter, hname,
      List.length_append]
    simp only [List.count_cons_self, List.count_nil, List.length_singleton]
    omega

namespace Scope

/-- Whether a scope lies in the namespace of its path, in a block or not. -/
def IsPlace (s : Scope) : Prop :=
  ∃ names : List (List Char), (∀ name ∈ names, ':' ∉ name)
    ∧ s.name.toList = namespacePath names
    ∧ s.namespaceLevel = UInt32.ofNat names.length

/-- Whether one namespace is another one or lies around it. -/
def Encloses (outer inner : Scope) : Prop :=
  outer.name.toList <+: inner.name.toList

theorem isPlace_root : root.IsPlace :=
  ⟨[], nofun, rfl, rfl⟩

theorem IsPlace.inside {s : Scope} (h : s.IsPlace) {name : String} (hname : ':' ∉ name.toList)
    (level : UInt32) :
    IsPlace ⟨s.name ++ name ++ "::", level, s.namespaceLevel + 1⟩ := by
  obtain ⟨names, hnames, hpath, hlevel⟩ := h
  refine ⟨names ++ [name.toList], ?_, ?_, ?_⟩
  · intro n hn
    rcases List.mem_append.mp hn with hn | hn
    · exact hnames n hn
    · rwa [List.mem_singleton.mp hn]
  · rw [namespacePath_append, String.toList_append, String.toList_append, hpath]
    rfl
  · rw [List.length_append, hlevel, UInt32.ofNat_add]
    rfl

/-- Around a namespace lies the one it was entered from. -/
theorem IsPlace.outside {s : Scope} (h : s.IsPlace) {path : String}
    (houter : SymbolTable.outerPath s.name = .ok path) (level : UInt32) :
    IsPlace ⟨path, level, s.namespaceLevel - 1⟩ := by
  obtain ⟨names, hnames, hpath, hlevel⟩ := h
  rcases List.eq_nil_or_concat' names with rfl | ⟨outer, name, rfl⟩
  · -- The root has no namespace around it.
    have hroot : s.name = "::" := String.toList_inj.mp hpath
    rw [hroot] at houter
    cases houter
  · have hname : ':' ∉ (String.ofList name).toList := by
      rw [String.toList_ofList]
      exact hnames name (by simp)
    have hsuffix : [':', ':'] <:+ (String.ofList (namespacePath outer)).toList := by
      rw [String.toList_ofList]
      exact suffix_namespacePath outer
    have hsplit : s.name = String.ofList (namespacePath outer) ++ String.ofList name ++ "::" := by
      apply String.toList_inj.mp
      rw [hpath, namespacePath_append, String.toList_append, String.toList_append,
        String.toList_ofList, String.toList_ofList]
      rfl
    rw [hsplit, SymbolTable.outerPath_append hsuffix hname] at houter
    obtain rfl := Except.ok.inj houter
    refine ⟨outer, fun n hn => hnames n (List.mem_append_left _ hn), String.toList_ofList, ?_⟩
    rw [hlevel, List.length_append, UInt32.ofNat_add]
    exact UInt32.add_sub_cancel _ _

/-- The number of names of a path that fits into a word is the level of the namespace. -/
theorem IsPlace.toNat_level {s : Scope} (h : s.IsPlace) (hroom : s.name.length < 2 ^ 32) :
    s.name.toList.count ':' = 2 * (s.namespaceLevel.toNat + 1) := by
  obtain ⟨names, hnames, hpath, hlevel⟩ := h
  have hcount : s.name.toList.count ':' = 2 * (names.length + 1) := by
    rw [hpath, count_namespacePath hnames]
  have hle : s.name.toList.count ':' ≤ s.name.toList.length := List.count_le_length
  rw [String.length_toList] at hle
  rw [hcount, hlevel, UInt32.toNat_ofNat_of_lt' (by simp only [UInt32.size]; omega)]

theorem IsPlace.suffix {s : Scope} (h : s.IsPlace) : [':', ':'] <:+ s.name.toList := by
  obtain ⟨names, -, hpath, -⟩ := h
  rw [hpath]
  exact suffix_namespacePath names

/-- Of two namespaces one of which lies around the other, the inner one is deeper. -/
theorem IsPlace.level_le_iff {outer inner : Scope} (houter : outer.IsPlace) (hinner : inner.IsPlace)
    (hnested : outer.Encloses inner ∨ inner.Encloses outer) (hroom : outer.name.length < 2 ^ 32)
    (hroom' : inner.name.length < 2 ^ 32) :
    outer.namespaceLevel ≤ inner.namespaceLevel ↔ outer.Encloses inner := by
  have hcount := houter.toNat_level hroom
  have hcount' := hinner.toNat_level hroom'
  rw [UInt32.le_iff_toNat_le]
  constructor
  · intro hle
    rcases hnested with hnested | ⟨rest, hrest⟩
    · exact hnested
    -- The inner path cannot be a proper part of the outer one, which would have a separator more.
    have hnone : rest.count ':' = 0 := by
      rw [← hrest, List.count_append] at hcount
      omega
    have hnil : rest = [] := by
      obtain ⟨path, hpath⟩ := houter.suffix
      rcases List.eq_nil_or_concat' rest with rfl | ⟨front, last, rfl⟩
      · rfl
      · have hlast : last = ':' := by
          have heq : (path ++ [':']) ++ [':'] = (inner.name.toList ++ front) ++ [last] := by
            rw [List.append_assoc, List.append_assoc, hrest, ← hpath]
            rfl
          exact (List.singleton_inj.mp (List.append_inj_right' heq rfl)).symm
        rw [hlast, List.count_append, List.count_singleton_self] at hnone
        omega
    rw [hnil, List.append_nil] at hrest
    rw [Encloses, hrest]
  · intro hle
    have hsub := hle.sublist.count_le ':'
    omega

end Scope

namespace SymbolTable

theorem insertEntry_perm (new : Entry) (entries : List Entry) :
    (insertEntry new entries).Perm (new :: entries) := by
  induction entries with
  | nil => exact .refl _
  | cons first rest ih =>
    rw [insertEntry]
    split
    · exact .refl _
    · exact (ih.cons first).trans (.swap new first rest)

theorem mem_insertEntry {new e : Entry} {entries : List Entry} :
    e ∈ insertEntry new entries ↔ e = new ∨ e ∈ entries :=
  (insertEntry_perm new entries).mem_iff.trans List.mem_cons

/-- Whether entries of one name stand in the order of their namespaces, the outermost first. -/
def Ordered (entries : List Entry) : Prop :=
  entries.Pairwise fun a b => a.name = b.name → a.scope.namespaceLevel ≤ b.scope.namespaceLevel

theorem Ordered.insertEntry {entries : List Entry} (h : Ordered entries) (new : Entry) :
    Ordered (insertEntry new entries) := by
  induction entries with
  | nil => exact List.pairwise_singleton _ _
  | cons first rest ih =>
    obtain ⟨hfirst, hrest⟩ := List.pairwise_cons.mp h
    rw [SymbolTable.insertEntry]
    split
    · rename_i hbehind
      simp only [Bool.and_eq_true, decide_eq_true_eq] at hbehind
      have hlt : new.scope.namespaceLevel < first.scope.namespaceLevel := hbehind.2
      refine List.pairwise_cons.mpr ⟨fun e he hname => ?_, h⟩
      rcases List.mem_cons.mp he with rfl | he
      · exact UInt32.le_of_lt hlt
      · exact UInt32.le_trans (UInt32.le_of_lt hlt) (hfirst e he (hbehind.1.trans hname))
    · rename_i hfront
      simp only [Bool.and_eq_true, decide_eq_true_eq, not_and] at hfront
      refine List.pairwise_cons.mpr ⟨fun e he hname => ?_, ih hrest⟩
      rcases mem_insertEntry.mp he with rfl | he
      · exact UInt32.not_lt.mp (hfront hname)
      · exact hfirst e he hname

/-- What holds of every table: where its entries stand, and in which order. -/
structure Tidy (t : SymbolTable) : Prop where
  current : t.current.IsPlace
  places : ∀ e ∈ t.entries, e.scope.IsPlace
  ordered : Ordered t.entries

theorem Tidy.new : Tidy {} :=
  ⟨Scope.isPlace_root, fun _ he => absurd he List.not_mem_nil, List.Pairwise.nil⟩

theorem Tidy.add {t : SymbolTable} (h : t.Tidy) {new : Entry} (hnew : new.scope.IsPlace) :
    (t.add new).Tidy where
  current := h.current
  places := by
    intro e he
    rcases mem_insertEntry.mp he with rfl | he
    · exact hnew
    · exact h.places e he
  ordered := h.ordered.insertEntry new

theorem Tidy.addAll {t : SymbolTable} (h : t.Tidy) {α : Type} {entry : α → Entry} {xs : List α}
    (hxs : ∀ x ∈ xs, (entry x).scope.IsPlace) :
    (xs.foldl (fun t x => t.add (entry x)) t).Tidy := by
  induction xs generalizing t with
  | nil => exact h
  | cons x xs ih =>
    have hfirst := h.add (hxs x List.mem_cons_self)
    exact ih hfirst fun y hy => hxs y (List.mem_cons_of_mem x hy)

/-- Every namespace on a path is split off at its place. The names in front were
split off before. -/
theorem mem_pathSplits (before : List (List Char)) {after : List (List Char)} {passed : List Char}
    {fuel : Nat} (hpassed : passed ++ [':', ':'] = namespacePath before)
    (hnames : ∀ name ∈ before ++ after, ':' ∉ name) {here below : String} {i : Nat}
    (hsplit : ((here, below), i)
      ∈ (pathSplits passed (namespacePath after) fuel).zipIdx before.length) :
    ∃ names : List (List Char), (∀ name ∈ names, ':' ∉ name)
      ∧ here.toList = namespacePath names ∧ i = names.length := by
  induction fuel generalizing before after passed with
  | zero => cases hsplit
  | succ fuel ih =>
    have hbefore : ∀ name ∈ before, ':' ∉ name :=
      fun name hname => hnames name (List.mem_append_left _ hname)
    rw [pathSplits, List.zipIdx_cons] at hsplit
    rcases List.mem_cons.mp hsplit with heq | hrest
    · have hhere : here = String.ofList (passed ++ [':', ':']) :=
        (Prod.mk.inj (Prod.mk.inj heq).1).1
      refine ⟨before, hbefore, ?_, (Prod.mk.inj heq).2⟩
      rw [hhere, String.toList_ofList, hpassed]
    · cases after with
      | nil => cases hrest
      | cons name more =>
        have hname : ':' ∉ name := hnames name (by simp)
        have hbelow : (namespacePath (name :: more)).drop 2 = name ++ namespacePath more := by
          simp [namespacePath]
        have hindex : Text.indexOf? [':', ':'] (name ++ namespacePath more) = some name.length :=
          indexOf_separator hname
        simp only [hbelow, hindex, List.take_left, List.drop_left] at hrest
        have hstep :
            ((here, below), i)
              ∈ (pathSplits (passed ++ [':', ':'] ++ name) (namespacePath more) fuel).zipIdx
            (before ++ [name]).length := by
          rwa [List.length_append]
        refine ih (before ++ [name]) ?_ ?_ hstep
        · rw [namespacePath_append, ← hpassed]
        · simpa using hnames

/-- A declaration, local or global, leaves a table tidy. -/
theorem Tidy.insert {t t' : SymbolTable} (h : t.Tidy) {name : String} {symbol : Symbol}
    {isGlobal : Bool} (hinsert : t.insert name symbol isGlobal = .ok (some t')) : t'.Tidy := by
  unfold SymbolTable.insert at hinsert
  dsimp only at hinsert
  split at hinsert
  · cases hinsert
  split at hinsert
  · obtain rfl := Option.some.inj (Except.ok.inj hinsert)
    exact h.add h.current
  split at hinsert
  · cases hinsert
  -- A global is declared once in every namespace around it.
  obtain ⟨names, hnames, hpath, -⟩ := h.current
  obtain rfl := Option.some.inj (Except.ok.inj hinsert)
  rw [hpath]
  refine h.addAll fun x hx => ?_
  obtain ⟨outer, houter, hhere, hdepth⟩ := mem_pathSplits [] rfl hnames hx
  exact ⟨outer, houter, hhere, congrArg UInt32.ofNat hdepth⟩

/-- What the parser does to a table. Names of namespaces are words, without a separator. -/
inductive Action where
  | enterScope
  | leaveScope
  | enterNamespace (name : String) (hname : ':' ∉ name.toList)
  | leaveNamespace
  | insert (name : String) (symbol : Symbol) (isGlobal : Bool)

/-- The table behind an action. A name that is taken is not declared again. -/
def Action.apply (t : SymbolTable) : Action → Except Fault SymbolTable
  | enterScope => pure t.enterScope
  | leaveScope => pure t.leaveScope
  | enterNamespace name _ => pure (t.enterNamespace name)
  | leaveNamespace => t.leaveNamespace
  | insert name symbol isGlobal => do return (← t.insert name symbol isGlobal).getD t

/-- The tables that actions lead to. -/
inductive Built : SymbolTable → Prop where
  | new : Built {}
  | act {t t' : SymbolTable} (h : Built t) (a : Action) (hact : a.apply t = .ok t') : Built t'

/-- The table behind several actions. -/
def run (t : SymbolTable) (as : List Action) : Except Fault SymbolTable :=
  as.foldlM Action.apply t

theorem run_cons {t t' : SymbolTable} {a : Action} {as : List Action} :
    t.run (a :: as) = .ok t' ↔ ∃ next, a.apply t = .ok next ∧ next.run as = .ok t' := by
  rw [run, List.foldlM_cons, except_bind_eq_ok]
  rfl

theorem Built.run {t t' : SymbolTable} (h : t.Built) {as : List Action} (hrun : t.run as = .ok t') :
    t'.Built := by
  induction as generalizing t with
  | nil =>
    obtain rfl := Except.ok.inj hrun
    exact h
  | cons a as ih =>
    obtain ⟨next, ha, hrest⟩ := run_cons.mp hrun
    exact ih (h.act a ha) hrest

theorem Tidy.act {t t' : SymbolTable} (h : t.Tidy) {a : Action} (hact : a.apply t = .ok t') :
    t'.Tidy := by
  cases a with
  | enterScope =>
    obtain rfl := Except.ok.inj hact
    exact ⟨h.current, h.places, h.ordered⟩
  | leaveScope =>
    obtain rfl := Except.ok.inj hact
    exact ⟨h.current, fun e he => h.places e (List.mem_of_mem_filter he), h.ordered.filter _⟩
  | enterNamespace name hname =>
    obtain rfl := Except.ok.inj hact
    exact ⟨h.current.inside hname _, h.places, h.ordered⟩
  | leaveNamespace =>
    obtain ⟨path, houter, hleave⟩ := except_bind_eq_ok.mp hact
    obtain rfl := Except.ok.inj hleave
    exact ⟨h.current.outside houter _, h.places, h.ordered⟩
  | insert name symbol isGlobal =>
    obtain ⟨inserted, hinsert, heq⟩ := except_bind_eq_ok.mp hact
    obtain rfl := Except.ok.inj heq
    cases inserted with
    | none => exact h
    | some t' => exact h.insert hinsert

theorem Built.tidy {t : SymbolTable} (h : t.Built) : t.Tidy := by
  induction h with
  | new => exact .new
  | act _ _ hact ih => exact ih.act hact

/-- The entries that a global declaration leads to. -/
def placed (current : Scope) (name : String) (symbol : Symbol) : List Entry :=
  (pathSplits [] current.name.toList (current.name.length + 1)).zipIdx.map fun ((here, below), i) =>
    { name := below ++ name, symbol
      scope := { name := here, level := UInt32.ofNat i, namespaceLevel := UInt32.ofNat i } }

/-- Declares functions in the current namespace, one after the other. -/
def declare (t : SymbolTable) (fs : List (String × Symbol)) : Except Fault SymbolTable :=
  t.run (fs.map fun f => .insert f.1 f.2 true)

theorem addAll_perm {α : Type} (entry : α → Entry) (xs : List α) (t : SymbolTable) :
    (xs.foldl (fun t x => t.add (entry x)) t).current = t.current
      ∧ (xs.foldl (fun t x => t.add (entry x)) t).entries.Perm (xs.map entry ++ t.entries) := by
  induction xs generalizing t with
  | nil => exact ⟨rfl, .refl _⟩
  | cons x xs ih =>
    obtain ⟨hcurrent, hentries⟩ := ih (t.add (entry x))
    refine ⟨hcurrent, hentries.trans ?_⟩
    exact ((insertEntry_perm (entry x) t.entries).append_left _).trans List.perm_middle

/-- A function is declared whatever there is. -/
theorem insert_function {t t' : SymbolTable} {name : String} {symbol : Symbol}
    (hkind : symbol.kind = .function) (h : (Action.insert name symbol true).apply t = .ok t') :
    t'.current = t.current ∧ t'.entries.Perm (placed t.current name symbol ++ t.entries) := by
  obtain ⟨inserted, hinsert, heq⟩ := except_bind_eq_ok.mp h
  obtain rfl := Except.ok.inj heq
  simp only [SymbolTable.insert, hkind, ne_eq, not_true_eq_false, decide_false, Bool.false_and,
    Bool.false_eq_true, if_false, Bool.not_true] at hinsert
  split at hinsert
  · cases hinsert
  obtain rfl := Except.ok.inj hinsert
  exact addAll_perm _ _ t

theorem declare_entries {t t' : SymbolTable} {fs : List (String × Symbol)}
    (hkind : ∀ f ∈ fs, f.2.kind = .function) (h : t.declare fs = .ok t') :
    t'.current = t.current
      ∧ t'.entries.Perm ((fs.flatMap fun f => placed t.current f.1 f.2) ++ t.entries) := by
  induction fs generalizing t with
  | nil =>
    obtain rfl := Except.ok.inj h
    exact ⟨rfl, .refl _⟩
  | cons f fs ih =>
    obtain ⟨next, hf, hrest⟩ := run_cons.mp h
    obtain ⟨hcurrent, hentries⟩ := insert_function (hkind f List.mem_cons_self) hf
    obtain ⟨hcurrent', hentries'⟩ := ih (fun g hg => hkind g (List.mem_cons_of_mem f hg)) hrest
    refine ⟨hcurrent'.trans hcurrent, hentries'.trans ?_⟩
    rw [hcurrent, List.flatMap_cons, List.append_assoc]
    refine (hentries.append_left _).trans ?_
    rw [← List.append_assoc, ← List.append_assoc]
    exact List.perm_append_comm.append_right _

/-- Functions that are declared in another order lead to the same entries, in another order. -/
theorem declare_perm {t u u' : SymbolTable} {fs fs' : List (String × Symbol)} (hfs : fs.Perm fs')
    (hkind : ∀ f ∈ fs, f.2.kind = .function) (h : t.declare fs = .ok u)
    (h' : t.declare fs' = .ok u') :
    u'.entries.Perm u.entries := by
  have hkind' : ∀ f ∈ fs', f.2.kind = .function := fun f hf => hkind f (hfs.mem_iff.mpr hf)
  obtain ⟨-, hentries⟩ := declare_entries hkind h
  obtain ⟨-, hentries'⟩ := declare_entries hkind' h'
  exact hentries'.trans (((hfs.flatMap_right _).symm.append_right _).trans hentries.symm)

end SymbolTable
end ShaderEffect

import ShaderEffect.Proofs.Symbols.Tables

/-!
Names in nested blocks.

Without namespaces a table is a record of the declarations that are in force, the oldest first, each
with the number of blocks around it. Every action on the table is an action on this record, so that
what holds of blocks holds of tables.
-/
namespace ShaderEffect.SymbolTable

/-- A declaration in force, and how many blocks are open around it. Globals are
outside of all blocks. -/
structure Declaration where
  name : String
  symbol : Symbol
  depth : Nat

/-- How many blocks are open, and the declarations in force, the latest first. -/
structure Blocks where
  depth : Nat := 0
  declared : List Declaration := []

namespace Blocks

def enter (b : Blocks) : Blocks :=
  { b with depth := b.depth + 1 }

/-- Closes the innermost block. Its declarations end with it. -/
def leave (b : Blocks) : Blocks where
  depth := b.depth - 1
  declared := b.declared.filter (·.depth < b.depth)

/-- Whether a name is declared in the innermost block. -/
def isTaken (b : Blocks) (name : String) : Bool :=
  b.declared.any fun x => x.name = name && x.depth = b.depth

/-- Declares a name, unless it is taken. Functions can share a name. -/
def insert? (b : Blocks) (name : String) (symbol : Symbol) (isGlobal : Bool) : Option Blocks :=
  if symbol.kind ≠ .function && b.isTaken name then none
  else some { b with declared := ⟨name, symbol, if isGlobal then 0 else b.depth⟩ :: b.declared }

/-- The blocks behind an action. A name that is taken is not declared again. -/
def act (b : Blocks) : Action → Blocks
  | .enterScope => b.enter
  | .leaveScope => b.leave
  | .insert name symbol isGlobal => (b.insert? name symbol isGlobal).getD b
  | .enterNamespace _ _ => b
  | .leaveNamespace => b

/-- The blocks behind several actions. -/
def run (b : Blocks) (as : List Action) : Blocks :=
  as.foldl act b

/-- The variable, constant or structure that a name is declared as so many blocks deep. -/
def value? (b : Blocks) (name : String) (depth : Nat) : Option Declaration :=
  b.declared.find? fun x => x.depth = depth && (x.name = name && x.symbol.isValue)

/-- The function that was declared last under a name. -/
def function? (b : Blocks) (name : String) : Option Declaration :=
  b.declared.find? fun x => x.name = name && x.symbol.kind = .function

/-- What a name stands for: the variable, constant or structure in the innermost block that has one,
else the function that was declared last, else nothing. -/
def lookup (b : Blocks) (name : String) : Symbol :=
  match (List.range (b.depth + 1)).reverse.findSome? (b.value? name) with
  | some x => x.symbol
  | none => ((b.function? name).map (·.symbol)).getD {}

end Blocks

/-- Whether a symbol can be declared: as a variable, constant, structure or function. -/
def IsDeclarable (symbol : Symbol) : Prop :=
  symbol.isValue = true ∨ symbol.kind = .function

instance (symbol : Symbol) : Decidable (IsDeclarable symbol) := by
  unfold IsDeclarable
  infer_instance

/-- How many blocks are open behind an action. There is nothing if it touches a namespace, closes a
block that is not deeper than `floor`, or opens more blocks than a word can count. -/
def Action.depth? (floor depth : Nat) : Action → Option Nat
  | enterScope => if depth + 1 < 2 ^ 32 then some (depth + 1) else none
  | leaveScope => if floor < depth then some (depth - 1) else none
  | insert _ symbol _ => if IsDeclarable symbol then some depth else none
  | enterNamespace _ _ => none
  | leaveNamespace => none

/-- How many blocks are open behind several actions. -/
def depthBehind? (floor depth : Nat) (as : List Action) : Option Nat :=
  as.foldlM (Action.depth? floor) depth

/-- Whether all globals that are declared inside of blocks are functions. -/
def GlobalsOutside : (depth : Nat) → List Action → Prop
  | _, [] => True
  | depth, .enterScope :: as => GlobalsOutside (depth + 1) as
  | depth, .leaveScope :: as => GlobalsOutside (depth - 1) as
  | depth, .insert _ symbol isGlobal :: as =>
    (isGlobal = true → depth = 0 ∨ symbol.kind = .function) ∧ GlobalsOutside depth as
  | depth, .enterNamespace _ _ :: as => GlobalsOutside depth as
  | depth, .leaveNamespace :: as => GlobalsOutside depth as

/-- The global that an action declares, if any. -/
def newGlobal (t : SymbolTable) : Action → List Entry
  | .insert name symbol true =>
    match t.insert name symbol true with
    | .ok (some _) => [{ name, symbol, scope := .root }]
    | _ => []
  | _ => []

/-- The globals that actions declare, the oldest first. -/
def addedGlobals (t : SymbolTable) : List Action → List Entry
  | [] => []
  | a :: as =>
    t.newGlobal a ++ match a.apply t with
      | .ok next => next.addedGlobals as
      | .error _ => []

/-- The entry for a declaration. -/
def Declaration.entry (x : Declaration) : Entry where
  name := x.name
  symbol := x.symbol
  scope := { level := .ofNat x.depth }

/-- The table in which blocks are open. -/
def Blocks.table (b : Blocks) : SymbolTable where
  current := { level := .ofNat b.depth }
  entries := (b.declared.map Declaration.entry).reverse

/-- What holds of blocks behind any actions. -/
structure Blocks.IsNested (b : Blocks) : Prop where
  room : b.depth < 2 ^ 32
  depth_le : ∀ x ∈ b.declared, x.depth ≤ b.depth
  declarable : ∀ x ∈ b.declared, IsDeclarable x.symbol

/-- Whether no variable, constant or structure is declared outside of a block in which another one
was declared before it. -/
def Blocks.IsLayered (b : Blocks) : Prop :=
  b.declared.Pairwise fun later earlier =>
    later.symbol.isValue = true → earlier.symbol.isValue = true → earlier.depth ≤ later.depth

variable {b : Blocks} {as : List Action} {a : Action} {name : String} {symbol : Symbol}
  {isGlobal : Bool} {floor d d' : Nat}

theorem IsDeclarable.kind_ne (h : IsDeclarable symbol) : symbol.kind ≠ .invalid := by
  rintro heq
  rcases h with h | h
  · rw [Symbol.isValue, heq] at h
    cases h
  · rw [heq] at h
    cases h

theorem ofNat_le_ofNat {m n : Nat} (hm : m < 2 ^ 32) (hn : n < 2 ^ 32) :
    UInt32.ofNat m ≤ UInt32.ofNat n ↔ m ≤ n := by
  rw [UInt32.le_iff_toNat_le, UInt32.toNat_ofNat_of_lt' hm, UInt32.toNat_ofNat_of_lt' hn]

theorem ofNat_lt_ofNat {m n : Nat} (hm : m < 2 ^ 32) (hn : n < 2 ^ 32) :
    UInt32.ofNat m < UInt32.ofNat n ↔ m < n := by
  rw [UInt32.lt_iff_toNat_lt, UInt32.toNat_ofNat_of_lt' hm, UInt32.toNat_ofNat_of_lt' hn]

/-- The entries of a name, the latest first. -/
theorem named_table (b : Blocks) (name : String) :
    b.table.named name = (b.declared.filter (·.name = name)).map Declaration.entry := by
  rw [named, Blocks.table, List.filter_reverse, List.reverse_reverse, List.filter_map]
  rfl

/-- All of them can be seen. -/
theorem visibleFrom_entry {x : Declaration} (hb : b.IsNested) (hx : x ∈ b.declared) :
    x.entry.visibleFrom b.table.current = true := by
  have hle := hb.depth_le x hx
  have hlevel : UInt32.ofNat x.depth ≤ UInt32.ofNat b.depth :=
    (ofNat_le_ofNat (hle.trans_lt hb.room) hb.room).mpr hle
  simp [Entry.visibleFrom, Declaration.entry, Blocks.table, hlevel]

/-- What the declarations of a name come to, the latest first. -/
def nearest (xs : List Declaration) : Symbol :=
  match xs.find? (·.symbol.isValue) with
  | some x => x.symbol
  | none => (xs.head?.map (·.symbol)).getD {}

theorem kind_nearest {xs : List Declaration} (hxs : ∀ x ∈ xs, IsDeclarable x.symbol) :
    (nearest xs).kind ≠ .invalid ↔ xs ≠ [] := by
  unfold nearest
  split
  · rename_i x hx
    have hmem := List.mem_of_find?_eq_some hx
    exact iff_of_true (hxs x hmem).kind_ne (List.ne_nil_of_mem hmem)
  · cases xs with
    | nil => exact iff_of_false (fun h => h rfl) fun h => h rfl
    | cons x xs => exact iff_of_true (hxs x List.mem_cons_self).kind_ne (List.cons_ne_nil x xs)

/-- What the entries for these declarations come to. -/
theorem nearest_entries {xs : List Declaration} (hxs : ∀ x ∈ xs, IsDeclarable x.symbol) :
    (match (xs.map Declaration.entry).find? (·.symbol.isValue) with
      | some e => e.symbol
      | none => (xs.map Declaration.entry).foldl
        (fun found e => if found.kind = .invalid then e.symbol else found) {}) = nearest xs := by
  have hvalue : (xs.map Declaration.entry).find? (·.symbol.isValue)
      = (xs.find? (·.symbol.isValue)).map Declaration.entry := List.find?_map
  have hfirst :
      (xs.map Declaration.entry).foldl
        (fun found e => if found.kind = .invalid then e.symbol else found) {}
      = (xs.head?.map (·.symbol)).getD {} := by
    cases xs with
    | nil => rfl
    | cons x xs =>
      have hkeep : ∀ (es : List Entry) (s : Symbol), s.kind ≠ .invalid →
          es.foldl (fun found e => if found.kind = .invalid then e.symbol else found) s = s := by
        intro es s hs
        induction es with
        | nil => rfl
        | cons e es ih => rwa [List.foldl_cons, if_neg hs]
      exact hkeep _ x.symbol (hxs x List.mem_cons_self).kind_ne
  rw [hvalue, hfirst, nearest]
  cases xs.find? (·.symbol.isValue) <;> rfl

/-- A name is looked up among the declarations that are seen. -/
theorem find_table {exclusive : Bool} (hb : b.IsNested) :
    b.table.find name b.table.current exclusive
      = nearest (b.declared.filter fun x =>
        x.name = name && !(exclusive && x.depth < b.depth)) := by
  have hseen : (b.table.named name).filter
      (fun e => e.visibleFrom b.table.current
        && !(exclusive && e.scope.level < b.table.current.level))
        = (b.declared.filter fun x => x.name = name && !(exclusive && x.depth < b.depth)).map
          Declaration.entry := by
    rw [named_table, List.filter_map, List.filter_filter]
    refine congrArg _ (List.filter_congr fun x hx => ?_)
    have hlevel : x.entry.scope.level < b.table.current.level ↔ x.depth < b.depth :=
      ofNat_lt_ofNat ((hb.depth_le x hx).trans_lt hb.room) hb.room
    rw [Function.comp_apply, visibleFrom_entry hb hx, Bool.true_and, Bool.and_comm,
      decide_eq_decide.mpr hlevel]
  have hdeclarable :
      ∀ x ∈ b.declared.filter fun x => x.name = name && !(exclusive && x.depth < b.depth),
      IsDeclarable x.symbol := fun x hx => hb.declarable x (List.mem_of_mem_filter hx)
  rw [find]
  simp only [hseen]
  exact nearest_entries hdeclarable

/-- In the innermost block alone, a name stands for something if it is taken. -/
theorem kind_find_exclusive (hb : b.IsNested) :
    (b.table.find name b.table.current true).kind ≠ .invalid ↔ b.isTaken name = true := by
  have hdeclarable :
      ∀ x ∈ b.declared.filter fun x => x.name = name && !(true && x.depth < b.depth),
      IsDeclarable x.symbol := fun x hx => hb.declarable x (List.mem_of_mem_filter hx)
  rw [find_table hb, kind_nearest hdeclarable, ne_eq, List.filter_eq_nil_iff, Blocks.isTaken,
    List.any_eq_true]
  simp only [not_forall, not_not, exists_prop]
  refine exists_congr fun x => and_congr_right fun hx => ?_
  have hle := hb.depth_le x hx
  simp only [Bool.true_and, Bool.and_eq_true, decide_eq_true_eq, Bool.not_eq_true',
    decide_eq_false_iff_not, not_lt]
  exact and_congr_right fun _ => ⟨fun h => le_antisymm hle h, fun h => h.ge⟩

/-- Of several blocks that declare a value of a name, the innermost one comes first. -/
theorem findSome?_value {x : Declaration} {n : Nat} (hx : b.value? name x.depth = some x)
    (hn : x.depth ≤ n) (hdeeper : ∀ k, x.depth < k → b.value? name k = none) :
    (List.range (n + 1)).reverse.findSome? (b.value? name) = some x := by
  induction n with
  | zero =>
    obtain hzero : x.depth = 0 := Nat.le_zero.mp hn
    rw [hzero] at hx
    exact List.findSome?_cons_of_isSome (by rw [hx]; rfl) |>.trans hx
  | succ n ih =>
    rw [List.range_succ, List.reverse_append, List.reverse_singleton, List.singleton_append,
      List.findSome?_cons]
    rcases Nat.lt_or_eq_of_le hn with hlt | heq
    · rw [hdeeper (n + 1) hlt]
      exact ih (Nat.le_of_lt_succ hlt)
    · rw [← heq, hx]

/-- The latest value of a name is the one in the innermost block that has one. -/
theorem nearest_declared (hb : b.IsNested) (hlayered : b.IsLayered) :
    nearest (b.declared.filter (·.name = name)) = b.lookup name := by
  rw [nearest, Blocks.lookup, List.find?_filter, List.head?_filter]
  cases hfind : b.declared.find? fun x =>
    decide (decide (x.name = name) = true ∧ x.symbol.isValue = true) with
  | none =>
    rw [List.find?_eq_none] at hfind
    have hnone : (List.range (b.depth + 1)).reverse.findSome? (b.value? name) = none := by
      refine List.findSome?_eq_none_iff.mpr fun k _ =>
        List.find?_eq_none.mpr fun x hx hvalue => hfind x hx ?_
      simp only [Bool.and_eq_true, decide_eq_true_eq] at hvalue ⊢
      exact hvalue.2
    have hfunction : b.declared.find? (·.name = name) = b.function? name := by
      refine List.find?_congr fun x hx => ?_
      have hnot := hfind x hx
      simp only [decide_eq_true_eq, not_and] at hnot
      rw [Bool.eq_iff_iff, Bool.and_eq_true, decide_eq_true_iff, decide_eq_true_iff]
      exact ⟨fun hname => ⟨hname, (hb.declarable x hx).resolve_left (hnot hname)⟩, And.left⟩
    rw [hnone, hfunction]
  | some x =>
    obtain ⟨hx, later, earlier, hdeclared, hlater⟩ := List.find?_eq_some_iff_append.mp hfind
    simp only [decide_eq_true_eq, Bool.not_eq_true', decide_eq_false_iff_not, not_and] at hx hlater
    obtain ⟨hname, hvalue⟩ := hx
    have hmem : x ∈ b.declared := List.mem_of_find?_eq_some hfind
    -- Earlier values are declared no deeper, and later ones are of other names.
    have hbehind : ∀ y ∈ earlier, y.symbol.isValue = true → y.depth ≤ x.depth := by
      rw [Blocks.IsLayered, hdeclared] at hlayered
      have hrest := (List.pairwise_append.mp hlayered).2.1
      exact fun y hy hyvalue => (List.pairwise_cons.mp hrest).1 y hy hvalue hyvalue
    have hat : b.value? name x.depth = some x := by
      refine List.find?_eq_some_iff_append.mpr ⟨by simp [hname, hvalue], later, earlier,
        hdeclared, fun y hy => ?_⟩
      have := hlater y hy
      simp only [Bool.not_eq_true', Bool.and_eq_false_iff, decide_eq_false_iff_not]
      grind
    have hdeeper : ∀ k, x.depth < k → b.value? name k = none := by
      refine fun k hk => List.find?_eq_none.mpr fun y hy hyvalue => ?_
      simp only [Bool.and_eq_true, decide_eq_true_eq] at hyvalue
      obtain ⟨hdepth, hyname, hyvalue⟩ := hyvalue
      rw [hdeclared, List.mem_append, List.mem_cons] at hy
      rcases hy with hy | rfl | hy
      · exact hlater y hy hyname hyvalue
      · exact hk.ne hdepth
      · exact (hbehind y hy hyvalue).not_gt (hdepth ▸ hk)
    rw [findSome?_value hat (hb.depth_le x hmem) hdeeper]

theorem insertEntry_eq_append {new : Entry} {entries : List Entry}
    (h : ∀ e ∈ entries, e.scope.namespaceLevel ≤ new.scope.namespaceLevel) :
    insertEntry new entries = entries ++ [new] := by
  induction entries with
  | nil => rfl
  | cons e rest ih =>
    have hle := h e List.mem_cons_self
    rw [insertEntry, if_neg (by simp [UInt32.not_lt.mpr hle]),
      ih fun e he => h e (List.mem_cons_of_mem _ he)]
    rfl

theorem add_table (x : Declaration) :
    b.table.add x.entry = Blocks.table { b with declared := x :: b.declared } := by
  have hlevels :
      ∀ e ∈ b.table.entries, e.scope.namespaceLevel ≤ x.entry.scope.namespaceLevel := by
    intro e he
    obtain ⟨y, -, rfl⟩ := List.mem_map.mp (List.mem_reverse.mp he)
    exact UInt32.le_refl 0
  rw [add, insertEntry_eq_append hlevels]
  simp [Blocks.table]

theorem insert_table (hb : b.IsNested) :
    b.table.insert name symbol isGlobal
      = .ok ((b.insert? name symbol isGlobal).map Blocks.table) := by
  have htaken : decide ((b.table.find name b.table.current true).kind ≠ .invalid)
      = b.isTaken name :=
    Bool.eq_iff_iff.mpr (decide_eq_true_iff.trans (kind_find_exclusive hb))
  rw [insert, Blocks.insert?]
  simp only [htaken]
  split
  · rfl
  · cases isGlobal with
    | false => exact congrArg (Except.ok ∘ some) (add_table ⟨name, symbol, b.depth⟩)
    | true =>
      have hpath : (pathSplits [] "::".toList ("::".length + 1)).zipIdx = [(("::", ""), 0)] := by
        decide +kernel
      have hentry :
          ({ name := "" ++ name, symbol, scope := ⟨"::", .ofNat 0, .ofNat 0⟩ } : Entry)
          = Declaration.entry ⟨name, symbol, 0⟩ := by
        rw [String.empty_append]
        rfl
      have hlength : ¬"::".length < 2 := by decide
      rw [if_neg (by decide)]
      refine (if_neg hlength).trans ?_
      show Except.ok
        (some (List.foldl _ b.table (pathSplits [] "::".toList ("::".length + 1)).zipIdx)) = _
      rw [hpath, List.foldl_cons, List.foldl_nil, hentry, add_table]
      rfl

theorem enterScope_table (b : Blocks) : b.table.enterScope = b.enter.table := by
  simp [enterScope, Blocks.table, Blocks.enter, UInt32.ofNat_add]

/-- Leaving a block drops what was declared in it. -/
theorem leaveScope_table (hb : b.IsNested) (hdepth : 0 < b.depth) :
    b.table.leaveScope = b.leave.table := by
  have hlevel : UInt32.ofNat b.depth - 1 = UInt32.ofNat (b.depth - 1) := by
    obtain ⟨d, hd⟩ := Nat.exists_eq_succ_of_ne_zero hdepth.ne'
    rw [hd, Nat.succ_sub_one, Nat.succ_eq_add_one, UInt32.ofNat_add]
    exact UInt32.add_sub_cancel _ _
  have hkept : b.table.entries.filter (fun e => !e.isLocalFrom b.table.current.level)
      = ((b.declared.filter (·.depth < b.depth)).map Declaration.entry).reverse := by
    rw [Blocks.table, List.filter_reverse, List.filter_map]
    refine congrArg (fun xs => (List.map Declaration.entry xs).reverse)
      (List.filter_congr fun x hx => ?_)
    have hroom : x.depth < 2 ^ 32 := (hb.depth_le x hx).trans_lt hb.room
    have hlocal : x.entry.isLocalFrom (.ofNat b.depth) = true ↔ b.depth ≤ x.depth := by
      simp only [Entry.isLocalFrom, Bool.and_eq_true, decide_eq_true_eq]
      show UInt32.ofNat 0 < UInt32.ofNat x.depth
        ∧ UInt32.ofNat b.depth ≤ UInt32.ofNat x.depth ↔ _
      rw [ofNat_lt_ofNat (by decide) hroom, ofNat_le_ofNat hb.room hroom]
      omega
    rw [Function.comp_apply, Bool.eq_iff_iff, Bool.not_eq_true', Bool.eq_false_iff, ne_eq, hlocal,
      decide_eq_true_iff, not_le]
  rw [leaveScope, hkept]
  show SymbolTable.mk ⟨"::", UInt32.ofNat b.depth - 1, 0⟩ _ = _
  rw [hlevel]
  rfl

/-- Whether an action is one on blocks that leads to a depth. -/
theorem depth?_eq_some (h : a.depth? floor d = some d') :
    (a = .enterScope ∧ d + 1 < 2 ^ 32 ∧ d' = d + 1)
      ∨ (a = .leaveScope ∧ floor < d ∧ d' = d - 1)
      ∨ ∃ name symbol isGlobal, a = .insert name symbol isGlobal
        ∧ IsDeclarable symbol ∧ d' = d := by
  cases a with
  | enterScope =>
    obtain ⟨hroom, heq⟩ := Option.ite_none_right_eq_some.mp h
    exact .inl ⟨rfl, hroom, (Option.some.inj heq).symm⟩
  | leaveScope =>
    obtain ⟨hfloor, heq⟩ := Option.ite_none_right_eq_some.mp h
    exact .inr (.inl ⟨rfl, hfloor, (Option.some.inj heq).symm⟩)
  | insert name symbol isGlobal =>
    obtain ⟨hsymbol, heq⟩ := Option.ite_none_right_eq_some.mp h
    exact .inr (.inr ⟨name, symbol, isGlobal, rfl, hsymbol, (Option.some.inj heq).symm⟩)
  | enterNamespace => cases h
  | leaveNamespace => cases h

theorem insert?_eq_some {b' : Blocks} (h : b.insert? name symbol isGlobal = some b') :
    b' = { b with declared := ⟨name, symbol, if isGlobal then 0 else b.depth⟩
                    :: b.declared } := by
  rw [Blocks.insert?] at h
  split at h
  · cases h
  · exact (Option.some.inj h).symm

theorem Blocks.IsNested.insert {b' : Blocks} (hb : b.IsNested) (hsymbol : IsDeclarable symbol)
    (h : b.insert? name symbol isGlobal = some b') : b'.IsNested := by
  obtain rfl := insert?_eq_some h
  refine ⟨hb.room, fun x hx => ?_, fun x hx => ?_⟩
  · rcases List.mem_cons.mp hx with rfl | hx
    · show (if isGlobal then 0 else b.depth) ≤ b.depth
      split
      · exact Nat.zero_le _
      · exact le_refl _
    · exact hb.depth_le x hx
  · rcases List.mem_cons.mp hx with rfl | hx
    · exact hsymbol
    · exact hb.declarable x hx

/-- An action on a table is one on its blocks. -/
theorem act_table (hb : b.IsNested) (h : a.depth? floor b.depth = some d') :
    a.apply b.table = .ok (b.act a).table ∧ (b.act a).depth = d' ∧ (b.act a).IsNested := by
  rcases depth?_eq_some h with ⟨rfl, hroom, rfl⟩ | ⟨rfl, hfloor, rfl⟩
    | ⟨name, symbol, isGlobal, rfl, hsymbol, rfl⟩
  · refine ⟨congrArg Except.ok (enterScope_table b), rfl, hroom, fun x hx => ?_, hb.declarable⟩
    exact (hb.depth_le x hx).trans (Nat.le_succ _)
  · refine ⟨congrArg Except.ok (leaveScope_table hb (Nat.zero_lt_of_lt hfloor)), rfl, ?_,
      fun x hx => ?_, fun x hx => ?_⟩
    · exact (Nat.sub_le _ _).trans_lt hb.room
    · exact Nat.le_sub_one_of_lt (of_decide_eq_true (List.mem_filter.mp hx).2)
    · exact hb.declarable x (List.mem_of_mem_filter hx)
  · rw [Action.apply, insert_table hb]
    cases hinsert : b.insert? name symbol isGlobal with
    | none =>
      have hact : b.act (.insert name symbol isGlobal) = b := congrArg (Option.getD · b) hinsert
      rw [hact]
      exact ⟨rfl, rfl, hb⟩
    | some b' =>
      have hact : b.act (.insert name symbol isGlobal) = b' := congrArg (Option.getD · b) hinsert
      rw [hact]
      refine ⟨rfl, ?_, hb.insert hsymbol hinsert⟩
      rw [insert?_eq_some hinsert]

/-- Actions on a table are actions on its blocks. -/
theorem run_table (hb : b.IsNested) (h : depthBehind? floor b.depth as = some d') :
    b.table.run as = .ok (b.run as).table ∧ (b.run as).depth = d' ∧ (b.run as).IsNested := by
  induction as generalizing b with
  | nil =>
    obtain rfl := Option.some.inj h
    exact ⟨rfl, rfl, hb⟩
  | cons a as ih =>
    obtain ⟨d, hd, hrest⟩ := Option.bind_eq_some_iff.mp h
    obtain ⟨happly, rfl, hnested⟩ := act_table hb hd
    obtain ⟨hrun, hdepth, hnested'⟩ := ih hnested hrest
    exact ⟨run_cons.mpr ⟨_, happly, hrun⟩, hdepth, hnested'⟩

/-- The entries for the declarations outside of a depth. -/
def Blocks.outside (b : Blocks) (floor : Nat) : List Entry :=
  ((b.declared.filter (·.depth < floor)).map Declaration.entry).reverse

/-- An action inside of a depth adds a global outside of it, or nothing. -/
theorem outside_act (hb : b.IsNested) (hfloor : 0 < floor) (hle : floor ≤ b.depth)
    (h : a.depth? floor b.depth = some d') :
    (b.act a).outside floor = b.outside floor ++ b.table.newGlobal a := by
  rcases depth?_eq_some h with ⟨rfl, -, -⟩ | ⟨rfl, hdeeper, -⟩
    | ⟨name, symbol, isGlobal, rfl, -, -⟩
  · exact (List.append_nil _).symm
  · refine Eq.trans ?_ (List.append_nil _).symm
    show b.leave.outside floor = b.outside floor
    rw [Blocks.outside, Blocks.outside, Blocks.leave, List.filter_filter]
    refine congrArg (fun xs => (List.map Declaration.entry xs).reverse)
      (List.filter_congr fun x _ => ?_)
    rw [← Bool.decide_and, decide_eq_decide]
    exact ⟨And.left, fun hx => ⟨hx, hx.trans hdeeper⟩⟩
  · have hinsert : b.table.insert name symbol isGlobal = _ := insert_table hb
    rw [Blocks.act]
    cases hnew : b.insert? name symbol isGlobal with
    | none =>
      rw [Option.getD_none]
      rw [hnew, Option.map_none] at hinsert
      cases isGlobal with
      | false => exact (List.append_nil _).symm
      | true => rw [newGlobal, hinsert, List.append_nil]
    | some b' =>
      rw [hnew, Option.map_some] at hinsert
      rw [Option.getD_some, insert?_eq_some hnew, Blocks.outside, Blocks.outside, List.filter_cons]
      cases isGlobal with
      | false =>
        -- What is declared in the innermost block is not outside.
        have hinside : decide (b.depth < floor) = false := decide_eq_false (Nat.not_lt.mpr hle)
        simp only [Bool.false_eq_true, if_false, hinside]
        exact (List.append_nil _).symm
      | true =>
        have hglobal : decide (0 < floor) = true := decide_eq_true hfloor
        rw [newGlobal, hinsert]
        simp only [if_true, hglobal, List.map_cons, List.reverse_cons]
        rfl

/-- Actions inside of a depth add globals outside of it, and nothing else. -/
theorem outside_run (hb : b.IsNested) (hfloor : 0 < floor) (hle : floor ≤ b.depth)
    (h : depthBehind? floor b.depth as = some d') :
    b.outside floor ++ b.table.addedGlobals as = (b.run as).outside floor := by
  induction as generalizing b with
  | nil => exact List.append_nil _
  | cons a as ih =>
    obtain ⟨d, hd, hrest⟩ := Option.bind_eq_some_iff.mp h
    obtain ⟨happly, rfl, hnested⟩ := act_table hb hd
    have hle' : floor ≤ (b.act a).depth := by
      rcases depth?_eq_some hd with ⟨-, -, heq⟩ | ⟨-, hdeeper, heq⟩
        | ⟨_, _, _, -, -, heq⟩ <;> omega
    have hlater := ih hnested hle' hrest
    rw [outside_act hb hfloor hle hd, List.append_assoc] at hlater
    rw [addedGlobals, happly]
    exact hlater

theorem outside_eq_entries (hb : b.IsNested) (h : b.depth < floor) :
    b.outside floor = b.table.entries := by
  have hall : b.declared.filter (·.depth < floor) = b.declared :=
    List.filter_eq_self.mpr fun x hx => decide_eq_true ((hb.depth_le x hx).trans_lt h)
  rw [Blocks.outside, hall]
  rfl

theorem run_append {t t' : SymbolTable} {as as' : List Action} :
    t.run (as ++ as') = .ok t' ↔ ∃ next, t.run as = .ok next ∧ next.run as' = .ok t' := by
  rw [run, List.foldlM_append, except_bind_eq_ok]
  rfl

/-- A block that is entered and left again leaves the globals that were declared in it. -/
theorem run_block (hb : b.IsNested) (hroom : b.depth + 1 < 2 ^ 32)
    (h : depthBehind? (b.depth + 1) (b.depth + 1) as = some (b.depth + 1)) :
    ∃ t, b.table.run (.enterScope :: (as ++ [Action.leaveScope])) = .ok t
      ∧ t.current = b.table.current
      ∧ t.entries = b.table.entries ++ b.table.enterScope.addedGlobals as := by
  have henter : Action.enterScope.depth? b.depth b.depth = some (b.depth + 1) := if_pos hroom
  obtain ⟨hentered, -, hinner⟩ := act_table hb henter
  obtain ⟨hrun, hdepth, hnested⟩ := run_table (b := b.enter) hinner h
  have hleave : Action.leaveScope.depth? b.depth (b.enter.run as).depth = some b.depth := by
    rw [hdepth]
    exact if_pos (Nat.lt_succ_self _)
  obtain ⟨hleft, hback, -⟩ := act_table hnested hleave
  refine ⟨(b.enter.run as).leave.table, ?_, ?_, ?_⟩
  · exact run_cons.mpr ⟨_, hentered,
      run_append.mpr ⟨_, hrun, run_cons.mpr ⟨_, hleft, rfl⟩⟩⟩
  · show Scope.mk _ (.ofNat (b.enter.run as).leave.depth) _ = _
    rw [show (b.enter.run as).leave.depth = b.depth from hback]
    rfl
  · have houtside := outside_run (b := b.enter) hinner (Nat.succ_pos _) (le_refl _) h
    have hsame : b.enter.outside (b.depth + 1) = b.table.entries :=
      outside_eq_entries (b := b) hb (Nat.lt_succ_self _)
    rw [enterScope_table, ← hsame, houtside]
    show (b.enter.run as).outside (b.enter.run as).depth = _
    rw [hdepth]

theorem Blocks.IsLayered.act (hb : b.IsNested) (hlayered : b.IsLayered)
    (h : GlobalsOutside b.depth (a :: as)) :
    (b.act a).IsLayered ∧ GlobalsOutside (b.act a).depth as := by
  cases a with
  | enterScope => exact ⟨hlayered, h⟩
  | leaveScope => exact ⟨hlayered.filter _, h⟩
  | enterNamespace => exact ⟨hlayered, h⟩
  | leaveNamespace => exact ⟨hlayered, h⟩
  | insert name symbol isGlobal =>
    obtain ⟨hglobal, hrest⟩ := h
    cases hinsert : b.insert? name symbol isGlobal with
    | none =>
      have hact : b.act (.insert name symbol isGlobal) = b := congrArg (Option.getD · b) hinsert
      rw [hact]
      exact ⟨hlayered, hrest⟩
    | some b' =>
      have hact : b.act (.insert name symbol isGlobal) = b' := congrArg (Option.getD · b) hinsert
      rw [hact, insert?_eq_some hinsert]
      refine ⟨List.pairwise_cons.mpr ⟨fun x hx hvalue _ => ?_, hlayered⟩, hrest⟩
      -- A value is declared in the innermost block, and no other declaration is deeper.
      have hinnermost : (if isGlobal then 0 else b.depth) = b.depth := by
        split
        · rcases hglobal ‹_› with hzero | hfunction
          · exact hzero.symm
          · rw [Symbol.isValue, hfunction] at hvalue
            cases hvalue
        · rfl
      show x.depth ≤ if isGlobal then 0 else b.depth
      rw [hinnermost]
      exact hb.depth_le x hx

theorem Blocks.IsLayered.run (hb : b.IsNested) (hlayered : b.IsLayered)
    (h : depthBehind? floor b.depth as = some d')
    (hglobals : GlobalsOutside b.depth as) : (b.run as).IsLayered := by
  induction as generalizing b with
  | nil => exact hlayered
  | cons a as ih =>
    obtain ⟨d, hd, hrest⟩ := Option.bind_eq_some_iff.mp h
    obtain ⟨-, rfl, hnested⟩ := act_table hb hd
    obtain ⟨hlayered', hglobals'⟩ := hlayered.act hb hglobals
    exact ih hnested hlayered' hrest hglobals'

/-- A name is taken if and only if an entry of that name is at the current level. -/
theorem isTaken_iff (hb : b.IsNested) :
    b.isTaken name = true
      ↔ ∃ e ∈ b.table.entries, e.name = name ∧ e.scope.level = b.table.current.level := by
  rw [Blocks.isTaken, List.any_eq_true]
  simp only [Blocks.table, List.mem_reverse, List.mem_map, exists_exists_and_eq_and,
    Bool.and_eq_true, decide_eq_true_eq]
  refine exists_congr fun x => and_congr_right fun hx => and_congr_right fun _ => ?_
  have hroom : x.depth < 2 ^ 32 := (hb.depth_le x hx).trans_lt hb.room
  show _ ↔ UInt32.ofNat x.depth = UInt32.ofNat b.depth
  rw [← UInt32.toNat_inj, UInt32.toNat_ofNat_of_lt' hroom, UInt32.toNat_ofNat_of_lt' hb.room]

/-- Blocks nest exactly. Behind any actions that open blocks, close open ones and declare names, the
entries of a name are ordered by the levels of their namespaces. A block that is entered and left
again leaves nothing but the globals that were declared in it. Other symbols than functions are
refused, which changes nothing, if and only if the current level has one of that name. Where globals
inside of blocks are functions, a name stands for the variable, constant or structure of the
innermost block that has one, else for the function that was declared last, else for nothing. -/
theorem blocks_nest {as : List Action} {depth : Nat} (h : depthBehind? 0 0 as = some depth) :
    ∃ t, SymbolTable.run {} as = .ok t ∧ t.current = ⟨"::", .ofNat depth, 0⟩
      ∧ Ordered t.entries
      ∧ (∀ inner, depth + 1 < 2 ^ 32 →
        depthBehind? (depth + 1) (depth + 1) inner = some (depth + 1) →
          ∃ t', t.run (.enterScope :: (inner ++ [.leaveScope])) = .ok t'
            ∧ t'.current = t.current
            ∧ t'.entries = t.entries ++ t.enterScope.addedGlobals inner)
      ∧ (∀ name symbol isGlobal, IsDeclarable symbol → symbol.kind ≠ .function →
          ∃ answer, t.insert name symbol isGlobal = .ok answer
            ∧ (Action.insert name symbol isGlobal).apply t = .ok (answer.getD t)
            ∧ (answer = none ↔ ∃ e ∈ t.entries,
              e.name = name ∧ e.scope.level = t.current.level))
      ∧ (GlobalsOutside 0 as →
        ∀ name, t.find name t.current false = (Blocks.run {} as).lookup name) := by
  have hnew : Blocks.IsNested {} :=
    ⟨by decide, fun _ hx => absurd hx List.not_mem_nil, fun _ hx => absurd hx List.not_mem_nil⟩
  obtain ⟨hrun, rfl, hb⟩ := run_table (b := {}) hnew h
  refine ⟨(Blocks.run {} as).table, hrun, rfl, (Built.new.run hrun).tidy.ordered, ?_, ?_, ?_⟩
  · exact fun inner hroom hinner => run_block hb hroom hinner
  · intro name symbol isGlobal _ hkind
    refine ⟨_, insert_table hb, ?_, ?_⟩
    · rw [Action.apply, insert_table hb]
      rfl
    · rw [← isTaken_iff hb, Option.map_eq_none_iff, Blocks.insert?, decide_eq_true hkind,
        Bool.true_and]
      simp
  · intro hglobals name
    have hlayered := Blocks.IsLayered.run hnew List.Pairwise.nil h hglobals
    have hseen : ∀ x :
        Declaration,
        (decide (x.name = name) && !(false && decide (x.depth < (Blocks.run {} as).depth)))
        = decide (x.name = name) := fun x => Bool.and_true _
    rw [find_table hb]
    simp only [hseen]
    exact nearest_declared hb hlayered

private def shadowed : Symbol := { kind := .variable, id := 1 }
private def shadowing : Symbol := { kind := .constant, id := 2 }
private def callee : Symbol := { kind := .function, id := 3 }

/-- A constant in a block, and a variable of the same name outside. -/
private def shadow : List Action :=
  [.insert "x" shadowed false, .enterScope, .insert "x" shadowing false]

/-- In the block the name stands for the constant and is taken. A block inside of it leaves the
function that is declared there for all blocks. -/
theorem blocks_nest_shadow :
    depthBehind? 0 0 shadow = some 1 ∧ GlobalsOutside 0 shadow
      ∧ IsDeclarable shadowed ∧ shadowed.kind ≠ .function
      ∧ depthBehind? 2 2 [.insert "x" shadowed false, .insert "f" callee true] = some 2
      ∧ ∃ t, SymbolTable.run {} shadow = .ok t ∧ (t.find "x" t.current false).id = 2
        ∧ t.insert "x" shadowed false = .ok none
        ∧ ∃ t', t.run [.enterScope, .insert "x" shadowed false, .insert "f" callee true,
          .leaveScope] = .ok t'
          ∧ t'.entries.length = t.entries.length + 1 := by
  have hdepth : depthBehind? 0 0 shadow = some 1 := by decide
  have hglobals : GlobalsOutside 0 shadow := ⟨nofun, nofun, trivial⟩
  have hsymbol : IsDeclarable shadowed := .inl rfl
  have hinner : depthBehind? 2 2 [.insert "x" shadowed false, .insert "f" callee true]
      = some 2 := by decide
  obtain ⟨t, hrun, -, -, hpair, hinsert, hfind⟩ := blocks_nest hdepth
  obtain ⟨t', hrun', -, hentries⟩ := hpair _ (by decide) hinner
  obtain ⟨answer, hanswer, -, hnone⟩ := hinsert "x" shadowed false hsymbol (by decide)
  obtain rfl := Except.ok.inj (hrun.symm.trans (rfl : _ = Except.ok (Blocks.run {} shadow).table))
  refine ⟨hdepth, hglobals, hsymbol, by decide, hinner, _, hrun, ?_, ?_, _, hrun', ?_⟩
  · rw [hfind hglobals]
    decide
  · have htaken : Declaration.entry ⟨"x", shadowing, 1⟩
        ∈ (Blocks.run {} shadow).table.entries :=
      List.mem_of_getElem? (i := 1) rfl
    rw [hanswer, hnone.mpr ⟨_, htaken, rfl, rfl⟩]
  · rw [hentries]
    rfl

end ShaderEffect.SymbolTable

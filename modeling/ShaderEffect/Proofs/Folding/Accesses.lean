import Mathlib
import ShaderEffect.Expression
import ShaderEffect.Proofs.Folding.Operators

namespace ShaderEffect

/-- A step that selects from a value. -/
inductive Selector where
  /-- An element of an array, a row of a matrix or a component of a vector. -/
  | index (i : UInt32)
  /-- Components by row and column, in any order. -/
  | swizzle (places : List (Nat × Nat))
  /-- A conversion that drops nothing. -/
  | widen (target : Ty)

namespace Selector

/-- The number by which a swizzle names a component. Matrices have four numbers to a row. -/
def laneNumber (t : Ty) (place : Nat × Nat) : Int :=
  if t.isMatrix then place.1 * 4 + place.2 else place.1

/-- The step as it is folded. -/
def apply (e : Expression) : Selector → Except Fault Expression
  | index i => e.addConstantIndex i
  | swizzle places => e.addSwizzle (places.map (laneNumber e.type)) (UInt32.ofNat places.length)
  | widen target => e.addCast target

/-- Whether a type allows a step: indices are in range, swizzles select existing components, and
conversions keep the shape, lengthen a vector or fill all components from a scalar. Any index is in
range where the length of an array is not known. -/
def Fits (t : Ty) : Selector → Prop
  | index i =>
    if t.isArray then 0 ≤ t.arrayLength → i.toNat < t.arrayLength
    else (t.isVector ∨ t.isMatrix) ∧ i.toNat < t.rows.toNat
  | swizzle places =>
    t.isArray = false ∧ (t.isVector ∨ t.isMatrix)
      ∧ 1 ≤ places.length ∧ places.length ≤ 4
      ∧ ∀ p ∈ places, p.1 < t.rows.toNat ∧ p.2 < t.cols.toNat
  | widen target =>
    target.IsNumbers ∧ target.arrayLength = t.arrayLength ∧ target.definition = t.definition
      ∧ ((target.rows = t.rows ∧ target.cols = t.cols)
        ∨ (t.isArray = false ∧ t.cols = 1
          ∧ (t.rows = 1 ∨ (t.rows.toNat ≤ target.rows.toNat ∧ target.cols = 1))))

/-- The type behind a step, without modifiers. -/
def target (t : Ty) : Selector → Ty
  | index _ =>
    if t.isArray then t.element
    else if t.isMatrix then { t with rows := t.cols, cols := 1 }
    else { t with rows := 1 }
  | swizzle places => { t with rows := UInt32.ofNat places.length, cols := 1 }
  | widen target => target.plain

/-- What becomes of a component in a conversion. Components that stay what they are keep their word,
but truth values that fill a matrix are written anew. -/
def converted (t target : Ty) (x : UInt32) : UInt32 :=
  if t.base = target.base ∧ t.cols = target.cols then x else Constant.convertLane t target x

/-- The components behind a step. A row that is selected from a matrix is a vector, and what a
conversion adds repeats the last component. -/
def entries (t : Ty) (v : Entries) : Selector → Entries
  | index i =>
    if t.isArray then fun _ => v i.toNat
    else if t.isMatrix then fun element row _ => v element i.toNat row
    else fun element _ column => v element i.toNat column
  | swizzle places =>
    fun element row _ => v element (places.getD row (0, 0)).1 (places.getD row (0, 0)).2
  | widen target => fun element row column =>
    converted t target (v element (min row (t.rows.toNat - 1)) (min column (t.cols.toNat - 1)))

/-- Whether a type allows some steps, one after the other. -/
def FitAll (t : Ty) : List Selector → Prop
  | [] => True
  | s :: rest => s.Fits t ∧ FitAll (s.target t) rest

/-- The type and the components behind some steps. -/
def evaluate (t : Ty) (v : Entries) : List Selector → Ty × Entries
  | [] => (t, v)
  | s :: rest => evaluate (s.target t) (s.entries t v) rest

end Selector

/-- An expression is a constant with the given type, but for its modifiers, and components. -/
structure Expression.Denotes (e : Expression) (t : Ty) (v : Entries) : Prop where
  isConstant : e.isConstant = true
  type : e.type.plain = t
  entries : ∀ element row column, row < t.rows.toNat → column < t.cols.toNat →
    e.value.entries t element row column = v element row column

namespace Ty

variable {t : Ty}

/-- Selecting from numbers gives numbers. -/
theorem IsNumbers.target (ht : t.IsNumbers) {s : Selector} (hs : s.Fits t) :
    (s.target t).IsNumbers := by
  have hone : 1 ≤ (1 : UInt32).toNat ∧ (1 : UInt32).toNat ≤ 4 := by decide
  cases s with
  | index i =>
    rw [Selector.target]
    split
    · exact ht.element
    · split
      · exact ⟨ht.numeric, ht.cols, hone⟩
      · exact ⟨ht.numeric, hone, ht.cols⟩
  | swizzle places =>
    obtain ⟨-, -, hpos, hfour, -⟩ := hs
    have hlength : (UInt32.ofNat places.length).toNat = places.length := by
      rw [UInt32.toNat_ofNat', Nat.mod_eq_of_lt (by omega)]
    refine ⟨ht.numeric, ?_, hone⟩
    rw [Selector.target, hlength]
    exact ⟨hpos, hfour⟩
  | widen target =>
    obtain ⟨htarget, -⟩ := hs
    exact ⟨htarget.numeric, htarget.rows, htarget.cols⟩

end Ty

namespace Expression

variable {e : Expression} {t : Ty} {v : Entries}

theorem Denotes.congr {w : Entries} (h : e.Denotes t v)
    (hw : ∀ element row column, row < t.rows.toNat → column < t.cols.toNat →
      v element row column = w element row column) : e.Denotes t w where
  isConstant := h.isConstant
  type := h.type
  entries := fun element row column hrow hcolumn =>
    (h.entries element row column hrow hcolumn).trans (hw element row column hrow hcolumn)

/-- A swizzle of existing lanes picks them from a constant. -/
theorem addSwizzle_constant (he : e.isConstant = true) {lanes : List Int} {length : UInt32}
    (hlength : lanes.length = length.toNat)
    (hlanes : ∀ l ∈ lanes, 0 ≤ storageLane e.type l ∧ storageLane e.type l < 16) :
    e.addSwizzle lanes length = .ok { e with
      type := { e.type with rows := length, cols := 1 }
      value :=
        { lanes := .ofList (lanes.map fun l =>
            e.value.lanes.lane (storageLane e.type l).toNat) } } := by
  have hpicked : lanes.mapM (fun l => e.value.lanes.get? (storageLane e.type l))
      = .ok (lanes.map fun l => e.value.lanes.lane (storageLane e.type l).toNat) :=
    mapM_eq_ok fun l hl => Lanes.get?_lane (hlanes l hl).1 (hlanes l hl).2
  rw [addSwizzle, if_pos he, if_neg (by omega), ← hlength, List.take_length]
  simp only [hpicked]
  rfl

/-- Matrices have rows of four numbers and rows of as many lanes as there are columns. -/
theorem storageLane_laneNumber (ht : t.IsNumbers) {p : Nat × Nat} (hp : p.2 < t.cols.toNat) :
    storageLane t (Selector.laneNumber t p) = (p.1 * t.cols.toNat + p.2 : Nat) := by
  rw [storageLane, Selector.laneNumber]
  by_cases hmatrix : t.isMatrix = true
  · have hfour : t.cols.toNat ≤ 4 := ht.cols.2
    have hrow : ((p.1 : Int) * 4 + p.2).tdiv 4 = p.1 := by
      rw [Int.tdiv_eq_ediv_of_nonneg (by omega)]
      omega
    have hcolumn : ((p.1 : Int) * 4 + p.2).tmod 4 = p.2 := by
      rw [Int.tmod_eq_emod_of_nonneg (by omega)]
      omega
    rw [if_pos hmatrix, if_pos hmatrix, hrow, hcolumn]
    push_cast
    rfl
  · have hone : t.cols.toNat = 1 := ht.cols_of_not_matrix (Bool.eq_false_iff.mpr hmatrix)
    rw [if_neg hmatrix, if_neg hmatrix, hone]
    omega

/-- Picking existing components, in any order. -/
theorem Denotes.pick (h : e.Denotes t v) (ht : t.IsNumbers) (harray : t.isArray = false)
    {places : List (Nat × Nat)} (hfour : places.length ≤ 4)
    (hplaces : ∀ p ∈ places, p.1 < t.rows.toNat ∧ p.2 < t.cols.toNat) :
    ∃ e', e.addSwizzle (places.map (Selector.laneNumber e.type)) (UInt32.ofNat places.length)
      = .ok e' ∧ e'.Denotes { t with rows := UInt32.ofNat places.length, cols := 1 }
        fun element row _ =>
        v element (places.getD row (0, 0)).1 (places.getD row (0, 0)).2 := by
  obtain ⟨he, rfl, hv⟩ := h
  have hlength : (UInt32.ofNat places.length).toNat = places.length := by
    rw [UInt32.toNat_ofNat', Nat.mod_eq_of_lt (by omega)]
  have hstorage : ∀ p ∈ places, storageLane e.type (Selector.laneNumber e.type p)
      = (p.1 * e.type.cols.toNat + p.2 : Nat) :=
    fun p hp => storageLane_laneNumber ht (hplaces p hp).2
  have hlanes : ∀ l ∈ places.map (Selector.laneNumber e.type),
      0 ≤ storageLane e.type l ∧ storageLane e.type l < 16 := by
    intro l hl
    obtain ⟨p, hp, rfl⟩ := List.mem_map.mp hl
    have hlt : p.1 * e.type.cols.toNat + p.2 < 16 :=
      (ht.place_lt (hplaces p hp).1 (hplaces p hp).2).trans_le ht.components_le
    rw [hstorage p hp]
    omega
  refine ⟨_, addSwizzle_constant he (by rw [List.length_map, hlength]) hlanes, he, rfl, ?_⟩
  intro element row column hrow hcolumn
  have hrow : row < places.length := Nat.lt_of_lt_of_eq hrow hlength
  have hmem : places[row] ∈ places := List.getElem_mem hrow
  have hget : places.getD row (0, 0) = places[row] := List.getD_eq_getElem _ _ hrow
  have hlist : ((places.map (Selector.laneNumber e.type)).map fun l =>
      e.value.lanes.lane (storageLane e.type l).toNat).length ≤ 16 := by
    rw [List.length_map, List.length_map]
    omega
  calc Constant.entries _ _ element row column
    _ = ((places.map (Selector.laneNumber e.type)).map fun l =>
          e.value.lanes.lane (storageLane e.type l).toNat).getD row 0 :=
      Constant.entries_ofList
        (t := { e.type.plain with rows := UInt32.ofNat places.length, cols := 1 }) hlist
        harray rfl element row hcolumn
    _ = e.value.lanes.lane (places[row].1 * e.type.cols.toNat + places[row].2) := by
      rw [List.map_map, getD_map_of_lt hrow, Function.comp, hstorage _ hmem, Int.toNat_natCast]
    _ = v element places[row].1 places[row].2 := by
      rw [← hv element _ _ (hplaces _ hmem).1 (hplaces _ hmem).2,
        Constant.entries_of_not_array harray]
      rfl
    _ = v element (places.getD row (0, 0)).1 (places.getD row (0, 0)).2 := by rw [hget]

theorem addConstantIndex_constant (he : e.isConstant = true) {i : UInt32} {c : Constant}
    (hc : constantAt e.type e.value i = .ok c) :
    e.addConstantIndex i = .ok { e with value := c, type := e.type.indexed } := by
  rw [addConstantIndex, if_pos he, hc]
  rfl

theorem Denotes.element (h : e.Denotes t v) (harray : t.isArray = true) (i : UInt32) :
    ∃ e', e.addConstantIndex i = .ok e' ∧ e'.Denotes t.element fun _ => v i.toNat := by
  obtain ⟨he, rfl, hv⟩ := h
  have hvalue : constantAt e.type e.value i = .ok (e.value.elements.getD i.toNat {}) :=
    if_pos harray
  have htype : e.type.indexed = e.type.element := if_pos harray
  refine ⟨_, addConstantIndex_constant he hvalue, he, congrArg Ty.plain htype, ?_⟩
  intro element row column hrow hcolumn
  have hnew : e.type.plain.element.isArray = false := rfl
  rw [Constant.entries_of_not_array hnew, ← hv i.toNat row column hrow hcolumn, Constant.entries,
    if_pos harray]
  rfl

/-- The lanes of a matrix row have consecutive numbers, which do not wrap for rows in range. -/
theorem constantAt_matrix (ht : t.IsNumbers) (harray : t.isArray = false)
    (hmatrix : t.isMatrix = true) {c : Constant} {i : UInt32} (hi : i.toNat < t.rows.toNat) :
    constantAt t c i = .ok
      { lanes := .ofList ((List.range t.cols.toNat).map fun k =>
          c.lanes.lane (i.toNat * t.cols.toNat + k)) } := by
  have hrow : ∀ k ∈ List.range t.cols.toNat, c.lanes.get? (i * t.cols + UInt32.ofNat k).toNat
      = .ok (c.lanes.lane (i.toNat * t.cols.toNat + k)) := by
    intro k hk
    have hlt : i.toNat * t.cols.toNat + k < 16 :=
      (ht.place_lt hi (List.mem_range.mp hk)).trans_le ht.components_le
    have hnumber : (i * t.cols + UInt32.ofNat k).toNat = i.toNat * t.cols.toNat + k := by
      rw [UInt32.toNat_add, UInt32.toNat_mul, UInt32.toNat_ofNat', Nat.mod_add_mod, Nat.add_mod_mod]
      omega
    rw [hnumber, Lanes.get?_lane (by omega) (by omega), Int.toNat_natCast]
  have hcols : ¬t.cols > 16 :=
    UInt32.not_lt.mpr (UInt32.le_iff_toNat_le.mpr (ht.cols.2.trans (by decide)))
  rw [constantAt, if_neg (by rw [harray]; nofun), if_pos hmatrix, if_neg hcols, mapM_eq_ok hrow]
  rfl

theorem Denotes.row (h : e.Denotes t v) (ht : t.IsNumbers) (harray : t.isArray = false)
    (hmatrix : t.isMatrix = true) {i : UInt32} (hi : i.toNat < t.rows.toNat) :
    ∃ e', e.addConstantIndex i = .ok e'
      ∧ e'.Denotes { t with rows := t.cols, cols := 1 } fun element row _ =>
        v element i.toNat row := by
  obtain ⟨he, rfl, hv⟩ := h
  have hvalue := constantAt_matrix (t := e.type) ht.of_plain harray hmatrix (c := e.value) hi
  have htype : e.type.indexed = { e.type with rows := e.type.cols, cols := 1 } := by
    have hnot : ¬e.type.isArray = true := Bool.eq_false_iff.mp harray
    rw [Ty.indexed, if_neg hnot]
    exact if_pos hmatrix
  refine ⟨_, addConstantIndex_constant he hvalue, he, congrArg Ty.plain htype, ?_⟩
  intro element row column hrow hcolumn
  have hrow : row < e.type.cols.toNat := hrow
  have hlist : ((List.range e.type.cols.toNat).map fun k =>
      e.value.lanes.lane (i.toNat * e.type.cols.toNat + k)).length ≤ 16 := by
    have hle : e.type.cols.toNat ≤ 4 := ht.cols.2
    rw [List.length_map, List.length_range]
    omega
  calc Constant.entries _ _ element row column
    _ = ((List.range e.type.cols.toNat).map fun k =>
          e.value.lanes.lane (i.toNat * e.type.cols.toNat + k)).getD row 0 :=
      Constant.entries_ofList (t := { e.type.plain with rows := e.type.cols, cols := 1 }) hlist
        harray rfl element row hcolumn
    _ = e.value.lanes.lane (i.toNat * e.type.cols.toNat + row) := by
      rw [getD_map_of_lt (hrow.trans_eq List.length_range.symm), List.getElem_range]
    _ = v element i.toNat row := by
      rw [← hv element i.toNat row hi hrow, Constant.entries_of_not_array harray]
      rfl

theorem Denotes.component (h : e.Denotes t v) (ht : t.IsNumbers) (harray : t.isArray = false)
    (hmatrix : t.isMatrix = false) (hvector : t.isVector = true) {i : UInt32}
    (hi : i.toNat < t.rows.toNat) :
    ∃ e', e.addConstantIndex i = .ok e'
      ∧ e'.Denotes { t with rows := 1 } fun element _ column => v element i.toNat column := by
  obtain ⟨he, rfl, hv⟩ := h
  have hone : e.type.cols.toNat = 1 := ht.cols_of_not_matrix hmatrix
  have hnotArray : ¬e.type.isArray = true := Bool.eq_false_iff.mp harray
  have hnotMatrix : ¬e.type.isMatrix = true := Bool.eq_false_iff.mp hmatrix
  have hmask : (i &&& 15).toNat = i.toNat := by
    have hlt : i.toNat < 16 := Nat.lt_of_lt_of_le hi (ht.rows.2.trans (by decide))
    rw [UInt32.toNat_and]
    exact (Nat.and_two_pow_sub_one_eq_mod i.toNat 4).trans (Nat.mod_eq_of_lt hlt)
  have hvalue : constantAt e.type e.value i = .ok (.ofWord (e.value.lanes.lane i.toNat)) := by
    rw [constantAt, if_neg hnotArray, if_neg hnotMatrix, hmask]
    rfl
  have htype : e.type.indexed = { e.type with rows := 1 } := by
    rw [Ty.indexed, if_neg hnotArray, if_neg hnotMatrix]
    exact if_pos hvector
  refine ⟨_, addConstantIndex_constant he hvalue, he, congrArg Ty.plain htype, ?_⟩
  intro element row column hrow hcolumn
  have hrow : row = 0 := Nat.lt_one_iff.mp hrow
  have hplace : i.toNat * e.type.plain.cols.toNat + column = i.toNat := by
    have hlt : column < 1 := Nat.lt_of_lt_of_eq hcolumn hone
    have hmul : i.toNat * e.type.plain.cols.toNat = i.toNat :=
      (congrArg (i.toNat * ·) hone).trans (Nat.mul_one _)
    omega
  calc Constant.entries _ (.ofWord (e.value.lanes.lane i.toNat)) element row column
    _ = [e.value.lanes.lane i.toNat].getD row 0 :=
      Constant.entries_ofList (t := { e.type.plain with rows := 1 }) (Nat.le_of_ble_eq_true rfl)
        harray hone element row hcolumn
    _ = e.value.lanes.lane i.toNat := by rw [hrow]; rfl
    _ = v element i.toNat column := by
      rw [← hv element i.toNat column hi hcolumn, Constant.entries_of_not_array harray, hplace]

theorem Denotes.index (h : e.Denotes t v) (ht : t.IsNumbers) {i : UInt32}
    (hs : (Selector.index i).Fits t) :
    ∃ e', (Selector.index i).apply e = .ok e'
      ∧ e'.Denotes ((Selector.index i).target t) ((Selector.index i).entries t v) := by
  rw [Selector.apply, Selector.target, Selector.entries]
  by_cases harray : t.isArray = true
  · rw [if_pos harray, if_pos harray]
    exact h.element harray i
  · have hnot : t.isArray = false := Bool.eq_false_iff.mpr harray
    rw [Selector.Fits, if_neg harray] at hs
    rw [if_neg harray, if_neg harray]
    obtain ⟨hkind, hi⟩ := hs
    by_cases hmatrix : t.isMatrix = true
    · rw [if_pos hmatrix, if_pos hmatrix]
      exact h.row ht hnot hmatrix hi
    · rw [if_neg hmatrix, if_neg hmatrix]
      exact h.component ht hnot (Bool.eq_false_iff.mpr hmatrix) (hkind.resolve_right hmatrix) hi

/-- The lanes of a longer vector are those that there are, the last of them repeated. -/
theorem resizeLanes_eq {source target : UInt32} (hsource : 1 ≤ source.toNat)
    (hlt : source.toNat < target.toNat) (htarget : target.toNat ≤ 4) :
    resizeLanes source target
      = .ok ((List.range target.toNat).map fun k => ((min k (source.toNat - 1) : Nat) : Int)) := by
  have hlonger : source < target := UInt32.lt_iff_toNat_lt.mpr hlt
  have hsizes : ¬(source = 0 ∨ target > 4) := by
    rintro (rfl | h)
    · exact absurd hsource (by decide)
    · exact UInt32.not_lt.mpr (UInt32.le_iff_toNat_le.mpr htarget) h
  have hadded : (target - source).toNat = target.toNat - source.toNat :=
    UInt32.toNat_sub_of_le _ _ (UInt32.le_of_lt hlonger)
  rw [resizeLanes, if_pos hlonger, if_neg (by simpa using hsizes), hadded]
  refine congrArg Except.ok (List.ext_getElem ?_ fun k hk hk' => ?_)
  · simp only [List.length_append, List.length_map, List.length_range, List.length_replicate]
    omega
  · rw [List.getElem_append, List.getElem_map, List.getElem_range]
    split
    · rename_i hold
      rw [List.length_map, List.length_range] at hold
      rw [List.getElem_map, List.getElem_range]
      exact congrArg Int.ofNat (by omega)
    · rename_i hnew
      rw [List.length_map, List.length_range] at hnew
      rw [List.getElem_replicate]
      omega

/-- The places of a longer vector: those that there are, the last of them repeated. -/
def lengthened (rows n : Nat) : List (Nat × Nat) :=
  (List.range n).map fun k => (min k (rows - 1), 0)

theorem length_lengthened (rows n : Nat) : (lengthened rows n).length = n := by
  rw [lengthened, List.length_map, List.length_range]

theorem getD_lengthened {rows n k : Nat} (hk : k < n) :
    (lengthened rows n).getD k (0, 0) = (min k (rows - 1), 0) := by
  rw [lengthened, getD_map_of_lt (hk.trans_eq List.length_range.symm), List.getElem_range]

/-- A vector is lengthened by a swizzle. -/
theorem Denotes.lengthen (h : e.Denotes t v) (ht : t.IsNumbers) (harray : t.isArray = false)
    (hmatrix : t.isMatrix = false) {n : UInt32} (hlt : t.rows.toNat < n.toNat)
    (hn : n.toNat ≤ 4) :
    ∃ e', (resizeLanes e.type.rows n >>= fun lanes => e.addSwizzle lanes n) = .ok e'
      ∧ e'.Denotes { t with rows := n, cols := 1 } fun element row column =>
        v element (min row (t.rows.toNat - 1)) (min column (t.cols.toNat - 1)) := by
  have hcols : t.cols.toNat = 1 := ht.cols_of_not_matrix hmatrix
  have hpos : 1 ≤ t.rows.toNat := ht.rows.1
  have hresize : resizeLanes e.type.rows n
      = .ok ((lengthened t.rows.toNat n.toNat).map (Selector.laneNumber e.type)) := by
    have hrows : e.type.rows = t.rows := by rw [← h.type, Ty.plain]
    have hvector : ¬e.type.isMatrix = true := by
      rw [← h.type] at hmatrix
      exact Bool.eq_false_iff.mp hmatrix
    rw [hrows, resizeLanes_eq hpos hlt hn, lengthened, List.map_map]
    refine congrArg Except.ok (List.map_congr_left fun k hk => ?_)
    rw [Function.comp, Selector.laneNumber, if_neg hvector]
  have hplaces :
      ∀ p ∈ lengthened t.rows.toNat n.toNat, p.1 < t.rows.toNat ∧ p.2 < t.cols.toNat := by
    intro p hp
    obtain ⟨k, hk, rfl⟩ := List.mem_map.mp hp
    have hrow : min k (t.rows.toNat - 1) < t.rows.toNat := by omega
    have hcolumn : 0 < t.cols.toNat := by omega
    exact ⟨hrow, hcolumn⟩
  have hlength : (lengthened t.rows.toNat n.toNat).length = n.toNat := length_lengthened _ _
  obtain ⟨e', hswizzle, hpicked⟩ := h.pick ht harray (hlength.trans_le hn) hplaces
  rw [hlength, UInt32.ofNat_toNat] at hswizzle hpicked
  refine ⟨e', ?_, hpicked.congr fun element row column hrow hcolumn => ?_⟩
  · rw [hresize]
    exact hswizzle
  · have hzero : min column (t.cols.toNat - 1) = 0 := by omega
    rw [getD_lengthened hrow, hzero]

/-- What is left of a cast when the number of rows has been seen to. -/
def castInPlace (e : Expression) (t : Ty) : Except Fault Expression :=
  if e.type.same t then pure e
  else if e.isConstant then e.value.convert e.type t
    >>= fun value => pure { e with value, type := t.readOnly }
  else pure { e.push (.cast e.type t) with type := t.readOnly }

theorem addCast_eq (t : Ty) :
    e.addCast t = (if e.type.cols = 1 && t.cols = 1 && e.type.rows ≠ t.rows && e.type.isNumeric
      && !e.type.isArray then
          resizeLanes e.type.rows t.rows >>= fun lanes => e.addSwizzle lanes t.rows
        else pure e) >>= fun e => e.castInPlace t := by
  rw [addCast]
  split
  · rw [bind_assoc]
    rfl
  · rfl

/-- A cast in place converts what it meets, unless the types differ in modifiers only. -/
theorem Denotes.castInPlace {s : Ty} (h : e.Denotes s v) (hs : s.IsNumbers) (ht : t.IsNumbers)
    (harray : t.arrayLength = s.arrayLength) (hdefinition : t.definition = s.definition)
    (hshape : Constant.KeepsOrFills s t) (hrows : s.cols = t.cols → s.rows = t.rows) :
    ∃ e', e.castInPlace t = .ok e'
      ∧ e'.Denotes t.plain fun element row column => Selector.converted s t
        (v element (min row (s.rows.toNat - 1)) (min column (s.cols.toNat - 1))) := by
  obtain ⟨he, rfl, hv⟩ := h
  have hsame :
      e.type.plain = t.plain ↔ e.type.plain.base = t.base ∧ e.type.plain.cols = t.cols := by
    constructor
    · intro htype
      rw [Ty.plain, Ty.plain, Ty.mk.injEq] at htype
      exact ⟨htype.1, htype.2.2.1⟩
    · rintro ⟨hbase, hcols⟩
      rw [Ty.plain, Ty.plain, Ty.mk.injEq]
      exact ⟨hbase, hrows hcols, hcols, rfl, harray.symm, hdefinition.symm⟩
  by_cases htype : e.type.plain = t.plain
  · refine ⟨e, if_pos (Ty.same_iff.mpr htype), he, htype,
      fun element row column hrow hcolumn => ?_⟩
    rw [← htype] at hrow hcolumn ⊢
    rw [Selector.converted, if_pos (hsame.mp htype), Nat.min_eq_left (Nat.le_sub_one_of_lt hrow),
      Nat.min_eq_left (Nat.le_sub_one_of_lt hcolumn)]
    exact hv element row column hrow hcolumn
  · obtain ⟨c, hc, hentries⟩ :=
      Constant.convert_entries (s := e.type) hs.of_plain ht harray hshape e.value
    refine ⟨{ e with value := c, type := t.readOnly }, ?_, he, rfl, ?_⟩
    · rw [Expression.castInPlace, if_neg (mt Ty.same_iff.mp htype), if_pos he, hc]
      rfl
    · intro element row column hrow hcolumn
      have hrow' : min row (e.type.plain.rows.toNat - 1) < e.type.plain.rows.toNat :=
        Nat.lt_of_le_of_lt (Nat.min_le_right _ _) (Nat.sub_lt hs.rows.1 Nat.one_pos)
      have hcolumn' : min column (e.type.plain.cols.toNat - 1) < e.type.plain.cols.toNat :=
        Nat.lt_of_le_of_lt (Nat.min_le_right _ _) (Nat.sub_lt hs.cols.1 Nat.one_pos)
      rw [Selector.converted, if_neg (mt hsame.mpr htype), ← hv element _ _ hrow' hcolumn']
      exact hentries element row column hrow hcolumn

/-- Whether a cast between two types changes the number of rows on its own. -/
def Resizes (s t : Ty) : Prop :=
  s.cols = 1 ∧ t.cols = 1 ∧ s.rows ≠ t.rows ∧ s.isArray = false

theorem Denotes.resizes_iff {s : Ty} (h : e.Denotes s v) (hs : s.IsNumbers) :
    (e.type.cols = 1 && t.cols = 1 && e.type.rows ≠ t.rows && e.type.isNumeric
      && !e.type.isArray) = true
      ↔ Resizes s t := by
  have hnumeric := hs.numeric
  rw [← h.type] at hnumeric ⊢
  simp only [Resizes, Bool.and_eq_true, decide_eq_true_eq, Bool.not_eq_true', and_assoc]
  refine and_congr_right fun _ => and_congr_right fun _ => and_congr_right fun _ => ?_
  exact and_iff_right hnumeric

/-- A cast of a scalar or vector to a longer vector lengthens first and then converts in place. -/
theorem Denotes.widenRows {s : Ty} (h : e.Denotes s v) (hs : s.IsNumbers)
    (hfits : (Selector.widen t).Fits s) (hresizes : Resizes s t) :
    ∃ e', e.addCast t = .ok e' ∧ e'.Denotes t.plain ((Selector.widen t).entries s v) := by
  have hcond := (h.resizes_iff hs).mpr hresizes
  obtain ⟨ht, harray, hdefinition, hshape⟩ := hfits
  obtain ⟨hcols, hcols', hne, hnot⟩ := hresizes
  have hlt : s.rows.toNat < t.rows.toNat := by
    have hne' : s.rows.toNat ≠ t.rows.toNat := fun h => hne (UInt32.toNat_inj.mp h)
    have hpos := ht.rows.1
    rcases hshape with ⟨hsame, -⟩ | ⟨-, -, hone | ⟨hle, -⟩⟩
    · exact absurd hsame.symm hne
    · have : s.rows.toNat = 1 := congrArg UInt32.toNat hone
      omega
    · omega
  have hmatrix : s.isMatrix = false := by
    rw [Ty.isMatrix, hcols]
    exact Bool.and_false _
  have hlonger : ({ s with rows := t.rows, cols := 1 } : Ty).IsNumbers :=
    ⟨hs.numeric, ht.rows, (by decide : 1 ≤ 1 ∧ 1 ≤ 4)⟩
  obtain ⟨r, hr, hlong⟩ := h.lengthen hs hnot hmatrix hlt ht.rows.2
  obtain ⟨e', he', hcast⟩ :=
    hlong.castInPlace hlonger ht harray hdefinition (.inl ⟨rfl, hcols'⟩) fun _ => rfl
  refine ⟨e', ?_, hcast.congr fun element row column hrow hcolumn => ?_⟩
  · rw [addCast_eq, if_pos hcond, hr]
    exact he'
  · have hconverted : ∀ x, Selector.converted { s with rows := t.rows, cols := 1 } t x
        = Selector.converted s t x := by
      intro x
      rw [Selector.converted, Selector.converted, hcols]
      rfl
    have hrow' : min row (t.rows.toNat - 1) = row := Nat.min_eq_left (Nat.le_sub_one_of_lt hrow)
    have hcolumn' : min column ((1 : UInt32).toNat - 1) = column := by
      have : column < (1 : UInt32).toNat :=
        Nat.lt_of_lt_of_eq hcolumn (congrArg UInt32.toNat hcols')
      omega
    rw [hconverted, hrow', hcolumn']
    rfl

theorem Denotes.widen {s : Ty} (h : e.Denotes s v) (hs : s.IsNumbers)
    (hfits : (Selector.widen t).Fits s) :
    ∃ e', e.addCast t = .ok e' ∧ e'.Denotes t.plain ((Selector.widen t).entries s v) := by
  by_cases hresizes : Resizes s t
  · exact h.widenRows hs hfits hresizes
  · obtain ⟨ht, harray, hdefinition, hshape⟩ := hfits
    have hrows : s.cols = t.cols → s.rows = t.rows := by
      intro hcols
      rcases hshape with ⟨hsame, -⟩ | ⟨hnot, hone, -⟩
      · exact hsame.symm
      · by_contra hne
        exact hresizes ⟨hone, hcols.symm.trans hone, hne, hnot⟩
    have hkeeps : Constant.KeepsOrFills s t := by
      rcases hshape with hshape | ⟨hnot, hone, hscalar | ⟨-, hone'⟩⟩
      · exact .inl hshape
      · exact .inr ⟨hnot, hscalar, hone⟩
      · have hcols : s.cols = t.cols := hone.trans hone'.symm
        exact .inl ⟨(hrows hcols).symm, hcols.symm⟩
    obtain ⟨e', he', hcast⟩ := h.castInPlace hs ht harray hdefinition hkeeps hrows
    refine ⟨e', ?_, hcast⟩
    rw [addCast_eq, if_neg (mt (h.resizes_iff hs).mp hresizes)]
    exact he'

theorem Denotes.step (h : e.Denotes t v) (ht : t.IsNumbers) {s : Selector} (hs : s.Fits t) :
    ∃ e', s.apply e = .ok e' ∧ e'.Denotes (s.target t) (s.entries t v) := by
  cases s with
  | index i => exact h.index ht hs
  | swizzle places =>
    obtain ⟨harray, -, -, hfour, hplaces⟩ := hs
    exact h.pick ht harray hfour hplaces
  | widen target => exact h.widen ht hs

theorem Denotes.run (h : e.Denotes t v) (ht : t.IsNumbers) {steps : List Selector}
    (hs : Selector.FitAll t steps) :
    ∃ e', steps.foldlM Selector.apply e = .ok e'
      ∧ e'.Denotes (Selector.evaluate t v steps).1 (Selector.evaluate t v steps).2 := by
  induction steps generalizing e t v with
  | nil => exact ⟨e, rfl, h⟩
  | cons s rest ih =>
    -- The type behind a step is one of numbers again, so that the next step meets what this one
    -- met.
    obtain ⟨hfits, hrest⟩ := hs
    obtain ⟨e₁, happly, hstep⟩ := h.step ht hfits
    obtain ⟨e₂, hrun, hdenotes⟩ := ih hstep (ht.target hfits) hrest
    refine ⟨e₂, ?_, hdenotes⟩
    rw [List.foldlM_cons, happly]
    exact hrun

/-- A constant of numbers that is selected from step by step, each step in range for the type it
meets, ends as the constant that the steps give for its components, and has the type they give. -/
theorem denotes_evaluate (e : Expression) (he : e.isConstant = true) (ht : e.type.IsNumbers)
    (steps : List Selector) (hs : Selector.FitAll e.type.plain steps) :
    ∃ e', steps.foldlM Selector.apply e = .ok e'
      ∧ e'.Denotes (Selector.evaluate e.type.plain (e.value.entries e.type) steps).1
        (Selector.evaluate e.type.plain (e.value.entries e.type) steps).2 := by
  have hplain : e.type.plain.IsNumbers := ⟨ht.numeric, ht.rows, ht.cols⟩
  have hstart : e.Denotes e.type.plain (e.value.entries e.type) :=
    ⟨he, rfl, fun _ _ _ _ _ => rfl⟩
  exact hstart.run hplain hs

/-- The constant array of the 2x3 matrices with the components 1 to 6 and 7 to 12. -/
def matrixPair : Expression :=
  ofConstant {}
    { elements := [{ lanes := .ofList [1, 2, 3, 4, 5, 6] },
        { lanes := .ofList [7, 8, 9, 10, 11, 12] }] }
    { Ty.matrix .int 2 3 with arrayLength := 2 }

/-- The last component of the second matrix, selected in four steps and converted
to three floats. -/
def lastTripled : List Selector :=
  [.index 1, .swizzle [(1, 2), (0, 0), (1, 1)], .index 0, .widen (.vector .float 3)]

theorem denotes_evaluate_lastTripled :
    matrixPair.type.IsNumbers ∧ Selector.FitAll matrixPair.type.plain lastTripled
      ∧ ∃ e', lastTripled.foldlM Selector.apply matrixPair = .ok e'
        ∧ e'.type.plain = .vector .float 3
        ∧ ∀ row < 3, e'.value.lanes.lane row = (Number.Single.ofInt 12).bits := by
  have hnumbers : matrixPair.type.IsNumbers := ⟨rfl, by decide, by decide⟩
  have hfit : Selector.FitAll matrixPair.type.plain lastTripled := by
    have hwiden : (Selector.widen (.vector .float 3)).Fits (.scalar .int) :=
      ⟨⟨rfl, by decide, by decide⟩, rfl, rfl, .inr ⟨rfl, rfl, .inl rfl⟩⟩
    exact ⟨fun _ => by decide, ⟨rfl, .inr rfl, by decide, by decide, by decide⟩,
      ⟨.inl rfl, by decide⟩, hwiden, trivial⟩
  obtain ⟨e', hrun, hdenotes⟩ := denotes_evaluate matrixPair rfl hnumbers lastTripled hfit
  refine ⟨hnumbers, hfit, e', hrun, hdenotes.type, fun row hrow => ?_⟩
  have hentries :
      ∀ row < 3,
        (Selector.evaluate matrixPair.type.plain (matrixPair.value.entries matrixPair.type)
      lastTripled).2 0 row 0 = (Number.Single.ofInt 12).bits := by decide
  calc e'.value.lanes.lane row
    _ = e'.value.entries (.vector .float 3) 0 row 0 := by
      rw [Constant.entries_of_not_array (by rfl)]
      exact congrArg e'.value.lanes.lane (Nat.mul_one row).symm
    _ = _ := hdenotes.entries 0 row 0 hrow (by decide)
    _ = (Number.Single.ofInt 12).bits := hentries row hrow

end Expression
end ShaderEffect

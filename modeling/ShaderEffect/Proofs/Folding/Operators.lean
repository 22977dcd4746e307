import Mathlib
import ShaderEffect.Constant
import ShaderEffect.Expression
import ShaderEffect.Spirv.Generator.Access

/-!
Folding an operator against the instruction that would be emitted for it.

What an operation does to 32-bit words is said here once, in unbounded integers, and apart from how
constants are folded: the words of the operands are read as natural numbers or in two's complement,
and the exact result is cut to 32 bits.

Lanes are read as a function from their numbers to words, which is zero from the sixteenth on,
so that what an operation does to lanes can be said without a bound in each statement. A
constant of numbers is read as a function from element, row and column, and conversions are
described on such functions.
-/
namespace ShaderEffect

theorem getD_map_of_lt {α β : Type} {f : α → β} {xs : List α} {k : Nat}
    (hk : k < xs.length) {d : β} :
    (xs.map f).getD k d = f xs[k] := by
  rw [List.getD_eq_getElem _ _ (hk.trans_eq (List.length_map f).symm), List.getElem_map]

/-- A traversal none of whose steps fails is a map. -/
theorem mapM_eq_ok {α β : Type} {f : α → Except Fault β} {g : α → β} {xs : List α}
    (h : ∀ x ∈ xs, f x = .ok (g x)) : xs.mapM f = .ok (xs.map g) := by
  induction xs with
  | nil => rfl
  | cons x xs ih =>
    have hrest := ih fun y hy => h y (List.mem_cons_of_mem x hy)
    rw [List.mapM_cons, h x List.mem_cons_self, hrest]
    rfl

/-- A traversal each of whose steps succeeds. -/
theorem mapM_forall₂ {α β : Type} {f : α → Except Fault β} {P : α → β → Prop}
    (h : ∀ x, ∃ y, f x = .ok y ∧ P x y) (xs : List α) :
    ∃ ys, xs.mapM f = .ok ys ∧ List.Forall₂ P xs ys := by
  induction xs with
  | nil => exact ⟨[], rfl, .nil⟩
  | cons x xs ih =>
    obtain ⟨y, hy, hP⟩ := h x
    obtain ⟨ys, hys, hPs⟩ := ih
    refine ⟨y :: ys, ?_, .cons hP hPs⟩
    rw [List.mapM_cons, hy, hys]
    rfl

theorem getD_forall₂ {α β : Type} {P : α → β → Prop} {xs : List α} {ys : List β}
    {x : α} {y : β} (h : List.Forall₂ P xs ys) (hP : P x y) (k : Nat) :
    P (xs.getD k x) (ys.getD k y) := by
  induction h generalizing k with
  | nil => exact hP
  | cons hxy _ ih =>
    cases k with
    | zero => exact hxy
    | succ k => exact ih k

namespace Lanes

/-- The lane with a number, zero behind the last. -/
def lane (lanes : Lanes) (i : Nat) : UInt32 :=
  lanes.toList.getD i 0

variable {lanes : Lanes} {i : Nat}

theorem lane_of_lt (hi : i < 16) : lanes.lane i = lanes[i] := by
  rw [lane, List.getD_eq_getElem?_getD, Vector.getElem?_toList, Vector.getElem?_eq_getElem hi,
    Option.getD_some]

theorem lane_of_le (hi : 16 ≤ i) : lanes.lane i = 0 := by
  rw [lane, List.getD_eq_getElem?_getD, Vector.getElem?_toList, Vector.getElem?_eq_none hi,
    Option.getD_none]

theorem zero_lane (i : Nat) : zero.lane i = 0 := by
  by_cases hi : i < 16
  · exact (lane_of_lt hi).trans (Vector.getElem_replicate hi)
  · exact lane_of_le (Nat.le_of_not_lt hi)

/-- Replacing no more lanes than there are succeeds and leaves the lanes behind them alone. -/
theorem mapFirst_lane (lanes : Lanes) (n : UInt32) (f : Nat → UInt32 → UInt32)
    (hn : n.toNat ≤ 16) :
    ∃ mapped, lanes.mapFirst n f = .ok mapped
      ∧ ∀ i, mapped.lane i = if i < n.toNat then f i (lanes.lane i) else lanes.lane i := by
  have hsome : ¬n > 16 := UInt32.not_lt.mpr (UInt32.le_iff_toNat_le.mpr hn)
  refine ⟨_, if_neg hsome, fun i => ?_⟩
  by_cases hi : i < 16
  · rw [lane_of_lt hi, lane_of_lt hi, Vector.getElem_mapIdx]
  · have hle : 16 ≤ i := Nat.le_of_not_lt hi
    rw [lane_of_le hle, lane_of_le hle, if_neg (by omega)]

theorem get?_lane {z : Int} (hz : 0 ≤ z) (hlt : z < 16) :
    lanes.get? z = .ok (lanes.lane z.toNat) := by
  have hnat : z.toNat < 16 := by omega
  rw [get?, if_pos hz, Vector.getElem?_eq_getElem hnat, lane_of_lt hnat]
  rfl

theorem ofList_lane {xs : List UInt32} (hxs : xs.length ≤ 16) :
    (ofList xs).lane i = xs.getD i 0 := by
  by_cases hi : i < 16
  · rw [lane_of_lt hi, ofList, Vector.getElem_ofFn]
  · rw [lane_of_le (by omega), List.getD_eq_getElem?_getD, List.getElem?_eq_none (by omega),
      Option.getD_none]

end Lanes

/-- Types of numbers: scalars, vectors and matrices of at most four rows and columns, and
arrays of these. -/
structure Ty.IsNumbers (t : Ty) : Prop where
  numeric : t.isNumeric = true
  rows : 1 ≤ t.rows.toNat ∧ t.rows.toNat ≤ 4
  cols : 1 ≤ t.cols.toNat ∧ t.cols.toNat ≤ 4

namespace Ty

variable {t : Ty}

theorem same_iff {s : Ty} : s.same t = true ↔ s.plain = t.plain := by
  rw [plain, plain, mk.injEq]
  simp only [same, Bool.and_eq_true, decide_eq_true_eq, and_assoc, true_and]

theorem IsNumbers.of_plain (ht : t.plain.IsNumbers) : t.IsNumbers :=
  ⟨ht.numeric, ht.rows, ht.cols⟩

theorem IsNumbers.element (ht : t.IsNumbers) : t.element.IsNumbers :=
  ⟨ht.numeric, ht.rows, ht.cols⟩

theorem IsNumbers.components (ht : t.IsNumbers) :
    t.components.toNat = t.rows.toNat * t.cols.toNat := by
  have hle : t.rows.toNat * t.cols.toNat ≤ 4 * 4 := Nat.mul_le_mul ht.rows.2 ht.cols.2
  rw [Ty.components, UInt32.toNat_mul]
  exact Nat.mod_eq_of_lt (by omega)

theorem IsNumbers.cols_of_not_matrix (ht : t.IsNumbers) (hmatrix : t.isMatrix = false) :
    t.cols.toNat = 1 := by
  have hrows : t.rows ≥ 1 := UInt32.le_iff_toNat_le.mpr ht.rows.1
  have hle : ¬t.cols > 1 := by
    intro h
    rw [Ty.isMatrix, decide_eq_true hrows, decide_eq_true h] at hmatrix
    cases hmatrix
  exact Nat.le_antisymm (UInt32.le_iff_toNat_le.mp (UInt32.not_lt.mp hle)) ht.cols.1

theorem IsNumbers.isScalar_iff (ht : t.IsNumbers) (harray : t.isArray = false) :
    t.isScalar = true ↔ t.rows = 1 ∧ t.cols = 1 := by
  have hrows : 1 ≤ t.rows := UInt32.le_iff_toNat_le.mpr ht.rows.1
  have hcols : 1 ≤ t.cols := UInt32.le_iff_toNat_le.mpr ht.cols.1
  rw [Ty.isScalar, Ty.isMatrix, Ty.isVector, harray, ht.numeric]
  simp only [Bool.not_false, Bool.true_and, Bool.and_true, Bool.and_eq_true, Bool.not_eq_true',
    Bool.and_eq_false_iff, decide_eq_false_iff_not]
  constructor
  · rintro ⟨hmatrix, hvector⟩
    grind
  · grind

theorem IsNumbers.components_le (ht : t.IsNumbers) : t.components.toNat ≤ 16 := by
  rw [ht.components]
  exact Nat.mul_le_mul ht.rows.2 ht.cols.2

theorem IsNumbers.place_lt (ht : t.IsNumbers) {row column : Nat} (hrow : row < t.rows.toNat)
    (hcolumn : column < t.cols.toNat) : row * t.cols.toNat + column < t.components.toNat := by
  calc row * t.cols.toNat + column
    _ < row * t.cols.toNat + t.cols.toNat := by omega
    _ = (row + 1) * t.cols.toNat := by rw [Nat.add_mul, Nat.one_mul]
    _ ≤ t.rows.toNat * t.cols.toNat := Nat.mul_le_mul_right _ hrow
    _ = t.components.toNat := ht.components.symm

end Ty

/-- The components of a value by element, row and column. What is no array is the same
in each element. -/
abbrev Entries := Nat → Nat → Nat → UInt32

/-- The components of a constant. Rows lie one after the other, and elements behind the
initializer are zero. -/
def Constant.entries (t : Ty) (c : Constant) : Entries := fun element row column =>
  (if t.isArray then c.elements.getD element {} else c).lanes.lane (row * t.cols.toNat + column)

namespace Constant

variable {t : Ty}

/-- The components of a constant that is no array. -/
theorem entries_of_not_array {c : Constant} (harray : t.isArray = false)
    (element row column : Nat) :
    c.entries t element row column = c.lanes.lane (row * t.cols.toNat + column) := by
  rw [entries, harray]
  rfl

/-- The components of a vector with the given lanes. -/
theorem entries_ofList {xs : List UInt32} (hxs : xs.length ≤ 16) (harray : t.isArray = false)
    (hcols : t.cols.toNat = 1) (element row : Nat) {column : Nat}
    (hcolumn : column < t.cols.toNat) :
    entries t { lanes := .ofList xs } element row column = xs.getD row 0 := by
  have hplace : row * t.cols.toNat + column = row := by
    rw [hcols] at hcolumn ⊢
    omega
  rw [entries_of_not_array harray, hplace, Lanes.ofList_lane hxs]

variable {s : Ty}

/-- Truth values are written anew, and other components only where they change between integers and
floats. -/
theorem convertLane_of_kept (h : (!t.isBoolean && s.isFloat = t.isFloat) = true) (x : UInt32) :
    convertLane s t x = x := by
  rw [Bool.and_eq_true, Bool.not_eq_true', decide_eq_true_eq] at h
  rw [convertLane, h.1, if_neg (by nofun), if_pos h.2]

theorem convertLane_zero : convertLane s t 0 = 0 := by
  rw [convertLane]
  split
  · split <;> decide
  · split
    · rfl
    · split
      · split <;> decide
      · split <;> decide

/-- The number of the lane that becomes a component. A scalar becomes all of them. -/
def originLane (s t : Ty) (i : Nat) : Nat :=
  if s.isScalar && !t.isScalar then 0 else i

/-- The first lanes, as many as the type has components, are converted ones. -/
def Converts (s t : Ty) (lanes converted : Lanes) : Prop :=
  ∀ i < t.components.toNat, converted.lane i = convertLane s t (lanes.lane (originLane s t i))

theorem convertLanes_converts (hn : t.components.toNat ≤ 16) (lanes : Lanes) :
    ∃ converted, convertLanes s t lanes = .ok converted ∧ Converts s t lanes converted := by
  have hphases : convertLanes s t lanes
      = (if s.isScalar && !t.isScalar then lanes.mapFirst t.components fun _ _ => lanes[0]
          else pure lanes) >>= fun filled =>
        if !t.isBoolean && s.isFloat = t.isFloat then pure filled
        else filled.mapFirst t.components fun _ => convertLane s t := by
    rw [convertLanes]
    split <;> rfl
  obtain ⟨filled, hfill, hfilled⟩ : ∃ filled,
      (if s.isScalar && !t.isScalar then lanes.mapFirst t.components fun _ _ => lanes[0]
        else pure lanes) = .ok filled
      ∧ ∀ i < t.components.toNat, filled.lane i = lanes.lane (originLane s t i) := by
    by_cases hscalar : (s.isScalar && !t.isScalar) = true
    · obtain ⟨filled, hmap, hfilled⟩ :=
        Lanes.mapFirst_lane lanes t.components (fun _ _ => lanes[0]) hn
      refine ⟨filled, (if_pos hscalar).trans hmap, fun i hi => ?_⟩
      rw [hfilled, if_pos hi, originLane, if_pos hscalar, Lanes.lane_of_lt (by decide)]
    · refine ⟨lanes, if_neg hscalar, fun i hi => ?_⟩
      rw [originLane, if_neg hscalar]
  -- Where nothing changes between integers, floats and truth values, the lanes stay as they were
  -- filled.
  rw [hphases, hfill]
  by_cases hkept : (!t.isBoolean && s.isFloat = t.isFloat) = true
  · refine ⟨filled, if_pos hkept, fun i hi => ?_⟩
    rw [hfilled i hi, convertLane_of_kept hkept]
  · obtain ⟨converted, hmap, hconverted⟩ :=
      Lanes.mapFirst_lane filled t.components (fun _ => convertLane s t) hn
    refine ⟨converted, (if_neg hkept).trans hmap, fun i hi => ?_⟩
    rw [hconverted, if_pos hi, hfilled i hi]

/-- The shapes between which a conversion drops nothing and lengthens nothing. -/
def KeepsOrFills (s t : Ty) : Prop :=
  (t.rows = s.rows ∧ t.cols = s.cols) ∨ (s.isArray = false ∧ s.rows = 1 ∧ s.cols = 1)

/-- A component comes from the same row and column, or from the only ones that there are. -/
theorem originLane_place (hs : s.IsNumbers) (ht : t.IsNumbers) (harray : s.isArray = false)
    (harray' : t.isArray = false) (hshape : KeepsOrFills s t) {row column : Nat}
    (hrow : row < t.rows.toNat) (hcolumn : column < t.cols.toNat) :
    originLane s t (row * t.cols.toNat + column)
      = min row (s.rows.toNat - 1) * s.cols.toNat + min column (s.cols.toNat - 1) := by
  have hsource := hs.isScalar_iff harray
  have htarget := ht.isScalar_iff harray'
  rw [originLane]
  rcases hshape with ⟨hrows, hcols⟩ | ⟨-, hrows, hcols⟩
  · have hsame : (s.isScalar && !t.isScalar) = false := by
      have : s.isScalar = t.isScalar := by
        rw [Bool.eq_iff_iff, hsource, htarget, hrows, hcols]
      rw [this, Bool.and_not_self]
    rw [hrows] at hrow
    rw [hcols] at hcolumn
    rw [hsame, if_neg (by nofun), hcols, Nat.min_eq_left (by omega), Nat.min_eq_left (by omega)]
  · rw [hrows, hcols, hsource.mpr ⟨hrows, hcols⟩]
    by_cases hscalar : t.isScalar = true
    · obtain ⟨hrows', hcols'⟩ := htarget.mp hscalar
      rw [hrows'] at hrow
      rw [hcols'] at hcolumn ⊢
      rw [hscalar, if_neg (by nofun), Nat.lt_one_iff.mp hrow, Nat.lt_one_iff.mp hcolumn]
      rfl
    · rw [Bool.eq_false_iff.mpr hscalar, if_pos (by rfl)]
      have hone : (1 : UInt32).toNat = 1 := rfl
      rw [hone]
      omega

/-- Converting a constant converts each component, those of the elements of an array too. -/
theorem convert_entries (hs : s.IsNumbers) (ht : t.IsNumbers)
    (harray : t.arrayLength = s.arrayLength) (hshape : KeepsOrFills s t) (c : Constant) :
    ∃ converted, convert s t c = .ok converted
      ∧ ∀ element row column, row < t.rows.toNat → column < t.cols.toNat →
        converted.entries t element row column = convertLane s t
          (c.entries s element (min row (s.rows.toNat - 1)) (min column (s.cols.toNat - 1))) := by
  obtain ⟨lanes, hlanes, hvalue⟩ := convertLanes_converts (s := s) ht.components_le c.lanes
  have hstep : ∀ x : Constant, ∃ y : Constant, (do
      let lanes ← convertLanes s.element t.element x.lanes
      pure { x with lanes }) = .ok y ∧ Converts s.element t.element x.lanes y.lanes := by
    intro x
    obtain ⟨lanes, hlanes, hvalue⟩ :=
      convertLanes_converts (s := s.element) ht.element.components_le x.lanes
    refine ⟨{ x with lanes }, ?_, hvalue⟩
    rw [hlanes]
    rfl
  obtain ⟨elements, helements, hzip⟩ := mapM_forall₂ hstep c.elements
  refine ⟨{ c with lanes, elements }, ?_, fun element row column hrow hcolumn => ?_⟩
  · rw [convert, helements, hlanes]
    rfl
  have hlt := ht.place_lt hrow hcolumn
  have hsame : t.isArray = s.isArray := by rw [Ty.isArray, harray, Ty.isArray]
  by_cases hs' : s.isArray = true
  · -- What lies behind the initializer was zero and stays so.
    have hzero : Converts s.element t.element ({} : Constant).lanes ({} : Constant).lanes :=
      fun i _ => by
      rw [Lanes.zero_lane, Lanes.zero_lane, convertLane_zero]
    have helement := getD_forall₂ hzip hzero element _ hlt
    have horigin :=
      originLane_place hs.element ht.element rfl rfl
        (hshape.imp_right fun h => ⟨rfl, h.2⟩) hrow hcolumn
    rw [entries, if_pos (hsame.trans hs'), entries, if_pos hs', helement]
    exact congrArg (fun i => convertLane s t ((c.elements.getD element {}).lanes.lane i)) horigin
  · have hs' : s.isArray = false := Bool.eq_false_iff.mpr hs'
    have ht' : t.isArray = false := hsame.trans hs'
    rw [entries_of_not_array ht', entries_of_not_array hs', hvalue _ hlt,
      originLane_place hs ht hs' ht' hshape hrow hcolumn]

end Constant
end ShaderEffect

namespace ShaderEffect.Spirv

/-- The integer that a word stands for in two's complement. -/
def signed (x : UInt32) : Int :=
  x.toBitVec.toInt

/-- What the operations on words give. Division and remainder of signed words truncate towards zero,
the count of a shift is taken modulo 32, and truth values are the words 0 and 1. -/
def wordOperations : List (Opcode × (UInt32 → UInt32 → UInt32)) := [
  (Op.iadd, fun x y => .ofNat (x.toNat + y.toNat)),
  (Op.isub, fun x y => .ofInt (x.toNat - y.toNat)),
  (Op.imul, fun x y => .ofNat (x.toNat * y.toNat)),
  (Op.udiv, fun x y => .ofNat (x.toNat / y.toNat)),
  (Op.sdiv, fun x y => .ofInt ((signed x).tdiv (signed y))),
  (Op.umod, fun x y => .ofNat (x.toNat % y.toNat)),
  (Op.srem, fun x y => .ofInt ((signed x).tmod (signed y))),
  (Op.bitwiseAnd, fun x y => .ofNat (x.toNat &&& y.toNat)),
  (Op.bitwiseOr, fun x y => .ofNat (x.toNat ||| y.toNat)),
  (Op.bitwiseXor, fun x y => .ofNat (x.toNat ^^^ y.toNat)),
  (Op.shiftLeftLogical, fun x y => .ofNat (x.toNat * 2 ^ (y.toNat % 32))),
  (Op.shiftRightLogical, fun x y => .ofNat (x.toNat / 2 ^ (y.toNat % 32))),
  (Op.shiftRightArithmetic, fun x y => .ofInt (signed x / 2 ^ (y.toNat % 32))),
  (Op.uLessThan, fun x y => truth (x.toNat < y.toNat)),
  (Op.uLessThanEqual, fun x y => truth (x.toNat ≤ y.toNat)),
  (Op.uGreaterThan, fun x y => truth (x.toNat > y.toNat)),
  (Op.uGreaterThanEqual, fun x y => truth (x.toNat ≥ y.toNat)),
  (Op.sLessThan, fun x y => truth (signed x < signed y)),
  (Op.sLessThanEqual, fun x y => truth (signed x ≤ signed y)),
  (Op.sGreaterThan, fun x y => truth (signed x > signed y)),
  (Op.sGreaterThanEqual, fun x y => truth (signed x ≥ signed y)),
  (Op.iequal, fun x y => truth (x.toNat = y.toNat)),
  (Op.inotEqual, fun x y => truth (x.toNat ≠ y.toNat)),
  (Op.logicalAnd, fun x y => truth (x ≠ 0 ∧ y ≠ 0)),
  (Op.logicalOr, fun x y => truth (x ≠ 0 ∨ y ≠ 0)),
  (Op.logicalEqual, fun x y => truth (x ≠ 0 ↔ y ≠ 0)),
  (Op.logicalNotEqual, fun x y => truth (¬(x ≠ 0 ↔ y ≠ 0)))]

/-- What an operation gives for two words, if it is one on words. -/
def onWords? (op : Opcode) (x y : UInt32) : Option UInt32 :=
  (wordOperations.lookup op).map fun f => f x y

variable {x y : UInt32}

theorem ofInt_eq_of_signed {n : Int} (h : signed x = n.bmod (2 ^ 32)) : UInt32.ofInt n = x := by
  have hbits : (UInt32.ofInt n).toBitVec = BitVec.ofInt 32 n := by
    apply BitVec.eq_of_toNat_eq
    rw [BitVec.toNat_ofInt, UInt32.ofInt, UInt32.toNat_toBitVec, UInt32.toNat_ofNat']
    omega
  apply UInt32.toBitVec_inj.mp
  apply BitVec.eq_of_toInt_eq
  rw [hbits, BitVec.toInt_ofInt]
  exact h.symm

theorem ofNat_add : UInt32.ofNat (x.toNat + y.toNat) = x + y := by
  rw [UInt32.ofNat_add, UInt32.ofNat_toNat, UInt32.ofNat_toNat]

theorem ofNat_mul : UInt32.ofNat (x.toNat * y.toNat) = x * y := by
  rw [UInt32.ofNat_mul, UInt32.ofNat_toNat, UInt32.ofNat_toNat]

theorem ofNat_eq_of_toNat {n : Nat} (h : x.toNat = n) : UInt32.ofNat n = x := by
  rw [← h, UInt32.ofNat_toNat]

theorem ofInt_sub : UInt32.ofInt (x.toNat - y.toNat) = x - y := by
  apply ofInt_eq_of_signed
  rw [signed, UInt32.toBitVec_sub, BitVec.toInt_sub, BitVec.toInt_eq_toNat_bmod,
    BitVec.toInt_eq_toNat_bmod, Int.bmod_sub_bmod, Int.sub_bmod_bmod]
  rfl

/-- The least integer divided by -1 is the one quotient that does not fit, and wraps. -/
theorem ofInt_tdiv :
    UInt32.ofInt ((signed x).tdiv (signed y)) = (x.toInt32 / y.toInt32).toUInt32 := by
  apply ofInt_eq_of_signed
  exact BitVec.toInt_sdiv x.toBitVec y.toBitVec

theorem ofInt_tmod :
    UInt32.ofInt ((signed x).tmod (signed y)) = (x.toInt32 % y.toInt32).toUInt32 := by
  have hrem := BitVec.toInt_srem x.toBitVec y.toBitVec
  apply ofInt_eq_of_signed
  calc signed (x.toInt32 % y.toInt32).toUInt32
    _ = (signed x).tmod (signed y) := hrem
    _ = ((signed x).tmod (signed y)).bmod (2 ^ 32) := by
      rw [signed, signed, ← hrem, BitVec.toInt_bmod_cancel]

/-- The low five bits of a count are the count modulo 32. -/
theorem toNat_shiftCount (y : UInt32) : (y &&& 31).toNat = y.toNat % 32 := by
  rw [UInt32.toNat_and]
  exact Nat.and_two_pow_sub_one_eq_mod y.toNat 5

theorem ofNat_shiftLeft : UInt32.ofNat (x.toNat * 2 ^ (y.toNat % 32)) = x <<< (y &&& 31) := by
  apply UInt32.toNat_inj.mp
  rw [UInt32.toNat_shiftLeft, toNat_shiftCount, Nat.mod_mod, Nat.shiftLeft_eq, UInt32.toNat_ofNat']

theorem ofNat_shiftRight : UInt32.ofNat (x.toNat / 2 ^ (y.toNat % 32)) = x >>> (y &&& 31) := by
  apply ofNat_eq_of_toNat
  rw [UInt32.toNat_shiftRight, toNat_shiftCount, Nat.mod_mod, Nat.shiftRight_eq_div_pow]

theorem ofInt_shiftRight :
    UInt32.ofInt (signed x / 2 ^ (y.toNat % 32)) = (x.toInt32 >>> (y &&& 31).toInt32).toUInt32 := by
  -- A signed word takes the count of its shift modulo 32 as a signed word, which it is already.
  have hcount : ((y &&& 31).toBitVec.smod 32).toNat = y.toNat % 32 := by
    have hsmall : ∀ k < 32, ((BitVec.ofNat 32 k).smod 32).toNat = k := by decide
    have hbits : (y &&& 31).toBitVec = BitVec.ofNat 32 (y.toNat % 32) := by
      rw [← toNat_shiftCount, ← UInt32.toNat_toBitVec, BitVec.ofNat_toNat, BitVec.setWidth_eq]
    rw [hbits]
    exact hsmall _ (Nat.mod_lt _ (by decide))
  have hshift : signed (x.toInt32 >>> (y &&& 31).toInt32).toUInt32
      = signed x / 2 ^ (y.toNat % 32) := by
    calc signed (x.toInt32 >>> (y &&& 31).toInt32).toUInt32
      _ = (x.toBitVec.sshiftRight ((y &&& 31).toBitVec.smod 32).toNat).toInt := rfl
      _ = signed x >>> (y.toNat % 32) := by rw [BitVec.toInt_sshiftRight, hcount, signed]
      _ = signed x / 2 ^ (y.toNat % 32) := Int.shiftRight_eq_div_pow _ _
  apply ofInt_eq_of_signed
  rw [← hshift, signed, BitVec.toInt_bmod_cancel]

theorem toNat_eq_iff_toInt32_eq : x.toNat = y.toNat ↔ x.toInt32 = y.toInt32 := by
  rw [UInt32.toNat_inj]
  exact ⟨fun h => congrArg UInt32.toInt32 h, fun h => congrArg Int32.toUInt32 h⟩

theorem decide_ne_eq_not {α β : Type} [DecidableEq α] [DecidableEq β] {a b : α} {c d : β}
    (h : a = b ↔ c = d) : decide (a ≠ b) = !decide (c = d) := by
  rw [← decide_not, decide_eq_decide, ne_eq, h]

variable {op : BinaryOp} {t : Ty}

/-- On words of integers every operator but the logical ones folds to what its instruction gives. -/
theorem onWords?_of_integer (hop : op.isLogical = false) (ht : t.base = .int ∨ t.base = .uint) :
    onWords? (binaryOpcode op t) x y = some (Constant.binaryLane op t x y) := by
  have hfloat : t.isFloat = false := by
    rcases ht with ht | ht <;> simp [Ty.isFloat, ht]
  have hboolean : t.isBoolean = false := by
    rcases ht with ht | ht <;> simp [Ty.isBoolean, ht]
  simp only [binaryOpcode, pick, Constant.binaryLane, Constant.compareLane, Constant.compareWith,
    hfloat, hboolean, Bool.false_eq_true, if_false, ite_self]
  -- Only quotients, orders and shifts to the right tell signed from unsigned words.
  cases op with
  | add => exact congrArg some ofNat_add
  | sub => exact congrArg some ofInt_sub
  | mul => exact congrArg some ofNat_mul
  | div =>
    cases t.isSigned with
    | true => exact congrArg some ofInt_tdiv
    | false => exact congrArg some (ofNat_eq_of_toNat (UInt32.toNat_div x y))
  | rem =>
    cases t.isSigned with
    | true => exact congrArg some ofInt_tmod
    | false => exact congrArg some (ofNat_eq_of_toNat (UInt32.toNat_mod x y))
  | bitAnd => exact congrArg some (ofNat_eq_of_toNat (UInt32.toNat_and x y))
  | bitOr => exact congrArg some (ofNat_eq_of_toNat (UInt32.toNat_or x y))
  | bitXor => exact congrArg some (ofNat_eq_of_toNat (UInt32.toNat_xor x y))
  | shiftLeft => exact congrArg some ofNat_shiftLeft
  | shiftRight =>
    cases t.isSigned with
    | true => exact congrArg some ofInt_shiftRight
    | false => exact congrArg some ofNat_shiftRight
  | less =>
    cases t.isSigned with
    | true => exact congrArg (some ∘ truth) (decide_eq_decide.mpr Int32.lt_iff_toInt_lt.symm)
    | false => exact congrArg (some ∘ truth) (decide_eq_decide.mpr UInt32.lt_iff_toNat_lt.symm)
  | lessEqual =>
    cases t.isSigned with
    | true => exact congrArg (some ∘ truth) (decide_eq_decide.mpr Int32.le_iff_toInt_le.symm)
    | false => exact congrArg (some ∘ truth) (decide_eq_decide.mpr UInt32.le_iff_toNat_le.symm)
  | greater =>
    cases t.isSigned with
    | true => exact congrArg (some ∘ truth) (decide_eq_decide.mpr Int32.lt_iff_toInt_lt.symm)
    | false => exact congrArg (some ∘ truth) (decide_eq_decide.mpr UInt32.lt_iff_toNat_lt.symm)
  | greaterEqual =>
    cases t.isSigned with
    | true => exact congrArg (some ∘ truth) (decide_eq_decide.mpr Int32.le_iff_toInt_le.symm)
    | false => exact congrArg (some ∘ truth) (decide_eq_decide.mpr UInt32.le_iff_toNat_le.symm)
  | equal =>
    cases t.isSigned with
    | true => exact congrArg (some ∘ truth) (decide_eq_decide.mpr toNat_eq_iff_toInt32_eq)
    | false => exact congrArg (some ∘ truth) (decide_eq_decide.mpr UInt32.toNat_inj)
  | notEqual =>
    cases t.isSigned with
    | true => exact congrArg (some ∘ truth) (decide_ne_eq_not toNat_eq_iff_toInt32_eq)
    | false => exact congrArg (some ∘ truth) (decide_ne_eq_not UInt32.toNat_inj)
  | and | or => cases hop

/-- Truth values that are 0 or 1 fold to what the logical operations and equality give. -/
theorem onWords?_of_truth (hop : op.isLogical = true ∨ op.isEquality = true) (ht : t.base = .bool)
    (hx : x = 0 ∨ x = 1) (hy : y = 0 ∨ y = 1) :
    onWords? (binaryOpcode op t) x y = some (Constant.binaryLane op t x y) := by
  have hfloat : t.isFloat = false := by simp [Ty.isFloat, ht]
  have hsigned : t.isSigned = false := by simp [Ty.isSigned, ht]
  have hboolean : t.isBoolean = true := by simp [Ty.isBoolean, ht]
  simp only [binaryOpcode, Constant.binaryLane, Constant.compareLane, Constant.compareWith, hfloat,
    hsigned, hboolean, Bool.false_eq_true, if_false, if_true]
  cases op with
  | and | or | equal | notEqual => rcases hx with rfl | rfl <;> rcases hy with rfl | rfl <;> rfl
  | _ => rcases hop with hop | hop <;> cases hop

/-- Operands whose folding is a matter of words: integers, except for the logical operators, and
truth values that are 0 or 1 for these and for equality. -/
inductive FoldsWords (op : BinaryOp) (t : Ty) (l r : Lanes) : Prop
  | integers (ht : t.base = .int ∨ t.base = .uint) (hop : op.isLogical = false)
  | truths (ht : t.base = .bool) (hop : op.isLogical = true ∨ op.isEquality = true)
      (hl : ∀ i < t.components.toNat, l.lane i = 0 ∨ l.lane i = 1)
      (hr : ∀ i < t.components.toNat, r.lane i = 0 ∨ r.lane i = 1)

/-- Whether an operator divides by a component that is zero. -/
def DividesByZero (op : BinaryOp) (t : Ty) (r : Lanes) : Prop :=
  (op = .div ∨ op = .rem) ∧ ∃ i < t.components.toNat, r.lane i = 0

instance (op : BinaryOp) (t : Ty) (r : Lanes) : Decidable (DividesByZero op t r) := by
  unfold DividesByZero
  infer_instance

variable {l r : Lanes}

theorem FoldsWords.onWords? {i : Nat} (h : FoldsWords op t l r) (hi : i < t.components.toNat) :
    onWords? (binaryOpcode op t) (l.lane i) (r.lane i)
      = some (Constant.binaryLane op t (l.lane i) (r.lane i)) := by
  cases h with
  | integers ht hop => exact onWords?_of_integer hop ht
  | truths ht hop hl hr => exact onWords?_of_truth hop ht (hl i hi) (hr i hi)

theorem FoldsWords.isFloat (h : FoldsWords op t l r) : t.isFloat = false := by
  rw [Ty.isFloat, decide_eq_false_iff_not]
  cases h with
  | integers ht hop => rcases ht with ht | ht <;> simp [ht]
  | truths ht hop hl hr => simp [ht]

end ShaderEffect.Spirv

namespace ShaderEffect

open Spirv

namespace Constant

theorem hasZeroLane_eq {n : UInt32} {lanes : Lanes} (hn : n.toNat ≤ 16) :
    hasZeroLane n lanes = .ok (decide (∃ i < n.toNat, lanes.lane i = 0)) := by
  have hsome : ¬n > 16 := UInt32.not_lt.mpr (UInt32.le_iff_toNat_le.mpr hn)
  have hany : (lanes.toList.take n.toNat).any (· == 0)
      = decide (∃ i < n.toNat, lanes.lane i = 0) := by
    rw [Bool.eq_iff_iff, List.any_eq_true, decide_eq_true_iff]
    constructor
    · rintro ⟨x, hx, hzero⟩
      obtain ⟨i, hi, rfl⟩ := List.mem_take_iff_getElem.mp hx
      have hi16 : i < 16 := by omega
      refine ⟨i, by omega, ?_⟩
      rw [Lanes.lane_of_lt hi16]
      exact (Vector.getElem_toList _).symm.trans (beq_iff_eq.mp hzero)
    · rintro ⟨i, hi, hzero⟩
      have hi16 : i < 16 := by omega
      refine ⟨lanes[i], List.mem_take_iff_getElem.mpr ⟨i, ?_, Vector.getElem_toList _⟩, ?_⟩
      · rw [Vector.length_toList]
        omega
      · rw [← Lanes.lane_of_lt hi16, hzero]
        rfl
  rw [hasZeroLane, hany, if_neg hsome]
  by_cases hzero : ∃ i < n.toNat, lanes.lane i = 0
  · rw [decide_eq_true hzero]
    rfl
  · rw [decide_eq_false hzero]
    rfl

variable {t : Ty} {l r : Constant}

/-- Dividing words by zero is left to run time, and everything else is folded
component by component. -/
theorem foldBinary_words (op : BinaryOp) (hn : t.components.toNat ≤ 16)
    (hfloat : t.isFloat = false) :
    ∃ c, (∀ i < t.components.toNat,
      c.lanes.lane i = binaryLane op t (l.lanes.lane i) (r.lanes.lane i))
      ∧ (DividesByZero op t r.lanes → l.foldBinary op t r = .ok none)
      ∧ (¬DividesByZero op t r.lanes → l.foldBinary op t r = .ok (some c)) := by
  obtain ⟨lanes, hmap, hlanes⟩ := Lanes.mapFirst_lane l.lanes t.components
    (fun i x => binaryLane op t x (r.lanes.lane i)) hn
  have hfold : l.foldBinary op t r
      = if DividesByZero op t r.lanes then .ok none else .ok (some { l with lanes }) := by
    have hdivides : ((op = .div || op = .rem) && !t.isFloat
        && decide (∃ i < t.components.toNat, r.lanes.lane i = 0))
        = decide (DividesByZero op t r.lanes) := by
      rw [hfloat, Bool.not_false, Bool.and_true, ← Bool.decide_or, ← Bool.decide_and]
      rfl
    -- The lanes are looked through for a zero whatever the operator is.
    rw [foldBinary, hasZeroLane_eq hn]
    simp only [bind, Except.bind, hdivides, decide_eq_true_eq]
    unfold Lanes.lane at hmap
    rw [hmap]
    rfl
  refine ⟨{ l with lanes }, ?_, ?_, ?_⟩
  · intro i hi
    rw [hlanes, if_pos hi]
  · intro hzero
    rw [hfold, if_pos hzero]
  · intro hzero
    rw [hfold, if_neg hzero]

end Constant

namespace Expression

/-- What stands for an expression after an attempt to fold it, with whether it was folded. -/
def afterFolding (e : Expression) : Option Expression → Bool × Expression
  | some folded => (true, folded)
  | none => (false, e)

/-- Operands that are words are folded unless one of them divides by zero, which leaves the
expression as it is. Each component of the result is what the operation gives that would be
emitted for the type. -/
theorem foldBinary_onWords (op : BinaryOp) (e : Expression) (r : Constant)
    (he : e.isConstant = true)
    (hn : e.type.components.toNat ≤ 16) (h : FoldsWords op e.type e.value.lanes r.lanes) :
    ∃ folded e', (e.foldBinary? op r).map e.afterFolding = .ok (folded, e')
      ∧ (folded = false ↔ DividesByZero op e.type r.lanes)
      ∧ (folded = false → e' = e)
      ∧ (folded = true → e'.isConstant = true
        ∧ e'.type = (if op.isComparison then { e.type with base := .bool } else e.type)
        ∧ ∀ i < e.type.components.toNat,
          onWords? (binaryOpcode op e.type) (e.value.lanes.lane i) (r.lanes.lane i)
            = some (e'.value.lanes.lane i)) := by
  obtain ⟨c, hlanes, hzero, hfold⟩ :=
    Constant.foldBinary_words op (l := e.value) (r := r) hn h.isFloat
  have hconstant : (!e.isConstant) = false := by rw [he]; rfl
  by_cases hdivides : DividesByZero op e.type r.lanes
  · refine ⟨false, e, ?_, ⟨fun _ => hdivides, fun _ => rfl⟩, fun _ => rfl, nofun⟩
    rw [foldBinary?, hconstant, hzero hdivides]
    rfl
  · let type := if op.isComparison then { e.type with base := .bool } else e.type
    refine ⟨true, { e with value := c, type }, ?_, ⟨nofun, fun h => absurd h hdivides⟩, nofun,
      fun _ => ?_⟩
    · rw [foldBinary?, hconstant, hfold hdivides]
      rfl
    · refine ⟨he, rfl, fun i hi => ?_⟩
      rw [h.onWords? hi, hlanes i hi]

/-- The constant with two integer components. -/
def integerPair (a b : UInt32) : Expression :=
  ofConstant {} { lanes := .ofList [a, b] } (.vector .int 2)

/-- The least integer divided by -1 wraps, and -7 divided by 2 is truncated to -3. -/
theorem foldBinary_onWords_of_quotients :
    FoldsWords .div (integerPair 0x80000000 0xfffffff9).type
      (integerPair 0x80000000 0xfffffff9).value.lanes (integerPair 0xffffffff 2).value.lanes
      ∧ ∃ e',
        ((integerPair 0x80000000 0xfffffff9).foldBinary? .div (integerPair 0xffffffff 2).value).map
          (integerPair 0x80000000 0xfffffff9).afterFolding = .ok (true, e')
          ∧ some (e'.value.lanes.lane 0) = some 0x80000000
          ∧ some (e'.value.lanes.lane 1) = some 0xfffffffd := by
  have hwords : FoldsWords .div (integerPair 0x80000000 0xfffffff9).type
      (integerPair 0x80000000 0xfffffff9).value.lanes (integerPair 0xffffffff 2).value.lanes :=
    .integers (.inl rfl) rfl
  obtain ⟨folded, e', hfold, hzero, -, hlanes⟩ :=
    foldBinary_onWords .div (integerPair 0x80000000 0xfffffff9) (integerPair 0xffffffff 2).value rfl
      (by decide) hwords
  have hfolded : folded = true := by
    cases folded with
    | true => rfl
    | false => exact absurd (hzero.mp rfl) (by decide)
  obtain ⟨-, -, honWords⟩ := hlanes hfolded
  refine ⟨hwords, e', hfolded ▸ hfold, ?_, ?_⟩
  · rw [← honWords 0 (by decide)]
    decide
  · rw [← honWords 1 (by decide)]
    decide

end Expression
end ShaderEffect

import ShaderEffect.Module
import ShaderEffect.Proofs.Computation

namespace ShaderEffect.Layout

/-- Scalars, vectors and matrices of at most four rows and columns, and arrays of at
most 65536 of them. -/
structure IsShape (t : Ty) : Prop where
  rows : 1 ≤ t.rows.toNat ∧ t.rows.toNat ≤ 4
  cols : 1 ≤ t.cols.toNat ∧ t.cols.toNat ≤ 4
  length : 0 ≤ t.arrayLength ∧ t.arrayLength ≤ 65536

instance (t : Ty) : Decidable (IsShape t) :=
  decidable_of_iff ((1 ≤ t.rows.toNat ∧ t.rows.toNat ≤ 4)
      ∧ (1 ≤ t.cols.toNat ∧ t.cols.toNat ≤ 4)
      ∧ 0 ≤ t.arrayLength ∧ t.arrayLength ≤ 65536)
    ⟨fun ⟨hrows, hcols, hlength⟩ => ⟨hrows, hcols, hlength⟩,
      fun h => ⟨h.rows, h.cols, h.length⟩⟩

/-- The least multiple of `a` that is not below `n`. -/
def roundUp (n a : Nat) : Nat :=
  (n + (a - 1)) / a * a

/-- The size of a scalar, a vector or a matrix. -/
def elementSize (t : Ty) : Nat :=
  if t.isMatrix then 16 * t.rows.toNat else 4 * t.rows.toNat

/-- The size of a uniform. -/
def exactSize (t : Ty) : Nat :=
  if t.isArray then roundUp (elementSize t) 16 * t.arrayLength.toNat else elementSize t

/-- The alignment of a uniform. -/
def alignment (t : Ty) : Nat :=
  (extent t).2.toNat

/-- Where the block of some uniforms ends. -/
def exactTotal (us : List Uniform) : Nat :=
  us.foldl (fun total u => roundUp total (alignment u.type) + exactSize u.type) 0

theorem exactTotal_concat (us : List Uniform) (u : Uniform) :
    exactTotal (us ++ [u]) = roundUp (exactTotal us) (alignment u.type) + exactSize u.type := by
  rw [exactTotal, List.foldl_concat, exactTotal]

theorem le_roundUp (n : Nat) {a : Nat} (ha : 0 < a) : n ≤ roundUp n a := by
  have hdiv := Nat.div_add_mod (n + (a - 1)) a
  have hmod := Nat.mod_lt (n + (a - 1)) ha
  rw [Nat.mul_comm] at hdiv
  unfold roundUp
  omega

theorem dvd_roundUp (n a : Nat) : a ∣ roundUp n a :=
  Nat.dvd_mul_left a _

/-- Clearing the low bits of a word leaves a multiple of a power of two. -/
theorem and_not_mask (x : UInt32) {k : Nat} (hk : k ≤ 4) :
    (x &&& ~~~(UInt32.ofNat (2 ^ k) - 1)).toNat = x.toNat / 2 ^ k * 2 ^ k := by
  have hmask : (~~~(UInt32.ofNat (2 ^ k) - 1)).toBitVec = BitVec.allOnes 32 <<< k := by
    interval_cases k <;> rfl
  have hle : x.toNat / 2 ^ k * 2 ^ k ≤ x.toNat := Nat.div_mul_le_self _ _
  have hx : x.toNat < 2 ^ 32 := x.toNat_lt
  rw [← UInt32.toNat_toBitVec, UInt32.toBitVec_and, hmask, ← BitVec.shiftLeft_ushiftRight,
    BitVec.toNat_shiftLeft, BitVec.toNat_ushiftRight, Nat.shiftRight_eq_div_pow, Nat.shiftLeft_eq,
    UInt32.toNat_toBitVec]
  exact Nat.mod_eq_of_lt (Nat.lt_of_le_of_lt hle hx)

/-- Rounding up is exact if its result fits into a word. -/
theorem alignUp_toNat (x : UInt32) {k : Nat} (hk : k ≤ 4)
    (hfits : roundUp x.toNat (2 ^ k) < 2 ^ 32) :
    (alignUp x (UInt32.ofNat (2 ^ k))).toNat = roundUp x.toNat (2 ^ k) := by
  have hmask : (UInt32.ofNat (2 ^ k) - 1).toNat = 2 ^ k - 1 := by
    interval_cases k <;> rfl
  -- The sum can only wrap if the multiple behind it is 2^32 or more.
  have hsum : (x + (UInt32.ofNat (2 ^ k) - 1)).toNat = x.toNat + (2 ^ k - 1) := by
    have hx : x.toNat < 2 ^ 32 := x.toNat_lt
    rw [UInt32.toNat_add, hmask]
    refine Nat.mod_eq_of_lt ?_
    unfold roundUp at hfits
    interval_cases k <;> omega
  rw [alignUp, and_not_mask _ hk, hsum, roundUp]

variable {t : Ty}

theorem IsShape.rows_cases (ht : IsShape t) :
    t.rows = 1 ∨ t.rows = 2 ∨ t.rows = 3 ∨ t.rows = 4 := by
  have hrows := ht.rows
  simp only [← UInt32.toNat_inj, UInt32.reduceToNat]
  omega

theorem extent_element (t : Ty) :
    extent t.element =
      if t.isMatrix then (t.rows * 16, 16)
      else if t.rows = 2 then (8, 8)
      else if t.rows > 2 then (t.rows * 4, 16)
      else (4, 4) := by
  simp [extent, Ty.element, Ty.isArray, Ty.isMatrix]

theorem extent_eq (ht : IsShape t) :
    extent t =
      if t.isArray then (alignUp (extent t.element).1 16 * UInt32.ofInt t.arrayLength, 16)
      else extent t.element := by
  have hlength : (t.isArray && decide (t.arrayLength > 0)) = t.isArray := by
    have := ht.length
    simp only [Ty.isArray]
    grind
  rw [extent_element, extent, hlength]

/-- Whether a size and an alignment are those of a scalar or a vector. Whatever multiple of its
alignment one of these begins at, it ends in the same row of 16 bytes. -/
def IsVectorExtent (size alignment : Nat) : Prop :=
  (size = 4 ∧ alignment = 4) ∨ (size = 8 ∧ alignment = 8)
    ∨ (12 ≤ size ∧ size ≤ 16 ∧ alignment = 16)

theorem IsVectorExtent.same_row {size alignment offset : Nat} (h : IsVectorExtent size alignment)
    (hoffset : alignment ∣ offset) : offset / 16 = (offset + size - 1) / 16 := by
  obtain ⟨rfl, rfl⟩ | ⟨rfl, rfl⟩ | ⟨hlower, hupper, rfl⟩ := h <;> omega

theorem extent_vector (ht : IsShape t) (hmatrix : t.isMatrix = false) :
    (extent t.element).1.toNat = elementSize t
      ∧ IsVectorExtent (elementSize t) (alignment t.element) := by
  rw [alignment, extent_element, elementSize, hmatrix]
  obtain h | h | h | h := ht.rows_cases <;> simp [h, IsVectorExtent]

theorem extent_matrix (ht : IsShape t) (hmatrix : t.isMatrix = true) :
    (extent t.element).1.toNat = elementSize t ∧ alignment t.element = 16 := by
  rw [alignment, extent_element, elementSize, hmatrix]
  obtain h | h | h | h := ht.rows_cases <;> simp [h]

theorem elementSize_bounds (ht : IsShape t) : 0 < elementSize t ∧ elementSize t ≤ 64 := by
  have hrows := ht.rows
  unfold elementSize
  split <;> omega

theorem exactSize_pos (ht : IsShape t) : 0 < exactSize t := by
  have hsize := (elementSize_bounds ht).1
  unfold exactSize
  split
  next harray =>
    have hround := le_roundUp (elementSize t) (a := 16) (by decide)
    have hlength : 0 < t.arrayLength.toNat := by
      have := ht.length
      simp only [Ty.isArray, ne_eq, decide_not, Bool.not_eq_true',
        decide_eq_false_iff_not] at harray
      omega
    exact Nat.mul_pos (Nat.lt_of_lt_of_le hsize hround) hlength
  next => exact hsize

theorem extent_size (ht : IsShape t) : (extent t).1.toNat = exactSize t := by
  have helement : (extent t.element).1.toNat = elementSize t := by
    cases hmatrix : t.isMatrix with
    | false => exact (extent_vector ht hmatrix).1
    | true => exact (extent_matrix ht hmatrix).1
  rw [extent_eq ht, exactSize]
  split
  next =>
    have hbounds := elementSize_bounds ht
    have hround : roundUp (elementSize t) 16 ≤ 64 := by
      unfold roundUp
      omega
    have hstride : (alignUp (extent t.element).1 16).toNat = roundUp (elementSize t) 16 := by
      rw [← helement] at hround ⊢
      exact alignUp_toNat (extent t.element).1 (k := 4) (by decide)
        (Nat.lt_of_le_of_lt hround (by decide))
    have hlength : (UInt32.ofInt t.arrayLength).toNat = t.arrayLength.toNat := by
      have := ht.length
      rw [UInt32.ofInt, UInt32.toNat_ofNat']
      omega
    have hproduct : roundUp (elementSize t) 16 * t.arrayLength.toNat ≤ 64 * 65536 := by
      have := ht.length
      exact Nat.mul_le_mul hround (by omega)
    rw [UInt32.toNat_mul, hstride, hlength]
    exact Nat.mod_eq_of_lt (by omega)
  next => exact helement

/-- Alignments are powers of two. -/
theorem extent_alignment (ht : IsShape t) :
    ∃ k, 2 ≤ k ∧ k ≤ 4 ∧ (extent t).2 = UInt32.ofNat (2 ^ k) := by
  by_cases harray : t.isArray
  · rw [extent_eq ht, if_pos harray]
    exact ⟨4, by decide, by decide, rfl⟩
  · rw [extent_eq ht, if_neg harray, extent_element]
    split_ifs
    · exact ⟨4, by decide, by decide, rfl⟩
    · exact ⟨3, by decide, by decide, rfl⟩
    · exact ⟨4, by decide, by decide, rfl⟩
    · exact ⟨2, by decide, by decide, rfl⟩

theorem alignment_eq (ht : IsShape t) : ∃ k, 2 ≤ k ∧ alignment t = 2 ^ k := by
  obtain ⟨k, hlower, hupper, hpow⟩ := extent_alignment ht
  refine ⟨k, hlower, ?_⟩
  rw [alignment, hpow]
  interval_cases k <;> rfl

theorem alignment_pos (ht : IsShape t) : 0 < alignment t := by
  obtain ⟨k, -, hpow⟩ := alignment_eq ht
  exact hpow ▸ Nat.two_pow_pos k

/-- Everything begins at a multiple of four bytes. -/
theorem four_dvd_alignment (ht : IsShape t) : 4 ∣ alignment t := by
  obtain ⟨k, hk, hpow⟩ := alignment_eq ht
  exact hpow ▸ Nat.pow_dvd_pow 2 hk

/-- Further uniforms do not make a block smaller. -/
theorem exactTotal_le_append (us : List Uniform) {vs : List Uniform}
    (hshape : ∀ u ∈ vs, IsShape u.type) :
    exactTotal us ≤ exactTotal (us ++ vs) := by
  induction vs generalizing us with
  | nil => rw [List.append_nil]
  | cons v vs ih =>
    have hv : exactTotal us ≤ exactTotal (us ++ [v]) := by
      have hround := le_roundUp (exactTotal us) (alignment_pos (hshape v List.mem_cons_self))
      rw [exactTotal_concat]
      omega
    calc exactTotal us
      _ ≤ exactTotal (us ++ [v]) := hv
      _ ≤ exactTotal (us ++ [v] ++ vs) := ih _ fun u hu => hshape u (List.mem_cons_of_mem v hu)
      _ = exactTotal (us ++ v :: vs) := by rw [List.append_assoc, List.singleton_append]

theorem same_row (ht : IsShape t) (hvector : t.isScalar ∨ t.isVector ∧ ¬t.isArray)
    {offset : Nat} (hoffset : alignment t ∣ offset) :
    offset / 16 = (offset + exactSize t - 1) / 16 := by
  have hmatrix : t.isMatrix = false := by
    simp only [Ty.isScalar, Ty.isVector, Ty.isMatrix] at hvector ⊢
    grind
  have harray : t.isArray = false := by
    simp only [Ty.isScalar] at hvector
    grind
  have helement : t.element = t := by
    simp only [Ty.isArray, ne_eq, decide_not, Bool.not_eq_false', decide_eq_true_eq] at harray
    rw [Ty.element, ← harray]
  have hextent := (extent_vector ht hmatrix).2
  rw [helement] at hextent
  rw [exactSize, harray]
  exact hextent.same_row hoffset

/-- What is asked of uniforms that share a block of the given size: they lie one behind the other
and apart, each at a multiple of its alignment, none but matrices and arrays across a row of 16
bytes, and the block ends where the last of them does. -/
structure LaidOut (us : List Uniform) (size : UInt32) : Prop where
  sizes : ∀ u ∈ us, u.slot.size.toNat = exactSize u.type
  nonempty : ∀ u ∈ us, 0 < u.slot.size.toNat
  increasing :
    us.Pairwise fun u v => u.slot.offset.toNat + u.slot.size.toNat ≤ v.slot.offset.toNat
  aligned : ∀ u ∈ us, (extent u.type).2.toNat ∣ u.slot.offset.toNat
  within : ∀ u ∈ us, u.type.isScalar ∨ u.type.isVector ∧ ¬u.type.isArray →
    u.slot.offset.toNat / 16 = (u.slot.offset.toNat + u.slot.size.toNat - 1) / 16
  total : size.toNat = (us.getLast?.map fun u => u.slot.offset.toNat + u.slot.size.toNat).getD 0

theorem LaidOut.nil : LaidOut [] 0 :=
  ⟨List.forall_mem_nil _, List.forall_mem_nil _, .nil, List.forall_mem_nil _,
    List.forall_mem_nil _, rfl⟩

/-- A uniform where it is placed behind the given number of bytes. -/
def placed (u : Uniform) (total : UInt32) : Uniform :=
  { u with slot := place u.type total }

theorem place_exact {total : UInt32} (ht : IsShape t)
    (hfits : roundUp total.toNat (alignment t) + exactSize t < 2 ^ 32) :
    (place t total).offset.toNat = roundUp total.toNat (alignment t)
      ∧ (place t total).size.toNat = exactSize t
      ∧ (place t total).stop.toNat = roundUp total.toNat (alignment t) + exactSize t := by
  obtain ⟨k, hlower, hk, hpow⟩ := extent_alignment ht
  have halignment : alignment t = 2 ^ k := by
    rw [alignment, hpow]
    interval_cases k <;> rfl
  have hoffset : (place t total).offset.toNat = roundUp total.toNat (alignment t) := by
    rw [halignment] at hfits ⊢
    show (alignUp total (extent t).2).toNat = _
    rw [hpow]
    exact alignUp_toNat total hk (by omega)
  have hsize : (place t total).size.toNat = exactSize t := extent_size ht
  refine ⟨hoffset, hsize, ?_⟩
  rw [Slot.stop, UInt32.toNat_add, hoffset, hsize]
  exact Nat.mod_eq_of_lt hfits

/-- Every uniform of a block ends inside of it. -/
theorem LaidOut.stop_le {us : List Uniform} {size : UInt32} (h : LaidOut us size) :
    ∀ u ∈ us, u.slot.offset.toNat + u.slot.size.toNat ≤ size.toNat := by
  intro u hu
  obtain ⟨front, last, rfl⟩ := List.eq_nil_or_concat us |>.resolve_left (List.ne_nil_of_mem hu)
  have htotal : size.toNat = last.slot.offset.toNat + last.slot.size.toNat := by simpa using h.total
  obtain hfront | rfl : u ∈ front ∨ u = last := by simpa using hu
  · have hbefore : u.slot.offset.toNat + u.slot.size.toNat ≤ last.slot.offset.toNat :=
      (List.pairwise_append.mp (List.concat_eq_append ▸ h.increasing)).2.2 u hfront last (by simp)
    omega
  · exact htotal.ge

/-- A further uniform keeps a block laid out. -/
theorem LaidOut.place {us : List Uniform} {size : UInt32} (h : LaidOut us size) {u : Uniform}
    (hu : IsShape u.type)
    (hfits : roundUp size.toNat (alignment u.type) + exactSize u.type < 2 ^ 32) :
    LaidOut (us ++ [placed u size]) (Layout.place u.type size).stop := by
  obtain ⟨hoffset, hsize, hstop⟩ := place_exact hu hfits
  have haligned : alignment u.type ∣ (Layout.place u.type size).offset.toNat :=
    hoffset ▸ dvd_roundUp _ _
  constructor
  case sizes =>
    exact List.forall_mem_append.mpr ⟨h.sizes, List.forall_mem_singleton.mpr hsize⟩
  case nonempty =>
    exact List.forall_mem_append.mpr ⟨h.nonempty,
      List.forall_mem_singleton.mpr (hsize ▸ exactSize_pos hu)⟩
  case increasing =>
    refine List.pairwise_append.mpr ⟨h.increasing, List.pairwise_singleton _ _,
      fun v hv w hw => ?_⟩
    obtain rfl := List.mem_singleton.mp hw
    calc v.slot.offset.toNat + v.slot.size.toNat
      _ ≤ size.toNat := h.stop_le v hv
      _ ≤ roundUp size.toNat (alignment u.type) := le_roundUp _ (alignment_pos hu)
      _ = (Layout.place u.type size).offset.toNat := hoffset.symm
  case aligned =>
    exact List.forall_mem_append.mpr ⟨h.aligned, List.forall_mem_singleton.mpr haligned⟩
  case within =>
    refine List.forall_mem_append.mpr ⟨h.within,
      List.forall_mem_singleton.mpr fun hvector => ?_⟩
    rw [show (placed u size).slot.size.toNat = exactSize u.type from hsize]
    exact same_row hu hvector haligned
  case total =>
    rw [List.getLast?_concat, hstop, ← hoffset, ← hsize]
    rfl

end ShaderEffect.Layout

import Mathlib
import ShaderEffect.Basic

namespace ShaderEffect.Table

variable {κ α : Type} [BEq κ] [LawfulBEq κ]

theorem get?_set (t : Table κ α) (key k : κ) (value : α) :
    (t.set key value).get? k = if k == key then some value else t.get? k := by
  induction t with
  | nil => cases h : k == key <;> simp [set, get?, List.lookup, h]
  | cons e rest ih =>
    obtain ⟨k', v⟩ := e
    simp only [get?, set, List.lookup] at ih ⊢
    by_cases hkey : k' = key
    · subst hkey
      simp only [BEq.rfl, if_true, List.lookup]
      cases k == k' <;> rfl
    · rw [if_neg (by simpa using hkey), List.lookup, ih]
      by_cases hk : k = k'
      · subst hk
        have hne : (k == key) = false := by simpa using hkey
        simp only [BEq.rfl, hne, Bool.false_eq_true, if_false]
      · rw [show (k == k') = false by simpa using hk]

@[simp] theorem get?_set_self (t : Table κ α) (key : κ) (value : α) :
    (t.set key value).get? key = some value := by
  rw [get?_set, BEq.rfl, if_pos rfl]

theorem get?_set_of_ne {t : Table κ α} {key k : κ} {value : α} (h : k ≠ key) :
    (t.set key value).get? k = t.get? k := by
  rw [get?_set, if_neg (by simpa using h)]

theorem length_set_of_none {t : Table κ α} {key : κ} {value : α} (h : t.get? key = none) :
    (t.set key value).length = t.length + 1 := by
  induction t with
  | nil => rfl
  | cons e rest ih =>
    obtain ⟨k', v⟩ := e
    simp only [get?, List.lookup] at h ih
    cases hk : key == k' with
    | true => simp [hk] at h
    | false =>
      have hne : (k' == key) = false := beq_false_of_ne (ne_of_beq_false hk).symm
      simp only [hk] at h
      simp [set, hne, ih h]

theorem get?_of_not_mem {t : Table κ α} {key : κ} (h : key ∉ t.map (·.1)) :
    t.get? key = none := by
  induction t with
  | nil => rfl
  | cons e rest ih =>
    obtain ⟨k, v⟩ := e
    obtain ⟨hne, hrest⟩ := not_or.mp (List.mem_cons.not.mp h)
    rw [get?, List.lookup, show (key == k) = false by simpa using hne]
    exact ih hrest

/-- A key that is behind others is found behind them. -/
theorem get?_append {t u : Table κ α} {key : κ} (h : key ∉ t.map (·.1)) :
    get? (t ++ u) key = u.get? key := by
  induction t with
  | nil => rfl
  | cons e rest ih =>
    obtain ⟨k, v⟩ := e
    obtain ⟨hne, hrest⟩ := not_or.mp (List.mem_cons.not.mp h)
    rw [List.cons_append, get?, List.lookup, show (key == k) = false by simpa using hne]
    exact ih hrest

/-- A key that is behind others is set behind them. -/
theorem set_append {t u : Table κ α} {key : κ} {value : α} (h : key ∉ t.map (·.1)) :
    set key value (t ++ u) = t ++ set key value u := by
  induction t with
  | nil => rfl
  | cons e rest ih =>
    obtain ⟨k, v⟩ := e
    obtain ⟨hne, hrest⟩ := not_or.mp (List.mem_cons.not.mp h)
    rw [List.cons_append, set, if_neg (by simpa using Ne.symm hne), ih hrest, List.cons_append]

theorem get?_filter_ne [DecidableEq κ] (t : Table κ α) (key k : κ) :
    get? (t.filter fun e => e.1 ≠ key) k = if k = key then none else t.get? k := by
  induction t with
  | nil => simp [get?]
  | cons e rest ih =>
    obtain ⟨k', v⟩ := e
    simp only [get?] at ih ⊢
    by_cases hkey : k' = key
    · rw [List.filter_cons_of_neg (by simpa using hkey), ih, List.lookup]
      by_cases hk : k = key
      · rw [if_pos hk, if_pos hk]
      · rw [show (k == k') = false by simpa [hkey] using hk]
    · rw [List.filter_cons_of_pos (by simpa using hkey), List.lookup, List.lookup, ih]
      by_cases hk : k = k'
      · subst hk
        simp [hkey]
      · rw [show (k == k') = false by simpa using hk]

end ShaderEffect.Table

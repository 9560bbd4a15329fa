import Mathlib.Data.List.GetD
import Mathlib.Tactic.Common

/-!
# Memories and slices

A memory is a function from addresses to bytes. `store` writes a list from an address on and `slice`
reads one back. A slice of what was just stored is that list (`slice_store`), a slice beside it is
unchanged (`slice_store_of_disjoint`), and a slice depends on its own addresses only (`slice_congr`).
-/

namespace KTools.Lib.Bytes

variable {α : Type*}

/-- Writes `bytes` at the addresses from `off` on. -/
def store (m : Nat → α) (off : Nat) (bytes : List α) : Nat → α :=
  fun i => if off ≤ i then bytes.getD (i - off) (m i) else m i

/-- The `len` bytes from `off` on. -/
def slice (m : Nat → α) (off len : Nat) : List α := (List.range len).map fun i => m (off + i)

section store
variable (m : Nat → α) (off : Nat) (bytes : List α)

theorem store_of_lt {i : Nat} (h : i < off) : store m off bytes i = m i :=
  if_neg (Nat.not_le.2 h)

theorem store_of_le {i : Nat} (h : off + bytes.length ≤ i) : store m off bytes i = m i := by
  unfold store
  rw [if_pos (by omega)]
  exact List.getD_eq_default _ _ (by omega)

theorem store_add {i : Nat} (h : i < bytes.length) : store m off bytes (off + i) = bytes[i] := by
  unfold store
  rw [if_pos (Nat.le_add_right _ _), Nat.add_sub_cancel_left]
  exact List.getD_eq_getElem _ _ h

/-- A store changes its own addresses only. -/
theorem store_of_disjoint {i : Nat} (h : i < off ∨ off + bytes.length ≤ i) :
    store m off bytes i = m i := by
  rcases h with h | h
  · exact store_of_lt m off bytes h
  · exact store_of_le m off bytes h

/-- Inside the stored range the old memory does not count. -/
theorem store_congr {m' : Nat → α} {i : Nat} (h : i < off ∨ off + bytes.length ≤ i → m i = m' i) :
    store m off bytes i = store m' off bytes i := by
  by_cases hin : i < off ∨ off + bytes.length ≤ i
  · rw [store_of_disjoint m off bytes hin, store_of_disjoint m' off bytes hin, h hin]
  · obtain ⟨k, rfl⟩ := Nat.exists_eq_add_of_le (show off ≤ i by omega)
    rw [store_add m off bytes (by omega), store_add m' off bytes (by omega)]

/-- A store right behind another one. -/
theorem store_append (bytes' : List α) :
    store (store m off bytes) (off + bytes.length) bytes' = store m off (bytes ++ bytes') := by
  funext i
  rcases Nat.lt_or_ge i (off + bytes.length) with h | h
  · rw [store_of_lt _ _ _ h]
    simp only [store]
    split
    · rw [List.getD_append _ _ _ _ (by omega)]
    · rfl
  · simp only [store]
    rw [if_pos h, if_pos (by omega), if_pos (by omega), List.getD_append_right _ _ _ _ (by omega),
      List.getD_eq_default bytes _ (by omega), Nat.sub_sub]

@[simp] theorem store_nil : store m off [] = m := by
  funext i
  simp [store]

end store

section slice

@[simp] theorem length_slice (m : Nat → α) (off len : Nat) : (slice m off len).length = len := by
  simp [slice]

@[simp] theorem getElem_slice (m : Nat → α) (off len i : Nat) (h : i < (slice m off len).length) :
    (slice m off len)[i] = m (off + i) := by
  simp [slice]

theorem slice_congr {m m' : Nat → α} {off len : Nat} (h : ∀ i, off ≤ i → i < off + len → m i = m' i) :
    slice m off len = slice m' off len := by
  apply List.map_congr_left
  intro i hi
  exact h _ (Nat.le_add_right _ _) (Nat.add_lt_add_left (List.mem_range.1 hi) _)

theorem slice_add (m : Nat → α) (off len len' : Nat) :
    slice m off (len + len') = slice m off len ++ slice m (off + len) len' := by
  refine List.ext_getElem (by simp) fun i h h' => ?_
  rw [List.getElem_append]
  split
  · simp
  · rename_i hge
    simp only [length_slice] at hge
    simp only [getElem_slice, length_slice]
    congr 1
    omega

theorem take_slice (m : Nat → α) (off : Nat) {len len' : Nat} (h : len' ≤ len) :
    (slice m off len).take len' = slice m off len' := by
  obtain ⟨k, rfl⟩ := Nat.exists_eq_add_of_le h
  rw [slice_add]
  exact List.take_left' (length_slice m off len')

theorem drop_slice (m : Nat → α) (off : Nat) {len len' : Nat} (h : len' ≤ len) :
    (slice m off len).drop len' = slice m (off + len') (len - len') := by
  obtain ⟨k, rfl⟩ := Nat.exists_eq_add_of_le h
  rw [slice_add, Nat.add_sub_cancel_left]
  exact List.drop_left' (length_slice m off len')

/-- A slice inside a slice. -/
theorem take_drop_slice (m : Nat → α) (off : Nat) {len i n : Nat} (h : i + n ≤ len) :
    ((slice m off len).drop i).take n = slice m (off + i) n := by
  rw [drop_slice m off (by omega), take_slice m _ (by omega)]

theorem slice_store (m : Nat → α) (off : Nat) (bytes : List α) :
    slice (store m off bytes) off bytes.length = bytes := by
  refine List.ext_getElem (by simp) fun i h h' => ?_
  rw [getElem_slice, store_add m off bytes h']

/-- Part of what was stored. -/
theorem slice_store_inside (m : Nat → α) (off : Nat) (bytes : List α) {i n : Nat}
    (h : i + n ≤ bytes.length) :
    slice (store m off bytes) (off + i) n = (bytes.drop i).take n := by
  rw [← take_drop_slice (store m off bytes) off h, slice_store]

theorem slice_store_of_disjoint (m : Nat → α) {off len : Nat} {off' : Nat} {bytes : List α}
    (h : off + len ≤ off' ∨ off' + bytes.length ≤ off) :
    slice (store m off' bytes) off len = slice m off len := by
  refine slice_congr fun i hlow hhigh => store_of_disjoint m off' bytes ?_
  omega

end slice

end KTools.Lib.Bytes

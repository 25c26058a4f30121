import Mathlib.Tactic

set_option autoImplicit false

/-! # A buffer that is read and written in place

A buffer is a function from positions to cells; what it held at first is arbitrary. `cells b off n`
is the list of the `n` cells from position `off` on, and `write b off src` overwrites as many cells
as `src` has. What a sequence of writes leaves is read off part by part: the cells of the last write,
and around it those of the writes before.
-/

namespace C64Iec.Lib

variable {α : Type*}

/-- The `n` cells from position `off` on. -/
def cells (b : Nat → α) (off n : Nat) : List α := (List.range n).map fun i => b (off + i)

/-- The buffer with the cells from `off` on overwritten by `src`. -/
def write (b : Nat → α) (off : Nat) (src : List α) : Nat → α :=
  fun i => if off ≤ i then (src[i - off]?).getD (b i) else b i

variable {b : Nat → α} {off : Nat} {src : List α}

@[simp] theorem cells_length (b : Nat → α) (off n : Nat) : (cells b off n).length = n := by
  simp [cells]

@[simp] theorem cells_zero (b : Nat → α) (off : Nat) : cells b off 0 = [] := rfl

theorem cells_succ (b : Nat → α) (off n : Nat) :
    cells b off (n + 1) = b off :: cells b (off + 1) n := by
  simp only [cells, List.range_succ_eq_map, List.map_cons, List.map_map, Nat.add_zero]
  congr 1
  refine List.map_congr_left fun i _ => ?_
  show b (off + (i + 1)) = b (off + 1 + i)
  rw [Nat.add_assoc, Nat.add_comm 1 i]

theorem cells_add (b : Nat → α) (off m n : Nat) :
    cells b off (m + n) = cells b off m ++ cells b (off + m) n := by
  simp only [cells, List.range_add, List.map_append, List.map_map]
  congr 1
  refine List.map_congr_left fun i _ => ?_
  show b (off + (m + i)) = b (off + m + i)
  rw [Nat.add_assoc]

theorem cells_congr {b b' : Nat → α} {off n : Nat} (h : ∀ i, off ≤ i → i < off + n → b i = b' i) :
    cells b off n = cells b' off n :=
  List.map_congr_left fun i hi => h _ (Nat.le_add_right _ _) (by
    have := List.mem_range.mp hi
    omega)

/-- A cell read by itself. -/
theorem cells_getD (b : Nat → α) {off n i : Nat} (h : i < n) (d : α) :
    (cells b off n).getD i d = b (off + i) := by
  simp [cells, h]

theorem take_cells (b : Nat → α) (off : Nat) {m n : Nat} (h : m ≤ n) :
    (cells b off n).take m = cells b off m := by
  obtain ⟨k, rfl⟩ := Nat.exists_eq_add_of_le h
  rw [cells_add, List.take_append_of_le_length (by simp), List.take_of_length_le (by simp)]

theorem drop_cells (b : Nat → α) (off m n : Nat) :
    (cells b off (m + n)).drop m = cells b (off + m) n := by
  rw [cells_add, List.drop_append_of_le_length (by simp), List.drop_of_length_le (by simp),
    List.nil_append]

/-! ## Writes -/

theorem write_before {i : Nat} (h : i < off) : write b off src i = b i :=
  if_neg (Nat.not_le_of_lt h)

theorem write_behind {i : Nat} (h : off + src.length ≤ i) : write b off src i = b i := by
  have hout : src[i - off]? = none := List.getElem?_eq_none (by omega)
  rw [write, if_pos (by omega), hout]
  rfl

theorem write_at {i : Nat} (h : i < src.length) : write b off src (off + i) = src[i] := by
  rw [write, if_pos (Nat.le_add_right _ _), Nat.add_sub_cancel_left, List.getElem?_eq_getElem h]
  rfl

theorem write_singleton (b : Nat → α) (off : Nat) (x : α) : write b off [x] off = x :=
  write_at (show 0 < [x].length from Nat.zero_lt_one)

/-- **What has been written is read back.** -/
theorem cells_write (b : Nat → α) (off : Nat) (src : List α) :
    cells (write b off src) off src.length = src := by
  refine List.ext_getElem (by simp) fun i h₁ h₂ => ?_
  simp only [cells, List.getElem_map, List.getElem_range]
  exact write_at h₂

/-- **A write changes nothing else.** -/
theorem cells_write_of_disjoint {o n : Nat} (h : o + n ≤ off ∨ off + src.length ≤ o) :
    cells (write b off src) o n = cells b o n := by
  refine cells_congr fun i hi hlt => ?_
  rcases h with h | h
  · exact write_before (by omega)
  · exact write_behind (by omega)

/-- Part of a buffer that has been cleared. -/
theorem cells_write_replicate {n o k : Nat} {x : α} (hoff : off ≤ o) (hfits : o + k ≤ off + n) :
    cells (write b off (List.replicate n x)) o k = List.replicate k x := by
  refine List.ext_getElem (by simp) fun i h₁ h₂ => ?_
  rw [List.length_replicate] at h₂
  obtain ⟨m, hm⟩ := Nat.exists_eq_add_of_le (show off ≤ o + i by omega)
  simp only [cells, List.getElem_map, List.getElem_range, List.getElem_replicate]
  rw [hm, write_at (by rw [List.length_replicate]; omega), List.getElem_replicate]

/-- Two writes, the second where the first ends, are one. -/
theorem write_append (b : Nat → α) (off : Nat) (x y : List α) :
    write (write b off x) (off + x.length) y = write b off (x ++ y) := by
  funext i
  by_cases hx : i < off + x.length
  · rw [write_before hx]
    by_cases hoff : off ≤ i
    · obtain ⟨k, rfl⟩ := Nat.exists_eq_add_of_le hoff
      rw [write_at (by omega), write_at (by rw [List.length_append]; omega),
        List.getElem_append_left]
    · rw [write_before (by omega), write_before (by omega)]
  · obtain ⟨k, rfl⟩ := Nat.exists_eq_add_of_le (Nat.le_of_not_lt hx)
    by_cases hy : k < y.length
    · have hlast : x.length + k < (x ++ y).length := by
        rw [List.length_append]
        omega
      rw [write_at hy, Nat.add_assoc, write_at hlast, List.getElem_append_right (by omega)]
      simp
    · rw [write_behind (by omega), write_behind (by omega),
        write_behind (by rw [List.length_append]; omega)]

end C64Iec.Lib

import Mathlib.Tactic

set_option autoImplicit false

/-! # A list cut into blocks

`block n d k` is the `k`-th block of `n` cells of `d`, counted from `0`. The blocks before
index `d.length / n` are full, the one at that index is the first short one (it is empty when
`n` divides the length), and the blocks up to and including it make up `d`.
-/

namespace C64Iec.Lib

variable {α : Type*}

/-- The `k`-th block of `n` cells of `d`. -/
def block (n : Nat) (d : List α) (k : Nat) : List α := (d.drop (n * k)).take n

theorem take_append_block (n : Nat) (d : List α) (k : Nat) :
    d.take (n * k) ++ block n d k = d.take (n * (k + 1)) := by
  rw [block, Nat.mul_succ, List.take_add]

theorem block_length (n : Nat) (d : List α) (k : Nat) :
    (block n d k).length = min n (d.length - n * k) := by
  simp [block]

theorem block_length_le (n : Nat) (d : List α) (k : Nat) : (block n d k).length ≤ n := by
  rw [block_length]
  exact Nat.min_le_left _ _

theorem mul_succ_le_of_lt_div {n l k : Nat} (h : k < l / n) : n * (k + 1) ≤ l :=
  calc n * (k + 1) ≤ n * (l / n) := Nat.mul_le_mul_left n h
    _ ≤ l := Nat.mul_div_le l n

/-- The blocks before the first short one are full. -/
theorem block_length_of_lt {n : Nat} {d : List α} {k : Nat} (h : k < d.length / n) :
    (block n d k).length = n := by
  have hle := mul_succ_le_of_lt_div h
  rw [Nat.mul_succ] at hle
  rw [block_length]
  omega

/-- The first short block holds what the full ones leave over. -/
theorem block_length_last {n : Nat} (hn : 0 < n) (d : List α) :
    (block n d (d.length / n)).length = d.length % n := by
  have hmod := Nat.mod_lt d.length hn
  have hdm := Nat.div_add_mod d.length n
  rw [block_length]
  omega

theorem block_length_lt_iff {n : Nat} (hn : 0 < n) {d : List α} {k : Nat}
    (hk : k ≤ d.length / n) : (block n d k).length < n ↔ k = d.length / n := by
  rcases Nat.lt_or_eq_of_le hk with hlt | rfl
  · rw [block_length_of_lt hlt]
    omega
  · rw [block_length_last hn]
    exact ⟨fun _ => rfl, fun _ => Nat.mod_lt _ hn⟩

/-- The blocks up to the first short one make up the list. -/
theorem take_blocks_all {n : Nat} (hn : 0 < n) (d : List α) :
    d.take (n * (d.length / n + 1)) = d := by
  refine List.take_of_length_le ?_
  have hmod := Nat.mod_lt d.length hn
  have hdm := Nat.div_add_mod d.length n
  rw [Nat.mul_succ]
  omega

/-- The blocks before the `k`-th, one after the other. -/
theorem flatten_blocks (n : Nat) (d : List α) (k : Nat) :
    ((List.range k).map (block n d)).flatten = d.take (n * k) := by
  induction k with
  | zero => simp
  | succ k ih => simp [List.range_succ, ih, take_append_block]

theorem drop_mul_succ (n : Nat) (d : List α) (k : Nat) :
    (d.drop (n * k)).drop n = d.drop (n * (k + 1)) := by
  rw [List.drop_drop, Nat.mul_succ]

end C64Iec.Lib

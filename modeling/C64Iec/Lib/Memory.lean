import Mathlib.Tactic

set_option autoImplicit false

/-! # Memory as a list of cells

A buffer is the list of its cells. `blit mem off src` copies the cells `src` over `mem` from
position `off` on; a copy that runs past the end of `mem` makes the result longer than `mem`,
so an overrun shows in the length, and in no other buffer. `storeAt` and `moveWithin` are accesses that fail instead.
`untilNul` is the string a reader finds that stops at the terminator.
-/

namespace C64Iec.Lib

variable {α : Type*}

/-- `mem` with the cells from `off` on overwritten by `src`. -/
def blit (mem : List α) (off : Nat) (src : List α) : List α :=
  mem.take off ++ src ++ mem.drop (off + src.length)

theorem blit_length {mem src : List α} {off : Nat} (h : off + src.length ≤ mem.length) :
    (blit mem off src).length = mem.length := by
  simp only [blit, List.length_append, List.length_take, List.length_drop]
  omega

/-- A copy makes nothing shorter. -/
theorem length_le_blit (mem : List α) (off : Nat) (src : List α) :
    mem.length ≤ (blit mem off src).length := by
  simp only [blit, List.length_append, List.length_take, List.length_drop]
  omega

theorem blit_zero (mem src : List α) : blit mem 0 src = src ++ mem.drop src.length := by
  simp [blit]

/-- The cells a copy has written are read back. -/
theorem take_drop_blit {mem src : List α} {off : Nat} (h : off ≤ mem.length) :
    ((blit mem off src).drop off).take src.length = src := by
  have hl : (mem.take off).length = off := List.length_take_of_le h
  rw [blit, List.append_assoc, List.drop_append_of_le_length (by omega),
    List.drop_of_length_le (by omega), List.nil_append, List.take_append_of_le_length (by omega),
    List.take_length]

theorem take_blit_zero (mem src : List α) : (blit mem 0 src).take src.length = src := by
  have h : ((blit mem 0 src).drop 0).take src.length = src := take_drop_blit (Nat.zero_le _)
  rwa [List.drop_zero] at h

/-- A header put before what has been copied behind its place. -/
theorem take_blit_header {mem head : List α} (body : List α) (h : head.length ≤ mem.length) :
    (blit (blit mem head.length body) 0 head).take (body.length + head.length) = head ++ body := by
  have hbody : ((blit mem head.length body).drop head.length).take body.length = body :=
    take_drop_blit h
  rw [blit_zero, Nat.add_comm, List.take_append, List.take_of_length_le (Nat.le_add_right _ _),
    Nat.add_sub_cancel_left, hbody]

theorem blit_nil (mem : List α) (off : Nat) : blit mem off [] = mem := by
  simp [blit]

/-- Two copies, the second right behind the first, are one. -/
theorem blit_blit {mem a b : List α} {off : Nat} (h : off ≤ mem.length) :
    blit (blit mem off a) (off + a.length) b = blit mem off (a ++ b) := by
  have hl : (mem.take off).length = off := List.length_take_of_le h
  have hla : (mem.take off ++ a).length = off + a.length := by simp [hl]
  have htake : (blit mem off a).take (off + a.length) = mem.take off ++ a := by
    rw [blit, List.take_append_of_le_length (by omega), List.take_of_length_le (by omega)]
  have hdrop : (blit mem off a).drop (off + a.length + b.length)
      = mem.drop (off + (a ++ b).length) := by
    rw [blit, List.drop_append, List.drop_of_length_le (by omega), List.nil_append, hla,
      List.drop_drop, List.length_append]
    congr 1
    omega
  rw [blit, htake, hdrop, blit]
  simp only [List.append_assoc]

/-- One cell is a copy of length one. -/
theorem set_eq_blit {mem : List α} {off : Nat} (h : off < mem.length) (c : α) :
    mem.set off c = blit mem off [c] := by
  rw [List.set_eq_take_append_cons_drop, if_pos h, blit, List.append_assoc]
  rfl

/-! ### Checked accesses -/

/-- A write to the cell at `pos`, which has to be in the buffer. -/
def storeAt (mem : List α) (pos : Int) (c : α) : Option (List α) :=
  if 0 ≤ pos ∧ pos < mem.length then some (mem.set pos.toNat c) else none

/-- A copy of `n` cells from `src` to `dst`, both of which have to be in the buffer. -/
def moveWithin (mem : List α) (dst src : Int) (n : Nat) : Option (List α) :=
  if 0 ≤ dst ∧ dst + n ≤ mem.length ∧ 0 ≤ src ∧ src + n ≤ mem.length then
    some (blit mem dst.toNat ((mem.drop src.toNat).take n))
  else none

theorem storeAt_of_lt {mem : List α} {pos : Int} {p : Nat} (hpos : pos = p) (h : p < mem.length)
    (c : α) : storeAt mem pos c = some (mem.set p c) := by
  rw [storeAt, if_pos (by omega), hpos, Int.toNat_natCast]

theorem moveWithin_of_le {mem : List α} {dst src n : Nat} (hdst : dst + n ≤ mem.length)
    (hsrc : src + n ≤ mem.length) :
    moveWithin mem dst src n = some (blit mem dst ((mem.drop src).take n)) := by
  rw [moveWithin, if_pos (by omega), Int.toNat_natCast, Int.toNat_natCast]

/-- The cells up to one that has just been written. -/
theorem take_set_succ {mem : List α} {off : Nat} (h : off < mem.length) (c : α) :
    (mem.set off c).take (off + 1) = mem.take off ++ [c] := by
  have hlen : (mem.take off).length = off := List.length_take_of_le (Nat.le_of_lt h)
  rw [List.take_set, List.take_add_one, List.getElem?_eq_getElem h,
    List.set_append_right _ _ hlen.le, hlen, Nat.sub_self]
  rfl

variable [DecidableEq α] [Zero α]

/-- The string at the start of a buffer: the cells before the first zero. -/
def untilNul : List α → List α
  | [] => []
  | c :: rest => if c = 0 then [] else c :: untilNul rest

theorem untilNul_append_nul {s : List α} (h : ∀ c ∈ s, c ≠ 0) (rest : List α) :
    untilNul (s ++ 0 :: rest) = s := by
  induction s with
  | nil => simp [untilNul]
  | cons c s ih =>
      have hc : c ≠ 0 := h c (by simp)
      rw [List.cons_append, untilNul, if_neg hc, ih fun x hx => h x (by simp [hx])]

/-- A NUL ends the string where it stands, if not before. -/
theorem untilNul_append_length_le (s rest : List α) :
    (untilNul (s ++ 0 :: rest)).length ≤ s.length := by
  induction s with
  | nil => simp [untilNul]
  | cons c s ih =>
      rw [List.cons_append, untilNul]
      split
      · exact Nat.zero_le _
      · exact Nat.succ_le_succ ih

theorem untilNul_ne_nul (mem : List α) : ∀ c ∈ untilNul mem, c ≠ 0 := by
  induction mem with
  | nil => simp [untilNul]
  | cons c mem ih =>
      by_cases hc : c = 0
      · simp [untilNul, hc]
      · intro x hx
        rw [untilNul, if_neg hc, List.mem_cons] at hx
        rcases hx with rfl | hx
        · exact hc
        · exact ih x hx

theorem untilNul_prefix (mem : List α) : untilNul mem <+: mem := by
  induction mem with
  | nil => exact List.prefix_rfl
  | cons c mem ih =>
      by_cases hc : c = 0
      · rw [untilNul, if_pos hc]
        exact List.nil_prefix
      · rw [untilNul, if_neg hc]
        exact (List.prefix_cons_inj c).mpr ih

/-! ## Strings one behind the other -/

/-- The strings that NULs divide a list of cells into. A NUL at the end ends the last string. -/
def strings : List α → List (List α)
  | [] => [[]]
  | c :: rest =>
      if c = 0 then if rest = [] then [[]] else [] :: strings rest
      else (strings rest).modifyHead (c :: ·)

/-- The first string, and those of what is left behind its NUL. -/
theorem strings_eq (mem : List α) :
    strings mem = untilNul mem ::
      if mem.drop ((untilNul mem).length + 1) = [] then []
      else strings (mem.drop ((untilNul mem).length + 1)) := by
  induction mem with
  | nil => simp [strings, untilNul]
  | cons c mem ih =>
      by_cases hc : c = 0
      · subst hc
        by_cases hnil : mem = [] <;> simp [strings, untilNul, hnil]
      · rw [strings, if_neg hc, ih]
        simp [untilNul, hc]

/-- Of NULs alone the last string is empty. -/
theorem getLast?_strings_of_all_nul {mem : List α} (h : ∀ c ∈ mem, c = 0) :
    (strings mem).getLast? = some [] := by
  induction mem with
  | nil => rfl
  | cons c mem ih =>
      obtain rfl : c = 0 := h c (by simp)
      by_cases hnil : mem = []
      · simp [strings, hnil]
      · have hlast := ih fun c hc => h c (by simp [hc])
        simp [strings, hnil, List.getLast?_cons, hlast]

/-- A first string that is empty and the last one leaves nothing but its NUL. -/
theorem all_nul_of_untilNul {mem : List α} (h : untilNul mem = [])
    (hrest : mem.drop ((untilNul mem).length + 1) = []) : ∀ c ∈ mem, c = 0 := by
  cases mem with
  | nil => simp
  | cons c mem =>
      by_cases hc : c = 0
      · have hmem : mem = [] := by simpa [untilNul, hc] using hrest
        simp [hc, hmem]
      · simp [untilNul, hc] at h

end C64Iec.Lib

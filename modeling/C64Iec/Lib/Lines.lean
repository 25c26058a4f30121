import Mathlib.Data.List.TakeWhile
import Mathlib.Tactic

set_option autoImplicit false

/-! # Line-anchored substitutions

A pattern anchored at `^` or `$` in a multi-line regular expression matches at every line of a
string, not only at its ends. Two such substitutions by the empty string are defined here over
an arbitrary alphabet, with `brk` the line break: `stripLineEnds` removes the padding before
each line end (`/[pad]*$/`), `stripLineStarts` removes what a pattern matches at each line
start (`/^pat/`).
-/

namespace C64Iec.Lib

variable {α : Type*}

section LineEnds

variable (pad brk : α → Bool)

/-- Whether `$` matches here: at the end of the string or before a line break. -/
def atLineEnd : List α → Bool
  | [] => true
  | c :: _ => brk c

/-- Substitute `/[pad]*$/` by the empty string. -/
def stripLineEnds : List α → List α
  | [] => []
  | c :: rest =>
      if pad c && atLineEnd brk (rest.dropWhile pad) then stripLineEnds rest
      else c :: stripLineEnds rest

variable {pad brk}

/-- Whether padding stands at a line end. -/
def PadAtLineEnd (pad brk : α → Bool) (s : List α) : Prop :=
  ∃ pre c rest, s = pre ++ c :: rest ∧ pad c = true ∧ atLineEnd brk rest = true

theorem padAtLineEnd_cons {c : α} {rest : List α} : PadAtLineEnd pad brk (c :: rest)
    ↔ (pad c = true ∧ atLineEnd brk rest = true) ∨ PadAtLineEnd pad brk rest := by
  constructor
  · rintro ⟨pre, c', rest', heq, hc, hend⟩
    cases pre with
    | nil =>
        obtain ⟨rfl, rfl⟩ := List.cons.inj heq
        exact Or.inl ⟨hc, hend⟩
    | cons x pre => exact Or.inr ⟨pre, c', rest', (List.cons.inj heq).2, hc, hend⟩
  · rintro (⟨hc, hend⟩ | ⟨pre, c', rest', rfl, hc, hend⟩)
    · exact ⟨[], c, rest, rfl, hc, hend⟩
    · exact ⟨c :: pre, c', rest', rfl, hc, hend⟩

/-- A run of padding that reaches a line end has a last one. -/
theorem padAtLineEnd_of_dropWhile {c : α} {rest : List α} (hc : pad c = true)
    (hend : atLineEnd brk (rest.dropWhile pad) = true) : PadAtLineEnd pad brk (c :: rest) := by
  induction rest generalizing c with
  | nil => exact padAtLineEnd_cons.mpr (Or.inl ⟨hc, rfl⟩)
  | cons x rest ih =>
      by_cases hx : pad x = true
      · rw [List.dropWhile_cons_of_pos hx] at hend
        exact padAtLineEnd_cons.mpr (Or.inr (ih hx hend))
      · rw [List.dropWhile_cons_of_neg hx] at hend
        exact padAtLineEnd_cons.mpr (Or.inl ⟨hc, hend⟩)

theorem stripLineEnds_sublist (s : List α) : (stripLineEnds pad brk s).Sublist s := by
  induction s with
  | nil => exact List.Sublist.slnil
  | cons c rest ih =>
      rw [stripLineEnds]
      split
      · exact ih.cons c
      · exact ih.cons_cons c

/-- Padding at the end of the string makes no difference. -/
theorem stripLineEnds_append_pads (s : List α) {tail : List α} (htail : ∀ c ∈ tail, pad c = true) :
    stripLineEnds pad brk (s ++ tail) = stripLineEnds pad brk s := by
  induction s with
  | nil =>
      rw [List.nil_append]
      induction tail with
      | nil => rfl
      | cons c tail ih =>
          have hrest : ∀ x ∈ tail, pad x = true := fun x hx => htail x (List.mem_cons_of_mem c hx)
          have hnil : tail.dropWhile pad = [] := List.dropWhile_eq_nil_iff.mpr hrest
          rw [stripLineEnds, stripLineEnds, hnil, htail c List.mem_cons_self]
          exact ih hrest
  | cons c s ih =>
      have hend : atLineEnd brk ((s ++ tail).dropWhile pad) = atLineEnd brk (s.dropWhile pad) := by
        rw [List.dropWhile_append]
        cases hs : s.dropWhile pad with
        | nil =>
            have hnil : tail.dropWhile pad = [] := List.dropWhile_eq_nil_iff.mpr htail
            simp [hnil]
        | cons x r => rfl
      rw [List.cons_append, stripLineEnds, hend, ih, stripLineEnds]

section Breaks

variable (hbrk : ∀ c, pad c = true → brk c = false)

include hbrk

/-- Nothing is removed exactly when no padding stands at a line end. -/
theorem stripLineEnds_eq_self_iff (s : List α) :
    stripLineEnds pad brk s = s ↔ ¬PadAtLineEnd pad brk s := by
  induction s with
  | nil => simp [stripLineEnds, PadAtLineEnd]
  | cons c rest ih =>
      rw [stripLineEnds]
      by_cases hcut : (pad c && atLineEnd brk (rest.dropWhile pad)) = true
      · rw [if_pos hcut]
        obtain ⟨hc, hend⟩ := Bool.and_eq_true_iff.mp hcut
        have hne : stripLineEnds pad brk rest ≠ c :: rest := by
          intro heq
          have hle : (stripLineEnds pad brk rest).length ≤ rest.length :=
            (stripLineEnds_sublist rest).length_le
          rw [heq, List.length_cons] at hle
          omega
        exact ⟨fun h => absurd h hne, fun h => absurd (padAtLineEnd_of_dropWhile hc hend) h⟩
      · rw [if_neg hcut, List.cons_eq_cons, ih, padAtLineEnd_cons]
        have hnot : ¬(pad c = true ∧ atLineEnd brk rest = true) := by
          rintro ⟨hc, hend⟩
          refine hcut (Bool.and_eq_true_iff.mpr ⟨hc, ?_⟩)
          cases rest with
          | nil => rfl
          | cons x rest =>
              have hx : ¬pad x = true := by
                intro hx
                exact absurd (hbrk x hx) (by rw [show brk x = true from hend]; decide)
              rw [List.dropWhile_cons_of_neg hx]
              exact hend
        simp [hnot]

/-- What is left begins at a line end only if the padding does. -/
theorem atLineEnd_of_stripLineEnds {s : List α}
    (h : atLineEnd brk (stripLineEnds pad brk s) = true) :
    atLineEnd brk (s.dropWhile pad) = true := by
  cases s with
  | nil => rfl
  | cons c rest =>
      rw [stripLineEnds] at h
      split at h
      · rename_i hcut
        obtain ⟨hc, hend⟩ := Bool.and_eq_true_iff.mp hcut
        rw [List.dropWhile_cons_of_pos hc]
        exact hend
      · have hc : ¬pad c = true := by
          intro hc
          exact absurd (hbrk c hc) (by rw [show brk c = true from h]; decide)
        rw [List.dropWhile_cons_of_neg hc]
        exact h

/-- No padding is left at a line end. -/
theorem not_padAtLineEnd_stripLineEnds (s : List α) :
    ¬PadAtLineEnd pad brk (stripLineEnds pad brk s) := by
  induction s with
  | nil => simp [stripLineEnds, PadAtLineEnd]
  | cons c rest ih =>
      rw [stripLineEnds]
      split
      · exact ih
      · rename_i hcut
        rw [padAtLineEnd_cons]
        rintro (⟨hc, hend⟩ | hrest)
        · exact hcut (Bool.and_eq_true_iff.mpr ⟨hc, atLineEnd_of_stripLineEnds hbrk hend⟩)
        · exact ih hrest

end Breaks

/-- What is no padding is kept. -/
theorem filter_stripLineEnds {keep : α → Bool} (hkeep : ∀ c, pad c = true → keep c = false)
    (s : List α) : (stripLineEnds pad brk s).filter keep = s.filter keep := by
  induction s with
  | nil => rfl
  | cons c rest ih =>
      rw [stripLineEnds]
      split
      · rename_i hcut
        have hc := hkeep c (Bool.and_eq_true_iff.mp hcut).1
        rw [ih, List.filter_cons_of_neg (by simp [hc])]
      · rw [List.filter_cons, List.filter_cons, ih]

end LineEnds

section LineStarts

variable (pat : List α → Option (List α)) (brk : α → Bool)

/-- Substitute `/^pat/` by the empty string. `pat` gives what is left behind a match at the
start of its argument; `bol` says whether the string starts a line. The first argument bounds
the number of steps; the length of the string is enough. -/
def stripLineStartsAux : Nat → Bool → List α → List α
  | 0, _, s => s
  | _ + 1, _, [] => []
  | n + 1, bol, c :: rest =>
      match (if bol then pat (c :: rest) else none) with
      | some rest' => stripLineStartsAux n false rest'
      | none => c :: stripLineStartsAux n (brk c) rest

def stripLineStarts (s : List α) : List α := stripLineStartsAux pat brk s.length true s

variable {pat brk}

/-- Whether `pat` matches at a line start other than the first. -/
def MatchesLater (pat : List α → Option (List α)) (brk : α → Bool) (s : List α) : Prop :=
  ∃ pre c rest, s = pre ++ c :: rest ∧ brk c = true ∧ (pat rest).isSome

theorem matchesLater_cons {c : α} {rest : List α} :
    MatchesLater pat brk (c :: rest)
      ↔ (brk c = true ∧ (pat rest).isSome) ∨ MatchesLater pat brk rest := by
  constructor
  · rintro ⟨pre, c', rest', heq, hc, hp⟩
    cases pre with
    | nil =>
        obtain ⟨rfl, rfl⟩ := List.cons.inj heq
        exact Or.inl ⟨hc, hp⟩
    | cons x pre => exact Or.inr ⟨pre, c', rest', (List.cons.inj heq).2, hc, hp⟩
  · rintro (⟨hc, hp⟩ | ⟨pre, c', rest', rfl, hc, hp⟩)
    · exact ⟨[], c, rest, rfl, hc, hp⟩
    · exact ⟨c :: pre, c', rest', rfl, hc, hp⟩

/-- Where `pat` does not match, a line start is like any other place. -/
theorem stripLineStartsAux_of_none {s : List α} (h : pat s = none) (n : Nat) (bol : Bool) :
    stripLineStartsAux pat brk n bol s = stripLineStartsAux pat brk n false s := by
  cases n with
  | zero => rfl
  | succ n =>
      cases s with
      | nil => rfl
      | cons c rest => cases bol <;> simp [stripLineStartsAux, h]

/-- What `pat` matches is a proper suffix of its argument; so is what is left of a string a part
of it. -/
theorem stripLineStartsAux_sublist (hpat : ∀ s r, pat s = some r → r <:+ s ∧ r.length < s.length) :
    ∀ (n : Nat) (bol : Bool) (s : List α), (stripLineStartsAux pat brk n bol s).Sublist s
  | 0, _, s => List.Sublist.refl s
  | _ + 1, _, [] => List.Sublist.slnil
  | n + 1, bol, c :: rest => by
      rw [stripLineStartsAux]
      split
      · rename_i r hr
        have hsuffix : r <:+ c :: rest := by
          cases bol with
          | false => cases hr
          | true => exact (hpat _ _ hr).1
        exact (stripLineStartsAux_sublist hpat n false r).trans hsuffix.sublist
      · exact (stripLineStartsAux_sublist hpat n (brk c) rest).cons_cons c

/-- Away from line starts nothing changes exactly when `pat` matches at none of the later ones.
The induction is on the string. -/
theorem stripLineStartsAux_eq_self_iff (hpat : ∀ s r, pat s = some r → r <:+ s ∧ r.length < s.length) :
    ∀ (n : Nat) (s : List α), s.length ≤ n →
      (stripLineStartsAux pat brk n false s = s ↔ ¬MatchesLater pat brk s)
  | 0, s, hn => by
      obtain rfl : s = [] := List.eq_nil_of_length_eq_zero (Nat.le_zero.mp hn)
      simp [stripLineStartsAux, MatchesLater]
  | _ + 1, [], _ => by simp [stripLineStartsAux, MatchesLater]
  | n + 1, c :: rest, hn => by
      have hle : rest.length ≤ n := Nat.succ_le_succ_iff.mp hn
      have hstep : stripLineStartsAux pat brk (n + 1) false (c :: rest)
          = c :: stripLineStartsAux pat brk n (brk c) rest := rfl
      rw [hstep, List.cons_eq_cons, matchesLater_cons]
      have ih := stripLineStartsAux_eq_self_iff hpat n rest hle
      cases hp : pat rest with
      | none =>
          rw [stripLineStartsAux_of_none hp, ih]
          simp
      | some r =>
          cases hc : brk c with
          | false =>
              rw [ih]
              simp
          | true =>
              -- the match is cut out
              have hlt := (hpat rest r hp).2
              have hne : stripLineStartsAux pat brk n true rest ≠ rest := by
                intro heq
                cases n with
                | zero =>
                    have := Nat.le_zero.mp hle
                    omega
                | succ n =>
                    cases rest with
                    | nil => exact absurd hlt (Nat.not_lt_zero _)
                    | cons x rest =>
                        have hcut : stripLineStartsAux pat brk (n + 1) true (x :: rest)
                            = stripLineStartsAux pat brk n false r := by
                          simp [stripLineStartsAux, hp]
                        have hlen : (stripLineStartsAux pat brk n false r).length ≤ r.length :=
                          (stripLineStartsAux_sublist hpat n false r).length_le
                        rw [← hcut, heq] at hlen
                        omega
              simp [hne]

/-- **Only a match at the very beginning is removed** exactly when there is no later one in what
it leaves. -/
theorem stripLineStarts_eq_iff (hpat : ∀ s r, pat s = some r → r <:+ s ∧ r.length < s.length)
    (s : List α) :
    stripLineStarts pat brk s = (pat s).getD s ↔ ¬MatchesLater pat brk ((pat s).getD s) := by
  rw [stripLineStarts]
  cases hp : pat s with
  | none =>
      rw [stripLineStartsAux_of_none hp]
      exact stripLineStartsAux_eq_self_iff hpat _ s (Nat.le_refl _)
  | some r =>
      have hlt := (hpat s r hp).2
      cases s with
      | nil => exact absurd hlt (Nat.not_lt_zero _)
      | cons x s =>
          have hcut : stripLineStartsAux pat brk (x :: s).length true (x :: s)
              = stripLineStartsAux pat brk s.length false r := by
            simp [stripLineStartsAux, hp]
          rw [hcut]
          exact stripLineStartsAux_eq_self_iff hpat _ r (Nat.lt_succ_iff.mp hlt)

/-- The string with `pre` put at each of its line starts, but the first. -/
def afterBreaks (pre : List α) (brk : α → Bool) (s : List α) : List α :=
  s.flatMap fun c => if brk c then c :: pre else [c]

theorem stripLineStartsAux_afterBreaks {pre : List α} (hne : pre ≠ [])
    (hpat : ∀ r, pat (pre ++ r) = some r) : ∀ (s : List α) (n : Nat),
      (afterBreaks pre brk s).length ≤ n →
        stripLineStartsAux pat brk n false (afterBreaks pre brk s) = s
  | [], n, _ => by cases n <;> rfl
  | c :: s, 0, hn => by
      rw [afterBreaks, List.flatMap_cons] at hn
      split at hn <;> simp at hn
  | c :: s, n + 1, hn => by
      have ih := stripLineStartsAux_afterBreaks hne hpat s
      rw [afterBreaks, List.flatMap_cons] at hn ⊢
      by_cases hc : brk c = true
      · -- the copy of `pre` behind the break is cut out
        rw [if_pos hc] at hn ⊢
        obtain ⟨x, pre', rfl⟩ := List.exists_cons_of_ne_nil hne
        cases n with
        | zero => simp at hn
        | succ n =>
            have hcut := hpat (afterBreaks (x :: pre') brk s)
            have hle : (afterBreaks (x :: pre') brk s).length ≤ n := by
              simp only [List.cons_append, List.length_cons, List.length_append] at hn
              rw [afterBreaks]
              omega
            rw [List.cons_append] at hcut
            simp only [List.cons_append, stripLineStartsAux, hc, if_true]
            rw [← afterBreaks, hcut]
            exact congrArg (c :: ·) (ih n hle)
      · rw [if_neg hc] at hn ⊢
        have hle : (afterBreaks pre brk s).length ≤ n := Nat.le_of_succ_le_succ hn
        have hstep : stripLineStartsAux pat brk (n + 1) false ([c] ++ afterBreaks pre brk s)
            = c :: stripLineStartsAux pat brk n (brk c) (afterBreaks pre brk s) := rfl
        have hfalse : brk c = false := by simpa using hc
        rw [← afterBreaks, hstep, hfalse, ih n hle]

/-- **Every string is what is left of one**: what the pattern matches can be put back at each line
start. -/
theorem stripLineStarts_afterBreaks {pre : List α} (hne : pre ≠ [])
    (hpat : ∀ r, pat (pre ++ r) = some r) (s : List α) :
    stripLineStarts pat brk (pre ++ afterBreaks pre brk s) = s := by
  obtain ⟨x, pre', rfl⟩ := List.exists_cons_of_ne_nil hne
  have hcut := hpat (afterBreaks (x :: pre') brk s)
  rw [List.cons_append] at hcut ⊢
  rw [stripLineStarts, List.length_cons, stripLineStartsAux, if_pos rfl, hcut]
  refine stripLineStartsAux_afterBreaks hne hpat s _ ?_
  rw [List.length_append]
  exact Nat.le_add_left _ _

/-- A cell that is no line break comes last only if it did before. -/
theorem suffix_of_stripLineStartsAux {x : α} (hx : brk x = false)
    (hpat : ∀ s r, pat s = some r → r <:+ s ∧ r.length < s.length) :
    ∀ (n : Nat) (bol : Bool) (s : List α), [x] <:+ stripLineStartsAux pat brk n bol s → [x] <:+ s
  | 0, _, _, h => h
  | _ + 1, _, [], h => h
  | n + 1, bol, c :: rest, h => by
      rw [stripLineStartsAux] at h
      split at h
      · rename_i r hr
        have hsuffix : r <:+ c :: rest := by
          cases bol with
          | false => cases hr
          | true => exact (hpat _ _ hr).1
        exact (suffix_of_stripLineStartsAux hx hpat n false r h).trans hsuffix
      · rcases List.suffix_cons_iff.mp h with heq | hlast
        · obtain ⟨rfl, hnil⟩ := List.cons.inj heq
          rw [hx] at hnil
          have hrest : rest = [] := by
            cases n with
            | zero => exact hnil.symm
            | succ n =>
                cases rest with
                | nil => rfl
                | cons y rest => cases hnil
          rw [hrest]
        · exact (suffix_of_stripLineStartsAux hx hpat n (brk c) rest hlast).trans
            (List.suffix_cons c rest)

end LineStarts

end C64Iec.Lib

import Mathlib.Tactic

set_option autoImplicit false

/-! # Polling a line

A line is read again and again until it has the level waited for, a bounded number of times
(`pollFor`). `FirstWithin` says which read ends the wait, so that a protocol made of such waits can
be described by the times at which the line changes. An attempt that gives up yields nothing;
`Fills` relates the cells that attempts were made on to what the attempts yielded.
-/

namespace C64Iec.Lib

/-! ## Waiting -/

section Waiting

variable {β : Type*} (line : Nat → β) (level : β)

/-- The first read with the level, from time `t` on, is at time `u` and within the limit. -/
structure FirstWithin (limit t u : Nat) : Prop where
  start : t ≤ u
  within : u ≤ t + limit
  reads : line u = level
  first : ∀ s, t ≤ s → s < u → line s ≠ level

/-- No read within the limit has the level. -/
def NoneWithin (limit t : Nat) : Prop := ∀ s, t ≤ s → s ≤ t + limit → line s ≠ level

variable {line level}

/-- A wait that is over with its first read. -/
theorem firstWithin_self (limit : Nat) {t : Nat} (h : line t = level) :
    FirstWithin line level limit t t where
  start := le_rfl
  within := Nat.le_add_right _ _
  reads := h
  first := fun s hs hlt => absurd hs (by omega)

/-- A read without the level only uses up the limit. -/
theorem firstWithin_succ {limit t u : Nat} (h : line t ≠ level) :
    FirstWithin line level (limit + 1) t u ↔ FirstWithin line level limit (t + 1) u := by
  constructor
  · intro hu
    have hne : t ≠ u := by
      rintro rfl
      exact h hu.reads
    have hstart := hu.start
    have hlimit := hu.within
    exact ⟨by omega, by omega, hu.reads, fun s hs hlt => hu.first s (by omega) hlt⟩
  · intro hu
    have hstart := hu.start
    have hlimit := hu.within
    refine ⟨by omega, by omega, hu.reads, fun s hs hlt => ?_⟩
    rcases Nat.eq_or_lt_of_le hs with rfl | hs
    · exact h
    · exact hu.first s hs hlt

/-- A level that comes does not stay away. -/
theorem FirstWithin.not_none {limit t u : Nat} (h : FirstWithin line level limit t u) :
    ¬NoneWithin line level limit t :=
  fun hnone => hnone u h.start h.within h.reads

theorem FirstWithin.unique {limit t u u' : Nat} (h : FirstWithin line level limit t u)
    (h' : FirstWithin line level limit t u') : u = u' := by
  apply Nat.le_antisymm
  · exact Nat.le_of_not_lt fun hlt => h.first u' h'.start hlt h'.reads
  · exact Nat.le_of_not_lt fun hlt => h'.first u h.start hlt h.reads

variable (line level) [DecidableEq β]

/-- Read the line from time `t` on until it has the level, giving up after `limit` further reads:
whether the level came, and the time of the read after the last one. -/
def pollFor : Nat → Nat → Bool × Nat
  | 0, t => (decide (line t = level), t + 1)
  | limit + 1, t => if line t = level then (true, t + 1) else pollFor limit (t + 1)

variable {line level}

/-- **The level comes**, and the wait ends with the first read that has it. -/
theorem pollFor_true_iff {limit t t' : Nat} :
    pollFor line level limit t = (true, t') ↔
      ∃ u, FirstWithin line level limit t u ∧ t' = u + 1 := by
  induction limit generalizing t with
  | zero =>
      rw [pollFor, Prod.mk.injEq, decide_eq_true_iff]
      constructor
      · rintro ⟨hlevel, rfl⟩
        exact ⟨t, firstWithin_self 0 hlevel, rfl⟩
      · rintro ⟨u, hu, rfl⟩
        have hstart := hu.start
        have hlimit := hu.within
        obtain rfl : u = t := by omega
        exact ⟨hu.reads, rfl⟩
  | succ limit ih =>
      rw [pollFor]
      by_cases h : line t = level
      · rw [if_pos h]
        constructor
        · intro heq
          exact ⟨t, firstWithin_self _ h, (Prod.mk.inj heq).2.symm⟩
        · rintro ⟨u, hu, rfl⟩
          have hstart := hu.start
          obtain rfl : u = t := by
            by_contra hne
            exact hu.first t le_rfl (by omega) h
          rfl
      · rw [if_neg h, ih]
        simp only [firstWithin_succ h]

/-- **The level does not come**: all the reads within the limit have been made. -/
theorem pollFor_false_iff {limit t t' : Nat} :
    pollFor line level limit t = (false, t') ↔
      NoneWithin line level limit t ∧ t' = t + limit + 1 := by
  induction limit generalizing t with
  | zero =>
      rw [pollFor, Prod.mk.injEq, decide_eq_false_iff_not]
      constructor
      · rintro ⟨hlevel, rfl⟩
        refine ⟨fun s hs hle => ?_, rfl⟩
        obtain rfl : s = t := by omega
        exact hlevel
      · rintro ⟨hnone, rfl⟩
        exact ⟨hnone t le_rfl le_rfl, rfl⟩
  | succ limit ih =>
      rw [pollFor]
      by_cases h : line t = level
      · rw [if_pos h]
        apply iff_of_false
        · simp
        · rintro ⟨hnone, -⟩
          exact hnone t le_rfl (Nat.le_add_right _ _) h
      · rw [if_neg h, ih]
        constructor
        · rintro ⟨hnone, rfl⟩
          refine ⟨fun s hs hle => ?_, by omega⟩
          rcases Nat.eq_or_lt_of_le hs with rfl | hs
          · exact h
          · exact hnone s hs (by omega)
        · rintro ⟨hnone, rfl⟩
          exact ⟨fun s hs hle => hnone s (by omega) (by omega), by omega⟩

end Waiting

/-! ## Attempts -/

section Attempts

variable {ι β : Type*} (outcome : ι → Option β)

/-- One cell for each attempt: an attempt that yields a value has left it in its cell. -/
def Fills (cells : List β) (attempts : List ι) : Prop :=
  List.Forall₂ (fun c i => ∀ v, outcome i = some v → c = v) cells attempts

variable {outcome}

theorem Fills.concat {cells : List β} {attempts : List ι} {c : β} {i : ι}
    (h : Fills outcome cells attempts) (hc : ∀ v, outcome i = some v → c = v) :
    Fills outcome (cells ++ [c]) (attempts ++ [i]) :=
  List.rel_append h (List.Forall₂.cons hc List.Forall₂.nil)

theorem length_filterMap_eq_iff (attempts : List ι) :
    (attempts.filterMap outcome).length = attempts.length ↔
      ∀ i ∈ attempts, (outcome i).isSome = true := by
  induction attempts with
  | nil => simp
  | cons i attempts ih =>
      have hle := List.length_filterMap_le outcome attempts
      cases hi : outcome i with
      | none =>
          rw [List.filterMap_cons_none hi]
          apply iff_of_false
          · rw [List.length_cons]
            omega
          · intro h
            have hsome := h i List.mem_cons_self
            rw [hi] at hsome
            cases hsome
      | some v =>
          rw [List.filterMap_cons_some hi, List.length_cons, List.length_cons,
            Nat.add_right_cancel_iff, ih]
          simp [hi]

/-- **The cells are what the attempts have yielded** exactly when none of them gave up. -/
theorem Fills.eq_iff {cells : List β} {attempts : List ι} (h : Fills outcome cells attempts) :
    cells = attempts.filterMap outcome ↔ ∀ i ∈ attempts, (outcome i).isSome = true := by
  constructor
  · intro heq
    apply (length_filterMap_eq_iff attempts).mp
    rw [← heq]
    exact h.length_eq
  · intro hall
    induction h with
    | nil => rfl
    | @cons c i cells attempts hc _ ih =>
        obtain ⟨v, hv⟩ := Option.isSome_iff_exists.mp (hall i List.mem_cons_self)
        rw [List.filterMap_cons_some hv, hc v hv,
          ← ih fun j hj => hall j (List.mem_cons_of_mem _ hj)]

end Attempts

end C64Iec.Lib

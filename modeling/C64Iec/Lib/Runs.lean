import Mathlib.Tactic

set_option autoImplicit false

/-! # Runs of transition systems

Two forms of a system: a relation between states (`step s t`, for a system whose scheduler and
network choose), and a function on a state and an input (`step s x`, for one machine driven by
its environment). A property of every reachable state is proved from one step
(`reachable_invariant`, `run_invariant`). A run that ends is described by `Quiescent` states,
which no step leaves, and by a measure every other step lowers; an infinite run whose steps may
also change nothing, by a measure and by what does not stay the same for ever (`exists_done`).
-/

namespace C64Iec.Lib

variable {σ ι : Type*}

/-! ## Relational systems -/

section Relational

variable {step : σ → σ → Prop}

/-- `t` can be reached from `s`. -/
abbrev Reachable (step : σ → σ → Prop) (s t : σ) : Prop := Relation.ReflTransGen step s t

/-- **The invariant rule.** What holds at the start and is kept by each step holds in every
reachable state. -/
theorem reachable_invariant {I : σ → Prop} {s t : σ} (h0 : I s)
    (hstep : ∀ u v, I u → step u v → I v) (h : Reachable step s t) : I t := by
  induction h with
  | refl => exact h0
  | tail _ hst ih => exact hstep _ _ ih hst

/-- **The simulation rule.** A relation to an abstract system that every step keeps, the abstract
system taking any number of steps meanwhile, relates every reachable state to a reachable
abstract one. -/
theorem reachable_simulation {τ : Type*} {step' : τ → τ → Prop} {R : σ → τ → Prop} {s t : σ}
    {a : τ} (h0 : R s a)
    (hstep : ∀ u v b, Reachable step' a b → R u b → step u v → ∃ c, Reachable step' b c ∧ R v c)
    (h : Reachable step s t) : ∃ b, Reachable step' a b ∧ R t b := by
  induction h with
  | refl => exact ⟨a, .refl, h0⟩
  | tail _ hst ih =>
      obtain ⟨b, hb, hR⟩ := ih
      obtain ⟨c, hc, hR'⟩ := hstep _ _ b hb hR hst
      exact ⟨c, hb.trans hc, hR'⟩

/-- No step changes the state. -/
def Quiescent (step : σ → σ → Prop) (s : σ) : Prop := ∀ t, step s t → t = s

/-- A run whose changes of state all lower a measure reaches a quiescent state, from every
state that satisfies the invariant. -/
theorem exists_quiescent {I : σ → Prop} {μ : σ → Nat}
    (hstep : ∀ u v, I u → step u v → I v)
    (hdec : ∀ u v, I u → step u v → v ≠ u → μ v < μ u) :
    ∀ s, I s → ∃ t, Reachable step s t ∧ Quiescent step t := by
  intro s
  induction hn : μ s using Nat.strong_induction_on generalizing s with
  | _ n ih =>
      intro hs
      by_cases hq : Quiescent step s
      · exact ⟨s, .refl, hq⟩
      · simp only [Quiescent, not_forall] at hq
        obtain ⟨t, hst, hne⟩ := hq
        have hlt : μ t < n := hn ▸ hdec s t hs hst hne
        obtain ⟨u, htu, hu⟩ := ih (μ t) hlt t rfl (hstep s t hs hst)
        exact ⟨u, .head hst htu, hu⟩

end Relational

/-! ## Machines driven by inputs -/

section Driven

variable (step : σ → ι → σ)

/-- The states of a run, the inputs still to come beside each: every step of the run satisfies
`C`. -/
def AllSteps (C : σ → ι → Prop) : σ → List ι → Prop
  | _, [] => True
  | s, x :: xs => C s x ∧ AllSteps C (step s x) xs

/-- A run in two parts. -/
theorem allSteps_append (C : σ → ι → Prop) (ys : List ι) :
    ∀ (xs : List ι) (s : σ), AllSteps step C s (xs ++ ys) ↔
      AllSteps step C s xs ∧ AllSteps step C (xs.foldl step s) ys
  | [], _ => (iff_of_eq (true_and _)).symm
  | x :: xs, s => (and_congr_right fun _ => allSteps_append C ys xs (step s x)).trans and_assoc.symm

/-- **The invariant rule** for a run whose steps all satisfy `C`. -/
theorem run_invariant {I : σ → Prop} {C : σ → ι → Prop}
    (hstep : ∀ s x, I s → C s x → I (step s x)) :
    ∀ (xs : List ι) (s : σ), I s → AllSteps step C s xs → I (xs.foldl step s)
  | [], _, hs, _ => hs
  | x :: xs, s, hs, hC =>
      run_invariant hstep xs (step s x) (hstep s x hs hC.1) hC.2

/-- An invariant of the steps that satisfy `C` gives what holds at every step of such a run. -/
theorem allSteps_of_invariant {I : σ → Prop} {C P : σ → ι → Prop}
    (hstep : ∀ s x, I s → C s x → P s x ∧ I (step s x)) :
    ∀ (xs : List ι) (s : σ), I s → AllSteps step C s xs → AllSteps step P s xs
  | [], _, _, _ => trivial
  | x :: xs, s, hs, hC =>
      have h := hstep s x hs hC.1
      ⟨h.1, allSteps_of_invariant hstep xs (step s x) h.2 hC.2⟩

end Driven

/-! ## Infinite runs -/

section Infinite

variable {τ : Type*} {s : Nat → σ} {μ : σ → Nat} {f : σ → τ}

/-- From one moment of the run to a later one the measure is lowered, or it and `f` are kept. -/
theorem measure_or_eq (hstep : ∀ i, μ (s (i + 1)) < μ (s i) ∨
      μ (s (i + 1)) = μ (s i) ∧ f (s (i + 1)) = f (s i)) (i : Nat) :
    ∀ n, μ (s (i + n)) < μ (s i) ∨ μ (s (i + n)) = μ (s i) ∧ f (s (i + n)) = f (s i) := by
  intro n
  induction n with
  | zero => exact Or.inr ⟨rfl, rfl⟩
  | succ n ih =>
      rcases hstep (i + n) with hlt | ⟨hμ, hf⟩
      · exact Or.inl (hlt.trans_le (ih.elim Nat.le_of_lt fun h => Nat.le_of_eq h.1))
      · rw [← Nat.add_assoc, hμ, hf]
        exact ih

/-- **The progress rule.** Every step before the end lowers the measure, or keeps it and `f`; and
`f` does not stay the same for ever unless the measure is lowered. Then the run comes to its end. -/
theorem exists_done (Done : σ → Prop) (μ : σ → Nat) (f : σ → τ)
    (hstep : ∀ i, Done (s i) ∨ μ (s (i + 1)) < μ (s i) ∨
      μ (s (i + 1)) = μ (s i) ∧ f (s (i + 1)) = f (s i))
    (hfair : ∀ i, ∃ j, i ≤ j ∧ (Done (s j) ∨ μ (s j) < μ (s i) ∨ f (s j) ≠ f (s i))) :
    ∃ i, Done (s i) := by
  by_contra hnever
  simp only [not_exists] at hnever
  have hless : ∀ i, ∃ j, μ (s j) < μ (s i) := by
    intro i
    obtain ⟨j, hij, hdone | hlt | hne⟩ := hfair i
    · exact absurd hdone (hnever j)
    · exact ⟨j, hlt⟩
    · obtain ⟨n, rfl⟩ := Nat.exists_eq_add_of_le hij
      rcases measure_or_eq (fun i => (hstep i).resolve_left (hnever i)) i n with hlt | ⟨-, hf⟩
      · exact ⟨_, hlt⟩
      · exact absurd hf hne
  -- a measure that can always be lowered is no natural number
  have hno : ∀ m i, μ (s i) = m → False := by
    intro m
    induction m using Nat.strong_induction_on with
    | _ m ih =>
        intro i hi
        obtain ⟨j, hj⟩ := hless i
        exact ih (μ (s j)) (hi ▸ hj) j rfl
  exact hno _ 0 rfl

end Infinite

end C64Iec.Lib

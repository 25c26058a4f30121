import C64Iec.Server.DeviceDir

set_option autoImplicit false

/-! # A directory as a map from names to entries

What writing and removing a child do to the entries of a directory (`Dir.mem_write`,
`Dir.mem_unlink`), and that names are looked up exactly (`Dir.lookup_eq_some`).
-/

namespace C64Iec.Server

namespace Dir

variable {d : Dir} {name nm : Bytes} {e e' : Entry} {content : Bytes}

theorem lookup_eq_some_of_nodup {l : List (Bytes × Entry)} (h : (l.map Prod.fst).Nodup) :
    l.lookup nm = some e ↔ (nm, e) ∈ l := by
  induction l with
  | nil => simp
  | cons c l ih =>
      obtain ⟨name, e'⟩ := c
      rw [List.map_cons, List.nodup_cons] at h
      by_cases heq : nm = name
      · subst heq
        have hnot : (nm, e) ∉ l := fun hmem => h.1 (List.mem_map.mpr ⟨_, hmem, rfl⟩)
        simp [hnot, eq_comm]
      · have hbeq : (nm == name) = false := beq_false_of_ne heq
        rw [List.lookup_cons, hbeq]
        simp [heq, ih h.2]

/-- Names are looked up exactly. -/
theorem lookup_eq_some : d.lookup nm = some e ↔ (nm, e) ∈ d.children :=
  lookup_eq_some_of_nodup d.nodup

theorem exist_iff : d.exist nm = true ↔ ∃ e, (nm, e) ∈ d.children := by
  simp [exist, names]

/-- A name has one entry. -/
theorem eq_of_mem (h : (nm, e) ∈ d.children) (h' : (nm, e') ∈ d.children) : e = e' := by
  have := (lookup_eq_some.mpr h).symm.trans (lookup_eq_some.mpr h')
  exact Option.some.inj this

theorem mem_unlink : (nm, e) ∈ (d.unlink name).children ↔ nm ≠ name ∧ (nm, e) ∈ d.children := by
  simp [unlink, and_comm]

theorem mem_write : (nm, e) ∈ (d.write name content).children ↔
    nm = name ∧ e = .file content ∨ nm ≠ name ∧ (nm, e) ∈ d.children := by
  by_cases h : d.exist name
  · obtain ⟨e₀, h₀⟩ := exist_iff.mp h
    simp only [write, h, if_true, List.mem_map]
    constructor
    · rintro ⟨c, hc, heq⟩
      by_cases hcn : c.1 = name
      · rw [if_pos hcn] at heq
        exact Or.inl ⟨(congrArg Prod.fst heq).symm, (congrArg Prod.snd heq).symm⟩
      · rw [if_neg hcn] at heq
        subst heq
        exact Or.inr ⟨hcn, hc⟩
    · rintro (⟨rfl, rfl⟩ | ⟨hne, hmem⟩)
      · exact ⟨(nm, e₀), h₀, by simp⟩
      · exact ⟨(nm, e), hmem, if_neg hne⟩
  · have hnot : ∀ e, (name, e) ∉ d.children := fun e hmem => h (exist_iff.mpr ⟨e, hmem⟩)
    have hlen : min (d.place d.names name) d.children.length ≤ d.children.length :=
      Nat.min_le_right _ _
    simp only [write, h, Bool.false_eq_true, if_false, List.mem_insertIdx hlen, Prod.mk.injEq]
    constructor
    · rintro (⟨rfl, rfl⟩ | hmem)
      · exact Or.inl ⟨rfl, rfl⟩
      · exact Or.inr ⟨fun hnm => hnot e (hnm ▸ hmem), hmem⟩
    · rintro (⟨rfl, rfl⟩ | ⟨-, hmem⟩)
      · exact Or.inl ⟨rfl, rfl⟩
      · exact Or.inr hmem

/-- Of two entries written under one name the second stays. -/
theorem written_twice {p q q' r : Prop} : (p ∧ q ∨ ¬p ∧ (p ∧ q' ∨ ¬p ∧ r)) ↔ (p ∧ q ∨ ¬p ∧ r) := by
  by_cases hp : p
  · simp [hp]
  · simp [hp]

theorem lookup_write_self : (d.write name content).lookup name = some (.file content) :=
  lookup_eq_some.mpr (mem_write.mpr (Or.inl ⟨rfl, rfl⟩))

theorem write_children_of_exist (h : d.exist name = true) : (d.write name content).children =
    d.children.map fun c => if c.1 = name then (name, .file content) else c := by
  rw [write]
  dsimp only
  rw [if_pos h]

theorem ext_children {d' : Dir} (h : d.children = d'.children) (hplace : d.place = d'.place) :
    d = d' := by
  cases d
  cases d'
  cases h
  cases hplace
  rfl

/-- What has been written can be written over. -/
theorem write_write (h : d.exist name = true) (content content' : Bytes) :
    (d.write name content).write name content' = d.write name content' := by
  have hexist : (d.write name content).exist name = true :=
    exist_iff.mpr ⟨_, mem_write.mpr (Or.inl ⟨rfl, rfl⟩)⟩
  refine ext_children ?_ rfl
  rw [write_children_of_exist hexist, write_children_of_exist h, write_children_of_exist h,
    List.map_map]
  refine List.map_congr_left fun c _ => ?_
  by_cases hc : c.1 = name
  · simp [hc]
  · simp [hc]

/-- A file is as it was when it is given its own content. -/
theorem write_lookup (h : d.lookup name = some (.file content)) : d.write name content = d := by
  have hmem := lookup_eq_some.mp h
  refine ext_children ?_ rfl
  rw [write_children_of_exist (exist_iff.mpr ⟨_, hmem⟩)]
  refine (List.map_congr_left fun c hc => ?_).trans (List.map_id _)
  split
  · rename_i hname
    subst hname
    exact Prod.ext rfl (eq_of_mem hmem hc)
  · rfl

/-- What `dir` lists that `old` does not are files with the C64 name `c64` whose data satisfy
`P`. -/
def OnlyAdds (c64 : Bytes) (P : Bytes → Prop) (dir old : Dir) : Prop :=
  ∀ nm e, (nm, e) ∈ dir.children →
    (nm, e) ∈ old.children ∨ ∃ w, P w ∧ e = .file (pc64Header c64 ++ w)

section OnlyAdds

variable {c64 : Bytes} {P : Bytes → Prop} {old dir : Dir}

theorem onlyAdds_refl (c64 : Bytes) (P : Bytes → Prop) (d : Dir) : d.OnlyAdds c64 P d :=
  fun _ _ h => Or.inl h

theorem OnlyAdds.write {w : Bytes} (h : dir.OnlyAdds c64 P old) (name : Bytes) (hw : P w) :
    (dir.write name (pc64Header c64 ++ w)).OnlyAdds c64 P old := by
  intro nm e hmem
  rcases mem_write.mp hmem with ⟨-, rfl⟩ | ⟨-, hold⟩
  · exact Or.inr ⟨w, hw, rfl⟩
  · exact h nm e hold

/-- A file that is created empty and then given its header. -/
theorem OnlyAdds.create (h : dir.OnlyAdds c64 P old) (name : Bytes) (hnil : P []) :
    ((dir.write name []).write name (pc64Header c64)).OnlyAdds c64 P old := by
  intro nm e hmem
  rcases mem_write.mp hmem with ⟨-, rfl⟩ | ⟨hne, hold⟩
  · exact Or.inr ⟨[], hnil, by rw [List.append_nil]⟩
  · rcases mem_write.mp hold with ⟨heq, -⟩ | ⟨-, hold'⟩
    · exact absurd heq hne
    · exact h nm e hold'

end OnlyAdds

end Dir

theorem DeviceDir.mem_withoutOld {dir : Dir} {local_ : Option Bytes} {nm : Bytes} {e : Entry} :
    (nm, e) ∈ (withoutOld dir local_).children ↔ local_ ≠ some nm ∧ (nm, e) ∈ dir.children := by
  cases local_ with
  | none => simp [withoutOld]
  | some name => simp [withoutOld, Dir.mem_unlink, eq_comm]

end C64Iec.Server

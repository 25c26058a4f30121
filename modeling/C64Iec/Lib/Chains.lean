import Mathlib.Data.Finset.Card
import Mathlib.Data.List.Nodup
import Mathlib.Data.Finset.Dedup

set_option autoImplicit false

/-! # Linked chains

`next a` reads the cell at `a`: its content, and the address of the cell it links to, if any.
`Chain next a bs` says that the links from `a` on lead to an end and pass the contents `bs`. A
chain that ends meets no address twice, so it is no longer than the addresses there are
(`Chain.length_le`): a walk with that much fuel runs out of it only where the links never end.
-/

namespace C64Iec.Lib

variable {α β : Type*} {next : α → Option (β × Option α)}

inductive Chain (next : α → Option (β × Option α)) : α → List β → Prop
  | last {a : α} {b : β} (h : next a = some (b, none)) : Chain next a [b]
  | link {a a' : α} {b : β} {bs : List β} (h : next a = some (b, some a'))
      (rest : Chain next a' bs) : Chain next a (b :: bs)

namespace Chain

variable {a a' : α} {b : β} {bs bs' : List β}

theorem unique (h : Chain next a bs) (h' : Chain next a bs') : bs = bs' := by
  induction h generalizing bs' with
  | last hlast =>
      cases h' with
      | last hlast' =>
          cases hlast.symm.trans hlast'
          rfl
      | link hlink _ => cases hlast.symm.trans hlink
  | link hlink _ ih =>
      cases h' with
      | last hlast => cases hlast.symm.trans hlink
      | link hlink' rest' =>
          cases hlink.symm.trans hlink'
          rw [ih rest']

theorem ne_nil (h : Chain next a bs) : bs ≠ [] := by
  cases h <;> simp

/-- A chain is one of every reader that reads its cells in the same way. -/
theorem mono {next' : α → Option (β × Option α)}
    (hnext : ∀ a r, next a = some r → next' a = some r) (h : Chain next a bs) :
    Chain next' a bs := by
  induction h with
  | last hlast => exact .last (hnext _ _ hlast)
  | link hlink _ ih => exact .link (hnext _ _ hlink) ih

theorem iff_of_last (h : next a = some (b, none)) : Chain next a bs ↔ bs = [b] :=
  ⟨fun hc => hc.unique (.last h), fun hbs => hbs ▸ .last h⟩

theorem iff_of_link (h : next a = some (b, some a')) :
    Chain next a bs ↔ ∃ rest, bs = b :: rest ∧ Chain next a' rest := by
  constructor
  · intro hc
    cases hc with
    | last hlast => cases h.symm.trans hlast
    | link hlink rest =>
        cases h.symm.trans hlink
        exact ⟨_, rfl, rest⟩
  · rintro ⟨rest, rfl, hrest⟩
    exact .link h hrest

theorem not_of_none (h : next a = none) : ¬Chain next a bs := by
  intro hc
  cases hc with
  | last hlast => cases h.symm.trans hlast
  | link hlink _ => cases h.symm.trans hlink

/-- The links that lead back to where they start never end. -/
theorem not_of_self (h : next a = some (b, some a)) : ¬Chain next a bs := by
  intro hc
  obtain ⟨rest, rfl, hrest⟩ := (iff_of_link h).mp hc
  have := congrArg List.length (hc.unique hrest)
  simp at this

/-- The addresses of a chain, from the second on. The chains that start at them are no longer than
the whole one, so the first address is not among them. -/
theorem addresses {S : Finset α} (hS : ∀ a b a', next a = some (b, some a') → a' ∈ S)
    (h : Chain next a bs) :
    ∃ as : List α, as.length + 1 = bs.length ∧ (a :: as).Nodup ∧
      (∀ x ∈ a :: as, ∃ cs, Chain next x cs ∧ cs.length ≤ bs.length) ∧ ∀ x ∈ as, x ∈ S := by
  induction h with
  | @last a b hlast =>
      refine ⟨[], rfl, by simp, ?_, by simp⟩
      intro x hx
      obtain rfl := List.mem_singleton.mp hx
      exact ⟨[b], .last hlast, le_rfl⟩
  | @link a a' b bs hlink rest ih =>
      obtain ⟨as, hlen, hnodup, hchains, hmem⟩ := ih
      have hnot : a ∉ a' :: as := by
        intro hin
        obtain ⟨cs, hcs, hle⟩ := hchains a hin
        have := congrArg List.length (hcs.unique (.link hlink rest))
        rw [List.length_cons] at this
        omega
      refine ⟨a' :: as, by simp [hlen], List.nodup_cons.mpr ⟨hnot, hnodup⟩, ?_, ?_⟩
      · intro x hx
        rcases List.mem_cons.mp hx with rfl | hx
        · exact ⟨b :: bs, .link hlink rest, le_rfl⟩
        · obtain ⟨cs, hcs, hle⟩ := hchains x hx
          exact ⟨cs, hcs, hle.trans (Nat.le_succ _)⟩
      · intro x hx
        rcases List.mem_cons.mp hx with rfl | hx
        · exact hS a b _ hlink
        · exact hmem x hx

/-- **A chain is no longer than the addresses links can have**, and the one it starts at. -/
theorem length_le [DecidableEq α] {S : Finset α}
    (hS : ∀ a b a', next a = some (b, some a') → a' ∈ S) (h : Chain next a bs) :
    bs.length ≤ S.card + 1 := by
  obtain ⟨as, hlen, hnodup, -, hmem⟩ := h.addresses hS
  have hsub : as.toFinset ⊆ S := fun x hx => hmem x (List.mem_toFinset.mp hx)
  have hcard := Finset.card_le_card hsub
  rw [List.toFinset_card_of_nodup (List.nodup_cons.mp hnodup).2] at hcard
  omega

end Chain

end C64Iec.Lib

import C64Iec.Lib.Runs

set_option autoImplicit false

/-! # Stop-and-wait

The protocol that lies under a transfer in numbered pieces: the sender sends piece `j + 1` when
piece `j` is acknowledged, the receiver takes the pieces in order and acknowledges each. The
network may lose, delay, reorder and repeat: whatever has ever been sent may arrive at any time,
so the state is only how far the two sides are. A message that is not in turn changes nothing.

`ordered_of_reachable` is what the numbering buys: the sender is never more than one piece
ahead. An implementation that simulates `Step` inherits it.
-/

namespace C64Iec.Lib

/-- How many pieces the sender has sent and the receiver has taken. -/
@[ext]
structure StopAndWait where
  sent : Nat
  got : Nat
  deriving DecidableEq, Repr

namespace StopAndWait

/-- Nothing sent, nothing taken. -/
def start : StopAndWait := ⟨0, 0⟩

/-- Piece `j` arrives at the receiver. -/
def take (s : StopAndWait) (j : Nat) : StopAndWait :=
  if j = s.got + 1 then { s with got := j } else s

/-- The acknowledgement of piece `j` arrives at the sender. -/
def advance (s : StopAndWait) (j : Nat) : StopAndWait :=
  if j = s.sent then { s with sent := j + 1 } else s

/-- A message that has been sent arrives. The acknowledgement of piece `0` is the receiver's
readiness. -/
inductive Step : StopAndWait → StopAndWait → Prop
  | piece {s : StopAndWait} (j : Nat) (h : j ≤ s.sent) : Step s (s.take j)
  | ack {s : StopAndWait} (j : Nat) (h : j ≤ s.got) : Step s (s.advance j)

/-- The sender is level with the receiver or one piece ahead. -/
structure Ordered (s : StopAndWait) : Prop where
  got_le : s.got ≤ s.sent
  sent_le : s.sent ≤ s.got + 1

theorem Ordered.step {s t : StopAndWait} (h : s.Ordered) (hst : Step s t) : t.Ordered := by
  obtain ⟨h1, h2⟩ := h
  cases hst with
  | piece j hj =>
      unfold take
      split
      · exact ⟨hj, by simp only; omega⟩
      · exact ⟨h1, h2⟩
  | ack j hj =>
      unfold advance
      split
      · exact ⟨by simp only; omega, by simp only; omega⟩
      · exact ⟨h1, h2⟩

theorem ordered_of_reachable {s : StopAndWait} (h : Reachable Step start s) : s.Ordered :=
  reachable_invariant ⟨Nat.le_refl _, Nat.zero_le _⟩ (fun _ _ hu hst => hu.step hst) h

/-- The next piece is taken. -/
theorem reachable_take {s : StopAndWait} (h : s.got + 1 ≤ s.sent) :
    Reachable Step s ⟨s.sent, s.got + 1⟩ := by
  have hstep := Step.piece (s := s) (s.got + 1) h
  rw [take, if_pos rfl] at hstep
  exact .single hstep

/-- The next piece is sent. -/
theorem reachable_advance {s : StopAndWait} (h : s.sent ≤ s.got) :
    Reachable Step s ⟨s.sent + 1, s.got⟩ := by
  have hstep := Step.ack (s := s) s.sent h
  rw [advance, if_pos rfl] at hstep
  exact .single hstep

end StopAndWait

end C64Iec.Lib

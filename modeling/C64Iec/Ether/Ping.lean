import C64Iec.Ether.Answers
import C64Iec.Ether.Wire

set_option autoImplicit false

/-! # Pings

`make_echo_reply_from_request` does not sum up the reply: it adds eight to the high byte of the
request's checksum, for the eight that the type has lost, and what is carried out of the high byte
to the low one. A carry out of the low byte has nowhere to go. So a request that verifies is
answered by a reply that verifies, with its data, in all but one case (`packetLoop_ping`).
-/

namespace C64Iec.Ether

open Lib
open Client (Frame)

/-! ## The sum -/

/-- The words of a message of ICMP: the type and the code, the checksum, and the rest. -/
theorem wordSum_icmp (b : Nat → Byte) (n : Nat) :
    wordSum (cells b 34 (4 + n)) =
      ((b 34).toNat * 256 + (b 35).toNat) + ((b 36).toNat * 256 + (b 37).toNat) +
        wordSum (cells b 38 n) := by
  have hfour : cells b 34 4 = [b 34, b 35, b 36, b 37] := rfl
  rw [cells_add, hfour, wordSum_append (by simp)]
  show wordSum [b 34, b 35, b 36, b 37] + wordSum (cells b 38 n) = _
  simp only [wordSum]
  omega

/-- Changing the two words of a sum that is all ones. -/
theorem fold_patched {hi lo code rest : Nat} (hhi : hi < 256) (hlo : lo < 256)
    (h : fold (8 * 256 + code + (hi * 256 + lo) + rest) = 65535) :
    fold (0 * 256 + code +
        ((hi + 8) % 256 * 256 + (if 247 < hi then (lo + 1) % 256 else lo)) + rest) = 65535 ↔
      ¬(248 ≤ hi ∧ lo = 255) := by
  rw [fold_eq_ones_iff] at h ⊢
  obtain ⟨-, hmod⟩ := h
  split
  · -- the carry goes to the low byte
    have hwrap : (hi + 8) % 256 = hi - 248 := by omega
    rw [hwrap]
    by_cases hff : lo = 255
    · subst hff
      omega
    · have hnext : (lo + 1) % 256 = lo + 1 := Nat.mod_eq_of_lt (by omega)
      rw [hnext]
      omega
  · have hadd : (hi + 8) % 256 = hi + 8 := Nat.mod_eq_of_lt (by omega)
    rw [hadd]
    omega

/-! ## The reply -/

/-- What lies outside the first four bytes of ICMP and the headers before. -/
theorem cells_makeEchoReplyFromRequest (e : EtherCard) (b : Nat → Byte) {o n : Nat} (h : 38 ≤ o) :
    cells (makeEchoReplyFromRequest e b) o n = cells b o n := by
  unfold makeEchoReplyFromRequest ICMP_CHECKSUM_P ICMP_TYPE_P
  dsimp only
  rw [cells_write_of_disjoint (Or.inr (by simp only [List.length_singleton]; omega))]
  split
  · rw [cells_write_of_disjoint (Or.inr (by simp only [List.length_singleton]; omega)),
      cells_write_of_disjoint (Or.inr (by simp only [List.length_singleton]; omega)),
      cells_makeEthIp _ _ (by omega)]
  · rw [cells_write_of_disjoint (Or.inr (by simp only [List.length_singleton]; omega)),
      cells_makeEthIp _ _ (by omega)]

theorem makeEthIp_behind (e : EtherCard) (b : Nat → Byte) {i : Nat} (h : 34 ≤ i) :
    makeEthIp e b i = b i := by
  have hcell : cells (makeEthIp e b) i 1 = cells b i 1 := cells_makeEthIp e b h
  exact (List.cons.inj hcell).1

/-- The first four bytes of the reply. -/
theorem makeEchoReplyFromRequest_bytes (e : EtherCard) (b : Nat → Byte) :
    makeEchoReplyFromRequest e b 34 = 0 ∧ makeEchoReplyFromRequest e b 35 = b 35 ∧
      makeEchoReplyFromRequest e b 36 = b 36 + 8 ∧
      makeEchoReplyFromRequest e b 37 = if b 36 > 247 then b 37 + 1 else b 37 := by
  have h35 := makeEthIp_behind e b (show 34 ≤ 35 by decide)
  have h36 := makeEthIp_behind e b (show 34 ≤ 36 by decide)
  have h37 := makeEthIp_behind e b (show 34 ≤ 37 by decide)
  unfold makeEchoReplyFromRequest ICMP_CHECKSUM_P ICMP_TYPE_P ICMP_TYPE_ECHOREPLY_V
  generalize makeEthIp e b = b' at *
  have hcarry : write b' 34 [0] 36 = b 36 := (write_behind (by decide)).trans h36
  have hlow : write b' 34 [0] 37 = b 37 := (write_behind (by decide)).trans h37
  have hcode : write b' 34 [0] 35 = b 35 := (write_behind (by decide)).trans h35
  have htype : write b' 34 [0] 34 = 0 := rfl
  have hbound : (0xFF - 0x08 : Byte) = 247 := rfl
  rw [hcarry, hbound]
  split
  · refine ⟨?_, ?_, ?_, ?_⟩
    · rw [write_before (by decide), write_before (by decide), htype]
    · rw [write_before (by decide), write_before (by decide), hcode]
    · rw [write_before (show 36 < 36 + 1 by decide), hcarry]
      exact write_singleton _ _ _
    · rw [write_behind (show 36 + 1 ≤ 37 by decide)]
      exact (write_singleton _ (36 + 1) _).trans (congrArg (· + 1) hlow)
  · refine ⟨?_, ?_, ?_, ?_⟩
    · rw [write_before (by decide), htype]
    · rw [write_before (by decide), hcode]
    · rw [hcarry]
      exact write_singleton _ _ _
    · rw [write_behind (show 36 + 1 ≤ 37 by decide), hlow]

/-- The carry that is lost. -/
def LosesCarry (b : Nat → Byte) : Prop := 0xF8 ≤ b 36 ∧ b 37 = 0xFF

/-- A reply verifies unless the carry is lost. -/
theorem verifies_echoReply_iff (e : EtherCard) {b : Nat → Byte} {n : Nat} (htype : b 34 = 8)
    (h : Verifies 0 (cells b 34 (4 + n))) :
    Verifies 0 (cells (makeEchoReplyFromRequest e b) 34 (4 + n)) ↔ ¬LosesCarry b := by
  obtain ⟨h34, h35, h36, h37⟩ := makeEchoReplyFromRequest_bytes e b
  have hlow : ((if b 36 > 247 then b 37 + 1 else b 37 : Byte)).toNat =
      if 247 < (b 36).toNat then ((b 37).toNat + 1) % 256 else (b 37).toNat := by
    have hiff : b 36 > 247 ↔ 247 < (b 36).toNat := UInt8.lt_iff_toNat_lt
    simp only [hiff]
    split
    · exact UInt8.toNat_add _ _
    · rfl
  have hhigh : (b 36 + 8).toNat = ((b 36).toNat + 8) % 256 := by
    rw [UInt8.toNat_add]
    rfl
  have hcarry : LosesCarry b ↔ 248 ≤ (b 36).toNat ∧ (b 37).toNat = 255 := by
    unfold LosesCarry
    rw [UInt8.le_iff_toNat_le, ← UInt8.toNat_inj]
    rfl
  unfold Verifies at h ⊢
  rw [wordSum_icmp, htype, Nat.zero_add] at h
  rw [wordSum_icmp, h34, h35, h36, h37, hhigh, hlow, cells_makeEchoReplyFromRequest _ _ (by decide),
    Nat.zero_add, hcarry]
  exact fold_patched (b 36).toNat_lt (b 37).toNat_lt h

/-! ## A ping -/

/-- The frame is an echo request for the card, with `n` bytes behind the checksum of ICMP, which
verifies. -/
structure EchoRequest (e : EtherCard) (f : Frame) (n : Nat) : Prop where
  mine : ethTypeIsIpAndMyIp e f = true
  pings : Frame.Pings f
  fits : 38 + n ≤ f.plen
  verifies : Verifies 0 (f.bytes 34 (4 + n))

/-- A frame of IP is not one of ARP. -/
theorem not_arp_of_ip {e : EtherCard} {f : Frame} (h : ethTypeIsIpAndMyIp e f = true) (ip : Bytes) :
    Client.ethTypeIsArpAndMyIp ip f = false := by
  by_contra harp
  rw [Bool.not_eq_false] at harp
  obtain ⟨hip, -, -⟩ := of_ipAndMyIp h
  simp only [Client.ethTypeIsArpAndMyIp, Bool.and_eq_true] at harp
  obtain ⟨⟨⟨-, hh⟩, hl⟩, -⟩ := harp
  rw [bytes_type hh hl] at hip
  exact absurd hip (by decide)

/-- **A ping is answered** with one frame of its own length, which gives back the data of the
request; and its checksum verifies unless the low byte of the request's is `0xff` and the high one
`0xf8` or more. -/
theorem packetLoop_ping (linkUp : Bool) {e : EtherCard} {f : Frame} {n : Nat}
    (h : EchoRequest e f n) :
    ∃ s, (packetLoop linkUp e f).sent = [s] ∧ s.length = f.plen ∧ field s 34 2 = [0, f.buffer 35] ∧
      field s 38 n = f.bytes 38 n ∧ (Verifies 0 (field s 34 (4 + n)) ↔ ¬LosesCarry f.buffer) := by
  obtain ⟨-, -, h42⟩ := of_ipAndMyIp h.mine
  have hfits := h.fits
  have hsent : (packetLoop linkUp e f).sent
      = [packetSend (makeEchoReplyFromRequest e f.buffer) f.plen] := by
    unfold packetLoop
    dsimp only
    have hpings : f.buffer Client.IP_PROTO_P = IP_PROTO_ICMP_V ∧
        f.buffer ICMP_TYPE_P = ICMP_TYPE_ECHOREQUEST_V := h.pings
    rw [if_neg (by omega), not_arp_of_ip h.mine, if_neg Bool.false_ne_true, h.mine,
      if_neg (by decide), if_pos hpings]
  obtain ⟨h34, h35, -, -⟩ := makeEchoReplyFromRequest_bytes e f.buffer
  refine ⟨_, hsent, cells_length _ _ _, ?_, ?_, ?_⟩
  · unfold packetSend
    rw [field_cells _ (by omega)]
    show [makeEchoReplyFromRequest e f.buffer 34, makeEchoReplyFromRequest e f.buffer 35] = _
    rw [h34, h35]
  · unfold packetSend
    rw [field_cells _ (by omega)]
    exact cells_makeEchoReplyFromRequest e f.buffer (by decide)
  · unfold packetSend
    rw [field_cells _ (by omega)]
    exact verifies_echoReply_iff e h.pings.2 h.verifies

/-- A ping whose identifier is `0xfeff`, which makes the checksum `0xf8ff`. -/
def samplePing : Frame where
  buffer i := (sampleCard.mymac.toList ++ [2, 0, 0, 0, 0, 1, 8, 0, 0x45, 0, 0, 28, 0, 0, 0, 0, 64, 1,
    0, 0, 10, 0, 0, 3, 10, 0, 0, 2, 8, 0, 0xf8, 0xff, 0xfe, 0xff, 0, 0]).getD i 0
  plen := 42

theorem packetLoop_ping_sample :
    ∃ s, (packetLoop true sampleCard samplePing).sent = [s] ∧ ¬Verifies 0 (field s 34 8) := by
  have hrequest : EchoRequest sampleCard samplePing 4 :=
    ⟨by decide, by unfold Frame.Pings; decide, by decide, fold_eq_ones_iff.mpr (by decide)⟩
  obtain ⟨s, hs, -, -, -, hiff⟩ := packetLoop_ping true hrequest
  have hloses : LosesCarry samplePing.buffer := by
    unfold LosesCarry
    decide
  exact ⟨s, hs, fun hverifies => hiff.mp hverifies hloses⟩

end C64Iec.Ether

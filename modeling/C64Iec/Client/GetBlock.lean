import C64Iec.Client.Datagram

set_option autoImplicit false

/-! # The next block of a GET

`tftp_get_block` fetches nothing and changes nothing, or it copies the data that waits, notes the
block as fetched and acknowledges it (`tftpGetBlock_cases`); there is no third way out. On data
that `tftp_recv_packet` has just stored it fetches that block (`tftpGetBlock_storeBlock`).
-/

namespace C64Iec.Client

open Lib

/-- The acknowledgement of block `n` sent to port `sport`. -/
def ackDatagram (sport n : Nat) : Datagram := ⟨SRCPORT, sport, packetBytes TFTP_ACK n []⟩

theorem tftpSendAck_eq (t : Tftp) (sport n : Nat) :
    tftpSendAck t sport n =
      ({ t with tftpdata := blit t.tftpdata 0 (packetBytes TFTP_ACK n []) },
        [ackDatagram sport n]) := by
  have hlen : (packetBytes TFTP_ACK n []).length = 4 := rfl
  have htake : (blit t.tftpdata 0 (packetBytes TFTP_ACK n [])).take 4
      = packetBytes TFTP_ACK n [] := by
    have := take_blit_zero t.tftpdata (packetBytes TFTP_ACK n [])
    rwa [hlen] at this
  rw [ackDatagram, ← htake]
  rfl

/-- No block to fetch: none received, or the one received last is not newer than the one
fetched last. -/
theorem tftpGetBlock_none {t : Tftp} (mem : Bytes) (at_ : Nat)
    (h : (t.dataAvailable = 0 ∧ t.endOfData = false) ∨ (t.lastgot ≠ 0 ∧ t.blknum ≤ t.lastgot)) :
    tftpGetBlock t mem at_ 0 = (0, mem, t, []) := by
  rw [tftpGetBlock]
  split
  · rfl
  · rename_i hnot
    rw [if_pos (h.resolve_left hnot)]

/-- A call of `tftp_get_block` that gets past its two guards. -/
theorem tftpGetBlock_some {t : Tftp} (mem : Bytes) (at_ : Nat)
    (hdata : t.dataAvailable ≠ 0 ∨ t.endOfData = true)
    (hnew : t.lastgot = 0 ∨ t.lastgot < t.blknum) :
    tftpGetBlock t mem at_ 0 =
      (t.dataAvailable,
        if t.dataAvailable ≠ 0 then
          blit mem at_ (t.tftpdata.take (t.dataAvailable % 65536).toNat) else mem,
        { t with
          lastgot := t.blknum
          tftpdata := blit t.tftpdata 0 (packetBytes TFTP_ACK t.blknum [])
          requestInProgress := if t.endOfData then .norq else t.requestInProgress },
        [ackDatagram t.srvport t.blknum]) := by
  have h1 : ¬(t.dataAvailable = 0 ∧ t.endOfData = false) := by
    rintro ⟨h0, hend⟩
    exact hdata.elim (fun h => h h0) fun h => by simp [hend] at h
  have h2 : ¬(t.lastgot ≠ 0 ∧ t.lastgot ≥ t.blknum) := by omega
  rw [tftpGetBlock, if_neg h1, if_neg h2]
  simp only [tftpSendAck_eq, Nat.cast_zero, Int.sub_zero, List.drop_zero]
  cases t.endOfData <;> rfl

/-- **What a call of `tftp_get_block` can do.** -/
theorem tftpGetBlock_cases (t : Tftp) (mem : Bytes) (at_ : Nat) :
    tftpGetBlock t mem at_ 0 = (0, mem, t, []) ∨
      (t.dataAvailable ≠ 0 ∨ t.endOfData = true) ∧ (t.lastgot = 0 ∨ t.lastgot < t.blknum) ∧
        tftpGetBlock t mem at_ 0 =
          (t.dataAvailable,
            if t.dataAvailable ≠ 0 then
              blit mem at_ (t.tftpdata.take (t.dataAvailable % 65536).toNat) else mem,
            { t with
              lastgot := t.blknum
              tftpdata := blit t.tftpdata 0 (packetBytes TFTP_ACK t.blknum [])
              requestInProgress := if t.endOfData then .norq else t.requestInProgress },
            [ackDatagram t.srvport t.blknum]) := by
  by_cases hnone : (t.dataAvailable = 0 ∧ t.endOfData = false) ∨
      (t.lastgot ≠ 0 ∧ t.blknum ≤ t.lastgot)
  · exact Or.inl (tftpGetBlock_none mem at_ hnone)
  · have hdata : t.dataAvailable ≠ 0 ∨ t.endOfData = true := by
      by_contra hc
      simp only [not_or, not_not, Bool.not_eq_true] at hc
      exact hnone (Or.inl hc)
    have hnew : t.lastgot = 0 ∨ t.lastgot < t.blknum := by omega
    exact Or.inr ⟨hdata, hnew, tftpGetBlock_some mem at_ hdata hnew⟩

/-- A call that sends no ACK fetches nothing. -/
theorem tftpGetBlock_of_no_ack {t : Tftp} {mem : Bytes} {at_ : Nat}
    (h : (tftpGetBlock t mem at_ 0).2.2.2 = []) : tftpGetBlock t mem at_ 0 = (0, mem, t, []) := by
  rcases tftpGetBlock_cases t mem at_ with hnone | ⟨-, -, hsome⟩
  · exact hnone
  · rw [hsome] at h
    exact absurd h (List.cons_ne_nil _ _)

/-- Without data a call copies nothing. -/
theorem tftpGetBlock_of_no_data {t : Tftp} (ht : t.dataAvailable = 0) (mem : Bytes) (at_ : Nat) :
    (tftpGetBlock t mem at_ 0).1 = 0 ∧ (tftpGetBlock t mem at_ 0).2.1 = mem := by
  rcases tftpGetBlock_cases t mem at_ with hnone | ⟨-, -, hsome⟩
  · rw [hnone]
    exact ⟨rfl, rfl⟩
  · rw [hsome]
    exact ⟨ht, if_neg (not_not.mpr ht)⟩

theorem tftpGetBlock_mem_length (t : Tftp) (mem : Bytes) (at_ : Nat) :
    mem.length ≤ (tftpGetBlock t mem at_ 0).2.1.length := by
  rcases tftpGetBlock_cases t mem at_ with hnone | ⟨-, -, hsome⟩
  · rw [hnone]
  · rw [hsome]
    dsimp only
    split
    · exact length_le_blit _ _ _
    · exact le_rfl

theorem tftpGetBlock_dataAvailable (t : Tftp) (mem : Bytes) (at_ : Nat) :
    (tftpGetBlock t mem at_ 0).2.2.1.dataAvailable = t.dataAvailable := by
  rcases tftpGetBlock_cases t mem at_ with hnone | ⟨-, -, hsome⟩
  · rw [hnone]
  · rw [hsome]

/-- A call ends the request or leaves it. -/
theorem tftpGetBlock_request (t : Tftp) (mem : Bytes) (at_ : Nat) :
    (tftpGetBlock t mem at_ 0).2.2.1.error = t.error ∧
      ((tftpGetBlock t mem at_ 0).2.2.1.requestInProgress = t.requestInProgress ∨
        (tftpGetBlock t mem at_ 0).2.2.1.requestInProgress = .norq) := by
  rcases tftpGetBlock_cases t mem at_ with hnone | ⟨-, -, hsome⟩
  · rw [hnone]
    exact ⟨rfl, Or.inl rfl⟩
  · rw [hsome]
    cases t.endOfData with
    | false => exact ⟨rfl, Or.inl rfl⟩
    | true => exact ⟨rfl, Or.inr rfl⟩

/-- The block stored last is newer: it is copied and acknowledged. -/
theorem tftpGetBlock_storeBlock {t : Tftp} {body : Bytes} (mem : Bytes) (at_ : Nat)
    (hlen : body.length ≤ TFTP_BLKSIZE) (hnew : t.lastgot < t.blknum) :
    tftpGetBlock (storeBlock t body) mem at_ 0 =
      ((body.length : Int), blit mem at_ body,
        { storeBlock t body with
          lastgot := t.blknum
          tftpdata := blit (blit t.tftpdata 0 body) 0 (packetBytes TFTP_ACK t.blknum [])
          requestInProgress :=
            if (storeBlock t body).endOfData then .norq else t.requestInProgress },
        [ackDatagram t.srvport t.blknum]) := by
  have hlen' : body.length ≤ 256 := hlen
  have havail : (storeBlock t body).dataAvailable = (body.length : Int) :=
    int16_of_lt (by omega)
  have hdata : (storeBlock t body).dataAvailable ≠ 0 ∨ (storeBlock t body).endOfData = true := by
    by_cases h0 : body.length = 0
    · refine Or.inr ?_
      simp [storeBlock, h0, TFTP_BLKSIZE]
    · rw [havail]
      exact Or.inl (by exact_mod_cast h0)
  have hsize : ((body.length : Int) % 65536).toNat = body.length := by omega
  have htake : (storeBlock t body).tftpdata.take body.length = body := take_blit_zero _ _
  have hmem : (if (body.length : Int) ≠ 0 then blit mem at_ body else mem) = blit mem at_ body := by
    split
    · rfl
    · rename_i h0
      have : body = [] := by
        refine List.eq_nil_of_length_eq_zero ?_
        simpa using h0
      rw [this, blit_nil]
  rw [tftpGetBlock_some mem at_ hdata (Or.inr hnew), havail, hsize, htake, hmem, ← havail]
  rfl

end C64Iec.Client

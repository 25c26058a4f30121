import C64Iec.Client.Tftp

set_option autoImplicit false

/-! # The requests the client sends

A request goes out exactly when none is in progress and the name has at most 20 bytes
(`tftpSendRequest_eq`), and it is then `requestBytes`: the opcode, the name, the mode and the
one option.
-/

namespace C64Iec.Client

open Lib

/-- The longest name `tftp_build_request` accepts. -/
def NAME_LIMIT : Nat := 16 + 1 + 3

/-- The request with this opcode and file name. -/
def requestBytes (opcode : Nat) (filename : Bytes) : Bytes :=
  beBytes opcode ++ (filename ++ [0]) ++ (ascii "octet" ++ [0]) ++ (ascii "blksize" ++ [0])
    ++ (ascii "256" ++ [0])

/-- The datagram of a request. -/
def requestDatagram (opcode : Nat) (filename : Bytes) : Datagram :=
  ⟨SRCPORT, TFTP_PORT, requestBytes opcode filename⟩

theorem requestBytes_length (opcode : Nat) (filename : Bytes) :
    (requestBytes opcode filename).length = 2 + (filename.length + 1) + 6 + 8 + 4 := by
  simp only [requestBytes, List.length_append, beBytes_length]
  rfl

theorem tftpBuildRequest_eq (t : Tftp) {filename : Bytes} (opcode : Nat)
    (h : filename.length ≤ NAME_LIMIT) :
    tftpBuildRequest t filename opcode =
      ((requestBytes opcode filename).length,
        { t with tftpdata := blit t.tftpdata 0 (requestBytes opcode filename) }) := by
  have hoff : ∀ {n : Nat} {a b : Bytes}, a.length = n →
      blit (blit t.tftpdata 0 a) n b = blit t.tftpdata 0 (a ++ b) := by
    intro n a b hn
    have h : blit (blit t.tftpdata 0 a) (0 + a.length) b = blit t.tftpdata 0 (a ++ b) :=
      blit_blit (Nat.zero_le _)
    rwa [Nat.zero_add, hn] at h
  have h2 : (beBytes opcode ++ (filename ++ [0])).length = 2 + (filename.length + 1) := by
    simp only [List.length_append, beBytes_length, List.length_singleton]
  have h3 : (beBytes opcode ++ (filename ++ [0]) ++ (ascii "octet" ++ [0])).length
      = 2 + (filename.length + 1) + 6 := by
    rw [List.length_append, h2]
    rfl
  have h4 : (beBytes opcode ++ (filename ++ [0]) ++ (ascii "octet" ++ [0])
      ++ (ascii "blksize" ++ [0])).length = 2 + (filename.length + 1) + 6 + 8 := by
    rw [List.length_append, h3]
    rfl
  have hle : ¬filename.length > 16 + 1 + 3 := Nat.not_lt.mpr h
  rw [tftpBuildRequest, if_neg hle]
  simp only [hoff (beBytes_length opcode), hoff h2, hoff h3, hoff h4]
  rw [requestBytes_length]
  rfl

/-- **When a request goes out.** -/
theorem tftpSendRequest_eq (mode : Nat) (req : Request) (t : Tftp) (filename : Bytes) :
    (tftpSendRequest mode req t filename).2 =
      if t.requestInProgress = .norq ∧ filename.length ≤ NAME_LIMIT then
        ({ t with
            requestInProgress := req
            tftpdata := blit t.tftpdata 0 (requestBytes mode filename) },
          [requestDatagram mode filename])
      else (t, []) := by
  by_cases hreq : t.requestInProgress = .norq
  · by_cases hlen : filename.length ≤ NAME_LIMIT
    · have hne : (requestBytes mode filename).length ≠ 0 := by
        rw [requestBytes_length]
        omega
      have hsend : (blit t.tftpdata 0 (requestBytes mode filename)).take
          (requestBytes mode filename).length = requestBytes mode filename := take_blit_zero _ _
      rw [tftpSendRequest, if_neg (by simp [hreq]), if_pos ⟨hreq, hlen⟩,
        tftpBuildRequest_eq t mode hlen]
      simp only [hne, if_false, sendUdp, hsend]
      rfl
    · have hgt : filename.length > 16 + 1 + 3 := Nat.not_le.mp hlen
      have hbuild : tftpBuildRequest t filename mode = (0, t) := by
        rw [tftpBuildRequest, if_pos hgt]
      rw [tftpSendRequest, if_neg (by simp [hreq]), if_neg (fun h => hlen h.2), hbuild]
      rfl
  · rw [tftpSendRequest, if_pos hreq, if_neg (fun h => hreq h.1)]

end C64Iec.Client

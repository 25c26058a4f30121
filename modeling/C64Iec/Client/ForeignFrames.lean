import C64Iec.Client.Datagram

set_option autoImplicit false

/-! # Frames that are not from the server

`tftp_recv_packet` asks for a protocol byte and a destination port. `is_myIp`, which stands before
these tests, lets through everything but an ARP packet for this address, and nobody looks at the
EtherType or at who sent the frame. So a frame from anywhere is taken for the server's when the two
bytes and the port fit, and then the state changes (`undisturbed_iff`).
-/

namespace C64Iec.Client

open Lib

/-! ## The server's frames -/

def IP_HEADER_LEN_VER_P : Nat := 0x0e
def IP_SRC_P : Nat := 0x1a
def IP_DST_P : Nat := 0x1e

def ETHTYPE_IP_H_V : Byte := 0x08
def ETHTYPE_IP_L_V : Byte := 0x00

/-- Where the UDP header of an IPv4 frame starts. -/
def Frame.udpStart (f : Frame) : Nat :=
  14 + 4 * ((f.buffer IP_HEADER_LEN_VER_P).toNat % 16)

/-- The frame is an IPv4 UDP datagram from the server to the client's port. `port` is the port the
transfer has heard the server from, if it has. -/
structure FromServer (myip serverip : Bytes) (port : Option Nat) (f : Frame) : Prop where
  ethTypeH : f.buffer ETH_TYPE_H_P = ETHTYPE_IP_H_V
  ethTypeL : f.buffer ETH_TYPE_L_P = ETHTYPE_IP_L_V
  version : (f.buffer IP_HEADER_LEN_VER_P).toNat / 16 = 4
  header : 34 ≤ f.udpStart
  plen : f.udpStart + 8 ≤ f.plen
  proto : f.buffer IP_PROTO_P = IP_PROTO_UDP_V
  source : f.bytes IP_SRC_P 4 = serverip
  destination : f.bytes IP_DST_P 4 = myip
  srvport : ∀ p, port = some p → be16 (f.buffer f.udpStart) (f.buffer (f.udpStart + 1)) = p
  dstport : be16 (f.buffer (f.udpStart + 2)) (f.buffer (f.udpStart + 3)) = SRCPORT

/-- The frame, when it is not from the server, does nothing. -/
def Undisturbed (myip serverip : Bytes) (port : Option Nat) (t : Tftp) (f : Frame) : Prop :=
  ¬FromServer myip serverip port f → tftpRecvPacket myip t f = (t, [])

/-! ## What is looked at -/

variable {myip serverip : Bytes} {port : Option Nat} {t : Tftp} {f : Frame}

theorem tftpRecvPacket_of_not_accepted (h : ¬Accepted myip f) :
    tftpRecvPacket myip t f = (t, []) := by
  unfold tftpRecvPacket
  by_cases hplen : f.plen = 0
  · rw [if_pos hplen]
  · rw [if_neg hplen]
    by_cases hip : isMyIp myip f = false
    · rw [if_pos hip]
    · rw [if_neg hip, if_neg]
      rintro ⟨hproto, hport⟩
      exact h ⟨hplen, by simpa [isMyIp] using hip, hproto, hport⟩

/-- The numbers of an accepted frame are taken over, and one that repeats the last number goes no
further. -/
theorem tftpRecvPacket_of_repeated (h : Accepted myip f) (hrep : t.lastblk = f.blknum) :
    tftpRecvPacket myip t f = ({ t with blknum := f.blknum, srvport := f.srvport }, []) := by
  have hip : ¬isMyIp myip f = false := by simp [isMyIp, h.notArp]
  unfold tftpRecvPacket
  rw [if_neg h.plen, if_neg hip, if_pos ⟨h.proto, h.dstport⟩]
  exact if_pos hrep

theorem lastblk_noteData (t : Tftp) (f : Frame) (dataSize : Nat) :
    (noteData (tftpRecvData t f dataSize) dataSize).lastblk = t.lastblk := by
  have hnote : ∀ r : Int × Tftp, (noteData r dataSize).lastblk = r.2.lastblk := by
    intro r
    unfold noteData
    dsimp only
    split <;> split <;> rfl
  have hdata : (tftpRecvData t f dataSize).2.lastblk = t.lastblk := by
    simp only [tftpRecvData]
    split <;> rfl
  exact (hnote _).trans hdata

/-- Any other number is noted, whatever the packet is. -/
theorem lastblk_tftpRecvPacket (h : Accepted myip f) (hnew : t.lastblk ≠ f.blknum) :
    (tftpRecvPacket myip t f).1.lastblk = f.blknum := by
  have hrecv := tftpRecvPacket_received myip t f
  generalize tftpRecvPacket myip t f = r at hrecv ⊢
  cases hrecv with
  | dropped hnot => exact absurd h hnot
  | repeated _ hrep => exact absurd hrep hnew
  | options => rfl
  | data =>
      rw [lastblk_noteData]
      rfl
  | clear => rfl
  | failed => rfl
  | other => rfl

/-- **A frame changes nothing** exactly when it does not get past the tests, or repeats what the
state holds already. -/
theorem tftpRecvPacket_eq_self_iff :
    tftpRecvPacket myip t f = (t, []) ↔ ¬Accepted myip f ∨
      (f.blknum = t.lastblk ∧ f.blknum = t.blknum ∧ f.srvport = t.srvport) := by
  by_cases hacc : Accepted myip f
  · by_cases hrep : t.lastblk = f.blknum
    · rw [tftpRecvPacket_of_repeated hacc hrep]
      constructor
      · intro h
        have ht := congrArg Prod.fst h
        exact Or.inr ⟨hrep.symm, congrArg Tftp.blknum ht, congrArg Tftp.srvport ht⟩
      · rintro (hnot | ⟨-, hblk, hport⟩)
        · exact absurd hacc hnot
        · rw [hblk, hport]
    · refine iff_of_false ?_ ?_
      · intro h
        have hlast := lastblk_tftpRecvPacket hacc hrep
        rw [h] at hlast
        exact hrep hlast
      · rintro (hnot | ⟨hblk, -⟩)
        · exact hnot hacc
        · exact hrep hblk.symm
  · exact iff_of_true (tftpRecvPacket_of_not_accepted hacc) (Or.inl hacc)

/-- **Which frames leave the client alone**: those that are not from the server do when they do not
get past the tests, or repeat what the state holds already. -/
theorem undisturbed_iff : Undisturbed myip serverip port t f ↔
    FromServer myip serverip port f ∨ ¬Accepted myip f ∨
      (f.blknum = t.lastblk ∧ f.blknum = t.blknum ∧ f.srvport = t.srvport) := by
  rw [Undisturbed, ← tftpRecvPacket_eq_self_iff]
  by_cases hs : FromServer myip serverip port f
  · exact iff_of_true (fun h => absurd hs h) (Or.inl hs)
  · constructor
    · intro h
      exact Or.inr (h hs)
    · rintro (hs' | h) _
      · exact absurd hs' hs
      · exact h

/-! ## An error packet from another host -/

/-- A UDP datagram from 10.0.0.9 to 10.0.0.2, both at port 53280: error 0 without a text. -/
def strayError : Frame where
  buffer := fun i => ([2, 0, 0, 0, 0, 2, 2, 0, 0, 0, 0, 9, 0x08, 0x00,
    0x45, 0, 0, 33, 0, 0, 0, 0, 64, 17, 0x66, 0xc0, 10, 0, 0, 9, 10, 0, 0, 2,
    0xd0, 0x20, 0xd0, 0x20, 0, 13, 0, 0,
    0, 5, 0, 0, 0] : Bytes).getD i 0
  plen := 47

/-- It ends the read request that is waiting for an answer from 10.0.0.1. -/
theorem not_undisturbed_strayError :
    ¬Undisturbed [10, 0, 0, 2] [10, 0, 0, 1] none
      { Tftp.init with requestInProgress := .get } strayError := by
  intro h
  have hforeign : ¬FromServer [10, 0, 0, 2] [10, 0, 0, 1] none strayError := fun hs =>
    absurd hs.source (by decide)
  have hreq := congrArg (fun r => r.1.requestInProgress) (h hforeign)
  exact absurd hreq (by decide)

end C64Iec.Client

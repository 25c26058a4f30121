import C64Iec.Client.GetBlock
import C64Iec.Lib.Runs

set_option autoImplicit false

/-! # The size of received data

The size of a block is computed from the length field of the UDP header, in 16 bits, and used for a
copy to `tftpdata` and later for one to `iobuf`. `WithinBounds` says that both stay inside their
buffers, and the first inside the frame. The code checks none of it; `withinBounds_iff` says which
length fields are harmless.
-/

namespace C64Iec.Client

open Lib

/-- The length field of the UDP header. -/
def Frame.udpLength (f : Frame) : Nat := be16 (f.buffer UDP_LEN_H_P) (f.buffer UDP_LEN_L_P)

/-- `tftp_recv_packet` calls `tftp_recv_data` for this frame. -/
structure ReachesData (myip : Bytes) (t : Tftp) (f : Frame) : Prop where
  plen : f.plen ≠ 0
  mine : isMyIp myip f = true
  udp : f.buffer IP_PROTO_P = IP_PROTO_UDP_V
  dstport : f.dstport = SRCPORT
  new : t.lastblk ≠ f.blknum
  type : f.type = TFTP_DATA
  get : t.requestInProgress = .get

theorem Accepted.reachesData {myip : Bytes} {t : Tftp} {f : Frame} (h : Accepted myip f)
    (hnew : t.lastblk ≠ f.blknum) (htype : f.type = TFTP_DATA)
    (hget : t.requestInProgress = .get) : ReachesData myip t f :=
  ⟨h.plen, by simp [isMyIp, h.notArp], h.proto, h.dstport, hnew, htype, hget⟩

/-- A DATA packet that is new, while a GET is in progress. -/
theorem Frame.Carries.reachesData {f : Frame} {sport number : Nat} {body : Bytes}
    (h : f.Carries sport (packetBytes TFTP_DATA number body)) {t : Tftp}
    (hnew : t.lastblk ≠ number % 65536) (hget : t.requestInProgress = .get) (myip : Bytes) :
    ReachesData myip t f where
  plen := h.plen_ne_zero
  mine := h.isMyIp myip
  udp := h.proto
  dstport := h.dstport
  new := h.blknum_eq.symm ▸ hnew
  type := h.type_eq
  get := hget

/-- The number of bytes `tftp_get_block` copies when it copies: `tftp_data_available`, converted to
an unsigned 16-bit number. -/
def getBlockSize (t : Tftp) : Nat := (t.dataAvailable % 65536).toNat

/-- What may happen before `tftp_get_block` is called with this data waiting: other frames, and
calls of `tftp_get_block`. -/
def LaterStep (myip : Bytes) (t t' : Tftp) : Prop :=
  (∃ f, ¬ReachesData myip t f ∧ t' = (tftpRecvPacket myip t f).1) ∨
    ∃ mem at_, t' = (tftpGetBlock t mem at_ 0).2.2.1

/-- The data of the frame overruns nothing. -/
structure WithinBounds (myip : Bytes) (t : Tftp) (f : Frame) : Prop where
  /-- the copy to `tftpdata`, which has `TFTP_BLKSIZE + 4` bytes -/
  fits : f.datasize ≤ TFTP_BLKSIZE + 4
  /-- it lies inside the bytes received -/
  inside : f.datasize = 0 ∨ UDP_DATA_P + 4 + f.datasize ≤ f.plen
  /-- the copy to `iobuf + offset`, `offset` being 0 or 1 -/
  later : ∀ t', Reachable (LaterStep myip) (tftpRecvPacket myip t f).1 t' →
    getBlockSize t' ≤ TFTP_BLKSIZE

/-- What `packetReceive` returned overruns nothing: no frame, a frame whose data is not copied, or one
whose copies stay in their buffers. Runs that meet any frames at all are described up to an overrun:
this is their assumption. -/
def PacketWithinBounds (myip : Bytes) (t : Tftp) (packet : Option Frame) : Prop :=
  ∀ f, packet = some f → ReachesData myip t f → WithinBounds myip t f

/-! ## Copies -/

theorem getBlockSize_of_dataAvailable {t : Tftp} {n : Nat} (hn : n < 65536)
    (h : t.dataAvailable = int16 n) : getBlockSize t = n := by
  rw [getBlockSize, h, int16]
  split <;> omega

/-- A call of `tftp_get_block` copies nothing, or as many bytes. -/
theorem tftpGetBlock_copies (t : Tftp) (mem : Bytes) (at_ : Nat) :
    (tftpGetBlock t mem at_ 0).2.1 = mem ∨
      (tftpGetBlock t mem at_ 0).2.1 = blit mem at_ (t.tftpdata.take (getBlockSize t)) := by
  rcases tftpGetBlock_cases t mem at_ with hnone | ⟨-, -, hsome⟩
  · exact Or.inl (by rw [hnone])
  · rw [hsome]
    dsimp only
    split
    · exact Or.inr rfl
    · exact Or.inl rfl

section Receiving

variable {myip : Bytes} {t : Tftp} {f : Frame}

theorem noteData_dataAvailable (t : Tftp) (f : Frame) (n : Nat) :
    (noteData (tftpRecvData t f n) n).dataAvailable = int16 n := by
  have hstatus : (tftpRecvData t f n).1 ≠ 0 := by
    rw [tftpRecvData]
    dsimp only
    by_cases hfull : n = TFTP_BLKSIZE
    · subst hfull
      simp [TFTP_BLKSIZE, int16]
    · simp [hfull]
  rw [noteData, if_pos hstatus]
  split <;> rfl

/-- Only a frame that gets to `tftp_recv_data` changes what is waiting. -/
theorem tftpRecvPacket_dataAvailable (h : ReachesData myip t f) :
    (tftpRecvPacket myip t f).1.dataAvailable = int16 f.datasize := by
  have hoptack : ¬f.type = TFTP_OPTACK := by rw [h.type]; decide
  rw [tftpRecvPacket, if_neg h.plen, if_neg (by simp [h.mine]), if_pos ⟨h.udp, h.dstport⟩]
  dsimp only
  rw [if_neg h.new, if_neg fun ho => hoptack ho.1, if_pos ⟨h.type, h.get⟩]
  dsimp only
  rw [noteData_dataAvailable]

theorem tftpRecvPacket_dataAvailable_of_not (h : ¬ReachesData myip t f) :
    (tftpRecvPacket myip t f).1.dataAvailable = t.dataAvailable := by
  have hrecv := tftpRecvPacket_received myip t f
  generalize tftpRecvPacket myip t f = r at hrecv ⊢
  cases hrecv with
  | dropped => rfl
  | repeated => rfl
  | options => rfl
  | data hacc hnew htype hget => exact absurd (hacc.reachesData hnew htype hget) h
  | clear => rfl
  | failed => rfl
  | other => rfl

/-- Until the next frame with data the size to copy stays. -/
theorem getBlockSize_of_later {t' : Tftp} (h : Reachable (LaterStep myip) t t') :
    getBlockSize t' = getBlockSize t := by
  refine reachable_invariant (I := fun u => getBlockSize u = getBlockSize t) rfl ?_ h
  rintro u v hu (⟨f, hf, rfl⟩ | ⟨mem, at_, rfl⟩)
  · rw [getBlockSize, tftpRecvPacket_dataAvailable_of_not hf]
    exact hu
  · rw [getBlockSize, tftpGetBlock_dataAvailable]
    exact hu

/-- Data that overruns nothing is at most a block: it is copied to `iobuf` as well. -/
theorem WithinBounds.datasize_le (hb : WithinBounds myip t f) (h : ReachesData myip t f) :
    f.datasize ≤ TFTP_BLKSIZE := by
  have hlt : f.datasize < 65536 := Nat.mod_lt _ (by decide)
  have hcopy := hb.later _ .refl
  rwa [getBlockSize_of_dataAvailable hlt (tftpRecvPacket_dataAvailable h)] at hcopy

/-- A length field that counts the headers and at most a block, all of it received, is within bounds. -/
theorem withinBounds_of_lengths (h : ReachesData myip t f) (h12 : 12 ≤ f.udpLength)
    (h268 : f.udpLength ≤ 268) (hin : f.udpLength = 12 ∨ 34 + f.udpLength ≤ f.plen) :
    WithinBounds myip t f := by
  have hsize : f.datasize = (f.udpLength + 65536 - 12) % 65536 := rfl
  have hblk : TFTP_BLKSIZE = 256 := rfl
  have hpos : UDP_DATA_P = 42 := rfl
  have hnow : getBlockSize (tftpRecvPacket myip t f).1 = f.datasize :=
    getBlockSize_of_dataAvailable (by omega) (tftpRecvPacket_dataAvailable h)
  refine ⟨by omega, by omega, fun t' ht' => ?_⟩
  rw [getBlockSize_of_later ht', hnow]
  omega

/-- **Received data stays in its buffers** exactly when the length field counts the UDP header, the
TFTP header and at most 256 bytes, all of them received. -/
theorem withinBounds_iff (h : ReachesData myip t f) : WithinBounds myip t f ↔
    12 ≤ f.udpLength ∧ f.udpLength ≤ 268 ∧ (f.udpLength = 12 ∨ 34 + f.udpLength ≤ f.plen) := by
  have hlt : f.udpLength < 65536 := be16_lt _ _
  have hsize : f.datasize = (f.udpLength + 65536 - 12) % 65536 := rfl
  have hblk : TFTP_BLKSIZE = 256 := rfl
  have hpos : UDP_DATA_P = 42 := rfl
  constructor
  · intro hb
    have hcopy := hb.datasize_le h
    have hinside := hb.inside
    omega
  · rintro ⟨h12, h268, hin⟩
    exact withinBounds_of_lengths h h12 h268 hin

theorem packetWithinBounds_none (myip : Bytes) (t : Tftp) : PacketWithinBounds myip t none :=
  fun _ h => absurd h (by simp)

/-- Without a GET no data is copied. -/
theorem packetWithinBounds_of_not_get (h : t.requestInProgress ≠ .get) (packet : Option Frame) :
    PacketWithinBounds myip t packet :=
  fun _ _ hreach => absurd hreach.get h

/-- A datagram of the server's kind is within bounds: its length field is right. -/
theorem packetWithinBounds_of_carries {sport opcode number : Nat} {body : Bytes}
    (h : f.Carries sport (packetBytes opcode number body)) (hlen : body.length ≤ TFTP_BLKSIZE) :
    PacketWithinBounds myip t (some f) := by
  rintro _ ⟨⟩ hreach
  have hblk : TFTP_BLKSIZE = 256 := rfl
  have hplen := h.plen
  have hudp : f.udpLength = _ := h.udpLen
  rw [packetBytes_length] at hplen hudp
  exact withinBounds_of_lengths hreach (by omega) (by omega) (by omega)

end Receiving

/-- The client after the request for "A" has been sent. -/
def requested : Tftp := (tftpGetFile .init (ascii "A")).2.1

/-- A frame with a first block of `n` zeros. -/
def blockFrame (n : Nat) : Frame :=
  .ofPayload TFTP_PORT (packetBytes TFTP_DATA 1 (List.replicate n 0))

theorem carries_blockFrame {n : Nat} (hn : n < 60000) : (blockFrame n).Carries TFTP_PORT
    (packetBytes TFTP_DATA 1 (List.replicate n 0)) :=
  Frame.carries_ofPayload _ _ (by decide) (by rw [packetBytes_length, List.length_replicate]; omega)

theorem reachesData_blockFrame {n : Nat} (hn : n < 60000) :
    ReachesData [] requested (blockFrame n) :=
  (carries_blockFrame hn).reachesData (by decide) (by decide) []

theorem datasize_blockFrame {n : Nat} (hn : n < 60000) : (blockFrame n).datasize = n := by
  rw [(carries_blockFrame hn).datasize_eq, List.length_replicate]

/-- A block of three bytes is harmless. -/
theorem withinBounds_blockFrame : WithinBounds [] requested (blockFrame 3) :=
  (withinBounds_iff (reachesData_blockFrame (by decide))).mpr (by decide)

/-- A block of 300 bytes, in a frame of 346, is copied over the end of `tftpdata`. -/
theorem not_withinBounds_blockFrame :
    (blockFrame 300).plen ≤ 399 ∧ ReachesData [] requested (blockFrame 300) ∧
      ¬WithinBounds [] requested (blockFrame 300) := by
  refine ⟨?_, reachesData_blockFrame (by decide), fun h => ?_⟩
  · show 42 + (packetBytes TFTP_DATA 1 (List.replicate 300 0)).length ≤ 399
    rw [packetBytes_length, List.length_replicate]
    decide
  · have hfits := h.fits
    rw [datasize_blockFrame (by decide)] at hfits
    exact absurd hfits (by decide)

end C64Iec.Client

import C64Iec.Client.Tftp

set_option autoImplicit false

/-! # Frames that carry a TFTP datagram

`Frame.Carries f sport payload`: the frame `f` is an IPv4 frame with a UDP datagram for the
client's port, from port `sport` and with this payload. On such a frame `tftp_recv_packet` is
the function `recvDatagram` of the fields of the packet (`tftpRecvPacket_of_carries`), which is
what the results about a transfer are proved from. `Received` lists what it does with any frame.
-/

namespace C64Iec.Client

open Lib

structure Frame.Carries (f : Frame) (sport : Nat) (payload : Bytes) : Prop where
  plen : 42 + payload.length ≤ f.plen
  ethTypeH : f.buffer ETH_TYPE_H_P = 8
  ethTypeL : f.buffer ETH_TYPE_L_P = 0
  proto : f.buffer IP_PROTO_P = IP_PROTO_UDP_V
  srvport : f.srvport = sport
  dstport : f.dstport = SRCPORT
  udpLen : be16 (f.buffer UDP_LEN_H_P) (f.buffer UDP_LEN_L_P) = payload.length + 8
  data : f.bytes UDP_DATA_P payload.length = payload

theorem Frame.bytes_append (f : Frame) (off m n : Nat) :
    f.bytes off (m + n) = f.bytes off m ++ f.bytes (off + m) n := by
  simp only [Frame.bytes, List.range_add, List.map_append, List.map_map]
  congr 1
  refine List.map_congr_left fun i _ => ?_
  simp [Nat.add_assoc]

@[simp] theorem Frame.bytes_length (f : Frame) (off n : Nat) : (f.bytes off n).length = n := by
  simp [Frame.bytes]

/-- A frame with this payload, from port `sport` to the client's. -/
def Frame.ofPayload (sport : Nat) (payload : Bytes) : Frame where
  buffer i :=
    if i = ETH_TYPE_H_P then 8
    else if i = IP_PROTO_P then IP_PROTO_UDP_V
    else if i = UDP_SRC_PORT_H_P then UInt8.ofNat (sport / 256)
    else if i = UDP_SRC_PORT_L_P then UInt8.ofNat sport
    else if i = UDP_DST_PORT_H_P then UInt8.ofNat (SRCPORT / 256)
    else if i = UDP_DST_PORT_L_P then UInt8.ofNat SRCPORT
    else if i = UDP_LEN_H_P then UInt8.ofNat ((payload.length + 8) / 256)
    else if i = UDP_LEN_L_P then UInt8.ofNat (payload.length + 8)
    else if UDP_DATA_P ≤ i then payload.getD (i - UDP_DATA_P) 0
    else 0
  plen := 42 + payload.length

theorem Frame.carries_ofPayload (sport : Nat) (payload : Bytes) (hs : sport < 65536)
    (hlen : payload.length + 8 < 65536) : (Frame.ofPayload sport payload).Carries sport payload where
  plen := Nat.le_refl _
  ethTypeH := rfl
  ethTypeL := rfl
  proto := rfl
  srvport := (be16_ofNat sport).trans (Nat.mod_eq_of_lt hs)
  dstport := (be16_ofNat SRCPORT).trans (by decide)
  udpLen := (be16_ofNat (payload.length + 8)).trans (Nat.mod_eq_of_lt hlen)
  data := by
    refine List.ext_getElem (by simp [Frame.bytes]) fun i h1 h2 => ?_
    have hi : ∀ n, n < 42 → 42 + i ≠ n := by omega
    simp [Frame.bytes, Frame.ofPayload, UDP_DATA_P, ETH_TYPE_H_P, IP_PROTO_P, UDP_SRC_PORT_H_P,
      UDP_SRC_PORT_L_P, UDP_DST_PORT_H_P, UDP_DST_PORT_L_P, UDP_LEN_H_P, UDP_LEN_L_P, hi, h2]

/-- A frame that carries a datagram is no ARP packet. -/
theorem Frame.Carries.isMyIp {f : Frame} {sport : Nat} {payload : Bytes}
    (h : f.Carries sport payload) (myip : Bytes) : isMyIp myip f = true := by
  simp [Client.isMyIp, ethTypeIsArpAndMyIp, h.ethTypeL, ETHTYPE_ARP_L_V]

theorem Frame.Carries.plen_ne_zero {f : Frame} {sport : Nat} {payload : Bytes}
    (h : f.Carries sport payload) : f.plen ≠ 0 := by
  have := h.plen
  omega

section Fields

variable {f : Frame} {sport opcode number : Nat} {body : Bytes}

theorem Frame.Carries.split (h : f.Carries sport (packetBytes opcode number body)) :
    f.bytes UDP_DATA_P 2 = beBytes opcode ∧ f.bytes (UDP_DATA_P + 2) 2 = beBytes number ∧
      f.bytes (UDP_DATA_P + 4) body.length = body := by
  have hd := h.data
  rw [packetBytes_length, show body.length + 4 = 2 + 2 + body.length by omega,
    Frame.bytes_append, Frame.bytes_append, packetBytes] at hd
  obtain ⟨h12, h3⟩ := List.append_inj hd (by simp)
  obtain ⟨h1, h2⟩ := List.append_inj h12 (by simp)
  exact ⟨h1, h2, h3⟩

theorem be16_of_bytes {f : Frame} {off n : Nat} (h : f.bytes off 2 = beBytes n) :
    be16 (f.buffer off) (f.buffer (off + 1)) = n % 65536 := by
  simp only [Frame.bytes, beBytes, List.range_succ, List.range_zero, List.nil_append,
    List.map_cons, List.map_nil, List.cons_append, Nat.add_zero, List.cons.injEq, and_true] at h
  rw [h.1, h.2, be16_ofNat]

theorem Frame.Carries.type_eq (h : f.Carries sport (packetBytes opcode number body)) :
    f.type = opcode % 65536 := be16_of_bytes h.split.1

theorem Frame.Carries.blknum_eq (h : f.Carries sport (packetBytes opcode number body)) :
    f.blknum = number % 65536 := be16_of_bytes h.split.2.1

theorem Frame.Carries.datasize_eq (h : f.Carries sport (packetBytes opcode number body)) :
    f.datasize = body.length := by
  have hlt := be16_lt (f.buffer UDP_LEN_H_P) (f.buffer UDP_LEN_L_P)
  have hlen := h.udpLen
  rw [packetBytes_length] at hlen
  unfold Frame.datasize
  omega

theorem Frame.Carries.body_eq (h : f.Carries sport (packetBytes opcode number body)) :
    f.bytes (UDP_DATA_P + 4) body.length = body := h.split.2.2

end Fields

/-! ## The receiver on a datagram -/

/-- A received block of data in `tftpdata`, and what is noted about it. -/
def storeBlock (t : Tftp) (body : Bytes) : Tftp :=
  { t with
    tftpdata := blit t.tftpdata 0 body
    dataAvailable := int16 body.length
    endOfData := t.endOfData || decide (body.length ≠ TFTP_BLKSIZE) }

/-- `tftp_recv_packet` on a packet with this opcode, number and body, from port `sport`. -/
def recvDatagram (t : Tftp) (sport opcode number : Nat) (body : Bytes) : Tftp × List Datagram :=
  let t := { t with blknum := number, srvport := sport }
  if t.lastblk = number then (t, []) else
  let t := { t with lastblk := number }
  if opcode = TFTP_OPTACK ∧ t.requestInProgress ≠ .put then
    tftpSendAck t sport 0
  else if opcode = TFTP_DATA ∧ t.requestInProgress = .get then
    (storeBlock t body, [])
  else if (opcode = TFTP_ACK ∨ opcode = TFTP_OPTACK) ∧ t.requestInProgress = .put then
    let t := if opcode = TFTP_OPTACK then { t with blknum := 0 } else t
    ({ t with clearToSend := true }, [])
  else if opcode = TFTP_ERROR then
    ({ t with error := true, requestInProgress := .norq }, [])
  else (t, [])

theorem tftpRecvData_eq (t : Tftp) {f : Frame} {body : Bytes}
    (h : f.bytes (UDP_DATA_P + 4) body.length = body) :
    tftpRecvData t f body.length =
      (if body.length = TFTP_BLKSIZE then 256 else -1,
        { t with tftpdata := blit t.tftpdata 0 body }) := by
  refine Prod.ext ?_ ?_
  · by_cases hfull : body.length = TFTP_BLKSIZE
    · rw [tftpRecvData, hfull]; rfl
    · simp [tftpRecvData, hfull]
  · rw [tftpRecvData, h]
    cases body with
    | nil => rw [blit_zero]; rfl
    | cons c rest => rfl

theorem noteData_tftpRecvData (t : Tftp) {f : Frame} {body : Bytes}
    (h : f.bytes (UDP_DATA_P + 4) body.length = body) :
    noteData (tftpRecvData t f body.length) body.length = storeBlock t body := by
  rw [tftpRecvData_eq t h]
  by_cases hfull : body.length = TFTP_BLKSIZE <;> simp [noteData, storeBlock, hfull]

theorem tftpRecvPacket_of_carries (myip : Bytes) (t : Tftp) {f : Frame}
    {sport opcode number : Nat} {body : Bytes}
    (h : f.Carries sport (packetBytes opcode number body))
    (hop : opcode < 65536) (hnum : number < 65536) :
    tftpRecvPacket myip t f = recvDatagram t sport opcode number body := by
  have hplen := h.plen_ne_zero
  have hip := h.isMyIp myip
  have htype : f.type = opcode := by rw [h.type_eq, Nat.mod_eq_of_lt hop]
  have hblk : f.blknum = number := by rw [h.blknum_eq, Nat.mod_eq_of_lt hnum]
  rw [tftpRecvPacket, if_neg hplen, if_neg (by simp [hip]), if_pos ⟨h.proto, h.dstport⟩]
  simp only [htype, hblk, h.srvport, h.datasize_eq, recvDatagram, noteData_tftpRecvData _ h.body_eq]

/-! ## What a frame can do -/

/-- The frame gets past the tests of `tftp_recv_packet`. -/
structure Accepted (myip : Bytes) (f : Frame) : Prop where
  plen : f.plen ≠ 0
  notArp : ethTypeIsArpAndMyIp myip f = false
  proto : f.buffer IP_PROTO_P = IP_PROTO_UDP_V
  dstport : f.dstport = SRCPORT

/-- The state once the number and the port of a frame have been noted. -/
def Tftp.noted (t : Tftp) (f : Frame) : Tftp :=
  { t with blknum := f.blknum, srvport := f.srvport, lastblk := f.blknum }

/-- What `tftp_recv_packet` does with a frame: nothing, or what the packet asks for while the request
in progress is one it fits. -/
inductive Received (myip : Bytes) (t : Tftp) (f : Frame) : Tftp × List Datagram → Prop
  | dropped (hnot : ¬Accepted myip f) : Received myip t f (t, [])
  | repeated (hacc : Accepted myip f) (hrep : t.lastblk = f.blknum) :
      Received myip t f ({ t with blknum := f.blknum, srvport := f.srvport }, [])
  | options (hacc : Accepted myip f) : Received myip t f (tftpSendAck (t.noted f) f.srvport 0)
  | data (hacc : Accepted myip f) (hnew : t.lastblk ≠ f.blknum) (htype : f.type = TFTP_DATA)
      (hget : t.requestInProgress = .get) :
      Received myip t f (noteData (tftpRecvData (t.noted f) f f.datasize) f.datasize, [])
  | clear (hacc : Accepted myip f) (number : Nat) :
      Received myip t f ({ t.noted f with blknum := number, clearToSend := true }, [])
  | failed (hacc : Accepted myip f) :
      Received myip t f ({ t.noted f with error := true, requestInProgress := .norq }, [])
  | other (hacc : Accepted myip f) : Received myip t f (t.noted f, [])

theorem tftpRecvPacket_received (myip : Bytes) (t : Tftp) (f : Frame) :
    Received myip t f (tftpRecvPacket myip t f) := by
  unfold tftpRecvPacket
  split
  · rename_i hplen
    exact .dropped fun h => h.plen hplen
  · rename_i hplen
    split
    · rename_i hip
      exact .dropped fun h => by simp [isMyIp, h.notArp] at hip
    · rename_i hip
      split
      · rename_i hport
        have hacc : Accepted myip f := ⟨hplen, by simpa [isMyIp] using hip, hport.1, hport.2⟩
        dsimp only
        split
        · rename_i hrep
          exact .repeated hacc hrep
        · rename_i hnew
          split
          · exact .options hacc
          · split
            · rename_i hdata
              exact .data hacc hnew hdata.1 hdata.2
            · split
              · split
                · exact .clear hacc 0
                · exact .clear hacc f.blknum
              · split
                · exact .failed hacc
                · exact .other hacc
      · rename_i hport
        exact .dropped fun h => hport ⟨h.proto, h.dstport⟩

end C64Iec.Client

import C64Iec.Client.Outgoing
import C64Iec.Ether.Udp

set_option autoImplicit false

/-! # The sketch on the wire

The datagrams that the model of the client hands over and takes in are frames here. Each one the
sketch sends, in any run that overruns no buffer, becomes a frame that fits into `Ethernet::buffer` and
reaches the server with its ports and its payload (`frames_received`), and on a frame that passes every
check of a receiver for the client's port `tftp_recv_packet` is what the transfers are proved from
(`tftpRecvPacket_of_receiveUdp`).
-/

namespace C64Iec.Ether

open Lib
open Client (ETH_TYPE_H_P ETH_TYPE_L_P IP_PROTO_P UDP_LEN_H_P UDP_LEN_L_P UDP_DATA_P IP_PROTO_UDP_V
  Frame SRCPORT Input Datagram Proper Tftp PacketWithinBounds RunWithinBounds afterTurns datagrams
  recvDatagram tftpRecvPacket)

/-- `sizeof Ethernet::buffer` -/
def BUFFER_SIZE : Nat := 400

/-! ## From the sketch -/

/-- The datagram, sent by `ether.sendUdp` from a buffer with anything in it, arrives at the server,
and nothing is written outside the buffer. -/
structure Arrives (e : EtherCard) (d : Datagram) (b : Nat → Byte) : Prop where
  received : receiveUdp (sendUdp e b d.payload d.sport e.serverip d.dport).2
    = some ⟨udpDst e e.serverip, e.mymac.toList, e.myip.toList, e.serverip.toList, d.sport,
        d.dport, d.payload⟩
  fits : (sendUdp e b d.payload d.sport e.serverip d.dport).2.length ≤ BUFFER_SIZE
  inside : ∀ i, BUFFER_SIZE ≤ i → (sendUdp e b d.payload d.sport e.serverip d.dport).1 i = b i

theorem take_of_proper {d : Datagram} (h : Proper d) :
    d.payload.length ≤ 256 + 4 ∧ d.payload.take 560 = d.payload := by
  have hlen : d.payload.length ≤ 256 + 4 := h.packet.length_le
  exact ⟨hlen, List.take_of_length_le (by omega)⟩

theorem arrives_of_proper (e : EtherCard) {d : Datagram} (h : Proper d) (b : Nat → Byte) :
    Arrives e d b := by
  obtain ⟨hlen, htake⟩ := take_of_proper h
  have hsport : d.sport % 65536 = d.sport := by
    rw [h.sport]
    rfl
  refine ⟨?_, ?_, fun i hi => sendUdp_behind _ _ _ _ _ _ ?_⟩
  · have hframe := receiveUdp_sendUdp_frame e b d.payload d.sport e.serverip d.dport
    rw [htake, hsport, Nat.mod_eq_of_lt h.dport] at hframe
    exact hframe
  · rw [sendUdp_length, htake]
    unfold BUFFER_SIZE
    omega
  · unfold BUFFER_SIZE at hi
    rw [htake]
    omega

/-- **Everything the sketch sends arrives**, in every turn of every run from power-up in which no block
overruns its buffers. -/
theorem frames_received (e : EtherCard) {turns : List Input} {i : Input}
    (h : RunWithinBounds e.myip.toList (turns ++ [i])) :
    ∀ d ∈ datagrams ((afterTurns e.myip.toList turns).step e.myip.toList i).2, ∀ b, Arrives e d b :=
  fun _ hd b => arrives_of_proper e ((Client.turned_of_run h).2 _ hd) b

/-- A card with the address of the sketch, in the network of its server. -/
def sampleCard : EtherCard where
  mymac := #v[0x42, 0x42, 0x42, 0x01, 0x02, 0x03]
  myip := #v[10, 0, 0, 2]
  gwip := #v[10, 0, 0, 1]
  serverip := #v[10, 0, 0, 1]
  hisip := #v[0, 0, 0, 0]
  hisport := 80
  gwmacaddr := #v[0, 0, 0, 0, 0, 0]
  servermacaddr := #v[2, 0, 0, 0, 0, 1]
  servermacKnown := true
  waitgwmac := 0
  delaycnt := 1
  tcpClientState := .unused
  seqnum := 0xa
  infoDataLen := 0

/-- The acknowledgement of a first block. -/
theorem frames_received_sample :
    Arrives sampleCard (Client.ackDatagram Client.TFTP_PORT 1) fun _ => 0xff :=
  frames_received sampleCard (Client.runWithinBounds_oneByte _) _ (by decide) _

/-! ## To the sketch -/

/-- What `receiveUdp` has checked of a frame that it accepts. -/
structure Checked (b : Nat → Byte) (plen : Nat) (d : UdpDatagram) : Prop where
  plen : 42 + d.payload.length ≤ plen
  type : cells b 12 2 = [0x08, 0x00]
  proto : b 23 = 17
  udpLen : be16 (b 38) (b 39) = d.payload.length + 8
  sport : be16 (b 34) (b 35) = d.sport
  dport : be16 (b 36) (b 37) = d.dport
  payload : cells b 42 d.payload.length = d.payload

theorem checked_of_receiveUdp {b : Nat → Byte} {plen : Nat} {d : UdpDatagram}
    (h : receiveUdp (cells b 0 plen) = some d) : Checked b plen d := by
  unfold receiveUdp at h
  dsimp only at h
  split at h
  · rename_i hall
    obtain ⟨htype, -, -, -, -, -, hproto, hlen, htotal, hfits, -⟩ := hall
    rw [cells_length] at hfits
    have hplen : 42 ≤ plen := by omega
    have hlenEq : field16 (cells b 0 plen) 38 = be16 (b 38) (b 39) := field16_cells b (by omega)
    rw [field_cells b (by omega)] at htype
    rw [cells_getD b (by omega)] at hproto
    obtain rfl := Option.some.inj h
    have hpayload : field (cells b 0 plen) 42 (field16 (cells b 0 plen) 38 - 8)
        = cells b 42 (field16 (cells b 0 plen) 38 - 8) := field_cells b (by omega)
    have hsize : (field (cells b 0 plen) 42 (field16 (cells b 0 plen) 38 - 8)).length
        = field16 (cells b 0 plen) 38 - 8 := by rw [hpayload, cells_length]
    refine ⟨?_, htype, hproto, ?_, (field16_cells b (by omega)).symm,
      (field16_cells b (by omega)).symm, ?_⟩
    · show 42 + (field _ _ _).length ≤ plen
      rw [hsize]
      omega
    · show be16 (b 38) (b 39) = (field _ _ _).length + 8
      rw [hsize, ← hlenEq]
      omega
    · show cells b 42 (field _ _ _).length = field _ _ _
      rw [hsize, hpayload]
  · cases h

/-- A frame that a receiver accepts for the client's port carries its payload. -/
theorem carries_of_receiveUdp {f : Frame} {d : UdpDatagram}
    (h : receiveUdp (f.bytes 0 f.plen) = some d) (hport : d.dport = SRCPORT) :
    f.Carries d.sport d.payload := by
  have hchecked : Checked f.buffer f.plen d := checked_of_receiveUdp h
  have htype := hchecked.type
  rw [cells_succ, cells_succ] at htype
  obtain ⟨htypeH, htype⟩ := List.cons.inj htype
  obtain ⟨htypeL, -⟩ := List.cons.inj htype
  exact ⟨hchecked.plen, htypeH, htypeL, hchecked.proto, hchecked.sport, hchecked.dport.trans hport,
    hchecked.udpLen, hchecked.payload⟩

/-- **What `tftp_recv_packet` does with a frame that a receiver accepts for the client's port**, from
any host and in any state of the transfer: if the payload is a packet with at most a block in it,
nothing is overrun, and the packet is taken as it was sent. -/
theorem tftpRecvPacket_of_receiveUdp {f : Frame} {d : UdpDatagram}
    (h : receiveUdp (f.bytes 0 f.plen) = some d) (hport : d.dport = SRCPORT)
    (hlen : 4 ≤ d.payload.length) (hle : d.payload.length ≤ TFTP_BLKSIZE + 4) (myip : Bytes)
    (t : Tftp) :
    PacketWithinBounds myip t (some f) ∧
      ∃ opcode < 65536, ∃ number < 65536, ∃ body, d.payload = packetBytes opcode number body ∧
        tftpRecvPacket myip t f = recvDatagram t d.sport opcode number body := by
  obtain ⟨opcode, hop, number, hnum, body, hpayload⟩ := exists_packetBytes hlen
  have hcarries := carries_of_receiveUdp h hport
  rw [hpayload] at hcarries
  rw [hpayload, packetBytes_length] at hle
  exact ⟨Client.packetWithinBounds_of_carries hcarries (Nat.le_of_add_le_add_right hle), opcode, hop,
    number, hnum, body, hpayload, Client.tftpRecvPacket_of_carries myip t hcarries hop hnum⟩

/-- What a card sends to another client's port, there in the buffer. -/
def sampleFrame : Frame where
  buffer := (sendUdp sampleCard (fun _ => 0xff) (packetBytes TFTP_DATA 1 [65]) 69 #v[10, 0, 0, 3]
    SRCPORT).1
  plen := 42 + 5

theorem receiveUdp_sampleFrame : ∃ d, receiveUdp (sampleFrame.bytes 0 sampleFrame.plen) = some d ∧
    d.sport = 69 ∧ d.dport = SRCPORT ∧ d.payload = packetBytes TFTP_DATA 1 [65] :=
  ⟨_, receiveUdp_sendUdp_frame sampleCard (fun _ => 0xff) (packetBytes TFTP_DATA 1 [65]) 69
    #v[10, 0, 0, 3] SRCPORT, rfl, rfl, rfl⟩

theorem carries_sampleFrame : sampleFrame.Carries 69 (packetBytes TFTP_DATA 1 [65]) := by
  obtain ⟨d, hframe, hsport, hport, hpayload⟩ := receiveUdp_sampleFrame
  have hcarries := carries_of_receiveUdp hframe hport
  rwa [hsport, hpayload] at hcarries

/-- It is taken as the first block of a LOAD. -/
theorem tftpRecvPacket_sampleFrame : tftpRecvPacket [10, 0, 0, 3] Client.requested sampleFrame
    = recvDatagram Client.requested 69 TFTP_DATA 1 [65] := by
  obtain ⟨d, hframe, hsport, hport, hpayload⟩ := receiveUdp_sampleFrame
  obtain ⟨-, opcode, hop, number, hnum, body, hsplit, hrecv⟩ :=
    tftpRecvPacket_of_receiveUdp hframe hport (hpayload ▸ by decide) (hpayload ▸ by decide)
      [10, 0, 0, 3] Client.requested
  obtain ⟨hopcode, hnumber, hbody⟩ := packetBytes_inj (hpayload.symm.trans hsplit)
  rw [Nat.mod_eq_of_lt hop] at hopcode
  rw [Nat.mod_eq_of_lt hnum] at hnumber
  rw [hrecv, hsport, ← hopcode, ← hnumber, ← hbody]
  rfl

end C64Iec.Ether

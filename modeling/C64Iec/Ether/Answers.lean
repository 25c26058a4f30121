import C64Iec.Ether.PacketLoop
import C64Iec.Ether.Udp

set_option autoImplicit false

/-! # Answers go back

Whatever `packetLoop` is called with, the one frame it may send is an answer to the frame in the
buffer (`packetLoop_sends`): that one was for the card, the answer goes to the addresses it came
from, the header of IP and the TCP checksum verify, and an answer to ARP names the card.
-/

namespace C64Iec.Ether

open Lib
open Client (ETH_TYPE_H_P ETH_TYPE_L_P ETHTYPE_ARP_H_V ETHTYPE_ARP_L_V IP_PROTO_P ETH_ARP_DST_IP_P
  Frame ethTypeIsArpAndMyIp)

/-! ## Headers of answers -/

/-- The buffer `b'` holds an answer over IP to what `b` holds. -/
structure Replies (e : EtherCard) (b b' : Nat → Byte) : Prop where
  dst : cells b' 0 6 = cells b 6 6
  src : cells b' 6 6 = e.mymac.toList
  type : cells b' 12 2 = cells b 12 2
  srcIp : cells b' 26 4 = e.myip.toList
  dstIp : cells b' 30 4 = cells b 26 4
  header : Verifies 0 (cells b' 14 20)

theorem replies_makeEthIp (e : EtherCard) (b : Nat → Byte) : Replies e b (makeEthIp e b) := by
  have hmymac : e.mymac.toList.length = 6 := Vector.length_toList
  have hmyip : e.myip.toList.length = 4 := Vector.length_toList
  constructor
  case header => exact verifies_fillIpHdrChecksum
  all_goals
    unfold makeEthIp setMACs ETH_DST_MAC ETH_SRC_MAC IP_DST_P IP_SRC_P
    simp (disch := simp [IP_FLAGS_P, IP_SRC_P, hmymac, hmyip]) only [cells_fillIpHdrChecksum,
      cells_write_of_disjoint, cells_write_eq]

/-- What lies behind the header of IP is the answer's own. -/
theorem Replies.of_front {e : EtherCard} {b b' b'' : Nat → Byte} (h : Replies e b b')
    (hfront : ∀ o n, o + n ≤ 34 → cells b'' o n = cells b' o n) : Replies e b b'' where
  dst := (hfront 0 6 (by decide)).trans h.dst
  src := (hfront 6 6 (by decide)).trans h.src
  type := (hfront 12 2 (by decide)).trans h.type
  srcIp := (hfront 26 4 (by decide)).trans h.srcIp
  dstIp := (hfront 30 4 (by decide)).trans h.dstIp
  header := by
    rw [hfront 14 20 (by decide)]
    exact h.header

theorem Replies.write {e : EtherCard} {b b' : Nat → Byte} (h : Replies e b b') {off : Nat}
    (hoff : 34 ≤ off) (src : Bytes) : Replies e b (Lib.write b' off src) :=
  h.of_front fun _ _ hle => cells_write_of_disjoint (Or.inl (hle.trans hoff))

/-- The buffers agree on the addresses of Ethernet and of IP and on the type of the frame. -/
def KeepsAddresses (b₀ b : Nat → Byte) : Prop :=
  ∀ o n, o + n ≤ 14 ∨ 26 ≤ o ∧ o + n ≤ 34 → cells b₀ o n = cells b o n

theorem Replies.of_same {e : EtherCard} {b₀ b b' : Nat → Byte} (h : Replies e b₀ b')
    (hsame : KeepsAddresses b₀ b) : Replies e b b' :=
  ⟨h.dst.trans (hsame 6 6 (by decide)), h.src, h.type.trans (hsame 12 2 (by decide)), h.srcIp,
    h.dstIp.trans (hsame 26 4 (by decide)), h.header⟩

/-! ### TCP -/

theorem cells_stepSeq (cpSeq : Bool) (i relAckNum : Nat) (b : Nat → Byte) {o n : Nat}
    (h : o + n ≤ TCP_SEQ_H_P ∨ TCP_SEQACK_H_P + i ≤ o ∧ i ≤ 4) :
    cells (stepSeq cpSeq i relAckNum b) o n = cells b o n := by
  induction i generalizing relAckNum b with
  | zero => rfl
  | succ i ih =>
      unfold TCP_SEQ_H_P TCP_SEQACK_H_P at h ih
      rw [stepSeq]
      unfold TCP_SEQ_H_P TCP_SEQACK_H_P
      rw [ih _ _ (by omega), cells_write_of_disjoint (by simp only [List.length_singleton]; omega),
        cells_write_of_disjoint (by simp only [List.length_singleton]; omega)]

/-- `make_tcphead` writes to the header of TCP alone. -/
theorem cells_makeTcphead (b : Nat → Byte) (relAckNum : Nat) (cpSeq : Bool) {o n : Nat}
    (h : o + n ≤ 34) : cells (makeTcphead b relAckNum cpSeq) o n = cells b o n := by
  unfold makeTcphead TCP_HEADER_LEN_P TCP_CHECKSUM_H_P TCP_SRC_PORT_H_P TCP_DST_PORT_H_P
  dsimp only
  rw [cells_write_of_disjoint (Or.inl (by omega)), cells_write_of_disjoint (Or.inl (by omega)),
    cells_stepSeq _ _ _ _ (Or.inl (by unfold TCP_SEQ_H_P; omega)),
    cells_write_of_disjoint (Or.inl (by omega))]

theorem checksum_makeTcphead (b : Nat → Byte) (relAckNum : Nat) (cpSeq : Bool) :
    cells (makeTcphead b relAckNum cpSeq) TCP_CHECKSUM_H_P 2 = [0, 0] := by
  unfold makeTcphead
  dsimp only
  rw [cells_write_of_disjoint (Or.inr (by decide))]
  exact cells_write _ _ [0, 0]

/-- `make_eth_ip` writes nothing behind the header of IP. -/
theorem cells_makeEthIp (e : EtherCard) (b : Nat → Byte) {o n : Nat} (h : 34 ≤ o) :
    cells (makeEthIp e b) o n = cells b o n := by
  have hmymac : e.mymac.toList.length = 6 := Vector.length_toList
  have hmyip : e.myip.toList.length = 4 := Vector.length_toList
  unfold makeEthIp setMACs ETH_DST_MAC ETH_SRC_MAC IP_DST_P
  dsimp only
  rw [cells_fillIpHdrChecksum (Or.inr (by unfold IP_SRC_P; omega)),
    cells_write_of_disjoint (Or.inr (by rw [hmyip]; unfold IP_SRC_P; omega)),
    cells_write_of_disjoint (Or.inr (by rw [cells_length]; omega)),
    cells_write_of_disjoint (Or.inr (by rw [hmymac]; omega)),
    cells_write_of_disjoint (Or.inr (by rw [cells_length]; omega))]

/-- The checksum of a TCP header with `k` bytes behind its first twenty. -/
theorem verifies_tcp {b : Nat → Byte} (k : Nat) (hzero : cells b TCP_CHECKSUM_H_P 2 = [0, 0]) :
    Verifies (6 + (20 + k))
      (cells (fillChecksum b TCP_CHECKSUM_H_P IP_SRC_P (8 + TCP_HEADER_LEN_PLAIN + k) 2) IP_SRC_P
        (8 + TCP_HEADER_LEN_PLAIN + k)) := by
  have hverifies := @verifies_fillChecksum b 24 (2 + k) IP_SRC_P 2 (by decide) hzero
  have hlen : 24 + 2 + (2 + k) = 8 + TCP_HEADER_LEN_PLAIN + k := by
    unfold TCP_HEADER_LEN_PLAIN
    omega
  have hextra : IP_PROTO_TCP_V.toNat + (8 + TCP_HEADER_LEN_PLAIN + k) - 8 = 6 + (20 + k) := by
    show 6 + (8 + 20 + k) - 8 = _
    omega
  rw [hlen, if_neg (by decide), if_pos rfl, hextra] at hverifies
  exact hverifies

theorem keepsAddresses_length (b : Nat → Byte) (high low : Byte) :
    KeepsAddresses (write b IP_TOTLEN_H_P [high, low]) b := by
  intro o n h
  refine cells_write_of_disjoint ?_
  show o + n ≤ 16 ∨ 16 + 2 ≤ o
  omega

theorem replies_makeTcpAckFromAny (e : EtherCard) (b : Nat → Byte) (datlentoack : Nat)
    (addflags : Byte) : Replies e b (makeTcpAckFromAny e b datlentoack addflags) ∧
      Verifies (6 + 20) (cells (makeTcpAckFromAny e b datlentoack addflags) 26 28) := by
  unfold makeTcpAckFromAny
  dsimp only
  set relAckNum := if addflags ≠ TCP_FLAGS_RST_V ∧ datlentoack % 65536 = 0 then 1
    else datlentoack % 65536
  set flagged := write b TCP_FLAGS_P [TCP_FLAGS_ACK_V ||| addflags]
  have hflagged : KeepsAddresses flagged b := fun o n h =>
    cells_write_of_disjoint (Or.inl (by unfold TCP_FLAGS_P; omega))
  constructor
  · unfold fillChecksum
    refine Replies.write (Replies.write ?_ (by decide) _) (by decide) _
    refine (replies_makeEthIp e _).of_same fun o n h => ?_
    rw [keepsAddresses_length _ _ _ o n h, cells_makeTcphead _ _ _ (by omega), hflagged o n h]
  · refine verifies_tcp 0 ?_
    rw [cells_write_of_disjoint (Or.inr (by decide)), cells_makeEthIp _ _ (by decide),
      cells_write_of_disjoint (Or.inr (by decide)), checksum_makeTcphead]

theorem replies_makeTcpSynackFromSyn (e : EtherCard) (b : Nat → Byte) :
    Replies e b (makeTcpSynackFromSyn e b) ∧
      Verifies (6 + (20 + 4)) (cells (makeTcpSynackFromSyn e b) 26 32) := by
  unfold makeTcpSynackFromSyn
  dsimp only
  constructor
  · unfold fillChecksum
    refine Replies.write (Replies.write (Replies.write (Replies.write (Replies.write ?_
      (by decide) _) (by decide) _) (by decide) _) (by decide) _) (by decide) _
    have hreplies := (replies_makeEthIp e _).of_same (keepsAddresses_length b 0 44)
    have hflagged := hreplies.write (show 34 ≤ TCP_FLAGS_P by decide) [TCP_FLAGS_SYNACK_V]
    exact hflagged.of_front fun o n h => cells_makeTcphead _ _ _ h
  · refine verifies_tcp 4 ?_
    rw [cells_write_of_disjoint (Or.inr (by decide)), cells_write_of_disjoint (Or.inr (by decide)),
      cells_write_of_disjoint (Or.inl (by decide)),
      cells_write_of_disjoint (Or.inr (show 0x26 + 4 ≤ 0x32 by decide)), checksum_makeTcphead]

/-! ### ICMP and ARP -/

theorem replies_makeEchoReplyFromRequest (e : EtherCard) (b : Nat → Byte) :
    Replies e b (makeEchoReplyFromRequest e b) := by
  have htype := (replies_makeEthIp e b).write (show 34 ≤ ICMP_TYPE_P by decide)
    [ICMP_TYPE_ECHOREPLY_V]
  unfold makeEchoReplyFromRequest
  dsimp only
  refine Replies.write ?_ (by decide) _
  split
  · exact htype.write (by decide) _
  · exact htype

/-- The buffer `b'` holds an answer to the ARP request in `b`. -/
structure NamesCard (e : EtherCard) (b b' : Nat → Byte) : Prop where
  dst : cells b' 0 6 = cells b 6 6
  src : cells b' 6 6 = e.mymac.toList
  type : cells b' 12 2 = cells b 12 2
  kind : cells b' 14 6 = cells b 14 6
  opcode : cells b' 20 2 = [0, 2]
  srcMac : cells b' 22 6 = e.mymac.toList
  srcIp : cells b' 28 4 = e.myip.toList
  dstMac : cells b' 32 6 = cells b 22 6
  dstIp : cells b' 38 4 = cells b 28 4

theorem namesCard_makeArpAnswer (e : EtherCard) (b : Nat → Byte) :
    NamesCard e b (makeArpAnswerFromRequest e b) := by
  have hmymac : e.mymac.toList.length = 6 := Vector.length_toList
  have hmyip : e.myip.toList.length = 4 := Vector.length_toList
  unfold makeArpAnswerFromRequest setMACs ETH_DST_MAC ETH_SRC_MAC ETH_ARP_OPCODE_H_P
    ETH_ARP_DST_MAC_P ETH_ARP_SRC_MAC_P ETH_ARP_DST_IP_P ETH_ARP_SRC_IP_P
  constructor
  all_goals
    simp (disch := simp [hmymac, hmyip]) only [cells_write_of_disjoint, cells_write_eq]
  rfl

/-! ## The answer -/

/-- The frame asks for an echo. -/
def Frame.Pings (f : Frame) : Prop := f.buffer 23 = 1 ∧ f.buffer 34 = 8

/-- The frame is a packet of IP for the card, or asks for its address. -/
def ForCard (e : EtherCard) (f : Frame) : Prop :=
  f.bytes 12 2 = [0x08, 0x00] ∧ f.bytes 30 4 = e.myip.toList ∨
    f.bytes 12 2 = [0x08, 0x06] ∧ f.buffer 21 = 1 ∧ f.bytes 38 4 = e.myip.toList

/-- The frame `s` is an answer of the card to the frame `f`. -/
structure Answer (e : EtherCard) (f : Frame) (s : Bytes) : Prop where
  mine : ForCard e f
  dst : field s 0 6 = f.bytes 6 6
  src : field s 6 6 = e.mymac.toList
  type : field s 12 2 = f.bytes 12 2
  short : 42 ≤ s.length ∧ s.length ≤ max f.plen 58
  ip : f.bytes 12 2 = [0x08, 0x00] → field s 26 4 = e.myip.toList ∧ field s 30 4 = f.bytes 26 4 ∧
    Verifies 0 (field s 14 20)
  tcp : f.bytes 12 2 = [0x08, 0x00] → ¬Frame.Pings f →
    Verifies (6 + (s.length - 34)) (field s 26 (s.length - 26))
  arp : f.bytes 12 2 = [0x08, 0x06] → field s 14 6 = f.bytes 14 6 ∧ field s 20 2 = [0, 2] ∧
    field s 22 6 = e.mymac.toList ∧ field s 28 4 = e.myip.toList ∧ field s 32 6 = f.bytes 22 6 ∧
    field s 38 4 = f.bytes 28 4

/-- An answer over IP, of `n` bytes. -/
theorem Replies.answer {e : EtherCard} {f : Frame} {b' : Nat → Byte} {n : Nat}
    (h : Replies e f.buffer b') (htype : f.bytes 12 2 = [0x08, 0x00])
    (hip : f.bytes 30 4 = e.myip.toList) (h42 : 42 ≤ n) (hn : n ≤ max f.plen 58)
    (htcp : ¬Frame.Pings f → Verifies (6 + (n - 34)) (cells b' 26 (n - 26))) :
    Answer e f (packetSend b' n) := by
  have hfield : ∀ off k, off + k ≤ n → field (packetSend b' n) off k = cells b' off k :=
    fun off k hle => field_cells b' hle
  have hlen : (packetSend b' n).length = n := cells_length _ _ _
  refine ⟨.inl ⟨htype, hip⟩, ?_, ?_, ?_, ?_, fun _ => ⟨?_, ?_, ?_⟩, fun _ hping => ?_,
    fun harp => ?_⟩
  · rw [hfield _ _ (by omega)]
    exact h.dst
  · rw [hfield _ _ (by omega)]
    exact h.src
  · rw [hfield _ _ (by omega)]
    exact h.type
  · rw [hlen]
    exact ⟨h42, hn⟩
  · rw [hfield _ _ (by omega)]
    exact h.srcIp
  · rw [hfield _ _ (by omega)]
    exact h.dstIp
  · rw [hfield _ _ (by omega)]
    exact h.header
  · rw [hlen, hfield _ _ (by omega)]
    exact htcp hping
  · rw [htype] at harp
    exact absurd harp (by decide)

theorem NamesCard.answer {e : EtherCard} {f : Frame} {b' : Nat → Byte}
    (h : NamesCard e f.buffer b') (htype : f.bytes 12 2 = [0x08, 0x06]) (hasks : f.buffer 21 = 1)
    (hip : f.bytes 38 4 = e.myip.toList) : Answer e f (packetSend b' 42) := by
  have hfield : ∀ off k, off + k ≤ 42 → field (packetSend b' 42) off k = cells b' off k :=
    fun off k hle => field_cells b' hle
  have hlen : (packetSend b' 42).length = 42 := cells_length _ _ _
  refine ⟨.inr ⟨htype, hasks, hip⟩, ?_, ?_, ?_, ?_, fun hip => ?_, fun hip => ?_, fun _ => ?_⟩
  · rw [hfield _ _ (by decide)]
    exact h.dst
  · rw [hfield _ _ (by decide)]
    exact h.src
  · rw [hfield _ _ (by decide)]
    exact h.type
  · rw [hlen]
    omega
  · rw [htype] at hip
    exact absurd hip (by decide)
  · rw [htype] at hip
    exact absurd hip (by decide)
  · rw [hfield _ _ (by decide), hfield _ _ (by decide), hfield _ _ (by decide),
      hfield _ _ (by decide), hfield _ _ (by decide), hfield _ _ (by decide)]
    exact ⟨h.kind, h.opcode, h.srcMac, h.srcIp, h.dstMac, h.dstIp⟩

/-! ## The question -/

/-- The frame `s` asks who has the address `ip`. -/
structure AsksFor (e : EtherCard) (ip : Ip) (s : Bytes) : Prop where
  length : s.length = 42
  dst : field s 0 6 = allOnes
  src : field s 6 6 = e.mymac.toList
  type : field s 12 2 = [0x08, 0x06]
  kind : field s 14 8 = arpreqhdr
  srcMac : field s 22 6 = e.mymac.toList
  srcIp : field s 28 4 = e.myip.toList
  dstIp : field s 38 4 = ip.toList

theorem asksFor_clientArpWhohas (e : EtherCard) (b : Nat → Byte) (ip : Ip) :
    ∃ s, (clientArpWhohas e b ip).sent = [s] ∧ AsksFor e ip s := by
  have hmymac : e.mymac.toList.length = 6 := Vector.length_toList
  have hmyip : e.myip.toList.length = 4 := Vector.length_toList
  have hip : ip.toList.length = 4 := Vector.length_toList
  refine ⟨_, rfl, ?_⟩
  unfold packetSend setMACs ETH_TYPE_H_P ETH_DST_MAC ETH_SRC_MAC ETH_ARP_P ETH_ARP_DST_MAC_P
    ETH_ARP_SRC_MAC_P ETH_ARP_DST_IP_P ETH_ARP_SRC_IP_P
  constructor
  case length => exact cells_length _ _ _
  all_goals
    rw [field_cells _ (by decide)]
    simp (disch := simp [arpreqhdr, allOnes, hmymac, hmyip, hip]) only [cells_write_of_disjoint,
      cells_write_eq]
  rfl

/-! ## A call -/

theorem bytes_type {f : Frame} {h l : Byte} (hh : (f.buffer ETH_TYPE_H_P == h) = true)
    (hl : (f.buffer ETH_TYPE_L_P == l) = true) : f.bytes 12 2 = [h, l] := by
  have hhigh : f.buffer 12 = h := eq_of_beq hh
  have hlow : f.buffer 13 = l := eq_of_beq hl
  show [f.buffer 12, f.buffer 13] = [h, l]
  rw [hhigh, hlow]

theorem of_arpAndMyIp {e : EtherCard} {f : Frame}
    (h : ethTypeIsArpAndMyIp e.myip.toList f = true) :
    f.bytes 12 2 = [0x08, 0x06] ∧ cells f.buffer 38 4 = e.myip.toList := by
  simp only [ethTypeIsArpAndMyIp, Bool.and_eq_true] at h
  obtain ⟨⟨⟨-, hh⟩, hl⟩, hip⟩ := h
  exact ⟨bytes_type hh hl, eq_of_beq hip⟩

theorem of_ipAndMyIp {e : EtherCard} {f : Frame} (h : ethTypeIsIpAndMyIp e f = true) :
    f.bytes 12 2 = [0x08, 0x00] ∧ cells f.buffer 30 4 = e.myip.toList ∧ 42 ≤ f.plen := by
  simp only [ethTypeIsIpAndMyIp, Bool.and_eq_true, decide_eq_true_iff] at h
  obtain ⟨⟨⟨⟨hlen, hh⟩, hl⟩, -⟩, hip⟩ := h
  exact ⟨bytes_type hh hl, eq_of_beq hip, hlen⟩

/-- Learning an address changes neither of the card's own. -/
theorem clientStoreServerMac_own (e : EtherCard) (b : Nat → Byte) :
    (clientStoreServerMac e b).mymac = e.mymac ∧ (clientStoreServerMac e b).myip = e.myip := by
  unfold clientStoreServerMac
  split <;> exact ⟨rfl, rfl⟩

/-- What a call of `packetLoop` sends: nothing, one answer to the frame, or without a frame the
question for the gateway. -/
inductive LoopSends (e : EtherCard) (f : Frame) : List Bytes → Prop
  | nothing : LoopSends e f []
  | answer {s : Bytes} (hplen : f.plen ≠ 0) (hanswer : Answer e f s) : LoopSends e f [s]
  | question {s : Bytes} (hplen : f.plen = 0) (hasks : AsksFor e e.gwip s) : LoopSends e f [s]

theorem loopSends_idle (linkUp : Bool) (e : EtherCard) {f : Frame} (h : f.plen = 0) :
    LoopSends e f (idleLoop linkUp e f.buffer).sent := by
  unfold idleLoop
  dsimp only
  split
  · obtain ⟨s, hs, hasks⟩ := asksFor_clientArpWhohas e f.buffer e.gwip
    rw [hs]
    exact .question h hasks
  · exact .nothing

/-- A question for the card's address is answered. -/
theorem arpLoop_answers {e : EtherCard} {f : Frame}
    (hmine : ethTypeIsArpAndMyIp e.myip.toList f = true) (hasks : f.buffer 21 = 1) :
    ∃ s, (arpLoop e f.buffer).sent = [s] ∧ Answer e f s := by
  obtain ⟨hmac, hip⟩ := clientStoreServerMac_own e f.buffer
  have hnames := namesCard_makeArpAnswer (clientStoreServerMac e f.buffer) f.buffer
  obtain ⟨htype, htarget⟩ := of_arpAndMyIp hmine
  have hanswer := hnames.answer htype hasks (htarget.trans (congrArg _ hip.symm))
  refine ⟨_, ?_, ⟨.inr ⟨htype, hasks, htarget⟩, hanswer.dst, hmac ▸ hanswer.src, hanswer.type,
    hanswer.short, ?_, hanswer.tcp, ?_⟩⟩
  · unfold arpLoop
    dsimp only
    have hopcode : f.buffer ETH_ARP_OPCODE_L_P = ETH_ARP_OPCODE_REQ_L_V := hasks
    rw [if_pos hopcode, if_pos hopcode]
  · rw [← hip]
    exact hanswer.ip
  · rw [← hip, ← hmac]
    exact hanswer.arp

theorem loopSends_arp {e : EtherCard} {f : Frame} (h : f.plen ≠ 0)
    (hmine : ethTypeIsArpAndMyIp e.myip.toList f = true) :
    LoopSends e f (arpLoop e f.buffer).sent := by
  by_cases hasks : f.buffer 21 = 1
  · obtain ⟨s, hs, hanswer⟩ := arpLoop_answers hmine hasks
    rw [hs]
    exact .answer h hanswer
  · have hopcode : ¬f.buffer ETH_ARP_OPCODE_L_P = ETH_ARP_OPCODE_REQ_L_V := hasks
    unfold arpLoop
    dsimp only
    rw [if_neg hopcode]
    exact .nothing

theorem loopSends_tcp {e : EtherCard} {f : Frame} (h : f.plen ≠ 0)
    (hmine : ethTypeIsIpAndMyIp e f = true) :
    LoopSends e f (tcpClientLoop e f.buffer).sent ∧
      LoopSends e f (tcpServerLoop e f.buffer f.plen).sent := by
  obtain ⟨htype, htarget, -⟩ := of_ipAndMyIp hmine
  -- the two kinds of answer
  have hack : ∀ (e' : EtherCard) (n : Nat) (flags : Byte), e'.mymac = e.mymac → e'.myip = e.myip →
      LoopSends e f [packetSend (makeTcpAckFromAny e' f.buffer n flags) 54] := by
    intro e' n flags hmac hip
    obtain ⟨hreplies, htcp⟩ := replies_makeTcpAckFromAny e' f.buffer n flags
    have hanswer := hreplies.answer htype (htarget.trans (congrArg _ hip.symm)) (n := 54)
      (by decide) (by omega) fun _ => htcp
    refine .answer h ⟨.inl ⟨htype, htarget⟩, hanswer.dst, hmac ▸ hanswer.src, hanswer.type,
      hanswer.short, ?_, hanswer.tcp, ?_⟩
    · rw [← hip]
      exact hanswer.ip
    · rw [← hip, ← hmac]
      exact hanswer.arp
  have hsynack : LoopSends e f [packetSend (makeTcpSynackFromSyn e f.buffer) 58] := by
    obtain ⟨hreplies, htcp⟩ := replies_makeTcpSynackFromSyn e f.buffer
    exact .answer h (hreplies.answer htype htarget (n := 58) (by decide) (by omega) fun _ => htcp)
  constructor
  · unfold tcpClientLoop silent
    dsimp only
    split_ifs
    · exact .nothing
    · exact .nothing
    · exact .nothing
    · exact hack _ _ _ rfl rfl
    · exact hack _ _ _ rfl rfl
    · exact .nothing
  · unfold tcpServerLoop silent
    dsimp only
    split_ifs
    · exact .nothing
    · exact hsynack
    · exact .nothing
    · exact .nothing
    · exact hack _ _ _ rfl rfl
    · exact .nothing
    · exact .nothing

/-- **A call of `packetLoop`** sends one frame at most, and that one goes back to where the frame in
the buffer has come from. -/
theorem packetLoop_sends (linkUp : Bool) (e : EtherCard) (f : Frame) :
    LoopSends e f (packetLoop linkUp e f).sent := by
  unfold packetLoop
  dsimp only
  split
  · rename_i hplen
    exact loopSends_idle linkUp e hplen
  · rename_i hplen
    split
    · rename_i harp
      exact loopSends_arp hplen harp
    · split
      · exact .nothing
      · rename_i hmine
        simp only [Bool.not_eq_true', Bool.not_eq_false] at hmine
        obtain ⟨htype, htarget, h42⟩ := of_ipAndMyIp hmine
        split
        · rename_i hping
          have hreplies := replies_makeEchoReplyFromRequest e f.buffer
          exact .answer hplen
            (hreplies.answer htype htarget h42 (by omega) fun hnot => absurd hping hnot)
        · split
          · exact .nothing
          · split
            · exact (loopSends_tcp hplen hmine).1
            · exact (loopSends_tcp hplen hmine).2

end C64Iec.Ether

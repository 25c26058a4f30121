import C64Iec.Ether.Dhcp
import C64Iec.Ether.Wire

set_option autoImplicit false

/-! # Messages of DHCP

`readDhcp` is how a server reads a message: a header, the cookie, and options up to their end. What
`dhcp_send` sends reaches a server as a datagram from port 68 to port 67 that it can read, with the
fields and options the card means (`dhcpSend_received`). `Reply` is what a server sends back; with
the type first among its options, `check_for_dhcp_answer` finds it, and `parse_dhcpoffer` takes in
the addresses and each option (`reply_understood`).
-/

namespace C64Iec.Ether

open Lib
open Client (IP_PROTO_P UDP_SRC_PORT_L_P UDP_DATA_P IP_PROTO_UDP_V Frame)

/-! ## A server that reads -/

/-- The fields of a message, without the names of server and file. -/
structure DhcpMessage where
  op : Byte
  xid : Bytes
  flags : Bytes
  ciaddr : Bytes
  yiaddr : Bytes
  siaddr : Bytes
  chaddr : Bytes
  options : List (Byte × Bytes)
  deriving DecidableEq, Repr

/-- A message about an Ethernet address. -/
def readDhcp (s : Bytes) : Option DhcpMessage :=
  if 240 ≤ s.length ∧ field s 1 2 = [1, 6] ∧ field s 236 4 = cookie then
    (readOptions (s.drop 240)).map fun options =>
      ⟨s.getD 0 0, field s 4 4, field s 10 2, field s 12 4, field s 16 4, field s 20 4,
        field s 28 6, options⟩
  else none

/-! ## Options that are sent -/

/-- The options of a message of the card. -/
def requestOptions (d : Dhcp) (request : Byte) : List (Byte × Bytes) :=
  [(53, [request]), (61, 1 :: d.card.mymac.toList), (12, d.hostname)] ++
    (if request = DHCP_MSG_REQUEST then [(50, d.card.myip.toList), (54, d.dhcpip.toList)] else []) ++
    [(55, [1, 3, 6])]

theorem Fill.addBytes_addBytes (s : Fill) (x y : Bytes) :
    (s.addBytes x).addBytes y = s.addBytes (x ++ y) := by
  unfold Fill.addBytes
  rw [write_append, List.length_append, Nat.add_assoc]

/-- **The options are a list of options**, behind the cookie. -/
theorem addOptions_eq (d : Dhcp) (request : Byte) (s : Fill) :
    addOptions d request s = s.addBytes (cookie ++ (tlv (requestOptions d request) ++ [255])) := by
  have hmymac : d.card.mymac.toList.length = 6 := Vector.length_toList
  have hmyip : d.card.myip.toList.length = 4 := Vector.length_toList
  have hdhcpip : d.dhcpip.toList.length = 4 := Vector.length_toList
  have hseven : UInt8.ofNat (6 + 1) = 7 := rfl
  have hfour : UInt8.ofNat 4 = 4 := rfl
  have hthree : UInt8.ofNat (2 + 1) = 3 := rfl
  unfold addOptions requestOptions
  dsimp only
  split
  · simp only [Fill.addToBuf, Fill.addBytes_addBytes, tlv_cons, tlv_nil, List.cons_append,
      List.nil_append, List.append_assoc, List.length_cons, List.length_nil, hmymac, hmyip, hdhcpip,
      hseven, hfour]
    rfl
  · simp only [Fill.addToBuf, Fill.addBytes_addBytes, tlv_cons, tlv_nil, List.cons_append,
      List.nil_append, List.append_assoc, List.length_cons, List.length_nil, hmymac, hseven]
    rfl

/-! ## The header that is sent -/

/-- What `dhcp_send` leaves in the headers and in the fixed part of the message. -/
structure Headed (d : Dhcp) (flg : Bool) (b : Nat → Byte) : Prop where
  dst : cells b 0 6 = allOnes
  src : cells b 6 6 = d.card.mymac.toList
  type : cells b 12 2 = [0x08, 0x00]
  version : cells b 14 1 = [0x45]
  proto : cells b 23 1 = [17]
  srcIp : cells b 26 4 = d.card.myip.toList
  dstIp : cells b 30 4 = if flg then allOnes.take 4 else d.dhcpip.toList
  sport : cells b 34 2 = beBytes DHCP_DEST_PORT
  dport : cells b 36 2 = beBytes DHCP_SRC_PORT
  checksum : cells b 40 2 = [0, 0]
  kind : cells b 42 4 = [DHCP_BOOTREQUEST, 1, 6, 0]
  xid : cells b 46 4 = leBytes d.currentXid
  flags : cells b 50 4 = [0, 0, if flg then 0x80 else 0, 0]
  addresses : cells b 54 16 = List.replicate 16 0
  chaddr : cells b 70 6 = d.card.mymac.toList

theorem headed_dhcpHeader (d : Dhcp) (b : Nat → Byte) (flg : Bool) :
    Headed d flg (dhcpHeader d b flg) := by
  have hmymac : d.card.mymac.toList.length = 6 := Vector.length_toList
  have hdst : (if flg then allOnes.take 4 else d.dhcpip.toList).length = 4 := by
    split
    · rfl
    · exact Vector.length_toList
  have hxid : (leBytes d.currentXid).length = 4 := rfl
  have hprepared := prepared_udpPrepare d.card
    (write b 0 (List.replicate (UDP_DATA_P + DHCP_DATA_SIZE) 0)) DHCP_DEST_PORT d.card.myip
    DHCP_SRC_PORT
  -- the addresses of the message are not set, and were cleared
  have hzeros : cells (udpPrepare d.card
      (write b 0 (List.replicate (UDP_DATA_P + DHCP_DATA_SIZE) 0)) DHCP_DEST_PORT d.card.myip
      DHCP_SRC_PORT) 54 16 = List.replicate 16 0 := by
    rw [cells_congr fun i hi _ => udpPrepare_behind d.card _ _ _ _ (show 42 ≤ i by omega)]
    exact cells_write_replicate (by decide) (by decide)
  unfold dhcpHeader ETH_SRC_MAC ETH_DST_MAC IP_TOTLEN_L_P IP_PROTO_P IP_DST_P
  unfold UDP_DATA_P at *
  dsimp only
  generalize udpPrepare d.card _ _ _ _ = b' at *
  constructor
  case dstIp =>
    rw [cells_write_of_disjoint (Or.inl (by decide)), cells_write_of_disjoint (Or.inl (by decide)),
      cells_write_of_disjoint (Or.inl (by decide)), cells_write_of_disjoint (Or.inl (by decide)),
      cells_write_eq hdst]
  all_goals
    generalize (if flg then allOnes.take 4 else d.dhcpip.toList) = dst at *
    simp (disch := simp [allOnes, hmymac, hdst, hxid]) only [cells_write_of_disjoint,
      cells_write_eq]
  · exact hprepared.type
  · exact congrArg (fun x : Byte => [x]) hprepared.version
  · rfl
  · exact hprepared.srcIp
  · exact hprepared.sport
  · exact hprepared.dport
  · exact hprepared.checksum
  · exact hzeros

/-! ## What is sent -/

/-- The part of a buffer behind a part of it. -/
theorem field_cells_from (b : Nat → Byte) (off n : Nat) {o k : Nat} (h : o + k ≤ n) :
    field (cells b off n) o k = cells b (off + o) k := by
  obtain ⟨m, rfl⟩ := Nat.exists_eq_add_of_le h
  rw [field, Nat.add_assoc, drop_cells, take_cells _ _ (Nat.le_add_right _ _)]

theorem cells_part {b : Nat → Byte} {off n : Nat} {s : Bytes} (h : cells b off n = s) (o k : Nat)
    (hle : o + k ≤ n) : cells b (off + o) k = field s o k := by
  rw [← h, field_cells_from b off n hle]

theorem requestOptions_proper {d : Dhcp} (hname : d.hostname.length ≤ 15) (request : Byte) :
    ∀ o ∈ requestOptions d request, o.1 ≠ 0 ∧ o.1 ≠ 255 ∧ o.2.length < 256 := by
  have hmymac : d.card.mymac.toList.length = 6 := Vector.length_toList
  have hmyip : d.card.myip.toList.length = 4 := Vector.length_toList
  have hdhcpip : d.dhcpip.toList.length = 4 := Vector.length_toList
  unfold requestOptions
  split
  · simp [hmymac, hmyip, hdhcpip]
    omega
  · simp [hmymac]
    omega

theorem tlv_requestOptions_length {d : Dhcp} (hname : d.hostname.length ≤ 15) (request : Byte) :
    (tlv (requestOptions d request)).length ≤ 46 := by
  have hmymac : d.card.mymac.toList.length = 6 := Vector.length_toList
  have hmyip : d.card.myip.toList.length = 4 := Vector.length_toList
  have hdhcpip : d.dhcpip.toList.length = 4 := Vector.length_toList
  unfold requestOptions
  split
  · simp [tlv_cons]
    omega
  · simp [tlv_cons]
    omega

/-- The message in a buffer, as a server reads it. -/
theorem Headed.readDhcp {d : Dhcp} {flg : Bool} {b : Nat → Byte} (h : Headed d flg b)
    {options : List (Byte × Bytes)}
    (hoptions : ∀ o ∈ options, o.1 ≠ 0 ∧ o.1 ≠ 255 ∧ o.2.length < 256) {n : Nat}
    (hn : n = 240 + ((tlv options).length + 1))
    (hcookie : cells b 278 4 = cookie) (htlv : cells b 282 ((tlv options).length + 1)
      = tlv options ++ [255]) :
    Ether.readDhcp (cells b 42 n) = some ⟨1, leBytes d.currentXid, [if flg then 0x80 else 0, 0],
      [0, 0, 0, 0], [0, 0, 0, 0], [0, 0, 0, 0], d.card.mymac.toList, options⟩ := by
  have hop : b 42 = 1 := (List.cons.inj h.kind).1
  have hkind : cells b 43 2 = [1, 6] := cells_part h.kind 1 2 (by decide)
  have hflags : cells b 52 2 = [if flg then 0x80 else 0, 0] := cells_part h.flags 2 2 (by decide)
  have hci : cells b 54 4 = [0, 0, 0, 0] := cells_part h.addresses 0 4 (by decide)
  have hyi : cells b 58 4 = [0, 0, 0, 0] := cells_part h.addresses 4 4 (by decide)
  have hsi : cells b 62 4 = [0, 0, 0, 0] := cells_part h.addresses 8 4 (by decide)
  have hdrop : (cells b 42 n).drop 240 = tlv options ++ [255] := by
    rw [hn, drop_cells, htlv]
  unfold Ether.readDhcp
  rw [if_pos, hdrop, readOptions_tlv [] hoptions, Option.map_some]
  · rw [cells_getD b (by omega), hop, field_cells_from b _ _ (by omega),
      field_cells_from b _ _ (by omega), field_cells_from b _ _ (by omega),
      field_cells_from b _ _ (by omega), field_cells_from b _ _ (by omega),
      field_cells_from b _ _ (by omega), h.xid, hflags, hci, hyi, hsi, h.chaddr]
  · refine ⟨by rw [cells_length]; omega, ?_, ?_⟩
    · rw [field_cells_from b _ _ (by omega)]
      exact hkind
    · rw [field_cells_from b _ _ (by omega)]
      exact hcookie

/-- What is written behind the fixed part leaves it as it is. -/
theorem Headed.write {d : Dhcp} {flg : Bool} {b : Nat → Byte} (h : Headed d flg b) {off : Nat}
    (hoff : 76 ≤ off) (data : Bytes) : Headed d flg (Lib.write b off data) := by
  have hcells : ∀ {o n : Nat}, o + n ≤ 76 → cells (Lib.write b off data) o n = cells b o n :=
    fun hle => cells_write_of_disjoint (Or.inl (by omega))
  constructor
  all_goals rw [hcells (by decide)]
  · exact h.dst
  · exact h.src
  · exact h.type
  · exact h.version
  · exact h.proto
  · exact h.srcIp
  · exact h.dstIp
  · exact h.sport
  · exact h.dport
  · exact h.checksum
  · exact h.kind
  · exact h.xid
  · exact h.flags
  · exact h.addresses
  · exact h.chaddr

/-- A message that is in the buffer, once it is sent. -/
theorem Headed.received {d : Dhcp} {flg : Bool} {b : Nat → Byte} (h : Headed d flg b) {n : Nat}
    (hn : n + 28 < 65536) :
    receiveUdp (udpTransmit b n).2 = some ⟨allOnes, d.card.mymac.toList, d.card.myip.toList,
      if flg then allOnes.take 4 else d.dhcpip.toList, DHCP_DEST_PORT, DHCP_SRC_PORT,
      cells b 42 n⟩ := by
  rw [receiveUdp_udpTransmit hn h.type (List.cons.inj h.version).1 (List.cons.inj h.proto).1
    h.checksum, h.dst, h.src, h.srcIp, h.dstIp, be16_of_cells h.sport, be16_of_cells h.dport]
  rfl

/-- The one frame that `dhcp_send` sends. -/
theorem dhcpSend_frame {d : Dhcp} (hname : d.hostname.length ≤ 15) (b : Nat → Byte)
    (request : Byte) (flg : Bool) :
    ∃ frame payload, dhcpSend d true b request flg = [frame] ∧ frame.length ≤ BUFFER_SIZE ∧
      receiveUdp frame = some ⟨allOnes, d.card.mymac.toList, d.card.myip.toList,
        if flg then allOnes.take 4 else d.dhcpip.toList, DHCP_DEST_PORT, DHCP_SRC_PORT, payload⟩ ∧
      readDhcp payload = some ⟨1, leBytes d.currentXid, [if flg then 0x80 else 0, 0],
        [0, 0, 0, 0], [0, 0, 0, 0], [0, 0, 0, 0], d.card.mymac.toList, requestOptions d request⟩ := by
  have hsize := tlv_requestOptions_length hname request
  set options := requestOptions d request with hoptions
  set behind := cookie ++ (tlv options ++ [255]) with hbehind
  have hlen : behind.length = 4 + ((tlv options).length + 1) := by
    rw [hbehind, List.length_append, List.length_append]
    rfl
  have hsent : dhcpSend d true b request flg
      = [(udpTransmit (write (dhcpHeader d b flg) 278 behind) (236 + behind.length)).2] := by
    unfold dhcpSend
    rw [Bool.not_true, if_neg Bool.false_ne_true, addOptions_eq]
    have hptr : 278 + behind.length - 42 = 236 + behind.length := by omega
    rw [← hptr]
    rfl
  have hheaded := (headed_dhcpHeader d b flg).write (show 76 ≤ 278 by decide) behind
  have hwritten : cells (write (dhcpHeader d b flg) 278 behind) 278 behind.length = behind :=
    cells_write _ _ _
  refine ⟨_, _, hsent, ?_, hheaded.received (by omega), ?_⟩
  · rw [udpTransmit_snd, cells_length]
    unfold BUFFER_SIZE
    omega
  · refine hheaded.readDhcp (hoptions ▸ requestOptions_proper hname request) (by omega) ?_ ?_
    · exact cells_part hwritten 0 4 (by omega)
    · have htlv := cells_part hwritten 4 ((tlv options).length + 1) (by omega)
      have hdrop : behind.drop 4 = tlv options ++ [255] := rfl
      rw [htlv, field, hdrop, List.take_of_length_le (by rw [List.length_append]; rfl)]

/-- **What `dhcp_send` sends is understood**: whatever the buffer held, one frame goes out while the
link is up; it fits into the buffer, is received by every host on the wire as a datagram from port 68
to port 67, and is a message of DHCP with the card's fields and options. -/
theorem dhcpSend_received {d : Dhcp} (hname : d.hostname.length ≤ 15) (linkUp : Bool)
    (b : Nat → Byte) (request : Byte) (flg : Bool) :
    (dhcpSend d linkUp b request flg).length = (if linkUp then 1 else 0) ∧
      ∀ frame ∈ dhcpSend d linkUp b request flg, frame.length ≤ BUFFER_SIZE ∧ ∃ payload,
        receiveUdp frame = some ⟨allOnes, d.card.mymac.toList, d.card.myip.toList,
          if flg then allOnes.take 4 else d.dhcpip.toList, DHCP_DEST_PORT, DHCP_SRC_PORT,
          payload⟩ ∧
        readDhcp payload = some ⟨1, leBytes d.currentXid, [if flg then 0x80 else 0, 0],
          [0, 0, 0, 0], [0, 0, 0, 0], [0, 0, 0, 0], d.card.mymac.toList,
          requestOptions d request⟩ := by
  cases linkUp with
  | false => exact ⟨rfl, nofun⟩
  | true =>
      obtain ⟨frame, payload, hsent, hfits, hreceived, hread⟩ := dhcpSend_frame hname b request flg
      rw [hsent]
      refine ⟨rfl, fun s hs => ?_⟩
      obtain rfl := List.mem_singleton.mp hs
      exact ⟨hfits, payload, hreceived, hread⟩

/-- A card that has been offered an address. -/
def sampleDhcp : Dhcp where
  card := sampleCard
  mymask := allZeros
  dnsip := allZeros
  dhcpip := sampleCard.gwip
  dhcpState := .request
  hostname := ascii "Arduino-AD"
  currentXid := 0x10002
  leaseStart := 0
  leaseTime := 0

theorem dhcpSend_received_sample :
    ∃ frame, dhcpSend sampleDhcp true (fun _ => 0xff) DHCP_MSG_REQUEST false = [frame] ∧
      frame.length ≤ 400 := by
  obtain ⟨hlen, hall⟩ :=
    dhcpSend_received (d := sampleDhcp) (by decide) true (fun _ => 0xff) DHCP_MSG_REQUEST false
  obtain ⟨frame, hsent⟩ := List.length_eq_one_iff.mp hlen
  exact ⟨frame, hsent, (hall frame (hsent ▸ List.mem_singleton_self frame)).1⟩

/-! ## What a server sends back -/

/-- The frame is a datagram with a server's message: an answer to `xid` with two addresses and these
options, behind the end of which there is nothing but zeros. -/
structure Reply (f : Frame) (xid : Bytes) (yiaddr siaddr : Ip) (options : List (Byte × Bytes)) :
    Prop where
  datagram : ∃ d k, receiveUdp (f.bytes 0 f.plen) = some d ∧ f.plen = 42 + d.payload.length ∧
    d.sport = DHCP_SRC_PORT ∧ d.dport = DHCP_DEST_PORT ∧ field d.payload 0 1 = [2] ∧
    field d.payload 4 4 = xid ∧ field d.payload 16 4 = yiaddr.toList ∧
    field d.payload 20 4 = siaddr.toList ∧
    d.payload.drop 240 = tlv options ++ 255 :: List.replicate k 0
  values : ∀ o ∈ options, o.2.length < 256

/-- The total length of a frame that is received. -/
theorem total_of_receiveUdp {b : Nat → Byte} {plen : Nat} {d : UdpDatagram}
    (h : receiveUdp (cells b 0 plen) = some d) : be16 (b 16) (b 17) = 28 + d.payload.length := by
  have hchecked := checked_of_receiveUdp h
  have hplen := hchecked.plen
  have hlen : field16 (cells b 0 plen) 38 = d.payload.length + 8 :=
    (field16_cells b (by omega)).trans hchecked.udpLen
  have htotal : field16 (cells b 0 plen) 16 = be16 (b 16) (b 17) := field16_cells b (by omega)
  unfold receiveUdp at h
  dsimp only at h
  split at h
  · rename_i hall
    obtain ⟨-, -, -, -, -, -, -, -, hsum, -, -⟩ := hall
    omega
  · cases h

/-- The same in the buffer of the card. -/
structure Replied (b : Nat → Byte) (plen : Nat) (xid : Bytes) (yiaddr siaddr : Ip)
    (options : List (Byte × Bytes)) (k : Nat) : Prop where
  plen : plen = 282 + ((tlv options).length + (1 + k))
  proto : b 23 = 17
  type : cells b 12 2 = [0x08, 0x00]
  sport : be16 (b 34) (b 35) = 67
  dport : be16 (b 36) (b 37) = 68
  total : be16 (b 16) (b 17) = 28 + (240 + ((tlv options).length + (1 + k)))
  op : b 42 = 2
  xid : cells b 46 4 = xid
  yiaddr : cells b 58 4 = yiaddr.toList
  siaddr : cells b 62 4 = siaddr.toList
  opts : cells b 282 (tlv options).length = tlv options
  behind : cells b (282 + (tlv options).length) (1 + k) = 255 :: List.replicate k 0

theorem Reply.replied {f : Frame} {xid : Bytes} {yiaddr siaddr : Ip}
    {options : List (Byte × Bytes)} (h : Reply f xid yiaddr siaddr options) :
    ∃ k, Replied f.buffer f.plen xid yiaddr siaddr options k := by
  obtain ⟨d, k, hd, hplen, hsport, hdport, hop, hxid, hyi, hsi, hoptions⟩ := h.datagram
  have hchecked : Checked f.buffer f.plen d := checked_of_receiveUdp hd
  have htotal := total_of_receiveUdp hd
  have hdrop := congrArg List.length hoptions
  rw [List.length_drop, List.length_append, List.length_cons, List.length_replicate] at hdrop
  have hsize : d.payload.length = 240 + ((tlv options).length + (1 + k)) := by omega
  have hpart : ∀ o n, o + n ≤ d.payload.length →
      cells f.buffer (42 + o) n = field d.payload o n :=
    fun o n hle => cells_part hchecked.payload o n hle
  have hbehind : cells f.buffer 282 ((tlv options).length + (1 + k))
      = tlv options ++ 255 :: List.replicate k 0 := by
    have hcells := hpart 240 ((tlv options).length + (1 + k)) (by omega)
    rw [field, hoptions, List.take_of_length_le] at hcells
    · exact hcells
    · rw [List.length_append, List.length_cons, List.length_replicate]
      omega
  rw [cells_add] at hbehind
  obtain ⟨htlv, hpad⟩ := List.append_inj hbehind (cells_length _ _ _)
  refine ⟨k, by omega, hchecked.proto, hchecked.type, hchecked.sport.trans hsport,
    hchecked.dport.trans hdport, by rw [htotal, hsize], ?_, ?_, ?_, ?_, htlv, hpad⟩
  · exact (List.cons.inj ((hpart 0 1 (by omega)).trans hop)).1
  · exact (hpart 4 4 (by omega)).trans hxid
  · exact (hpart 16 4 (by omega)).trans hyi
  · exact (hpart 20 4 (by omega)).trans hsi

/-! ## A server that sends -/

/-- A server's message, with `pad` zeros behind the end of its options. -/
def bootReply (xid : Bytes) (yiaddr siaddr : Ip) (chaddr : Mac) (options : List (Byte × Bytes))
    (pad : Nat) : Bytes :=
  [2, 1, 6, 0] ++ xid ++ List.replicate 8 0 ++ yiaddr.toList ++ siaddr.toList ++
    List.replicate 4 0 ++ chaddr.toList ++ List.replicate 202 0 ++ cookie ++
    (tlv options ++ 255 :: List.replicate pad 0)

/-- A server that sends as the card does. -/
def replyFrame (server : EtherCard) (message : Bytes) : Frame where
  buffer := (sendUdp server (fun _ => 0) message DHCP_SRC_PORT #v[255, 255, 255, 255]
    DHCP_DEST_PORT).1
  plen := 42 + message.length

theorem field_of_prefix {s before x : Bytes} {o k : Nat} (h : before ++ x <+: s)
    (ho : before.length = o) (hk : x.length = k) : field s o k = x := by
  obtain ⟨behind, rfl⟩ := h
  rw [field, List.append_assoc, ← ho, List.drop_left, ← hk, List.take_left]

theorem reply_replyFrame (server : EtherCard) {xid : Bytes} (hxid : xid.length = 4)
    (yiaddr siaddr : Ip) (chaddr : Mac) {options : List (Byte × Bytes)}
    (hvalues : ∀ o ∈ options, o.2.length < 256) {pad : Nat}
    (hfits : (tlv options).length + pad ≤ 300) :
    Reply (replyFrame server (bootReply xid yiaddr siaddr chaddr options pad)) xid yiaddr siaddr
      options := by
  have hyi : yiaddr.toList.length = 4 := Vector.length_toList
  have hsi : siaddr.toList.length = 4 := Vector.length_toList
  have hch : chaddr.toList.length = 6 := Vector.length_toList
  have hcookie : cookie.length = 4 := rfl
  have hlen : (bootReply xid yiaddr siaddr chaddr options pad).length
      = 240 + ((tlv options).length + (1 + pad)) := by
    simp only [bootReply, List.length_append, List.length_cons, List.length_nil,
      List.length_replicate, hxid, hyi, hsi, hch, hcookie]
    omega
  generalize hmessage : bootReply xid yiaddr siaddr chaddr options pad = message at hlen ⊢
  have htake : message.take 560 = message := List.take_of_length_le (by omega)
  have hreceived := receiveUdp_sendUdp_frame server (fun _ => 0) message DHCP_SRC_PORT
    #v[255, 255, 255, 255] DHCP_DEST_PORT
  have hsent : (sendUdp server (fun _ => 0) message DHCP_SRC_PORT #v[255, 255, 255, 255]
      DHCP_DEST_PORT).2 = cells (sendUdp server (fun _ => 0) message DHCP_SRC_PORT
        #v[255, 255, 255, 255] DHCP_DEST_PORT).1 0 (42 + (message.take 560).length) := rfl
  rw [hsent, htake] at hreceived
  subst hmessage
  refine ⟨⟨_, pad, hreceived, rfl, rfl, rfl, ?_, ?_, ?_, ?_, ?_⟩, hvalues⟩
  · rfl
  · have hprefix : [2, 1, 6, 0] ++ xid <+: bootReply xid yiaddr siaddr chaddr options pad := by
      simp only [bootReply, List.append_assoc, List.prefix_append_right_inj]
      exact List.prefix_append _ _
    exact field_of_prefix hprefix rfl hxid
  · have hprefix : [2, 1, 6, 0] ++ xid ++ List.replicate 8 0 ++ yiaddr.toList
        <+: bootReply xid yiaddr siaddr chaddr options pad := by
      simp only [bootReply, List.append_assoc, List.prefix_append_right_inj]
      exact List.prefix_append _ _
    exact field_of_prefix hprefix (by simp [hxid]) hyi
  · have hprefix : [2, 1, 6, 0] ++ xid ++ List.replicate 8 0 ++ yiaddr.toList ++ siaddr.toList
        <+: bootReply xid yiaddr siaddr chaddr options pad := by
      simp only [bootReply, List.append_assoc, List.prefix_append_right_inj]
      exact List.prefix_append _ _
    exact field_of_prefix hprefix (by simp [hxid]) hsi
  · unfold bootReply
    refine List.drop_left' ?_
    simp only [List.length_append, List.length_cons, List.length_nil, List.length_replicate, hxid,
      hyi, hsi, hch, hcookie]

/-! ## What the card makes of it -/

/-- **The type is found** when it comes first. -/
theorem Replied.answerType {b : Nat → Byte} {plen : Nat} {xid : UInt32} {yiaddr siaddr : Ip}
    {type : Byte} {options : List (Byte × Bytes)} {k : Nat}
    (h : Replied b plen (leBytes xid) yiaddr siaddr ((53, [type]) :: options) k) :
    Ether.answerType xid b plen = some type := by
  have hplen := h.plen
  have htotal := h.total
  have hlt := be16_lt (b 16) (b 17)
  have hsport := h.sport
  have hlow : (b UDP_SRC_PORT_L_P).toNat = DHCP_SRC_PORT := by
    have hbyte := (b 35).toNat_lt
    unfold be16 at hsport
    show (b 35).toNat = 67
    omega
  obtain ⟨hcode, -, hvalue, -⟩ := cells_tlv_cons (show [type].length < 256 by simp) h.opts
  have hoffset : (be16 (b IP_TOTLEN_H_P) (b IP_TOTLEN_L_P) + 65536
        - (20 + 8 + DHCP_DATA_SIZE)) % 65536
      = (tlv ((53, [type]) :: options)).length + (1 + k) := by
    show (be16 (b 16) (b 17) + 65536 - 268) % 65536 = _
    omega
  have hop : b UDP_DATA_P = DHCP_BOOTRESPONSE := h.op
  have hxid : cells b (UDP_DATA_P + 4) 4 = leBytes xid := h.xid
  have hfirst : b (UDP_DATA_P + DHCP_DATA_SIZE) = 53 := hcode
  have htype : b (UDP_DATA_P + DHCP_DATA_SIZE + 2) = type := (List.cons.inj hvalue).1
  unfold Ether.answerType
  rw [if_pos ⟨by omega, hlow, hop, hxid⟩]
  dsimp only
  rw [hoffset, messageType, if_pos ⟨by rw [hfirst]; decide, by omega⟩, if_pos hfirst, htype]

/-- The first four bytes of a value. -/
def ipOf (value : Bytes) : Ip := Vector.ofFn fun i => value.getD i 0

/-- What the card learns from an option. -/
def learn (d : Dhcp) (o : Byte × Bytes) : Dhcp :=
  if o.1 = 1 then { d with mymask := ipOf o.2 }
  else if o.1 = 3 then { d with card := { d.card with gwip := ipOf o.2 } }
  else if o.1 = 6 then { d with dnsip := ipOf o.2 }
  else if o.1 = 51 then
    { d with leaseTime := UInt32.ofNat (((o.2.getD 0 0).toNat * 16777216 +
        (o.2.getD 1 0).toNat * 65536 + (o.2.getD 2 0).toNat * 256 + (o.2.getD 3 0).toNat) * 1000) }
  else if o.1 = 54 then { d with dhcpip := ipOf o.2 }
  else d

/-- The options of which the card reads four bytes. -/
def readCodes : List Byte := [1, 3, 6, 51, 54]

theorem ipAt_eq {b : Nat → Byte} {q : Nat} {value : Bytes} (h : cells b q value.length = value)
    (hlen : 4 ≤ value.length) : ipAt b q = ipOf value := by
  unfold ipAt ipOf
  refine Vector.ext fun i hi => ?_
  rw [Vector.getElem_ofFn, Vector.getElem_ofFn, ← h, cells_getD b (by omega)]

theorem learnOption_eq {b : Nat → Byte} {o : Byte × Bytes}
    (hlong : o.1 ∈ readCodes → 4 ≤ o.2.length) (d : Dhcp) (q : Nat)
    (h : cells b q o.2.length = o.2) : learnOption b d o.1 q = learn d o := by
  have hip : o.1 ∈ readCodes → ipAt b q = ipOf o.2 := fun ho => ipAt_eq h (hlong ho)
  have hbyte : ∀ i < o.2.length, b (q + i) = o.2.getD i 0 := by
    intro i hi
    rw [← cells_getD b hi 0, h]
  unfold learnOption learn
  split_ifs with h1 h3 h6 h51 h54
  · rw [hip (h1 ▸ by decide)]
  · rw [hip (h3 ▸ by decide)]
  · rw [hip (h6 ▸ by decide)]
  · have hfour : 4 ≤ o.2.length := hlong (h51 ▸ by decide)
    have hzero : b q = o.2.getD 0 0 := hbyte 0 (by omega)
    rw [hzero, hbyte 1 (by omega), hbyte 2 (by omega), hbyte 3 (by omega)]
  · rw [hip (h54 ▸ by decide)]
  · rfl

theorem ipAt_toList {b : Nat → Byte} {off : Nat} {ip : Ip} (h : cells b off 4 = ip.toList) :
    ipAt b off = ip := by
  refine Vector.toList_inj.mp (Eq.trans ?_ h)
  simp [ipAt, cells, Vector.toList_ofFn]
  rfl

/-- **The offer is taken in**: both addresses, and the options one after another. -/
theorem Replied.parseDhcpoffer {b : Nat → Byte} {plen : Nat} {xid : Bytes} {yiaddr siaddr : Ip}
    {options : List (Byte × Bytes)} {k : Nat} (h : Replied b plen xid yiaddr siaddr options k)
    (hvalues : ∀ o ∈ options, o.2.length < 256)
    (hlong : ∀ o ∈ options, o.1 ∈ readCodes → 4 ≤ o.2.length) (d : Dhcp) :
    Ether.parseDhcpoffer d b plen = options.foldl learn
      { d with card := { d.card with myip := yiaddr, serverip := siaddr } } := by
  have hplen := h.plen
  have hyi : ipAt b (UDP_DATA_P + 16) = yiaddr := ipAt_toList h.yiaddr
  have hsi : ipAt b (UDP_DATA_P + 20) = siaddr := ipAt_toList h.siaddr
  have hsee : ∀ o ∈ options, ∀ (s : Dhcp) (q : Nat), cells b q o.2.length = o.2 →
      learnOption b s o.1 q = learn s o :=
    fun o ho s q hq => learnOption_eq (hlong o ho) s q hq
  -- the end and the zeros behind it are options that are ignored
  have hcell : ∀ q, 282 + (tlv options).length ≤ q → q < plen → b q = 255 ∨ b q = 0 := by
    intro q hq hlt
    obtain ⟨j, rfl⟩ := Nat.exists_eq_add_of_le hq
    rw [← cells_getD b (show j < 1 + k by omega) 0, h.behind]
    cases j with
    | zero => exact .inl rfl
    | succ j =>
        refine .inr ?_
        rw [List.getD_cons_succ, List.getD_eq_getElem?_getD, List.getElem?_replicate]
        split <;> rfl
  have hignored : ∀ q, 282 + (tlv options).length ≤ q → q < plen → ∀ s : Dhcp,
      learnOption b s (b q) (q + 2) = s := by
    intro q hq hlt s
    rcases hcell q hq hlt with h255 | h0
    · rw [h255]
      rfl
    · rw [h0]
      rfl
  unfold Ether.parseDhcpoffer
  dsimp only
  rw [hyi, hsi]
  exact (walk_tlv hvalues hsee h.opts (by omega) _).trans (walk_ignored (by omega) hignored _)

theorem leBytes_inj {x y : UInt32} (h : leBytes x = leBytes y) : x = y := by
  have hx := x.toNat_lt
  have hy := y.toNat_lt
  unfold leBytes at h
  simp only [List.cons.injEq, ← UInt8.toNat_inj, UInt8.toNat_ofNat', and_true] at h
  rw [← UInt32.toNat_inj]
  omega

section Reply

variable {f : Frame} {xid : UInt32} {yiaddr siaddr : Ip} {type : Byte}
  {options : List (Byte × Bytes)}

theorem Reply.answerType (h : Reply f (leBytes xid) yiaddr siaddr ((53, [type]) :: options))
    (xid' : UInt32) :
    Ether.answerType xid' f.buffer f.plen = if xid' = xid then some type else none := by
  obtain ⟨k, hreplied⟩ := h.replied
  split
  · rename_i hxid
    rw [hxid]
    exact hreplied.answerType
  · rename_i hxid
    unfold Ether.answerType
    rw [if_neg]
    rintro ⟨-, -, -, hother⟩
    exact hxid (leBytes_inj (hother.symm.trans hreplied.xid))

theorem Reply.parseDhcpoffer (h : Reply f (leBytes xid) yiaddr siaddr ((53, [type]) :: options))
    (hlong : ∀ o ∈ options, o.1 ∈ readCodes → 4 ≤ o.2.length) (d : Dhcp) :
    Ether.parseDhcpoffer d f.buffer f.plen = options.foldl learn
      { d with card := { d.card with myip := yiaddr, serverip := siaddr } } := by
  obtain ⟨k, hreplied⟩ := h.replied
  have hall : ∀ o ∈ (53, [type]) :: options, o.1 ∈ readCodes → 4 ≤ o.2.length := by
    intro o ho
    rcases List.mem_cons.mp ho with rfl | ho
    · intro hread
      exact absurd hread (show (53 : Byte) ∉ readCodes by decide)
    · exact hlong o ho
  exact hreplied.parseDhcpoffer h.values hall d

/-- **What a server sends back is understood**: with the type first, the card finds it if the message
is an answer to its own and finds none if it is not, and an offer gives it both addresses and its
options, one after another. -/
theorem reply_understood (h : Reply f (leBytes xid) yiaddr siaddr ((53, [type]) :: options))
    (hlong : ∀ o ∈ options, o.1 ∈ readCodes → 4 ≤ o.2.length) :
    (∀ xid', answerType xid' f.buffer f.plen = if xid' = xid then some type else none) ∧
      ∀ d : Dhcp, parseDhcpoffer d f.buffer f.plen = options.foldl learn
        { d with card := { d.card with myip := yiaddr, serverip := siaddr } } :=
  ⟨h.answerType, h.parseDhcpoffer hlong⟩

end Reply

/-- What a server tells besides the address. -/
def sampleOptions : List (Byte × Bytes) :=
  [(1, [255, 255, 255, 0]), (3, [10, 0, 0, 1]), (54, [10, 0, 0, 1])]

/-- The address that is offered. -/
def sampleOffered : Ip := #v[10, 0, 0, 9]

/-- A server's message to the card whose discovery was number `0x10002`. -/
def sampleReply (type : Byte) : Frame :=
  replyFrame sampleCard (bootReply (leBytes 0x10002) sampleOffered sampleCard.gwip
    sampleCard.mymac ((53, [type]) :: sampleOptions) 20)

theorem reply_sampleReply (type : Byte) : Reply (sampleReply type) (leBytes 0x10002)
    sampleOffered sampleCard.gwip ((53, [type]) :: sampleOptions) := by
  refine reply_replyFrame sampleCard rfl _ _ _ ?_ ?_
  · intro o ho
    rcases List.mem_cons.mp ho with rfl | ho
    · show (1 : Nat) < 256
      decide
    · exact (show ∀ o ∈ sampleOptions, o.2.length < 256 by decide) o ho
  · show 3 + (tlv sampleOptions).length + 20 ≤ 300
    decide

theorem reply_understood_sample :
    answerType 0x10002 (sampleReply DHCP_MSG_OFFER).buffer (sampleReply DHCP_MSG_OFFER).plen
      = some DHCP_MSG_OFFER :=
  ((reply_understood (reply_sampleReply DHCP_MSG_OFFER) (by decide)).1 0x10002).trans (if_pos rfl)

end C64Iec.Ether

import C64Iec.Ether.Headers

set_option autoImplicit false

/-! # UDP datagrams on the wire

`sendUdp` builds a frame over whatever the buffer holds. `receiveUdp` is a host's receiver that
checks all there is to check: both checksums, both lengths, the version, the fragment. It accepts
every frame of `sendUdp`, with the fields that `sendUdp` was called with (`receiveUdp_sendUdp`).
-/

namespace C64Iec.Ether

open Lib
open Client (ETH_TYPE_H_P ETH_TYPE_L_P IP_PROTO_P ETH_ARP_DST_IP_P UDP_SRC_PORT_H_P
  UDP_SRC_PORT_L_P UDP_DST_PORT_H_P UDP_DST_PORT_L_P UDP_LEN_H_P UDP_LEN_L_P UDP_DATA_P
  IP_PROTO_UDP_V Frame SRCPORT)

/-! ## Sending -/

def udpPrepare (e : EtherCard) (b : Nat → Byte) (sport : Nat) (dip : Ip) (dport : Nat) :
    Nat → Byte :=
  let b := setMACandIPs e b e.servermacaddr.toList dip.toList
  -- multicast
  let b := if dip[0] &&& 0xF0 = 0xE0 then write b ETH_DST_MAC allOnes else b
  let b := write b ETH_TYPE_H_P [ETHTYPE_IP_H_V, ETHTYPE_IP_L_V]
  let b := write b IP_P iphdr
  let b := write b IP_TOTLEN_H_P [0]
  let b := write b IP_PROTO_P [IP_PROTO_UDP_V]
  let b := write b UDP_DST_PORT_H_P (beBytes dport)
  let b := write b UDP_SRC_PORT_H_P (beBytes sport)
  let b := write b UDP_LEN_H_P [0]
  write b UDP_CHECKSUM_H_P [0, 0]

/-- `udpTransmit`: the buffer, and the frame that goes out. -/
def udpTransmit (b : Nat → Byte) (datalen : Nat) : (Nat → Byte) × Bytes :=
  let b := write b IP_TOTLEN_H_P (beBytes (IP_HEADER_LEN + UDP_HEADER_LEN + datalen))
  let b := fillIpHdrChecksum b
  let b := write b UDP_LEN_H_P (beBytes (UDP_HEADER_LEN + datalen))
  let b := fillChecksum b UDP_CHECKSUM_H_P IP_SRC_P (16 + datalen) 1
  (b, packetSend b (UDP_HEADER_LEN + IP_HEADER_LEN + ETH_HEADER_LEN + datalen))

def sendUdp (e : EtherCard) (b : Nat → Byte) (data : Bytes) (sport : Nat) (dip : Ip)
    (dport : Nat) : (Nat → Byte) × Bytes :=
  let b := udpPrepare e b sport dip dport
  let data := data.take 560
  let b := write b UDP_DATA_P data
  udpTransmit b data.length

/-- Where a datagram for `dip` goes: to the Ethernet address that is known of the server, or to all
when `dip` is the address of a group. -/
def udpDst (e : EtherCard) (dip : Ip) : Bytes :=
  if dip[0] &&& 0xF0 = 0xE0 then allOnes else e.servermacaddr.toList

/-! ## A host that receives -/

/-- What a host's receiver makes of a frame. -/
structure UdpDatagram where
  dst : Bytes
  src : Bytes
  srcIp : Bytes
  dstIp : Bytes
  sport : Nat
  dport : Nat
  payload : Bytes
  deriving DecidableEq, Repr

/-- The `n` bytes of a frame from position `off` on. -/
def field (s : Bytes) (off n : Nat) : Bytes := (s.drop off).take n

/-- A 16-bit field. -/
def field16 (s : Bytes) (off : Nat) : Nat := be16 (s.getD off 0) (s.getD (off + 1) 0)

/-- A UDP datagram over IPv4 without options, not fragmented. A checksum of zero means that there is
none. -/
def receiveUdp (s : Bytes) : Option UdpDatagram :=
  let total := field16 s 16
  let len := field16 s 38
  if field s 12 2 = [0x08, 0x00] ∧ s.getD 14 0 = 0x45 ∧ Verifies 0 (field s 14 20) ∧
      s.getD 20 0 &&& 0x3f = 0 ∧ s.getD 21 0 = 0 ∧ s.getD 22 0 ≠ 0 ∧ s.getD 23 0 = 17 ∧
      8 ≤ len ∧ total = 20 + len ∧ 14 + total ≤ s.length ∧
      (field s 40 2 = [0, 0] ∨ Verifies (17 + len) (field s 26 (8 + len))) then
    some ⟨field s 0 6, field s 6 6, field s 26 4, field s 30 4, field16 s 34, field16 s 36,
      field s 42 (len - 8)⟩
  else none

/-! ## The frame -/

theorem field_cells (b : Nat → Byte) {off n size : Nat} (h : off + n ≤ size) :
    field (cells b 0 size) off n = cells b off n := by
  obtain ⟨k, rfl⟩ := Nat.exists_eq_add_of_le h
  rw [field, Nat.add_assoc, drop_cells, Nat.zero_add, take_cells _ _ (Nat.le_add_right _ _)]

theorem field16_cells (b : Nat → Byte) {off size : Nat} (h : off + 2 ≤ size) :
    field16 (cells b 0 size) off = be16 (b off) (b (off + 1)) := by
  rw [field16, cells_getD _ (by omega), cells_getD _ (by omega), Nat.zero_add, Nat.zero_add]

theorem be16_of_cells {b : Nat → Byte} {off n : Nat} (h : cells b off 2 = beBytes n) :
    be16 (b off) (b (off + 1)) = n % 65536 := by
  rw [cells_succ, cells_succ, cells_zero] at h
  obtain ⟨hh, hl⟩ := List.cons.inj h
  obtain ⟨hl, -⟩ := List.cons.inj hl
  rw [hh, hl, be16_ofNat]

/-- What `udpTransmit` does to the buffer besides the lengths and the checksums: nothing. -/
theorem cells_udpTransmit (b : Nat → Byte) (datalen : Nat) {o n : Nat}
    (h : o + n ≤ IP_TOTLEN_H_P ∨ IP_SRC_P ≤ o ∧ o + n ≤ UDP_LEN_H_P ∨ UDP_DATA_P ≤ o) :
    cells (udpTransmit b datalen).1 o n = cells b o n := by
  unfold IP_TOTLEN_H_P IP_SRC_P UDP_LEN_H_P UDP_DATA_P at h
  unfold udpTransmit UDP_CHECKSUM_H_P UDP_LEN_H_P IP_TOTLEN_H_P
  dsimp only
  rw [cells_fillChecksum (by omega), cells_write_of_disjoint (by rw [beBytes_length]; omega),
    cells_fillIpHdrChecksum (by unfold IP_FLAGS_P IP_SRC_P; omega),
    cells_write_of_disjoint (by rw [beBytes_length]; omega)]

/-- The buffer of `udpTransmit` before the checksum of UDP is filled in. -/
def beforeChecksum (b : Nat → Byte) (n : Nat) : Nat → Byte :=
  write (fillIpHdrChecksum (write b IP_TOTLEN_H_P (beBytes (28 + n)))) UDP_LEN_H_P (beBytes (8 + n))

theorem udpTransmit_fst (b : Nat → Byte) (n : Nat) :
    (udpTransmit b n).1
      = fillChecksum (beforeChecksum b n) UDP_CHECKSUM_H_P IP_SRC_P (16 + n) 1 := rfl

theorem udpTransmit_snd (b : Nat → Byte) (n : Nat) :
    (udpTransmit b n).2 = cells (udpTransmit b n).1 0 (42 + n) := rfl

/-- The header of IP is as `fill_ip_hdr_checksum` has left it. -/
theorem udpTransmit_header (b : Nat → Byte) (n : Nat) {i : Nat} (hi : i < 38) :
    (udpTransmit b n).1 i = fillIpHdrChecksum (write b IP_TOTLEN_H_P (beBytes (28 + n))) i := by
  rw [udpTransmit_fst]
  exact (write_before (by unfold UDP_CHECKSUM_H_P; omega)).trans
    (write_before (by unfold UDP_LEN_H_P; omega))

/-- The two lengths. -/
theorem udpTransmit_lengths (b : Nat → Byte) {n : Nat} (hn : n + 28 < 65536) :
    be16 ((udpTransmit b n).1 16) ((udpTransmit b n).1 17) = 28 + n ∧
      be16 ((udpTransmit b n).1 38) ((udpTransmit b n).1 39) = 8 + n := by
  have htotal : cells (udpTransmit b n).1 16 2 = beBytes (28 + n) := by
    rw [cells_congr fun i _ hi => udpTransmit_header b n (show i < 38 by omega),
      cells_fillIpHdrChecksum (Or.inl (by decide))]
    exact cells_write b 16 (beBytes (28 + n))
  have hlen : cells (udpTransmit b n).1 38 2 = beBytes (8 + n) := by
    rw [udpTransmit_fst, cells_fillChecksum (Or.inl (by decide))]
    exact cells_write _ 38 (beBytes (8 + n))
  rw [be16_of_cells htotal, be16_of_cells hlen]
  exact ⟨Nat.mod_eq_of_lt (by omega), Nat.mod_eq_of_lt (by omega)⟩

/-- The two checksums. -/
theorem udpTransmit_verifies {b : Nat → Byte} (n : Nat) (hck : cells b 40 2 = [0, 0]) :
    Verifies 0 (cells (udpTransmit b n).1 14 20) ∧
      Verifies (17 + (8 + n)) (cells (udpTransmit b n).1 26 (8 + (8 + n))) := by
  have hzero : cells (beforeChecksum b n) (26 + 14) 2 = [0, 0] := by
    unfold beforeChecksum
    rw [cells_write_of_disjoint (Or.inr (show 38 + 2 ≤ 26 + 14 by decide)),
      cells_fillIpHdrChecksum (Or.inr (by decide)),
      cells_write_of_disjoint (Or.inr (show 16 + 2 ≤ 26 + 14 by decide))]
    exact hck
  have hudp := verifies_fillChecksum (m := 14) n 1 (by decide) hzero
  have hextra : IP_PROTO_UDP_V.toNat + (14 + 2 + n) - 8 = 17 + (8 + n) := by
    show 17 + (14 + 2 + n) - 8 = _
    omega
  have hlen : 14 + 2 + n = 8 + (8 + n) := by omega
  have hlen' : 16 + n = 8 + (8 + n) := by omega
  constructor
  · rw [cells_congr fun i _ hi => udpTransmit_header b n (show i < 38 by omega)]
    exact verifies_fillIpHdrChecksum
  · rw [if_pos rfl, hextra, hlen] at hudp
    rw [udpTransmit_fst, hlen']
    exact hudp

/-- **A frame that `udpTransmit` sends is received**, with what the buffer holds in its fields. -/
theorem receiveUdp_udpTransmit {b : Nat → Byte} {n : Nat} (hn : n + 28 < 65536)
    (htype : cells b 12 2 = [0x08, 0x00]) (hver : b 14 = 0x45) (hproto : b 23 = 17)
    (hck : cells b 40 2 = [0, 0]) :
    receiveUdp (udpTransmit b n).2 = some ⟨cells b 0 6, cells b 6 6, cells b 26 4, cells b 30 4,
      be16 (b 34) (b 35), be16 (b 36) (b 37), cells b 42 n⟩ := by
  obtain ⟨htotal, hlen⟩ := udpTransmit_lengths b hn
  obtain ⟨hip, hudp⟩ := udpTransmit_verifies n hck
  have hheader : ∀ i < 38, (udpTransmit b n).1 i
      = fillIpHdrChecksum (write b IP_TOTLEN_H_P (beBytes (28 + n))) i :=
    fun i hi => udpTransmit_header b n hi
  have h14 : (udpTransmit b n).1 14 = 0x45 := (hheader 14 (by decide)).trans hver
  have h20 : (udpTransmit b n).1 20 = 0x40 := hheader 20 (by decide)
  have h21 : (udpTransmit b n).1 21 = 0 := hheader 21 (by decide)
  have h22 : (udpTransmit b n).1 22 = 64 := hheader 22 (by decide)
  have h23 : (udpTransmit b n).1 23 = 17 := (hheader 23 (by decide)).trans hproto
  have hkeeps : ∀ {o k : Nat}, (o + k ≤ 16 ∨ 26 ≤ o ∧ o + k ≤ 38 ∨ 42 ≤ o) →
      cells (udpTransmit b n).1 o k = cells b o k := fun h => cells_udpTransmit b n h
  have hport : ∀ i, 26 ≤ i → i < 38 → (udpTransmit b n).1 i = b i := fun i hi hlt =>
    (List.cons.inj (hkeeps (o := i) (k := 1) (Or.inr (Or.inl ⟨hi, hlt⟩)))).1
  rw [udpTransmit_snd]
  generalize (udpTransmit b n).1 = b' at *
  -- every field lies within the frame
  unfold receiveUdp
  simp only [field16_cells b' (show 16 + 2 ≤ 42 + n by omega),
    field16_cells b' (show 38 + 2 ≤ 42 + n by omega),
    field16_cells b' (show 34 + 2 ≤ 42 + n by omega),
    field16_cells b' (show 36 + 2 ≤ 42 + n by omega), htotal, hlen,
    field_cells b' (show 12 + 2 ≤ 42 + n by omega), field_cells b' (show 14 + 20 ≤ 42 + n by omega),
    field_cells b' (show 40 + 2 ≤ 42 + n by omega), field_cells b' (show 0 + 6 ≤ 42 + n by omega),
    field_cells b' (show 6 + 6 ≤ 42 + n by omega), field_cells b' (show 26 + 4 ≤ 42 + n by omega),
    field_cells b' (show 30 + 4 ≤ 42 + n by omega),
    field_cells b' (show 26 + (8 + (8 + n)) ≤ 42 + n by omega),
    field_cells b' (show 42 + (8 + n - 8) ≤ 42 + n by omega), cells_length,
    cells_getD b' (show 14 < 42 + n by omega), cells_getD b' (show 20 < 42 + n by omega),
    cells_getD b' (show 21 < 42 + n by omega), cells_getD b' (show 22 < 42 + n by omega),
    cells_getD b' (show 23 < 42 + n by omega), Nat.zero_add, h14, h20, h21, h22, h23]
  rw [if_pos, hkeeps (by decide), hkeeps (by decide), hkeeps (by decide), hkeeps (by decide),
    hport 34 (by decide) (by decide), hport (34 + 1) (by decide) (by decide),
    hport 36 (by decide) (by decide), hport (36 + 1) (by decide) (by decide),
    show 8 + n - 8 = n by omega, hkeeps (Or.inr (Or.inr (Nat.le_refl _)))]
  refine ⟨?_, trivial, hip, by decide, trivial, by decide, trivial, by omega, by omega, by omega,
    Or.inr hudp⟩
  rw [hkeeps (by decide), htype]

/-! ## What is sent is received -/

/-- What `udpPrepare` leaves in the header. -/
structure Prepared (e : EtherCard) (sport : Nat) (dip : Ip) (dport : Nat) (b : Nat → Byte) :
    Prop where
  dst : cells b 0 6 = if dip[0] &&& 0xF0 = 0xE0 then allOnes else e.servermacaddr.toList
  src : cells b 6 6 = e.mymac.toList
  type : cells b 12 2 = [0x08, 0x00]
  version : b 14 = 0x45
  proto : b 23 = 17
  srcIp : cells b 26 4 = e.myip.toList
  dstIp : cells b 30 4 = dip.toList
  sport : cells b 34 2 = beBytes sport
  dport : cells b 36 2 = beBytes dport
  checksum : cells b 40 2 = [0, 0]

theorem cells_write_eq {b : Nat → Byte} {off n : Nat} {src : Bytes} (h : src.length = n) :
    cells (write b off src) off n = src := by
  rw [← h, cells_write]

/-- A write to the data leaves the header as it is. -/
theorem Prepared.write {e : EtherCard} {sport : Nat} {dip : Ip} {dport : Nat} {b : Nat → Byte}
    (h : Prepared e sport dip dport b) {off : Nat} (hoff : 42 ≤ off) (data : Bytes) :
    Prepared e sport dip dport (Lib.write b off data) := by
  have hcells : ∀ {o n : Nat}, o + n ≤ 42 → cells (Lib.write b off data) o n = cells b o n :=
    fun hle => cells_write_of_disjoint (Or.inl (by omega))
  exact ⟨(hcells (by decide)).trans h.dst, (hcells (by decide)).trans h.src,
    (hcells (by decide)).trans h.type, (write_before (by omega)).trans h.version,
    (write_before (by omega)).trans h.proto, (hcells (by decide)).trans h.srcIp,
    (hcells (by decide)).trans h.dstIp, (hcells (by decide)).trans h.sport,
    (hcells (by decide)).trans h.dport, (hcells (by decide)).trans h.checksum⟩

theorem prepared_udpPrepare (e : EtherCard) (b : Nat → Byte) (sport : Nat) (dip : Ip)
    (dport : Nat) :
    Prepared e sport dip dport (udpPrepare e b sport dip dport) := by
  have hmac : e.servermacaddr.toList.length = 6 := Vector.length_toList
  have hmymac : e.mymac.toList.length = 6 := Vector.length_toList
  have hmyip : e.myip.toList.length = 4 := Vector.length_toList
  have hdip : dip.toList.length = 4 := Vector.length_toList
  unfold udpPrepare setMACandIPs setMACs UDP_CHECKSUM_H_P UDP_LEN_H_P UDP_SRC_PORT_H_P
    UDP_DST_PORT_H_P IP_PROTO_P IP_TOTLEN_H_P IP_P ETH_TYPE_H_P ETH_DST_MAC ETH_SRC_MAC IP_SRC_P
    IP_DST_P
  constructor
  case version => rfl
  case proto => rfl
  case checksum => exact cells_write _ 40 [0, 0]
  all_goals
    split <;> simp (disch := simp [iphdr, allOnes, hmac, hmymac, hmyip, hdip]) only
      [cells_write_of_disjoint, cells_write_eq]
  all_goals rfl

/-- What `udpTransmit` sends of a prepared buffer. -/
theorem Prepared.receiveUdp {e : EtherCard} {sport : Nat} {dip : Ip} {dport : Nat} {b : Nat → Byte}
    (h : Prepared e sport dip dport b) {n : Nat} (hn : n + 28 < 65536) :
    receiveUdp (udpTransmit b n).2 = some
      ⟨if dip[0] &&& 0xF0 = 0xE0 then allOnes else e.servermacaddr.toList, e.mymac.toList,
        e.myip.toList, dip.toList, sport % 65536, dport % 65536, cells b 42 n⟩ := by
  rw [receiveUdp_udpTransmit hn h.type h.version h.proto h.checksum, h.dst, h.src, h.srcIp, h.dstIp,
    be16_of_cells h.sport, be16_of_cells h.dport]

/-- Behind the data nothing is written. -/
theorem udpTransmit_behind (b : Nat → Byte) (n : Nat) {i : Nat} (hi : 42 ≤ i) :
    (udpTransmit b n).1 i = b i := by
  have hcell := cells_udpTransmit b n (n := 1) (Or.inr (Or.inr hi))
  exact (List.cons.inj hcell).1

theorem udpPrepare_behind (e : EtherCard) (b : Nat → Byte) (sport : Nat) (dip : Ip) (dport : Nat)
    {i : Nat} (hi : 42 ≤ i) : udpPrepare e b sport dip dport i = b i := by
  have hmac : e.servermacaddr.toList.length = 6 := Vector.length_toList
  have hmymac : e.mymac.toList.length = 6 := Vector.length_toList
  have hmyip : e.myip.toList.length = 4 := Vector.length_toList
  have hdip : dip.toList.length = 4 := Vector.length_toList
  unfold udpPrepare setMACandIPs setMACs UDP_CHECKSUM_H_P UDP_LEN_H_P UDP_SRC_PORT_H_P
    UDP_DST_PORT_H_P IP_PROTO_P IP_TOTLEN_H_P IP_P ETH_TYPE_H_P ETH_DST_MAC ETH_SRC_MAC IP_SRC_P
    IP_DST_P
  split <;> simp (disch := simp [iphdr, allOnes, hmac, hmymac, hmyip, hdip] <;> omega) only
    [write_behind]

/-- What `sendUdp` sends is what its caller has given it. -/
theorem receiveUdp_sendUdp_frame (e : EtherCard) (b : Nat → Byte) (data : Bytes) (sport : Nat)
    (dip : Ip) (dport : Nat) :
    receiveUdp (sendUdp e b data sport dip dport).2 = some
      ⟨if dip[0] &&& 0xF0 = 0xE0 then allOnes else e.servermacaddr.toList, e.mymac.toList,
        e.myip.toList, dip.toList, sport % 65536, dport % 65536, data.take 560⟩ := by
  have hlen : (data.take 560).length ≤ 560 := List.length_take_le _ _
  unfold sendUdp UDP_DATA_P
  dsimp only
  rw [((prepared_udpPrepare e b sport dip dport).write (Nat.le_refl 42) _).receiveUdp (by omega)]
  have hdata : cells (Lib.write (udpPrepare e b sport dip dport) 42 (data.take 560)) 42
      (data.take 560).length = data.take 560 := cells_write _ _ _
  rw [hdata]

theorem sendUdp_behind (e : EtherCard) (b : Nat → Byte) (data : Bytes) (sport : Nat) (dip : Ip)
    (dport : Nat) {i : Nat} (hi : 42 + (data.take 560).length ≤ i) :
    (sendUdp e b data sport dip dport).1 i = b i := by
  unfold sendUdp UDP_DATA_P
  dsimp only
  rw [udpTransmit_behind _ _ (by omega), write_behind hi, udpPrepare_behind _ _ _ _ _ (by omega)]

theorem sendUdp_length (e : EtherCard) (b : Nat → Byte) (data : Bytes) (sport : Nat) (dip : Ip)
    (dport : Nat) :
    (sendUdp e b data sport dip dport).2.length = 42 + (data.take 560).length := by
  unfold sendUdp
  rw [udpTransmit_snd, cells_length]

/-- **What `sendUdp` sends is received**, whatever the buffer held: a datagram that passes every
check, with the ports modulo `2^16` and the first 560 bytes of the data. Behind it the buffer is as it
was. -/
theorem receiveUdp_sendUdp (e : EtherCard) (b : Nat → Byte) (data : Bytes) (sport : Nat) (dip : Ip)
    (dport : Nat) :
    receiveUdp (sendUdp e b data sport dip dport).2 = some
        ⟨if dip[0] &&& 0xF0 = 0xE0 then allOnes else e.servermacaddr.toList, e.mymac.toList,
          e.myip.toList, dip.toList, sport % 65536, dport % 65536, data.take 560⟩ ∧
      ∀ i, 42 + (data.take 560).length ≤ i → (sendUdp e b data sport dip dport).1 i = b i :=
  ⟨receiveUdp_sendUdp_frame e b data sport dip dport,
    fun _ hi => sendUdp_behind e b data sport dip dport hi⟩

end C64Iec.Ether

import C64Iec.Ether.Answers
import C64Iec.Ether.Wire

set_option autoImplicit false

/-! # Where the server is

The sketch asks once for the Ethernet address of its server, and from then on every ARP packet for
the card that comes from the server's address is believed, in `setup` and wherever
`ethernet_probe_for_packet` is called (`calls_learn`). Asked by one card, another one at that
address is found (`server_resolved`). What is learned is stored among the globals, so the frames of a
transfer are those that overrun no buffer (`Call`).
-/

namespace C64Iec.Ether

open Lib
open Client (ETH_TYPE_H_P ETH_TYPE_L_P ETHTYPE_ARP_H_V ETHTYPE_ARP_L_V IP_PROTO_P ETH_ARP_DST_IP_P
  IP_PROTO_UDP_V Frame SRCPORT Datagram Tftp PacketWithinBounds tftpRecvPacket ethTypeIsArpAndMyIp
  isMyIp)

/-! ## `ethernet_probe_for_packet` -/

/-- What a call of `ethernet_probe_for_packet` leads to. -/
structure Probed where
  e : EtherCard
  t : Tftp
  buffer : Nat → Byte
  sent : List Bytes

/-- Datagrams sent one after another, each made in the buffer. -/
def sendAll (e : EtherCard) (b : Nat → Byte) : List Datagram → (Nat → Byte) × List Bytes
  | [] => (b, [])
  | d :: ds =>
      let (b, s) := sendUdp e b d.payload d.sport e.serverip d.dport
      let (b, rest) := sendAll e b ds
      (b, s :: rest)

/-- `tftp_recv_packet` returns zero: without a packet, on an ARP packet for this address, and on a
block number that comes again. Else it comes to its end. -/
def returnsZero (e : EtherCard) (t : Tftp) (f : Frame) : Bool :=
  decide (f.plen = 0) || !isMyIp e.myip.toList f ||
    (f.buffer IP_PROTO_P == IP_PROTO_UDP_V && f.dstport == SRCPORT && t.lastblk == f.blknum)

/-- `ethernet_probe_for_packet`. At its end `tftp_recv_packet` returns no value: `ret` says whether
what is taken for it is different from zero. -/
def ethernetProbeForPacket (linkUp ret : Bool) (e : EtherCard) (t : Tftp) (f : Frame) : Probed :=
  let (t', out) := tftpRecvPacket e.myip.toList t f
  let (b, sent) := sendAll e f.buffer out
  let r := if returnsZero e t f || !ret then packetLoop linkUp e ⟨b, f.plen⟩ else silent e b
  ⟨r.e, t', r.buffer, sent ++ r.sent⟩

/-! ## What a frame may change -/

/-- The addresses of the card, its network and its server, and the port it answers for, are the
same in both. -/
structure SameAddresses (e e' : EtherCard) : Prop where
  mymac : e'.mymac = e.mymac
  myip : e'.myip = e.myip
  gwip : e'.gwip = e.gwip
  serverip : e'.serverip = e.serverip
  hisport : e'.hisport = e.hisport

theorem SameAddresses.refl (e : EtherCard) : SameAddresses e e := ⟨rfl, rfl, rfl, rfl, rfl⟩

theorem SameAddresses.trans {e e' e'' : EtherCard} (h : SameAddresses e e')
    (h' : SameAddresses e' e'') : SameAddresses e e'' :=
  ⟨h'.mymac.trans h.mymac, h'.myip.trans h.myip, h'.gwip.trans h.gwip,
    h'.serverip.trans h.serverip, h'.hisport.trans h.hisport⟩

/-- The Ethernet address at which an ARP packet for the card says that the server is. -/
def serverClaim (e : EtherCard) (f : Frame) : Option Mac :=
  if ethTypeIsArpAndMyIp e.myip.toList f = true ∧
      cells f.buffer ETH_ARP_SRC_IP_P 4 = e.serverip.toList then
    some (macAt f.buffer ETH_ARP_SRC_MAC_P)
  else none

/-- What the card has learned of its server is `claim`, if there is one. -/
structure Learns (e : EtherCard) (claim : Option Mac) (e' : EtherCard) : Prop where
  same : SameAddresses e e'
  addr : e'.servermacaddr = claim.getD e.servermacaddr
  known : e'.servermacKnown = (e.servermacKnown || claim.isSome)

theorem Learns.nothing (e : EtherCard) : Learns e none e := ⟨.refl e, rfl, (Bool.or_false _).symm⟩

/-- A claim depends on the card's addresses only. -/
theorem serverClaim_congr {e e' : EtherCard} (h : SameAddresses e e') (f : Frame) :
    serverClaim e' f = serverClaim e f := by
  unfold serverClaim
  rw [h.myip, h.serverip]

theorem clientStoreServerMac_learns {e : EtherCard} {f : Frame}
    (h : ethTypeIsArpAndMyIp e.myip.toList f = true) :
    Learns e (serverClaim e f) (clientStoreServerMac e f.buffer) := by
  unfold clientStoreServerMac serverClaim
  by_cases hip : cells f.buffer ETH_ARP_SRC_IP_P 4 = e.serverip.toList
  · rw [if_neg (not_not.mpr hip), if_pos ⟨h, hip⟩]
    exact ⟨⟨rfl, rfl, rfl, rfl, rfl⟩, rfl, (Bool.or_true _).symm⟩
  · rw [if_pos hip, if_neg fun hboth => hip hboth.2]
    exact .nothing e

/-- The gateway's address is another matter. -/
theorem clientStoreGwMac_learns {e e' : EtherCard} {claim : Option Mac} (h : Learns e claim e')
    (b : Nat → Byte) : Learns e claim (clientStoreGwMac e' b) := by
  unfold clientStoreGwMac
  split
  · exact h
  · exact ⟨⟨h.same.mymac, h.same.myip, h.same.gwip, h.same.serverip, h.same.hisport⟩, h.addr,
      h.known⟩

theorem arpLoop_learns {e : EtherCard} {f : Frame} (h : ethTypeIsArpAndMyIp e.myip.toList f = true) :
    Learns e (serverClaim e f) (arpLoop e f.buffer).e := by
  have hserver := clientStoreServerMac_learns h
  unfold arpLoop
  dsimp only
  generalize clientStoreServerMac e f.buffer = e' at *
  split_ifs
  · exact clientStoreGwMac_learns hserver _
  · exact hserver
  · exact clientStoreGwMac_learns hserver _
  · exact hserver

/-- Neither TCP nor waiting teaches an address. -/
theorem tcpLoops_learn (e : EtherCard) (b : Nat → Byte) (plen : Nat) :
    Learns e none (tcpClientLoop e b).e ∧ Learns e none (tcpServerLoop e b plen).e := by
  have hsame : ∀ e' : EtherCard, e'.mymac = e.mymac → e'.myip = e.myip → e'.gwip = e.gwip →
      e'.serverip = e.serverip → e'.hisport = e.hisport → e'.servermacaddr = e.servermacaddr →
      e'.servermacKnown = e.servermacKnown → Learns e none e' :=
    fun e' hmac hip hgw hserver hport haddr hknown =>
      ⟨⟨hmac, hip, hgw, hserver, hport⟩, haddr, hknown.trans (Bool.or_false _).symm⟩
  constructor
  · unfold tcpClientLoop silent
    dsimp only
    split_ifs <;> exact hsame _ rfl rfl rfl rfl rfl rfl rfl
  · unfold tcpServerLoop silent
    dsimp only
    split_ifs <;> exact hsame _ rfl rfl rfl rfl rfl rfl rfl

theorem idleLoop_learns (linkUp : Bool) (e : EtherCard) (b : Nat → Byte) :
    Learns e none (idleLoop linkUp e b).e := by
  unfold idleLoop clientArpWhohas silent
  dsimp only
  split_ifs <;> exact ⟨⟨rfl, rfl, rfl, rfl, rfl⟩, rfl, (Bool.or_false _).symm⟩

theorem serverClaim_of_not_arp {e : EtherCard} {f : Frame}
    (h : ethTypeIsArpAndMyIp e.myip.toList f = false) : serverClaim e f = none := by
  unfold serverClaim
  rw [h, if_neg]
  exact fun hboth => Bool.false_ne_true hboth.1

theorem not_arp_of_plen {f : Frame} (h : f.plen = 0) (ip : Bytes) :
    ethTypeIsArpAndMyIp ip f = false := by
  unfold ethTypeIsArpAndMyIp
  rw [h]
  rfl

/-- **What a frame teaches** `packetLoop` of the server. -/
theorem packetLoop_learns (linkUp : Bool) (e : EtherCard) (f : Frame) :
    Learns e (serverClaim e f) (packetLoop linkUp e f).e := by
  unfold packetLoop
  dsimp only
  split
  · rename_i hplen
    rw [serverClaim_of_not_arp (not_arp_of_plen hplen _)]
    exact idleLoop_learns linkUp e f.buffer
  · split
    · rename_i harp
      exact arpLoop_learns harp
    · rename_i harp
      rw [serverClaim_of_not_arp (Bool.not_eq_true _ ▸ harp)]
      obtain ⟨hclient, hserver⟩ := tcpLoops_learn e f.buffer f.plen
      split_ifs
      · exact .nothing e
      · exact .nothing e
      · exact .nothing e
      · exact hclient
      · exact hserver

/-- The buffer holds a packet of IP for the server. -/
def ForServer (e : EtherCard) (b : Nat → Byte) : Prop := b 13 = 0 ∧ cells b 30 4 = e.serverip.toList

theorem forServer_sendUdp (e : EtherCard) (b : Nat → Byte) (data : Bytes) (sport dport : Nat) :
    ForServer e (sendUdp e b data sport e.serverip dport).1 := by
  have hprepared := (prepared_udpPrepare e b sport e.serverip dport).write (Nat.le_refl 42)
    (data.take 560)
  have hkeeps : ∀ {o n : Nat}, (o + n ≤ 16 ∨ 26 ≤ o ∧ o + n ≤ 38 ∨ 42 ≤ o) →
      cells (sendUdp e b data sport e.serverip dport).1 o n
        = cells (Lib.write (udpPrepare e b sport e.serverip dport) 42 (data.take 560)) o n :=
    fun h => cells_udpTransmit _ _ h
  have htype := (hkeeps (o := 12) (n := 2) (by decide)).trans hprepared.type
  exact ⟨(List.cons.inj (List.cons.inj htype).2).1,
    (hkeeps (by decide)).trans hprepared.dstIp⟩

/-- What is in the buffer behind a call of `tftp_recv_packet`: what was in it, or the last packet
for the server. -/
theorem sendAll_buffer (e : EtherCard) (b : Nat → Byte) (ds : List Datagram) :
    (sendAll e b ds).1 = b ∨ ForServer e (sendAll e b ds).1 := by
  induction ds generalizing b with
  | nil => exact .inl rfl
  | cons d ds ih =>
      rcases ih (sendUdp e b d.payload d.sport e.serverip d.dport).1 with hsame | hserver
      · refine .inr ?_
        show ForServer e (sendAll e (sendUdp e b d.payload d.sport e.serverip d.dport).1 ds).1
        rw [hsame]
        exact forServer_sendUdp e b d.payload d.sport d.dport
      · exact .inr hserver

theorem ForServer.not_arp {e : EtherCard} {b : Nat → Byte} (h : ForServer e b) (plen : Nat)
    (ip : Bytes) : ethTypeIsArpAndMyIp ip ⟨b, plen⟩ = false := by
  have hlow : b ETH_TYPE_L_P = 0 := h.1
  unfold ethTypeIsArpAndMyIp
  dsimp only
  rw [hlow]
  simp [ETHTYPE_ARP_L_V]

/-- `sendUdp` leaves no ARP packet in the buffer. -/
theorem sendAll_not_arp {e : EtherCard} {f : Frame} {ip : Bytes}
    (h : ethTypeIsArpAndMyIp ip f = false) (ds : List Datagram) :
    ethTypeIsArpAndMyIp ip ⟨(sendAll e f.buffer ds).1, f.plen⟩ = false := by
  rcases sendAll_buffer e f.buffer ds with hsame | hserver
  · rw [hsame]
    exact h
  · exact hserver.not_arp f.plen ip

/-- What a probe teaches: as much as its frame, whatever `tftp_recv_packet` has sent and whatever
is taken for its result. -/
theorem ethernetProbe_learns (linkUp ret : Bool) (e : EtherCard) (t : Tftp) (f : Frame) :
    Learns e (serverClaim e f) (ethernetProbeForPacket linkUp ret e t f).e := by
  unfold ethernetProbeForPacket
  dsimp only
  by_cases harp : ethTypeIsArpAndMyIp e.myip.toList f = true
  · -- taken by `packetLoop`, as it has come
    have hout : (tftpRecvPacket e.myip.toList t f).2 = [] := by
      unfold tftpRecvPacket isMyIp
      rw [harp]
      split <;> rfl
    have hzero : returnsZero e t f = true := by
      unfold returnsZero isMyIp
      rw [harp, Bool.not_true, Bool.not_false, Bool.or_true, Bool.true_or]
    rw [hout, hzero]
    exact packetLoop_learns linkUp e f
  · rw [Bool.not_eq_true] at harp
    rw [serverClaim_of_not_arp harp]
    split
    · have hlearns := packetLoop_learns linkUp e
        ⟨(sendAll e f.buffer (tftpRecvPacket e.myip.toList t f).2).1, f.plen⟩
      rwa [serverClaim_of_not_arp (sendAll_not_arp harp _)] at hlearns
    · exact .nothing e

/-! ## Runs -/

/-- A received frame, taken by `packetLoop` itself (in `setup`) or by `ethernet_probe_for_packet`,
in whatever state the transfer is, as long as a block in it stays in its buffers: the statics of the
card are behind them. -/
inductive Call (myip : Bytes) where
  | loop (linkUp : Bool) (f : Frame)
  | probe (linkUp ret : Bool) (t : Tftp) (f : Frame)
      (withinBounds : PacketWithinBounds myip t (some f))

variable {myip : Bytes}

def Call.frame : Call myip → Frame
  | .loop _ f => f
  | .probe _ _ _ f _ => f

/-- The card behind the call. -/
def Call.next (e : EtherCard) : Call myip → EtherCard
  | .loop linkUp f => (packetLoop linkUp e f).e
  | .probe linkUp ret t f _ => (ethernetProbeForPacket linkUp ret e t f).e

theorem Call.learns (e : EtherCard) (c : Call myip) :
    Learns e (serverClaim e c.frame) (c.next e) := by
  cases c with
  | loop linkUp f => exact packetLoop_learns linkUp e f
  | probe linkUp ret t f => exact ethernetProbe_learns linkUp ret e t f

/-- Where the calls' frames say that the server is, one after another. -/
def serverClaims (e : EtherCard) (calls : List (Call myip)) : List Mac :=
  calls.filterMap fun c => serverClaim e c.frame

/-- Steps of which each one learns what `claim` says: the last claim is what has been learned. -/
theorem Learns.foldl {α : Type*} {claim : EtherCard → α → Option Mac}
    {next : EtherCard → α → EtherCard} (hstep : ∀ e a, Learns e (claim e a) (next e a))
    (hcongr : ∀ {e e'}, SameAddresses e e' → ∀ a, claim e' a = claim e a) (e : EtherCard)
    (l : List α) : Learns e (l.filterMap (claim e)).getLast? (l.foldl next e) := by
  induction l using List.reverseRecOn with
  | nil => exact .nothing e
  | append_singleton l a ih =>
      have hlast := hstep (l.foldl next e) a
      rw [hcongr ih.same] at hlast
      rw [List.foldl_append, List.foldl_cons, List.foldl_nil]
      refine ⟨ih.same.trans hlast.same, ?_, ?_⟩
      · rw [hlast.addr, ih.addr, List.filterMap_append, List.getLast?_append]
        cases hclaim : claim e a with
        | none => simp [hclaim]
        | some mac => simp [hclaim]
      · rw [hlast.known, ih.known, List.filterMap_append, List.getLast?_append]
        cases hclaim : claim e a with
        | none => simp [hclaim]
        | some mac => simp [hclaim]

/-- **What the card knows of its server**, after any calls: the last of their ARP packets that
come from the server's address has told it, and as soon as there is one the waiting in `setup` is
over. No frame changes what the card's own addresses are. -/
theorem calls_learn (e : EtherCard) (calls : List (Call e.myip.toList)) :
    Learns e (serverClaims e calls).getLast? (calls.foldl Call.next e) :=
  Learns.foldl Call.learns (fun h c => serverClaim_congr h c.frame) e calls

/-- Behind calls in which nobody but the server has claimed its address, and it has at least once. -/
theorem calls_agree {e : EtherCard} {calls : List (Call myip)} {mac : Mac}
    (hothers : ∀ mac' ∈ serverClaims e calls, mac' = mac)
    (hknown : e.servermacKnown = true ∧ e.servermacaddr = mac ∨ mac ∈ serverClaims e calls) :
    SameAddresses e (calls.foldl Call.next e) ∧
      (calls.foldl Call.next e).servermacKnown = true ∧
      (calls.foldl Call.next e).servermacaddr = mac := by
  have hlearns := Learns.foldl Call.learns (fun h c => serverClaim_congr h c.frame) e calls
  have hlast : ∀ mac' ∈ (serverClaims e calls).getLast?, mac' = mac :=
    fun mac' h => hothers mac' (List.mem_of_getLast? h)
  change Learns e (serverClaims e calls).getLast? _ at hlearns
  refine ⟨hlearns.same, ?_⟩
  rw [hlearns.known, hlearns.addr]
  cases hget : (serverClaims e calls).getLast? with
  | some mac' => exact ⟨Bool.or_true _, hlast mac' hget⟩
  | none =>
      rcases hknown with ⟨hknown, haddr⟩ | hmem
      · exact ⟨(Bool.or_false _).trans hknown, haddr⟩
      · rw [List.getLast?_eq_none_iff.mp hget] at hmem
        cases hmem

/-! ## The exchange -/

/-- The frame has the bytes `s`, and perhaps others behind. -/
def Holds (f : Frame) (s : Bytes) : Prop := s.length ≤ f.plen ∧ f.bytes 0 s.length = s

theorem Holds.field {f : Frame} {s : Bytes} (h : Holds f s) {off n : Nat}
    (hfits : off + n ≤ s.length) : f.bytes off n = field s off n := by
  have hcells : cells f.buffer 0 s.length = s := h.2
  exact (field_cells f.buffer hfits).symm.trans (congrArg (Ether.field · off n) hcells)

theorem arpAndMyIp_of {f : Frame} {ip : Bytes} (hplen : 41 ≤ f.plen)
    (htype : f.bytes 12 2 = [0x08, 0x06]) (hip : f.bytes 38 4 = ip) :
    ethTypeIsArpAndMyIp ip f = true := by
  obtain ⟨hhigh, hrest⟩ := List.cons.inj htype
  have hh : f.buffer ETH_TYPE_H_P = ETHTYPE_ARP_H_V := hhigh
  have hl : f.buffer ETH_TYPE_L_P = ETHTYPE_ARP_L_V := (List.cons.inj hrest).1
  have ht : f.bytes ETH_ARP_DST_IP_P 4 = ip := hip
  unfold ethTypeIsArpAndMyIp
  rw [hh, hl, ht]
  simp [hplen]

theorem macAt_eq {b : Nat → Byte} {off : Nat} {mac : Mac} (h : cells b off 6 = mac.toList) :
    macAt b off = mac := by
  refine Vector.toList_inj.mp (Eq.trans ?_ h)
  simp [macAt, cells, Vector.toList_ofFn]
  rfl

/-- A card that is asked for its address gives it. -/
theorem AsksFor.answered {client server : EtherCard} {s : Bytes}
    (h : AsksFor client server.myip s) {q : Frame} (hq : Holds q s) (linkUp : Bool) :
    ∃ reply, (packetLoop linkUp server q).sent = [reply] ∧ Answer server q reply := by
  have hlen := h.length
  have hplen : 42 ≤ q.plen := hlen ▸ hq.1
  have hmine : ethTypeIsArpAndMyIp server.myip.toList q = true :=
    arpAndMyIp_of (by omega) ((hq.field (by omega)).trans h.type)
      ((hq.field (by omega)).trans h.dstIp)
  have hkind : q.bytes 14 8 = arpreqhdr := (hq.field (by omega)).trans h.kind
  have hasks : q.buffer 21 = 1 := congrArg (·.getD 7 0) hkind
  obtain ⟨reply, hreply, hanswer⟩ := arpLoop_answers hmine hasks
  refine ⟨reply, ?_, hanswer⟩
  unfold packetLoop
  dsimp only
  rw [if_neg (by omega), if_pos hmine, hreply]

/-- The answer tells the card that has asked. -/
theorem Answer.claims {client server : EtherCard} {s reply : Bytes}
    (h : AsksFor client server.myip s) (hip : server.myip = client.serverip) {q : Frame}
    (hq : Holds q s) (hanswer : Answer server q reply) {r : Frame} (hr : Holds r reply) :
    serverClaim client r = some server.mymac := by
  have hlen := h.length
  have hshort := hanswer.short.1
  have hqtype : q.bytes 12 2 = [0x08, 0x06] := (hq.field (by omega)).trans h.type
  obtain ⟨-, -, hsrcMac, hsrcIp, -, hdstIp⟩ := hanswer.arp hqtype
  have htype : r.bytes 12 2 = [0x08, 0x06] :=
    (hr.field (by omega)).trans (hanswer.type.trans hqtype)
  have htarget : r.bytes 38 4 = client.myip.toList := by
    rw [hr.field (by omega), hdstIp, hq.field (by omega), h.srcIp]
  have hmine := arpAndMyIp_of (show 41 ≤ r.plen from Nat.le_of_succ_le (hshort.trans hr.1)) htype
    htarget
  have hsender : cells r.buffer ETH_ARP_SRC_IP_P 4 = client.serverip.toList :=
    ((hr.field (by omega)).trans hsrcIp).trans (congrArg _ hip)
  have hmac : cells r.buffer 22 6 = server.mymac.toList :=
    (hr.field (by omega)).trans hsrcMac
  unfold serverClaim
  rw [if_pos ⟨hmine, hsender⟩]
  exact congrArg some (macAt_eq hmac)

/-- **The server is found**: the client's question makes a card at its server's address send one
answer, and in any run of the client in which that answer is taken, and nobody else claims the
server's address, the waiting ends with that card's Ethernet address, to which the client's
datagrams then go. -/
theorem server_resolved {client server : EtherCard} (hip : server.myip = client.serverip)
    (b : Nat → Byte) (linkUp : Bool) :
    ∃ question, (clientArpWhohas client b client.serverip).sent = [question] ∧
      ∀ q, Holds q question → ∃ reply, (packetLoop linkUp server q).sent = [reply] ∧
        ∀ calls : List (Call client.myip.toList), (∃ c ∈ calls, Holds c.frame reply) →
          (∀ mac ∈ serverClaims client calls, mac = server.mymac) →
          (calls.foldl Call.next client).servermacKnown = true ∧
            (calls.foldl Call.next client).servermacaddr = server.mymac ∧
            (calls.foldl Call.next client).serverip = server.myip := by
  obtain ⟨question, hsent, hasks⟩ := asksFor_clientArpWhohas client b client.serverip
  rw [← hip] at hasks
  refine ⟨question, hsent, fun q hq => ?_⟩
  obtain ⟨reply, hreply, hanswer⟩ := hasks.answered hq linkUp
  refine ⟨reply, hreply, ?_⟩
  rintro calls ⟨c, hc, hr⟩ hothers
  have hclaim : server.mymac ∈ serverClaims client calls :=
    List.mem_filterMap.mpr ⟨c, hc, hanswer.claims hasks hip hq hr⟩
  obtain ⟨hsame, hfound, haddr⟩ := calls_agree hothers (.inr hclaim)
  exact ⟨hfound, haddr, hsame.serverip.trans hip.symm⟩

/-- The card at the address of the server. -/
def sampleServer : EtherCard :=
  { sampleCard with mymac := #v[2, 0, 0, 0, 0, 7], myip := sampleCard.serverip }

/-- A frame on the wire as it is received, with zeros behind it. -/
def frameOf (s : Bytes) : Frame := ⟨fun i => s.getD i 0, s.length⟩

theorem holds_frameOf (s : Bytes) : Holds (frameOf s) s := by
  refine ⟨Nat.le_refl _, List.ext_getElem (by simp) fun i h₁ h₂ => ?_⟩
  simp [Frame.bytes, frameOf, h₂]

/-- A block of a LOAD that comes meanwhile. -/
def sampleProbe : Call sampleCard.myip.toList :=
  .probe true true Client.requested sampleFrame
    (Client.packetWithinBounds_of_carries carries_sampleFrame (by decide))

theorem server_resolved_sample :
    ∃ q r, (clientArpWhohas sampleCard (fun _ => 0) sampleServer.myip).sent = [q] ∧
      (packetLoop true sampleServer (frameOf q)).sent = [r] ∧
      ([sampleProbe, .loop true (frameOf r)].foldl Call.next sampleCard).servermacaddr
        = sampleServer.mymac := by
  obtain ⟨q, hq, hresolved⟩ :=
    server_resolved (show sampleServer.myip = sampleCard.serverip from rfl) (fun _ => 0) true
  obtain ⟨q', hq', hasks⟩ := asksFor_clientArpWhohas sampleCard (fun _ => 0) sampleServer.myip
  obtain rfl : q = q' := (List.cons.inj (hq.symm.trans hq')).1
  obtain ⟨r, hr, hfound⟩ := hresolved (frameOf q) (holds_frameOf q)
  obtain ⟨r', hr', hanswer⟩ := hasks.answered (holds_frameOf q) true
  obtain rfl : r = r' := (List.cons.inj (hr.symm.trans hr')).1
  have hquiet : serverClaim sampleCard sampleFrame = none :=
    serverClaim_of_not_arp (by simpa [isMyIp] using carries_sampleFrame.isMyIp _)
  have hclaims : serverClaims sampleCard [sampleProbe, .loop true (frameOf r)]
      = [sampleServer.mymac] := by
    have hclaim := hanswer.claims hasks rfl (holds_frameOf q) (holds_frameOf r)
    simp only [serverClaims, sampleProbe, List.filterMap_cons, List.filterMap_nil, Call.frame, hclaim,
      hquiet]
  have hall : ∀ mac ∈ serverClaims sampleCard [sampleProbe, .loop true (frameOf r)],
      mac = sampleServer.mymac := by
    rw [hclaims]
    exact fun mac hmac => List.mem_singleton.mp hmac
  have hcomes : ∃ c ∈ [sampleProbe, .loop true (frameOf r)], Holds c.frame r :=
    ⟨.loop true (frameOf r), by simp, holds_frameOf r⟩
  exact ⟨q, r, hq, hr, (hfound _ hcomes hall).2.1⟩

/-! ## A result that is not there -/

/-- The datagrams that `tftp_recv_packet` takes. -/
def IsTftp (f : Frame) : Prop := f.buffer IP_PROTO_P = IP_PROTO_UDP_V ∧ f.dstport = SRCPORT

/-- `packetLoop` has nothing to do with a datagram of UDP, unless its port is one of TCP's. -/
theorem packetLoop_udp (linkUp : Bool) {e : EtherCard} {f : Frame} {port : Nat}
    (hplen : f.plen ≠ 0) (harp : ethTypeIsArpAndMyIp e.myip.toList f = false)
    (hudp : f.buffer IP_PROTO_P = IP_PROTO_UDP_V) (hdst : f.dstport = port)
    (hclient : port / 256 ≠ 11) (hport : e.hisport ≠ port) :
    packetLoop linkUp e f = silent e f.buffer := by
  have hbe : be16 (f.buffer TCP_DST_PORT_H_P) (f.buffer TCP_DST_PORT_L_P) = port := hdst
  have hhigh : f.buffer TCP_DST_PORT_H_P ≠ TCPCLIENT_SRC_PORT_H := by
    intro h
    have hlow := (f.buffer TCP_DST_PORT_L_P).toNat_lt
    rw [h] at hbe
    unfold be16 TCPCLIENT_SRC_PORT_H at hbe
    have heleven : UInt8.toNat 11 = 11 := rfl
    omega
  have hicmp : ¬(f.buffer IP_PROTO_P = IP_PROTO_ICMP_V ∧
      f.buffer ICMP_TYPE_P = ICMP_TYPE_ECHOREQUEST_V) := by
    rw [hudp]
    exact fun h => absurd h.1 (by decide)
  unfold packetLoop
  dsimp only
  rw [if_neg hplen, harp, if_neg Bool.false_ne_true, if_neg hicmp, if_neg hhigh]
  split_ifs
  · rfl
  · rfl
  · unfold tcpServerLoop
    rw [if_pos]
    intro h
    exact hport (h.symm.trans hbe)

/-- Nor with what the client has just sent. -/
theorem packetLoop_forServer (linkUp : Bool) {e : EtherCard} {b : Nat → Byte} (h : ForServer e b)
    {plen : Nat} (hplen : plen ≠ 0) (hserver : e.serverip ≠ e.myip) :
    packetLoop linkUp e ⟨b, plen⟩ = silent e b := by
  have hnot : ethTypeIsIpAndMyIp e ⟨b, plen⟩ = false := by
    have hdst : cells b IP_DST_P 4 = e.serverip.toList := h.2
    unfold ethTypeIsIpAndMyIp
    rw [Bool.and_eq_false_iff]
    refine .inr (beq_eq_false_iff_ne.mpr fun heq => hserver ?_)
    exact Vector.toList_inj.mp (hdst.symm.trans heq)
  unfold packetLoop
  dsimp only
  rw [if_neg hplen, h.not_arp plen, if_neg Bool.false_ne_true, hnot, Bool.not_false, if_pos rfl]

/-- Whatever is taken for the result of `tftp_recv_packet`, a datagram for the port of TFTP has one
effect. -/
theorem ethernetProbe_ret (linkUp ret ret' : Bool) {e : EtherCard} (t : Tftp) {f : Frame}
    (htftp : IsTftp f) (hserver : e.serverip ≠ e.myip) (hport : e.hisport ≠ SRCPORT) :
    ethernetProbeForPacket linkUp ret e t f = ethernetProbeForPacket linkUp ret' e t f := by
  by_cases hzero : returnsZero e t f = true
  · unfold ethernetProbeForPacket
    rw [hzero, Bool.true_or, Bool.true_or]
  · rw [Bool.not_eq_true] at hzero
    have hnot : f.plen ≠ 0 ∧ ethTypeIsArpAndMyIp e.myip.toList f = false := by
      simp only [returnsZero, isMyIp, Bool.or_eq_false_iff, decide_eq_false_iff_not,
        Bool.not_not] at hzero
      exact hzero.1
    have hloop : packetLoop linkUp e
        ⟨(sendAll e f.buffer (tftpRecvPacket e.myip.toList t f).2).1, f.plen⟩
          = silent e (sendAll e f.buffer (tftpRecvPacket e.myip.toList t f).2).1 := by
      rcases sendAll_buffer e f.buffer (tftpRecvPacket e.myip.toList t f).2 with hsame | hsent
      · rw [hsame]
        exact packetLoop_udp linkUp hnot.1 hnot.2 htftp.1 htftp.2 (by decide) hport
      · exact packetLoop_forServer linkUp hsent hnot.1 hserver
    unfold ethernetProbeForPacket
    dsimp only
    rw [hloop, ite_self, ite_self]

/-- A frame that is taken by `ethernet_probe_for_packet`. -/
structure Received where
  linkUp : Bool
  ret : Bool
  frame : Frame

/-- Calls of `ethernet_probe_for_packet`: the card, the transfer, and all that has been sent. -/
def probeAll (e : EtherCard) (t : Tftp) : List Received → EtherCard × Tftp × List Bytes
  | [] => (e, t, [])
  | x :: xs =>
      let p := ethernetProbeForPacket x.linkUp x.ret e t x.frame
      let (e, t, sent) := probeAll p.e p.t xs
      (e, t, p.sent ++ sent)

/-- No block in the frames overruns its buffers. -/
def ProbesWithinBounds (e : EtherCard) (t : Tftp) : List Received → Prop
  | [] => True
  | x :: xs =>
      PacketWithinBounds e.myip.toList t (some x.frame) ∧
        ProbesWithinBounds (ethernetProbeForPacket x.linkUp x.ret e t x.frame).e
          (ethernetProbeForPacket x.linkUp x.ret e t x.frame).t xs

theorem ready_probeAll {e : EtherCard} {t : Tftp} (ht : t.Ready) {xs : List Received}
    (h : ProbesWithinBounds e t xs) : (probeAll e t xs).2.1.Ready := by
  induction xs generalizing e t with
  | nil => exact ht
  | cons x xs ih =>
      obtain ⟨hfirst, hrest⟩ := h
      have hready : (ethernetProbeForPacket x.linkUp x.ret e t x.frame).t.Ready :=
        (ht.recvPacket hfirst).1
      exact ih hready hrest

/-- The same frame, for which the same is taken for the result unless it is one of TFTP. -/
def SameButRet (x y : Received) : Prop :=
  x.linkUp = y.linkUp ∧ x.frame = y.frame ∧ (x.ret = y.ret ∨ IsTftp x.frame)

theorem probeAll_congr {e : EtherCard} (t : Tftp) {xs ys : List Received}
    (h : List.Forall₂ SameButRet xs ys) (hserver : e.serverip ≠ e.myip)
    (hport : e.hisport ≠ SRCPORT) : probeAll e t xs = probeAll e t ys := by
  induction h generalizing e t with
  | nil => rfl
  | @cons x y xs ys hxy hrest ih =>
      obtain ⟨hlink, hframe, hret⟩ := hxy
      have hstep : ethernetProbeForPacket x.linkUp x.ret e t x.frame
          = ethernetProbeForPacket y.linkUp y.ret e t y.frame := by
        rw [← hlink, ← hframe]
        rcases hret with hret | htftp
        · rw [hret]
        · exact ethernetProbe_ret _ _ _ t htftp hserver hport
      have hsame := (ethernetProbe_learns y.linkUp y.ret e t y.frame).same
      unfold probeAll
      dsimp only
      rw [hstep, ih _ (by rw [hsame.serverip, hsame.myip]; exact hserver)
        (by rw [hsame.hisport]; exact hport)]

/-- **The missing result of `tftp_recv_packet` does no harm to transfers**: what is taken for it on
datagrams for the port of TFTP shows neither in the state nor in what is sent, in any run. As long as
no block overruns its buffers they keep their sizes; an overrun would be the same in both. -/
theorem probeAll_ret {e : EtherCard} (t : Tftp) {xs ys : List Received}
    (h : List.Forall₂ SameButRet xs ys) (hserver : e.serverip ≠ e.myip)
    (hport : e.hisport ≠ SRCPORT) :
    probeAll e t xs = probeAll e t ys ∧
      (t.Ready → ProbesWithinBounds e t xs → (probeAll e t xs).2.1.Ready) :=
  ⟨probeAll_congr t h hserver hport, fun ht hb => ready_probeAll ht hb⟩

theorem ready_requested : Client.requested.Ready :=
  (Client.ready_init.g.tftp.getFile (by decide)).1

theorem probeAll_ret_sample :
    probeAll sampleCard Client.requested [⟨true, true, sampleFrame⟩]
        = probeAll sampleCard Client.requested [⟨true, false, sampleFrame⟩] ∧
      (probeAll sampleCard Client.requested [⟨true, true, sampleFrame⟩]).2.1.Ready := by
  have hbounds : PacketWithinBounds sampleCard.myip.toList Client.requested (some sampleFrame) :=
    Client.packetWithinBounds_of_carries carries_sampleFrame (by decide)
  have hbut : List.Forall₂ SameButRet [⟨true, true, sampleFrame⟩] [⟨true, false, sampleFrame⟩] :=
    .cons ⟨rfl, rfl, .inr ⟨rfl, rfl⟩⟩ .nil
  obtain ⟨hsame, hready⟩ := probeAll_ret Client.requested hbut
    (show sampleCard.serverip ≠ sampleCard.myip by decide) (by decide)
  exact ⟨hsame, hready ready_requested ⟨hbounds, trivial⟩⟩

end C64Iec.Ether

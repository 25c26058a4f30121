import C64Iec.Ether.DhcpMessages
import C64Iec.Ether.Resolution

set_option autoImplicit false

/-! # An address from a server

The two sides of DHCP together. `AnsweredBy` is a server that reads a frame of the card and sends a
message back; nothing else is asked of it. When a server answers the discovery with an offer and the
request for it with an acknowledgement, the card ends up with what has been offered
(`dhcp_exchange`), however long the answers take.
-/

namespace C64Iec.Ether

open Lib
open Client (IP_PROTO_P UDP_DATA_P IP_PROTO_UDP_V Frame)

/-- A server can read the frame `s`, which asks for something of type `request`, and the frame `f`
answers it. -/
def AnsweredBy (request : Byte) (s : Bytes) (f : Frame) (type : Byte) (yiaddr siaddr : Ip)
    (options : List (Byte × Bytes)) : Prop :=
  ∃ dgram m, receiveUdp s = some dgram ∧ readDhcp dgram.payload = some m ∧
    (53, [request]) ∈ m.options ∧ Reply f m.xid yiaddr siaddr ((53, [type]) :: options)

/-- Nothing comes in the turn. -/
def Quiet (i : Tick) : Prop := i.linkUp = false ∨ i.frame.plen = 0

/-! ## Turns -/

variable {d : Dhcp} {i : Tick}

theorem dhcpTurn_quiet (h : Quiet i) (hstate : d.dhcpState ≠ .init) : dhcpTurn d i = (d, []) := by
  unfold dhcpTurn dhcpReceive
  rw [if_neg hstate]
  rcases h with hdown | hplen
  · rw [hdown, Bool.not_false, if_pos rfl]
  · rw [hplen, if_pos rfl, ite_self]

theorem dhcpLoop_of_bound (h : d.dhcpState = .bound) (ticks : List Tick) :
    dhcpLoop d ticks = (d, []) := by
  cases ticks with
  | nil => rfl
  | cons i is => rw [dhcpLoop, if_pos h]

/-- Turns in which nothing comes are lost. -/
theorem dhcpLoop_quiet {quiet : List Tick} (h : ∀ i ∈ quiet, Quiet i)
    (hinit : d.dhcpState ≠ .init) (ticks : List Tick) :
    dhcpLoop d (quiet ++ ticks) = dhcpLoop d ticks := by
  by_cases hbound : d.dhcpState = .bound
  · rw [dhcpLoop_of_bound hbound, dhcpLoop_of_bound hbound]
  · induction quiet with
    | nil => rfl
    | cons i quiet ih =>
        rw [List.cons_append, dhcpLoop, if_neg hbound, dhcpTurn_quiet (h i List.mem_cons_self) hinit]
        dsimp only
        rw [ih fun j hj => h j (List.mem_cons_of_mem _ hj)]
        rfl

theorem dhcpLoop_cons (hopen : d.dhcpState ≠ .bound) (i : Tick) (is : List Tick) :
    dhcpLoop d (i :: is) = ((dhcpLoop (dhcpTurn d i).1 is).1,
      (dhcpTurn d i).2 ++ (dhcpLoop (dhcpTurn d i).1 is).2) := by
  rw [dhcpLoop, if_neg hopen]

/-- A server's message reaches the `switch` as it is. -/
theorem dhcpReceive_reply {xid : Bytes} {yiaddr siaddr : Ip} {options : List (Byte × Bytes)}
    (h : Reply i.frame xid yiaddr siaddr options) (hup : i.linkUp = true)
    (hinit : d.dhcpState ≠ .init) (hport : d.card.hisport ≠ DHCP_DEST_PORT) :
    dhcpReceive d i = (d, [], some i.frame.buffer) := by
  obtain ⟨k, hreplied⟩ := h.replied
  have hplen : i.frame.plen ≠ 0 := by
    rw [hreplied.plen]
    omega
  have hlow : i.frame.buffer Client.ETH_TYPE_L_P = 0 :=
    (List.cons.inj (List.cons.inj hreplied.type).2).1
  have harp : Client.ethTypeIsArpAndMyIp d.card.myip.toList i.frame = false := by
    unfold Client.ethTypeIsArpAndMyIp
    rw [hlow]
    simp [Client.ETHTYPE_ARP_L_V]
  have hloop : packetLoop i.linkUp d.card i.frame = silent d.card i.frame.buffer :=
    packetLoop_udp i.linkUp hplen harp hreplied.proto hreplied.dport (by decide) hport
  have hudp : i.frame.buffer IP_PROTO_P = IP_PROTO_UDP_V := hreplied.proto
  unfold dhcpReceive
  rw [hup, Bool.not_true, if_neg Bool.false_ne_true, if_neg hinit, if_neg hplen, ← hup, hloop]
  unfold silent
  dsimp only
  rw [if_neg (by rw [hudp]; simp)]

/-! ## The three turns -/

/-- What `check_for_dhcp_answer` says in the two states that wait for an answer. -/
theorem check_select {d : Dhcp} (b : Nat → Byte) (len : Nat) :
    checkForDhcpAnswer d b len = .select ↔ answerType d.currentXid b len = some DHCP_MSG_OFFER := by
  unfold checkForDhcpAnswer
  cases answerType d.currentXid b len with
  | none => exact iff_of_false nofun nofun
  | some type =>
      dsimp only
      rw [Option.some.injEq]
      split_ifs with hoffer hack hnack
      · exact iff_of_true rfl hoffer
      · refine iff_of_false ?_ hoffer
        split <;> nofun
      · exact iff_of_false nofun hoffer
      · exact iff_of_false nofun hoffer

theorem check_request {d : Dhcp} (hstate : d.dhcpState = .request) (b : Nat → Byte) (len : Nat) :
    checkForDhcpAnswer d b len = .request ↔ answerType d.currentXid b len = some DHCP_MSG_ACK := by
  unfold checkForDhcpAnswer
  cases answerType d.currentXid b len with
  | none => exact iff_of_false nofun nofun
  | some type =>
      dsimp only
      rw [Option.some.injEq]
      split_ifs with hoffer hack hnack
      · rw [hoffer]
        exact iff_of_false nofun (by decide)
      · rw [hstate]
        exact iff_of_true rfl hack
      · exact iff_of_false nofun hack
      · exact iff_of_false nofun hack

/-- The card behind the turn that sends the discovery. -/
def started (d : Dhcp) (i : Tick) : Dhcp :=
  { d with card := { d.card with myip := allZeros }
           dhcpip := allZeros
           currentXid := (i.now <<< 16) + i.now'
           dhcpState := .select
           leaseStart := 0 }

theorem dhcpTurn_start (hinit : d.dhcpState = .init) (hup : i.linkUp = true) :
    dhcpTurn d i = (started d i, dhcpSend { started d i with
      dhcpState := .init, leaseStart := d.leaseStart } i.sendLinkUp i.frame.buffer
        DHCP_MSG_DISCOVER true) := by
  unfold dhcpTurn dhcpReceive
  rw [hup, Bool.not_true, if_neg Bool.false_ne_true, if_pos hinit]
  dsimp only
  unfold dhcpSwitch
  rw [hinit]
  rfl

/-- What the card takes from an offer. -/
def taught (d : Dhcp) (yiaddr siaddr : Ip) (options : List (Byte × Bytes)) : Dhcp :=
  options.foldl learn { d with card := { d.card with myip := yiaddr, serverip := siaddr } }

/-- The options touch neither the addresses of the message nor what is not in it. -/
theorem taught_fixed (d : Dhcp) (yiaddr siaddr : Ip) (options : List (Byte × Bytes)) :
    (taught d yiaddr siaddr options).card.myip = yiaddr ∧
      (taught d yiaddr siaddr options).card.serverip = siaddr ∧
      (taught d yiaddr siaddr options).card.mymac = d.card.mymac ∧
      (taught d yiaddr siaddr options).card.hisport = d.card.hisport ∧
      (taught d yiaddr siaddr options).currentXid = d.currentXid ∧
      (taught d yiaddr siaddr options).hostname = d.hostname := by
  unfold taught
  generalize hs : ({ d with card := { d.card with myip := yiaddr, serverip := siaddr } } : Dhcp) = s
  have hfixed : s.card.myip = yiaddr ∧ s.card.serverip = siaddr ∧ s.card.mymac = d.card.mymac ∧
      s.card.hisport = d.card.hisport ∧ s.currentXid = d.currentXid ∧ s.hostname = d.hostname := by
    rw [← hs]
    exact ⟨rfl, rfl, rfl, rfl, rfl, rfl⟩
  clear hs
  induction options generalizing s with
  | nil => exact hfixed
  | cons o options ih =>
      refine ih (learn s o) ?_
      unfold learn
      split_ifs <;> exact hfixed

theorem dhcpTurn_offer {xid : UInt32} {yiaddr siaddr : Ip} {options : List (Byte × Bytes)}
    (h : Reply i.frame (leBytes xid) yiaddr siaddr ((53, [DHCP_MSG_OFFER]) :: options))
    (hlong : ∀ o ∈ options, o.1 ∈ readCodes → 4 ≤ o.2.length) (hup : i.linkUp = true)
    (hstate : d.dhcpState = .select) (hxid : d.currentXid = xid)
    (hport : d.card.hisport ≠ DHCP_DEST_PORT) :
    dhcpTurn d i = ({ taught d yiaddr siaddr options with dhcpState := .request },
      dhcpSend (taught d yiaddr siaddr options) i.sendLinkUp i.frame.buffer DHCP_MSG_REQUEST
        false) := by
  have hcheck : checkForDhcpAnswer d i.frame.buffer i.frame.plen = .select := by
    rw [check_select, h.answerType, if_pos hxid]
  unfold dhcpTurn
  rw [dhcpReceive_reply h hup (by rw [hstate]; decide) hport]
  dsimp only
  unfold dhcpSwitch
  rw [hstate]
  dsimp only
  rw [if_pos hcheck, h.parseDhcpoffer hlong, List.nil_append]
  rfl

theorem dhcpTurn_ack {xid : UInt32} {yiaddr siaddr : Ip} {options : List (Byte × Bytes)}
    (h : Reply i.frame (leBytes xid) yiaddr siaddr ((53, [DHCP_MSG_ACK]) :: options))
    (hup : i.linkUp = true) (hstate : d.dhcpState = .request) (hxid : d.currentXid = xid)
    (hport : d.card.hisport ≠ DHCP_DEST_PORT) :
    dhcpTurn d i = ({ d with dhcpState := .bound, leaseStart := i.now }, []) := by
  have hcheck : checkForDhcpAnswer d i.frame.buffer i.frame.plen = .request := by
    rw [check_request hstate, h.answerType, if_pos hxid]
  unfold dhcpTurn
  rw [dhcpReceive_reply h hup (by rw [hstate]; decide) hport]
  dsimp only
  unfold dhcpSwitch
  rw [hstate]
  dsimp only
  rw [if_pos hcheck, List.nil_append]

/-! ## The exchange -/

/-- An answer carries the number of the message it answers. -/
theorem AnsweredBy.reply {request type r : Byte} {s : Bytes} {f : Frame} {yiaddr siaddr : Ip}
    {options : List (Byte × Bytes)} (h : AnsweredBy request s f type yiaddr siaddr options)
    {linkUp flg : Bool} {b : Nat → Byte} (hs : s ∈ dhcpSend d linkUp b r flg)
    (hname : d.hostname.length ≤ 15) :
    Reply f (leBytes d.currentXid) yiaddr siaddr ((53, [type]) :: options) := by
  cases linkUp with
  | false => exact absurd hs List.not_mem_nil
  | true =>
      obtain ⟨frame, payload, hsent, -, hreceived, hread⟩ := dhcpSend_frame hname b r flg
      rw [hsent, List.mem_singleton] at hs
      subst hs
      obtain ⟨dgram, m, hdgram, hm, -, hreply⟩ := h
      obtain rfl := Option.some.inj (hdgram.symm.trans hreceived)
      obtain rfl := Option.some.inj (hm.symm.trans hread)
      exact hreply

/-- What is asked for is what was offered. -/
theorem request_asks {s : Bytes} {linkUp flg : Bool} {b : Nat → Byte}
    (hs : s ∈ dhcpSend d linkUp b DHCP_MSG_REQUEST flg) (hname : d.hostname.length ≤ 15) :
    ∃ dgram m, receiveUdp s = some dgram ∧ readDhcp dgram.payload = some m ∧
      (50, d.card.myip.toList) ∈ m.options ∧ (54, d.dhcpip.toList) ∈ m.options := by
  cases linkUp with
  | false => exact absurd hs List.not_mem_nil
  | true =>
      obtain ⟨frame, payload, hsent, -, hreceived, hread⟩ :=
        dhcpSend_frame hname b DHCP_MSG_REQUEST flg
      rw [hsent, List.mem_singleton] at hs
      subst hs
      refine ⟨_, _, hreceived, hread, ?_, ?_⟩
      · unfold requestOptions
        simp
      · unfold requestOptions
        simp

theorem dhcpStart_hostname (d : Dhcp) : (dhcpStart d).hostname.length ≤ 15 := by
  show (ascii "Arduino-").length + 2 ≤ 15
  decide

/-- What the card learns, in the three turns that count. -/
theorem dhcpLoop_exchange (hport : d.card.hisport ≠ DHCP_DEST_PORT) {t₀ t₁ t₂ : Tick}
    {quiet₁ quiet₂ : List Tick} (rest : List Tick) (hup₀ : t₀.linkUp = true)
    (hup₁ : t₁.linkUp = true) (hup₂ : t₂.linkUp = true) (hquiet₁ : ∀ i ∈ quiet₁, Quiet i)
    (hquiet₂ : ∀ i ∈ quiet₂, Quiet i) {yiaddr siaddr yiaddr' siaddr' : Ip}
    {options options' : List (Byte × Bytes)}
    (hoffer : Reply t₁.frame (leBytes ((t₀.now <<< 16) + t₀.now')) yiaddr siaddr
      ((53, [DHCP_MSG_OFFER]) :: options))
    (hack : Reply t₂.frame (leBytes ((t₀.now <<< 16) + t₀.now')) yiaddr' siaddr'
      ((53, [DHCP_MSG_ACK]) :: options'))
    (hlong : ∀ o ∈ options, o.1 ∈ readCodes → 4 ≤ o.2.length) :
    (dhcpLoop (dhcpStart d) (t₀ :: (quiet₁ ++ t₁ :: (quiet₂ ++ t₂ :: rest)))).1
      = { taught (started (dhcpStart d) t₀) yiaddr siaddr options with
          dhcpState := .bound, leaseStart := t₂.now } := by
  obtain ⟨-, -, -, hhisport, hxid, -⟩ :=
    taught_fixed (started (dhcpStart d) t₀) yiaddr siaddr options
  have hturn₀ := dhcpTurn_start (d := dhcpStart d) rfl hup₀
  have hturn₁ := dhcpTurn_offer (d := started (dhcpStart d) t₀) hoffer hlong hup₁ rfl rfl hport
  have hturn₂ := dhcpTurn_ack
    (d := { taught (started (dhcpStart d) t₀) yiaddr siaddr options with dhcpState := .request })
    hack hup₂ rfl hxid (by rw [hhisport]; exact hport)
  rw [dhcpLoop_cons (show DhcpState.init ≠ .bound by decide), hturn₀,
    dhcpLoop_quiet hquiet₁ (show DhcpState.select ≠ .init by decide),
    dhcpLoop_cons (show DhcpState.select ≠ .bound by decide), hturn₁,
    dhcpLoop_quiet hquiet₂ (show DhcpState.request ≠ .init by decide),
    dhcpLoop_cons (show DhcpState.request ≠ .bound by decide), hturn₂, dhcpLoop_of_bound rfl]

/-- Success is an address. -/
theorem dhcpSetup_fst (d : Dhcp) (ticks : List Tick) :
    (dhcpSetup d ticks).1 = true ↔ (dhcpLoop (dhcpStart d) ticks).1.card.myip.get 0 ≠ 0 := by
  unfold dhcpSetup dhcpFsm
  dsimp only
  split
  · rename_i hne
    exact iff_of_true rfl hne
  · rename_i heq
    exact iff_of_false nofun heq

/-- **The exchange**: a server that answers the discovery with an offer, and the request for it with
an acknowledgement, gives the card the address and whatever else the offer held, whenever the
answers come and whatever would follow; and the card has asked for just that address, of just that
server. -/
theorem dhcp_exchange (hport : d.card.hisport ≠ DHCP_DEST_PORT) {t₀ t₁ t₂ : Tick}
    {quiet₁ quiet₂ : List Tick} (rest : List Tick) (hup₀ : t₀.linkUp = true)
    (hup₁ : t₁.linkUp = true) (hup₂ : t₂.linkUp = true) (hquiet₁ : ∀ i ∈ quiet₁, Quiet i)
    (hquiet₂ : ∀ i ∈ quiet₂, Quiet i) {yiaddr siaddr yiaddr' siaddr' : Ip}
    {options options' : List (Byte × Bytes)} {s₀ s₁ : Bytes}
    (hs₀ : s₀ ∈ (dhcpTurn (dhcpStart d) t₀).2)
    (hoffer : AnsweredBy DHCP_MSG_DISCOVER s₀ t₁.frame DHCP_MSG_OFFER yiaddr siaddr options)
    (hs₁ : s₁ ∈ (dhcpTurn (dhcpTurn (dhcpStart d) t₀).1 t₁).2)
    (hack : AnsweredBy DHCP_MSG_REQUEST s₁ t₂.frame DHCP_MSG_ACK yiaddr' siaddr' options')
    (hlong : ∀ o ∈ options, o.1 ∈ readCodes → 4 ≤ o.2.length) (hyi : yiaddr.get 0 ≠ 0) :
    let ticks := t₀ :: (quiet₁ ++ t₁ :: (quiet₂ ++ t₂ :: rest))
    let got := taught (started (dhcpStart d) t₀) yiaddr siaddr options
    (dhcpSetup d ticks).1 = true ∧
      (dhcpLoop (dhcpStart d) ticks).1 = { got with dhcpState := .bound, leaseStart := t₂.now } ∧
      got.card.myip = yiaddr ∧ got.card.serverip = siaddr ∧
      ∃ dgram m, receiveUdp s₁ = some dgram ∧ readDhcp dgram.payload = some m ∧
        (50, yiaddr.toList) ∈ m.options ∧ (54, got.dhcpip.toList) ∈ m.options := by
  intro ticks got
  have hname := dhcpStart_hostname d
  obtain ⟨hmyip, hserver, -, -, hxid, hhost⟩ :=
    taught_fixed (started (dhcpStart d) t₀) yiaddr siaddr options
  have hnamed : got.hostname.length ≤ 15 := by
    rw [hhost]
    exact hname
  -- the answers carry the number of the discovery
  rw [dhcpTurn_start (d := dhcpStart d) rfl hup₀] at hs₀ hs₁
  have hreply₁ := hoffer.reply hs₀ hname
  rw [dhcpTurn_offer (d := started (dhcpStart d) t₀) hreply₁ hlong hup₁ rfl rfl hport] at hs₁
  have hreply₂ := hack.reply hs₁ hnamed
  rw [hxid] at hreply₂
  have hloop : (dhcpLoop (dhcpStart d) ticks).1
      = { got with dhcpState := .bound, leaseStart := t₂.now } :=
    dhcpLoop_exchange hport rest hup₀ hup₁ hup₂ hquiet₁ hquiet₂ hreply₁ hreply₂ hlong
  refine ⟨?_, hloop, hmyip, hserver, ?_⟩
  · rw [dhcpSetup_fst, hloop]
    show got.card.myip.get 0 ≠ 0
    rw [hmyip]
    exact hyi
  · have hasks := request_asks hs₁ hnamed
    rw [hmyip] at hasks
    exact hasks

/-- A card that has been switched on. -/
def sampleClient : Dhcp := { sampleDhcp with card := { sampleCard with myip := allZeros } }

/-- The turns in which it sends a discovery and hears an offer and an acknowledgement. -/
def sampleStart : Tick := ⟨true, true, ⟨fun _ => 0xff, 0⟩, 1, 2⟩

def sampleTick (type : Byte) : Tick := ⟨true, true, sampleReply type, 3, 4⟩

/-- A server that reads what the card sends, and answers it. -/
theorem answeredBy_sampleReply {request type : Byte} {s : Bytes} {flg : Bool} {b : Nat → Byte}
    (hxid : d.currentXid = 0x10002) (hname : d.hostname.length ≤ 15)
    (hs : s ∈ dhcpSend d true b request flg) :
    AnsweredBy request s (sampleReply type) type sampleOffered sampleCard.gwip sampleOptions := by
  obtain ⟨frame, payload, hsent, -, hreceived, hread⟩ := dhcpSend_frame hname b request flg
  rw [hsent, List.mem_singleton] at hs
  subst hs
  refine ⟨_, _, hreceived, hread, ?_, ?_⟩
  · unfold requestOptions
    simp
  · rw [hxid]
    exact reply_sampleReply type

/-- The exchange with it, of any card. -/
def sampleTicks : List Tick := [sampleStart, sampleTick DHCP_MSG_OFFER, sampleTick DHCP_MSG_ACK]

theorem dhcpLoop_sampleTicks (hport : d.card.hisport ≠ DHCP_DEST_PORT) :
    (dhcpLoop (dhcpStart d) sampleTicks).1
      = { taught (started (dhcpStart d) sampleStart) sampleOffered sampleCard.gwip
            sampleOptions with
          dhcpState := .bound, leaseStart := 3 } := by
  have hlong : ∀ o ∈ sampleOptions, o.1 ∈ readCodes → 4 ≤ o.2.length := by decide
  have hquiet : ∀ i ∈ ([] : List Tick), Quiet i := nofun
  have hxid : (sampleStart.now <<< 16) + sampleStart.now' = 0x10002 := by decide
  have hup : ∀ type, (sampleTick type).linkUp = true := fun _ => rfl
  exact dhcpLoop_exchange hport [] (show sampleStart.linkUp = true from rfl)
    (hup DHCP_MSG_OFFER) (hup DHCP_MSG_ACK) hquiet hquiet
    (hxid ▸ reply_sampleReply DHCP_MSG_OFFER) (hxid ▸ reply_sampleReply DHCP_MSG_ACK) hlong

theorem currentXid_sample : (started (dhcpStart sampleClient) sampleStart).currentXid = 0x10002 := by
  decide

theorem dhcp_exchange_sample :
    ∃ d, (dhcpLoop (dhcpStart sampleClient)
        (sampleStart :: ([] ++ sampleTick DHCP_MSG_OFFER ::
          ([] ++ [sampleTick DHCP_MSG_ACK])))).1 = d ∧
      d.dhcpState = .bound ∧ d.card.myip = sampleOffered := by
  have hname := dhcpStart_hostname sampleClient
  have hport : sampleClient.card.hisport ≠ DHCP_DEST_PORT := by decide
  have hlong : ∀ o ∈ sampleOptions, o.1 ∈ readCodes → 4 ≤ o.2.length := by decide
  set first := started (dhcpStart sampleClient) sampleStart with hfirst
  set second := taught first sampleOffered sampleCard.gwip sampleOptions with hsecond
  obtain ⟨-, -, -, -, hxid, hhost⟩ := taught_fixed first sampleOffered sampleCard.gwip sampleOptions
  have hturn₀ := dhcpTurn_start (d := dhcpStart sampleClient) (i := sampleStart) rfl rfl
  have hturn₁ := dhcpTurn_offer (d := first) (i := sampleTick DHCP_MSG_OFFER)
    (reply_sampleReply DHCP_MSG_OFFER) hlong rfl rfl currentXid_sample hport
  obtain ⟨s₀, -, hs₀, -⟩ := dhcpSend_frame (d := { first with dhcpState := .init, leaseStart := 0 })
    hname sampleStart.frame.buffer DHCP_MSG_DISCOVER true
  obtain ⟨s₁, -, hs₁, -⟩ := dhcpSend_frame (d := second) (hhost ▸ hname)
    (sampleTick DHCP_MSG_OFFER).frame.buffer DHCP_MSG_REQUEST false
  have hmem₀ := hs₀ ▸ List.mem_singleton_self s₀
  have hmem₁ := hs₁ ▸ List.mem_singleton_self s₁
  have hin₀ : s₀ ∈ (dhcpTurn (dhcpStart sampleClient) sampleStart).2 := by
    rw [hturn₀]
    exact hmem₀
  have hin₁ : s₁ ∈ (dhcpTurn (dhcpTurn (dhcpStart sampleClient) sampleStart).1
      (sampleTick DHCP_MSG_OFFER)).2 := by
    rw [hturn₀, hturn₁]
    exact hmem₁
  have hoffer : AnsweredBy DHCP_MSG_DISCOVER s₀ (sampleTick DHCP_MSG_OFFER).frame DHCP_MSG_OFFER
      sampleOffered sampleCard.gwip sampleOptions :=
    answeredBy_sampleReply currentXid_sample hname hmem₀
  have hack : AnsweredBy DHCP_MSG_REQUEST s₁ (sampleTick DHCP_MSG_ACK).frame DHCP_MSG_ACK
      sampleOffered sampleCard.gwip sampleOptions :=
    answeredBy_sampleReply (hxid.trans currentXid_sample) (hhost ▸ hname) hmem₁
  have hquiet : ∀ i ∈ ([] : List Tick), Quiet i := nofun
  obtain ⟨-, hloop, hmyip, -⟩ := dhcp_exchange hport [] rfl rfl rfl hquiet hquiet hin₀ hoffer hin₁
    hack hlong (by decide)
  exact ⟨_, hloop, rfl, hmyip⟩

end C64Iec.Ether

import C64Iec.Ether.DhcpExchange

set_option autoImplicit false

/-! # Runs of DHCP

A client of DHCP by itself is in a `Phase`, which its conversation so far decides: its last discovery
and the packets it has heard since. `dhcp_fsm` is in that phase after any run, whatever packets
arrive (`dhcpLoop_agrees`). So it has a lease exactly when all it has heard is an offer and an
acknowledgement (`dhcpLoop_bound_iff`), and it reports success when an address has been offered,
acknowledged or not (`dhcpSetup_true_iff`). An offer is here a packet in which
`check_for_dhcp_answer` finds that type (`answerType`), whatever its sender has meant; so is an
acknowledgement.
-/

namespace C64Iec.Ether

open Lib
open Client (IP_PROTO_P UDP_DATA_P IP_PROTO_UDP_V Frame)

/-! ## Conversations -/

/-- A discovery, and the packets of UDP that have come since: the type that `check_for_dhcp_answer`
finds in each, and the buffer. -/
structure Conversation where
  xid : UInt32
  heard : List (Option Byte × (Nat → Byte))

inductive Event where
  | start (xid : UInt32)
  | heard (type : Option Byte) (b : Nat → Byte)

/-- The conversation goes on, or a new one starts. -/
def note : Option Conversation → Event → Option Conversation
  | _, .start xid => some ⟨xid, []⟩
  | none, .heard _ _ => none
  | some c, .heard type b => some { c with heard := c.heard ++ [(type, b)] }

inductive Phase where
  /-- about to start; an offer that was not acknowledged has left its address -/
  | idle (stale : Option (Nat → Byte))
  | selecting (xid : UInt32)
  | requesting (xid : UInt32) (offer : Nat → Byte)
  | bound (xid : UInt32) (offer : Nat → Byte)

/-- The phase behind an offer. -/
def phaseOfOffer (xid : UInt32) (offer : Nat → Byte) : List (Option Byte × (Nat → Byte)) → Phase
  | [] => .requesting xid offer
  | [(type, _)] => if type = some DHCP_MSG_ACK then .bound xid offer else .idle (some offer)
  | _ => .idle (some offer)

def phase : Option Conversation → Phase
  | none => .idle none
  | some ⟨xid, []⟩ => .selecting xid
  | some ⟨xid, (type, offer) :: rest⟩ =>
      if type = some DHCP_MSG_OFFER then phaseOfOffer xid offer rest else .idle none

theorem phase_offer (xid : UInt32) (offer : Nat → Byte)
    (rest : List (Option Byte × (Nat → Byte))) :
    phase (some ⟨xid, (some DHCP_MSG_OFFER, offer) :: rest⟩) = phaseOfOffer xid offer rest := by
  rw [phase, if_pos rfl]

theorem phase_other {xid : UInt32} {type : Option Byte} {b : Nat → Byte}
    {rest : List (Option Byte × (Nat → Byte))} (h : type ≠ some DHCP_MSG_OFFER) :
    phase (some ⟨xid, (type, b) :: rest⟩) = .idle none := by
  rw [phase, if_neg h]

/-- What the phase tells of the conversation. -/
def Told : Phase → Option Conversation → Prop
  | .idle _, _ => True
  | .selecting xid, c => c = some ⟨xid, []⟩
  | .requesting xid offer, c => c = some ⟨xid, [(some DHCP_MSG_OFFER, offer)]⟩
  | .bound xid offer, c =>
      ∃ ack, c = some ⟨xid, [(some DHCP_MSG_OFFER, offer), (some DHCP_MSG_ACK, ack)]⟩

theorem told_phase (c : Option Conversation) : Told (phase c) c := by
  rcases c with _ | ⟨xid, _ | ⟨⟨type, offer⟩, rest⟩⟩
  · trivial
  · rfl
  · by_cases htype : type = some DHCP_MSG_OFFER
    · subst htype
      rw [phase_offer]
      rcases rest with _ | ⟨⟨type, ack⟩, _ | ⟨next, rest⟩⟩
      · rfl
      · rw [phaseOfOffer]
        split
        · rename_i hack
          exact ⟨ack, by rw [hack]⟩
        · trivial
      · trivial
    · rw [phase_other htype]
      trivial

/-- The address a phase has in use. -/
def Phase.address : Phase → Ip
  | .idle none | .selecting _ => allZeros
  | .idle (some offer) | .requesting _ offer | .bound _ offer => ipAt offer (UDP_DATA_P + 16)

theorem phaseOfOffer_address (xid : UInt32) (offer : Nat → Byte)
    (rest : List (Option Byte × (Nat → Byte))) :
    (phaseOfOffer xid offer rest).address = ipAt offer (UDP_DATA_P + 16) := by
  unfold phaseOfOffer
  split
  · rfl
  · split <;> rfl
  · rfl

/-- An address is in use when the conversation began with an offer. -/
theorem phase_address (c : Option Conversation) :
    (phase c).address = allZeros ∧
        (∀ xid offer rest, c ≠ some ⟨xid, (some DHCP_MSG_OFFER, offer) :: rest⟩) ∨
      ∃ xid offer rest, c = some ⟨xid, (some DHCP_MSG_OFFER, offer) :: rest⟩ ∧
        (phase c).address = ipAt offer (UDP_DATA_P + 16) := by
  rcases c with _ | ⟨xid, _ | ⟨⟨type, offer⟩, rest⟩⟩
  · exact .inl ⟨rfl, fun _ _ _ h => by cases h⟩
  · exact .inl ⟨rfl, fun _ _ _ h => by cases h⟩
  · by_cases htype : type = some DHCP_MSG_OFFER
    · subst htype
      exact .inr ⟨xid, offer, rest, rfl, phaseOfOffer_address xid offer rest⟩
    · refine .inl ⟨?_, ?_⟩
      · rw [phase_other htype]
        rfl
      · rintro _ _ _ h
        cases h
        exact htype rfl

/-! ## What `dhcp_fsm` hears -/

/-- The event of a turn. -/
def eventOf (d : Dhcp) (i : Tick) : Option Event :=
  (dhcpReceive d i).2.2.map fun b =>
    if d.dhcpState = .init then .start ((i.now <<< 16) + i.now')
    else .heard (answerType d.currentXid b i.frame.plen) b

/-- The conversation of a run of the loop, from what it was before. -/
def conversation (d : Dhcp) (c : Option Conversation) : List Tick → Option Conversation
  | [] => c
  | i :: is =>
      if d.dhcpState = .bound then c else
      conversation (dhcpTurn d i).1 ((eventOf d i).elim c (note c)) is

/-- `dhcp_fsm` is in the phase. -/
def Agrees (d : Dhcp) (p : Phase) : Prop :=
  d.card.myip = p.address ∧
    match p with
    | .idle _ => d.dhcpState = .init
    | .selecting xid => d.dhcpState = .select ∧ d.currentXid = xid
    | .requesting xid offer => d.dhcpState = .request ∧ d.currentXid = xid ∧
        d.card.serverip = ipAt offer (UDP_DATA_P + 20)
    | .bound xid offer => d.dhcpState = .bound ∧ d.currentXid = xid ∧
        d.card.serverip = ipAt offer (UDP_DATA_P + 20)

/-- What comes before the `switch` changes no address. -/
theorem dhcpReceive_card (d : Dhcp) (i : Tick) :
    ∃ e, (dhcpReceive d i).1 = { d with card := e } ∧ SameAddresses d.card e := by
  have hsame := (packetLoop_learns i.linkUp d.card i.frame).same
  unfold dhcpReceive
  split
  · exact ⟨d.card, rfl, .refl _⟩
  · split
    · exact ⟨d.card, rfl, .refl _⟩
    · split
      · exact ⟨d.card, rfl, .refl _⟩
      · dsimp only
        split
        · exact ⟨_, rfl, hsame⟩
        · exact ⟨_, rfl, hsame⟩

theorem Agrees.card {d : Dhcp} {p : Phase} (h : Agrees d p) {e : EtherCard}
    (hsame : SameAddresses d.card e) : Agrees { d with card := e } p := by
  obtain ⟨hip, hstate⟩ := h
  refine ⟨hsame.myip.trans hip, ?_⟩
  cases p with
  | idle stale => exact hstate
  | selecting xid => exact hstate
  | requesting xid offer => exact ⟨hstate.1, hstate.2.1, hsame.serverip.trans hstate.2.2⟩
  | bound xid offer => exact ⟨hstate.1, hstate.2.1, hsame.serverip.trans hstate.2.2⟩

/-- What `parse_dhcpoffer` takes from the fixed part; the options touch neither. -/
theorem parseDhcpoffer_fixed (d : Dhcp) (b : Nat → Byte) (len : Nat) :
    (parseDhcpoffer d b len).card.myip = ipAt b (UDP_DATA_P + 16) ∧
      (parseDhcpoffer d b len).card.serverip = ipAt b (UDP_DATA_P + 20) ∧
      (parseDhcpoffer d b len).currentXid = d.currentXid := by
  unfold parseDhcpoffer
  refine walk_invariant (I := fun s : Dhcp => s.card.myip = ipAt b (UDP_DATA_P + 16) ∧
    s.card.serverip = ipAt b (UDP_DATA_P + 20) ∧ s.currentXid = d.currentXid) ?_ _ ⟨rfl, rfl, rfl⟩
  intro s code q hs
  unfold learnOption
  split_ifs <;> exact hs

/-! ## A turn -/

variable {d : Dhcp} {i : Tick} {b : Nat → Byte} {xid : UInt32} {offer : Nat → Byte}

theorem agrees_switch_init (h : d.dhcpState = .init) :
    Agrees (dhcpSwitch d i b).1 (.selecting ((i.now <<< 16) + i.now')) := by
  unfold dhcpSwitch
  rw [h]
  exact ⟨rfl, rfl, rfl⟩

theorem agrees_switch_select (h : Agrees d (.selecting xid)) :
    Agrees (dhcpSwitch d i b).1 (phase (some ⟨xid, [(answerType xid b i.frame.plen, b)]⟩)) := by
  obtain ⟨hip, hstate, hxid⟩ := h
  have hcheck := check_select (d := d) b i.frame.plen
  rw [hxid] at hcheck
  unfold dhcpSwitch
  rw [hstate]
  dsimp only
  by_cases htype : answerType xid b i.frame.plen = some DHCP_MSG_OFFER
  · obtain ⟨hmyip, hserver, hkept⟩ := parseDhcpoffer_fixed d b i.frame.plen
    rw [if_pos (hcheck.mpr htype), htype, phase_offer]
    exact ⟨hmyip, rfl, hkept.trans hxid, hserver⟩
  · rw [if_neg (mt hcheck.mp htype), phase_other htype]
    exact ⟨hip, rfl⟩

theorem agrees_switch_request (h : Agrees d (.requesting xid offer)) :
    Agrees (dhcpSwitch d i b).1 (phase (some ⟨xid, [(some DHCP_MSG_OFFER, offer),
      (answerType xid b i.frame.plen, b)]⟩)) := by
  obtain ⟨hip, hstate, hxid, hserver⟩ := h
  have hcheck := check_request hstate b i.frame.plen
  rw [hxid] at hcheck
  unfold dhcpSwitch
  rw [hstate, phase_offer]
  dsimp only [phaseOfOffer]
  by_cases htype : answerType xid b i.frame.plen = some DHCP_MSG_ACK
  · rw [if_pos (hcheck.mpr htype), if_pos htype]
    exact ⟨hip, rfl, hxid, hserver⟩
  · rw [if_neg (mt hcheck.mp htype), if_neg htype]
    exact ⟨hip, rfl⟩

/-- **A turn of the loop** that is entered takes the phase along. -/
theorem agrees_turn {c : Option Conversation} (h : Agrees d (phase c))
    (hopen : d.dhcpState ≠ .bound) :
    Agrees (dhcpTurn d i).1 (phase ((eventOf d i).elim c (note c))) := by
  obtain ⟨e, hcard, hsame⟩ := dhcpReceive_card d i
  have hreceived := h.card hsame
  rw [← hcard] at hreceived
  have hstate : (dhcpReceive d i).1.dhcpState = d.dhcpState := by rw [hcard]
  have hxid : (dhcpReceive d i).1.currentXid = d.currentXid := by rw [hcard]
  unfold dhcpTurn eventOf
  rcases hresult : dhcpReceive d i with ⟨d', sent, none | b⟩
  · rw [hresult] at hreceived
    exact hreceived
  · rw [hresult] at hreceived hstate hxid
    dsimp only at hreceived hstate hxid ⊢
    have htold := told_phase c
    rw [Option.map_some, Option.elim_some]
    generalize hp : phase c = p at htold hreceived
    cases p with
    | idle stale =>
        have hinit := hreceived.2
        rw [if_pos (hstate.symm.trans hinit)]
        exact agrees_switch_init hinit
    | selecting xid =>
        obtain ⟨hselect, hcurrent⟩ := hreceived.2
        rw [if_neg (by rw [← hstate, hselect]; decide), htold, ← hxid, hcurrent]
        exact agrees_switch_select hreceived
    | requesting xid offer =>
        obtain ⟨hrequest, hcurrent, -⟩ := hreceived.2
        rw [if_neg (by rw [← hstate, hrequest]; decide), htold, ← hxid, hcurrent]
        exact agrees_switch_request hreceived
    | bound xid offer => exact absurd (hstate.symm.trans hreceived.2.1) hopen

/-! ## A run -/

/-- **The loop follows its conversation**: after any run it is in the phase that this decides. -/
theorem dhcpLoop_agrees {c : Option Conversation} (h : Agrees d (phase c)) (ticks : List Tick) :
    Agrees (dhcpLoop d ticks).1 (phase (conversation d c ticks)) := by
  induction ticks generalizing d c with
  | nil => exact h
  | cons i is ih =>
      unfold dhcpLoop conversation
      split
      · exact h
      · rename_i hopen
        exact ih (agrees_turn h hopen)

/-! ### Where a conversation comes from -/

/-- The conversation is made of what came in these turns. -/
structure Comes (ticks : List Tick) (c : Conversation) : Prop where
  started : ∃ i ∈ ticks, c.xid = (i.now <<< 16) + i.now'
  heard : ∀ h ∈ c.heard, ∃ i ∈ ticks, ∃ e, h.2 = (packetLoop i.linkUp e i.frame).buffer ∧
    h.1 = answerType c.xid h.2 i.frame.plen

theorem Comes.mono {ticks ticks' : List Tick} {c : Conversation} (h : Comes ticks c)
    (hsub : ticks ⊆ ticks') : Comes ticks' c := by
  constructor
  · obtain ⟨i, hi, hxid⟩ := h.started
    exact ⟨i, hsub hi, hxid⟩
  · intro x hx
    obtain ⟨i, hi, hfrom⟩ := h.heard x hx
    exact ⟨i, hsub hi, hfrom⟩

/-- A buffer that reaches the `switch` in a state that waits is what `packetLoop` has left of the
turn's packet. -/
theorem buffer_of_dhcpReceive (h : (dhcpReceive d i).2.2 = some b) (hstate : d.dhcpState ≠ .init) :
    b = (packetLoop i.linkUp d.card i.frame).buffer := by
  unfold dhcpReceive at h
  rw [if_neg hstate] at h
  split at h
  · cases h
  · split at h
    · cases h
    · dsimp only at h
      split at h
      · cases h
      · exact (Option.some.inj h).symm

theorem comes_turn {past : List Tick} {c : Option Conversation} (h : Agrees d (phase c))
    (hopen : d.dhcpState ≠ .bound) (hcomes : ∀ conv ∈ c, Comes past conv) :
    ∀ conv ∈ (eventOf d i).elim c (note c), Comes (past ++ [i]) conv := by
  have hkept : ∀ conv ∈ c, Comes (past ++ [i]) conv :=
    fun conv hconv => (hcomes conv hconv).mono (List.subset_append_left _ _)
  unfold eventOf
  rcases hb : (dhcpReceive d i).2.2 with _ | b
  · exact hkept
  · rw [Option.map_some, Option.elim_some]
    split
    · rintro conv hconv
      obtain rfl := Option.some.inj hconv
      exact ⟨⟨i, List.mem_append_right _ (List.mem_singleton_self i), rfl⟩, nofun⟩
    · rename_i hstate
      rcases c with _ | conv
      · nofun
      · -- the packet is taken for an answer to the conversation's own discovery
        have hxid : d.currentXid = conv.xid := by
          have htold := told_phase (some conv)
          generalize phase (some conv) = p at h htold
          cases p with
          | idle stale => exact absurd h.2 hstate
          | selecting xid =>
              obtain rfl := Option.some.inj htold
              exact h.2.2
          | requesting xid offer =>
              obtain rfl := Option.some.inj htold
              exact h.2.2.1
          | bound xid offer => exact absurd h.2.1 hopen
        rintro conv' hconv'
        obtain rfl := Option.some.inj hconv'
        obtain ⟨hstarted, hheard⟩ := hkept conv rfl
        refine ⟨hstarted, fun x hx => ?_⟩
        rcases List.mem_append.mp hx with hx | hx
        · exact hheard x hx
        · obtain rfl := List.mem_singleton.mp hx
          exact ⟨i, List.mem_append_right _ (List.mem_singleton_self i), d.card,
            buffer_of_dhcpReceive hb hstate, by rw [hxid]⟩

theorem comes_run {past : List Tick} {c : Option Conversation} (h : Agrees d (phase c))
    (hcomes : ∀ conv ∈ c, Comes past conv) (ticks : List Tick) :
    ∀ conv ∈ conversation d c ticks, Comes (past ++ ticks) conv := by
  induction ticks generalizing d c past with
  | nil =>
      rw [List.append_nil]
      exact hcomes
  | cons i is ih =>
      unfold conversation
      split
      · exact fun conv hconv => (hcomes conv hconv).mono (List.subset_append_left _ _)
      · rename_i hopen
        have hrest := ih (agrees_turn (i := i) h hopen) (comes_turn h hopen hcomes)
        rw [List.append_assoc] at hrest
        exact hrest

/-! ### What a run comes to -/

theorem agrees_init (hstate : d.dhcpState = .init) (hip : d.card.myip = allZeros) :
    Agrees d (phase none) := ⟨hip, hstate⟩

/-- The lease that a run has got: an offer and an acknowledgement are found, both in answer to its
last discovery, each in a packet of the run. -/
structure Lease (d : Dhcp) (ticks : List Tick) (xid : UInt32) (offer ack : Nat → Byte) : Prop where
  comes : Comes ticks ⟨xid, [(some DHCP_MSG_OFFER, offer), (some DHCP_MSG_ACK, ack)]⟩
  currentXid : d.currentXid = xid
  myip : d.card.myip = ipAt offer (UDP_DATA_P + 16)
  serverip : d.card.serverip = ipAt offer (UDP_DATA_P + 20)

/-- **A lease takes an offer and an acknowledgement**: the loop is bound exactly when the packets of
UDP since its last discovery are two in which these are found, in answer to it, and then it has the
addresses of the first. -/
theorem dhcpLoop_bound_iff (hstate : d.dhcpState = .init) (hip : d.card.myip = allZeros)
    (ticks : List Tick) :
    (dhcpLoop d ticks).1.dhcpState = .bound ↔
      ∃ xid offer ack, conversation d none ticks
          = some ⟨xid, [(some DHCP_MSG_OFFER, offer), (some DHCP_MSG_ACK, ack)]⟩ ∧
        Lease (dhcpLoop d ticks).1 ticks xid offer ack := by
  have hagrees := dhcpLoop_agrees (agrees_init hstate hip) ticks
  have hcomes : ∀ conv ∈ conversation d none ticks, Comes ([] ++ ticks) conv :=
    comes_run (agrees_init hstate hip) nofun ticks
  rw [List.nil_append] at hcomes
  constructor
  · intro hbound
    have htold := told_phase (conversation d none ticks)
    generalize phase (conversation d none ticks) = p at hagrees htold
    cases p with
    | idle stale => exact absurd (hbound.symm.trans hagrees.2) (by decide)
    | selecting xid => exact absurd (hbound.symm.trans hagrees.2.1) (by decide)
    | requesting xid offer => exact absurd (hbound.symm.trans hagrees.2.1) (by decide)
    | bound xid offer =>
        obtain ⟨ack, htold⟩ := htold
        obtain ⟨hmyip, -, hxid, hserver⟩ := hagrees
        exact ⟨xid, offer, ack, htold, hcomes _ htold, hxid, hmyip, hserver⟩
  · rintro ⟨xid, offer, ack, hconversation, -⟩
    rw [hconversation, phase_offer, phaseOfOffer, if_pos rfl] at hagrees
    exact hagrees.2.1

theorem dhcpLoop_bound_iff_sample :
    ∃ xid offer ack, conversation (dhcpStart sampleClient) none
        (sampleStart :: ([] ++ sampleTick DHCP_MSG_OFFER :: ([] ++ [sampleTick DHCP_MSG_ACK])))
      = some ⟨xid, [(some DHCP_MSG_OFFER, offer), (some DHCP_MSG_ACK, ack)]⟩ := by
  have hloop := dhcpLoop_sampleTicks (d := sampleClient) (by decide)
  obtain ⟨xid, offer, ack, hconversation, -⟩ :=
    (dhcpLoop_bound_iff (d := dhcpStart sampleClient) rfl rfl _).mp
      (congrArg Dhcp.dhcpState hloop)
  exact ⟨xid, offer, ack, hconversation⟩

/-- **Success is an address**: `dhcpSetup` returns true exactly when an offer of an address is found
in the first packet of UDP since the last discovery, which need not have been acknowledged. -/
theorem dhcpSetup_true_iff (hip : d.card.myip = allZeros) (ticks : List Tick) :
    (dhcpSetup d ticks).1 = true ↔
      ∃ xid offer rest, conversation (dhcpStart d) none ticks
          = some ⟨xid, (some DHCP_MSG_OFFER, offer) :: rest⟩ ∧
        (ipAt offer (UDP_DATA_P + 16)).get 0 ≠ 0 := by
  have hagrees := dhcpLoop_agrees (agrees_init (d := dhcpStart d) rfl hip) ticks
  rw [dhcpSetup_fst, hagrees.1]
  rcases phase_address (conversation (dhcpStart d) none ticks) with ⟨hzero, hnone⟩ | hoffer
  · rw [hzero]
    refine iff_of_false (fun hne => hne rfl) ?_
    rintro ⟨xid, offer, rest, hconversation, -⟩
    exact hnone xid offer rest hconversation
  · obtain ⟨xid, offer, rest, hconversation, haddress⟩ := hoffer
    rw [haddress, hconversation]
    constructor
    · exact fun hne => ⟨xid, offer, rest, rfl, hne⟩
    · rintro ⟨xid', offer', rest', heq, hne⟩
      cases heq
      exact hne

/-- Time is up before the acknowledgement. -/
theorem dhcpSetup_true_iff_sample :
    (dhcpLoop (dhcpStart sampleClient) [sampleStart, sampleTick DHCP_MSG_OFFER]).1.dhcpState
        = .request ∧
      ∃ xid offer rest, conversation (dhcpStart sampleClient) none
          [sampleStart, sampleTick DHCP_MSG_OFFER]
        = some ⟨xid, (some DHCP_MSG_OFFER, offer) :: rest⟩ := by
  have hport : sampleClient.card.hisport ≠ DHCP_DEST_PORT := by decide
  have hlong : ∀ o ∈ sampleOptions, o.1 ∈ readCodes → 4 ≤ o.2.length := by decide
  have hloop : (dhcpLoop (dhcpStart sampleClient) [sampleStart, sampleTick DHCP_MSG_OFFER]).1
      = { taught (started (dhcpStart sampleClient) sampleStart) sampleOffered sampleCard.gwip
          sampleOptions with dhcpState := .request } := by
    rw [dhcpLoop_cons (show DhcpState.init ≠ .bound by decide),
      dhcpTurn_start (d := dhcpStart sampleClient) rfl rfl,
      dhcpLoop_cons (show DhcpState.select ≠ .bound by decide),
      dhcpTurn_offer (reply_sampleReply DHCP_MSG_OFFER) hlong rfl rfl currentXid_sample hport]
    rfl
  have htrue : (dhcpSetup sampleClient [sampleStart, sampleTick DHCP_MSG_OFFER]).1 = true := by
    obtain ⟨hmyip, -⟩ := taught_fixed (started (dhcpStart sampleClient) sampleStart)
      sampleOffered sampleCard.gwip sampleOptions
    rw [dhcpSetup_fst, hloop]
    show (taught (started (dhcpStart sampleClient) sampleStart) sampleOffered sampleCard.gwip
      sampleOptions).card.myip.get 0 ≠ 0
    rw [hmyip]
    decide
  obtain ⟨xid, offer, rest, hconversation, -⟩ :=
    (dhcpSetup_true_iff (d := sampleClient) rfl _).mp htrue
  exact ⟨congrArg Dhcp.dhcpState hloop, xid, offer, rest, hconversation⟩

end C64Iec.Ether

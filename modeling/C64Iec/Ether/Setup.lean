import C64Iec.Ether.DhcpExchange

set_option autoImplicit false

/-! # Power-up

`setup` gets an address by DHCP, asks for the Ethernet address of the server that the offer has
named, once, and waits. Which packets end a run of it, and with which address of the server, is
`setup_finds`. When the server answers, the datagrams of the sketch reach it from then on, in every
run that overruns no buffer (`setup_reaches`).
-/

namespace C64Iec.Ether

open Lib
open Client (UDP_DATA_P Frame Input Datagram Proper RunWithinBounds afterTurns datagrams)

/-! ## `setup` -/

/-- `while (!ether.serverMacKnown ()) ether.packetLoop (ether.packetReceive ())`, with the link and
the frame of each turn. -/
def fetchServerMac (e : EtherCard) : List (Bool × Frame) → EtherCard × List Bytes
  | [] => (e, [])
  | (linkUp, f) :: turns =>
      if e.servermacKnown then (e, []) else
      let r := packetLoop linkUp e f
      let (e, sent) := fetchServerMac r.e turns
      (e, r.sent ++ sent)

/-- What `setup` leaves, what it has sent, and whether its waiting is over. -/
structure Setup where
  dhcpActive : Bool
  dhcp : Dhcp
  sent : List Bytes
  ended : Bool

/-- `setup ()`, with what comes while it gets an address and while it waits for the server. -/
def setup (d : Dhcp) (ticks : List Tick) (b : Nat → Byte) (turns : List (Bool × Frame)) : Setup :=
  let (ok, d, sent) := dhcpSetup d ticks
  if !ok then ⟨false, d, sent, true⟩ else
  let question := clientArpWhohas d.card b d.card.serverip
  let (e, sent') := fetchServerMac question.e turns
  ⟨true, { d with card := e }, sent ++ question.sent ++ sent', e.servermacKnown⟩

/-! ## While it gets an address -/

/-- The Ethernet address at which a turn's packet says that the server is, by the addresses that the
card has in that turn. -/
def heard (d : Dhcp) (i : Tick) : Option Mac :=
  if i.linkUp = true ∧ d.dhcpState ≠ .init then serverClaim d.card i.frame else none

/-- What is heard in the turns of the loop, one after another. -/
def heardClaims (d : Dhcp) : List Tick → List Mac
  | [] => []
  | i :: is =>
      if d.dhcpState = .bound then []
      else (heard d i).toList ++ heardClaims (dhcpTurn d i).1 is

/-- What the card has learned of its server is `claim`, whatever has become of the IP addresses. -/
structure Hears (e : EtherCard) (claim : Option Mac) (e' : EtherCard) : Prop where
  addr : e'.servermacaddr = claim.getD e.servermacaddr
  known : e'.servermacKnown = (e.servermacKnown || claim.isSome)

theorem Hears.refl (e : EtherCard) : Hears e none e := ⟨rfl, (Bool.or_false _).symm⟩

theorem Learns.hears {e e' : EtherCard} {claim : Option Mac} (h : Learns e claim e') :
    Hears e claim e' := ⟨h.addr, h.known⟩

theorem Hears.trans {e e' e'' : EtherCard} {claim claim' : Option Mac} (h : Hears e claim e')
    (h' : Hears e' claim' e'') : Hears e (claim'.or claim) e'' := by
  cases claim' with
  | none =>
      refine ⟨h'.addr.trans h.addr, ?_⟩
      rw [h'.known, h.known]
      simp
  | some mac =>
      refine ⟨h'.addr, ?_⟩
      rw [h'.known]
      simp

theorem hears_parseDhcpoffer (d : Dhcp) (b : Nat → Byte) (len : Nat) :
    Hears d.card none (parseDhcpoffer d b len).card := by
  have hstart : Hears d.card none { d.card with myip := ipAt b (UDP_DATA_P + 16),
                                                serverip := ipAt b (UDP_DATA_P + 20) } :=
    ⟨rfl, (Bool.or_false _).symm⟩
  refine walk_invariant (I := fun s : Dhcp => Hears d.card none s.card) ?_ _ hstart
  intro s code q h
  unfold learnOption
  split_ifs
  · exact h
  · exact ⟨h.addr, h.known⟩
  · exact h
  · exact h
  · exact h
  · exact h

/-- A message teaches nothing of the server's Ethernet address. -/
theorem hears_dhcpSwitch (d : Dhcp) (i : Tick) (b : Nat → Byte) :
    Hears d.card none (dhcpSwitch d i b).1.card := by
  unfold dhcpSwitch
  dsimp only
  split
  · exact ⟨rfl, (Bool.or_false _).symm⟩
  · split
    · exact hears_parseDhcpoffer d b i.frame.plen
    · exact .refl d.card
  · split <;> exact .refl d.card
  · exact .refl d.card
  · split <;> exact .refl d.card
  · split <;> exact .refl d.card
  · exact .refl d.card

theorem hears_dhcpReceive (d : Dhcp) (i : Tick) :
    Hears d.card (heard d i) (dhcpReceive d i).1.card := by
  have hlearns := (packetLoop_learns i.linkUp d.card i.frame).hears
  unfold heard dhcpReceive
  cases hup : i.linkUp with
  | false => exact .refl d.card
  | true =>
      rw [hup] at hlearns
      by_cases hinit : d.dhcpState = .init
      · simp only [hinit, ne_eq, not_true_eq_false, and_false, if_false]
        exact .refl d.card
      · simp only [hinit, Bool.not_true, Bool.false_eq_true, if_false, ne_eq, not_false_eq_true,
          and_self, if_true]
        split
        · rename_i hplen
          rw [serverClaim_of_not_arp (not_arp_of_plen hplen _)]
          exact .refl d.card
        · split <;> exact hlearns

theorem hears_dhcpTurn (d : Dhcp) (i : Tick) :
    Hears d.card (heard d i) (dhcpTurn d i).1.card := by
  have hreceive := hears_dhcpReceive d i
  unfold dhcpTurn
  split
  · rename_i heq
    rw [heq] at hreceive
    exact hreceive
  · rename_i d₁ sent b heq
    rw [heq] at hreceive
    exact hreceive.trans (hears_dhcpSwitch d₁ i b)

/-- The last claim that was heard in the loop is what the card knows. -/
theorem hears_dhcpLoop (d : Dhcp) (ticks : List Tick) :
    Hears d.card (heardClaims d ticks).getLast? (dhcpLoop d ticks).1.card := by
  induction ticks generalizing d with
  | nil => exact .refl d.card
  | cons i is ih =>
      unfold heardClaims dhcpLoop
      by_cases hbound : d.dhcpState = .bound
      · rw [if_pos hbound, if_pos hbound]
        exact .refl d.card
      · rw [if_neg hbound, if_neg hbound, List.getLast?_append]
        have hlast : (heard d i).toList.getLast? = heard d i := by
          cases heard d i <;> rfl
        rw [hlast]
        exact (hears_dhcpTurn d i).trans (ih (dhcpTurn d i).1)

/-! ## Waiting -/

theorem Learns.trans {e e' e'' : EtherCard} {claim : Option Mac} (h : Learns e none e')
    (h' : Learns e' claim e'') : Learns e claim e'' := by
  refine ⟨h.same.trans h'.same, ?_, ?_⟩
  · rw [h'.addr, h.addr]
    rfl
  · rw [h'.known, h.known]
    simp

theorem fetchServerMac_known {e : EtherCard} (h : e.servermacKnown = true)
    (turns : List (Bool × Frame)) : fetchServerMac e turns = (e, []) := by
  cases turns with
  | nil => rfl
  | cons t turns => rw [fetchServerMac, if_pos h]

/-- The first claim ends the waiting, and nothing else does. -/
theorem fetchServerMac_learns {e : EtherCard} (h : e.servermacKnown = false)
    (turns : List (Bool × Frame)) :
    Learns e (turns.findSome? fun t => serverClaim e t.2) (fetchServerMac e turns).1 := by
  induction turns generalizing e with
  | nil => exact .nothing e
  | cons t turns ih =>
      obtain ⟨linkUp, f⟩ := t
      have hstep := packetLoop_learns linkUp e f
      rw [fetchServerMac, if_neg (Bool.eq_false_iff.mp h), List.findSome?_cons]
      dsimp only
      cases hclaim : serverClaim e f with
      | some mac =>
          rw [hclaim] at hstep
          have hknown : (packetLoop linkUp e f).e.servermacKnown = true :=
            hstep.known.trans (Bool.or_true _)
          rw [fetchServerMac_known hknown]
          exact hstep
      | none =>
          rw [hclaim] at hstep
          have hunknown : (packetLoop linkUp e f).e.servermacKnown = false := by
            rw [hstep.known, h]
            rfl
          have hrest := ih hunknown
          simp only [serverClaim_congr hstep.same] at hrest
          exact hstep.trans hrest

/-- The card with the addresses that DHCP has set. -/
def addressed (d : Dhcp) (ticks : List Tick) : EtherCard := (dhcpSetup d ticks).2.1.card

variable {d : Dhcp} {ticks : List Tick}

/-- Asking teaches nothing. -/
theorem clientArpWhohas_learns (e : EtherCard) (b : Nat → Byte) (ip : Ip) :
    Learns e none (clientArpWhohas e b ip).e :=
  ⟨⟨rfl, rfl, rfl, rfl, rfl⟩, rfl, (Bool.or_false _).symm⟩

/-- The card behind the waiting. -/
def waited (d : Dhcp) (ticks : List Tick) (b : Nat → Byte) (turns : List (Bool × Frame)) :
    EtherCard × List Bytes :=
  fetchServerMac (clientArpWhohas (addressed d ticks) b (addressed d ticks).serverip).e turns

theorem setup_failed (h : (dhcpSetup d ticks).1 = false) (b : Nat → Byte)
    (turns : List (Bool × Frame)) :
    setup d ticks b turns = ⟨false, (dhcpSetup d ticks).2.1, (dhcpSetup d ticks).2.2, true⟩ := by
  unfold setup
  dsimp only
  rw [h, Bool.not_false, if_pos rfl]

theorem setup_addressed (h : (dhcpSetup d ticks).1 = true) (b : Nat → Byte)
    (turns : List (Bool × Frame)) :
    setup d ticks b turns
      = ⟨true, { (dhcpSetup d ticks).2.1 with card := (waited d ticks b turns).1 },
          (dhcpSetup d ticks).2.2
            ++ (clientArpWhohas (addressed d ticks) b (addressed d ticks).serverip).sent
            ++ (waited d ticks b turns).2,
          (waited d ticks b turns).1.servermacKnown⟩ := by
  unfold setup
  dsimp only
  rw [h, Bool.not_true, if_neg Bool.false_ne_true]
  rfl

/-- What the card learns while it waits: the first claim, if it did not know its server. -/
theorem waited_learns (d : Dhcp) (ticks : List Tick) (b : Nat → Byte)
    (turns : List (Bool × Frame)) :
    Learns (addressed d ticks)
      (if (addressed d ticks).servermacKnown then none
        else turns.findSome? fun t => serverClaim (addressed d ticks) t.2)
      (waited d ticks b turns).1 := by
  have hasked := clientArpWhohas_learns (addressed d ticks) b (addressed d ticks).serverip
  have hstill := hasked.known.trans (Bool.or_false _)
  unfold waited
  split
  · rename_i hknown
    rw [fetchServerMac_known (hstill.trans hknown)]
    exact hasked
  · rename_i hunknown
    have hwaits := fetchServerMac_learns (hstill.trans (Bool.eq_false_iff.mpr hunknown)) turns
    simp only [serverClaim_congr hasked.same] at hwaits
    exact hasked.trans hwaits

theorem hears_addressed (d : Dhcp) (ticks : List Tick) :
    Hears d.card (heardClaims (dhcpStart d) ticks).getLast? (addressed d ticks) := by
  have hloop := hears_dhcpLoop (dhcpStart d) ticks
  unfold addressed dhcpSetup dhcpFsm
  dsimp only
  split_ifs
  · exact ⟨hloop.addr, hloop.known⟩
  · exact hloop
  · exact hloop

/-- Where the packets of a run say that the server is: the last that was heard of it while the card
got its address, or else the first while it waits. -/
def foundServer (d : Dhcp) (ticks : List Tick) (turns : List (Bool × Frame)) : Option Mac :=
  (heardClaims (dhcpStart d) ticks).getLast?.or
    (turns.findSome? fun t => serverClaim (addressed d ticks) t.2)

/-- **A run of `setup`** from power-up ends exactly when it got no address or a packet has told where
the server is, and then that is what the card has for it. So it waits for ever when the one answer
is lost. What was heard counts even if the offer it was heard under has been given up. -/
theorem setup_finds (hunknown : d.card.servermacKnown = false) (b : Nat → Byte)
    (turns : List (Bool × Frame)) :
    ((setup d ticks b turns).ended = true ↔
        (dhcpSetup d ticks).1 = false ∨ (foundServer d ticks turns).isSome = true) ∧
      ((dhcpSetup d ticks).1 = true → (setup d ticks b turns).dhcp.card.servermacaddr
        = (foundServer d ticks turns).getD d.card.servermacaddr) := by
  cases hok : (dhcpSetup d ticks).1 with
  | false => simp [setup_failed hok]
  | true =>
      have hheard := hears_addressed d ticks
      have hknown := hheard.known
      have hwaits := waited_learns d ticks b turns
      rw [hunknown, Bool.false_or] at hknown
      rw [hknown] at hwaits
      rw [setup_addressed hok]
      dsimp only
      rw [hwaits.known, hwaits.addr, hknown, hheard.addr]
      unfold foundServer
      cases (heardClaims (dhcpStart d) ticks).getLast? with
      | some mac => simp
      | none => simp

/-- A card that has been switched on and knows no server. -/
def sampleNewClient : Dhcp :=
  { sampleClient with card := { sampleClient.card with servermacKnown := false } }

/-- What the exchange of the sample leaves. -/
theorem addressed_sample : (dhcpSetup sampleNewClient sampleTicks).1 = true ∧
    (addressed sampleNewClient sampleTicks).serverip = sampleServer.myip ∧
      (addressed sampleNewClient sampleTicks).servermacKnown = false := by
  have hloop := dhcpLoop_sampleTicks (d := sampleNewClient) (by decide)
  constructor
  · rw [dhcpSetup_fst, hloop]
    decide
  · unfold addressed dhcpSetup dhcpFsm
    dsimp only
    rw [hloop]
    decide

/-- The answer of the sample's server. -/
theorem exists_answer_sample : ∃ reply,
    serverClaim (addressed sampleNewClient sampleTicks) (frameOf reply)
      = some sampleServer.mymac := by
  obtain ⟨-, hserver, -⟩ := addressed_sample
  obtain ⟨question, -, hasks⟩ := asksFor_clientArpWhohas (addressed sampleNewClient sampleTicks)
    (fun _ => 0) sampleServer.myip
  have hq := holds_frameOf question
  obtain ⟨reply, -, hanswer⟩ := hasks.answered hq true
  exact ⟨reply, hanswer.claims hasks hserver.symm hq (holds_frameOf reply)⟩

/-- Without an answer there is no end; with one, behind a packet that is for somebody else, there
is. -/
theorem setup_finds_sample : ∃ reply,
    (setup sampleNewClient sampleTicks (fun _ => 0) []).ended = false ∧
      (setup sampleNewClient sampleTicks (fun _ => 0)
        [(true, sampleFrame), (true, frameOf reply)]).ended = true ∧
      (setup sampleNewClient sampleTicks (fun _ => 0)
        [(true, sampleFrame), (true, frameOf reply)]).dhcp.card.servermacaddr
          = sampleServer.mymac := by
  obtain ⟨hok, -, hunknown⟩ := addressed_sample
  obtain ⟨reply, hclaim⟩ := exists_answer_sample
  have hfresh : sampleNewClient.card.servermacKnown = false := rfl
  have hunheard : (heardClaims (dhcpStart sampleNewClient) sampleTicks).getLast? = none := by
    have hknown := (hears_addressed sampleNewClient sampleTicks).known
    rw [hunknown, hfresh, Bool.false_or] at hknown
    exact Option.isNone_iff_eq_none.mp (Option.isSome_eq_false_iff.mp hknown.symm)
  have hquiet : serverClaim (addressed sampleNewClient sampleTicks) sampleFrame = none :=
    serverClaim_of_not_arp (by simpa [Client.isMyIp] using carries_sampleFrame.isMyIp _)
  have hfound : foundServer sampleNewClient sampleTicks [(true, sampleFrame), (true, frameOf reply)]
      = some sampleServer.mymac := by
    rw [foundServer, hunheard, Option.none_or]
    simp only [List.findSome?_cons, hquiet, hclaim]
  have hnone : foundServer sampleNewClient sampleTicks [] = none := by
    rw [foundServer, hunheard]
    rfl
  obtain ⟨hends, hmac⟩ :=
    setup_finds hfresh (fun _ => 0) [(true, sampleFrame), (true, frameOf reply)]
  have hwaits : (setup sampleNewClient sampleTicks (fun _ => 0) []).ended = true ↔ _ :=
    (setup_finds hfresh (fun _ => 0) []).1
  rw [hnone, hok] at hwaits
  have hmac' := hmac hok
  rw [hfound] at hends hmac'
  refine ⟨reply, ?_, hends.mpr (Or.inr rfl), hmac'⟩
  simpa using hwaits

/-! ## Reaching the server -/

/-- When the server has answered, the waiting is over and has come to the right address. -/
theorem waited_finds {mac : Mac} {turns : List (Bool × Frame)}
    (hknown : (addressed d ticks).servermacKnown = true → (addressed d ticks).servermacaddr = mac)
    (hothers : ∀ t ∈ turns, ∀ mac' ∈ serverClaim (addressed d ticks) t.2, mac' = mac)
    (hclaim : ∃ t ∈ turns, (serverClaim (addressed d ticks) t.2).isSome) (b : Nat → Byte) :
    SameAddresses (addressed d ticks) (waited d ticks b turns).1 ∧
      (waited d ticks b turns).1.servermacKnown = true ∧
      (waited d ticks b turns).1.servermacaddr = mac := by
  have hlearns := waited_learns d ticks b turns
  refine ⟨hlearns.same, ?_⟩
  rw [hlearns.known, hlearns.addr]
  cases h : (addressed d ticks).servermacKnown with
  | true => exact ⟨rfl, hknown h⟩
  | false =>
      rw [if_neg Bool.false_ne_true, Bool.false_or]
      have hfirst := List.findSome?_isSome_iff.mpr hclaim
      obtain ⟨mac', hmac'⟩ := Option.isSome_iff_exists.mp hfirst
      obtain ⟨t, ht, htold⟩ := List.exists_of_findSome?_eq_some hmac'
      exact ⟨hfirst, by rw [hmac', Option.getD_some, hothers t ht mac' htold]⟩

/-- Whatever the sketch sends in a run, with this card, reaches `server`, as long as no block overruns
its buffers. -/
def Reaches (e server : EtherCard) : Prop :=
  ∀ (turns : List Input) (i : Input), RunWithinBounds e.myip.toList (turns ++ [i]) →
    ∀ dg ∈ datagrams ((afterTurns e.myip.toList turns).step e.myip.toList i).2, ∀ b,
      receiveUdp (sendUdp e b dg.payload dg.sport e.serverip dg.dport).2
        = some ⟨server.mymac.toList, e.mymac.toList, e.myip.toList, server.myip.toList, dg.sport,
            dg.dport, dg.payload⟩

theorem reaches_of {e server : EtherCard} (hip : server.myip = e.serverip)
    (hmac : e.servermacaddr = server.mymac) (hunicast : server.myip.get 0 &&& 0xF0 ≠ 0xE0) :
    Reaches e server := by
  intro turns i hbounds dg hdg b
  have hdst : udpDst e e.serverip = server.mymac.toList := by
    rw [udpDst, ← hip, if_neg (show ¬server.myip[0] &&& 0xF0 = 0xE0 from hunicast), hmac]
  have harrives := arrives_of_proper e ((Client.turned_of_run hbounds).2 dg hdg) b
  rw [harrives.received, hdst, hip]

/-- **From power-up to the transfers**: once the card has got an address, its one question makes
the card at the server's address answer, and when that answer comes and nobody else claims the
address, then `setup` ends, and whatever the sketch sends from then on reaches the server: in every
run of it that overruns no buffer, and whatever other frames come meanwhile. -/
theorem setup_reaches (hok : (dhcpSetup d ticks).1 = true) {server : EtherCard}
    (hip : server.myip = (addressed d ticks).serverip)
    (hunicast : server.myip.get 0 &&& 0xF0 ≠ 0xE0)
    (hknown : (addressed d ticks).servermacKnown = true →
      (addressed d ticks).servermacaddr = server.mymac) (b : Nat → Byte) (linkUp : Bool) :
    ∃ question, AsksFor (addressed d ticks) server.myip question ∧
      (∀ turns, question ∈ (setup d ticks b turns).sent) ∧
      ∀ q, Holds q question → ∃ reply, (packetLoop linkUp server q).sent = [reply] ∧
        ∀ turns : List (Bool × Frame), (∃ t ∈ turns, Holds t.2 reply) →
          (∀ t ∈ turns, ∀ mac ∈ serverClaim (addressed d ticks) t.2, mac = server.mymac) →
          (setup d ticks b turns).ended = true ∧ (setup d ticks b turns).dhcpActive = true ∧
            (setup d ticks b turns).dhcp.card.myip = (addressed d ticks).myip ∧
            ∀ calls : List (Call (addressed d ticks).myip.toList),
              (∀ mac ∈ serverClaims (addressed d ticks) calls, mac = server.mymac) →
              Reaches (calls.foldl Call.next (setup d ticks b turns).dhcp.card) server := by
  obtain ⟨question, hsent, hasks⟩ :=
    asksFor_clientArpWhohas (addressed d ticks) b (addressed d ticks).serverip
  have hasksServer : AsksFor (addressed d ticks) server.myip question := hip ▸ hasks
  refine ⟨question, hasksServer, fun turns => ?_, fun q hq => ?_⟩
  · rw [setup_addressed hok, hsent]
    simp
  · obtain ⟨reply, hreply, hanswer⟩ := hasksServer.answered hq linkUp
    refine ⟨reply, hreply, ?_⟩
    rintro turns ⟨t, ht, hr⟩ hothers
    have hclaim : serverClaim (addressed d ticks) t.2 = some server.mymac :=
      hanswer.claims hasksServer hip hq hr
    obtain ⟨hsame, hfound, haddr⟩ :=
      waited_finds hknown hothers ⟨t, ht, hclaim ▸ rfl⟩ b
    rw [setup_addressed hok]
    refine ⟨hfound, rfl, hsame.myip, fun calls hcalls => ?_⟩
    have hclaims : ∀ mac ∈ serverClaims (waited d ticks b turns).1 calls, mac = server.mymac := by
      unfold serverClaims at hcalls ⊢
      simp only [serverClaim_congr hsame]
      exact hcalls
    obtain ⟨hlater, -, hmac⟩ := calls_agree hclaims (.inl ⟨hfound, haddr⟩)
    exact reaches_of (hip.trans (hsame.trans hlater).serverip.symm) hmac hunicast

theorem setup_reaches_sample : ∃ reply,
    (setup sampleNewClient sampleTicks (fun _ => 0) [(true, frameOf reply)]).ended = true ∧
      Reaches (setup sampleNewClient sampleTicks (fun _ => 0) [(true, frameOf reply)]).dhcp.card
        sampleServer := by
  obtain ⟨hok, hserver, hunknown⟩ := addressed_sample
  obtain ⟨question, hasks, -, hreaches⟩ := setup_reaches hok hserver.symm (by decide)
    (fun hknown => absurd (hunknown.symm.trans hknown) Bool.false_ne_true) (fun _ => 0) true
  have hq := holds_frameOf question
  obtain ⟨reply, hreply, hends⟩ := hreaches _ hq
  obtain ⟨reply', hreply', hanswer⟩ := hasks.answered hq true
  obtain rfl : reply = reply' := (List.cons.inj (hreply.symm.trans hreply')).1
  have hclaim := hanswer.claims hasks hserver.symm hq (holds_frameOf reply)
  have hothers : ∀ t ∈ [(true, frameOf reply)],
      ∀ mac ∈ serverClaim (addressed sampleNewClient sampleTicks) t.2,
        mac = sampleServer.mymac := by
    intro t ht mac hmac
    rw [List.mem_singleton.mp ht, hclaim] at hmac
    exact (Option.some.inj hmac).symm
  obtain ⟨hended, -, -, hcalls⟩ :=
    hends _ ⟨_, List.mem_singleton_self _, holds_frameOf reply⟩ hothers
  exact ⟨reply, hended, hcalls [] nofun⟩

end C64Iec.Ether

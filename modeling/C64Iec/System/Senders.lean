import C64Iec.Server.Turn
import C64Iec.System.Session

set_option autoImplicit false

/-! # Who a session listens to

`wait_ack` and `wait_data` do not look at the sender of a datagram. So a session takes whatever
arrives as if its client had sent it (`run_withSender`), and what it sends goes to its client all
the same (`Started.run`).
-/

namespace C64Iec.Session

open Lib Server

variable {s s' : Session} {A B : Addr}

/-! ## Runs of a session -/

/-- A datagram arrives, or nothing for five seconds. -/
def meet (s : Session) : Daemon.Event → Except RubyError Session
  | .datagram sender data => s.receive sender data
  | .silence => .ok s.silence

def run (s : Session) : List Daemon.Event → Except RubyError Session
  | [] => .ok s
  | e :: es => do
      let s ← s.meet e
      s.run es

/-- The object of a session that has started. -/
def tftp? : Session → Option Server.Tftp
  | listening _ => none
  | active t => some t
  | ended t => some t

def isEnded : Session → Bool
  | ended _ => true
  | _ => false

/-- What can be seen of a session: what it has sent, and the devices. -/
def outcome (s : Session) : List (Addr × Bytes) × Option (Nat → Option Device) :=
  (s.sent, s.tftp?.map Server.Tftp.devices)

/-- The datagram, sent by `A`. -/
def withSender (A : Addr) : Daemon.Event → Daemon.Event
  | .datagram _ data => .datagram A data
  | .silence => .silence

/-- Whether `B` has sent the datagram. -/
def isFrom (B : Addr) : Daemon.Event → Bool
  | .datagram sender _ => sender = B
  | .silence => false

/-! ## The client -/

/-- The session has been started by `A`, and has sent to nobody else. -/
structure Started (A : Addr) (s : Session) : Prop where
  client : ∃ t, s.tftp? = some t ∧ t.client = A
  sent : ∀ p ∈ s.sent, p.1 = A

theorem started_after {t : Server.Tftp} (hclient : t.client = A) (hsent : ∀ p ∈ t.sent, p.1 = A) :
    Started A (after t) := by
  unfold after
  split
  · exact ⟨⟨t, rfl, hclient⟩, hsent⟩
  · exact ⟨⟨t, rfl, hclient⟩, hsent⟩

/-- What is sent in one turn goes to the client. -/
theorem started_of_dispatch {t t' : Server.Tftp} {data : Bytes} (hclient : t.client = A)
    (hsent : ∀ p ∈ t.sent, p.1 = A) (h : t.dispatch data = .ok t') : Started A (after t') := by
  have hturn := Tftp.dispatch_turn h
  refine started_after (hturn.client.trans hclient) ?_
  rcases hturn.sent with hs | ⟨msg, hs⟩
  · rw [hs]
    exact hsent
  · rw [hs]
    intro p hp
    rcases List.mem_append.mp hp with hp | hp
    · exact hsent p hp
    · obtain rfl := List.mem_singleton.mp hp
      exact hclient

/-- The sender of the request is the client. -/
theorem started_of_request {devices : Nat → Option Device} {req : Bytes}
    (h : (listening devices).receive A req = .ok s) : Started A s := by
  obtain ⟨t, ht, h⟩ := bind_eq_ok.mp h
  cases h
  exact started_of_dispatch rfl (by simp [Server.Tftp.new]) ht

theorem Started.meet (h : Started A s) {e : Daemon.Event} (hs : s.meet e = .ok s') :
    Started A s' := by
  obtain ⟨⟨t, ht, hclient⟩, hsent⟩ := h
  cases s with
  | listening devices => cases ht
  | ended t =>
      cases e with
      | datagram sender data =>
          cases hs
          exact ⟨⟨t, rfl, by cases ht; exact hclient⟩, hsent⟩
      | silence =>
          cases hs
          exact ⟨⟨t, rfl, by cases ht; exact hclient⟩, hsent⟩
  | active t' =>
      cases ht
      cases e with
      | datagram sender data =>
          obtain ⟨t', ht', hs⟩ := bind_eq_ok.mp hs
          cases hs
          exact started_of_dispatch hclient hsent ht'
      | silence =>
          cases hs
          exact ⟨⟨t, rfl, hclient⟩, hsent⟩

/-- **Everything a session sends goes to its client**, whoever sends to it. -/
theorem Started.run : ∀ (es : List Daemon.Event) {s s' : Session}, Started A s →
    s.run es = .ok s' → Started A s'
  | [], s, s', h, hs => by
      cases hs
      exact h
  | e :: es, s, s', h, hs => by
      obtain ⟨s₁, hs₁, hs⟩ := bind_eq_ok.mp hs
      exact Started.run es (h.meet hs₁) hs

/-! ## The senders -/

theorem meet_withSender (h : Started A s) (C : Addr) (e : Daemon.Event) :
    s.meet (withSender C e) = s.meet e := by
  obtain ⟨t, ht, -⟩ := h.client
  cases s with
  | listening devices => cases ht
  | active t => cases e <;> rfl
  | ended t => cases e <;> rfl

/-- **Who sends does not matter**: the run is that of the same datagrams, all from `C`. -/
theorem run_withSender (C : Addr) : ∀ (es : List Daemon.Event) {s : Session}, Started A s →
    s.run (es.map (withSender C)) = s.run es
  | [], _, _ => rfl
  | e :: es, s, h => by
      simp only [List.map_cons, run, meet_withSender h, bind, Except.bind]
      cases hs : s.meet e with
      | error err => rfl
      | ok s₁ => exact run_withSender C es (h.meet hs)

/-- No datagram of `B` reaches the session before its end. -/
def Undisturbed (B : Addr) : Session → List Daemon.Event → Prop
  | _, [] => True
  | s, e :: es => (isFrom B e = true → s.isEnded = true) ∧
      ∀ s', s.meet e = .ok s' → Undisturbed B s' es

theorem meet_of_isEnded (h : s.isEnded = true) (e : Daemon.Event) : s.meet e = .ok s := by
  cases s with
  | listening devices => cases h
  | active t => cases h
  | ended t => cases e <;> rfl

/-- What comes after the end of the session might as well not come. -/
theorem run_filter : ∀ (es : List Daemon.Event) {s : Session}, Undisturbed B s es →
    s.run (es.filter fun e => !isFrom B e) = s.run es
  | [], _, _ => rfl
  | e :: es, s, h => by
      by_cases hB : isFrom B e = true
      · have hmeet := meet_of_isEnded (h.1 hB) e
        have hfilter : (e :: es).filter (fun e => !isFrom B e) = es.filter fun e => !isFrom B e := by
          simp [hB]
        rw [hfilter, run, hmeet, ok_bind, run_filter es (h.2 s hmeet)]
      · have hfilter : (e :: es).filter (fun e => !isFrom B e)
            = e :: es.filter fun e => !isFrom B e := by
          simp [hB]
        rw [hfilter, run, run]
        cases hs : s.meet e with
        | error err => rfl
        | ok s₁ =>
            rw [ok_bind, ok_bind]
            exact run_filter es (h.2 s₁ hs)

/-- **A session has one client, and listens to everybody.** What it sends goes to `A`, who has
sent the request. A datagram of somebody else that it takes counts as one of `A`; it is as if `B`
had sent nothing when it takes none of `B`. -/
theorem senders_ignored {devices : Nat → Option Device} {req : Bytes}
    (h : (listening devices).receive A req = .ok s) (es : List Daemon.Event) :
    (∀ s', s.run es = .ok s' → ∀ p ∈ s'.sent, p.1 = A) ∧
      s.run (es.map (withSender A)) = s.run es ∧
      (Undisturbed B s es → s.run (es.filter fun e => !isFrom B e) = s.run es) := by
  have hs := started_of_request h
  exact ⟨fun s' hrun => (hs.run es hrun).sent, run_withSender A es hs, run_filter es⟩

/-! ## A bystander's DATA -/

def sampleBystander : Addr := ⟨[10, 0, 0, 9], 4000⟩

/-- DATA of the bystander. -/
def sampleData : Daemon.Event := .datagram sampleBystander (packetBytes TFTP_DATA 1 [66])

theorem receive_sampleRequest : ∃ t nm,
    (listening sampleDevices).receive sampleClient sampleRequest = .ok (active t) ∧
      Server.Tftp.Putting 8 (ascii "A") (fun _ => True) DeviceDir.empty.dir nm [] 0 t ∧
      t.client = sampleClient ∧ t.sent = [(sampleClient, Server.Tftp.oackBytes clientOptions)] := by
  obtain ⟨t, nm, hdisp, hput, hclient, hsent⟩ := dispatch_sampleRequest
  refine ⟨t, nm, ?_, hput, hclient, hsent⟩
  rw [receive, recvfrom_sampleRequest, hdisp, ok_bind, after, Server.Tftp.waiting, hput.status]
  rfl

/-- The bystander's DATA counts as the client's. -/
theorem senders_ignored_sample : ∃ s,
    (listening sampleDevices).receive sampleClient sampleRequest = .ok s ∧
      s.run [.datagram sampleClient (packetBytes TFTP_DATA 1 [66])] = s.run [sampleData] ∧
      ∀ s', s.run [sampleData] = .ok s' → ∀ p ∈ s'.sent, p.1 = sampleClient := by
  obtain ⟨t, -, hrecv, -⟩ := receive_sampleRequest
  have h := senders_ignored (B := sampleBystander) hrecv [sampleData]
  exact ⟨active t, hrecv, h.2.1, h.1⟩

/-- **The bystander's DATA is stored** and acknowledged to the client: without it, the server has
sent the client nothing but the OACK. -/
theorem bystander_interferes : ¬∀ s,
    (listening sampleDevices).receive sampleClient sampleRequest = .ok s →
      ∀ es, (s.run es).map outcome =
        (s.run (es.filter fun e => !isFrom sampleBystander e)).map outcome := by
  intro h
  obtain ⟨t, nm, hrecv, hput, -, hsent⟩ := receive_sampleRequest
  obtain ⟨t', hdisp, hstatus, -, hsent'⟩ :=
    hput.data_last 1 (show ([66] : Bytes).length < 252 by decide) trivial
  have hmeet : (active t).meet sampleData = .ok (after t') := by
    rw [sampleData, meet, receive, recvfrom_packetBytes _ _ (by simp), hdisp, ok_bind]
    rfl
  have hended : after t' = ended t' := by
    rw [after, Server.Tftp.waiting, hstatus]
    rfl
  have hfilter : [sampleData].filter (fun e => !isFrom sampleBystander e) = [] := rfl
  have hout := h _ hrecv [sampleData]
  rw [run, hmeet, hended, hfilter] at hout
  have hsame : t'.sent = t.sent := congrArg Prod.fst (Except.ok.inj hout)
  rw [hsent'] at hsame
  exact absurd (congrArg List.length hsame) (by simp)

end C64Iec.Session

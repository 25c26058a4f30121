import C64Iec.System.LoadDelivery

set_option autoImplicit false

/-! # LOAD of a file that is not there

The session answers with an ERROR and is over, the devices being as they were. Over a network that
delivers, `send_file` then returns 0 without having put out anything (`load_refused`).
-/

namespace C64Iec

open Lib Server Client

/-! ## The server's side -/

/-- The devices have no file under the name. -/
def Refuses (devices : Nat → Option Device) (name : Bytes) : Prop :=
  ∀ dev, devices (splitDevice name).1 = some dev →
    ∃ dev', dev.openFile (splitDevice name).2 .read = .ok (false, dev')

/-- The answer to a request for a file that is not there. -/
def notFound : Bytes := packetBytes TFTP_ERROR 1 (ascii "File not found" ++ [0])

/-- A file that is not found leaves the device as it was. -/
theorem openFile_false {dev dev' : Device} {filename : Bytes}
    (h : dev.openFile filename .read = .ok (false, dev')) : dev' = dev := by
  cases dev with
  | dir d =>
      simp only [Device.openFile, DeviceDir.openFile] at h
      rcases hd : d.openRead (decode filename) with e | ⟨opened, d'⟩
      · rw [hd] at h
        cases h
      · rw [hd] at h
        cases h
        unfold DeviceDir.openRead at hd
        split at hd
        · obtain ⟨listing, -, hd⟩ := bind_eq_ok.mp hd
          cases hd
        · split at hd
          · cases hd
          · cases hd
            rfl
          · split at hd <;> cases hd
  | d64 d =>
      obtain ⟨⟨opened, d'⟩, hd, h⟩ := bind_eq_ok.mp h
      cases h
      unfold DeviceD64.openFile at hd
      dsimp only at hd
      split at hd
      · obtain ⟨listing, -, hd⟩ := bind_eq_ok.mp hd
        cases hd
      · obtain ⟨entry, -, hd⟩ := bind_eq_ok.mp hd
        cases entry with
        | none =>
            cases hd
            rfl
        | some entry =>
            obtain ⟨track, -, hd⟩ := bind_eq_ok.mp hd
            obtain ⟨sector, -, hd⟩ := bind_eq_ok.mp hd
            obtain ⟨data, -, hd⟩ := bind_eq_ok.mp hd
            cases hd

namespace Session

variable {devices : Nat → Option Device} {name : Bytes}

/-- What `packet_rrq` does with a request it has parsed, the file not being there. -/
theorem packetRrq_of_refuses {t t' : Server.Tftp} {data : Bytes}
    (hparse : t.parseRequest data = .ok t')
    (hrefuses : ∀ dev, t'.devices t'.deviceNum = some dev →
      ∃ dev', dev.openFile t'.filename .read = .ok (false, dev')) :
    t.packetRrq data = .ok (t'.sendErr 1 (ascii "File not found")) := by
  simp only [Server.Tftp.packetRrq, hparse, bind, Except.bind]
  cases hdev : t'.devices t'.deviceNum with
  | none => rfl
  | some dev =>
      obtain ⟨dev', hopen⟩ := hrefuses dev hdev
      obtain rfl := openFile_false hopen
      have hsame : t'.setDevice t'.deviceNum dev' = t' := by
        rw [Server.Tftp.setDevice, ← hdev, Function.update_eq_self]
      simp only [hopen, hsame]
      rfl

/-- The request of a LOAD ends the session with an error. -/
theorem receive_refused (h : Refuses devices name) (hname : ∀ c ∈ name, c ≠ 0)
    (hlen : name.length ≤ NAME_LIMIT) (addr : Addr) :
    ∃ t', (listening devices).receive addr (requestBytes TFTP_RRQ name) = .ok (ended t') ∧
      t'.status = .error ∧ t'.devices = devices ∧ t'.sent = [(addr, notFound)] := by
  have hop : (Server.Tftp.new devices [] addr).dispatch
        (serialize TFTP_RRQ name (ascii "octet") clientOptions)
      = ({ Server.Tftp.new devices [] addr with status := .ready } : Server.Tftp).packetRrq
        (serialize TFTP_RRQ name (ascii "octet") clientOptions) := by
    simp [Server.Tftp.dispatch, Server.Tftp.uint16_serialize, TFTP_RRQ, bind, Except.bind]
  have hparse := parseRequest_serialized
    { Server.Tftp.new devices [] addr with status := .ready } TFTP_RRQ hname
    (isMode_iff.mpr (Or.inl rfl)) clientOptions_ok
  have hdisp := hop.trans (packetRrq_of_refuses hparse h)
  rw [← requestBytes_eq] at hdisp
  have hrecv := receive_listening (recvfrom_requestBytes _ hlen) hdisp
  exact ⟨_, hrecv, rfl, rfl, rfl⟩

end Session

/-! ## The client's side -/

namespace LoadClient

variable {g : Globals} {f : Frame}

/-- An error that does not repeat a number makes `send_file` return 0. -/
theorem turn_notFound (myip : Bytes) (l : SendFile) (out : List Output)
    (hlast : g.tftp.lastblk ≠ 1) (hf : f.Carries TFTP_PORT notFound) :
    ∃ g', turn myip ⟨g, .run l, out⟩ (some f) = ⟨g', .ret false, out⟩ ∧
      g'.tftp.requestInProgress = .norq := by
  have hrecv : tftpRecvPacket myip g.tftp f
      = ({ g.tftp with
            blknum := 1
            srvport := TFTP_PORT
            lastblk := 1
            error := true
            requestInProgress := .norq }, []) := by
    rw [tftpRecvPacket_of_carries myip g.tftp hf (by decide) (by decide)]
    unfold recvDatagram
    simp [hlast, TFTP_ERROR, TFTP_OPTACK, TFTP_DATA, TFTP_ACK]
  unfold turn
  simp only [sendFileStep, ethernetProbeForPacket, hrecv, if_true, List.map_nil, List.append_nil]
  exact ⟨_, rfl, rfl⟩

end LoadClient

/-! ## The system -/

namespace LoadDelivery

/-- What is on its way: the request, the error, or nothing once both sides are through. -/
inductive Refusal (addr : Addr) (name : Bytes) (devices : Nat → Option Device) :
    LoadDelivery → Prop
  | request {c : LoadClient} (hgot : c.Got [] 0) (hlast : c.g.tftp.lastblk = 65535)
      (hrun : c.control = .run ⟨true, 0⟩) :
      Refusal addr name devices
        ⟨⟨c, .listening devices⟩, [requestDatagram TFTP_RRQ name], []⟩
  | error {c : LoadClient} {t : Server.Tftp} (hgot : c.Got [] 0)
      (hlast : c.g.tftp.lastblk = 65535) (hrun : c.control = .run ⟨true, 0⟩)
      (hstatus : t.status = .error) (hdevices : t.devices = devices)
      (hsent : t.sent = [(addr, notFound)]) :
      Refusal addr name devices ⟨⟨c, .ended t⟩, [], [(addr, notFound)]⟩
  | done {c : LoadClient} {t : Server.Tftp} (hret : c.control = .ret false)
      (hreq : c.g.tftp.requestInProgress = .norq) (hputs : puts c.out = [])
      (hstatus : t.status = .error) (hdevices : t.devices = devices)
      (hsent : t.sent = [(addr, notFound)]) : Refusal addr name devices ⟨⟨c, .ended t⟩, [], []⟩

variable {myip : Bytes} {addr : Addr} {name : Bytes} {devices : Nat → Option Device}
  {s t : LoadDelivery}

/-- The error is no DATA. -/
theorem notFound_ne_data (number : Nat) (body : Bytes) :
    notFound ≠ packetBytes TFTP_DATA number body := by
  intro h
  exact absurd (packetBytes_inj h).1 (by decide)

/-- Only the error reaches the client, and only once. -/
theorem mem_of_sent {payload : Bytes} {l : List (Addr × Bytes)} {sent : List (Addr × Bytes)}
    (hall : sent = [(addr, notFound)]) (hsent : (addr, payload) ∈ sent)
    (honce : (addr, payload) ∈ l ∨ ∃ number body, payload = packetBytes TFTP_DATA number body) :
    payload = notFound ∧ (addr, notFound) ∈ l := by
  rw [hall] at hsent
  obtain rfl : payload = notFound := congrArg Prod.snd (List.mem_singleton.mp hsent)
  rcases honce with hmem | ⟨number, body, hdata⟩
  · exact ⟨rfl, hmem⟩
  · exact absurd hdata (notFound_ne_data number body)

theorem Refusal.poll (h : Refusal addr name devices s) :
    s.afterClient (s.load.client.turn myip none) = s := by
  cases h with
  | request hgot _ _ =>
      rw [hgot.poll]
      simp [afterClient]
  | error hgot _ _ _ _ _ =>
      rw [hgot.poll]
      simp [afterClient]
  | done hret hreq hputs hstatus hdevices hsent =>
      rename_i c t
      obtain ⟨g, control, out⟩ := c
      obtain rfl : control = .ret false := hret
      simp [afterClient, LoadClient.turn, ethernetProbeForPacket]

/-- A datagram reaches the session, which can always process it. -/
theorem Refusal.toServer (h : Refusal addr name devices s) (hrefuses : Refuses devices name)
    (hname : ∀ c ∈ name, c ≠ 0) (hlen : name.length ≤ NAME_LIMIT) {p : Datagram}
    (hp : p ∈ s.toServer) :
    ∃ session, s.load.session.receive addr p.payload = .ok session ∧ p.dport = TFTP_PORT ∧
      Refusal addr name devices
        { s.afterSession session with toServer := s.toServer.erase p } := by
  cases h with
  | request hgot hlast hrun =>
      rename_i c
      obtain rfl := List.mem_singleton.mp hp
      obtain ⟨t, hrecv, hstatus, hdevices, hsent⟩ :=
        Session.receive_refused hrefuses hname hlen addr
      have hsent' : (Session.ended t).sent = (Session.listening devices).sent ++ _ := hsent
      refine ⟨_, hrecv, rfl, ?_⟩
      rw [afterSession_append hsent']
      simp only [List.nil_append, List.erase_cons_head]
      exact .error hgot hlast hrun hstatus hdevices hsent
  | error _ _ _ _ _ _ => cases hp
  | done _ _ _ _ _ _ => cases hp

/-- The error ends the call. -/
theorem error_received (myip : Bytes) {c : LoadClient} (hgot : c.Got [] 0) (hlast : c.g.tftp.lastblk = 65535)
    (hrun : c.control = .run ⟨true, 0⟩) {f : Frame} (hf : f.Carries TFTP_PORT notFound)
    (session : Session) (toClient : List (Addr × Bytes)) :
    ∃ c', afterClient ⟨⟨c, session⟩, [], toClient⟩ (c.turn myip (some f))
        = ⟨⟨c', session⟩, [], toClient⟩ ∧
      c'.control = .ret false ∧ c'.g.tftp.requestInProgress = .norq ∧ puts c'.out = [] := by
  have hputs : puts c.out = [] := by
    have hprefix := hgot.prefix_puts
    rwa [List.prefix_nil, List.map_eq_nil_iff] at hprefix
  obtain ⟨g, control, out⟩ := c
  obtain rfl : control = .run ⟨true, 0⟩ := hrun
  have hlast' : g.tftp.lastblk ≠ 1 := by
    intro heq
    exact absurd (hlast.symm.trans heq) (by decide)
  obtain ⟨g', hturn, hreq⟩ := LoadClient.turn_notFound myip ⟨true, 0⟩ out hlast' hf
  have hsame : datagrams (LoadClient.turn myip ⟨g, .run ⟨true, 0⟩, out⟩ (some f)).out
      = datagrams out ++ [] := by rw [hturn, List.append_nil]
  rw [afterClient_append hsame, hturn]
  exact ⟨_, rfl, rfl, hreq, hputs⟩

/-- A frame reaches the client. -/
theorem Refusal.toClient (h : Refusal addr name devices s) {f : Frame} {payload : Bytes}
    (hsent : (addr, payload) ∈ s.load.session.sent)
    (honce : (addr, payload) ∈ s.toClient ∨
      ∃ number body, payload = packetBytes TFTP_DATA number body)
    (hf : f.Carries TFTP_PORT payload) :
    Refusal addr name devices { s.afterClient (s.load.client.turn myip (some f)) with
      toClient := s.toClient.erase (addr, payload) } := by
  cases h with
  | request _ _ _ => cases hsent
  | error hgot hlast hrun hstatus hdevices hall =>
      rename_i c t
      obtain ⟨rfl, -⟩ := mem_of_sent hall hsent honce
      obtain ⟨c', hafter, hret, hreq, hputs⟩ :=
        error_received myip hgot hlast hrun hf (.ended t) [(addr, notFound)]
      rw [hafter]
      simp only [List.erase_cons_head]
      exact .done hret hreq hputs hstatus hdevices hall
  | done _ _ _ _ _ hall =>
      obtain ⟨-, hmem⟩ := mem_of_sent hall hsent honce
      cases hmem

/-- **One step** of a LOAD that is refused. -/
theorem Refusal.step (h : Refusal addr name devices s) (hrefuses : Refuses devices name)
    (hname : ∀ c ∈ name, c ≠ 0) (hlen : name.length ≤ NAME_LIMIT) (hst : Step myip addr s t) :
    Refusal addr name devices t := by
  cases hst with
  | poll =>
      rw [h.poll]
      exact h
  | toClient f payload hsent honce hf => exact h.toClient hsent honce hf
  | toServer p session hp hport hrecv =>
      obtain ⟨session', hrecv', -, hnext⟩ := h.toServer hrefuses hname hlen hp
      obtain rfl : session' = session := Except.ok.inj (hrecv'.symm.trans hrecv)
      exact hnext

theorem refusal_start {g : Globals} (hreq : g.tftp.requestInProgress = .norq)
    (hlen : g.filename.length ≤ NAME_LIMIT) (hiobuf : g.iobuf.length = IOBUF_SIZE) :
    Refusal addr g.filename devices (start g devices) := by
  obtain ⟨hgot, hout, hlast, hrun⟩ := LoadClient.got_start [] hreq hlen hiobuf
  rw [start, hout]
  exact .request hgot hlast hrun

/-- Nothing has been put out, and once `send_file` has returned all is over. -/
theorem Refusal.returned (h : Refusal addr name devices s) :
    puts s.load.client.out = [] ∧ ∀ v, s.load.client.control = .ret v →
      v = false ∧ s.load.client.g.tftp.requestInProgress = .norq ∧
        ∃ t, s.load.session = .ended t ∧ t.status = .error ∧ t.devices = devices := by
  have hnothing : ∀ c : LoadClient, c.Got [] 0 → puts c.out = [] := by
    intro c hgot
    have hprefix := hgot.prefix_puts
    rwa [List.prefix_nil, List.map_eq_nil_iff] at hprefix
  cases h with
  | request hgot hlast hrun =>
      refine ⟨hnothing _ hgot, ?_⟩
      intro v hv
      cases hrun.symm.trans hv
  | error hgot hlast hrun hstatus hdevices hall =>
      refine ⟨hnothing _ hgot, ?_⟩
      intro v hv
      cases hrun.symm.trans hv
  | done hret hreq hputs hstatus hdevices hall =>
      refine ⟨hputs, ?_⟩
      intro v hv
      exact ⟨(Control.ret.inj (hret.symm.trans hv)).symm, hreq, _, rfl, hstatus, hdevices⟩

/-- While `send_file` runs, a datagram is on its way. -/
theorem Refusal.onItsWay (h : Refusal addr name devices s) :
    ∀ l, s.load.client.control = .run l → s.toServer ≠ [] ∨ s.toClient ≠ [] := by
  intro l hl
  cases h with
  | request _ _ _ => exact Or.inl (List.cons_ne_nil _ _)
  | error _ _ _ _ _ _ => exact Or.inr (List.cons_ne_nil _ _)
  | done hret _ _ _ _ _ => cases hret.symm.trans hl

/-- What is on its way to the client can be handed over. -/
theorem Refusal.exists_toClient (h : Refusal addr name devices s) :
    ∀ p ∈ s.toClient, ∃ t, Step myip addr s t ∧ t.toClient = s.toClient.erase p := by
  intro p hp
  cases h with
  | request _ _ _ => cases hp
  | error _ _ _ _ _ hall =>
      obtain rfl := List.mem_singleton.mp hp
      have hf := Frame.carries_ofPayload TFTP_PORT notFound (by decide) (by decide)
      exact ⟨_, .toClient _ _ notFound (by simp [Session.sent, hall]) (Or.inl hp) hf, rfl⟩
  | done _ _ _ _ _ _ => cases hp

/-- A refused LOAD can come to its end. -/
theorem Refusal.exists_returned (myip : Bytes) (h : Refusal addr name devices s)
    (hrefuses : Refuses devices name) (hname : ∀ c ∈ name, c ≠ 0)
    (hlen : name.length ≤ NAME_LIMIT) :
    ∃ t, Reachable (Step myip addr) s t ∧ t.load.client.control = .ret false := by
  have herror : ∀ {c : LoadClient} {t : Server.Tftp}, c.Got [] 0 → c.g.tftp.lastblk = 65535 →
      c.control = .run ⟨true, 0⟩ → t.sent = [(addr, notFound)] →
      ∃ u, Step myip addr ⟨⟨c, .ended t⟩, [], [(addr, notFound)]⟩ u ∧
        u.load.client.control = .ret false := by
    intro c t hgot hlast hrun hall
    have hf := Frame.carries_ofPayload TFTP_PORT notFound (by decide) (by decide)
    obtain ⟨c', hafter, hret, -, -⟩ :=
      error_received myip hgot hlast hrun hf (.ended t) [(addr, notFound)]
    refine ⟨_, .toClient _ _ notFound (by simp [Session.sent, hall])
      (Or.inl (List.mem_singleton_self _)) hf, ?_⟩
    rw [hafter]
    exact hret
  cases h with
  | request hgot hlast hrun =>
      rename_i c
      obtain ⟨t, hrecv, -, -, hsent⟩ := Session.receive_refused hrefuses hname hlen addr
      have hsent' : (Session.ended t).sent = (Session.listening devices).sent ++ _ := hsent
      have hstep : Step myip addr
          ⟨⟨c, .listening devices⟩, [requestDatagram TFTP_RRQ name], []⟩ _ :=
        .toServer _ _ _ (List.mem_singleton_self _) rfl hrecv
      rw [afterSession_append hsent'] at hstep
      simp only [List.nil_append, List.erase_cons_head] at hstep
      obtain ⟨u, hstep', hret⟩ := herror hgot hlast hrun hsent
      exact ⟨u, .head hstep (.single hstep'), hret⟩
  | error hgot hlast hrun _ _ hall =>
      obtain ⟨u, hstep, hret⟩ := herror hgot hlast hrun hall
      exact ⟨u, .single hstep, hret⟩
  | done hret _ _ _ _ _ => exact ⟨_, .refl, hret⟩

/-- **LOAD of a file that is not there.** Over a network that delivers nothing is ever put out;
while `send_file` runs a datagram is on its way, and each one that is can be handed over; once it
has returned it has returned 0, no request is in progress, and the session is over with the devices
as they were. -/
theorem load_refused {g : Globals} (hreq : g.tftp.requestInProgress = .norq)
    (hlen : g.filename.length ≤ NAME_LIMIT) (hiobuf : g.iobuf.length = IOBUF_SIZE)
    (hrefuses : Refuses devices g.filename)
    (h : Reachable (Step myip addr) (start g devices) s) :
    puts s.load.client.out = [] ∧
      (∀ l, s.load.client.control = .run l → s.toServer ≠ [] ∨ s.toClient ≠ []) ∧
      (∀ p ∈ s.toServer, ∃ t, Step myip addr s t ∧ t.toServer = s.toServer.erase p) ∧
      (∀ p ∈ s.toClient, ∃ t, Step myip addr s t ∧ t.toClient = s.toClient.erase p) ∧
      (∀ v, s.load.client.control = .ret v →
        v = false ∧ s.load.client.g.tftp.requestInProgress = .norq ∧
          ∃ t, s.load.session = .ended t ∧ t.status = .error ∧ t.devices = devices) := by
  have hname : ∀ c ∈ g.filename, c ≠ 0 := untilNul_ne_nul _
  have hphase : Refusal addr g.filename devices s :=
    reachable_invariant (refusal_start hreq hlen hiobuf)
      (fun _ _ hu hst => hu.step hrefuses hname hlen hst) h
  obtain ⟨hputs, hreturned⟩ := hphase.returned
  refine ⟨hputs, hphase.onItsWay, ?_, hphase.exists_toClient, hreturned⟩
  intro p hp
  obtain ⟨session, hrecv, hport, -⟩ := hphase.toServer hrefuses hname hlen hp
  exact ⟨_, .toServer s p session hp hport hrecv, rfl⟩

/-- LOAD from an empty directory, to its end: the request and the error are handed over. -/
theorem load_refused_sample :
    ∃ s, Reachable (Step [] Load.sampleAddr)
        (start Load.sampleGlobals Session.sampleDevices) s ∧
      s.load.client.control = .ret false ∧ puts s.load.client.out = [] ∧
      ∃ t, s.load.session = .ended t ∧ t.status = .error := by
  have hrefuses : Refuses Session.sampleDevices Load.sampleGlobals.filename := by
    intro dev hdev
    obtain rfl : Device.dir DeviceDir.empty = dev := Option.some.inj hdev
    exact ⟨_, rfl⟩
  have hiobuf : Load.sampleGlobals.iobuf.length = IOBUF_SIZE := List.length_replicate
  have hname : ∀ c ∈ Load.sampleGlobals.filename, c ≠ 0 := untilNul_ne_nul _
  have hstart : Refusal Load.sampleAddr Load.sampleGlobals.filename Session.sampleDevices _ :=
    refusal_start rfl (by decide) hiobuf
  obtain ⟨s, hrun, hret⟩ := hstart.exists_returned [] hrefuses hname (by decide)
  obtain ⟨hputs, -, -, -, hreturned⟩ := load_refused rfl (by decide) hiobuf hrefuses hrun
  obtain ⟨-, -, t, hended, hstatus, -⟩ := hreturned false hret
  exact ⟨s, hrun, hret, hputs, t, hended, hstatus⟩

end LoadDelivery

end C64Iec

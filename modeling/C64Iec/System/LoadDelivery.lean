import C64Iec.System.Load

set_option autoImplicit false

/-! # LOAD over a network that delivers

Here the network hands over every datagram of the client and the OACK exactly once, and every
DATA datagram at least once; copies of DATA may arrive at any time. `Phase` says what is on its
way at each moment: one datagram, until the session is over (`Phase.step`). So the transfer is
never stuck, and it ends with the whole file put out (`load_delivered`).
-/

namespace C64Iec

open Lib Server Client

/-- The system of `Load` with what has not been handed over yet. -/
structure LoadDelivery where
  load : Load
  toServer : List Datagram
  toClient : List (Addr × Bytes)

namespace LoadDelivery

/-- `send_file` has been called: its request is on the way. -/
def start (g : Globals) (devices : Nat → Option Device) : LoadDelivery where
  load := .start g devices
  toServer := datagrams (LoadClient.start g).out
  toClient := []

/-- After a turn of the client: what it has sent is on the way. -/
def afterClient (s : LoadDelivery) (c : LoadClient) : LoadDelivery where
  load := { s.load with client := c }
  toServer := s.toServer ++ (datagrams c.out).drop (datagrams s.load.client.out).length
  toClient := s.toClient

/-- After a turn of the session. -/
def afterSession (s : LoadDelivery) (session : Session) : LoadDelivery where
  load := { s.load with session := session }
  toServer := s.toServer
  toClient := s.toClient ++ session.sent.drop s.load.session.sent.length

/-- A turn of one side. A datagram that is on its way arrives and is no longer on its way; a
DATA datagram that has been sent may arrive whether it is still on its way or not. -/
inductive Step (myip : Bytes) (addr : Addr) : LoadDelivery → LoadDelivery → Prop
  | poll (s : LoadDelivery) : Step myip addr s (s.afterClient (s.load.client.turn myip none))
  | toClient (s : LoadDelivery) (f : Frame) (payload : Bytes)
      (hsent : (addr, payload) ∈ s.load.session.sent)
      (honce : (addr, payload) ∈ s.toClient ∨
        ∃ number body, payload = packetBytes TFTP_DATA number body)
      (hf : f.Carries TFTP_PORT payload) :
      Step myip addr s { s.afterClient (s.load.client.turn myip (some f)) with
        toClient := s.toClient.erase (addr, payload) }
  | toServer (s : LoadDelivery) (p : Datagram) (session : Session) (hp : p ∈ s.toServer)
      (hport : p.dport = TFTP_PORT) (hrecv : s.load.session.receive addr p.payload = .ok session) :
      Step myip addr s { s.afterSession session with toServer := s.toServer.erase p }

/-- What is on its way: the request, the OACK, the acknowledgement of block `m`, block `m`
(counted from 0), or nothing once the session is over. -/
inductive Phase (addr : Addr) (name : Bytes) (n : Nat) (src : Device) (d : Bytes) :
    LoadDelivery → Prop
  | request {c : LoadClient} {devices : Nat → Option Device} (hgot : c.Got d 0)
      (hlast : c.g.tftp.lastblk = 65535) (hs : Server.Tftp.Serves devices name n src d) :
      Phase addr name n src d ⟨⟨c, .listening devices⟩, [requestDatagram TFTP_RRQ name], []⟩
  | oack {c : LoadClient} {t : Server.Tftp} (hgot : c.Got d 0)
      (hlast : c.g.tftp.lastblk = 65535) (hserv : Server.Tftp.Serving n src d 0 t)
      (hclient : t.client = addr) (hpieces : (Session.active t).Pieces addr d 0)
      (hmem : (addr, Session.clientOack) ∈ t.sent) :
      Phase addr name n src d ⟨⟨c, .active t⟩, [], [(addr, Session.clientOack)]⟩
  | ack {c : LoadClient} {t : Server.Tftp} {m : Nat} (hgot : c.Got d m)
      (hserv : Server.Tftp.Serving n src d m t) (hclient : t.client = addr)
      (hpieces : (Session.active t).Pieces addr d m) :
      Phase addr name n src d ⟨⟨c, .active t⟩, [ackDatagram TFTP_PORT m], []⟩
  | data {c : LoadClient} {t : Server.Tftp} {m : Nat} (hgot : c.Got d m) (hm : m ≤ d.length / 256)
      (hserv : Server.Tftp.Serving n src d (m + 1) t) (hclient : t.client = addr)
      (hpieces : (Session.active t).Pieces addr d (m + 1))
      (hmem : (addr, packetBytes TFTP_DATA (m + 1) (block 256 d m)) ∈ t.sent) :
      Phase addr name n src d ⟨⟨c, .active t⟩, [],
        [(addr, packetBytes TFTP_DATA (m + 1) (block 256 d m))]⟩
  | done {c : LoadClient} {t : Server.Tftp} (hgot : c.Got d (d.length / 256 + 1))
      (hstatus : t.status = .finished) (hclosed : t.devices n = some (src.withFile .closed))
      (hpieces : (Session.ended t).Pieces addr d (d.length / 256 + 1)) :
      Phase addr name n src d ⟨⟨c, .ended t⟩, [], []⟩

variable {myip : Bytes} {addr : Addr} {name : Bytes} {n : Nat} {src : Device} {d : Bytes}
  {devices : Nat → Option Device} {s t : LoadDelivery}

/-- The client has taken some blocks at any rate. -/
theorem Phase.got (h : Phase addr name n src d s) : ∃ m, s.load.client.Got d m := by
  cases h with
  | request hgot _ _ => exact ⟨_, hgot⟩
  | oack hgot _ _ _ _ _ => exact ⟨_, hgot⟩
  | ack hgot _ _ _ => exact ⟨_, hgot⟩
  | data hgot _ _ _ _ _ => exact ⟨_, hgot⟩
  | done hgot _ _ _ => exact ⟨_, hgot⟩

/-- A poll changes nothing. -/
theorem Phase.poll (h : Phase addr name n src d s) :
    s.afterClient (s.load.client.turn myip none) = s := by
  obtain ⟨m, hgot⟩ := h.got
  rw [hgot.poll]
  simp [afterClient]

/-- The OACK is no DATA. -/
theorem clientOack_ne_data (number : Nat) (body : Bytes) :
    Session.clientOack ≠ packetBytes TFTP_DATA number body := by
  intro h
  exact absurd (packetBytes_inj h).1 (by decide)

/-- What a frame can carry that reaches the client: the OACK if it is on its way, or a block. -/
theorem payload_cases {k : Nat} {session : Session} {payload : Bytes} {l : List (Addr × Bytes)}
    (hpieces : session.Pieces addr d k) (hsent : (addr, payload) ∈ session.sent)
    (honce : (addr, payload) ∈ l ∨ ∃ number body, payload = packetBytes TFTP_DATA number body)
    (hl : (addr, Session.clientOack) ∉ l) :
    ∃ j < k, payload = packetBytes TFTP_DATA (j + 1) (block 256 d j) := by
  rcases hpieces _ hsent with hp | ⟨j, hj, hp⟩
  · obtain rfl : payload = Session.clientOack := congrArg Prod.snd hp
    rcases honce with hmem | ⟨number, body, hdata⟩
    · exact absurd hmem hl
    · exact absurd hdata (clientOack_ne_data number body)
  · exact ⟨j, hj, congrArg Prod.snd hp⟩

theorem afterClient_append {c : LoadClient} {new : List Datagram}
    (hout : datagrams c.out = datagrams s.load.client.out ++ new) :
    s.afterClient c = ⟨⟨c, s.load.session⟩, s.toServer ++ new, s.toClient⟩ := by
  simp [afterClient, hout]

theorem afterSession_append {c : LoadClient} {old session : Session} {ps : List Datagram}
    {qs new : List (Addr × Bytes)} (hout : session.sent = old.sent ++ new) :
    afterSession ⟨⟨c, old⟩, ps, qs⟩ session = ⟨⟨c, session⟩, ps, qs ++ new⟩ := by
  simp [afterSession, hout]

/-- A copy of a block the client has makes it send nothing. -/
theorem afterClient_stale {m j : Nat} (hgot : s.load.client.Got d m) (hj : j < m) {f : Frame}
    (hf : f.Carries TFTP_PORT (packetBytes TFTP_DATA (j + 1) (block 256 d j))) :
    s.afterClient (s.load.client.turn myip (some f))
      = ⟨⟨s.load.client.turn myip (some f), s.load.session⟩, s.toServer, s.toClient⟩ := by
  obtain ⟨-, hout⟩ := hgot.stale myip (Or.inl hj) hf
  rw [afterClient_append (hout.trans (List.append_nil _).symm), List.append_nil]

/-- A frame reaches the client. -/
theorem Phase.toClient (h : Phase addr name n src d s) (hd : d ≠ [])
    (hlen : d.length < 65535 * 256) {f : Frame} {payload : Bytes}
    (hsent : (addr, payload) ∈ s.load.session.sent)
    (honce : (addr, payload) ∈ s.toClient ∨
      ∃ number body, payload = packetBytes TFTP_DATA number body)
    (hf : f.Carries TFTP_PORT payload) :
    Phase addr name n src d { s.afterClient (s.load.client.turn myip (some f)) with
      toClient := s.toClient.erase (addr, payload) } := by
  cases h with
  | request hgot hlast hs => cases hsent
  | oack hgot hlast hserv hclient hpieces hmem =>
      obtain rfl : payload = Session.clientOack := by
        rcases hpieces _ hsent with hp | ⟨j, hj, -⟩
        · exact congrArg Prod.snd hp
        · exact absurd hj (Nat.not_lt_zero j)
      -- the OACK comes for the first time, so ACK 0 goes out
      obtain ⟨hgot', hout⟩ := hgot.oack myip hf
      rw [hlast, if_neg (by decide)] at hout
      rw [afterClient_append hout]
      simp only [List.nil_append, List.erase_cons_head]
      exact .ack hgot' hserv hclient hpieces
  | ack hgot hserv hclient hpieces =>
      obtain ⟨j, hj, rfl⟩ := payload_cases hpieces hsent honce List.not_mem_nil
      -- an earlier block again: nothing is sent, and the phase stays
      rw [afterClient_stale hgot hj hf]
      exact .ack (hgot.stale myip (Or.inl hj) hf).1 hserv hclient hpieces
  | data hgot hm hserv hclient hpieces hmem =>
      rename_i c t m
      obtain ⟨j, hj, rfl⟩ := payload_cases hpieces hsent honce (by
        intro hmem
        exact clientOack_ne_data _ _ (congrArg Prod.snd (List.mem_singleton.mp hmem)))
      have hdiv : d.length / 256 < 65535 := Nat.div_lt_of_lt_mul (by omega)
      -- an earlier block again, or the one that is on its way
      rcases Nat.lt_or_eq_of_le (Nat.lt_succ_iff.mp hj) with hj | rfl
      · have hne : (addr, packetBytes TFTP_DATA (m + 1) (block 256 d m))
            ≠ (addr, packetBytes TFTP_DATA (j + 1) (block 256 d j)) := by
          intro heq
          have := (packetBytes_inj (congrArg Prod.snd heq)).2.1
          omega
        rw [afterClient_stale hgot hj hf]
        rw [List.erase_of_not_mem (fun hj => hne (List.mem_singleton.mp hj).symm)]
        exact .data (hgot.stale myip (Or.inl hj) hf).1 hm hserv hclient hpieces hmem
      · obtain ⟨hgot', hout⟩ := hgot.next myip hd hm (by omega) hf
        rw [afterClient_append hout]
        simp only [List.nil_append, List.erase_cons_head]
        exact .ack hgot' hserv hclient hpieces
  | done hgot hstatus hclosed hpieces =>
      obtain ⟨j, hj, rfl⟩ := payload_cases hpieces hsent honce List.not_mem_nil
      rw [afterClient_stale hgot hj hf]
      exact .done (hgot.stale myip (Or.inl hj) hf).1 hstatus hclosed hpieces

/-- A datagram reaches the session; the session can always process it. -/
theorem Phase.toServer (h : Phase addr name n src d s) (hname : ∀ c ∈ name, c ≠ 0)
    (hlen : name.length ≤ NAME_LIMIT) {p : Datagram} (hp : p ∈ s.toServer) :
    ∃ session, s.load.session.receive addr p.payload = .ok session ∧ p.dport = TFTP_PORT ∧
      Phase addr name n src d { s.afterSession session with toServer := s.toServer.erase p } := by
  cases h with
  | request hgot hlast hs =>
      rename_i c devices'
      obtain rfl := List.mem_singleton.mp hp
      obtain ⟨t, hrecv, hserv, hclient, hsent⟩ := Session.receive_rrq hs hname hlen addr
      have hsent' : (Session.active t).sent = (Session.listening devices').sent ++ _ := hsent
      refine ⟨_, hrecv, rfl, ?_⟩
      rw [afterSession_append hsent']
      simp only [List.nil_append, List.erase_cons_head]
      refine .oack hgot hlast hserv hclient ?_ (by simp [hsent])
      intro x hx
      have hx' : x ∈ t.sent := hx
      rw [hsent] at hx'
      exact Or.inl (List.mem_singleton.mp hx')
  | oack hgot hlast hserv hclient hpieces hmem => cases hp
  | ack hgot hserv hclient hpieces =>
      rename_i c t m
      obtain rfl := List.mem_singleton.mp hp
      -- the acknowledgement of the last block ends the session
      by_cases hm : m = d.length / 256 + 1
      · obtain ⟨t', hrecv, hstatus, hclosed, hsent⟩ := Session.receive_ack_last hserv hm addr m
        have hsent' : (Session.ended t').sent = (Session.active t).sent ++ [] :=
          hsent.trans (List.append_nil _).symm
        refine ⟨_, hrecv, rfl, ?_⟩
        rw [afterSession_append hsent']
        simp only [List.append_nil, List.erase_cons_head]
        subst hm
        exact .done hgot hstatus hclosed (hpieces.of_sent_eq hsent)
      · have hle := hserv.le
        obtain ⟨t', hrecv, hserv', hclient', hsent⟩ :=
          Session.receive_ack hserv hclient (by omega) hgot.lt
        have hsent' : (Session.active t').sent = (Session.active t).sent ++ _ := hsent
        refine ⟨_, hrecv, rfl, ?_⟩
        rw [afterSession_append hsent']
        simp only [List.nil_append, List.erase_cons_head]
        exact .data hgot (by omega) hserv' hclient'
          (hpieces.add (Nat.le_succ _) hsent (Or.inr ⟨m, Nat.lt_succ_self _, rfl⟩))
          (by simp [hsent])
  | data hgot hm hserv hclient hpieces hmem => cases hp
  | done hgot hstatus hclosed hpieces => cases hp

/-- **Each step leads from a phase to a phase.** -/
theorem Phase.step (h : Phase addr name n src d s) (hd : d ≠ []) (hlen : d.length < 65535 * 256)
    (hname : ∀ c ∈ name, c ≠ 0) (hnlen : name.length ≤ NAME_LIMIT) (hst : Step myip addr s t) :
    Phase addr name n src d t := by
  cases hst with
  | poll =>
      rw [h.poll]
      exact h
  | toClient f payload hsent honce hf => exact h.toClient hd hlen hsent honce hf
  | toServer p session hp hport hrecv =>
      obtain ⟨session', hrecv', -, hphase⟩ := h.toServer hname hnlen hp
      obtain rfl : session' = session := Except.ok.inj (hrecv'.symm.trans hrecv)
      exact hphase

theorem phase_start {g : Globals} (hreq : g.tftp.requestInProgress = .norq)
    (hlen : g.filename.length ≤ NAME_LIMIT) (hiobuf : g.iobuf.length = IOBUF_SIZE)
    (hs : Server.Tftp.Serves devices g.filename n src d) :
    Phase addr g.filename n src d (start g devices) := by
  obtain ⟨hgot, hout, hlast, -⟩ := LoadClient.got_start d hreq hlen hiobuf
  rw [start, hout]
  exact .request hgot hlast hs

/-- While `send_file` runs, a datagram is on its way. -/
theorem Phase.onItsWay (h : Phase addr name n src d s) :
    ∀ l, s.load.client.control = .run l → s.toServer ≠ [] ∨ s.toClient ≠ [] := by
  intro l hl
  cases h with
  | request _ _ _ => exact Or.inl (List.cons_ne_nil _ _)
  | oack _ _ _ _ _ _ => exact Or.inr (List.cons_ne_nil _ _)
  | ack _ _ _ _ => exact Or.inl (List.cons_ne_nil _ _)
  | data _ _ _ _ _ _ => exact Or.inr (List.cons_ne_nil _ _)
  | done hgot _ _ _ => exact absurd (hgot.all.1.symm.trans hl) (by simp)

/-- What is on its way to the client can be handed over. -/
theorem Phase.exists_toClient (h : Phase addr name n src d s) :
    ∀ p ∈ s.toClient, ∃ t, Step myip addr s t ∧ t.toClient = s.toClient.erase p := by
  have hand : ∀ payload : Bytes, payload.length + 8 < 65536 →
      (addr, payload) ∈ s.load.session.sent → (addr, payload) ∈ s.toClient →
      ∃ t, Step myip addr s t ∧ t.toClient = s.toClient.erase (addr, payload) :=
    fun payload hlen hsent hp => ⟨_, .toClient s _ payload hsent (Or.inl hp)
      (Frame.carries_ofPayload TFTP_PORT payload (by decide) hlen), rfl⟩
  intro p hp
  cases h with
  | request _ _ _ => cases hp
  | oack _ _ _ _ _ hmem =>
      obtain rfl := List.mem_singleton.mp hp
      exact hand _ (by decide) hmem hp
  | ack _ _ _ _ => cases hp
  | data _ _ _ _ _ hmem =>
      rename_i c t m _ _ _ _ _
      obtain rfl := List.mem_singleton.mp hp
      have hle := block_length_le 256 d m
      exact hand _ (by rw [packetBytes_length]; omega) hmem hp
  | done _ _ _ _ => cases hp

/-- What holds once `send_file` has returned. -/
theorem Phase.returned (h : Phase addr name n src d s) :
    ∀ v, s.load.client.control = .ret v →
      v = true ∧ puts s.load.client.out = withEoi d ∧
        s.load.client.g.tftp.requestInProgress = .norq ∧
        (s.toServer = [] → ∃ t, s.load.session = .ended t ∧ t.status = .finished ∧
          t.devices n = some (src.withFile .closed)) := by
  intro v hv
  have hall : ∀ m, s.load.client.Got d m → v = true ∧ puts s.load.client.out = withEoi d ∧
      s.load.client.g.tftp.requestInProgress = .norq := by
    intro m hgot
    obtain ⟨rfl, hv'⟩ := hgot.of_ret hv
    exact ⟨hv', hgot.all.2.2, hgot.all.2.1⟩
  obtain ⟨h1, h2, h3⟩ := hall _ h.got.choose_spec
  refine ⟨h1, h2, h3, fun hnil => ?_⟩
  cases h with
  | request _ _ _ => cases hnil
  | oack hgot _ _ _ _ _ =>
      have := (hgot.of_ret hv).1
      omega
  | ack _ _ _ _ => cases hnil
  | data hgot hm _ _ _ _ =>
      have := (hgot.of_ret hv).1
      omega
  | done _ hstatus hclosed _ => exact ⟨_, rfl, hstatus, hclosed⟩

/-- **LOAD end to end.** Over a network that delivers, in every reachable state: the bytes put
out are a piece of the file from its start; while `send_file` runs a datagram is on its way, and
each one that is can be handed over; once it has returned it has returned 1 with the file put out,
EOI on its last byte alone, no request is in progress, and the session is finished and its file
closed as soon as it has processed every datagram of the client. -/
theorem load_delivered {g : Globals} (hd : d ≠ []) (hlen : d.length < 65535 * 256)
    (hreq : g.tftp.requestInProgress = .norq) (hnlen : g.filename.length ≤ NAME_LIMIT)
    (hiobuf : g.iobuf.length = IOBUF_SIZE) (hs : Server.Tftp.Serves devices g.filename n src d)
    (h : Reachable (Step myip addr) (start g devices) s) :
    (puts s.load.client.out).map Prod.fst <+: d ∧
      (∀ l, s.load.client.control = .run l → s.toServer ≠ [] ∨ s.toClient ≠ []) ∧
      (∀ p ∈ s.toServer, ∃ t, Step myip addr s t ∧ t.toServer = s.toServer.erase p) ∧
      (∀ p ∈ s.toClient, ∃ t, Step myip addr s t ∧ t.toClient = s.toClient.erase p) ∧
      (∀ v, s.load.client.control = .ret v →
        v = true ∧ puts s.load.client.out = withEoi d ∧
          s.load.client.g.tftp.requestInProgress = .norq ∧
          (s.toServer = [] → ∃ t, s.load.session = .ended t ∧ t.status = .finished ∧
            t.devices n = some (src.withFile .closed))) := by
  have hname : ∀ c ∈ g.filename, c ≠ 0 := untilNul_ne_nul _
  have hphase : Phase addr g.filename n src d s :=
    reachable_invariant (phase_start hreq hnlen hiobuf hs)
      (fun _ _ hu hst => hu.step hd hlen hname hnlen hst) h
  obtain ⟨m, hgot⟩ := hphase.got
  refine ⟨hgot.prefix_puts, hphase.onItsWay, ?_, hphase.exists_toClient, hphase.returned⟩
  intro p hp
  obtain ⟨session, hrecv, hport, -⟩ := hphase.toServer hname hnlen hp
  exact ⟨_, .toServer s p session hp hport hrecv, rfl⟩

/-! ## A run to the end -/

/-- From the acknowledgement of block `m` on, handing over what is on its way finishes the
transfer. The induction is on the blocks still to come. -/
theorem exists_completion (hd : d ≠ []) (hlen : d.length < 65535 * 256) :
    ∀ (r m : Nat) (c : LoadClient) (t : Server.Tftp), m + r = d.length / 256 + 1 → c.Got d m →
      Server.Tftp.Serving n src d m t → t.client = addr →
      ∃ s, Reachable (Step myip addr) ⟨⟨c, .active t⟩, [ackDatagram TFTP_PORT m], []⟩ s ∧
        s.load.client.control = .ret true ∧ s.toServer = []
  | 0, m, c, t, hr, hgot, hserv, hclient => by
      have hm : m = d.length / 256 + 1 := by omega
      obtain ⟨t', hrecv, -, -, hsent⟩ := Session.receive_ack_last hserv hm addr m
      refine ⟨_, .single (.toServer _ (ackDatagram TFTP_PORT m) (.ended t')
        (List.mem_singleton.mpr rfl) rfl hrecv), ?_, List.erase_cons_head _ _⟩
      subst hm
      exact hgot.all.1
  | r + 1, m, c, t, hr, hgot, hserv, hclient => by
      have hm : m ≤ d.length / 256 := by omega
      have hdiv : d.length / 256 < 65535 := Nat.div_lt_of_lt_mul (by omega)
      obtain ⟨t', hrecv, hserv', hclient', hsent⟩ :=
        Session.receive_ack hserv hclient hm hgot.lt
      -- the acknowledgement is handed over, then the block it is answered with
      have h1 : Step myip addr ⟨⟨c, .active t⟩, [ackDatagram TFTP_PORT m], []⟩ _ :=
        .toServer _ (ackDatagram TFTP_PORT m) (.active t') (List.mem_singleton.mpr rfl) rfl hrecv
      have hsent' : (Session.active t').sent = (Session.active t).sent ++ _ := hsent
      rw [afterSession_append hsent'] at h1
      simp only [List.nil_append, List.erase_cons_head] at h1
      have hf := Frame.carries_ofPayload TFTP_PORT (packetBytes TFTP_DATA (m + 1) (block 256 d m))
        (by decide) (by
          have := block_length_le 256 d m
          rw [packetBytes_length]
          omega)
      obtain ⟨hgot', hout⟩ := hgot.next myip hd hm (by omega) hf
      have h2 : Step myip addr ⟨⟨c, .active t'⟩, [],
          [(addr, packetBytes TFTP_DATA (m + 1) (block 256 d m))]⟩ _ :=
        .toClient _ _ (packetBytes TFTP_DATA (m + 1) (block 256 d m)) (by simp [Session.sent, hsent])
          (Or.inl (List.mem_singleton.mpr rfl)) hf
      rw [afterClient_append hout] at h2
      simp only [List.nil_append, List.erase_cons_head] at h2
      obtain ⟨s, hrun, hs⟩ := exists_completion hd hlen r (m + 1) _ t' (by omega) hgot' hserv'
        hclient'
      exact ⟨s, .head h1 (.head h2 hrun), hs⟩

/-- Some run finishes the transfer. -/
theorem exists_run {g : Globals} (myip : Bytes) (addr : Addr) (hd : d ≠ [])
    (hlen : d.length < 65535 * 256) (hreq : g.tftp.requestInProgress = .norq)
    (hnlen : g.filename.length ≤ NAME_LIMIT) (hiobuf : g.iobuf.length = IOBUF_SIZE)
    (hs : Server.Tftp.Serves devices g.filename n src d) :
    ∃ s, Reachable (Step myip addr) (start g devices) s ∧
      s.load.client.control = .ret true ∧ s.toServer = [] := by
  obtain ⟨hgot, hout, hlast, -⟩ := LoadClient.got_start d hreq hnlen hiobuf
  obtain ⟨t, hrecv, hserv, hclient, hsent⟩ :=
    Session.receive_rrq hs (untilNul_ne_nul _) hnlen addr
  have h1 : Step myip addr (start g devices) _ :=
    .toServer _ (requestDatagram TFTP_RRQ g.filename) (.active t)
      (by rw [start, hout]; exact List.mem_singleton.mpr rfl) rfl hrecv
  have hsent' : (Session.active t).sent = (Session.listening devices).sent ++ _ := hsent
  rw [start, Load.start, afterSession_append hsent', hout] at h1
  simp only [List.nil_append, List.erase_cons_head] at h1
  have hf := Frame.carries_ofPayload TFTP_PORT Session.clientOack (by decide) (by decide)
  obtain ⟨hgot', hout'⟩ := hgot.oack myip hf
  rw [hlast, if_neg (by decide)] at hout'
  have h2 : Step myip addr ⟨⟨.start g, .active t⟩, [], [(addr, Session.clientOack)]⟩ _ :=
    .toClient _ _ Session.clientOack (by simp [Session.sent, hsent])
      (Or.inl (List.mem_singleton.mpr rfl)) hf
  rw [afterClient_append hout'] at h2
  simp only [List.nil_append, List.erase_cons_head] at h2
  obtain ⟨s, hrun, hend⟩ := exists_completion hd hlen (d.length / 256 + 1) 0 _ t (Nat.zero_add _)
    hgot' hserv hclient
  refine ⟨s, .head ?_ (.head h2 hrun), hend⟩
  rw [start, Load.start, hout]
  exact h1

/-- A transfer of one block to its end. -/
theorem load_delivered_sample :
    ∃ s, Reachable (Step [] Load.sampleAddr)
        (start Load.sampleGlobals (Load.sampleDevices [1, 2, 3])) s ∧
      puts s.load.client.out = withEoi [1, 2, 3] ∧
      ∃ t, s.load.session = .ended t ∧ t.status = .finished := by
  have hiobuf : Load.sampleGlobals.iobuf.length = IOBUF_SIZE := List.length_replicate
  obtain ⟨s, hrun, hret, hnil⟩ := exists_run [] Load.sampleAddr (by decide) (by decide) rfl
    (by decide) hiobuf (Load.sampleDevices_serves [1, 2, 3])
  obtain ⟨-, -, -, -, hret'⟩ := load_delivered (by decide) (by decide) rfl (by decide) hiobuf
    (Load.sampleDevices_serves [1, 2, 3]) hrun
  obtain ⟨-, hputs, -, hsession⟩ := hret' true hret
  obtain ⟨t, hended, hstatus, -⟩ := hsession hnil
  exact ⟨s, hrun, hputs, t, hended, hstatus⟩

end LoadDelivery

end C64Iec

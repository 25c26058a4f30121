import C64Iec.Client.LoadClient
import C64Iec.Lib.StopAndWait
import C64Iec.System.Session

set_option autoImplicit false

/-! # LOAD over a network

`send_file` on one side, a session serving a file on the other. `Load.Step` lets the network do
as it likes: whatever one side has sent may reach the other at any time, any number of times or
never. The system simulates stop-and-wait as long as what reaches the session is in turn
(`Load.simulates`), and then the bytes put out are those of the file (`load_prefix`).
-/

namespace C64Iec

open Lib Server Client

/-! ## The client's side -/

/-- The client in `send_file`, or back in `loop`, with what it has done so far. -/
structure LoadClient where
  g : Globals
  control : Control SendFile
  out : List Output

namespace LoadClient

/-- The client once `send_file` has been called. -/
def start (g : Globals) : LoadClient :=
  let (g, out, c) := sendFileStart g
  ⟨g, c, out⟩

/-- A turn of the inner loop of `send_file` or, after its return, of `loop`. -/
def turn (myip : Bytes) (c : LoadClient) (packet : Option Frame) : LoadClient :=
  match c.control with
  | .run l =>
      let (g, out, control) := sendFileStep myip c.g l packet
      ⟨g, control, c.out ++ out⟩
  | .ret value =>
      let (t, out) := ethernetProbeForPacket myip c.g.tftp packet
      ⟨{ c.g with tftp := t }, .ret value, c.out ++ out⟩

/-- The client has taken the first `m` blocks of `d`: it is on its way, or it has returned with
everything put out. -/
inductive Got (d : Bytes) : Nat → LoadClient → Prop
  | running {m : Nat} {g : Globals} {l : SendFile} {out : List Output} (h : Receiving d m g l)
      (hputs : puts out = plain (d.take (256 * m - 1))) : Got d m ⟨g, .run l, out⟩
  | returned {g : Globals} {out : List Output} (hreq : g.tftp.requestInProgress = .norq)
      (hputs : puts out = withEoi d) (hlt : d.length / 256 + 1 < 65536) :
      Got d (d.length / 256 + 1) ⟨g, .ret true, out⟩

variable {d : Bytes} {m : Nat} {c : LoadClient} {myip : Bytes} {f : Frame}

theorem Got.lt (h : Got d m c) : m < 65536 := by
  cases h with
  | running h _ => exact h.bound
  | returned _ _ hlt => exact hlt

/-- What has been put out is a piece of the file from its start. -/
theorem Got.prefix_puts (h : Got d m c) : (puts c.out).map Prod.fst <+: d := by
  cases h with
  | running _ hputs =>
      rw [hputs, plain_map_fst]
      exact List.take_prefix _ _
  | returned _ hputs _ =>
      rw [hputs, withEoi_map_fst]

/-- A client with all the blocks has put everything out and returned. -/
theorem Got.all (h : Got d (d.length / 256 + 1) c) :
    c.control = .ret true ∧ c.g.tftp.requestInProgress = .norq ∧ puts c.out = withEoi d := by
  cases h with
  | running h _ => exact absurd h.full (by omega)
  | returned hreq hputs _ => exact ⟨rfl, hreq, hputs⟩

theorem Got.of_ret (h : Got d m c) {v : Bool} (hv : c.control = .ret v) :
    m = d.length / 256 + 1 ∧ v = true := by
  cases h with
  | running _ _ => cases hv
  | returned _ _ _ => exact ⟨rfl, (Control.ret.inj hv).symm⟩

/-- A client without a block could be loading any file. -/
theorem Got.of_zero (h : Got d 0 c) (d' : Bytes) : Got d' 0 c := by
  cases h with
  | running h hputs =>
      refine .running { h with full := Nat.zero_le _, held := ?_ } ?_
      · simpa using h.held
      · simpa using hputs

theorem got_start (d : Bytes) {g : Globals} (hreq : g.tftp.requestInProgress = .norq)
    (hname : g.filename.length ≤ NAME_LIMIT) (hiobuf : g.iobuf.length = IOBUF_SIZE) :
    Got d 0 (start g) ∧ datagrams (start g).out = [requestDatagram TFTP_RRQ g.filename] ∧
      (start g).g.tftp.lastblk = 65535 ∧ (start g).control = .run ⟨true, 0⟩ := by
  obtain ⟨g', hstart, hrecv, hlast⟩ := Receiving.start d hreq hname hiobuf
  rw [start, hstart]
  refine ⟨.running hrecv ?_, rfl, hlast, rfl⟩
  simp [puts, plain]

/-- A poll changes nothing. -/
theorem Got.poll (h : Got d m c) : c.turn myip none = c := by
  cases h with
  | running h _ => simp [turn, h.poll]
  | returned _ _ _ => simp [turn, ethernetProbeForPacket]

/-- What a returned client does with a frame. -/
theorem turn_returned {g : Globals} {out : List Output} {sport opcode number : Nat} {body : Bytes}
    (value : Bool) (hf : f.Carries sport (packetBytes opcode number body)) (hop : opcode < 65536)
    (hnum : number < 65536) :
    turn myip ⟨g, .ret value, out⟩ (some f) =
      ⟨{ g with tftp := (recvDatagram g.tftp sport opcode number body).1 }, .ret value,
        out ++ (recvDatagram g.tftp sport opcode number body).2.map .udp⟩ := by
  rw [turn, ethernetProbeForPacket, tftpRecvPacket_of_carries myip g.tftp hf hop hnum]

/-- **The OACK** brings no block. It is acknowledged as block 0, unless 0 was the number that
came last. -/
theorem Got.oack (h : Got d m c) (myip : Bytes) {sport : Nat} {body : Bytes}
    (hf : f.Carries sport (packetBytes TFTP_OPTACK 0 body)) :
    Got d m (c.turn myip (some f)) ∧
      datagrams (c.turn myip (some f)).out
        = datagrams c.out ++ if c.g.tftp.lastblk = 0 then [] else [ackDatagram sport 0] := by
  cases h with
  | running h hputs =>
      rename_i g l out
      obtain ⟨t, hstep, hrecv, -⟩ := h.oack myip hf
      simp only [turn, hstep]
      refine ⟨.running hrecv ?_, ?_⟩
      · split <;> simp [hputs]
      · split <;> simp
  | returned hreq hputs hlt =>
      rename_i g out
      obtain ⟨h1, h2⟩ := recvDatagram_norq hreq sport 0 body (show TFTP_OPTACK ≠ _ by decide)
      rw [turn_returned true hf (by decide) (by decide)]
      refine ⟨.returned h1 (by simp [hputs]) hlt, ?_⟩
      rw [datagrams_append, datagrams_map_udp, h2]
      by_cases hl : g.tftp.lastblk = 0 <;> simp [hl]

/-- **A block that is not the next one** changes nothing that counts. -/
theorem Got.stale (h : Got d m c) (myip : Bytes) {sport j : Nat} (hj : j < m ∨ j = m ∧ m = 65535)
    (hf : f.Carries sport (packetBytes TFTP_DATA (j + 1) (block 256 d j))) :
    Got d m (c.turn myip (some f)) ∧
      datagrams (c.turn myip (some f)).out = datagrams c.out := by
  rw [← packetBytes_mod] at hf
  cases h with
  | running h hputs =>
      have hm : m ≠ 0 := by omega
      have hnum : (j + 1) % 65536 ≤ m := by
        have := h.bound
        omega
      have hbody : (block 256 d j).length = TFTP_BLKSIZE ∨ m = 65535 := by
        rcases hj with hj | ⟨-, hj⟩
        · exact Or.inl (block_length_of_lt (Nat.lt_of_lt_of_le hj h.full))
        · exact Or.inr hj
      obtain ⟨t, hstep, hrecv⟩ := h.stale myip hf hm hnum hbody
      simp only [turn, hstep]
      exact ⟨.running hrecv (by simp [hputs]), by simp⟩
  | returned hreq hputs hlt =>
      obtain ⟨h1, h2⟩ := recvDatagram_norq hreq sport ((j + 1) % 65536) (block 256 d j)
        (show TFTP_DATA ≠ _ by decide)
      rw [turn_returned true hf (by decide) (Nat.mod_lt _ (by decide))]
      refine ⟨.returned h1 (by simp [hputs]) hlt, ?_⟩
      rw [datagrams_append, datagrams_map_udp, h2, if_neg (fun hop => absurd hop.1 (by decide)),
        List.append_nil]

/-- **The next block** is taken and acknowledged. -/
theorem Got.next (h : Got d m c) (myip : Bytes) {sport : Nat} (hd : d ≠ []) (hm : m ≤ d.length / 256)
    (hlt : m + 1 < 65536)
    (hf : f.Carries sport (packetBytes TFTP_DATA (m + 1) (block 256 d m))) :
    Got d (m + 1) (c.turn myip (some f)) ∧
      datagrams (c.turn myip (some f)).out = datagrams c.out ++ [ackDatagram sport (m + 1)] := by
  cases h with
  | running h hputs =>
      rename_i g l out
      rcases Nat.lt_or_eq_of_le hm with hm | hm
      · obtain ⟨g', out', hstep, hrecv, hdata, hput⟩ := h.next myip hm hlt hf
        simp only [turn, hstep, datagrams_append, hdata, and_true]
        exact .running hrecv (by rw [puts_append, hputs, hput])
      · obtain ⟨g', out', hstep, hreq, hdata, hput⟩ := h.last myip hm hlt hd hf
        simp only [turn, hstep, datagrams_append, hdata, and_true]
        rw [hm] at hlt ⊢
        exact .returned hreq (by rw [puts_append, hputs, hput]) hlt
  | returned _ _ _ => exact absurd hm (by omega)

end LoadClient

/-! ## The session's side -/

namespace Session

/-- The OACK to the client's requests. -/
def clientOack : Bytes := Server.Tftp.oackBytes clientOptions

/-- The session has sent the first `k` blocks of the file, or is over. -/
inductive SentBlocks (addr : Addr) (name : Bytes) (n : Nat) (src : Device) (d : Bytes) :
    Nat → Session → Prop
  | listening {devices : Nat → Option Device} (h : Server.Tftp.Serves devices name n src d) :
      SentBlocks addr name n src d 0 (.listening devices)
  | active {k : Nat} {t : Server.Tftp} (h : Server.Tftp.Serving n src d k t)
      (hclient : t.client = addr) : SentBlocks addr name n src d k (.active t)
  | ended {k : Nat} {t : Server.Tftp} (hk : k ≤ d.length / 256 + 1) :
      SentBlocks addr name n src d k (.ended t)

variable {addr : Addr} {name : Bytes} {n : Nat} {src : Device} {d : Bytes} {k : Nat}
  {t : Server.Tftp} {s : Session}

theorem SentBlocks.le (h : s.SentBlocks addr name n src d k) : k ≤ d.length / 256 + 1 := by
  cases h with
  | listening _ => exact Nat.zero_le _
  | active h _ => exact h.le
  | ended hk => exact hk

/-- What the session has sent: the OACK and, each under its number, blocks before index `k`. -/
def Pieces (addr : Addr) (d : Bytes) (k : Nat) (s : Session) : Prop :=
  ∀ p ∈ s.sent, p = (addr, clientOack) ∨
    ∃ j < k, p = (addr, packetBytes TFTP_DATA (j + 1) (block 256 d j))

theorem Pieces.add {s' : Session} {k' : Nat} {x : Addr × Bytes} (h : s.Pieces addr d k)
    (hk : k ≤ k') (hsent : s'.sent = s.sent ++ [x])
    (hx : x = (addr, clientOack) ∨
      ∃ j < k', x = (addr, packetBytes TFTP_DATA (j + 1) (block 256 d j))) :
    s'.Pieces addr d k' := by
  intro p hp
  rw [hsent, List.mem_append, List.mem_singleton] at hp
  rcases hp with hp | rfl
  · rcases h p hp with rfl | ⟨j, hj, rfl⟩
    · exact Or.inl rfl
    · exact Or.inr ⟨j, Nat.lt_of_lt_of_le hj hk, rfl⟩
  · exact hx

theorem Pieces.of_sent_eq {s' : Session} (h : s.Pieces addr d k) (hsent : s'.sent = s.sent) :
    s'.Pieces addr d k := by
  intro p hp
  rw [hsent] at hp
  exact h p hp

theorem receive_active (addr : Addr) {t' : Server.Tftp} {data : Bytes}
    (hcut : Daemon.recvfrom data = data) (hdisp : t.dispatch data = .ok t') :
    (active t).receive addr data = .ok (after t') := by
  simp only [receive, hcut, hdisp, bind, Except.bind]
  rfl

theorem receive_listening {devices : Nat → Option Device} {t' : Server.Tftp} {data : Bytes}
    (hcut : Daemon.recvfrom data = data)
    (hdisp : (Server.Tftp.new devices [] addr).dispatch data = .ok t') :
    (listening devices).receive addr data = .ok (after t') := by
  simp only [receive, hcut, hdisp, bind, Except.bind]
  rfl

theorem after_waitForAck (h : t.status = .waitForAck) : after t = active t := by
  simp [after, Server.Tftp.waiting, h]

theorem after_finished (h : t.status = .finished) : after t = ended t := by
  simp [after, Server.Tftp.waiting, h]

/-- The acknowledgement of the block sent last reaches the session: the next block goes out. -/
theorem receive_ack (h : Server.Tftp.Serving n src d k t) (hclient : t.client = addr)
    (hk : k ≤ d.length / 256) (hlt : k < 65536) :
    ∃ t', (active t).receive addr (packetBytes TFTP_ACK k []) = .ok (active t') ∧
      Server.Tftp.Serving n src d (k + 1) t' ∧ t'.client = addr ∧
      t'.sent = t.sent ++ [(addr, packetBytes TFTP_DATA (k + 1) (block 256 d k))] := by
  obtain ⟨t', hdisp, hserv, hclient', hsent⟩ := h.ack hk hlt []
  have hrecv := receive_active addr (recvfrom_ack _) hdisp
  rw [after_waitForAck hserv.status] at hrecv
  exact ⟨t', hrecv, hserv, by rw [hclient', hclient], by rw [hsent, hclient]⟩

/-- An acknowledgement reaches the session after the last block: it is over. -/
theorem receive_ack_last (h : Server.Tftp.Serving n src d k t) (hk : k = d.length / 256 + 1)
    (addr : Addr) (b : Nat) :
    ∃ t', (active t).receive addr (packetBytes TFTP_ACK b []) = .ok (ended t') ∧
      t'.status = .finished ∧ t'.devices n = some (src.withFile .closed) ∧ t'.sent = t.sent := by
  obtain ⟨t', hdisp, hstatus, hdev, hsent⟩ := h.finish hk b []
  have hrecv := receive_active addr (recvfrom_ack _) hdisp
  rw [after_finished hstatus] at hrecv
  exact ⟨t', hrecv, hstatus, hdev, hsent⟩

/-- The request reaches the listening server. -/
theorem receive_rrq {devices : Nat → Option Device}
    (h : Server.Tftp.Serves devices name n src d) (hname : ∀ c ∈ name, c ≠ 0)
    (hlen : name.length ≤ NAME_LIMIT) (addr : Addr) :
    ∃ t', (listening devices).receive addr (requestBytes TFTP_RRQ name) = .ok (active t') ∧
      Server.Tftp.Serving n src d 0 t' ∧ t'.client = addr ∧ t'.sent = [(addr, clientOack)] := by
  obtain ⟨t', hdisp, hserv, hclient, hsent⟩ :=
    Server.Tftp.Serving.start [] addr h hname (isMode_iff.mpr (Or.inl rfl)) clientOptions_ok
      (List.cons_ne_nil _ _)
  rw [← requestBytes_eq] at hdisp
  have hrecv := receive_listening (recvfrom_requestBytes _ hlen) hdisp
  rw [after_waitForAck hserv.status] at hrecv
  exact ⟨t', hrecv, hserv, hclient, hsent⟩

/-- The request reaches the session again, where that does no harm. -/
theorem receive_rrq_again {devices : Nat → Option Device}
    (h : Server.Tftp.Serving n src d k t) (hclient : t.client = addr)
    (hs : Server.Tftp.Serves devices name n src d) (hname : ∀ c ∈ name, c ≠ 0)
    (hlen : name.length ≤ NAME_LIMIT) (hk : k = 0 ∨ t.lastPacket = true ∨ t.sendEmpty = true) :
    ∃ t', (active t).receive addr (requestBytes TFTP_RRQ name) = .ok (active t') ∧
      Server.Tftp.Serving n src d k t' ∧ t'.client = addr ∧
      t'.sent = t.sent ++ [(addr, clientOack)] := by
  obtain ⟨t', hdisp, hserv, hclient', hsent⟩ :=
    h.again hs hname (isMode_iff.mpr (Or.inl rfl)) clientOptions_ok (List.cons_ne_nil _ _) hk
  rw [← requestBytes_eq] at hdisp
  have hrecv := receive_active addr (recvfrom_requestBytes _ hlen) hdisp
  rw [after_waitForAck hserv.status] at hrecv
  exact ⟨t', hrecv, hserv, by rw [hclient', hclient], by rw [hsent, hclient]; rfl⟩

/-- A server that listens dies of an acknowledgement. -/
theorem receive_ack_listening (devices : Nat → Option Device) (addr : Addr) (b : Nat) :
    (listening devices).receive addr (packetBytes TFTP_ACK b []) = .error .noMethodError := by
  have hdisp : (Server.Tftp.new devices [] addr).dispatch (packetBytes TFTP_ACK b [])
      = .error .noMethodError := by
    rw [Server.Tftp.dispatch_ack, Server.Tftp.packetAck_more rfl]
    rfl
  simp only [receive, recvfrom_ack, hdisp, bind, Except.bind]

end Session

/-! ## The system -/

/-- The client and the session; what each has sent is what the network may deliver. -/
structure Load where
  client : LoadClient
  session : Session

namespace Load

/-- `send_file` has been called, the server listens. -/
def start (g : Globals) (devices : Nat → Option Device) : Load := ⟨.start g, .listening devices⟩

/-- A turn of the client or of the session. Whatever has been sent may arrive, at any time and
any number of times; `turn` restricts what the waiting session is given to process. -/
inductive Step (myip : Bytes) (addr : Addr) (turn : Server.Tftp → Bytes → Prop) :
    Load → Load → Prop
  | poll (s : Load) : Step myip addr turn s { s with client := s.client.turn myip none }
  | toClient (s : Load) (f : Frame) (payload : Bytes) (hsent : (addr, payload) ∈ s.session.sent)
      (hf : f.Carries TFTP_PORT payload) :
      Step myip addr turn s { s with client := s.client.turn myip (some f) }
  | toServer (s : Load) (p : Datagram) (session : Session) (hsent : p ∈ datagrams s.client.out)
      (hport : p.dport = TFTP_PORT) (hturn : ∀ t, s.session = .active t → turn t p.payload)
      (hrecv : s.session.receive addr p.payload = .ok session) :
      Step myip addr turn s { s with session := session }
  | silence (s : Load) : Step myip addr turn s { s with session := s.session.silence }

/-- What is in turn for a session: any packet once the last block is out; before that, of the
acknowledgements only the one of the block sent last, and a request only while nothing has been
read of the file or nothing is left to read. -/
def InTurn (t : Server.Tftp) (data : Bytes) : Prop :=
  t.lastPacket = true ∨
    (uint16 data 0 = .ok (some TFTP_ACK) → uint16 data 2 = .ok (some t.blocknum)) ∧
    (uint16 data 0 = .ok (some TFTP_RRQ) → t.blocknum = 0 ∨ t.sendEmpty = true)

/-- The state of the system is that of stop-and-wait on the blocks of `d`. -/
structure Refines (addr : Addr) (name : Bytes) (n : Nat) (src : Device) (d : Bytes) (s : Load)
    (a : StopAndWait) : Prop where
  got : s.client.Got d a.got
  sent : s.session.SentBlocks addr name n src d a.sent
  acks : ∀ p ∈ datagrams s.client.out, p = requestDatagram TFTP_RRQ name ∨
    ∃ j ≤ a.got, p = ackDatagram TFTP_PORT j
  pieces : s.session.Pieces addr d a.sent
  bound : a.sent ≤ 65536

section Simulation

variable {myip : Bytes} {addr : Addr} {name : Bytes} {n : Nat} {src : Device} {d : Bytes}
  {devices : Nat → Option Device} {s t : Load} {a : StopAndWait}

/-- A frame reaches the client. -/
theorem Refines.toClient (h : Refines addr name n src d s a) (ho : a.Ordered) (hd : d ≠ [])
    {f : Frame} {payload : Bytes} (hsent : (addr, payload) ∈ s.session.sent)
    (hf : f.Carries TFTP_PORT payload) :
    ∃ b, Reachable StopAndWait.Step a b ∧
      Refines addr name n src d { s with client := s.client.turn myip (some f) } b := by
  -- what has been acknowledged stays acknowledged
  have hacks : ∀ {b : StopAndWait} {c : LoadClient} {new : List Datagram},
      a.got ≤ b.got → datagrams c.out = datagrams s.client.out ++ new →
      (∀ p ∈ new, ∃ j ≤ b.got, p = ackDatagram TFTP_PORT j) →
      ∀ p ∈ datagrams c.out, p = requestDatagram TFTP_RRQ name ∨
        ∃ j ≤ b.got, p = ackDatagram TFTP_PORT j := by
    intro b c new hle hout hnew p hp
    rw [hout, List.mem_append] at hp
    rcases hp with hp | hp
    · rcases h.acks p hp with rfl | ⟨j, hj, rfl⟩
      · exact Or.inl rfl
      · exact Or.inr ⟨j, Nat.le_trans hj hle, rfl⟩
    · exact Or.inr (hnew p hp)
  rcases h.pieces _ hsent with hp | ⟨j, hj, hp⟩
  · obtain rfl : payload = Session.clientOack := congrArg Prod.snd hp
    obtain ⟨hgot, hout⟩ := h.got.oack myip hf
    refine ⟨a, .refl, hgot, h.sent, hacks (Nat.le_refl _) hout ?_, h.pieces, h.bound⟩
    intro p hp
    split at hp
    · cases hp
    · exact ⟨0, Nat.zero_le _, List.mem_singleton.mp hp⟩
  · obtain rfl : payload = packetBytes TFTP_DATA (j + 1) (block 256 d j) := congrArg Prod.snd hp
    have hle := ho.sent_le
    have hlt := h.got.lt
    by_cases hnext : j = a.got ∧ a.got + 1 < 65536
    · obtain ⟨rfl, hb⟩ := hnext
      have hm : a.got ≤ d.length / 256 := by
        have := h.sent.le
        omega
      obtain ⟨hgot, hout⟩ := h.got.next myip hd hm hb hf
      refine ⟨_, StopAndWait.reachable_take hj, hgot, h.sent,
        hacks (Nat.le_succ _) hout ?_, h.pieces, h.bound⟩
      intro p hp
      exact ⟨a.got + 1, Nat.le_refl _, List.mem_singleton.mp hp⟩
    · obtain ⟨hgot, hout⟩ := h.got.stale myip (by omega) hf
      exact ⟨a, .refl, hgot, h.sent, fun p hp => h.acks p (hout ▸ hp), h.pieces, h.bound⟩

/-- The request reaches the session, for the first time or again; an OACK is sent. -/
theorem Refines.request (h : Refines addr name n src d s a)
    (hs : Server.Tftp.Serves devices name n src d) (hname : ∀ c ∈ name, c ≠ 0)
    (hlen : name.length ≤ NAME_LIMIT) {session : Session}
    (hturn : ∀ t, s.session = .active t → InTurn t (requestBytes TFTP_RRQ name))
    (hrecv : s.session.receive addr (requestBytes TFTP_RRQ name) = .ok session) :
    Refines addr name n src d { s with session := session } a := by
  obtain ⟨hgot, hses, hacks, hpieces, hbound⟩ := h
  obtain ⟨client, ses⟩ := s
  obtain ⟨sent, got⟩ := a
  simp only at hgot hses hacks hpieces hbound hturn hrecv
  cases hses with
  | listening hserves =>
      obtain ⟨t', hrecv', hserv, hclient, hout⟩ := Session.receive_rrq hserves hname hlen addr
      obtain rfl : Session.active t' = session := Except.ok.inj (hrecv'.symm.trans hrecv)
      exact ⟨hgot, .active hserv hclient, hacks,
        hpieces.add (Nat.le_refl _) hout (Or.inl rfl), hbound⟩
  | active hserv hclient =>
      rename_i t
      -- opening the file again is harmless before the first block and behind the last
      have hk : sent = 0 ∨ t.lastPacket = true ∨ t.sendEmpty = true := by
        rcases hturn t rfl with hlast | ⟨-, hrrq⟩
        · exact Or.inr (Or.inl hlast)
        · have hop : uint16 (requestBytes TFTP_RRQ name) 0 = .ok (some TFTP_RRQ) := by
            rw [requestBytes_eq, Server.Tftp.uint16_serialize]
            rfl
          rcases hrrq hop with h0 | hempty
          · exact Or.inl (hserv.blocknum ▸ h0)
          · exact Or.inr (Or.inr hempty)
      obtain ⟨t', hrecv', hserv', hclient', hout⟩ :=
        Session.receive_rrq_again hserv hclient hs hname hlen hk
      obtain rfl : Session.active t' = session := Except.ok.inj (hrecv'.symm.trans hrecv)
      exact ⟨hgot, .active hserv' hclient', hacks,
        hpieces.add (Nat.le_refl _) hout (Or.inl rfl), hbound⟩
  | ended hk =>
      obtain rfl := Except.ok.inj hrecv
      exact ⟨hgot, .ended hk, hacks, hpieces, hbound⟩

/-- An acknowledgement reaches the session: the next block is sent, or the session ends. -/
theorem Refines.ack (h : Refines addr name n src d s a) {j : Nat} (hj : j ≤ a.got)
    {session : Session}
    (hturn : ∀ t, s.session = .active t → InTurn t (packetBytes TFTP_ACK j []))
    (hrecv : s.session.receive addr (packetBytes TFTP_ACK j []) = .ok session) :
    ∃ b, Reachable StopAndWait.Step a b ∧
      Refines addr name n src d { s with session := session } b := by
  obtain ⟨hgot, hses, hacks, hpieces, hbound⟩ := h
  obtain ⟨client, ses⟩ := s
  obtain ⟨sent, got⟩ := a
  simp only at hgot hses hacks hpieces hbound hj hturn hrecv
  have hlt : j < 65536 := Nat.lt_of_le_of_lt hj hgot.lt
  cases hses with
  | listening hserves =>
      rename_i devices'
      exact absurd ((Session.receive_ack_listening devices' addr j).symm.trans hrecv) (by simp)
  | active hserv hclient =>
      rename_i t
      by_cases hlast : sent = d.length / 256 + 1
      · obtain ⟨t', hrecv', -, -, hout⟩ := Session.receive_ack_last hserv hlast addr j
        obtain rfl : Session.ended t' = session := Except.ok.inj (hrecv'.symm.trans hrecv)
        exact ⟨_, .refl, hgot, .ended hserv.le, hacks, hpieces.of_sent_eq hout, hbound⟩
      · have hle := hserv.le
        have hmore : t.lastPacket = false := by
          rw [hserv.lastPacket]
          simpa using hlast
        -- in turn, it acknowledges the block sent last
        obtain rfl : j = sent := by
          rcases hturn t rfl with hlast' | ⟨hack, -⟩
          · rw [hmore] at hlast'
            cases hlast'
          · have hnum := hack (uint16_opcode TFTP_ACK j [])
            have hj' := (uint16_number TFTP_ACK j []).symm.trans hnum
            rw [Nat.mod_eq_of_lt hlt, hserv.blocknum] at hj'
            simpa using hj'
        obtain ⟨t', hrecv', hserv', hclient', hout⟩ :=
          Session.receive_ack hserv hclient (by omega) hlt
        obtain rfl : Session.active t' = session := Except.ok.inj (hrecv'.symm.trans hrecv)
        exact ⟨_, StopAndWait.reachable_advance hj, hgot, .active hserv' hclient', hacks,
          hpieces.add (Nat.le_succ _) hout (Or.inr ⟨j, Nat.lt_succ_self _, rfl⟩), hlt⟩
  | ended hk =>
      obtain rfl := Except.ok.inj hrecv
      exact ⟨_, .refl, hgot, .ended hk, hacks, hpieces, hbound⟩

/-- A datagram in turn reaches the session. -/
theorem Refines.toServer (h : Refines addr name n src d s a)
    (hs : Server.Tftp.Serves devices name n src d) (hname : ∀ c ∈ name, c ≠ 0)
    (hlen : name.length ≤ NAME_LIMIT) {p : Datagram} {session : Session}
    (hsent : p ∈ datagrams s.client.out)
    (hturn : ∀ t, s.session = .active t → InTurn t p.payload)
    (hrecv : s.session.receive addr p.payload = .ok session) :
    ∃ b, Reachable StopAndWait.Step a b ∧
      Refines addr name n src d { s with session := session } b := by
  rcases h.acks p hsent with rfl | ⟨j, hj, rfl⟩
  · exact ⟨a, .refl, h.request hs hname hlen hturn hrecv⟩
  · exact h.ack hj hturn hrecv

/-- **The system simulates stop-and-wait** as long as what the session processes is in turn. -/
theorem Refines.step (h : Refines addr name n src d s a) (ho : a.Ordered) (hd : d ≠ [])
    (hs : Server.Tftp.Serves devices name n src d) (hname : ∀ c ∈ name, c ≠ 0)
    (hlen : name.length ≤ NAME_LIMIT) (hst : Step myip addr InTurn s t) :
    ∃ b, Reachable StopAndWait.Step a b ∧ Refines addr name n src d t b := by
  cases hst with
  | poll =>
      refine ⟨a, .refl, ?_⟩
      rw [h.got.poll]
      exact h
  | toClient f payload hsent hf => exact h.toClient ho hd hsent hf
  | toServer p session hsent hport hturn hrecv =>
      exact h.toServer hs hname hlen hsent hturn hrecv
  | silence =>
      obtain ⟨hgot, hses, hacks, hpieces, hbound⟩ := h
      obtain ⟨client, ses⟩ := s
      obtain ⟨sent, got⟩ := a
      refine ⟨_, .refl, hgot, ?_, hacks, ?_, hbound⟩
      · cases hses with
        | listening hserves => exact .listening hserves
        | active hserv hclient => exact .ended hserv.le
        | ended hk => exact .ended hk
      · cases hses <;> exact hpieces

theorem refines_start {g : Globals} (hreq : g.tftp.requestInProgress = .norq)
    (hlen : g.filename.length ≤ NAME_LIMIT) (hiobuf : g.iobuf.length = IOBUF_SIZE)
    (hs : Server.Tftp.Serves devices g.filename n src d) :
    Refines addr g.filename n src d (start g devices) .start := by
  obtain ⟨hgot, hout, -, -⟩ := LoadClient.got_start d hreq hlen hiobuf
  refine ⟨hgot, .listening hs, ?_, fun p hp => absurd hp List.not_mem_nil, Nat.zero_le _⟩
  intro p hp
  have hp' : p ∈ datagrams (LoadClient.start g).out := hp
  rw [hout] at hp'
  exact Or.inl (List.mem_singleton.mp hp')

end Simulation

/-- Every reachable state is one of stop-and-wait. -/
theorem refines_of_reachable {myip : Bytes} {addr : Addr} {n : Nat} {src : Device} {d : Bytes}
    {devices : Nat → Option Device} {g : Globals} {s : Load} (hd : d ≠ [])
    (hreq : g.tftp.requestInProgress = .norq) (hlen : g.filename.length ≤ NAME_LIMIT)
    (hiobuf : g.iobuf.length = IOBUF_SIZE) (hs : Server.Tftp.Serves devices g.filename n src d)
    (h : Reachable (Step myip addr InTurn) (start g devices) s) :
    ∃ a : StopAndWait, a.Ordered ∧ Refines addr g.filename n src d s a := by
  have hstep : ∀ (u v : Load) (b : StopAndWait), Reachable StopAndWait.Step .start b →
      Refines addr g.filename n src d u b → Step myip addr InTurn u v →
      ∃ c, Reachable StopAndWait.Step b c ∧ Refines addr g.filename n src d v c :=
    fun u v b hb hR hst =>
      hR.step (StopAndWait.ordered_of_reachable hb) hd hs (untilNul_ne_nul _) hlen hst
  obtain ⟨a, ha, hR⟩ := reachable_simulation (refines_start hreq hlen hiobuf hs) hstep h
  exact ⟨a, StopAndWait.ordered_of_reachable ha, hR⟩

/-- **LOAD in turn never corrupts a file.** The bytes put out are a piece of the file from its
start, the session never sends two pieces of the file under one number, and it is never more
than one block ahead of what the client has taken. -/
theorem puts_prefix_of_inTurn {myip : Bytes} {addr : Addr} {n : Nat} {src : Device} {d : Bytes}
    {devices : Nat → Option Device} {g : Globals} {s : Load} (hd : d ≠ [])
    (hreq : g.tftp.requestInProgress = .norq) (hlen : g.filename.length ≤ NAME_LIMIT)
    (hiobuf : g.iobuf.length = IOBUF_SIZE) (hs : Server.Tftp.Serves devices g.filename n src d)
    (h : Reachable (Step myip addr InTurn) (start g devices) s) :
    (puts s.client.out).map Prod.fst <+: d ∧
      (∀ number body body', (addr, packetBytes TFTP_DATA number body) ∈ s.session.sent →
        (addr, packetBytes TFTP_DATA number body') ∈ s.session.sent → body = body') ∧
      ∃ m, s.client.Got d m ∧ ∀ p ∈ s.session.sent, p = (addr, Session.clientOack) ∨
        ∃ j ≤ m, p = (addr, packetBytes TFTP_DATA (j + 1) (block 256 d j)) := by
  obtain ⟨a, ho, hR⟩ := refines_of_reachable hd hreq hlen hiobuf hs h
  have hdata : ∀ number body, (addr, packetBytes TFTP_DATA number body) ∈ s.session.sent →
      ∃ j < a.sent, number % 65536 = (j + 1) % 65536 ∧ body = block 256 d j := by
    intro number body hmem
    rcases hR.pieces _ hmem with hp | ⟨j, hj, hp⟩
    · have hop := (packetBytes_inj (congrArg Prod.snd hp)).1
      exact absurd hop (by decide)
    · exact ⟨j, hj, (packetBytes_inj (congrArg Prod.snd hp)).2⟩
  refine ⟨hR.got.prefix_puts, ?_, a.got, hR.got, ?_⟩
  · intro number body body' h1 h2
    obtain ⟨j, hj, hn, rfl⟩ := hdata number body h1
    obtain ⟨j', hj', hn', rfl⟩ := hdata number body' h2
    have hbound := hR.bound
    obtain rfl : j = j' := by omega
    rfl
  · intro p hp
    rcases hR.pieces p hp with h | ⟨j, hj, h⟩
    · exact Or.inl h
    · exact Or.inr ⟨j, Nat.lt_succ_iff.mp (Nat.lt_of_lt_of_le hj ho.sent_le), h⟩

/-! ## A file `A` on device 8 -/

/-- A directory with the file `A` of content `d`. -/
def sampleDir (d : Bytes) : Dir where
  children := [(ascii "a.p00", .file (pc64Header (ascii "A") ++ d))]
  place := fun _ _ => 0
  nodup := by simp

def sampleDevices (d : Bytes) (n : Nat) : Option Device :=
  if n = 8 then some (.dir ⟨sampleDir d, .unset⟩) else none

/-- The device once the file is open. -/
def sampleOpened (d : Bytes) : Device := .dir ⟨sampleDir d, .reading d⟩

/-- The client about to ask for `A` on device 8. -/
def sampleGlobals : Globals := { Globals.init with tftpFilename := ascii "8/A" ++ [0] }

def sampleAddr : Addr := ⟨[], SRCPORT⟩

theorem sampleDevices_serves (d : Bytes) :
    Server.Tftp.Serves (sampleDevices d) sampleGlobals.filename 8 (sampleOpened d) d where
  number := by decide
  opened := ⟨_, rfl, by rfl⟩
  rest := rfl

/-- How a transfer opens: request, OACK, ACK 0. -/
theorem exists_opened {addr : Addr} {n : Nat} {src : Device} {d : Bytes}
    {devices : Nat → Option Device} {g : Globals} (myip : Bytes)
    (turn : Server.Tftp → Bytes → Prop) (hreq : g.tftp.requestInProgress = .norq)
    (hlen : g.filename.length ≤ NAME_LIMIT) (hiobuf : g.iobuf.length = IOBUF_SIZE)
    (hs : Server.Tftp.Serves devices g.filename n src d) :
    ∃ s t, Reachable (Step myip addr turn) (start g devices) s ∧ s.client.Got d 0 ∧
      ackDatagram TFTP_PORT 0 ∈ datagrams s.client.out ∧ s.session = .active t ∧
      Server.Tftp.Serving n src d 0 t ∧ t.client = addr := by
  obtain ⟨hgot, hout, hlast, -⟩ := LoadClient.got_start d hreq hlen hiobuf
  obtain ⟨t, hrecv, hserv, hclient, hsent⟩ :=
    Session.receive_rrq hs (untilNul_ne_nul _) hlen addr
  have h1 : Step myip addr turn (start g devices) ⟨.start g, .active t⟩ :=
    .toServer (start g devices) (requestDatagram TFTP_RRQ g.filename) (.active t)
      (by rw [start, hout]; exact List.mem_singleton.mpr rfl) rfl (fun t ht => by cases ht) hrecv
  have hf : (Frame.ofPayload TFTP_PORT Session.clientOack).Carries TFTP_PORT Session.clientOack :=
    Frame.carries_ofPayload _ _ (by decide) (by decide)
  obtain ⟨hgot', hout'⟩ := hgot.oack myip hf
  have h2 : Step myip addr turn ⟨.start g, .active t⟩ _ :=
    .toClient ⟨.start g, .active t⟩ _ Session.clientOack
      (by rw [Session.sent, hsent]; exact List.mem_singleton.mpr rfl) hf
  refine ⟨_, t, .tail (.single h1) h2, hgot', ?_, rfl, hserv, hclient⟩
  rw [hout', hlast]
  simp

/-- A run of a transfer of one block, all in turn, to its end. -/
theorem puts_prefix_of_inTurn_sample :
    ∃ s, Reachable (Step [] sampleAddr InTurn)
        (start sampleGlobals (sampleDevices [1, 2, 3])) s ∧
      puts s.client.out = withEoi [1, 2, 3] ∧
      (puts s.client.out).map Prod.fst <+: ([1, 2, 3] : Bytes) := by
  have hlen : sampleGlobals.iobuf.length = IOBUF_SIZE := List.length_replicate
  obtain ⟨⟨client, session⟩, t, hreach, hgot, hack, hsession, hserv, hclient⟩ :=
    exists_opened [] InTurn rfl (by decide) hlen (sampleDevices_serves [1, 2, 3])
  simp only at hgot hack hsession
  subst hsession
  obtain ⟨t', hrecv, hserv', hclient', hsent⟩ :=
    Session.receive_ack hserv hclient (Nat.zero_le _) (by decide)
  have h1 : Step [] sampleAddr InTurn ⟨client, .active t⟩ ⟨client, .active t'⟩ := by
    refine .toServer _ (ackDatagram TFTP_PORT 0) _ hack rfl ?_ hrecv
    rintro _ ⟨⟩
    exact Or.inr ⟨fun _ => by rw [hserv.blocknum]; rfl, fun _ => Or.inl hserv.blocknum⟩
  have hf := Frame.carries_ofPayload TFTP_PORT (packetBytes TFTP_DATA 1 (block 256 [1, 2, 3] 0))
    (by decide) (by decide)
  obtain ⟨hgot', -⟩ := hgot.next [] (by decide) (Nat.zero_le _) (by decide) hf
  have h2 : Step [] sampleAddr InTurn ⟨client, .active t'⟩ _ :=
    .toClient ⟨client, .active t'⟩ _ (packetBytes TFTP_DATA 1 (block 256 [1, 2, 3] 0))
      (by rw [Session.sent, hsent]; simp) hf
  have hrun := (hreach.tail h1).tail h2
  exact ⟨_, hrun, (LoadClient.Got.all hgot').2.2,
    (puts_prefix_of_inTurn (by decide) rfl (by decide) hlen (sampleDevices_serves _) hrun).1⟩

/-- A file of two blocks whose second one is the byte `1`. -/
def twoBlocks : Bytes := List.replicate 256 0 ++ [1]

/-- **A repeated ACK 0** makes the session send the second block as block 1, and a client that
has not seen the first one takes it for the file. -/
theorem repeated_ack_corrupts :
    ∃ s, Reachable (Step [] sampleAddr fun _ _ => True)
        (start sampleGlobals (sampleDevices twoBlocks)) s ∧
      ¬(puts s.client.out).map Prod.fst <+: twoBlocks := by
  have hlen : sampleGlobals.iobuf.length = IOBUF_SIZE := List.length_replicate
  obtain ⟨⟨client, session⟩, t, hreach, hgot, hack, hsession, hserv, hclient⟩ :=
    exists_opened [] (fun _ _ => True) rfl (by decide) hlen
      (sampleDevices_serves twoBlocks)
  simp only at hgot hack hsession
  subst hsession
  obtain ⟨t', hrecv, hserv', hclient', hsent⟩ :=
    Session.receive_ack hserv hclient (Nat.zero_le _) (by decide)
  have h1 : Step [] sampleAddr (fun _ _ => True) ⟨client, .active t⟩ ⟨client, .active t'⟩ :=
    .toServer _ (ackDatagram TFTP_PORT 0) _ hack rfl (fun _ _ => trivial) hrecv
  -- the session has read the first block; ACK 0 again makes it number the second one 1
  obtain ⟨fh, hdev, -, hrest⟩ := hserv'.file
  have hlength : twoBlocks.length = 257 := by
    rw [twoBlocks, List.length_append, List.length_replicate]
    rfl
  have hmore : t'.lastPacket = false := by rw [hserv'.lastPacket, hlength]; rfl
  have hflag : t'.sendEmpty = false := by rw [hserv'.sendEmpty, hlength]; rfl
  have hdrop : twoBlocks.drop 256 = [1] := List.drop_left' List.length_replicate
  have hrest' : ((sampleOpened twoBlocks).withFile fh).file.rest = some [1] := by
    rw [Device.file_withFile, hrest hmore hflag, ← hdrop]
  obtain ⟨_, -, hsend⟩ := Server.Tftp.sendData_of_rest
    (t := { t' with status := .ready, blocknum := 0 }) hserv'.device hdev hrest'
  rw [← hflag] at hsend
  have hdisp := (Server.Tftp.dispatch_ack t' 0 []).trans
    ((Server.Tftp.packetAck_more (t := { t' with status := .ready }) hmore 0 []).trans hsend)
  have h2 : Step [] sampleAddr (fun _ _ => True) ⟨client, .active t'⟩ _ :=
    .toServer ⟨client, .active t'⟩ (ackDatagram TFTP_PORT 0) _ hack rfl (fun _ _ => trivial)
      (Session.receive_active sampleAddr (recvfrom_ack 0) hdisp)
  have hf := Frame.carries_ofPayload TFTP_PORT (packetBytes TFTP_DATA 1 (block 256 [1] 0)) (by decide)
    (by decide)
  obtain ⟨hgot', -⟩ :=
    (hgot.of_zero [1]).next [] (by decide) (Nat.zero_le _) (by decide) hf
  refine ⟨_, ((hreach.tail h1).tail h2).tail
    (.toClient _ _ (packetBytes TFTP_DATA 1 (block 256 [1] 0)) ?_ hf), ?_⟩
  · rw [Session.after_waitForAck rfl]
    simp [Session.sent, Server.Tftp.send, Server.Tftp.setDevice, hclient', block]
  · rw [(LoadClient.Got.all hgot').2.2]
    rw [withEoi_map_fst]
    rintro ⟨rest, happend⟩
    have hhead : (some 1 : Option Byte) = some 0 := congrArg List.head? happend
    exact absurd hhead (by decide)

end Load

end C64Iec

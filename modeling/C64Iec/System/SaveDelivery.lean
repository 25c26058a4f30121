import C64Iec.System.Save

set_option autoImplicit false

/-! # SAVE over a network that delivers

Every datagram is handed over exactly once and in order. `Phase` says what is on its way at each
moment and what the session has stored; every run comes to an end with the client back in `loop`
and the whole file stored (`save_delivered`). Whether the session has noticed depends on the
length of the file: the client takes a block for the last when its payload is shorter than 256
bytes, the server when its packet is (`delivers_iff`).
-/

namespace C64Iec

open Lib Server Client

/-- The system of `Save` with what is on its way, oldest first. -/
structure SaveDelivery where
  save : Save
  toServer : List Datagram
  toClient : List (Addr × Bytes)

namespace SaveDelivery

/-- `recv_file` has been called: its request is on the way. -/
def start (g : Globals) (d : Bytes) (devices : Nat → Option Device) : SaveDelivery where
  save := .start g d devices
  toServer := datagrams (SaveClient.start g d).out
  toClient := []

/-- After a turn of the client: what it has sent is on the way. -/
def afterClient (s : SaveDelivery) (c : SaveClient) : SaveDelivery where
  save := { s.save with client := c }
  toServer := s.toServer ++ (datagrams c.out).drop (datagrams s.save.client.out).length
  toClient := s.toClient

/-- After a turn of the session. -/
def afterSession (s : SaveDelivery) (session : Session) : SaveDelivery where
  save := { s.save with session := session }
  toServer := s.toServer
  toClient := s.toClient ++ session.sent.drop s.save.session.sent.length

/-- A turn of one side. The datagram that has been on its way longest arrives. The session's five
seconds pass only when the client has returned and nothing is on its way. -/
inductive Step (myip : Bytes) (addr : Addr) : SaveDelivery → SaveDelivery → Prop
  | poll (s : SaveDelivery) : Step myip addr s (s.afterClient (s.save.client.turn myip none false))
  | toClient (s : SaveDelivery) (f : Frame) (payload : Bytes) (rest : List (Addr × Bytes))
      (hq : s.toClient = (addr, payload) :: rest) (hf : f.Carries TFTP_PORT payload) :
      Step myip addr s { s.afterClient (s.save.client.turn myip (some f) false) with
        toClient := rest }
  | toServer (s : SaveDelivery) (p : Datagram) (rest : List Datagram) (session : Session)
      (hq : s.toServer = p :: rest) (hport : p.dport = TFTP_PORT)
      (hrecv : s.save.session.receive addr p.payload = .ok session) :
      Step myip addr s { s.afterSession session with toServer := rest }
  | silence (s : SaveDelivery) (value : Bool) (hret : s.save.client.control = .ret value)
      (hserver : s.toServer = []) (hclient : s.toClient = []) :
      Step myip addr s { s with save := { s.save with session := s.save.session.silence } }

/-! ## The phases of a transfer -/

/-- The session has all of `d`, `N` blocks. It is over if the last packet was shorter than a
block, else it waits for more, or has waited in vain. -/
inductive Stored (addr : Addr) (n : Nat) (c64 : Bytes) (dd : DeviceDir) (d : Bytes) :
    Session → Prop
  | finished {nm : Bytes} {t : Server.Tftp} (hshort : d.length % 256 < 252)
      (hstatus : t.status = .finished)
      (hclosed : Server.Tftp.Closed n c64 (· <+: d) dd.dir nm d t) :
      Stored addr n c64 dd d (.ended t)
  | waiting {nm : Bytes} {t : Server.Tftp} (hlong : 252 ≤ d.length % 256)
      (hput : Server.Tftp.Putting n c64 (· <+: d) dd.dir nm d (d.length / 256 + 1) t)
      (hclient : t.client = addr) : Stored addr n c64 dd d (.active t)
  | expired {nm : Bytes} {t : Server.Tftp} (hlong : 252 ≤ d.length % 256)
      (hput : Server.Tftp.Putting n c64 (· <+: d) dd.dir nm d (d.length / 256 + 1) t) :
      Stored addr n c64 dd d (.ended t)

/-- What is on its way: the request; the answer with number `m` (the OACK has 0), the session
having stored `m` blocks; nothing, the client having block `m` (counted from 0) to send; block
`m`; the acknowledgement of the last block; or nothing, all being over. -/
inductive Phase (addr : Addr) (name : Bytes) (n : Nat) (dd : DeviceDir) (d : Bytes) :
    SaveDelivery → Prop
  | request {c : SaveClient} {devices : Nat → Option Device} (hsent : c.Sent false d 0 false)
      (htakes : Server.Tftp.Takes devices name n dd) :
      Phase addr name n dd d ⟨⟨c, .listening devices⟩, [requestDatagram TFTP_WRQ name], []⟩
  | reply {c : SaveClient} {t : Server.Tftp} {nm : Bytes} {m opcode : Nat} {body : Bytes}
      (hsent : c.Sent false d m false) (hm : m ≤ d.length / 256)
      (hput : Server.Tftp.Putting n (decode (splitDevice name).2) (· <+: d) dd.dir nm
        (d.take (256 * m)) m t) (hclient : t.client = addr)
      (hop : opcode = TFTP_ACK ∨ opcode = TFTP_OPTACK ∧ m = 0) (hbody : body.length ≤ 256) :
      Phase addr name n dd d ⟨⟨c, .active t⟩, [], [(addr, packetBytes opcode m body)]⟩
  | ready {c : SaveClient} {t : Server.Tftp} {nm : Bytes} {m : Nat}
      (hsent : c.Sent false d m true) (hm : m ≤ d.length / 256)
      (hput : Server.Tftp.Putting n (decode (splitDevice name).2) (· <+: d) dd.dir nm
        (d.take (256 * m)) m t) (hclient : t.client = addr) :
      Phase addr name n dd d ⟨⟨c, .active t⟩, [], []⟩
  | data {c : SaveClient} {t : Server.Tftp} {nm : Bytes} {m : Nat}
      (hsent : c.Sent false d (m + 1) false) (hm : m ≤ d.length / 256)
      (hput : Server.Tftp.Putting n (decode (splitDevice name).2) (· <+: d) dd.dir nm
        (d.take (256 * m)) m t) (hclient : t.client = addr) :
      Phase addr name n dd d
        ⟨⟨c, .active t⟩, [dataDatagram TFTP_PORT (m + 1) (Lib.block 256 d m)], []⟩
  | last {c : SaveClient} {session : Session}
      (hsent : c.Sent false d (d.length / 256 + 1) false)
      (hstored : Stored addr n (decode (splitDevice name).2) dd d session) :
      Phase addr name n dd d
        ⟨⟨c, session⟩, [], [(addr, packetBytes TFTP_ACK (d.length / 256 + 1) [])]⟩
  | done {c : SaveClient} {session : Session}
      (hsent : c.Sent false d (d.length / 256 + 1) false)
      (hstored : Stored addr n (decode (splitDevice name).2) dd d session) :
      Phase addr name n dd d ⟨⟨c, session⟩, [], []⟩

variable {myip : Bytes} {addr : Addr} {name : Bytes} {n : Nat} {dd : DeviceDir} {d : Bytes}
  {devices : Nat → Option Device} {s t : SaveDelivery}

theorem afterClient_append {c : SaveClient} {new : List Datagram}
    (hout : datagrams c.out = datagrams s.save.client.out ++ new) :
    s.afterClient c = ⟨⟨c, s.save.session⟩, s.toServer ++ new, s.toClient⟩ := by
  simp [afterClient, hout]

theorem afterClient_same {c : SaveClient} (hout : datagrams c.out = datagrams s.save.client.out) :
    s.afterClient c = ⟨⟨c, s.save.session⟩, s.toServer, s.toClient⟩ := by
  rw [afterClient_append (hout.trans (List.append_nil _).symm), List.append_nil]

/-! ## The client's turns -/

section Client

variable {c : SaveClient} {k : Nat}

/-- Without ATN the client has returned only when all is sent. -/
theorem ret_of_sent {ready : Bool} (h : c.Sent false d k ready) {value : Bool}
    (hret : c.control = .ret value) :
    value = true ∧ k = d.length / 256 + 1 ∧ ready = false ∧ c.g.tftp.requestInProgress = .norq := by
  cases h with
  | running _ => cases hret
  | returned hreq =>
      cases hret
      exact ⟨rfl, rfl, rfl, hreq⟩
  | aborted hatn _ => cases hatn

theorem returned_of_sent {ready : Bool} (h : c.Sent false d (d.length / 256 + 1) ready) :
    c.control = .ret true := by
  cases h with
  | running h => exact absurd (SaveClient.Sending_le h) (Nat.not_succ_le_self _)
  | returned _ => rfl
  | aborted hatn _ => cases hatn

theorem turn_ret_todo (myip : Bytes) (packet : Option Frame) {value : Bool}
    (hret : c.control = .ret value) :
    (c.turn myip packet false).todo = c.todo := by
  simp only [SaveClient.turn, hret]

/-- A poll of a client that waits: at most a byte is read. -/
theorem poll_waiting (myip : Bytes) (h : c.Sent false d k false) :
    (c.turn myip none false).Sent false d k false ∧
      datagrams (c.turn myip none false).out = datagrams c.out ∧
      (c.turn myip none false = c ∨ (c.turn myip none false).todo.length < c.todo.length) := by
  cases h with
  | running h =>
      rename_i g l todo out
      have ho : SaveClient.Outcome false d k false ⟨g, .run l, todo, out⟩
          (SaveClient.turn myip ⟨g, .run l, todo, out⟩ none false) :=
        SaveClient.turn_running rfl h id
      rcases ho with ⟨hsent, hout, hless⟩ | ⟨hready, -⟩
      · refine ⟨hsent, hout, ?_⟩
        rcases hless with hless | ⟨-, hsame⟩ | hatn
        · exact Or.inr hless
        · exact Or.inl hsame
        · cases hatn
      · cases hready
  | returned hreq =>
      have hturn : ∀ {g : Globals} {todo : Bytes} {out : List Output},
          SaveClient.turn myip ⟨g, .ret true, todo, out⟩ none false = ⟨g, .ret true, todo, out⟩ := by
        intro g todo out
        simp [SaveClient.turn, ethernetProbeForPacket]
      rw [hturn]
      exact ⟨.returned hreq, rfl, Or.inl rfl⟩
  | aborted hatn _ => cases hatn

/-- A turn of a client that is ready: it reads a byte or sends its block. -/
theorem turn_ready {c₀ c' : SaveClient}
    (h : SaveClient.Outcome false d k true c₀ c') :
    c'.Sent false d k true ∧ datagrams c'.out = datagrams c₀.out ∧ c'.todo.length < c₀.todo.length ∨
      k ≤ d.length / 256 ∧ c'.todo.length ≤ c₀.todo.length ∧ c'.Sent false d (k + 1) false ∧
        datagrams c'.out
          = datagrams c₀.out ++ [dataDatagram TFTP_PORT (k + 1) (Lib.block 256 d k)] := by
  rcases h with ⟨hsent, hout, hless⟩ | ⟨-, hk, hle, hsent, hout⟩
  · rcases hless with hless | ⟨hr, -⟩ | hatn
    · exact Or.inl ⟨hsent, hout, hless⟩
    · cases hr
    · cases hatn
  · exact Or.inr ⟨hk, hle, hsent, hout⟩

end Client

/-! ## One step -/

/-- How far the transfer still has to go, in bytes to read and datagrams to hand over. -/
def rank (d : Bytes) (s : SaveDelivery) : Nat :=
  s.save.client.todo.length +
    match s.save.session with
    | .listening _ => 3 * (d.length / 256 + 2)
    | .active t => 3 * (d.length / 256 + 1 - t.blocknum) +
        (if s.toClient ≠ [] then 2 else if s.toServer ≠ [] then 0 else 1)
    | .ended _ => s.toClient.length

/-- The phase the step has led to; a step that changes anything comes closer to the end. -/
def Next (addr : Addr) (name : Bytes) (n : Nat) (dd : DeviceDir) (d : Bytes)
    (s t : SaveDelivery) : Prop :=
  Phase addr name n dd d t ∧ (t = s ∨ rank d t < rank d s)

section Session

variable {c : SaveClient} {nm : Bytes} {m : Nat} {tf : Server.Tftp}

/-- A client that is ready, or that a frame has made ready, takes its turn: it reads a byte, or
its block is on its way. -/
theorem next_of_ready {packet : Option Frame} {g : Globals} {l : RecvFile} {todo : Bytes}
    {out : List Output} {t' : Client.Tftp} (qs : List (Addr × Bytes))
    (hprobe : ethernetProbeForPacket myip g.tftp packet = (t', []))
    (hs : Sending d m true { g with tftp := t' } l todo) (hm : m ≤ d.length / 256)
    (hput : Server.Tftp.Putting n (decode (splitDevice name).2) (· <+: d) dd.dir nm
      (d.take (256 * m)) m tf) (hclient : tf.client = addr) :
    Next addr name n dd d ⟨⟨⟨g, .run l, todo, out⟩, .active tf⟩, [], qs⟩
      ⟨⟨SaveClient.turn myip ⟨g, .run l, todo, out⟩ packet false, .active tf⟩,
        (datagrams (SaveClient.turn myip ⟨g, .run l, todo, out⟩ packet false).out).drop
          (datagrams out).length, []⟩ := by
  have ho : SaveClient.Outcome false d m true ⟨{ g with tftp := t' }, .run l, todo, out⟩
      (SaveClient.turn myip ⟨g, .run l, todo, out⟩ packet false) :=
    SaveClient.turn_running hprobe hs id
  rcases turn_ready ho with ⟨hsent, hout, hless⟩ | ⟨-, hle, hsent, hout⟩
  · simp only at hout hless
    rw [hout, List.drop_length]
    refine ⟨.ready hsent hm hput hclient, Or.inr ?_⟩
    simp only [rank]
    simp
    split <;> omega
  · simp only at hout hle
    rw [hout, List.drop_left]
    refine ⟨.data hsent hm hput hclient, Or.inr ?_⟩
    simp only [rank]
    simp
    split <;> omega

/-- The session is given the next block: it goes on and answers, or has them all. -/
theorem next_of_data (hlen : d.length < 65535 * 256) (hsent : c.Sent false d (m + 1) false)
    (hm : m ≤ d.length / 256)
    (hput : Server.Tftp.Putting n (decode (splitDevice name).2) (· <+: d) dd.dir nm
      (d.take (256 * m)) m tf) (hclient : tf.client = addr) :
    ∃ session, (Session.active tf).receive addr
        (packetBytes TFTP_DATA (m + 1) (Lib.block 256 d m)) = .ok session ∧
      ((∃ t, session = .ended t ∧ t.status = .finished) ↔ (Lib.block 256 d m).length < 252) ∧
      Next addr name n dd d
        ⟨⟨c, .active tf⟩, [dataDatagram TFTP_PORT (m + 1) (Lib.block 256 d m)], []⟩
        ⟨⟨c, session⟩, [], session.sent.drop tf.sent.length⟩ := by
  have hdiv : d.length / 256 < 65535 := Nat.div_lt_of_lt_mul (by omega)
  obtain ⟨t', session, hrecv, hout, hcases⟩ := Session.receive_data hput hclient (by omega)
  have hdrop : session.sent.drop tf.sent.length = [(addr, packetBytes TFTP_ACK (m + 1) [])] := by
    rw [hout, List.drop_left]
  refine ⟨session, hrecv, ?_, ?_⟩
  -- the session takes a block below 252 bytes for the last
  · by_cases hshort : (Lib.block 256 d m).length < 252
    · rw [if_pos hshort] at hcases
      obtain ⟨rfl, hstatus, -⟩ := hcases
      exact ⟨fun _ => hshort, fun _ => ⟨t', rfl, hstatus⟩⟩
    · rw [if_neg hshort] at hcases
      obtain ⟨rfl, -, -⟩ := hcases
      refine ⟨?_, fun h => absurd h hshort⟩
      rintro ⟨t, ht, -⟩
      cases ht
  · rw [hdrop]
    rcases Nat.lt_or_eq_of_le hm with hlt | rfl
    · -- a full block
      rw [if_neg (by rw [block_length_of_lt hlt]; decide)] at hcases
      obtain ⟨rfl, hclient', hput'⟩ := hcases
      refine ⟨.reply hsent hlt hput' hclient' (Or.inl rfl) (Nat.zero_le _), Or.inr ?_⟩
      have hbn := hput.blocknum
      have hbn' := hput'.blocknum
      simp only [rank]
      simp
      omega
    · -- the last block
      have hall : d.take (256 * (d.length / 256 + 1)) = d := take_blocks_all (by decide) d
      rw [block_length_last (by decide), hall] at hcases
      have hbn := hput.blocknum
      by_cases hshort : d.length % 256 < 252
      · rw [if_pos hshort] at hcases
        obtain ⟨rfl, hstatus, hclosed⟩ := hcases
        refine ⟨.last hsent (.finished hshort hstatus hclosed), Or.inr ?_⟩
        simp only [rank]
        simp
        omega
      · rw [if_neg hshort] at hcases
        obtain ⟨rfl, hclient', hput'⟩ := hcases
        refine ⟨.last hsent (.waiting (Nat.not_lt.mp hshort) hput' hclient'), Or.inr ?_⟩
        have hbn' := hput'.blocknum
        simp only [rank]
        simp
        omega

end Session

/-- A poll of the client. -/
theorem Phase.poll (h : Phase addr name n dd d s) (myip : Bytes) :
    Next addr name n dd d s (s.afterClient (s.save.client.turn myip none false)) := by
  -- a client that waits for an answer does nothing, or reads bytes of the next block
  have hwaiting : ∀ {k : Nat}, s.save.client.Sent false d k false →
      (∀ c' : SaveClient, c'.Sent false d k false →
        Phase addr name n dd d ⟨⟨c', s.save.session⟩, s.toServer, s.toClient⟩) →
      Next addr name n dd d s (s.afterClient (s.save.client.turn myip none false)) := by
    intro k hsent hphase
    obtain ⟨hsent', hout, hless⟩ := poll_waiting myip hsent
    rw [afterClient_same hout]
    refine ⟨hphase _ hsent', ?_⟩
    rcases hless with hsame | hless
    · exact Or.inl (by rw [hsame])
    · exact Or.inr (Nat.add_lt_add_right hless _)
  cases h with
  | request hsent htakes => exact hwaiting hsent fun c' hc => .request hc htakes
  | reply hsent hm hput hclient hop hbody =>
      exact hwaiting hsent fun c' hc => .reply hc hm hput hclient hop hbody
  | ready hsent hm hput hclient =>
      rename_i c t nm m
      cases hsent with
      | running h => exact next_of_ready [] rfl h hm hput hclient
      | aborted hatn _ => cases hatn
  | data hsent hm hput hclient => exact hwaiting hsent fun c' hc => .data hc hm hput hclient
  | last hsent hstored => exact hwaiting hsent fun c' hc => .last hc hstored
  | done hsent hstored => exact hwaiting hsent fun c' hc => .done hc hstored

/-- A frame reaches the client. -/
theorem Phase.toClient (h : Phase addr name n dd d s) (hlen : d.length < 65535 * 256)
    {f : Frame} {payload : Bytes} {rest : List (Addr × Bytes)}
    (hq : s.toClient = (addr, payload) :: rest) (hf : f.Carries TFTP_PORT payload) :
    Next addr name n dd d s { s.afterClient (s.save.client.turn myip (some f) false) with
      toClient := rest } := by
  have hdiv : d.length / 256 < 65535 := Nat.div_lt_of_lt_mul (by omega)
  cases h with
  | request _ _ => cases hq
  | reply hsent hm hput hclient hop hbody =>
      rename_i c t nm m opcode body
      obtain ⟨rfl, rfl⟩ : packetBytes opcode m body = payload ∧ [] = rest := by
        simpa using hq
      cases hsent with
      | running h =>
          obtain ⟨t', hprobe, hs'⟩ := h.recv myip hf (by omega) hop (Or.inr rfl)
          rw [beq_self_eq_true, Bool.or_true] at hs'
          exact next_of_ready _ hprobe hs' hm hput hclient
      | returned _ => exact absurd hm (Nat.not_succ_le_self _)
      | aborted hatn _ => cases hatn
  | ready _ _ _ _ => cases hq
  | data _ _ _ _ => cases hq
  | last hsent hstored =>
      obtain ⟨rfl, rfl⟩ : packetBytes TFTP_ACK (d.length / 256 + 1) [] = payload ∧ [] = rest := by
        simpa using hq
      obtain ⟨hsent', hret', new, hout, hnew⟩ :=
        hsent.turn_ret myip (returned_of_sent hsent) hf (by decide) (by omega) (by decide)
          false
      have hnil : new = [] := by
        rw [List.eq_nil_iff_forall_not_mem]
        intro p hp
        exact absurd (hnew p hp).2 (by decide)
      rw [hnil, List.append_nil] at hout
      rw [afterClient_same hout]
      refine ⟨.done hsent' hstored, Or.inr ?_⟩
      have htodo := turn_ret_todo myip (some f) (returned_of_sent hsent)
      simp only [rank]
      rw [htodo]
      cases hstored <;> simp
  | done _ _ => cases hq

/-- The session answers the request. -/
theorem next_of_request {c : SaveClient} (hsent : c.Sent false d 0 false)
    (htakes : Server.Tftp.Takes devices name n dd) (hname : ∀ x ∈ name, x ≠ 0)
    (hlen : name.length ≤ NAME_LIMIT) (addr : Addr) :
    ∃ session, (Session.listening devices).receive addr (requestBytes TFTP_WRQ name) = .ok session ∧
      Next addr name n dd d ⟨⟨c, .listening devices⟩, [requestDatagram TFTP_WRQ name], []⟩
        ⟨⟨c, session⟩, [], session.sent⟩ := by
  obtain ⟨t, nm, hrecv, hput, hclient, hout⟩ := Session.receive_wrq htakes hname hlen addr d
  have hout' : (Session.active t).sent = [(addr, Session.clientOack)] := hout
  have hput' : Server.Tftp.Putting n (decode (splitDevice name).2) (· <+: d) dd.dir nm
      (d.take (256 * 0)) 0 t := hput
  refine ⟨.active t, hrecv, ?_⟩
  rw [hout']
  refine ⟨.reply hsent (Nat.zero_le _) hput' hclient (Or.inr ⟨rfl, rfl⟩) (by decide), Or.inr ?_⟩
  have hbn := hput.blocknum
  simp only [rank]
  simp
  omega

/-- A datagram reaches the session; the session can always process it. -/
theorem Phase.toServer (h : Phase addr name n dd d s) (hlen : d.length < 65535 * 256)
    (hname : ∀ x ∈ name, x ≠ 0) (hnlen : name.length ≤ NAME_LIMIT) {p : Datagram}
    {rest : List Datagram} (hq : s.toServer = p :: rest) :
    ∃ session, s.save.session.receive addr p.payload = .ok session ∧ p.dport = TFTP_PORT ∧
      Next addr name n dd d s { s.afterSession session with toServer := rest } := by
  cases h with
  | request hsent htakes =>
      obtain ⟨rfl, rfl⟩ : requestDatagram TFTP_WRQ name = p ∧ [] = rest := by simpa using hq
      obtain ⟨session, hrecv, hnext⟩ := next_of_request hsent htakes hname hnlen addr
      exact ⟨session, hrecv, rfl, hnext⟩
  | data hsent hm hput hclient =>
      rename_i c t nm m
      obtain ⟨rfl, rfl⟩ : dataDatagram TFTP_PORT (m + 1) (Lib.block 256 d m) = p ∧ [] = rest := by
        simpa using hq
      obtain ⟨session, hrecv, -, hnext⟩ := next_of_data hlen hsent hm hput hclient
      exact ⟨session, hrecv, rfl, hnext⟩
  | reply _ _ _ _ _ _ => cases hq
  | ready _ _ _ _ => cases hq
  | last _ _ => cases hq
  | done _ _ => cases hq

/-- The session's five seconds pass, all being over. -/
theorem Phase.silence (h : Phase addr name n dd d s) {value : Bool}
    (hret : s.save.client.control = .ret value) (hserver : s.toServer = [])
    (hclient : s.toClient = []) :
    Next addr name n dd d s { s with save := { s.save with session := s.save.session.silence } } := by
  cases h with
  | request _ _ => cases hserver
  | reply _ _ _ _ _ _ => cases hclient
  | ready hsent _ _ _ =>
      obtain ⟨-, -, hready, -⟩ := ret_of_sent hsent hret
      cases hready
  | data _ _ _ _ => cases hserver
  | last _ _ => cases hclient
  | done hsent hstored =>
      cases hstored with
      | finished hshort hstatus hclosed =>
          exact ⟨.done hsent (.finished hshort hstatus hclosed), Or.inl rfl⟩
      | waiting hlong hput _ =>
          refine ⟨.done hsent (.expired hlong hput), Or.inr ?_⟩
          simp only [rank, Session.silence]
          simp
      | expired hlong hput => exact ⟨.done hsent (.expired hlong hput), Or.inl rfl⟩

/-- **One step** of the transfer. -/
theorem Phase.step (h : Phase addr name n dd d s) (hlen : d.length < 65535 * 256)
    (hname : ∀ x ∈ name, x ≠ 0) (hnlen : name.length ≤ NAME_LIMIT) (hst : Step myip addr s t) :
    Next addr name n dd d s t := by
  cases hst with
  | poll => exact h.poll myip
  | toClient f payload rest hq hf => exact h.toClient hlen hq hf
  | toServer p rest session hq hport hrecv =>
      obtain ⟨session', hrecv', -, hnext⟩ := h.toServer hlen hname hnlen hq
      obtain rfl : session' = session := Except.ok.inj (hrecv'.symm.trans hrecv)
      exact hnext
  | silence value hret hserver hclient => exact h.silence hret hserver hclient

theorem phase_start {g : Globals} (hd : d ≠ []) (hreq : g.tftp.requestInProgress = .norq)
    (hlen : g.filename.length ≤ NAME_LIMIT) (hiobuf : g.iobuf.length = IOBUF_SIZE)
    (htakes : Server.Tftp.Takes devices g.filename n dd) :
    Phase addr g.filename n dd d (start g d devices) := by
  obtain ⟨g', hstart, hs⟩ := SaveClient.sent_start hd hreq hlen hiobuf
  rw [start, Save.start, hstart]
  exact .request (.running hs) htakes

/-! ## The end -/

/-- A phase in which nothing changes any more is the last one. -/
theorem Phase.of_quiescent (h : Phase addr name n dd d s) (hlen : d.length < 65535 * 256)
    (hname : ∀ x ∈ name, x ≠ 0) (hnlen : name.length ≤ NAME_LIMIT)
    (hq : Quiescent (Step myip addr) s) :
    s.save.client.Sent false d (d.length / 256 + 1) false ∧
      Stored addr n (decode (splitDevice name).2) dd d s.save.session ∧
      s.save.session.silence = s.save.session := by
  -- nothing can be on its way to the client, nor to the session
  have hclient : ∀ opcode number body rest,
      s.toClient = (addr, packetBytes opcode number body) :: rest → body.length ≤ 256 → False := by
    intro opcode number body rest hs hbody
    have hf := Frame.carries_ofPayload TFTP_PORT (packetBytes opcode number body) (by decide)
      (by rw [packetBytes_length]; omega)
    have heq := congrArg SaveDelivery.toClient (hq _ (.toClient s _ _ rest hs hf))
    rw [hs] at heq
    exact List.cons_ne_self _ _ heq.symm
  have hserver : ∀ p rest, s.toServer = p :: rest → False := by
    intro p rest hs
    obtain ⟨session, hrecv, hport, -⟩ := h.toServer hlen hname hnlen hs
    have heq := congrArg SaveDelivery.toServer (hq _ (.toServer s p rest session hs hport hrecv))
    rw [hs] at heq
    exact List.cons_ne_self _ _ heq.symm
  cases h with
  | request _ _ => exact (hserver _ _ rfl).elim
  | reply _ _ _ _ _ hbody => exact (hclient _ _ _ _ rfl hbody).elim
  | data _ _ _ _ => exact (hserver _ _ rfl).elim
  | last _ _ => exact (hclient _ _ _ _ rfl (Nat.zero_le _)).elim
  | ready hsent hm hput haddr =>
      rename_i c t nm m
      cases hsent with
      | running hs =>
          -- the client's next turn reads or sends something
          rename_i g l todo out
          have heq := hq _ (.poll _)
          have hturn : SaveClient.turn myip ⟨g, .run l, todo, out⟩ none false
              = ⟨g, .run l, todo, out⟩ :=
            congrArg (fun t : SaveDelivery => t.save.client) heq
          have ho : SaveClient.Outcome false d m true ⟨g, .run l, todo, out⟩
              (SaveClient.turn myip ⟨g, .run l, todo, out⟩ none false) :=
            SaveClient.turn_running rfl hs id
          rw [hturn] at ho
          rcases turn_ready ho with ⟨-, -, hless⟩ | ⟨-, -, -, hout⟩
          · exact absurd hless (Nat.lt_irrefl _)
          · exact absurd (congrArg List.length hout) (by simp)
      | aborted hatn _ => cases hatn
  | done hsent hstored =>
      exact ⟨hsent, hstored, congrArg (fun t : SaveDelivery => t.save.session)
        (hq _ (.silence _ true (returned_of_sent hsent) rfl rfl))⟩

/-- **A run over a network that delivers.** From every reachable state the transfer comes to an
end, where nothing changes any more; and there `recv_file` has returned 1, no request is in
progress, and the device holds all of `d`. -/
theorem save_delivered {g : Globals} (hd : d ≠ []) (hlen : d.length < 65535 * 256)
    (hreq : g.tftp.requestInProgress = .norq) (hnlen : g.filename.length ≤ NAME_LIMIT)
    (hiobuf : g.iobuf.length = IOBUF_SIZE) (htakes : Server.Tftp.Takes devices g.filename n dd)
    (h : Reachable (Step myip addr) (start g d devices) s) :
    (∃ t, Reachable (Step myip addr) s t ∧ Quiescent (Step myip addr) t) ∧
      (Quiescent (Step myip addr) s →
        s.save.client.control = .ret true ∧ s.save.client.g.tftp.requestInProgress = .norq ∧
          Stored addr n (decode (splitDevice g.filename).2) dd d s.save.session ∧
          s.save.session.silence = s.save.session) := by
  have hname : ∀ c ∈ g.filename, c ≠ 0 := untilNul_ne_nul _
  have hstep : ∀ u v, Phase addr g.filename n dd d u → Step myip addr u v →
      Next addr g.filename n dd d u v := fun u v hu hst => hu.step hlen hname hnlen hst
  have hphase : Phase addr g.filename n dd d s :=
    reachable_invariant (phase_start hd hreq hnlen hiobuf htakes)
      (fun u v hu hst => (hstep u v hu hst).1) h
  refine ⟨exists_quiescent (fun u v hu hst => (hstep u v hu hst).1)
    (fun u v hu hst hne => (hstep u v hu hst).2.resolve_left hne) s hphase, fun hq => ?_⟩
  obtain ⟨hsent, hstored, hsilence⟩ := hphase.of_quiescent hlen hname hnlen hq
  have hret := returned_of_sent hsent
  exact ⟨hret, (ret_of_sent hsent hret).2.2.2, hstored, hsilence⟩

/-- What SAVE is for: every run comes to an end, and then `recv_file` has returned 1, no request
is in progress, and the session is finished, the device holding `d` in a file that is closed; and
the session takes a DATA packet for the last one exactly when its payload is shorter than 256
bytes. -/
structure Delivers (myip : Bytes) (addr : Addr) (n : Nat) (dd : DeviceDir) (d : Bytes)
    (devices : Nat → Option Device) (g : Globals) : Prop where
  comesToEnd : ∀ s, Reachable (Step myip addr) (start g d devices) s →
    ∃ t, Reachable (Step myip addr) s t ∧ Quiescent (Step myip addr) t
  atEnd : ∀ s, Reachable (Step myip addr) (start g d devices) s → Quiescent (Step myip addr) s →
    s.save.client.control = .ret true ∧ s.save.client.g.tftp.requestInProgress = .norq ∧
      ∃ t nm, s.save.session = .ended t ∧ t.status = .finished ∧
        Server.Tftp.Closed n (decode (splitDevice g.filename).2) (· <+: d) dd.dir nm d t
  lastPacket : ∀ s, Reachable (Step myip addr) (start g d devices) s →
    ∀ number body rest session,
      s.toServer = dataDatagram TFTP_PORT number body :: rest →
      s.save.session.receive addr (packetBytes TFTP_DATA number body) = .ok session →
      ((∃ t, session = .ended t ∧ t.status = .finished) ↔ body.length < 256)

/-- The session's test for the last packet, on the block that is on its way. -/
theorem Phase.lastPacket (h : Phase addr name n dd d s) (hlen : d.length < 65535 * 256)
    (hshort : d.length % 256 < 252) {number : Nat} {body : Bytes} {rest : List Datagram}
    {session : Session} (hq : s.toServer = dataDatagram TFTP_PORT number body :: rest)
    (hrecv : s.save.session.receive addr (packetBytes TFTP_DATA number body) = .ok session) :
    (∃ t, session = .ended t ∧ t.status = .finished) ↔ body.length < 256 := by
  cases h with
  | request _ _ =>
      have hpay : requestBytes TFTP_WRQ name = packetBytes TFTP_DATA number body :=
        congrArg Datagram.payload (List.cons.inj hq).1
      have hop : (2 : Byte) = 3 := congrArg (fun q : Bytes => q.getD 1 0) hpay
      exact absurd hop (by decide)
  | data hsent hm hput hclient =>
      rename_i c t nm m
      have hpay : packetBytes TFTP_DATA (m + 1) (Lib.block 256 d m)
          = packetBytes TFTP_DATA number body := congrArg Datagram.payload (List.cons.inj hq).1
      obtain ⟨session', hrecv', hfinished, -⟩ := next_of_data hlen hsent hm hput hclient
      rw [hpay] at hrecv'
      obtain rfl : session' = session := Except.ok.inj (hrecv'.symm.trans hrecv)
      obtain ⟨-, -, rfl⟩ := packetBytes_inj hpay
      rw [hfinished]
      have hmod := block_length_lt_iff (n := 256) (by decide) hm
      refine ⟨fun h => Nat.lt_trans h (by decide), fun h => ?_⟩
      rw [hmod.mp h, block_length_last (by decide)]
      exact hshort
  | reply _ _ _ _ _ _ => cases hq
  | ready _ _ _ _ => cases hq
  | last _ _ => cases hq
  | done _ _ => cases hq

/-- A longer last block leaves the session waiting, the file open. -/
theorem not_delivers {g : Globals} (hd : d ≠ []) (hlen : d.length < 65535 * 256)
    (hreq : g.tftp.requestInProgress = .norq) (hnlen : g.filename.length ≤ NAME_LIMIT)
    (hiobuf : g.iobuf.length = IOBUF_SIZE) (htakes : Server.Tftp.Takes devices g.filename n dd)
    (hlong : 252 ≤ d.length % 256) : ¬Delivers myip addr n dd d devices g := by
  intro h
  obtain ⟨s, hs, hq⟩ := h.comesToEnd _ .refl
  obtain ⟨-, -, t, nm, hended, hstatus, -⟩ := h.atEnd s hs hq
  obtain ⟨-, -, hstored, -⟩ := (save_delivered hd hlen hreq hnlen hiobuf htakes hs).2 hq
  rw [hended] at hstored
  cases hstored with
  | finished hshort _ _ => exact absurd hlong (Nat.not_le.mpr hshort)
  | expired _ hput => exact absurd (hstatus.symm.trans hput.status) (by decide)

/-- **SAVE end to end**: it does what it is for exactly when the last block is shorter than 252
bytes. -/
theorem delivers_iff {g : Globals} (hd : d ≠ []) (hlen : d.length < 65535 * 256)
    (hreq : g.tftp.requestInProgress = .norq) (hnlen : g.filename.length ≤ NAME_LIMIT)
    (hiobuf : g.iobuf.length = IOBUF_SIZE) (htakes : Server.Tftp.Takes devices g.filename n dd) :
    Delivers myip addr n dd d devices g ↔ d.length % 256 < 252 := by
  have hdelivered : ∀ s, Reachable (Step myip addr) (start g d devices) s → _ :=
    fun s hs => save_delivered hd hlen hreq hnlen hiobuf htakes hs
  refine ⟨fun h => ?_, fun hshort => ⟨fun s hs => (hdelivered s hs).1, fun s hs hq => ?_, ?_⟩⟩
  · by_contra hlong
    exact not_delivers hd hlen hreq hnlen hiobuf htakes (Nat.not_lt.mp hlong) h
  · obtain ⟨hret, hreq', hstored, -⟩ := (hdelivered s hs).2 hq
    refine ⟨hret, hreq', ?_⟩
    generalize hsession : s.save.session = session at hstored
    cases hstored with
    | finished _ hstatus hclosed => exact ⟨_, _, rfl, hstatus, hclosed⟩
    | waiting hlong _ _ => exact absurd hshort (Nat.not_lt.mpr hlong)
    | expired hlong _ => exact absurd hshort (Nat.not_lt.mpr hlong)
  · intro s hs number body rest session hq hrecv
    have hphase : Phase addr g.filename n dd d s :=
      reachable_invariant (phase_start hd hreq hnlen hiobuf htakes)
        (fun u v hu hst => (hu.step hlen (untilNul_ne_nul _) hnlen hst).1) hs
    exact hphase.lastPacket hlen hshort hq hrecv

/-- A file of three bytes. -/
theorem delivers_iff_three_bytes :
    Delivers [] Load.sampleAddr 8 DeviceDir.empty [1, 2, 3] Session.sampleDevices
      Load.sampleGlobals :=
  (delivers_iff (by decide) (by decide) rfl (by decide) List.length_replicate
    Save.sampleDevices_takes).mpr (by decide)

/-- A file of 252 bytes. -/
theorem not_delivers_252 :
    ¬Delivers [] Load.sampleAddr 8 DeviceDir.empty (List.replicate 252 0) Session.sampleDevices
      Load.sampleGlobals := by
  have hlen : (List.replicate 252 (0 : Byte)).length = 252 := List.length_replicate
  exact not_delivers (List.ne_nil_of_length_eq_add_one hlen) (by rw [hlen]; decide) rfl
    (by decide) List.length_replicate Save.sampleDevices_takes (by rw [hlen])

end SaveDelivery

end C64Iec

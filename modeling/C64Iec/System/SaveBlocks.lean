import C64Iec.Client.ServerPort
import C64Iec.System.Save

set_option autoImplicit false

/-! # The blocks of a SAVE

`recv_file` against any server that answers the request and each block once, from whatever port and
after whatever time. An execution is an infinite sequence of turns in which no datagram of the
client stays unanswered (`Execution`). In every one of them the file is cut into blocks of 256 bytes
and a shorter one, a block is sent only when everything before it has been answered, and in the end
`recv_file` has returned and no request is in progress (`Execution.cuts`).
-/

namespace C64Iec

open Lib Client

/-- The client in `recv_file`, and which of its datagrams have been answered. -/
structure SaveBlocks where
  client : SaveClient
  answered : List Datagram
  unanswered : List Datagram

namespace SaveBlocks

/-! ## Executions -/

def start (g : Globals) (d : Bytes) : SaveBlocks :=
  ⟨.start g d, [], datagrams (SaveClient.start g d).out⟩

/-- After a turn of the client: what it has sent is to be answered. -/
def afterClient (s : SaveBlocks) (c : SaveClient) : SaveBlocks where
  client := c
  answered := s.answered
  unanswered := s.unanswered ++ (datagrams c.out).drop (datagrams s.client.out).length

/-- The answers to a datagram: ACK 0 or an OACK to a write request, ACK `k` to block `k`. -/
inductive Answers (p : Datagram) : Nat → Nat → Bytes → Prop
  | ack {name : Bytes} (h : p.payload = requestBytes TFTP_WRQ name) : Answers p TFTP_ACK 0 []
  | oack {name : Bytes} (h : p.payload = requestBytes TFTP_WRQ name) (options : Bytes) :
      Answers p TFTP_OPTACK 0 options
  | block {k : Nat} {body : Bytes} (hk : k < 65536) (h : p.payload = packetBytes TFTP_DATA k body) :
      Answers p TFTP_ACK k []

/-- A turn of the client, in which an answer may arrive. -/
inductive Step (myip : Bytes) : SaveBlocks → SaveBlocks → Prop
  | quiet (s : SaveBlocks) : Step myip s (s.afterClient (s.client.turn myip none false))
  | answer (s : SaveBlocks) {f : Frame} {p : Datagram} {before later : List Datagram}
      {sport opcode number : Nat} {body : Bytes} (hq : s.unanswered = before ++ p :: later)
      (ha : Answers p opcode number body)
      (hf : f.Carries sport (packetBytes opcode number body)) :
      Step myip s (afterClient ⟨s.client, s.answered ++ [p], before ++ later⟩
        (s.client.turn myip (some f) false))

/-- `recv_file` from its start on, no datagram staying unanswered for ever. -/
structure Execution (myip : Bytes) (g : Globals) (d : Bytes) (s : Nat → SaveBlocks) : Prop where
  start : s 0 = .start g d
  step : ∀ i, Step myip (s i) (s (i + 1))
  answers : ∀ i, ∀ p ∈ (s i).unanswered, ∃ j, i ≤ j ∧ p ∉ (s j).unanswered

/-! ## What is sent -/

/-- The file in blocks of 256 bytes, and what is left over. -/
structure Cut (d : Bytes) (blocks : List Bytes) : Prop where
  count : blocks.length = d.length / 256 + 1
  full : ∀ b ∈ blocks.dropLast, b.length = 256
  last : ∀ b ∈ blocks.getLast?, b.length = d.length % 256
  whole : blocks.flatten = d

/-- The request, and the blocks with their numbers. -/
def packetsOf (name : Bytes) (blocks : List Bytes) : List Bytes :=
  requestBytes TFTP_WRQ name :: blocks.mapIdx fun k body => packetBytes TFTP_DATA (k + 1) body

/-- The first `m` blocks of `d`. -/
def firstBlocks (d : Bytes) (m : Nat) : List Bytes := (List.range m).map (Lib.block 256 d)

theorem cut_firstBlocks (d : Bytes) : Cut d (firstBlocks d (d.length / 256 + 1)) where
  count := by simp [firstBlocks]
  full := by
    intro b hb
    simp only [firstBlocks, List.range_succ, List.map_append, List.map_cons, List.map_nil,
      List.dropLast_concat, List.mem_map, List.mem_range] at hb
    obtain ⟨k, hk, rfl⟩ := hb
    exact block_length_of_lt hk
  last := by
    intro b hb
    simp only [firstBlocks, List.range_succ, List.map_append, List.map_cons, List.map_nil,
      List.getLast?_concat, Option.mem_def, Option.some.injEq] at hb
    rw [← hb]
    exact block_length_last (by decide) d
  whole := by rw [firstBlocks, flatten_blocks, take_blocks_all (by decide)]

theorem packetsOf_firstBlocks_succ (name d : Bytes) (m : Nat) :
    packetsOf name (firstBlocks d (m + 1)) =
      packetsOf name (firstBlocks d m) ++ [packetBytes TFTP_DATA (m + 1) (Lib.block 256 d m)] := by
  simp [packetsOf, firstBlocks, List.range_succ, List.mapIdx_append]

theorem packetsOf_isPrefix (name d : Bytes) {m n : Nat} (h : m ≤ n) :
    packetsOf name (firstBlocks d m) <+: packetsOf name (firstBlocks d n) := by
  induction n, h using Nat.le_induction with
  | base => exact List.prefix_refl _
  | succ n _ ih =>
      rw [packetsOf_firstBlocks_succ]
      exact ih.trans (List.prefix_append _ _)

/-- What answers the packet sent last. -/
theorem answers_last {p : Datagram} {opcode number m : Nat} {body name d : Bytes}
    {front : List Bytes} (ha : Answers p opcode number body)
    (hp : packetsOf name (firstBlocks d m) = front ++ [p.payload]) (hm : m < 65536) :
    number = m ∧ (opcode = TFTP_ACK ∨ opcode = TFTP_OPTACK ∧ number = 0) := by
  have hne : ∀ {k : Nat} {name body : Bytes},
      requestBytes TFTP_WRQ name ≠ packetBytes TFTP_DATA k body := by
    intro k name body h
    have hop : (2 : Byte) = 3 := congrArg (fun q : Bytes => q.getD 1 0) h
    exact absurd hop (by decide)
  cases m with
  | zero =>
      have hp : [] ++ [requestBytes TFTP_WRQ name] = front ++ [p.payload] := hp
      have hpay := List.singleton_inj.mp (List.append_inj' hp rfl).2
      cases ha with
      | ack _ => exact ⟨rfl, Or.inl rfl⟩
      | oack _ _ => exact ⟨rfl, Or.inr ⟨rfl, rfl⟩⟩
      | block _ h => exact absurd (hpay.trans h) hne
  | succ m =>
      rw [packetsOf_firstBlocks_succ] at hp
      have hpay := List.singleton_inj.mp (List.append_inj' hp rfl).2
      cases ha with
      | ack h => exact absurd (hpay.trans h).symm hne
      | oack h _ => exact absurd (hpay.trans h).symm hne
      | block hk h =>
          obtain ⟨-, hnum, -⟩ := packetBytes_inj (hpay.trans h)
          rw [Nat.mod_eq_of_lt hm, Nat.mod_eq_of_lt hk] at hnum
          exact ⟨hnum.symm, Or.inl rfl⟩

/-! ## The client's turns -/

end SaveBlocks

/-- The client as if the server were at `TFTP_PORT`. -/
def SaveClient.atPort (c : SaveClient) : SaveClient :=
  ⟨c.g.atPort, c.control, c.todo, c.out.map Output.toPort⟩

namespace SaveBlocks

theorem datagrams_toPort (out : List Output) :
    datagrams (out.map Output.toPort) = (datagrams out).map Datagram.toPort := by
  induction out with
  | nil => rfl
  | cons o out ih =>
      have happ := datagrams_append [o.toPort] (out.map Output.toPort)
      have happ' := datagrams_append [o] out
      rw [List.singleton_append] at happ happ'
      rw [List.map_cons, happ, happ', ih, List.map_append]
      cases o <;> rfl

theorem turn_atPort (myip : Bytes) (c : SaveClient) {packet packet' : Option Frame}
    (h : Option.Rel SamePacket packet packet') :
    c.atPort.turn myip packet' false = (c.turn myip packet false).atPort := by
  obtain ⟨g, control, todo, out⟩ := c
  cases control with
  | run l =>
      have hstep := recvFileStep_atPort myip g l
        ⟨packet, false, SaveClient.nextByte todo, .timeout none, .timeout none⟩ h
      dsimp only at hstep
      simp only [SaveClient.turn, SaveClient.atPort, hstep, turnAtPort, List.map_append]
  | ret value =>
      have hprobe : ethernetProbeForPacket myip g.atPort.tftp packet' = _ :=
        ethernetProbeForPacket_atPort myip g.tftp h
      simp only [SaveClient.turn, SaveClient.atPort, hprobe, probeAtPort, List.map_append]
      rfl

/-- A turn adds to what has been put out. -/
theorem turn_out (myip : Bytes) (c : SaveClient) (packet : Option Frame) :
    ∃ new, (c.turn myip packet false).out = c.out ++ new := by
  obtain ⟨g, control, todo, out⟩ := c
  cases control <;> exact ⟨_, rfl⟩

theorem turn_datagrams (myip : Bytes) (c : SaveClient) (packet : Option Frame) :
    ∃ new, datagrams (c.turn myip packet false).out = datagrams c.out ++ new := by
  obtain ⟨new, hnew⟩ := turn_out myip c packet
  exact ⟨datagrams new, by rw [hnew, datagrams_append]⟩

/-- What the client with the port replaced has sent, the client has sent. -/
theorem sent_of_atPort {c c' : SaveClient} {new ds : List Datagram}
    (hnew : datagrams c'.out = datagrams c.out ++ new)
    (h : datagrams c'.atPort.out = datagrams c.atPort.out ++ ds) :
    new.map Datagram.toPort = ds := by
  simp only [SaveClient.atPort, datagrams_toPort, hnew, List.map_append] at h
  exact List.append_cancel_left h

/-! ## The invariant -/

/-- The first `m` blocks have been sent, and are answered but for the last of them, which is if the
client is `ready` for the next. -/
structure Phase (name d : Bytes) (m : Nat) (ready : Bool) (s : SaveBlocks) : Prop where
  sent : SaveClient.Sent false d m ready s.client.atPort
  packets : (datagrams s.client.out).map Datagram.payload = packetsOf name (firstBlocks d m)
  history : datagrams s.client.out = s.answered ++ s.unanswered
  outstanding : s.unanswered.length ≤ 1
  allAnswered : ready = true → s.unanswered = []
  waiting : ready = false → m ≤ d.length / 256 → s.unanswered ≠ []

/-- What is still to happen: bytes to read, datagrams to send, a datagram to be answered. -/
def measure (d : Bytes) (s : SaveBlocks) : Nat :=
  s.client.todo.length + 2 * (d.length / 256 + 2 - (datagrams s.client.out).length) +
    s.unanswered.length

/-- A turn keeps the invariant and does something, unless the client waits for an answer or has
returned. -/
structure Progress (name d : Bytes) (s s' : SaveBlocks) : Prop where
  phase : ∃ m ready, Phase name d m ready s'
  less : measure d s' < measure d s ∨ measure d s' = measure d s ∧ s'.unanswered = s.unanswered ∧
    (s.unanswered ≠ [] ∨ s.client.control = .ret true)
  stays : s.client.control = .ret true → s'.client.control = .ret true

variable {myip : Bytes} {name d : Bytes} {m : Nat} {ready : Bool} {s : SaveBlocks}

/-- A turn that adds these datagrams. -/
theorem afterClient_append {c : SaveClient} {new : List Datagram}
    (hnew : datagrams c.out = datagrams s.client.out ++ new) :
    s.afterClient c = ⟨c, s.answered, s.unanswered ++ new⟩ := by
  rw [afterClient, hnew, List.drop_left]

/-- The client, ready for the next block or not, takes a turn; an answer that came in that turn has
made it ready and is counted already. -/
theorem progress_of_outcome (c₁ : SaveClient) {packet : Option Frame}
    (hpackets : (datagrams s.client.out).map Datagram.payload = packetsOf name (firstBlocks d m))
    (hhistory : datagrams s.client.out = s.answered ++ s.unanswered)
    (hunanswered : s.unanswered.length = if ready then 0 else 1)
    (hout₁ : datagrams c₁.out = datagrams s.client.atPort.out) (htodo₁ : c₁.todo = s.client.todo)
    (ho : SaveClient.Outcome false d m ready c₁ (s.client.turn myip packet false).atPort) :
    (∃ m ready, Phase name d m ready (s.afterClient (s.client.turn myip packet false))) ∧
      (measure d (s.afterClient (s.client.turn myip packet false)) < measure d s ∨
        measure d (s.afterClient (s.client.turn myip packet false)) = measure d s ∧
          (s.afterClient (s.client.turn myip packet false)).unanswered = s.unanswered ∧
          ready = false) := by
  obtain ⟨new, hnew⟩ := turn_datagrams myip s.client packet
  have hlen : (datagrams s.client.out).length = m + 1 := by
    have := congrArg List.length hpackets
    simpa [packetsOf, firstBlocks] using this
  rw [afterClient_append hnew]
  rcases ho with ⟨hsent, hout, hless⟩ | ⟨rfl, hm, hless, hsent, hout⟩
  · -- nothing has been sent
    rw [hout₁, ← List.append_nil (datagrams s.client.atPort.out)] at hout
    obtain rfl : new = [] := List.map_eq_nil_iff.mp (sent_of_atPort hnew hout)
    rw [List.append_nil] at hnew ⊢
    refine ⟨⟨m, ready, {
      sent := hsent
      packets := by rw [hnew, hpackets]
      history := by rw [hnew, hhistory]
      outstanding := by
        rw [hunanswered]
        split <;> decide
      allAnswered := fun hr => List.length_eq_zero_iff.mp (by rw [hunanswered, if_pos hr])
      waiting := fun hr _ hnil => by
        rw [hnil, hr] at hunanswered
        cases hunanswered }⟩, ?_⟩
    rcases hless with hlt | ⟨hr, hsame⟩ | hatn
    · refine Or.inl ?_
      rw [htodo₁] at hlt
      have hlt : (s.client.turn myip packet false).todo.length < s.client.todo.length := hlt
      simp only [measure, hnew]
      omega
    · refine Or.inr ⟨?_, rfl, hr⟩
      have htodo : (s.client.turn myip packet false).todo = s.client.todo :=
        (congrArg SaveClient.todo hsame).trans htodo₁
      simp only [measure, hnew, htodo]
    · cases hatn
  · -- the next block has been sent
    rw [hout₁] at hout
    have hmap := sent_of_atPort hnew hout
    obtain ⟨p, rfl⟩ : ∃ p, new = [p] :=
      List.length_eq_one_iff.mp (by simpa using congrArg List.length hmap)
    have hp : p.payload = packetBytes TFTP_DATA (m + 1) (Lib.block 256 d m) :=
      congrArg Datagram.payload (List.singleton_inj.mp hmap)
    have hnil : s.unanswered = [] := List.length_eq_zero_iff.mp (by rw [hunanswered, if_pos rfl])
    refine ⟨⟨m + 1, false, {
      sent := hsent
      packets := by
        rw [hnew, List.map_append, hpackets, packetsOf_firstBlocks_succ, List.map_singleton, hp]
      history := by rw [hnew, hhistory, List.append_assoc]
      outstanding := by simp [hnil]
      allAnswered := fun hr => by cases hr
      waiting := fun _ _ => by simp }⟩, Or.inl ?_⟩
    rw [htodo₁] at hless
    have hless : (s.client.turn myip packet false).todo.length ≤ s.client.todo.length := hless
    simp only [measure, hnew, hnil, List.length_append, List.length_singleton, List.nil_append, hlen,
      List.length_nil]
    omega

theorem ethernetProbeForPacket_none (myip : Bytes) (t : Client.Tftp) :
    ethernetProbeForPacket myip t none = (t, []) := rfl

/-- After the return nothing happens until something comes in. -/
theorem quiet_of_ret {value : Bool} (h : s.client.control = .ret value) :
    s.afterClient (s.client.turn myip none false) = s := by
  have hsame : s.client.turn myip none false = s.client := by
    obtain ⟨⟨g, control, todo, out⟩, answered, unanswered⟩ := s
    cases h
    simp [SaveClient.turn, ethernetProbeForPacket]
  rw [hsame, afterClient_append (List.append_nil _).symm, List.append_nil]

/-- **A turn without an answer.** -/
theorem Phase.quiet (h : Phase name d m ready s) (myip : Bytes) :
    Progress name d s (s.afterClient (s.client.turn myip none false)) := by
  have hturn : s.client.atPort.turn myip none false = (s.client.turn myip none false).atPort :=
    turn_atPort myip s.client .none
  have hsent := h.sent
  cases hcontrol : s.client.control with
  | run l =>
      have hat : s.client.atPort
          = ⟨s.client.g.atPort, .run l, s.client.todo, s.client.out.map Output.toPort⟩ := by
        rw [SaveClient.atPort, hcontrol]
      rw [hat] at hsent
      have hsending := hsent.sending
      have ho : SaveClient.Outcome false d m ready s.client.atPort
          (s.client.turn myip none false).atPort := by
        rw [← hturn, hat]
        exact SaveClient.turn_running (g := s.client.g.atPort) (t := s.client.g.atPort.tftp)
          (b := false) (ethernetProbeForPacket_none myip _) hsending id
      have hwaits : ready = false → s.unanswered ≠ [] := fun hr =>
        h.waiting hr (SaveClient.Sending_le hsending)
      have hunanswered : s.unanswered.length = if ready then 0 else 1 := by
        have hle := h.outstanding
        cases hr : ready with
        | true => simp [h.allAnswered hr]
        | false =>
            have hpos := List.length_pos_iff.mpr (hwaits hr)
            simp only [Bool.false_eq_true, if_false]
            omega
      obtain ⟨hphase, hless⟩ := progress_of_outcome s.client.atPort h.packets h.history
        hunanswered rfl rfl ho
      exact ⟨hphase, hless.imp_right fun ⟨hμ, hun, hr⟩ => ⟨hμ, hun, Or.inl (hwaits hr)⟩,
        fun hret => by rw [hcontrol] at hret; cases hret⟩
  | ret value =>
      rw [quiet_of_ret hcontrol]
      refine ⟨⟨m, ready, h⟩, Or.inr ⟨rfl, rfl, Or.inr ?_⟩, id⟩
      rw [SaveClient.atPort, hcontrol] at hsent
      cases hsent with
      | returned => exact hcontrol
      | aborted hatn _ => cases hatn

/-- Only the datagram sent last is unanswered, and an answer to it has its number. -/
theorem Phase.answered (h : Phase name d m ready s) (hlen : d.length < 65535 * 256) {p : Datagram}
    {before later : List Datagram} {opcode number : Nat} {body : Bytes}
    (hq : s.unanswered = before ++ p :: later) (ha : Answers p opcode number body) :
    before = [] ∧ later = [] ∧ ready = false ∧ number = m ∧
      (opcode = TFTP_ACK ∨ opcode = TFTP_OPTACK ∧ number = 0) := by
  obtain ⟨rfl, rfl⟩ : before = [] ∧ later = [] := by
    have hle := h.outstanding
    rw [hq, List.length_append, List.length_cons] at hle
    exact ⟨List.length_eq_zero_iff.mp (by omega), List.length_eq_zero_iff.mp (by omega)⟩
  rw [List.nil_append] at hq
  have hready : ready = false := by
    by_contra hr
    rw [h.allAnswered (by simpa using hr)] at hq
    cases hq
  have hlast : packetsOf name (firstBlocks d m)
      = s.answered.map Datagram.payload ++ [p.payload] := by
    rw [← h.packets, h.history, hq, List.map_append, List.map_singleton]
  have hm := h.sent.le
  obtain ⟨hnumber, hop⟩ := answers_last ha hlast (by omega)
  exact ⟨rfl, rfl, hready, hnumber, hop⟩

section Answer

variable {f : Frame} {p : Datagram} {sport opcode : Nat} {body : Bytes}

/-- The client, the answer `f` of whose last datagram comes from some port, takes the turn it would
take if the answer came from `TFTP_PORT`. -/
theorem turn_atPort_answer (myip : Bytes) (c : SaveClient) (hop : opcode < 65536) (hm : m < 65536)
    (hf : f.Carries sport (packetBytes opcode m body)) :
    ∃ f', f'.Carries TFTP_PORT (packetBytes opcode m body) ∧
      c.atPort.turn myip (some f') false = (c.turn myip (some f) false).atPort := by
  obtain ⟨f', hf'⟩ := exists_samePacket hf
  exact ⟨f', hf', turn_atPort myip c (.some ⟨sport, opcode, m, body, hop, hm, hf, hf'⟩)⟩

/-- While `recv_file` runs, the answer makes it ready for the next block. -/
theorem Phase.answer_running (h : Phase name d m false s) (myip : Bytes) {l : RecvFile}
    (hcontrol : s.client.control = .run l) (hq : s.unanswered = [p]) (hm : m < 65536)
    (hop : opcode = TFTP_ACK ∨ opcode = TFTP_OPTACK ∧ m = 0)
    (hf : f.Carries sport (packetBytes opcode m body)) :
    Progress name d s (afterClient ⟨s.client, s.answered ++ [p], []⟩
      (s.client.turn myip (some f) false)) := by
  have hoplt : opcode < 65536 := by
    rcases hop with rfl | ⟨rfl, -⟩ <;> decide
  obtain ⟨f', hf', hturn⟩ := turn_atPort_answer myip s.client hoplt hm hf
  have hhistory : datagrams s.client.out = (s.answered ++ [p]) ++ [] := by
    rw [h.history, hq, List.append_nil]
  have hat : s.client.atPort
      = ⟨s.client.g.atPort, .run l, s.client.todo, s.client.out.map Output.toPort⟩ := by
    rw [SaveClient.atPort, hcontrol]
  have hsent := h.sent
  rw [hat] at hsent
  obtain ⟨t, hprobe, hsending⟩ := hsent.sending.recv myip hf' hm hop (Or.inr rfl)
  rw [beq_self_eq_true, Bool.or_true] at hsending
  have ho : SaveClient.Outcome false d m true
      ⟨{ s.client.g.atPort with tftp := t }, .run l, s.client.todo,
        s.client.out.map Output.toPort⟩
      (s.client.turn myip (some f) false).atPort := by
    rw [← hturn, hat]
    exact SaveClient.turn_running (b := false) hprobe hsending id
  obtain ⟨hphase, hless⟩ := progress_of_outcome (s := ⟨s.client, s.answered ++ [p], []⟩) _
    h.packets hhistory rfl (by rw [hat]) (by rfl) ho
  refine ⟨hphase, Or.inl ?_, fun hret => by rw [hcontrol] at hret; cases hret⟩
  -- the answer itself counts, whatever the turn does
  have hcounted : measure d s = measure d ⟨s.client, s.answered ++ [p], []⟩ + 1 := by
    simp only [measure, hq]
    rfl
  rw [hcounted]
  rcases hless with hlt | ⟨-, -, hr⟩
  · exact hlt.trans (Nat.lt_succ_self _)
  · cases hr

/-- When it has returned, the answer to the last block changes nothing. -/
theorem Phase.answer_returned (h : Phase name d m false s) (myip : Bytes) {value : Bool}
    (hcontrol : s.client.control = .ret value) (hq : s.unanswered = [p]) (hm : m < 65536)
    (hop : opcode = TFTP_ACK ∨ opcode = TFTP_OPTACK ∧ m = 0)
    (hf : f.Carries sport (packetBytes opcode m body)) :
    Progress name d s (afterClient ⟨s.client, s.answered ++ [p], []⟩
      (s.client.turn myip (some f) false)) := by
  have hoplt : opcode < 65536 := by
    rcases hop with rfl | ⟨rfl, -⟩ <;> decide
  obtain ⟨f', hf', hturn⟩ := turn_atPort_answer myip s.client hoplt hm hf
  have hsent := h.sent
  obtain ⟨hsent', -, new, hnew, hreply⟩ := hsent.turn_ret myip hcontrol hf' hoplt hm
    (by rcases hop with rfl | ⟨rfl, -⟩ <;> decide) false
  obtain ⟨rfl, hnumber⟩ : value = true ∧ m = d.length / 256 + 1 := by
    rw [SaveClient.atPort, hcontrol] at hsent
    cases hsent with
    | returned => exact ⟨rfl, rfl⟩
    | aborted hatn _ => cases hatn
  -- only an OACK is answered, and this is the ACK of a block
  have hack : opcode = TFTP_ACK := hop.resolve_right fun h0 => by omega
  obtain rfl : new = [] := by
    cases new with
    | nil => rfl
    | cons q _ =>
        have hoack := (hreply q List.mem_cons_self).2
        rw [hack] at hoack
        cases hoack
  rw [hturn] at hsent' hnew
  obtain ⟨ds, hds⟩ := turn_datagrams myip s.client (some f)
  obtain rfl : ds = [] := List.map_eq_nil_iff.mp (sent_of_atPort hds hnew)
  have htodo : (s.client.turn myip (some f) false).todo = s.client.todo := by
    simp only [SaveClient.turn, hcontrol]
  have hstays : (s.client.turn myip (some f) false).control = .ret true := by
    simp only [SaveClient.turn, hcontrol]
  rw [afterClient_append (s := ⟨s.client, s.answered ++ [p], []⟩) hds, List.append_nil]
  rw [List.append_nil] at hds
  refine ⟨⟨m, false, {
    sent := hsent'
    packets := by rw [hds, h.packets]
    history := by rw [hds, h.history, hq, List.append_nil]
    outstanding := Nat.zero_le _
    allAnswered := fun _ => rfl
    waiting := fun _ hle => by omega }⟩, Or.inl ?_, fun _ => hstays⟩
  simp only [measure, hds, htodo, hq, List.length_nil, List.length_singleton]
  omega

/-- **A turn with an answer.** -/
theorem Phase.answer (h : Phase name d m ready s) (hlen : d.length < 65535 * 256) (myip : Bytes)
    {before later : List Datagram} {number : Nat} (hq : s.unanswered = before ++ p :: later)
    (ha : Answers p opcode number body) (hf : f.Carries sport (packetBytes opcode number body)) :
    Progress name d s (afterClient ⟨s.client, s.answered ++ [p], before ++ later⟩
      (s.client.turn myip (some f) false)) := by
  obtain ⟨rfl, rfl, rfl, rfl, hop⟩ := h.answered hlen hq ha
  have hle := h.sent.le
  have hlt : number < 65536 := by omega
  cases hcontrol : s.client.control with
  | run l => exact h.answer_running myip hcontrol hq hlt hop hf
  | ret value => exact h.answer_returned myip hcontrol hq hlt hop hf

end Answer

theorem Phase.step (h : Phase name d m ready s) (hlen : d.length < 65535 * 256) {s' : SaveBlocks}
    (hst : Step myip s s') : Progress name d s s' := by
  cases hst with
  | quiet => exact h.quiet myip
  | answer hq ha hf => exact h.answer hlen myip hq ha hf

theorem phase_start {g : Globals} (hd : d ≠ []) (hreq : g.tftp.requestInProgress = .norq)
    (hname : g.filename.length ≤ NAME_LIMIT) (hiobuf : g.iobuf.length = IOBUF_SIZE) :
    Phase g.filename d 0 false (start g d) := by
  obtain ⟨g', hstart, hsending⟩ := SaveClient.sent_start hd hreq hname hiobuf
  have hat : Sending d 0 false g'.atPort (.byte 0) d :=
    { hsending with acked := fun hr => absurd hr (by decide) }
  rw [start, hstart]
  exact {
    sent := .running hat
    packets := rfl
    history := rfl
    outstanding := Nat.le_refl _
    allAnswered := fun hr => by cases hr
    waiting := fun _ _ => List.cons_ne_nil _ _ }

/-- When `recv_file` has returned, all has been sent. -/
theorem Phase.returned (h : Phase name d m ready s) (hret : s.client.control = .ret true) :
    m = d.length / 256 + 1 ∧ s.client.g.tftp.requestInProgress = .norq := by
  have hsent := h.sent
  rw [SaveClient.atPort, hret] at hsent
  cases hsent with
  | returned hreq => exact ⟨rfl, hreq⟩

/-! ## Whole executions -/

namespace Execution

variable {g : Globals} {s : Nat → SaveBlocks}

/-- The invariant holds at every moment. -/
theorem phase (h : Execution myip g d s) (hd : d ≠ []) (hlen : d.length < 65535 * 256)
    (hreq : g.tftp.requestInProgress = .norq) (hname : g.filename.length ≤ NAME_LIMIT)
    (hiobuf : g.iobuf.length = IOBUF_SIZE) (i : Nat) :
    ∃ m ready, Phase g.filename d m ready (s i) := by
  induction i with
  | zero =>
      rw [h.start]
      exact ⟨0, false, phase_start hd hreq hname hiobuf⟩
  | succ i ih =>
      obtain ⟨m, ready, hphase⟩ := ih
      exact (hphase.step hlen (h.step i)).phase

/-- In the end `recv_file` returns. -/
theorem exists_returned (h : Execution myip g d s) (hd : d ≠ []) (hlen : d.length < 65535 * 256)
    (hreq : g.tftp.requestInProgress = .norq) (hname : g.filename.length ≤ NAME_LIMIT)
    (hiobuf : g.iobuf.length = IOBUF_SIZE) : ∃ i, (s i).client.control = .ret true := by
  have hphase := h.phase hd hlen hreq hname hiobuf
  have hprogress : ∀ i, Progress g.filename d (s i) (s (i + 1)) := fun i => by
    obtain ⟨m, ready, hi⟩ := hphase i
    exact hi.step hlen (h.step i)
  refine exists_done (fun s : SaveBlocks => s.client.control = .ret true) (SaveBlocks.measure d)
    unanswered (fun i => Or.inr ((hprogress i).less.imp_right fun hi => ⟨hi.1, hi.2.1⟩)) fun i => ?_
  cases hq : (s i).unanswered with
  | nil =>
      -- the client is not waiting: the next turn does something
      rcases (hprogress i).less with hlt | ⟨-, -, hne | hret⟩
      · exact ⟨i + 1, Nat.le_succ i, Or.inr (Or.inl hlt)⟩
      · exact absurd hq hne
      · exact ⟨i, Nat.le_refl i, Or.inl hret⟩
  | cons p rest =>
      obtain ⟨j, hij, hp⟩ := h.answers i p (by rw [hq]; exact List.mem_cons_self)
      refine ⟨j, hij, Or.inr (Or.inr fun heq => hp ?_)⟩
      rw [heq]
      exact List.mem_cons_self

/-- **The blocks of a SAVE.** The file is cut into blocks, and at every moment what has been sent is
the request and some of the blocks from the first on, in order and each once, all answered but for
the last. From some moment on it is all of them, `recv_file` has returned and no request is in
progress. -/
theorem cuts (h : Execution myip g d s) (hd : d ≠ []) (hlen : d.length < 65535 * 256)
    (hreq : g.tftp.requestInProgress = .norq) (hname : g.filename.length ≤ NAME_LIMIT)
    (hiobuf : g.iobuf.length = IOBUF_SIZE) :
    ∃ blocks, Cut d blocks ∧
      (∀ i, (datagrams (s i).client.out).map Datagram.payload <+: packetsOf g.filename blocks ∧
        datagrams (s i).client.out = (s i).answered ++ (s i).unanswered ∧
        (s i).unanswered.length ≤ 1) ∧
      ∃ n, ∀ i, n ≤ i →
        (datagrams (s i).client.out).map Datagram.payload = packetsOf g.filename blocks ∧
        (s i).client.control = .ret true ∧
        (s i).client.g.tftp.requestInProgress = .norq := by
  have hphase := h.phase hd hlen hreq hname hiobuf
  refine ⟨firstBlocks d (d.length / 256 + 1), cut_firstBlocks d, fun i => ?_, ?_⟩
  · obtain ⟨m, ready, hi⟩ := hphase i
    rw [hi.packets]
    exact ⟨packetsOf_isPrefix _ _ hi.sent.le, hi.history, hi.outstanding⟩
  · obtain ⟨n, hn⟩ := h.exists_returned hd hlen hreq hname hiobuf
    refine ⟨n, fun i hle => ?_⟩
    have hret : (s i).client.control = .ret true := by
      induction i, hle using Nat.le_induction with
      | base => exact hn
      | succ i _ ih =>
          obtain ⟨m, ready, hi⟩ := hphase i
          exact (hi.step hlen (h.step i)).stays ih
    obtain ⟨m, ready, hi⟩ := hphase i
    obtain ⟨rfl, hnorq⟩ := hi.returned hret
    exact ⟨hi.packets, hret, hnorq⟩

end Execution

/-- The turn in which ACK `number` comes in. -/
def acked (s : SaveBlocks) (number : Nat) : SaveBlocks :=
  afterClient ⟨s.client, s.answered ++ s.unanswered, []⟩
    (s.client.turn [] (some (.ofPayload TFTP_PORT (packetBytes TFTP_ACK number []))) false)

theorem step_acked {p : Datagram} {number : Nat} (hq : s.unanswered = [p])
    (ha : Answers p TFTP_ACK number []) : Step [] s (s.acked number) := by
  have hq' : s.unanswered = [] ++ p :: [] := hq
  rw [acked, hq]
  exact .answer s hq' ha
    (Frame.carries_ofPayload _ _ (by decide) (by rw [packetBytes_length]; decide))

/-- A file of 257 bytes. -/
def sampleFile : Bytes := List.replicate 256 1 ++ [66]

/-- The SAVE of it, each datagram answered in the next turn. -/
def sampleRun : Nat → SaveBlocks
  | 0 => .start Load.sampleGlobals sampleFile
  | i + 1 =>
      if i = 0 then (sampleRun i).acked 0
      else if i = 256 then (sampleRun i).acked 1
      else if i = 257 then (sampleRun i).acked 2
      else (sampleRun i).afterClient ((sampleRun i).client.turn [] none false)

theorem sampleRun_quiet {i : Nat} (h : 0 < i ∧ i < 256 ∨ 257 < i) : sampleRun (i + 1)
    = (sampleRun i).afterClient ((sampleRun i).client.turn [] none false) := by
  rw [sampleRun, if_neg (by omega), if_neg (by omega), if_neg (by omega)]

/-- The blocks go out in turns 256 and 257, and the call returns. -/
theorem sampleRun_sends :
    (sampleRun 0).unanswered = [requestDatagram TFTP_WRQ Load.sampleGlobals.filename] ∧
      (sampleRun 256).unanswered = [dataDatagram TFTP_PORT 1 (List.replicate 256 1)] ∧
      (sampleRun 257).unanswered = [dataDatagram TFTP_PORT 2 [66]] ∧
      (sampleRun 258).unanswered = [] ∧ (sampleRun 258).client.control = .ret true := by
  decide +kernel

/-- From then on nothing happens. -/
theorem sampleRun_stays (i : Nat) : sampleRun (258 + i) = sampleRun 258 := by
  induction i with
  | zero => rfl
  | succ i ih =>
      have hturn := sampleRun_quiet (show 0 < 258 + i ∧ 258 + i < 256 ∨ 257 < 258 + i by omega)
      rw [ih, quiet_of_ret sampleRun_sends.2.2.2.2] at hturn
      exact hturn

theorem execution_sampleRun : Execution [] Load.sampleGlobals sampleFile sampleRun := by
  obtain ⟨h0, h1, h2, h3, -⟩ := sampleRun_sends
  refine ⟨rfl, fun i => ?_, fun i p _ => ⟨258 + i, by omega, ?_⟩⟩
  · by_cases hquiet : 0 < i ∧ i < 256 ∨ 257 < i
    · rw [sampleRun_quiet hquiet]
      exact .quiet (sampleRun i)
    · rw [sampleRun]
      obtain rfl | rfl | rfl : i = 0 ∨ i = 256 ∨ i = 257 := by omega
      · rw [if_pos rfl]
        exact step_acked h0 (.ack rfl)
      · rw [if_neg (by decide), if_pos rfl]
        exact step_acked h1 (.block (by decide) rfl)
      · rw [if_neg (by decide), if_neg (by decide), if_pos rfl]
        exact step_acked h2 (.block (by decide) rfl)
  · rw [sampleRun_stays, h3]
    exact List.not_mem_nil

theorem cuts_two_blocks :
    ∃ blocks, Cut sampleFile blocks ∧
      (∀ i, (datagrams (sampleRun i).client.out).map Datagram.payload <+:
          packetsOf Load.sampleGlobals.filename blocks ∧
        datagrams (sampleRun i).client.out = (sampleRun i).answered ++ (sampleRun i).unanswered ∧
        (sampleRun i).unanswered.length ≤ 1) ∧
      ∃ n, ∀ i, n ≤ i →
        (datagrams (sampleRun i).client.out).map Datagram.payload =
          packetsOf Load.sampleGlobals.filename blocks ∧
        (sampleRun i).client.control = .ret true ∧
        (sampleRun i).client.g.tftp.requestInProgress = .norq := by
  have hlen : sampleFile.length < 65535 * 256 := by
    rw [sampleFile, List.length_append, List.length_replicate]
    decide
  exact execution_sampleRun.cuts (by decide) hlen rfl (by decide) List.length_replicate

end SaveBlocks

end C64Iec

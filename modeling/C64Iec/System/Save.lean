import C64Iec.Client.SaveClient
import C64Iec.Lib.StopAndWait
import C64Iec.Server.PutSession
import C64Iec.System.Load

set_option autoImplicit false

/-! # SAVE over a network

`recv_file` on one side, a session storing a file on the other. `Save.Step` lets the network do
as it likes. The system simulates stop-and-wait as long as what the two sides are given is in
turn (`Save.Refines.step`), and then what has been stored is a piece of the file from its start.
-/

namespace C64Iec

open Lib Server Client

/-! ## The client's side -/

/-- The client in `recv_file`, or back in `loop`; the C64 still has the bytes `todo` to send. -/
structure SaveClient where
  g : Globals
  control : Control RecvFile
  todo : Bytes
  out : List Output

namespace SaveClient

/-- The client once `recv_file` has been called, the C64 having the bytes `d` to send. -/
def start (g : Globals) (d : Bytes) : SaveClient :=
  let (g, out, c) := recvFileStart g
  ⟨g, c, d, out⟩

/-- What `get_byte` gets from the C64: the next byte, with EOI on the last. -/
def nextByte : Bytes → GetByte
  | [] => .timeout none
  | b :: rest => .byte b (decide (rest = []))

/-- Whether the turn reads a byte. -/
def reads (l : RecvFile) (atn : Bool) : Bool :=
  match l with
  | .byte _ => !atn
  | _ => false

/-- A turn of the loop `recv_file` is in or, after its return, of `loop`. -/
def turn (myip : Bytes) (c : SaveClient) (packet : Option Frame) (atn : Bool) : SaveClient :=
  match c.control with
  | .run l =>
      let (g, out, control) := recvFileStep myip c.g l
        ⟨packet, atn, nextByte c.todo, .timeout none, .timeout none⟩
      ⟨g, control, if reads l atn then c.todo.tail else c.todo, c.out ++ out⟩
  | .ret value =>
      let (t, out) := ethernetProbeForPacket myip c.g.tftp packet
      ⟨{ c.g with tftp := t }, .ret value, c.todo, c.out ++ out⟩

/-- The client has sent the first `k` blocks of `d`. It is on its way, ready for the next block
or not; it has returned with all of them sent; or, if ATN may have been asserted (`atn`), that
has made it return. -/
inductive Sent (atn : Bool) (d : Bytes) : Nat → Bool → SaveClient → Prop
  | running {k : Nat} {ready : Bool} {g : Globals} {l : RecvFile} {todo : Bytes}
      {out : List Output} (h : Sending d k ready g l todo) :
      Sent atn d k ready ⟨g, .run l, todo, out⟩
  | returned {g : Globals} {todo : Bytes} {out : List Output}
      (hreq : g.tftp.requestInProgress = .norq) :
      Sent atn d (d.length / 256 + 1) false ⟨g, .ret true, todo, out⟩
  | aborted {k : Nat} {ready : Bool} {g : Globals} {todo : Bytes} {out : List Output}
      (hatn : atn = true) (hk : k ≤ d.length / 256 + 1) :
      Sent atn d k ready ⟨g, .ret false, todo, out⟩

variable {atn : Bool} {d : Bytes} {k : Nat} {ready : Bool} {c : SaveClient} {g : Globals}
  {l : RecvFile}
  {todo : Bytes} {out : List Output}

/-- While `recv_file` runs, a block is still to be sent. -/
theorem Sending_le (h : Sending d k ready g l todo) : k ≤ d.length / 256 := by
  have hplace := h.place
  cases l with
  | byte a =>
      obtain ⟨-, -, htodo, hne⟩ := hplace
      have hlt : 256 * k + a < d.length := by
        by_contra hle
        exact hne (by rw [htodo, List.drop_of_length_le (Nat.not_lt.mp hle)])
      omega
  | block a eoi =>
      obtain ⟨hpos, ha, -⟩ := hplace
      have hlen := block_length 256 d k
      omega
  | emptyBlock =>
      obtain ⟨-, hlen, -⟩ := hplace
      omega

theorem Sent.le (h : Sent atn d k ready c) : k ≤ d.length / 256 + 1 := by
  cases h with
  | running h => exact Nat.le_succ_of_le (Sending_le h)
  | returned _ => exact Nat.le_refl _
  | aborted _ hk => exact hk

theorem Sent.sending (h : Sent atn d k ready ⟨g, .run l, todo, out⟩) :
    Sending d k ready g l todo := by
  cases h with
  | running h => exact h

/-- The outcome of a turn: nothing has been sent, and a byte has been read or the client waits
to become ready, or ATN has made it return; or a client that was ready has sent the next block. -/
def Outcome (atn : Bool) (d : Bytes) (k : Nat) (ready : Bool) (c c' : SaveClient) : Prop :=
  Sent atn d k ready c' ∧ datagrams c'.out = datagrams c.out ∧
      (c'.todo.length < c.todo.length ∨ ready = false ∧ c' = c ∨ atn = true) ∨
    ready = true ∧ k ≤ d.length / 256 ∧ c'.todo.length ≤ c.todo.length ∧
      Sent atn d (k + 1) false c' ∧
      datagrams c'.out = datagrams c.out ++ [dataDatagram TFTP_PORT (k + 1) (Lib.block 256 d k)]

theorem sent_of_sentBlock {control : Control RecvFile} (h : SentBlock d k todo g control) :
    Sent atn d k false ⟨g, control, todo, out⟩ := by
  cases h with
  | more h => exact .running h
  | last hk hreq =>
      subst hk
      exact .returned hreq

/-- A turn that comes to `tftp_put_block` with a block, reading a byte first or not. -/
theorem outcome_block {a : Nat} {eoi : Bool} {old : SaveClient}
    (h : Sending d k ready g (.block a eoi) todo) (hout : out = old.out)
    (hold : todo.length < old.todo.length ∨ old = ⟨g, .run (.block a eoi), todo, out⟩) :
    Outcome atn d k ready old ⟨(recvFileBlock g a eoi).1, (recvFileBlock g a eoi).2.2, todo,
      out ++ (recvFileBlock g a eoi).2.1⟩ := by
  cases ready with
  | false =>
      rw [h.block_wait]
      refine Or.inl ⟨.running h, by simp [hout], ?_⟩
      rcases hold with hlt | rfl
      · exact Or.inl hlt
      · exact Or.inr (Or.inl ⟨rfl, by simp⟩)
  | true =>
      obtain ⟨g', control, hsend, hsent⟩ := h.block_send
      rw [hsend]
      refine Or.inr ⟨rfl, Sending_le h, ?_, sent_of_sentBlock hsent, by simp [hout]⟩
      rcases hold with hlt | rfl
      · exact Nat.le_of_lt hlt
      · exact Nat.le_refl _

theorem outcome_emptyBlock (h : Sending d k ready g .emptyBlock todo) :
    Outcome atn d k ready ⟨g, .run .emptyBlock, todo, out⟩
      ⟨(recvFileEmptyBlock g).1, (recvFileEmptyBlock g).2.2, todo,
        out ++ (recvFileEmptyBlock g).2.1⟩ := by
  cases ready with
  | false =>
      rw [h.emptyBlock_wait]
      exact Or.inl ⟨.running h, by simp, Or.inr (Or.inl ⟨rfl, by simp⟩)⟩
  | true =>
      obtain ⟨g', control, hsend, hsent⟩ := h.emptyBlock_send
      rw [hsend]
      exact Or.inr ⟨rfl, Sending_le h, Nat.le_refl _, sent_of_sentBlock hsent, by simp⟩

/-- A turn that reads a byte, and comes to `tftp_put_block` if that completes the block. -/
theorem turn_byte {myip : Bytes} {packet : Option Frame} {t : Client.Tftp} {a : Nat} {x : Byte}
    {rest : Bytes} (hprobe : ethernetProbeForPacket myip g.tftp packet = (t, []))
    (h : Sending d k ready { g with tftp := t } (.byte a) (x :: rest)) :
    Outcome atn d k ready ⟨{ g with tftp := t }, .run (.byte a), x :: rest, out⟩
      (turn myip ⟨g, .run (.byte a), x :: rest, out⟩ packet false) := by
  have hread := h.byte_read
  have hreq : t.requestInProgress = .put := h.request
  have herr : t.error = false := h.error
  set g' : Globals := { g with tftp := t, iobuf := g.iobuf.set a x } with hg'
  by_cases hend : a + 1 = 256 ∨ rest = []
  · rw [if_pos hend] at hread
    have hturn : turn myip ⟨g, .run (.byte a), x :: rest, out⟩ packet false
        = ⟨(recvFileBlock g' (a + 1) (decide (rest = []))).1,
            (recvFileBlock g' (a + 1) (decide (rest = []))).2.2, rest,
            out ++ (recvFileBlock g' (a + 1) (decide (rest = []))).2.1⟩ := by
      simp only [turn, recvFileStep, hprobe, nextByte, GetByte.store, GetByte.eoi, hreq, herr,
        Bool.false_eq_true, if_false, decide_eq_true_eq, hend, if_true, reads, ← hg']
      simp
    rw [hturn]
    exact outcome_block hread rfl (Or.inl (Nat.lt_succ_self _))
  · rw [if_neg hend] at hread
    have hturn : turn myip ⟨g, .run (.byte a), x :: rest, out⟩ packet false
        = ⟨g', .run (.byte (a + 1)), rest, out⟩ := by
      simp only [turn, recvFileStep, hprobe, nextByte, GetByte.store, GetByte.eoi, hreq, herr,
        Bool.false_eq_true, if_false, decide_eq_true_eq, hend, reads, ← hg']
      simp
    rw [hturn]
    exact Or.inl ⟨.running hread, rfl, Or.inl (Nat.lt_succ_self _)⟩

/-- **A turn** of `recv_file`, given what the frame has made of the client. -/
theorem turn_running {myip : Bytes} {packet : Option Frame} {t : Client.Tftp} {b : Bool}
    (hprobe : ethernetProbeForPacket myip g.tftp packet = (t, []))
    (h : Sending d k ready { g with tftp := t } l todo) (hb : b = true → atn = true) :
    Outcome atn d k ready ⟨{ g with tftp := t }, .run l, todo, out⟩
      (turn myip ⟨g, .run l, todo, out⟩ packet b) := by
  cases l with
  | byte a =>
      cases hb' : b with
      | true =>
          refine Or.inl ⟨?_, by simp [turn, recvFileStep], Or.inr (Or.inr (hb hb'))⟩
          simp only [turn, recvFileStep, if_true]
          exact .aborted (hb hb') (Nat.le_succ_of_le (Sending_le h))
      | false =>
          obtain ⟨-, -, -, hne⟩ := h.place
          cases todo with
          | nil => exact absurd rfl hne
          | cons x rest => exact turn_byte hprobe h
  | block a eoi =>
      have hturn : turn myip ⟨g, .run (.block a eoi), todo, out⟩ packet b
          = ⟨(recvFileBlock { g with tftp := t } a eoi).1,
              (recvFileBlock { g with tftp := t } a eoi).2.2, todo,
              out ++ (recvFileBlock { g with tftp := t } a eoi).2.1⟩ := by
        simp [turn, recvFileStep, hprobe, reads]
      rw [hturn]
      exact outcome_block h rfl (Or.inr rfl)
  | emptyBlock =>
      have hturn : turn myip ⟨g, .run .emptyBlock, todo, out⟩ packet b
          = ⟨(recvFileEmptyBlock { g with tftp := t }).1,
              (recvFileEmptyBlock { g with tftp := t }).2.2, todo,
              out ++ (recvFileEmptyBlock { g with tftp := t }).2.1⟩ := by
        simp [turn, recvFileStep, hprobe, reads]
      rw [hturn]
      exact outcome_emptyBlock h

/-- A client that is ready sends its block after some polls. The induction is on the bytes still
to be read. -/
theorem exists_send (myip : Bytes) : ∀ (m : Nat) (g : Globals) (l : RecvFile) (todo : Bytes)
    (out : List Output), todo.length = m → Sending d k true g l todo →
    ∃ c', Reachable (fun c c' => c' = c.turn myip none false) ⟨g, .run l, todo, out⟩ c' ∧
      Sent false d (k + 1) false c' ∧
      datagrams c'.out = datagrams out ++ [dataDatagram TFTP_PORT (k + 1) (Lib.block 256 d k)] := by
  intro m
  induction m using Nat.strong_induction_on with
  | _ m ih =>
      intro g l todo out hm h
      have hturn : Outcome false d k true ⟨g, .run l, todo, out⟩
          (turn myip ⟨g, .run l, todo, out⟩ none false) := turn_running rfl h (fun h => h)
      rcases hturn with ⟨hsent, hout, hless⟩ | ⟨-, -, -, hsent, hout⟩
      · have hlt : (turn myip ⟨g, .run l, todo, out⟩ none false).todo.length < m := by
          rcases hless with hlt | ⟨hr, -⟩ | hatn
          · exact hm ▸ hlt
          · cases hr
          · cases hatn
        cases hc : turn myip ⟨g, .run l, todo, out⟩ none false with
        | mk g' control todo' out' =>
            rw [hc] at hsent hout hlt
            cases hsent with
            | running h' =>
                obtain ⟨c', hreach, hsent', hout'⟩ := ih _ hlt _ _ todo' out' rfl h'
                have hout'' : datagrams out' = datagrams out := hout
                rw [hout''] at hout'
                exact ⟨c', .head hc.symm hreach, hsent', hout'⟩
            | aborted hatn _ => cases hatn
      · exact ⟨_, .single rfl, hsent, hout⟩

/-- The same after a turn whose frame has made the client ready. -/
theorem exists_send_of_outcome {c₀ : SaveClient} (myip : Bytes)
    (ho : Outcome false d k true c₀ c) :
    ∃ c', Reachable (fun c c' => c' = c.turn myip none false) c c' ∧
      Sent false d (k + 1) false c' ∧
      datagrams c'.out
        = datagrams c₀.out ++ [dataDatagram TFTP_PORT (k + 1) (Lib.block 256 d k)] := by
  rcases ho with ⟨hsent, hout, -⟩ | ⟨-, -, -, hsent, hout⟩
  · cases hsent with
    | running h =>
        obtain ⟨c', hreach, hsent', hout'⟩ := exists_send myip _ _ _ _ _ rfl h
        exact ⟨c', hreach, hsent', hout'.trans (congrArg (· ++ _) hout)⟩
    | aborted hatn _ => cases hatn
  · exact ⟨_, .refl, hsent, hout⟩

/-- After the return a frame makes the client send nothing but ACK 0, and that for an OACK. -/
theorem Sent.turn_ret {v : Bool} {f : Frame} {opcode number : Nat} {body : Bytes}
    (h : Sent atn d k ready c) (myip : Bytes) (hret : c.control = .ret v)
    (hf : f.Carries TFTP_PORT (packetBytes opcode number body)) (hop : opcode < 65536)
    (hnum : number < 65536) (hne : opcode ≠ TFTP_ERROR) (b : Bool) :
    Sent atn d k ready (c.turn myip (some f) b) ∧ (c.turn myip (some f) b).control = .ret v ∧
      ∃ new, datagrams (c.turn myip (some f) b).out = datagrams c.out ++ new ∧
        ∀ p ∈ new, p = ackDatagram TFTP_PORT 0 ∧ opcode = TFTP_OPTACK := by
  have hrecv := tftpRecvPacket_of_carries myip c.g.tftp hf hop hnum
  have hturn : c.turn myip (some f) b
      = ⟨{ c.g with tftp := (recvDatagram c.g.tftp TFTP_PORT opcode number body).1 }, .ret v, c.todo,
          c.out ++ (recvDatagram c.g.tftp TFTP_PORT opcode number body).2.map .udp⟩ := by
    simp only [turn, hret, ethernetProbeForPacket, hrecv]
  rw [hturn]
  refine ⟨?_, rfl, _, by rw [datagrams_append, datagrams_map_udp], recvDatagram_out _ _ _ _ _⟩
  cases h with
  | running h => cases hret
  | returned hreq =>
      cases hret
      exact .returned (recvDatagram_norq hreq TFTP_PORT number body hne).1
  | aborted hatn hk =>
      cases hret
      exact .aborted hatn hk

/-- The start of `recv_file`: the request goes out. -/
theorem sent_start {g : Globals} (hd : d ≠ []) (hreq : g.tftp.requestInProgress = .norq)
    (hname : g.filename.length ≤ NAME_LIMIT) (hiobuf : g.iobuf.length = IOBUF_SIZE) :
    ∃ g', start g d = ⟨g', .run (.byte 0), d, [.udp (requestDatagram TFTP_WRQ g.filename)]⟩ ∧
      Sending d 0 false g' (.byte 0) d := by
  have hsend := tftpSendRequest_eq TFTP_WRQ .put { g.tftp with
    clearToSend := false, error := false, lastblk := 65535 } g.filename
  rw [if_pos ⟨hreq, hname⟩] at hsend
  have ht : (tftpPutFile g.tftp g.filename).2.1 = _ := congrArg Prod.fst hsend
  have hlast : (tftpPutFile g.tftp g.filename).2.1.lastblk = 65535 := by rw [ht]
  refine ⟨{ g with tftp := (tftpPutFile g.tftp g.filename).2.1 }, ?_, ?_⟩
  · simp [start, recvFileStart, tftpPutFile, tftpSendWrq, hsend]
  · exact {
      request := by rw [ht]
      error := by rw [ht]
      iobuf := hiobuf
      tftpdata := by
        rw [ht]
        show 4 ≤ (blit g.tftp.tftpdata 0 _).length
        rw [blit_zero, List.length_append, requestBytes_length]
        omega
      clearToSend := by rw [ht]
      bound := by decide
      acked := fun h => absurd h (by decide)
      waiting := fun _ => by
        show ((tftpPutFile g.tftp g.filename).2.1.lastblk + 1) % 65536 = 0 % 65536
        rw [hlast]
      place := ⟨by decide, rfl, rfl, hd⟩ }

end SaveClient

/-! ## The session's side -/

namespace Session

/-- The session has stored the first `k` blocks of the file: it is on its way, or over. `dd` is
the directory as the request found it. -/
inductive Took (addr : Addr) (name : Bytes) (n : Nat) (dd : DeviceDir) (d : Bytes) :
    Nat → Session → Prop
  | listening {devices : Nat → Option Device} (h : Server.Tftp.Takes devices name n dd) :
      Took addr name n dd d 0 (.listening devices)
  | active {k : Nat} {nm : Bytes} {t : Server.Tftp}
      (h : Server.Tftp.Putting n (decode (splitDevice name).2) (· <+: d) dd.dir nm
        (d.take (256 * k)) k t)
      (hclient : t.client = addr) : Took addr name n dd d k (.active t)
  | ended {k : Nat} {nm : Bytes} {t : Server.Tftp} {dd' : DeviceDir}
      (hdev : t.devices n = some (.dir dd'))
      (hstored : dd'.Stored (decode (splitDevice name).2) (· <+: d) dd.dir nm
        (d.take (256 * k))) : Took addr name n dd d k (.ended t)

variable {addr : Addr} {name : Bytes} {n : Nat} {dd : DeviceDir} {d : Bytes} {k : Nat} {nm : Bytes}
  {t : Server.Tftp} {s : Session}

/-- The write request reaches the listening server. -/
theorem receive_wrq {devices : Nat → Option Device} (h : Server.Tftp.Takes devices name n dd)
    (hname : ∀ c ∈ name, c ≠ 0) (hlen : name.length ≤ NAME_LIMIT) (addr : Addr) (d : Bytes) :
    ∃ t' nm, (listening devices).receive addr (requestBytes TFTP_WRQ name) = .ok (active t') ∧
      Server.Tftp.Putting n (decode (splitDevice name).2) (· <+: d) dd.dir nm [] 0 t' ∧
      t'.client = addr ∧
      t'.sent = [(addr, clientOack)] := by
  obtain ⟨t', nm, hdisp, hput, hclient, hsent⟩ :=
    Server.Tftp.Putting.start (P := (· <+: d)) [] addr h List.nil_prefix hname
      (isMode_iff.mpr (Or.inl rfl)) clientOptions_ok
      (List.cons_ne_nil _ _)
  rw [← requestBytes_eq] at hdisp
  have hrecv := receive_listening (recvfrom_requestBytes _ hlen) hdisp
  have hafter : after t' = active t' := by simp [after, Server.Tftp.waiting, hput.status]
  rw [hafter] at hrecv
  exact ⟨t', nm, hrecv, hput, hclient, hsent⟩

/-- The write request reaches the session again: the file is created anew. -/
theorem receive_wrq_again {w : Bytes}
    (h : Server.Tftp.Putting n (decode (splitDevice name).2) (· <+: d) dd.dir nm w k t)
    (hclient : t.client = addr) (hnumber : (splitDevice name).1 = n) (hname : ∀ c ∈ name, c ≠ 0)
    (hlen : name.length ≤ NAME_LIMIT)
    (hrecv : (active t).receive addr (requestBytes TFTP_WRQ name) = .ok s) :
    ∃ t' nm', s = active t' ∧
      Server.Tftp.Putting n (decode (splitDevice name).2) (· <+: d) dd.dir nm' [] k t' ∧
      t'.client = addr ∧
      t'.sent = t.sent ++ [(addr, clientOack)] := by
  obtain ⟨dd', hdev, -, hstored⟩ := h.file
  simp only [receive, recvfrom_requestBytes _ hlen, bind, Except.bind] at hrecv
  cases hdisp : t.dispatch (requestBytes TFTP_WRQ name) with
  | error e =>
      rw [hdisp] at hrecv
      cases hrecv
  | ok t' =>
      rw [hdisp] at hrecv
      obtain rfl : after t' = s := Except.ok.inj hrecv
      rw [requestBytes_eq] at hdisp
      obtain ⟨nm', hput, hclient', hsent⟩ :=
        Server.Tftp.dispatch_wrq hnumber hdev hstored.onlyAdds List.nil_prefix hname
          (isMode_iff.mpr (Or.inl rfl)) clientOptions_ok
          (List.cons_ne_nil _ _) hdisp h.lastPacket h.sendEmpty
      rw [h.blocknum] at hput
      refine ⟨t', nm', by simp [after, Server.Tftp.waiting, hput.status], hput, ?_, ?_⟩
      · rw [hclient', hclient]
      · rw [hsent, hclient]
        rfl

/-- **The next block** reaches the session: it is stored and acknowledged. The session is over
when the block is shorter than 252 bytes. -/
theorem receive_data
    (h : Server.Tftp.Putting n (decode (splitDevice name).2) (· <+: d) dd.dir nm
      (d.take (256 * k)) k t) (hclient : t.client = addr) (hlt : k + 1 < 65536) :
    ∃ t' s', (active t).receive addr (packetBytes TFTP_DATA (k + 1) (Lib.block 256 d k)) = .ok s' ∧
      s'.sent = t.sent ++ [(addr, packetBytes TFTP_ACK (k + 1) [])] ∧
      if (Lib.block 256 d k).length < 252 then
        s' = ended t' ∧ t'.status = .finished ∧
          Server.Tftp.Closed n (decode (splitDevice name).2) (· <+: d) dd.dir nm
            (d.take (256 * (k + 1))) t'
      else
        s' = active t' ∧ t'.client = addr ∧
          Server.Tftp.Putting n (decode (splitDevice name).2) (· <+: d) dd.dir nm
            (d.take (256 * (k + 1))) (k + 1) t' := by
  have hcut := recvfrom_packetBytes TFTP_DATA (k + 1) (block_length_le 256 d k)
  have hP : d.take (256 * k) ++ Lib.block 256 d k <+: d := by
    rw [take_append_block]
    exact List.take_prefix _ _
  -- the session takes a block below 252 bytes for the last
  by_cases hlen : (Lib.block 256 d k).length < 252
  · obtain ⟨t', hdisp, hstatus, hclosed, hsent⟩ := h.data_last (k + 1) hlen hP
    rw [take_append_block] at hclosed
    rw [Nat.mod_eq_of_lt hlt, hclient] at hsent
    have hrecv := receive_active addr hcut hdisp
    rw [after_finished hstatus] at hrecv
    refine ⟨t', _, hrecv, hsent, ?_⟩
    rw [if_pos hlen]
    exact ⟨rfl, hstatus, hclosed⟩
  · obtain ⟨t', hdisp, hput, hclient', hsent⟩ := h.data (k + 1) (Nat.not_lt.mp hlen) hP
    rw [take_append_block, Nat.mod_eq_of_lt hlt] at hput
    rw [Nat.mod_eq_of_lt hlt, hclient] at hsent
    have hrecv := receive_active addr hcut hdisp
    have hafter : after t' = active t' := by simp [after, Server.Tftp.waiting, hput.status]
    rw [hafter] at hrecv
    refine ⟨t', _, hrecv, hsent, ?_⟩
    rw [if_neg hlen]
    exact ⟨rfl, hclient'.trans hclient, hput⟩

/-- A session that stores a file dies of an acknowledgement. -/
theorem receive_ack_putting {c64 w : Bytes} {P : Bytes → Prop} {old : Dir}
    (h : Server.Tftp.Putting n c64 P old nm w k t) (addr : Addr) (b : Nat) :
    (active t).receive addr (packetBytes TFTP_ACK b []) = .error .ioError := by
  simp only [receive, recvfrom_ack, h.ack, bind, Except.bind]

/-- A server that listens dies of DATA. -/
theorem receive_data_listening (devices : Nat → Option Device) (addr : Addr) (number : Nat)
    {body : Bytes} (hlen : body.length ≤ 256) :
    (listening devices).receive addr (packetBytes TFTP_DATA number body)
      = .error .noMethodError := by
  have hdisp : (Server.Tftp.new devices [] addr).dispatch (packetBytes TFTP_DATA number body)
      = .error .noMethodError := by
    rw [Server.Tftp.dispatch_data]
    simp only [Server.Tftp.packetData, uint16_number, Server.Tftp.BLKPOS, bind, Except.bind]
    rfl
  simp only [receive, recvfrom_packetBytes _ _ hlen, hdisp, bind, Except.bind]

end Session

/-! ## The system -/

/-- The client and the session; what each has sent is what the network may deliver. -/
structure Save where
  client : SaveClient
  session : Session

namespace Save

/-- `recv_file` has been called to take `d` from the C64, the server listens. -/
def start (g : Globals) (d : Bytes) (devices : Nat → Option Device) : Save :=
  ⟨.start g d, .listening devices⟩

/-- A turn of the client or of the session. Whatever has been sent may arrive, at any time and
any number of times, and ATN may be asserted; `turnC` and `turnS` restrict what the client in
`recv_file` and the waiting session are given to process. -/
inductive Step (myip : Bytes) (addr : Addr) (turnC : SaveClient → Bytes → Prop)
    (turnS : Server.Tftp → Bytes → Prop) : Save → Save → Prop
  | poll (s : Save) (atn : Bool) :
      Step myip addr turnC turnS s { s with client := s.client.turn myip none atn }
  | toClient (s : Save) (atn : Bool) (f : Frame) (payload : Bytes)
      (hsent : (addr, payload) ∈ s.session.sent)
      (hturn : ∀ l, s.client.control = .run l → turnC s.client payload)
      (hf : f.Carries TFTP_PORT payload) :
      Step myip addr turnC turnS s { s with client := s.client.turn myip (some f) atn }
  | toServer (s : Save) (p : Datagram) (session : Session) (hsent : p ∈ datagrams s.client.out)
      (hport : p.dport = TFTP_PORT) (hturn : ∀ t, s.session = .active t → turnS t p.payload)
      (hrecv : s.session.receive addr p.payload = .ok session) :
      Step myip addr turnC turnS s { s with session := session }
  | silence (s : Save) : Step myip addr turnC turnS s { s with session := s.session.silence }

/-- What is in turn for the client: a repetition of the number received last, which it drops, or
the acknowledgement of the block sent last (the datagrams sent are the request and the blocks;
the OACK has number 0). -/
def ClientInTurn (c : SaveClient) (payload : Bytes) : Prop :=
  packetNumber payload = c.g.tftp.lastblk ∨ packetNumber payload + 1 = (datagrams c.out).length

/-- What is in turn for a session: of the blocks the next one, and a request only while no block
has come. -/
def SessionInTurn (t : Server.Tftp) (data : Bytes) : Prop :=
  (uint16 data 0 = .ok (some TFTP_DATA) → packetNumber data = t.blocknum + 1) ∧
    (uint16 data 0 = .ok (some TFTP_WRQ) → t.blocknum = 0)

/-- The state of the system is that of stop-and-wait on the blocks of `d`. A client that is
ready has seen its last block acknowledged. -/
structure Refines (addr : Addr) (name : Bytes) (n : Nat) (dd : DeviceDir) (d : Bytes) (s : Save)
    (a : StopAndWait) : Prop where
  sent : ∃ ready, s.client.Sent true d a.sent ready ∧ (ready = true → a.sent ≤ a.got)
  got : s.session.Took addr name n dd d a.got
  count : ∀ l, s.client.control = .run l → (datagrams s.client.out).length = a.sent + 1
  pieces : ∀ p ∈ datagrams s.client.out, p = requestDatagram TFTP_WRQ name ∨
    p = ackDatagram TFTP_PORT 0 ∨
    ∃ j < a.sent, p = dataDatagram TFTP_PORT (j + 1) (Lib.block 256 d j)
  acks : ∀ p ∈ s.session.sent, p = (addr, Session.clientOack) ∨
    ∃ j ≤ a.got, p = (addr, packetBytes TFTP_ACK j [])
  bound : a.got < 65536

section Simulation

variable {myip : Bytes} {addr : Addr} {name : Bytes} {n : Nat} {dd : DeviceDir} {d : Bytes}
  {devices : Nat → Option Device} {s t : Save} {a : StopAndWait}

/-- A turn of `recv_file` with one of the two outcomes. -/
theorem Refines.outcome (h : Refines addr name n dd d s a) {l : RecvFile} {ready : Bool}
    {c₀ c : SaveClient} (hrun : s.client.control = .run l) (hc₀ : c₀.out = s.client.out)
    (hready : ready = true → a.sent ≤ a.got) (ho : SaveClient.Outcome true d a.sent ready c₀ c) :
    ∃ b, Reachable StopAndWait.Step a b ∧ Refines addr name n dd d { s with client := c } b := by
  rcases ho with ⟨hsent, hout, -⟩ | ⟨hr, hk, -, hsent, hout⟩
  · rw [hc₀] at hout
    refine ⟨a, .refl, ⟨ready, hsent, hready⟩, h.got, ?_, ?_, h.acks, h.bound⟩
    · intro _ _
      rw [← h.count l hrun, ← hout]
    · intro p hp
      exact h.pieces p (hout ▸ hp)
  · rw [hc₀] at hout
    refine ⟨_, StopAndWait.reachable_advance (hready hr), ⟨false, hsent, fun hf => by cases hf⟩,
      h.got, ?_, ?_, h.acks, h.bound⟩
    · intro _ _
      show (datagrams c.out).length = a.sent + 1 + 1
      rw [hout, List.length_append, h.count l hrun]
      rfl
    · intro p hp
      have hp' : p ∈ datagrams c.out := hp
      rw [hout, List.mem_append, List.mem_singleton] at hp'
      rcases hp' with hp' | rfl
      · rcases h.pieces p hp' with h1 | h1 | ⟨j, hj, h1⟩
        · exact Or.inl h1
        · exact Or.inr (Or.inl h1)
        · exact Or.inr (Or.inr ⟨j, Nat.lt_succ_of_lt hj, h1⟩)
      · exact Or.inr (Or.inr ⟨a.sent, Nat.lt_succ_self _, rfl⟩)

/-- A poll of the client. -/
theorem Refines.poll (h : Refines addr name n dd d s a) (atn : Bool) :
    ∃ b, Reachable StopAndWait.Step a b ∧
      Refines addr name n dd d { s with client := s.client.turn myip none atn } b := by
  obtain ⟨client, session⟩ := s
  obtain ⟨ready, hsent, hready⟩ := h.sent
  obtain ⟨g, control, todo, out⟩ := client
  cases control with
  | run l => exact h.outcome rfl rfl hready (SaveClient.turn_running rfl hsent.sending fun _ => rfl)
  | ret v =>
      have hturn : SaveClient.turn myip ⟨g, .ret v, todo, out⟩ none atn = ⟨g, .ret v, todo, out⟩ := by
        simp [SaveClient.turn, ethernetProbeForPacket]
      exact ⟨a, .refl, by rw [hturn]; exact h⟩

/-- The frames that reach the client carry acknowledgements: the OACK or one of a number. -/
theorem Refines.payload (h : Refines addr name n dd d s a) {payload : Bytes}
    (hsent : (addr, payload) ∈ s.session.sent) :
    ∃ opcode j body, payload = packetBytes opcode j body ∧ j ≤ a.got ∧
      (opcode = TFTP_ACK ∨ opcode = TFTP_OPTACK ∧ j = 0) := by
  rcases h.acks _ hsent with hp | ⟨j, hj, hp⟩
  · exact ⟨TFTP_OPTACK, 0, _, congrArg Prod.snd hp, Nat.zero_le _, Or.inr ⟨rfl, rfl⟩⟩
  · exact ⟨TFTP_ACK, j, [], congrArg Prod.snd hp, hj, Or.inl rfl⟩

/-- A frame in turn reaches the client. -/
theorem Refines.toClient (h : Refines addr name n dd d s a) (atn : Bool) {f : Frame} {payload : Bytes}
    (hsent : (addr, payload) ∈ s.session.sent)
    (hturn : ∀ l, s.client.control = .run l → ClientInTurn s.client payload)
    (hf : f.Carries TFTP_PORT payload) :
    ∃ b, Reachable StopAndWait.Step a b ∧
      Refines addr name n dd d { s with client := s.client.turn myip (some f) atn } b := by
  obtain ⟨opcode, j, body, rfl, hj, hop⟩ := h.payload hsent
  have hlt : j < 65536 := Nat.lt_of_le_of_lt hj h.bound
  obtain ⟨ready, hready, hle⟩ := h.sent
  cases hcontrol : s.client.control with
  | run l =>
      have hcount := h.count l hcontrol
      have hin := hturn l hcontrol
      rw [ClientInTurn, packetNumber_packetBytes, Nat.mod_eq_of_lt hlt, hcount] at hin
      obtain ⟨client, session⟩ := s
      obtain ⟨g, control, todo, out⟩ := client
      obtain rfl : control = .run l := hcontrol
      have hs := hready.sending
      obtain ⟨t, hprobe, hs'⟩ := hs.recv myip hf hlt hop (by
        rcases hin with hin | hin
        · exact Or.inl hin
        · exact Or.inr (Nat.succ.inj hin))
      refine h.outcome rfl ?_ ?_ (SaveClient.turn_running hprobe hs' fun _ => rfl)
      · rfl
      · intro hr
        rcases Bool.or_eq_true_iff.mp hr with hr | hr
        · exact hle hr
        · exact Nat.le_trans (Nat.le_of_eq (beq_iff_eq.mp hr).symm) hj
  | ret v =>
      have hoplt : opcode < 65536 ∧ opcode ≠ TFTP_ERROR := by
        rcases hop with rfl | ⟨rfl, -⟩ <;> decide
      obtain ⟨hready', hcontrol', new, hout, hnew⟩ :=
        hready.turn_ret myip hcontrol hf hoplt.1 hlt hoplt.2 atn
      refine ⟨a, .refl, ⟨ready, hready', hle⟩, h.got, ?_, ?_, h.acks, h.bound⟩
      · intro l hl
        exact absurd (hcontrol'.symm.trans hl) (by simp)
      · intro p hp
        have hp' : p ∈ datagrams (s.client.turn myip (some f) atn).out := hp
        rw [hout, List.mem_append] at hp'
        rcases hp' with hp' | hp'
        · exact h.pieces p hp'
        · exact Or.inr (Or.inl (hnew p hp').1)

/-- The request reaches the session, for the first time or again; an OACK is sent. -/
theorem Refines.request (h : Refines addr name n dd d s a)
    (hnumber : (splitDevice name).1 = n) (hname : ∀ c ∈ name, c ≠ 0)
    (hlen : name.length ≤ NAME_LIMIT) {session : Session}
    (hturn : ∀ t, s.session = .active t → SessionInTurn t (requestBytes TFTP_WRQ name))
    (hrecv : s.session.receive addr (requestBytes TFTP_WRQ name) = .ok session) :
    Refines addr name n dd d { s with session := session } a := by
  obtain ⟨hs, hses, hcount, hpieces, hacks, hbound⟩ := h
  obtain ⟨client, ses⟩ := s
  obtain ⟨sent, got⟩ := a
  simp only at hs hses hcount hpieces hacks hbound hturn hrecv
  cases hses with
  | listening htakes =>
      obtain ⟨t', nm, hrecv', hput, hclient, hout⟩ := Session.receive_wrq htakes hname hlen addr d
      obtain rfl : Session.active t' = session := Except.ok.inj (hrecv'.symm.trans hrecv)
      refine ⟨hs, .active (by simpa using hput) hclient, hcount, hpieces, ?_, hbound⟩
      intro q hq
      have hq' : q ∈ t'.sent := hq
      rw [hout] at hq'
      exact Or.inl (List.mem_singleton.mp hq')
  | active hput hclient =>
      rename_i nm t
      -- in turn, nothing has been written that opening the file again could lose
      have hop : uint16 (requestBytes TFTP_WRQ name) 0 = .ok (some TFTP_WRQ) := by
        rw [requestBytes_eq, Server.Tftp.uint16_serialize]
        rfl
      obtain rfl : got = 0 := by
        rw [← hput.blocknum]
        exact (hturn t rfl).2 hop
      obtain ⟨t', nm', rfl, hput', hclient', hout⟩ :=
        Session.receive_wrq_again hput hclient hnumber hname hlen hrecv
      refine ⟨hs, .active (by simpa using hput') hclient', hcount, hpieces, ?_, hbound⟩
      intro q hq
      have hq' : q ∈ t'.sent := hq
      rw [hout, List.mem_append] at hq'
      rcases hq' with hq' | hq'
      · exact hacks q hq'
      · exact Or.inl (List.mem_singleton.mp hq')
  | ended hdev hstored =>
      obtain rfl := Except.ok.inj hrecv
      exact ⟨hs, .ended hdev hstored, hcount, hpieces, hacks, hbound⟩

/-- ACK 0, which the client sends when it has returned, is ignored by a session that has ended;
any other raises. -/
theorem Refines.strayAck (h : Refines addr name n dd d s a) {session : Session}
    (hrecv : s.session.receive addr (packetBytes TFTP_ACK 0 []) = .ok session) :
    Refines addr name n dd d { s with session := session } a := by
  obtain ⟨hs, hses, hcount, hpieces, hacks, hbound⟩ := h
  obtain ⟨client, ses⟩ := s
  obtain ⟨sent, got⟩ := a
  simp only at hs hses hcount hpieces hacks hbound hrecv
  cases hses with
  | listening htakes =>
      rename_i devices'
      exact absurd ((Session.receive_ack_listening devices' addr 0).symm.trans hrecv) (by simp)
  | active hput hclient =>
      exact absurd ((Session.receive_ack_putting hput addr 0).symm.trans hrecv) (by simp)
  | ended hdev hstored =>
      obtain rfl := Except.ok.inj hrecv
      exact ⟨hs, .ended hdev hstored, hcount, hpieces, hacks, hbound⟩

/-- A block reaches the session, which writes it and acknowledges it. -/
theorem Refines.block (h : Refines addr name n dd d s a) (ho : a.Ordered) {j : Nat}
    (hj : j < a.sent) {session : Session}
    (hturn : ∀ t, s.session = .active t →
      SessionInTurn t (packetBytes TFTP_DATA (j + 1) (Lib.block 256 d j)))
    (hrecv : s.session.receive addr (packetBytes TFTP_DATA (j + 1) (Lib.block 256 d j))
      = .ok session) :
    ∃ b, Reachable StopAndWait.Step a b ∧
      Refines addr name n dd d { s with session := session } b := by
  obtain ⟨hs, hses, hcount, hpieces, hacks, hbound⟩ := h
  obtain ⟨client, ses⟩ := s
  obtain ⟨sent, got⟩ := a
  simp only at hs hses hcount hpieces hacks hbound hj hturn hrecv
  cases hses with
  | listening htakes =>
      rename_i devices'
      exact absurd ((Session.receive_data_listening devices' addr (j + 1)
        (block_length_le 256 d j)).symm.trans hrecv) (by simp)
  | active hput hclient =>
      rename_i nm t
      have hle := ho.sent_le
      simp only at hle
      -- in turn, it is the block behind those that have been written
      have hnum := (hturn t rfl).1 (uint16_opcode TFTP_DATA (j + 1) _)
      have hnum' : (j + 1) % 65536 = got + 1 := by
        rw [← hput.blocknum, ← hnum]
        exact (packetNumber_packetBytes _ _ _).symm
      obtain rfl : j = got := by omega
      have hlt : j + 1 < 65536 := by omega
      obtain ⟨t', s', hrecv', hout, hcases⟩ := Session.receive_data hput hclient hlt
      obtain rfl : s' = session := Except.ok.inj (hrecv'.symm.trans hrecv)
      have hacks' : ∀ q ∈ s'.sent, q = (addr, Session.clientOack) ∨
          ∃ i ≤ j + 1, q = (addr, packetBytes TFTP_ACK i []) := by
        intro q hq
        rw [hout, List.mem_append] at hq
        rcases hq with hq | hq
        · rcases hacks q hq with h1 | ⟨i, hi, h1⟩
          · exact Or.inl h1
          · exact Or.inr ⟨i, Nat.le_succ_of_le hi, h1⟩
        · exact Or.inr ⟨j + 1, Nat.le_refl _, List.mem_singleton.mp hq⟩
      have htook : s'.Took addr name n dd d (j + 1) := by
        split at hcases
        · obtain ⟨rfl, -, dd', hdev, -, hstored⟩ := hcases
          exact .ended hdev hstored
        · obtain ⟨rfl, hclient', hput'⟩ := hcases
          exact .active hput' hclient'
      obtain ⟨ready, hsent', hready⟩ := hs
      exact ⟨_, StopAndWait.reachable_take hj,
        ⟨ready, hsent', fun hr => Nat.le_succ_of_le (hready hr)⟩, htook, hcount, hpieces, hacks', hlt⟩
  | ended hdev hstored =>
      obtain rfl := Except.ok.inj hrecv
      exact ⟨_, .refl, hs, .ended hdev hstored, hcount, hpieces, hacks, hbound⟩

/-- A datagram in turn reaches the session. -/
theorem Refines.toServer (h : Refines addr name n dd d s a) (ho : a.Ordered)
    (hnumber : (splitDevice name).1 = n) (hname : ∀ c ∈ name, c ≠ 0)
    (hlen : name.length ≤ NAME_LIMIT) {p : Datagram} {session : Session}
    (hsent : p ∈ datagrams s.client.out)
    (hturn : ∀ t, s.session = .active t → SessionInTurn t p.payload)
    (hrecv : s.session.receive addr p.payload = .ok session) :
    ∃ b, Reachable StopAndWait.Step a b ∧
      Refines addr name n dd d { s with session := session } b := by
  rcases h.pieces p hsent with rfl | rfl | ⟨j, hj, rfl⟩
  · exact ⟨a, .refl, h.request hnumber hname hlen hturn hrecv⟩
  · exact ⟨a, .refl, h.strayAck hrecv⟩
  · exact h.block ho hj hturn hrecv

/-- **The system simulates stop-and-wait** as long as what the two sides process is in turn. -/
theorem Refines.step (h : Refines addr name n dd d s a) (ho : a.Ordered)
    (hnumber : (splitDevice name).1 = n) (hname : ∀ c ∈ name, c ≠ 0)
    (hlen : name.length ≤ NAME_LIMIT) (hst : Step myip addr ClientInTurn SessionInTurn s t) :
    ∃ b, Reachable StopAndWait.Step a b ∧ Refines addr name n dd d t b := by
  cases hst with
  | poll atn => exact h.poll atn
  | toClient atn f payload hsent hturn hf => exact h.toClient atn hsent hturn hf
  | toServer p session hsent hport hturn hrecv =>
      exact h.toServer ho hnumber hname hlen hsent hturn hrecv
  | silence =>
      obtain ⟨hs, hses, hcount, hpieces, hacks, hbound⟩ := h
      obtain ⟨client, ses⟩ := s
      obtain ⟨sent, got⟩ := a
      refine ⟨_, .refl, hs, ?_, hcount, hpieces, ?_, hbound⟩
      · cases hses with
        | listening htakes => exact .listening htakes
        | active hput hclient =>
            obtain ⟨dd', hdev, -, hstored⟩ := hput.file
            exact .ended hdev hstored
        | ended hdev hstored => exact .ended hdev hstored
      · cases hses <;> exact hacks

theorem refines_start {g : Globals} (hd : d ≠ []) (hreq : g.tftp.requestInProgress = .norq)
    (hlen : g.filename.length ≤ NAME_LIMIT) (hiobuf : g.iobuf.length = IOBUF_SIZE)
    (htakes : Server.Tftp.Takes devices g.filename n dd) :
    Refines addr g.filename n dd d (start g d devices) .start := by
  obtain ⟨g', hstart, hs⟩ := SaveClient.sent_start hd hreq hlen hiobuf
  rw [start, hstart]
  refine ⟨⟨false, .running hs, fun h => by cases h⟩, .listening htakes, fun _ _ => rfl, ?_,
    fun p hp => absurd hp List.not_mem_nil, by decide⟩
  intro p hp
  exact Or.inl (List.mem_singleton.mp hp)

end Simulation

/-- Every reachable state is one of stop-and-wait. -/
theorem refines_of_reachable {myip : Bytes} {addr : Addr} {n : Nat} {dd : DeviceDir} {d : Bytes}
    {devices : Nat → Option Device} {g : Globals} {s : Save} (hd : d ≠ [])
    (hreq : g.tftp.requestInProgress = .norq) (hlen : g.filename.length ≤ NAME_LIMIT)
    (hiobuf : g.iobuf.length = IOBUF_SIZE) (htakes : Server.Tftp.Takes devices g.filename n dd)
    (h : Reachable (Step myip addr ClientInTurn SessionInTurn) (start g d devices) s) :
    ∃ a : StopAndWait, a.Ordered ∧ Refines addr g.filename n dd d s a := by
  have hstep : ∀ (u v : Save) (b : StopAndWait), Reachable StopAndWait.Step .start b →
      Refines addr g.filename n dd d u b → Step myip addr ClientInTurn SessionInTurn u v →
      ∃ c, Reachable StopAndWait.Step b c ∧ Refines addr g.filename n dd d v c :=
    fun u v b hb hR hst => hR.step (StopAndWait.ordered_of_reachable hb) htakes.number
      (untilNul_ne_nul _) hlen hst
  obtain ⟨a, ha, hR⟩ := reachable_simulation (refines_start hd hreq hlen hiobuf htakes) hstep h
  exact ⟨a, StopAndWait.ordered_of_reachable ha, hR⟩

/-- **SAVE in turn never corrupts a file.** The file the session writes, and every other file
that was not in the directory before, holds a piece of `d` from its start; and each DATA datagram
the client has sent carries the block of its number. -/
theorem stored_prefix_of_inTurn {myip : Bytes} {addr : Addr} {n : Nat} {dd : DeviceDir} {d : Bytes}
    {devices : Nat → Option Device} {g : Globals} {s : Save} (hd : d ≠ [])
    (hreq : g.tftp.requestInProgress = .norq) (hlen : g.filename.length ≤ NAME_LIMIT)
    (hiobuf : g.iobuf.length = IOBUF_SIZE) (htakes : Server.Tftp.Takes devices g.filename n dd)
    (h : Reachable (Step myip addr ClientInTurn SessionInTurn) (start g d devices) s) :
    (∀ t, s.session = .active t ∨ s.session = .ended t → ∃ dd' nm w,
        t.devices n = some (.dir dd') ∧ w <+: d ∧
        dd'.Stored (decode (splitDevice g.filename).2) (· <+: d) dd.dir nm w) ∧
      ∀ p ∈ datagrams s.client.out, ∀ number body, p.payload = packetBytes TFTP_DATA number body →
        ∃ j < 65536, number % 65536 = (j + 1) % 65536 ∧ body = Lib.block 256 d j := by
  obtain ⟨a, ho, hR⟩ := refines_of_reachable hd hreq hlen hiobuf htakes h
  refine ⟨?_, ?_⟩
  · have hses := hR.got
    obtain ⟨client, ses⟩ := s
    obtain ⟨sent, got⟩ := a
    intro t ht
    cases hses with
    | listening _ => rcases ht with ht | ht <;> cases ht
    | active hput _ =>
        rcases ht with ht | ht
        · cases ht
          obtain ⟨dd', hdev, -, hstored⟩ := hput.file
          exact ⟨dd', _, _, hdev, List.take_prefix _ _, hstored⟩
        · cases ht
    | ended hdev hstored =>
        rcases ht with ht | ht
        · cases ht
        · cases ht
          exact ⟨_, _, _, hdev, List.take_prefix _ _, hstored⟩
  · intro p hp number body hpay
    have hle := ho.sent_le
    have hb := hR.bound
    rcases hR.pieces p hp with rfl | rfl | ⟨j, hj, rfl⟩
    · -- the request's second byte is not that of DATA
      have hop : (2 : Byte) = 3 := congrArg (fun q : Bytes => q.getD 1 0) hpay
      exact absurd hop (by decide)
    · exact absurd (packetBytes_inj hpay).1 (by decide)
    · obtain ⟨-, hnum, hbody⟩ := packetBytes_inj hpay
      exact ⟨j, by omega, hnum.symm, hbody.symm⟩

/-! ## A file `A` on device 8 -/

theorem sampleDevices_takes :
    Server.Tftp.Takes Session.sampleDevices Load.sampleGlobals.filename 8 DeviceDir.empty where
  number := by decide
  device := rfl
  opened := ⟨_, rfl⟩

/-- How a transfer opens: request, OACK, and polls until the first block is sent. -/
theorem exists_firstBlock {n : Nat} {dd : DeviceDir} {d : Bytes}
    {devices : Nat → Option Device} {g : Globals} (myip : Bytes) (addr : Addr)
    (turnC : SaveClient → Bytes → Prop) (turnS : Server.Tftp → Bytes → Prop)
    (hturn : turnC (.start g d) Session.clientOack) (hd : d ≠ [])
    (hreq : g.tftp.requestInProgress = .norq) (hlen : g.filename.length ≤ NAME_LIMIT)
    (hiobuf : g.iobuf.length = IOBUF_SIZE) (htakes : Server.Tftp.Takes devices g.filename n dd) :
    ∃ c t nm, Reachable (Step myip addr turnC turnS) (start g d devices) ⟨c, .active t⟩ ∧
      dataDatagram TFTP_PORT 1 (Lib.block 256 d 0) ∈ datagrams c.out ∧
      Server.Tftp.Putting n (decode (splitDevice g.filename).2) (· <+: d) dd.dir nm [] 0 t ∧
      t.client = addr := by
  obtain ⟨g', hstart, hs⟩ := SaveClient.sent_start hd hreq hlen hiobuf
  obtain ⟨t, nm, hrecv, hput, hclient, hsent⟩ :=
    Session.receive_wrq htakes (untilNul_ne_nul _) hlen addr d
  have h1 : Step myip addr turnC turnS (start g d devices) ⟨.start g d, .active t⟩ :=
    .toServer (start g d devices) (requestDatagram TFTP_WRQ g.filename) (.active t)
      (by rw [start, hstart]; exact List.mem_singleton.mpr rfl) rfl (fun t ht => by cases ht) hrecv
  have hf := Frame.carries_ofPayload TFTP_PORT Session.clientOack (by decide) (by decide)
  have h2 : Step myip addr turnC turnS ⟨.start g d, .active t⟩ _ :=
    .toClient ⟨.start g d, .active t⟩ false _ Session.clientOack
      (by rw [Session.sent, hsent]; exact List.mem_singleton.mpr rfl) (fun _ _ => hturn) hf
  obtain ⟨t', hprobe, hs'⟩ := hs.recv myip hf (by decide) (Or.inr ⟨rfl, rfl⟩) (Or.inr rfl)
  obtain ⟨c, hpolls, -, hout⟩ := SaveClient.exists_send_of_outcome myip
    (SaveClient.turn_running hprobe hs' (b := false) fun h => h)
  rw [← hstart] at hpolls
  have h3 : Reachable (Step myip addr turnC turnS) _ ⟨c, .active t⟩ :=
    hpolls.lift (fun c => (⟨c, .active t⟩ : Save)) (fun c c' hc => hc ▸ .poll ⟨c, .active t⟩ false)
  exact ⟨c, t, nm, .head h1 (.head h2 h3), by rw [hout]; simp, hput, hclient⟩

/-- The OACK is in turn for a client that has sent its request. -/
theorem clientInTurn_oack {g : Globals} {d : Bytes} (hd : d ≠ [])
    (hreq : g.tftp.requestInProgress = .norq) (hlen : g.filename.length ≤ NAME_LIMIT)
    (hiobuf : g.iobuf.length = IOBUF_SIZE) :
    ClientInTurn (.start g d) Session.clientOack := by
  obtain ⟨g', hstart, -⟩ := SaveClient.sent_start hd hreq hlen hiobuf
  rw [hstart]
  exact Or.inr rfl

/-- A transfer of one block, all in turn, to its end. -/
theorem stored_prefix_of_inTurn_sample :
    ∃ s t dd nm w, Reachable (Step [] Load.sampleAddr ClientInTurn SessionInTurn)
        (start Load.sampleGlobals [1, 2, 3] Session.sampleDevices) s ∧ s.session = .ended t ∧
      t.devices 8 = some (.dir dd) ∧ w <+: [1, 2, 3] ∧
      dd.Stored (decode (splitDevice Load.sampleGlobals.filename).2) (· <+: [1, 2, 3])
        DeviceDir.empty.dir nm w := by
  have hiobuf : Load.sampleGlobals.iobuf.length = IOBUF_SIZE := List.length_replicate
  have hd : ([1, 2, 3] : Bytes) ≠ [] := by decide
  obtain ⟨c, t, nm, hreach, hmem, hput, hclient⟩ :=
    exists_firstBlock [] Load.sampleAddr ClientInTurn SessionInTurn
      (clientInTurn_oack hd rfl (by decide) hiobuf) hd rfl (by decide) hiobuf sampleDevices_takes
  obtain ⟨t', s', hrecv, -, hcases⟩ := Session.receive_data (k := 0) hput hclient (by decide)
  rw [if_pos (by decide)] at hcases
  obtain ⟨rfl, -, -⟩ := hcases
  have hstep : Step [] Load.sampleAddr ClientInTurn SessionInTurn ⟨c, .active t⟩ ⟨c, .ended t'⟩ := by
    refine .toServer _ (dataDatagram TFTP_PORT 1 (Lib.block 256 [1, 2, 3] 0)) _ hmem rfl ?_ hrecv
    rintro _ ⟨⟩
    refine ⟨fun _ => by rw [hput.blocknum]; rfl, fun hop => ?_⟩
    exact absurd hop (by decide)
  have hrun := hreach.tail hstep
  obtain ⟨hstored, -⟩ :=
    stored_prefix_of_inTurn hd rfl (by decide) hiobuf sampleDevices_takes hrun
  obtain ⟨dd, nm', w, hdev, hw, hs⟩ := hstored t' (Or.inr rfl)
  exact ⟨_, t', dd, nm', w, hrun, rfl, hdev, hw, hs⟩

/-- A repeated DATA 1 is stored twice, for every file whose first block is not the last. -/
theorem exists_repeated_data {n : Nat} {dd : DeviceDir} {d : Bytes}
    {devices : Nat → Option Device} {g : Globals} (myip : Bytes) (addr : Addr)
    (hlong : 252 ≤ (Lib.block 256 d 0).length) (hreq : g.tftp.requestInProgress = .norq)
    (hlen : g.filename.length ≤ NAME_LIMIT) (hiobuf : g.iobuf.length = IOBUF_SIZE)
    (htakes : Server.Tftp.Takes devices g.filename n dd) :
    ∃ s t dd' nm, Reachable (Step myip addr (fun _ _ => True) fun _ _ => True)
        (start g d devices) s ∧ s.session = .active t ∧
      t.devices n = some (.dir dd') ∧ dd'.file = .appending nm ∧
      dd'.dir.lookup nm = some (.file (pc64Header (decode (splitDevice g.filename).2) ++
        (Lib.block 256 d 0 ++ Lib.block 256 d 0))) := by
  have hd : d ≠ [] := by
    rintro rfl
    rw [block_length] at hlong
    exact absurd hlong (by decide)
  obtain ⟨c, t, nm, hreach, hmem, hput, hclient⟩ :=
    exists_firstBlock myip addr (fun _ _ => True) (fun _ _ => True) trivial hd hreq hlen hiobuf htakes
  have hput' := hput.weaken (Q := fun _ => True) fun _ _ => trivial
  -- the first time the block is stored as it should be
  obtain ⟨t₁, hdisp₁, hput₁, -, -⟩ := hput'.data 1 hlong trivial
  -- the second time it is appended to itself
  obtain ⟨t₂, hdisp₂, hput₂, -, -⟩ := hput₁.data 1 hlong trivial
  have hstep : ∀ {u v : Server.Tftp}, v.status = .waitForData →
      u.dispatch (packetBytes TFTP_DATA 1 (Lib.block 256 d 0)) = .ok v →
      Step myip addr (fun _ _ => True) (fun _ _ => True) ⟨c, .active u⟩ ⟨c, .active v⟩ := by
    intro u v hstatus hdisp
    have hrecv := Session.receive_active addr
      (recvfrom_packetBytes TFTP_DATA 1 (block_length_le 256 d 0)) hdisp
    have hafter : Session.after v = .active v := by
      simp [Session.after, Server.Tftp.waiting, hstatus]
    rw [hafter] at hrecv
    exact .toServer _ _ _ hmem rfl (fun _ _ => trivial) hrecv
  obtain ⟨dd', hdev, hfile, hstored⟩ := hput₂.file
  exact ⟨_, t₂, dd', nm, (hreach.tail (hstep hput₁.status hdisp₁)).tail (hstep hput₂.status hdisp₂),
    rfl, hdev, hfile, hstored.lookup⟩

/-- **A repeated DATA 1** leaves a file that is no piece of what the C64 sends. -/
theorem repeated_data_corrupts :
    ∃ s t dd nm w, Reachable (Step [] Load.sampleAddr (fun _ _ => True) fun _ _ => True)
        (start Load.sampleGlobals Load.twoBlocks Session.sampleDevices) s ∧ s.session = .active t ∧
      t.devices 8 = some (.dir dd) ∧ dd.file = .appending nm ∧
      dd.dir.lookup nm = some (.file (pc64Header (ascii "A") ++ w)) ∧ ¬w <+: Load.twoBlocks := by
  have hlength : Load.twoBlocks.length = 257 := by
    rw [Load.twoBlocks, List.length_append, List.length_replicate]
    rfl
  have hblock : (Lib.block 256 Load.twoBlocks 0).length = 256 := by
    rw [block_length, hlength]
    rfl
  obtain ⟨s, t, dd, nm, hreach, hses, hdev, hfile, hlookup⟩ :=
    exists_repeated_data [] Load.sampleAddr (by rw [hblock]; decide) rfl (by decide)
      List.length_replicate sampleDevices_takes
  have hname : decode (splitDevice Load.sampleGlobals.filename).2 = ascii "A" := by decide
  rw [hname] at hlookup
  refine ⟨s, t, dd, nm, _, hreach, hses, hdev, hfile, hlookup, fun hprefix => ?_⟩
  have hle := hprefix.length_le
  rw [List.length_append, hblock, hlength] at hle
  exact absurd hle (by decide)

end Save

end C64Iec

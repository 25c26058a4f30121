import C64Iec.Client.Datagram
import C64Iec.Client.Sketch

set_option autoImplicit false

/-! # Error packets

`EndsTransfer` says that an ERROR which `send_file` or `recv_file` takes ends the transfer: the flags
are set, and the function returns `0` without another datagram in either direction. The code of the
error stands where a block number does and passes the filter for repeated numbers first, and the
loops of `recv_file` that wait to send a block do not look at `tftp_error`; `endsTransfer_iff` says
that nothing else goes wrong.
-/

namespace C64Iec.Client

/-! ## Running functions -/

/-- `send_file` or `recv_file`, at the head of one of its loops. -/
inductive Running where
  | sending (l : SendFile)
  | receiving (l : RecvFile)
  deriving DecidableEq, Repr

def Control.map {L M : Type} (f : L → M) : Control L → Control M
  | .run l => .run (f l)
  | .ret value => .ret value

namespace Running

/-- One turn of the loop. -/
def turn (myip : Bytes) (g : Globals) (i : Input) : Running → Globals × List Output × Control Running
  | sending l =>
      let (g, out, c) := sendFileStep myip g l i.packet
      (g, out, c.map sending)
  | receiving l =>
      let (g, out, c) := recvFileStep myip g l i
      (g, out, c.map receiving)

/-- Turns up to the return of the function. -/
def run (myip : Bytes) (g : Globals) (r : Running) :
    List Input → Globals × List Output × Control Running
  | [] => (g, [], .run r)
  | i :: turns =>
      match r.turn myip g i with
      | (g, out, .ret value) => (g, out, .ret value)
      | (g, out, .run r) =>
          let (g, out', c) := run myip g r turns
          (g, out ++ out', c)

/-- Whether `recv_file` is in one of its loops around `tftp_put_block`. -/
def inPutBlock : Running → Bool
  | receiving (.block _ _) => true
  | receiving .emptyBlock => true
  | _ => false

/-- The turn calls `tftp_recv_packet`: `recv_file` samples ATN first where it reads a byte. -/
def Probes (r : Running) (i : Input) : Prop := ∀ a, r = receiving (.byte a) → i.atn = false

end Running

/-- The turn without its frame. -/
def Input.quiet (i : Input) : Input := { i with packet := none }

/-- A datagram with an error for the client's port. -/
structure Frame.IsError (myip : Bytes) (f : Frame) : Prop where
  plen : f.plen ≠ 0
  mine : isMyIp myip f = true
  udp : f.buffer IP_PROTO_P = IP_PROTO_UDP_V
  dstport : f.dstport = SRCPORT
  type : f.type = TFTP_ERROR

/-- The error `f` ends the transfer: it is noted, and whatever turns follow in which no frame
arrives, the function returns `0` in one of them, having sent nothing. -/
structure EndsTransfer (myip : Bytes) (g : Globals) (r : Running) (i : Input) (f : Frame) : Prop where
  noted : (tftpRecvPacket myip g.tftp f).1.error = true ∧
    (tftpRecvPacket myip g.tftp f).1.requestInProgress = .norq
  returns : ∀ quiet : Nat → Input, (∀ n, (quiet n).packet = none) →
    ∃ n g' out, r.run myip g (i :: (List.range n).map quiet) = (g', out, .ret false) ∧
      ∀ d, .udp d ∉ out

/-! ## Taking an error -/

section Error

variable {myip : Bytes} {f : Frame}

/-- An error is dropped when its code is the number of the datagram before. -/
theorem tftpRecvPacket_error (hf : f.IsError myip) (t : Tftp) : tftpRecvPacket myip t f =
    if t.lastblk = f.blknum then ({ t with blknum := f.blknum, srvport := f.srvport }, [])
    else ({ t with blknum := f.blknum, srvport := f.srvport, lastblk := f.blknum, error := true,
                   requestInProgress := .norq }, []) := by
  have hoptack : ¬f.type = TFTP_OPTACK := by rw [hf.type]; decide
  have hdata : ¬f.type = TFTP_DATA := by rw [hf.type]; decide
  have hack : ¬f.type = TFTP_ACK := by rw [hf.type]; decide
  rw [tftpRecvPacket, if_neg hf.plen, if_neg (by simp [hf.mine]), if_pos ⟨hf.udp, hf.dstport⟩]
  dsimp only
  by_cases h : t.lastblk = f.blknum
  · rw [if_pos h, if_pos h]
  · rw [if_neg h, if_neg h, if_neg fun h => hoptack h.1, if_neg fun h => hdata h.1,
      if_neg fun h => h.1.elim hack hoptack, if_pos hf.type]

theorem noted_iff (hf : f.IsError myip) {t : Tftp} (hreq : t.requestInProgress ≠ .norq) :
    ((tftpRecvPacket myip t f).1.error = true ∧
        (tftpRecvPacket myip t f).1.requestInProgress = .norq) ↔ f.blknum ≠ t.lastblk := by
  rw [tftpRecvPacket_error hf]
  by_cases h : t.lastblk = f.blknum
  · rw [if_pos h]
    exact iff_of_false (fun hn => hreq hn.2) fun hne => hne h.symm
  · rw [if_neg h]
    exact iff_of_true ⟨rfl, rfl⟩ fun heq => h heq.symm

end Error

/-! ## Returning -/

namespace Running

variable {myip : Bytes} {g : Globals} {r : Running} {i : Input}

theorem run_of_ret {g' : Globals} {out : List Output} {value : Bool}
    (h : r.turn myip g i = (g', out, .ret value)) (turns : List Input) :
    r.run myip g (i :: turns) = (g', out, .ret value) := by
  rw [run, h]

/-- What a turn puts out is put out by every run that begins with it. -/
theorem mem_run_of_mem_turn {o : Output} (h : o ∈ (r.turn myip g i).2.1) (turns : List Input) :
    o ∈ (r.run myip g (i :: turns)).2.1 := by
  rw [run]
  generalize r.turn myip g i = x at h ⊢
  obtain ⟨g', out, c⟩ := x
  cases c with
  | ret value => exact h
  | run r' => exact List.mem_append_left _ h

/-- A loop around `tftp_put_block` goes on for ever when nothing arrives. -/
theorem run_of_inPutBlock (hr : r.inPutBlock = true) (hclear : g.tftp.clearToSend = false) :
    ∀ {turns : List Input}, (∀ j ∈ turns, j.packet = none) →
      r.run myip g turns = (g, [], .run r)
  | [], _ => rfl
  | j :: turns, h => by
      have hturn : r.turn myip g j = (g, [], .run r) := by
        have hpacket := h j List.mem_cons_self
        match r, hr with
        | receiving (.block a eoi), _ =>
            simp [turn, recvFileStep, ethernetProbeForPacket, hpacket, recvFileBlock, tftpPutBlock,
              hclear, Control.map]
        | receiving .emptyBlock, _ =>
            simp [turn, recvFileStep, ethernetProbeForPacket, hpacket, recvFileEmptyBlock,
              tftpPutBlock, hclear, Control.map]
      have ih := run_of_inPutBlock hr hclear fun j' hj' => h j' (List.mem_cons_of_mem j hj')
      rw [run, hturn]
      dsimp only
      rw [ih, List.nil_append]

variable {f : Frame}

/-- Where the flags are looked at, an error that is noted ends the function at once. -/
theorem turn_of_noted (hf : f.IsError myip) (hi : i.packet = some f) (hprobes : r.Probes i)
    (hcode : f.blknum ≠ g.tftp.lastblk) (hr : r.inPutBlock = false) :
    ∃ g', r.turn myip g i = (g', [], .ret false) := by
  have hrecv := tftpRecvPacket_error hf g.tftp
  rw [if_neg hcode.symm] at hrecv
  match r, hr with
  | sending l, _ =>
      simp [turn, sendFileStep, ethernetProbeForPacket, hi, hrecv, Control.map]
  | receiving (.byte a), _ =>
      have hatn := hprobes a rfl
      simp [turn, recvFileStep, ethernetProbeForPacket, hi, hatn, hrecv, Control.map]

theorem tftpPutBlock_clear {t : Tftp} (h : t.clearToSend = true) (buf : Bytes) (size : Nat) :
    ∃ t' d, tftpPutBlock t buf size = (true, t', [d]) := by
  rw [tftpPutBlock, if_neg (by simp [h])]
  exact ⟨_, _, rfl⟩

/-- A loop around `tftp_put_block` sends the block if it may, and goes on if not. -/
theorem turn_of_inPutBlock (hf : f.IsError myip) (hi : i.packet = some f)
    (hr : r.inPutBlock = true) :
    (∃ d, .udp d ∈ (r.turn myip g i).2.1) ∨
      ∃ g', r.turn myip g i = (g', [], .run r) ∧ g'.tftp.clearToSend = false := by
  have hrecv := tftpRecvPacket_error hf g.tftp
  have hclear : (tftpRecvPacket myip g.tftp f).1.clearToSend = g.tftp.clearToSend := by
    rw [hrecv]
    split <;> rfl
  have hout : (tftpRecvPacket myip g.tftp f).2 = [] := by
    rw [hrecv]
    split <;> rfl
  -- an error does not touch `clear_to_send`, and `tftp_put_block` looks at nothing else
  cases hsend : g.tftp.clearToSend with
  | false =>
      rw [hsend] at hclear
      refine Or.inr ⟨{ g with tftp := (tftpRecvPacket myip g.tftp f).1 }, ?_, hclear⟩
      match r, hr with
      | receiving (.block a eoi), _ =>
          simp [turn, recvFileStep, ethernetProbeForPacket, hi, recvFileBlock, tftpPutBlock,
            hclear, hout, Control.map]
      | receiving .emptyBlock, _ =>
          simp [turn, recvFileStep, ethernetProbeForPacket, hi, recvFileEmptyBlock,
            tftpPutBlock, hclear, hout, Control.map]
  | true =>
      rw [hsend] at hclear
      refine Or.inl ?_
      match r, hr with
      | receiving (.block a eoi), _ =>
          obtain ⟨t', d, hput⟩ := tftpPutBlock_clear hclear g.iobuf a
          refine ⟨d, ?_⟩
          simp only [turn, recvFileStep, ethernetProbeForPacket, hi, recvFileBlock, hput, hout]
          by_cases hfull : a = 256 <;> cases eoi <;> simp [hfull]
      | receiving .emptyBlock, _ =>
          obtain ⟨t', d, hput⟩ := tftpPutBlock_clear hclear g.iobuf 0
          refine ⟨d, ?_⟩
          simp [turn, recvFileStep, ethernetProbeForPacket, hi, recvFileEmptyBlock, hput, hout]

/-- There an error does not end the function. -/
theorem not_returns_of_inPutBlock (hf : f.IsError myip) (hi : i.packet = some f)
    (hr : r.inPutBlock = true) (n : Nat) :
    ¬∃ g' out, r.run myip g (i :: (List.range n).map fun _ => i.quiet) = (g', out, .ret false) ∧
      ∀ d, .udp d ∉ out := by
  rintro ⟨g', out, hrun, hnone⟩
  rcases turn_of_inPutBlock (g := g) hf hi hr with ⟨d, hd⟩ | ⟨g'', hturn, hclear⟩
  · have := mem_run_of_mem_turn hd ((List.range n).map fun _ => i.quiet)
    rw [hrun] at this
    exact hnone d this
  · rw [run, hturn] at hrun
    dsimp only at hrun
    rw [run_of_inPutBlock hr hclear (by simp [Input.quiet])] at hrun
    cases hrun

end Running

/-- **An error ends the transfer** exactly when its code is not the number of the datagram before,
and `recv_file` is in none of its loops around `tftp_put_block`. -/
theorem endsTransfer_iff {myip : Bytes} {g : Globals} {r : Running} {i : Input} {f : Frame}
    (hreq : g.tftp.requestInProgress ≠ .norq) (hf : f.IsError myip) (hi : i.packet = some f)
    (hprobes : r.Probes i) :
    EndsTransfer myip g r i f ↔ f.blknum ≠ g.tftp.lastblk ∧ r.inPutBlock = false := by
  constructor
  · intro h
    refine ⟨(noted_iff hf hreq).mp h.noted, ?_⟩
    by_contra hr
    have hr : r.inPutBlock = true := by simpa using hr
    obtain ⟨n, hreturns⟩ := h.returns (fun _ => i.quiet) fun _ => rfl
    exact Running.not_returns_of_inPutBlock hf hi hr n hreturns
  · rintro ⟨hcode, hr⟩
    refine ⟨(noted_iff hf hreq).mpr hcode, fun quiet _ => ?_⟩
    obtain ⟨g', hturn⟩ := Running.turn_of_noted hf hi hprobes hcode hr
    exact ⟨0, g', [], Running.run_of_ret hturn _, by simp⟩

/-- A frame with error `code`, and no text. -/
def errorFrame (code : Nat) : Frame := .ofPayload TFTP_PORT (packetBytes TFTP_ERROR code [0])

theorem isError_errorFrame : (errorFrame 1).IsError [] where
  plen := by decide
  mine := by decide
  udp := by decide
  dstport := by decide
  type := by decide

def errorTurn (code : Nat) : Input :=
  ⟨some (errorFrame code), false, .timeout none, .timeout none, .timeout none⟩

/-- "File not found" in answer to the request for a LOAD. -/
theorem endsTransfer_load :
    EndsTransfer [] (handleTalk .init).1.g (.sending ⟨true, 0⟩) (errorTurn 1) (errorFrame 1) :=
  (endsTransfer_iff (by decide) isError_errorFrame rfl fun _ h => by cases h).mpr
    ⟨by decide, rfl⟩

/-- SAVE of one byte. -/
def shortSave : List Input :=
  [command 0x28 0x61, ⟨none, false, .byte 65 true, .timeout none, .timeout none⟩]

/-- "File not found" in answer to the request of the SAVE: it is noted, and `recv_file` does not
return. -/
theorem not_endsTransfer_save :
    (afterTurns [] shortSave).pc = .receiving (.block 1 true) ∧
      ¬EndsTransfer [] (afterTurns [] shortSave).g (.receiving (.block 1 true)) (errorTurn 1)
        (errorFrame 1) := by
  refine ⟨by decide, fun h => ?_⟩
  obtain ⟨n, hreturns⟩ := h.returns (fun _ => (errorTurn 1).quiet) fun _ => rfl
  exact Running.not_returns_of_inPutBlock isError_errorFrame rfl rfl n hreturns

end C64Iec.Client

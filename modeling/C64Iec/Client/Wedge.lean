import C64Iec.Client.DataBounds
import C64Iec.Client.Request
import C64Iec.Client.Sketch
import C64Iec.Lib.Runs

set_option autoImplicit false

/-! # Transfers and the request in progress

`tftp_request_in_progress` is set by the two `tftp_send_…q` and must be cleared by the time
`send_file` or `recv_file` returns. `NoLeak` is what each loop of the sketch keeps true of it;
the one way out that leaves it set is ATN in `recv_file` (`wedged`).
-/

namespace C64Iec.Client

open Lib

/-! ## What each function does to the request -/

/-- A function that receives: the request stays, or an error has ended it. -/
def Receives (t t' : Tftp) : Prop :=
  t'.requestInProgress = t.requestInProgress ∧ t'.error = t.error ∨
    t'.requestInProgress = .norq ∧ t'.error = true

theorem noteData_receives {t₀ t : Tftp} (hreq : t.requestInProgress = t₀.requestInProgress)
    (herr : t.error = t₀.error) (f : Frame) (n m : Nat) :
    Receives t₀ (noteData (tftpRecvData t f n) m) := by
  simp only [noteData, tftpRecvData]
  split_ifs <;> exact Or.inl ⟨hreq, herr⟩

theorem tftpRecvPacket_receives (myip : Bytes) (t : Tftp) (f : Frame) :
    Receives t (tftpRecvPacket myip t f).1 := by
  have hrecv := tftpRecvPacket_received myip t f
  generalize tftpRecvPacket myip t f = r at hrecv ⊢
  cases hrecv with
  | dropped => exact Or.inl ⟨rfl, rfl⟩
  | repeated => exact Or.inl ⟨rfl, rfl⟩
  | options => exact Or.inl ⟨rfl, rfl⟩
  | data =>
      dsimp only
      refine noteData_receives ?_ ?_ f _ _
      · rfl
      · rfl
  | clear => exact Or.inl ⟨rfl, rfl⟩
  | failed => exact Or.inr ⟨rfl, rfl⟩
  | other => exact Or.inl ⟨rfl, rfl⟩

theorem probe_receives (myip : Bytes) (t : Tftp) (packet : Option Frame) :
    Receives t (ethernetProbeForPacket myip t packet).1 := by
  cases packet with
  | none => exact Or.inl ⟨rfl, rfl⟩
  | some f => exact tftpRecvPacket_receives myip t f

/-- `tftp_put_block` ends the request with a short block, and else leaves it. -/
theorem tftpPutBlock_request (t : Tftp) (buf : Bytes) (size : Nat) :
    (tftpPutBlock t buf size).2.1.error = t.error ∧
      (tftpPutBlock t buf size).2.1.requestInProgress =
        if (tftpPutBlock t buf size).1 = true ∧ size ≠ TFTP_BLKSIZE then .norq
        else t.requestInProgress := by
  rw [tftpPutBlock]
  by_cases hclear : t.clearToSend = false
  · simp [hclear]
  · rw [if_neg hclear]
    by_cases hfull : size = TFTP_BLKSIZE
    · simp [tftpSendData, hfull, TFTP_BLKSIZE]
    · by_cases hpos : size > 0 <;> simp [tftpSendData, hfull, hpos]

/-- `tftp_get_file` and `tftp_put_file` start a request when none is in progress, or refuse the
name and leave things as they are. -/
theorem tftpSendRequest_request {t : Tftp} (ht : t.requestInProgress = .norq) (mode : Nat)
    (req : Request) (filename : Bytes) :
    (tftpSendRequest mode req t filename).2.1.error = t.error ∧
      ((tftpSendRequest mode req t filename).2.1.requestInProgress = req ∨
        (tftpSendRequest mode req t filename).2.1.requestInProgress = .norq) := by
  have h : (tftpSendRequest mode req t filename).2.1 = _ :=
    congrArg Prod.fst (tftpSendRequest_eq mode req t filename)
  rw [h]
  split_ifs
  · exact ⟨rfl, Or.inl rfl⟩
  · exact ⟨rfl, Or.inr ht⟩

/-! ## The loops -/

/-- What is true of the request at each control point. -/
def Pc.Allows : Pc → Request → Prop
  | .idle, r => r = .norq
  | .opening _, r => r = .norq
  | .sending _, r => r ≠ .put
  | .receiving (.block a eoi), r => r ≠ .get ∧ (a = TFTP_BLKSIZE ∨ eoi = true)
  | .receiving _, r => r ≠ .get

/-- No request is left over: an error has ended it, and between transfers there is none. -/
structure NoLeak (s : Sketch) : Prop where
  error : s.g.tftp.error = true → s.g.tftp.requestInProgress = .norq
  allows : s.pc.Allows s.g.tftp.requestInProgress

/-- `Receives` keeps what is true when an error has ended the request. -/
theorem Receives.error {t t' : Tftp} (h : Receives t t')
    (ht : t.error = true → t.requestInProgress = .norq) :
    t'.error = true → t'.requestInProgress = .norq := by
  rcases h with ⟨hreq, herr⟩ | ⟨hreq, -⟩
  · rw [hreq, herr]
    exact ht
  · exact fun _ => hreq

/-- Nothing received starts a request. -/
theorem Receives.ne {t t' : Tftp} (h : Receives t t') {r : Request} (hr : r ≠ .norq)
    (ht : t.requestInProgress ≠ r) : t'.requestInProgress ≠ r := by
  rcases h with ⟨hreq, -⟩ | ⟨hreq, -⟩
  · rw [hreq]
    exact ht
  · rw [hreq]
    exact hr.symm

theorem Receives.norq {t t' : Tftp} (h : Receives t t') (ht : t.requestInProgress = .norq) :
    t'.requestInProgress = .norq := by
  rcases h with ⟨hreq, -⟩ | ⟨hreq, -⟩
  · rw [hreq, ht]
  · exact hreq

theorem eq_norq_of_ne {r : Request} (hget : r ≠ .get) (hput : r ≠ .put) : r = .norq := by
  cases r
  · rfl
  · exact absurd rfl hget
  · exact absurd rfl hput

/-- **`send_file`** returns with no request in progress. -/
theorem noLeak_sendFileStep (myip : Bytes) {g : Globals} {l : SendFile}
    (h : NoLeak ⟨g, .sending l⟩) (packet : Option Frame) :
    NoLeak (Sketch.ofSendFile (sendFileStep myip g l packet)).1 := by
  obtain ⟨herror, hput⟩ := h
  have hput : g.tftp.requestInProgress ≠ .put := hput
  have hprobe := probe_receives myip g.tftp packet
  have hturn := sendFileStep_turn myip g l packet
  generalize sendFileStep myip g l packet = r at hturn ⊢
  generalize ethernetProbeForPacket myip g.tftp packet = probe at hprobe hturn
  obtain ⟨t, probed⟩ := probe
  have herr : t.error = true → t.requestInProgress = .norq := hprobe.error herror
  have hne : t.requestInProgress ≠ .put := hprobe.ne (by decide) hput
  -- `tftp_get_block` keeps both
  have hblock : ∀ {unsent iobuf t' ack}, ¬t.error = true →
      tftpGetBlock t g.iobuf l.iobufOffset 0 = (unsent, iobuf, t', ack) →
      (t'.error = true → t'.requestInProgress = .norq) ∧ t'.requestInProgress ≠ .put := by
    intro unsent iobuf t' ack hfail hblock
    obtain ⟨hblockErr, hreq⟩ := tftpGetBlock_request t g.iobuf l.iobufOffset
    rw [hblock] at hblockErr hreq
    constructor
    · rw [hblockErr]
      exact fun hf => absurd hf hfail
    · rcases hreq with hsame | hnorq
      · rw [hsame]
        exact hne
      · rw [hnorq]
        decide
  cases hturn with
  | failed hfail => exact ⟨herr, herr hfail⟩
  | last hfail heq hget =>
      obtain ⟨herr', hne'⟩ := hblock hfail heq
      exact ⟨herr', eq_norq_of_ne hget hne'⟩
  | idle hfail heq =>
      obtain ⟨herr', hne'⟩ := hblock hfail heq
      exact ⟨herr', hne'⟩
  | block hfail heq =>
      obtain ⟨herr', hne'⟩ := hblock hfail heq
      exact ⟨herr', hne'⟩

/-- What a turn of `recv_file` has put out does not matter here. -/
theorem noLeak_ofRecvFile_out {g : Globals} {out out' : List Output} {c : Control RecvFile}
    (h : NoLeak (Sketch.ofRecvFile (g, out, c)).1) :
    NoLeak (Sketch.ofRecvFile (g, out', c)).1 := by
  cases c <;> exact h

/-- A block that is sent, or not yet: the request is still that of SAVE, or over. -/
theorem request_after_putBlock {g : Globals}
    (herr : g.tftp.error = true → g.tftp.requestInProgress = .norq)
    (hget : g.tftp.requestInProgress ≠ .get) (size : Nat) :
    ((tftpPutBlock g.tftp g.iobuf size).2.1.error = true →
        (tftpPutBlock g.tftp g.iobuf size).2.1.requestInProgress = .norq) ∧
      (tftpPutBlock g.tftp g.iobuf size).2.1.requestInProgress ≠ .get ∧
      ((tftpPutBlock g.tftp g.iobuf size).1 = true → size ≠ TFTP_BLKSIZE →
        (tftpPutBlock g.tftp g.iobuf size).2.1.requestInProgress = .norq) := by
  obtain ⟨herr', hreq⟩ := tftpPutBlock_request g.tftp g.iobuf size
  rw [herr', hreq]
  refine ⟨fun hf => ?_, ?_, fun hsent hshort => if_pos ⟨hsent, hshort⟩⟩
  · split
    · rfl
    · exact herr hf
  · split
    · decide
    · exact hget

/-- The loop that waits to send the empty block. -/
theorem noLeak_recvFileEmptyBlock {g : Globals}
    (herr : g.tftp.error = true → g.tftp.requestInProgress = .norq)
    (hget : g.tftp.requestInProgress ≠ .get) :
    NoLeak (Sketch.ofRecvFile (recvFileEmptyBlock g)).1 := by
  obtain ⟨herr', hget', hsent⟩ := request_after_putBlock herr hget 0
  rw [recvFileEmptyBlock]
  generalize tftpPutBlock g.tftp g.iobuf 0 = r at herr' hget' hsent ⊢
  obtain ⟨sent, t, out⟩ := r
  cases sent with
  | false => exact ⟨herr', hget'⟩
  | true => exact ⟨herr', hsent rfl (by decide)⟩

/-- The loop that waits to send a full or last block. -/
theorem noLeak_recvFileBlock {g : Globals} {a : Nat} {eoi : Bool}
    (herr : g.tftp.error = true → g.tftp.requestInProgress = .norq)
    (hget : g.tftp.requestInProgress ≠ .get) (hblock : a = TFTP_BLKSIZE ∨ eoi = true) :
    NoLeak (Sketch.ofRecvFile (recvFileBlock g a eoi)).1 := by
  obtain ⟨herr', hget', hsent⟩ := request_after_putBlock herr hget a
  rw [recvFileBlock]
  generalize tftpPutBlock g.tftp g.iobuf a = r at herr' hget' hsent ⊢
  obtain ⟨sent, t, out⟩ := r
  cases sent with
  | false => exact ⟨herr', hget', hblock⟩
  | true =>
      simp only at herr' hget' hsent
      simp only [Bool.not_true, Bool.false_eq_true, if_false]
      split_ifs with hlast heoi
      · have hempty := noLeak_recvFileEmptyBlock (g := { g with tftp := t }) herr' hget'
        exact noLeak_ofRecvFile_out hempty
      · exact ⟨herr', hsent trivial fun hfull => hlast ⟨hfull, heoi⟩⟩
      · exact ⟨herr', hget'⟩

/-- **`recv_file`** returns with no request in progress, except when ATN ends it. -/
theorem noLeak_recvFileStep (myip : Bytes) {g : Globals} {l : RecvFile} {i : Input}
    (h : NoLeak ⟨g, .receiving l⟩)
    (hatn : ∀ a, l = .byte a → i.atn = true → g.tftp.requestInProgress = .norq) :
    NoLeak (Sketch.ofRecvFile (recvFileStep myip g l i)).1 := by
  have hprobe := probe_receives myip g.tftp i.packet
  obtain ⟨herror, hallows⟩ := h
  have hget : g.tftp.requestInProgress ≠ .get := by
    cases l with
    | byte _ => exact hallows
    | block _ _ => exact hallows.1
    | emptyBlock => exact hallows
  have herr := hprobe.error herror
  have hne := hprobe.ne (by decide) hget
  cases l with
  | byte a =>
      rw [recvFileStep]
      by_cases hlow : i.atn = true
      -- `recv_file` returns on ATN without a look at the request
      · rw [if_pos hlow]
        exact ⟨herror, hatn a rfl hlow⟩
      · rw [if_neg hlow]
        generalize ethernetProbeForPacket myip g.tftp i.packet = r at herr hne ⊢
        obtain ⟨t, out⟩ := r
        simp only at herr hne ⊢
        split_ifs with hover hend
        · refine ⟨herr, ?_⟩
          rcases hover with hput | hf
          · exact eq_norq_of_ne hne hput
          · exact herr hf
        · have hblock : NoLeak (Sketch.ofRecvFile (recvFileBlock
              { g with tftp := t, iobuf := i.byte.store g.iobuf a } (a + 1) i.byte.eoi)).1 :=
            noLeak_recvFileBlock herr hne hend
          exact noLeak_ofRecvFile_out hblock
        · exact ⟨herr, hne⟩
  | block a eoi =>
      rw [recvFileStep]
      generalize ethernetProbeForPacket myip g.tftp i.packet = r at herr hne ⊢
      obtain ⟨t, out⟩ := r
      have hblock := noLeak_recvFileBlock (g := { g with tftp := t }) herr hne hallows.2
      exact noLeak_ofRecvFile_out hblock
  | emptyBlock =>
      rw [recvFileStep]
      generalize ethernetProbeForPacket myip g.tftp i.packet = r at herr hne ⊢
      obtain ⟨t, out⟩ := r
      have hempty := noLeak_recvFileEmptyBlock (g := { g with tftp := t }) herr hne
      exact noLeak_ofRecvFile_out hempty

/-- `handle_open` does not touch the request. -/
theorem noLeak_handleOpenStep {g : Globals} (h : NoLeak ⟨g, .idle⟩) (a : Nat) (i : Input) :
    NoLeak (handleOpenStep g a i).1 := by
  rw [handleOpenStep]
  dsimp only
  split_ifs <;> exact ⟨h.error, h.allows⟩

/-- `handle_talk` starts LOAD, or returns at once when the name is refused. -/
theorem noLeak_handleTalk {g : Globals} (h : NoLeak ⟨g, .idle⟩) : NoLeak (handleTalk g).1 := by
  have hreq : g.tftp.requestInProgress = .norq := h.allows
  obtain ⟨herr, hsend⟩ := tftpSendRequest_request (t := { g.createTftpFilename.tftp with
    dataAvailable := 0, endOfData := false, lastgot := 0, error := false, lastblk := 65535 }) hreq
    TFTP_RRQ .get g.createTftpFilename.filename
  rw [handleTalk, sendFileStart, tftpGetFile, tftpSendRrq]
  generalize tftpSendRequest TFTP_RRQ .get _ g.createTftpFilename.filename = r at herr hsend ⊢
  obtain ⟨size, t, out⟩ := r
  have herr' : t.error = false := herr
  have hnone : t.error = true → t.requestInProgress = .norq := by
    rw [herr']
    exact fun hf => absurd hf (by decide)
  simp only at hsend ⊢
  split_ifs with hget
  · exact ⟨hnone, by show t.requestInProgress ≠ .put; rw [hget]; decide⟩
  · exact ⟨hnone, hsend.resolve_left hget⟩

/-- `handle_listen` starts SAVE, or does nothing. -/
theorem noLeak_handleListen {g : Globals} (h : NoLeak ⟨g, .idle⟩) (secAddr : Nat) :
    NoLeak (handleListen g secAddr).1 := by
  have hreq : g.tftp.requestInProgress = .norq := h.allows
  rw [handleListen]
  split_ifs
  · exact h
  · obtain ⟨herr, hsend⟩ := tftpSendRequest_request (t := { g.createTftpFilename.tftp with
      clearToSend := false, error := false, lastblk := 65535 }) hreq
      TFTP_WRQ .put g.createTftpFilename.filename
    rw [recvFileStart, tftpPutFile, tftpSendWrq]
    generalize tftpSendRequest TFTP_WRQ .put _ g.createTftpFilename.filename = r at herr hsend ⊢
    obtain ⟨size, t, out⟩ := r
    have herr' : t.error = false := herr
    refine ⟨?_, ?_⟩
    · show t.error = true → t.requestInProgress = .norq
      rw [herr']
      exact fun hf => absurd hf (by decide)
    · show t.requestInProgress ≠ .get
      rcases hsend with hput | hnorq
      · rw [show t.requestInProgress = .put from hput]
        decide
      · rw [show t.requestInProgress = .norq from hnorq]
        decide

/-- `handle_atn` starts at most one transfer. -/
theorem noLeak_handleAtn {g : Globals} (h : NoLeak ⟨g, .idle⟩) (i : Input) :
    NoLeak (handleAtn g i).1 := by
  obtain ⟨device, sec, g', hg, hcases⟩ := handleAtn_cases g i
  have hidle : NoLeak ⟨g', .idle⟩ := by
    subst hg
    exact ⟨h.error, h.allows⟩
  rcases hcases with heq | heq | ⟨secAddr, heq⟩ | heq
  · rw [heq]
    exact hidle
  · rw [heq]
    exact ⟨hidle.error, hidle.allows⟩
  · rw [heq]
    exact noLeak_handleListen hidle secAddr
  · rw [heq]
    exact noLeak_handleTalk hidle

/-! ## Runs -/

/-- The exit that leaves the request set: ATN while `recv_file` reads a byte of a request that is
in progress. -/
def NoAtnInRecvFile (s : Sketch) (i : Input) : Prop :=
  ∀ a, s.pc = .receiving (.byte a) → i.atn = true → s.g.tftp.requestInProgress = .norq

/-- **One turn** keeps requests from being left over. -/
theorem NoLeak.step (myip : Bytes) {s : Sketch} {i : Input} (h : NoLeak s)
    (hatn : NoAtnInRecvFile s i) : NoLeak (s.step myip i).1 := by
  obtain ⟨g, pc⟩ := s
  cases pc with
  | idle =>
      have hprobe := probe_receives myip g.tftp i.packet
      rw [Sketch.step, loopStep]
      generalize ethernetProbeForPacket myip g.tftp i.packet = r at hprobe ⊢
      obtain ⟨t, out⟩ := r
      have hidle : NoLeak ⟨{ g with tftp := t }, .idle⟩ :=
        ⟨hprobe.error h.error, hprobe.norq h.allows⟩
      dsimp only
      split_ifs
      · exact noLeak_handleAtn hidle i
      · exact hidle
  | opening a => exact noLeak_handleOpenStep ⟨h.error, h.allows⟩ a i
  | sending l => exact noLeak_sendFileStep myip h i.packet
  | receiving l =>
      exact noLeak_recvFileStep myip h fun a hl hlow => hatn a (congrArg Pc.receiving hl) hlow

theorem noLeak_init : NoLeak .init := ⟨fun h => absurd h (by decide), rfl⟩

/-- A turn that leaves no request over: ATN does not end a `recv_file` whose request is in progress,
and a received block stays in its buffers, behind which the request itself is stored. -/
structure LeavesNone (myip : Bytes) (s : Sketch) (i : Input) : Prop where
  noAtn : NoAtnInRecvFile s i
  withinBounds : PacketWithinBounds myip s.g.tftp i.packet

/-- **No transfer is left over.** In every run from power-up in which ATN does not end a
`recv_file` whose request is in progress and no block overruns its buffer: whenever `loop` or
`handle_open` is reached no request is in progress, and a name that fits is sent in either kind of
request. -/
theorem norq_between_transfers (myip : Bytes) {turns : List Input}
    (h : AllSteps (fun s i => (s.step myip i).1) (LeavesNone myip) .init turns)
    (hpc : (afterTurns myip turns).pc = .idle ∨ ∃ a, (afterTurns myip turns).pc = .opening a) :
    (afterTurns myip turns).g.tftp.requestInProgress = .norq ∧
      ∀ filename : Bytes, filename.length ≤ NAME_LIMIT →
        (tftpGetFile (afterTurns myip turns).g.tftp filename).2.2
            = [requestDatagram TFTP_RRQ filename] ∧
          (tftpPutFile (afterTurns myip turns).g.tftp filename).2.2
            = [requestDatagram TFTP_WRQ filename] := by
  have hnoleak : NoLeak (afterTurns myip turns) :=
    run_invariant (I := NoLeak) _ (fun s i hs hi => hs.step myip hi.noAtn) turns Sketch.init noLeak_init h
  generalize afterTurns myip turns = s at hpc hnoleak ⊢
  have hreq : s.g.tftp.requestInProgress = .norq := by
    have hallows := hnoleak.allows
    rcases hpc with hpc | ⟨a, hpc⟩
    · rw [hpc] at hallows
      exact hallows
    · rw [hpc] at hallows
      exact hallows
  refine ⟨hreq, fun filename hlen => ⟨?_, ?_⟩⟩
  · have hsend := congrArg Prod.snd (tftpSendRequest_eq TFTP_RRQ .get { s.g.tftp with
      dataAvailable := 0, endOfData := false, lastgot := 0, error := false, lastblk := 65535 }
      filename)
    rw [if_pos ⟨hreq, hlen⟩] at hsend
    exact hsend
  · have hsend := congrArg Prod.snd (tftpSendRequest_eq TFTP_WRQ .put { s.g.tftp with
      clearToSend := false, error := false, lastblk := 65535 } filename)
    rw [if_pos ⟨hreq, hlen⟩] at hsend
    exact hsend

/-- SAVE, and an error packet with the first byte. -/
def refusedSave : List Input :=
  [command 0x28 0x61, ⟨some (.ofPayload TFTP_PORT (packetBytes TFTP_ERROR 1 [0])), false,
    .byte 65 false, .timeout none, .timeout none⟩]

theorem norq_between_transfers_refused :
    (afterTurns [] refusedSave).g.tftp.requestInProgress = .norq := by
  have h : AllSteps (fun (s : Sketch) i => (s.step [] i).1) (LeavesNone []) .init refusedSave := by
    refine ⟨⟨?_, packetWithinBounds_none _ _⟩, ⟨?_, packetWithinBounds_of_not_get (by decide) _⟩,
      trivial⟩
    · intro a h
      exact absurd (h.symm.trans (show Sketch.init.pc = .idle from rfl)) (by simp)
    · intro a _ hlow
      exact absurd hlow (by decide)
  exact (norq_between_transfers [] h (Or.inl (by decide))).1

/-- SAVE, and ATN before the first byte: the next TALK asks for nothing. -/
theorem wedged_after_atn :
    (afterTurns [] [command 0x28 0x61, command 0x28 0x61]).pc = .idle ∧
      (afterTurns [] [command 0x28 0x61, command 0x28 0x61]).g.tftp.requestInProgress = .put ∧
      (tftpGetFile (afterTurns [] [command 0x28 0x61, command 0x28 0x61]).g.tftp
        (ascii "8/A")).2.2 = [] := by
  exact ⟨by decide, by decide, by decide⟩

end C64Iec.Client

import C64Iec.Client.TimedOut

set_option autoImplicit false

/-! # What the sketch sends

Whatever the computer says on the bus and whatever arrives, as long as no received block overruns
its buffers (`RunWithinBounds`), the datagrams of the sketch are requests, acknowledgements and blocks
of at most 256 bytes (`OutPacket`), from its port to one that a port number can name (`Proper`), and
every buffer keeps its size (`Sketch.Ready`): in every turn of every run (`sends_proper`).
-/

namespace C64Iec.Client

open Lib

/-- A request for a name that the limit allows, an acknowledgement, or a block of data. -/
inductive OutPacket : Bytes → Prop
  | request {opcode : Nat} {name : Bytes} (hop : opcode = TFTP_RRQ ∨ opcode = TFTP_WRQ)
      (hname : ∀ c ∈ name, c ≠ 0) (hlen : name.length ≤ NAME_LIMIT) :
      OutPacket (requestBytes opcode name)
  | ack (number : Nat) : OutPacket (packetBytes TFTP_ACK number [])
  | data (number : Nat) {body : Bytes} (hlen : body.length ≤ TFTP_BLKSIZE) :
      OutPacket (packetBytes TFTP_DATA number body)

structure Proper (d : Datagram) : Prop where
  sport : d.sport = SRCPORT
  dport : d.dport < 65536
  packet : OutPacket d.payload

/-- No packet is longer than a full block with its head. -/
theorem OutPacket.length_le {payload : Bytes} (h : OutPacket payload) :
    payload.length ≤ TFTP_BLKSIZE + 4 := by
  have hblk : TFTP_BLKSIZE = 256 := rfl
  have hlimit : NAME_LIMIT = 20 := rfl
  cases h with
  | request hop hname hlen =>
      rw [requestBytes_length]
      omega
  | ack number =>
      rw [packetBytes_length, List.length_nil]
      omega
  | data number hlen =>
      rw [packetBytes_length]
      omega

theorem proper_ack {sport : Nat} (h : sport < 65536) (number : Nat) :
    Proper (ackDatagram sport number) :=
  ⟨rfl, h, .ack number⟩

/-! ## The functions of `tftp.cpp` -/

/-- The globals the invariant is about: `tftpdata` has its size, what waits in it is at most a block,
and the port noted last is a port number. -/
structure Tftp.Ready (t : Tftp) : Prop where
  tftpdata : t.tftpdata.length = TFTP_BLKSIZE + 4
  available : 0 ≤ t.dataAvailable ∧ t.dataAvailable ≤ TFTP_BLKSIZE
  srvport : t.srvport < 65536

theorem Tftp.Ready.room {t : Tftp} (h : t.Ready) : 4 ≤ t.tftpdata.length :=
  h.tftpdata ▸ Nat.le_add_left 4 TFTP_BLKSIZE

/-- A copy into `tftpdata` that ends inside it. -/
theorem Tftp.Ready.blit_length {t : Tftp} (h : t.Ready) {off : Nat} {bytes : Bytes}
    (hfits : off + bytes.length ≤ TFTP_BLKSIZE + 4) :
    (blit t.tftpdata off bytes).length = TFTP_BLKSIZE + 4 :=
  (Lib.blit_length (h.tftpdata ▸ hfits)).trans h.tftpdata

/-- A function that leaves the state ready has sent what is proper. -/
def SendsProper (r : Tftp × List Datagram) : Prop := r.1.Ready ∧ ∀ d ∈ r.2, Proper d

theorem sendsProper_nil {t : Tftp} (h : t.Ready) : SendsProper (t, []) := ⟨h, nofun⟩

theorem sendsProper_singleton {t : Tftp} (h : t.Ready) {d : Datagram} (hd : Proper d) :
    SendsProper (t, [d]) :=
  ⟨h, fun _ hmem => List.mem_singleton.mp hmem ▸ hd⟩

theorem srvport_noteData (t : Tftp) (f : Frame) (n : Nat) :
    (noteData (tftpRecvData t f n) n).srvport = t.srvport := by
  unfold noteData tftpRecvData
  dsimp only
  split_ifs <;> rfl

/-- Data that overruns nothing leaves `tftpdata` its size, and is at most a block. -/
theorem Tftp.Ready.noteData {t : Tftp} (h : t.Ready) {f : Frame} (hport : f.srvport < 65536)
    (hsize : f.datasize ≤ TFTP_BLKSIZE) :
    (noteData (tftpRecvData (t.noted f) f f.datasize) f.datasize).Ready := by
  have hnoted : (t.noted f).Ready := ⟨h.tftpdata, h.available, hport⟩
  have hblk : TFTP_BLKSIZE = 256 := rfl
  refine ⟨?_, ?_, ?_⟩
  · rw [tftpdata_noteData, tftpRecvData]
    dsimp only
    split
    · refine hnoted.blit_length ?_
      rw [Frame.bytes_length]
      omega
    · exact h.tftpdata
  · rw [noteData_dataAvailable, int16_of_lt (by omega)]
    omega
  · rw [srvport_noteData]
    exact hport

theorem Tftp.Ready.recvPacket {t : Tftp} (h : t.Ready) {myip : Bytes} {f : Frame}
    (hb : PacketWithinBounds myip t (some f)) : SendsProper (tftpRecvPacket myip t f) := by
  have hport : f.srvport < 65536 := be16_lt _ _
  have hrecv := tftpRecvPacket_received myip t f
  generalize tftpRecvPacket myip t f = r at hrecv ⊢
  cases hrecv with
  | dropped => exact sendsProper_nil h
  | repeated => exact sendsProper_nil ⟨h.tftpdata, h.available, hport⟩
  | options =>
      have hack : 0 + (packetBytes TFTP_ACK 0 []).length ≤ TFTP_BLKSIZE + 4 := by decide
      have hready : ({ t.noted f with
          tftpdata := blit t.tftpdata 0 (packetBytes TFTP_ACK 0 []) } : Tftp).Ready :=
        ⟨h.blit_length hack, h.available, hport⟩
      rw [tftpSendAck_eq]
      exact sendsProper_singleton hready (proper_ack hport 0)
  | data hacc hnew htype hget =>
      have hreach := hacc.reachesData hnew htype hget
      exact sendsProper_nil (h.noteData hport ((hb f rfl hreach).datasize_le hreach))
  | clear => exact sendsProper_nil ⟨h.tftpdata, h.available, hport⟩
  | failed => exact sendsProper_nil ⟨h.tftpdata, h.available, hport⟩
  | other => exact sendsProper_nil ⟨h.tftpdata, h.available, hport⟩

theorem Tftp.Ready.probe {t : Tftp} (h : t.Ready) {myip : Bytes} {packet : Option Frame}
    (hb : PacketWithinBounds myip t packet) :
    (ethernetProbeForPacket myip t packet).1.Ready ∧
      ∀ d ∈ datagrams (ethernetProbeForPacket myip t packet).2, Proper d := by
  cases packet with
  | none => exact ⟨h, nofun⟩
  | some f =>
      obtain ⟨hready, hsent⟩ := h.recvPacket hb
      refine ⟨hready, ?_⟩
      show ∀ d ∈ datagrams ((tftpRecvPacket myip t f).2.map .udp), Proper d
      rw [datagrams_map_udp]
      exact hsent

/-- The data that waits is copied inside the buffer it is copied to, if there is room for a block. -/
theorem Tftp.Ready.getBlock {t : Tftp} (h : t.Ready) {mem : Bytes} {at_ : Nat}
    (hroom : at_ + TFTP_BLKSIZE ≤ mem.length) :
    SendsProper (tftpGetBlock t mem at_ 0).2.2 ∧
      (tftpGetBlock t mem at_ 0).2.1.length = mem.length := by
  rcases tftpGetBlock_cases t mem at_ with hnone | ⟨-, -, hsome⟩
  · rw [hnone]
    exact ⟨sendsProper_nil h, rfl⟩
  · have hack : 0 + (packetBytes TFTP_ACK t.blknum []).length ≤ TFTP_BLKSIZE + 4 :=
      Nat.le_add_left 4 TFTP_BLKSIZE
    have hready : ({ t with
        lastgot := t.blknum
        tftpdata := blit t.tftpdata 0 (packetBytes TFTP_ACK t.blknum [])
        requestInProgress := if t.endOfData then .norq else t.requestInProgress } : Tftp).Ready :=
      ⟨h.blit_length hack, h.available, h.srvport⟩
    rw [hsome]
    refine ⟨sendsProper_singleton hready (proper_ack h.srvport _), ?_⟩
    dsimp only
    split
    · refine Lib.blit_length ?_
      have hle := h.available
      have htake := List.length_take_le (t.dataAvailable % 65536).toNat t.tftpdata
      have hblk : TFTP_BLKSIZE = 256 := rfl
      omega
    · rfl

theorem Tftp.Ready.request {t : Tftp} (h : t.Ready) {mode : Nat}
    (hmode : mode = TFTP_RRQ ∨ mode = TFTP_WRQ) (req : Request) {name : Bytes}
    (hname : ∀ c ∈ name, c ≠ 0) : SendsProper (tftpSendRequest mode req t name).2 := by
  rw [tftpSendRequest_eq]
  split
  · rename_i hreq
    have hproper : Proper (requestDatagram mode name) :=
      ⟨rfl, show TFTP_PORT < 65536 by decide, .request hmode hname hreq.2⟩
    have hfits : 0 + (requestBytes mode name).length ≤ TFTP_BLKSIZE + 4 := by
      have hblk : TFTP_BLKSIZE = 256 := rfl
      have hlimit : name.length ≤ 20 := hreq.2
      rw [requestBytes_length]
      omega
    have hready : ({ t with
        requestInProgress := req
        tftpdata := blit t.tftpdata 0 (requestBytes mode name) } : Tftp).Ready :=
      ⟨h.blit_length hfits, h.available, h.srvport⟩
    exact sendsProper_singleton hready hproper
  · exact sendsProper_nil h

theorem Tftp.Ready.getFile {t : Tftp} (h : t.Ready) {name : Bytes} (hname : ∀ c ∈ name, c ≠ 0) :
    SendsProper (tftpGetFile t name).2 := by
  have hstart : ({ t with
      dataAvailable := 0, endOfData := false, lastgot := 0, error := false,
      lastblk := 65535 } : Tftp).Ready := ⟨h.tftpdata, ⟨Int.le_refl 0, Int.natCast_nonneg _⟩, h.srvport⟩
  exact hstart.request (Or.inl rfl) .get hname

theorem Tftp.Ready.putFile {t : Tftp} (h : t.Ready) {name : Bytes} (hname : ∀ c ∈ name, c ≠ 0) :
    SendsProper (tftpPutFile t name).2 := by
  have hstart : ({ t with
      clearToSend := false, error := false, lastblk := 65535 } : Tftp).Ready :=
    ⟨h.tftpdata, h.available, h.srvport⟩
  exact hstart.request (Or.inr rfl) .put hname

/-- A block is sent from inside `tftpdata`. -/
theorem tftpPutBlock_tftpdata_length {t : Tftp} (h : t.Ready) (buf : Bytes) {size : Nat}
    (hsize : size ≤ TFTP_BLKSIZE) :
    (tftpPutBlock t buf size).2.1.tftpdata.length = TFTP_BLKSIZE + 4 ∧
      (tftpPutBlock t buf size).2.1.dataAvailable = t.dataAvailable := by
  have hbody : 4 + (buf.take size).length ≤ TFTP_BLKSIZE + 4 := by
    have htake := List.length_take_le size buf
    omega
  have hhead : ∀ {mem : Bytes}, mem.length = TFTP_BLKSIZE + 4 →
      (blit mem 0 (beBytes TFTP_DATA ++ beBytes (t.blknum + 1))).length = TFTP_BLKSIZE + 4 :=
    fun hmem => (Lib.blit_length (hmem ▸ Nat.le_add_left 4 TFTP_BLKSIZE)).trans hmem
  unfold tftpPutBlock tftpSendData
  dsimp only
  split
  · exact ⟨h.tftpdata, rfl⟩
  · split_ifs
    all_goals exact ⟨hhead (by first | exact h.blit_length hbody | exact h.tftpdata), rfl⟩

theorem Tftp.Ready.putBlock {t : Tftp} (h : t.Ready) {buf : Bytes} {size : Nat}
    (hsize : size ≤ TFTP_BLKSIZE) (hbuf : size ≤ buf.length) :
    SendsProper (tftpPutBlock t buf size).2 := by
  cases hclear : t.clearToSend with
  | false =>
      rw [tftpPutBlock_wait hclear]
      exact sendsProper_nil h
  | true =>
      obtain ⟨hlen, havailable⟩ := tftpPutBlock_tftpdata_length h buf hsize
      obtain ⟨t', hput, -, -, -, -, hport, -⟩ := tftpPutBlock_send hclear h.room hbuf
      rw [hput] at hlen havailable ⊢
      refine sendsProper_singleton ⟨hlen, ?_, hport ▸ h.srvport⟩ ⟨rfl, h.srvport, .data _ ?_⟩
      · rw [havailable]
        exact h.available
      · rw [List.length_take_of_le hbuf]
        exact hsize

/-! ## A turn of the sketch -/

/-- `tftp` is ready, and the other buffers have their sizes. -/
structure Globals.Ready (g : Globals) : Prop where
  tftp : g.tftp.Ready
  iobuf : g.iobuf.length = IOBUF_SIZE
  filename : g.tftpFilename.length = C64_FILE_LIMIT * 3 + 5

/-- There is room in `iobuf` for a block, behind the byte that `send_file` may hold back. -/
theorem Globals.Ready.block_le {g : Globals} (h : g.Ready) : 1 + TFTP_BLKSIZE ≤ g.iobuf.length :=
  h.iobuf.symm ▸ (Nat.add_comm 1 TFTP_BLKSIZE).le

/-- A block that `recv_file` collects or waits to send is no longer than a block. -/
def RecvFile.Bounded : RecvFile → Prop
  | .byte a => a < TFTP_BLKSIZE
  | .block a _ => a ≤ TFTP_BLKSIZE
  | .emptyBlock => True

/-- What a turn of `recv_file` leads to. -/
structure RecvTurn (r : Globals × List Output × Control RecvFile) : Prop where
  ready : r.1.Ready
  sent : ∀ d ∈ datagrams r.2.1, Proper d
  bounded : ∀ l, r.2.2 = .run l → l.Bounded

/-- What has been sent before is proper too. -/
theorem RecvTurn.after {g : Globals} {out' : List Output} {c : Control RecvFile}
    (h : RecvTurn (g, out', c)) {out : List Output} (hout : ∀ d ∈ datagrams out, Proper d) :
    RecvTurn (g, out ++ out', c) := by
  refine ⟨h.ready, fun d hd => ?_, h.bounded⟩
  rw [datagrams_append, List.mem_append] at hd
  exact hd.elim (hout d) (h.sent d)

theorem Globals.Ready.emptyBlock {g : Globals} (h : g.Ready) : RecvTurn (recvFileEmptyBlock g) := by
  obtain ⟨hready, hsent⟩ := h.tftp.putBlock (Nat.zero_le _) (Nat.zero_le g.iobuf.length)
  unfold recvFileEmptyBlock
  generalize tftpPutBlock g.tftp g.iobuf 0 = r at hready hsent
  obtain ⟨sent, t, out⟩ := r
  refine ⟨⟨hready, h.iobuf, h.filename⟩, ?_, fun l hl => ?_⟩
  · show ∀ d ∈ datagrams (out.map .udp), Proper d
    rw [datagrams_map_udp]
    exact hsent
  · dsimp only at hl
    split at hl
    · cases hl
    · cases hl
      trivial

theorem Globals.Ready.block {g : Globals} (h : g.Ready) {a : Nat} (ha : a ≤ TFTP_BLKSIZE)
    (eoi : Bool) : RecvTurn (recvFileBlock g a eoi) := by
  obtain ⟨hready, hsent⟩ := h.tftp.putBlock ha (ha.trans (Nat.le_of_add_left_le h.block_le))
  unfold recvFileBlock
  generalize tftpPutBlock g.tftp g.iobuf a = r at hready hsent
  obtain ⟨sent, t, out⟩ := r
  dsimp only at hready hsent ⊢
  have hout : ∀ d ∈ datagrams (out.map .udp), Proper d := by
    rw [datagrams_map_udp]
    exact hsent
  have hg : ({ g with tftp := t } : Globals).Ready := ⟨hready, h.iobuf, h.filename⟩
  split
  · refine ⟨hg, hout, fun l hl => ?_⟩
    cases hl
    exact ha
  · split
    · exact hg.emptyBlock.after hout
    · split
      · exact ⟨hg, hout, nofun⟩
      · refine ⟨hg, hout, fun l hl => ?_⟩
        cases hl
        exact Nat.succ_pos _

theorem Globals.Ready.recvFileStep {g : Globals} (h : g.Ready) {myip : Bytes} {l : RecvFile}
    (hl : l.Bounded) {i : Input} (hb : PacketWithinBounds myip g.tftp i.packet) :
    RecvTurn (recvFileStep myip g l i) := by
  obtain ⟨hready, hsent⟩ := h.tftp.probe hb
  cases l with
  | byte a =>
      unfold Client.recvFileStep
      by_cases hatn : i.atn = true
      · simp only [hatn, if_true]
        exact ⟨h, nofun, nofun⟩
      · simp only [hatn, Bool.false_eq_true, if_false]
        have hg : ({ g with
            tftp := (ethernetProbeForPacket myip g.tftp i.packet).1
            iobuf := i.byte.store g.iobuf a } : Globals).Ready :=
          ⟨hready, (GetByte.store_length _ _ _).trans h.iobuf, h.filename⟩
        split
        · exact ⟨hg, hsent, nofun⟩
        · split
          · exact (hg.block hl i.byte.eoi).after hsent
          · rename_i hmore
            refine ⟨hg, hsent, fun l hl' => ?_⟩
            cases hl'
            have hne : a + 1 ≠ 256 := fun heq => hmore (Or.inl heq)
            have hblk : TFTP_BLKSIZE = 256 := rfl
            have ha : a < TFTP_BLKSIZE := hl
            show a + 1 < TFTP_BLKSIZE
            omega
  | block a eoi =>
      have hg : ({ g with tftp := (ethernetProbeForPacket myip g.tftp i.packet).1 } :
          Globals).Ready := ⟨hready, h.iobuf, h.filename⟩
      exact (hg.block hl eoi).after hsent
  | emptyBlock =>
      have hg : ({ g with tftp := (ethernetProbeForPacket myip g.tftp i.packet).1 } :
          Globals).Ready := ⟨hready, h.iobuf, h.filename⟩
      exact hg.emptyBlock.after hsent

/-- What a turn of `send_file` leads to. -/
structure SendTurned (r : Globals × List Output × Control SendFile) : Prop where
  ready : r.1.Ready
  sent : ∀ d ∈ datagrams r.2.1, Proper d
  bounded : ∀ l, r.2.2 = .run l → l.iobufOffset ≤ 1

theorem Globals.Ready.sendFileStep {g : Globals} (h : g.Ready) {myip : Bytes} {l : SendFile}
    (hl : l.iobufOffset ≤ 1) {packet : Option Frame}
    (hb : PacketWithinBounds myip g.tftp packet) : SendTurned (sendFileStep myip g l packet) := by
  obtain ⟨hready, hsent⟩ := h.tftp.probe hb
  obtain ⟨⟨hblock, hacks⟩, hmem⟩ :=
    hready.getBlock ((Nat.add_le_add_right hl TFTP_BLKSIZE).trans h.block_le)
  have hturn := sendFileStep_turn myip g l packet
  generalize Client.sendFileStep myip g l packet = r at hturn ⊢
  have hout : ∀ {acks : List Datagram} {rest : List Output}, datagrams rest = [] →
      (∀ d ∈ acks, Proper d) → ∀ d ∈ datagrams ((ethernetProbeForPacket myip g.tftp packet).2 ++
        acks.map .udp ++ rest), Proper d := by
    intro acks rest hrest hacks d hd
    rw [datagrams_append, datagrams_append, datagrams_map_udp, hrest, List.append_nil,
      List.mem_append] at hd
    exact hd.elim (hsent d) (hacks d)
  cases hturn with
  | failed => exact ⟨⟨hready, h.iobuf, h.filename⟩, hsent, nofun⟩
  | last herr heq =>
      rw [heq] at hblock hacks hmem
      exact ⟨⟨hblock, hmem.trans h.iobuf, h.filename⟩, hout (datagrams_sendFilePut _ _ _ _) hacks,
        nofun⟩
  | idle herr heq =>
      rw [heq] at hblock hacks hmem
      refine ⟨⟨hblock, hmem.trans h.iobuf, h.filename⟩, ?_, fun l' hl' => ?_⟩
      · rw [← List.append_nil (_ ++ List.map _ _)]
        exact hout rfl hacks
      · cases hl'
        exact hl
  | block herr heq =>
      rw [heq] at hblock hacks hmem
      refine ⟨⟨hblock, ?_, h.filename⟩, hout (datagrams_sendFilePut _ _ _ _) hacks, fun l' hl' => ?_⟩
      · rw [List.length_set]
        exact hmem.trans h.iobuf
      · cases hl'
        exact le_rfl

/-! ## Runs -/

/-- The place in `iobuf` that the next byte or block goes to is inside it. -/
def Pc.Bounded : Pc → Prop
  | .idle => True
  | .opening a => a < IOBUF_SIZE - 1
  | .sending l => l.iobufOffset ≤ 1
  | .receiving l => l.Bounded

/-- The invariant: every buffer has its size. -/
structure Sketch.Ready (s : Sketch) : Prop where
  g : s.g.Ready
  bounded : s.pc.Bounded

/-- What a turn leads to. -/
def Turned (r : Sketch × List Output) : Prop := r.1.Ready ∧ ∀ d ∈ datagrams r.2, Proper d

theorem turned_idle {g : Globals} (h : g.Ready) {out : List Output}
    (hout : ∀ d ∈ datagrams out, Proper d) : Turned (⟨g, .idle⟩, out) :=
  ⟨⟨h, trivial⟩, hout⟩

theorem Turned.after {s : Sketch} {out' : List Output} (h : Turned (s, out')) {out : List Output}
    (hout : ∀ d ∈ datagrams out, Proper d) : Turned (s, out ++ out') := by
  refine ⟨h.1, fun d hd => ?_⟩
  rw [datagrams_append, List.mem_append] at hd
  exact hd.elim (hout d) (h.2 d)

/-- A turn that sends nothing. -/
theorem turned_quiet {s : Sketch} (h : s.Ready) : Turned (s, []) :=
  ⟨h, by rw [datagrams_nil]; nofun⟩

theorem RecvTurn.turned {r : Globals × List Output × Control RecvFile} (h : RecvTurn r) :
    Turned (Sketch.ofRecvFile r) := by
  obtain ⟨g, out, c⟩ := r
  cases c with
  | run l => exact ⟨⟨h.ready, h.bounded l rfl⟩, h.sent⟩
  | ret value => exact turned_idle h.ready h.sent

theorem SendTurned.turned {r : Globals × List Output × Control SendFile} (h : SendTurned r) :
    Turned (Sketch.ofSendFile r) := by
  obtain ⟨g, out, c⟩ := r
  cases c with
  | run l => exact ⟨⟨h.ready, h.bounded l rfl⟩, h.sent⟩
  | ret value => exact turned_idle h.ready h.sent

/-- The name that a LOAD or SAVE asks for is a C string. -/
theorem Globals.filename_ne_nul (g : Globals) : ∀ c ∈ g.filename, c ≠ 0 :=
  untilNul_ne_nul g.tftpFilename

theorem Globals.Ready.createTftpFilename {g : Globals} (h : g.Ready) :
    g.createTftpFilename.Ready := by
  obtain ⟨-, -, hlen⟩ := createTftpFilename_eq h.filename g.deviceMode g.iobuf
  exact ⟨h.tftp, h.iobuf, hlen⟩

theorem Globals.Ready.handleListen {g : Globals} (h : g.Ready) (secAddr : Nat) :
    Turned (handleListen g secAddr) := by
  unfold Client.handleListen
  split
  · exact turned_quiet ⟨h, trivial⟩
  · have hname := h.createTftpFilename
    obtain ⟨hready, hsent⟩ := hname.tftp.putFile g.createTftpFilename.filename_ne_nul
    apply RecvTurn.turned
    unfold recvFileStart
    generalize tftpPutFile g.createTftpFilename.tftp g.createTftpFilename.filename = r
      at hready hsent
    obtain ⟨size, t, out⟩ := r
    refine ⟨⟨hready, hname.iobuf, hname.filename⟩, ?_, fun l hl => ?_⟩
    · show ∀ d ∈ datagrams (out.map .udp), Proper d
      rw [datagrams_map_udp]
      exact hsent
    · cases hl
      exact Nat.succ_pos _

theorem Globals.Ready.handleTalk {g : Globals} (h : g.Ready) : Turned (handleTalk g) := by
  have hname := h.createTftpFilename
  obtain ⟨hready, hsent⟩ := hname.tftp.getFile g.createTftpFilename.filename_ne_nul
  unfold Client.handleTalk sendFileStart
  generalize tftpGetFile g.createTftpFilename.tftp g.createTftpFilename.filename = r at hready hsent
  obtain ⟨size, t, out⟩ := r
  refine SendTurned.turned ⟨⟨hready, hname.iobuf, hname.filename⟩, ?_, fun l hl => ?_⟩
  · show ∀ d ∈ datagrams (out.map .udp), Proper d
    rw [datagrams_map_udp]
    exact hsent
  · dsimp only at hl
    split at hl
    · cases hl
      exact Nat.zero_le 1
    · cases hl

theorem Globals.Ready.handleAtn {g : Globals} (h : g.Ready) (i : Input) :
    Turned (handleAtn g i) := by
  obtain ⟨device, sec, g', hg', hcases⟩ := handleAtn_cases g i
  have hready : g'.Ready := by
    rw [hg']
    exact ⟨h.tftp, h.iobuf, h.filename⟩
  rcases hcases with heq | heq | ⟨secAddr, heq⟩ | heq
  · rw [heq]
    exact turned_quiet ⟨hready, trivial⟩
  · rw [heq]
    exact turned_quiet ⟨hready, Nat.succ_pos _⟩
  · rw [heq]
    exact hready.handleListen secAddr
  · rw [heq]
    exact hready.handleTalk

theorem Globals.Ready.handleOpenStep {g : Globals} (h : g.Ready) (a : Nat) (i : Input) :
    Turned (handleOpenStep g a i) := by
  have hstore : (i.byte.store g.iobuf a).length = IOBUF_SIZE :=
    (GetByte.store_length _ _ _).trans h.iobuf
  unfold Client.handleOpenStep
  split
  · exact turned_quiet ⟨h, trivial⟩
  · dsimp only
    split
    · rename_i hmore
      exact turned_quiet ⟨⟨h.tftp, hstore, h.filename⟩, hmore.2⟩
    · have hset : ((i.byte.store g.iobuf a).set (a + 1) 0).length = IOBUF_SIZE :=
        List.length_set.trans hstore
      exact turned_quiet ⟨⟨h.tftp, hset, h.filename⟩, trivial⟩

/-- **A turn** in which no block overruns its buffers keeps the invariant and sends what is proper. -/
theorem Sketch.Ready.step {s : Sketch} (h : s.Ready) {myip : Bytes} {i : Input}
    (hb : PacketWithinBounds myip s.g.tftp i.packet) : Turned (s.step myip i) := by
  obtain ⟨g, pc⟩ := s
  cases pc with
  | idle =>
      obtain ⟨hready, hsent⟩ := h.g.tftp.probe hb
      have hg : ({ g with tftp := (ethernetProbeForPacket myip g.tftp i.packet).1 } :
          Globals).Ready := ⟨hready, h.g.iobuf, h.g.filename⟩
      show Turned (loopStep myip g i)
      unfold loopStep
      dsimp only
      split
      · exact (hg.handleAtn i).after hsent
      · exact turned_idle hg hsent
  | opening a => exact h.g.handleOpenStep a i
  | sending l => exact (h.g.sendFileStep h.bounded hb).turned
  | receiving l => exact (h.g.recvFileStep h.bounded hb).turned

theorem ready_init : Sketch.init.Ready :=
  ⟨⟨⟨List.length_replicate, by decide, by decide⟩, List.length_replicate, List.length_replicate⟩,
    trivial⟩

/-- No received block overruns its buffers in the turns of a run from power-up. -/
def RunWithinBounds (myip : Bytes) (turns : List Input) : Prop :=
  AllSteps (fun s i => (s.step myip i).1) (fun s i => PacketWithinBounds myip s.g.tftp i.packet)
    Sketch.init turns

/-- What the last turn of such a run leads to. -/
theorem turned_of_run {myip : Bytes} {turns : List Input} {i : Input}
    (h : RunWithinBounds myip (turns ++ [i])) : Turned ((afterTurns myip turns).step myip i) := by
  obtain ⟨hturns, hlast, -⟩ := (allSteps_append _ _ _ _ _).mp h
  have hready : (afterTurns myip turns).Ready :=
    run_invariant _ (fun _ _ hs hb => (hs.step hb).1) turns _ ready_init hturns
  exact hready.step hlast

/-- **Everything the sketch sends is proper**, and every buffer keeps its size, in every turn of every
run from power-up in which no block overruns its buffers. -/
theorem sends_proper {myip : Bytes} {turns : List Input} {i : Input}
    (h : RunWithinBounds myip (turns ++ [i])) :
    ((afterTurns myip turns).step myip i).1.Ready ∧
      ∀ d ∈ datagrams ((afterTurns myip turns).step myip i).2, Proper d :=
  turned_of_run h

/-- A TALK after power-up, which asks for the file without a name, and the server's first block, of
one byte. -/
def talkAndOneByte : List Input :=
  [command 0x48 0x60] ++ [⟨some (.ofPayload TFTP_PORT (packetBytes TFTP_DATA 1 [66])), false,
    .timeout none, .timeout none, .timeout none⟩]

theorem runWithinBounds_oneByte (myip : Bytes) : RunWithinBounds myip talkAndOneByte := by
  have hcarries := Frame.carries_ofPayload TFTP_PORT (packetBytes TFTP_DATA 1 [66]) (by decide)
    (by decide)
  exact ⟨packetWithinBounds_none _ _, packetWithinBounds_of_carries hcarries (by decide), trivial⟩

/-- The block is acknowledged. -/
theorem sends_proper_sample : Proper (ackDatagram TFTP_PORT 1) :=
  (sends_proper (runWithinBounds_oneByte [10, 0, 0, 2])).2 _ (by decide)

end C64Iec.Client

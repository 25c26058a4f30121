import C64Iec.Client.GetByte
import C64Iec.Client.OpenedName
import C64Iec.Client.Request
import C64Iec.Client.SaveClient

set_option autoImplicit false

/-! # Bytes that time out

`get_byte` returns `0` for a byte without EOI and for one it has given up, and `handle_open` and
`recv_file` go on to the next cell of `iobuf` after both. `NameRun` and `SaveRun` record the calls of
`get_byte` in a run of the two, on any levels of the lines. The name, and the bytes sent in DATA
blocks with those that wait for the next one, are what has been clocked in (`Exact`) as long as no
call gives up, and no longer: every call adds a cell (`exact_iff`).
-/

namespace C64Iec.Client

open Lib

/-- What the client sees during a turn: the frame that arrives, and the levels of the lines. ATN is
the first thing it reads; `get_byte` reads from time 1 on. -/
structure BusTurn where
  packet : Option Frame
  levels : Nat → Levels

def BusTurn.input (turn : BusTurn) : Input where
  packet := turn.packet
  atn := decide ((turn.levels 0).atn = LOW)
  byte := getByte turn.levels 1 false
  device := .timeout none
  sec := .timeout none

/-- The byte that `get_byte` clocks in completely in a turn. -/
def clocked (levels : Nat → Levels) : Option Byte := (getByte levels 1 false).value

/-- `iobuf` has its declared size, and `tftpdata` room for the head of a packet. -/
structure Globals.Sized (g : Globals) : Prop where
  iobuf : g.iobuf.length = IOBUF_SIZE
  tftpdata : 4 ≤ g.tftp.tftpdata.length

/-- Every call of `get_byte` leaves something in its cell: the byte if there is one. -/
theorem GetByte.take_store_succ (b : GetByte) {mem : Bytes} {a : Nat} (ha : a < mem.length) :
    ∃ c, (b.store mem a).take (a + 1) = mem.take a ++ [c] ∧ ∀ v, b.value = some v → c = v := by
  have hset : ∀ c, (mem.set a c).take (a + 1) = mem.take a ++ [c] := take_set_succ ha
  cases b with
  | byte value eoi => exact ⟨value, hset value, fun v hv => Option.some.inj hv⟩
  | timeout stored =>
      cases stored with
      | some value => exact ⟨value, hset value, fun v hv => by cases hv⟩
      | none => exact ⟨mem[a], (List.take_append_getElem ha).symm, fun v hv => by cases hv⟩

/-! ## `handle_open` -/

/-- A run of `handle_open`: the calls of `get_byte` with the levels each has seen, and whether ATN
has ended the run. -/
structure NameRun where
  s : Sketch
  cut : Bool
  reads : List (Nat → Levels)

namespace NameRun

def start (g : Globals) : NameRun := ⟨⟨g, .opening 0⟩, false, []⟩

def next (r : NameRun) (turn : BusTurn) : NameRun :=
  match r.s.pc with
  | .opening a =>
      { s := (handleOpenStep r.s.g a turn.input).1
        cut := turn.input.atn
        reads := if turn.input.atn then r.reads else r.reads ++ [turn.levels] }
  | _ => r

/-- The cells `get_byte` has been called on. -/
def name (r : NameRun) : Bytes := r.s.g.iobuf.take r.reads.length

/-- The name is what has been clocked in, and at the end its NUL stands behind it. -/
structure Exact (r : NameRun) : Prop where
  name : r.name = r.reads.filterMap clocked
  nul : r.s.pc = .idle → r.cut = false → r.s.g.iobuf[r.reads.length]? = some 0

structure Inv (r : NameRun) : Prop where
  iobuf : r.s.g.iobuf.length = IOBUF_SIZE
  fills : Fills clocked r.name r.reads
  pc : ∀ a, r.s.pc = .opening a → a = r.reads.length ∧ a < IOBUF_SIZE - 1
  nul : r.s.pc = .idle → r.cut = false → r.s.g.iobuf[r.reads.length]? = some 0

theorem inv_start {g : Globals} (hg : g.iobuf.length = IOBUF_SIZE) : (start g).Inv where
  iobuf := hg
  fills := by
    show Fills clocked (g.iobuf.take 0) []
    rw [List.take_zero]
    exact List.Forall₂.nil
  pc := fun a ha => by
    cases ha
    exact ⟨rfl, by decide⟩
  nul := fun hpc => by cases hpc

/-- **A turn** of `handle_open` ends at ATN, or adds a cell. -/
theorem Inv.next {r : NameRun} (h : r.Inv) (turn : BusTurn) : (r.next turn).Inv := by
  obtain ⟨⟨g, pc⟩, cut, reads⟩ := r
  cases pc with
  | idle => exact h
  | sending l => exact h
  | receiving l => exact h
  | opening a =>
      obtain ⟨hio, hfills, hpc, -⟩ := h
      obtain ⟨rfl, ha⟩ : a = reads.length ∧ a < IOBUF_SIZE - 1 := hpc a rfl
      have h257 : IOBUF_SIZE = 257 := rfl
      dsimp only at hio
      have hvalue : clocked turn.levels = turn.input.byte.value := rfl
      unfold NameRun.next handleOpenStep
      generalize turn.input = i at hvalue ⊢
      by_cases hatn : i.atn = true
      · simp only [hatn, if_true]
        exact ⟨hio, hfills, nofun, nofun⟩
      · simp only [hatn, Bool.false_eq_true, if_false]
        obtain ⟨c, htake, hc⟩ :=
          i.byte.take_store_succ (show reads.length < g.iobuf.length by omega)
        rw [← hvalue] at hc
        have hlen : (reads ++ [turn.levels]).length = reads.length + 1 := List.length_append
        have hstore := i.byte.store_length g.iobuf reads.length
        have hnew : Fills clocked ((i.byte.store g.iobuf reads.length).take
            (reads ++ [turn.levels]).length) (reads ++ [turn.levels]) := by
          rw [hlen, htake]
          exact hfills.concat hc
        split
        · rename_i hmore
          refine ⟨hstore.trans hio, hnew, fun a ha => ?_, nofun⟩
          cases ha
          exact ⟨hlen.symm, hmore.2⟩
        · refine ⟨?_, ?_, nofun, fun _ _ => ?_⟩
          · show (List.set _ _ _).length = _
            rw [List.length_set, hstore, hio]
          · -- the NUL is behind the cells
            show Fills clocked ((List.set _ _ _).take _) _
            rw [List.take_set_of_le hlen.le]
            exact hnew
          · show (List.set _ _ _)[_]? = _
            rw [hlen, List.getElem?_set_self]
            omega

theorem inv_run {g : Globals} (hg : g.iobuf.length = IOBUF_SIZE) (turns : List BusTurn) :
    (turns.foldl NameRun.next (start g)).Inv :=
  List.foldlRecOn turns NameRun.next (inv_start hg) fun _ h turn _ => h.next turn

/-- The name is exact as long as no call gives up. -/
theorem Inv.exact_iff {r : NameRun} (h : r.Inv) :
    r.Exact ↔ ∀ levels ∈ r.reads, ∃ bits eoi, ClockedIn levels 1 false bits eoi := by
  have hiff := h.fills.eq_iff
  simp only [clocked, getByte_value_isSome_iff] at hiff
  rw [← hiff]
  exact ⟨fun he => he.name, fun hname => ⟨hname, h.nul⟩⟩

end NameRun

/-! ## DATA blocks -/

/-- The bytes a DATA block carries. -/
def Output.dataBytes : Output → Bytes
  | .udp d => if d.payload.take 2 = beBytes TFTP_DATA then d.payload.drop 4 else []
  | .put _ _ => []

/-- The bytes sent in DATA blocks. -/
def sentBytes (out : List Output) : Bytes := out.flatMap Output.dataBytes

@[simp] theorem sentBytes_append (out out' : List Output) :
    sentBytes (out ++ out') = sentBytes out ++ sentBytes out' := List.flatMap_append

section Received

variable (myip : Bytes) (t : Tftp)

theorem tftpdata_noteData (r : Int × Tftp) (dataSize : Nat) :
    (noteData r dataSize).tftpdata = r.2.tftpdata := by
  unfold noteData
  dsimp only
  split_ifs <;> rfl

theorem tftpRecvData_tftpdata_length (f : Frame) (dataSize : Nat) :
    t.tftpdata.length ≤ (tftpRecvData t f dataSize).2.tftpdata.length := by
  unfold tftpRecvData
  dsimp only
  split
  · exact length_le_blit _ _ _
  · exact le_rfl

/-- What arrives is answered with the acknowledgement of block 0, or not at all; and `tftpdata` does
not shrink. -/
theorem tftpRecvPacket_answer (f : Frame) :
    ((tftpRecvPacket myip t f).2 = [] ∨
        (tftpRecvPacket myip t f).2 = [ackDatagram f.srvport 0]) ∧
      t.tftpdata.length ≤ (tftpRecvPacket myip t f).1.tftpdata.length := by
  have hrecv := tftpRecvPacket_received myip t f
  generalize tftpRecvPacket myip t f = r at hrecv ⊢
  cases hrecv with
  | dropped => exact ⟨Or.inl rfl, le_rfl⟩
  | repeated => exact ⟨Or.inl rfl, le_rfl⟩
  | options =>
      rw [tftpSendAck_eq]
      exact ⟨Or.inr rfl, length_le_blit _ _ _⟩
  | data =>
      rw [tftpdata_noteData]
      exact ⟨Or.inl rfl, tftpRecvData_tftpdata_length (t.noted f) f _⟩
  | clear => exact ⟨Or.inl rfl, le_rfl⟩
  | failed => exact ⟨Or.inl rfl, le_rfl⟩
  | other => exact ⟨Or.inl rfl, le_rfl⟩

theorem sentBytes_ethernetProbeForPacket (packet : Option Frame) :
    sentBytes (ethernetProbeForPacket myip t packet).2 = [] := by
  cases packet with
  | none => rfl
  | some f =>
      show sentBytes ((tftpRecvPacket myip t f).2.map .udp) = []
      rcases (tftpRecvPacket_answer myip t f).1 with hout | hout
      · rw [hout]
        rfl
      · rw [hout]
        rfl

theorem ethernetProbeForPacket_tftpdata_length (packet : Option Frame) :
    t.tftpdata.length ≤ (ethernetProbeForPacket myip t packet).1.tftpdata.length := by
  cases packet with
  | none => exact le_rfl
  | some f => exact (tftpRecvPacket_answer myip t f).2

end Received

/-! ## `recv_file` -/

/-- The cells of `iobuf` that a block still has to take, in the loop or after the return. -/
def Control.Waits : Control RecvFile → Nat → Prop
  | .run (.byte a), w => w = a ∧ a < 256
  | .run (.block a _), w => w = a
  | .run .emptyBlock, w => w = 0
  | .ret true, w => w = 0
  | .ret false, _ => True

/-- What a call of `tftp_put_block` on the first `a` cells leads to: the cells are sent or go on
waiting. -/
structure TakesBlock (g : Globals) (a : Nat) (r : Globals × List Output × Control RecvFile) :
    Prop where
  sized : r.1.Sized
  iobuf : r.1.iobuf = g.iobuf
  bytes : ∃ w, w ≤ a ∧ r.2.2.Waits w ∧ sentBytes r.2.1 ++ g.iobuf.take w = g.iobuf.take a

/-- `tftp_put_block` waits, or sends the first `size` cells. -/
theorem tftpPutBlock_sized {g : Globals} (hg : g.Sized) {size : Nat} (hsize : size ≤ 256) :
    tftpPutBlock g.tftp g.iobuf size = (false, g.tftp, []) ∨
      ∃ t out, tftpPutBlock g.tftp g.iobuf size = (true, t, out) ∧
        ({ g with tftp := t } : Globals).Sized ∧ sentBytes (out.map .udp) = g.iobuf.take size := by
  have h257 : IOBUF_SIZE = 257 := rfl
  cases hclear : g.tftp.clearToSend with
  | false => exact Or.inl (tftpPutBlock_wait hclear g.iobuf size)
  | true =>
      have hle : size ≤ g.iobuf.length := by
        rw [hg.iobuf]
        omega
      obtain ⟨t, hput, -, -, -, -, -, hdata, -⟩ := tftpPutBlock_send hclear hg.tftpdata hle
      refine Or.inr ⟨t, _, hput, ⟨hg.iobuf, hdata⟩, ?_⟩
      exact List.append_nil _

theorem recvFileEmptyBlock_takes {g : Globals} (hg : g.Sized) :
    TakesBlock g 0 (recvFileEmptyBlock g) := by
  unfold recvFileEmptyBlock
  rcases tftpPutBlock_sized hg (Nat.zero_le 256) with hput | ⟨t, out, hput, ht, hout⟩
  · rw [hput]
    exact ⟨hg, rfl, 0, le_rfl, rfl, rfl⟩
  · rw [hput]
    refine ⟨ht, rfl, 0, le_rfl, rfl, ?_⟩
    show sentBytes (out.map .udp) ++ _ = _
    rw [hout]
    rfl

theorem recvFileBlock_takes {g : Globals} (hg : g.Sized) {a : Nat} (ha : a ≤ 256) (eoi : Bool) :
    TakesBlock g a (recvFileBlock g a eoi) := by
  unfold recvFileBlock
  rcases tftpPutBlock_sized hg ha with hput | ⟨t, out, hput, ht, hout⟩
  · rw [hput]
    exact ⟨hg, rfl, a, le_rfl, rfl, rfl⟩
  · rw [hput]
    obtain ⟨hsized, hiobuf, w, hw, hwaits, hempty⟩ := recvFileEmptyBlock_takes ht
    simp only [Bool.not_true, Bool.false_eq_true, if_false]
    split
    · refine ⟨hsized, hiobuf, w, hw.trans (Nat.zero_le a), hwaits, ?_⟩
      show sentBytes (out.map .udp ++ _) ++ _ = _
      rw [sentBytes_append, List.append_assoc, hempty, hout]
      exact List.append_nil _
    · split
      · refine ⟨ht, rfl, 0, Nat.zero_le a, rfl, ?_⟩
        rw [hout]
        exact List.append_nil _
      · refine ⟨ht, rfl, 0, Nat.zero_le a, ⟨rfl, by decide⟩, ?_⟩
        rw [hout]
        exact List.append_nil _

/-- A run of `recv_file`, with what it has sent and the levels that each call of `get_byte` has
seen. -/
structure SaveRun where
  g : Globals
  control : Control RecvFile
  out : List Output
  reads : List (Nat → Levels)

/-- Whether `recv_file` is at the head of the loop that reads bytes. -/
def RecvFile.readsByte : RecvFile → Bool
  | .byte _ => true
  | _ => false

/-- The request is no DATA block. -/
theorem recvFileStart_sized {g : Globals} (hg : g.Sized) :
    (recvFileStart g).1.Sized ∧ sentBytes (recvFileStart g).2.1 = [] := by
  have hput : (tftpPutFile g.tftp g.filename).2 = _ := tftpSendRequest_eq _ _ _ _
  show ({ g with tftp := (tftpPutFile g.tftp g.filename).2.1 } : Globals).Sized ∧
    sentBytes ((tftpPutFile g.tftp g.filename).2.2.map .udp) = []
  rw [hput]
  split
  · exact ⟨⟨hg.iobuf, hg.tftpdata.trans (length_le_blit _ _ _)⟩, rfl⟩
  · exact ⟨⟨hg.iobuf, hg.tftpdata⟩, rfl⟩

namespace SaveRun

def start (g : Globals) : SaveRun :=
  let (g, out, c) := recvFileStart g
  ⟨g, c, out, []⟩

def next (myip : Bytes) (r : SaveRun) (turn : BusTurn) : SaveRun :=
  match r.control with
  | .ret _ => r
  | .run l =>
      let (g, out, c) := recvFileStep myip r.g l turn.input
      { g := g
        control := c
        out := r.out ++ out
        reads := if l.readsByte && !turn.input.atn then r.reads ++ [turn.levels] else r.reads }

/-- What has been sent in DATA blocks. -/
def sent (r : SaveRun) : Bytes := sentBytes r.out

/-- The cells that wait for the next block: as many as there are calls of `get_byte` whose cell has
not been sent. -/
def waiting (r : SaveRun) : Bytes := r.g.iobuf.take (r.reads.length - r.sent.length)

/-- What is sent, and what waits to be sent, is what has been clocked in; at the end all of it is
sent. -/
structure Exact (r : SaveRun) : Prop where
  bytes : r.sent ++ r.waiting = r.reads.filterMap clocked
  complete : r.control = .ret true → r.sent = r.reads.filterMap clocked

structure Inv (r : SaveRun) : Prop where
  sized : r.g.Sized
  fills : ∃ w, w ≤ 256 ∧ r.control.Waits w ∧
    Fills clocked (r.sent ++ r.g.iobuf.take w) r.reads

theorem inv_start {g : Globals} (hg : g.Sized) : (start g).Inv := by
  obtain ⟨hsized, hsent⟩ := recvFileStart_sized hg
  refine ⟨hsized, 0, Nat.zero_le _, ⟨rfl, by decide⟩, ?_⟩
  show Fills clocked (sentBytes (recvFileStart g).2.1 ++ _) []
  rw [hsent]
  exact List.Forall₂.nil

/-- A block takes the cells that wait. -/
theorem inv_of_takes {g : Globals} {a : Nat} {r : Globals × List Output × Control RecvFile}
    (hr : TakesBlock g a r) (ha : a ≤ 256) {out out' : List Output}
    {reads : List (Nat → Levels)} (hout : sentBytes out' = [])
    (hfills : Fills clocked (sentBytes out ++ g.iobuf.take a) reads) :
    Inv ⟨r.1, r.2.2, out ++ (out' ++ r.2.1), reads⟩ := by
  obtain ⟨hsized, hiobuf, w, hw, hwaits, hbytes⟩ := hr
  refine ⟨hsized, w, hw.trans ha, hwaits, ?_⟩
  show Fills clocked (sentBytes (out ++ (out' ++ r.2.1)) ++ r.1.iobuf.take w) reads
  rw [sentBytes_append, sentBytes_append, hout, List.nil_append, hiobuf, List.append_assoc, hbytes]
  exact hfills

/-- **A turn that reads a byte** ends before `get_byte` is called, or adds a cell. -/
theorem inv_next_byte (myip : Bytes) {g : Globals} (hg : g.Sized) {a : Nat} (ha : a < 256)
    {out : List Output} {reads : List (Nat → Levels)}
    (hfills : Fills clocked (sentBytes out ++ g.iobuf.take a) reads) (turn : BusTurn) :
    (SaveRun.next myip ⟨g, .run (.byte a), out, reads⟩ turn).Inv := by
  have hio := hg.iobuf
  have h257 : IOBUF_SIZE = 257 := rfl
  have hvalue : clocked turn.levels = turn.input.byte.value := rfl
  unfold SaveRun.next recvFileStep RecvFile.readsByte
  generalize turn.input = i at hvalue ⊢
  by_cases hatn : i.atn = true
  · simp only [hatn, if_true, Bool.not_true, Bool.and_false, Bool.false_eq_true, if_false,
      List.append_nil]
    exact ⟨hg, a, ha.le, trivial, hfills⟩
  · simp only [hatn, Bool.false_eq_true, if_false, Bool.not_false, Bool.and_true, if_true]
    have hprobe := sentBytes_ethernetProbeForPacket myip g.tftp i.packet
    have hdata := ethernetProbeForPacket_tftpdata_length myip g.tftp i.packet
    generalize ethernetProbeForPacket myip g.tftp i.packet = probe at hprobe hdata
    obtain ⟨t, out'⟩ := probe
    dsimp only at hprobe hdata ⊢
    obtain ⟨c, htake, hc⟩ := i.byte.take_store_succ (show a < g.iobuf.length by omega)
    rw [← hvalue] at hc
    have hlen := i.byte.store_length g.iobuf a
    generalize i.byte.store g.iobuf a = iobuf at htake hlen
    have hnew : Fills clocked (sentBytes out ++ iobuf.take (a + 1)) (reads ++ [turn.levels]) := by
      rw [htake, ← List.append_assoc]
      exact hfills.concat hc
    have hg' : ({ g with tftp := t, iobuf := iobuf } : Globals).Sized :=
      ⟨hlen.trans hio, hg.tftpdata.trans hdata⟩
    -- no block is due: the cell waits with the others
    have hkeep : ∀ c : Control RecvFile, c.Waits (a + 1) →
        Inv ⟨{ g with tftp := t, iobuf := iobuf }, c, out ++ out', reads ++ [turn.levels]⟩ := by
      intro c hwaits
      refine ⟨hg', a + 1, ha, hwaits, ?_⟩
      show Fills clocked (sentBytes (out ++ out') ++ _) _
      rw [sentBytes_append, hprobe, List.append_nil]
      exact hnew
    split
    · exact hkeep _ trivial
    · split
      · exact inv_of_takes (recvFileBlock_takes hg' ha _) ha hprobe hnew
      · rename_i hmore
        exact hkeep _ ⟨rfl, by omega⟩

/-- **A turn** of `recv_file` adds a cell to those that wait, or sends them. -/
theorem Inv.next (myip : Bytes) {r : SaveRun} (h : r.Inv) (turn : BusTurn) :
    (r.next myip turn).Inv := by
  obtain ⟨g, control, out, reads⟩ := r
  cases control with
  | ret value => exact h
  | run l =>
      obtain ⟨hg, w, hw, hwaits, hfills⟩ := h
      dsimp only at hg hw hwaits hfills
      have hprobe := sentBytes_ethernetProbeForPacket myip g.tftp turn.input.packet
      have hg' : ({ g with tftp := (ethernetProbeForPacket myip g.tftp turn.input.packet).1 } :
          Globals).Sized :=
        ⟨hg.iobuf, hg.tftpdata.trans (ethernetProbeForPacket_tftpdata_length _ _ _)⟩
      cases l with
      | byte a =>
          obtain ⟨rfl, ha⟩ : w = a ∧ a < 256 := hwaits
          exact inv_next_byte myip hg ha hfills turn
      | block a eoi =>
          obtain rfl : w = a := hwaits
          exact inv_of_takes (recvFileBlock_takes hg' hw eoi) hw hprobe hfills
      | emptyBlock =>
          obtain rfl : w = 0 := hwaits
          exact inv_of_takes (recvFileEmptyBlock_takes hg') hw hprobe hfills

theorem inv_run (myip : Bytes) {g : Globals} (hg : g.Sized) (turns : List BusTurn) :
    (turns.foldl (SaveRun.next myip) (start g)).Inv :=
  List.foldlRecOn turns (SaveRun.next myip) (inv_start hg) fun _ h turn _ => h.next myip turn

/-- **What `recv_file` sends is exact** as long as no call gives up. -/
theorem Inv.exact_iff {r : SaveRun} (h : r.Inv) :
    r.Exact ↔ ∀ levels ∈ r.reads, ∃ bits eoi, ClockedIn levels 1 false bits eoi := by
  obtain ⟨w, hw, hwaits, hfills⟩ := h.fills
  have hio := h.sized.iobuf
  have h257 : IOBUF_SIZE = 257 := rfl
  have hlen := hfills.length_eq
  rw [List.length_append, List.length_take_of_le (by omega)] at hlen
  have hwaiting : r.waiting = r.g.iobuf.take w := by
    rw [waiting, ← hlen, Nat.add_sub_cancel_left]
  have hiff := hfills.eq_iff
  simp only [clocked, getByte_value_isSome_iff] at hiff
  rw [← hiff, ← hwaiting]
  constructor
  · exact fun he => he.bytes
  · intro hbytes
    refine ⟨hbytes, fun hret => ?_⟩
    rw [hret] at hwaits
    obtain rfl : w = 0 := hwaits
    rw [hwaiting, List.take_zero, List.append_nil] at hbytes
    exact hbytes

end SaveRun

/-! ## Both -/

/-- `handle_open` after some turns. -/
def opened (g : Globals) (turns : List BusTurn) : NameRun :=
  turns.foldl NameRun.next (.start g)

/-- `recv_file` after some turns. -/
def received (myip : Bytes) (g : Globals) (turns : List BusTurn) : SaveRun :=
  turns.foldl (SaveRun.next myip) (.start g)

/-- The byte is clocked in completely, with EOI or without. -/
def Completes (levels : Nat → Levels) : Prop := ∃ bits eoi, ClockedIn levels 1 false bits eoi

/-- **A byte that times out is not data**, neither in a name nor in a file, exactly when no byte
times out. -/
theorem exact_iff_completes (myip : Bytes) {g : Globals} (hg : g.Sized) (turns : List BusTurn) :
    ((opened g turns).Exact ↔ ∀ levels ∈ (opened g turns).reads, Completes levels) ∧
      ((received myip g turns).Exact ↔
        ∀ levels ∈ (received myip g turns).reads, Completes levels) :=
  ⟨(NameRun.inv_run hg.iobuf turns).exact_iff, (SaveRun.inv_run myip hg turns).exact_iff⟩

/-- The levels with which a sender shows a byte, every change in time for the next reading. -/
def shown (value : Byte) (eoi : Bool) (t : Nat) : Levels :=
  let start := if eoi then 31 else 4
  { clock := decide (t < if eoi then start else 3) ||
      decide (start < t ∧ (t - start - 1) % 3 = 0)
    data := decide (t ≤ start) || value.toNat.testBit ((t - start - 2) / 3)
    atn := HIGH }

/-- "A" is received as a name and as a file. -/
theorem exact_shown : (opened .init [⟨none, shown 65 true⟩]).Exact ∧
    (received [] .init [⟨none, shown 65 true⟩]).Exact := by
  have hsized : Globals.init.Sized := ⟨List.length_replicate, by decide +kernel⟩
  have hshown : Completes (shown 65 true) := getByte_value_isSome_iff.mp (by decide +kernel)
  obtain ⟨hopened, hreceived⟩ := exact_iff_completes [] hsized [⟨none, shown 65 true⟩]
  refine ⟨hopened.mpr fun levels h => ?_, hreceived.mpr fun levels h => ?_⟩
  · obtain rfl : levels = shown 65 true := List.mem_singleton.mp h
    exact hshown
  · obtain rfl : levels = shown 65 true := List.mem_singleton.mp h
    exact hshown

/-- The sender of the name "A" leaves the clock low for one call of `get_byte` too many. -/
def stuck (_ : Nat) : Levels := ⟨LOW, HIGH, HIGH⟩

/-- What the cell held before stands in front of the name. -/
theorem not_exact_stuck :
    (opened .init [⟨none, stuck⟩, ⟨none, shown 65 true⟩]).name = [0, 65] ∧
      ¬(opened .init [⟨none, stuck⟩, ⟨none, shown 65 true⟩]).Exact := by
  have hname : (opened .init [⟨none, stuck⟩, ⟨none, shown 65 true⟩]).name = [0, 65] := by
    decide +kernel
  have hclocked : (opened .init [⟨none, stuck⟩, ⟨none, shown 65 true⟩]).reads.filterMap clocked
      = [65] := by
    decide +kernel
  refine ⟨hname, fun h => ?_⟩
  have hexact := h.name
  rw [hname, hclocked] at hexact
  cases hexact

end C64Iec.Client

import C64Iec.Client.Tftp
import C64Iec.Client.Filename

set_option autoImplicit false

/-! # The sketch (`c64iec.ino`)

The sketch as a machine whose steps are the turns of its loops. One step takes what the
environment supplies during that turn (`Input`): the frame `packetReceive` returns, the level
of ATN when it is sampled, and the outcome of the calls of `get_byte`. The control point `Pc`
is the loop the sketch is in, with the local variables that live across turns.

`get_byte` is represented by its outcome. A byte that comes through completely is stored with
its EOI flag; an attempt that times out returns `0` and has stored either nothing or the bits
it had seen (`timeout`). The bytes given to `put_byte` are outputs of the machine. The counters
`sent_to_c64` and `sent_this_time`, which nothing reads, and the prints are left out.
-/

namespace C64Iec.Client

open Lib

/-- `sizeof(iobuf)` -/
def IOBUF_SIZE : Nat := TFTP_BLKSIZE + 1

/-! ## Inputs and outputs -/

/-- The outcome of a call of `get_byte`. -/
inductive GetByte where
  | byte (value : Byte) (eoi : Bool)
  | timeout (stored : Option Byte)
  deriving DecidableEq, Repr

/-- The result of `get_byte`: `1` only for a complete byte with EOI. -/
def GetByte.eoi : GetByte → Bool
  | .byte _ eoi => eoi
  | .timeout _ => false

/-- `get_byte(&mem[at_], 0)`: the buffer afterwards. -/
def GetByte.store (g : GetByte) (mem : Bytes) (at_ : Nat) : Bytes :=
  match g with
  | .byte value _ => mem.set at_ value
  | .timeout (some value) => mem.set at_ value
  | .timeout none => mem

/-- What the environment supplies during one turn of a loop. -/
structure Input where
  /-- the frame `packetReceive` returns, if there is one -/
  packet : Option Frame
  /-- whether ATN is low when it is sampled -/
  atn : Bool
  /-- the outcome of `get_byte` in `handle_open` and `recv_file` -/
  byte : GetByte
  /-- the two bytes `handle_atn` reads under ATN -/
  device : GetByte
  sec : GetByte

/-- What the sketch does to the outside: a datagram, or a byte given to `put_byte`. -/
inductive Output where
  | udp (d : Datagram)
  | put (value : Byte) (eoi : Bool)
  deriving DecidableEq, Repr

/-- A turn in which the computer speaks under ATN, and no frame arrives. -/
def command (device sec : Byte) : Input :=
  ⟨none, true, .timeout none, .byte device false, .byte sec false⟩

/-! ## The globals -/

structure Globals where
  tftp : Tftp
  iobuf : Bytes
  tftpFilename : Bytes
  deviceMode : Byte
  secondary : Byte
  deriving DecidableEq, Repr

/-- The globals at power-up, `setup` having cleared `iobuf`. -/
def Globals.init : Globals where
  tftp := .init
  iobuf := List.replicate IOBUF_SIZE 0
  tftpFilename := List.replicate (C64_FILE_LIMIT * 3 + 5) 0
  deviceMode := 0
  secondary := 0

/-- The name `tftp_filename` holds as a C string. -/
def Globals.filename (g : Globals) : Bytes := untilNul g.tftpFilename

/-- How a turn of a loop leaves it: still running, with its local variables, or the function
returned. -/
inductive Control (L : Type) where
  | run (locals : L)
  | ret (value : Bool)
  deriving DecidableEq, Repr

/-- `ethernet_probe_for_packet` -/
def ethernetProbeForPacket (myip : Bytes) (t : Tftp) (packet : Option Frame) :
    Tftp × List Output :=
  match packet with
  | none => (t, [])
  | some f =>
      let (t, out) := tftpRecvPacket myip t f
      (t, out.map .udp)

/-! ## `send_file` -/

/-- The local variables of `send_file` at the head of its inner loop (`unsent_data` and `eoi`
are `0` there). -/
structure SendFile where
  atStart : Bool
  iobufOffset : Nat
  deriving DecidableEq, Repr

/-- The output part of the outer loop: the bytes given to `put_byte` for `unsent` bytes fetched
by the inner loop. -/
def sendFilePut (iobuf : Bytes) (l : SendFile) (unsent : Int) (eoi : Bool) : List Output :=
  if unsent ≠ 0 then
    ((List.range (unsent - 1 + l.iobufOffset).toNat).map fun i => .put (iobuf.getD i 0) false)
      ++ (if eoi then
            if l.atStart then [.put (iobuf.getD (unsent - 1).toNat 0) eoi]
            else [.put (iobuf.getD unsent.toNat 0) eoi]
          else [])
  else if eoi then [.put (iobuf.getD 0 0) true]
  else []

/-- `send_file` up to the head of its inner loop. -/
def sendFileStart (g : Globals) : Globals × List Output × Control SendFile :=
  let (_, t, out) := tftpGetFile g.tftp g.filename
  let g := { g with tftp := t }
  (g, out.map .udp,
    if t.requestInProgress = .get then .run ⟨true, 0⟩ else .ret true)

/-- One turn of the inner loop of `send_file` and, when it ends the inner loop, the rest of the
turn of the outer loop. -/
def sendFileStep (myip : Bytes) (g : Globals) (l : SendFile) (packet : Option Frame) :
    Globals × List Output × Control SendFile :=
  let (t, out) := ethernetProbeForPacket myip g.tftp packet
  if t.error then ({ g with tftp := t }, out, .ret false) else
  let (unsent, iobuf, t, ack) := tftpGetBlock t g.iobuf l.iobufOffset 0
  let g := { g with tftp := t, iobuf := iobuf }
  let out := out ++ ack.map .udp
  if t.requestInProgress ≠ .get then
    -- `eoi` is set and the inner loop left
    (g, out ++ sendFilePut g.iobuf l unsent true, .ret true)
  else if unsent = 0 then (g, out, .run l)
  else
    -- the last byte waits in `iobuf[0]`: it is put out with EOI if no more comes
    let held := g.iobuf.getD (TFTP_BLKSIZE - 1 + l.iobufOffset) 0
    ({ g with iobuf := g.iobuf.set 0 held }, out ++ sendFilePut g.iobuf l unsent false,
      .run ⟨false, 1⟩)

/-! ## `recv_file` -/

/-- Where `recv_file` is: about to read the byte `iobuf[a]`, or in one of the loops that wait
to send a block. -/
inductive RecvFile where
  | byte (a : Nat)
  | block (a : Nat) (eoi : Bool)
  | emptyBlock
  deriving DecidableEq, Repr

def recvFileStart (g : Globals) : Globals × List Output × Control RecvFile :=
  let (_, t, out) := tftpPutFile g.tftp g.filename
  ({ g with tftp := t }, out.map .udp, .run (.byte 0))

/-- `while(!tftp_put_block(iobuf, 0))`, the call and what follows a sent block. -/
def recvFileEmptyBlock (g : Globals) : Globals × List Output × Control RecvFile :=
  let (sent, t, out) := tftpPutBlock g.tftp g.iobuf 0
  ({ g with tftp := t }, out.map .udp, if sent then .ret true else .run .emptyBlock)

/-- `while(!tftp_put_block(iobuf, a))`, the call and what follows a sent block. -/
def recvFileBlock (g : Globals) (a : Nat) (eoi : Bool) :
    Globals × List Output × Control RecvFile :=
  let (sent, t, out) := tftpPutBlock g.tftp g.iobuf a
  let g := { g with tftp := t }
  if !sent then (g, out.map .udp, .run (.block a eoi))
  -- a full last block is followed by an empty one
  else if a = 256 ∧ eoi then
    let (g, out', c) := recvFileEmptyBlock g
    (g, out.map .udp ++ out', c)
  else if eoi then (g, out.map .udp, .ret true)
  else (g, out.map .udp, .run (.byte 0))

/-- One turn of the loop `recv_file` is in. -/
def recvFileStep (myip : Bytes) (g : Globals) (l : RecvFile) (i : Input) :
    Globals × List Output × Control RecvFile :=
  match l with
  | .byte a =>
      -- the request stays in progress
      if i.atn then (g, [], .ret false) else
      let (t, out) := ethernetProbeForPacket myip g.tftp i.packet
      let g := { g with tftp := t, iobuf := i.byte.store g.iobuf a }
      let eoi := i.byte.eoi
      let a := a + 1
      if t.requestInProgress ≠ .put ∨ t.error then (g, out, .ret false)
      else if a = 256 ∨ eoi then
        let (g, out', c) := recvFileBlock g a eoi
        (g, out ++ out', c)
      else (g, out, .run (.byte a))
  | .block a eoi =>
      let (t, out) := ethernetProbeForPacket myip g.tftp i.packet
      let (g, out', c) := recvFileBlock { g with tftp := t } a eoi
      (g, out ++ out', c)
  | .emptyBlock =>
      let (t, out) := ethernetProbeForPacket myip g.tftp i.packet
      let (g, out', c) := recvFileEmptyBlock { g with tftp := t }
      (g, out ++ out', c)

/-! ## The main loop -/

/-- The loop the sketch is in. -/
inductive Pc where
  | idle
  | opening (a : Nat)
  | sending (l : SendFile)
  | receiving (l : RecvFile)
  deriving DecidableEq, Repr

structure Sketch where
  g : Globals
  pc : Pc
  deriving DecidableEq, Repr

/-- The sketch after `setup`. -/
def Sketch.init : Sketch := ⟨.init, .idle⟩

/-- The sketch after a turn of `send_file`; a return leads back to `loop`. -/
def Sketch.ofSendFile (r : Globals × List Output × Control SendFile) : Sketch × List Output :=
  match r with
  | (g, out, .run l) => (⟨g, .sending l⟩, out)
  | (g, out, .ret _) => (⟨g, .idle⟩, out)

def Sketch.ofRecvFile (r : Globals × List Output × Control RecvFile) : Sketch × List Output :=
  match r with
  | (g, out, .run l) => (⟨g, .receiving l⟩, out)
  | (g, out, .ret _) => (⟨g, .idle⟩, out)

/-- One turn of the loop of `handle_open`. -/
def handleOpenStep (g : Globals) (a : Nat) (i : Input) : Sketch × List Output :=
  -- a name that is cut off gets no NUL
  if i.atn then (⟨g, .idle⟩, []) else
  let iobuf := i.byte.store g.iobuf a
  let a := a + 1
  if !i.byte.eoi ∧ a < IOBUF_SIZE - 1 then (⟨{ g with iobuf := iobuf }, .opening a⟩, [])
  else (⟨{ g with iobuf := iobuf.set a 0 }, .idle⟩, [])

/-- `create_tftp_filename(iobuf)` -/
def Globals.createTftpFilename (g : Globals) : Globals :=
  { g with tftpFilename := Client.createTftpFilename g.tftpFilename g.deviceMode g.iobuf }

def handleListen (g : Globals) (secAddr : Nat) : Sketch × List Output :=
  if secAddr ≠ 1 then (⟨g, .idle⟩, [])
  else Sketch.ofRecvFile (recvFileStart g.createTftpFilename)

def handleTalk (g : Globals) : Sketch × List Output :=
  Sketch.ofSendFile (sendFileStart g.createTftpFilename)

/-- The values of `mode` and of `sec_mode` that `handle_atn` tells apart. -/
def IEC_UNLISTEN : Nat := 0x30
def IEC_UNTALK : Nat := 0x50
def IEC_LISTEN : Nat := 0x20
def IEC_TALK : Nat := 0x40
def IEC_OPEN : Nat := 0xf0
def IEC_CLOSE : Nat := 0xe0
def IEC_DATA : Nat := 0x60
def IEC_DEVICE : Nat := 0x0f

/-- `device & IEC_DEVICE < 8 || device & IEC_DEVICE > 15`, in which the comparisons bind more
tightly than `&`. -/
def notOurDevice (device : Byte) : Bool :=
  device.toNat &&& (if IEC_DEVICE < 8 then 1 else 0) ≠ 0 ||
    device.toNat &&& (if IEC_DEVICE > 15 then 1 else 0) ≠ 0

/-- `handle_atn` -/
def handleAtn (g : Globals) (i : Input) : Sketch × List Output :=
  match i.device with
  | .timeout _ => (⟨g, .idle⟩, [])
  | .byte device _ =>
      let mode := device.toNat &&& 0xf0
      -- noted for every device, ours or not
      let g := { g with deviceMode := device }
      if mode = IEC_UNLISTEN ∨ mode = IEC_UNTALK then (⟨g, .idle⟩, [])
      else if (mode = IEC_LISTEN ∨ mode = IEC_TALK) ∧ notOurDevice device then (⟨g, .idle⟩, [])
      else
        match i.sec with
        | .timeout _ => (⟨g, .idle⟩, [])
        | .byte sec _ =>
            let g := { g with secondary := sec }
            let secMode := sec.toNat &&& 0xf0
            let secAddr := sec.toNat &&& 0x0f
            if secMode = IEC_OPEN then (⟨g, .opening 0⟩, [])
            else if secMode = IEC_CLOSE then (⟨g, .idle⟩, [])
            else if secMode = IEC_DATA then
              if mode = IEC_LISTEN then handleListen g secAddr
              else if mode = IEC_TALK then handleTalk g
              else (⟨g, .idle⟩, [])
            else (⟨g, .idle⟩, [])

/-- One turn of `loop`. -/
def loopStep (myip : Bytes) (g : Globals) (i : Input) : Sketch × List Output :=
  let (t, out) := ethernetProbeForPacket myip g.tftp i.packet
  let g := { g with tftp := t }
  if i.atn then
    let (s, out') := handleAtn g i
    (s, out ++ out')
  else (⟨g, .idle⟩, out)

/-- One turn of the loop the sketch is in. -/
def Sketch.step (myip : Bytes) (s : Sketch) (i : Input) : Sketch × List Output :=
  match s.pc with
  | .idle => loopStep myip s.g i
  | .opening a => handleOpenStep s.g a i
  | .sending l => Sketch.ofSendFile (sendFileStep myip s.g l i.packet)
  | .receiving l => Sketch.ofRecvFile (recvFileStep myip s.g l i)

/-- The sketch after a sequence of turns from power-up. -/
def afterTurns (myip : Bytes) (turns : List Input) : Sketch :=
  turns.foldl (fun s i => (s.step myip i).1) .init

/-! ## What a turn can do -/

/-- What `handle_atn` leads to: nothing, an OPEN, a LISTEN or a TALK. It keeps every global but
`device_mode` and `secondary`. -/
theorem handleAtn_cases (g : Globals) (i : Input) :
    ∃ device sec, ∃ g' : Globals, g' = { g with deviceMode := device, secondary := sec } ∧
      (handleAtn g i = (⟨g', .idle⟩, []) ∨ handleAtn g i = (⟨g', .opening 0⟩, []) ∨
        (∃ secAddr, handleAtn g i = handleListen g' secAddr) ∨ handleAtn g i = handleTalk g') := by
  generalize hr : handleAtn g i = r
  unfold handleAtn at hr
  split at hr
  · exact ⟨_, _, g, rfl, Or.inl hr.symm⟩
  · dsimp only at hr
    split at hr
    · exact ⟨_, _, _, rfl, Or.inl hr.symm⟩
    · split at hr
      · exact ⟨_, _, _, rfl, Or.inl hr.symm⟩
      · split at hr
        · exact ⟨_, _, _, rfl, Or.inl hr.symm⟩
        · split at hr
          · exact ⟨_, _, _, rfl, Or.inr (Or.inl hr.symm)⟩
          · split at hr
            · exact ⟨_, _, _, rfl, Or.inl hr.symm⟩
            · split at hr
              · split at hr
                · exact ⟨_, _, _, rfl, Or.inr (Or.inr (Or.inl ⟨_, hr.symm⟩))⟩
                · split at hr
                  · exact ⟨_, _, _, rfl, Or.inr (Or.inr (Or.inr hr.symm))⟩
                  · exact ⟨_, _, _, rfl, Or.inl hr.symm⟩
              · exact ⟨_, _, _, rfl, Or.inl hr.symm⟩

/-- What a turn of `send_file` does once its frame has been read, `t` being the state then: it returns
`0` after an error and `1` when the request is over, goes on without a block, or puts a block out. -/
inductive SendTurn (g : Globals) (l : SendFile) (t : Tftp) (probed : List Output) :
    Globals × List Output × Control SendFile → Prop
  | failed (herr : t.error = true) : SendTurn g l t probed ({ g with tftp := t }, probed, .ret false)
  | last {unsent : Int} {iobuf : Bytes} {t' : Tftp} {ack : List Datagram} (herr : ¬t.error = true)
      (hblock : tftpGetBlock t g.iobuf l.iobufOffset 0 = (unsent, iobuf, t', ack))
      (hreq : t'.requestInProgress ≠ .get) :
      SendTurn g l t probed ({ g with tftp := t', iobuf := iobuf },
        probed ++ ack.map .udp ++ sendFilePut iobuf l unsent true, .ret true)
  | idle {iobuf : Bytes} {t' : Tftp} {ack : List Datagram} (herr : ¬t.error = true)
      (hblock : tftpGetBlock t g.iobuf l.iobufOffset 0 = (0, iobuf, t', ack))
      (hreq : t'.requestInProgress = .get) :
      SendTurn g l t probed
        ({ g with tftp := t', iobuf := iobuf }, probed ++ ack.map .udp, .run l)
  | block {unsent : Int} {iobuf : Bytes} {t' : Tftp} {ack : List Datagram} (herr : ¬t.error = true)
      (hblock : tftpGetBlock t g.iobuf l.iobufOffset 0 = (unsent, iobuf, t', ack))
      (hreq : t'.requestInProgress = .get) (hunsent : unsent ≠ 0) :
      SendTurn g l t probed
        ({ g with
            tftp := t'
            iobuf := iobuf.set 0 (iobuf.getD (TFTP_BLKSIZE - 1 + l.iobufOffset) 0) },
          probed ++ ack.map .udp ++ sendFilePut iobuf l unsent false, .run ⟨false, 1⟩)

theorem sendFileStep_turn (myip : Bytes) (g : Globals) (l : SendFile) (packet : Option Frame) :
    SendTurn g l (ethernetProbeForPacket myip g.tftp packet).1
      (ethernetProbeForPacket myip g.tftp packet).2 (sendFileStep myip g l packet) := by
  unfold sendFileStep
  generalize ethernetProbeForPacket myip g.tftp packet = probe
  obtain ⟨t, probed⟩ := probe
  dsimp only
  split
  · rename_i herr
    exact .failed herr
  · rename_i herr
    rcases hblock : tftpGetBlock t g.iobuf l.iobufOffset 0 with ⟨unsent, iobuf, t', ack⟩
    dsimp only
    split
    · rename_i hreq
      exact .last herr hblock hreq
    · rename_i hreq
      split
      · rename_i hunsent
        subst hunsent
        exact .idle herr hblock (not_not.mp hreq)
      · rename_i hunsent
        exact .block herr hblock (not_not.mp hreq) hunsent

end C64Iec.Client

import C64Iec.Basic.Bytes
import C64Iec.Lib.Memory

set_option autoImplicit false

/-! # The TFTP client (`tftp.cpp`)

The globals of `tftp.cpp` are one record, `Tftp`, and each function takes it and returns it,
together with the datagrams it hands to `ether.sendUdp`. `uint16_t` globals are natural numbers
below `2^16`; the `int` globals used as flags are booleans. `tftp_filesize` and
`tftp_wrq_lastblock` are left out: nothing ever reads them for a decision.

A frame is what `packetReceive` leaves behind: `plen` bytes at the start of `ether.buffer`,
and after them whatever the buffer held before.

A block that is too long makes `tftpdata` or `iobuf` longer here, where `memcpy` would overwrite the
variables behind them. Runs over arbitrary frames therefore suppose `PacketWithinBounds` of each
(`Client.DataBounds`), by which every buffer keeps its size (`Client.Outgoing`).
-/

namespace C64Iec.Client

open Lib

/-! ## Frames -/

/-- A received frame: the content of `ether.buffer` and the length `packetReceive` returned. -/
structure Frame where
  buffer : Nat → Byte
  plen : Nat

def ETH_TYPE_H_P : Nat := 12
def ETH_TYPE_L_P : Nat := 13
def IP_PROTO_P : Nat := 0x17
def ETH_ARP_DST_IP_P : Nat := 0x26
def UDP_SRC_PORT_H_P : Nat := 0x22
def UDP_SRC_PORT_L_P : Nat := 0x23
def UDP_DST_PORT_H_P : Nat := 0x24
def UDP_DST_PORT_L_P : Nat := 0x25
def UDP_LEN_H_P : Nat := 0x26
def UDP_LEN_L_P : Nat := 0x27
def UDP_DATA_P : Nat := 0x2a

def ETHTYPE_ARP_H_V : Byte := 0x08
def ETHTYPE_ARP_L_V : Byte := 0x06
def IP_PROTO_UDP_V : Byte := 17

/-- `SRCPORT`, the client's port. -/
def SRCPORT : Nat := 53280

/-- `TFTP_PORT`, the server's port. -/
def TFTP_PORT : Nat := 53280

/-- `n` bytes of the buffer from position `off` on. -/
def Frame.bytes (f : Frame) (off n : Nat) : Bytes := (List.range n).map fun i => f.buffer (off + i)

/-- `TFTP_BLKNUM` -/
def Frame.blknum (f : Frame) : Nat := be16 (f.buffer (UDP_DATA_P + 2)) (f.buffer (UDP_DATA_P + 3))

/-- `TFTP_TYPE` -/
def Frame.type (f : Frame) : Nat := be16 (f.buffer UDP_DATA_P) (f.buffer (UDP_DATA_P + 1))

/-- `TFTP_DATASIZE`: the UDP length less 12, in 16 bits. -/
def Frame.datasize (f : Frame) : Nat :=
  (be16 (f.buffer UDP_LEN_H_P) (f.buffer UDP_LEN_L_P) + 65536 - 12) % 65536

/-- `TFTP_SRVPORT` -/
def Frame.srvport (f : Frame) : Nat :=
  be16 (f.buffer UDP_SRC_PORT_H_P) (f.buffer UDP_SRC_PORT_L_P)

/-- `TFTP_DSTPORT` -/
def Frame.dstport (f : Frame) : Nat :=
  be16 (f.buffer UDP_DST_PORT_H_P) (f.buffer UDP_DST_PORT_L_P)

/-- `eth_type_is_arp_and_my_ip` -/
def ethTypeIsArpAndMyIp (myip : Bytes) (f : Frame) : Bool :=
  decide (41 ≤ f.plen) && f.buffer ETH_TYPE_H_P == ETHTYPE_ARP_H_V &&
    f.buffer ETH_TYPE_L_P == ETHTYPE_ARP_L_V && f.bytes ETH_ARP_DST_IP_P 4 == myip

/-- `EtherCard::is_myIp`: everything but an ARP packet for this address. -/
def isMyIp (myip : Bytes) (f : Frame) : Bool := !ethTypeIsArpAndMyIp myip f

/-! ## The state of the client -/

/-- The values of `tftp_request_in_progress`; `TFTP_GET` is `TFTP_RRQ`, `TFTP_PUT` is
`TFTP_WRQ`. -/
inductive Request where
  | norq
  | get
  | put
  deriving DecidableEq, Repr

structure Tftp where
  requestInProgress : Request
  wrqDatasize : Nat
  error : Bool
  srvport : Nat
  blknum : Nat
  lastblk : Nat
  lastgot : Nat
  tftpdata : Bytes
  dataAvailable : Int
  clearToSend : Bool
  endOfData : Bool
  deriving DecidableEq, Repr

/-- The globals at power-up. -/
def Tftp.init : Tftp where
  requestInProgress := .norq
  wrqDatasize := 0
  error := false
  srvport := 0
  blknum := 0
  lastblk := 65535
  lastgot := 0
  tftpdata := List.replicate (TFTP_BLKSIZE + 4) 0
  dataAvailable := 0
  clearToSend := false
  endOfData := false

/-- A UDP datagram for the server, as handed to `ether.sendUdp`. -/
structure Datagram where
  sport : Nat
  dport : Nat
  payload : Bytes
  deriving DecidableEq, Repr

/-- `ether.sendUdp ((char *)tftpdata, size, SRCPORT, ether.serverip, dport)` -/
def sendUdp (t : Tftp) (size dport : Nat) : Datagram := ⟨SRCPORT, dport, t.tftpdata.take size⟩

/-! ## Sending -/

/-- `tftp_build_request`: the size of the request, `0` when the name is refused. -/
def tftpBuildRequest (t : Tftp) (filename : Bytes) (mode : Nat) : Nat × Tftp :=
  if filename.length > 16 + 1 + 3 then (0, t) else
  let data := blit t.tftpdata 0 (beBytes mode)
  let size := 2
  let data := blit data size (filename ++ [0])
  let size := size + (filename.length + 1)
  let data := blit data size (ascii "octet" ++ [0])
  let size := size + 6
  let data := blit data size (ascii "blksize" ++ [0])
  let size := size + 8
  let data := blit data size (ascii "256" ++ [0])
  let size := size + 4
  (size, { t with tftpdata := data })

/-- `tftp_build_ack` -/
def tftpBuildAck (t : Tftp) (blknum : Nat) : Nat × Tftp :=
  (4, { t with tftpdata := blit t.tftpdata 0 (beBytes TFTP_ACK ++ beBytes blknum) })

/-- `tftp_send_rrq` and `tftp_send_wrq`, which differ in the opcode and in the request they
leave in progress: the size of the request, `0` when none is sent. -/
def tftpSendRequest (mode : Nat) (req : Request) (t : Tftp) (filename : Bytes) :
    Nat × Tftp × List Datagram :=
  -- one request at a time
  if t.requestInProgress ≠ .norq then (0, t, []) else
  let (size, t) := tftpBuildRequest t filename mode
  if size = 0 then (0, t, []) else
  (size, { t with requestInProgress := req }, [sendUdp t size TFTP_PORT])

def tftpSendRrq := tftpSendRequest TFTP_RRQ .get

def tftpSendWrq := tftpSendRequest TFTP_WRQ .put

def tftpSendAck (t : Tftp) (srvport blknum : Nat) : Tftp × List Datagram :=
  let (size, t) := tftpBuildAck t blknum
  (t, [sendUdp t size srvport])

def tftpSendData (t : Tftp) (srvport blknum : Nat) : Tftp × List Datagram :=
  let t := { t with tftpdata := blit t.tftpdata 0 (beBytes TFTP_DATA ++ beBytes blknum) }
  (t, [sendUdp t (t.wrqDatasize + 4) srvport])

/-! ## Receiving -/

/-- `tftp_recv_data`: copy the payload to `tftpdata`; `-1` for a last block. -/
def tftpRecvData (t : Tftp) (f : Frame) (dataSize : Nat) : Int × Tftp :=
  let isLast := dataSize ≠ TFTP_BLKSIZE ∨ dataSize = 0
  let t :=
    if dataSize > 0 then
      { t with tftpdata := blit t.tftpdata 0 (f.bytes (UDP_DATA_P + 4) dataSize) }
    else t
  (if isLast then -1 else int16 dataSize, t)

/-- What `tftp_recv_packet` notes after `tftp_recv_data` has returned `r`. -/
def noteData (r : Int × Tftp) (dataSize : Nat) : Tftp :=
  let t := if r.1 ≠ 0 then { r.2 with dataAvailable := int16 dataSize } else r.2
  if r.1 = -1 then { t with endOfData := true } else t

/-- `tftp_recv_packet`. Its result only tells the caller whether to hand the frame to
`packetLoop`, which does not touch the TFTP state, so it is not kept. -/
def tftpRecvPacket (myip : Bytes) (t : Tftp) (f : Frame) : Tftp × List Datagram :=
  if f.plen = 0 then (t, []) else
  if isMyIp myip f = false then (t, []) else
  if f.buffer IP_PROTO_P = IP_PROTO_UDP_V ∧ f.dstport = SRCPORT then
    -- taken before anything else is known about the packet
    let t := { t with blknum := f.blknum, srvport := f.srvport }
    if t.lastblk = t.blknum then (t, []) else
    let t := { t with lastblk := t.blknum }
    if f.type = TFTP_OPTACK ∧ t.requestInProgress ≠ .put then
      tftpSendAck t f.srvport 0
    else if f.type = TFTP_DATA ∧ t.requestInProgress = .get then
      (noteData (tftpRecvData t f f.datasize) f.datasize, [])
    else if (f.type = TFTP_ACK ∨ f.type = TFTP_OPTACK) ∧ t.requestInProgress = .put then
      let t := if f.type = TFTP_OPTACK then { t with blknum := 0 } else t
      ({ t with clearToSend := true }, [])
    else if f.type = TFTP_ERROR then
      ({ t with error := true, requestInProgress := .norq }, [])
    else (t, [])
  else (t, [])

/-! ## The interface to the sketch -/

def tftpGetFile (t : Tftp) (filename : Bytes) : Nat × Tftp × List Datagram :=
  tftpSendRrq { t with dataAvailable := 0, endOfData := false, lastgot := 0, error := false,
                       lastblk := 65535 } filename

/-- `tftp_get_block`, with `receive_buffer` the position `at_` of `mem`: the result, `mem`
with the data in it, the state and the acknowledgement. -/
def tftpGetBlock (t : Tftp) (mem : Bytes) (at_ : Nat) (offset : Nat) :
    Int × Bytes × Tftp × List Datagram :=
  if t.dataAvailable = 0 ∧ t.endOfData = false then (0, mem, t, []) else
  if t.lastgot ≠ 0 ∧ t.lastgot ≥ t.blknum then (0, mem, t, []) else
  let mem :=
    if t.dataAvailable ≠ 0 then
      -- the size is converted to an unsigned 16-bit `size_t`
      let n := ((t.dataAvailable - offset) % 65536).toNat
      blit mem at_ ((t.tftpdata.drop offset).take n)
    else mem
  let t := { t with lastgot := t.blknum }
  let (t, out) := tftpSendAck t t.srvport t.blknum
  let t := if t.endOfData then { t with requestInProgress := .norq } else t
  (t.dataAvailable - offset, mem, t, out)

def tftpPutFile (t : Tftp) (filename : Bytes) : Nat × Tftp × List Datagram :=
  tftpSendWrq { t with clearToSend := false, error := false, lastblk := 65535 } filename

/-- `tftp_put_block`: whether the block was sent. -/
def tftpPutBlock (t : Tftp) (sendBuffer : Bytes) (size : Nat) : Bool × Tftp × List Datagram :=
  if t.clearToSend = false then (false, t, []) else
  let t := { t with clearToSend := false }
  let t := if size > 0 then { t with tftpdata := blit t.tftpdata 4 (sendBuffer.take size) } else t
  let t := { t with wrqDatasize := size }
  let (t, out) := tftpSendData t t.srvport (t.blknum + 1)
  let t :=
    if size = 0 ∨ size ≠ TFTP_BLKSIZE then { t with requestInProgress := .norq } else t
  (true, t, out)

end C64Iec.Client

import C64Iec.Server.DeviceD64

set_option autoImplicit false

/-! # The TFTP server (`tftp.rb`)

`Tftp` is one object of class `TFTP` with what it works on: the devices, which the daemon's
sessions share, and the log of what has been sent on the socket. A handler that raises ends the
daemon, so the state after it is not kept. The debug output is left out.
-/

namespace C64Iec.Server

open Lib

/-! ## Devices -/

/-- A device of either class. -/
inductive Device where
  | dir (d : DeviceDir)
  | d64 (d : DeviceD64)

namespace Device

/-- `readonly`, as `Device.create` sets it. -/
def readonly : Device → Bool
  | dir _ => false
  | d64 _ => true

def openFile (d : Device) (filename : Bytes) (mode : Mode) : Except RubyError (Bool × Device) :=
  match d with
  | dir d =>
      match d.openFile filename mode with
      | (.error err, _) => .error err
      | (.ok opened, d) => .ok (opened, dir d)
  | d64 d => do
      let (opened, d) ← d.openFile filename
      return (opened, d64 d)

def read (d : Device) (bytes : Nat) : Except RubyError (Option Bytes × Device) :=
  match d with
  | dir d => do
      let (data, d) ← d.read bytes
      return (data, dir d)
  | d64 d => do
      let (data, d) ← d.read bytes
      return (data, d64 d)

/-- `write`, which `DeviceD64` does not have. -/
def write (d : Device) (data : Option Bytes) : Except RubyError Device :=
  match d with
  | dir d => do
      let d ← d.write data
      return dir d
  | d64 _ => .error .noMethodError

def eof : Device → Except RubyError Bool
  | dir d => d.eof
  | d64 d => d.eof

def close (d : Device) : Except RubyError Device :=
  match d with
  | dir d => do
      let d ← d.close
      return dir d
  | d64 d => do
      let d ← d.close
      return d64 d

/-- The device's `@file`. -/
def file : Device → Handle
  | dir d => d.file
  | d64 d => d.file

end Device

/-! ## The object -/

/-- The address of a UDP peer. -/
structure Addr where
  host : Bytes
  port : Nat
  deriving DecidableEq, Repr

inductive Status where
  | ready
  | waitForAck
  | waitForData
  | error
  | finished
  deriving DecidableEq, Repr

structure Tftp where
  /-- `@devices` -/
  devices : Nat → Option Device
  /-- what has been given to `@conn.send`, oldest first -/
  sent : List (Addr × Bytes)
  /-- `@cl_h` and `@cl_p` -/
  client : Addr
  deviceNum : Nat
  mode : Bytes
  blocknum : Nat
  filename : Bytes
  options : List (Bytes × Bytes)
  /-- `@device`, by its number -/
  device : Option Nat
  lastPacket : Bool
  sendEmpty : Bool
  status : Status
  errorCode : Option Nat
  errorMsg : Option Bytes

def BLKSIZE : Nat := 256

/-- `TFTP.new(conn, devices, sender)` -/
def Tftp.new (devices : Nat → Option Device) (sent : List (Addr × Bytes)) (sender : Addr) :
    Tftp where
  devices := devices
  sent := sent
  client := sender
  deviceNum := 8
  mode := ascii "netascii"
  blocknum := 0
  filename := []
  options := []
  device := none
  lastPacket := false
  sendEmpty := false
  status := .ready
  errorCode := none
  errorMsg := none

namespace Tftp

/-- `send`, to a client that can be sent to: `Server.Host` has what it raises otherwise. -/
def send (t : Tftp) (msg : Bytes) : Tftp := { t with sent := t.sent ++ [(t.client, msg)] }

/-- The device with number `n` replaced by its state after a call. -/
def setDevice (t : Tftp) (n : Nat) (d : Device) : Tftp :=
  { t with devices := Function.update t.devices n (some d) }

/-- `@device`, on which a call raises when it is `nil`. -/
def theDevice (t : Tftp) : Except RubyError (Nat × Device) :=
  match t.device with
  | none => .error .noMethodError
  | some n =>
      match t.devices n with
      | none => .error .noMethodError
      | some d => .ok (n, d)

/-! ## Sending -/

def sendAck (t : Tftp) : Tftp :=
  { t.send (packetBytes TFTP_ACK t.blocknum []) with status := .waitForData }

def sendErr (t : Tftp) (code : Nat) (msg : Bytes) : Tftp :=
  { t.send (packetBytes TFTP_ERROR code (msg ++ [0])) with
    status := .error, errorCode := some code, errorMsg := some msg }

/-- The option part of an OACK. -/
def optionBytes (options : List (Bytes × Bytes)) : Bytes :=
  options.flatMap fun o => o.1 ++ [0] ++ (o.2 ++ [0])

def sendOack (t : Tftp) (waitStatus : Status) : Tftp :=
  { t.send (packetBytes TFTP_OPTACK 0 (optionBytes t.options)) with status := waitStatus }

def sendData (t : Tftp) (sendEmpty : Bool) : Except RubyError Tftp :=
  let t := { t with blocknum := t.blocknum + 1 }
  if sendEmpty then
    let t := t.send (packetBytes TFTP_DATA t.blocknum [])
    .ok { t with lastPacket := true, sendEmpty := false, status := .waitForAck }
  else do
    let (n, dev) ← t.theDevice
    let (data, dev) ← dev.read BLKSIZE
    let t := (t.setDevice n dev).send (packetBytes TFTP_DATA t.blocknum (data.getD []))
    match data with
    | none => return { t with lastPacket := true, sendEmpty := false, status := .waitForAck }
    | some data =>
        if data.length < BLKSIZE then
          return { t with lastPacket := true, sendEmpty := false, status := .waitForAck }
        else
          -- a file that ends with a full block is followed by an empty packet
          let eof ← dev.eof
          if eof && data.length = BLKSIZE then
            return { t with lastPacket := false, sendEmpty := true, status := .waitForAck }
          else return { t with lastPacket := false, sendEmpty := false, status := .waitForAck }

/-! ## Requests -/

/-- `@filename[/^([89abcdef])\/(.*)/]`: the device digit and the rest of its line, for the first
line that starts with a prefix. `bol` says whether the string starts a line. -/
def devicePrefix (bol : Bool) : Bytes → Option (Byte × Bytes)
  | [] => none
  | [_] => none
  | c :: s :: rest =>
      if bol ∧ (c = 56 ∨ c = 57 ∨ (97 ≤ c ∧ c ≤ 102)) ∧ s = 47 then
        some (c, rest.takeWhile (!isLineFeed ·))
      else devicePrefix (isLineFeed c) (s :: rest)

/-- `"89abcdef".index($1)+8` -/
def deviceNumber (c : Byte) : Nat := (hexValue c).getD 8

/-- `@options[key] = value`: a key that is there keeps its place. -/
def setOption (options : List (Bytes × Bytes)) (key value : Bytes) : List (Bytes × Bytes) :=
  if options.any (·.1 = key) then options.map fun o => if o.1 = key then (key, value) else o
  else options ++ [(key, value)]

/-- `["octet", "netascii"].include?(key)` -/
def isMode (key : Bytes) : Bool := key == ascii "octet" || key == ascii "netascii"

/-- The loop of `tftp_options`. Every turn moves `offset` on, so `data.size` turns are enough. -/
def optionsLoop (data : Bytes) :
    Nat → Nat → Bytes → List (Bytes × Bytes) → Except RubyError (Bytes × List (Bytes × Bytes))
  | 0, _, mode, options => .ok (mode, options)
  | fuel + 1, offset, mode, options =>
      if offset < data.length then do
        let key ← sizeOrRaise (← cstring data offset)
        let offset := offset + (key.length + 1)
        -- a mode has no value, and may come anywhere
        if isMode key then optionsLoop data fuel offset key options
        else
          let value ← sizeOrRaise (← cstring data offset)
          optionsLoop data fuel (offset + (value.length + 1)) mode (setOption options key value)
      else .ok (mode, options)

/-- `tftp_options` -/
def tftpOptions (t : Tftp) (data : Bytes) (offset : Nat) : Except RubyError Tftp := do
  let (mode, options) ← optionsLoop data data.length offset t.mode []
  return { t with mode := mode, options := options }

def FILEPOS : Nat := 2
def BLKPOS : Nat := 2
def ERRMSGPOS : Nat := 4
def DATAPOS : Nat := 4

/-- The part `packet_rrq` and `packet_wrq` share: the file name, the device and the options. -/
def parseRequest (t : Tftp) (data : Bytes) : Except RubyError Tftp := do
  let filename ← sizeOrRaise (← cstring data FILEPOS)
  let offset := filename.length
  let (deviceNum, filename) :=
    match devicePrefix true filename with
    | some (c, rest) => (deviceNumber c, rest)
    | none => (8, filename)
  let t ← tftpOptions { t with deviceNum := deviceNum, filename := filename } data
    (FILEPOS + offset + 1)
  return { t with device := if (t.devices t.deviceNum).isSome then some t.deviceNum else none }

def packetRrq (t : Tftp) (data : Bytes) : Except RubyError Tftp := do
  let t ← t.parseRequest data
  match t.devices t.deviceNum with
  | none => return t.sendErr 1 (ascii "File not found")
  | some dev =>
      let (opened, dev) ← dev.openFile t.filename .read
      let t := t.setDevice t.deviceNum dev
      if !opened then return t.sendErr 1 (ascii "File not found")
      else if t.options.isEmpty then t.sendData false
      else return t.sendOack .waitForAck

def packetWrq (t : Tftp) (data : Bytes) : Except RubyError Tftp := do
  let t ← t.parseRequest data
  match t.devices t.deviceNum with
  | none => return t.sendErr 1 (ascii "File not found")
  | some dev =>
      -- looked at before the name
      if dev.readonly then return t.sendErr 1 (ascii "File not found") else
      let (opened, dev) ← dev.openFile t.filename .write
      let t := t.setDevice t.deviceNum dev
      if !opened then return t.sendErr 1 (ascii "File not found")
      else if t.options.isEmpty then return t.sendAck
      else return t.sendOack .waitForData

/-! ## The other packets -/

def packetAck (t : Tftp) (data : Bytes) : Except RubyError Tftp := do
  let blocknum ← uint16 data BLKPOS
  -- any acknowledgement ends the session, whatever its number
  if t.lastPacket then
    let (n, dev) ← t.theDevice
    let dev ← dev.close
    return { t.setDevice n dev with blocknum := 0, status := .finished }
  else
    match blocknum with
    | none => .error .noMethodError
    | some b => sendData { t with blocknum := b } t.sendEmpty

/-- `data[DATAPOS..-1]` -/
def payload (data : Bytes) : Option Bytes :=
  if data.length < DATAPOS then none else some (data.drop DATAPOS)

def packetData (t : Tftp) (data : Bytes) : Except RubyError Tftp := do
  let blocknum ← uint16 data BLKPOS
  let (n, dev) ← t.theDevice
  -- the block is written whatever its number
  let dev ← dev.write (payload data)
  let t := t.setDevice n dev
  match blocknum with
  | none => .error .typeError
  | some b =>
      let t := sendAck { t with blocknum := b }
      -- the packet is measured with its header, so a block of 252 bytes is not the last
      if data.length < BLKSIZE then
        let dev ← dev.close
        return { t.setDevice n dev with status := .finished, blocknum := 0 }
      else return t

def packetErr (t : Tftp) (data : Bytes) : Except RubyError Tftp := do
  let code ← uint16 data BLKPOS
  let msg ← cstring data ERRMSGPOS
  return { t with errorCode := code, errorMsg := msg, status := .error }

/-! ## Dispatch -/

/-- One turn of the loop in `packet`, up to the wait: the handler of the packet's type. There is
no `packet_oack`. -/
def dispatch (t : Tftp) (data : Bytes) : Except RubyError Tftp := do
  let t := { t with status := .ready }
  match ← uint16 data 0 with
  | none => .error .typeError
  | some 1 => t.packetRrq data
  | some 2 => t.packetWrq data
  | some 3 => t.packetData data
  | some 4 => t.packetAck data
  | some 5 => t.packetErr data
  | some 6 => .error .noMethodError
  | some _ => .ok t

/-- Whether the loop in `packet` goes on to `wait_ack` or `wait_data`. -/
def waiting (t : Tftp) : Bool := t.status = .waitForAck ∨ t.status = .waitForData

end Tftp

/-! ## The daemon -/

/-- The main loop of `TFTP.run`: between sessions, or in the `packet` of a session that waits
for its next datagram. -/
inductive Daemon where
  | idle (devices : Nat → Option Device) (sent : List (Addr × Bytes))
  | session (t : Tftp)

namespace Daemon

/-- After a turn of `packet`: wait for the next datagram, or on to the next session. -/
def ofTftp (t : Tftp) : Daemon := if t.waiting then session t else idle t.devices t.sent

/-- What arrives at the socket: a datagram with its sender, or nothing for five seconds. -/
inductive Event where
  | datagram (sender : Addr) (data : Bytes)
  | silence

/-- `recvfrom(@blksize+4)` drops what does not fit. -/
def recvfrom (data : Bytes) : Bytes := data.take (BLKSIZE + 4)

theorem recvfrom_of_le {data : Bytes} (h : data.length ≤ 260) : recvfrom data = data :=
  List.take_of_length_le h

/-- One event. A waiting session does not look at the sender. -/
def step (d : Daemon) (e : Event) : Except RubyError Daemon :=
  match d, e with
  | idle devices sent, .datagram sender data => do
      let t ← (Tftp.new devices sent sender).dispatch (recvfrom data)
      return ofTftp t
  | session t, .datagram _ data => do
      let t ← t.dispatch (recvfrom data)
      return ofTftp t
  | idle devices sent, .silence => .ok (idle devices sent)
  | session t, .silence => .ok (idle t.devices t.sent)

/-- The daemon on a sequence of events. -/
def run (d : Daemon) : List Event → Except RubyError Daemon
  | [] => .ok d
  | e :: es => do
      let d ← d.step e
      d.run es

end Daemon

end C64Iec.Server

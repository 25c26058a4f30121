import C64Iec.Ether.PacketLoop
import C64Iec.Ether.Udp
import C64Iec.Lib.Tlv

set_option autoImplicit false

/-! # Getting an address (`dhcp.cpp`)

`dhcp_fsm` goes round a loop, once for each packet at most, until it has a lease or its time is up.
A packet is first shown to `packetLoop`. What the loop is given from outside in one turn is a `Tick`.
-/

namespace C64Iec.Ether

open Lib
open Client (IP_PROTO_P UDP_SRC_PORT_L_P UDP_DATA_P IP_PROTO_UDP_V Frame)

/-! ## Constants -/

def DHCP_BOOTREQUEST : Byte := 1
def DHCP_BOOTRESPONSE : Byte := 2

def DHCP_MSG_DISCOVER : Byte := 1
def DHCP_MSG_OFFER : Byte := 2
def DHCP_MSG_REQUEST : Byte := 3
def DHCP_MSG_ACK : Byte := 5
def DHCP_MSG_NACK : Byte := 6

def DHCP_SRC_PORT : Nat := 67
def DHCP_DEST_PORT : Nat := 68

/-- `sizeof (DHCPdata)`, the cookie included -/
def DHCP_DATA_SIZE : Nat := 240

inductive DhcpState where
  | bad
  | init
  | select
  | request
  | bound
  | renew
  | rebind
  deriving DecidableEq, Repr

/-- The statics of `dhcp.cpp`, and those of `EtherCard` that only it uses. -/
structure Dhcp where
  card : EtherCard
  mymask : Ip
  dnsip : Ip
  dhcpip : Ip
  dhcpState : DhcpState
  hostname : Bytes
  currentXid : UInt32
  leaseStart : UInt32
  leaseTime : UInt32
  deriving DecidableEq, Repr

def allZeros : Ip := Vector.replicate 4 0

/-- The four bytes of a number, low byte first. -/
def leBytes (x : UInt32) : Bytes :=
  [UInt8.ofNat x.toNat, UInt8.ofNat (x.toNat / 256), UInt8.ofNat (x.toNat / 65536),
    UInt8.ofNat (x.toNat / 16777216)]

/-- An IP address in the buffer. -/
def ipAt (b : Nat → Byte) (off : Nat) : Ip := Vector.ofFn fun i => b (off + i)

/-! ## Sending -/

/-- `gPB` and `bufPtr` -/
structure Fill where
  b : Nat → Byte
  bufPtr : Nat

/-- `addBytes` -/
def Fill.addBytes (s : Fill) (data : Bytes) : Fill :=
  ⟨write s.b s.bufPtr data, s.bufPtr + data.length⟩

/-- `addToBuf` -/
def Fill.addToBuf (s : Fill) (x : Byte) : Fill := s.addBytes [x]

def cookie : Bytes := [99, 130, 83, 99]

/-- The options, from the cookie on. -/
def addOptions (d : Dhcp) (request : Byte) (s : Fill) : Fill :=
  let s := s.addBytes cookie
  let s := ((s.addToBuf 53).addToBuf 1).addToBuf request
  let s := (((s.addToBuf 61).addToBuf 7).addToBuf 0x01).addBytes d.card.mymac.toList
  let s := ((s.addToBuf 12).addToBuf (UInt8.ofNat d.hostname.length)).addBytes d.hostname
  let s := if request = DHCP_MSG_REQUEST then
      let s := ((s.addToBuf 50).addToBuf 4).addBytes d.card.myip.toList
      ((s.addToBuf 54).addToBuf 4).addBytes d.dhcpip.toList
    else s
  s.addBytes [55, 3, 1, 3, 6, 255]

/-- The header of the message, in a buffer that has been cleared. -/
def dhcpHeader (d : Dhcp) (b : Nat → Byte) (flg : Bool) : Nat → Byte :=
  let b := write b 0 (List.replicate (UDP_DATA_P + DHCP_DATA_SIZE) 0)
  let b := udpPrepare d.card b DHCP_DEST_PORT d.card.myip DHCP_SRC_PORT
  let b := write b ETH_SRC_MAC d.card.mymac.toList
  let b := write b ETH_DST_MAC allOnes
  let b := write b IP_TOTLEN_L_P [0x82]
  let b := write b IP_PROTO_P [IP_PROTO_UDP_V]
  let b := write b IP_DST_P (if flg then allOnes.take 4 else d.dhcpip.toList)
  -- `op`, `htype`, `hlen`, `hops`
  let b := write b UDP_DATA_P [DHCP_BOOTREQUEST, 1, 6, 0]
  let b := write b (UDP_DATA_P + 4) (leBytes d.currentXid)
  -- `secs`, `flags`
  let b := write b (UDP_DATA_P + 8) [0, 0, if flg then 0x80 else 0, 0]
  write b (UDP_DATA_P + 28) d.card.mymac.toList

/-- `dhcp_send`: the frames that go out. -/
def dhcpSend (d : Dhcp) (linkUp : Bool) (b : Nat → Byte) (request : Byte) (flg : Bool) :
    List Bytes :=
  if !linkUp then [] else
  let s := addOptions d request
    ⟨dhcpHeader d b flg, UDP_DATA_P + DHCP_DATA_SIZE - cookie.length⟩
  [(udpTransmit s.b (s.bufPtr - UDP_DATA_P)).2]

/-! ## Receiving -/

/-- What `parse_dhcpoffer` does with an option, whose value is at `ptr`. -/
def learnOption (b : Nat → Byte) (d : Dhcp) (option : Byte) (ptr : Nat) : Dhcp :=
  if option = 1 then { d with mymask := ipAt b ptr }
  else if option = 3 then { d with card := { d.card with gwip := ipAt b ptr } }
  else if option = 6 then { d with dnsip := ipAt b ptr }
  else if option = 51 then
    { d with leaseTime := UInt32.ofNat (((b ptr).toNat * 16777216 + (b (ptr + 1)).toNat * 65536 +
        (b (ptr + 2)).toNat * 256 + (b (ptr + 3)).toNat) * 1000) }
  else if option = 54 then { d with dhcpip := ipAt b ptr }
  else d

/-- `parse_dhcpoffer` -/
def parseDhcpoffer (d : Dhcp) (b : Nat → Byte) (len : Nat) : Dhcp :=
  let d := { d with card := { d.card with myip := ipAt b (UDP_DATA_P + 16),
                                          serverip := ipAt b (UDP_DATA_P + 20) } }
  walk (learnOption b) b len d (UDP_DATA_P + DHCP_DATA_SIZE)

/-- The loop of `check_for_dhcp_answer`: the value of the option with the type of the message. -/
def messageType (b : Nat → Byte) (sp offset bp : Nat) : Option Byte :=
  if b bp ≠ 0xff ∧ bp - sp < offset then
    if b bp = 53 then some (b (bp + 2))
    -- one less than the option takes up
    else messageType b sp offset (bp + (b (bp + 1)).toNat + 1)
  else none
termination_by sp + offset - bp
decreasing_by omega

/-- The type found in a packet that is an answer to the message `xid`. It need not be the packet's: the
scan comes one byte short of each next option. -/
def answerType (xid : UInt32) (b : Nat → Byte) (len : Nat) : Option Byte :=
  if 42 < len ∧ (b UDP_SRC_PORT_L_P).toNat = DHCP_SRC_PORT ∧ b UDP_DATA_P = DHCP_BOOTRESPONSE ∧
      cells b (UDP_DATA_P + 4) 4 = leBytes xid then
    let sp := UDP_DATA_P + DHCP_DATA_SIZE
    let total := be16 (b IP_TOTLEN_H_P) (b IP_TOTLEN_L_P)
    messageType b sp ((total + 65536 - (20 + 8 + DHCP_DATA_SIZE)) % 65536) sp
  else none

/-- `check_for_dhcp_answer` -/
def checkForDhcpAnswer (d : Dhcp) (b : Nat → Byte) (len : Nat) : DhcpState :=
  match answerType d.currentXid b len with
  | none => .bad
  | some type =>
      if type = DHCP_MSG_OFFER then .select
      else if type = DHCP_MSG_ACK then
        match d.dhcpState with
        | .request => .request
        | .renew => .bound
        | .rebind => .bound
        | _ => .bad
      else if type = DHCP_MSG_NACK then .init
      else .bad

/-! ## The loop -/

/-- What is given from outside in a turn of the loop. -/
structure Tick where
  /-- `isLinkUp ()`, at the head of the body and in `dhcp_send` -/
  linkUp : Bool
  sendLinkUp : Bool
  /-- what `packetReceive` finds -/
  frame : Frame
  /-- `millis ()`, which is asked twice for a new `xid` -/
  now : UInt32
  now' : UInt32

/-- The body up to the `switch`, which is reached with a buffer. -/
def dhcpReceive (d : Dhcp) (i : Tick) : Dhcp × List Bytes × Option (Nat → Byte) :=
  if !i.linkUp then (d, [], none)
  else if d.dhcpState = .init then (d, [], some i.frame.buffer)
  else if i.frame.plen = 0 then (d, [], none)
  else
    let r := packetLoop i.linkUp d.card i.frame
    let d := { d with card := r.e }
    if 0 < r.ret ∨ r.buffer IP_PROTO_P ≠ IP_PROTO_UDP_V then (d, r.sent, none)
    else (d, r.sent, some r.buffer)

/-- The `switch`. -/
def dhcpSwitch (d : Dhcp) (i : Tick) (b : Nat → Byte) : Dhcp × List Bytes :=
  let len := i.frame.plen
  match d.dhcpState with
  | .init =>
      let d := { d with card := { d.card with myip := allZeros }, dhcpip := allZeros,
                        currentXid := (i.now <<< 16) + i.now' }
      let sent := dhcpSend d i.sendLinkUp b DHCP_MSG_DISCOVER true
      ({ d with dhcpState := .select, leaseStart := 0 }, sent)
  | .select =>
      if checkForDhcpAnswer d b len = .select then
        let d := parseDhcpoffer d b len
        let sent := dhcpSend d i.sendLinkUp b DHCP_MSG_REQUEST false
        ({ d with dhcpState := .request }, sent)
      else ({ d with dhcpState := .init }, [])
  | .request =>
      if checkForDhcpAnswer d b len = .request then
        ({ d with dhcpState := .bound, leaseStart := i.now }, [])
      else ({ d with dhcpState := .init }, [])
  | .bound => (d, [])
  | .renew | .rebind =>
      match checkForDhcpAnswer d b len with
      | .bound => ({ d with dhcpState := .bound, leaseStart := i.now }, [])
      | .init => ({ d with dhcpState := .init }, [])
      | _ => (d, [])
  | .bad => ({ d with dhcpState := .init }, [])

/-- The body of the loop. -/
def dhcpTurn (d : Dhcp) (i : Tick) : Dhcp × List Bytes :=
  match dhcpReceive d i with
  | (d, sent, none) => (d, sent)
  | (d, sent, some b) =>
      let (d, sent') := dhcpSwitch d i b
      (d, sent ++ sent')

/-- The loop, with one tick for each turn there is time for. -/
def dhcpLoop (d : Dhcp) : List Tick → Dhcp × List Bytes
  | [] => (d, [])
  | i :: is =>
      if d.dhcpState = .bound then (d, []) else
      let (d, sent) := dhcpTurn d i
      let (d, rest) := dhcpLoop d is
      (d, sent ++ rest)

/-- `setGwIp` -/
def setGwIp (e : EtherCard) (gwipaddr : Ip) : EtherCard :=
  { e with waitgwmac := WGW_INITIAL_ARP, gwip := gwipaddr }

/-- `dhcp_fsm`: its result, what it leaves, and the frames that have gone out. -/
def dhcpFsm (d : Dhcp) (ticks : List Tick) : Bool × Dhcp × List Bytes :=
  let (d, sent) := dhcpLoop d ticks
  -- an IP or a timeout?
  if d.card.myip.get 0 ≠ 0 then
    let d := if d.card.gwip.get 0 ≠ 0 then { d with card := setGwIp d.card d.card.gwip } else d
    (true, d, sent)
  else (false, d, sent)

/-- `dhcpSetup ()` up to the call of `dhcp_fsm`: the host name is that of this card. -/
def dhcpStart (d : Dhcp) : Dhcp :=
  { d with
    hostname := ascii "Arduino-" ++
      [(65 : Byte) + (d.card.mymac[5] >>> 4), (65 : Byte) + (d.card.mymac[5] &&& 0x0F)]
    dhcpState := .init }

/-- `dhcpSetup ()` -/
def dhcpSetup (d : Dhcp) (ticks : List Tick) : Bool × Dhcp × List Bytes :=
  dhcpFsm (dhcpStart d) ticks

end C64Iec.Ether

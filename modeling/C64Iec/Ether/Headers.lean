import C64Iec.Client.Tftp
import C64Iec.Lib.Buffer
import C64Iec.Lib.OnesComplement

set_option autoImplicit false

/-! # The headers of a frame (`tcpip.cpp`)

The functions of `tcpip.cpp` build a frame in `gPB`, which is `ether.buffer`. A buffer is a function
from positions to bytes, as in a received `Frame`, and what it holds before is arbitrary. The
addresses and flags that outlive a frame are the record `EtherCard`.
-/

namespace C64Iec.Ether

open Lib
open Client (ETH_TYPE_H_P ETH_TYPE_L_P IP_PROTO_P ETH_ARP_DST_IP_P UDP_SRC_PORT_H_P
  UDP_SRC_PORT_L_P UDP_DST_PORT_H_P UDP_DST_PORT_L_P UDP_LEN_H_P UDP_LEN_L_P UDP_DATA_P
  IP_PROTO_UDP_V)

abbrev Mac := Vector Byte 6

abbrev Ip := Vector Byte 4

/-! ## Positions (`net.h`) -/

def ETH_HEADER_LEN : Nat := 14
def ETH_DST_MAC : Nat := 0
def ETH_SRC_MAC : Nat := 6
def ETHTYPE_IP_H_V : Byte := 0x08
def ETHTYPE_IP_L_V : Byte := 0x00

def IP_HEADER_LEN : Nat := 20
def IP_P : Nat := 0xe
def IP_HEADER_LEN_VER_P : Nat := 0xe
def IP_TOTLEN_H_P : Nat := 0x10
def IP_TOTLEN_L_P : Nat := 0x11
def IP_FLAGS_P : Nat := 0x14
def IP_TTL_P : Nat := 0x16
def IP_CHECKSUM_P : Nat := 0x18
def IP_SRC_P : Nat := 0x1a
def IP_DST_P : Nat := 0x1e
def IP_PROTO_ICMP_V : Byte := 1
def IP_PROTO_TCP_V : Byte := 6

def UDP_HEADER_LEN : Nat := 8
def UDP_CHECKSUM_H_P : Nat := 0x28

/-- `iphdr` -/
def iphdr : Bytes := [0x45, 0, 0, 0x82, 0, 0, 0x40, 0, 0x20]

def allOnes : Bytes := [0xFF, 0xFF, 0xFF, 0xFF, 0xFF, 0xFF]

/-! ## Addresses and flags -/

/-- The values of `tcp_client_state` that occur: `0` and `5`. The others belong to a connection that has
been opened, and the sketch never calls `clientTcpReq`, which opens one. -/
inductive TcpClientState where
  | unused
  | terminated
  deriving DecidableEq, Repr

/-- The statics of `EtherCard` and of `tcpip.cpp` that the functions read or write. -/
structure EtherCard where
  mymac : Mac
  myip : Ip
  gwip : Ip
  serverip : Ip
  hisip : Ip
  hisport : Nat
  gwmacaddr : Mac
  servermacaddr : Mac
  servermacKnown : Bool
  waitgwmac : Byte
  /-- `delaycnt`, which overflows to zero -/
  delaycnt : UInt16
  tcpClientState : TcpClientState
  seqnum : Byte
  infoDataLen : Nat
  deriving DecidableEq, Repr

/-! ## Building -/

/-- `fill_checksum` -/
def fillChecksum (b : Nat → Byte) (dest off len type : Nat) : Nat → Byte :=
  let sum := if type = 1 then IP_PROTO_UDP_V.toNat + len - 8
    else if type = 2 then IP_PROTO_TCP_V.toNat + len - 8 else 0
  let ck := complement (sum + wordSum (cells b off len))
  write b dest (beBytes ck)

def setMACs (e : EtherCard) (b : Nat → Byte) (mac : Bytes) : Nat → Byte :=
  write (write b ETH_DST_MAC mac) ETH_SRC_MAC e.mymac.toList

def setMACandIPs (e : EtherCard) (b : Nat → Byte) (mac dst : Bytes) : Nat → Byte :=
  let b := setMACs e b mac
  let b := write b IP_DST_P dst
  write b IP_SRC_P e.myip.toList

def fillIpHdrChecksum (b : Nat → Byte) : Nat → Byte :=
  let b := write b IP_CHECKSUM_P [0, 0]
  -- don't fragment
  let b := write b IP_FLAGS_P [0x40, 0]
  let b := write b IP_TTL_P [64]
  fillChecksum b IP_CHECKSUM_P IP_P IP_HEADER_LEN 0

/-- `make_eth_ip`: back to where the frame in the buffer has come from. -/
def makeEthIp (e : EtherCard) (b : Nat → Byte) : Nat → Byte :=
  let b := setMACs e b (cells b ETH_SRC_MAC 6)
  let b := write b IP_DST_P (cells b IP_SRC_P 4)
  let b := write b IP_SRC_P e.myip.toList
  fillIpHdrChecksum b

/-- `packetSend`: the frame that goes out. -/
def packetSend (b : Nat → Byte) (len : Nat) : Bytes := cells b 0 len

/-! ## Checksums -/

variable {b : Nat → Byte}

/-- The checksum changes nothing but its own field. -/
theorem cells_fillChecksum {dest off len type o n : Nat} (h : o + n ≤ dest ∨ dest + 2 ≤ o) :
    cells (fillChecksum b dest off len type) o n = cells b o n :=
  cells_write_of_disjoint h

/-- **A checksum that is filled in verifies**, if it stands at a word of what it covers and was zero
before. -/
theorem verifies_fillChecksum {m : Nat} (k : Nat) {off : Nat} (type : Nat) (hm : m % 2 = 0)
    (hzero : cells b (off + m) 2 = [0, 0]) :
    Verifies (if type = 1 then IP_PROTO_UDP_V.toNat + (m + 2 + k) - 8
        else if type = 2 then IP_PROTO_TCP_V.toNat + (m + 2 + k) - 8 else 0)
      (cells (fillChecksum b (off + m) off (m + 2 + k) type) off (m + 2 + k)) := by
  have hbefore : cells b off (m + 2 + k)
      = cells b off m ++ [0, 0] ++ cells b (off + (m + 2)) k := by
    rw [cells_add, cells_add, hzero]
  have hafter : ∀ word : Bytes, word.length = 2 → cells (write b (off + m) word) off (m + 2 + k)
      = cells b off m ++ word ++ cells b (off + (m + 2)) k := by
    intro word hlen
    have hword := cells_write b (off + m) word
    rw [hlen] at hword
    rw [cells_add, cells_add, hword, cells_write_of_disjoint (Or.inl (Nat.le_refl _)),
      cells_write_of_disjoint (Or.inr (by omega))]
  unfold fillChecksum
  dsimp only
  rw [hafter _ (beBytes_length _), hbefore]
  exact verifies_complement (by rw [cells_length, hm])

/-! ### The header of IP -/

/-- What `fill_ip_hdr_checksum` leaves alone: everything outside the header. -/
theorem cells_fillIpHdrChecksum {o n : Nat} (h : o + n ≤ IP_FLAGS_P ∨ IP_SRC_P ≤ o) :
    cells (fillIpHdrChecksum b) o n = cells b o n := by
  unfold IP_FLAGS_P IP_SRC_P at h
  unfold fillIpHdrChecksum IP_CHECKSUM_P IP_FLAGS_P IP_TTL_P
  rw [cells_fillChecksum (by omega), cells_write_of_disjoint (by simp; omega),
    cells_write_of_disjoint (by simp; omega), cells_write_of_disjoint (by simp; omega)]

/-- **The header of IP verifies.** -/
theorem verifies_fillIpHdrChecksum : Verifies 0 (cells (fillIpHdrChecksum b) IP_P 20) := by
  exact verifies_fillChecksum (m := 10) 8 0 (by decide) rfl

end C64Iec.Ether

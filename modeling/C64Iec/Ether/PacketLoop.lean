import C64Iec.Ether.Headers

set_option autoImplicit false

/-! # Frames that are answered (`packetLoop`)

What `tftp_recv_packet` does not take is handed to `packetLoop`, which learns addresses from ARP and
answers ARP, pings and TCP. Nothing in the sketch opens a TCP connection or registers a callback, so
`tcp_client_state` is `0`, or `5` after a reset (`TcpClientState`), and what `packetLoop` does in its
other states is left out. An answer is made in the buffer that holds the question.
-/

namespace C64Iec.Ether

open Lib
open Client (ETH_TYPE_H_P ETH_TYPE_L_P ETHTYPE_ARP_H_V ETHTYPE_ARP_L_V IP_PROTO_P ETH_ARP_DST_IP_P
  Frame ethTypeIsArpAndMyIp)

/-! ## Positions (`net.h`) -/

def ETH_ARP_P : Nat := 0xe
def ETH_ARP_OPCODE_H_P : Nat := 0x14
def ETH_ARP_OPCODE_L_P : Nat := 0x15
def ETH_ARP_SRC_MAC_P : Nat := 0x16
def ETH_ARP_SRC_IP_P : Nat := 0x1c
def ETH_ARP_DST_MAC_P : Nat := 0x20
def ETH_ARP_OPCODE_REQ_L_V : Byte := 0x01
def ETH_ARP_OPCODE_REPLY_L_V : Byte := 0x02

def ICMP_TYPE_P : Nat := 0x22
def ICMP_CHECKSUM_P : Nat := 0x24
def ICMP_TYPE_ECHOREPLY_V : Byte := 0
def ICMP_TYPE_ECHOREQUEST_V : Byte := 8

def TCP_SRC_PORT_H_P : Nat := 0x22
def TCP_DST_PORT_H_P : Nat := 0x24
def TCP_DST_PORT_L_P : Nat := 0x25
def TCP_SEQ_H_P : Nat := 0x26
def TCP_SEQACK_H_P : Nat := 0x2a
def TCP_HEADER_LEN_P : Nat := 0x2e
def TCP_FLAGS_P : Nat := 0x2f
def TCP_WIN_SIZE : Nat := 0x30
def TCP_CHECKSUM_H_P : Nat := 0x32
def TCP_OPTIONS_P : Nat := 0x36
def TCP_HEADER_LEN_PLAIN : Nat := 20
def TCP_FLAGS_FIN_V : Byte := 1
def TCP_FLAGS_SYN_V : Byte := 2
def TCP_FLAGS_RST_V : Byte := 4
def TCP_FLAGS_PUSH_V : Byte := 8
def TCP_FLAGS_ACK_V : Byte := 0x10
def TCP_FLAGS_SYNACK_V : Byte := 0x12
def TCPCLIENT_SRC_PORT_H : Byte := 11

/-- The bits of `waitgwmac`. -/
def WGW_INITIAL_ARP : Byte := 1
def WGW_HAVE_GW_MAC : Byte := 2
def WGW_REFRESHING : Byte := 4
def WGW_ACCEPT_ARP_REPLY : Byte := 8

/-- `arpreqhdr` -/
def arpreqhdr : Bytes := [0, 1, 8, 0, 6, 4, 0, 1]

/-- What a call of `packetLoop` leads to: the statics, the buffer, the frames that went out, and the
result. -/
structure Looped where
  e : EtherCard
  buffer : Nat → Byte
  sent : List Bytes
  ret : Nat

/-- Nothing goes out. -/
def silent (e : EtherCard) (b : Nat → Byte) : Looped := ⟨e, b, [], 0⟩

/-! ## ARP -/

/-- `client_arp_whohas`, which is `sendArpRequest` -/
def clientArpWhohas (e : EtherCard) (b : Nat → Byte) (ip : Ip) : Looped :=
  let b := setMACs e b allOnes
  let b := write b ETH_TYPE_H_P [ETHTYPE_ARP_H_V, ETHTYPE_ARP_L_V]
  let b := write b ETH_ARP_P arpreqhdr
  let b := write b ETH_ARP_DST_MAC_P (List.replicate 6 0)
  let b := write b ETH_ARP_SRC_MAC_P e.mymac.toList
  let b := write b ETH_ARP_DST_IP_P ip.toList
  let b := write b ETH_ARP_SRC_IP_P e.myip.toList
  ⟨{ e with waitgwmac := e.waitgwmac ||| WGW_ACCEPT_ARP_REPLY }, b, [packetSend b 42], 0⟩

/-- An address in the buffer. -/
def macAt (b : Nat → Byte) (off : Nat) : Mac := Vector.ofFn fun i => b (off + i)

/-- `client_store_server_mac` -/
def clientStoreServerMac (e : EtherCard) (b : Nat → Byte) : EtherCard :=
  if cells b ETH_ARP_SRC_IP_P 4 ≠ e.serverip.toList then e else
  { e with servermacaddr := macAt b ETH_ARP_SRC_MAC_P, servermacKnown := true }

/-- `client_store_gw_mac`, and what follows it when it succeeds. -/
def clientStoreGwMac (e : EtherCard) (b : Nat → Byte) : EtherCard :=
  if cells b ETH_ARP_SRC_IP_P 4 ≠ e.gwip.toList then e else
  { e with gwmacaddr := macAt b ETH_ARP_SRC_MAC_P, waitgwmac := WGW_HAVE_GW_MAC }

/-- `make_arp_answer_from_request`: the buffer, whose first 42 bytes go out. -/
def makeArpAnswerFromRequest (e : EtherCard) (b : Nat → Byte) : Nat → Byte :=
  let b := setMACs e b (cells b ETH_SRC_MAC 6)
  let b := write b ETH_ARP_OPCODE_H_P [0, ETH_ARP_OPCODE_REPLY_L_V]
  let b := write b ETH_ARP_DST_MAC_P (cells b ETH_ARP_SRC_MAC_P 6)
  let b := write b ETH_ARP_SRC_MAC_P e.mymac.toList
  let b := write b ETH_ARP_DST_IP_P (cells b ETH_ARP_SRC_IP_P 4)
  write b ETH_ARP_SRC_IP_P e.myip.toList

/-- `packetLoop` on an ARP packet for this address. -/
def arpLoop (e : EtherCard) (b : Nat → Byte) : Looped :=
  let e := clientStoreServerMac e b
  let asks := b ETH_ARP_OPCODE_L_P = ETH_ARP_OPCODE_REQ_L_V
  let b' := if asks then makeArpAnswerFromRequest e b else b
  let sent := if asks then [packetSend b' 42] else []
  -- an answer that has just been made is in the buffer here
  let e := if e.waitgwmac &&& WGW_ACCEPT_ARP_REPLY ≠ 0 ∧
      b' ETH_ARP_OPCODE_L_P = ETH_ARP_OPCODE_REPLY_L_V then clientStoreGwMac e b' else e
  ⟨e, b', sent, 0⟩

/-! ## ICMP -/

/-- `make_echo_reply_from_request` -/
def makeEchoReplyFromRequest (e : EtherCard) (b : Nat → Byte) : Nat → Byte :=
  let b := makeEthIp e b
  let b := write b ICMP_TYPE_P [ICMP_TYPE_ECHOREPLY_V]
  -- the carry out of the high byte goes to the low byte, and no further
  let b := if b ICMP_CHECKSUM_P > 0xFF - 0x08 then
      write b (ICMP_CHECKSUM_P + 1) [b (ICMP_CHECKSUM_P + 1) + 1] else b
  write b ICMP_CHECKSUM_P [b ICMP_CHECKSUM_P + 0x08]

/-! ## TCP -/

/-- `step_seq`, from the last of the `i` bytes of a number on. -/
def stepSeq (cpSeq : Bool) : (i relAckNum : Nat) → (Nat → Byte) → Nat → Byte
  | 0, _, b => b
  | i + 1, relAckNum, b =>
      let relAckNum := ((b (TCP_SEQ_H_P + i)).toNat + relAckNum) % 65536
      let tseq := b (TCP_SEQACK_H_P + i)
      let b := write b (TCP_SEQACK_H_P + i) [UInt8.ofNat relAckNum]
      let b := write b (TCP_SEQ_H_P + i) [if cpSeq then tseq else 0]
      stepSeq cpSeq i (relAckNum / 256) b

/-- `make_tcphead` -/
def makeTcphead (b : Nat → Byte) (relAckNum : Nat) (cpSeq : Bool) : Nat → Byte :=
  let ports := cells b TCP_DST_PORT_H_P 2 ++ cells b TCP_SRC_PORT_H_P 2
  let b := write b TCP_SRC_PORT_H_P ports
  let b := stepSeq cpSeq 4 relAckNum b
  let b := write b TCP_CHECKSUM_H_P [0, 0]
  write b TCP_HEADER_LEN_P [0x50]

/-- `make_tcp_synack_from_syn`: the buffer, whose first 58 bytes go out. -/
def makeTcpSynackFromSyn (e : EtherCard) (b : Nat → Byte) : Nat → Byte :=
  let b := write b IP_TOTLEN_H_P [0, 44]
  let b := makeEthIp e b
  let b := write b TCP_FLAGS_P [TCP_FLAGS_SYNACK_V]
  let b := makeTcphead b 1 false
  let b := write b TCP_SEQ_H_P [0, 0, e.seqnum, 0]
  let b := write b TCP_OPTIONS_P [2, 4, 0x05, 0x0]
  let b := write b TCP_HEADER_LEN_P [0x60]
  let b := write b TCP_WIN_SIZE [0x5, 0x78]
  fillChecksum b TCP_CHECKSUM_H_P IP_SRC_P (8 + TCP_HEADER_LEN_PLAIN + 4) 2

/-- `make_tcp_ack_from_any`: the buffer, whose first 54 bytes go out. -/
def makeTcpAckFromAny (e : EtherCard) (b : Nat → Byte) (datlentoack : Nat) (addflags : Byte) :
    Nat → Byte :=
  let b := write b TCP_FLAGS_P [TCP_FLAGS_ACK_V ||| addflags]
  let datlentoack :=
    if addflags ≠ TCP_FLAGS_RST_V ∧ datlentoack % 65536 = 0 then 1 else datlentoack % 65536
  let b := makeTcphead b datlentoack true
  let b := write b IP_TOTLEN_H_P [0, 40]
  let b := makeEthIp e b
  let b := write b TCP_WIN_SIZE [0x4, 0]
  fillChecksum b TCP_CHECKSUM_H_P IP_SRC_P (8 + TCP_HEADER_LEN_PLAIN) 2

/-- `get_tcp_data_len`, computed in a signed 16-bit number. -/
def getTcpDataLen (b : Nat → Byte) : Nat :=
  let total := be16 (b IP_TOTLEN_H_P) (b IP_TOTLEN_L_P)
  (int16 ((total + 65536 - IP_HEADER_LEN - (b TCP_HEADER_LEN_P).toNat / 16 * 4) % 65536)).toNat

/-- `packetLoop` on a packet for the ports of the TCP client, of which no connection is open. -/
def tcpClientLoop (e : EtherCard) (b : Nat → Byte) : Looped :=
  if cells b IP_SRC_P 4 ≠ e.hisip.toList then silent e b else
  if b TCP_FLAGS_P &&& TCP_FLAGS_RST_V ≠ 0 then silent { e with tcpClientState := .terminated } b else
  let len := getTcpDataLen b
  if e.tcpClientState = .terminated then silent e b else
  if b TCP_FLAGS_P &&& TCP_FLAGS_FIN_V ≠ 0 then
    let b := makeTcpAckFromAny e b (len + 1) (TCP_FLAGS_PUSH_V ||| TCP_FLAGS_FIN_V)
    ⟨{ e with tcpClientState := .terminated }, b, [packetSend b 54], 0⟩
  else if len > 0 then
    let b := makeTcpAckFromAny e b len 0
    ⟨e, b, [packetSend b 54], 0⟩
  else silent e b

/-- `packetLoop` on a packet for any other port: the end of it, which answers for `hisport`. -/
def tcpServerLoop (e : EtherCard) (b : Nat → Byte) (plen : Nat) : Looped :=
  if be16 (b TCP_DST_PORT_H_P) (b TCP_DST_PORT_L_P) ≠ e.hisport then silent e b else
  if b TCP_FLAGS_P &&& TCP_FLAGS_SYN_V ≠ 0 then
    let b := makeTcpSynackFromSyn e b
    ⟨{ e with seqnum := e.seqnum + 3 }, b, [packetSend b 58], 0⟩
  else if b TCP_FLAGS_P &&& TCP_FLAGS_ACK_V ≠ 0 then
    let e := { e with infoDataLen := getTcpDataLen b }
    if e.infoDataLen > 0 then
      let len := TCP_SRC_PORT_H_P + (b TCP_HEADER_LEN_P).toNat / 16 * 4
      ⟨e, b, [], if len ≤ plen - 8 then len else 0⟩
    else if b TCP_FLAGS_P &&& TCP_FLAGS_FIN_V ≠ 0 then
      let b := makeTcpAckFromAny e b 0 0
      ⟨e, b, [packetSend b 54], 0⟩
    else silent e b
  else silent e b

/-! ## The loop -/

/-- `eth_type_is_ip_and_my_ip` -/
def ethTypeIsIpAndMyIp (e : EtherCard) (f : Frame) : Bool :=
  decide (42 ≤ f.plen) && f.buffer ETH_TYPE_H_P == ETHTYPE_IP_H_V &&
    f.buffer ETH_TYPE_L_P == ETHTYPE_IP_L_V && f.buffer IP_HEADER_LEN_VER_P == 0x45 &&
    cells f.buffer IP_DST_P 4 == e.myip.toList

/-- `packetLoop` when there is no packet. -/
def idleLoop (linkUp : Bool) (e : EtherCard) (b : Nat → Byte) : Looped :=
  let asks := (e.waitgwmac &&& WGW_INITIAL_ARP ≠ 0 ∨ e.waitgwmac &&& WGW_REFRESHING ≠ 0) ∧
    e.delaycnt = 0 ∧ linkUp = true
  let r := if asks then clientArpWhohas e b e.gwip else silent e b
  { r with e := { r.e with delaycnt := r.e.delaycnt + 1 } }

/-- `packetLoop` -/
def packetLoop (linkUp : Bool) (e : EtherCard) (f : Frame) : Looped :=
  let b := f.buffer
  if f.plen = 0 then idleLoop linkUp e b
  else if ethTypeIsArpAndMyIp e.myip.toList f then arpLoop e b
  else if !ethTypeIsIpAndMyIp e f then silent e b
  else if b IP_PROTO_P = IP_PROTO_ICMP_V ∧ b ICMP_TYPE_P = ICMP_TYPE_ECHOREQUEST_V then
    let b := makeEchoReplyFromRequest e b
    ⟨e, b, [packetSend b f.plen], 0⟩
  -- a longer packet need not be TCP to be taken for it
  else if f.plen < 54 ∧ b IP_PROTO_P ≠ IP_PROTO_TCP_V then silent e b
  else if b TCP_DST_PORT_H_P = TCPCLIENT_SRC_PORT_H then tcpClientLoop e b
  else tcpServerLoop e b f.plen

end C64Iec.Ether

import C64Iec.Client.Datagram
import C64Iec.Client.Sketch

set_option autoImplicit false

/-! # The port of the server

`recv_file` takes what comes to its port from whatever port it was sent; only the destination of its
next datagram depends on that. So a run against a server at any port, or at several, is a run
against one at `TFTP_PORT`, but for the ports in what is sent (`recvFileStep_atPort`).
-/

namespace C64Iec.Client

/-! ## Replacing the port -/

def Tftp.atPort (t : Tftp) : Tftp := { t with srvport := TFTP_PORT }

def Globals.atPort (g : Globals) : Globals := { g with tftp := g.tftp.atPort }

def Datagram.toPort (d : Datagram) : Datagram := { d with dport := TFTP_PORT }

def Output.toPort : Output → Output
  | .udp d => .udp d.toPort
  | .put value eoi => .put value eoi

/-- The frame carries a packet, and `f'` the same one from `TFTP_PORT`. -/
def SamePacket (f f' : Frame) : Prop :=
  ∃ sport opcode number body, opcode < 65536 ∧ number < 65536 ∧
    f.Carries sport (packetBytes opcode number body) ∧
    f'.Carries TFTP_PORT (packetBytes opcode number body)

/-- For every packet that has been sent there is such a frame. -/
theorem exists_samePacket {f : Frame} {sport opcode number : Nat} {body : Bytes}
    (hf : f.Carries sport (packetBytes opcode number body)) :
    ∃ f' : Frame, f'.Carries TFTP_PORT (packetBytes opcode number body) := by
  have hlt := be16_lt (f.buffer UDP_LEN_H_P) (f.buffer UDP_LEN_L_P)
  rw [hf.udpLen] at hlt
  exact ⟨.ofPayload TFTP_PORT (packetBytes opcode number body),
    Frame.carries_ofPayload _ _ (by decide) hlt⟩

/-- The results of `recvDatagram`, of `ethernetProbeForPacket` and of a turn, with the port
replaced. -/
def replyAtPort (r : Tftp × List Datagram) : Tftp × List Datagram :=
  (r.1.atPort, r.2.map Datagram.toPort)

def probeAtPort (r : Tftp × List Output) : Tftp × List Output :=
  (r.1.atPort, r.2.map Output.toPort)

def turnAtPort (r : Globals × List Output × Control RecvFile) :
    Globals × List Output × Control RecvFile :=
  (r.1.atPort, r.2.1.map Output.toPort, r.2.2)

@[simp] theorem map_toPort_udp (ds : List Datagram) :
    (ds.map Output.udp).map Output.toPort = (ds.map Datagram.toPort).map Output.udp := by
  rw [List.map_map, List.map_map]
  rfl

/-! ## The functions of `recv_file` -/

/-- A function of a branch is a branch of its values. -/
theorem ite_eq_apply {α β : Type} {c : Prop} [Decidable c] {f : α → β} {a b : α} {a' b' : β}
    (h : c → a' = f a) (h' : ¬c → b' = f b) : (if c then a' else b') = f (if c then a else b) := by
  split
  · rename_i hc
    exact h hc
  · rename_i hc
    exact h' hc

theorem recvDatagram_atPort (t : Tftp) (sport opcode number : Nat) (body : Bytes) :
    recvDatagram t.atPort TFTP_PORT opcode number body =
      replyAtPort (recvDatagram t sport opcode number body) := by
  rw [recvDatagram, recvDatagram]
  dsimp only
  refine ite_eq_apply (fun _ => rfl) fun _ => ?_
  refine ite_eq_apply (fun _ => rfl) fun _ => ?_
  refine ite_eq_apply (fun _ => rfl) fun _ => ?_
  refine ite_eq_apply (fun _ => ?_) fun _ => ?_
  · by_cases hoack : opcode = TFTP_OPTACK
    · rw [if_pos hoack, if_pos hoack]
      rfl
    · rw [if_neg hoack, if_neg hoack]
      rfl
  · exact ite_eq_apply (fun _ => rfl) fun _ => rfl

theorem ethernetProbeForPacket_atPort (myip : Bytes) (t : Tftp) {packet packet' : Option Frame}
    (h : Option.Rel SamePacket packet packet') :
    ethernetProbeForPacket myip t.atPort packet' =
      probeAtPort (ethernetProbeForPacket myip t packet) := by
  cases h with
  | none => rfl
  | some hsame =>
      obtain ⟨sport, opcode, number, body, hop, hnum, hf, hf'⟩ := hsame
      simp only [ethernetProbeForPacket, tftpRecvPacket_of_carries myip _ hf hop hnum,
        tftpRecvPacket_of_carries myip _ hf' hop hnum, recvDatagram_atPort t sport, replyAtPort,
        probeAtPort, map_toPort_udp]

theorem tftpPutBlock_atPort (t : Tftp) (buf : Bytes) (size : Nat) :
    tftpPutBlock t.atPort buf size =
      ((tftpPutBlock t buf size).1, (tftpPutBlock t buf size).2.1.atPort,
        (tftpPutBlock t buf size).2.2.map Datagram.toPort) := by
  by_cases hclear : t.clearToSend = false
  · rw [tftpPutBlock, tftpPutBlock, if_pos hclear,
      if_pos (show t.atPort.clearToSend = false from hclear)]
    rfl
  · rw [tftpPutBlock, tftpPutBlock, if_neg hclear,
      if_neg (show ¬t.atPort.clearToSend = false from hclear)]
    dsimp only [tftpSendData]
    split <;> split <;> rfl

theorem recvFileEmptyBlock_atPort (g : Globals) :
    recvFileEmptyBlock g.atPort = turnAtPort (recvFileEmptyBlock g) := by
  have hput := tftpPutBlock_atPort g.tftp g.iobuf 0
  simp only [recvFileEmptyBlock, Globals.atPort, hput, turnAtPort, map_toPort_udp]

theorem recvFileBlock_atPort (g : Globals) (a : Nat) (eoi : Bool) :
    recvFileBlock g.atPort a eoi = turnAtPort (recvFileBlock g a eoi) := by
  have hput' : tftpPutBlock g.atPort.tftp g.atPort.iobuf a = _ := tftpPutBlock_atPort g.tftp g.iobuf a
  rcases hput : tftpPutBlock g.tftp g.iobuf a with ⟨sent, t, out⟩
  rw [hput] at hput'
  have hempty : recvFileEmptyBlock { g.atPort with tftp := t.atPort } = _ :=
    recvFileEmptyBlock_atPort { g with tftp := t }
  simp only [recvFileBlock, hput, hput', hempty]
  refine ite_eq_apply (fun _ => ?_) fun _ => ite_eq_apply (fun _ => ?_) fun _ =>
    ite_eq_apply (fun _ => ?_) fun _ => ?_
  all_goals simp only [turnAtPort, List.map_append, map_toPort_udp]
  all_goals rfl

/-- **A turn of `recv_file`** does the same whatever the port. -/
theorem recvFileStep_atPort (myip : Bytes) (g : Globals) (l : RecvFile) (i : Input)
    {packet' : Option Frame} (h : Option.Rel SamePacket i.packet packet') :
    recvFileStep myip g.atPort l { i with packet := packet' } =
      turnAtPort (recvFileStep myip g l i) := by
  have hprobe' : ethernetProbeForPacket myip g.atPort.tftp packet' = _ :=
    ethernetProbeForPacket_atPort myip g.tftp h
  rcases hprobe : ethernetProbeForPacket myip g.tftp i.packet with ⟨t, out⟩
  rw [hprobe] at hprobe'
  cases l with
  | byte a =>
      have hblock : recvFileBlock
          { g.atPort with tftp := t.atPort, iobuf := i.byte.store g.atPort.iobuf a }
          (a + 1) i.byte.eoi = _ :=
        recvFileBlock_atPort { g with tftp := t, iobuf := i.byte.store g.iobuf a } (a + 1) i.byte.eoi
      simp only [recvFileStep, hprobe, hprobe', probeAtPort]
      refine ite_eq_apply (fun _ => rfl) fun _ => ite_eq_apply (fun _ => rfl) fun _ =>
        ite_eq_apply (fun _ => ?_) fun _ => rfl
      simp only [hblock, turnAtPort, List.map_append]
  | block a eoi =>
      have hblock : recvFileBlock { g.atPort with tftp := t.atPort } a eoi = _ :=
        recvFileBlock_atPort { g with tftp := t } a eoi
      simp only [recvFileStep, hprobe, hprobe', probeAtPort, hblock, turnAtPort, List.map_append]
  | emptyBlock =>
      have hempty : recvFileEmptyBlock { g.atPort with tftp := t.atPort } = _ :=
        recvFileEmptyBlock_atPort { g with tftp := t }
      simp only [recvFileStep, hprobe, hprobe', probeAtPort, hempty, turnAtPort, List.map_append]

end C64Iec.Client

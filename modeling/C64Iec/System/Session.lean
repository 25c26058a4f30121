import C64Iec.Server.PutSession
import C64Iec.Client.Request

set_option autoImplicit false

/-! # One session of the server

The part of the daemon that a transfer meets: it waits for the request, is in the session the
request has started, and is through with it when `packet` returns. `Session.receive_daemon` ties
this to the daemon's own step.
-/

namespace C64Iec

open Lib Server

/-- The daemon as far as one session goes. -/
inductive Session where
  | listening (devices : Nat → Option Device)
  | active (t : Server.Tftp)
  | ended (t : Server.Tftp)

namespace Session

/-- After a turn of `packet`. -/
def after (t : Server.Tftp) : Session := if t.waiting then active t else ended t

/-- What the session has sent. -/
def sent : Session → List (Addr × Bytes)
  | listening _ => []
  | active t => t.sent
  | ended t => t.sent

/-- A datagram arrives. What arrives after the session is not read by it. -/
def receive (s : Session) (sender : Addr) (data : Bytes) : Except RubyError Session :=
  match s with
  | listening devices => do
      let t ← (Server.Tftp.new devices [] sender).dispatch (Daemon.recvfrom data)
      return after t
  | active t => do
      let t ← t.dispatch (Daemon.recvfrom data)
      return after t
  | ended t => .ok (ended t)

/-- Nothing arrives for five seconds. -/
def silence : Session → Session
  | active t => ended t
  | s => s

/-- The daemon a session is part of. -/
def daemon : Session → Daemon
  | listening devices => .idle devices []
  | active t => .session t
  | ended t => .idle t.devices t.sent

theorem daemon_after (t : Server.Tftp) : (after t).daemon = Daemon.ofTftp t := by
  unfold after Daemon.ofTftp
  split <;> rfl

/-- Up to its end a session is the daemon. -/
theorem receive_daemon {s : Session} (hs : ∀ t, s ≠ ended t) (sender : Addr) (data : Bytes) :
    (s.receive sender data).map daemon = s.daemon.step (.datagram sender data) := by
  cases s with
  | listening devices =>
      simp only [receive, daemon, Daemon.step, bind, Except.bind, pure, Except.pure]
      cases (Server.Tftp.new devices [] sender).dispatch (Daemon.recvfrom data) with
      | error e => rfl
      | ok t => exact congrArg Except.ok (daemon_after t)
  | active t =>
      simp only [receive, daemon, Daemon.step, bind, Except.bind, pure, Except.pure]
      cases t.dispatch (Daemon.recvfrom data) with
      | error e => rfl
      | ok t => exact congrArg Except.ok (daemon_after t)
  | ended t => exact absurd rfl (hs t)

theorem silence_daemon (s : Session) : (.ok s.silence.daemon : Except RubyError Daemon)
    = s.daemon.step .silence := by
  cases s <;> rfl

end Session

/-! ## The client's requests, as the server reads them -/

/-- The options of the client's requests. -/
def clientOptions : List (Bytes × Bytes) := [(ascii "blksize", ascii "256")]

theorem requestBytes_eq (opcode : Nat) (name : Bytes) :
    Client.requestBytes opcode name = serialize opcode name (ascii "octet") clientOptions := by
  simp [Client.requestBytes, serialize, Server.Tftp.optionBytes, clientOptions]

theorem clientOptions_ok : OptionsOk clientOptions where
  keyNul := by decide
  valueNul := by decide
  keyNe := by decide
  valueNe := by decide
  keyMode := by decide
  nodup := by decide

theorem recvfrom_requestBytes (opcode : Nat) {name : Bytes} (h : name.length ≤ Client.NAME_LIMIT) :
    Daemon.recvfrom (Client.requestBytes opcode name) = Client.requestBytes opcode name := by
  refine Daemon.recvfrom_of_le ?_
  rw [Client.requestBytes_length]
  have h20 : Client.NAME_LIMIT = 20 := rfl
  omega

theorem recvfrom_packetBytes (opcode number : Nat) {body : Bytes} (h : body.length ≤ 256) :
    Daemon.recvfrom (packetBytes opcode number body) = packetBytes opcode number body := by
  refine Daemon.recvfrom_of_le ?_
  rw [packetBytes_length]
  omega

theorem recvfrom_ack (number : Nat) :
    Daemon.recvfrom (packetBytes TFTP_ACK number []) = packetBytes TFTP_ACK number [] :=
  recvfrom_packetBytes _ _ (Nat.zero_le _)

/-- A number is sent modulo `2^16`. -/
theorem packetBytes_mod (opcode number : Nat) (body : Bytes) :
    packetBytes opcode (number % 65536) body = packetBytes opcode number body := by
  have hhi : UInt8.ofNat (number % 65536 / 256) = UInt8.ofNat (number / 256) := by
    refine UInt8.toNat_inj.mp ?_
    simp only [UInt8.toNat_ofNat']
    omega
  have hlo : UInt8.ofNat (number % 65536) = UInt8.ofNat number := by
    refine UInt8.toNat_inj.mp ?_
    simp only [UInt8.toNat_ofNat']
    omega
  simp only [packetBytes, beBytes, hhi, hlo]

/-! ## A write request to an empty directory -/

namespace Session

def sampleDevices (n : Nat) : Option Device := if n = 8 then some (.dir DeviceDir.empty) else none

def sampleClient : Addr := ⟨[10, 0, 0, 2], 1069⟩

/-- The request for the file `A` on device 8. -/
def sampleRequest : Bytes := serialize TFTP_WRQ (ascii "A") (ascii "octet") clientOptions

theorem recvfrom_sampleRequest : Daemon.recvfrom sampleRequest = sampleRequest :=
  Daemon.recvfrom_of_le (by decide)

/-- It is answered with an OACK. -/
theorem dispatch_sampleRequest : ∃ t nm,
    (Server.Tftp.new sampleDevices [] sampleClient).dispatch sampleRequest = .ok t ∧
      Server.Tftp.Putting 8 (ascii "A") (fun _ => True) DeviceDir.empty.dir nm [] 0 t ∧
      t.client = sampleClient ∧ t.sent = [(sampleClient, Server.Tftp.oackBytes clientOptions)] :=
  Server.Tftp.Putting.start [] sampleClient ⟨rfl, rfl, _, rfl⟩ trivial (by decide) rfl
    clientOptions_ok (by simp [clientOptions])

end Session

end C64Iec

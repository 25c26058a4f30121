import C64Iec.Server.Tftp
import C64Iec.Lib.Runs

set_option autoImplicit false

/-! # What one turn of `packet` can do

Whatever the packet is, its handler sends at most one packet, to the client of the session, and
calls the devices (`dispatch_turn`); which packets are answered is `dispatch_cases`. Everything that holds of a device through its calls holds in
every session (`Daemon.run_devices`).
-/

namespace C64Iec.Server

open Lib

/-- One call of a device. -/
inductive Device.Call : Device → Device → Prop
  | openFile {dev dev' : Device} {filename : Bytes} {mode : Mode} {opened : Bool}
      (h : dev.openFile filename mode = .ok (opened, dev')) : Device.Call dev dev'
  | read {dev dev' : Device} {bytes : Nat} {data : Option Bytes}
      (h : dev.read bytes = .ok (data, dev')) : Device.Call dev dev'
  | write {dev dev' : Device} {data : Option Bytes} (h : dev.write data = .ok dev') :
      Device.Call dev dev'
  | close {dev dev' : Device} (h : dev.close = .ok dev') : Device.Call dev dev'

/-- The devices have been called any number of times. -/
def Called (devices devices' : Nat → Option Device) : Prop :=
  ∀ n dev', devices' n = some dev' → ∃ dev, devices n = some dev ∧ Reachable Device.Call dev dev'

theorem Called.refl (devices : Nat → Option Device) : Called devices devices :=
  fun _ dev' h => ⟨dev', h, .refl⟩

theorem Called.trans {devices devices' devices'' : Nat → Option Device}
    (h : Called devices devices') (h' : Called devices' devices'') : Called devices devices'' := by
  intro n dev'' hn
  obtain ⟨dev', hdev', hreach'⟩ := h' n dev'' hn
  obtain ⟨dev, hdev, hreach⟩ := h n dev' hdev'
  exact ⟨dev, hdev, hreach.trans hreach'⟩

theorem Called.update {devices : Nat → Option Device} {n : Nat} {dev dev' : Device}
    (hdev : devices n = some dev) (hcall : Device.Call dev dev') :
    Called devices (Function.update devices n (some dev')) := by
  intro m dev'' hm
  by_cases hmn : m = n
  · subst hmn
    rw [Function.update_self] at hm
    obtain rfl := Option.some.inj hm
    exact ⟨dev, hdev, .single hcall⟩
  · rw [Function.update_of_ne hmn] at hm
    exact ⟨dev'', hm, .refl⟩

namespace Tftp

variable {t t' t'' : Tftp} {data : Bytes}

/-- The devices have been called and nothing has been sent. -/
structure Quiet (t t' : Tftp) : Prop where
  client : t'.client = t.client
  sent : t'.sent = t.sent
  devices : Called t.devices t'.devices

/-- The devices have been called and at most one packet has been sent, to the client. -/
structure Turn (t t' : Tftp) : Prop where
  client : t'.client = t.client
  sent : t'.sent = t.sent ∨ ∃ msg, t'.sent = t.sent ++ [(t.client, msg)]
  devices : Called t.devices t'.devices

/-- The devices have been called and one packet has been sent, to the client. -/
structure Answered (t t' : Tftp) : Prop where
  client : t'.client = t.client
  sent : ∃ msg, t'.sent = t.sent ++ [(t.client, msg)]
  devices : Called t.devices t'.devices

theorem Quiet.turn (h : Quiet t t') : Turn t t' := ⟨h.client, Or.inl h.sent, h.devices⟩

theorem Answered.turn (h : Answered t t') : Turn t t' := ⟨h.client, Or.inr h.sent, h.devices⟩

theorem Answered.sent_ne (h : Answered t t') : t'.sent ≠ t.sent := by
  obtain ⟨msg, hsent⟩ := h.sent
  rw [hsent]
  simp

theorem Quiet.of_eq (hclient : t'.client = t.client) (hsent : t'.sent = t.sent)
    (hdevices : t'.devices = t.devices) : Quiet t t' :=
  ⟨hclient, hsent, by rw [hdevices]; exact .refl _⟩

theorem Quiet.answered (h : Quiet t t') (h' : Answered t' t'') : Answered t t'' where
  client := h'.client.trans h.client
  sent := by
    rw [← h.sent, ← h.client]
    exact h'.sent
  devices := h.devices.trans h'.devices

theorem Answered.quiet (h : Answered t t') (h' : Quiet t' t'') : Answered t t'' where
  client := h'.client.trans h.client
  sent := by
    rw [h'.sent]
    exact h.sent
  devices := h.devices.trans h'.devices

/-- A packet is sent. -/
theorem answered_of_send {msg : Bytes} (hclient : t'.client = t.client)
    (hsent : t'.sent = t.sent ++ [(t.client, msg)]) (hdevices : t'.devices = t.devices) :
    Answered t t' :=
  ⟨hclient, ⟨msg, hsent⟩, by rw [hdevices]; exact .refl _⟩

/-- A device is called. -/
theorem quiet_setDevice {n : Nat} {dev dev' : Device} (hdev : t.devices n = some dev)
    (hcall : Device.Call dev dev') : Quiet t (t.setDevice n dev') :=
  ⟨rfl, rfl, .update hdev hcall⟩

theorem theDevice_eq_ok {n : Nat} {dev : Device} :
    t.theDevice = .ok (n, dev) ↔ t.device = some n ∧ t.devices n = some dev := by
  unfold theDevice
  cases t.device with
  | none => simp
  | some m =>
      cases hdev : t.devices m with
      | none =>
          simp only [hdev, reduceCtorEq, Option.some.injEq, false_iff, not_and]
          rintro rfl h
          cases hdev.symm.trans h
      | some dev' =>
          simp only [hdev, Except.ok.injEq, Prod.mk.injEq, Option.some.injEq]
          constructor
          · rintro ⟨rfl, rfl⟩
            exact ⟨rfl, hdev⟩
          · rintro ⟨rfl, h⟩
            exact ⟨rfl, Option.some.inj (hdev.symm.trans h)⟩

/-! ## The handlers -/

theorem sendData_answered {sendEmpty : Bool} (h : t.sendData sendEmpty = .ok t') : Answered t t' := by
  unfold sendData at h
  cases sendEmpty with
  | true =>
      cases h
      exact answered_of_send rfl rfl rfl
  | false =>
      obtain ⟨⟨n, dev⟩, hthe, h⟩ := bind_eq_ok.mp h
      obtain ⟨⟨body, dev'⟩, hread, h⟩ := bind_eq_ok.mp h
      have hdev := (theDevice_eq_ok.mp hthe).2
      have hquiet : Quiet t (t.setDevice n dev') := quiet_setDevice hdev (.read hread)
      refine hquiet.answered ?_
      cases body with
      | none =>
          cases h
          exact answered_of_send rfl rfl rfl
      | some body =>
          dsimp only at h
          split at h
          · cases h
            exact answered_of_send rfl rfl rfl
          · obtain ⟨eof, -, h⟩ := bind_eq_ok.mp h
            split at h
            · cases h
              exact answered_of_send rfl rfl rfl
            · cases h
              exact answered_of_send rfl rfl rfl

theorem sendErr_answered (t : Tftp) (code : Nat) (msg : Bytes) : Answered t (t.sendErr code msg) :=
  answered_of_send rfl rfl rfl

theorem sendOack_answered (t : Tftp) (status : Status) : Answered t (t.sendOack status) :=
  answered_of_send rfl rfl rfl

theorem sendAck_answered (t : Tftp) : Answered t t.sendAck := answered_of_send rfl rfl rfl

theorem parseRequest_quiet (h : t.parseRequest data = .ok t') : Quiet t t' := by
  obtain ⟨filename, -, h⟩ := bind_eq_ok.mp h
  obtain ⟨filename, -, h⟩ := bind_eq_ok.mp h
  obtain ⟨t₁, ht₁, h⟩ := bind_eq_ok.mp h
  obtain ⟨r, -, ht₁⟩ := bind_eq_ok.mp ht₁
  cases ht₁
  cases h
  exact .of_eq rfl rfl rfl

theorem packetRrq_answered (h : t.packetRrq data = .ok t') : Answered t t' := by
  obtain ⟨t₁, ht₁, h⟩ := bind_eq_ok.mp h
  refine (parseRequest_quiet ht₁).answered ?_
  cases hdev : t₁.devices t₁.deviceNum with
  | none =>
      rw [hdev] at h
      cases h
      exact sendErr_answered _ _ _
  | some dev =>
      rw [hdev] at h
      obtain ⟨⟨opened, dev'⟩, hopen, h⟩ := bind_eq_ok.mp h
      refine (quiet_setDevice hdev (.openFile hopen)).answered ?_
      dsimp only at h
      split at h
      · cases h
        exact sendErr_answered _ _ _
      · split at h
        · exact sendData_answered h
        · cases h
          exact sendOack_answered _ _

theorem packetWrq_answered (h : t.packetWrq data = .ok t') : Answered t t' := by
  obtain ⟨t₁, ht₁, h⟩ := bind_eq_ok.mp h
  refine (parseRequest_quiet ht₁).answered ?_
  cases hdev : t₁.devices t₁.deviceNum with
  | none =>
      rw [hdev] at h
      cases h
      exact sendErr_answered _ _ _
  | some dev =>
      rw [hdev] at h
      dsimp only at h
      split at h
      · cases h
        exact sendErr_answered _ _ _
      · obtain ⟨⟨opened, dev'⟩, hopen, h⟩ := bind_eq_ok.mp h
        refine (quiet_setDevice hdev (.openFile hopen)).answered ?_
        dsimp only at h
        split at h
        · cases h
          exact sendErr_answered _ _ _
        · split at h
          · cases h
            exact sendAck_answered _
          · cases h
            exact sendOack_answered _ _

/-- The acknowledgement of the last packet is not answered, any other is. -/
theorem packetAck_cases (h : t.packetAck data = .ok t') :
    t.lastPacket = true ∧ Quiet t t' ∨ t.lastPacket = false ∧ Answered t t' := by
  obtain ⟨blocknum, -, h⟩ := bind_eq_ok.mp h
  split at h
  · rename_i hlast
    obtain ⟨⟨n, dev⟩, hthe, h⟩ := bind_eq_ok.mp h
    obtain ⟨dev', hclose, h⟩ := bind_eq_ok.mp h
    cases h
    have hquiet := quiet_setDevice (theDevice_eq_ok.mp hthe).2 (.close hclose)
    exact Or.inl ⟨hlast, hquiet.client, hquiet.sent, hquiet.devices⟩
  · rename_i hlast
    cases blocknum with
    | none => cases h
    | some b =>
        have hanswered := sendData_answered h
        exact Or.inr ⟨Bool.not_eq_true _ ▸ hlast, hanswered.client, hanswered.sent,
          hanswered.devices⟩

theorem packetData_answered (h : t.packetData data = .ok t') : Answered t t' := by
  obtain ⟨blocknum, -, h⟩ := bind_eq_ok.mp h
  obtain ⟨⟨n, dev⟩, hthe, h⟩ := bind_eq_ok.mp h
  obtain ⟨dev', hwrite, h⟩ := bind_eq_ok.mp h
  refine (quiet_setDevice (theDevice_eq_ok.mp hthe).2 (.write hwrite)).answered ?_
  cases blocknum with
  | none => cases h
  | some b =>
      have hsend := sendAck_answered { t.setDevice n dev' with blocknum := b }
      dsimp only at h
      split at h
      · obtain ⟨dev'', hclose, h⟩ := bind_eq_ok.mp h
        cases h
        have hdev' : (sendAck { t.setDevice n dev' with blocknum := b }).devices n = some dev' :=
          Function.update_self ..
        have hclosed := hsend.quiet (quiet_setDevice hdev' (.close hclose))
        exact ⟨hclosed.client, hclosed.sent, hclosed.devices⟩
      · cases h
        exact ⟨hsend.client, hsend.sent, hsend.devices⟩

theorem packetErr_quiet (h : t.packetErr data = .ok t') : Quiet t t' := by
  obtain ⟨code, -, h⟩ := bind_eq_ok.mp h
  obtain ⟨msg, -, h⟩ := bind_eq_ok.mp h
  cases h
  exact .of_eq rfl rfl rfl

/-- The packets that are answered: requests, DATA, and the acknowledgements before the last one. -/
def Answers (t : Tftp) (opcode : Nat) : Prop :=
  opcode = 1 ∨ opcode = 2 ∨ opcode = 3 ∨ opcode = 4 ∧ t.lastPacket = false

/-- **One turn of `packet`** answers the packet or sends nothing. -/
theorem dispatch_cases (h : t.dispatch data = .ok t') : ∃ opcode, uint16 data 0 = .ok (some opcode) ∧
    (t.Answers opcode ∧ Answered t t' ∨ ¬t.Answers opcode ∧ Quiet t t') := by
  obtain ⟨type, htype, h⟩ := bind_eq_ok.mp h
  have hready : ∀ {t' : Tftp}, Answered { t with status := .ready } t' → Answered t t' :=
    fun h => ⟨h.client, h.sent, h.devices⟩
  have hquiet : ∀ {t' : Tftp}, Quiet { t with status := .ready } t' → Quiet t t' :=
    fun h => ⟨h.client, h.sent, h.devices⟩
  split at h
  · cases h
  · exact ⟨1, htype, Or.inl ⟨Or.inl rfl, hready (packetRrq_answered h)⟩⟩
  · exact ⟨2, htype, Or.inl ⟨Or.inr (Or.inl rfl), hready (packetWrq_answered h)⟩⟩
  · exact ⟨3, htype, Or.inl ⟨Or.inr (Or.inr (Or.inl rfl)), hready (packetData_answered h)⟩⟩
  · refine ⟨4, htype, ?_⟩
    rcases packetAck_cases h with ⟨hlast, hq⟩ | ⟨hlast, ha⟩
    · have hlast' : t.lastPacket = true := hlast
      exact Or.inr ⟨by simp [Answers, hlast'], hquiet hq⟩
    · exact Or.inl ⟨Or.inr (Or.inr (Or.inr ⟨rfl, hlast⟩)), hready ha⟩
  · exact ⟨5, htype, Or.inr ⟨by simp [Answers], hquiet (packetErr_quiet h)⟩⟩
  · cases h
  · rename_i opcode h1 h2 h3 h4 h5 h6
    cases h
    refine ⟨opcode, htype, Or.inr ⟨?_, hquiet (.of_eq rfl rfl rfl)⟩⟩
    rintro (h | h | h | ⟨h, -⟩)
    · exact h1 h
    · exact h2 h
    · exact h3 h
    · exact h4 h

/-- One turn sends at most one packet, to the client. -/
theorem dispatch_turn (h : t.dispatch data = .ok t') : Turn t t' := by
  obtain ⟨opcode, -, ⟨-, ha⟩ | ⟨-, hq⟩⟩ := dispatch_cases h
  · exact ha.turn
  · exact hq.turn

end Tftp

/-! ## The daemon -/

namespace Daemon

/-- The daemon's devices. -/
def devices : Daemon → Nat → Option Device
  | idle devices _ => devices
  | session t => t.devices

/-- What the daemon has sent. -/
def sent : Daemon → List (Addr × Bytes)
  | idle _ sent => sent
  | session t => t.sent

/-- The client of the session that `e` meets, or starts. -/
def clientAt (d : Daemon) (e : Event) : Option Addr :=
  match d, e with
  | session t, _ => some t.client
  | idle .., .datagram sender _ => some sender
  | idle .., .silence => none

@[simp] theorem devices_ofTftp (t : Tftp) : (ofTftp t).devices = t.devices := by
  unfold ofTftp
  split <;> rfl

@[simp] theorem sent_ofTftp (t : Tftp) : (ofTftp t).sent = t.sent := by
  unfold ofTftp
  split <;> rfl

/-- **One event** makes the daemon call its devices and send at most one packet, to the client. -/
theorem step_turn {d d' : Daemon} {e : Event} (h : d.step e = .ok d') :
    Called d.devices d'.devices ∧
      (d'.sent = d.sent ∨ ∃ client msg, d.clientAt e = some client ∧
        d'.sent = d.sent ++ [(client, msg)]) := by
  cases d with
  | idle devices sent =>
      cases e with
      | datagram sender data =>
          obtain ⟨t, ht, h⟩ := bind_eq_ok.mp h
          cases h
          have hturn := Tftp.dispatch_turn ht
          refine ⟨by rw [devices_ofTftp]; exact hturn.devices, ?_⟩
          rw [sent_ofTftp]
          rcases hturn.sent with hs | ⟨msg, hs⟩
          · exact Or.inl hs
          · exact Or.inr ⟨sender, msg, rfl, hs⟩
      | silence =>
          cases h
          exact ⟨.refl _, Or.inl rfl⟩
  | session t =>
      cases e with
      | datagram sender data =>
          obtain ⟨t', ht, h⟩ := bind_eq_ok.mp h
          cases h
          have hturn := Tftp.dispatch_turn ht
          refine ⟨by rw [devices_ofTftp]; exact hturn.devices, ?_⟩
          rw [sent_ofTftp]
          rcases hturn.sent with hs | ⟨msg, hs⟩
          · exact Or.inl hs
          · exact Or.inr ⟨t.client, msg, rfl, hs⟩
      | silence =>
          cases h
          exact ⟨.refl _, Or.inl rfl⟩

/-- A property of devices that their calls keep is kept by the daemon. -/
theorem step_devices {P : Device → Prop} (hcall : ∀ dev dev', P dev → Device.Call dev dev' → P dev')
    {d d' : Daemon} {e : Event} (h : d.step e = .ok d')
    (hP : ∀ n dev, d.devices n = some dev → P dev) :
    ∀ n dev, d'.devices n = some dev → P dev := by
  intro n dev' hdev'
  obtain ⟨dev, hdev, hreach⟩ := (step_turn h).1 n dev' hdev'
  exact reachable_invariant (hP n dev hdev) hcall hreach

end Daemon

end C64Iec.Server

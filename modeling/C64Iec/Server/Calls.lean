import C64Iec.Server.OptionList
import C64Iec.Server.Turn

set_option autoImplicit false

/-! # The calls a datagram leads to

`Turn` says that a turn of `packet` calls the devices; here it is said which calls, and of which
device: those that the opcode, the name and the payload of the datagram stand for (`Causes`). Over
a whole run of the daemon a device sees the calls its datagrams cause, in their order
(`Daemon.run_performs`), so that what all those calls keep is kept (`Daemon.run_invariant`).
-/

namespace C64Iec.Server

open Lib

/-! ## Calls -/

namespace Device

inductive Op where
  | openFile (filename : Bytes) (mode : Mode)
  | read (bytes : Nat)
  | write (data : Option Bytes)
  | close

/-- The device after a call that raises nothing. -/
def perform (dev : Device) : Op → Except RubyError Device
  | .openFile filename mode => do
      let (_, dev) ← dev.openFile filename mode
      return dev
  | .read bytes => do
      let (_, dev) ← dev.read bytes
      return dev
  | .write data => dev.write data
  | .close => dev.close

def performs (dev : Device) (ops : List Op) : Except RubyError Device := ops.foldlM perform dev

variable {dev dev' dev'' : Device} {op : Op} {ops ops' : List Op}

theorem performs_cons : dev.performs (op :: ops) = .ok dev' ↔
    ∃ dev₁, dev.perform op = .ok dev₁ ∧ dev₁.performs ops = .ok dev' := by
  rw [performs, List.foldlM_cons]
  exact bind_eq_ok

theorem performs_append (h : dev.performs ops = .ok dev') (h' : dev'.performs ops' = .ok dev'') :
    dev.performs (ops ++ ops') = .ok dev'' := by
  rw [performs, List.foldlM_append]
  exact bind_eq_ok.mpr ⟨dev', h, h'⟩

theorem performs_singleton (h : dev.perform op = .ok dev') : dev.performs [op] = .ok dev' :=
  performs_cons.mpr ⟨dev', h, rfl⟩

/-- What each call keeps is kept by a sequence of calls. -/
theorem performs_invariant {I : Device → Prop} : ∀ {ops : List Op} {dev dev' : Device},
    (∀ op ∈ ops, ∀ dev dev', I dev → dev.perform op = .ok dev' → I dev') → I dev →
      dev.performs ops = .ok dev' → I dev'
  | [], _, _, _, hI, h => by
      obtain rfl := Except.ok.inj h
      exact hI
  | op :: ops, dev, dev', hstep, hI, h => by
      obtain ⟨dev₁, hop, hops⟩ := performs_cons.mp h
      exact performs_invariant (fun op hop => hstep op (List.mem_cons_of_mem _ hop))
        (hstep op List.mem_cons_self dev dev₁ hI hop) hops

theorem perform_openFile {filename : Bytes} {mode : Mode} {opened : Bool}
    (h : dev.openFile filename mode = .ok (opened, dev')) :
    dev.perform (.openFile filename mode) = .ok dev' := by
  simp only [perform, h, bind, Except.bind, pure, Except.pure]

theorem perform_read {bytes : Nat} {data : Option Bytes}
    (h : dev.read bytes = .ok (data, dev')) : dev.perform (.read bytes) = .ok dev' := by
  simp only [perform, h, bind, Except.bind, pure, Except.pure]

end Device

/-! ## What a datagram asks for -/

/-- The opcode of a datagram. -/
def opcode (data : Bytes) : Nat := be16 (data.getD 0 0) (data.getD 1 0)

/-- The number of the device a request is for, and the name on it. -/
def requestDevice (data : Bytes) : Nat := (splitDevice (requestName data)).1

def requestFile (data : Bytes) : Bytes := (splitDevice (requestName data)).2

/-- The calls of device `n` that a datagram can lead to. -/
inductive Causes (data : Bytes) (n : Nat) : Device.Op → Prop
  | rrq (hop : opcode data = TFTP_RRQ) (hn : requestDevice data = n) :
      Causes data n (.openFile (requestFile data) .read)
  | wrq (hop : opcode data = TFTP_WRQ) (hn : requestDevice data = n) :
      Causes data n (.openFile (requestFile data) .write)
  | data (hop : opcode data = TFTP_DATA) : Causes data n (.write (Tftp.payload data))
  | read (hop : opcode data = TFTP_RRQ ∨ opcode data = TFTP_ACK) : Causes data n (.read BLKSIZE)
  | close (hop : opcode data = TFTP_DATA ∨ opcode data = TFTP_ACK) : Causes data n .close

/-- One device has been called, as `C` allows it, or none. -/
inductive Performed (C : Nat → Device.Op → Prop) (devices : Nat → Option Device) :
    (Nat → Option Device) → Prop
  | none : Performed C devices devices
  | calls {n : Nat} {dev dev' : Device} {ops : List Device.Op} (hdev : devices n = some dev)
      (hC : ∀ op ∈ ops, C n op) (hops : dev.performs ops = .ok dev') :
      Performed C devices (Function.update devices n (some dev'))

namespace Performed

variable {C : Nat → Device.Op → Prop} {devices devices' : Nat → Option Device} {n : Nat}
  {dev dev' dev'' : Device} {op : Device.Op}

theorem single (hdev : devices n = some dev) (hC : C n op) (hop : dev.perform op = .ok dev') :
    Performed C devices (Function.update devices n (some dev')) :=
  .calls hdev (fun _ hmem => List.mem_singleton.mp hmem ▸ hC) (Device.performs_singleton hop)

/-- Two calls of one device. -/
theorem pair {op' : Device.Op} (hdev : devices n = some dev) (hC : C n op) (hC' : C n op')
    (hop : dev.perform op = .ok dev') (hop' : dev'.perform op' = .ok dev'') :
    Performed C devices (Function.update devices n (some dev'')) := by
  have hall : ∀ o ∈ [op, op'], C n o := by
    intro o ho
    rcases List.mem_pair.mp ho with rfl | rfl
    · exact hC
    · exact hC'
  exact .calls hdev hall (Device.performs_cons.mpr ⟨dev', hop, Device.performs_singleton hop'⟩)

/-- A device after the calls of it. -/
theorem device (h : Performed C devices devices') (hdev : devices n = some dev) :
    ∃ ops dev', devices' n = some dev' ∧ (∀ op ∈ ops, C n op) ∧ dev.performs ops = .ok dev' := by
  cases h with
  | none => exact ⟨[], dev, hdev, by simp, rfl⟩
  | calls hdev' hC hops =>
      rename_i m dev₁ dev₁' ops
      by_cases hm : n = m
      · subst hm
        obtain rfl := Option.some.inj (hdev.symm.trans hdev')
        exact ⟨ops, dev₁', Function.update_self .., hC, hops⟩
      · refine ⟨[], dev, ?_, by simp, rfl⟩
        rw [Function.update_of_ne hm, hdev]

end Performed

/-! ## The handlers -/

namespace Tftp

variable {t t' p : Tftp} {data : Bytes}

/-- `send_data` reads from the session's device, unless it sends an empty packet. -/
theorem sendData_devices {sendEmpty : Bool} (h : t.sendData sendEmpty = .ok t') :
    t'.devices = t.devices ∨ ∃ n dev dev', t.device = some n ∧ t.devices n = some dev ∧
      dev.perform (.read BLKSIZE) = .ok dev' ∧
      t'.devices = Function.update t.devices n (some dev') := by
  unfold sendData at h
  cases sendEmpty with
  | true =>
      cases h
      exact Or.inl rfl
  | false =>
      obtain ⟨⟨n, dev⟩, hthe, h⟩ := bind_eq_ok.mp h
      obtain ⟨⟨body, dev'⟩, hread, h⟩ := bind_eq_ok.mp h
      obtain ⟨hdevice, hdev⟩ := theDevice_eq_ok.mp hthe
      refine Or.inr ⟨n, dev, dev', hdevice, hdev, Device.perform_read hread, ?_⟩
      cases body with
      | none =>
          cases h
          rfl
      | some body =>
          dsimp only at h
          split at h
          · cases h
            rfl
          · obtain ⟨eof, -, h⟩ := bind_eq_ok.mp h
            split at h <;> cases h <;> rfl

/-- What is known of a request that has been parsed. -/
theorem parseRequest_eq_ok (h : t.parseRequest data = .ok p) :
    p.devices = t.devices ∧ p.deviceNum = requestDevice data ∧ p.filename = requestFile data ∧
      p.device = if (t.devices p.deviceNum).isSome then some p.deviceNum else none := by
  rcases parseRequest_cases t data with ⟨pairs, mode, -, hparse⟩ | ⟨-, hparse⟩
  · obtain rfl := Except.ok.inj (hparse.symm.trans h)
    exact ⟨rfl, rfl, rfl, rfl⟩
  · cases hparse.symm.trans h

theorem packetRrq_performed (hop : opcode data = TFTP_RRQ) (h : t.packetRrq data = .ok t') :
    Performed (Causes data) t.devices t'.devices := by
  obtain ⟨p, hparse, h⟩ := bind_eq_ok.mp h
  obtain ⟨hdevices, hnum, hfile, hdevice⟩ := parseRequest_eq_ok hparse
  rw [← hdevices] at hdevice ⊢
  cases hdev : p.devices p.deviceNum with
  | none =>
      rw [hdev] at h
      cases h
      exact .none
  | some dev =>
      rw [hdev] at h
      obtain ⟨⟨opened, dev'⟩, hopen, h⟩ := bind_eq_ok.mp h
      have hperform := Device.perform_openFile hopen
      have hcause : Causes data p.deviceNum (.openFile p.filename .read) := by
        rw [hfile]
        exact .rrq hop hnum.symm
      dsimp only at h
      split at h
      · cases h
        exact .single hdev hcause hperform
      · split at h
        · -- the first block is read from the device that has just been opened
          rcases sendData_devices h with heq | ⟨n, dev₁, dev'', hn, hdev₁, hread, heq⟩
          · rw [heq]
            exact .single hdev hcause hperform
          · have hnum' : n = p.deviceNum := by
              have hn' : p.device = some n := hn
              rw [hdevice, hdev] at hn'
              exact (Option.some.inj hn').symm
            subst hnum'
            have hself : (p.setDevice p.deviceNum dev').devices p.deviceNum = some dev' :=
              Function.update_self ..
            obtain rfl := Option.some.inj (hself.symm.trans hdev₁)
            rw [heq]
            simp only [setDevice, Function.update_idem]
            exact .pair hdev hcause (.read (Or.inl hop)) hperform hread
        · cases h
          exact .single hdev hcause hperform

theorem packetWrq_performed (hop : opcode data = TFTP_WRQ) (h : t.packetWrq data = .ok t') :
    Performed (Causes data) t.devices t'.devices := by
  obtain ⟨p, hparse, h⟩ := bind_eq_ok.mp h
  obtain ⟨hdevices, hnum, hfile, -⟩ := parseRequest_eq_ok hparse
  rw [← hdevices]
  cases hdev : p.devices p.deviceNum with
  | none =>
      rw [hdev] at h
      cases h
      exact .none
  | some dev =>
      rw [hdev] at h
      dsimp only at h
      split at h
      · cases h
        exact .none
      · obtain ⟨⟨opened, dev'⟩, hopen, h⟩ := bind_eq_ok.mp h
        have hcause : Causes data p.deviceNum (.openFile p.filename .write) := by
          rw [hfile]
          exact .wrq hop hnum.symm
        have hsingle := Performed.single hdev hcause (Device.perform_openFile hopen)
        dsimp only at h
        split at h
        · cases h
          exact hsingle
        · split at h
          · cases h
            exact hsingle
          · cases h
            exact hsingle

theorem packetAck_performed (hop : opcode data = TFTP_ACK) (h : t.packetAck data = .ok t') :
    Performed (Causes data) t.devices t'.devices := by
  obtain ⟨blocknum, -, h⟩ := bind_eq_ok.mp h
  split at h
  · obtain ⟨⟨n, dev⟩, hthe, h⟩ := bind_eq_ok.mp h
    obtain ⟨dev', hclose, h⟩ := bind_eq_ok.mp h
    cases h
    exact .single (theDevice_eq_ok.mp hthe).2 (.close (Or.inr hop)) hclose
  · cases blocknum with
    | none => cases h
    | some b =>
        rcases sendData_devices h with heq | ⟨n, dev, dev', -, hdev, hread, heq⟩
        · rw [heq]
          exact .none
        · rw [heq]
          exact .single hdev (.read (Or.inr hop)) hread

/-- DATA is written, and the file closed behind a packet shorter than a block. -/
theorem packetData_eq_ok (h : t.packetData data = .ok t') :
    ∃ n dev dev', t.device = some n ∧ t.devices n = some dev ∧
      dev.perform (.write (payload data)) = .ok dev' ∧
      (t'.devices = Function.update t.devices n (some dev') ∨
        ∃ dev'', data.length < BLKSIZE ∧ dev'.perform .close = .ok dev'' ∧
          t'.devices = Function.update t.devices n (some dev'')) := by
  obtain ⟨blocknum, -, h⟩ := bind_eq_ok.mp h
  obtain ⟨⟨n, dev⟩, hthe, h⟩ := bind_eq_ok.mp h
  obtain ⟨dev', hwrite, h⟩ := bind_eq_ok.mp h
  obtain ⟨hdevice, hdev⟩ := theDevice_eq_ok.mp hthe
  refine ⟨n, dev, dev', hdevice, hdev, hwrite, ?_⟩
  cases blocknum with
  | none => cases h
  | some b =>
      dsimp only at h
      split at h
      · rename_i hshort
        obtain ⟨dev'', hclose, h⟩ := bind_eq_ok.mp h
        cases h
        refine Or.inr ⟨dev'', hshort, hclose, ?_⟩
        simp only [setDevice, sendAck, send, Function.update_idem]
      · cases h
        exact Or.inl rfl

theorem packetData_performed (hop : opcode data = TFTP_DATA) (h : t.packetData data = .ok t') :
    Performed (Causes data) t.devices t'.devices := by
  obtain ⟨n, dev, dev', -, hdev, hwrite, heq | ⟨dev'', -, hclose, heq⟩⟩ := packetData_eq_ok h
  · rw [heq]
    exact .single hdev (.data hop) hwrite
  · rw [heq]
    exact .pair hdev (.data hop) (.close (Or.inl hop)) hwrite hclose

theorem packetErr_devices (h : t.packetErr data = .ok t') : t'.devices = t.devices := by
  obtain ⟨code, -, h⟩ := bind_eq_ok.mp h
  obtain ⟨msg, -, h⟩ := bind_eq_ok.mp h
  cases h
  rfl

/-- The opcode that `packet` dispatches on. -/
theorem opcode_of_uint16 {k : Nat} (h : uint16 data 0 = .ok (some k)) : opcode data = k := by
  rcases data with - | ⟨a, - | ⟨b, rest⟩⟩
  · cases h
  · cases h
  · exact Option.some.inj (Except.ok.inj h)

/-- **The calls of a turn** are those the datagram stands for, all of one device. -/
theorem dispatch_performed (h : t.dispatch data = .ok t') :
    Performed (Causes data) t.devices t'.devices := by
  obtain ⟨type, htype, h⟩ := bind_eq_ok.mp h
  split at h
  · cases h
  · exact packetRrq_performed (t := { t with status := .ready }) (opcode_of_uint16 htype) h
  · exact packetWrq_performed (t := { t with status := .ready }) (opcode_of_uint16 htype) h
  · exact packetData_performed (t := { t with status := .ready }) (opcode_of_uint16 htype) h
  · exact packetAck_performed (t := { t with status := .ready }) (opcode_of_uint16 htype) h
  · rw [packetErr_devices (t := { t with status := .ready }) h]
    exact .none
  · cases h
  · cases h
    exact .none

end Tftp

/-! ## Runs of the daemon -/

namespace Daemon

/-- The calls of device `n` that an event can lead to. -/
def Event.Causes (n : Nat) (op : Device.Op) : Event → Prop
  | .datagram _ data => Server.Causes (recvfrom data) n op
  | .silence => False

theorem step_performed {d d' : Daemon} {e : Event} (h : d.step e = .ok d') :
    Performed (fun n op => e.Causes n op) d.devices d'.devices := by
  cases d with
  | idle devices sent =>
      cases e with
      | datagram sender data =>
          obtain ⟨t, ht, h⟩ := bind_eq_ok.mp h
          cases h
          rw [devices_ofTftp]
          exact Tftp.dispatch_performed ht
      | silence =>
          cases h
          exact .none
  | session t =>
      cases e with
      | datagram sender data =>
          obtain ⟨t', ht, h⟩ := bind_eq_ok.mp h
          cases h
          rw [devices_ofTftp]
          exact Tftp.dispatch_performed ht
      | silence =>
          cases h
          exact .none

/-- **A device sees the calls its datagrams cause**, those of each event together and in the order
of the events. -/
theorem run_performs {n : Nat} : ∀ {es : List Event} {d d' : Daemon} {dev : Device},
    d.run es = .ok d' → d.devices n = some dev →
      ∃ opss dev', List.Forall₂ (fun e ops => ∀ op ∈ ops, Event.Causes n op e) es opss ∧
        d'.devices n = some dev' ∧ dev.performs opss.flatten = .ok dev'
  | [], d, d', dev, h, hdev => by
      obtain rfl := Except.ok.inj h
      exact ⟨[], dev, .nil, hdev, rfl⟩
  | e :: es, d, d', dev, h, hdev => by
      obtain ⟨d₁, hstep, h⟩ := bind_eq_ok.mp h
      obtain ⟨ops, dev₁, hdev₁, hcauses, hops⟩ := (step_performed hstep).device hdev
      obtain ⟨opss, dev', hall, hdev', hrest⟩ := run_performs h hdev₁
      exact ⟨ops :: opss, dev', .cons hcauses hall, hdev', Device.performs_append hops hrest⟩

/-- **The invariant rule** for a device of the daemon. -/
theorem run_invariant {n : Nat} {I : Device → Prop} : ∀ {es : List Event} {d d' : Daemon}
    {dev : Device},
    (∀ e ∈ es, ∀ op, e.Causes n op → ∀ dev dev', I dev → dev.perform op = .ok dev' → I dev') →
      d.run es = .ok d' → d.devices n = some dev → I dev → ∃ dev', d'.devices n = some dev' ∧ I dev'
  | [], d, d', dev, _, h, hdev, hI => by
      obtain rfl := Except.ok.inj h
      exact ⟨dev, hdev, hI⟩
  | e :: es, d, d', dev, hkeeps, h, hdev, hI => by
      obtain ⟨d₁, hstep, h⟩ := bind_eq_ok.mp h
      obtain ⟨ops, dev₁, hdev₁, hcauses, hops⟩ := (step_performed hstep).device hdev
      have hI₁ : I dev₁ := Device.performs_invariant
        (fun op hop => hkeeps e List.mem_cons_self op (hcauses op hop)) hI hops
      exact run_invariant (fun e he => hkeeps e (List.mem_cons_of_mem _ he)) h hdev₁ hI₁

end Daemon

end C64Iec.Server

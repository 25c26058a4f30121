import C64Iec.Server.Host
import C64Iec.System.Session

set_option autoImplicit false

/-! # Which datagrams the daemon survives

Nothing rescues what a handler raises: one datagram that is not handled ends the daemon. It
survives a run exactly when every datagram is one its state can handle on its host
(`survives_iff_allHandled`).
-/

namespace C64Iec.Server.Daemon

open Lib Session

variable {host : Host}

/-- Each event of a run is one the daemon can deal with in the state it meets. -/
def AllHandled (host : Host) : Daemon → List Event → Prop
  | _, [] => True
  | d, e :: es => d.HandlesOn host e ∧ ∀ d', d.stepOn host e = .ok d' → AllHandled host d' es

/-- The event has been dealt with: nothing has been raised, at most one packet has been sent, and
silence brings the daemon to the next session. -/
structure DealtWith (host : Host) (d : Daemon) (e : Event) (d' : Daemon) : Prop where
  step : d.stepOn host e = .ok d'
  answer : d'.sent = d.sent ∨ ∃ client msg, d.clientAt e = some client ∧
    d'.sent = d.sent ++ [(client, msg)]
  next : ∃ devices sent, d'.stepOn host .silence = .ok (idle devices sent)

/-- The daemon survives a run. -/
def Survives (host : Host) : Daemon → List Event → Prop
  | _, [] => True
  | d, e :: es => ∃ d', DealtWith host d e d' ∧ Survives host d' es

/-- What a step makes of an event, it has dealt with. -/
theorem dealtWith_of_stepOn {d d' : Daemon} {e : Event} (h : d.stepOn host e = .ok d') :
    DealtWith host d e d' where
  step := h
  answer := (step_turn (step_of_stepOn h)).2
  next := by
    cases d' with
    | idle devices sent => exact ⟨devices, sent, rfl⟩
    | session t => exact ⟨t.devices, t.sent, rfl⟩

/-- The induction is on the run; the invariant is that files that are appended to are listed. -/
theorem Listed.survives_iff_run : ∀ (es : List Event) {d : Daemon}, d.Listed →
    (d.Survives host es ↔ d.AllHandled host es)
  | [], _, _ => Iff.rfl
  | e :: es, d, hd => by
      rw [Survives, AllHandled, ← stepOn_ok_iff hd]
      constructor
      · rintro ⟨d', hdealt, hrest⟩
        refine ⟨⟨d', hdealt.step⟩, fun d'' h => ?_⟩
        obtain rfl := Except.ok.inj (hdealt.step.symm.trans h)
        exact (survives_iff_run es (hd.step (step_of_stepOn h))).mp hrest
      · rintro ⟨⟨d', h⟩, hrest⟩
        have hstep := step_of_stepOn h
        exact ⟨d', dealtWith_of_stepOn h, (survives_iff_run es (hd.step hstep)).mpr (hrest d' h)⟩

/-- The devices as the daemon has created them on this host: none has a file open, and where there
is no directory nothing is listed. -/
structure Created (host : Host) (devices : Nat → Option Device) : Prop where
  fresh : ∀ n dev, devices n = some dev → dev.file = .unset
  missing : ∀ n d, devices n = some (.dir d) → host.present n = false → d.dir.children = []

theorem Created.listed {devices : Nat → Option Device} (h : Created host devices)
    (sent : List (Addr × Bytes)) : (idle devices sent).Listed := by
  intro n dev hdev
  have hfile := h.fresh n dev hdev
  cases dev with
  | dir d =>
      intro name hname
      cases hfile.symm.trans hname
  | d64 d => trivial

/-- **The daemon survives a run** on any host exactly when it can deal with each datagram in the
state the datagram meets. -/
theorem survives_iff_allHandled {devices : Nat → Option Device} (h : Created host devices)
    (sent : List (Addr × Bytes)) (es : List Event) :
    (idle devices sent).Survives host es ↔ (idle devices sent).AllHandled host es :=
  Listed.survives_iff_run es (h.listed sent)

/-- A host that sends to every port but 0, and on which the directory of device 9 is missing. -/
def sampleHost : Host where
  canSend a := a.port ≠ 0
  present n := n ≠ 9

/-- Directories as drives 8 and 9. -/
def sampleDrives (n : Nat) : Option Device :=
  if n = 8 ∨ n = 9 then some (.dir DeviceDir.empty) else none

theorem sampleDrives_eq {n : Nat} {dev : Device} (h : sampleDrives n = some dev) :
    dev = .dir DeviceDir.empty := by
  unfold sampleDrives at h
  split at h
  · exact (Option.some.inj h).symm
  · cases h

theorem created_sampleDrives : Created sampleHost sampleDrives where
  fresh := by
    intro n dev hdev
    obtain rfl := sampleDrives_eq hdev
    rfl
  missing := by
    intro n d hdev _
    obtain rfl := Device.dir.inj (sampleDrives_eq hdev)
    rfl

/-- The request is answered with an OACK. -/
theorem dispatch_sampleDrives : ∃ t nm,
    (Tftp.new sampleDrives [] sampleClient).dispatch sampleRequest = .ok t ∧
      Tftp.Putting 8 (ascii "A") (fun _ => True) DeviceDir.empty.dir nm [] 0 t ∧
      t.client = sampleClient ∧ t.sent = [(sampleClient, Tftp.oackBytes clientOptions)] :=
  Tftp.Putting.start [] sampleClient ⟨rfl, rfl, _, rfl⟩ trivial (by decide) rfl
    clientOptions_ok (by simp [clientOptions])

/-- A file of one byte is written. -/
theorem survives_put : (idle sampleDrives []).Survives sampleHost
    [.datagram sampleClient sampleRequest, .datagram sampleClient (packetBytes TFTP_DATA 1 [65])] := by
  refine (survives_iff_allHandled created_sampleDrives [] _).mpr ?_
  obtain ⟨t, nm, hdisp, hput, hclient, hsent⟩ := dispatch_sampleDrives
  have hpath : (Tftp.new sampleDrives [] sampleClient).raisesOpening sampleHost sampleRequest
      = false := by decide
  have hsend : sampleHost.canSend sampleClient = true := by decide
  have hon : (Tftp.new sampleDrives [] sampleClient).dispatchOn sampleHost sampleRequest
      = .ok t := by
    rw [Tftp.dispatchOn, hpath, if_neg Bool.false_ne_true, hdisp, ok_bind, if_neg]
    · rfl
    · rintro ⟨-, hnot⟩
      cases hsend.symm.trans hnot
  have hstep : (idle sampleDrives []).stepOn sampleHost (.datagram sampleClient sampleRequest)
      = .ok (session t) := by
    rw [stepOn, recvfrom_sampleRequest, hon, ok_bind, ofTftp, Tftp.waiting, hput.status]
    rfl
  refine ⟨(stepOn_ok_iff (created_sampleDrives.listed []) _).mp ⟨_, hstep⟩, fun d' h => ?_⟩
  obtain rfl := Except.ok.inj (hstep.symm.trans h)
  obtain ⟨dd, hdev, hfile, -⟩ := hput.file
  have hdata : t.HandlesData (packetBytes TFTP_DATA 1 [65]) :=
    ⟨by simp [packetBytes], 8, .dir dd, hput.device, hdev, by
      simp [Device.writable, hfile, Handle.writable]⟩
  refine ⟨?_, fun _ _ => trivial⟩
  rw [HandlesOn, recvfrom_packetBytes _ _ (by simp)]
  refine ⟨?_, fun _ => ?_, fun mode hmode => ?_⟩
  · simpa [Tftp.Handles, packetBytes, beBytes, TFTP_DATA, be16] using hdata
  · rw [hclient]
    exact hsend
  · have hnone : openMode (be16 ((packetBytes TFTP_DATA 1 [65]).getD 0 0)
        ((packetBytes TFTP_DATA 1 [65]).getD 1 0)) = none := by decide
    cases hnone.symm.trans hmode

/-- A datagram of one byte, an ACK while no transfer is open, an OACK, a request from port 0, which
cannot be answered, and one for a file in a directory that is missing are not survived. -/
theorem not_survives :
    ¬(idle sampleDrives []).Survives sampleHost [.datagram sampleClient [0]] ∧
      ¬(idle sampleDrives []).Survives sampleHost [.datagram sampleClient [0, 4, 0, 1]] ∧
      ¬(idle sampleDrives []).Survives sampleHost [.datagram sampleClient [0, 6, 0, 0]] ∧
      ¬(idle sampleDrives []).Survives sampleHost
        [.datagram ⟨[10, 0, 0, 2], 0⟩ sampleRequest] ∧
      ¬(idle sampleDrives []).Survives sampleHost
        [.datagram sampleClient (serialize TFTP_RRQ (ascii "9/A") (ascii "octet") [])] := by
  have hhandled : ∀ {sender data}, (idle sampleDrives []).Survives sampleHost
      [.datagram sender data] →
      (Tftp.new sampleDrives [] sender).HandlesOn sampleHost (recvfrom data) := by
    rintro sender data ⟨d', hdealt, -⟩
    exact (stepOn_ok_iff (created_sampleDrives.listed []) _).mp ⟨d', hdealt.step⟩
  refine ⟨fun hs => ?_, fun hs => ?_, fun hs => ?_, fun hs => ?_, fun hs => ?_⟩
  · have h := (hhandled hs).handles
    simp [Tftp.Handles, recvfrom, BLKSIZE] at h
  · have h := (hhandled hs).handles
    simp [Tftp.Handles, recvfrom, BLKSIZE, be16, Tftp.HandlesAck, Tftp.DeviceIs, Tftp.new] at h
  · have h := (hhandled hs).handles
    simp [Tftp.Handles, recvfrom, BLKSIZE, be16] at h
  · exact absurd ((hhandled hs).answer (Or.inr (Or.inl (by decide)))) (by decide)
  · have h := (hhandled hs).handles.raisesOpening_eq_false_iff.mpr (hhandled hs).path
    exact absurd h (by decide)

end C64Iec.Server.Daemon

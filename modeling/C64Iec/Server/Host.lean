import C64Iec.Server.Handled

set_option autoImplicit false

/-! # The daemon on its host

Two things that the handlers take for granted are outside the program: that `@conn.send` can send to
the client, which it cannot to port 0, and that the path of a device exists, which only the listing of
a directory looks at. Nothing rescues what is raised, so a turn that meets one of them ends the daemon
whatever else it has done (`Tftp.dispatchOn`); `Tftp.HandlesOn` says when none does.
-/

namespace C64Iec.Server

open Lib

/-- What the daemon finds outside. -/
structure Host where
  /-- whether `@conn.send` sends to an address, or raises -/
  canSend : Addr → Bool
  /-- whether the path of a device exists -/
  present : Nat → Bool

/-- `open` without the device's path: `directory` lists nothing then, `find_local` and `read_disk`
raise. -/
def Device.opensWithoutPath (filename : Bytes) (mode : Mode) : Device → Bool
  | .dir _ => mode = .read && (decode filename).head? = some 36
  | .d64 _ => false

/-- The mode in which the handler of a packet calls `open`. -/
def openMode : Nat → Option Mode
  | 1 => some .read
  | 2 => some .write
  | _ => none

namespace Tftp

variable {t t' : Tftp} {data : Bytes} {host : Host}

/-- The packet is a request that is parsed and makes its device raise because its path does not
exist. -/
def raisesOpening (host : Host) (t : Tftp) (data : Bytes) : Bool :=
  match uint16 data 0 with
  | .ok (some opcode) =>
      match openMode opcode, t.parseRequest data with
      | some mode, .ok t =>
          match t.devices t.deviceNum with
          | none => false
          | some dev =>
              -- a write to a device that is read-only is refused before
              !host.present t.deviceNum && !(mode = .write && dev.readonly) &&
                !dev.opensWithoutPath t.filename mode
      | _, _ => false
  | _ => false

/-- One turn of the loop in `packet`, on this host. -/
def dispatchOn (host : Host) (t : Tftp) (data : Bytes) : Except RubyError Tftp :=
  if t.raisesOpening host data then .error .systemCallError else do
    let t' ← t.dispatch data
    if t'.sent ≠ t.sent ∧ host.canSend t.client = false then .error .systemCallError
    else return t'

/-- The device that a request names finds its path, lists a directory that is not there, or refuses
to be written. -/
def FindsPath (host : Host) (t : Tftp) (data : Bytes) (mode : Mode) : Prop :=
  ∀ dev, t.devices (splitDevice (requestName data)).1 = some dev →
    host.present (splitDevice (requestName data)).1 = true ∨ mode = .write ∧ dev.readonly = true ∨
      dev.opensWithoutPath (splitDevice (requestName data)).2 mode = true

/-- The datagram is handled, the client can be answered if it is to be, and a request finds the path
of its device. -/
structure HandlesOn (host : Host) (t : Tftp) (data : Bytes) : Prop where
  handles : t.Handles data
  answer : t.Answers (be16 (data.getD 0 0) (data.getD 1 0)) → host.canSend t.client = true
  path : ∀ mode, openMode (be16 (data.getD 0 0) (data.getD 1 0)) = some mode →
    t.FindsPath host data mode

/-! ## When a turn raises nothing -/

theorem dispatch_of_dispatchOn (h : t.dispatchOn host data = .ok t') : t.dispatch data = .ok t' := by
  unfold dispatchOn at h
  split at h
  · cases h
  · obtain ⟨t₁, ht₁, h⟩ := bind_eq_ok.mp h
    split at h
    · cases h
    · cases h
      exact ht₁

/-- A request that is handled has its strings in pairs. -/
theorem Handles.pairs (h : t.Handles data) (mode : Mode)
    (hmode : openMode (be16 (data.getD 0 0) (data.getD 1 0)) = some mode) :
    (requestPairs data).isSome = true := by
  obtain ⟨-, h⟩ := h
  generalize be16 (data.getD 0 0) (data.getD 1 0) = opcode at hmode h
  unfold openMode at hmode
  split at hmode
  · exact h.1
  · exact h.1
  · cases hmode

/-- What is handled raises while a file is opened only if the path of the device does not exist. -/
theorem Handles.raisesOpening_eq_false_iff (h : t.Handles data) :
    t.raisesOpening host data = false ↔
      ∀ mode, openMode (be16 (data.getD 0 0) (data.getD 1 0)) = some mode →
        t.FindsPath host data mode := by
  have hpairs := h.pairs
  unfold raisesOpening FindsPath
  rw [uint16_of_le (show 0 + 2 ≤ data.length from h.1)]
  dsimp only
  cases hmode : openMode (be16 (data.getD 0 0) (data.getD (0 + 1) 0)) with
  | none =>
      refine iff_of_true rfl fun mode hsome => ?_
      cases hsome
  | some mode =>
      rcases parseRequest_cases t data with ⟨pairs, mode', -, hparse⟩ | ⟨hnone, -⟩
      · have hdevices : (parsed t data mode' pairs).devices (parsed t data mode' pairs).deviceNum
            = t.devices (splitDevice (requestName data)).1 := rfl
        rw [hparse]
        dsimp only
        rw [hdevices]
        cases t.devices (splitDevice (requestName data)).1 with
        | none => simp
        | some dev =>
            have hdecide : (!host.present (splitDevice (requestName data)).1
                && !(decide (mode = .write) && dev.readonly)
                && !dev.opensWithoutPath (splitDevice (requestName data)).2 mode) = false ↔
                host.present (splitDevice (requestName data)).1 = true ∨
                  mode = .write ∧ dev.readonly = true ∨
                    dev.opensWithoutPath (splitDevice (requestName data)).2 mode = true := by
              cases host.present (splitDevice (requestName data)).1 <;> cases dev.readonly <;>
                cases mode <;> simp
            refine hdecide.trans ⟨fun hfinds mode'' hsome dev' hdev' => ?_, fun hall => ?_⟩
            · obtain rfl := Option.some.inj hsome
              obtain rfl := Option.some.inj hdev'
              exact hfinds
            · exact hall mode rfl dev rfl
      · rw [hnone] at hpairs
        cases hpairs mode hmode

/-- **A turn on this host raises nothing** exactly on the datagrams that are handled there. -/
theorem dispatchOn_ok_iff (hlisted : ∀ n dev, t.devices n = some dev → dev.Listed) :
    (∃ t', t.dispatchOn host data = .ok t') ↔ t.HandlesOn host data := by
  constructor
  · rintro ⟨t', h⟩
    have hdispatch := dispatch_of_dispatchOn h
    have hhandles : t.Handles data := (dispatch_ok_iff hlisted).mp ⟨t', hdispatch⟩
    unfold dispatchOn at h
    split at h
    · cases h
    · rename_i hpath
      rw [Bool.not_eq_true] at hpath
      refine ⟨hhandles, fun hanswers => ?_, hhandles.raisesOpening_eq_false_iff.mp hpath⟩
      obtain ⟨opcode, hop, hcases⟩ := dispatch_cases hdispatch
      rw [uint16_of_le (show 0 + 2 ≤ data.length from hhandles.1)] at hop
      obtain rfl := Option.some.inj (Except.ok.inj hop)
      obtain ⟨-, ha⟩ | ⟨hnot, -⟩ := hcases
      · rw [hdispatch, ok_bind] at h
        split at h
        · cases h
        · rename_i hsend
          simpa [ha.sent_ne] using hsend
      · exact absurd hanswers hnot
  · rintro ⟨hhandles, hanswer, hpath⟩
    obtain ⟨t', hdispatch⟩ := (dispatch_ok_iff hlisted).mpr hhandles
    obtain ⟨opcode, hop, hcases⟩ := dispatch_cases hdispatch
    rw [uint16_of_le (show 0 + 2 ≤ data.length from hhandles.1)] at hop
    obtain rfl := Option.some.inj (Except.ok.inj hop)
    refine ⟨t', ?_⟩
    rw [dispatchOn, hhandles.raisesOpening_eq_false_iff.mpr hpath, if_neg Bool.false_ne_true,
      hdispatch, ok_bind, if_neg]
    · rfl
    · rintro ⟨hsent, hnot⟩
      obtain ⟨hanswers, -⟩ | ⟨-, hquiet⟩ := hcases
      · exact absurd ((hanswer hanswers).symm.trans hnot) (by decide)
      · exact hsent hquiet.sent

end Tftp

/-! ## The daemon -/

namespace Daemon

/-- One event, on this host. -/
def stepOn (host : Host) (d : Daemon) (e : Event) : Except RubyError Daemon :=
  match d, e with
  | idle devices sent, .datagram sender data => do
      let t ← (Tftp.new devices sent sender).dispatchOn host (recvfrom data)
      return ofTftp t
  | session t, .datagram _ data => do
      let t ← t.dispatchOn host (recvfrom data)
      return ofTftp t
  | idle devices sent, .silence => .ok (idle devices sent)
  | session t, .silence => .ok (idle t.devices t.sent)

/-- What a step on a host makes of an event, a step does. -/
theorem step_of_stepOn {host : Host} {d d' : Daemon} {e : Event} (h : d.stepOn host e = .ok d') :
    d.step e = .ok d' := by
  cases e with
  | silence => cases d <;> exact h
  | datagram sender data =>
      cases d with
      | idle devices sent =>
          obtain ⟨t, ht, h⟩ := bind_eq_ok.mp h
          cases h
          exact bind_eq_ok.mpr ⟨t, Tftp.dispatch_of_dispatchOn ht, rfl⟩
      | session t =>
          obtain ⟨t', ht, h⟩ := bind_eq_ok.mp h
          cases h
          exact bind_eq_ok.mpr ⟨t', Tftp.dispatch_of_dispatchOn ht, rfl⟩

/-- The event is one the daemon can deal with in its state. -/
def HandlesOn (host : Host) (d : Daemon) (e : Event) : Prop :=
  match d, e with
  | idle devices sent, .datagram sender data =>
      (Tftp.new devices sent sender).HandlesOn host (recvfrom data)
  | session t, .datagram _ data => t.HandlesOn host (recvfrom data)
  | _, .silence => True

/-- Every file that is appended to is in its directory. -/
def Listed (d : Daemon) : Prop := ∀ n dev, d.devices n = some dev → dev.Listed

theorem Listed.step {d d' : Daemon} {e : Event} (hd : d.Listed) (h : d.step e = .ok d') :
    d'.Listed := step_devices (fun _ _ => Device.Listed.call) h hd

/-- **One event raises nothing** exactly when the daemon can deal with it. -/
theorem stepOn_ok_iff {host : Host} {d : Daemon} (hd : d.Listed) (e : Event) :
    (∃ d', d.stepOn host e = .ok d') ↔ d.HandlesOn host e := by
  have hbind : ∀ x : Except RubyError Tftp,
      (∃ d', (x >>= fun t => pure (ofTftp t)) = Except.ok d') ↔ ∃ t, x = .ok t := by
    intro x
    cases x <;> simp [bind, Except.bind, pure, Except.pure]
  cases e with
  | silence => cases d <;> exact iff_of_true ⟨_, rfl⟩ trivial
  | datagram sender data =>
      cases d with
      | idle devices sent =>
          exact (hbind _).trans (Tftp.dispatchOn_ok_iff (t := Tftp.new devices sent sender) hd)
      | session t => exact (hbind _).trans (Tftp.dispatchOn_ok_iff (t := t) hd)

end Daemon

end C64Iec.Server

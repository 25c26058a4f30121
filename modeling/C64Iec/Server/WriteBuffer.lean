import C64Iec.Server.Untouched

set_option autoImplicit false

/-! # Ruby's write buffer

`DeviceDir` has the files of a directory as its handle sees them. On disk the file that is appended
to is short of what is still in Ruby's buffer, which is written out some time before the buffer is
full, or else in `close` (`BufferedDir`). A handle that is given up with data pending leaves them to
the garbage collector. Where each file has been closed before the device is opened again
(`Daemon.ClosesPuts`) there is no such handle, and in every run what is on disk, with what is pending,
is what `DeviceDir` has (`BufferedRun.whole`).
-/

namespace C64Iec.Server

open Lib

/-- No file is open for appending. -/
def Handle.Settled (h : Handle) : Prop := ∀ name, h ≠ .appending name

/-- A directory on disk, with the device's handle and what it has been given that is not there yet. -/
structure BufferedDir where
  disk : Dir
  file : Handle
  pending : Bytes

namespace BufferedDir

/-- The directory with `n` of the pending bytes written out. -/
def written (b : BufferedDir) (n : Nat) : Dir :=
  match b.file with
  | .appending name =>
      match b.disk.lookup name with
      | some (.file content) => b.disk.write name (content ++ b.pending.take n)
      | _ => b.disk
  | _ => b.disk

/-- Ruby writes out `n` of the pending bytes. -/
def writeOut (b : BufferedDir) (n : Nat) : BufferedDir :=
  { b with disk := b.written n, pending := b.pending.drop n }

/-- The device as its handle sees it. -/
def whole (b : BufferedDir) : DeviceDir := ⟨b.written b.pending.length, b.file⟩

/-! ## The calls -/

/-- `DeviceDir#open`: when another file is opened, what is pending of the one before is given up. -/
def openFile (b : BufferedDir) (filename : Bytes) (mode : Mode) :
    Except RubyError (Bool × BufferedDir) :=
  match DeviceDir.openFile ⟨b.disk, b.file⟩ filename mode with
  | (.error err, _) => .error err
  | (.ok opened, d) => .ok (opened, ⟨d.dir, d.file, if opened then [] else b.pending⟩)

/-- `DeviceDir#write`: what is appended goes to the buffer. -/
def write (b : BufferedDir) (data : Option Bytes) : Except RubyError BufferedDir :=
  match b.file, data with
  | .appending _, some data => .ok { b with pending := b.pending ++ data }
  | _, data => do
      let d ← DeviceDir.write ⟨b.disk, b.file⟩ data
      return ⟨d.dir, d.file, b.pending⟩

/-- `DeviceDir#read` -/
def read (b : BufferedDir) (bytes : Nat) : Except RubyError (Option Bytes × BufferedDir) := do
  let (data, file) ← b.file.read bytes
  return (data, { b with file := file })

/-- `DeviceDir#close`, which writes out all that is pending. -/
def close (b : BufferedDir) : Except RubyError BufferedDir := do
  let file ← b.file.close
  return ⟨b.written b.pending.length, file, []⟩

def perform (b : BufferedDir) : Device.Op → Except RubyError BufferedDir
  | .openFile filename mode => do
      let (_, b) ← b.openFile filename mode
      return b
  | .read bytes => do
      let (_, b) ← b.read bytes
      return b
  | .write data => b.write data
  | .close => b.close

def performs (b : BufferedDir) (ops : List Device.Op) : Except RubyError BufferedDir :=
  ops.foldlM perform b

/-- Only a file that is appended to has data pending. -/
def Held (b : BufferedDir) : Prop :=
  b.pending = [] ∨ ∃ name content, b.file = .appending name ∧
    b.disk.lookup name = some (.file content)

variable {b b' : BufferedDir} {d' : DeviceDir} {op : Device.Op} {ops : List Device.Op}
  {name content : Bytes}

theorem performs_cons : b.performs (op :: ops) = .ok b' ↔
    ∃ b₁, b.perform op = .ok b₁ ∧ b₁.performs ops = .ok b' := by
  rw [performs, List.foldlM_cons]
  exact bind_eq_ok

theorem written_of_lookup (hfile : b.file = .appending name)
    (h : b.disk.lookup name = some (.file content)) (n : Nat) :
    b.written n = b.disk.write name (content ++ b.pending.take n) := by
  unfold written
  rw [hfile]
  dsimp only
  rw [h]

/-- Nothing is written out but to a file that is appended to. -/
theorem written_of_settled (h : b.file.Settled) (n : Nat) : b.written n = b.disk := by
  unfold written
  split
  · rename_i hfile
    exact absurd hfile (h _)
  · rfl

theorem written_of_nil (h : b.pending = []) (n : Nat) : b.written n = b.disk := by
  unfold written
  rw [h, List.take_nil]
  split
  · split
    · rename_i hlookup
      rw [List.append_nil]
      exact Dir.write_lookup hlookup
    · rfl
  · rfl

/-- When nothing is pending the device is what is on disk. -/
theorem whole_of_nil (h : b.pending = []) : b.whole = ⟨b.disk, b.file⟩ := by
  rw [whole, written_of_nil h]

theorem Held.pending_eq_nil (h : b.Held) (hfile : b.file.Settled) : b.pending = [] := by
  rcases h with hnil | ⟨name, -, happending, -⟩
  · exact hnil
  · exact absurd happending (hfile name)

/-! ## What is seen of a call -/

/-- Writing out shows nowhere but on disk. -/
theorem Held.writeOut (h : b.Held) (n : Nat) :
    (b.writeOut n).Held ∧ (b.writeOut n).whole = b.whole := by
  rcases h with hnil | ⟨name, content, hfile, hlookup⟩
  · have hpending : (b.writeOut n).pending = [] := by
      rw [BufferedDir.writeOut, hnil, List.drop_nil]
    refine ⟨Or.inl hpending, ?_⟩
    rw [whole_of_nil hpending, whole_of_nil hnil, BufferedDir.writeOut, written_of_nil hnil]
  · have hdisk : (b.writeOut n).disk = b.disk.write name (content ++ b.pending.take n) :=
      written_of_lookup hfile hlookup n
    have hlookup' : (b.writeOut n).disk.lookup name = some (.file (content ++ b.pending.take n)) := by
      rw [hdisk]
      exact Dir.lookup_write_self
    refine ⟨Or.inr ⟨name, _, hfile, hlookup'⟩, ?_⟩
    have hexist : b.disk.exist name = true := Dir.exist_iff.mpr ⟨_, Dir.lookup_eq_some.mp hlookup⟩
    have hpending : (b.writeOut n).pending = b.pending.drop n := rfl
    rw [whole, whole, written_of_lookup hfile hlookup, List.take_length,
      written_of_lookup (b := b.writeOut n) hfile hlookup', List.take_length, hpending, hdisk,
      Dir.write_write hexist, List.append_assoc, List.take_append_drop]
    rfl

/-- Where nothing is pending the device is opened as it is on disk. -/
theorem perform_openFile_of_nil {filename : Bytes} {mode : Mode} {opened : Bool}
    (hnil : b.pending = []) (h : b.whole.openFile filename mode = (.ok opened, d')) :
    b.perform (.openFile filename mode) = .ok ⟨d'.dir, d'.file, []⟩ := by
  rw [whole_of_nil hnil] at h
  simp only [BufferedDir.perform, openFile, h, hnil, ite_self]
  rfl

/-- What is appended is pending, and is seen behind what the file had. -/
theorem Held.append {data : Bytes} (h : b.Held) (hfile : b.file = .appending name)
    (hmem : (name, .file content) ∈ b.whole.dir.children) :
    b.write (some data) = .ok { b with pending := b.pending ++ data } ∧
      BufferedDir.whole { b with pending := b.pending ++ data } =
        { b.whole with dir := b.whole.dir.write name (content ++ data) } ∧
      BufferedDir.Held { b with pending := b.pending ++ data } := by
  -- the file is on disk, with what it had before
  obtain ⟨content₀, hlookup⟩ : ∃ content₀, b.disk.lookup name = some (.file content₀) := by
    rcases h with hnil | ⟨name', content₀, happending, hlookup⟩
    · rw [whole_of_nil hnil] at hmem
      exact ⟨content, Dir.lookup_eq_some.mpr hmem⟩
    · obtain rfl := Handle.appending.inj (happending.symm.trans hfile)
      exact ⟨content₀, hlookup⟩
  have hdir : b.whole.dir = b.disk.write name (content₀ ++ b.pending) := by
    rw [whole, written_of_lookup hfile hlookup, List.take_length]
  rw [hdir] at hmem
  have hcontent : content = content₀ ++ b.pending :=
    Entry.file.inj (Dir.eq_of_mem hmem (Dir.lookup_eq_some.mp Dir.lookup_write_self))
  have hexist : b.disk.exist name = true :=
    Dir.exist_iff.mpr ⟨_, Dir.lookup_eq_some.mp hlookup⟩
  refine ⟨?_, ?_, Or.inr ⟨name, _, hfile, hlookup⟩⟩
  · simp only [BufferedDir.write, hfile]
  · rw [whole, written_of_lookup (b := { b with pending := b.pending ++ data }) hfile hlookup,
      List.take_length, hdir, hcontent, Dir.write_write hexist, List.append_assoc]
    rfl

/-- **A call** does to what is on disk and pending what `DeviceDir` has it do, provided that nothing
is pending when the device is opened. -/
theorem Held.perform (h : b.Held) (hturn : DirTurn b.whole op d')
    (hopen : ∀ filename mode, op = .openFile filename mode → b.pending = []) :
    ∃ b', b.perform op = .ok b' ∧ b'.whole = d' ∧ b'.Held ∧
      (b.pending = [] → (∀ data, op ≠ .write data) → b'.pending = []) := by
  cases hturn with
  | openRead hread =>
      rename_i filename opened
      have hopened : b.whole.openFile filename .read = (.ok opened, d') := by
        simp only [DeviceDir.openFile, hread]
      exact ⟨_, perform_openFile_of_nil (hopen _ _ rfl) hopened, whole_of_nil rfl, Or.inl rfl,
        fun _ _ => rfl⟩
  | openWrite hwrite =>
      exact ⟨_, perform_openFile_of_nil (hopen _ _ rfl) hwrite, whole_of_nil rfl, Or.inl rfl,
        fun _ _ => rfl⟩
  | read hread =>
      rename_i bytes data file
      have hread' : b.file.read bytes = .ok (data, file) := hread
      have hne : b.file.Settled := by
        intro name hfile
        rw [hfile] at hread'
        cases hread'
      have hnil := h.pending_eq_nil hne
      refine ⟨{ b with file := file }, ?_, ?_, Or.inl hnil, fun _ _ => hnil⟩
      · simp only [BufferedDir.perform, BufferedDir.read, hread', ok_bind]
        rfl
      · rw [whole_of_nil (b := { b with file := file }) hnil, whole_of_nil hnil]
  | append hfile hmem =>
      obtain ⟨hwrite, hwhole, hheld⟩ := h.append hfile hmem
      exact ⟨_, hwrite, hwhole, hheld, fun _ hno => absurd rfl (hno (some _))⟩
  | overwrite hfile =>
      rename_i data text pos
      have hfile' : b.file = Handle.stringIO text pos := hfile
      have hnil := h.pending_eq_nil fun name hname => by
        rw [hfile'] at hname
        cases hname
      refine ⟨{ b with file := Handle.stringIO (blit text pos data) (pos + data.length) }, ?_, ?_,
        Or.inl hnil, fun _ _ => hnil⟩
      · simp only [BufferedDir.perform, BufferedDir.write, DeviceDir.write, hfile']
        rfl
      · rw [whole_of_nil hnil]
        exact whole_of_nil hnil
  | close hset =>
      have hclose : b.file.close = .ok .closed := by
        unfold Handle.close
        split
        · rename_i hunset
          exact absurd hunset hset
        · rfl
      refine ⟨⟨b.written b.pending.length, .closed, []⟩, ?_, whole_of_nil rfl, Or.inl rfl,
        fun _ _ => rfl⟩
      simp only [BufferedDir.perform, BufferedDir.close, hclose, ok_bind]
      rfl

/-- **A sequence of calls**, in which nothing is written, or nothing is opened. -/
theorem Held.performs (h : b.Held) (hops : (Device.dir b.whole).performs ops = .ok (.dir d'))
    (hkind : b.pending = [] ∧ (∀ op ∈ ops, ∀ data, op ≠ .write data) ∨
      ∀ op ∈ ops, ∀ filename mode, op ≠ .openFile filename mode) :
    ∃ b', b.performs ops = .ok b' ∧ b'.whole = d' ∧ b'.Held := by
  induction ops generalizing b with
  | nil =>
      obtain rfl := Device.dir.inj (Except.ok.inj hops)
      exact ⟨b, rfl, rfl, h⟩
  | cons op ops ih =>
      obtain ⟨dev₁, hop, hrest⟩ := Device.performs_cons.mp hops
      obtain ⟨d₁, rfl, hturn⟩ := Device.perform_dir hop
      have hopen : ∀ filename mode, op = .openFile filename mode → b.pending = [] := by
        intro filename mode heq
        rcases hkind with ⟨hnil, -⟩ | hnone
        · exact hnil
        · exact absurd heq (hnone op List.mem_cons_self filename mode)
      obtain ⟨b₁, hb₁, rfl, hheld₁, hnil₁⟩ := h.perform hturn hopen
      have hkind₁ : b₁.pending = [] ∧ (∀ op ∈ ops, ∀ data, op ≠ .write data) ∨
          ∀ op ∈ ops, ∀ filename mode, op ≠ .openFile filename mode := by
        refine hkind.imp ?_ fun hnone op hmem => hnone op (List.mem_cons_of_mem _ hmem)
        rintro ⟨hnil, hno⟩
        exact ⟨hnil₁ hnil (hno op List.mem_cons_self),
          fun op hmem => hno op (List.mem_cons_of_mem _ hmem)⟩
      obtain ⟨b', hb', hwhole, hheld⟩ := ih hheld₁ hrest hkind₁
      exact ⟨b', performs_cons.mpr ⟨b₁, hb₁, hb'⟩, hwhole, hheld⟩

end BufferedDir

/-! ## Runs of the daemon -/

namespace Daemon

/-- No file of device `n` is open for appending. -/
def Settled (n : Nat) (d : Daemon) : Prop :=
  ∀ dd, d.devices n = some (.dir dd) → dd.file.Settled

/-- Each file of device `n` has been closed before the device is opened again. -/
def ClosesPuts (n : Nat) : Daemon → List Event → Prop
  | _, [] => True
  | d, e :: es => ((∃ filename mode, e.Causes n (.openFile filename mode)) → d.Settled n) ∧
      ∀ d', d.step e = .ok d' → ClosesPuts n d' es

/-- The calls of device `n` in a step. -/
def Calls (n : Nat) (d : Daemon) (ops : List Device.Op) (d' : Daemon) : Prop :=
  ∀ dev, d.devices n = some dev →
    ∃ dev', d'.devices n = some dev' ∧ dev.performs ops = .ok dev'

end Daemon

/-- A run of the daemon and of what is on disk of device `n`: the calls of each event reach it, and
before each Ruby may write out some of what is pending. -/
inductive BufferedRun (n : Nat) :
    Daemon → BufferedDir → List Daemon.Event → Daemon → BufferedDir → Prop
  | nil (d : Daemon) (b : BufferedDir) : BufferedRun n d b [] d b
  | writeOut {d d' : Daemon} {b b' : BufferedDir} {es : List Daemon.Event} (k : Nat)
      (h : BufferedRun n d (b.writeOut k) es d' b') : BufferedRun n d b es d' b'
  | event {d d₁ d' : Daemon} {b b₁ b' : BufferedDir} {e : Daemon.Event} {es : List Daemon.Event}
      {ops : List Device.Op} (hstep : d.step e = .ok d₁) (hcauses : ∀ op ∈ ops, e.Causes n op)
      (hcalls : d.Calls n ops d₁) (hops : b.performs ops = .ok b₁)
      (h : BufferedRun n d₁ b₁ es d' b') : BufferedRun n d b (e :: es) d' b'

/-- An event does not lead to calls that open a file and to calls that write. -/
theorem Causes.not_write {data filename : Bytes} {mode : Mode} {n : Nat}
    (h : Causes data n (.openFile filename mode)) {op : Device.Op} (hop : Causes data n op)
    (data' : Option Bytes) : op ≠ .write data' := by
  rintro rfl
  cases hop with
  | data hdata =>
      cases h with
      | rrq hrrq _ => exact absurd (hdata.symm.trans hrrq) (by decide)
      | wrq hwrq _ => exact absurd (hdata.symm.trans hwrq) (by decide)

namespace BufferedRun

variable {n : Nat} {d d₁ d' : Daemon} {b b' : BufferedDir} {e : Daemon.Event}
  {es : List Daemon.Event} {ops : List Device.Op} {dd : DeviceDir}

/-- **One event** does to what is on disk and pending what it does to the device. -/
theorem step (hdev : d.devices n = some (.dir b.whole)) (hb : b.Held)
    (hcauses : ∀ op ∈ ops, e.Causes n op) (hcalls : d.Calls n ops d₁)
    (hclosed : (∃ filename mode, e.Causes n (.openFile filename mode)) → d.Settled n) :
    ∃ b₁, b.performs ops = .ok b₁ ∧ d₁.devices n = some (.dir b₁.whole) ∧ b₁.Held := by
  obtain ⟨dev₁, hdev₁, hops⟩ := hcalls _ hdev
  obtain ⟨dd₁, rfl⟩ : ∃ dd₁, dev₁ = .dir dd₁ := Device.performs_invariant
    (I := fun dev => ∃ dd, dev = .dir dd)
    (fun op _ dev dev' hI hop => by
      obtain ⟨dd, rfl⟩ := hI
      obtain ⟨dd', rfl, -⟩ := Device.perform_dir hop
      exact ⟨dd', rfl⟩) ⟨_, rfl⟩ hops
  have hkind : b.pending = [] ∧ (∀ op ∈ ops, ∀ data, op ≠ .write data) ∨
      ∀ op ∈ ops, ∀ filename mode, op ≠ .openFile filename mode := by
    by_cases hopens : ∃ filename mode, e.Causes n (.openFile filename mode)
    · refine Or.inl ⟨hb.pending_eq_nil (hclosed hopens _ hdev), ?_⟩
      obtain ⟨filename, mode, hopen⟩ := hopens
      intro op hop
      cases e with
      | datagram sender data => exact hopen.not_write (hcauses op hop)
      | silence => exact hopen.elim
    · refine Or.inr fun op hop filename mode heq => hopens ⟨filename, mode, ?_⟩
      exact heq ▸ hcauses op hop
  obtain ⟨b₁, hb₁, hwhole, hheld⟩ := hb.performs hops hkind
  exact ⟨b₁, hb₁, hwhole ▸ hdev₁, hheld⟩

/-- **What is on disk, with what is pending, is the device**, in every run in which each file is
closed before the device is opened again. -/
theorem whole (h : BufferedRun n d b es d' b') (hdev : d.devices n = some (.dir b.whole))
    (hb : b.Held) (hclosed : d.ClosesPuts n es) :
    d.run es = .ok d' ∧ d'.devices n = some (.dir b'.whole) ∧ b'.Held := by
  induction h with
  | nil d b => exact ⟨rfl, hdev, hb⟩
  | writeOut k _ ih =>
      obtain ⟨hheld, hwhole⟩ := hb.writeOut k
      exact ih (hwhole ▸ hdev) hheld hclosed
  | event hstep hcauses hcalls hops _ ih =>
      obtain ⟨b₁, hb₁, hdev₁, hheld⟩ := step hdev hb hcauses hcalls hclosed.1
      obtain rfl := Except.ok.inj (hb₁.symm.trans hops)
      obtain ⟨hrun, hdev', hheld'⟩ := ih hdev₁ hheld (hclosed.2 _ hstep)
      exact ⟨bind_eq_ok.mpr ⟨_, hstep, hrun⟩, hdev', hheld'⟩

end BufferedRun

end C64Iec.Server

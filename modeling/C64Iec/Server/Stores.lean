import C64Iec.Lib.FileStore
import C64Iec.Server.WriteBuffer

set_option autoImplicit false

/-! # A directory device as a store of files

`DeviceDir.Stores` connects a directory device to a `FileStore`: the PC64 files hold the store's
map, and `@file` stands where the store's handle does. Each call that does not raise is a step of
the store or leaves it alone (`DirTurn.stores`), so that a device goes through a run of the daemon
as a store goes through the operations its datagrams stand for (`Daemon.stores_of_run`), and so does
what is on disk and pending of it, as long as each file is closed before the device is opened again
(`Daemon.run_stores`). The local names, the headers and the order of the directory do not show.
-/

namespace C64Iec.Server

open Lib

namespace Dir

variable {d d' : Dir} {c64 nm w : Bytes} {m : Bytes → Option Bytes}

/-- The names of the map are those a directory can keep. -/
theorem Mirrors.names (h : Mirrors m d) (hn : d.Named c64 nm) : C64Name c64 ∧ Keepable c64 := by
  obtain ⟨w, -, hc, -⟩ := h.content hn
  exact ⟨hc, h.toSound.keepable hn⟩

theorem isPc64Ext_of_named (hn : d.Named c64 nm) : isPc64Ext (extname nm) = true := by
  obtain ⟨content, -, hpc, -⟩ := hn
  simp only [isPc64, Bool.and_eq_true] at hpc
  exact hpc.1.1

/-- The file of a name is given other data. -/
theorem Mirrors.rewrite (h : Mirrors m d) (hn : d.Named c64 nm)
    (hmem : ∀ nm' e, (nm', e) ∈ d'.children ↔ nm' = nm ∧ e = .file (pc64Header c64 ++ w) ∨
      nm' ≠ nm ∧ (nm', e) ∈ d.children) :
    Mirrors (Function.update m c64 (some w)) d' ∧ d'.Named c64 nm := by
  obtain ⟨hc, hkeep⟩ := h.names hn
  have hext := isPc64Ext_of_named hn
  refine ⟨h.put hc hkeep hext (fun nm' e => ?_) fun _ _ => hn, ?_⟩
  · rw [hmem]
    constructor
    · rintro (hnew | ⟨hne, hold⟩)
      · exact Or.inl hnew
      · exact Or.inr ⟨hne, fun hn' => hne (h.unique _ _ _ hn' hn), hold⟩
    · rintro (hnew | ⟨hne, -, hold⟩)
      · exact Or.inl hnew
      · exact Or.inr ⟨hne, hold⟩
  · exact named_of_mem hc hkeep hext ((hmem _ _).mpr (Or.inl ⟨rfl, rfl⟩))

end Dir

namespace DeviceDir

/-- A position in a listing is not behind its end. -/
def Within : Handle → Prop
  | Handle.stringIO text pos => pos ≤ text.length
  | _ => True

/-- The device's handle stands where the store's does. -/
inductive StandsAt (d : DeviceDir) : FileHandle Bytes Byte → Prop
  | unset (hfile : d.file = .unset) : StandsAt d .shut
  | closed (hfile : d.file = .closed) : StandsAt d .shut
  | reading {rest : Bytes} (hfile : d.file.rest = some rest) (hwithin : Within d.file) :
      StandsAt d (.reading rest)
  | appending {c64 nm : Bytes} (hfile : d.file = .appending nm) (hnamed : d.dir.Named c64 nm) :
      StandsAt d (.appending c64)

/-- The device keeps what the store has. -/
structure Stores (s : FileStore Bytes Byte) (d : DeviceDir) : Prop where
  mirrors : d.dir.Mirrors s.contents
  handle : d.StandsAt s.handle

variable {d : DeviceDir} {handle : FileHandle Bytes Byte}

theorem StandsAt.of_rest {rest : Bytes} (h : d.StandsAt handle) (hfile : d.file.rest = some rest) :
    handle = .reading rest ∧ Within d.file := by
  cases h with
  | unset hunset => simp [hunset, Handle.rest] at hfile
  | closed hclosed => simp [hclosed, Handle.rest] at hfile
  | reading hreading hwithin =>
      obtain rfl := Option.some.inj (hreading.symm.trans hfile)
      exact ⟨rfl, hwithin⟩
  | appending happending _ => simp [happending, Handle.rest] at hfile

theorem StandsAt.of_appending {nm : Bytes} (h : d.StandsAt handle)
    (hfile : d.file = .appending nm) : ∃ c64, handle = .appending c64 ∧ d.dir.Named c64 nm := by
  cases h with
  | unset hunset => simp [hunset] at hfile
  | closed hclosed => simp [hclosed] at hfile
  | reading hreading _ => simp [hfile, Handle.rest] at hreading
  | appending happending hnamed =>
      obtain rfl := Handle.appending.inj (happending.symm.trans hfile)
      exact ⟨_, rfl, hnamed⟩

/-- The device appends to the file of the name, and holds this of it. -/
theorem Stores.of_appending {s : FileStore Bytes Byte} {c64 nm w : Bytes} (hs : d.Stores s)
    (hc : C64Name c64) (hkeep : Keepable c64) (hfile : d.file = .appending nm)
    (hlookup : d.dir.lookup nm = some (.file (pc64Header c64 ++ w))) :
    s.handle = .appending c64 ∧ s.contents c64 = some w := by
  obtain ⟨c64', hhandle, hnamed⟩ := hs.handle.of_appending hfile
  obtain ⟨w', hmem, hc', hw'⟩ := hs.mirrors.content hnamed
  obtain ⟨-, hkeep'⟩ := hs.mirrors.names hnamed
  have heq : pc64Header c64' ++ w' = pc64Header c64 ++ w :=
    Entry.file.inj (Dir.eq_of_mem hmem (Dir.lookup_eq_some.mp hlookup))
  have hname : stripPadding c64' = stripPadding c64 := by
    have h' := pc64C64Filename_header hc'.length w'
    rw [heq, pc64C64Filename_header hc.length] at h'
    exact (Except.ok.inj h').symm
  rw [(stripPadding_eq_iff hc').mpr hkeep'.2, (stripPadding_eq_iff hc).mpr hkeep.2] at hname
  subst hname
  obtain rfl := List.append_cancel_left heq
  exact ⟨hhandle, hw'⟩

end DeviceDir

theorem Handle.rest_advance (file : Handle) (n : Nat) :
    (file.advance n).rest = file.rest.map (List.drop n) := by
  unfold advance
  split
  · rfl
  · rename_i data pos
    simp only [rest, Option.map_some, List.drop_drop, Option.some.injEq]
    rcases Nat.le_total data.length (pos + n) with h | h
    · rw [Nat.min_eq_left h, List.drop_length, List.drop_of_length_le h]
    · rw [Nat.min_eq_right h]
  · rename_i hreading hlisting
    cases file with
    | reading r => exact absurd rfl (hreading r)
    | stringIO data pos => exact absurd rfl (hlisting data pos)
    | unset => rfl
    | appending name => rfl
    | closed => rfl

theorem Handle.within_advance {file : Handle} (h : DeviceDir.Within file) (n : Nat) :
    DeviceDir.Within (file.advance n) := by
  unfold advance
  split
  · trivial
  · exact Nat.min_le_left _ _
  · exact h

/-! ## The operations of a call -/

/-- The operations on the store that a call can stand for: none, when no file is found. -/
inductive Means : Device.Op → List (FileOp Bytes Byte) → Prop
  | absent (filename : Bytes) : Means (.openFile filename .read) []
  | fetch {filename : Bytes} (hname : (decode filename).head? ≠ some 36) :
      Means (.openFile filename .read) [.fetch (decode filename)]
  | view {filename : Bytes} (hname : (decode filename).head? = some 36) (text : Bytes) :
      Means (.openFile filename .read) [.view text]
  | create (filename : Bytes) : Means (.openFile filename .write) [.create (decode filename)]
  | append (data : Bytes) : Means (.write (some data)) [.append data]
  | overwrite (data : Bytes) : Means (.write (some data)) [.skip data.length]
  | read (bytes : Nat) : Means (.read bytes) [.skip bytes]
  | close : Means .close [.shut]

namespace DirTurn

variable {d d' : DeviceDir} {op : Device.Op} {s : FileStore Bytes Byte}

/-- The calls whose name a directory can keep, or that have no name to keep. -/
def Keeps (op : Device.Op) : Prop :=
  ∀ filename, op = .openFile filename .write →
    C64Name (decode filename) ∧ Keepable (decode filename)

theorem stores_openRead {filename : Bytes} {opened : Bool} (hs : d.Stores s)
    (h : d.openRead (decode filename) = .ok (opened, d')) :
    ∃ ops s', Means (.openFile filename .read) ops ∧ s.Steps ops s' ∧ d'.Stores s' := by
  by_cases hname : (decode filename).head? = some 36
  · unfold DeviceDir.openRead at h
    rw [if_pos hname] at h
    obtain ⟨listing, -, h⟩ := bind_eq_ok.mp h
    cases h
    exact ⟨_, _, .view hname listing, (FileStore.Step.view s listing).steps, hs.mirrors,
      .reading rfl (Nat.zero_le _)⟩
  · have hread := DeviceDir.openRead_of_mirrors hs.mirrors hname
    cases hw : s.contents (decode filename) with
    | none =>
        rw [hw] at hread
        cases hread.symm.trans h
        exact ⟨_, _, .absent filename, .nil s, hs⟩
    | some w =>
        rw [hw] at hread
        cases hread.symm.trans h
        exact ⟨_, _, .fetch hname, (FileStore.Step.fetch hw).steps, hs.mirrors, .reading rfl trivial⟩

theorem stores_openWrite {filename : Bytes} (hs : d.Stores s) (hc : C64Name (decode filename))
    (hkeep : Keepable (decode filename)) (h : d.openWrite (decode filename) = (.ok true, d')) :
    d'.Stores ⟨Function.update s.contents (decode filename) (some []),
      .appending (decode filename)⟩ := by
  obtain ⟨name, local_, ⟨k, hk, hname⟩, hfind, hfile, hfree, hmem⟩ :=
    DeviceDir.openWrite_children h
  have hext : isPc64Ext (extname name) = true := by
    rw [hname]
    exact (isPc64Ext_pc64File hk _).mpr hkeep.1
  -- the file that is replaced is the only one with the name
  have hlocal : ∀ nm, local_ = some nm ↔ d.dir.Named (decode filename) nm := by
    intro nm
    rcases hs.mirrors.toSound.findLocal_cases (decode filename) with ⟨nm', hf, hn⟩ | ⟨hf, hnone⟩
    · obtain rfl : some nm' = local_ := Except.ok.inj (hf.symm.trans hfind)
      refine ⟨fun heq => ?_, fun hn' => congrArg some (hs.mirrors.unique _ _ _ hn hn')⟩
      obtain rfl := Option.some.inj heq
      exact hn
    · obtain rfl : none = local_ := Except.ok.inj (hf.symm.trans hfind)
      refine ⟨fun heq => ?_, fun hn => absurd hn (hnone nm)⟩
      cases heq
  have hmem' : ∀ nm e, (nm, e) ∈ d'.dir.children ↔
      nm = name ∧ e = .file (pc64Header (decode filename) ++ []) ∨
        nm ≠ name ∧ ¬d.dir.Named (decode filename) nm ∧ (nm, e) ∈ d.dir.children := by
    intro nm e
    rw [hmem, List.append_nil]
    simp only [ne_eq, hlocal]
  refine ⟨hs.mirrors.put hc hkeep hext hmem' ?_, .appending hfile ?_⟩
  · intro e hin
    exact (hlocal name).mp (hfree e hin)
  · exact Dir.named_of_mem hc hkeep hext ((hmem' _ _).mpr (Or.inl ⟨rfl, rfl⟩))

theorem stores_append {data name content : Bytes} (hs : d.Stores s)
    (hfile : d.file = .appending name) (hmem : (name, .file content) ∈ d.dir.children) :
    ∃ s', s.Step (.append data) s' ∧
      DeviceDir.Stores s' { d with dir := d.dir.write name (content ++ data) } := by
  obtain ⟨c64, hhandle, hnamed⟩ := hs.handle.of_appending hfile
  obtain ⟨w, hw, -, hcontents⟩ := hs.mirrors.content hnamed
  obtain rfl := Entry.file.inj (Dir.eq_of_mem hw hmem)
  have hmem' : ∀ nm e, (nm, e) ∈ (d.dir.write name (pc64Header c64 ++ w ++ data)).children ↔
      nm = name ∧ e = .file (pc64Header c64 ++ (w ++ data)) ∨
        nm ≠ name ∧ (nm, e) ∈ d.dir.children := by
    intro nm e
    rw [Dir.mem_write, List.append_assoc]
  obtain ⟨hmirrors, hnamed'⟩ := hs.mirrors.rewrite hnamed hmem'
  refine ⟨_, .append data hhandle hcontents, hmirrors, ?_⟩
  rw [hhandle]
  exact .appending hfile hnamed'

theorem stores_read {bytes : Nat} {data : Option Bytes} {file : Handle} (hs : d.Stores s)
    (h : d.file.read bytes = .ok (data, file)) :
    ∃ s', s.Step (.skip bytes) s' ∧ DeviceDir.Stores s' { d with file := file } := by
  unfold Handle.read at h
  cases hrest : d.file.rest with
  | none =>
      rw [hrest] at h
      cases h
  | some rest =>
      rw [hrest] at h
      obtain ⟨hhandle, hwithin⟩ := hs.handle.of_rest hrest
      refine ⟨_, .skip bytes hhandle, hs.mirrors, ?_⟩
      cases rest with
      | nil =>
          cases h
          rw [List.drop_nil]
          exact .reading hrest hwithin
      | cons c rest =>
          cases h
          refine .reading ?_ (Handle.within_advance hwithin bytes)
          rw [Handle.rest_advance, hrest, Option.map_some]

/-- A write to a listing moves on in it. -/
theorem stores_overwrite {data text : Bytes} {pos : Nat} (hs : d.Stores s)
    (hfile : d.file = Handle.stringIO text pos) :
    ∃ s', s.Step (.skip data.length) s' ∧ DeviceDir.Stores s'
      { d with file := Handle.stringIO (blit text pos data) (pos + data.length) } := by
  have hrest : d.file.rest = some (text.drop pos) := by rw [hfile, Handle.rest]
  obtain ⟨hhandle, hwithin⟩ := hs.handle.of_rest hrest
  have hpos : pos ≤ text.length := by
    rw [hfile] at hwithin
    exact hwithin
  have hfront : (text.take pos ++ data).length = pos + data.length := by
    rw [List.length_append, List.length_take_of_le hpos]
  refine ⟨_, .skip data.length hhandle, hs.mirrors, .reading ?_ ?_⟩
  · dsimp only [Handle.rest]
    rw [blit, List.drop_left' hfront, List.drop_drop]
  · show pos + data.length ≤ (blit text pos data).length
    rw [blit, List.length_append, hfront]
    exact Nat.le_add_right _ _

/-- **A call is a step of the store**, or leaves it alone. -/
theorem stores (h : DirTurn d op d') (hs : d.Stores s) (hkeeps : Keeps op) :
    ∃ ops s', Means op ops ∧ s.Steps ops s' ∧ d'.Stores s' := by
  cases h with
  | openRead hread => exact stores_openRead hs hread
  | openWrite hwrite =>
      rename_i filename
      obtain ⟨hc, hkeep⟩ := hkeeps filename rfl
      exact ⟨_, _, .create filename, (FileStore.Step.create s _).steps,
        stores_openWrite hs hc hkeep hwrite⟩
  | read hread =>
      obtain ⟨s', hstep, hs'⟩ := stores_read hs hread
      exact ⟨_, s', .read _, hstep.steps, hs'⟩
  | append hfile hmem =>
      obtain ⟨s', hstep, hs'⟩ := stores_append hs hfile hmem
      exact ⟨_, s', .append _, hstep.steps, hs'⟩
  | overwrite hfile =>
      obtain ⟨s', hstep, hs'⟩ := stores_overwrite hs hfile
      exact ⟨_, s', .overwrite _, hstep.steps, hs'⟩
  | close hset => exact ⟨_, _, .close, (FileStore.Step.shut s).steps, hs.mirrors, .closed rfl⟩

end DirTurn

/-! ## Sequences of calls -/

/-- The calls of a directory device, as operations of the store. -/
theorem Device.performs_stores {ops : List Op} {dev' : Device} : ∀ {d : DeviceDir}
    {s : FileStore Bytes Byte}, (Device.dir d).performs ops = .ok dev' → d.Stores s →
      (∀ op ∈ ops, DirTurn.Keeps op) →
      ∃ d' opss s', dev' = .dir d' ∧ List.Forall₂ Means ops opss ∧ s.Steps opss.flatten s' ∧
        d'.Stores s' := by
  induction ops with
  | nil =>
      intro d s h hs _
      obtain rfl := Except.ok.inj h
      exact ⟨d, [], s, rfl, .nil, .nil s, hs⟩
  | cons op ops ih =>
      intro d s h hs hkeeps
      obtain ⟨dev₁, hop, hops⟩ := performs_cons.mp h
      obtain ⟨d₁, rfl, hturn⟩ := perform_dir hop
      obtain ⟨new, s₁, hmeans, hsteps, hs₁⟩ := hturn.stores hs (hkeeps op List.mem_cons_self)
      obtain ⟨d', opss, s', rfl, hall, hrest, hs'⟩ :=
        ih hops hs₁ fun op hop => hkeeps op (List.mem_cons_of_mem _ hop)
      exact ⟨d', new :: opss, s', rfl, .cons hmeans hall, hsteps.append hrest, hs'⟩

/-- However often a file is created, it is there, empty and open, and nothing else has changed. -/
theorem Device.performs_creates {filename : Bytes} {ops : List Op} {dev' : Device}
    (hc : C64Name (decode filename)) (hkeep : Keepable (decode filename)) : ∀ {d : DeviceDir}
    {s : FileStore Bytes Byte}, (Device.dir d).performs ops = .ok dev' → d.Stores s →
      (∀ op ∈ ops, op = .openFile filename .write) →
      ∃ d' s', dev' = .dir d' ∧ d'.Stores s' ∧ (s' = s ∨ s' =
        ⟨Function.update s.contents (decode filename) (some []), .appending (decode filename)⟩) := by
  induction ops with
  | nil =>
      intro d s h hs _
      obtain rfl := Except.ok.inj h
      exact ⟨d, s, rfl, hs, Or.inl rfl⟩
  | cons op ops ih =>
      intro d s h hs hall
      obtain rfl := hall op List.mem_cons_self
      obtain ⟨dev₁, hop, hops⟩ := performs_cons.mp h
      obtain ⟨d₁, rfl, hturn⟩ := perform_dir hop
      cases hturn with
      | openWrite hwrite =>
          have hs₁ := DirTurn.stores_openWrite hs hc hkeep hwrite
          obtain ⟨d', s', rfl, hs', heq⟩ :=
            ih hops hs₁ fun op hop => hall op (List.mem_cons_of_mem _ hop)
          refine ⟨d', s', rfl, hs', Or.inr ?_⟩
          rcases heq with rfl | rfl
          · rfl
          · simp only [Function.update_idem]

/-! ## Runs of the daemon -/

theorem exists_mem_of_forall₂ {α β : Type*} {R : α → β → Prop} {l : List α} {l' : List β} {b : β}
    (h : List.Forall₂ R l l') (hb : b ∈ l') : ∃ a ∈ l, R a b := by
  induction h with
  | nil => cases hb
  | cons hab _ ih =>
      rcases List.mem_cons.mp hb with rfl | hmem
      · exact ⟨_, List.mem_cons_self, hab⟩
      · obtain ⟨a, ha, hR⟩ := ih hmem
        exact ⟨a, List.mem_cons_of_mem _ ha, hR⟩

namespace Daemon

variable {es : List Event} {d d' : Daemon} {n : Nat} {dd : DeviceDir} {s : FileStore Bytes Byte}

/-- The operations on the store of device `n` that an event can stand for. -/
def Event.Means (n : Nat) (e : Event) (fops : List (FileOp Bytes Byte)) : Prop :=
  ∃ ops opss, (∀ op ∈ ops, e.Causes n op) ∧ List.Forall₂ Server.Means ops opss ∧
    fops = opss.flatten

/-- The write requests for device `n` are for names a directory can keep. -/
def AsksForKeepable (es : List Event) (n : Nat) : Prop :=
  ∀ filename, AsksToWrite es n filename → C64Name (decode filename) ∧ Keepable (decode filename)

/-- What one event does to the device, and to the store it is. -/
theorem step_stores {e : Event} (hstep : d.step e = .ok d') (hdev : d.devices n = some (.dir dd))
    (hs : dd.Stores s) (hnames : AsksForKeepable (e :: es) n) :
    ∃ dd' fops s', Event.Means n e fops ∧ s.Steps fops s' ∧ d'.devices n = some (.dir dd') ∧
      dd'.Stores s' := by
  obtain ⟨ops, dev₁, hdev₁, hcauses, hops⟩ := (step_performed hstep).device hdev
  have hkeeps : ∀ op ∈ ops, DirTurn.Keeps op := by
    intro op hop filename heq
    subst heq
    exact hnames filename (asksToWrite_of_causes List.mem_cons_self (hcauses _ hop))
  obtain ⟨dd₁, opss, s₁, rfl, hmeans, hsteps, hs₁⟩ := Device.performs_stores hops hs hkeeps
  exact ⟨dd₁, opss.flatten, s₁, ⟨ops, opss, hcauses, hmeans, rfl⟩, hsteps, hdev₁, hs₁⟩

theorem stores_of_run (h : d.run es = .ok d') (hdev : d.devices n = some (.dir dd))
    (hs : dd.Stores s) (hnames : AsksForKeepable es n) :
    ∃ dd' fopss s', List.Forall₂ (Event.Means n) es fopss ∧ s.Steps fopss.flatten s' ∧
      d'.devices n = some (.dir dd') ∧ dd'.Stores s' := by
  induction es generalizing d dd s with
  | nil =>
      obtain rfl := Except.ok.inj h
      exact ⟨dd, [], s, .nil, .nil s, hdev, hs⟩
  | cons e es ih =>
      obtain ⟨d₁, hstep, h⟩ := bind_eq_ok.mp h
      obtain ⟨dd₁, fops, s₁, hmeans, hsteps, hdev₁, hs₁⟩ := step_stores hstep hdev hs hnames
      have hrest : AsksForKeepable es n := by
        rintro filename ⟨sender, data, hmem, hasks⟩
        exact hnames filename ⟨sender, data, List.mem_cons_of_mem _ hmem, hasks⟩
      obtain ⟨dd', fopss, s', hall, hsteps', hdev', hs'⟩ := ih h hdev₁ hs₁ hrest
      exact ⟨dd', fops :: fopss, s', .cons hmeans hall, hsteps.append hsteps', hdev', hs'⟩

variable {b : BufferedDir}

/-- The file "A" with one byte. -/
def oneFile : DeviceDir where
  dir := {
    children := [(ascii "a.p00", .file (pc64Header (ascii "A") ++ [7]))]
    place := fun _ _ => 0
    nodup := List.nodup_singleton _ }
  file := .unset

def oneFileStore : FileStore Bytes Byte :=
  ⟨Function.update (fun _ => none) (ascii "A") (some [7]), .shut⟩

theorem c64Name_singleton {c : Byte} (h0 : c ≠ 0) (ha0 : c ≠ 0xa0) (hspace : c ≠ 32) :
    C64Name [c] where
  length := Nat.le_of_ble_eq_true rfl
  noPadding := by
    intro c' hc'
    rw [List.mem_singleton.mp hc']
    exact ⟨h0, ha0⟩
  noSpaceLast := by
    rintro ⟨pre, heq⟩
    have hlast := congrArg List.getLast? heq
    rw [List.getLast?_append] at hlast
    exact hspace (Option.some.inj hlast).symm

theorem keepable_singleton {c : Byte} (h : ∃ c' ∈ strippedFilename [c], c' ≠ 46) : Keepable [c] := by
  refine ⟨h, ?_⟩
  intro hinfix
  have hlen := hinfix.length_le
  simp at hlen

theorem stores_oneFile : oneFile.Stores oneFileStore where
  mirrors := by
    have hempty : DeviceDir.empty.dir.Mirrors fun _ => none :=
      DeviceDir.mirrors_of_noPc64 fun nm e hmem => by cases hmem
    have hext : isPc64Ext (extname (ascii "a.p00")) = true := by decide
    refine hempty.put (c64Name_singleton (by decide) (by decide) (by decide))
      (keepable_singleton (by decide)) hext (fun nm e => ?_) ?_
    · simp [oneFile, DeviceDir.empty]
    · intro e hmem
      cases hmem
  handle := .unset rfl

def oneFileDaemon : Daemon := .idle (fun n => if n = 8 then some (.dir oneFile) else none) []

/-- "B" is saved. -/
def saveB : List Event :=
  [.datagram ⟨[10, 0, 0, 2], 1069⟩ (serialize TFTP_WRQ (ascii "B") (ascii "octet") []),
    .datagram ⟨[10, 0, 0, 2], 1069⟩ (packetBytes TFTP_DATA 1 [8])]

theorem asksToWrite_saveB {filename : Bytes} (h : AsksToWrite saveB 8 filename) :
    decode filename = ascii "B" := by
  obtain ⟨sender, data, hmem, hop, -, rfl⟩ := h
  rcases List.mem_pair.mp hmem with heq | heq
  · obtain ⟨-, rfl⟩ := Event.datagram.inj heq
    decide
  · obtain ⟨-, rfl⟩ := Event.datagram.inj heq
    exact absurd hop (by decide)

theorem saveB_keepable : AsksForKeepable saveB 8 := by
  intro filename h
  rw [asksToWrite_saveB h]
  exact ⟨c64Name_singleton (by decide) (by decide) (by decide), keepable_singleton (by decide)⟩

theorem exists_run_saveB : ∃ d', oneFileDaemon.run saveB = .ok d' := by
  have hok : (oneFileDaemon.run saveB).toOption.isSome = true := by decide +kernel
  cases hrun : oneFileDaemon.run saveB with
  | error err =>
      rw [hrun] at hok
      cases hok
  | ok d' => exact ⟨d', rfl⟩

/-- A file is only created where a write request asks for it. -/
theorem asksToWrite_of_create {c64 : Bytes} {fopss : List (List (FileOp Bytes Byte))}
    (hall : List.Forall₂ (Event.Means n) es fopss) (hmem : .create c64 ∈ fopss.flatten) :
    ∃ filename, AsksToWrite es n filename ∧ decode filename = c64 := by
  obtain ⟨fops, hfops, hcreate⟩ := List.mem_flatten.mp hmem
  obtain ⟨e, he, ops, opss, hcauses, hmeans, rfl⟩ := exists_mem_of_forall₂ hall hfops
  obtain ⟨new, hnew, hcreate⟩ := List.mem_flatten.mp hcreate
  obtain ⟨op, hop, hnew⟩ := exists_mem_of_forall₂ hmeans hnew
  cases hnew with
  | create filename =>
      rw [List.mem_singleton] at hcreate
      refine ⟨filename, asksToWrite_of_causes he (hcauses _ hop), ?_⟩
      exact (FileOp.create.inj hcreate).symm
  | absent filename => cases hcreate
  | fetch hname => simp at hcreate
  | view hname text => simp at hcreate
  | append data => simp at hcreate
  | overwrite data => simp at hcreate
  | read bytes => simp at hcreate
  | close => simp at hcreate

/-- A read request finds what the store has. -/
theorem openFile_of_stores {filename w : Bytes} (hs : dd.Stores s)
    (hw : s.contents (decode filename) = some w) (hread : (decode filename).head? ≠ some 36) :
    dd.openFile filename .read = (.ok true, { dd with file := .reading w }) := by
  have hfound := DeviceDir.openRead_of_mirrors hs.mirrors hread
  rw [hw] at hfound
  unfold DeviceDir.openFile
  dsimp only at hfound ⊢
  rw [hfound]

/-- **What has been written is read back**, whatever has come in between: a file that is not open
for appending, and for which no write request comes, is what a read request finds. -/
theorem run_reads_back {filename w : Bytes} (h : d.run es = .ok d')
    (hdev : d.devices n = some (.dir dd)) (hs : dd.Stores s) (hnames : AsksForKeepable es n)
    (hw : s.contents (decode filename) = some w)
    (hhandle : s.handle ≠ .appending (decode filename))
    (hread : (decode filename).head? ≠ some 36)
    (hquiet : ∀ filename', AsksToWrite es n filename' → decode filename' ≠ decode filename) :
    ∃ dd', d'.devices n = some (.dir dd') ∧
      dd'.openFile filename .read = (.ok true, { dd' with file := .reading w }) := by
  obtain ⟨dd', fopss, s', hall, hsteps, hdev', hs'⟩ :=
    stores_of_run h hdev hs hnames
  have hcreate : .create (decode filename) ∉ fopss.flatten := by
    intro hmem
    obtain ⟨filename', hasks, heq⟩ := asksToWrite_of_create hall hmem
    exact hquiet filename' hasks heq
  have hw' : s'.contents (decode filename) = some w := by
    rw [hsteps.contents_eq hhandle hcreate, hw]
  exact ⟨dd', hdev', openFile_of_stores hs' hw' hread⟩

/-- "A" is read after "B" has been saved. -/
theorem run_reads_back_saveB : ∃ d' dd', oneFileDaemon.run saveB = .ok d' ∧
    d'.devices 8 = some (.dir dd') ∧
      dd'.openFile (ascii "A") .read = (.ok true, { dd' with file := .reading [7] }) := by
  obtain ⟨d', hrun⟩ := exists_run_saveB
  have hdecode : decode (ascii "A") = ascii "A" := by decide
  have hw : oneFileStore.contents (decode (ascii "A")) = some [7] := by
    rw [hdecode]
    rfl
  have hquiet : ∀ filename, AsksToWrite saveB 8 filename →
      decode filename ≠ decode (ascii "A") := by
    intro filename hasks heq
    exact absurd ((asksToWrite_saveB hasks).symm.trans (heq.trans hdecode)) (by decide)
  obtain ⟨dd', hdev, hopen⟩ := run_reads_back hrun rfl stores_oneFile saveB_keepable hw
    (by simp [oneFileStore]) (by decide) hquiet
  exact ⟨d', dd', hrun, hdev, hopen⟩

end Daemon

end C64Iec.Server

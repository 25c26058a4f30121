import C64Iec.Server.Accesses
import C64Iec.Server.Calls
import C64Iec.Server.DirectoryMap

set_option autoImplicit false

/-! # What the daemon leaves alone

`DirTurn` says once what a call of a directory device does to the directory and to the handle. From
it, over every run of the daemon and whatever arrives: an entry of a directory stays as it is unless
it is a PC64 file and a write request has asked for its name, and a disk image never changes
(`Daemon.run_untouched`).
-/

namespace C64Iec.Server

open Lib

/-! ## Calls of a directory device -/

/-- What a call makes of a directory device. -/
inductive DirTurn (d : DeviceDir) : Device.Op → DeviceDir → Prop
  | openRead {filename : Bytes} {opened : Bool} {d' : DeviceDir}
      (h : d.openRead (decode filename) = .ok (opened, d')) : DirTurn d (.openFile filename .read) d'
  | openWrite {filename : Bytes} {d' : DeviceDir}
      (h : d.openWrite (decode filename) = (.ok true, d')) :
      DirTurn d (.openFile filename .write) d'
  | read {bytes : Nat} {data : Option Bytes} {file : Handle}
      (h : d.file.read bytes = .ok (data, file)) : DirTurn d (.read bytes) { d with file := file }
  | append {data name content : Bytes} (hfile : d.file = .appending name)
      (hmem : (name, .file content) ∈ d.dir.children) :
      DirTurn d (.write (some data)) { d with dir := d.dir.write name (content ++ data) }
  | overwrite {data s : Bytes} {pos : Nat} (hfile : d.file = Handle.stringIO s pos) :
      DirTurn d (.write (some data))
        { d with file := Handle.stringIO (blit s pos data) (pos + data.length) }
  | close (h : d.file ≠ .unset) : DirTurn d .close { d with file := .closed }

theorem DeviceDir.write_eq_ok {d d' : DeviceDir} {data : Option Bytes} (h : d.write data = .ok d') :
    DirTurn d (.write data) d' := by
  unfold write at h
  split at h
  · cases h
  · split at h
    · split at h
      · rename_i hfile _ content hlook
        cases h
        exact .append hfile (Dir.lookup_eq_some.mp hlook)
      · cases h
    · rename_i hfile
      cases h
      exact .overwrite hfile
    · cases h

theorem DeviceDir.close_eq_ok {d d' : DeviceDir} (h : d.close = .ok d') : DirTurn d .close d' := by
  obtain ⟨file, hfile, h⟩ := bind_eq_ok.mp h
  cases h
  unfold Handle.close at hfile
  split at hfile
  · cases hfile
  · rename_i hset
    cases hfile
    exact .close hset

/-- **A call of a directory device**, seen from the directory. -/
theorem Device.perform_dir {d : DeviceDir} {op : Op} {dev' : Device}
    (h : (Device.dir d).perform op = .ok dev') : ∃ d', dev' = .dir d' ∧ DirTurn d op d' := by
  cases op with
  | openFile filename mode =>
      obtain ⟨⟨opened, dev⟩, hopen, h⟩ := bind_eq_ok.mp h
      cases h
      cases mode with
      | read =>
          simp only [openFile, DeviceDir.openFile] at hopen
          rcases hd : d.openRead (decode filename) with e | ⟨opened', d'⟩
          · rw [hd] at hopen
            cases hopen
          · rw [hd] at hopen
            cases hopen
            exact ⟨d', rfl, .openRead hd⟩
      | write =>
          simp only [openFile, DeviceDir.openFile] at hopen
          rcases hd : d.openWrite (decode filename) with ⟨e | opened', d'⟩
          · rw [hd] at hopen
            cases hopen
          · rw [hd] at hopen
            cases hopen
            obtain rfl := (DeviceDir.openWrite_eq_ok hd).1
            exact ⟨d', rfl, .openWrite hd⟩
  | read bytes =>
      obtain ⟨⟨data, dev⟩, hread, h⟩ := bind_eq_ok.mp h
      obtain ⟨⟨data, d'⟩, hd, hread⟩ := bind_eq_ok.mp hread
      obtain ⟨⟨data, file⟩, hfile, hd⟩ := bind_eq_ok.mp hd
      cases h
      cases hread
      cases hd
      exact ⟨_, rfl, .read hfile⟩
  | write data =>
      obtain ⟨d', hd, h⟩ := bind_eq_ok.mp h
      cases h
      exact ⟨d', rfl, DeviceDir.write_eq_ok hd⟩
  | close =>
      obtain ⟨d', hd, h⟩ := bind_eq_ok.mp h
      cases h
      exact ⟨d', rfl, DeviceDir.close_eq_ok hd⟩

/-- Opening for reading leaves the directory alone, and the handle when nothing is found. -/
theorem DeviceDir.openRead_cases {d d' : DeviceDir} {c64 : Bytes} {opened : Bool}
    (h : d.openRead c64 = .ok (opened, d')) :
    d' = d ∨ ∃ file : Handle, d' = { d with file := file } ∧ file.rest.isSome = true := by
  unfold openRead at h
  split at h
  · obtain ⟨listing, -, h⟩ := bind_eq_ok.mp h
    cases h
    exact Or.inr ⟨_, rfl, rfl⟩
  · split at h
    · cases h
    · cases h
      exact Or.inl rfl
    · split at h
      · cases h
        exact Or.inr ⟨_, rfl, rfl⟩
      · cases h

/-- A handle that is read from stays one that can be read. -/
theorem Handle.rest_of_read {file file' : Handle} {bytes : Nat} {data : Option Bytes}
    (h : file.read bytes = .ok (data, file')) : file'.rest.isSome = true :=
  Handle.readable_of_read h

/-! ## An entry that is not asked for -/

namespace DirTurn

variable {d d' : DeviceDir} {op : Device.Op} {nm : Bytes} {e : Entry}

/-- The entry is listed, and it is not the file that is appended to. -/
def Listed (nm : Bytes) (e : Entry) (d : DeviceDir) : Prop :=
  (nm, e) ∈ d.dir.children ∧ d.file ≠ .appending nm

theorem ne_appending {file : Handle} (h : file.rest.isSome = true) : file ≠ .appending nm := by
  rintro rfl
  cases h

/-- **A call leaves an entry alone** unless it opens the C64 name of the entry for writing. -/
theorem keeps (h : DirTurn d op d') (hlisted : Listed nm e d)
    (hname : ∀ filename, op = .openFile filename .write → ∀ content, e = .file content →
      pc64C64Filename content ≠ .ok (decode filename)) : Listed nm e d' := by
  obtain ⟨hmem, hne⟩ := hlisted
  cases h with
  | openRead hread =>
      rcases DeviceDir.openRead_cases hread with rfl | ⟨file, rfl, hrest⟩
      · exact ⟨hmem, hne⟩
      · exact ⟨hmem, ne_appending hrest⟩
  | openWrite hwrite =>
      rename_i filename
      have hfound : findLocal (decode filename) d.dir.children ≠ .ok (some nm) := by
        intro hfound
        obtain ⟨content, hfile, hc64⟩ := findLocal_some hfound
        exact hname filename rfl content (Dir.eq_of_mem hmem hfile) hc64
      refine ⟨?_, ?_⟩
      · have hkeeps := DeviceDir.openWrite_keeps hmem hfound
        rwa [hwrite] at hkeeps
      · obtain ⟨name, local_, -, hlocal, hfile, hold, -⟩ := DeviceDir.openWrite_children hwrite
        -- the file that is created has a name of its own
        rw [hfile]
        intro heq
        obtain rfl := Handle.appending.inj heq
        exact hfound (hlocal.trans (congrArg Except.ok (hold e hmem)))
  | read hread => exact ⟨hmem, ne_appending (Handle.rest_of_read hread)⟩
  | append hfile hcontent =>
      rename_i data name content
      have hnm : nm ≠ name := by
        rintro rfl
        exact hne hfile
      exact ⟨Dir.mem_write.mpr (Or.inr ⟨hnm, hmem⟩), hne⟩
  | overwrite hfile => exact ⟨hmem, by simp⟩
  | close hset => exact ⟨hmem, by simp⟩

end DirTurn

/-- A disk image is only read. -/
theorem Device.perform_d64 {d : DeviceD64} {op : Op} {dev' : Device}
    (h : (Device.d64 d).perform op = .ok dev') : ∃ d', dev' = .d64 d' ∧ d'.image = d.image := by
  cases op with
  | openFile filename mode =>
      obtain ⟨⟨opened, dev⟩, hopen, h⟩ := bind_eq_ok.mp h
      obtain ⟨⟨opened', d'⟩, hd, hopen⟩ := bind_eq_ok.mp hopen
      cases h
      cases hopen
      refine ⟨d', rfl, ?_⟩
      unfold DeviceD64.openFile at hd
      dsimp only at hd
      split at hd
      · obtain ⟨listing, -, hd⟩ := bind_eq_ok.mp hd
        cases hd
        rfl
      · obtain ⟨entry, -, hd⟩ := bind_eq_ok.mp hd
        cases entry with
        | none =>
            cases hd
            rfl
        | some entry =>
            obtain ⟨track, -, hd⟩ := bind_eq_ok.mp hd
            obtain ⟨sector, -, hd⟩ := bind_eq_ok.mp hd
            obtain ⟨data, -, hd⟩ := bind_eq_ok.mp hd
            cases hd
            rfl
  | read bytes =>
      obtain ⟨⟨data, dev⟩, hread, h⟩ := bind_eq_ok.mp h
      obtain ⟨⟨data, d'⟩, hd, hread⟩ := bind_eq_ok.mp hread
      obtain ⟨⟨data, file⟩, -, hd⟩ := bind_eq_ok.mp hd
      cases h
      cases hread
      cases hd
      exact ⟨_, rfl, rfl⟩
  | write data => cases h
  | close =>
      obtain ⟨d', hd, h⟩ := bind_eq_ok.mp h
      obtain ⟨file, -, hd⟩ := bind_eq_ok.mp hd
      cases h
      cases hd
      exact ⟨_, rfl, rfl⟩

/-! ## Runs of the daemon -/

namespace Daemon

/-- A write request for this name on device `n` arrives. -/
def AsksToWrite (es : List Event) (n : Nat) (filename : Bytes) : Prop :=
  ∃ sender data, Event.datagram sender data ∈ es ∧ opcode (recvfrom data) = TFTP_WRQ ∧
    requestDevice (recvfrom data) = n ∧ requestFile (recvfrom data) = filename

theorem asksToWrite_of_causes {es : List Event} {e : Event} {n : Nat} {filename : Bytes}
    (he : e ∈ es) (h : e.Causes n (.openFile filename .write)) : AsksToWrite es n filename := by
  cases e with
  | datagram sender data =>
      cases h with
      | wrq hop hn => exact ⟨sender, data, he, hop, hn, rfl⟩
  | silence => cases h

/-- What the events leave of device `n` as it was. -/
structure Untouched (es : List Event) (n : Nat) (d d' : Daemon) : Prop where
  image : ∀ dd, d.devices n = some (.d64 dd) →
    ∃ dd', d'.devices n = some (.d64 dd') ∧ dd'.image = dd.image
  entry : ∀ dd nm e, d.devices n = some (.dir dd) → (nm, e) ∈ dd.dir.children →
    dd.file ≠ .appending nm →
    (∀ filename, AsksToWrite es n filename → ∀ content, e = .file content →
      pc64C64Filename content ≠ .ok (decode filename)) →
    ∃ dd', d'.devices n = some (.dir dd') ∧ (nm, e) ∈ dd'.dir.children

/-- **Only what is asked for is written**: whatever arrives, an image stays as it is, and so does an
entry of a directory for whose C64 name no write request comes. -/
theorem run_untouched {es : List Event} {d d' : Daemon} (h : d.run es = .ok d') (n : Nat) :
    Untouched es n d d' where
  image dd hdev := by
    obtain ⟨dev', hdev', dd', rfl, himage⟩ := run_invariant
      (I := fun dev => ∃ dd', dev = .d64 dd' ∧ dd'.image = dd.image)
      (fun e _ op _ dev dev' hI hop => by
        obtain ⟨dd₁, rfl, himage₁⟩ := hI
        obtain ⟨dd₂, rfl, himage₂⟩ := Device.perform_d64 hop
        exact ⟨dd₂, rfl, himage₂.trans himage₁⟩) h hdev ⟨dd, rfl, rfl⟩
    exact ⟨dd', hdev', himage⟩
  entry dd nm e hdev hmem hne hname := by
    obtain ⟨dev', hdev', dd', rfl, hlisted⟩ := run_invariant
      (I := fun dev => ∃ dd', dev = .dir dd' ∧ DirTurn.Listed nm e dd')
      (fun ev hev op hcause dev dev' hI hop => by
        obtain ⟨dd₁, rfl, hlisted⟩ := hI
        obtain ⟨dd₂, rfl, hturn⟩ := Device.perform_dir hop
        refine ⟨dd₂, rfl, hturn.keeps hlisted fun filename heq => ?_⟩
        subst heq
        exact hname filename (asksToWrite_of_causes hev hcause)) h hdev ⟨dd, rfl, hmem, hne⟩
    exact ⟨dd', hdev', hlisted.1⟩

/-- Device 8 is a directory with the file "A!", under the local name that "A" has too. -/
def otherFileDaemon : Daemon :=
  .idle (fun n => if n = 8 then some (.dir DeviceDir.otherFile) else none) []

/-- "A" is saved. -/
def saveA : List Event :=
  [.datagram ⟨[10, 0, 0, 2], 1069⟩ (serialize TFTP_WRQ (ascii "A") (ascii "octet") []),
    .datagram ⟨[10, 0, 0, 2], 1069⟩ (packetBytes TFTP_DATA 1 [7])]

/-- The two names do not meet. -/
theorem run_untouched_saveA :
    ∃ d', otherFileDaemon.run saveA = .ok d' ∧ Untouched saveA 8 otherFileDaemon d' := by
  have hok : (otherFileDaemon.run saveA).toOption.isSome = true := by decide +kernel
  cases hrun : otherFileDaemon.run saveA with
  | error err =>
      rw [hrun] at hok
      cases hok
  | ok d' => exact ⟨d', rfl, run_untouched hrun 8⟩

end Daemon

end C64Iec.Server

import C64Iec.Server.DiskChains
import C64Iec.Server.Directory
import C64Iec.Server.Turn

set_option autoImplicit false

/-! # Opening a file of a device

`Device.Opens` is the condition under which `open` raises nothing (`Device.openFile_ok_iff`): for a
directory it is about the files that are looked at and about the names that are free, for a disk
image about its sector chains.
-/

namespace C64Iec.Server

open Lib

/-! ## Headers -/

/-- The file, if the child is one, is long enough to have a name in its header. -/
def Entry.headed : Entry → Bool
  | .file content => 8 ≤ content.length
  | .other => true

/-- The C64 name in the header. -/
def c64Name (content : Bytes) : Bytes := stripPadding ((content.drop 8).take PC64_FILENAME_SIZE)

theorem pc64C64Filename_of_le {content : Bytes} (h : 8 ≤ content.length) :
    pc64C64Filename content = .ok (c64Name content) := by
  have hne : content ≠ [] := by
    rintro rfl
    simp at h
  have hlen : ¬(content.take PC64_HEADER_SIZE).length < 8 := by
    rw [List.length_take, PC64_HEADER_SIZE]
    omega
  have hfield : ((content.take PC64_HEADER_SIZE).drop 8).take PC64_FILENAME_SIZE
      = (content.drop 8).take PC64_FILENAME_SIZE := by
    rw [List.drop_take, List.take_take]
    rfl
  rw [pc64C64Filename, if_neg hne]
  simp only [hlen, if_false, hfield, c64Name]

theorem pc64C64Filename_of_lt {content : Bytes} (h : content.length < 8) :
    pc64C64Filename content = .error .noMethodError := by
  have hlen : (content.take PC64_HEADER_SIZE).length < 8 := by
    rw [List.length_take]
    omega
  rw [pc64C64Filename]
  simp only [hlen, if_true, ite_self]

/-! ## Searching a directory -/

/-- The child is a PC64 file with this C64 name. -/
def carries (c64 : Bytes) (child : Bytes × Entry) : Bool :=
  match child.2 with
  | .file content => isPc64 child.1 child.2 && child.2.headed && c64Name content == c64
  | .other => false

/-- The PC64 files before the first with this C64 name have headers. -/
def Searchable (c64 : Bytes) (children : List (Bytes × Entry)) : Prop :=
  ∀ child ∈ children.takeWhile (!carries c64 ·), isPc64 child.1 child.2 = true →
    child.2.headed = true

theorem searchable_cons_of_carries {c64 : Bytes} {child : Bytes × Entry}
    (h : carries c64 child = true) (children : List (Bytes × Entry)) :
    Searchable c64 (child :: children) := by
  simp [Searchable, h]

theorem searchable_cons_of_not {c64 : Bytes} {child : Bytes × Entry}
    (h : ¬carries c64 child = true) (children : List (Bytes × Entry)) :
    Searchable c64 (child :: children) ↔
      (isPc64 child.1 child.2 = true → child.2.headed = true) ∧ Searchable c64 children := by
  simp [Searchable, h]

/-- **`find_local`** finds the first file with the name, if the files before it have headers; the
induction is on the listing. -/
theorem findLocal_eq (c64 : Bytes) : ∀ children : List (Bytes × Entry),
    Searchable c64 children ∧
        findLocal c64 children = .ok ((children.find? (carries c64)).map Prod.fst) ∨
      ¬Searchable c64 children ∧ findLocal c64 children = .error .noMethodError
  | [] => Or.inl ⟨by simp [Searchable], rfl⟩
  | (name, .other) :: rest => by
      have hnot : ¬carries c64 (name, Entry.other) = true := by simp [carries]
      have ih := findLocal_eq c64 rest
      rw [searchable_cons_of_not hnot, findLocal, List.find?_cons_of_neg hnot]
      simpa [Entry.headed] using ih
  | (name, .file content) :: rest => by
      have ih := findLocal_eq c64 rest
      by_cases hpc : isPc64 name (.file content) = true
      -- a header too short to hold the name raises, whatever name is looked for
      · by_cases hlen : 8 ≤ content.length
        · by_cases hname : c64Name content = c64
          · have hcarries : carries c64 (name, .file content) = true := by
              simp [carries, hpc, Entry.headed, hlen, hname]
            refine Or.inl ⟨searchable_cons_of_carries hcarries rest, ?_⟩
            simp [findLocal, hpc, pc64C64Filename_of_le hlen, hname,
              List.find?_cons_of_pos hcarries]
          · have hnot : ¬carries c64 (name, .file content) = true := by
              simp [carries, hname]
            rw [searchable_cons_of_not hnot, List.find?_cons_of_neg hnot]
            simpa [findLocal, hpc, pc64C64Filename_of_le hlen, hname, Entry.headed, hlen] using ih
        · have hnot : ¬carries c64 (name, .file content) = true := by
            simp [carries, Entry.headed, hlen]
          refine Or.inr ⟨?_, ?_⟩
          · rw [searchable_cons_of_not hnot]
            simp [hpc, Entry.headed, hlen]
          · simp [findLocal, hpc, pc64C64Filename_of_lt (Nat.lt_of_not_le hlen)]
      · have hnot : ¬carries c64 (name, .file content) = true := by
          simp [carries, hpc]
        rw [searchable_cons_of_not hnot, List.find?_cons_of_neg hnot]
        simpa [findLocal, hpc] using ih

/-! ## Listing a directory -/

theorem dirEntry_of_le {content : Bytes} (h : 8 ≤ content.length) :
    ∃ line, dirEntry content = .ok line := by
  have hlen : (stripPadding (c64Name content)).length ≤ PC64_FILENAME_SIZE :=
    ((stripPadding_length_le _).trans (stripPadding_length_le _)).trans
      (List.length_take_le _ _)
  simp [dirEntry, pc64C64Filename_of_le h, rewriteFilename_of_le hlen, bind, Except.bind,
    pure, Except.pure]

theorem dirEntries_ok_iff : ∀ children : List (Bytes × Entry),
    (∃ lines, dirEntries children = .ok lines) ↔
      ∀ child ∈ children, isP00 child.1 = true → child.2.headed = true
  | [] => by simp [dirEntries]
  | (name, .other) :: rest => by
      rw [List.forall_mem_cons, dirEntries, dirEntries_ok_iff rest]
      simp [Entry.headed]
  | (name, .file content) :: rest => by
      rw [List.forall_mem_cons, ← dirEntries_ok_iff rest]
      by_cases hp00 : isP00 name = true
      · by_cases hlen : 8 ≤ content.length
        · obtain ⟨line, hline⟩ := dirEntry_of_le hlen
          simp only [dirEntries, hp00, hline, bind, Except.bind, Entry.headed, hlen]
          cases dirEntries rest <;> simp [pure, Except.pure]
        · simp [dirEntries, hp00, dirEntry, pc64C64Filename_of_lt (Nat.lt_of_not_le hlen), bind,
            Except.bind, Entry.headed, hlen]
      · simp [dirEntries, hp00]

/-- `directory` lists a directory whose files have headers. -/
theorem directory_ok_iff (d : Dir) : (∃ listing, directory d = .ok listing) ↔
    ∀ child ∈ d.children, isP00 child.1 = true → child.2.headed = true := by
  rw [← dirEntries_ok_iff, directory]
  cases dirEntries d.children <;> simp [bind, Except.bind, pure, Except.pure]

/-! ## The device -/

namespace DeviceDir

/-- One of the hundred local names for `c64` is free, or its file is the one that is replaced. -/
def LocalNameFree (children : List (Bytes × Entry)) (c64 : Bytes) : Prop :=
  ∃ n < 100, ∀ child ∈ children, child.1 = pc64File (strippedFilename c64) n →
    children.find? (carries c64) = some child

/-- The directory opens a name, or finds it missing. -/
def Opens (d : DeviceDir) (filename : Bytes) : Mode → Prop
  | .read =>
      if (decode filename).head? = some 36 then
        ∀ child ∈ d.dir.children, isP00 child.1 = true → child.2.headed = true
      else Searchable (decode filename) d.dir.children
  | .write =>
      Searchable (decode filename) d.dir.children ∧
        (decode filename).length ≤ PC64_FILENAME_SIZE ∧
        LocalNameFree d.dir.children (decode filename)

variable {d : DeviceDir} {c64 : Bytes}

theorem openRead_ok_iff : (∃ r, d.openRead c64 = .ok r) ↔
    if c64.head? = some 36 then
      ∀ child ∈ d.dir.children, isP00 child.1 = true → child.2.headed = true
    else Searchable c64 d.dir.children := by
  by_cases hdollar : c64.head? = some 36
  · rw [if_pos hdollar, ← directory_ok_iff, openRead, if_pos hdollar]
    cases directory d.dir <;> simp [bind, Except.bind, pure, Except.pure]
  · rw [if_neg hdollar, openRead, if_neg hdollar]
    rcases findLocal_eq c64 d.dir.children with ⟨hsearch, hfind⟩ | ⟨hsearch, hfind⟩
    · rw [hfind]
      cases hfound : d.dir.children.find? (carries c64) with
      | none => simp [hsearch]
      | some child =>
          obtain ⟨name, e⟩ := child
          cases e with
          | other => simpa [carries] using List.find?_some hfound
          | file content =>
              have hlook := Dir.lookup_eq_some.mpr (List.mem_of_find?_eq_some hfound)
              simp [hsearch, hlook]
    · simp [hsearch, hfind]

theorem localEncode_ne_none_iff (dir : Dir) (c64 : Bytes) : localEncode dir c64 ≠ none ↔
    ∃ n < 100, ∀ e, (pc64File (strippedFilename c64) n, e) ∉ dir.children := by
  rw [localEncode, ne_eq, List.find?_eq_none]
  simp only [List.mem_map, List.mem_range, forall_exists_index, and_imp,
    forall_apply_eq_imp_iff₂, Bool.not_eq_true', Bool.not_eq_false, not_forall,
    Bool.not_eq_true, exists_prop]
  refine exists_congr fun n => and_congr_right fun _ => ?_
  rw [← Bool.not_eq_true, Dir.exist_iff, not_exists]

theorem openWrite_eq {local_ : Option Bytes} (h : findLocal c64 d.dir.children = .ok local_) :
    d.openWrite c64 = match createLocal (withoutOld d.dir local_) c64 with
      | (.error err, dir) => (.error err, { d with dir := dir })
      | (.ok name, dir) => (.ok true, { dir := dir, file := .appending name }) := by
  rw [openWrite, h]
  cases local_ <;> rfl

/-- What unlinking the file that is replaced leaves free. -/
theorem localNameFree_iff (dir : Dir) (c64 : Bytes) :
    LocalNameFree dir.children c64 ↔
      localEncode (withoutOld dir ((dir.children.find? (carries c64)).map Prod.fst)) c64 ≠ none := by
  rw [localEncode_ne_none_iff, LocalNameFree]
  refine exists_congr fun n => and_congr_right fun _ => ?_
  generalize pc64File (strippedFilename c64) n = nm
  cases hfound : dir.children.find? (carries c64) with
  | none =>
      simp only [Option.map_none, withoutOld, reduceCtorEq, imp_false]
      exact ⟨fun h e hmem => h (nm, e) hmem rfl, fun h child hmem hnm => h child.2 (hnm ▸ hmem)⟩
  | some child =>
      have hmem := List.mem_of_find?_eq_some hfound
      simp only [Option.map_some, withoutOld, Dir.mem_unlink, Option.some.injEq, not_and]
      constructor
      · intro h e hne hin
        exact hne (congrArg Prod.fst (h (nm, e) hin rfl)).symm
      · rintro h ⟨nm', e⟩ hin rfl
        by_cases hne : nm' = child.1
        · subst hne
          exact Prod.ext rfl (Dir.eq_of_mem hmem hin)
        · exact absurd hin (h e hne)

theorem openWrite_ok_iff : (∃ opened d', d.openWrite c64 = (.ok opened, d')) ↔
    Searchable c64 d.dir.children ∧ c64.length ≤ PC64_FILENAME_SIZE ∧
      LocalNameFree d.dir.children c64 := by
  rcases findLocal_eq c64 d.dir.children with ⟨hsearch, hfind⟩ | ⟨hsearch, hfind⟩
  · rw [localNameFree_iff, openWrite_eq hfind]
    generalize withoutOld _ _ = dir
    rw [createLocal]
    cases localEncode dir c64 with
    | none => simp
    | some name =>
        by_cases hlen : c64.length ≤ PC64_FILENAME_SIZE
        · simp [hsearch, hlen, Nat.not_lt.mpr hlen]
        · simp [hlen, Nat.lt_of_not_le hlen]
  · simp [openWrite, hfind, hsearch]

/-- **`DeviceDir#open`** raises nothing under this condition, and only under it. -/
theorem openFile_ok_iff (d : DeviceDir) (filename : Bytes) (mode : Mode) :
    (∃ opened d', d.openFile filename mode = (.ok opened, d')) ↔ d.Opens filename mode := by
  cases mode with
  | read =>
      rw [Opens, ← openRead_ok_iff, openFile]
      cases d.openRead (decode filename) <;> simp
  | write => exact openWrite_ok_iff

end DeviceDir

/-- The device opens a name, or finds it missing. -/
def Device.Opens (filename : Bytes) (mode : Mode) : Device → Prop
  | dir d => d.Opens filename mode
  | d64 d => d.Opens filename

/-- **`open`** raises nothing under this condition, and only under it. -/
theorem Device.openFile_ok_iff (dev : Device) (filename : Bytes) (mode : Mode) :
    (∃ r, dev.openFile filename mode = .ok r) ↔ dev.Opens filename mode := by
  cases dev with
  | dir d =>
      rw [Device.Opens, ← d.openFile_ok_iff, Device.openFile]
      rcases d.openFile filename mode with ⟨e | opened, d'⟩ <;> simp
  | d64 d =>
      rw [Device.Opens, ← d.openFile_ok_iff, Device.openFile]
      cases d.openFile filename <;> simp [bind, Except.bind, pure, Except.pure]

/-! ## What is open afterwards -/

/-- What a handle can be read for, or written to. -/
def Handle.readable (h : Handle) : Bool := h.rest.isSome

def Handle.writable : Handle → Bool
  | .appending _ => true
  | Handle.stringIO _ _ => true
  | _ => false

theorem Handle.readable_of_read {h h' : Handle} {n : Nat} {data : Option Bytes}
    (hread : h.read n = .ok (data, h')) : h'.readable = true := by
  cases h with
  | reading r =>
      cases r <;> cases hread <;> rfl
  | stringIO s pos =>
      simp only [Handle.read, Handle.rest] at hread
      split at hread
      · cases hread
      · cases hread
        rfl
      · cases hread
        rfl
  | unset => cases hread
  | appending name => cases hread
  | closed => cases hread

/-- Whether `write` has something to write to. -/
def Device.writable : Device → Bool
  | dir d => d.file.writable
  | d64 _ => false

theorem DeviceDir.readable_of_openRead {d d' : DeviceDir} {c64 : Bytes}
    (h : d.openRead c64 = .ok (true, d')) : d'.file.readable = true := by
  unfold openRead at h
  split at h
  · obtain ⟨listing, -, h⟩ := bind_eq_ok.mp h
    cases h
    rfl
  · split at h
    · cases h
    · cases h
    · split at h
      · cases h
        rfl
      · cases h

theorem DeviceD64.readable_of_openFile {d d' : DeviceD64} {filename : Bytes}
    (h : d.openFile filename = .ok (true, d')) : d'.file.readable = true := by
  unfold openFile at h
  dsimp only at h
  split at h
  · obtain ⟨listing, -, h⟩ := bind_eq_ok.mp h
    cases h
    rfl
  · obtain ⟨entry, -, h⟩ := bind_eq_ok.mp h
    cases entry with
    | none => cases h
    | some entry =>
        obtain ⟨track, -, h⟩ := bind_eq_ok.mp h
        obtain ⟨sector, -, h⟩ := bind_eq_ok.mp h
        obtain ⟨data, -, h⟩ := bind_eq_ok.mp h
        cases h
        rfl

/-- What has been opened to read can be read. -/
theorem Device.readable_of_openFile {dev dev' : Device} {filename : Bytes}
    (h : dev.openFile filename .read = .ok (true, dev')) : dev'.file.readable = true := by
  cases dev with
  | dir d =>
      simp only [openFile, DeviceDir.openFile] at h
      rcases hopen : d.openRead (decode filename) with e | ⟨opened, d'⟩
      · rw [hopen] at h
        cases h
      · rw [hopen] at h
        cases h
        exact DeviceDir.readable_of_openRead hopen
  | d64 d =>
      obtain ⟨⟨opened, d'⟩, hopen, h⟩ := bind_eq_ok.mp h
      cases h
      exact DeviceD64.readable_of_openFile hopen

/-- A file that is being appended to is still in the directory. -/
def Device.Listed : Device → Prop
  | dir d => ∀ name, d.file = .appending name → ∃ content, d.dir.lookup name = some (.file content)
  | d64 _ => True

theorem Device.listed_of_readable {d : DeviceDir} (h : d.file.readable = true) :
    (dir d).Listed := by
  intro name hname
  rw [hname] at h
  cases h

theorem DeviceDir.listed_of_openFile {d d' : DeviceDir} {filename : Bytes} {mode : Mode}
    {opened : Bool} (hd : (Device.dir d).Listed) (h : d.openFile filename mode = (.ok opened, d')) :
    (Device.dir d').Listed := by
  cases mode with
  | read =>
      simp only [openFile] at h
      rcases hopen : d.openRead (decode filename) with e | ⟨opened', d''⟩
      · rw [hopen] at h
        cases h
      · rw [hopen] at h
        cases h
        cases opened with
        | true =>
            exact Device.listed_of_readable (readable_of_openRead hopen)
        | false =>
            have hsame : d' = d := by
              unfold openRead at hopen
              split at hopen
              · obtain ⟨listing, -, hopen⟩ := bind_eq_ok.mp hopen
                cases hopen
              · split at hopen
                · cases hopen
                · cases hopen
                  rfl
                · split at hopen <;> cases hopen
            rwa [hsame]
  | write =>
      obtain ⟨-, local_, name, -, hcreate, hfile⟩ := openWrite_eq_ok h
      obtain ⟨-, -, hdir⟩ := createLocal_eq_ok hcreate
      intro name' hname'
      cases hfile.symm.trans hname'
      rw [hdir]
      exact ⟨_, Dir.lookup_write_self⟩

/-- A file that is appended to is listed under its name. -/
theorem DeviceDir.listed_of_write {d d' : DeviceDir} {data : Option Bytes}
    (h : d.write data = .ok d') : (Device.dir d').Listed := by
  unfold write at h
  split at h
  · cases h
  · split at h
    · split at h
      · rename_i hfile _ content hlook
        cases h
        intro name' hname'
        obtain rfl := Handle.appending.inj (hfile.symm.trans hname')
        exact ⟨_, Dir.lookup_write_self⟩
      · cases h
    · cases h
      exact Device.listed_of_readable rfl
    · cases h

theorem DeviceDir.listed_of_close {d d' : DeviceDir} (h : d.close = .ok d') :
    (Device.dir d').Listed := by
  obtain ⟨file, hfile, h⟩ := bind_eq_ok.mp h
  cases h
  have hclosed : file = .closed := by
    unfold Handle.close at hfile
    split at hfile
    · cases hfile
    · cases hfile
      rfl
  intro name hname
  have hname' : file = .appending name := hname
  cases hclosed.symm.trans hname'

/-- **Every call of a device keeps the file it appends to in the directory.** -/
theorem Device.Listed.call {dev dev' : Device} (h : dev.Listed) (hcall : Device.Call dev dev') :
    dev'.Listed := by
  cases hcall with
  | openFile hopen =>
      cases dev with
      | dir d =>
          simp only [Device.openFile] at hopen
          rcases hd : d.openFile _ _ with ⟨e | opened, d'⟩
          · rw [hd] at hopen
            cases hopen
          · rw [hd] at hopen
            cases hopen
            exact DeviceDir.listed_of_openFile h hd
      | d64 d =>
          obtain ⟨⟨opened, d'⟩, -, hopen⟩ := bind_eq_ok.mp hopen
          cases hopen
          trivial
  | read hread =>
      cases dev with
      | dir d =>
          obtain ⟨⟨data, d'⟩, hd, hread⟩ := bind_eq_ok.mp hread
          obtain ⟨⟨data, file⟩, hfile, hd⟩ := bind_eq_ok.mp hd
          cases hread
          cases hd
          exact Device.listed_of_readable (Handle.readable_of_read hfile)
      | d64 d =>
          obtain ⟨⟨data, d'⟩, -, hread⟩ := bind_eq_ok.mp hread
          cases hread
          trivial
  | write hwrite =>
      cases dev with
      | dir d =>
          obtain ⟨d', hd, hwrite⟩ := bind_eq_ok.mp hwrite
          cases hwrite
          exact DeviceDir.listed_of_write hd
      | d64 d => cases hwrite
  | close hclose =>
      cases dev with
      | dir d =>
          obtain ⟨d', hd, hclose⟩ := bind_eq_ok.mp hclose
          cases hclose
          exact DeviceDir.listed_of_close hd
      | d64 d =>
          obtain ⟨d', -, hclose⟩ := bind_eq_ok.mp hclose
          cases hclose
          trivial

end C64Iec.Server

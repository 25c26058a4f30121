import C64Iec.Server.DiskChains
import C64Iec.Server.GetSession

set_option autoImplicit false

/-! # The files of a disk

A 1541 disk image holds the sectors of 35 tracks one behind the other. `diskSector` reads the
sector at a track and sector number that exist, `imageSector` one at any link that leads into the
image. On an image whose chains stay on the disk `open` finds the first program of the requested
name, and what is then read is its data (`formatted_loads`). On any other image it returns
exactly when the chains end (`openFile_ok_iff_ends`).
-/

namespace C64Iec.Server.DeviceD64

open Lib

/-! ## Sectors -/

/-- The size of an image: 683 sectors. -/
def IMAGE_SIZE : Nat := 174848

/-- The index of a sector: the sectors of the tracks before, and its own number. -/
def sectorIndex (a : Nat × Nat) : Nat := (SECTORS.take (a.1 - 1)).sum + a.2

def sectorAt (image : Bytes) (a : Nat × Nat) : Bytes :=
  (image.drop (sectorIndex a * BLKSIZE)).take BLKSIZE

/-- The link in the first two bytes of a sector. Track 0 ends a chain. -/
def link (blk : Bytes) : Option (Nat × Nat) :=
  if (blk.getD 0 0).toNat = 0 then none else some ((blk.getD 0 0).toNat, (blk.getD 1 0).toNat)

/-- The sector of this track and number exists. -/
def OnDisk (a : Nat × Nat) : Prop := 1 ≤ a.1 ∧ a.1 ≤ 35 ∧ a.2 < SECTORS.getD (a.1 - 1) 0

instance (a : Nat × Nat) : Decidable (OnDisk a) := inferInstanceAs (Decidable (_ ∧ _ ∧ _))

/-- The sector at a link to an existing sector. -/
def diskSector (image : Bytes) (a : Nat × Nat) : Option (Bytes × Option (Nat × Nat)) :=
  if OnDisk a then some (sectorAt image a, link (sectorAt image a)) else none

/-- The sector at a link that leads into the image. -/
def imageSector (image : Bytes) (a : Nat × Nat) : Option (Bytes × Option (Nat × Nat)) :=
  if sectorIndex a < 683 then some (sectorAt image a, link (sectorAt image a)) else none

/-- What exists lies in the image. -/
theorem OnDisk.sectorIndex_lt {a : Nat × Nat} (h : OnDisk a) : sectorIndex a < 683 := by
  obtain ⟨h1, h35, hs⟩ := h
  have htracks : ∀ t < 36, (SECTORS.take (t - 1)).sum + SECTORS.getD (t - 1) 0 ≤ 683 := by decide
  have := htracks a.1 (by omega)
  rw [sectorIndex]
  omega

/-- The tracks past the 35th lie behind the image. -/
theorem le_sectorIndex {a : Nat × Nat} (h : 35 < a.1) : 683 ≤ sectorIndex a := by
  have hprefix : (SECTORS.take 35).sum ≤ (SECTORS.take (a.1 - 1)).sum :=
    (List.take_sublist_take_left (by omega)).sum_le_sum fun _ _ => Nat.zero_le _
  have hsum : (SECTORS.take 35).sum = 683 := by decide
  rw [sectorIndex]
  omega

section Image

variable {image : Bytes} (himage : image.length = IMAGE_SIZE)

include himage

theorem sectorAt_length {a : Nat × Nat} (h : sectorIndex a < 683) :
    (sectorAt image a).length = BLKSIZE := by
  have hI : IMAGE_SIZE = 174848 := rfl
  have hB : BLKSIZE = 256 := rfl
  have hstart : sectorIndex a * BLKSIZE = sectorIndex a * 256 := rfl
  rw [sectorAt, List.length_take, List.length_drop]
  omega

/-- **`read_block`** reads the sectors of the image. -/
theorem readBlock_eq {a : Nat × Nat} (hin : sectorIndex a < 683) :
    readBlock image a.1 a.2 = .ok (some (sectorAt image a)) := by
  have hI : IMAGE_SIZE = 174848 := rfl
  have hB : BLKSIZE = 256 := rfl
  have hstart : sectorIndex a * BLKSIZE = sectorIndex a * 256 := rfl
  -- `block` looks up `SECTORS`, and a sector of the image never gets past its end
  have hblock : block a.1 a.2 = .ok (sectorIndex a) := by
    have ht : ¬a.1 - 1 > SECTORS.length := by
      have h35 : ¬35 < a.1 := fun h => absurd hin (Nat.not_lt.mpr (le_sectorIndex h))
      have hS : SECTORS.length = 40 := by decide
      omega
    rw [block]
    by_cases h1 : a.1 = 1
    · rw [if_pos h1, sectorIndex, h1]
      simp
    · rw [if_neg h1, if_neg ht, sectorIndex]
  simp only [readBlock, hblock, ok_bind, slice]
  rw [if_neg (by omega)]
  rfl

/-- A link that leads out of the image gives nothing that has a link. -/
theorem nextSector_eq (a : Nat × Nat) : nextSector image a = imageSector image a := by
  have hI : IMAGE_SIZE = 174848 := rfl
  have hB : BLKSIZE = 256 := rfl
  have hstart : sectorIndex a * BLKSIZE = sectorIndex a * 256 := rfl
  by_cases hin : sectorIndex a < 683
  · have hlen := sectorAt_length himage hin
    have hread := readBlock_eq himage hin
    have hlink : readLink image a.1 a.2 = .ok (sectorAt image a,
        ((sectorAt image a).getD 0 0).toNat, ((sectorAt image a).getD 1 0).toNat) := by
      simp only [readLink, hread, ok_bind, sizeOrRaise,
        uint8_of_lt (show 0 < (sectorAt image a).length by omega),
        uint8_of_lt (show 1 < (sectorAt image a).length by omega)]
      rfl
    rw [imageSector, if_pos hin]
    exact nextSector_of_readLink hlink
  · rw [imageSector, if_neg hin]
    suffices h : ∃ e, readLink image a.1 a.2 = .error e by
      obtain ⟨e, he⟩ := h
      exact nextSector_of_error he
    -- past the table `block` raises, past the image `read_block` finds nothing
    by_cases hS : a.1 - 1 > SECTORS.length
    · have h1 : a.1 ≠ 1 := by omega
      refine ⟨.typeError, ?_⟩
      simp only [readLink, readBlock, block, if_neg h1, if_pos hS, error_bind]
    · have hblock : block a.1 a.2 = .ok (sectorIndex a) := by
        rw [block]
        by_cases h1 : a.1 = 1
        · rw [if_pos h1, sectorIndex, h1]
          simp
        · rw [if_neg h1, if_neg hS, sectorIndex]
      refine ⟨.noMethodError, ?_⟩
      by_cases hend : image.length < sectorIndex a * BLKSIZE
      · simp only [readLink, readBlock, hblock, ok_bind, slice, if_pos hend]
        rfl
      · -- the slice at the very end of the image is empty
        have hnil : (image.drop (sectorIndex a * BLKSIZE)).take BLKSIZE = [] := by
          rw [List.drop_of_length_le (by omega), List.take_nil]
        simp only [readLink, readBlock, hblock, ok_bind, slice, if_neg hend, hnil]
        rfl

/-- The sectors of a chain are whole. -/
theorem length_of_chain {a : Nat × Nat} {blks : List Bytes}
    (h : Chain (imageSector image) a blks) : ∀ blk ∈ blks, blk.length = BLKSIZE := by
  have hsector : ∀ {a r}, imageSector image a = some r → r.1.length = BLKSIZE := by
    intro a r hr
    rw [imageSector] at hr
    split at hr
    · rename_i hin
      cases hr
      exact sectorAt_length himage hin
    · cases hr
  induction h with
  | last hlast =>
      intro blk hblk
      rw [List.mem_singleton.mp hblk]
      exact hsector hlast
  | link hlink _ ih =>
      intro blk hblk
      rcases List.mem_cons.mp hblk with rfl | hblk
      · exact hsector hlink
      · exact ih blk hblk

/-- **`collect_directory_entries`** finds the eight slots of every sector. -/
theorem directoryChain_iff {blks : List Bytes} :
    DirectoryChain image blks ↔ Chain (imageSector image) (18, 1) blks := by
  have hnext : nextSector image = imageSector image := funext (nextSector_eq himage)
  constructor
  · rintro ⟨hchain, -⟩
    rwa [SectorChain, hnext] at hchain
  · intro hchain
    refine ⟨by rwa [SectorChain, hnext], fun blk hblk => ?_⟩
    rw [SlotsInside, length_of_chain himage hchain blk hblk]
    decide

theorem sectorChain_iff {track sector : Nat} {blks : List Bytes} :
    SectorChain image track sector blks ↔ Chain (imageSector image) (track, sector) blks := by
  rw [SectorChain, funext (nextSector_eq himage)]

end Image

/-! ## Directory entries -/

/-- The link to the first sector of a file. -/
def start (entry : Bytes) : Nat × Nat := ((entry.getD 3 0).toNat, (entry.getD 4 0).toNat)

/-- The first of the programs with the name that is asked for. -/
def firstNamed (req : Bytes) (entries : List Bytes) : Option Bytes :=
  entries.find? fun entry => entryName entry = req

/-- Every slot of a whole sector is an entry of 32 bytes. -/
theorem programs_length {blk entry : Bytes} (hblk : blk.length = BLKSIZE)
    (h : entry ∈ programs blk) : entry.length = 32 := by
  have hB : BLKSIZE = 256 := rfl
  have hall : ∀ n offset, offset + 32 * n ≤ 256 → ∀ slot ∈ slotsFrom blk n offset,
      slot.length = 32 := by
    intro n
    induction n with
    | zero => simp [slotsFrom]
    | succ n ih =>
        intro offset hle slot hs
        rcases List.mem_cons.mp hs with rfl | hs
        · rw [List.length_take, List.length_drop]
          omega
        · exact ih (offset + 32) (by omega) slot hs
  exact hall 8 0 (by decide) entry (List.mem_filter.mp h).1

theorem findEntry_eq (req : Bytes) : ∀ {entries : List Bytes}, (∀ entry ∈ entries, 5 ≤ entry.length) →
    findEntry req entries = .ok (firstNamed req entries)
  | [], _ => rfl
  | entry :: rest, h => by
      rw [findEntry_cons (h entry (by simp)), findEntry_eq req fun e he => h e (by simp [he])]
      by_cases hreq : entryName entry = req
      · simp [firstNamed, hreq]
      · simp [firstNamed, hreq]

theorem findable_iff {image req : Bytes} : ∀ {entries : List Bytes},
    (∀ entry ∈ entries, 5 ≤ entry.length) →
      (Findable image req entries ↔ ∀ entry, firstNamed req entries = some entry →
        ∃ blks, SectorChain image (start entry).1 (start entry).2 blks)
  | [], _ => by simp [Findable, firstNamed]
  | entry :: rest, h => by
      have ih : Findable image req rest ↔ _ :=
        findable_iff fun e he => h e (List.mem_cons_of_mem entry he)
      rw [Findable, firstNamed, List.find?_cons]
      by_cases hreq : entryName entry = req
      · simp [hreq, h entry List.mem_cons_self, start]
      · simpa [hreq, h entry List.mem_cons_self, firstNamed] using ih

/-! ## Opening -/

section Opening

variable {d : DeviceD64} {filename : Bytes} {blks : List Bytes}

/-- The programs of a directory whose sectors are whole are complete. -/
theorem programs_complete (himage : d.image.length = IMAGE_SIZE)
    (hdir : Chain (imageSector d.image) (18, 1) blks) :
    ∀ entry ∈ blks.flatMap programs, entry.length = 32 := by
  intro entry hentry
  obtain ⟨blk, hblk, hentry⟩ := List.mem_flatMap.mp hentry
  exact programs_length (length_of_chain himage hdir blk hblk) hentry

/-- **`open`** of a name that is not "$" opens the first program of that name. -/
theorem openFile_eq (himage : d.image.length = IMAGE_SIZE)
    (hdir : Chain (imageSector d.image) (18, 1) blks)
    (hlen : (decode filename).length ≤ PC64_FILENAME_SIZE) (hdollar : decode filename ≠ [36]) :
    d.openFile filename =
      openEntry d (firstNamed (stripPadding (decode filename)) (blks.flatMap programs)) := by
  have hstrip := (stripPadding_length_le (decode filename)).trans hlen
  have hcomplete : ∀ entry ∈ blks.flatMap programs, 5 ≤ entry.length := by
    intro entry hentry
    rw [programs_complete himage hdir entry hentry]
    decide
  have hcollect := collectDirectoryEntries_eq_ok.mpr ⟨blks, (directoryChain_iff himage).mpr hdir, rfl⟩
  have hfind : findFile d.image (decode filename)
      = .ok (firstNamed (stripPadding (decode filename)) (blks.flatMap programs)) := by
    simp only [findFile, rewriteFilename_of_le hstrip, ok_bind, hcollect, findEntry_eq _ hcomplete]
  simp only [openFile, if_neg hdollar, hfind, ok_bind]
  generalize firstNamed _ _ = found
  cases found <;> rfl

/-- The program that is found is read along its chain. -/
theorem openEntry_of_chain {entry : Bytes} {blks : List Bytes}
    (himage : d.image.length = IMAGE_SIZE) (hentry : entry.length = 32)
    (hchain : Chain (imageSector d.image) (start entry) blks) :
    openEntry d (some entry) = .ok (true, { d with file := Handle.stringIO (fileData blks) 0 }) := by
  have hdata := readData_eq_ok.mpr ⟨blks, (sectorChain_iff himage).mpr hchain, rfl⟩
  simp only [openEntry, uint8_of_lt (show 3 < entry.length by omega),
    uint8_of_lt (show 4 < entry.length by omega), ok_bind]
  rw [show readData d.image (entry.getD 3 0).toNat (entry.getD 4 0).toNat = _ from hdata]
  rfl

/-- **`open` returns exactly when the chains end**: the directory's, and for a name that is found
the program's. -/
theorem openFile_ok_iff_ends (himage : d.image.length = IMAGE_SIZE)
    (hlen : (decode filename).length ≤ PC64_FILENAME_SIZE) :
    (∃ r, d.openFile filename = .ok r) ↔
      ∃ blks, Chain (imageSector d.image) (18, 1) blks ∧
        (decode filename ≠ [36] → ∀ entry,
          firstNamed (stripPadding (decode filename)) (blks.flatMap programs) = some entry →
            ∃ fileBlks, Chain (imageSector d.image) (start entry) fileBlks) := by
  rw [openFile_ok_iff, Opens]
  refine exists_congr fun blks => ?_
  rw [directoryChain_iff himage]
  refine and_congr_right fun hdir => ?_
  have hcomplete := programs_complete himage hdir
  by_cases hdollar : decode filename = [36]
  · rw [if_pos hdollar]
    exact iff_of_true (fun entry hentry => (hcomplete entry hentry).ge) fun h => absurd hdollar h
  · rw [if_neg hdollar, findable_iff fun entry hentry => by rw [hcomplete entry hentry]; decide]
    simp only [sectorChain_iff himage]
    exact ⟨fun h _ => h.2, fun h => ⟨(stripPadding_length_le _).trans hlen, h hdollar⟩⟩

end Opening

/-! ## A formatted disk -/

/-- Reading `n` bytes at a time up to the end of the file gives `data`. -/
inductive ReadsToEnd (n : Nat) : DeviceD64 → Bytes → Prop
  | done {d d' : DeviceD64} (h : d.read n = .ok (none, d')) : ReadsToEnd n d []
  | more {d d' : DeviceD64} {piece data : Bytes} (h : d.read n = .ok (some piece, d'))
      (hmore : ReadsToEnd n d' data) : ReadsToEnd n d (piece ++ data)

/-- What is left of an open file is read; the induction is on its length. -/
theorem readsToEnd_of_rest {n : Nat} (hn : 0 < n) : ∀ (len : Nat) {d : DeviceD64} {r : Bytes},
    r.length ≤ len → d.file.rest = some r → ReadsToEnd n d r
  | len, d, [], _, hr => by
      obtain ⟨h, hread, -⟩ := Handle.read_of_rest hr n
      have hdone : d.read n = .ok (none, { d with file := h }) := by simp [read, hread]
      exact .done hdone
  | 0, d, c :: r, hlen, _ => absurd hlen (by simp)
  | len + 1, d, c :: r, hlen, hr => by
      obtain ⟨h, hread, hrest⟩ := Handle.read_of_rest hr n
      have hle : ((c :: r).drop n).length ≤ len := by
        rw [List.length_drop]
        omega
      have hmore := readsToEnd_of_rest hn len (d := { d with file := h }) hle hrest
      have hpiece : d.read n = .ok (some ((c :: r).take n), { d with file := h }) := by
        simp [read, hread]
      have hstep := ReadsToEnd.more hpiece hmore
      rwa [List.take_append_drop] at hstep

/-- A disk whose directory consists of the sectors `blks`: all its chains end, and stay on the
disk. -/
structure Formatted (image : Bytes) (blks : List Bytes) : Prop where
  size : image.length = IMAGE_SIZE
  directory : Chain (diskSector image) (18, 1) blks
  files : ∀ entry ∈ blks.flatMap programs, ∃ fileBlks,
    Chain (diskSector image) (start entry) fileBlks

/-- The sectors of the disk are those of the image. -/
theorem chain_imageSector {image : Bytes} {a : Nat × Nat} {blks : List Bytes}
    (h : Chain (diskSector image) a blks) : Chain (imageSector image) a blks := by
  refine h.mono fun a r hr => ?_
  rw [diskSector] at hr
  split at hr
  · rename_i ha
    rw [imageSector, if_pos ha.sectorIndex_lt]
    exact hr
  · cases hr

/-- **Loading from a disk.** `open` succeeds exactly when some program has the name, then opens the
first of them, and reading gives the data of its sectors; otherwise it returns `nil`. -/
theorem formatted_loads {d : DeviceD64} {filename : Bytes} {blks : List Bytes}
    (h : Formatted d.image blks) (hlen : (decode filename).length ≤ PC64_FILENAME_SIZE)
    (hdollar : decode filename ≠ [36]) :
    ((∃ d', d.openFile filename = .ok (true, d')) ↔
        ∃ entry ∈ blks.flatMap programs, entryName entry = stripPadding (decode filename)) ∧
      match firstNamed (stripPadding (decode filename)) (blks.flatMap programs) with
      | none => d.openFile filename = .ok (false, d)
      | some entry => ∃ d' fileBlks, d.openFile filename = .ok (true, d') ∧
          Chain (diskSector d.image) (start entry) fileBlks ∧
          ∀ n > 0, ReadsToEnd n d' (fileData fileBlks) := by
  have hopen := openFile_eq h.size (chain_imageSector h.directory) hlen hdollar
  rw [hopen]
  cases hfound : firstNamed (stripPadding (decode filename)) (blks.flatMap programs) with
  | none =>
      refine ⟨iff_of_false ?_ ?_, rfl⟩
      · rintro ⟨d', hd'⟩
        cases hd'
      · rintro ⟨entry, hentry, hname⟩
        have := List.find?_eq_none.mp hfound entry hentry
        simp [hname] at this
  | some entry =>
      have hentry : entry ∈ blks.flatMap programs := List.mem_of_find?_eq_some hfound
      have hname := List.find?_some hfound
      obtain ⟨fileBlks, hfile⟩ := h.files entry hentry
      have hcomplete := programs_complete h.size (chain_imageSector h.directory) entry hentry
      have hread := openEntry_of_chain h.size hcomplete (chain_imageSector hfile)
      refine ⟨iff_of_true ⟨_, hread⟩ ⟨entry, hentry, by simpa using hname⟩,
        _, fileBlks, hread, hfile, fun n hn => ?_⟩
      exact readsToEnd_of_rest hn _ le_rfl (by simp [Handle.rest])

/-! ## A disk with one file -/

/-- The sector between what lies before and behind it. -/
theorem sectorAt_append {pre blk : Bytes} (post : Bytes) {a : Nat × Nat}
    (hpre : pre.length = sectorIndex a * BLKSIZE) (hblk : blk.length = BLKSIZE) :
    sectorAt (pre ++ blk ++ post) a = blk := by
  rw [sectorAt, List.append_assoc, ← hpre, List.drop_left, ← hblk, List.take_left]

/-- A sector that starts with these bytes. -/
def padded (head : Bytes) : Bytes := head ++ List.replicate (BLKSIZE - head.length) 0

theorem padded_length {head : Bytes} (h : head.length ≤ BLKSIZE) :
    (padded head).length = BLKSIZE := by
  rw [padded, List.length_append, List.length_replicate]
  omega

/-- A disk with the files "B" and "A". "B" has the one byte 8, in the second sector of track 1; "A" has
the first sector in front of it. Each has a sector of the directory. -/
def sampleFile : Bytes := padded [1, 1, 7]

def sampleFileEnd : Bytes := padded [0, 2, 8]

def sampleDirectoryStart : Bytes :=
  padded ([18, 4, 0x82, 1, 1, 66] ++ List.replicate 15 0xa0)

def sampleDirectory : Bytes := padded ([0, 255, 0x82, 1, 0, 65] ++ List.replicate 15 0xa0)

def sampleImage : Bytes :=
  sampleFile ++ sampleFileEnd ++ List.replicate (356 * BLKSIZE) 0 ++ sampleDirectoryStart ++
    List.replicate (2 * BLKSIZE) 0 ++ sampleDirectory ++ List.replicate (321 * BLKSIZE) 0

theorem sampleFile_length : sampleFile.length = BLKSIZE := padded_length (by decide)

theorem sampleFileEnd_length : sampleFileEnd.length = BLKSIZE := padded_length (by decide)

theorem sampleDirectoryStart_length : sampleDirectoryStart.length = BLKSIZE :=
  padded_length (by decide)

theorem sampleDirectory_length : sampleDirectory.length = BLKSIZE := padded_length (by decide)

theorem sampleImage_length : sampleImage.length = IMAGE_SIZE := by
  simp only [sampleImage, List.length_append, List.length_replicate, sampleFile_length,
    sampleFileEnd_length, sampleDirectoryStart_length, sampleDirectory_length]
  decide

/-- A sector of the sample, with what lies before it. -/
theorem diskSector_sampleImage {pre blk : Bytes} {a : Nat × Nat} (hdisk : OnDisk a)
    (h : pre ++ blk <+: sampleImage) (hpre : pre.length = sectorIndex a * BLKSIZE)
    (hblk : blk.length = BLKSIZE) : diskSector sampleImage a = some (blk, link blk) := by
  obtain ⟨post, hpost⟩ := h
  rw [diskSector, if_pos hdisk, ← hpost, sectorAt_append post hpre hblk]

theorem diskSector_sampleFile :
    diskSector sampleImage (1, 0) = some (sampleFile, link sampleFile) := by
  have h : [] ++ sampleFile <+: sampleImage := by simp [sampleImage]
  exact diskSector_sampleImage (by decide) h (by decide) sampleFile_length

theorem diskSector_sampleFileEnd :
    diskSector sampleImage (1, 1) = some (sampleFileEnd, link sampleFileEnd) := by
  have h : sampleFile ++ sampleFileEnd <+: sampleImage := by simp [sampleImage]
  refine diskSector_sampleImage (by decide) h ?_ sampleFileEnd_length
  rw [sampleFile_length]
  decide

theorem diskSector_sampleDirectoryStart : diskSector sampleImage (18, 1)
    = some (sampleDirectoryStart, link sampleDirectoryStart) := by
  have h : sampleFile ++ sampleFileEnd ++ List.replicate (356 * BLKSIZE) 0 ++ sampleDirectoryStart
      <+: sampleImage := by
    simp [sampleImage]
  refine diskSector_sampleImage (by decide) h ?_ sampleDirectoryStart_length
  simp only [List.length_append, List.length_replicate, sampleFile_length, sampleFileEnd_length]
  decide

theorem diskSector_sampleDirectory :
    diskSector sampleImage (18, 4) = some (sampleDirectory, link sampleDirectory) := by
  have h : sampleFile ++ sampleFileEnd ++ List.replicate (356 * BLKSIZE) 0 ++ sampleDirectoryStart
      ++ List.replicate (2 * BLKSIZE) 0 ++ sampleDirectory <+: sampleImage := by
    simp [sampleImage]
  refine diskSector_sampleImage (by decide) h ?_ sampleDirectory_length
  simp only [List.length_append, List.length_replicate, sampleFile_length, sampleFileEnd_length,
    sampleDirectoryStart_length]
  decide

theorem chain_sampleFileEnd : Chain (diskSector sampleImage) (1, 1) [sampleFileEnd] := by
  have hlink : link sampleFileEnd = none := by decide
  exact .last (hlink ▸ diskSector_sampleFileEnd)

theorem chain_sampleFile :
    Chain (diskSector sampleImage) (1, 0) [sampleFile, sampleFileEnd] := by
  have hlink : link sampleFile = some (1, 1) := by decide
  exact .link (hlink ▸ diskSector_sampleFile) chain_sampleFileEnd

theorem chain_sampleDirectory :
    Chain (diskSector sampleImage) (18, 1) [sampleDirectoryStart, sampleDirectory] := by
  have hlink : link sampleDirectoryStart = some (18, 4) := by decide
  have hend : link sampleDirectory = none := by decide
  exact .link (hlink ▸ diskSector_sampleDirectoryStart) (.last (hend ▸ diskSector_sampleDirectory))

theorem sampleImage_programs : [sampleDirectoryStart, sampleDirectory].flatMap programs
    = [sampleDirectoryStart.take 32, sampleDirectory.take 32] := by
  decide

theorem formatted_sampleImage :
    Formatted sampleImage [sampleDirectoryStart, sampleDirectory] where
  size := sampleImage_length
  directory := chain_sampleDirectory
  files := by
    rw [sampleImage_programs]
    intro entry hentry
    rcases List.mem_pair.mp hentry with rfl | rfl
    · exact ⟨[sampleFileEnd], chain_sampleFileEnd⟩
    · exact ⟨[sampleFile, sampleFileEnd], chain_sampleFile⟩

/-- "A" is found in the second sector of the directory, and its two sectors are read. -/
theorem formatted_loads_sample : ∃ d', (DeviceD64.mk sampleImage .unset).openFile [65]
    = .ok (true, d') ∧ ReadsToEnd 256 d' (7 :: List.replicate 253 0 ++ [8]) := by
  have hlen : (decode [65]).length ≤ PC64_FILENAME_SIZE := by decide
  have h := (formatted_loads (d := ⟨sampleImage, .unset⟩) formatted_sampleImage hlen (by decide)).2
  have hfound : firstNamed (stripPadding (decode [65]))
      ([sampleDirectoryStart, sampleDirectory].flatMap programs)
        = some (sampleDirectory.take 32) := by
    rw [sampleImage_programs]
    decide
  rw [hfound] at h
  obtain ⟨d', fileBlks, hopen, hchain, hread⟩ := h
  have hdata : fileData [sampleFile, sampleFileEnd] = 7 :: List.replicate 253 0 ++ [8] := by
    decide +kernel
  rw [hchain.unique chain_sampleFile, hdata] at hread
  exact ⟨d', hopen, hread 256 (by decide)⟩

/-- The chains of the sample end. -/
theorem openFile_ok_iff_ends_sample :
    ∃ r, (DeviceD64.mk sampleImage .unset).openFile [65] = .ok r := by
  refine (openFile_ok_iff_ends (d := ⟨sampleImage, .unset⟩) sampleImage_length (by decide)).mpr
    ⟨_, chain_imageSector formatted_sampleImage.directory, fun _ entry hentry => ?_⟩
  obtain ⟨blks, hblks⟩ := formatted_sampleImage.files entry (List.mem_of_find?_eq_some hentry)
  exact ⟨blks, chain_imageSector hblks⟩

/-! ## A directory that never ends -/

def loopSector : Bytes := padded [18, 1]

/-- A disk whose directory sector links to itself. -/
def loopImage : Bytes :=
  List.replicate (358 * BLKSIZE) 0 ++ loopSector ++ List.replicate (324 * BLKSIZE) 0

theorem loopImage_length : loopImage.length = IMAGE_SIZE := by
  have hsector : loopSector.length = BLKSIZE := padded_length (by decide)
  simp only [loopImage, List.length_append, List.length_replicate, hsector]
  decide

/-- `open` does not return. -/
theorem not_openFile_loop :
    loopImage.length = IMAGE_SIZE ∧ ¬∃ r, (DeviceD64.mk loopImage .unset).openFile [65] = .ok r := by
  refine ⟨loopImage_length, fun hopen => ?_⟩
  obtain ⟨blks, hdir, -⟩ := (openFile_ok_iff _ _).mp hopen
  have hsector : sectorAt loopImage (18, 1) = loopSector := by
    refine sectorAt_append _ ?_ (padded_length (by decide))
    rw [List.length_replicate]
    decide
  have hlink : link loopSector = some (18, 1) := by decide
  have hself : imageSector loopImage (18, 1) = some (loopSector, some (18, 1)) := by
    rw [imageSector, if_pos (by decide), hsector, hlink]
  exact Chain.not_of_self hself ((directoryChain_iff loopImage_length).mp hdir)

end C64Iec.Server.DeviceD64

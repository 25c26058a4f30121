import C64Iec.Server.DeviceD64
import C64Iec.Lib.Chains

set_option autoImplicit false

/-! # Opening a file of a disk image

A disk image is opened without an exception when the sector chains it is read along end within
it (`DeviceD64.Opens`, `DeviceD64.openFile_ok_iff`).
-/

namespace C64Iec.Server.DeviceD64

open Lib

/-! ## Sector chains -/

/-- The sector at a link: its block and the link in its first two bytes. -/
def nextSector (image : Bytes) (a : Nat × Nat) : Option (Bytes × Option (Nat × Nat)) :=
  match readLink image a.1 a.2 with
  | .error _ => none
  | .ok (blk, track, sector) => some (blk, if track = 0 then none else some (track, sector))

/-- The chain of sectors from a link on ends, and consists of the blocks `blks`. -/
abbrev SectorChain (image : Bytes) (track sector : Nat) (blks : List Bytes) : Prop :=
  Chain (nextSector image) (track, sector) blks

section Links

variable {image blk : Bytes} {track sector nextTrack nextSec : Nat}

theorem uint8_lt {s : Bytes} {offset n : Nat} (h : uint8 s offset = .ok n) : n < 256 := by
  unfold uint8 at h
  split at h
  · rename_i b hb
    cases h
    exact b.toNat_lt
  · cases h

theorem uint8_eq {s : Bytes} {offset n : Nat} (h : uint8 s offset = .ok n) :
    n = (s.getD offset 0).toNat := by
  unfold uint8 at h
  split at h
  · rename_i b hb
    cases h
    rw [List.getD_eq_getElem?_getD, hb]
    rfl
  · cases h

theorem uint8_of_lt {s : Bytes} {offset : Nat} (h : offset < s.length) :
    uint8 s offset = .ok (s.getD offset 0).toNat := by
  simp [uint8, List.getElem?_eq_getElem h]

theorem uint8_of_ge {s : Bytes} {offset : Nat} (h : s.length ≤ offset) :
    uint8 s offset = .error .noMethodError := by
  simp [uint8, List.getElem?_eq_none h]

/-- A link is a pair of bytes. -/
theorem readLink_lt (h : readLink image track sector = .ok (blk, nextTrack, nextSec)) :
    nextTrack < 256 ∧ nextSec < 256 := by
  obtain ⟨blk', -, h⟩ := bind_eq_ok.mp h
  obtain ⟨blk', -, h⟩ := bind_eq_ok.mp h
  obtain ⟨t, ht, h⟩ := bind_eq_ok.mp h
  obtain ⟨s, hs, h⟩ := bind_eq_ok.mp h
  cases h
  exact ⟨uint8_lt ht, uint8_lt hs⟩

/-- The link is in the first two bytes of the block. -/
theorem readLink_bytes (h : readLink image track sector = .ok (blk, nextTrack, nextSec)) :
    nextTrack = (blk.getD 0 0).toNat ∧ nextSec = (blk.getD 1 0).toNat := by
  obtain ⟨blk', -, h⟩ := bind_eq_ok.mp h
  obtain ⟨blk', -, h⟩ := bind_eq_ok.mp h
  obtain ⟨t, ht, h⟩ := bind_eq_ok.mp h
  obtain ⟨s, hs, h⟩ := bind_eq_ok.mp h
  cases h
  exact ⟨uint8_eq ht, uint8_eq hs⟩

theorem nextSector_of_readLink (h : readLink image track sector = .ok (blk, nextTrack, nextSec)) :
    nextSector image (track, sector) =
      some (blk, if nextTrack = 0 then none else some (nextTrack, nextSec)) := by
  simp only [nextSector, h]

theorem nextSector_of_error {e : RubyError} (h : readLink image track sector = .error e) :
    nextSector image (track, sector) = none := by
  simp only [nextSector, h]

theorem nextSector_lt {a a' : Nat × Nat} (h : nextSector image a = some (blk, some a')) :
    a'.1 < 256 ∧ a'.2 < 256 := by
  rcases hlink : readLink image a.1 a.2 with e | ⟨blk', nt, ns⟩
  · simp [nextSector, hlink] at h
  · simp only [nextSector, hlink, Option.some.injEq, Prod.mk.injEq] at h
    by_cases h0 : nt = 0
    · simp [h0] at h
    · simp only [h0, if_false, Option.some.injEq] at h
      obtain ⟨-, rfl⟩ := h
      exact readLink_lt hlink

/-- **The fuel of the walks is enough** for every chain that ends. -/
theorem SectorChain.length_le {blks : List Bytes} (h : SectorChain image track sector blks) :
    blks.length ≤ chainFuel := by
  have hle := Chain.length_le (S := Finset.range 256 ×ˢ Finset.range 256)
    (fun a b a' hnext => by simpa using nextSector_lt hnext) h
  rwa [Finset.card_product, Finset.card_range] at hle

end Links

/-! ## Reading a file -/

/-- What the sectors of a file hold: of the last one the bytes up to the one that its second byte
counts, of the others all behind the link. -/
def fileData : List Bytes → Bytes
  | [] => []
  | [blk] => (blk.drop 2).take ((blk.getD 1 0).toNat + 1 - 2)
  | blk :: blks => (blk.drop 2).take (BLKSIZE - 2) ++ fileData blks

theorem fileData_cons {blk : Bytes} {blks : List Bytes} (h : blks ≠ []) :
    fileData (blk :: blks) = (blk.drop 2).take (BLKSIZE - 2) ++ fileData blks := by
  cases blks with
  | nil => exact absurd rfl h
  | cons blk' blks => rfl

/-- With fuel, a file is read exactly along a chain that ends within the fuel. -/
theorem readDataFrom_eq_ok (image : Bytes) : ∀ (fuel track sector : Nat) (data : Bytes),
    readDataFrom image fuel track sector = .ok data ↔
      ∃ blks, SectorChain image track sector blks ∧ blks.length ≤ fuel ∧ data = fileData blks
  | 0, track, sector, data => by
      constructor
      · intro h
        cases h
      · rintro ⟨blks, hchain, hle, -⟩
        cases hchain <;> simp at hle
  | fuel + 1, track, sector, data => by
      simp only [readDataFrom, bind, Except.bind, pure, Except.pure]
      -- the link in the sector decides: outside the image, the last sector, or another one
      cases hlink : readLink image track sector with
      | error e =>
          constructor
          · intro h
            cases h
          · rintro ⟨blks, hchain, -⟩
            exact absurd hchain (Chain.not_of_none (nextSector_of_error hlink))
      | ok r =>
          obtain ⟨blk, nt, ns⟩ := r
          have hnext := nextSector_of_readLink hlink
          by_cases h0 : nt = 0
          · rw [if_pos h0] at hnext
            obtain ⟨-, rfl⟩ := readLink_bytes hlink
            simp only [h0, if_true, Except.ok.injEq, SectorChain, Chain.iff_of_last hnext]
            constructor
            · rintro rfl
              exact ⟨[blk], rfl, by simp, rfl⟩
            · rintro ⟨_, rfl, -, rfl⟩
              rfl
          · rw [if_neg h0] at hnext
            have ih := readDataFrom_eq_ok image fuel nt ns
            simp only [h0, if_false, SectorChain, Chain.iff_of_link hnext]
            constructor
            · intro h
              rcases hmore : readDataFrom image fuel nt ns with e | more
              · rw [hmore] at h
                cases h
              · rw [hmore] at h
                cases h
                obtain ⟨blks, hchain, hle, rfl⟩ := (ih more).mp hmore
                exact ⟨blk :: blks, ⟨blks, rfl, hchain⟩, by simpa using hle,
                  (fileData_cons hchain.ne_nil).symm⟩
            · rintro ⟨_, ⟨blks, rfl, hchain⟩, hle, rfl⟩
              have hmore := (ih (fileData blks)).mpr ⟨blks, hchain, by simpa using hle, rfl⟩
              rw [hmore, fileData_cons hchain.ne_nil]

/-- **`read_data`** reads the data of a chain that ends, and of no other. -/
theorem readData_eq_ok {image : Bytes} {track sector : Nat} {data : Bytes} :
    readData image track sector = .ok data ↔
      ∃ blks, SectorChain image track sector blks ∧ data = fileData blks := by
  rw [readData, readDataFrom_eq_ok]
  exact ⟨fun ⟨blks, h, _, hd⟩ => ⟨blks, h, hd⟩, fun ⟨blks, h, hd⟩ => ⟨blks, h, h.length_le, hd⟩⟩

theorem readData_ok_iff {image : Bytes} {track sector : Nat} :
    (∃ data, readData image track sector = .ok data) ↔
      ∃ blks, SectorChain image track sector blks := by
  simp only [readData_eq_ok]
  exact ⟨fun ⟨_, blks, h, _⟩ => ⟨blks, h⟩, fun ⟨blks, h⟩ => ⟨_, blks, h, rfl⟩⟩

/-! ## Directory entries -/

/-- The slots of a directory sector from `offset` on. -/
def slotsFrom (blk : Bytes) : Nat → Nat → List Bytes
  | 0, _ => []
  | n + 1, offset => (blk.drop offset).take 32 :: slotsFrom blk n (offset + 32)

/-- Whether a slot is that of a program. -/
def isProgram (slot : Bytes) : Bool := (slot.getD 2 0).toNat &&& 0xf = FILE_TYPE_PRG

/-- The programs a directory sector lists. -/
def programs (blk : Bytes) : List Bytes := (slotsFrom blk 8 0).filter isProgram

theorem sectorEntries_succ (blk : Bytes) (n offset : Nat) (h : offset + 2 < blk.length) :
    sectorEntries blk (n + 1) offset = (sectorEntries blk n (offset + 32)).map
      ([(blk.drop offset).take 32].filter isProgram ++ ·) := by
  have hslot : isProgram ((blk.drop offset).take 32)
      = decide ((blk.getD (offset + 2) 0).toNat &&& 0xf = FILE_TYPE_PRG) := by
    simp [isProgram]
  have htype := uint8_of_lt h
  generalize (blk.getD (offset + 2) 0).toNat = type at hslot htype
  rw [sectorEntries, htype, List.filter_cons, hslot, List.filter_nil]
  cases sectorEntries blk n (offset + 32) with
  | error e => rfl
  | ok more =>
      by_cases hprg : type &&& 0xf = FILE_TYPE_PRG
      · simp [bind, Except.bind, pure, Except.pure, Except.map, hprg]
      · simp [bind, Except.bind, pure, Except.pure, Except.map, hprg]

/-- The entries are collected when the types of the slots lie in the block. -/
theorem sectorEntries_eq_ok (blk : Bytes) : ∀ (n offset : Nat) (entries : List Bytes),
    sectorEntries blk n offset = .ok entries ↔
      (∀ i < n, offset + 32 * i + 2 < blk.length) ∧
        entries = (slotsFrom blk n offset).filter isProgram
  | 0, offset, entries => by
      simp [sectorEntries, slotsFrom, eq_comm]
  | n + 1, offset, entries => by
      by_cases h : offset + 2 < blk.length
      · have ih := sectorEntries_eq_ok blk n (offset + 32)
        -- the types of `n + 1` slots: the first, and those of the `n` behind it
        have hin : (∀ i < n + 1, offset + 32 * i + 2 < blk.length) ↔
            ∀ i < n, offset + 32 + 32 * i + 2 < blk.length := by
          constructor
          · intro hall i hi
            have := hall (i + 1) (by omega)
            omega
          · intro hall i hi
            cases i with
            | zero => exact h
            | succ i =>
                have := hall i (by omega)
                omega
        have hfilter : (slotsFrom blk (n + 1) offset).filter isProgram =
            [(blk.drop offset).take 32].filter isProgram
              ++ (slotsFrom blk n (offset + 32)).filter isProgram := by
          rw [← List.filter_append]
          rfl
        rw [sectorEntries_succ blk n offset h, hin, hfilter]
        cases hmore : sectorEntries blk n (offset + 32) with
        | error e =>
            have hnot : ¬∀ i < n, offset + 32 + 32 * i + 2 < blk.length := by
              intro hall
              have := hmore.symm.trans ((ih _).mpr ⟨hall, rfl⟩)
              cases this
            simp [Except.map, hnot]
        | ok more =>
            obtain ⟨hall, rfl⟩ := (ih more).mp hmore
            simp only [Except.map, Except.ok.injEq]
            exact ⟨fun h => ⟨hall, h.symm⟩, fun h => h.2.symm⟩
      · refine iff_of_false ?_ fun hall => h (hall.1 0 (Nat.succ_pos n))
        simp [sectorEntries, uint8_of_ge (Nat.le_of_not_lt h), bind, Except.bind]

/-- The types of all slots of a directory sector lie in its block. -/
def SlotsInside (blk : Bytes) : Prop := 32 * 7 + 2 < blk.length

theorem sectorEntries_sector {blk : Bytes} {entries : List Bytes} :
    sectorEntries blk 8 0 = .ok entries ↔ SlotsInside blk ∧ entries = programs blk := by
  rw [sectorEntries_eq_ok, SlotsInside, programs]
  refine and_congr_left fun _ => ⟨fun h => by have := h 7 (by omega); omega, fun h i hi => by omega⟩

/-- The directory of a disk consists of the sectors `blks`. -/
structure DirectoryChain (image : Bytes) (blks : List Bytes) : Prop where
  chain : SectorChain image 18 1 blks
  slots : ∀ blk ∈ blks, SlotsInside blk

/-- With fuel, the entries are collected exactly along a chain that ends within the fuel. The
sector the loop starts with is the one `readLink` has read. -/
theorem collectFrom_eq_ok (image : Bytes) : ∀ (fuel track sector : Nat) (entries : List Bytes),
    ((readLink image track sector >>= fun r => collectFrom image fuel r.1 r.2.1 r.2.2)
        = .ok entries) ↔
      ∃ blks, (SectorChain image track sector blks ∧ ∀ blk ∈ blks, SlotsInside blk) ∧
        blks.length ≤ fuel ∧ entries = blks.flatMap programs
  | 0, track, sector, entries => by
      constructor
      · intro h
        obtain ⟨r, -, h⟩ := bind_eq_ok.mp h
        cases h
      · rintro ⟨blks, ⟨hchain, -⟩, hle, -⟩
        cases hchain <;> simp at hle
  | fuel + 1, track, sector, entries => by
      -- as for a file, but the loop has read the sector before it asks for the fuel
      cases hlink : readLink image track sector with
      | error e =>
          constructor
          · intro h
            cases h
          · rintro ⟨blks, ⟨hchain, -⟩, -⟩
            exact absurd hchain (Chain.not_of_none (nextSector_of_error hlink))
      | ok r =>
          obtain ⟨blk, nt, ns⟩ := r
          have hnext := nextSector_of_readLink hlink
          have hbind : (Except.ok (blk, nt, ns) >>= fun r : Bytes × Nat × Nat =>
              collectFrom image (fuel + 1) r.1 r.2.1 r.2.2) =
                collectFrom image (fuel + 1) blk nt ns := rfl
          rw [hbind, collectFrom, bind_eq_ok]
          simp only [sectorEntries_sector]
          by_cases h0 : nt = 0
          · rw [if_pos h0] at hnext
            simp only [h0, if_true, SectorChain, Chain.iff_of_last hnext]
            constructor
            · rintro ⟨_, ⟨hslots, rfl⟩, h⟩
              cases h
              exact ⟨[blk], ⟨rfl, by simpa using hslots⟩, by simp, by simp⟩
            · rintro ⟨_, ⟨rfl, hslots⟩, -, rfl⟩
              exact ⟨_, ⟨by simpa using hslots, rfl⟩, by simp [pure, Except.pure]⟩
          · rw [if_neg h0] at hnext
            have ih := collectFrom_eq_ok image fuel nt ns
            simp only [h0, if_false, SectorChain, Chain.iff_of_link hnext]
            constructor
            · rintro ⟨_, ⟨hslots, rfl⟩, h⟩
              obtain ⟨⟨blk', nt', ns'⟩, hlink', h⟩ := bind_eq_ok.mp h
              obtain ⟨more, hmore, h⟩ := bind_eq_ok.mp h
              cases h
              obtain ⟨blks, ⟨hchain, hall⟩, hle, rfl⟩ :=
                (ih more).mp (bind_eq_ok.mpr ⟨_, hlink', hmore⟩)
              exact ⟨blk :: blks, ⟨⟨blks, rfl, hchain⟩, by simpa using ⟨hslots, hall⟩⟩,
                by simpa using hle, by simp⟩
            · rintro ⟨_, ⟨⟨blks, rfl, hchain⟩, hall⟩, hle, rfl⟩
              obtain ⟨hslots, hall⟩ := List.forall_mem_cons.mp hall
              refine ⟨_, ⟨hslots, rfl⟩, ?_⟩
              obtain ⟨⟨blk', nt', ns'⟩, hlink', hmore⟩ := bind_eq_ok.mp
                ((ih _).mpr ⟨blks, ⟨hchain, hall⟩, by simpa using hle, rfl⟩)
              refine bind_eq_ok.mpr ⟨_, hlink', bind_eq_ok.mpr ⟨_, hmore, ?_⟩⟩
              simp [pure, Except.pure]

/-- **`collect_directory_entries`** collects the programs along the directory. -/
theorem collectDirectoryEntries_eq_ok {image : Bytes} {entries : List Bytes} :
    collectDirectoryEntries image 18 1 = .ok entries ↔
      ∃ blks, DirectoryChain image blks ∧ entries = blks.flatMap programs := by
  have h := collectFrom_eq_ok image chainFuel 18 1 entries
  rw [collectDirectoryEntries]
  refine h.trans ⟨?_, ?_⟩
  · rintro ⟨blks, ⟨hchain, hslots⟩, -, rfl⟩
    exact ⟨blks, ⟨hchain, hslots⟩, rfl⟩
  · rintro ⟨blks, ⟨hchain, hslots⟩, rfl⟩
    exact ⟨blks, ⟨hchain, hslots⟩, hchain.length_le, rfl⟩

/-! ## Finding a file -/

/-- The C64 name of an entry. -/
def entryName (entry : Bytes) : Bytes := stripPadding ((entry.drop 5).take 16)

theorem rewriteFilename_entry (entry : Bytes) :
    ∃ padding, rewriteFilename ((entry.drop 5).take 16) = .ok (entryName entry, padding) :=
  ⟨_, rewriteFilename_of_le ((stripPadding_length_le _).trans (List.length_take_le _ _))⟩

/-- A file can be looked for and read: the entries up to the first of this name are complete, and
the chain of that one ends. -/
def Findable (image req : Bytes) : List Bytes → Prop
  | [] => True
  | entry :: rest =>
      5 ≤ entry.length ∧
        if entryName entry = req then
          ∃ blks, SectorChain image (entry.getD 3 0).toNat (entry.getD 4 0).toNat blks
        else Findable image req rest

/-- What `open` does with the entry it has found. -/
def openEntry (d : DeviceD64) : Option Bytes → Except RubyError (Bool × DeviceD64)
  | none => .ok (false, d)
  | some entry => do
      let startTrack ← uint8 entry 3
      let startSector ← uint8 entry 4
      let data ← readData d.image startTrack startSector
      return (true, { d with file := Handle.stringIO data 0 })

theorem openEntry_ok_iff {d : DeviceD64} {entry : Bytes} (h : 5 ≤ entry.length) :
    (∃ r, openEntry d (some entry) = .ok r) ↔
      ∃ blks, SectorChain d.image (entry.getD 3 0).toNat (entry.getD 4 0).toNat blks := by
  rw [← readData_ok_iff]
  simp only [openEntry, uint8_of_lt (show 3 < entry.length by omega),
    uint8_of_lt (show 4 < entry.length by omega), bind, Except.bind, pure, Except.pure]
  cases readData d.image (entry.getD 3 0).toNat (entry.getD 4 0).toNat with
  | error e => simp
  | ok data => simp

theorem findEntry_cons {entry : Bytes} (h : 5 ≤ entry.length) (req : Bytes) (rest : List Bytes) :
    findEntry req (entry :: rest) =
      if entryName entry = req then .ok (some entry) else findEntry req rest := by
  have hslice : slice entry 5 16 = some ((entry.drop 5).take 16) := by
    rw [slice, if_neg (Nat.not_lt.mpr h)]
  obtain ⟨padding, hname⟩ := rewriteFilename_entry entry
  rw [findEntry, hslice]
  simp only [sizeOrRaise, bind, Except.bind, hname]
  rfl

/-- The search and the opening go well together: the induction is on the entries to come. -/
theorem findEntry_ok_iff (d : DeviceD64) (req : Bytes) : ∀ entries : List Bytes,
    (∃ r, (findEntry req entries >>= openEntry d) = .ok r) ↔ Findable d.image req entries
  | [] => by
      simp [findEntry, Findable, bind, Except.bind, openEntry]
  | entry :: rest => by
      by_cases h : 5 ≤ entry.length
      · rw [findEntry_cons h, Findable]
        by_cases hreq : entryName entry = req
        · rw [if_pos hreq, if_pos hreq]
          exact (openEntry_ok_iff h).trans (and_iff_right h).symm
        · rw [if_neg hreq, if_neg hreq]
          exact (findEntry_ok_iff d req rest).trans (and_iff_right h).symm
      · have hslice : slice entry 5 16 = none := by
          rw [slice, if_pos (Nat.lt_of_not_le h)]
        simp [findEntry, hslice, sizeOrRaise, Findable, h, bind, Except.bind]

/-! ## The listing -/

/-- An entry is listed when it is complete. -/
theorem dirEntries_ok_iff : ∀ (addr : Nat) (entries : List Bytes),
    (∃ r, dirEntries addr entries = .ok r) ↔ ∀ entry ∈ entries, 32 ≤ entry.length
  | addr, [] => by simp [dirEntries]
  | addr, entry :: rest => by
      rw [List.forall_mem_cons]
      by_cases h : 32 ≤ entry.length
      · have hline : ∃ r, dirEntry addr entry = .ok r := by
          simp [dirEntry, blockCount, uint8_of_lt (show 0x1e < entry.length by omega),
            uint8_of_lt (show 0x1f < entry.length by omega), bind, Except.bind, pure, Except.pure]
        obtain ⟨⟨line, addr'⟩, hline⟩ := hline
        have ih := dirEntries_ok_iff addr' rest
        simp only [dirEntries, hline, h, true_and, ← ih, bind, Except.bind, pure, Except.pure]
        cases dirEntries addr' rest <;> simp
      · have hline : ∃ e, dirEntry addr entry = .error e := by
          have hshort : uint8 entry 0x1f = .error .noMethodError := uint8_of_ge (by omega)
          simp only [dirEntry, blockCount, hshort, bind, Except.bind]
          generalize uint8 entry 0x1e = r
          rcases r with e | b
          · exact ⟨e, rfl⟩
          · exact ⟨.noMethodError, rfl⟩
        obtain ⟨e, hline⟩ := hline
        simp [dirEntries, hline, h, bind, Except.bind]

theorem freeBlocks_ok {bam : Bytes} (hbam : 144 ≤ bam.length) : ∀ trs : List Nat,
    (∀ tr ∈ trs, tr < 35) → ∃ n, freeBlocks bam trs = .ok n
  | [], _ => ⟨0, rfl⟩
  | tr :: rest, h => by
      obtain ⟨n, hn⟩ := freeBlocks_ok hbam rest fun tr htr => h tr (by simp [htr])
      have htr := h tr (by simp)
      by_cases h17 : tr = 17
      · exact ⟨n, by simp [freeBlocks, h17, hn]⟩
      · have hfree : uint8 bam (4 + 4 * tr) = .ok (bam.getD (4 + 4 * tr) 0).toNat :=
          uint8_of_lt (by omega)
        exact ⟨(bam.getD (4 + 4 * tr) 0).toNat + n, by
          simp only [freeBlocks, h17, if_false, hfree, hn, bind, Except.bind, pure, Except.pure]⟩

/-- A disk whose directory can be read has a block availability map. -/
theorem DirectoryChain.bam {image : Bytes} {blks : List Bytes} (h : DirectoryChain image blks) :
    ∃ bam, readBlock image 18 0 = .ok (some bam) ∧ 144 ≤ bam.length := by
  -- the first sector of the directory lies behind it
  have hfirst : ∃ r, readLink image 18 1 = .ok r := by
    cases hlink : readLink image 18 1 with
    | error e => exact absurd h.chain (Chain.not_of_none (nextSector_of_error hlink))
    | ok r => exact ⟨r, rfl⟩
  obtain ⟨r, hlink⟩ := hfirst
  obtain ⟨blk, hblk, hlink⟩ := bind_eq_ok.mp hlink
  obtain ⟨blk', hsize, -⟩ := bind_eq_ok.mp hlink
  have hblock : block 18 1 = .ok 358 := by decide
  have hbam : block 18 0 = .ok 357 := by decide
  have hlen : 358 * BLKSIZE ≤ image.length := by
    by_contra hlt
    have hnil : readBlock image 18 1 = .ok none := by
      simp only [readBlock, hblock, bind, Except.bind, pure, Except.pure, slice]
      rw [if_pos (Nat.lt_of_not_le hlt)]
    rw [hnil] at hblk
    cases hblk
    cases hsize
  have hB : BLKSIZE = 256 := rfl
  refine ⟨(image.drop (357 * BLKSIZE)).take BLKSIZE, ?_, ?_⟩
  · simp only [readBlock, hbam, bind, Except.bind, pure, Except.pure, slice]
    rw [if_neg (by omega)]
  · rw [List.length_take, List.length_drop]
    omega

/-- **`directory`** lists a disk whose entries are complete. -/
theorem directory_ok_iff (image : Bytes) : (∃ listing, directory image = .ok listing) ↔
    ∃ blks, DirectoryChain image blks ∧ ∀ entry ∈ blks.flatMap programs, 32 ≤ entry.length := by
  constructor
  · rintro ⟨listing, h⟩
    obtain ⟨entries, hentries, h⟩ := bind_eq_ok.mp h
    obtain ⟨blks, hdir, rfl⟩ := collectDirectoryEntries_eq_ok.mp hentries
    obtain ⟨bam, -, h⟩ := bind_eq_ok.mp h
    obtain ⟨bam, -, h⟩ := bind_eq_ok.mp h
    obtain ⟨⟨header, addr⟩, -, h⟩ := bind_eq_ok.mp h
    obtain ⟨r, hr, -⟩ := bind_eq_ok.mp h
    exact ⟨blks, hdir, (dirEntries_ok_iff _ _).mp ⟨r, hr⟩⟩
  · rintro ⟨blks, hdir, hcomplete⟩
    obtain ⟨bam, hbam, hlen⟩ := hdir.bam
    obtain ⟨⟨lines, addr⟩, hlines⟩ := (dirEntries_ok_iff (0x0801 + 16) _).mpr hcomplete
    obtain ⟨free, hfree⟩ := freeBlocks_ok hlen (List.range 35) fun tr htr => List.mem_range.mp htr
    obtain ⟨header, hheader⟩ : ∃ header, dirHeader 0x0801 bam = .ok (header, 0x0801 + 16) := by
      have hname : slice bam 0x90 16 = some ((bam.drop 0x90).take 16) := by
        rw [slice, if_neg (by omega)]
      simp [dirHeader, hname]
    obtain ⟨footer, hfooter⟩ : ∃ footer, dirFooter addr bam = .ok footer := by
      simp [dirFooter, hfree, bind, Except.bind, pure, Except.pure]
    refine ⟨header ++ lines ++ footer, ?_⟩
    simp only [directory, collectDirectoryEntries_eq_ok.mpr ⟨blks, hdir, rfl⟩, hbam, sizeOrRaise,
      hheader, hlines, hfooter, bind, Except.bind, pure, Except.pure]

/-! ## The device -/

/-- The device opens a name, or finds it missing: the directory can be read, its entries are
complete as far as they are looked at, and the chain of the file that is found ends. -/
def Opens (d : DeviceD64) (filename : Bytes) : Prop :=
  ∃ blks, DirectoryChain d.image blks ∧
    if decode filename = [36] then ∀ entry ∈ blks.flatMap programs, 32 ≤ entry.length
    else (stripPadding (decode filename)).length ≤ PC64_FILENAME_SIZE ∧
      Findable d.image (stripPadding (decode filename)) (blks.flatMap programs)

/-- **`DeviceD64#open`** raises nothing under this condition, and only under it. -/
theorem openFile_ok_iff (d : DeviceD64) (filename : Bytes) :
    (∃ r, d.openFile filename = .ok r) ↔ d.Opens filename := by
  by_cases hdollar : decode filename = [36]
  · simp only [Opens, hdollar, if_true, ← directory_ok_iff, openFile]
    cases directory d.image <;> simp [bind, Except.bind, pure, Except.pure]
  · have hopen : d.openFile filename = findFile d.image (decode filename) >>= openEntry d := by
      simp only [openFile, if_neg hdollar]
      refine bind_congr fun entry => ?_
      cases entry <;> rfl
    simp only [Opens, if_neg hdollar, hopen]
    by_cases hlen : (stripPadding (decode filename)).length ≤ PC64_FILENAME_SIZE
    · have hfind : findFile d.image (decode filename) = collectDirectoryEntries d.image 18 1 >>=
          findEntry (stripPadding (decode filename)) := by
        simp only [findFile, rewriteFilename_of_le hlen, bind, Except.bind]
      rw [hfind, bind_assoc]
      simp only [bind_eq_ok (x := collectDirectoryEntries d.image 18 1),
        collectDirectoryEntries_eq_ok, hlen, true_and]
      constructor
      · rintro ⟨r, _, ⟨blks, hdir, rfl⟩, h⟩
        exact ⟨blks, hdir, (findEntry_ok_iff d _ _).mp ⟨r, h⟩⟩
      · rintro ⟨blks, hdir, h⟩
        obtain ⟨r, hr⟩ := (findEntry_ok_iff d _ _).mpr h
        exact ⟨r, _, ⟨blks, hdir, rfl⟩, hr⟩
    · have hfind : findFile d.image (decode filename) = .error .argumentError := by
        simp only [findFile, rewriteFilename, if_pos (Nat.lt_of_not_le hlen), bind, Except.bind]
      simp [hfind, hlen, bind, Except.bind]

end C64Iec.Server.DeviceD64

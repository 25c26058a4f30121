import C64Iec.Server.DiskFiles
import C64Iec.Lib.BasicProgram

set_option autoImplicit false

/-! # The listing of a disk

What `DeviceD64#directory` returns is a BASIC program: the load address, a line for the disk, a
line for each program in the directory, a line for the free blocks, and a last link
(`directory_eq`). Going through it by the texts of the lines gives these lines back
(`directory_scanned`). Their links are another matter: `@dir_addr` falls behind by 8 bytes in
`dir_header` and by 4 in every `dir_entry`, and `dir_entry` and `dir_footer` write it before they
advance it, so that no link is right (`listing_not_linked`).
-/

namespace C64Iec.Server.DeviceD64

open Lib

theorem le16Bytes_eq (n : Nat) : le16Bytes n = le16 n := by
  have hlo : ((n : Int) % 256).toNat = n % 256 := by omega
  have hhi : ((n : Int) / 256 % 256).toNat = n / 256 % 256 := by omega
  have hmod : ∀ m : Nat, UInt8.ofNat (m % 256) = UInt8.ofNat m := by
    intro m
    refine UInt8.toNat_inj.mp ?_
    simp only [UInt8.toNat_ofNat']
    omega
  rw [le16Bytes, hlo, hhi, hmod, hmod]
  rfl

/-! ## The lines -/

/-- The name of the disk. -/
def diskName (bam : Bytes) : Bytes := (bam.drop 0x90).take 16

/-- The name of an entry, with its padding. -/
def paddedName (entry : Bytes) : Bytes := (entry.drop 5).take 16

def entryBlocks (entry : Bytes) : Nat :=
  (entry.getD 0x1e 0).toNat + 256 * (entry.getD 0x1f 0).toNat

/-- The free blocks of the disk, the directory track left out. -/
def freeTotal (bam : Bytes) (trs : List Nat) : Nat :=
  ((trs.filter (· ≠ 17)).map fun tr => (bam.getD (4 + 4 * tr) 0).toNat).sum

def headerLine (bam : Bytes) : Line := ⟨0x0811, 0, [0x12, 34] ++ diskName bam ++ [34]⟩

/-- The spaces a line starts with, as many as line its name up with the others. -/
def indent (blocks : Nat) : Nat :=
  1 + (if blocks < 100 then 1 else 0) + (if blocks < 10 then 1 else 0)

def entryLine (addr : Nat) (entry : Bytes) : Line :=
  ⟨addr, entryBlocks entry, List.replicate (indent (entryBlocks entry)) 32 ++ [32]
    ++ shownName entry ++ [32] ++ ascii " PRG "⟩

def entryLines : Nat → List Bytes → List Line
  | _, [] => []
  | addr, entry :: rest =>
      entryLine addr entry :: entryLines (addr + (26 + indent (entryBlocks entry))) rest

/-- `@dir_addr` behind the entries. -/
def endAddress (addr : Nat) (entries : List Bytes) : Nat :=
  addr + (entries.map fun entry => 26 + indent (entryBlocks entry)).sum

def footerLine (addr : Nat) (bam : Bytes) : Line :=
  ⟨addr, freeTotal bam (List.range 35), ascii "BLOCKS FREE."⟩

/-- The lines of the program, each with the link the code gives it. -/
def listingLines (bam : Bytes) (entries : List Bytes) : List Line :=
  headerLine bam :: (entryLines 0x0811 entries ++ [footerLine (endAddress 0x0811 entries) bam])

/-! ## The program -/

theorem dirHeader_eq {bam : Bytes} (hbam : 0x90 ≤ bam.length) :
    dirHeader 0x0801 bam = .ok (le16 0x0801 ++ (headerLine bam).bytes, 0x0811) := by
  have hname : slice bam 0x90 16 = some (diskName bam) := by
    rw [slice, if_neg (Nat.not_lt.mpr hbam)]
    rfl
  have hline : le16Bytes (0x0801 : Nat) ++ le16Bytes (0x0801 + 16 : Nat) ++ le16Bytes (0 : Nat)
      ++ [0x12, 34] ++ diskName bam ++ [34, 0] = le16 0x0801 ++ (headerLine bam).bytes := by
    rw [le16Bytes_eq, le16Bytes_eq, le16Bytes_eq]
    simp [Line.bytes, headerLine]
  rw [dirHeader, hname]
  exact congrArg (fun line => Except.ok (line, 0x0811)) hline

/-- The two bytes of the block count, as they stand in the entry. -/
theorem blocks_bytes {entry : Bytes} (h : 32 ≤ entry.length) :
    blockCount entry = .ok (entryBlocks entry) ∧
      (entry.drop 0x1e).take 2 = le16 (entryBlocks entry) := by
  have hlo := (entry.getD 0x1e 0).toNat_lt
  have hhi := (entry.getD 0x1f 0).toNat_lt
  constructor
  · simp only [blockCount, uint8_of_lt (show 0x1e < entry.length by omega),
      uint8_of_lt (show 0x1f < entry.length by omega), ok_bind]
    rw [entryBlocks, Nat.add_comm, Nat.mul_comm]
    rfl
  · have hpair : (entry.drop 0x1e).take 2 = [entry.getD 0x1e 0, entry.getD 0x1f 0] := by
      have h30 : 30 < entry.length := h.trans' (by decide)
      have h31 : 31 < entry.length := h.trans' (by decide)
      have hlo : entry.getD 30 0 = entry[30] := by simp [List.getElem?_eq_getElem h30]
      have hhi : entry.getD 31 0 = entry[31] := by simp [List.getElem?_eq_getElem h31]
      rw [List.drop_eq_getElem_cons h30, List.drop_eq_getElem_cons h31, hlo, hhi]
      rfl
    have hlo' : UInt8.ofNat (entryBlocks entry) = entry.getD 0x1e 0 := by
      refine UInt8.toNat_inj.mp ?_
      simp only [entryBlocks, UInt8.toNat_ofNat']
      omega
    have hhi' : UInt8.ofNat (entryBlocks entry / 256) = entry.getD 0x1f 0 := by
      refine UInt8.toNat_inj.mp ?_
      simp only [entryBlocks, UInt8.toNat_ofNat']
      omega
    rw [hpair, le16, hlo', hhi']

theorem dirEntry_eq (addr : Nat) {entry : Bytes} (h : 32 ≤ entry.length) :
    dirEntry addr entry
      = .ok ((entryLine addr entry).bytes, addr + (26 + indent (entryBlocks entry))) := by
  obtain ⟨hcount, hbytes⟩ := blocks_bytes h
  rw [dirEntry, hcount, ok_bind, hbytes, le16Bytes_eq]
  simp [entryLine, Line.bytes, indent, pure, Except.pure]

/-- The entries, one line after the other. -/
theorem dirEntries_eq : ∀ (entries : List Bytes) (addr : Nat), (∀ entry ∈ entries,
    32 ≤ entry.length) → dirEntries addr entries
      = .ok ((entryLines addr entries).flatMap Line.bytes, endAddress addr entries)
  | [], _, _ => rfl
  | entry :: rest, addr, h => by
      have ih := dirEntries_eq rest (addr + (26 + indent (entryBlocks entry)))
        fun e he => h e (List.mem_cons_of_mem entry he)
      simp only [dirEntries, dirEntry_eq addr (h entry (by simp)), ok_bind, ih]
      simp [entryLines, endAddress, pure, Except.pure, Nat.add_assoc]

theorem freeBlocks_eq {bam : Bytes} (hbam : 144 ≤ bam.length) : ∀ {trs : List Nat},
    (∀ tr ∈ trs, tr < 35) → freeBlocks bam trs = .ok (freeTotal bam trs)
  | [], _ => rfl
  | tr :: rest, h => by
      have ih := freeBlocks_eq hbam fun t ht => h t (List.mem_cons_of_mem tr ht)
      have htr := h tr (by simp)
      rw [freeBlocks]
      by_cases h17 : tr = 17
      · rw [if_pos h17, ih]
        simp [freeTotal, h17]
      · rw [if_neg h17, uint8_of_lt (show 4 + 4 * tr < bam.length by omega), ok_bind, ih]
        simp [freeTotal, h17, pure, Except.pure, ok_bind]

theorem dirFooter_eq (addr : Nat) {bam : Bytes} (hbam : 144 ≤ bam.length) :
    dirFooter addr bam = .ok ((footerLine addr bam).bytes ++ [0, 0]) := by
  have htracks : ∀ tr ∈ List.range 35, tr < 35 := fun tr htr => List.mem_range.mp htr
  have hfree := freeBlocks_eq hbam htracks
  rw [dirFooter, hfree, ok_bind, le16Bytes_eq, le16Bytes_eq]
  simp [footerLine, Line.bytes, pure, Except.pure]

/-- **What the program is**: the load address, the lines and a last link of zero. -/
theorem directory_eq {image : Bytes} {blks : List Bytes} (himage : image.length = IMAGE_SIZE)
    (hdir : Chain (imageSector image) (18, 1) blks) :
    directory image = .ok (le16 0x0801 ++ ((listingLines (sectorAt image (18, 0))
      (blks.flatMap programs)).flatMap Line.bytes ++ [0, 0])) := by
  have hcollect := collectDirectoryEntries_eq_ok.mpr ⟨blks, (directoryChain_iff himage).mpr hdir, rfl⟩
  have hread := readBlock_eq himage (a := (18, 0)) (by decide)
  have hlen := sectorAt_length himage (a := (18, 0)) (by decide)
  have hcomplete : ∀ entry ∈ blks.flatMap programs, 32 ≤ entry.length := by
    intro entry hentry
    exact Nat.le_of_eq (programs_complete (d := ⟨image, .unset⟩) himage hdir entry hentry).symm
  have hB : BLKSIZE = 256 := rfl
  simp only [directory, hcollect, hread, ok_bind, sizeOrRaise,
    dirHeader_eq (show 0x90 ≤ (sectorAt image (18, 0)).length by omega),
    dirEntries_eq _ _ hcomplete,
    dirFooter_eq _ (show 144 ≤ (sectorAt image (18, 0)).length by omega)]
  simp [listingLines, pure, Except.pure]

/-! ## The names -/

/-- A run of padding and the quote behind it change places; no byte is lost. -/
theorem moveQuote_perm : ∀ (s : Bytes) (run : Nat),
    (moveQuote run s).Perm (List.replicate run 0xa0 ++ s)
  | [], run => by simp [moveQuote]
  | c :: rest, run => by
      rw [moveQuote]
      split
      · rename_i hpad
        have ih := moveQuote_perm rest (run + 1)
        rw [hpad]
        rwa [List.replicate_succ', List.append_assoc, List.singleton_append] at ih
      · have ih := moveQuote_perm rest 0
        split
        · rename_i hquote
          rw [hquote]
          exact ((ih.append_left _).cons 34).trans List.perm_middle.symm
        · exact (ih.cons c).append_left _

/-- A text without padding stays as it is. -/
theorem moveQuote_of_no_padding : ∀ {s : Bytes}, (∀ c ∈ s, c ≠ 0xa0) → moveQuote 0 s = s
  | [], _ => rfl
  | c :: rest, h => by
      have hc : c ≠ 0xa0 := h c (by simp)
      have ih := moveQuote_of_no_padding fun x hx => h x (List.mem_cons_of_mem c hx)
      rw [moveQuote, if_neg hc, ih]
      split
      · rename_i hquote
        rw [hquote]
        rfl
      · rfl

theorem moveQuote_padding (rest : Bytes) : ∀ (p run : Nat),
    moveQuote run (List.replicate p 0xa0 ++ 34 :: rest)
      = 34 :: (List.replicate (run + p) 0xa0 ++ moveQuote 0 rest)
  | 0, run => by simp [moveQuote]
  | p + 1, run => by
      have ih := moveQuote_padding rest p (run + 1)
      rw [List.replicate_succ, List.cons_append, moveQuote, if_pos rfl, ih]
      rw [Nat.add_right_comm, Nat.add_assoc]

/-- The padding of a name goes behind the closing quote. -/
theorem moveQuote_core : ∀ {core : Bytes}, (∀ c ∈ core, c ≠ 34) → (∀ c ∈ core, c ≠ 0xa0) →
    ∀ p : Nat, moveQuote 0 (core ++ (List.replicate p 0xa0 ++ [34]))
      = core ++ (34 :: List.replicate p 0xa0)
  | [], _, _, p => by
      have h := moveQuote_padding [] p 0
      simpa [moveQuote] using h
  | c :: core, hquote, hpad, p => by
      have ih := moveQuote_core (fun x hx => hquote x (List.mem_cons_of_mem c hx))
        (fun x hx => hpad x (List.mem_cons_of_mem c hx)) p
      rw [List.cons_append, moveQuote, if_neg (hpad c (by simp)), if_neg (hquote c (by simp)), ih]
      rfl

/-- The byte shown for a byte of a name: padding is shown as a space. -/
def shownByte (c : Byte) : Byte := if c = 0xa0 then 32 else c

/-- How a name is shown: `name` is what stands in the directory, `shown` what is in the listing. -/
structure ShownAs (name shown : Bytes) : Prop where
  perm : shown.Perm ([34] ++ name.map shownByte ++ [34])
  plain : (∀ c ∈ name, c ≠ 0xa0) → shown = [34] ++ name ++ [34]
  padded : ∀ (core : Bytes) (p : Nat), name = core ++ List.replicate p 0xa0 →
    (∀ c ∈ core, c ≠ 34) → (∀ c ∈ core, c ≠ 0xa0) →
    shown = [34] ++ core ++ [34] ++ List.replicate p 32

theorem map_shownByte {s : Bytes} (h : ∀ c ∈ s, c ≠ 0xa0) : s.map shownByte = s := by
  have hmap : s.map shownByte = s.map id :=
    List.map_congr_left fun c hc => by rw [shownByte, if_neg (h c hc), id]
  rw [hmap, List.map_id]

theorem shownName_shownAs (entry : Bytes) : ShownAs (paddedName entry) (shownName entry) := by
  have hshown : shownName entry
      = (moveQuote 0 ([34] ++ paddedName entry ++ [34])).map shownByte := rfl
  rw [hshown]
  generalize paddedName entry = name
  constructor
  · have h := (moveQuote_perm ([34] ++ name ++ [34]) 0).map shownByte
    simpa [shownByte] using h
  · intro hpad
    have hpad' : ∀ c ∈ [34] ++ name ++ [34], c ≠ 0xa0 := by
      intro c hc
      simp only [List.mem_append, List.mem_singleton] at hc
      rcases hc with (rfl | hc) | rfl
      · decide
      · exact hpad c hc
      · decide
    rw [moveQuote_of_no_padding hpad', map_shownByte hpad']
  · rintro core p rfl hquote hpad
    have hmove : moveQuote 0 ([34] ++ (core ++ List.replicate p 0xa0) ++ [34])
        = 34 :: (core ++ (34 :: List.replicate p 0xa0)) := by
      rw [← moveQuote_core hquote hpad p]
      simp [moveQuote]
    rw [hmove]
    simp [map_shownByte hpad, shownByte]

/-! ## Going through the listing -/

/-- A name without a zero byte is shown without one. -/
theorem ShownAs.ne_nul {name shown : Bytes} (h : ShownAs name shown) (hname : ∀ c ∈ name, c ≠ 0) :
    ∀ c ∈ shown, c ≠ 0 := by
  intro c hc
  have hc' := h.perm.mem_iff.mp hc
  simp only [List.mem_append, List.mem_singleton, List.mem_map] at hc'
  rcases hc' with (rfl | ⟨b, hb, rfl⟩) | rfl
  · decide
  · rw [shownByte]
    split
    · decide
    · exact hname b hb
  · decide

theorem indent_le (blocks : Nat) : indent blocks ≤ 3 := by
  unfold indent
  split <;> split <;> omega

theorem entryBlocks_lt (entry : Bytes) : entryBlocks entry < 65536 := by
  have hlo := (entry.getD 0x1e 0).toNat_lt
  have hhi := (entry.getD 0x1f 0).toNat_lt
  rw [entryBlocks]
  omega

/-- Of 35 tracks. -/
theorem freeTotal_lt (bam : Bytes) : freeTotal bam (List.range 35) < 65536 := by
  have hle : freeTotal bam (List.range 35)
      ≤ (((List.range 35).filter (· ≠ 17)).map fun _ => 255).sum := by
    refine List.sum_le_sum fun tr _ => ?_
    have := (bam.getD (4 + 4 * tr) 0).toNat_lt
    omega
  have hsum : (((List.range 35).filter (· ≠ 17)).map fun _ => 255).sum = 8670 := by decide
  omega

theorem endAddress_le (addr : Nat) (entries : List Bytes) :
    endAddress addr entries ≤ addr + 29 * entries.length := by
  induction entries generalizing addr with
  | nil => simp [endAddress]
  | cons entry rest ih =>
      have hindent := indent_le (entryBlocks entry)
      have ih' := ih addr
      simp only [endAddress, List.map_cons, List.sum_cons, List.length_cons] at ih' ⊢
      omega

theorem headerLine_proper {bam : Bytes} (hdisk : ∀ c ∈ diskName bam, c ≠ 0) :
    (headerLine bam).Proper where
  link_ge := show 256 ≤ 0x0811 by decide
  link_lt := show 0x0811 < 65536 by decide
  number_lt := show 0 < 65536 by decide
  text := by
    intro c hc
    simp only [headerLine, List.mem_append, List.mem_cons, List.not_mem_nil, or_false] at hc
    rcases hc with ((rfl | rfl) | hc) | rfl
    · decide
    · decide
    · exact hdisk c hc
    · decide

theorem entryLine_proper {addr : Nat} {entry : Bytes} (hge : 256 ≤ addr) (hlt : addr < 65536)
    (hname : ∀ c ∈ paddedName entry, c ≠ 0) : (entryLine addr entry).Proper where
  link_ge := hge
  link_lt := hlt
  number_lt := entryBlocks_lt entry
  text := by
    have hprg : ∀ c ∈ ascii " PRG ", c ≠ 0 := by decide
    intro c hc
    simp only [entryLine, List.mem_append, List.mem_replicate, List.mem_singleton] at hc
    rcases hc with (((⟨-, rfl⟩ | rfl) | hc) | rfl) | hc
    · decide
    · decide
    · exact (shownName_shownAs entry).ne_nul hname c hc
    · decide
    · exact hprg c hc

theorem footerLine_proper {addr : Nat} {bam : Bytes} (hge : 256 ≤ addr) (hlt : addr < 65536) :
    (footerLine addr bam).Proper where
  link_ge := hge
  link_lt := hlt
  number_lt := freeTotal_lt bam
  text := by
    have htext : ∀ c ∈ ascii "BLOCKS FREE.", c ≠ 0 := by decide
    exact htext

/-- The running address stays within 16 bits while the entries are listed. -/
theorem entryLines_proper : ∀ {entries : List Bytes} {addr : Nat}, 256 ≤ addr →
    addr + 29 * entries.length < 65536 → (∀ entry ∈ entries, ∀ c ∈ paddedName entry, c ≠ 0) →
    ∀ l ∈ entryLines addr entries, l.Proper
  | [], _, _, _, _ => by simp [entryLines]
  | entry :: rest, addr, hge, hlt, hname => by
      have hindent := indent_le (entryBlocks entry)
      rw [List.length_cons] at hlt
      intro l hl
      rcases List.mem_cons.mp hl with rfl | hl
      · exact entryLine_proper hge (by omega) (hname entry (by simp))
      · exact entryLines_proper (by omega) (by omega)
          (fun e he => hname e (List.mem_cons_of_mem entry he)) l hl

/-- A line of an entry: its blocks, and its name between some spaces and the file type. -/
structure Shows (entry : Bytes) (l : Line) : Prop where
  number : l.number = entryBlocks entry
  text : ∃ spaces shown, l.text = List.replicate spaces 32 ++ shown ++ ascii "  PRG " ∧
    ShownAs (paddedName entry) shown

theorem entryLines_shows : ∀ (entries : List Bytes) (addr : Nat),
    List.Forall₂ Shows entries (entryLines addr entries)
  | [], _ => .nil
  | entry :: rest, addr => by
      refine .cons ⟨rfl, indent (entryBlocks entry) + 1, shownName entry, ?_,
        shownName_shownAs entry⟩ (entryLines_shows rest _)
      rw [List.replicate_succ']
      simp [entryLine, ascii]

/-- A listing as BASIC reads it. -/
structure Reads (bam : Bytes) (entries : List Bytes) (lines : List Line) : Prop where
  split : ∃ header body footer, lines = header :: (body ++ [footer]) ∧
    header.number = 0 ∧ header.text = [0x12, 34] ++ diskName bam ++ [34] ∧
    List.Forall₂ Shows entries body ∧
    footer.number = freeTotal bam (List.range 35) ∧ footer.text = ascii "BLOCKS FREE."

/-- **Going through the listing** of a disk gives one line for the disk, one for each program and
one for the free blocks, and nothing is left behind the last link. -/
theorem directory_scanned {image : Bytes} {blks : List Bytes} (himage : image.length = IMAGE_SIZE)
    (hdir : Chain (imageSector image) (18, 1) blks)
    (hcount : (blks.flatMap programs).length ≤ 144)
    (hnames : ∀ entry ∈ blks.flatMap programs, ∀ c ∈ paddedName entry, c ≠ 0)
    (hdisk : ∀ c ∈ diskName (sectorAt image (18, 0)), c ≠ 0) :
    ∃ listing lines, directory image = .ok listing ∧
      scan listing.length (listing.drop 2) = some (lines, []) ∧
      Reads (sectorAt image (18, 0)) (blks.flatMap programs) lines := by
  refine ⟨_, listingLines (sectorAt image (18, 0)) (blks.flatMap programs),
    directory_eq himage hdir, ?_, ⟨_, _, _, rfl, rfl, rfl, entryLines_shows _ _, rfl, rfl⟩⟩
  have hend := endAddress_le 0x0811 (blks.flatMap programs)
  have hproper : ∀ l ∈ listingLines (sectorAt image (18, 0)) (blks.flatMap programs), l.Proper := by
    intro l hl
    simp only [listingLines, List.mem_cons, List.mem_append, List.not_mem_nil, or_false] at hl
    rcases hl with rfl | hl | rfl
    · exact headerLine_proper hdisk
    · exact entryLines_proper (by decide) (by omega) hnames l hl
    · exact footerLine_proper (by unfold endAddress; omega) (by omega)
  rw [List.drop_left' (le16_length _)]
  refine scan_program hproper ?_ 0 []
  have hle := Line.length_le_bytes
    (listingLines (sectorAt image (18, 0)) (blks.flatMap programs))
  rw [List.length_append, List.length_append, le16_length]
  omega

/-! ## Links -/

theorem shownName_length {entry : Bytes} (h : entry.length = 32) :
    (shownName entry).length = 18 := by
  have hname : (paddedName entry).length = 16 := by
    rw [paddedName, List.length_take, List.length_drop, h]
    rfl
  rw [(shownName_shownAs entry).perm.length_eq]
  simp [hname]

/-- A line is 4 bytes longer than `dir_entry` thinks. -/
theorem entryLine_bytes_length (addr : Nat) {entry : Bytes} (h : entry.length = 32) :
    (entryLine addr entry).bytes.length = 30 + indent (entryBlocks entry) := by
  have hprg : (ascii " PRG ").length = 5 := by decide
  rw [Line.bytes_length]
  simp only [entryLine, List.length_append, List.length_replicate, List.length_singleton,
    shownName_length h, hprg]
  omega

/-- Once the running address has fallen behind, it stays behind. The induction is on the entries;
`link` is the running address, `addr` the true one. -/
theorem entryLines_short (bam : Bytes) : ∀ (entries : List Bytes) (link addr : Nat), link ≤ addr →
    (∀ entry ∈ entries, entry.length = 32) →
    Short addr (entryLines link entries ++ [footerLine (endAddress link entries) bam])
  | [], link, addr, hle, _ => by
      have hlen := (footerLine (endAddress link []) bam).bytes_length
      have hlink : (footerLine (endAddress link []) bam).link = link := rfl
      exact ⟨by omega, trivial⟩
  | entry :: rest, link, addr, hle, h => by
      have hlen := entryLine_bytes_length link (h entry (by simp))
      have hlink : (entryLine link entry).link = link := rfl
      have hend : endAddress link (entry :: rest)
          = endAddress (link + (26 + indent (entryBlocks entry))) rest := by
        simp [endAddress, Nat.add_assoc]
      have ih := entryLines_short bam rest (link + (26 + indent (entryBlocks entry)))
        (addr + (entryLine link entry).bytes.length) (by omega)
        fun e he => h e (List.mem_cons_of_mem entry he)
      rw [hend]
      exact ⟨by omega, ih⟩

/-- The header is 24 bytes long, of which `dir_header` counts 16. -/
theorem listingLines_short {bam : Bytes} (hbam : bam.length = BLKSIZE) {entries : List Bytes}
    (h : ∀ entry ∈ entries, entry.length = 32) : Short 0x0801 (listingLines bam entries) := by
  have hB : BLKSIZE = 256 := rfl
  have hname : (diskName bam).length = 16 := by
    rw [diskName, List.length_take, List.length_drop]
    omega
  have hlen : (headerLine bam).bytes.length = 24 := by
    rw [Line.bytes_length]
    simp only [headerLine, List.length_append, List.length_cons, List.length_nil, hname]
  have hlink : (headerLine bam).link = 0x0811 := rfl
  refine ⟨by omega, ?_⟩
  rw [hlen]
  exact entryLines_short bam entries 0x0811 (0x0801 + 24) (by decide) h

/-- **The links of the listing are never right**: on no disk is the program linked. -/
theorem listing_not_linked {image : Bytes} {blks : List Bytes} (himage : image.length = IMAGE_SIZE)
    (hdir : Chain (imageSector image) (18, 1) blks) :
    directory image = .ok (le16 0x0801 ++ ((listingLines (sectorAt image (18, 0))
      (blks.flatMap programs)).flatMap Line.bytes ++ [0, 0])) ∧
    ¬Linked 0x0801 (listingLines (sectorAt image (18, 0)) (blks.flatMap programs)) := by
  refine ⟨directory_eq himage hdir, ?_⟩
  have hshort := listingLines_short (sectorAt_length himage (a := (18, 0)) (by decide))
    (programs_complete (d := ⟨image, .unset⟩) himage hdir)
  exact hshort.not_linked (List.cons_ne_nil _ _)

/-! ## A disk with a name -/

/-- The disk named "DISK" with the directory of the sample. -/
def sampleBam : Bytes := padded (List.replicate 0x90 0 ++ ascii "DISK" ++ List.replicate 12 0xa0)

def namedImage : Bytes :=
  List.replicate (357 * BLKSIZE) 0 ++ sampleBam ++ sampleDirectory ++
    List.replicate (324 * BLKSIZE) 0

theorem sampleBam_length : sampleBam.length = BLKSIZE := padded_length (by decide +kernel)

theorem namedImage_length : namedImage.length = IMAGE_SIZE := by
  simp only [namedImage, List.length_append, List.length_replicate, sampleBam_length,
    sampleDirectory_length]
  decide

theorem namedImage_bam : sectorAt namedImage (18, 0) = sampleBam := by
  rw [namedImage, List.append_assoc]
  refine sectorAt_append _ ?_ sampleBam_length
  rw [List.length_replicate]
  decide

theorem namedImage_directory :
    Chain (imageSector namedImage) (18, 1) [sampleDirectory] := by
  have hsector : sectorAt namedImage (18, 1) = sampleDirectory := by
    refine sectorAt_append _ ?_ sampleDirectory_length
    rw [List.length_append, List.length_replicate, sampleBam_length]
    decide
  have hlink : link sampleDirectory = none := by decide
  refine .last ?_
  rw [imageSector, if_pos (by decide), hsector, hlink]

theorem sampleDirectory_programs :
    [sampleDirectory].flatMap programs = [sampleDirectory.take 32] := by decide

theorem sampleBam_name : diskName sampleBam = ascii "DISK" ++ List.replicate 12 0xa0 := by
  decide +kernel

/-- Its listing has a line for "A". -/
theorem directory_scanned_named : ∃ listing lines, directory namedImage = .ok listing ∧
    scan listing.length (listing.drop 2) = some (lines, []) ∧
    Reads (sectorAt namedImage (18, 0)) ([sampleDirectory].flatMap programs) lines :=
  directory_scanned namedImage_length namedImage_directory
    (by rw [sampleDirectory_programs]; decide) (by rw [sampleDirectory_programs]; decide)
    (by rw [namedImage_bam, sampleBam_name]; decide)

/-- Its header has the link `0x0811`; the line for "A" is loaded at `0x0819`. -/
theorem namedImage_not_linked :
    directory namedImage = .ok (le16 0x0801 ++ ((listingLines sampleBam
      [sampleDirectory.take 32]).flatMap Line.bytes ++ [0, 0])) ∧
    ¬Linked 0x0801 (listingLines sampleBam [sampleDirectory.take 32]) := by
  have heq := directory_eq namedImage_length namedImage_directory
  rw [namedImage_bam, sampleDirectory_programs] at heq
  refine ⟨heq, fun h => ?_⟩
  have hlen : (headerLine sampleBam).bytes.length = 24 := by decide +kernel
  have hlink : (headerLine sampleBam).link = 0x0801 + (headerLine sampleBam).bytes.length := h.1
  rw [hlen] at hlink
  exact absurd hlink (by decide)

/-- The general fact at this disk. -/
theorem listing_not_linked_named :
    directory namedImage = .ok (le16 0x0801 ++ ((listingLines (sectorAt namedImage (18, 0))
      ([sampleDirectory].flatMap programs)).flatMap Line.bytes ++ [0, 0])) ∧
    ¬Linked 0x0801 (listingLines (sectorAt namedImage (18, 0))
      ([sampleDirectory].flatMap programs)) :=
  listing_not_linked namedImage_length namedImage_directory

end C64Iec.Server.DeviceD64

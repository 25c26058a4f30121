import C64Iec.Server.DeviceDir

set_option autoImplicit false

/-! # A disk image as a drive (`DeviceD64`)

The walks along the sector chains follow links taken from the image. A link is a pair of bytes,
so a walk that has read more than `2^16` sectors without an end has met a link twice and never
ends; it then stops with `diverge`.
-/

namespace C64Iec.Server.DeviceD64

def BLKSIZE : Nat := 256

def SECTORS : List Nat :=
  List.replicate 17 21 ++ List.replicate 7 19 ++ List.replicate 6 18 ++ List.replicate 10 17

/-- `block`: the index of a sector in the image. `SECTORS[tr - 1]` is `nil` past the table. -/
def block (track sector : Nat) : Except RubyError Nat :=
  if track = 1 then .ok sector
  else if track - 1 > SECTORS.length then .error .typeError
  else .ok ((SECTORS.take (track - 1)).sum + sector)

/-- `String#[start, length]` -/
def slice (s : Bytes) (start length : Nat) : Option Bytes :=
  if s.length < start then none else some ((s.drop start).take length)

/-- `read_block`: `nil` past the end of the image. -/
def readBlock (image : Bytes) (track sector : Nat) : Except RubyError (Option Bytes) := do
  let b ← block track sector
  return slice image (b * BLKSIZE) BLKSIZE

/-- The block, the next track and the next sector of a link. -/
def readLink (image : Bytes) (track sector : Nat) : Except RubyError (Bytes × Nat × Nat) := do
  let blk ← sizeOrRaise (← readBlock image track sector)
  let nextTrack ← uint8 blk 0
  let nextSector ← uint8 blk 1
  return (blk, nextTrack, nextSector)

def FILE_TYPE_PRG : Nat := 2

/-- The entries of one directory sector that are programs: slots `i` on, `n` of them. -/
def sectorEntries (blk : Bytes) : Nat → Nat → Except RubyError (List Bytes)
  | 0, _ => .ok []
  | n + 1, offset => do
      let type ← uint8 blk (offset + 2)
      let more ← sectorEntries blk n (offset + 32)
      return if type &&& 0xf = FILE_TYPE_PRG then (blk.drop offset).take 32 :: more else more

/-- The bound on the number of sectors a chain that ends can have. -/
def chainFuel : Nat := 65536 + 1

/-- The loop of `collect_directory_entries`, on the sector `blk` whose link is `track`,
`sector`. -/
def collectFrom (image : Bytes) : Nat → Bytes → Nat → Nat → Except RubyError (List Bytes)
  | 0, _, _, _ => .error .diverge
  | fuel + 1, blk, nextTrack, nextSector => do
      let entries ← sectorEntries blk 8 0
      if nextTrack = 0 then return entries
      else
        let (blk, track, sector) ← readLink image nextTrack nextSector
        let more ← collectFrom image fuel blk track sector
        return entries ++ more

def collectDirectoryEntries (image : Bytes) (track sector : Nat) :
    Except RubyError (List Bytes) := do
  let (blk, nextTrack, nextSector) ← readLink image track sector
  collectFrom image chainFuel blk nextTrack nextSector

/-- The loop of `read_data`. -/
def readDataFrom (image : Bytes) : Nat → Nat → Nat → Except RubyError Bytes
  | 0, _, _ => .error .diverge
  | fuel + 1, track, sector => do
      let (tmp, nextTrack, nextSector) ← readLink image track sector
      if nextTrack = 0 then return (tmp.drop 2).take (nextSector + 1 - 2)
      else
        let more ← readDataFrom image fuel nextTrack nextSector
        return (tmp.drop 2).take (BLKSIZE - 2) ++ more

def readData (image : Bytes) (track sector : Nat) : Except RubyError Bytes :=
  readDataFrom image chainFuel track sector

/-- `find_file`: the first entry whose normalised name is the requested one. -/
def findEntry (reqFilename : Bytes) : List Bytes → Except RubyError (Option Bytes)
  | [] => .ok none
  | entry :: rest => do
      let name ← sizeOrRaise (slice entry 5 16)
      let (entryName, _) ← rewriteFilename name
      if entryName = reqFilename then return some entry else findEntry reqFilename rest

def findFile (image filename : Bytes) : Except RubyError (Option Bytes) := do
  let (reqFilename, _) ← rewriteFilename filename
  let entries ← collectDirectoryEntries image 18 1
  findEntry reqFilename entries

/-! ## The directory listing -/

/-- `"\"#{entry[5,16]}\"".gsub(/(\xA0*)\"/, '"\1')`: a run of padding moves behind the quote that
follows it. `run` is the length of the run just read. -/
def moveQuote (run : Nat) : Bytes → Bytes
  | [] => List.replicate run 0xa0
  | c :: rest =>
      if c = 0xa0 then moveQuote (run + 1) rest
      else if c = 34 then 34 :: (List.replicate run 0xa0 ++ moveQuote 0 rest)
      else List.replicate run 0xa0 ++ c :: moveQuote 0 rest

/-- The name shown for an entry. -/
def shownName (entry : Bytes) : Bytes :=
  (moveQuote 0 ([34] ++ (entry.drop 5).take 16 ++ [34])).map fun c => if c = 0xa0 then 32 else c

/-- The number of blocks of an entry, `entry.le_uint16(0x1e)`. -/
def blockCount (entry : Bytes) : Except RubyError Nat := do
  let l ← uint8 entry 0x1e
  let h ← uint8 entry 0x1f
  return h * 256 + l

/-- `dir_entry`: the line, and `@dir_addr` after it. -/
def dirEntry (addr : Nat) (entry : Bytes) : Except RubyError (Bytes × Nat) := do
  let blocks ← blockCount entry
  let offB := 1 + (if blocks < 100 then 1 else 0) + (if blocks < 10 then 1 else 0)
  return (le16Bytes addr ++ (entry.drop 0x1e).take 2 ++ List.replicate offB 32
    ++ [32] ++ shownName entry ++ [32] ++ ascii " PRG " ++ [0], addr + (26 + offB))

def dirEntries (addr : Nat) : List Bytes → Except RubyError (Bytes × Nat)
  | [] => .ok ([], addr)
  | entry :: rest => do
      let (line, addr) ← dirEntry addr entry
      let (more, addr) ← dirEntries addr rest
      return (line ++ more, addr)

/-- `dir_header`: `@dir_addr` is advanced between its two uses. -/
def dirHeader (addr : Nat) (bam : Bytes) : Except RubyError (Bytes × Nat) :=
  match slice bam 0x90 16 with
  | none => .error .typeError
  | some name =>
      .ok (le16Bytes addr ++ le16Bytes (addr + 16 : Nat) ++ le16Bytes 0 ++ [0x12, 34] ++ name
        ++ [34, 0], addr + 16)

/-- The free blocks of the tracks given by their indices, less the directory track. -/
def freeBlocks (bam : Bytes) : List Nat → Except RubyError Nat
  | [] => .ok 0
  | tr :: rest => do
      if tr = 17 then freeBlocks bam rest
      else
        let n ← uint8 bam (4 + 4 * tr)
        let more ← freeBlocks bam rest
        return n + more

def dirFooter (addr : Nat) (bam : Bytes) : Except RubyError Bytes := do
  let free ← freeBlocks bam (List.range 35)
  return le16Bytes addr ++ le16Bytes free ++ ascii "BLOCKS FREE." ++ [0, 0, 0]

/-- `DeviceD64#directory` -/
def directory (image : Bytes) : Except RubyError Bytes := do
  let entries ← collectDirectoryEntries image 18 1
  let bam ← sizeOrRaise (← readBlock image 18 0)
  let (header, addr) ← dirHeader 0x0801 bam
  let (lines, addr) ← dirEntries addr entries
  let footer ← dirFooter addr bam
  return header ++ lines ++ footer

end DeviceD64

/-! ## The device -/

/-- A disk image (`@d64`, the content of the file) and the file opened on it. -/
structure DeviceD64 where
  image : Bytes
  file : Handle

namespace DeviceD64

/-- `DeviceD64#open`, which does not look at the mode; `nil` is `false`. -/
def openFile (d : DeviceD64) (filename : Bytes) : Except RubyError (Bool × DeviceD64) :=
  let filename := decode filename
  if filename = [36] then do
    let listing ← directory d.image
    return (true, { d with file := Handle.stringIO listing 0 })
  else do
    match ← findFile d.image filename with
    | none => return (false, d)
    | some entry =>
        let startTrack ← uint8 entry 3
        let startSector ← uint8 entry 4
        let data ← readData d.image startTrack startSector
        return (true, { d with file := Handle.stringIO data 0 })

def read (d : DeviceD64) (bytes : Nat) : Except RubyError (Option Bytes × DeviceD64) := do
  let (data, file) ← d.file.read bytes
  return (data, { d with file := file })

def eof (d : DeviceD64) : Except RubyError Bool := d.file.eof

def close (d : DeviceD64) : Except RubyError DeviceD64 := do
  let file ← d.file.close
  return { d with file := file }

end C64Iec.Server.DeviceD64

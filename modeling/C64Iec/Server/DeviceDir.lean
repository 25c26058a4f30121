import C64Iec.Server.C64File

set_option autoImplicit false

/-! # A directory as a drive (`DeviceDir`)

`@file` is a `Handle`. A file opened for reading is represented by what is left to read of it;
a file opened for appending by its name. The directory is here as the handle sees it, with all that
`write` has been given: how much of that is on disk yet is in `Server.WriteBuffer`. `@c64file` lives
only inside `open`, so it is passed as an argument. The calls are those on a path that exists;
`Server.Host` says what comes of the others.
-/

namespace C64Iec.Server

/-- `rewrite_filename`: the name without its padding; the spaces that fill it up to 16 are only
computed, which raises when it is longer. -/
def rewriteFilename (filename : Bytes) : Except RubyError (Bytes × Bytes) :=
  let reduced := stripPadding filename
  if reduced.length > PC64_FILENAME_SIZE then .error .argumentError
  else .ok (reduced, List.replicate (PC64_FILENAME_SIZE - reduced.length) 32)

/-- A name is rewritten when it has at most 16 bytes. -/
theorem rewriteFilename_of_le {filename : Bytes}
    (h : (stripPadding filename).length ≤ PC64_FILENAME_SIZE) :
    rewriteFilename filename = .ok (stripPadding filename,
      List.replicate (PC64_FILENAME_SIZE - (stripPadding filename).length) 32) := by
  rw [rewriteFilename, if_neg (Nat.not_lt.mpr h)]

/-! ## Handles -/

/-- The value of `@file`. -/
inductive Handle where
  | unset
  | reading (rest : Bytes)
  | appending (name : Bytes)
  | stringIO (data : Bytes) (pos : Nat)
  | closed
  deriving DecidableEq, Repr

namespace Handle

/-- What is left to read, for a handle that can be read. -/
def rest : Handle → Option Bytes
  | reading r => some r
  | stringIO data pos => some (data.drop pos)
  | _ => none

/-- The exception a call on a handle that cannot serve it raises. -/
def failure : Handle → RubyError
  | unset => .noMethodError
  | _ => .ioError

/-- The handle once `n` bytes more have been read. -/
def advance (n : Nat) : Handle → Handle
  | reading r => reading (r.drop n)
  | stringIO data pos => stringIO data (min data.length (pos + n))
  | h => h

/-- `IO#read(bytes)`: `nil` at the end of the file. -/
def read (h : Handle) (bytes : Nat) : Except RubyError (Option Bytes × Handle) :=
  match h.rest with
  | none => .error h.failure
  | some [] => .ok (none, h)
  | some r => .ok (some (r.take bytes), h.advance bytes)

/-- `IO#eof?` -/
def eof (h : Handle) : Except RubyError Bool :=
  match h.rest with
  | none => .error h.failure
  | some r => .ok r.isEmpty

/-- `IO#close`, which does nothing on a closed file. -/
def close (h : Handle) : Except RubyError Handle :=
  match h with
  | unset => .error .noMethodError
  | _ => .ok closed

end Handle

/-! ## The directory listing -/

def le16Bytes (n : Int) : Bytes := [UInt8.ofNat (n % 256).toNat, UInt8.ofNat (n / 256 % 256).toNat]

def dirHeader : Bytes :=
  le16Bytes 0x0401 ++ [1, 1] ++ [0, 0, 0x12] ++ ascii "\"DIRECTORY\"             " ++ [0]

def dirFooter : Bytes := [1, 1, 0xff, 0xff] ++ ascii "BLOCKS FREE.             " ++ [0, 0, 0]

/-- `dir_entry` of a file -/
def dirEntry (content : Bytes) : Except RubyError Bytes := do
  let size : Int := ((content.length : Int) - PC64_HEADER_SIZE) / 256
  let filename ← pc64C64Filename content
  let b := 1 + (if size < 100 then 1 else 0) + (if size < 10 then 1 else 0)
  let (filename, _) ← rewriteFilename filename
  return [1, 1] ++ le16Bytes size ++ List.replicate b 32 ++ [34] ++ filename ++ [34]
    ++ List.replicate (17 - filename.length) 32 ++ ascii " PRG " ++ List.replicate (3 - b) 32
    ++ [0]

/-- `child.extname.downcase == ".p00"` -/
def isP00 (name : Bytes) : Bool := (extname name).map downcase == ascii ".p00"

def dirEntries : List (Bytes × Entry) → Except RubyError Bytes
  | [] => .ok []
  | (name, e) :: rest =>
      match e with
      | .other => dirEntries rest
      | .file content =>
          if isP00 name = false then dirEntries rest else do
            let tmp ← dirEntry content
            let more ← dirEntries rest
            return tmp ++ more

/-- `DeviceDir#directory` of a path that exists. Otherwise the listing is the one of no children. -/
def directory (d : Dir) : Except RubyError Bytes := do
  let entries ← dirEntries d.children
  return dirHeader ++ entries ++ dirFooter

/-! ## The device -/

/-- The mode of `open`. -/
inductive Mode where
  | read
  | write
  deriving DecidableEq, Repr

structure DeviceDir where
  dir : Dir
  file : Handle

namespace DeviceDir

/-- A device on an empty directory. -/
def empty : DeviceDir := ⟨⟨[], fun _ _ => 0, List.nodup_nil⟩, .unset⟩

/-- `open_read` -/
def openRead (d : DeviceDir) (c64 : Bytes) : Except RubyError (Bool × DeviceDir) :=
  if c64.head? = some 36 then do
    let listing ← directory d.dir
    return (true, { d with file := Handle.stringIO listing 0 })
  else
    match findLocal c64 d.dir.children with
    | .error err => .error err
    | .ok none => .ok (false, d)
    | .ok (some name) =>
        match d.dir.lookup name with
        | some (.file content) =>
            .ok (true, { d with file := .reading (content.drop PC64_HEADER_SIZE) })
        | _ => .error .systemCallError

/-- `open_write`: the device also when the call raises. -/
def openWrite (d : DeviceDir) (c64 : Bytes) : Except RubyError Bool × DeviceDir :=
  match findLocal c64 d.dir.children with
  | .error err => (.error err, d)
  | .ok local_ =>
      let dir :=
        match local_ with
        | some name => d.dir.unlink name
        | none => d.dir
      match createLocal dir c64 with
      | (.error err, dir) => (.error err, { d with dir := dir })
      | (.ok name, dir) => (.ok true, { dir := dir, file := .appending name })

/-- `DeviceDir#open` -/
def openFile (d : DeviceDir) (filename : Bytes) (mode : Mode) : Except RubyError Bool × DeviceDir :=
  let c64 := decode filename
  match mode with
  | .read =>
      match d.openRead c64 with
      | .error err => (.error err, d)
      | .ok (opened, d) => (.ok opened, d)
  | .write => d.openWrite c64

/-- `DeviceDir#write`, as its handle sees it; the argument may be `nil`. -/
def write (d : DeviceDir) (data : Option Bytes) : Except RubyError DeviceDir :=
  match data with
  | none => .error .noMethodError
  | some data =>
      match d.file with
      | .appending name =>
          match d.dir.lookup name with
          | some (.file content) => .ok { d with dir := d.dir.write name (content ++ data) }
          | _ => .error .ioError
      | Handle.stringIO s pos =>
          .ok { d with file := Handle.stringIO (Lib.blit s pos data) (pos + data.length) }
      | h => .error h.failure

/-- `DeviceDir#read` -/
def read (d : DeviceDir) (bytes : Nat) : Except RubyError (Option Bytes × DeviceDir) := do
  let (data, file) ← d.file.read bytes
  return (data, { d with file := file })

/-- `DeviceDir#eof?` -/
def eof (d : DeviceDir) : Except RubyError Bool := d.file.eof

/-- `DeviceDir#close` -/
def close (d : DeviceDir) : Except RubyError DeviceDir := do
  let file ← d.file.close
  return { d with file := file }

/-- The directory without the file that is replaced. -/
def withoutOld (dir : Dir) : Option Bytes → Dir
  | some name => dir.unlink name
  | none => dir

/-- What `open` for writing has done when it does not raise. -/
theorem openWrite_eq_ok {d d' : DeviceDir} {c64 : Bytes} {opened : Bool}
    (h : d.openWrite c64 = (.ok opened, d')) :
    opened = true ∧ ∃ local_ name, findLocal c64 d.dir.children = .ok local_ ∧
      createLocal (withoutOld d.dir local_) c64 = (.ok name, d'.dir) ∧
      d'.file = .appending name := by
  unfold openWrite at h
  split at h
  · cases h
  · rename_i local_ hfind
    dsimp only at h
    generalize hcreate : createLocal _ c64 = r at h
    rcases r with ⟨err | name, dir⟩
    · cases h
    · cases h
      refine ⟨rfl, local_, name, hfind, ?_, rfl⟩
      rw [← hcreate]
      cases local_ <;> rfl

end DeviceDir

end C64Iec.Server

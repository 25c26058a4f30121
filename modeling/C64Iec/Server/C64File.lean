import C64Iec.Server.Common

set_option autoImplicit false

/-! # File names and PC64 headers (`C64File`) -/

namespace C64Iec.Server

open Lib

def PC64_HEADER_SIZE : Nat := 26
def PC64_FILENAME_SIZE : Nat := 16
def PC64_ID_SIZE : Nat := 7

/-! ## Decoding the requested name -/

/-- `gsub(/%([a-fA-F0-9]{2})/) { [$1].pack("H2") }` -/
def unescape : Bytes → Bytes
  | [] => []
  | [c] => [c]
  | [c, d] => [c, d]
  | c :: h :: l :: rest =>
      match (if c = 37 then hexValue h else none), hexValue l with
      | some hv, some lv => UInt8.ofNat (hv * 16 + lv) :: unescape rest
      | _, _ => c :: unescape (h :: l :: rest)

/-- What is left behind `@\d:`. -/
def atDigitColon : Bytes → Option Bytes
  | a :: d :: c :: rest => if a = 64 ∧ isDigit d ∧ c = 58 then some rest else none
  | _ => none

/-- `C64File.decode` -/
def decode (encoded : Bytes) : Bytes := stripLineStarts atDigitColon isLineFeed (unescape encoded)

/-! ## Files of a directory -/

/-- What a directory lists: a file with its content, or something that is not a file. -/
inductive Entry where
  | file (content : Bytes)
  | other
  deriving DecidableEq, Repr

/-- A directory: its children in the order `each_child` lists them, under different names.
`place` is where the file system lists a new child. -/
structure Dir where
  children : List (Bytes × Entry)
  place : List Bytes → Bytes → Nat
  nodup : (children.map Prod.fst).Nodup

namespace Dir

def names (d : Dir) : List Bytes := d.children.map Prod.fst

/-- `File.exist?` of a child. -/
def exist (d : Dir) (name : Bytes) : Bool := d.names.contains name

def lookup (d : Dir) (name : Bytes) : Option Entry := d.children.lookup name

/-- `Pathname#unlink` of a child. -/
def unlink (d : Dir) (name : Bytes) : Dir where
  children := d.children.filter fun c => c.1 ≠ name
  place := d.place
  nodup := by
    have h := d.nodup
    exact h.sublist (List.filter_sublist.map _)

/-- A file with the given content, in place of the child of that name or as a new child. -/
def write (d : Dir) (name content : Bytes) : Dir where
  children :=
    if d.exist name then
      d.children.map fun c => if c.1 = name then (name, .file content) else c
    else
      d.children.insertIdx (min (d.place d.names name) d.children.length) (name, .file content)
  place := d.place
  nodup := by
    by_cases h : d.exist name
    · have hmap : (d.children.map fun c => if c.1 = name then (name, Entry.file content) else c).map
          Prod.fst = d.children.map Prod.fst := by
        rw [List.map_map]
        refine List.map_congr_left fun c _ => ?_
        by_cases hc : c.1 = name <;> simp [hc]
      rw [if_pos h, hmap]
      exact d.nodup
    · rw [if_neg h]
      have hlen : min (d.place d.names name) d.children.length ≤ d.children.length :=
        Nat.min_le_right _ _
      have hperm := (List.perm_insertIdx (name, Entry.file content) d.children hlen).map Prod.fst
      rw [hperm.nodup_iff, List.map_cons, List.nodup_cons]
      refine ⟨?_, d.nodup⟩
      simpa [exist, names] using h

end Dir

/-- `File.extname`: from the last dot on, a dot at the start of the name not counting. -/
def extname (name : Bytes) : Bytes :=
  let rest := name.dropWhile (· = 46)
  if rest.contains 46 then 46 :: (rest.reverse.takeWhile (· ≠ 46)).reverse else []

/-- `ext[/\.p\d\d$/i]` for an `extname`, whose only dot is its first byte. -/
def isPc64Ext : Bytes → Bool
  | dot :: p :: a :: b :: rest =>
      dot == 46 && (p == 112 || p == 80) && isDigit a && isDigit b && atLineEnd isLineFeed rest
  | _ => false

/-- `is_pc64?` -/
def isPc64 (name : Bytes) (e : Entry) : Bool :=
  match e with
  | .file content =>
      isPc64Ext (extname name) && content ≠ [] &&
        (content.take PC64_HEADER_SIZE).take PC64_ID_SIZE == ascii "C64File"
  | .other => false

/-- `C64File.pc64_c64_filename` on the content of a file. -/
def pc64C64Filename (content : Bytes) : Except RubyError Bytes :=
  if content = [] then .error .noMethodError else
  let header := content.take PC64_HEADER_SIZE
  if header.length < 8 then .error .noMethodError else
  .ok (stripPadding ((header.drop 8).take PC64_FILENAME_SIZE))

/-- `find_local`: the first PC64 file in the listing with this C64 name. -/
def findLocal (c64 : Bytes) : List (Bytes × Entry) → Except RubyError (Option Bytes)
  | [] => .ok none
  | (name, e) :: rest =>
      match e with
      | .other => findLocal c64 rest
      | .file content =>
          if isPc64 name e = false then findLocal c64 rest else
          match pc64C64Filename content with
          | .error err => .error err
          | .ok c64' => if c64' = c64 then .ok (some name) else findLocal c64 rest

/-- `String#downcase` on a byte. -/
def downcase (c : Byte) : Byte := if 65 ≤ c ∧ c ≤ 90 then c + 32 else c

/-- The bytes `gsub(/[^0-9a-z_.-]/, "")` keeps. -/
def isLocalChar (c : Byte) : Bool :=
  isDigit c || (97 ≤ c && c ≤ 122) || c == 95 || c == 46 || c == 45

/-- `stripped_filename` in `local_encode` -/
def strippedFilename (c64 : Bytes) : Bytes := (c64.map downcase).filter isLocalChar

/-- `pc64_file`: the name with the extension `.pNN`. -/
def pc64File (filename : Bytes) (counter : Nat) : Bytes :=
  filename ++ ascii ".p" ++ [UInt8.ofNat (48 + counter / 10), UInt8.ofNat (48 + counter % 10)]

/-- `local_encode`: the first of the hundred names that is free. -/
def localEncode (d : Dir) (c64 : Bytes) : Option Bytes :=
  ((List.range 100).map (pc64File (strippedFilename c64))).find? fun name => !d.exist name

/-- The header `pc64_write_header` writes. -/
def pc64Header (c64 : Bytes) : Bytes :=
  ascii "C64File" ++ [0] ++ c64 ++ List.replicate (PC64_FILENAME_SIZE - c64.length) 0 ++ [0, 0]

/-- `create_local`: the new file's name, and the directory also when the call raises. -/
def createLocal (d : Dir) (c64 : Bytes) : Except RubyError Bytes × Dir :=
  match localEncode d c64 with
  | none => (.error .systemCallError, d)
  | some name =>
      let d := d.write name []
      if c64.length > PC64_FILENAME_SIZE then (.error .argumentError, d)
      else (.ok name, d.write name (pc64Header c64))

/-- What `create_local` has done when it does not raise. -/
theorem createLocal_eq_ok {d d' : Dir} {c64 name : Bytes} (h : createLocal d c64 = (.ok name, d')) :
    localEncode d c64 = some name ∧ c64.length ≤ PC64_FILENAME_SIZE ∧
      d' = (d.write name []).write name (pc64Header c64) := by
  unfold createLocal at h
  split at h
  · cases h
  · rename_i name' hlocal
    dsimp only at h
    split at h
    · cases h
    · rename_i hlen
      cases h
      exact ⟨hlocal, Nat.le_of_not_lt hlen, rfl⟩

end C64Iec.Server

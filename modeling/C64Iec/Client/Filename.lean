import C64Iec.Basic.Bytes
import C64Iec.Lib.Memory
import Mathlib.Data.List.DropRight

set_option autoImplicit false

/-! # The name of a request (`create_tftp_filename`)

The loop reads the name from the right and fills the 53 bytes of `tftp_filename` from the
right; the result is then moved to the front, behind the device prefix. What it stores is the
normal form of the name, each byte of it as it is or escaped (`untilNul_createTftpFilename`).
-/

namespace C64Iec.Client

open Lib

def C64_FILE_LIMIT : Nat := 16

def hexarray : Bytes := ascii "0123456789abcdef"

/-- `hexarray[n]` -/
def hexDigit (n : Nat) : Byte := hexarray.getD n 0

/-- The bytes `create_tftp_filename` copies without escaping them. -/
def isPlain (c : Byte) : Bool :=
  (48 ≤ c && c ≤ 57) || (65 ≤ c && c ≤ 90) || (c == 32 || c == 45 || c == 95 || c == 46)

/-- `%` and the two hex digits of `c`. -/
def escapeByte (c : Byte) : Bytes := [37, hexDigit (c.toNat / 16), hexDigit (c.toNat % 16)]

/-- The loop variables of `create_tftp_filename`. -/
structure FilenameLoop where
  filename : Bytes
  outPos : Nat
  trailing : Bool
  deriving DecidableEq, Repr

/-- The loop body, on the byte `c` of the name. -/
def filenameStep (c : Byte) (s : FilenameLoop) : FilenameLoop :=
  if c = 0xa0 ∨ c = 0 then s else
  if c = 32 ∧ s.trailing then s else
  if isPlain c then
    { filename := s.filename.set (s.outPos - 1) c, outPos := s.outPos - 1, trailing := false }
  else
    { filename := blit s.filename (s.outPos - 3) (escapeByte c), outPos := s.outPos - 3,
      trailing := false }

/-- `create_tftp_filename`: the content of `tftp_filename` afterwards. `c64name` is a buffer
with the name at its start. -/
def createTftpFilename (filename : Bytes) (deviceMode : Byte) (c64name : Bytes) : Bytes :=
  let outSize := C64_FILE_LIMIT * 3 + 4
  let startPos := min C64_FILE_LIMIT (untilNul c64name).length
  let s := (c64name.take startPos).foldr filenameStep ⟨filename, outSize, true⟩
  let n := outSize - s.outPos
  let filename := blit s.filename 2 ((s.filename.drop s.outPos).take n)
  let filename := filename.set 0 (hexDigit (deviceMode.toNat % 16))
  let filename := filename.set 1 47
  filename.set (n + 2) 0

/-! ## What is stored -/

/-- A byte of the name as it is stored. -/
def encodeByte (c : Byte) : Bytes := if isPlain c then [c] else escapeByte c

def encode (name : Bytes) : Bytes := name.flatMap encodeByte

/-- The bytes of a name that are stored: no `0xa0`, no spaces at the end. -/
def trimName (name : Bytes) : Bytes := (name.filter (· ≠ 0xa0)).rdropWhile (· = 32)

/-- What is left of a name: its first 16 bytes, trimmed. -/
def normalForm (name : Bytes) : Bytes := trimName (name.take C64_FILE_LIMIT)

/-- How many bytes the name takes up when it is stored. -/
def encodedSize (name : Bytes) : Nat := (name.map fun c => if isPlain c then 1 else 3).sum

theorem encodeByte_length (c : Byte) : (encodeByte c).length = if isPlain c then 1 else 3 := by
  rw [encodeByte]
  split <;> rfl

theorem encode_length (name : Bytes) : (encode name).length = encodedSize name := by
  rw [encode, List.length_flatMap, encodedSize]
  simp only [encodeByte_length]

theorem encodedSize_le (name : Bytes) : encodedSize name ≤ 3 * name.length := by
  induction name with
  | nil => exact Nat.le_refl _
  | cons c name ih =>
      have hc : (if isPlain c then 1 else 3) ≤ 3 := by split <;> decide
      simp only [encodedSize, List.map_cons, List.sum_cons, List.length_cons] at ih ⊢
      omega

theorem rdropWhile_cons {α : Type*} (p : α → Bool) (a : α) (l : List α) :
    (a :: l).rdropWhile p
      = if l.rdropWhile p = [] then (if p a then [] else [a]) else a :: l.rdropWhile p := by
  have hnil : l.rdropWhile p = [] ↔ l.reverse.dropWhile p = [] := by simp [List.rdropWhile]
  rw [if_congr hnil rfl rfl, List.rdropWhile, List.reverse_cons, List.dropWhile_append]
  by_cases h : l.reverse.dropWhile p = []
  · rw [if_pos h, h]
    cases hp : p a <;> simp [hp]
  · have hne : (l.reverse.dropWhile p).isEmpty = false := List.isEmpty_eq_false_iff.mpr h
    simp [hne, h, List.rdropWhile]

theorem trimName_cons (c : Byte) (name : Bytes) :
    trimName (c :: name) =
      if c = 0xa0 then trimName name
      else if c = 32 ∧ trimName name = [] then []
      else c :: trimName name := by
  by_cases ha0 : c = 0xa0
  · simp [trimName, ha0]
  · rw [if_neg ha0, trimName, List.filter_cons_of_pos (by simpa using ha0), rdropWhile_cons]
    by_cases hnil : trimName name = []
    · have hnil' : (name.filter (· ≠ 0xa0)).rdropWhile (· = 32) = [] := hnil
      rw [if_pos hnil', hnil]
      by_cases hc : c = 32 <;> simp [hc]
    · have hnil' : ¬(name.filter (· ≠ 0xa0)).rdropWhile (· = 32) = [] := hnil
      rw [if_neg hnil', if_neg fun h => hnil h.2]
      rfl

theorem trimName_length_le (name : Bytes) : (trimName name).length ≤ name.length :=
  Nat.le_trans (List.rdropWhile_prefix _ _).length_le (List.length_filter_le _ _)

/-- The variables of the loop once it has read `name`: what is stored ends before the last byte
of the buffer. -/
structure FilenameLoop.Stored (name : Bytes) (s : FilenameLoop) : Prop where
  content : ∃ before last, s.filename = before ++ (encode (trimName name) ++ [last]) ∧
    before.length = s.outPos
  outPos : s.outPos + encodedSize (trimName name) = C64_FILE_LIMIT * 3 + 4
  trailing : s.trailing = true ↔ trimName name = []

theorem FilenameLoop.Stored.filename_length {name : Bytes} {s : FilenameLoop} (h : s.Stored name) :
    s.filename.length = C64_FILE_LIMIT * 3 + 5 := by
  obtain ⟨before, last, hcontent, hlen⟩ := h.content
  have hpos := h.outPos
  have hsize := encode_length (trimName name)
  rw [hcontent, List.length_append, List.length_append, List.length_singleton]
  omega

/-- There is room for another byte, escaped. -/
theorem FilenameLoop.Stored.room {name : Bytes} {s : FilenameLoop} (h : s.Stored name)
    (hlen : name.length < C64_FILE_LIMIT) : 3 ≤ s.outPos := by
  have h1 := h.outPos
  have h2 := encodedSize_le (trimName name)
  have h3 := trimName_length_le name
  simp only [C64_FILE_LIMIT] at h1 hlen
  omega

/-- Bytes put right before what is stored. -/
theorem FilenameLoop.Stored.push {name bytes : Bytes} {s : FilenameLoop} {c : Byte} (h : s.Stored name)
    (hbytes : bytes = encodeByte c) (hroom : bytes.length ≤ s.outPos)
    (htrim : trimName (c :: name) = c :: trimName name) :
    FilenameLoop.Stored (c :: name)
      { filename := blit s.filename (s.outPos - bytes.length) bytes
        outPos := s.outPos - bytes.length
        trailing := false } := by
  obtain ⟨before, last, hcontent, hlen⟩ := h.content
  have hpos := h.outPos
  have hsize : encodedSize (c :: trimName name) = bytes.length + encodedSize (trimName name) := by
    rw [hbytes, encodeByte_length]
    simp [encodedSize]
  refine ⟨⟨before.take (s.outPos - bytes.length), last, ?_, ?_⟩, ?_, ?_⟩
  · have hdrop : s.outPos - bytes.length + bytes.length = before.length := by omega
    have hle : s.outPos - bytes.length ≤ before.length := by omega
    have hcons : encode (c :: trimName name) = bytes ++ encode (trimName name) := by
      simp [encode, hbytes]
    simp only [htrim, hcons, hcontent, blit, hdrop, List.drop_left,
      List.take_append_of_le_length hle, List.append_assoc]
  · simp only [List.length_take]
    omega
  · rw [htrim, hsize]
    simp only
    omega
  · simp [htrim]

/-- **The loop body** stores the byte, or passes it over. -/
theorem FilenameLoop.Stored.step {name : Bytes} {s : FilenameLoop} {c : Byte} (h : s.Stored name)
    (hc : c ≠ 0) (hlen : name.length < C64_FILE_LIMIT) : FilenameLoop.Stored (c :: name) (filenameStep c s) := by
  have hroom := h.room hlen
  have htrim := trimName_cons c name
  rw [filenameStep]
  by_cases ha0 : c = 0xa0
  · rw [if_pos ha0] at htrim
    rw [if_pos (Or.inl ha0)]
    exact ⟨by rw [htrim]; exact h.content, by rw [htrim]; exact h.outPos,
      by rw [htrim]; exact h.trailing⟩
  · rw [if_neg ha0] at htrim
    rw [if_neg (not_or.mpr ⟨ha0, hc⟩)]
    by_cases hspace : c = 32 ∧ s.trailing = true
    -- a space with nothing behind it is trailing
    · have hnil := h.trailing.mp hspace.2
      rw [if_pos ⟨hspace.1, hnil⟩] at htrim
      rw [if_pos hspace]
      have hsame : trimName (c :: name) = trimName name := by rw [htrim, hnil]
      exact ⟨by rw [hsame]; exact h.content, by rw [hsame]; exact h.outPos,
        by rw [hsame]; exact h.trailing⟩
    · rw [if_neg fun hn => hspace ⟨hn.1, h.trailing.mpr hn.2⟩] at htrim
      rw [if_neg hspace]
      by_cases hplain : isPlain c = true
      · rw [if_pos hplain]
        have hpush := h.push (show [c] = encodeByte c by rw [encodeByte, if_pos hplain])
          (Nat.le_trans (show 1 ≤ 3 by decide) hroom) htrim
        have hin : s.outPos - 1 < s.filename.length := by
          have := h.filename_length
          have := h.outPos
          omega
        rw [set_eq_blit hin]
        exact hpush
      · rw [if_neg hplain]
        exact h.push (show escapeByte c = encodeByte c by rw [encodeByte, if_neg hplain]) hroom htrim

/-- The loop, from the right end of the name on. -/
theorem stored_foldr {filename : Bytes} (hlen : filename.length = C64_FILE_LIMIT * 3 + 5) :
    ∀ name : Bytes, (∀ c ∈ name, c ≠ 0) → name.length ≤ C64_FILE_LIMIT →
      FilenameLoop.Stored name (name.foldr filenameStep ⟨filename, C64_FILE_LIMIT * 3 + 4, true⟩)
  | [], _, _ => by
      have hle : C64_FILE_LIMIT * 3 + 4 < filename.length := by omega
      refine ⟨⟨filename.take (C64_FILE_LIMIT * 3 + 4), filename.get ⟨_, hle⟩, ?_, ?_⟩, rfl, ?_⟩
      · have hdrop : filename.drop (C64_FILE_LIMIT * 3 + 4) = [filename.get ⟨_, hle⟩] := by
          rw [List.drop_eq_getElem_cons hle, List.drop_of_length_le (by omega)]
          rfl
        show filename = _ ++ ([] ++ [filename.get ⟨_, hle⟩])
        rw [List.nil_append, ← hdrop, List.take_append_drop]
      · rw [List.length_take]
        exact Nat.min_eq_left (Nat.le_of_lt hle)
      · exact ⟨fun _ => rfl, fun _ => rfl⟩
  | c :: name, hname, hle => by
      have ih := stored_foldr hlen name (fun x hx => hname x (List.mem_cons_of_mem _ hx))
        (Nat.le_of_succ_le hle)
      exact ih.step (hname c List.mem_cons_self) hle

theorem hexDigit_ne_nul : ∀ n < 16, hexDigit n ≠ 0 := by decide

theorem encodeByte_ne_nul {c : Byte} (hc : c ≠ 0) : ∀ x ∈ encodeByte c, x ≠ 0 := by
  intro x hx
  have hlt := c.toNat_lt
  rw [encodeByte] at hx
  split at hx
  · rw [List.mem_singleton.mp hx]
    exact hc
  · simp only [escapeByte, List.mem_cons, List.not_mem_nil, or_false] at hx
    rcases hx with rfl | rfl | rfl
    · decide
    · exact hexDigit_ne_nul _ (by omega)
    · exact hexDigit_ne_nul _ (by omega)

theorem encode_ne_nul {name : Bytes} (h : ∀ c ∈ name, c ≠ 0) : ∀ x ∈ encode name, x ≠ 0 := by
  intro x hx
  obtain ⟨c, hc, hx⟩ := List.mem_flatMap.mp hx
  exact encodeByte_ne_nul (h c hc) x hx

theorem mem_of_mem_normalForm {name : Bytes} {c : Byte} (h : c ∈ normalForm name) : c ∈ name :=
  List.mem_of_mem_take (List.mem_of_mem_filter ((List.rdropWhile_prefix _ _).subset h))

theorem normalForm_length_le (name : Bytes) : (normalForm name).length ≤ C64_FILE_LIMIT :=
  Nat.le_trans (trimName_length_le _) (List.length_take_le _ _)

/-- The name is moved to the front, behind the device digit and a slash. -/
theorem move_name {s : FilenameLoop} {name before : Bytes} {last : Byte}
    (hcontent : s.filename = before ++ (encode name ++ [last])) (hblen : before.length = s.outPos)
    (hpos : s.outPos + encodedSize name = C64_FILE_LIMIT * 3 + 4)
    (hlen : name.length ≤ C64_FILE_LIMIT) (digit : Byte) :
    let n := C64_FILE_LIMIT * 3 + 4 - s.outPos
    ∃ rest, (((blit s.filename 2 ((s.filename.drop s.outPos).take n)).set 0 digit).set 1 47).set
        (n + 2) 0 = (digit :: 47 :: encode name) ++ 0 :: rest ∧
      rest.length + encodedSize name + 3 = C64_FILE_LIMIT * 3 + 5 := by
  have hsize := encodedSize_le name
  have helen := encode_length name
  have hn : C64_FILE_LIMIT * 3 + 4 - s.outPos = (encode name).length := by omega
  have h16 : C64_FILE_LIMIT = 16 := rfl
  have hslen : s.filename.length = C64_FILE_LIMIT * 3 + 5 := by
    rw [hcontent]
    simp only [List.length_append, List.length_singleton]
    omega
  have hcopy : (s.filename.drop s.outPos).take (encode name).length = encode name := by
    rw [hcontent, ← hblen, List.drop_left, List.take_left]
  dsimp only
  rw [hn, hcopy, blit]
  -- the two bytes before the name and the one behind it
  obtain ⟨x, rest, hrest⟩ : ∃ x rest, s.filename.drop (2 + (encode name).length) = x :: rest := by
    refine List.exists_cons_of_ne_nil fun hnil => ?_
    have := congrArg List.length hnil
    simp only [List.length_drop, List.length_nil] at this
    omega
  obtain ⟨a, b, htwo⟩ : ∃ a b, s.filename.take 2 = [a, b] := by
    refine List.length_eq_two.mp ?_
    rw [List.length_take]
    omega
  rw [hrest, htwo]
  refine ⟨rest, ?_, ?_⟩
  · simp
  · have := congrArg List.length hrest
    simp only [List.length_drop, List.length_cons] at this
    omega

/-- The bytes of the name that are read. -/
theorem take_startPos (c64name : Bytes) :
    c64name.take (min C64_FILE_LIMIT (untilNul c64name).length)
      = (untilNul c64name).take C64_FILE_LIMIT := by
  obtain ⟨rest, hrest⟩ := untilNul_prefix c64name
  calc c64name.take (min C64_FILE_LIMIT (untilNul c64name).length)
      = (untilNul c64name ++ rest).take (min C64_FILE_LIMIT (untilNul c64name).length) := by
        rw [hrest]
    _ = (untilNul c64name).take C64_FILE_LIMIT := by
        rw [List.take_append_of_le_length (Nat.min_le_right _ _), ← List.take_take,
          List.take_length]

/-- **What `create_tftp_filename` stores**: the device digit, a slash and the encoded name,
ended by a NUL inside the buffer. -/
theorem createTftpFilename_eq {filename : Bytes} (hlen : filename.length = C64_FILE_LIMIT * 3 + 5)
    (deviceMode : Byte) (c64name : Bytes) :
    ∃ rest, createTftpFilename filename deviceMode c64name
        = (hexDigit (deviceMode.toNat % 16) :: 47 :: encode (normalForm (untilNul c64name)))
          ++ 0 :: rest ∧
      (createTftpFilename filename deviceMode c64name).length = C64_FILE_LIMIT * 3 + 5 := by
  have htake := take_startPos c64name
  set name := (untilNul c64name).take C64_FILE_LIMIT with hname
  obtain ⟨⟨before, last, hcontent, hblen⟩, hpos, -⟩ := stored_foldr hlen name
    (fun c hc => untilNul_ne_nul c64name c (List.mem_of_mem_take hc)) (List.length_take_le _ _)
  rw [createTftpFilename, htake]
  generalize name.foldr filenameStep ⟨filename, C64_FILE_LIMIT * 3 + 4, true⟩ = s at *
  obtain ⟨rest, hrest, hrlen⟩ := move_name hcontent hblen hpos
    (normalForm_length_le (untilNul c64name)) (hexDigit (deviceMode.toNat % 16))
  refine ⟨rest, hrest, ?_⟩
  have helen := encode_length (trimName name)
  show List.length (List.set _ _ _) = _
  rw [hrest]
  simp only [List.length_append, List.length_cons]
  omega

/-- The string in `tftp_filename` after `create_tftp_filename`. -/
theorem untilNul_createTftpFilename {filename : Bytes}
    (hlen : filename.length = C64_FILE_LIMIT * 3 + 5) (deviceMode : Byte) (c64name : Bytes) :
    untilNul (createTftpFilename filename deviceMode c64name)
      = hexDigit (deviceMode.toNat % 16) :: 47 :: encode (normalForm (untilNul c64name)) := by
  obtain ⟨rest, heq, -⟩ := createTftpFilename_eq hlen deviceMode c64name
  rw [heq]
  refine untilNul_append_nul ?_ rest
  intro x hx
  simp only [List.mem_cons] at hx
  rcases hx with rfl | rfl | hx
  · exact hexDigit_ne_nul _ (Nat.mod_lt _ (by decide))
  · decide
  · exact encode_ne_nul
      (fun c hc => untilNul_ne_nul c64name c (mem_of_mem_normalForm hc)) x hx

end C64Iec.Client

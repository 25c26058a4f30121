import C64Iec.Client.Filename

set_option autoImplicit false

/-! # `create_tftp_filename` inside its buffer

The function once more, each access to `tftp_filename` checked against its 53 bytes and `out_pos` a
signed number. It never fails, and is `createTftpFilename` (`createTftpFilenameChecked_eq`).
-/

namespace C64Iec.Client

open Lib

/-- The loop variables, `out_pos` being an `int`. -/
structure CheckedLoop where
  filename : Bytes
  outPos : Int
  trailing : Bool
  deriving DecidableEq, Repr

/-- The loop body, `none` when it writes outside the buffer. -/
def checkedStep (c : Byte) (s : CheckedLoop) : Option CheckedLoop :=
  if c = 0xa0 ∨ c = 0 then some s else
  if c = 32 ∧ s.trailing then some s else
  if isPlain c then do
    let outPos := s.outPos - 1
    let filename ← storeAt s.filename outPos c
    some ⟨filename, outPos, false⟩
  else do
    let outPos := s.outPos - 3
    let filename ← storeAt s.filename outPos 37
    let filename ← storeAt filename (outPos + 1) (hexDigit (c.toNat / 16))
    let filename ← storeAt filename (outPos + 2) (hexDigit (c.toNat % 16))
    some ⟨filename, outPos, false⟩

/-- `create_tftp_filename`, `none` when it reads or writes outside `tftp_filename`. -/
def createTftpFilenameChecked (filename : Bytes) (deviceMode : Byte) (c64name : Bytes) :
    Option Bytes := do
  let outSize := C64_FILE_LIMIT * 3 + 4
  let startPos := min C64_FILE_LIMIT (untilNul c64name).length
  let s ← (c64name.take startPos).foldrM checkedStep ⟨filename, outSize, true⟩
  let n := outSize - s.outPos
  let filename ← moveWithin s.filename 2 s.outPos n.toNat
  let filename ← storeAt filename 0 (hexDigit (deviceMode.toNat % 16))
  let filename ← storeAt filename 1 47
  storeAt filename (n + 2) 0

/-- The same variables. -/
def FilenameLoop.checked (s : FilenameLoop) : CheckedLoop := ⟨s.filename, s.outPos, s.trailing⟩

/-- The three bytes of an escape are written one by one. -/
theorem set_escapeByte {mem : Bytes} {p : Nat} (c : Byte) (h : p + 3 ≤ mem.length) :
    ((mem.set p 37).set (p + 1) (hexDigit (c.toNat / 16))).set (p + 2) (hexDigit (c.toNat % 16))
      = blit mem p (escapeByte c) := by
  have hp : p ≤ mem.length := by omega
  have htwo : blit (blit mem p [37]) (p + 1) [hexDigit (c.toNat / 16)]
      = blit mem p [37, hexDigit (c.toNat / 16)] := blit_blit hp
  have hthree : blit (blit mem p [37, hexDigit (c.toNat / 16)]) (p + 2) [hexDigit (c.toNat % 16)]
      = blit mem p (escapeByte c) := blit_blit hp
  rw [set_eq_blit (show p + 2 < _ by rw [List.length_set, List.length_set]; omega),
    set_eq_blit (show p + 1 < _ by rw [List.length_set]; omega),
    set_eq_blit (show p < _ by omega), htwo, hthree]

/-- **The loop body** writes to the buffer only. -/
theorem FilenameLoop.Stored.checkedStep {name : Bytes} {s : FilenameLoop} (h : s.Stored name)
    (hlen : name.length < C64_FILE_LIMIT) (c : Byte) :
    Client.checkedStep c s.checked = some (filenameStep c s).checked := by
  have hroom := h.room hlen
  have hflen := h.filename_length
  have hpos := h.outPos
  have hin : s.outPos < s.filename.length := by omega
  rw [Client.checkedStep, filenameStep]
  by_cases hskip : c = 0xa0 ∨ c = 0
  · rw [if_pos hskip, if_pos hskip]
  · rw [if_neg hskip, if_neg hskip]
    by_cases hspace : c = 32 ∧ s.trailing = true
    · rw [if_pos hspace, if_pos (show c = 32 ∧ s.checked.trailing = true from hspace)]
    · rw [if_neg hspace, if_neg (show ¬(c = 32 ∧ s.checked.trailing = true) from hspace)]
      -- one cell below `outPos` is written, or three
      by_cases hplain : isPlain c = true
      · have hone : s.checked.outPos - 1 = (s.outPos - 1 : Nat) := by
          simp only [FilenameLoop.checked]
          omega
        have hstore := storeAt_of_lt hone (show s.outPos - 1 < s.filename.length by omega) c
        rw [if_pos hplain, if_pos hplain]
        simp only [FilenameLoop.checked] at hone hstore ⊢
        simp only [hstore, Option.bind_eq_bind, Option.bind_some]
        rw [hone]
      · have hthree : s.checked.outPos - 3 = (s.outPos - 3 : Nat) := by
          simp only [FilenameLoop.checked]
          omega
        have hset := set_escapeByte c (show s.outPos - 3 + 3 ≤ s.filename.length by omega)
        rw [if_neg hplain, if_neg hplain, ← hset]
        simp only [FilenameLoop.checked] at hthree ⊢
        have h1 := storeAt_of_lt hthree (show s.outPos - 3 < s.filename.length by omega) 37
        have h2 : storeAt (s.filename.set (s.outPos - 3) 37) (s.outPos - 3 + 1 : Int)
            (hexDigit (c.toNat / 16)) = _ :=
          storeAt_of_lt (p := s.outPos - 3 + 1) (by omega) (by rw [List.length_set]; omega) _
        have h3 : storeAt ((s.filename.set (s.outPos - 3) 37).set (s.outPos - 3 + 1)
            (hexDigit (c.toNat / 16))) (s.outPos - 3 + 2 : Int) (hexDigit (c.toNat % 16)) = _ :=
          storeAt_of_lt (p := s.outPos - 3 + 2) (by omega)
            (by rw [List.length_set, List.length_set]; omega) _
        simp only [h1, h2, h3, Option.bind_eq_bind, Option.bind_some]
        rw [hthree]

/-- The loop. -/
theorem foldrM_checkedStep {filename : Bytes} (hlen : filename.length = C64_FILE_LIMIT * 3 + 5) :
    ∀ name : Bytes, (∀ c ∈ name, c ≠ 0) → name.length ≤ C64_FILE_LIMIT →
      name.foldrM checkedStep ⟨filename, (C64_FILE_LIMIT * 3 + 4 : Nat), true⟩
        = some (name.foldr filenameStep ⟨filename, C64_FILE_LIMIT * 3 + 4, true⟩).checked
  | [], _, _ => rfl
  | c :: name, hname, hle => by
      have hname' : ∀ x ∈ name, x ≠ 0 := fun x hx => hname x (List.mem_cons_of_mem _ hx)
      have hle' : name.length < C64_FILE_LIMIT := hle
      rw [List.foldrM_cons, foldrM_checkedStep hlen name hname' hle'.le]
      exact (stored_foldr hlen name hname' hle'.le).checkedStep hle' c

/-- **The whole function** stays inside `tftp_filename`. -/
theorem createTftpFilenameChecked_eq {filename : Bytes}
    (hlen : filename.length = C64_FILE_LIMIT * 3 + 5) (deviceMode : Byte) (c64name : Bytes) :
    createTftpFilenameChecked filename deviceMode c64name
      = some (createTftpFilename filename deviceMode c64name) := by
  have hname : ∀ c ∈ (untilNul c64name).take C64_FILE_LIMIT, c ≠ 0 :=
    fun c hc => untilNul_ne_nul c64name c (List.mem_of_mem_take hc)
  have hle := List.length_take_le C64_FILE_LIMIT (untilNul c64name)
  have hloop := foldrM_checkedStep hlen _ hname hle
  have hstored := stored_foldr hlen _ hname hle
  have hsize := encodedSize_le (trimName ((untilNul c64name).take C64_FILE_LIMIT))
  have htrim := trimName_length_le ((untilNul c64name).take C64_FILE_LIMIT)
  rw [createTftpFilenameChecked, createTftpFilename]
  dsimp only
  rw [take_startPos, hloop]
  generalize ((untilNul c64name).take C64_FILE_LIMIT).foldr filenameStep _ = s at hstored ⊢
  have hpos := hstored.outPos
  have hflen := hstored.filename_length
  have h16 : C64_FILE_LIMIT = 16 := rfl
  set n := C64_FILE_LIMIT * 3 + 4 - s.outPos with hn
  have hsub : ((C64_FILE_LIMIT * 3 + 4 : Nat) : Int) - s.checked.outPos = (n : Int) := by
    simp only [FilenameLoop.checked]
    omega
  have hmlen : (blit s.filename 2 ((s.filename.drop s.outPos).take n)).length = 53 := by
    have hcopy : ((s.filename.drop s.outPos).take n).length ≤ n := List.length_take_le _ _
    rw [blit_length (by omega), hflen, h16]
  set mem := blit s.filename 2 ((s.filename.drop s.outPos).take n) with hmem
  -- the move to the front, and the three cells written behind it
  have hmove : moveWithin s.checked.filename 2 s.checked.outPos (n : Int).toNat = some mem :=
    moveWithin_of_le (show 2 + n ≤ s.filename.length by omega)
      (show s.outPos + n ≤ s.filename.length by omega)
  have h0 : storeAt mem 0 (hexDigit (deviceMode.toNat % 16)) = _ :=
    storeAt_of_lt (p := 0) rfl (by omega) _
  have h1 : storeAt (mem.set 0 (hexDigit (deviceMode.toNat % 16))) 1 47 = _ :=
    storeAt_of_lt (p := 1) rfl (by rw [List.length_set]; omega) 47
  have hn2 : storeAt ((mem.set 0 (hexDigit (deviceMode.toNat % 16))).set 1 47) ((n : Int) + 2) 0
      = _ :=
    storeAt_of_lt (p := n + 2) rfl (by rw [List.length_set, List.length_set]; omega) 0
  simp only [Option.bind_eq_bind, Option.bind_some, hsub, hmove, h0, h1, hn2]

end C64Iec.Client

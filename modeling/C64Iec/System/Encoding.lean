import C64Iec.Client.FilenameBounds
import C64Iec.System.Names

set_option autoImplicit false

/-! # Percent encoding

What `create_tftp_filename` leaves in `tftp_filename` for a name of any length: it stays inside the
buffer, the body of the string is in the alphabet of plain bytes and escapes (`IsBody`), and the
server's decoder gets the normal form of the name back from it (`createTftpFilename_encoded`). So
names with different normal forms are never encoded alike.
-/

namespace C64Iec

open Lib Server Client

/-- A lower-case hex digit. -/
def isLowerHex (c : Byte) : Bool := (48 ≤ c && c ≤ 57) || (97 ≤ c && c ≤ 102)

/-- Plain bytes and escapes. -/
inductive IsBody : Bytes → Prop
  | nil : IsBody []
  | plain {c : Byte} {rest : Bytes} (hc : isPlain c = true) (h : IsBody rest) : IsBody (c :: rest)
  | escape {hi lo : Byte} {rest : Bytes} (hhi : isLowerHex hi = true) (hlo : isLowerHex lo = true)
      (h : IsBody rest) : IsBody (37 :: hi :: lo :: rest)

theorem isLowerHex_hexDigit : ∀ n < 16, isLowerHex (hexDigit n) = true := by decide

theorem isBody_encode (name : Bytes) : IsBody (encode name) := by
  induction name with
  | nil => exact .nil
  | cons c name ih =>
      have hlt := c.toNat_lt
      have hcons : encode (c :: name) = encodeByte c ++ encode name := by simp [encode]
      rw [hcons, encodeByte]
      split
      · rename_i hplain
        exact .plain hplain ih
      · exact .escape (isLowerHex_hexDigit _ (by omega)) (isLowerHex_hexDigit _ (by omega)) ih

/-- What the name is turned into: `mem` is `tftp_filename` afterwards. -/
structure Encoded (filename : Bytes) (deviceMode : Byte) (c64name mem body : Bytes) : Prop where
  inside : createTftpFilenameChecked filename deviceMode c64name = some mem
  mem_eq : mem = createTftpFilename filename deviceMode c64name
  length : mem.length = C64_FILE_LIMIT * 3 + 5
  terminated : 0 ∈ mem
  string : untilNul mem = hexDigit (deviceMode.toNat % 16) :: 47 :: body
  form : IsBody body
  decoded : unescape body = normalForm (untilNul c64name)

/-- **Percent encoding** is exact and stays in its buffer; and names that are encoded alike, in
whatever buffer and for whatever device, have one normal form. -/
theorem createTftpFilename_encoded {filename : Bytes}
    (hlen : filename.length = C64_FILE_LIMIT * 3 + 5) (deviceMode : Byte) (c64name : Bytes) :
    ∃ mem body, Encoded filename deviceMode c64name mem body ∧
      ∀ filename' deviceMode' c64name', filename'.length = C64_FILE_LIMIT * 3 + 5 →
        untilNul (createTftpFilename filename' deviceMode' c64name') = untilNul mem →
        normalForm (untilNul c64name') = normalForm (untilNul c64name) := by
  obtain ⟨rest, heq, hmlen⟩ := createTftpFilename_eq hlen deviceMode c64name
  have hstring := untilNul_createTftpFilename hlen deviceMode c64name
  refine ⟨createTftpFilename filename deviceMode c64name, encode (normalForm (untilNul c64name)), {
    inside := createTftpFilenameChecked_eq hlen deviceMode c64name
    mem_eq := rfl
    length := hmlen
    terminated := by rw [heq]; simp
    string := hstring
    form := isBody_encode _
    decoded := unescape_encode _ }, ?_⟩
  intro filename' deviceMode' c64name' hlen' hsame
  rw [untilNul_createTftpFilename hlen', hstring] at hsame
  -- the decoder gets both normal forms from the one body
  have hbody := (List.cons.inj (List.cons.inj hsame).2).2
  rw [← unescape_encode (normalForm (untilNul c64name')), hbody, unescape_encode]

/-- The name `A!`, with a space behind it, for device 8. -/
theorem createTftpFilename_encoded_sample :
    ∃ mem body, Encoded (List.replicate 53 0) 0x28 (ascii "A! " ++ [0]) mem body ∧
      ∀ filename' deviceMode' c64name', filename'.length = C64_FILE_LIMIT * 3 + 5 →
        untilNul (createTftpFilename filename' deviceMode' c64name') = untilNul mem →
        normalForm (untilNul c64name') = normalForm (untilNul (ascii "A! " ++ [0])) :=
  createTftpFilename_encoded List.length_replicate 0x28 (ascii "A! " ++ [0])

end C64Iec

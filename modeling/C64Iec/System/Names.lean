import C64Iec.Client.Sketch
import C64Iec.System.Session

set_option autoImplicit false

/-! # The way of a file name

A name collected by the sketch is put into its normal form, encoded, sent in a request, split at
the device prefix and decoded. `decode_encode` is the round trip; what can go wrong on the way is
the request's limit of 20 bytes and the decoder's pattern, which matches at every line
(`survives_iff`).
-/

namespace C64Iec

open Lib Server Client

/-! ## Decoding what has been encoded -/

theorem unescape_cons_of_ne {c : Byte} (h : c ≠ 37) (rest : Bytes) :
    unescape (c :: rest) = c :: unescape rest := by
  match rest with
  | [] => rfl
  | [_] => rfl
  | _ :: _ :: _ => simp [unescape, h]

theorem hexValue_hexDigit : ∀ n < 16, hexValue (hexDigit n) = some n := by decide

theorem unescape_escapeByte (c : Byte) (rest : Bytes) :
    unescape (escapeByte c ++ rest) = c :: unescape rest := by
  have hlt := c.toNat_lt
  have hhi := hexValue_hexDigit (c.toNat / 16) (by omega)
  have hlo := hexValue_hexDigit (c.toNat % 16) (by omega)
  have hc : UInt8.ofNat (c.toNat / 16 * 16 + c.toNat % 16) = c := by
    rw [Nat.div_add_mod' c.toNat 16, UInt8.ofNat_toNat]
  simp only [escapeByte, List.cons_append, List.nil_append, unescape, if_true, hhi, hlo, hc]

theorem isPlain_ne_percent {c : Byte} (h : isPlain c = true) : c ≠ 37 := by
  rintro rfl
  exact absurd h (by decide)

theorem unescape_encode (name : Bytes) : unescape (encode name) = name := by
  induction name with
  | nil => rfl
  | cons c name ih =>
      have hcons : encode (c :: name) = encodeByte c ++ encode name := by simp [encode]
      rw [hcons, encodeByte]
      split
      · rename_i hplain
        rw [List.singleton_append, unescape_cons_of_ne (isPlain_ne_percent hplain), ih]
      · rw [unescape_escapeByte, ih]

/-! ## The device prefix -/

theorem not_isLineFeed_of_mem_encode (name : Bytes) :
    ∀ x ∈ encode name, isLineFeed x = false := by
  have hhex : ∀ n < 16, isLineFeed (hexDigit n) = false := by decide
  intro x hx
  obtain ⟨c, -, hx⟩ := List.mem_flatMap.mp hx
  have hlt := c.toNat_lt
  rw [encodeByte] at hx
  split at hx
  · rename_i hplain
    obtain rfl := List.mem_singleton.mp hx
    by_contra hlf
    obtain rfl : x = 10 := by simpa [isLineFeed] using hlf
    exact absurd hplain (by decide)
  · simp only [escapeByte, List.mem_cons, List.not_mem_nil, or_false] at hx
    rcases hx with rfl | rfl | rfl
    · rfl
    · exact hhex _ (by omega)
    · exact hhex _ (by omega)

/-- The digit selects the device, for the devices the prefix is for. -/
theorem splitDevice_prefix {dev : Nat} (h8 : 8 ≤ dev) (h16 : dev < 16) {name : Bytes}
    (hname : ∀ x ∈ name, isLineFeed x = false) :
    splitDevice (hexDigit dev :: 47 :: name) = (dev, name) := by
  have hdigit : ∀ d < 16, 8 ≤ d → (hexDigit d = 56 ∨ hexDigit d = 57 ∨
      (97 ≤ hexDigit d ∧ hexDigit d ≤ 102)) := by decide
  have hline : name.takeWhile (!isLineFeed ·) = name :=
    List.takeWhile_eq_self_iff.mpr fun x hx => by simp [hname x hx]
  have hprefix : Server.Tftp.devicePrefix true (hexDigit dev :: 47 :: name)
      = some (hexDigit dev, name) := by
    rw [Server.Tftp.devicePrefix, if_pos ⟨rfl, hdigit dev h16 h8, rfl⟩, hline]
  rw [splitDevice, hprefix]
  simp only [Server.Tftp.deviceNumber, hexValue_hexDigit dev h16, Option.getD_some]

/-! ## The prefix `@<digit>:` -/

/-- A name without the prefix `@<digit>:`, if it has one. -/
def withoutPrefix (name : Bytes) : Bytes := (atDigitColon name).getD name

/-- Whether `@<digit>:` comes right behind a line feed. -/
def PrefixBehindLineFeed (name : Bytes) : Prop := ∃ d, isDigit d = true ∧ [10, 64, d, 58] <:+: name

theorem atDigitColon_eq_some {s r : Bytes} :
    atDigitColon s = some r ↔ ∃ d, isDigit d = true ∧ s = 64 :: d :: 58 :: r := by
  constructor
  · intro h
    match s, h with
    | a :: d :: c :: rest, h =>
        rw [atDigitColon] at h
        split at h
        · rename_i hc
          obtain ⟨rfl, hd, rfl⟩ := hc
          obtain rfl := Option.some.inj h
          exact ⟨d, hd, rfl⟩
        · cases h
  · rintro ⟨d, hd, rfl⟩
    simp [atDigitColon, hd]

theorem atDigitColon_suffix (s r : Bytes) (h : atDigitColon s = some r) :
    r <:+ s ∧ r.length < s.length := by
  obtain ⟨d, -, rfl⟩ := atDigitColon_eq_some.mp h
  refine ⟨⟨[64, d, 58], rfl⟩, ?_⟩
  simp only [List.length_cons]
  omega

theorem matchesLater_iff {name : Bytes} :
    MatchesLater atDigitColon isLineFeed name ↔ PrefixBehindLineFeed name := by
  constructor
  · rintro ⟨pre, c, rest, rfl, hc, hp⟩
    obtain ⟨r, hr⟩ := Option.isSome_iff_exists.mp hp
    obtain ⟨d, hd, rfl⟩ := atDigitColon_eq_some.mp hr
    obtain rfl : c = 10 := by simpa [isLineFeed] using hc
    exact ⟨d, hd, pre, r, by simp⟩
  · rintro ⟨d, hd, pre, r, rfl⟩
    refine ⟨pre, 10, 64 :: d :: 58 :: r, by simp, rfl, ?_⟩
    rw [atDigitColon_eq_some.mpr ⟨d, hd, rfl⟩]
    rfl

/-- The prefix at the beginning has nothing to do with one behind a line feed. -/
theorem matchesLater_withoutPrefix {name : Bytes} :
    MatchesLater atDigitColon isLineFeed (withoutPrefix name)
      ↔ MatchesLater atDigitColon isLineFeed name := by
  rw [withoutPrefix]
  cases h : atDigitColon name with
  | none => rfl
  | some r =>
      obtain ⟨d, hd, rfl⟩ := atDigitColon_eq_some.mp h
      have hdlf : isLineFeed d = false := by
        by_contra hlf
        obtain rfl : d = 10 := by simpa [isLineFeed] using hlf
        exact absurd hd (by decide)
      rw [matchesLater_cons, matchesLater_cons, matchesLater_cons, hdlf]
      simp [isLineFeed]

/-- **The round trip**, and when nothing but the prefix is lost on it. -/
theorem decode_encode_eq_iff (name : Bytes) :
    decode (encode name) = withoutPrefix name ↔ ¬PrefixBehindLineFeed name := by
  rw [decode, unescape_encode, withoutPrefix, stripLineStarts_eq_iff atDigitColon_suffix,
    ← withoutPrefix, matchesLater_withoutPrefix, matchesLater_iff]

/-! ## The whole way -/

namespace Names

/-- The request that `file` sends for the name in `iobuf` is served by `handler`, on device
`dev`, under the decoded name `name`, whatever session it reaches. -/
def Survives (file : Client.Tftp → Bytes → Nat × Client.Tftp × List Datagram)
    (handler : Server.Tftp → Bytes → Except RubyError Server.Tftp) (g : Globals) (dev : Nat)
    (name : Bytes) : Prop :=
  ∃ p, (file g.createTftpFilename.tftp g.createTftpFilename.filename).2.2 = [p] ∧
    p.dport = TFTP_PORT ∧
    ∀ t : Server.Tftp,
      t.dispatch (Daemon.recvfrom p.payload)
        = handler { t with status := .ready } (Daemon.recvfrom p.payload) ∧
      ∃ t', ({ t with status := .ready } : Server.Tftp).parseRequest (Daemon.recvfrom p.payload)
          = .ok t' ∧
        t'.deviceNum = dev ∧ decode t'.filename = name

variable {g : Globals}

/-- The name of the request, as `create_tftp_filename` leaves it. -/
theorem filename_createTftpFilename (hbuf : g.tftpFilename.length = C64_FILE_LIMIT * 3 + 5) :
    g.createTftpFilename.filename
      = hexDigit (g.deviceMode.toNat % 16) :: 47 :: encode (normalForm (untilNul g.iobuf)) := by
  rw [Globals.filename, Globals.createTftpFilename, untilNul_createTftpFilename hbuf]

/-- One kind of request. -/
structure Kind (file : Client.Tftp → Bytes → Nat × Client.Tftp × List Datagram)
    (handler : Server.Tftp → Bytes → Except RubyError Server.Tftp) where
  opcode : Nat
  sends : ∀ (t : Client.Tftp) (name : Bytes), t.requestInProgress = .norq →
    (file t name).2.2 = if name.length ≤ NAME_LIMIT then [requestDatagram opcode name] else []
  handled : ∀ (t : Server.Tftp) (name : Bytes),
    t.dispatch (requestBytes opcode name)
      = handler { t with status := .ready } (requestBytes opcode name)

def getKind : Kind tftpGetFile Server.Tftp.packetRrq where
  opcode := TFTP_RRQ
  sends t name hreq := by
    have hsend := tftpSendRequest_eq TFTP_RRQ .get { t with
      dataAvailable := 0, endOfData := false, lastgot := 0, error := false, lastblk := 65535 } name
    have h := congrArg Prod.snd hsend
    rw [tftpGetFile, tftpSendRrq, h]
    by_cases hle : name.length ≤ NAME_LIMIT <;> simp [hreq, hle]
  handled t name := by
    simp [Server.Tftp.dispatch, requestBytes_eq, Server.Tftp.uint16_serialize, TFTP_RRQ, bind,
      Except.bind]

def putKind : Kind tftpPutFile Server.Tftp.packetWrq where
  opcode := TFTP_WRQ
  sends t name hreq := by
    have hsend := tftpSendRequest_eq TFTP_WRQ .put { t with
      clearToSend := false, error := false, lastblk := 65535 } name
    have h := congrArg Prod.snd hsend
    rw [tftpPutFile, tftpSendWrq, h]
    by_cases hle : name.length ≤ NAME_LIMIT <;> simp [hreq, hle]
  handled t name := by
    simp [Server.Tftp.dispatch, requestBytes_eq, Server.Tftp.uint16_serialize, TFTP_WRQ, bind,
      Except.bind]

variable {file : Client.Tftp → Bytes → Nat × Client.Tftp × List Datagram}
  {handler : Server.Tftp → Bytes → Except RubyError Server.Tftp}

/-- The length of the request's name decides whether it is sent. -/
theorem Kind.sends_iff (kind : Kind file handler) (hreq : g.tftp.requestInProgress = .norq)
    (hbuf : g.tftpFilename.length = C64_FILE_LIMIT * 3 + 5) :
    (file g.createTftpFilename.tftp g.createTftpFilename.filename).2.2
      = if encodedSize (normalForm (untilNul g.iobuf)) ≤ 18 then
          [requestDatagram kind.opcode g.createTftpFilename.filename] else [] := by
  have hlen : g.createTftpFilename.filename.length ≤ NAME_LIMIT
      ↔ encodedSize (normalForm (untilNul g.iobuf)) ≤ 18 := by
    rw [filename_createTftpFilename hbuf, List.length_cons, List.length_cons, encode_length]
    exact Nat.add_le_add_iff_right (n := 2) (k := 18)
  rw [kind.sends g.createTftpFilename.tftp _ hreq]
  exact if_congr hlen rfl rfl

/-- What a session makes of the request. -/
theorem parseRequest_request (opcode : Nat) (t : Server.Tftp)
    (hbuf : g.tftpFilename.length = C64_FILE_LIMIT * 3 + 5) (h8 : 8 ≤ g.deviceMode.toNat % 16) :
    ∃ t', t.parseRequest (requestBytes opcode g.createTftpFilename.filename) = .ok t' ∧
      t'.deviceNum = g.deviceMode.toNat % 16 ∧
      t'.filename = encode (normalForm (untilNul g.iobuf)) := by
  have hsplit := splitDevice_prefix h8 (Nat.mod_lt g.deviceMode.toNat (by decide))
    (not_isLineFeed_of_mem_encode (normalForm (untilNul g.iobuf)))
  have hparse := parseRequest_serialized t opcode
    (untilNul_ne_nul g.createTftpFilename.tftpFilename) (isMode_iff.mpr (Or.inl rfl))
    clientOptions_ok
  rw [← requestBytes_eq] at hparse
  refine ⟨_, hparse, ?_, ?_⟩
  · show (splitDevice g.createTftpFilename.filename).1 = _
    rw [filename_createTftpFilename hbuf, hsplit]
  · show (splitDevice g.createTftpFilename.filename).2 = _
    rw [filename_createTftpFilename hbuf, hsplit]

/-- **When a name survives**, for one kind of request. -/
theorem Kind.nameSurvives_iff (kind : Kind file handler) (hreq : g.tftp.requestInProgress = .norq)
    (hbuf : g.tftpFilename.length = C64_FILE_LIMIT * 3 + 5) (h8 : 8 ≤ g.deviceMode.toNat % 16) :
    Survives file handler g (g.deviceMode.toNat % 16)
        (withoutPrefix (normalForm (untilNul g.iobuf))) ↔
      encodedSize (normalForm (untilNul g.iobuf)) ≤ 18 ∧
        ¬PrefixBehindLineFeed (normalForm (untilNul g.iobuf)) := by
  rw [Survives, kind.sends_iff hreq hbuf, ← decode_encode_eq_iff]
  by_cases hsize : encodedSize (normalForm (untilNul g.iobuf)) ≤ 18
  · have hname : g.createTftpFilename.filename.length ≤ NAME_LIMIT := by
      rw [filename_createTftpFilename hbuf, List.length_cons, List.length_cons, encode_length]
      exact Nat.add_le_add_right hsize 2
    have hcut := recvfrom_requestBytes kind.opcode hname
    rw [if_pos hsize]
    constructor
    · rintro ⟨p, hp, -, hall⟩
      obtain rfl := List.singleton_inj.mp hp
      -- a server without devices parses the name like any other
      obtain ⟨-, t', hparse, -, hdecode⟩ := hall (.new (fun _ => none) [] ⟨[], 0⟩)
      obtain ⟨t'', hparse', -, hfile⟩ := parseRequest_request kind.opcode
        { Server.Tftp.new (fun _ => none) [] ⟨[], 0⟩ with status := .ready } hbuf h8
      simp only [requestDatagram, hcut] at hparse
      obtain rfl : t' = t'' := Except.ok.inj (hparse.symm.trans hparse')
      rw [hfile] at hdecode
      exact ⟨hsize, hdecode⟩
    · rintro ⟨-, hdecode⟩
      refine ⟨_, rfl, rfl, fun t => ?_⟩
      simp only [requestDatagram, hcut]
      obtain ⟨t', hparse, hdev, hfile⟩ := parseRequest_request kind.opcode
        { t with status := .ready } hbuf h8
      exact ⟨kind.handled t _, t', hparse, hdev, by rw [hfile, hdecode]⟩
  · rw [if_neg hsize]
    constructor
    · rintro ⟨p, hp, -⟩
      cases hp
    · exact fun h => absurd h.1 hsize

/-- **File names survive the whole way**, in either kind of request, exactly when what is stored
of them fits into the request and hides no prefix behind a line feed. -/
theorem survives_iff (hreq : g.tftp.requestInProgress = .norq)
    (hbuf : g.tftpFilename.length = C64_FILE_LIMIT * 3 + 5) (h8 : 8 ≤ g.deviceMode.toNat % 16) :
    (Survives tftpGetFile Server.Tftp.packetRrq g (g.deviceMode.toNat % 16)
        (withoutPrefix (normalForm (untilNul g.iobuf))) ↔
      encodedSize (normalForm (untilNul g.iobuf)) ≤ 18 ∧
        ¬PrefixBehindLineFeed (normalForm (untilNul g.iobuf))) ∧
    (Survives tftpPutFile Server.Tftp.packetWrq g (g.deviceMode.toNat % 16)
        (withoutPrefix (normalForm (untilNul g.iobuf))) ↔
      encodedSize (normalForm (untilNul g.iobuf)) ≤ 18 ∧
        ¬PrefixBehindLineFeed (normalForm (untilNul g.iobuf))) :=
  ⟨getKind.nameSurvives_iff hreq hbuf h8, putKind.nameSurvives_iff hreq hbuf h8⟩

/-- The globals once `handle_open` has collected `name`, for device 8. -/
def collected (name : Bytes) : Globals :=
  { Globals.init with iobuf := name ++ 0 :: List.replicate (256 - name.length) 0, deviceMode := 0x28 }

theorem untilNul_collected {name : Bytes} (hname : ∀ c ∈ name, c ≠ 0) :
    untilNul (collected name).iobuf = name := untilNul_append_nul hname _

/-- The name `HELLO 1` survives. -/
theorem survives_iff_hello :
    Survives tftpGetFile Server.Tftp.packetRrq (collected (ascii "HELLO 1")) 8 (ascii "HELLO 1") ∧
    Survives tftpPutFile Server.Tftp.packetWrq (collected (ascii "HELLO 1")) 8
      (ascii "HELLO 1") := by
  have hiff := survives_iff (g := collected (ascii "HELLO 1")) rfl List.length_replicate (by decide)
  rw [untilNul_collected (by decide)] at hiff
  have hnormal : withoutPrefix (normalForm (ascii "HELLO 1")) = ascii "HELLO 1" := by decide
  have hgood : encodedSize (normalForm (ascii "HELLO 1")) ≤ 18 ∧
      ¬PrefixBehindLineFeed (normalForm (ascii "HELLO 1")) := by
    refine ⟨by decide, ?_⟩
    rintro ⟨d, -, hd⟩
    exact absurd (hd.subset List.mem_cons_self) (by decide)
  rw [hnormal] at hiff
  exact ⟨hiff.1.mpr hgood, hiff.2.mpr hgood⟩

/-- Seven exclamation marks are refused by the client; of `A`, a line feed and `@0:B` the server
loses the prefix in the middle. -/
theorem names_not_surviving :
    ¬Survives tftpGetFile Server.Tftp.packetRrq (collected (ascii "!!!!!!!")) 8
        (ascii "!!!!!!!") ∧
      ¬Survives tftpPutFile Server.Tftp.packetWrq (collected ([65, 10] ++ ascii "@0:B")) 8
        ([65, 10] ++ ascii "@0:B") := by
  constructor
  · have hiff := getKind.nameSurvives_iff (g := collected (ascii "!!!!!!!")) rfl List.length_replicate
      (by decide)
    rw [untilNul_collected (by decide)] at hiff
    exact fun h => absurd (hiff.mp h).1 (by decide)
  · have hiff := putKind.nameSurvives_iff (g := collected ([65, 10] ++ ascii "@0:B")) rfl
      List.length_replicate (by decide)
    rw [untilNul_collected (by decide)] at hiff
    exact fun h => (hiff.mp h).2 ⟨48, rfl, [65], [66], by decide⟩

end Names

end C64Iec

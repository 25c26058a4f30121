import C64Iec.Server.FreshRequest
import C64Iec.Client.Request
import C64Iec.System.Encoding
import C64Iec.System.Session

set_option autoImplicit false

/-! # Requests and their echo

A request in TFTP form comes back whole: name, device, mode and options are in the session, and the
OACK repeats the option bytes. The requests `tftp_build_request` makes are of this form
(`requests_echoed`).
-/

namespace C64Iec

open Lib Server Server.Tftp

/-! ## The server -/

/-- What the server does with a request, in every session. -/
structure Echoed (name mode : Bytes) (options : List (Bytes × Bytes)) : Prop where
  /-- the parser gets it back, and the OACK of what it got repeats the option bytes, so that the
  handlers raise on it only where the device's `open` does -/
  parsed : ∀ (t : Server.Tftp) (opcode : Nat) (status : Status), ∃ p,
    t.parseRequest (serialize opcode name mode options) = .ok p ∧ Recovered name mode options p ∧
      (p.sendOack status).sent = t.sent ++ [(t.client, packetBytes TFTP_OPTACK 0
        (requestOptionBytes name mode (serialize opcode name mode options)))]
  rrq : ∀ t t' : Server.Tftp, t.packetRrq (serialize TFTP_RRQ name mode options) = .ok t' →
    Recovered name mode options t' ∧ (t'.status = .error ∨ options = [] ∨
      t'.status = .waitForAck ∧ t'.sent = t.sent ++ [(t.client, packetBytes TFTP_OPTACK 0
        (requestOptionBytes name mode (serialize TFTP_RRQ name mode options)))])
  wrq : ∀ t t' : Server.Tftp, t.packetWrq (serialize TFTP_WRQ name mode options) = .ok t' →
    Recovered name mode options t' ∧ (t'.status = .error ∨ options = [] ∨
      t'.status = .waitForData ∧ t'.sent = t.sent ++ [(t.client, packetBytes TFTP_OPTACK 0
        (requestOptionBytes name mode (serialize TFTP_WRQ name mode options)))])

theorem echoed {name mode : Bytes} {options : List (Bytes × Bytes)}
    (h : RequestOk name mode options) : Echoed name mode options where
  parsed := by
    intro t opcode status
    obtain ⟨p, hparse, hp, hclient, hsent⟩ := parseRequest_recovers h t opcode
    refine ⟨p, hparse, hp, ?_⟩
    rw [requestOptionBytes_serialize, ← hp.options, ← hclient, ← hsent]
    rfl
  rrq := fun _ _ => packetRrq_recovers h
  wrq := fun _ _ => packetWrq_recovers h

/-! ## The client -/

/-- A line feed is neither plain nor a hex digit. -/
theorem IsBody.ne_linefeed {body : Bytes} (h : IsBody body) : ∀ c ∈ body, c ≠ 10 := by
  have hplain : ∀ {c : Byte}, Client.isPlain c = true → c ≠ 10 := by
    rintro c hc rfl
    exact absurd hc (by decide)
  have hhex : ∀ {c : Byte}, isLowerHex c = true → c ≠ 10 := by
    rintro c hc rfl
    exact absurd hc (by decide)
  induction h with
  | nil => simp
  | plain hc _ ih =>
      intro x hx
      rcases List.mem_cons.mp hx with rfl | hx
      · exact hplain hc
      · exact ih x hx
  | escape hhi hlo _ ih =>
      intro x hx
      simp only [List.mem_cons] at hx
      rcases hx with rfl | rfl | rfl | hx
      · decide
      · exact hhex hhi
      · exact hhex hlo
      · exact ih x hx

theorem hexDigit_ne_linefeed : ∀ n < 16, Client.hexDigit n ≠ 10 := by decide

/-- The client's names: line feeds are escaped, and a name ends before its NUL. -/
theorem clientName_ok {filename : Bytes} (hlen : filename.length = Client.C64_FILE_LIMIT * 3 + 5)
    (deviceMode : Byte) (c64name : Bytes) :
    ∀ c ∈ untilNul (Client.createTftpFilename filename deviceMode c64name), c ≠ 0 ∧ c ≠ 10 := by
  intro c hc
  refine ⟨untilNul_ne_nul _ c hc, ?_⟩
  rw [Client.untilNul_createTftpFilename hlen] at hc
  simp only [List.mem_cons] at hc
  rcases hc with rfl | rfl | hc
  · exact hexDigit_ne_linefeed _ (Nat.mod_lt _ (by decide))
  · decide
  · exact (isBody_encode _).ne_linefeed c hc

/-- The request for a name: the first bytes of `tftpdata`, as many as `tftp_build_request` says. -/
def builtRequest (t : Client.Tftp) (name : Bytes) (opcode : Nat) : Bytes :=
  (Client.tftpBuildRequest t name opcode).2.tftpdata.take (Client.tftpBuildRequest t name opcode).1

theorem builtRequest_eq {t : Client.Tftp} {name : Bytes} {opcode : Nat}
    (h : (Client.tftpBuildRequest t name opcode).1 ≠ 0) :
    builtRequest t name opcode = serialize opcode name (ascii "octet") clientOptions := by
  have hlen : name.length ≤ Client.NAME_LIMIT := by
    by_contra hgt
    have hgt' : name.length > 16 + 1 + 3 := Nat.not_le.mp hgt
    rw [Client.tftpBuildRequest, if_pos hgt'] at h
    exact h rfl
  rw [builtRequest, Client.tftpBuildRequest_eq t opcode hlen, ← requestBytes_eq]
  exact take_blit_zero _ _

theorem clientRequest_ok {name : Bytes} (h : ∀ c ∈ name, c ≠ 0 ∧ c ≠ 10) :
    RequestOk name (ascii "octet") clientOptions where
  nameNul := fun c hc => (h c hc).1
  nameLine := fun c hc => (h c hc).2
  mode := by decide
  options := clientOptions_ok

/-! ## Both -/

/-- **Requests are parsed and echoed faithfully**, and what `tftp_build_request` makes of a string
it accepts is such a request, for any string without a line feed; the names of
`create_tftp_filename` have none. -/
theorem requests_echoed :
    (∀ (name mode : Bytes) (options : List (Bytes × Bytes)), RequestOk name mode options →
      Echoed name mode options) ∧
    (∀ (t : Client.Tftp) (name : Bytes) (opcode : Nat), (∀ c ∈ name, c ≠ 0) →
      (Client.tftpBuildRequest t name opcode).1 ≠ 0 →
      builtRequest t name opcode = serialize opcode name (ascii "octet") clientOptions ∧
      ((∀ c ∈ name, c ≠ 10) → RequestOk name (ascii "octet") clientOptions)) ∧
    (∀ (filename : Bytes) (deviceMode : Byte) (c64name : Bytes),
      filename.length = Client.C64_FILE_LIMIT * 3 + 5 →
      ∀ c ∈ untilNul (Client.createTftpFilename filename deviceMode c64name),
        c ≠ 0 ∧ c ≠ 10) := by
  refine ⟨fun name mode options h => echoed h, ?_, ?_⟩
  · intro t name opcode hnul haccepted
    exact ⟨builtRequest_eq haccepted, fun hline =>
      clientRequest_ok fun c hc => ⟨hnul c hc, hline c hc⟩⟩
  · intro filename deviceMode c64name hlen
    exact clientName_ok hlen deviceMode c64name

/-- Two options. -/
def twoOptions : List (Bytes × Bytes) :=
  [(ascii "blksize", ascii "256"), (ascii "tsize", ascii "0")]

theorem requestOk_twoOptions : RequestOk (ascii "8/A") (ascii "octet") twoOptions where
  nameNul := by decide
  nameLine := by decide
  mode := by decide
  options := ⟨by decide, by decide, by decide, by decide, by decide, by decide⟩

/-- A session is asked for a file it has, with two options, and repeats them. -/
theorem requests_echoed_twoOptions : ∃ t', (oneFileSession [1]).packetRrq
      (serialize TFTP_RRQ (ascii "8/A") (ascii "octet") twoOptions) = .ok t' ∧
    (t'.deviceNum, t'.filename) = (8, ascii "A") ∧ t'.options = twoOptions ∧
      t'.sent = [((oneFileSession [1]).client, packetBytes TFTP_OPTACK 0
        (ascii "blksize" ++ [0] ++ ascii "256" ++ [0] ++ ascii "tsize" ++ [0] ++ ascii "0" ++ [0]))] := by
  have hstatus : ((oneFileSession [1]).packetRrq
      (serialize TFTP_RRQ (ascii "8/A") (ascii "octet") twoOptions)).toOption.map
        (fun t => t.status) = some .waitForAck := by decide +kernel
  cases hrrq : (oneFileSession [1]).packetRrq
      (serialize TFTP_RRQ (ascii "8/A") (ascii "octet") twoOptions) with
  | error err =>
      rw [hrrq] at hstatus
      cases hstatus
  | ok t' =>
      rw [hrrq] at hstatus
      have hwaits : t'.status = .waitForAck := Option.some.inj hstatus
      obtain ⟨hrecovered, herror | hnone | ⟨-, hsent⟩⟩ :=
        (requests_echoed.1 _ _ _ requestOk_twoOptions).rrq _ _ hrrq
      · exact absurd (hwaits.symm.trans herror) (by decide)
      · exact absurd hnone (by decide)
      · have hbytes : requestOptionBytes (ascii "8/A") (ascii "octet")
            (serialize TFTP_RRQ (ascii "8/A") (ascii "octet") twoOptions)
              = ascii "blksize" ++ [0] ++ ascii "256" ++ [0] ++ ascii "tsize" ++ [0] ++ ascii "0"
                ++ [0] := by decide
        rw [hbytes] at hsent
        exact ⟨t', rfl, hrecovered.device, hrecovered.options, hsent⟩

end C64Iec

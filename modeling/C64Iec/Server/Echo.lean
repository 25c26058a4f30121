import C64Iec.Server.GetSession
import C64Iec.Server.Turn

set_option autoImplicit false

/-! # What a session knows of its request

The name, the device, the mode and the options of a well-formed request are in the session once
`packet_rrq` or `packet_wrq` has run (`packetRrq_recovers`, `packetWrq_recovers`), and the OACK
repeats its option bytes as they came.
-/

namespace C64Iec.Server

open Lib

/-! ## The device prefix -/

def deviceDigits : Bytes := ascii "89abcdef"

/-- The device and the name on it: a name that starts with a device digit and a slash is cut
behind the slash, any other is a name on device 8. -/
def deviceAndName (name : Bytes) : Nat × Bytes :=
  match name with
  | c :: s :: rest =>
      if c ∈ deviceDigits ∧ s = 47 then (deviceDigits.idxOf c + 8, rest) else (8, name)
  | _ => (8, name)

theorem mem_deviceDigits_iff (c : Byte) :
    c ∈ deviceDigits ↔ c = 56 ∨ c = 57 ∨ (97 ≤ c ∧ c ≤ 102) := by
  have hcases : c ∈ deviceDigits ↔
      c = 56 ∨ c = 57 ∨ c = 97 ∨ c = 98 ∨ c = 99 ∨ c = 100 ∨ c = 101 ∨ c = 102 := by
    simp [deviceDigits, ascii]
  rw [hcases]
  simp only [UInt8.le_iff_toNat_le, ← UInt8.toNat_inj]
  simp only [UInt8.reduceToNat]
  omega

theorem deviceNumber_of_mem {c : Byte} (h : c ∈ deviceDigits) :
    Tftp.deviceNumber c = deviceDigits.idxOf c + 8 := by
  have hall : ∀ c ∈ deviceDigits, Tftp.deviceNumber c = deviceDigits.idxOf c + 8 := by decide
  exact hall c h

/-- A later line cannot start with the prefix when there is none. -/
theorem devicePrefix_false : ∀ {s : Bytes}, (∀ c ∈ s, c ≠ 10) → Tftp.devicePrefix false s = none
  | [], _ => rfl
  | [_], _ => rfl
  | c :: d :: rest, h => by
      have hc : isLineFeed c = false := by simpa [isLineFeed] using h c (by simp)
      have ih := devicePrefix_false (s := d :: rest) fun x hx => h x (by simp [hx])
      simp [Tftp.devicePrefix, hc, ih]

theorem splitDevice_eq {name : Bytes} (h : ∀ c ∈ name, c ≠ 10) :
    splitDevice name = deviceAndName name := by
  rcases name with _ | ⟨c, _ | ⟨s, rest⟩⟩
  · rfl
  · rfl
  · have hline : rest.takeWhile (!isLineFeed ·) = rest := by
      rw [List.takeWhile_eq_self_iff]
      intro x hx
      simpa [isLineFeed] using h x (by simp [hx])
    have hc : isLineFeed c = false := by simpa [isLineFeed] using h c (by simp)
    have hnone := devicePrefix_false (s := s :: rest) fun x hx => h x (by simp [hx])
    simp only [splitDevice, deviceAndName, Tftp.devicePrefix, true_and, ← mem_deviceDigits_iff]
    by_cases hdigit : c ∈ deviceDigits ∧ s = 47
    · rw [if_pos hdigit, if_pos hdigit, ← deviceNumber_of_mem hdigit.1, hline]
    · rw [if_neg hdigit, if_neg hdigit, hc, hnone]

namespace Tftp

variable {t t' p : Tftp} {data : Bytes}

/-! ## The handlers keep it -/

/-- What a request has set is the same. -/
structure SameRequest (t t' : Tftp) : Prop where
  deviceNum : t'.deviceNum = t.deviceNum
  filename : t'.filename = t.filename
  mode : t'.mode = t.mode
  options : t'.options = t.options

theorem sendData_sameRequest {sendEmpty : Bool} (h : t.sendData sendEmpty = .ok t') :
    SameRequest t t' := by
  unfold sendData at h
  cases sendEmpty with
  | true =>
      cases h
      exact ⟨rfl, rfl, rfl, rfl⟩
  | false =>
      obtain ⟨⟨n, dev⟩, -, h⟩ := bind_eq_ok.mp h
      obtain ⟨⟨body, dev'⟩, -, h⟩ := bind_eq_ok.mp h
      cases body with
      | none =>
          cases h
          exact ⟨rfl, rfl, rfl, rfl⟩
      | some body =>
          dsimp only at h
          split at h
          · cases h
            exact ⟨rfl, rfl, rfl, rfl⟩
          · obtain ⟨eof, -, h⟩ := bind_eq_ok.mp h
            split at h <;> cases h <;> exact ⟨rfl, rfl, rfl, rfl⟩

/-- What `packet_rrq` does with a request that has been parsed: its answer is an error, the first
block or the OACK. -/
theorem packetRrq_cases (hparse : t.parseRequest data = .ok p) (h : t.packetRrq data = .ok t') :
    SameRequest p t' ∧ (t'.status = .error ∨ p.options = [] ∨ t'.status = .waitForAck ∧
      t'.lastPacket = p.lastPacket ∧ t'.sendEmpty = p.sendEmpty ∧
      t'.sent = p.sent ++ [(p.client, oackBytes p.options)]) := by
  obtain ⟨p', hparse', h⟩ := bind_eq_ok.mp h
  obtain rfl : p = p' := Except.ok.inj (hparse.symm.trans hparse')
  cases hdev : p.devices p.deviceNum with
  | none =>
      rw [hdev] at h
      cases h
      exact ⟨⟨rfl, rfl, rfl, rfl⟩, Or.inl rfl⟩
  | some dev =>
      rw [hdev] at h
      obtain ⟨⟨opened, dev'⟩, -, h⟩ := bind_eq_ok.mp h
      dsimp only at h
      split at h
      · cases h
        exact ⟨⟨rfl, rfl, rfl, rfl⟩, Or.inl rfl⟩
      · split at h
        · -- without options `send_data` answers at once
          rename_i hnil
          have hsame := sendData_sameRequest h
          exact ⟨⟨hsame.deviceNum, hsame.filename, hsame.mode, hsame.options⟩,
            Or.inr (Or.inl (List.isEmpty_iff.mp hnil))⟩
        · cases h
          exact ⟨⟨rfl, rfl, rfl, rfl⟩, Or.inr (Or.inr ⟨rfl, rfl, rfl, rfl⟩)⟩

/-- The same for `packet_wrq`. -/
theorem packetWrq_cases (hparse : t.parseRequest data = .ok p) (h : t.packetWrq data = .ok t') :
    SameRequest p t' ∧ (t'.status = .error ∨ p.options = [] ∨ t'.status = .waitForData ∧
      t'.sent = p.sent ++ [(p.client, oackBytes p.options)]) := by
  obtain ⟨p', hparse', h⟩ := bind_eq_ok.mp h
  obtain rfl : p = p' := Except.ok.inj (hparse.symm.trans hparse')
  cases hdev : p.devices p.deviceNum with
  | none =>
      rw [hdev] at h
      cases h
      exact ⟨⟨rfl, rfl, rfl, rfl⟩, Or.inl rfl⟩
  | some dev =>
      rw [hdev] at h
      dsimp only at h
      split at h
      · cases h
        exact ⟨⟨rfl, rfl, rfl, rfl⟩, Or.inl rfl⟩
      · obtain ⟨⟨opened, dev'⟩, -, h⟩ := bind_eq_ok.mp h
        dsimp only at h
        split at h
        · cases h
          exact ⟨⟨rfl, rfl, rfl, rfl⟩, Or.inl rfl⟩
        · split at h
          · rename_i hnil
            cases h
            exact ⟨⟨rfl, rfl, rfl, rfl⟩, Or.inr (Or.inl (List.isEmpty_iff.mp hnil))⟩
          · cases h
            exact ⟨⟨rfl, rfl, rfl, rfl⟩, Or.inr (Or.inr ⟨rfl, rfl⟩)⟩

/-! ## Well-formed requests -/

/-- A file name, a mode and options as a request may have them. -/
structure RequestOk (name mode : Bytes) (options : List (Bytes × Bytes)) : Prop where
  nameNul : ∀ c ∈ name, c ≠ 0
  nameLine : ∀ c ∈ name, c ≠ 10
  mode : isMode mode = true
  options : OptionsOk options

/-- The session knows the request. -/
structure Recovered (name mode : Bytes) (options : List (Bytes × Bytes)) (t : Tftp) : Prop where
  device : (t.deviceNum, t.filename) = deviceAndName name
  mode : t.mode = mode
  options : t.options = options

theorem Recovered.of_same {name mode : Bytes} {options : List (Bytes × Bytes)}
    (h : Recovered name mode options t) (hs : SameRequest t t') : Recovered name mode options t' where
  device := by rw [hs.deviceNum, hs.filename, h.device]
  mode := hs.mode.trans h.mode
  options := hs.options.trans h.options

/-- The option bytes of a request: what is behind its mode. -/
def requestOptionBytes (name mode data : Bytes) : Bytes :=
  data.drop (2 + (name.length + 1) + (mode.length + 1))

theorem requestOptionBytes_serialize (opcode : Nat) (name mode : Bytes)
    (options : List (Bytes × Bytes)) :
    requestOptionBytes name mode (serialize opcode name mode options) = optionBytes options := by
  refine List.drop_left' ?_
  simp only [List.length_append, beBytes_length, List.length_singleton]

section Recovers

variable {name mode : Bytes} {options : List (Bytes × Bytes)}

/-- `tftp_options` and what comes before it get the request back. -/
theorem parseRequest_recovers (h : RequestOk name mode options) (t : Tftp) (opcode : Nat) :
    ∃ p, t.parseRequest (serialize opcode name mode options) = .ok p ∧
      Recovered name mode options p ∧ p.client = t.client ∧ p.sent = t.sent := by
  have hparse := parseRequest_serialized t opcode h.nameNul h.mode h.options
  exact ⟨_, hparse, ⟨splitDevice_eq h.nameLine, rfl, rfl⟩, rfl, rfl⟩

/-- A read request that has been handled is in the session, and its OACK repeats the options. -/
theorem packetRrq_recovers (h : RequestOk name mode options)
    (hrrq : t.packetRrq (serialize TFTP_RRQ name mode options) = .ok t') :
    Recovered name mode options t' ∧ (t'.status = .error ∨ options = [] ∨
      t'.status = .waitForAck ∧ t'.sent = t.sent ++ [(t.client, packetBytes TFTP_OPTACK 0
        (requestOptionBytes name mode (serialize TFTP_RRQ name mode options)))]) := by
  obtain ⟨p, hparse, hp, hclient, hsent⟩ := parseRequest_recovers h t TFTP_RRQ
  obtain ⟨hsame, hanswer⟩ := packetRrq_cases hparse hrrq
  rw [requestOptionBytes_serialize, ← hp.options]
  refine ⟨hp.options ▸ hp.of_same hsame, ?_⟩
  rcases hanswer with herr | hnil | ⟨hstatus, -, -, hoack⟩
  · exact Or.inl herr
  · exact Or.inr (Or.inl hnil)
  · rw [hclient, hsent] at hoack
    exact Or.inr (Or.inr ⟨hstatus, hoack⟩)

/-- The same for a write request. -/
theorem packetWrq_recovers (h : RequestOk name mode options)
    (hwrq : t.packetWrq (serialize TFTP_WRQ name mode options) = .ok t') :
    Recovered name mode options t' ∧ (t'.status = .error ∨ options = [] ∨
      t'.status = .waitForData ∧ t'.sent = t.sent ++ [(t.client, packetBytes TFTP_OPTACK 0
        (requestOptionBytes name mode (serialize TFTP_WRQ name mode options)))]) := by
  obtain ⟨p, hparse, hp, hclient, hsent⟩ := parseRequest_recovers h t TFTP_WRQ
  obtain ⟨hsame, hanswer⟩ := packetWrq_cases hparse hwrq
  rw [requestOptionBytes_serialize, ← hp.options]
  refine ⟨hp.options ▸ hp.of_same hsame, ?_⟩
  rcases hanswer with herr | hnil | ⟨hstatus, hoack⟩
  · exact Or.inl herr
  · exact Or.inr (Or.inl hnil)
  · rw [hclient, hsent] at hoack
    exact Or.inr (Or.inr ⟨hstatus, hoack⟩)

end Recovers

end Tftp

end C64Iec.Server

import C64Iec.Server.Opens
import C64Iec.Server.OptionList
import C64Iec.Server.GetSession

set_option autoImplicit false

/-! # Which datagrams are handled

`Tftp.Handles` says, from the datagram and the state it meets, when `packet` raises nothing
(`Tftp.dispatch_ok_iff`). The handlers take the shape of a datagram and the state of the device for
granted.
-/

namespace C64Iec.Server

open Lib

namespace Tftp

/-! ## The datagrams that are handled -/

/-- `@device`, with its number, satisfies `P`. -/
def DeviceIs (t : Tftp) (P : Device → Prop) : Prop :=
  ∃ n dev, t.device = some n ∧ t.devices n = some dev ∧ P dev

/-- A request whose strings come in pairs, and whose device, if there is one, opens the name. A
device that cannot be written is not asked to. -/
def HandlesRequest (t : Tftp) (data : Bytes) (mode : Mode) : Prop :=
  (requestPairs data).isSome ∧
    ∀ dev, t.devices (splitDevice (requestName data)).1 = some dev →
      (mode = .write → dev.readonly = false) → dev.Opens (splitDevice (requestName data)).2 mode

/-- A numbered DATA packet while a file is open that can be written. -/
def HandlesData (t : Tftp) (data : Bytes) : Prop :=
  4 ≤ data.length ∧ t.DeviceIs fun dev => dev.writable = true

/-- After the last packet any ACK closes the file; before it, a numbered one is answered with what
is left of a file that can be read. -/
def HandlesAck (t : Tftp) (data : Bytes) : Prop :=
  if t.lastPacket then t.DeviceIs fun dev => dev.file ≠ .unset
  else 4 ≤ data.length ∧ (t.sendEmpty = true ∨ t.DeviceIs fun dev => dev.file.readable = true)

/-- The datagram has an opcode, and one that is known has what its handler takes for granted. -/
def Handles (t : Tftp) (data : Bytes) : Prop :=
  2 ≤ data.length ∧
    match be16 (data.getD 0 0) (data.getD 1 0) with
    | 1 => t.HandlesRequest data .read
    | 2 => t.HandlesRequest data .write
    | 3 => t.HandlesData data
    | 4 => t.HandlesAck data
    | 5 => 4 ≤ data.length
    | 6 => False
    | _ => True

/-! ## Numbers -/

theorem uint16_of_le {data : Bytes} {offset : Nat} (h : offset + 2 ≤ data.length) :
    uint16 data offset = .ok (some (be16 (data.getD offset 0) (data.getD (offset + 1) 0))) := by
  have hdrop : data.drop offset = data.getD offset 0 :: data.getD (offset + 1) 0
      :: data.drop (offset + 2) := by
    rw [List.drop_eq_getElem_cons (by omega), List.drop_eq_getElem_cons (by omega)]
    simp [List.getElem?_eq_getElem (show offset < data.length by omega),
      List.getElem?_eq_getElem (show offset + 1 < data.length by omega)]
  rw [uint16, if_neg (by omega), hdrop]

/-- There is no number where fewer than two bytes are left. -/
theorem uint16_of_lt {data : Bytes} {offset : Nat} (h : data.length < offset + 2) :
    uint16 data offset = if data.length < offset then .error .noMethodError else .ok none := by
  rw [uint16]
  by_cases hlen : data.length < offset
  · rw [if_pos hlen, if_pos hlen]
  · rw [if_neg hlen, if_neg hlen]
    have hshort : (data.drop offset).length < 2 := by
      rw [List.length_drop]
      omega
    generalize data.drop offset = rest at hshort
    rcases rest with - | ⟨a, - | ⟨b, rest⟩⟩
    · rfl
    · rfl
    · simp at hshort

end Tftp

/-! ## Calls on an open file -/

namespace Device

/-- Reading goes well on a file that can be read, and leaves it so. -/
theorem read_cases (dev : Device) (n : Nat) :
    dev.file.readable = true ∧
        (∃ data dev', dev.read n = .ok (data, dev') ∧ dev'.file.readable = true) ∨
      ¬dev.file.readable = true ∧ ∃ e, dev.read n = .error e := by
  have hread : ∀ h : Handle, h.readable = true ∧ (∃ data h', h.read n = .ok (data, h')) ∨
      ¬h.readable = true ∧ ∃ e, h.read n = .error e := by
    intro h
    unfold Handle.readable Handle.read
    rcases h.rest with - | ⟨- | ⟨c, r⟩⟩ <;> simp
  rcases hread dev.file with ⟨hr, data, h', hd⟩ | ⟨hr, e, hd⟩
  · refine Or.inl ⟨hr, data, ?_⟩
    have hr' := Handle.readable_of_read hd
    cases dev with
    | dir d =>
        have hd' : d.file.read n = .ok (data, h') := hd
        exact ⟨.dir { d with file := h' }, by simp [read, DeviceDir.read, hd', bind, Except.bind, pure,
          Except.pure], hr'⟩
    | d64 d =>
        have hd' : d.file.read n = .ok (data, h') := hd
        exact ⟨.d64 { d with file := h' }, by simp [read, DeviceD64.read, hd', bind, Except.bind, pure,
          Except.pure], hr'⟩
  · refine Or.inr ⟨hr, e, ?_⟩
    cases dev with
    | dir d =>
        have hd' : d.file.read n = .error e := hd
        simp [read, DeviceDir.read, hd', bind, Except.bind]
    | d64 d =>
        have hd' : d.file.read n = .error e := hd
        simp [read, DeviceD64.read, hd', bind, Except.bind]

theorem eof_of_readable {dev : Device} (h : dev.file.readable = true) : ∃ b, dev.eof = .ok b := by
  obtain ⟨r, hr⟩ := Option.isSome_iff_exists.mp h
  exact ⟨_, eof_of_rest dev hr⟩

theorem close_ok_iff (dev : Device) : (∃ dev', dev.close = .ok dev') ↔ dev.file ≠ .unset := by
  constructor
  · rintro ⟨dev', h⟩ hunset
    cases dev with
    | dir d =>
        have hunset' : d.file = .unset := hunset
        simp [close, DeviceDir.close, hunset', Handle.close, bind, Except.bind] at h
    | d64 d =>
        have hunset' : d.file = .unset := hunset
        simp [close, DeviceD64.close, hunset', Handle.close, bind, Except.bind] at h
  · intro h
    exact ⟨_, close_of_file dev h⟩

/-- Writing goes well on a file that can be written, and leaves it open. -/
theorem write_cases {dev : Device} (hlisted : dev.Listed) (data : Bytes) :
    dev.writable = true ∧ (∃ dev', dev.write (some data) = .ok dev' ∧ dev'.file ≠ .unset) ∨
      ¬dev.writable = true ∧ ∃ e, dev.write (some data) = .error e := by
  cases dev with
  | d64 d => exact Or.inr ⟨by simp [writable], .noMethodError, rfl⟩
  | dir d =>
      obtain ⟨dir, file⟩ := d
      cases file with
      | appending name =>
          obtain ⟨content, hlook⟩ := hlisted name rfl
          have hlook' : dir.lookup name = some (.file content) := hlook
          refine Or.inl ⟨rfl, .dir ⟨dir.write name (content ++ data), .appending name⟩, ?_, ?_⟩
          · simp [write, DeviceDir.write, hlook', bind, Except.bind, pure, Except.pure]
          · simp [Device.file]
      | stringIO s pos => exact Or.inl ⟨rfl, _, rfl, by simp [Device.file]⟩
      | unset => exact Or.inr ⟨by simp [writable, Handle.writable], _, rfl⟩
      | reading r => exact Or.inr ⟨by simp [writable, Handle.writable], _, rfl⟩
      | closed => exact Or.inr ⟨by simp [writable, Handle.writable], _, rfl⟩

end Device

namespace Tftp

variable {t : Tftp} {data : Bytes}

/-- A step that uses `@device` goes well when there is one and the rest goes well. -/
theorem bind_theDevice_ok_iff {f : Nat × Device → Except RubyError Tftp} :
    (∃ t', (t.theDevice >>= f) = .ok t') ↔
      ∃ n dev, t.device = some n ∧ t.devices n = some dev ∧ ∃ t', f (n, dev) = .ok t' := by
  constructor
  · rintro ⟨t', h⟩
    obtain ⟨⟨n, dev⟩, hthe, h⟩ := bind_eq_ok.mp h
    obtain ⟨hn, hdev⟩ := theDevice_eq_ok.mp hthe
    exact ⟨n, dev, hn, hdev, t', h⟩
  · rintro ⟨n, dev, hn, hdev, t', h⟩
    exact ⟨t', bind_eq_ok.mpr ⟨(n, dev), theDevice_eq_ok.mpr ⟨hn, hdev⟩, h⟩⟩

/-! ## The handlers -/

theorem sendData_ok_iff : (∃ t', t.sendData false = .ok t') ↔
    t.DeviceIs fun dev => dev.file.readable = true := by
  simp only [sendData, Bool.false_eq_true, if_false]
  refine bind_theDevice_ok_iff.trans ?_
  refine exists_congr fun n => exists_congr fun dev => and_congr_right fun _ =>
    and_congr_right fun _ => ?_
  rcases dev.read_cases BLKSIZE with ⟨hr, data, dev', hread, hr'⟩ | ⟨hr, e, hread⟩
  · obtain ⟨eof, heof⟩ := Device.eof_of_readable hr'
    simp only [hread, hr, iff_true, bind, Except.bind, pure, Except.pure]
    cases data with
    | none => exact ⟨_, rfl⟩
    | some data =>
        dsimp only
        split
        · exact ⟨_, rfl⟩
        · simp only [heof]
          split <;> exact ⟨_, rfl⟩
  · simp [hread, hr, bind, Except.bind]

theorem packetAck_ok_iff (h2 : 2 ≤ data.length) :
    (∃ t', t.packetAck data = .ok t') ↔ t.HandlesAck data := by
  -- without a number the ACK is no use, unless it is the last one
  have hnumber : ∃ blocknum, uint16 data BLKPOS = .ok blocknum ∧
      (4 ≤ data.length ↔ blocknum.isSome = true) := by
    by_cases h4 : 4 ≤ data.length
    · exact ⟨_, uint16_of_le h4, by simpa using h4⟩
    · have hshort : data.length < BLKPOS + 2 := Nat.lt_of_not_le h4
      have h2' : ¬data.length < BLKPOS := Nat.not_lt.mpr h2
      exact ⟨none, by rw [uint16_of_lt hshort, if_neg h2'], by simpa using h4⟩
  obtain ⟨blocknum, hblk, h4⟩ := hnumber
  rw [packetAck, hblk, ok_bind, HandlesAck]
  by_cases hlast : t.lastPacket = true
  · rw [if_pos hlast, if_pos hlast]
    refine bind_theDevice_ok_iff.trans ?_
    refine exists_congr fun n => exists_congr fun dev => and_congr_right fun _ =>
      and_congr_right fun _ => ?_
    refine Iff.trans ?_ (Device.close_ok_iff dev)
    dsimp only
    cases dev.close <;> simp [bind, Except.bind, pure, Except.pure]
  · rw [if_neg hlast, if_neg hlast, h4]
    cases blocknum with
    | none => simp
    | some b =>
        have hmore := sendData_ok_iff (t := { t with blocknum := b })
        by_cases hempty : t.sendEmpty = true
        · simp [hempty, sendData]
        · have hfalse : t.sendEmpty = false := Bool.not_eq_true _ ▸ hempty
          rw [← hfalse] at hmore
          rw [Option.isSome_some, and_iff_right rfl, or_iff_right hempty]
          exact hmore

theorem packetData_ok_iff (h2 : 2 ≤ data.length)
    (hlisted : ∀ n dev, t.devices n = some dev → dev.Listed) :
    (∃ t', t.packetData data = .ok t') ↔ t.HandlesData data := by
  by_cases h4 : 4 ≤ data.length
  · have hpayload : payload data = some (data.drop DATAPOS) := if_neg (Nat.not_lt.mpr h4)
    rw [packetData, uint16_of_le (show BLKPOS + 2 ≤ data.length from h4), ok_bind, HandlesData,
      and_iff_right h4, hpayload]
    refine bind_theDevice_ok_iff.trans ?_
    refine exists_congr fun n => exists_congr fun dev => and_congr_right fun _ =>
      and_congr_right fun hdev => ?_
    rcases Device.write_cases (hlisted n dev hdev) (data.drop DATAPOS) with
      ⟨hw, dev', hwrite, hopen⟩ | ⟨hw, e, hwrite⟩
    · obtain ⟨dev'', hclose⟩ := (Device.close_ok_iff dev').mpr hopen
      simp only [hwrite, hw, ok_bind, iff_true]
      split
      · exact ⟨_, by rw [hclose]; rfl⟩
      · exact ⟨_, rfl⟩
    · simp [hwrite, hw, bind, Except.bind]
  · have hpayload : payload data = none := if_pos (Nat.lt_of_not_le h4)
    have hshort : data.length < BLKPOS + 2 := Nat.lt_of_not_le h4
    refine iff_of_false ?_ fun h => h4 h.1
    rintro ⟨t', h⟩
    obtain ⟨blocknum, hblk, h⟩ := bind_eq_ok.mp h
    obtain ⟨⟨n, dev⟩, -, h⟩ := bind_eq_ok.mp h
    obtain ⟨dev', -, h⟩ := bind_eq_ok.mp h
    have h2' : ¬data.length < BLKPOS := Nat.not_lt.mpr h2
    rw [uint16_of_lt hshort, if_neg h2'] at hblk
    cases hblk
    cases h

theorem packetErr_ok_iff :
    (∃ t', t.packetErr data = .ok t') ↔ 4 ≤ data.length := by
  by_cases h4 : 4 ≤ data.length
  · have hmsg : ∃ msg, cstring data ERRMSGPOS = .ok msg := by
      have h4' : ¬data.length < ERRMSGPOS := Nat.not_lt.mpr h4
      rw [cstring, if_neg h4']
      split <;> exact ⟨_, rfl⟩
    obtain ⟨msg, hmsg⟩ := hmsg
    refine iff_of_true ?_ h4
    rw [packetErr, uint16_of_le (show BLKPOS + 2 ≤ data.length from h4), ok_bind, hmsg]
    exact ⟨_, rfl⟩
  · refine iff_of_false ?_ h4
    rintro ⟨t', h⟩
    obtain ⟨code, -, h⟩ := bind_eq_ok.mp h
    obtain ⟨msg, hmsg, -⟩ := bind_eq_ok.mp h
    have h4' : data.length < ERRMSGPOS := Nat.lt_of_not_le h4
    rw [cstring, if_pos h4'] at hmsg
    cases hmsg

/-- The part the two handlers of requests share: they parse the request and ask the device, if
there is one. `answer` is what they do with the parsed request. -/
theorem request_ok_iff {mode : Mode} {answer : Tftp → Except RubyError Tftp}
    (hnone : ∀ t₁ : Tftp, t₁.devices t₁.deviceNum = none → ∃ t', answer t₁ = .ok t')
    (hsome : ∀ (t₁ : Tftp) (dev : Device), t₁.devices t₁.deviceNum = some dev →
      t₁.device = some t₁.deviceNum → ((∃ t', answer t₁ = .ok t') ↔
        ((mode = .write → dev.readonly = false) → dev.Opens t₁.filename mode))) :
    (∃ t', (t.parseRequest data >>= answer) = .ok t') ↔ t.HandlesRequest data mode := by
  rcases parseRequest_cases t data with ⟨pairs, mode', hpairs, hparse⟩ | ⟨hnil, hparse⟩
  · have hpairs' : (requestPairs data).isSome := by rw [hpairs, Option.isSome_some]
    have hdevices : (parsed t data mode' pairs).devices (parsed t data mode' pairs).deviceNum
        = t.devices (splitDevice (requestName data)).1 := rfl
    rw [hparse, ok_bind, HandlesRequest, and_iff_right hpairs']
    cases hdev : t.devices (splitDevice (requestName data)).1 with
    | none =>
        refine iff_of_true (hnone _ (hdevices.trans hdev)) ?_
        intro dev hdev'
        cases hdev'
    | some dev =>
        have hdevice : (parsed t data mode' pairs).device
            = some (parsed t data mode' pairs).deviceNum := by
          simp only [parsed, hdev, Option.isSome_some, if_true]
        refine (hsome _ dev (hdevices.trans hdev) hdevice).trans ?_
        constructor
        · intro h dev' hdev' hwrite
          obtain rfl := Option.some.inj hdev'
          exact h hwrite
        · exact fun h => h dev rfl
  · refine iff_of_false ?_ ?_
    · rw [hparse, error_bind]
      simp
    · rw [HandlesRequest, hnil]
      simp

theorem packetRrq_ok_iff : (∃ t', t.packetRrq data = .ok t') ↔ t.HandlesRequest data .read := by
  unfold packetRrq
  refine request_ok_iff ?_ ?_
  · intro t₁ hdev
    rw [hdev]
    exact ⟨_, rfl⟩
  · intro t₁ dev hdev hdevice
    rw [hdev, forall_prop_of_true (by simp), ← Device.openFile_ok_iff]
    dsimp only
    rcases hopen : dev.openFile t₁.filename .read with e | ⟨opened, dev'⟩
    · simp [error_bind]
    · refine iff_of_true ?_ ⟨_, rfl⟩
      rw [ok_bind]
      cases opened with
      | false => exact ⟨_, rfl⟩
      | true =>
          dsimp only
          rw [if_neg (by simp)]
          -- without options the first block goes out at once, so the file is read
          split
          · exact sendData_ok_iff.mpr ⟨t₁.deviceNum, dev', hdevice, Function.update_self ..,
              Device.readable_of_openFile hopen⟩
          · exact ⟨_, rfl⟩

theorem packetWrq_ok_iff : (∃ t', t.packetWrq data = .ok t') ↔ t.HandlesRequest data .write := by
  unfold packetWrq
  refine request_ok_iff ?_ ?_
  · intro t₁ hdev
    rw [hdev]
    exact ⟨_, rfl⟩
  · intro t₁ dev hdev _
    rw [hdev]
    dsimp only
    -- a device that is read-only refuses before it looks at the name
    by_cases hreadonly : dev.readonly = true
    · rw [if_pos hreadonly]
      refine iff_of_true ⟨_, rfl⟩ fun hwrite => ?_
      cases hreadonly.symm.trans (hwrite rfl)
    · rw [if_neg hreadonly, forall_prop_of_true fun _ => by simpa using hreadonly,
        ← Device.openFile_ok_iff]
      rcases dev.openFile t₁.filename .write with e | ⟨opened, dev'⟩
      · simp [error_bind]
      · refine iff_of_true ?_ ⟨_, rfl⟩
        rw [ok_bind]
        dsimp only
        split
        · exact ⟨_, rfl⟩
        · split <;> exact ⟨_, rfl⟩

/-- **`packet` raises nothing** exactly on the datagrams that are handled. -/
theorem dispatch_ok_iff (hlisted : ∀ n dev, t.devices n = some dev → dev.Listed) :
    (∃ t', t.dispatch data = .ok t') ↔ t.Handles data := by
  by_cases h2 : 2 ≤ data.length
  · rw [dispatch, uint16_of_le (show 0 + 2 ≤ data.length by omega), ok_bind, Handles,
      and_iff_right h2]
    generalize be16 (data.getD 0 0) (data.getD (0 + 1) 0) = opcode
    rcases opcode with _ | _ | _ | _ | _ | _ | _ | opcode
    · simp
    · exact packetRrq_ok_iff
    · exact packetWrq_ok_iff
    · exact packetData_ok_iff h2 hlisted
    · exact packetAck_ok_iff h2
    · exact packetErr_ok_iff
    · simp
    · simp
  · refine iff_of_false ?_ fun h => h2 h.1
    have hshort : data.length < 0 + 2 := by omega
    rw [dispatch, uint16_of_lt hshort, if_neg (Nat.not_lt_zero _), ok_bind]
    simp

end Tftp

end C64Iec.Server

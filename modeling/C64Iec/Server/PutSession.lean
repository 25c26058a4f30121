import C64Iec.Server.Directory
import C64Iec.Server.GetSession

set_option autoImplicit false

/-! # A session that stores a file

`Putting k w t`: the session has answered a write request, the file it has created holds a header
and the data `w`, and the number it has received last is `k`. DATA of any number is appended
(`Putting.data`); the session ends when the whole packet is shorter than a block
(`Putting.data_last`).
-/

namespace C64Iec.Server

open Lib

namespace DeviceDir

variable {d d' : DeviceDir} {c64 nm w : Bytes} {P : Bytes → Prop} {old : Dir}

/-- The file `nm` of the directory holds the data `w` under the C64 name `c64`; otherwise the
directory lists what `old` does, or files of that name whose data satisfy `P`. -/
structure Stored (c64 : Bytes) (P : Bytes → Prop) (old : Dir) (nm w : Bytes) (d : DeviceDir) :
    Prop where
  lookup : d.dir.lookup nm = some (.file (pc64Header c64 ++ w))
  onlyAdds : d.dir.OnlyAdds c64 P old

/-- A file that has been created holds a header and no data. -/
theorem stored_of_openWrite (h : d.openWrite c64 = (.ok true, d'))
    (hold : d.dir.OnlyAdds c64 P old) (hnil : P []) :
    ∃ nm, d'.file = .appending nm ∧ d'.Stored c64 P old nm [] := by
  obtain ⟨-, local_, name, -, hcreate, hfile⟩ := openWrite_eq_ok h
  obtain ⟨-, -, hdir⟩ := createLocal_eq_ok hcreate
  have hwithout : (withoutOld d.dir local_).OnlyAdds c64 P old := by
    intro nm e hmem
    exact hold nm e (mem_withoutOld.mp hmem).2
  refine ⟨name, hfile, ?_, ?_⟩
  · rw [hdir, Dir.lookup_write_self, List.append_nil]
  · rw [hdir]
    exact hwithout.create name hnil

theorem write_of_stored (hfile : d.file = .appending nm) (hs : d.Stored c64 P old nm w)
    {data : Bytes} (hP : P (w ++ data)) :
    ∃ d', d.write (some data) = .ok d' ∧ d'.file = .appending nm ∧
      d'.Stored c64 P old nm (w ++ data) := by
  refine ⟨{ d with dir := d.dir.write nm (pc64Header c64 ++ w ++ data) }, ?_, hfile, ?_⟩
  · simp only [write, hfile, hs.lookup]
  · rw [List.append_assoc]
    exact ⟨Dir.lookup_write_self, hs.onlyAdds.write nm hP⟩

end DeviceDir

namespace Tftp

/-- The session receives a file on device `n`: `nm`, with the C64 name `c64`, holds `w` so far. -/
structure Putting (n : Nat) (c64 : Bytes) (P : Bytes → Prop) (old : Dir) (nm w : Bytes) (k : Nat)
    (t : Tftp) : Prop where
  status : t.status = .waitForData
  device : t.device = some n
  file : ∃ dd : DeviceDir, t.devices n = some (.dir dd) ∧ dd.file = .appending nm ∧
    dd.Stored c64 P old nm w
  blocknum : t.blocknum = k
  lastPacket : t.lastPacket = false
  sendEmpty : t.sendEmpty = false

variable {n k : Nat} {c64 nm w : Bytes} {P : Bytes → Prop} {old : Dir} {t : Tftp}

/-- The device of a session once it has stored the file and closed it. -/
def Closed (n : Nat) (c64 : Bytes) (P : Bytes → Prop) (old : Dir) (nm w : Bytes) (t : Tftp) :
    Prop :=
  ∃ dd : DeviceDir, t.devices n = some (.dir dd) ∧ dd.file = .closed ∧ dd.Stored c64 P old nm w

theorem Putting.weaken {Q : Bytes → Prop} (h : Putting n c64 P old nm w k t)
    (hPQ : ∀ w, P w → Q w) : Putting n c64 Q old nm w k t := by
  obtain ⟨dd, hdev, hfile, hstored⟩ := h.file
  refine { h with file := ⟨dd, hdev, hfile, hstored.lookup, fun nm e hmem => ?_⟩ }
  rcases hstored.onlyAdds nm e hmem with hold | ⟨w, hw, he⟩
  · exact Or.inl hold
  · exact Or.inr ⟨w, hPQ w hw, he⟩

/-! ### DATA -/

theorem dispatch_data (t : Tftp) (number : Nat) (body : Bytes) :
    t.dispatch (packetBytes TFTP_DATA number body) =
      ({ t with status := .ready } : Tftp).packetData (packetBytes TFTP_DATA number body) := by
  simp [dispatch, uint16_opcode, TFTP_DATA, bind, Except.bind]

theorem payload_packetBytes (opcode number : Nat) (body : Bytes) :
    payload (packetBytes opcode number body) = some body := by
  simp [payload, DATAPOS, packetBytes, beBytes]

/-- What `packet_data` does when the device takes the data. -/
theorem packetData_eq {dev dev' : Device} {number : Nat} {body : Bytes} (hdev : t.device = some n)
    (hn : t.devices n = some dev) (hwrite : dev.write (some body) = .ok dev') :
    t.packetData (packetBytes TFTP_DATA number body) =
      if body.length < 252 then do
        let dev ← dev'.close
        .ok { (sendAck { t.setDevice n dev' with blocknum := number % 65536 }).setDevice n dev with
          status := .finished, blocknum := 0 }
      else .ok (sendAck { t.setDevice n dev' with blocknum := number % 65536 }) := by
  have hthe : t.theDevice = .ok (n, dev) := by simp [theDevice, hdev, hn]
  have hsize : (packetBytes TFTP_DATA number body).length < BLKSIZE ↔ body.length < 252 := by
    rw [packetBytes_length, BLKSIZE]
    omega
  simp only [packetData, uint16_number, BLKPOS, bind, Except.bind, hthe, payload_packetBytes, hwrite,
    hsize]
  rfl

/-- **DATA is appended**, whatever its number, and acknowledged. -/
theorem Putting.data (h : Putting n c64 P old nm w k t) (number : Nat) {body : Bytes}
    (hlen : 252 ≤ body.length) (hP : P (w ++ body)) :
    ∃ t', t.dispatch (packetBytes TFTP_DATA number body) = .ok t' ∧
      Putting n c64 P old nm (w ++ body) (number % 65536) t' ∧ t'.client = t.client ∧
      t'.sent = t.sent ++ [(t.client, packetBytes TFTP_ACK (number % 65536) [])] := by
  obtain ⟨dd, hdev, hfile, hstored⟩ := h.file
  obtain ⟨dd', hwrite, hfile', hstored'⟩ := DeviceDir.write_of_stored hfile hstored hP
  have hw : (Device.dir dd).write (some body) = .ok (.dir dd') := by
    simp [Device.write, hwrite, bind, Except.bind, pure, Except.pure]
  rw [dispatch_data, packetData_eq (t := { t with status := .ready }) h.device hdev hw,
    if_neg (Nat.not_lt.mpr hlen)]
  refine ⟨_, rfl, ?_, rfl, rfl⟩
  exact {
    status := rfl
    device := h.device
    file := ⟨dd', by simp [sendAck, send], hfile', hstored'⟩
    blocknum := rfl
    lastPacket := h.lastPacket
    sendEmpty := h.sendEmpty }

/-- A packet shorter than 256 bytes is taken for the last one. -/
theorem Putting.data_last (h : Putting n c64 P old nm w k t) (number : Nat) {body : Bytes}
    (hlen : body.length < 252) (hP : P (w ++ body)) :
    ∃ t', t.dispatch (packetBytes TFTP_DATA number body) = .ok t' ∧ t'.status = .finished ∧
      Closed n c64 P old nm (w ++ body) t' ∧
      t'.sent = t.sent ++ [(t.client, packetBytes TFTP_ACK (number % 65536) [])] := by
  obtain ⟨dd, hdev, hfile, hstored⟩ := h.file
  obtain ⟨dd', hwrite, hfile', hstored'⟩ := DeviceDir.write_of_stored hfile hstored hP
  have hw : (Device.dir dd).write (some body) = .ok (.dir dd') := by
    simp [Device.write, hwrite, bind, Except.bind, pure, Except.pure]
  have hclose : (Device.dir dd').close = .ok (.dir { dd' with file := .closed }) := by
    simp [Device.close, DeviceDir.close, hfile', Handle.close, bind, Except.bind, pure, Except.pure]
  rw [dispatch_data, packetData_eq (t := { t with status := .ready }) h.device hdev hw,
    if_pos hlen, hclose]
  exact ⟨_, rfl, rfl, ⟨{ dd' with file := .closed }, by simp, rfl,
    ⟨hstored'.lookup, hstored'.onlyAdds⟩⟩, rfl⟩

theorem sendData_of_read_error {dev : Device} {err : RubyError} (hdev : t.device = some n)
    (hn : t.devices n = some dev) (hread : dev.read BLKSIZE = .error err) :
    t.sendData false = .error err := by
  have hthe : theDevice { t with blocknum := t.blocknum + 1 } = .ok (n, dev) := by
    simp [theDevice, hdev, hn]
  simp [sendData, hthe, hread, bind, Except.bind]

/-- An acknowledgement has nothing to send: the file is not open for reading. -/
theorem Putting.ack (h : Putting n c64 P old nm w k t) (b : Nat) :
    t.dispatch (packetBytes TFTP_ACK b []) = .error .ioError := by
  obtain ⟨dd, hdev, hfile, -⟩ := h.file
  have hread : (Device.dir dd).read BLKSIZE = .error .ioError := by
    simp [Device.read, DeviceDir.read, hfile, Handle.read, Handle.rest, Handle.failure, bind,
      Except.bind]
  rw [dispatch_ack, packetAck_more (t := { t with status := .ready }) h.lastPacket]
  have hflag : ({ t with status := .ready } : Tftp).sendEmpty = false := h.sendEmpty
  rw [hflag]
  exact sendData_of_read_error (t := { t with status := .ready, blocknum := b % 65536 }) h.device
    hdev hread

/-! ### The request -/

/-- The devices take a file under the requested name, on device `n`, the directory `dd`. -/
structure Takes (devices : Nat → Option Device) (name : Bytes) (n : Nat) (dd : DeviceDir) :
    Prop where
  number : (splitDevice name).1 = n
  device : devices n = some (.dir dd)
  opened : ∃ dd', dd.openFile (splitDevice name).2 .write = (.ok true, dd')

/-- What `packet_wrq` does with a request it has parsed, on a directory. -/
theorem packetWrq_of_parse {data : Bytes} {t' : Tftp} {dd : DeviceDir}
    (hparse : t.parseRequest data = .ok t') (hdev : t'.devices t'.deviceNum = some (.dir dd))
    (hne : t'.options ≠ []) :
    t.packetWrq data =
      match dd.openWrite (decode t'.filename) with
      | (.error err, _) => .error err
      | (.ok true, dd') => .ok ((t'.setDevice t'.deviceNum (.dir dd')).sendOack .waitForData)
      | (.ok false, dd') => .ok ((t'.setDevice t'.deviceNum (.dir dd')).sendErr 1
          (ascii "File not found")) := by
  have hoptions : ∀ dev, (t'.setDevice t'.deviceNum dev).options.isEmpty = false := by
    intro dev
    rw [List.isEmpty_eq_false_iff]
    exact hne
  simp only [packetWrq, hparse, bind, Except.bind, hdev, Device.readonly, Bool.false_eq_true,
    if_false, Device.openFile, DeviceDir.openFile]
  rcases hopen : dd.openWrite (decode t'.filename) with ⟨r, dd'⟩
  rcases r with err | opened
  · rfl
  · cases opened
    · rfl
    · simp only [hoptions]
      rfl

/-- What becomes of a write request on a directory, in any session: the file is created, empty,
and the answer is an OACK. -/
theorem dispatch_wrq {name mode : Bytes} {options : List (Bytes × Bytes)} {dd : DeviceDir}
    {t' : Tftp} (hnumber : (splitDevice name).1 = n) (hdev : t.devices n = some (.dir dd))
    (hold : dd.dir.OnlyAdds (decode (splitDevice name).2) P old) (hnil : P [])
    (hname : ∀ c ∈ name, c ≠ 0) (hmode : isMode mode = true) (hok : OptionsOk options)
    (hne : options ≠ []) (hdisp : t.dispatch (serialize TFTP_WRQ name mode options) = .ok t')
    (hlast : t.lastPacket = false) (hempty : t.sendEmpty = false) :
    ∃ nm, Putting n (decode (splitDevice name).2) P old nm [] t.blocknum t' ∧ t'.client = t.client ∧
      t'.sent = t.sent ++ [(t.client, oackBytes options)] := by
  have hop : t.dispatch (serialize TFTP_WRQ name mode options)
      = ({ t with status := .ready } : Tftp).packetWrq (serialize TFTP_WRQ name mode options) := by
    simp [dispatch, uint16_serialize, TFTP_WRQ, bind, Except.bind]
  have hparse := parseRequest_serialized { t with status := .ready } TFTP_WRQ hname hmode hok
  simp only [hnumber, hdev, Option.isSome_some, if_true] at hparse
  rw [hop, packetWrq_of_parse hparse hdev hne] at hdisp
  rcases hopen : dd.openWrite (decode (splitDevice name).2) with ⟨r, dd'⟩
  rw [hopen] at hdisp
  rcases r with err | opened
  · cases hdisp
  · obtain rfl := (DeviceDir.openWrite_eq_ok hopen).1
    obtain ⟨nm, hfile, hstored⟩ := DeviceDir.stored_of_openWrite hopen hold hnil
    obtain rfl := Except.ok.inj hdisp
    refine ⟨nm, ?_, rfl, rfl⟩
    exact {
      status := rfl
      device := rfl
      file := ⟨dd', by simp [sendOack, send], hfile, hstored⟩
      blocknum := rfl
      lastPacket := hlast
      sendEmpty := hempty }

/-- The first write request of a session. -/
theorem Putting.start {name mode : Bytes} {options : List (Bytes × Bytes)}
    {devices : Nat → Option Device} (sent : List (Addr × Bytes)) (sender : Addr)
    {dd : DeviceDir} (hs : Takes devices name n dd) (hnil : P []) (hname : ∀ c ∈ name, c ≠ 0)
    (hmode : isMode mode = true) (hok : OptionsOk options) (hne : options ≠ []) :
    ∃ t' nm, (Tftp.new devices sent sender).dispatch (serialize TFTP_WRQ name mode options)
        = .ok t' ∧ Putting n (decode (splitDevice name).2) P dd.dir nm [] 0 t' ∧ t'.client = sender ∧
      t'.sent = sent ++ [(sender, oackBytes options)] := by
  obtain ⟨dd', hopen⟩ := hs.opened
  have hop : (Tftp.new devices sent sender).dispatch (serialize TFTP_WRQ name mode options)
      = ({ Tftp.new devices sent sender with status := .ready } : Tftp).packetWrq
        (serialize TFTP_WRQ name mode options) := by
    simp [dispatch, uint16_serialize, TFTP_WRQ, bind, Except.bind]
  have hparse := parseRequest_serialized { Tftp.new devices sent sender with status := .ready }
    TFTP_WRQ hname hmode hok
  have hdev' : (Tftp.new devices sent sender).devices n = some (.dir dd) := hs.device
  simp only [hs.number, hdev', Option.isSome_some, if_true] at hparse
  have hopen' : dd.openWrite (decode (splitDevice name).2) = (.ok true, dd') := hopen
  have hdisp := hop.trans (packetWrq_of_parse hparse hdev' hne)
  simp only [hopen'] at hdisp
  obtain ⟨nm, hput, hrest⟩ :=
    dispatch_wrq hs.number hdev' (Dir.onlyAdds_refl _ P dd.dir) hnil hname hmode hok hne hdisp rfl
      rfl
  exact ⟨_, nm, hdisp, hput, hrest⟩

end Tftp

end C64Iec.Server

import C64Iec.Server.Request
import C64Iec.Lib.Blocks

set_option autoImplicit false

/-! # A session that serves a file

`Serving d k t`: the session has answered a read request for a file of content `d`, has sent
the first `k` blocks of it and waits for an acknowledgement. An acknowledgement of block `k`
is answered with the next block (`Serving.ack_next`) or, once the short block is out, ends the
session (`packetAck_lastPacket`).
-/

namespace C64Iec.Server

open Lib

/-! ## Reading a device -/

theorem Handle.read_of_rest {h : Handle} {r : Bytes} (hr : h.rest = some r) (n : Nat) :
    ∃ h', h.read n = .ok (if r = [] then none else some (r.take n), h') ∧
      h'.rest = some (r.drop n) := by
  cases r with
  | nil => exact ⟨h, by simp [Handle.read, hr], by simpa using hr⟩
  | cons c r =>
      refine ⟨h.advance n, by simp [Handle.read, hr], ?_⟩
      cases h with
      | reading rest =>
          have hrest : rest = c :: r := by simpa [Handle.rest] using hr
          simp [Handle.advance, Handle.rest, hrest]
      | stringIO data pos =>
          have hrest : data.drop pos = c :: r := by simpa [Handle.rest] using hr
          simp only [Handle.advance, Handle.rest, ← hrest, List.drop_drop, Option.some.injEq]
          by_cases hle : data.length ≤ pos + n
          · rw [Nat.min_eq_left hle, List.drop_length, List.drop_of_length_le hle]
          · rw [Nat.min_eq_right (by omega)]
      | unset => simp [Handle.rest] at hr
      | appending name => simp [Handle.rest] at hr
      | closed => simp [Handle.rest] at hr

namespace Device

/-- The device with another `@file`. -/
def withFile (h : Handle) : Device → Device
  | dir d => dir { d with file := h }
  | d64 d => d64 { d with file := h }

@[simp] theorem file_withFile (h : Handle) (d : Device) : (d.withFile h).file = h := by
  cases d <;> rfl

@[simp] theorem withFile_withFile (h h' : Handle) (d : Device) :
    (d.withFile h).withFile h' = d.withFile h' := by
  cases d <;> rfl

@[simp] theorem withFile_file (d : Device) : d.withFile d.file = d := by
  cases d <;> rfl

theorem read_of_rest {dev : Device} {r : Bytes} (hr : dev.file.rest = some r) (n : Nat) :
    ∃ h, dev.read n = .ok (if r = [] then none else some (r.take n), dev.withFile h) ∧
      h.rest = some (r.drop n) := by
  obtain ⟨h, hread, hrest⟩ := Handle.read_of_rest hr n
  refine ⟨h, ?_, hrest⟩
  cases dev with
  | dir d =>
      have hread' : d.file.read n = .ok (if r = [] then none else some (r.take n), h) := hread
      simp [Device.read, DeviceDir.read, hread', bind, Except.bind, pure, Except.pure, withFile]
  | d64 d =>
      have hread' : d.file.read n = .ok (if r = [] then none else some (r.take n), h) := hread
      simp [Device.read, DeviceD64.read, hread', bind, Except.bind, pure, Except.pure, withFile]

theorem eof_of_rest (dev : Device) {r : Bytes} (hr : dev.file.rest = some r) :
    dev.eof = .ok r.isEmpty := by
  cases dev with
  | dir d =>
      have hr' : d.file.rest = some r := hr
      simp [Device.eof, DeviceDir.eof, Handle.eof, hr']
  | d64 d =>
      have hr' : d.file.rest = some r := hr
      simp [Device.eof, DeviceD64.eof, Handle.eof, hr']

theorem close_of_file (dev : Device) (h : dev.file ≠ .unset) :
    dev.close = .ok (dev.withFile .closed) := by
  cases dev with
  | dir d =>
      have h' : d.file ≠ .unset := h
      have hclose : d.file.close = .ok .closed := by
        cases hd : d.file with
        | unset => exact absurd hd h'
        | _ => rfl
      simp [Device.close, DeviceDir.close, hclose, bind, Except.bind, pure, Except.pure, withFile]
  | d64 d =>
      have h' : d.file ≠ .unset := h
      have hclose : d.file.close = .ok .closed := by
        cases hd : d.file with
        | unset => exact absurd hd h'
        | _ => rfl
      simp [Device.close, DeviceD64.close, hclose, bind, Except.bind, pure, Except.pure, withFile]

theorem file_ne_unset_of_rest {dev : Device} {r : Bytes} (hr : dev.file.rest = some r) :
    dev.file ≠ .unset := by
  intro h
  rw [h] at hr
  cases hr

/-- What opening a file to read gives does not depend on what is open. -/
theorem openRead_dir {d d' : DeviceDir} {c64 : Bytes} (h : Handle)
    (hopen : d.openRead c64 = .ok (true, d')) :
    ({ d' with file := h } : DeviceDir).openRead c64 = .ok (true, d') := by
  unfold DeviceDir.openRead at hopen ⊢
  split at hopen
  · rename_i hdollar
    rw [if_pos hdollar]
    cases hdir : directory d.dir with
    | error e => rw [hdir] at hopen; cases hopen
    | ok listing =>
        rw [hdir] at hopen
        cases hopen
        simp [hdir, bind, Except.bind, pure, Except.pure]
  · rename_i hdollar
    rw [if_neg hdollar]
    split at hopen
    · cases hopen
    · cases hopen
    · rename_i name hfind
      split at hopen
      · rename_i content hlook
        cases hopen
        simp [hfind, hlook]
      · cases hopen

theorem openFile_d64 {d d' : DeviceD64} {name : Bytes} (h : Handle)
    (hopen : d.openFile name = .ok (true, d')) :
    ({ d' with file := h } : DeviceD64).openFile name = .ok (true, d') := by
  unfold DeviceD64.openFile at hopen ⊢
  simp only [bind, Except.bind, pure, Except.pure] at hopen ⊢
  split at hopen
  · rename_i hdollar
    rw [if_pos hdollar]
    cases hdir : DeviceD64.directory d.image with
    | error e => rw [hdir] at hopen; cases hopen
    | ok listing =>
        rw [hdir] at hopen
        cases hopen
        simp [hdir]
  · rename_i hdollar
    rw [if_neg hdollar]
    repeat' split at hopen
    all_goals cases hopen
    simp_all

theorem openFile_withFile {dev dev' : Device} {name : Bytes} (h : Handle)
    (hopen : dev.openFile name .read = .ok (true, dev')) :
    (dev'.withFile h).openFile name .read = .ok (true, dev') := by
  cases dev with
  | dir d =>
      simp only [openFile, DeviceDir.openFile] at hopen
      cases hread : d.openRead (decode name) with
      | error e => rw [hread] at hopen; cases hopen
      | ok r =>
          obtain ⟨opened, d'⟩ := r
          rw [hread] at hopen
          cases hopen
          simp [withFile, openFile, DeviceDir.openFile, openRead_dir h hread]
  | d64 d =>
      simp only [openFile, bind, Except.bind, pure, Except.pure] at hopen
      cases hread : d.openFile name with
      | error e => rw [hread] at hopen; cases hopen
      | ok r =>
          obtain ⟨opened, d'⟩ := r
          rw [hread] at hopen
          cases hopen
          simp [withFile, openFile, openFile_d64 h hread, bind, Except.bind, pure, Except.pure]

end Device

/-! ## Packets -/

theorem uint16_opcode (opcode number : Nat) (body : Bytes) :
    uint16 (packetBytes opcode number body) 0 = .ok (some (opcode % 65536)) := by
  simp [uint16, packetBytes, beBytes]

theorem uint16_number (opcode number : Nat) (body : Bytes) :
    uint16 (packetBytes opcode number body) 2 = .ok (some (number % 65536)) := by
  simp [uint16, packetBytes, beBytes]

namespace Tftp

@[simp] theorem sent_setDevice (t : Tftp) (n : Nat) (d : Device) :
    (t.setDevice n d).sent = t.sent := rfl

@[simp] theorem devices_setDevice (t : Tftp) (n : Nat) (d : Device) :
    (t.setDevice n d).devices n = some d := by
  simp [setDevice]

/-- The session has sent the first `k` blocks of `d`, which it reads from device `n`; `src` is
that device as the request left it. The file stands behind those blocks, unless nothing is to be
read from it any more. -/
structure Serving (n : Nat) (src : Device) (d : Bytes) (k : Nat) (t : Tftp) : Prop where
  status : t.status = .waitForAck
  device : t.device = some n
  file : ∃ h : Handle, t.devices n = some (src.withFile h) ∧ h ≠ .unset ∧
    (t.lastPacket = false → t.sendEmpty = false → h.rest = some (d.drop (256 * k)))
  blocknum : t.blocknum = k
  lastPacket : t.lastPacket = decide (k = d.length / 256 + 1)
  sendEmpty : t.sendEmpty = decide (k ≠ 0 ∧ 256 * k = d.length)
  le : k ≤ d.length / 256 + 1

variable {n : Nat} {src : Device} {d : Bytes} {k : Nat} {t : Tftp}

/-- `send_data` with what is left to read: a piece of it goes out. -/
theorem sendData_of_rest {dev : Device} {r : Bytes} (hdev : t.device = some n)
    (hn : t.devices n = some dev) (hr : dev.file.rest = some r) :
    ∃ h : Handle, h.rest = some (r.drop 256) ∧ t.sendData false = .ok
      { (({ t with blocknum := t.blocknum + 1 }).setDevice n (dev.withFile h)).send
          (packetBytes TFTP_DATA (t.blocknum + 1) (r.take 256)) with
        lastPacket := decide (r.length < 256)
        sendEmpty := decide (r.length = 256)
        status := .waitForAck } := by
  obtain ⟨h, hread, hrest⟩ := Device.read_of_rest hr 256
  have hthe : theDevice { t with blocknum := t.blocknum + 1 } = .ok (n, dev) := by
    simp [theDevice, hdev, hn]
  have heof := (dev.withFile h).eof_of_rest (by rw [Device.file_withFile]; exact hrest)
  refine ⟨h, hrest, ?_⟩
  -- at the end of the file `read` gives `nil`, and an empty packet is sent
  by_cases hnil : r = []
  · rw [if_pos hnil] at hread
    simp [sendData, hthe, BLKSIZE, hread, bind, Except.bind, pure, Except.pure, hnil]
  · rw [if_neg hnil] at hread
    simp only [sendData, hthe, BLKSIZE, hread, bind, Except.bind, pure, Except.pure, heof,
      Option.getD_some, Bool.false_eq_true, if_false, List.length_take]
    by_cases hlt : r.length < 256
    · have hne : r.length ≠ 256 := Nat.ne_of_lt hlt
      simp [hlt, hne, Nat.min_eq_right (Nat.le_of_lt hlt)]
    · have hmin : min 256 r.length = 256 := Nat.min_eq_left (Nat.not_lt.mp hlt)
      by_cases h256 : r.length = 256
      · have hdrop : r.drop 256 = [] := List.drop_of_length_le (Nat.le_of_eq h256)
        simp [h256, hdrop]
      · have hdrop : (r.drop 256).isEmpty = false := by
          rw [List.isEmpty_eq_false_iff]
          intro hnil'
          have := congrArg List.length hnil'
          rw [List.length_drop, List.length_nil] at this
          omega
        simp [hlt, hmin, h256, hdrop]

/-- `send_data` from a session that has sent `k` blocks, not yet the short one. -/
theorem Serving.sendData (h : Serving n src d k t) (hk : k ≤ d.length / 256) (status : Status) :
    ∃ t', Tftp.sendData { t with status := status } t.sendEmpty = .ok t' ∧
      Serving n src d (k + 1) t' ∧ t'.client = t.client ∧
      t'.sent = t.sent ++ [(t.client, packetBytes TFTP_DATA (k + 1) (block 256 d k))] := by
  obtain ⟨fh, hdev, hset, hrest⟩ := h.file
  have hle : 256 * k ≤ d.length :=
    Nat.le_trans (Nat.mul_le_mul_left 256 hk) (Nat.mul_div_le d.length 256)
  by_cases hse : k ≠ 0 ∧ 256 * k = d.length
  · -- the file ends with the block sent last: an empty block follows
    have hflag : t.sendEmpty = true := by rw [h.sendEmpty]; simpa using hse
    have hblock : block 256 d k = [] := by
      rw [block, List.drop_of_length_le (Nat.le_of_eq hse.2.symm)]
      rfl
    refine ⟨{ ({ t with status := status, blocknum := t.blocknum + 1 } : Tftp).send
      (packetBytes TFTP_DATA (t.blocknum + 1) []) with
        lastPacket := true, sendEmpty := false, status := .waitForAck }, ?_, ?_, rfl, ?_⟩
    · rw [hflag]
      rfl
    · exact {
        status := rfl
        device := h.device
        file := ⟨fh, hdev, hset, fun hlast => absurd hlast (by simp)⟩
        blocknum := by simp [send, h.blocknum]
        lastPacket := by
          have : k = d.length / 256 := by omega
          simp [this]
        sendEmpty := by
          have : ¬256 * (k + 1) = d.length := by omega
          simp [this]
        le := by omega }
    · simp [send, h.blocknum, hblock]
  · have hflag : t.sendEmpty = false := by rw [h.sendEmpty]; simpa using hse
    have hmore : t.lastPacket = false := by
      rw [h.lastPacket]
      simpa using Nat.ne_of_lt (Nat.lt_succ_of_le hk)
    obtain ⟨fh', hrest', hsend⟩ := sendData_of_rest (t := { t with status := status }) h.device hdev
      (by rw [Device.file_withFile]; exact hrest hmore hflag)
    rw [Device.withFile_withFile] at hsend
    rw [drop_mul_succ] at hrest'
    have hlast : (d.drop (256 * k)).length < 256 ↔ k + 1 = d.length / 256 + 1 := by
      rw [List.length_drop]
      omega
    have hempty : (d.drop (256 * k)).length = 256 ↔ 256 * (k + 1) = d.length := by
      rw [List.length_drop]
      omega
    rw [hflag]
    refine ⟨_, hsend, ?_, rfl, ?_⟩
    · exact {
        status := rfl
        device := h.device
        file := by
          refine ⟨fh', by simp [send], ?_, fun _ _ => hrest'⟩
          rintro rfl
          cases hrest'
        blocknum := by simp [send, setDevice, h.blocknum]
        lastPacket := by simpa using hlast
        sendEmpty := by simpa using hempty
        le := by omega }
    · have hdata : (d.drop (256 * k)).take 256 = block 256 d k := rfl
      simp [send, setDevice, h.blocknum, hdata]

/-! ### Acknowledgements -/

/-- The loop of `packet` on an acknowledgement. -/
theorem dispatch_ack (t : Tftp) (b : Nat) (body : Bytes) :
    t.dispatch (packetBytes TFTP_ACK b body) =
      ({ t with status := .ready } : Tftp).packetAck (packetBytes TFTP_ACK b body) := by
  simp [dispatch, uint16_opcode, TFTP_ACK, bind, Except.bind]

theorem packetAck_more (hmore : t.lastPacket = false) (b : Nat) (body : Bytes) :
    t.packetAck (packetBytes TFTP_ACK b body)
      = Tftp.sendData { t with blocknum := b % 65536 } t.sendEmpty := by
  have hne : ¬t.lastPacket = true := by simp [hmore]
  simp only [packetAck, uint16_number, BLKPOS, bind, Except.bind]
  rw [if_neg hne]

theorem packetAck_last {dev dev' : Device} (hlast : t.lastPacket = true)
    (hdev : t.device = some n) (hn : t.devices n = some dev) (hclose : dev.close = .ok dev')
    (b : Nat) (body : Bytes) :
    t.packetAck (packetBytes TFTP_ACK b body)
      = .ok { t.setDevice n dev' with blocknum := 0, status := .finished } := by
  have hthe : t.theDevice = .ok (n, dev) := by simp [theDevice, hdev, hn]
  simp only [packetAck, uint16_number, BLKPOS, bind, Except.bind]
  rw [if_pos hlast, hthe]
  simp only [hclose]
  rfl

/-- **The acknowledgement of the block sent last** is answered with the next block. -/
theorem Serving.ack (h : Serving n src d k t) (hk : k ≤ d.length / 256) (hlt : k < 65536)
    (body : Bytes) :
    ∃ t', t.dispatch (packetBytes TFTP_ACK k body) = .ok t' ∧ Serving n src d (k + 1) t' ∧
      t'.client = t.client ∧
      t'.sent = t.sent ++ [(t.client, packetBytes TFTP_DATA (k + 1) (block 256 d k))] := by
  obtain ⟨t', hsend, hrest⟩ := h.sendData hk .ready
  refine ⟨t', ?_, hrest⟩
  have hmore : t.lastPacket = false := by
    rw [h.lastPacket]
    simpa using Nat.ne_of_lt (Nat.lt_succ_of_le hk)
  rw [dispatch_ack, packetAck_more (t := { t with status := .ready }) hmore, Nat.mod_eq_of_lt hlt,
    ← h.blocknum]
  exact hsend

/-- **Any acknowledgement of the short block** ends the session, the file closed. -/
theorem Serving.finish (h : Serving n src d k t) (hk : k = d.length / 256 + 1) (b : Nat)
    (body : Bytes) :
    ∃ t', t.dispatch (packetBytes TFTP_ACK b body) = .ok t' ∧ t'.status = .finished ∧
      t'.devices n = some (src.withFile .closed) ∧ t'.sent = t.sent := by
  obtain ⟨fh, hdev, hset, -⟩ := h.file
  have hlast : t.lastPacket = true := by
    rw [h.lastPacket]
    simpa using hk
  have hclose := (src.withFile fh).close_of_file (by rw [Device.file_withFile]; exact hset)
  rw [Device.withFile_withFile] at hclose
  rw [dispatch_ack, packetAck_last (t := { t with status := .ready }) hlast h.device hdev hclose]
  exact ⟨_, rfl, rfl, by simp, rfl⟩

/-! ### The request -/

/-- The devices serve the file of content `d` under the requested name: it is opened on device
`n`, which is `src` then. -/
structure Serves (devices : Nat → Option Device) (name : Bytes) (n : Nat) (src : Device)
    (d : Bytes) : Prop where
  number : (splitDevice name).1 = n
  opened : ∃ dev, devices n = some dev ∧ dev.openFile (splitDevice name).2 .read = .ok (true, src)
  rest : src.file.rest = some d

/-- The devices go on to serve the file, whatever becomes of the handle. -/
theorem Serves.withFile {devices devices' : Nat → Option Device} {name : Bytes} {h : Handle}
    (hs : Serves devices name n src d) (hdev : devices' n = some (src.withFile h)) :
    Serves devices' name n src d where
  number := hs.number
  opened := by
    obtain ⟨dev, -, hopen⟩ := hs.opened
    exact ⟨src.withFile h, hdev, Device.openFile_withFile h hopen⟩
  rest := hs.rest

/-- The reply to a request with options. -/
def oackBytes (options : List (Bytes × Bytes)) : Bytes :=
  packetBytes TFTP_OPTACK 0 (optionBytes options)

theorem uint16_serialize (opcode : Nat) (name mode : Bytes) (options : List (Bytes × Bytes)) :
    uint16 (serialize opcode name mode options) 0 = .ok (some (opcode % 65536)) := by
  simp [uint16, serialize, beBytes]

theorem packetRrq_of_parse {data : Bytes} {t' : Tftp} {dev dev' : Device}
    (hparse : t.parseRequest data = .ok t') (hdev : t'.devices t'.deviceNum = some dev)
    (hopen : dev.openFile t'.filename .read = .ok (true, dev')) (hne : t'.options ≠ []) :
    t.packetRrq data = .ok ((t'.setDevice t'.deviceNum dev').sendOack .waitForAck) := by
  have hoptions : (t'.setDevice t'.deviceNum dev').options.isEmpty = false := by
    rw [List.isEmpty_eq_false_iff]
    exact hne
  simp only [packetRrq, hparse, bind, Except.bind, hdev, hopen, hoptions]
  rfl

/-- **The read request** opens the file and is answered with an OACK. -/
theorem packetRrq_serialized {name mode : Bytes} {options : List (Bytes × Bytes)}
    (hs : Serves t.devices name n src d) (hname : ∀ c ∈ name, c ≠ 0) (hmode : isMode mode = true)
    (hok : OptionsOk options) (hne : options ≠ []) :
    ∃ t', t.packetRrq (serialize TFTP_RRQ name mode options) = .ok t' ∧
      t'.status = .waitForAck ∧ t'.options = options ∧ t'.device = some n ∧
      t'.devices n = some src ∧ t'.blocknum = t.blocknum ∧ t'.lastPacket = t.lastPacket ∧
      t'.sendEmpty = t.sendEmpty ∧ t'.client = t.client ∧
      t'.sent = t.sent ++ [(t.client, oackBytes options)] := by
  obtain ⟨dev, hdev, hopen⟩ := hs.opened
  have hparse := parseRequest_serialized t TFTP_RRQ hname hmode hok
  simp only [hs.number, hdev, Option.isSome_some, if_true] at hparse
  rw [packetRrq_of_parse hparse hdev hopen hne]
  exact ⟨_, rfl, rfl, rfl, rfl, by simp [sendOack, send], rfl, rfl, rfl, rfl, rfl⟩

theorem dispatch_rrq {name mode : Bytes} {options : List (Bytes × Bytes)}
    (hs : Serves t.devices name n src d) (hname : ∀ c ∈ name, c ≠ 0) (hmode : isMode mode = true)
    (hok : OptionsOk options) (hne : options ≠ []) :
    ∃ t', t.dispatch (serialize TFTP_RRQ name mode options) = .ok t' ∧
      t'.status = .waitForAck ∧ t'.device = some n ∧ t'.devices n = some src ∧
      t'.blocknum = t.blocknum ∧ t'.lastPacket = t.lastPacket ∧ t'.sendEmpty = t.sendEmpty ∧
      t'.client = t.client ∧ t'.sent = t.sent ++ [(t.client, oackBytes options)] := by
  have hop : t.dispatch (serialize TFTP_RRQ name mode options)
      = ({ t with status := .ready } : Tftp).packetRrq (serialize TFTP_RRQ name mode options) := by
    simp [dispatch, uint16_serialize, TFTP_RRQ, bind, Except.bind]
  obtain ⟨t', hrrq, hstatus, -, hrest⟩ :=
    packetRrq_serialized (t := { t with status := .ready }) hs hname hmode hok hne
  exact ⟨t', hop.trans hrrq, hstatus, hrest⟩

/-- The first request of a session. -/
theorem Serving.start {name mode : Bytes} {options : List (Bytes × Bytes)}
    {devices : Nat → Option Device} (sent : List (Addr × Bytes)) (sender : Addr)
    (hs : Serves devices name n src d) (hname : ∀ c ∈ name, c ≠ 0) (hmode : isMode mode = true)
    (hok : OptionsOk options) (hne : options ≠ []) :
    ∃ t', (Tftp.new devices sent sender).dispatch (serialize TFTP_RRQ name mode options) = .ok t' ∧
      Serving n src d 0 t' ∧ t'.client = sender ∧ t'.sent = sent ++ [(sender, oackBytes options)] := by
  obtain ⟨t', hdisp, hstatus, hdevice, hdev, hblk, hlast, hempty, hclient, hsent⟩ :=
    dispatch_rrq (t := Tftp.new devices sent sender) hs hname hmode hok hne
  refine ⟨t', hdisp, ?_, hclient, hsent⟩
  exact {
    status := hstatus
    device := hdevice
    file := by
      refine ⟨src.file, by rw [Device.withFile_file, hdev], Device.file_ne_unset_of_rest hs.rest, ?_⟩
      intro _ _
      simpa using hs.rest
    blocknum := hblk
    lastPacket := by rw [hlast]; rfl
    sendEmpty := by rw [hempty]; rfl
    le := Nat.zero_le _ }

/-- **A repeated request** finds the file again. It goes unnoticed when nothing has been read
yet or nothing is to be read any more. -/
theorem Serving.again {name mode : Bytes} {options : List (Bytes × Bytes)}
    {devices : Nat → Option Device} (h : Serving n src d k t) (hs : Serves devices name n src d)
    (hname : ∀ c ∈ name, c ≠ 0) (hmode : isMode mode = true) (hok : OptionsOk options)
    (hne : options ≠ []) (hk : k = 0 ∨ t.lastPacket = true ∨ t.sendEmpty = true) :
    ∃ t', t.dispatch (serialize TFTP_RRQ name mode options) = .ok t' ∧
      Serving n src d k t' ∧ t'.client = t.client ∧
      t'.sent = t.sent ++ [(t.client, oackBytes options)] := by
  obtain ⟨fh, hdev, hset, -⟩ := h.file
  obtain ⟨t', hdisp, hstatus, hdevice, hdev', hblk, hlast, hempty, hclient, hsent⟩ :=
    dispatch_rrq (hs.withFile hdev) hname hmode hok hne
  refine ⟨t', hdisp, ?_, hclient, hsent⟩
  exact {
    status := hstatus
    device := hdevice
    file := by
      refine ⟨src.file, by rw [Device.withFile_file, hdev'],
        Device.file_ne_unset_of_rest hs.rest, ?_⟩
      intro hl he
      rw [hlast] at hl
      rw [hempty] at he
      have hk0 : k = 0 := by
        rcases hk with hk | hk | hk
        · exact hk
        · rw [hk] at hl
          cases hl
        · rw [hk] at he
          cases he
      simpa [hk0] using hs.rest
    blocknum := by rw [hblk, h.blocknum]
    lastPacket := by rw [hlast, h.lastPacket]
    sendEmpty := by rw [hempty, h.sendEmpty]
    le := h.le }

end Tftp

end C64Iec.Server

import C64Iec.Client.DataBounds
import C64Iec.Client.Sketch
import C64Iec.Lib.Runs

set_option autoImplicit false

/-! # The name that is requested

`handle_open` collects the name in `iobuf`, `create_tftp_filename` takes it from there at the next
LOAD or SAVE, and LOAD and SAVE move their data through the same buffer. `History` records what
has been opened; the buffer holds that name as long as nothing else has been stored in it (`Kept`).
-/

namespace C64Iec.Client

open Lib

/-! ## Calls of `create_tftp_filename` -/

/-- The turns in which `handle_talk` or `handle_listen` calls `create_tftp_filename`. -/
def callsCreate (s : Sketch) (i : Input) : Bool :=
  match s.pc, i.device, i.sec with
  | .idle, .byte device _, .byte sec _ =>
      i.atn && !notOurDevice device && sec.toNat &&& 0xf0 = IEC_DATA &&
        (device.toNat &&& 0xf0 = IEC_TALK ||
          device.toNat &&& 0xf0 = IEC_LISTEN && sec.toNat &&& 0x0f = 1)
  | _, _, _ => false

@[simp] theorem Sketch.ofSendFile_g (r : Globals × List Output × Control SendFile) :
    (Sketch.ofSendFile r).1.g = r.1 := by
  obtain ⟨g, out, c⟩ := r
  cases c <;> rfl

@[simp] theorem Sketch.ofRecvFile_g (r : Globals × List Output × Control RecvFile) :
    (Sketch.ofRecvFile r).1.g = r.1 := by
  obtain ⟨g, out, c⟩ := r
  cases c <;> rfl

/-- The two loops that move data leave the name alone. -/
theorem sendFileStep_filename (myip : Bytes) (g : Globals) (l : SendFile) (p : Option Frame) :
    (sendFileStep myip g l p).1.tftpFilename = g.tftpFilename := by
  have hturn := sendFileStep_turn myip g l p
  generalize sendFileStep myip g l p = r at hturn ⊢
  cases hturn <;> rfl

/-- `tftp_put_block` reads `iobuf`. -/
theorem recvFileBlock_keeps (g : Globals) (a : Nat) (eoi : Bool) :
    (recvFileBlock g a eoi).1 = { g with tftp := (recvFileBlock g a eoi).1.tftp } := by
  rw [recvFileBlock]
  dsimp only
  split
  · rfl
  · split
    · rfl
    · split <;> rfl

/-- The buffer after a turn of `recv_file`. -/
def RecvFile.stored (l : RecvFile) (i : Input) (iobuf : Bytes) : Bytes :=
  match l with
  | .byte a => if i.atn then iobuf else i.byte.store iobuf a
  | _ => iobuf

theorem recvFileStep_keeps (myip : Bytes) (g : Globals) (l : RecvFile) (i : Input) :
    (recvFileStep myip g l i).1 =
      { g with
        tftp := (recvFileStep myip g l i).1.tftp
        iobuf := l.stored i g.iobuf } := by
  cases l with
  | byte a =>
      rw [recvFileStep, RecvFile.stored]
      dsimp only
      split
      · rfl
      · split
        · rfl
        · split
          · exact recvFileBlock_keeps _ _ _
          · rfl
  | block a eoi => exact recvFileBlock_keeps _ _ _
  | emptyBlock => rfl

theorem recvFileStep_filename (myip : Bytes) (g : Globals) (l : RecvFile) (i : Input) :
    (recvFileStep myip g l i).1.tftpFilename = g.tftpFilename := by
  rw [recvFileStep_keeps]

theorem recvFileStep_iobuf (myip : Bytes) (g : Globals) (l : RecvFile) (i : Input) :
    (recvFileStep myip g l i).1.iobuf = l.stored i g.iobuf := by
  rw [recvFileStep_keeps]

theorem handleListen_filename (g : Globals) (secAddr : Nat) :
    (handleListen g secAddr).1.g.tftpFilename =
      if secAddr = 1 then createTftpFilename g.tftpFilename g.deviceMode g.iobuf
      else g.tftpFilename := by
  rw [handleListen]
  by_cases h : secAddr = 1
  · rw [if_neg (not_not.mpr h), if_pos h, Sketch.ofRecvFile_g]
    rfl
  · rw [if_pos h, if_neg h]

theorem handleTalk_filename (g : Globals) :
    (handleTalk g).1.g.tftpFilename =
      createTftpFilename g.tftpFilename g.deviceMode g.iobuf := by
  rw [handleTalk, Sketch.ofSendFile_g]
  rfl

theorem handleListen_deviceMode (g : Globals) (secAddr : Nat) :
    (handleListen g secAddr).1.g.deviceMode = g.deviceMode := by
  rw [handleListen]
  split
  · rfl
  · rw [Sketch.ofRecvFile_g]
    rfl

theorem handleTalk_deviceMode (g : Globals) : (handleTalk g).1.g.deviceMode = g.deviceMode := by
  rw [handleTalk, Sketch.ofSendFile_g]
  rfl

theorem handleAtn_filename (g : Globals) (i : Input) (hatn : i.atn = true) :
    (handleAtn g i).1.g.tftpFilename =
      if callsCreate ⟨g, .idle⟩ i then
        createTftpFilename g.tftpFilename (handleAtn g i).1.g.deviceMode g.iobuf
      else g.tftpFilename := by
  rw [handleAtn]
  cases hdevice : i.device with
  | timeout stored => simp [callsCreate, hdevice]
  | byte device eoi =>
      cases hsec : i.sec with
      | timeout stored =>
          simp only [callsCreate, hdevice, hsec]
          split
          · simp
          · split <;> simp
      | byte sec eoi' =>
          have hn : ∀ {a b : Nat}, a ≠ b → decide (a = b) = false := fun h => decide_eq_false h
          simp only [callsCreate, hdevice, hsec, hatn, Bool.true_and]
          generalize device.toNat &&& 0xf0 = mode
          generalize sec.toNat &&& 0xf0 = secMode
          -- UNLISTEN and UNTALK are seen to before the device, any other command after it
          by_cases hun : mode = IEC_UNLISTEN ∨ mode = IEC_UNTALK
          · have htalk : mode ≠ IEC_TALK := by rcases hun with rfl | rfl <;> decide
            have hlisten : mode ≠ IEC_LISTEN := by rcases hun with rfl | rfl <;> decide
            simp [hun, htalk, hlisten]
          · rw [if_neg hun]
            cases hnot : notOurDevice device with
            | true =>
                by_cases hmode : mode = IEC_LISTEN ∨ mode = IEC_TALK
                · simp [hmode]
                · rw [if_neg (by simp [hmode])]
                  rw [not_or] at hmode
                  simp only [hmode.1, hmode.2, if_false]
                  split <;> simp
            | false =>
                rw [if_neg (by simp)]
                by_cases hdata : secMode = IEC_DATA
                · subst hdata
                  rw [if_neg (by decide), if_neg (by decide), if_pos rfl]
                  by_cases hlisten : mode = IEC_LISTEN
                  · subst hlisten
                    rw [if_pos rfl, handleListen_filename, handleListen_deviceMode]
                    simp [show ¬ IEC_LISTEN = IEC_TALK by decide]
                  · rw [if_neg hlisten]
                    by_cases htalk : mode = IEC_TALK
                    · subst htalk
                      rw [if_pos rfl, handleTalk_filename, handleTalk_deviceMode]
                      simp
                    · simp [hlisten, htalk]
                · rw [if_neg hdata]
                  split
                  · simp [hdata]
                  · simp [hdata]

/-- **The calls.** A turn changes `tftp_filename` exactly when it calls `create_tftp_filename`,
which then reads what `iobuf` held before the turn. -/
theorem tftpFilename_step (myip : Bytes) (s : Sketch) (i : Input) :
    (s.step myip i).1.g.tftpFilename =
      if callsCreate s i then
        createTftpFilename s.g.tftpFilename (s.step myip i).1.g.deviceMode s.g.iobuf
      else s.g.tftpFilename := by
  obtain ⟨g, pc⟩ := s
  cases pc with
  | idle =>
      rw [Sketch.step]
      dsimp only
      rw [loopStep]
      dsimp only
      by_cases hatn : i.atn = true
      · rw [if_pos hatn]
        exact handleAtn_filename _ i hatn
      · rw [if_neg hatn]
        have hnot : callsCreate ⟨g, .idle⟩ i = false := by
          cases hdevice : i.device <;> cases hsec : i.sec <;> simp [callsCreate, hatn, hdevice, hsec]
        rw [hnot]
        rfl
  | opening a =>
      rw [Sketch.step]
      dsimp only
      rw [handleOpenStep]
      split
      · rfl
      · dsimp only
        split <;> rfl
  | sending l =>
      rw [Sketch.step]
      dsimp only
      rw [Sketch.ofSendFile_g, sendFileStep_filename]
      rfl
  | receiving l =>
      rw [Sketch.step]
      dsimp only
      rw [Sketch.ofRecvFile_g, recvFileStep_filename]
      rfl

/-! ## History -/

/-- The byte a call of `get_byte` has received. -/
def GetByte.received : GetByte → Bytes
  | .byte value _ => [value]
  | .timeout _ => []

/-- What has been opened. -/
structure History where
  /-- what the `handle_open` that is running has received -/
  opening : Bytes
  /-- what the last `handle_open` that ran to its end has received -/
  opened : Bytes
  /-- whether anything else may have been stored in `iobuf` since: a byte that timed out, the
  first bytes of a name that was cut short, the data of a LOAD or a SAVE -/
  disturbed : Bool
  deriving DecidableEq, Repr

/-- After `setup` the buffer is clear, as after an empty name. -/
def History.init : History := ⟨[], [], false⟩

/-- The history after a turn. -/
def History.next (myip : Bytes) (s : Sketch) (i : Input) (h : History) : History :=
  match s.pc with
  | .idle => h
  | .opening a =>
      if i.atn then ⟨[], h.opened, h.disturbed || a ≠ 0⟩
      else
        let opening := h.opening ++ i.byte.received
        if !i.byte.eoi ∧ a + 1 < IOBUF_SIZE - 1 then ⟨opening, h.opened, h.disturbed⟩
        else ⟨[], opening, opening.length ≠ a + 1⟩
  | .sending _ =>
      { h with
        disturbed := h.disturbed ||
          (ethernetProbeForPacket myip s.g.tftp i.packet).1.dataAvailable ≠ 0 }
  | .receiving (.byte _) => { h with disturbed := h.disturbed || !i.atn }
  | .receiving _ => h

/-- The sketch with its history. -/
def recordStep (myip : Bytes) (r : Sketch × History) (i : Input) : Sketch × History :=
  ((r.1.step myip i).1, r.2.next myip r.1 i)

/-- A LOAD or a SAVE comes while the name that was opened last has not been disturbed. -/
def OpensFirst (r : Sketch × History) (i : Input) : Prop :=
  callsCreate r.1 i = true → r.2.disturbed = false

instance (r : Sketch × History) (i : Input) : Decidable (OpensFirst r i) :=
  inferInstanceAs (Decidable (_ → _))

/-- The buffer starts with the name and its NUL, inside its size. -/
structure Holds (iobuf name : Bytes) : Prop where
  length : name.length < IOBUF_SIZE
  take : iobuf.take (name.length + 1) = name ++ [0]

/-- A call of `create_tftp_filename` finds the name that has been opened last, and `strlen` stays
inside the buffer. -/
def RequestsOpened (r : Sketch × History) (i : Input) : Prop :=
  callsCreate r.1 i = true →
    Holds r.1.g.iobuf r.2.opened ∧ (untilNul r.1.g.iobuf).length < IOBUF_SIZE

/-! ## The invariant -/

/-- Undisturbed, the buffer holds what has been opened. -/
def Kept (iobuf : Bytes) (h : History) : Prop := h.disturbed = false → Holds iobuf h.opened

/-- While a name comes in, the buffer starts with what has come, unless a byte has timed out;
before its first byte, and wherever no name comes in, it holds what has been opened. -/
def Pc.Named (iobuf : Bytes) (h : History) : Pc → Prop
  | .opening a => a < IOBUF_SIZE - 1 ∧ h.opening.length ≤ a ∧
      (h.opening.length = a → iobuf.take a = h.opening) ∧ (a = 0 → Kept iobuf h)
  | _ => h.opening = [] ∧ Kept iobuf h

structure Named (r : Sketch × History) : Prop where
  size : IOBUF_SIZE ≤ r.1.g.iobuf.length
  pc : r.1.pc.Named r.1.g.iobuf r.2

theorem named_init : Named (.init, .init) where
  size := by
    rw [Sketch.init, Globals.init, List.length_replicate]
  pc := ⟨rfl, fun _ => ⟨by decide, rfl⟩⟩

/-- Where no name has begun to come in. -/
theorem named_of_kept {iobuf : Bytes} {h : History} {pc : Pc} (hopening : h.opening = [])
    (hkept : Kept iobuf h) (hpc : ∀ a, pc = .opening a → a = 0) : pc.Named iobuf h := by
  cases pc with
  | idle => exact ⟨hopening, hkept⟩
  | opening a =>
      obtain rfl := hpc a rfl
      exact ⟨by decide, by simp [hopening], fun _ => by rw [hopening, List.take_zero],
        fun _ => hkept⟩
  | sending l => exact ⟨hopening, hkept⟩
  | receiving l => exact ⟨hopening, hkept⟩

/-- The invariant of a state whose buffer is known. -/
theorem named_of_iobuf {r : Sketch × History} {iobuf : Bytes} (h : r.1.g.iobuf = iobuf)
    (hsize : IOBUF_SIZE ≤ iobuf.length) (hopening : r.2.opening = []) (hkept : Kept iobuf r.2)
    (hpc : ∀ a, r.1.pc = .opening a → a = 0) : Named r := by
  subst h
  exact ⟨hsize, named_of_kept hopening hkept hpc⟩

/-- Once disturbed nothing is claimed. -/
theorem kept_of_disturbed {iobuf : Bytes} {h : History} (hd : h.disturbed = true) :
    Kept iobuf h :=
  fun hnot => absurd (hd.symm.trans hnot) (by decide)

/-- `strlen` finds the NUL behind the name, or one in it. -/
theorem untilNul_length_of_holds {iobuf name : Bytes} (h : Holds iobuf name) :
    (untilNul iobuf).length < IOBUF_SIZE := by
  have hsplit : iobuf = name ++ 0 :: iobuf.drop (name.length + 1) := by
    conv_lhs => rw [← List.take_append_drop (name.length + 1) iobuf, h.take]
    simp
  rw [hsplit]
  exact (untilNul_append_length_le _ _).trans_lt h.length

/-! ## Collecting a name -/

theorem GetByte.store_length (b : GetByte) (mem : Bytes) (at_ : Nat) :
    (b.store mem at_).length = mem.length := by
  cases b with
  | byte value eoi => exact List.length_set
  | timeout stored => cases stored <;> simp [GetByte.store]

theorem GetByte.received_length (b : GetByte) : b.received.length ≤ 1 := by
  cases b <;> simp [GetByte.received]

/-- A byte that is received is added to what has come. -/
theorem GetByte.take_store {b : GetByte} (hb : b.received.length = 1) {mem : Bytes} {a : Nat}
    (ha : a < mem.length) : (b.store mem a).take (a + 1) = mem.take a ++ b.received := by
  cases b with
  | byte value eoi => exact take_set_succ ha value
  | timeout stored => cases hb

/-- **`handle_open`**: a byte is added, or the name is complete and has its NUL. -/
theorem Named.open (myip : Bytes) {g : Globals} {h : History} {a : Nat} (i : Input)
    (hn : Named (⟨g, .opening a⟩, h)) :
    Named ((handleOpenStep g a i).1, h.next myip ⟨g, .opening a⟩ i) := by
  obtain ⟨hsize, hlt, hle, htake, hkept⟩ := hn
  have hB : IOBUF_SIZE = 257 := rfl
  have hsize' : IOBUF_SIZE ≤ g.iobuf.length := hsize
  rw [handleOpenStep, History.next]
  dsimp only at hlt hle htake hkept ⊢
  by_cases hatn : i.atn = true
  · rw [if_pos hatn, if_pos hatn]
    refine ⟨hsize, rfl, ?_⟩
    by_cases ha : a = 0
    · -- nothing has come yet
      subst ha
      simpa [Kept] using hkept rfl
    · exact kept_of_disturbed (by simp [ha])
  · rw [if_neg hatn, if_neg hatn]
    have hone := i.byte.received_length
    have hlen : (h.opening ++ i.byte.received).length
        = h.opening.length + i.byte.received.length := List.length_append
    -- all bytes have come only if this one has, and all before it
    have hstore : (h.opening ++ i.byte.received).length = a + 1 →
        (i.byte.store g.iobuf a).take (a + 1) = h.opening ++ i.byte.received := by
      intro hall
      rw [← htake (by omega)]
      exact GetByte.take_store (by omega) (by omega)
    by_cases hmore : !i.byte.eoi ∧ a + 1 < IOBUF_SIZE - 1
    · rw [if_pos hmore, if_pos hmore]
      refine ⟨?_, hmore.2, by dsimp only; omega, hstore, fun h0 => absurd h0 (Nat.succ_ne_zero a)⟩
      exact hsize'.trans (GetByte.store_length _ _ _).ge
    · rw [if_neg hmore, if_neg hmore]
      refine ⟨?_, rfl, fun hall => ?_⟩
      · rw [List.length_set, GetByte.store_length]
        exact hsize
      · have hall : (h.opening ++ i.byte.received).length = a + 1 := by simpa using hall
        have hin : a + 1 < (i.byte.store g.iobuf a).length := by
          rw [GetByte.store_length]
          omega
        refine ⟨by dsimp only; omega, ?_⟩
        dsimp only
        rw [hall, take_set_succ hin, hstore hall]

/-! ## Moving data -/

theorem sendFileStep_iobuf_length (myip : Bytes) (g : Globals) (l : SendFile) (p : Option Frame) :
    g.iobuf.length ≤ (sendFileStep myip g l p).1.iobuf.length := by
  have hturn := sendFileStep_turn myip g l p
  generalize sendFileStep myip g l p = r at hturn ⊢
  have hlen := fun t => tftpGetBlock_mem_length t g.iobuf l.iobufOffset
  cases hturn with
  | failed => exact le_rfl
  | last _ hblock =>
      have h := hlen (ethernetProbeForPacket myip g.tftp p).1
      rwa [hblock] at h
  | idle _ hblock =>
      have h := hlen (ethernetProbeForPacket myip g.tftp p).1
      rwa [hblock] at h
  | block _ hblock =>
      have h := hlen (ethernetProbeForPacket myip g.tftp p).1
      rw [hblock] at h
      rwa [List.length_set]

theorem sendFileStep_iobuf_of_no_data {myip : Bytes} {g : Globals} {p : Option Frame}
    (h : (ethernetProbeForPacket myip g.tftp p).1.dataAvailable = 0) (l : SendFile) :
    (sendFileStep myip g l p).1.iobuf = g.iobuf := by
  have hturn := sendFileStep_turn myip g l p
  generalize sendFileStep myip g l p = r at hturn ⊢
  obtain ⟨hnone, hmem⟩ := tftpGetBlock_of_no_data h g.iobuf l.iobufOffset
  cases hturn with
  | failed => rfl
  | last _ hblock =>
      rw [hblock] at hmem
      exact hmem
  | idle _ hblock =>
      rw [hblock] at hmem
      exact hmem
  | block _ hblock _ hunsent =>
      rw [hblock] at hnone
      exact absurd hnone hunsent

/-! ## A turn -/

theorem Sketch.ofSendFile_pc_ne (r : Globals × List Output × Control SendFile) (a : Nat) :
    (Sketch.ofSendFile r).1.pc ≠ .opening a := by
  obtain ⟨g, out, c⟩ := r
  cases c <;> simp [Sketch.ofSendFile]

theorem Sketch.ofRecvFile_pc_ne (r : Globals × List Output × Control RecvFile) (a : Nat) :
    (Sketch.ofRecvFile r).1.pc ≠ .opening a := by
  obtain ⟨g, out, c⟩ := r
  cases c <;> simp [Sketch.ofRecvFile]

/-- `loop` leaves the buffer alone, and a name it starts to collect is collected from its first
byte on. -/
theorem loopStep_keeps (myip : Bytes) (g : Globals) (i : Input) :
    (loopStep myip g i).1.g.iobuf = g.iobuf ∧
      ∀ a, (loopStep myip g i).1.pc = .opening a → a = 0 := by
  rw [loopStep]
  dsimp only
  split
  · generalize (ethernetProbeForPacket myip g.tftp i.packet).1 = t
    obtain ⟨device, sec, g', rfl, h | h | ⟨secAddr, h⟩ | h⟩ := handleAtn_cases { g with tftp := t } i
    · rw [h]
      exact ⟨rfl, fun a ha => by cases ha⟩
    · rw [h]
      exact ⟨rfl, fun a ha => by cases ha; rfl⟩
    · rw [h, handleListen]
      split
      · exact ⟨rfl, fun a ha => by cases ha⟩
      · refine ⟨?_, fun a ha => absurd ha (Sketch.ofRecvFile_pc_ne _ a)⟩
        rw [Sketch.ofRecvFile_g]
        rfl
    · rw [h, handleTalk]
      refine ⟨?_, fun a ha => absurd ha (Sketch.ofSendFile_pc_ne _ a)⟩
      rw [Sketch.ofSendFile_g]
      rfl
  · exact ⟨rfl, fun a ha => by cases ha⟩

/-- **The invariant.** Every turn keeps it: what a turn stores in the buffer is the next byte of a
name, or marks the name as disturbed. -/
theorem Named.step (myip : Bytes) {r : Sketch × History} (i : Input) (hn : Named r) :
    Named (recordStep myip r i) := by
  obtain ⟨⟨g, pc⟩, h⟩ := r
  cases pc with
  | opening a => exact hn.open myip i
  | idle =>
      obtain ⟨hsize, hopening, hkept⟩ := hn
      obtain ⟨hiobuf, hpc⟩ := loopStep_keeps myip g i
      exact named_of_iobuf hiobuf hsize hopening hkept hpc
  | sending l =>
      obtain ⟨hsize, hopening, hkept⟩ := hn
      have hiobuf : (recordStep myip (⟨g, .sending l⟩, h) i).1.g.iobuf
          = (sendFileStep myip g l i.packet).1.iobuf := congrArg _ (Sketch.ofSendFile_g _)
      refine named_of_iobuf hiobuf ?_ hopening ?_ fun a ha => absurd ha (Sketch.ofSendFile_pc_ne _ a)
      -- data in the buffer marks the name as disturbed, and without data it stays
      · exact hsize.trans (sendFileStep_iobuf_length myip g l i.packet)
      · by_cases hdata : (ethernetProbeForPacket myip g.tftp i.packet).1.dataAvailable = 0
        · rw [sendFileStep_iobuf_of_no_data hdata]
          simpa [Kept, recordStep, History.next, hdata] using hkept
        · exact kept_of_disturbed (by simp [recordStep, History.next, hdata])
  | receiving l =>
      obtain ⟨hsize, hopening, hkept⟩ := hn
      have hiobuf : (recordStep myip (⟨g, .receiving l⟩, h) i).1.g.iobuf
          = (recvFileStep myip g l i).1.iobuf := congrArg _ (Sketch.ofRecvFile_g _)
      have hpc : ∀ a, (recordStep myip (⟨g, .receiving l⟩, h) i).1.pc = .opening a → a = 0 :=
        fun a ha => absurd ha (Sketch.ofRecvFile_pc_ne _ a)
      rw [recvFileStep_iobuf] at hiobuf
      cases l with
      | byte a =>
          rw [RecvFile.stored] at hiobuf
          -- ATN ends a SAVE before a byte is stored
          by_cases hatn : i.atn = true
          · rw [if_pos hatn] at hiobuf
            refine named_of_iobuf hiobuf hsize hopening ?_ hpc
            simpa [Kept, recordStep, History.next, hatn] using hkept
          · rw [if_neg hatn] at hiobuf
            refine named_of_iobuf hiobuf ?_ hopening ?_ hpc
            · exact hsize.trans (GetByte.store_length _ _ _).ge
            · exact kept_of_disturbed (by simp [recordStep, History.next, hatn])
      | block a eoi => exact named_of_iobuf hiobuf hsize hopening hkept hpc
      | emptyBlock => exact named_of_iobuf hiobuf hsize hopening hkept hpc

/-! ## Runs -/

theorem Named.requestsOpened {r : Sketch × History} {i : Input} (hn : Named r)
    (hfirst : OpensFirst r i) : RequestsOpened r i := by
  intro hcalls
  have hidle : r.1.pc = .idle := by
    cases hpc : r.1.pc <;> simp_all [callsCreate]
  have hpc := hn.pc
  rw [hidle] at hpc
  have hholds := hpc.2 (hfirst hcalls)
  exact ⟨hholds, untilNul_length_of_holds hholds⟩

/-- A turn that keeps the opened name: a LOAD or a SAVE finds it undisturbed, and a received block
stays in its buffers. -/
structure KeepsOpened (myip : Bytes) (r : Sketch × History) (i : Input) : Prop where
  opensFirst : OpensFirst r i
  withinBounds : PacketWithinBounds myip r.1.g.tftp i.packet

/-- **The requested name is the opened name**, in every run in which each LOAD and SAVE finds the
name undisturbed and no block overruns its buffers. -/
theorem requests_opened (myip : Bytes) {turns : List Input}
    (h : AllSteps (recordStep myip) (KeepsOpened myip) (.init, .init) turns) :
    AllSteps (recordStep myip) RequestsOpened (.init, .init) turns :=
  allSteps_of_invariant (recordStep myip)
    (fun _ i hn hkeeps => ⟨hn.requestsOpened hkeeps.opensFirst, hn.step myip i⟩) turns _ named_init h

/-- OPEN with the name "A", and the TALK that loads it. -/
def openAndTalk : List Input :=
  [command 0x28 0xf0, ⟨none, false, .byte 65 true, .timeout none, .timeout none⟩, command 0x48 0x60]

theorem requests_opened_talk :
    AllSteps (recordStep []) RequestsOpened (.init, .init) openAndTalk :=
  requests_opened [] ⟨⟨by decide, packetWithinBounds_none _ _⟩,
    ⟨by decide, packetWithinBounds_none _ _⟩, ⟨by decide, packetWithinBounds_none _ _⟩, trivial⟩

/-- The file is the one byte "B"; a second TALK follows without an OPEN. -/
def talkAgain : List Input :=
  openAndTalk ++
    [⟨some (.ofPayload TFTP_PORT (packetBytes TFTP_DATA 1 [66])), false, .timeout none,
      .timeout none, .timeout none⟩, command 0x48 0x60]

/-- The byte of the file is taken for the name. -/
theorem data_requested : ¬ AllSteps (recordStep []) RequestsOpened (.init, .init) talkAgain := by
  intro h
  have hcalls := h.2.2.2.2.1
  have := (hcalls (by decide)).1.take
  exact absurd this (by decide)

end C64Iec.Client

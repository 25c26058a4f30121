import C64Iec.Server.Echo

set_option autoImplicit false

/-! # A read request in a session that has served others

`packet` goes on dispatching in one object, and `packet_rrq` sets neither `@last_packet` nor
`@send_empty`. A request that is answered with an OACK is therefore served from its first block
only when no transfer before it has left one of the two behind (`servesAfresh_iff`).
-/

namespace C64Iec.Server.Tftp

open Lib

/-! ## A client in lockstep -/

/-- The session on the acknowledgements of the blocks `0` to `k - 1`. Once it is over, no more
reach it. -/
def acked (t : Tftp) : Nat → Except RubyError Tftp
  | 0 => .ok t
  | k + 1 => do
      let t ← t.acked k
      if t.waiting then t.dispatch (packetBytes TFTP_ACK k []) else return t

/-- The packets of the first `k` blocks of `d`. -/
def dataPackets (client : Addr) (d : Bytes) (k : Nat) : List (Addr × Bytes) :=
  (List.range k).map fun j => (client, packetBytes TFTP_DATA (j + 1) (block 256 d j))

/-- Each acknowledgement up to that of the last full block is answered with the next block of `d`,
and that of the short block ends the session. -/
structure ServesAfresh (d : Bytes) (t : Tftp) : Prop where
  blocks : ∀ k ≤ d.length / 256 + 1, ∃ s, t.acked k = .ok s ∧ s.status = .waitForAck ∧
    s.sent = t.sent ++ dataPackets t.client d k
  finished : ∃ s, t.acked (d.length / 256 + 2) = .ok s ∧ s.status = .finished ∧
    s.sent = t.sent ++ dataPackets t.client d (d.length / 256 + 1)

theorem dataPackets_succ (client : Addr) (d : Bytes) (k : Nat) :
    dataPackets client d (k + 1)
      = dataPackets client d k ++ [(client, packetBytes TFTP_DATA (k + 1) (block 256 d k))] := by
  rw [dataPackets, dataPackets, List.range_succ, List.map_append, List.map_singleton]

theorem acked_succ {t s : Tftp} {k : Nat} (h : t.acked k = .ok s) (hs : s.status = .waitForAck) :
    t.acked (k + 1) = s.dispatch (packetBytes TFTP_ACK k []) := by
  have hwait : s.waiting = true := by simp [waiting, hs]
  simp only [acked, h, bind, Except.bind, hwait, if_true]

/-! ## The request -/

/-- The session waits for the acknowledgement of its OACK, and what is read next from its device
is `d`. -/
structure Accepted (d : Bytes) (t : Tftp) : Prop where
  status : t.status = .waitForAck
  options : t.options ≠ []
  device : ∃ n dev, t.device = some n ∧ t.devices n = some dev ∧ dev.file.rest = some d

variable {t t' : Tftp} {data d : Bytes}

theorem parseRequest_flags (h : t.parseRequest data = .ok t') :
    t'.lastPacket = t.lastPacket ∧ t'.sendEmpty = t.sendEmpty := by
  obtain ⟨filename, -, h⟩ := bind_eq_ok.mp h
  obtain ⟨filename, -, h⟩ := bind_eq_ok.mp h
  obtain ⟨t₁, ht₁, h⟩ := bind_eq_ok.mp h
  obtain ⟨r, -, ht₁⟩ := bind_eq_ok.mp ht₁
  cases ht₁
  cases h
  exact ⟨rfl, rfl⟩

/-- What an earlier transfer has left behind is there when the request has been accepted. -/
theorem packetRrq_flags (h : t.packetRrq data = .ok t') (hstatus : t'.status = .waitForAck)
    (hoptions : t'.options ≠ []) : t'.lastPacket = t.lastPacket ∧ t'.sendEmpty = t.sendEmpty := by
  obtain ⟨p, hparse, -⟩ := bind_eq_ok.mp h
  obtain ⟨hlast, hempty⟩ := parseRequest_flags hparse
  obtain ⟨hsame, hanswer⟩ := packetRrq_cases hparse h
  rcases hanswer with herr | hnil | ⟨-, hlast', hempty', -⟩
  · rw [hstatus] at herr
    cases herr
  · exact absurd (hsame.options.trans hnil) hoptions
  · exact ⟨hlast'.trans hlast, hempty'.trans hempty⟩

/-! ## The first acknowledgement -/

/-- The number of the block sent last is overwritten by the one acknowledged. -/
theorem dispatch_ack_blocknum (hmore : t.lastPacket = false) (b k : Nat) (body : Bytes) :
    t.dispatch (packetBytes TFTP_ACK k body)
      = Tftp.dispatch { t with blocknum := b } (packetBytes TFTP_ACK k body) := by
  rw [dispatch_ack, dispatch_ack, packetAck_more (t := { t with status := .ready }) hmore,
    packetAck_more (t := { t with blocknum := b, status := .ready }) hmore]

/-- An empty block that is due is sent whatever has been requested since. -/
theorem dispatch_ack_empty (hmore : t.lastPacket = false) (hempty : t.sendEmpty = true) :
    t.dispatch (packetBytes TFTP_ACK 0 []) = .ok
      { ({ t with status := .ready, blocknum := 1 } : Tftp).send (packetBytes TFTP_DATA 1 []) with
        lastPacket := true, sendEmpty := false, status := .waitForAck } := by
  rw [dispatch_ack, packetAck_more (t := { t with status := .ready }) hmore]
  simp only [hempty]
  rfl

/-- The acknowledgement of the OACK is answered with the first block. -/
theorem Accepted.first_block (h : Accepted d t) (hlast : t.lastPacket = false)
    (hempty : t.sendEmpty = false ∨ d = []) :
    ∃ n src s, t.dispatch (packetBytes TFTP_ACK 0 []) = .ok s ∧ Serving n src d 1 s ∧
      s.client = t.client ∧ s.sent = t.sent ++ dataPackets t.client d 1 := by
  obtain ⟨n, dev, hdevice, hdev, hrest⟩ := h.device
  cases hflag : t.sendEmpty with
  | false =>
      have hserving : Serving n dev d 0 { t with blocknum := 0 } := {
        status := h.status
        device := hdevice
        file := by
          refine ⟨dev.file, by rw [Device.withFile_file]; exact hdev,
            Device.file_ne_unset_of_rest hrest, ?_⟩
          intro _ _
          simpa using hrest
        blocknum := rfl
        lastPacket := hlast
        sendEmpty := hflag
        le := Nat.zero_le _ }
      obtain ⟨s, hdisp, hs, hclient, hsent⟩ :=
        hserving.ack (Nat.zero_le _) (by decide) []
      exact ⟨n, dev, s, by rw [dispatch_ack_blocknum hlast 0]; exact hdisp, hs, hclient, hsent⟩
  | true =>
      -- the empty block that is due happens to be the first one of an empty file
      obtain rfl : d = [] := by
        rcases hempty with hempty | hnil
        · rw [hflag] at hempty
          cases hempty
        · exact hnil
      refine ⟨n, dev, _, dispatch_ack_empty hlast hflag, ?_, rfl, rfl⟩
      exact {
        status := rfl
        device := hdevice
        file := by
          refine ⟨dev.file, by rw [Device.withFile_file]; exact hdev,
            Device.file_ne_unset_of_rest hrest, ?_⟩
          intro hmore
          cases hmore
        blocknum := rfl
        lastPacket := rfl
        sendEmpty := rfl
        le := Nat.le_refl _ }

/-! ## The whole transfer -/

/-- The acknowledgements up to that of the last full block. The induction is on their number. -/
theorem Accepted.serving (h : Accepted d t) (hlast : t.lastPacket = false)
    (hempty : t.sendEmpty = false ∨ d = []) (hd : d.length < 65535 * 256) :
    ∃ n src, ∀ k ≤ d.length / 256, ∃ s, t.acked (k + 1) = .ok s ∧ Serving n src d (k + 1) s ∧
      s.client = t.client ∧ s.sent = t.sent ++ dataPackets t.client d (k + 1) := by
  obtain ⟨n, src, s, hdisp, hs, hclient, hsent⟩ := h.first_block hlast hempty
  refine ⟨n, src, fun k => ?_⟩
  induction k with
  | zero =>
      intro _
      exact ⟨s, by rw [acked_succ rfl h.status]; exact hdisp, hs, hclient, hsent⟩
  | succ k ih =>
      intro hk
      obtain ⟨s, hacked, hs, hclient, hsent⟩ := ih (by omega)
      have hlt : k + 1 < 65536 := by omega
      obtain ⟨s', hdisp, hs', hclient', hsent'⟩ := hs.ack hk hlt []
      refine ⟨s', by rw [acked_succ hacked hs.status]; exact hdisp, hs', hclient'.trans hclient, ?_⟩
      rw [hsent', hsent, hclient, dataPackets_succ _ _ (k + 1), List.append_assoc]

/-- Without anything left behind the file is served from its first block to its last. -/
theorem Accepted.servesAfresh (h : Accepted d t) (hlast : t.lastPacket = false)
    (hempty : t.sendEmpty = false ∨ d = []) (hd : d.length < 65535 * 256) :
    ServesAfresh d t := by
  obtain ⟨n, src, hserving⟩ := h.serving hlast hempty hd
  constructor
  · intro k hk
    cases k with
    | zero => exact ⟨t, rfl, h.status, (List.append_nil _).symm⟩
    | succ k =>
        obtain ⟨s, hacked, hs, -, hsent⟩ := hserving k (by omega)
        exact ⟨s, hacked, hs.status, hsent⟩
  · obtain ⟨s, hacked, hs, -, hsent⟩ := hserving (d.length / 256) (Nat.le_refl _)
    obtain ⟨s', hdisp, hstatus, -, hsent'⟩ := hs.finish rfl (d.length / 256 + 1) []
    exact ⟨s', by rw [acked_succ hacked hs.status]; exact hdisp, hstatus, hsent'.trans hsent⟩

/-- The short block of an earlier transfer is out: the acknowledgement of the OACK is taken for
its acknowledgement. -/
theorem Accepted.not_servesAfresh_of_lastPacket (h : Accepted d t) (hlast : t.lastPacket = true) :
    ¬ServesAfresh d t := by
  intro hs
  obtain ⟨n, dev, hdevice, hdev, hrest⟩ := h.device
  obtain ⟨s, hacked, hstatus, -⟩ := hs.blocks 1 (by omega)
  rw [acked_succ rfl h.status, dispatch_ack, packetAck_last (t := { t with status := .ready })
    hlast hdevice hdev (dev.close_of_file (Device.file_ne_unset_of_rest hrest))] at hacked
  cases hacked
  cases hstatus

/-- The empty block of an earlier transfer is due: it goes out in place of the first one. -/
theorem Accepted.not_servesAfresh_of_sendEmpty (h : Accepted d t) (hlast : t.lastPacket = false)
    (hempty : t.sendEmpty = true) (hd : d ≠ []) : ¬ServesAfresh d t := by
  intro hs
  obtain ⟨s, hacked, -, hsent⟩ := hs.blocks 1 (by omega)
  rw [acked_succ rfl h.status, dispatch_ack_empty hlast hempty] at hacked
  cases hacked
  have hpacket := List.append_cancel_left hsent
  have hblock : block 256 d 0 = [] := by
    simpa [dataPackets, packetBytes] using hpacket
  have hlen := congrArg List.length hblock
  rw [block_length, List.length_nil] at hlen
  have hpos := List.length_pos_iff.mpr hd
  omega

/-- **A request starts afresh** exactly when no block of an earlier transfer is still to be
acknowledged as the last one, or still to be sent as an empty one to a client that waits for
data. -/
theorem servesAfresh_iff (h : t.packetRrq data = .ok t') (hacc : Accepted d t')
    (hd : d.length < 65535 * 256) :
    ServesAfresh d t' ↔ t.lastPacket = false ∧ (t.sendEmpty = false ∨ d = []) := by
  obtain ⟨hlast, hempty⟩ := packetRrq_flags h hacc.status hacc.options
  rw [← hlast, ← hempty]
  constructor
  · intro hs
    have hl : t'.lastPacket = false := by
      rw [Bool.eq_false_iff]
      intro hl
      exact hacc.not_servesAfresh_of_lastPacket hl hs
    refine ⟨hl, ?_⟩
    by_contra hnot
    rw [not_or, Bool.not_eq_false] at hnot
    exact hacc.not_servesAfresh_of_sendEmpty hl hnot.1 hnot.2 hs
  · rintro ⟨hl, he⟩
    exact hacc.servesAfresh hl he hd

/-! ### A file `A` asked for twice -/

/-- The children of a directory with the file `A` of content `d`. -/
def oneFileChildren (d : Bytes) : List (Bytes × Entry) :=
  [(ascii "a.p00", .file (pc64Header (ascii "A") ++ d))]

theorem oneFileChildren_nodup (d : Bytes) : ((oneFileChildren d).map Prod.fst).Nodup :=
  List.nodup_singleton _

def oneFile (d : Bytes) : DeviceDir where
  dir := ⟨oneFileChildren d, fun _ _ => 0, oneFileChildren_nodup d⟩
  file := .unset

/-- The first session of a server with that directory as device 8. -/
def oneFileSession (d : Bytes) : Tftp :=
  Tftp.new (fun n => if n = 8 then some (.dir (oneFile d)) else none) [] ⟨[], 1069⟩

def sampleOptions : List (Bytes × Bytes) := [(ascii "blksize", ascii "256")]

theorem sampleOptions_ok : OptionsOk sampleOptions where
  keyNul := by decide
  valueNul := by decide
  keyNe := by decide
  valueNe := by decide
  keyMode := by decide
  nodup := by decide

def sampleRead : Bytes := serialize TFTP_RRQ (ascii "A") (ascii "octet") sampleOptions

theorem oneFileSession_serves (d : Bytes) :
    Serves (oneFileSession d).devices (ascii "A") 8 (.dir { oneFile d with file := .reading d }) d where
  number := by decide
  opened := ⟨_, rfl, by rfl⟩
  rest := rfl

/-- A request for `A` is accepted. -/
theorem sampleRead_accepted {n : Nat} {src : Device} (hs : Serves t.devices (ascii "A") n src d) :
    ∃ t', t.packetRrq sampleRead = .ok t' ∧ Accepted d t' ∧ t'.lastPacket = t.lastPacket := by
  obtain ⟨t', hrrq, hstatus, hoptions, hdevice, hdev, -, hlast, -⟩ :=
    packetRrq_serialized hs (by decide) (show isMode (ascii "octet") = true by decide)
      sampleOptions_ok (by decide)
  exact ⟨t', hrrq, ⟨hstatus, by rw [hoptions]; decide, n, src, hdevice, hdev, hs.rest⟩, hlast⟩

/-- A second request before anything has been acknowledged starts afresh. -/
theorem servesAfresh_repeated :
    ∃ t t', (oneFileSession [1]).dispatch sampleRead = .ok t ∧ t.packetRrq sampleRead = .ok t' ∧
      Accepted [1] t' ∧ ServesAfresh [1] t' := by
  obtain ⟨t, hdisp, hserving, -⟩ := Serving.start [] ⟨[], 1069⟩ (oneFileSession_serves [1])
    (by decide) (show isMode (ascii "octet") = true by decide) sampleOptions_ok (by decide)
  obtain ⟨fh, hdev, -⟩ := hserving.file
  obtain ⟨t', hrrq, hacc, -⟩ := sampleRead_accepted ((oneFileSession_serves [1]).withFile hdev)
  exact ⟨t, t', hdisp, hrrq, hacc,
    (servesAfresh_iff hrrq hacc (by decide)).mpr ⟨hserving.lastPacket, Or.inl hserving.sendEmpty⟩⟩

/-- When the second request comes while the only block is out, the session ends on the
acknowledgement of its OACK. -/
theorem not_servesAfresh_retried :
    ∃ t u t', (oneFileSession [1]).dispatch sampleRead = .ok t ∧
      t.dispatch (packetBytes TFTP_ACK 0 []) = .ok u ∧ u.packetRrq sampleRead = .ok t' ∧
      Accepted [1] t' ∧ ¬ServesAfresh [1] t' := by
  obtain ⟨t, hdisp, hserving, -⟩ := Serving.start [] ⟨[], 1069⟩ (oneFileSession_serves [1])
    (by decide) (show isMode (ascii "octet") = true by decide) sampleOptions_ok (by decide)
  obtain ⟨u, hack, hserving', -⟩ := hserving.ack (by decide) (by decide) []
  obtain ⟨fh, hdev, -⟩ := hserving'.file
  obtain ⟨t', hrrq, hacc, hlast⟩ :=
    sampleRead_accepted ((oneFileSession_serves [1]).withFile hdev)
  exact ⟨t, u, t', hdisp, hack, hrrq, hacc,
    hacc.not_servesAfresh_of_lastPacket (hlast.trans hserving'.lastPacket)⟩

end C64Iec.Server.Tftp

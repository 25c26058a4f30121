import C64Iec.Client.GetBlock
import C64Iec.Client.Request
import C64Iec.Client.Sketch
import C64Iec.Lib.Blocks

set_option autoImplicit false

/-! # `send_file` on the blocks of a file

`Receiving d m g l` says that `send_file` has been given the first `m` blocks of `d`, all of
them full, and has put out all their bytes but the last, which it holds back in `iobuf[0]`. One
lemma for each kind of datagram says what a turn of the loop does from there: the next block is
put out and acknowledged (`Receiving.next`, `Receiving.last`), an earlier block or a poll that
finds nothing changes nothing (`Receiving.stale`, `Receiving.poll`), and an OACK is answered
with ACK 0 unless it repeats the number received last (`Receiving.oack`).
-/

namespace C64Iec.Client

open Lib

/-! ## Outputs -/

/-- The bytes given to `put_byte`, with their EOI flags. -/
def puts (out : List Output) : List (Byte × Bool) :=
  out.filterMap fun o => match o with
    | .put value eoi => some (value, eoi)
    | .udp _ => none

/-- The datagrams sent. -/
def datagrams (out : List Output) : List Datagram :=
  out.filterMap fun o => match o with
    | .put _ _ => none
    | .udp d => some d

@[simp] theorem puts_nil : puts [] = [] := rfl

@[simp] theorem datagrams_nil : datagrams [] = [] := rfl

@[simp] theorem puts_append (a b : List Output) : puts (a ++ b) = puts a ++ puts b :=
  List.filterMap_append

@[simp] theorem datagrams_append (a b : List Output) :
    datagrams (a ++ b) = datagrams a ++ datagrams b :=
  List.filterMap_append

@[simp] theorem puts_map_udp (ds : List Datagram) : puts (ds.map .udp) = [] := by
  simp [puts, List.filterMap_map]

@[simp] theorem datagrams_map_udp (ds : List Datagram) : datagrams (ds.map .udp) = ds := by
  simp [datagrams, List.filterMap_map]

@[simp] theorem puts_udp (d : Datagram) : puts [.udp d] = [] := rfl

@[simp] theorem datagrams_udp (d : Datagram) : datagrams [.udp d] = [d] := rfl

/-- Bytes without EOI. -/
def plain (d : Bytes) : List (Byte × Bool) := d.map fun b => (b, false)

/-- Bytes with EOI on the last and on no other. -/
def withEoi (d : Bytes) : List (Byte × Bool) :=
  plain d.dropLast ++ (d.getLast?.map fun b => (b, true)).toList

@[simp] theorem plain_append (a b : Bytes) : plain (a ++ b) = plain a ++ plain b :=
  List.map_append

theorem withEoi_append_singleton (d : Bytes) (b : Byte) :
    withEoi (d ++ [b]) = plain d ++ [(b, true)] := by
  simp [withEoi]

theorem withEoi_map_fst (d : Bytes) : (withEoi d).map Prod.fst = d := by
  rcases List.eq_nil_or_concat d with rfl | ⟨d, b, rfl⟩
  · rfl
  · rw [List.concat_eq_append, withEoi_append_singleton]
    simp [plain, Function.comp_def]

theorem plain_map_fst (d : Bytes) : (plain d).map Prod.fst = d := by
  simp [plain, Function.comp_def]

theorem map_range_getD (mem : Bytes) {n : Nat} (h : n ≤ mem.length) :
    ((List.range n).map fun i => mem.getD i 0) = mem.take n := by
  refine List.ext_getElem (by simp [h]) fun i h1 h2 => ?_
  simp only [List.length_map, List.length_range] at h1
  simp [List.getD_eq_getElem?_getD, List.getElem?_eq_getElem (show i < mem.length by omega)]

theorem puts_range (mem : Bytes) {n : Nat} (h : n ≤ mem.length) :
    puts ((List.range n).map fun i => .put (mem.getD i 0) false) = plain (mem.take n) := by
  rw [← map_range_getD mem h]
  simp [puts, plain, List.filterMap_map, Function.comp_def]

/-! ## Putting a block out -/

theorem withEoi_append (a : Bytes) {b : Bytes} (hb : b ≠ []) :
    withEoi (a ++ b) = plain a ++ withEoi b := by
  rcases List.eq_nil_or_concat b with rfl | ⟨b, x, rfl⟩
  · exact absurd rfl hb
  · rw [List.concat_eq_append, ← List.append_assoc, withEoi_append_singleton,
      withEoi_append_singleton, plain_append, List.append_assoc]

theorem take_blit_add {mem : Bytes} (body : Bytes) {off : Nat} (h : off ≤ mem.length) :
    (blit mem off body).take (off + body.length) = mem.take off ++ body := by
  have hl : (mem.take off ++ body).length = off + body.length := by
    rw [List.length_append, List.length_take_of_le h]
  rw [blit, List.take_append_of_le_length (by omega), List.take_of_length_le (by omega)]

/-- The local variables after `m` blocks. -/
def SendFile.after (m : Nat) : SendFile := if m = 0 then ⟨true, 0⟩ else ⟨false, 1⟩

/-- A full block that is not the last: everything is put out but the byte now last. -/
theorem puts_sendFilePut_full (iobuf : Bytes) (m : Nat) (hlen : 257 ≤ iobuf.length) :
    puts (sendFilePut iobuf (.after m) 256 false)
      = plain (iobuf.take (255 + (SendFile.after m).iobufOffset)) := by
  have hoff : (SendFile.after m).iobufOffset ≤ 1 := by
    unfold SendFile.after
    split <;> simp
  have hn : ((256 : Int) - 1 + ((SendFile.after m).iobufOffset : Int)).toNat
      = 255 + (SendFile.after m).iobufOffset := by omega
  rw [sendFilePut, if_pos (by decide), hn, if_neg (by decide), List.append_nil,
    puts_range _ (by omega)]

/-- The last block: everything held and received is put out, with EOI. -/
theorem puts_sendFilePut_last (iobuf : Bytes) {m s : Nat}
    (hlen : s + (SendFile.after m).iobufOffset ≤ iobuf.length) (hne : m = 0 → 0 < s) :
    puts (sendFilePut iobuf (.after m) s true)
      = withEoi (iobuf.take (s + (SendFile.after m).iobufOffset)) := by
  -- the byte with EOI is the last of the bytes held and received
  have key : ∀ n, n < iobuf.length →
      withEoi (iobuf.take (n + 1)) = plain (iobuf.take n) ++ [(iobuf.getD n 0, true)] := by
    intro n hn
    rw [List.take_add_one, List.getElem?_eq_getElem hn, Option.toList_some,
      withEoi_append_singleton, List.getD_eq_getElem?_getD, List.getElem?_eq_getElem hn]
    rfl
  by_cases hm : m = 0
  · have hs := hne hm
    have hl : SendFile.after m = ⟨true, 0⟩ := by simp [SendFile.after, hm]
    rw [hl] at hlen ⊢
    have hn : ((s : Int) - 1 + ((0 : Nat) : Int)).toNat = s - 1 := by omega
    have hn' : ((s : Int) - 1).toNat = s - 1 := by omega
    have hkey := key (s - 1) (by simp at hlen; omega)
    rw [Nat.sub_add_cancel hs] at hkey
    rw [sendFilePut, if_pos (by omega), puts_append, hn, hn', if_pos rfl, if_pos rfl,
      puts_range _ (by simp at hlen; omega), Nat.add_zero, hkey]
    rfl
  · have hl : SendFile.after m = ⟨false, 1⟩ := by simp [SendFile.after, hm]
    rw [hl] at hlen ⊢
    have hkey := key s hlen
    by_cases hs : s = 0
    · subst hs
      rw [hkey, sendFilePut, if_neg (by simp), if_pos rfl]
      simp [puts, plain]
    · have hn : ((s : Int) - 1 + ((1 : Nat) : Int)).toNat = s := by omega
      rw [sendFilePut, if_pos (by omega), puts_append, hn, if_pos rfl,
        puts_range _ (by simp at hlen; omega), hkey]
      simp [puts]

@[simp] theorem datagrams_sendFilePut (iobuf : Bytes) (l : SendFile) (unsent : Int) (eoi : Bool) :
    datagrams (sendFilePut iobuf l unsent eoi) = [] := by
  rw [datagrams, List.filterMap_eq_nil_iff]
  intro o ho
  unfold sendFilePut at ho
  split_ifs at ho <;> simp only [List.append_nil, List.mem_append, List.mem_map,
    List.mem_singleton, List.not_mem_nil] at ho
  all_goals first
    | (rcases ho with ⟨_, _, rfl⟩ | rfl <;> rfl)
    | (obtain ⟨_, _, rfl⟩ := ho; rfl)

theorem SendFile.iobufOffset_after_le (m : Nat) : (SendFile.after m).iobufOffset ≤ 1 := by
  rw [SendFile.after]
  split <;> simp

/-- The bytes of a full block and the one held back before it: all but the last are put out, and
the last is held back. -/
theorem take_append_held {iobuf payload : Bytes} {off : Nat} (hio : iobuf.length = IOBUF_SIZE)
    (hoff : off ≤ 1) (hlen : payload.length = TFTP_BLKSIZE) :
    (blit iobuf off payload).take (255 + off) ++
        ((blit iobuf off payload).set 0 ((blit iobuf off payload).getD (255 + off) 0)).take 1
      = iobuf.take off ++ payload := by
  have h257 : IOBUF_SIZE = 257 := rfl
  have h256 : TFTP_BLKSIZE = 256 := rfl
  have hmem : (blit iobuf off payload).length = 257 := by
    rw [blit_length (by omega)]
    omega
  have hside := take_blit_add payload (show off ≤ iobuf.length by omega)
  have hheld := take_set_succ (show 0 < (blit iobuf off payload).length by omega)
    ((blit iobuf off payload).getD (255 + off) 0)
  rw [Nat.zero_add, List.take_zero, List.nil_append] at hheld
  rw [hheld, ← hside, hlen, h256, show off + 256 = 255 + off + 1 by omega, List.take_add_one,
    List.getD_eq_getElem?_getD, List.getElem?_eq_getElem (show 255 + off < _ by omega)]
  rfl

/-! ## A turn of `send_file` -/

/-- `send_file` has been given the first `m` blocks of `d`. -/
structure Receiving (d : Bytes) (m : Nat) (g : Globals) (l : SendFile) : Prop where
  request : g.tftp.requestInProgress = .get
  error : g.tftp.error = false
  iobuf : g.iobuf.length = IOBUF_SIZE
  locals : l = .after m
  full : m ≤ d.length / 256
  bound : m < 65536
  endOfData : g.tftp.endOfData = true → m = 65535
  lastblk : g.tftp.lastblk ≤ m ∨ m = 0 ∧ g.tftp.lastblk = 65535
  lastgot : g.tftp.lastgot = m
  blknum : m ≠ 0 → g.tftp.blknum ≤ m
  dataAvailable : m = 0 → g.tftp.dataAvailable = 0
  held : g.iobuf.take l.iobufOffset = (d.take (256 * m)).drop (256 * m - 1)

namespace Receiving

variable {d : Bytes} {m : Nat} {g : Globals} {l : SendFile} {myip : Bytes} {f : Frame}
  {sport : Nat}

/-- Nothing to fetch after a frame that brought no new block. -/
theorem getBlock_none (h : Receiving d m g l) (mem : Bytes) (at_ : Nat) :
    tftpGetBlock g.tftp mem at_ 0 = (0, mem, g.tftp, []) := by
  refine tftpGetBlock_none mem at_ ?_
  by_cases hm : m = 0
  · refine Or.inl ⟨h.dataAvailable hm, ?_⟩
    by_contra hend
    have := h.endOfData (by simpa using hend)
    omega
  · exact Or.inr ⟨by rw [h.lastgot]; exact hm, by rw [h.lastgot]; exact h.blknum hm⟩

/-- A turn whose frame leaves `send_file` with the same blocks puts nothing out. -/
theorem turn {t : Tftp} {packet : Option Frame} {out : List Output}
    (h : Receiving d m { g with tftp := t } l)
    (hprobe : ethernetProbeForPacket myip g.tftp packet = (t, out)) :
    sendFileStep myip g l packet = ({ g with tftp := t }, out, .run l) := by
  have hget := h.getBlock_none g.iobuf l.iobufOffset
  have herr : t.error = false := h.error
  have hreq : t.requestInProgress = .get := h.request
  simp only at hget
  simp [sendFileStep, hprobe, herr, hget, hreq]

/-- **A poll** that finds no frame changes nothing. -/
theorem poll (h : Receiving d m g l) : sendFileStep myip g l none = (g, [], .run l) :=
  turn (t := g.tftp) h rfl

/-- The offset of the next block in `iobuf`. -/
theorem offset_le (h : Receiving d m g l) : l.iobufOffset ≤ 1 := by
  rw [h.locals]
  exact SendFile.iobufOffset_after_le m

theorem held_length (h : Receiving d m g l) : (g.iobuf.take l.iobufOffset).length = l.iobufOffset :=
  List.length_take_of_le (by rw [h.iobuf]; exact Nat.le_trans h.offset_le (by decide))

/-- What is put out, held back and received next are consecutive pieces of `d`. -/
theorem pieces (h : Receiving d m g l) :
    d.take (256 * m - 1) ++ (g.iobuf.take l.iobufOffset ++ block 256 d m)
      = d.take (256 * (m + 1)) := by
  have hsub : d.take (256 * m - 1) = (d.take (256 * m)).take (256 * m - 1) := by
    rw [List.take_take, Nat.min_eq_left (Nat.sub_le _ _)]
  rw [h.held, ← List.append_assoc, hsub, List.take_append_drop, take_append_block]

/-! ### The turns -/

/-- **The start** of `send_file`: the request goes out, nothing has been received. -/
theorem start (d : Bytes) {g : Globals} (hreq : g.tftp.requestInProgress = .norq)
    (hname : g.filename.length ≤ NAME_LIMIT) (hiobuf : g.iobuf.length = IOBUF_SIZE) :
    ∃ g', sendFileStart g
        = (g', [.udp (requestDatagram TFTP_RRQ g.filename)], .run ⟨true, 0⟩) ∧
      Receiving d 0 g' ⟨true, 0⟩ ∧ g'.tftp.lastblk = 65535 := by
  have hsend := tftpSendRequest_eq TFTP_RRQ .get { g.tftp with
    dataAvailable := 0, endOfData := false, lastgot := 0, error := false, lastblk := 65535 }
    g.filename
  rw [if_pos ⟨hreq, hname⟩] at hsend
  have h1 := congrArg Prod.fst hsend
  have h2 := congrArg Prod.snd hsend
  refine ⟨{ g with tftp := (tftpGetFile g.tftp g.filename).2.1 }, ?_, ?_, ?_⟩
  · simp [sendFileStart, tftpGetFile, tftpSendRrq, hsend]
  · have ht : (tftpGetFile g.tftp g.filename).2.1 = _ := h1
    exact {
      request := by rw [ht]
      error := by rw [ht]
      iobuf := hiobuf
      locals := rfl
      full := Nat.zero_le _
      bound := by decide
      endOfData := by rw [ht]; exact fun h => absurd h Bool.false_ne_true
      lastblk := Or.inr ⟨rfl, by rw [ht]⟩
      lastgot := by rw [ht]
      blknum := fun h => absurd rfl h
      dataAvailable := fun _ => by rw [ht]
      held := by simp }
  · have ht : (tftpGetFile g.tftp g.filename).2.1 = _ := h1
    rw [ht]

/-- **An earlier block** changes nothing but the record of what came last. -/
theorem stale (h : Receiving d m g l) (myip : Bytes) {j : Nat} {body : Bytes}
    (hf : f.Carries sport (packetBytes TFTP_DATA j body)) (hm : m ≠ 0) (hj : j ≤ m)
    (hbody : body.length = TFTP_BLKSIZE ∨ m = 65535) :
    ∃ t, sendFileStep myip g l (some f) = ({ g with tftp := t }, [], .run l) ∧
      Receiving d m { g with tftp := t } l := by
  have hb := h.bound
  have hrecv := tftpRecvPacket_of_carries myip g.tftp hf (by decide) (by omega)
  by_cases hlast : g.tftp.lastblk = j
  · have heq : recvDatagram g.tftp sport TFTP_DATA j body
        = ({ g.tftp with blknum := j, srvport := sport }, []) := by
      simp [recvDatagram, hlast]
    have hR : Receiving d m { g with tftp := { g.tftp with blknum := j, srvport := sport } } l :=
      { h with blknum := fun _ => hj }
    exact ⟨_, turn hR (by rw [ethernetProbeForPacket, hrecv, heq]; rfl), hR⟩
  · have heq : recvDatagram g.tftp sport TFTP_DATA j body
        = (storeBlock { g.tftp with blknum := j, srvport := sport, lastblk := j } body, []) := by
      simp [recvDatagram, hlast, h.request, TFTP_DATA, TFTP_OPTACK]
    have hR : Receiving d m { g with
        tftp := storeBlock { g.tftp with blknum := j, srvport := sport, lastblk := j } body } l :=
      { h with
        blknum := fun _ => hj
        lastblk := Or.inl hj
        dataAvailable := fun h0 => absurd h0 hm
        endOfData := by
          intro hend
          rcases hbody with hb' | hb'
          · exact h.endOfData (by simpa [storeBlock, hb'] using hend)
          · exact hb' }
    exact ⟨_, turn hR (by rw [ethernetProbeForPacket, hrecv, heq]; rfl), hR⟩

/-- **The OACK** is answered with ACK 0, unless 0 was the number received last. -/
theorem oack (h : Receiving d m g l) (myip : Bytes) {body : Bytes}
    (hf : f.Carries sport (packetBytes TFTP_OPTACK 0 body)) :
    ∃ t, sendFileStep myip g l (some f) = ({ g with tftp := t },
        if g.tftp.lastblk = 0 then [] else [.udp (ackDatagram sport 0)], .run l) ∧
      Receiving d m { g with tftp := t } l ∧ t.lastblk = 0 := by
  have hrecv := tftpRecvPacket_of_carries myip g.tftp hf (by decide) (by decide)
  by_cases hlast : g.tftp.lastblk = 0
  · have heq : recvDatagram g.tftp sport TFTP_OPTACK 0 body
        = ({ g.tftp with blknum := 0, srvport := sport }, []) := by
      simp [recvDatagram, hlast]
    have hR : Receiving d m { g with tftp := { g.tftp with blknum := 0, srvport := sport } } l :=
      { h with blknum := fun _ => Nat.zero_le _ }
    rw [if_pos hlast]
    exact ⟨_, turn hR (by rw [ethernetProbeForPacket, hrecv, heq]; rfl), hR, hlast⟩
  · have heq : recvDatagram g.tftp sport TFTP_OPTACK 0 body
        = ({ g.tftp with
              blknum := 0, srvport := sport, lastblk := 0
              tftpdata := blit g.tftp.tftpdata 0 (packetBytes TFTP_ACK 0 []) },
            [ackDatagram sport 0]) := by
      simp [recvDatagram, hlast, h.request, tftpSendAck_eq]
    have hR : Receiving d m { g with
        tftp := { g.tftp with
          blknum := 0, srvport := sport, lastblk := 0
          tftpdata := blit g.tftp.tftpdata 0 (packetBytes TFTP_ACK 0 []) } } l :=
      { h with blknum := fun _ => Nat.zero_le _, lastblk := Or.inl (Nat.zero_le _) }
    rw [if_neg hlast]
    exact ⟨_, turn hR (by rw [ethernetProbeForPacket, hrecv, heq]; rfl), hR, rfl⟩

/-- The state after the next block has been stored, fetched and acknowledged. -/
theorem fetch (h : Receiving d m g l) (myip : Bytes) {body : Bytes} (hb : m + 1 < 65536)
    (hlen : body.length ≤ TFTP_BLKSIZE)
    (hf : f.Carries sport (packetBytes TFTP_DATA (m + 1) body)) :
    ∃ t t', ethernetProbeForPacket myip g.tftp (some f) = (t, []) ∧ t.error = false ∧
      tftpGetBlock t g.iobuf l.iobufOffset 0 = ((body.length : Int),
        blit g.iobuf l.iobufOffset body, t', [ackDatagram sport (m + 1)]) ∧
      t'.error = false ∧ t'.lastblk = m + 1 ∧ t'.lastgot = m + 1 ∧ t'.blknum = m + 1 ∧
      t'.endOfData = decide (body.length ≠ TFTP_BLKSIZE) ∧
      t'.requestInProgress = if body.length ≠ TFTP_BLKSIZE then .norq else .get := by
  have hrecv := tftpRecvPacket_of_carries myip g.tftp hf (by decide) hb
  have hlast : g.tftp.lastblk ≠ m + 1 := by
    rcases h.lastblk with h1 | ⟨h1, h2⟩ <;> omega
  have hend : g.tftp.endOfData = false := by
    by_contra hend
    have := h.endOfData (by simpa using hend)
    omega
  set t₁ : Tftp := { g.tftp with blknum := m + 1, srvport := sport, lastblk := m + 1 } with ht₁
  have heq : recvDatagram g.tftp sport TFTP_DATA (m + 1) body = (storeBlock t₁ body, []) := by
    simp [recvDatagram, hlast, h.request, TFTP_DATA, TFTP_OPTACK, ht₁]
  have hnew : t₁.lastgot < t₁.blknum := by
    have := h.lastgot
    simp only [ht₁]
    omega
  refine ⟨storeBlock t₁ body, _, by rw [ethernetProbeForPacket, hrecv, heq]; rfl, h.error,
    tftpGetBlock_storeBlock g.iobuf l.iobufOffset hlen hnew, h.error, rfl, rfl, rfl, ?_, ?_⟩
  · simp [storeBlock, ht₁, hend]
  · simp [storeBlock, ht₁, hend, h.request]

/-- The byte held back and a full block are put out and held back in the places of `d` they have. -/
theorem split_next (h : Receiving d m g l) (hm : m < d.length / 256) :
    d.take (256 * m - 1) ++ (blit g.iobuf l.iobufOffset (block 256 d m)).take (255 + l.iobufOffset)
        = d.take (256 * (m + 1) - 1) ∧
      ((blit g.iobuf l.iobufOffset (block 256 d m)).set 0
          ((blit g.iobuf l.iobufOffset (block 256 d m)).getD (255 + l.iobufOffset) 0)).take 1
        = (d.take (256 * (m + 1))).drop (256 * (m + 1) - 1) := by
  have hlen : (block 256 d m).length = TFTP_BLKSIZE := block_length_of_lt hm
  have hle := mul_succ_le_of_lt_div hm
  have hoff := h.offset_le
  have hio := h.iobuf
  have h257 : IOBUF_SIZE = 257 := rfl
  set mem := blit g.iobuf l.iobufOffset (block 256 d m) with hmem
  have hmemlen : mem.length = 257 := by
    rw [hmem, blit_length (by rw [hlen, hio, h257]; unfold TFTP_BLKSIZE; omega), hio, h257]
  -- both sides are the bytes of the first `m + 1` blocks, cut before the last of them
  refine List.append_inj' ?_ ?_
  · calc d.take (256 * m - 1) ++ mem.take (255 + l.iobufOffset)
          ++ (mem.set 0 (mem.getD (255 + l.iobufOffset) 0)).take 1
        = d.take (256 * m - 1) ++ (g.iobuf.take l.iobufOffset ++ block 256 d m) := by
          rw [List.append_assoc, take_append_held hio hoff hlen]
      _ = d.take (256 * (m + 1)) := h.pieces
      _ = d.take (256 * (m + 1) - 1) ++ (d.take (256 * (m + 1))).drop (256 * (m + 1) - 1) := by
          conv_lhs => rw [← List.take_append_drop (256 * (m + 1) - 1) (d.take (256 * (m + 1)))]
          rw [List.take_take, Nat.min_eq_left (Nat.sub_le _ _)]
  · rw [List.length_take, List.length_set, hmemlen, List.length_drop, List.length_take_of_le hle]
    omega

/-- **The next block**, when it is not the last: it is acknowledged, and put out but for its
last byte. -/
theorem next (h : Receiving d m g l) (myip : Bytes) (hm : m < d.length / 256) (hb : m + 1 < 65536)
    (hf : f.Carries sport (packetBytes TFTP_DATA (m + 1) (block 256 d m))) :
    ∃ g' out, sendFileStep myip g l (some f) = (g', out, .run (.after (m + 1))) ∧
      Receiving d (m + 1) g' (.after (m + 1)) ∧ datagrams out = [ackDatagram sport (m + 1)] ∧
      plain (d.take (256 * m - 1)) ++ puts out = plain (d.take (256 * (m + 1) - 1)) := by
  have hlen : (block 256 d m).length = 256 := block_length_of_lt hm
  obtain ⟨t, t', hprobe, herr, hget, herr', hlb, hlg, hbn, heod, hreq⟩ :=
    h.fetch myip hb (Nat.le_of_eq hlen) hf
  rw [hlen] at hget heod hreq
  have hreq' : t'.requestInProgress = .get := hreq
  obtain ⟨hputs, hheld⟩ := h.split_next hm
  have hoff := h.offset_le
  have hio := h.iobuf
  have h257 : IOBUF_SIZE = 257 := rfl
  set mem := blit g.iobuf l.iobufOffset (block 256 d m) with hmem
  have hmemlen : mem.length = 257 := by
    rw [hmem, blit_length (by omega), hio, h257]
  refine ⟨{ g with tftp := t', iobuf := mem.set 0 (mem.getD (255 + l.iobufOffset) 0) },
    [.udp (ackDatagram sport (m + 1))] ++ sendFilePut mem l 256 false, ?_, ?_, ?_, ?_⟩
  · simp [sendFileStep, hprobe, herr, hget, hreq', SendFile.after, TFTP_BLKSIZE]
  · exact {
      request := hreq'
      error := herr'
      iobuf := by rw [List.length_set, hmemlen, h257]
      locals := rfl
      full := hm
      bound := hb
      endOfData := by intro he; rw [heod] at he; exact absurd he (by decide)
      lastblk := Or.inl (Nat.le_of_eq hlb)
      lastgot := hlg
      blknum := fun _ => Nat.le_of_eq hbn
      dataAvailable := fun h0 => absurd h0 (Nat.succ_ne_zero m)
      held := hheld }
  · rw [datagrams_append, datagrams_udp, datagrams_sendFilePut, List.append_nil]
  · have hput : puts (sendFilePut mem l 256 false) = plain (mem.take (255 + l.iobufOffset)) := by
      rw [h.locals]
      exact puts_sendFilePut_full mem m (by omega)
    rw [puts_append, puts_udp, List.nil_append, hput, ← plain_append, hputs]

/-- **The last block**: it is acknowledged, everything is put out with EOI on the last byte,
and `send_file` returns with no request in progress. -/
theorem last (h : Receiving d m g l) (myip : Bytes) (hm : m = d.length / 256) (hb : m + 1 < 65536)
    (hd : d ≠ []) (hf : f.Carries sport (packetBytes TFTP_DATA (m + 1) (block 256 d m))) :
    ∃ g' out, sendFileStep myip g l (some f) = (g', out, .ret true) ∧
      g'.tftp.requestInProgress = .norq ∧ datagrams out = [ackDatagram sport (m + 1)] ∧
      plain (d.take (256 * m - 1)) ++ puts out = withEoi d := by
  have hlen : (block 256 d m).length = d.length % 256 := by
    rw [hm]
    exact block_length_last (by decide) d
  have hlt : (block 256 d m).length < 256 := by
    rw [hlen]
    exact Nat.mod_lt _ (by decide)
  have hshort : (block 256 d m).length ≠ TFTP_BLKSIZE := Nat.ne_of_lt hlt
  obtain ⟨t, t', hprobe, herr, hget, -, -, -, -, -, hreq⟩ :=
    h.fetch myip hb (Nat.le_of_lt hlt) hf
  rw [if_pos hshort] at hreq
  have hoff := h.offset_le
  have hio := h.iobuf
  have h257 : IOBUF_SIZE = 257 := rfl
  set mem := blit g.iobuf l.iobufOffset (block 256 d m) with hmem
  have hmemlen : mem.length = 257 := by
    rw [hmem, blit_length (by omega), hio, h257]
  have hside : mem.take (l.iobufOffset + (block 256 d m).length)
      = g.iobuf.take l.iobufOffset ++ block 256 d m :=
    take_blit_add _ (show l.iobufOffset ≤ g.iobuf.length by omega)
  have hall : d.take (256 * (m + 1)) = d := by
    rw [hm]
    exact take_blocks_all (by decide) d
  -- what is held back or received is not empty: the file is not
  have hne : g.iobuf.take l.iobufOffset ++ block 256 d m ≠ [] := by
    intro hnil
    have hz := congrArg List.length hnil
    rw [List.length_append, h.held_length, List.length_nil] at hz
    have hm0 : m = 0 := by
      by_contra hm0
      rw [h.locals, SendFile.after, if_neg hm0] at hz
      simp at hz
    have hd0 : d.length = 0 := by
      have := Nat.div_add_mod d.length 256
      omega
    exact hd (List.eq_nil_of_length_eq_zero hd0)
  have hput : puts (sendFilePut mem l (block 256 d m).length true)
      = withEoi (g.iobuf.take l.iobufOffset ++ block 256 d m) := by
    rw [← hside, Nat.add_comm, h.locals]
    refine puts_sendFilePut_last mem ?_ ?_
    · rw [← h.locals]
      omega
    · intro hm0
      have hpos : d.length ≠ 0 := fun h0 => hd (List.eq_nil_of_length_eq_zero h0)
      have := Nat.div_add_mod d.length 256
      omega
  refine ⟨{ g with tftp := t', iobuf := mem },
    [.udp (ackDatagram sport (m + 1))] ++ sendFilePut mem l (block 256 d m).length true,
    ?_, hreq, ?_, ?_⟩
  · simp [sendFileStep, hprobe, herr, hget, hreq]
  · rw [datagrams_append, datagrams_udp, datagrams_sendFilePut, List.append_nil]
  · rw [puts_append, puts_udp, List.nil_append, hput, ← withEoi_append _ hne, h.pieces, hall]

end Receiving

/-! ## After the return -/

/-- Between requests, a datagram of a finished transfer starts nothing: only an OACK is answered,
as ever. -/
theorem recvDatagram_norq {t : Tftp} (ht : t.requestInProgress = .norq) {opcode : Nat}
    (sport number : Nat) (body : Bytes) (hop : opcode ≠ TFTP_ERROR) :
    (recvDatagram t sport opcode number body).1.requestInProgress = .norq ∧
      (recvDatagram t sport opcode number body).2
        = if opcode = TFTP_OPTACK ∧ t.lastblk ≠ number then [ackDatagram sport 0] else [] := by
  by_cases hlast : t.lastblk = number
  · simp [recvDatagram, hlast, ht]
  · by_cases hoack : opcode = TFTP_OPTACK
    · simp [recvDatagram, hlast, ht, hoack, tftpSendAck_eq]
    · simp [recvDatagram, hlast, ht, hoack, hop]

/-- Nothing but ACK 0 is sent in reply to a datagram as such, and that to an OACK. -/
theorem recvDatagram_out (t : Tftp) (sport opcode number : Nat) (body : Bytes) :
    ∀ p ∈ (recvDatagram t sport opcode number body).2,
      p = ackDatagram sport 0 ∧ opcode = TFTP_OPTACK := by
  intro p hp
  simp only [recvDatagram] at hp
  split_ifs at hp <;> simp_all [tftpSendAck_eq]

end C64Iec.Client

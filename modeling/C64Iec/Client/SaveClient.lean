import C64Iec.Client.Datagram
import C64Iec.Client.LoadClient
import C64Iec.Client.Request
import C64Iec.Client.Sketch
import C64Iec.Lib.Blocks

set_option autoImplicit false

/-! # `recv_file` on the blocks of a file

`Sending d k ready g l todo` says that `recv_file` has sent the first `k` blocks of `d`, that
the C64 still has the bytes `todo` to send, and whether the last block sent has been
acknowledged (`ready`). A frame in turn can only make it ready (`Sending.recv`); then a turn
reads a byte, and a full or last block goes out as soon as the client is ready
(`Sending.block`, `Sending.byte`).
-/

namespace C64Iec.Client

open Lib

/-! ## Sending a block -/

/-- Block `n` sent to port `sport`. -/
def dataDatagram (sport n : Nat) (body : Bytes) : Datagram :=
  ⟨SRCPORT, sport, packetBytes TFTP_DATA n body⟩

theorem tftpPutBlock_wait {t : Tftp} (h : t.clearToSend = false) (buf : Bytes) (size : Nat) :
    tftpPutBlock t buf size = (false, t, []) := by
  rw [tftpPutBlock, if_pos h]

/-- A block that is sent. -/
theorem tftpPutBlock_send {t : Tftp} {buf : Bytes} {size : Nat} (h : t.clearToSend = true)
    (hdata : 4 ≤ t.tftpdata.length) (hsize : size ≤ buf.length) :
    ∃ t', tftpPutBlock t buf size
        = (true, t', [dataDatagram t.srvport (t.blknum + 1) (buf.take size)]) ∧
      t'.clearToSend = false ∧ t'.error = t.error ∧ t'.blknum = t.blknum ∧
      t'.lastblk = t.lastblk ∧ t'.srvport = t.srvport ∧ 4 ≤ t'.tftpdata.length ∧
      t'.requestInProgress = if size ≠ TFTP_BLKSIZE then .norq else t.requestInProgress := by
  set body := buf.take size with hbodydef
  have hbody : body.length = size := List.length_take_of_le hsize
  -- copying nothing leaves the packet as it is
  have hcopy : (if size > 0 then { t with clearToSend := false, tftpdata := blit t.tftpdata 4 body }
      else { t with clearToSend := false } : Tftp)
      = { t with clearToSend := false, tftpdata := blit t.tftpdata 4 body } := by
    split
    · rfl
    · have h0 : body = [] := List.eq_nil_of_length_eq_zero (by omega)
      rw [h0, blit_nil]
  have hpayload : (blit (blit t.tftpdata 4 body) 0
      (beBytes TFTP_DATA ++ beBytes (t.blknum + 1))).take (size + 4)
      = packetBytes TFTP_DATA (t.blknum + 1) body := by
    have hhead : (beBytes TFTP_DATA ++ beBytes (t.blknum + 1)).length ≤ t.tftpdata.length := hdata
    have := take_blit_header body hhead
    rwa [hbody] at this
  have hne : ¬t.clearToSend = false := by simp [h]
  rw [tftpPutBlock, if_neg hne]
  dsimp only
  rw [← hbodydef, hcopy]
  simp only [tftpSendData, sendUdp, hpayload]
  refine ⟨_, rfl, ?_⟩
  have hlen : 4 ≤ (blit (blit t.tftpdata 4 body) 0
      (beBytes TFTP_DATA ++ beBytes (t.blknum + 1))).length := by
    rw [blit_zero, List.length_append]
    exact Nat.le_add_right _ _
  by_cases hfull : size = TFTP_BLKSIZE
  · have hcond : ¬(size = 0 ∨ size ≠ TFTP_BLKSIZE) := by simp [hfull, TFTP_BLKSIZE]
    rw [if_neg hcond, if_neg (not_not.mpr hfull)]
    exact ⟨rfl, rfl, rfl, rfl, rfl, hlen, rfl⟩
  · rw [if_pos (Or.inr hfull), if_pos hfull]
    exact ⟨rfl, rfl, rfl, rfl, rfl, hlen, rfl⟩

/-! ## `recv_file` between two blocks -/

/-- Where `recv_file` is with block `k`: reading it, waiting to send it, or waiting to send the
empty block behind the last full one. -/
def RecvFile.At (d : Bytes) (k : Nat) (iobuf todo : Bytes) : RecvFile → Prop
  | .byte a => a < 256 ∧ iobuf.take a = (d.drop (256 * k)).take a ∧
      todo = d.drop (256 * k + a) ∧ todo ≠ []
  | .block a eoi => 0 < a ∧ a = (Lib.block 256 d k).length ∧ iobuf.take a = Lib.block 256 d k ∧
      todo = d.drop (256 * (k + 1)) ∧ (eoi = true ↔ todo = [])
  | .emptyBlock => 0 < k ∧ d.length = 256 * k ∧ todo = []

/-- `recv_file` has sent the first `k` blocks of `d`. -/
structure Sending (d : Bytes) (k : Nat) (ready : Bool) (g : Globals) (l : RecvFile) (todo : Bytes) :
    Prop where
  request : g.tftp.requestInProgress = .put
  error : g.tftp.error = false
  iobuf : g.iobuf.length = IOBUF_SIZE
  tftpdata : 4 ≤ g.tftp.tftpdata.length
  clearToSend : g.tftp.clearToSend = ready
  bound : k ≤ 65536
  acked : ready = true →
    k < 65536 ∧ g.tftp.blknum = k ∧ g.tftp.lastblk = k ∧ g.tftp.srvport = TFTP_PORT
  waiting : ready = false → (g.tftp.lastblk + 1) % 65536 = k % 65536
  place : l.At d k g.iobuf todo

namespace Sending

variable {d : Bytes} {k : Nat} {ready : Bool} {g : Globals} {l : RecvFile} {todo : Bytes}
  {f : Frame}

/-- **A frame in turn**, the acknowledgement of the block sent last or one that repeats the
number received last, is read: the client is ready if it was or if it is the acknowledgement. -/
theorem recv (h : Sending d k ready g l todo) (myip : Bytes) {opcode number : Nat} {body : Bytes}
    (hf : f.Carries TFTP_PORT (packetBytes opcode number body)) (hlt : number < 65536)
    (hop : opcode = TFTP_ACK ∨ opcode = TFTP_OPTACK ∧ number = 0)
    (hturn : number = g.tftp.lastblk ∨ number = k) :
    ∃ t, ethernetProbeForPacket myip g.tftp (some f) = (t, []) ∧
      Sending d k (ready || number == k) { g with tftp := t } l todo := by
  have hoplt : opcode < 65536 := by
    rcases hop with rfl | ⟨rfl, -⟩ <;> decide
  have hrecv := tftpRecvPacket_of_carries myip g.tftp hf hoplt hlt
  by_cases hlast : g.tftp.lastblk = number
  · -- a repeated number only replaces the number received last by itself
    have heq : recvDatagram g.tftp TFTP_PORT opcode number body
        = ({ g.tftp with blknum := number, srvport := TFTP_PORT }, []) := by
      simp [recvDatagram, hlast]
    have hready : (ready || number == k) = ready := by
      cases hr : ready with
      | true => rfl
      | false =>
          have hw := h.waiting hr
          have hne : number ≠ k := by
            rintro rfl
            omega
          simp [hne]
    refine ⟨_, by rw [ethernetProbeForPacket, hrecv, heq]; rfl, ?_⟩
    rw [hready]
    exact { h with
      acked := fun hr => by
        obtain ⟨hlt', -, hk', -⟩ := h.acked hr
        exact ⟨hlt', hlast ▸ hk', hk', rfl⟩ }
  · obtain rfl : number = k := hturn.resolve_left (Ne.symm hlast)
    have heq : recvDatagram g.tftp TFTP_PORT opcode number body
        = ({ g.tftp with
              blknum := number, srvport := TFTP_PORT, lastblk := number, clearToSend := true },
            []) := by
      rcases hop with rfl | ⟨rfl, rfl⟩
      · simp [recvDatagram, hlast, h.request, TFTP_ACK, TFTP_DATA, TFTP_OPTACK]
      · simp [recvDatagram, hlast, h.request, TFTP_DATA, TFTP_OPTACK]
    refine ⟨_, by rw [ethernetProbeForPacket, hrecv, heq]; rfl, ?_⟩
    rw [beq_self_eq_true, Bool.or_true]
    exact { h with
      clearToSend := rfl
      acked := fun _ => ⟨hlt, rfl, rfl, rfl⟩
      waiting := fun hr => absurd hr (by decide) }

end Sending

/-! ## Sending and reading -/

/-- What the client is after a block: between two blocks, or back in `loop` once the short block
is out, with no request in progress. -/
inductive SentBlock (d : Bytes) (k : Nat) (todo : Bytes) : Globals → Control RecvFile → Prop
  | more {g : Globals} {l : RecvFile} (h : Sending d k false g l todo) :
      SentBlock d k todo g (.run l)
  | last {g : Globals} (hk : k = d.length / 256 + 1) (hreq : g.tftp.requestInProgress = .norq) :
      SentBlock d k todo g (.ret true)

namespace Sending

variable {d : Bytes} {k : Nat} {g : Globals} {todo : Bytes}

/-- `tftp_put_block` with a block of `d`. -/
theorem putBlock {l : RecvFile} {size : Nat} (h : Sending d k true g l todo)
    (hsize : size ≤ g.iobuf.length) (hbody : g.iobuf.take size = Lib.block 256 d k) :
    ∃ t', tftpPutBlock g.tftp g.iobuf size
        = (true, t', [dataDatagram TFTP_PORT (k + 1) (Lib.block 256 d k)]) ∧
      t'.clearToSend = false ∧ t'.error = false ∧ 4 ≤ t'.tftpdata.length ∧ t'.lastblk = k ∧
      t'.requestInProgress = if size ≠ TFTP_BLKSIZE then .norq else .put := by
  obtain ⟨-, hblk, hlast, hport⟩ := h.acked rfl
  obtain ⟨t', hput, hclear, herr, -, hlast', -, hdata, hreq⟩ :=
    tftpPutBlock_send h.clearToSend h.tftpdata hsize
  rw [hbody, hblk, hport] at hput
  exact ⟨t', hput, hclear, herr.trans h.error, hdata, hlast'.trans hlast, by rw [hreq, h.request]⟩

/-- Not ready: the loop goes on waiting. -/
theorem block_wait {a : Nat} {eoi : Bool} (h : Sending d k false g (.block a eoi) todo) :
    recvFileBlock g a eoi = (g, [], .run (.block a eoi)) := by
  rw [recvFileBlock, tftpPutBlock_wait h.clearToSend]
  rfl

theorem emptyBlock_wait (h : Sending d k false g .emptyBlock todo) :
    recvFileEmptyBlock g = (g, [], .run .emptyBlock) := by
  rw [recvFileEmptyBlock, tftpPutBlock_wait h.clearToSend]
  rfl

/-- **The empty block** behind the last full one. -/
theorem emptyBlock_send (h : Sending d k true g .emptyBlock todo) :
    ∃ g' c, recvFileEmptyBlock g
        = (g', [.udp (dataDatagram TFTP_PORT (k + 1) (Lib.block 256 d k))], c) ∧
      SentBlock d (k + 1) todo g' c := by
  obtain ⟨hk, hlen, hnil⟩ := h.place
  have hblock : Lib.block 256 d k = [] := by
    rw [Lib.block, List.drop_of_length_le (Nat.le_of_eq hlen)]
    rfl
  obtain ⟨t', hput, -, -, -, -, hreq⟩ := h.putBlock (Nat.zero_le _) (by rw [hblock, List.take_zero])
  refine ⟨{ g with tftp := t' }, .ret true, ?_, .last ?_ ?_⟩
  · rw [recvFileEmptyBlock, hput]
    rfl
  · omega
  · simpa [TFTP_BLKSIZE] using hreq

/-- **A full or last block.** -/
theorem block_send {a : Nat} {eoi : Bool} (h : Sending d k true g (.block a eoi) todo) :
    ∃ g' c, recvFileBlock g a eoi
        = (g', [.udp (dataDatagram TFTP_PORT (k + 1) (Lib.block 256 d k))], c) ∧
      SentBlock d (k + 1) todo g' c := by
  obtain ⟨hpos, ha, hbody, htodo, heoi⟩ := h.place
  obtain ⟨hlt, -⟩ := h.acked rfl
  have hlen := block_length 256 d k
  have hio := h.iobuf
  have h257 : IOBUF_SIZE = 257 := rfl
  have hnil : todo = [] ↔ d.length ≤ 256 * (k + 1) := by rw [htodo, List.drop_eq_nil_iff]
  obtain ⟨t', hput, hclear, herr, hdata, hlast, hreq⟩ := h.putBlock (by omega) hbody
  by_cases hfull : a = 256
  · -- more to come: the next block, or the empty one
    have hreq' : t'.requestInProgress = .put := by
      rw [hreq]
      exact if_neg (not_not.mpr hfull)
    have hmore : ∀ {l : RecvFile}, l.At d (k + 1) g.iobuf todo →
        Sending d (k + 1) false { g with tftp := t' } l todo := fun hplace => {
      request := hreq'
      error := herr
      iobuf := hio
      tftpdata := hdata
      clearToSend := hclear
      bound := hlt
      acked := fun hr => absurd hr (by decide)
      waiting := fun _ => by rw [show ({ g with tftp := t' } : Globals).tftp.lastblk = k from hlast]
      place := hplace }
    -- EOI came with the last byte of a full block: an empty one follows
    cases heoi' : eoi with
    | true =>
        have htodo' := heoi.mp heoi'
        have hplace : RecvFile.emptyBlock.At d (k + 1) g.iobuf todo :=
          ⟨Nat.succ_pos k, by have := hnil.mp htodo'; omega, htodo'⟩
        have hwait := (hmore hplace).emptyBlock_wait
        refine ⟨{ g with tftp := t' }, .run .emptyBlock, ?_, .more (hmore hplace)⟩
        rw [recvFileBlock, hput]
        simp [hfull, hwait]
    | false =>
        have htodo' : todo ≠ [] := fun hn => by rw [heoi.mpr hn] at heoi'; cases heoi'
        refine ⟨{ g with tftp := t' }, .run (.byte 0), ?_,
          .more (hmore ⟨by decide, rfl, htodo, htodo'⟩)⟩
        rw [recvFileBlock, hput]
        simp
  · -- the short block is the last
    have heoi' : eoi = true := heoi.mpr (hnil.mpr (by omega))
    refine ⟨{ g with tftp := t' }, .ret true, ?_, .last (by omega) ?_⟩
    · rw [recvFileBlock, hput]
      simp [hfull, heoi']
    · show t'.requestInProgress = .norq
      rw [hreq]
      exact if_pos hfull

/-- **A byte** is read: the block goes on or is complete. -/
theorem byte_read {a : Nat} {ready : Bool} {b : Byte} {rest : Bytes}
    (h : Sending d k ready g (.byte a) (b :: rest)) :
    Sending d k ready { g with iobuf := g.iobuf.set a b }
      (if a + 1 = 256 ∨ rest = [] then .block (a + 1) (decide (rest = [])) else .byte (a + 1))
      rest := by
  obtain ⟨ha, hbody, htodo, -⟩ := h.place
  have hio := h.iobuf
  have h257 : IOBUF_SIZE = 257 := rfl
  have hlen : a < g.iobuf.length := by omega
  have hdrop : d.drop (256 * k + a) = b :: rest := htodo.symm
  have hrest : rest = d.drop (256 * k + (a + 1)) := by
    rw [← Nat.add_assoc, ← List.drop_drop, hdrop]
    rfl
  -- the bytes read so far are those of the block
  have htake : (g.iobuf.set a b).take (a + 1) = (d.drop (256 * k)).take (a + 1) := by
    have hb : (d.drop (256 * k))[a]? = some b := by
      rw [List.getElem?_drop, ← List.head?_drop, hdrop]
      rfl
    rw [List.take_add_one, List.take_add_one, hb, List.take_set_of_le (Nat.le_refl a), hbody,
      List.getElem?_set_self hlen]
  have hset : (g.iobuf.set a b).length = IOBUF_SIZE := by rw [List.length_set, hio]
  refine { h with iobuf := hset, place := ?_ }
  have hdl : d.length - (256 * k + a) = rest.length + 1 := by
    have := congrArg List.length hdrop
    rwa [List.length_drop, List.length_cons] at this
  split
  -- the block is full, or the file ends in it
  · rename_i hend
    have hblen : (Lib.block 256 d k).length = a + 1 := by
      rw [block_length]
      rcases hend with hend | hend
      · omega
      · rw [hend, List.length_nil] at hdl
        omega
    refine ⟨Nat.succ_pos a, hblen.symm, ?_, ?_, by simp⟩
    · have hall : (Lib.block 256 d k).take (a + 1) = Lib.block 256 d k :=
        List.take_of_length_le (Nat.le_of_eq hblen)
      rw [htake, ← hall, Lib.block, List.take_take, Nat.min_eq_left (show a + 1 ≤ 256 by omega)]
    · rcases hend with hend | hend
      · rw [hrest, hend, Nat.mul_succ]
      · rw [hend, List.length_nil] at hdl
        rw [hend, List.drop_of_length_le (by omega)]
  · rename_i hmore
    exact ⟨by omega, htake, hrest, fun hn => hmore (Or.inr hn)⟩

end Sending

end C64Iec.Client

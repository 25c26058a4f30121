import C64Iec.Client.LoadClient

set_option autoImplicit false

/-! # What `send_file` puts out

`Sends` is a run of `send_file` that returns `1`, with the payloads `tftp_get_block` delivers in it
and everything it puts out, for any frames and whatever `iobuf` held before. Between blocks one byte
is held back in `iobuf[0]`; what is put out from there on is that byte and the payloads still to
come, with EOI on the last (`Sends.puts_eq`). Only for the empty file nothing is held back and
nothing received when the last block comes, and the byte that lay in `iobuf[0]` is put out.
-/

namespace C64Iec.Client

open Lib

/-! ## A run of `send_file` -/

section Runs

variable (myip : Bytes)

/-- What `tftp_get_block` returns in a turn of the inner loop. -/
def blockFetched (g : Globals) (l : SendFile) (packet : Option Frame) :
    Int × Bytes × Tftp × List Datagram :=
  tftpGetBlock (ethernetProbeForPacket myip g.tftp packet).1 g.iobuf l.iobufOffset 0

/-- In this turn `tftp_get_block` delivers `payload`: it is copied, its length returned and the
block acknowledged. -/
structure Fetches (g : Globals) (l : SendFile) (packet : Option Frame) (payload : Bytes) : Prop where
  size : (blockFetched myip g l packet).1 = payload.length
  copied : (blockFetched myip g l packet).2.1 = blit g.iobuf l.iobufOffset payload
  acked : (blockFetched myip g l packet).2.2.2 ≠ []

/-- `send_file` returns `1`, having been given these payloads and put this out. -/
inductive Sends : Globals → SendFile → List Bytes → List Output → Prop
  | idle {g g' : Globals} {l l' : SendFile} {packet : Option Frame} {payloads : List Bytes}
      {out out' : List Output} (hnone : (blockFetched myip g l packet).2.2.2 = [])
      (hstep : sendFileStep myip g l packet = (g', out, .run l'))
      (rest : Sends g' l' payloads out') : Sends g l payloads (out ++ out')
  | block {g g' : Globals} {l l' : SendFile} {packet : Option Frame} {payload : Bytes}
      {payloads : List Bytes} {out out' : List Output} (hfetch : Fetches myip g l packet payload)
      (hstep : sendFileStep myip g l packet = (g', out, .run l'))
      (rest : Sends g' l' payloads out') : Sends g l (payload :: payloads) (out ++ out')
  | last {g g' : Globals} {l : SendFile} {packet : Option Frame} {payload : Bytes}
      {out : List Output} (hfetch : Fetches myip g l packet payload)
      (hstep : sendFileStep myip g l packet = (g', out, .ret true)) : Sends g l [payload] out

end Runs

/-! ## The turns -/

section Turns

variable {myip : Bytes} {g g' : Globals} {l l' : SendFile} {packet : Option Frame}
  {payload : Bytes} {out : List Output}

@[simp] theorem puts_ethernetProbeForPacket (myip : Bytes) (t : Tftp) (packet : Option Frame) :
    puts (ethernetProbeForPacket myip t packet).2 = [] := by
  cases packet with
  | none => rfl
  | some f => exact puts_map_udp _

/-- **A turn without a block** keeps `iobuf` and puts nothing out. -/
theorem sendFileStep_idle (hnone : (blockFetched myip g l packet).2.2.2 = [])
    (hstep : sendFileStep myip g l packet = (g', out, .run l')) :
    g'.iobuf = g.iobuf ∧ l' = l ∧ puts out = [] := by
  have hget := tftpGetBlock_of_no_ack hnone
  have hturn := sendFileStep_turn myip g l packet
  have hputs := puts_ethernetProbeForPacket myip g.tftp packet
  rw [hstep] at hturn
  cases hturn with
  | idle _ hblock _ =>
      rw [hblock] at hget
      cases hget
      exact ⟨rfl, rfl, by rw [List.map_nil, List.append_nil]; exact hputs⟩
  | block _ hblock _ hunsent =>
      rw [hblock] at hget
      exact absurd (congrArg Prod.fst hget) hunsent

/-- **A turn with a block**: one byte of those in `iobuf` is kept at its start. -/
theorem sendFileStep_block (hfetch : Fetches myip g l packet payload) (hne : payload ≠ [])
    (hstep : sendFileStep myip g l packet = (g', out, .run l')) :
    g'.iobuf = (blit g.iobuf l.iobufOffset payload).set 0
        ((blit g.iobuf l.iobufOffset payload).getD (TFTP_BLKSIZE - 1 + l.iobufOffset) 0) ∧
      l' = ⟨false, 1⟩ ∧
      puts out = puts (sendFilePut (blit g.iobuf l.iobufOffset payload) l payload.length false) := by
  obtain ⟨hsize, hcopied, -⟩ := hfetch
  rw [blockFetched] at hsize hcopied
  have hturn := sendFileStep_turn myip g l packet
  have hputs := puts_ethernetProbeForPacket myip g.tftp packet
  rw [hstep] at hturn
  cases hturn with
  | idle _ hblock _ =>
      rw [hblock] at hsize
      exact absurd hsize.symm (by simpa using hne)
  | block _ hblock _ _ =>
      rw [hblock] at hsize hcopied
      dsimp only at hsize hcopied
      subst hsize hcopied
      exact ⟨rfl, rfl, by simp [hputs]⟩

/-- **The turn with the last block.** -/
theorem sendFileStep_last (hfetch : Fetches myip g l packet payload)
    (hstep : sendFileStep myip g l packet = (g', out, .ret true)) :
    puts out = puts (sendFilePut (blit g.iobuf l.iobufOffset payload) l payload.length true) := by
  obtain ⟨hsize, hcopied, -⟩ := hfetch
  rw [blockFetched] at hsize hcopied
  have hturn := sendFileStep_turn myip g l packet
  have hputs := puts_ethernetProbeForPacket myip g.tftp packet
  rw [hstep] at hturn
  cases hturn with
  | last _ hblock _ =>
      rw [hblock] at hsize hcopied
      dsimp only at hsize hcopied
      subst hsize hcopied
      simp [hputs]

end Turns

/-! ## The run -/

/-- The return of `send_file` takes a block. -/
theorem Sends.ne_nil {myip : Bytes} {g : Globals} {l : SendFile} {payloads : List Bytes}
    {out : List Output} (h : Sends myip g l payloads out) : payloads ≠ [] := by
  induction h with
  | idle _ _ _ ih => exact ih
  | block => exact List.cons_ne_nil _ _
  | last => exact List.cons_ne_nil _ _

/-- A turn with a full block: of the byte held back before it and its own bytes, all but the last
are put out, and the last is held back. -/
theorem sendFileStep_full {myip : Bytes} {g g' : Globals} {l l' : SendFile} {packet : Option Frame}
    {payload : Bytes} {out : List Output} {m : Nat} (hl : l = .after m)
    (hfetch : Fetches myip g l packet payload) (hlen : payload.length = TFTP_BLKSIZE)
    (hio : g.iobuf.length = IOBUF_SIZE) (hstep : sendFileStep myip g l packet = (g', out, .run l')) :
    g'.iobuf.length = IOBUF_SIZE ∧ l' = .after 1 ∧ ∃ w b, puts out = plain w ∧
      g'.iobuf.take 1 = [b] ∧ w ++ [b] = g.iobuf.take l.iobufOffset ++ payload := by
  have h257 : IOBUF_SIZE = 257 := rfl
  have h256 : TFTP_BLKSIZE = 256 := rfl
  have hoff := SendFile.iobufOffset_after_le m
  obtain ⟨hiobuf, hl', hputs⟩ :=
    sendFileStep_block hfetch (List.ne_nil_of_length_pos (by omega)) hstep
  subst hl
  have hmem : (blit g.iobuf (SendFile.after m).iobufOffset payload).length = 257 := by
    rw [blit_length (by omega)]
    omega
  have hheld := take_append_held hio hoff hlen
  rw [h256, show 256 - 1 + (SendFile.after m).iobufOffset
    = 255 + (SendFile.after m).iobufOffset from rfl] at hiobuf
  rw [← hiobuf] at hheld
  have hio' : g'.iobuf.length = IOBUF_SIZE := by rw [hiobuf, List.length_set, hmem, h257]
  obtain ⟨b, hb⟩ : ∃ b, g'.iobuf.take 1 = [b] :=
    List.length_eq_one_iff.mp (by rw [List.length_take, hio', h257]; rfl)
  refine ⟨hio', hl', _, b, ?_, hb, by rw [← hb, hheld]⟩
  rw [hputs, hlen]
  exact puts_sendFilePut_full _ m (by omega)

/-- **The output** of a run: the byte held back and the payloads, or if there is neither the byte
that is in `iobuf[0]`. -/
theorem Sends.puts_eq {myip : Bytes} {g : Globals} {l : SendFile} {payloads : List Bytes}
    {out : List Output} (h : Sends myip g l payloads out) {front : List Bytes} {last : Bytes}
    (hshape : payloads = front ++ [last]) (hfront : ∀ p ∈ front, p.length = TFTP_BLKSIZE)
    (hlast : last.length < TFTP_BLKSIZE) (hio : g.iobuf.length = IOBUF_SIZE)
    (hlocals : ∃ m, l = .after m) :
    puts out = if g.iobuf.take l.iobufOffset ++ payloads.flatten = []
      then [(g.iobuf.getD 0 0, true)]
      else withEoi (g.iobuf.take l.iobufOffset ++ payloads.flatten) := by
  have h257 : IOBUF_SIZE = 257 := rfl
  have h256 : TFTP_BLKSIZE = 256 := rfl
  -- the induction is on the run, with the payloads still to come
  induction h generalizing front with
  | idle hnone hstep rest ih =>
      obtain ⟨hiobuf, rfl, hputs⟩ := sendFileStep_idle hnone hstep
      rw [puts_append, hputs, List.nil_append, ih hshape hfront (by rw [hiobuf, hio]) hlocals,
        hiobuf]
  | @block g g' l l' packet payload payloads out out' hfetch hstep rest ih =>
      obtain ⟨m, hl⟩ := hlocals
      obtain ⟨front, rfl⟩ : ∃ front', front = payload :: front' := by
        cases front with
        | nil =>
            exact absurd (List.cons.inj hshape).2 rest.ne_nil
        | cons p front' => exact ⟨front', by rw [(List.cons.inj hshape).1]⟩
      have hrest : payloads = front ++ [last] := (List.cons.inj hshape).2
      have hlen : payload.length = TFTP_BLKSIZE := hfront payload List.mem_cons_self
      have hpayload : payload ≠ [] := List.ne_nil_of_length_pos (by omega)
      obtain ⟨hio', rfl, w, b, hput, hb, hw⟩ := sendFileStep_full hl hfetch hlen hio hstep
      have hrun := ih hrest (fun p hp => hfront p (List.mem_cons_of_mem _ hp)) hio' ⟨1, rfl⟩
      have hone : (SendFile.after 1).iobufOffset = 1 := rfl
      -- a byte is held back, so what follows ends with EOI
      rw [hone, hb, if_neg (by simp)] at hrun
      rw [puts_append, hput, hrun, ← withEoi_append _ (by simp), ← List.append_assoc, hw,
        List.append_assoc, ← List.flatten_cons, if_neg (by simp [hpayload])]
  | @last g g' l packet payload out hfetch hstep =>
      obtain ⟨m, rfl⟩ := hlocals
      have hoff := SendFile.iobufOffset_after_le m
      obtain rfl : payload = last := by
        cases front with
        | nil => exact (List.cons.inj hshape).1
        | cons p front => simp at hshape
      have hlen : payload.length ≤ 255 := by omega
      have hside := take_blit_add payload
        (show (SendFile.after m).iobufOffset ≤ g.iobuf.length by omega)
      have hmem : (blit g.iobuf (SendFile.after m).iobufOffset payload).length = 257 := by
        rw [blit_length (by omega)]
        omega
      rw [sendFileStep_last hfetch hstep, List.flatten_singleton]
      by_cases hnil : g.iobuf.take (SendFile.after m).iobufOffset ++ payload = []
      · -- nothing held back, nothing received: `iobuf[0]` is put out as it is
        rw [if_pos hnil, (List.append_eq_nil_iff.mp hnil).2, blit_nil]
        rfl
      · rw [if_neg hnil, ← hside, Nat.add_comm]
        refine puts_sendFilePut_last _ (by omega) fun hm => List.length_pos_iff.mpr fun hp => hnil ?_
        rw [hm, hp]
        rfl

/-! ## A whole file -/

/-- A call of `send_file` that returns `1`. -/
def SendsFile (myip : Bytes) (g : Globals) (payloads : List Bytes) (out : List Output) : Prop :=
  ∃ g' start l rest, sendFileStart g = (g', start, .run l) ∧ Sends myip g' l payloads rest ∧
    out = start ++ rest

/-- What the start leaves alone. -/
theorem sendFileStart_run {g g' : Globals} {start : List Output} {l : SendFile}
    (h : sendFileStart g = (g', start, .run l)) :
    g'.iobuf = g.iobuf ∧ l = .after 0 ∧ puts start = [] := by
  simp only [sendFileStart] at h
  split at h
  · cases h
    exact ⟨rfl, rfl, puts_map_udp _⟩
  · cases h

/-- **`send_file` puts out the file**, with EOI on the last byte and on no other, exactly when the
file is not empty. -/
theorem puts_sendsFile_iff {myip : Bytes} {g : Globals} {front : List Bytes} {last : Bytes}
    {out : List Output} (hio : g.iobuf.length = IOBUF_SIZE)
    (hfront : ∀ p ∈ front, p.length = TFTP_BLKSIZE) (hlast : last.length < TFTP_BLKSIZE)
    (h : SendsFile myip g (front ++ [last]) out) :
    puts out = withEoi (front ++ [last]).flatten ↔ (front ++ [last]).flatten ≠ [] := by
  obtain ⟨g', start, l, rest, hstart, hsends, rfl⟩ := h
  obtain ⟨hiobuf, rfl, hputs⟩ := sendFileStart_run hstart
  have hrun := hsends.puts_eq rfl hfront hlast (by rw [hiobuf, hio]) ⟨0, rfl⟩
  have hheld : g'.iobuf.take (SendFile.after 0).iobufOffset = [] := rfl
  rw [hheld, List.nil_append] at hrun
  rw [puts_append, hputs, List.nil_append, hrun]
  by_cases hempty : (front ++ [last]).flatten = []
  · rw [if_pos hempty, hempty]
    exact iff_of_false (List.cons_ne_nil _ _) (not_not.mpr rfl)
  · rw [if_neg hempty]
    exact iff_of_true rfl hempty

/-- The client after OPEN with the name "A". -/
def openedA : Globals := { Globals.init with iobuf := 65 :: List.replicate 256 0 }

/-- A first block that is the last. -/
def onlyBlock (body : Bytes) : Frame := .ofPayload TFTP_PORT (packetBytes TFTP_DATA 1 body)

/-- What `send_file` puts out for a file of this one block. -/
def outputFor (body : Bytes) : List Output :=
  (sendFileStart openedA).2.1 ++
    (sendFileStep [] (sendFileStart openedA).1 ⟨true, 0⟩ (some (onlyBlock body))).2.1

theorem sendsFile_empty : SendsFile [] openedA [[]] (outputFor []) := by
  have hfetch : Fetches [] (sendFileStart openedA).1 ⟨true, 0⟩ (some (onlyBlock [])) [] := by
    refine ⟨?_, ?_, ?_⟩ <;> decide +kernel
  have hret : (sendFileStep [] (sendFileStart openedA).1 ⟨true, 0⟩
      (some (onlyBlock []))).2.2 = .ret true := by decide +kernel
  exact ⟨_, _, _, _, rfl, .last hfetch (Prod.ext rfl (Prod.ext rfl hret)), rfl⟩

/-! A file of 257 bytes: its first block comes, nothing, and then the last one. -/

def fullBlock : Bytes := List.replicate 256 1

def afterFull : Globals × List Output × Control SendFile :=
  sendFileStep [] (sendFileStart openedA).1 ⟨true, 0⟩ (some (onlyBlock fullBlock))

def afterNothing : Globals × List Output × Control SendFile :=
  sendFileStep [] afterFull.1 ⟨false, 1⟩ none

def afterSecond : Globals × List Output × Control SendFile :=
  sendFileStep [] afterNothing.1 ⟨false, 1⟩
    (some (.ofPayload TFTP_PORT (packetBytes TFTP_DATA 2 [66])))

theorem sendsFile_twoBlocks : SendsFile [] openedA ([fullBlock] ++ [[66]])
    ((sendFileStart openedA).2.1 ++ (afterFull.2.1 ++ (afterNothing.2.1 ++ afterSecond.2.1))) := by
  have hfull : Fetches [] (sendFileStart openedA).1 ⟨true, 0⟩ (some (onlyBlock fullBlock))
      fullBlock := by
    refine ⟨?_, ?_, ?_⟩ <;> decide +kernel
  have hlast : Fetches [] afterNothing.1 ⟨false, 1⟩
      (some (.ofPayload TFTP_PORT (packetBytes TFTP_DATA 2 [66]))) [66] := by
    refine ⟨?_, ?_, ?_⟩ <;> decide +kernel
  have hrun : afterFull.2.2 = .run ⟨false, 1⟩ := by decide +kernel
  have hidle : afterNothing.2.2 = .run ⟨false, 1⟩ := by decide +kernel
  have hret : afterSecond.2.2 = .ret true := by decide +kernel
  have hnone : (blockFetched [] afterFull.1 ⟨false, 1⟩ none).2.2.2 = [] := by decide +kernel
  have hsplit : ∀ (r : Globals × List Output × Control SendFile) (c : Control SendFile),
      r.2.2 = c → r = (r.1, r.2.1, c) := by
    rintro r c rfl
    rfl
  have hsends : Sends [] (sendFileStart openedA).1 ⟨true, 0⟩ [fullBlock, [66]]
      (afterFull.2.1 ++ (afterNothing.2.1 ++ afterSecond.2.1)) :=
    .block hfull (hsplit afterFull _ hrun) (.idle hnone (hsplit afterNothing _ hidle)
      (.last hlast (hsplit afterSecond _ hret)))
  exact ⟨_, _, _, _, rfl, hsends, rfl⟩

/-- The byte that is held back goes out before the last block. -/
theorem puts_sendsFile_twoBlocks :
    puts ((sendFileStart openedA).2.1 ++
        (afterFull.2.1 ++ (afterNothing.2.1 ++ afterSecond.2.1)))
      = withEoi ([fullBlock] ++ [[66]]).flatten ↔ ([fullBlock] ++ [[66]]).flatten ≠ [] := by
  have hfront : ∀ p ∈ [fullBlock], p.length = TFTP_BLKSIZE := by
    intro p hp
    rw [List.mem_singleton.mp hp]
    exact List.length_replicate
  exact puts_sendsFile_iff (g := openedA) (by decide +kernel) hfront (by decide)
    sendsFile_twoBlocks

/-- For the empty file the first byte of the name is put out. -/
theorem puts_sendsFile_empty :
    SendsFile [] openedA [[]] (outputFor []) ∧ puts (outputFor []) = [(65, true)] ∧
      puts (outputFor []) ≠ withEoi ([[]] : List Bytes).flatten := by
  have hputs : puts (outputFor []) = [(65, true)] := by decide +kernel
  refine ⟨sendsFile_empty, hputs, ?_⟩
  rw [hputs]
  exact List.cons_ne_nil _ _

end C64Iec.Client

import C64Iec.Client.LoadClient
import C64Iec.Lib.Runs

set_option autoImplicit false

/-! # Blocks under their own numbers

A GET as a run of calls of `tftp_recv_packet` and `tftp_get_block`, in any order and on any
datagrams. `Delivers` says that a call which copies data copies the payload of a DATA datagram,
acknowledges the number of that datagram, and that the number is greater than all delivered before.

The number is a global that every datagram overwrites, and the ACK is built in the buffer the
payload waits in. So the property holds of the runs in which `tftp_get_block` finds the number and
the payload of one datagram (`FindsBlock`), and `Reception.delivers` proves it of these; a
datagram that is no DATA, after a block that has been delivered, makes it fail (`ackAfterBlock`).
-/

namespace C64Iec.Client

open Lib

/-! ## A GET as a run -/

/-- A datagram for the client's port, with at most a block behind the number. -/
structure Packet where
  frame : Frame
  sport : Nat
  opcode : Nat
  number : Nat
  body : Bytes
  carries : frame.Carries sport (packetBytes opcode number body)
  opcode_lt : opcode < 65536
  number_lt : number < 65536
  body_le : body.length ≤ TFTP_BLKSIZE

/-- A call of `tftp_recv_packet`, or of `tftp_get_block` for position `at_` of `mem`. -/
inductive Call where
  | recvPacket (p : Packet)
  | getBlock (mem : Bytes) (at_ : Nat)

/-- The client and the history of the GET: the DATA datagrams received, by number and payload; the
number of the one whose payload `tftpdata` holds, until an ACK is built there; and the numbers
acknowledged by the calls that copied data. -/
structure Reception where
  t : Tftp
  received : List (Nat × Bytes)
  held : Option Nat
  delivered : List Nat

/-- After `tftp_get_file`, whatever came before. -/
def Reception.start (t : Tftp) (filename : Bytes) : Reception :=
  ⟨(tftpGetFile t filename).2.1, [], none, []⟩

/-- The payload of the datagram is copied to `tftpdata`. -/
def Tftp.Stores (t : Tftp) (p : Packet) : Prop :=
  t.lastblk ≠ p.number ∧ p.opcode = TFTP_DATA ∧ t.requestInProgress = .get

instance (t : Tftp) (p : Packet) : Decidable (t.Stores p) := inferInstanceAs (Decidable (_ ∧ _))

def Reception.step (myip : Bytes) (r : Reception) : Call → Reception
  | .recvPacket p =>
      let (t, out) := tftpRecvPacket myip r.t p.frame
      { r with
        t := t
        received := if p.opcode = TFTP_DATA then (p.number, p.body) :: r.received else r.received
        held := if r.t.Stores p then some p.number else if out = [] then r.held else none }
  | .getBlock mem at_ =>
      let (size, _, t, out) := tftpGetBlock r.t mem at_ 0
      { r with
        t := t
        held := if out = [] then r.held else none
        delivered :=
          if size = 0 then r.delivered
          else out.map (fun d => packetNumber d.payload) ++ r.delivered }

/-- A call that copies data copies the payload of a DATA datagram and acknowledges the number of
that datagram, which is greater than the numbers delivered before: so it is none of the datagrams
delivered before either. -/
def Delivers (r : Reception) : Call → Prop
  | .recvPacket _ => True
  | .getBlock mem at_ =>
      (tftpGetBlock r.t mem at_ 0).1 ≠ 0 → ∃ number body, (number, body) ∈ r.received ∧
        (tftpGetBlock r.t mem at_ 0).2.1 = blit mem at_ body ∧
        (∃ port, (tftpGetBlock r.t mem at_ 0).2.2.2 = [ackDatagram port number]) ∧
        ∀ m ∈ r.delivered, m < number

/-- `tftp_get_block` finds nothing to copy, or the block in `tftpdata` is the one whose number came
last; a block with number 0 it finds only before all others. -/
def FindsBlock (r : Reception) : Call → Prop
  | .recvPacket _ => True
  | .getBlock _ _ =>
      r.t.dataAvailable = 0 ∨ r.t.lastgot ≠ 0 ∧ r.t.blknum ≤ r.t.lastgot ∨
        r.held = some r.t.blknum ∧ (r.t.blknum ≠ 0 ∨ r.delivered = [])

/-! ## What a call does -/

/-- A datagram that is not stored leaves the data, or has an ACK built over it. -/
theorem recvDatagram_of_not_stores {t : Tftp} {p : Packet} (h : ¬t.Stores p) :
    (recvDatagram t p.sport p.opcode p.number p.body).1.dataAvailable = t.dataAvailable ∧
      (recvDatagram t p.sport p.opcode p.number p.body).1.lastgot = t.lastgot ∧
      ((recvDatagram t p.sport p.opcode p.number p.body).2 = [] →
        (recvDatagram t p.sport p.opcode p.number p.body).1.tftpdata = t.tftpdata) := by
  rw [recvDatagram]
  dsimp only
  split
  · exact ⟨rfl, rfl, fun _ => rfl⟩
  · rename_i hnew
    split
    · rw [tftpSendAck_eq]
      exact ⟨rfl, rfl, fun hnil => absurd hnil (List.cons_ne_nil _ _)⟩
    · split
      · rename_i hdata
        exact absurd ⟨hnew, hdata⟩ h
      · split
        · split <;> exact ⟨rfl, rfl, fun _ => rfl⟩
        · split <;> exact ⟨rfl, rfl, fun _ => rfl⟩

theorem recvDatagram_of_stores {t : Tftp} {p : Packet} (h : t.Stores p) :
    recvDatagram t p.sport p.opcode p.number p.body =
      (storeBlock { t with blknum := p.number, srvport := p.sport, lastblk := p.number } p.body,
        []) := by
  obtain ⟨hnew, hdata, hget⟩ := h
  rw [recvDatagram]
  dsimp only
  rw [if_neg hnew, if_neg fun h => absurd (hdata.symm.trans h.1) (by decide), if_pos ⟨hdata, hget⟩]

/-! ## The invariant -/

structure Reception.Sound (r : Reception) : Prop where
  /-- What is held is a datagram received, as long as it is, and its number in 16 bits. -/
  held : ∀ n, r.held = some n → n < 65536 ∧ ∃ body, (n, body) ∈ r.received ∧
    r.t.dataAvailable = body.length ∧ body.length ≤ TFTP_BLKSIZE ∧
    r.t.tftpdata.take body.length = body
  delivered : ∀ n ∈ r.delivered, n ≤ r.t.lastgot

namespace Reception.Sound

variable {r : Reception} {myip : Bytes}

theorem start (t : Tftp) (filename : Bytes) : (Reception.start t filename).Sound where
  held _ h := nomatch h
  delivered _ h := nomatch h

/-- **A datagram** keeps the invariant. -/
theorem recvPacket (hr : r.Sound) (p : Packet) : (r.step myip (.recvPacket p)).Sound := by
  have hrecv := tftpRecvPacket_of_carries myip r.t p.carries p.opcode_lt p.number_lt
  by_cases hs : r.t.Stores p
  · rw [recvDatagram_of_stores hs] at hrecv
    have hlen : p.body.length ≤ 256 := p.body_le
    simp only [Reception.step, hrecv, if_pos hs, if_pos hs.2.1]
    exact {
      held := by
        rintro n ⟨⟩
        exact ⟨p.number_lt, p.body, List.mem_cons_self, int16_of_lt (by omega), p.body_le,
          take_blit_zero _ _⟩
      delivered := hr.delivered }
  · obtain ⟨havail, hlastgot, hdata⟩ := recvDatagram_of_not_stores hs
    rw [← hrecv] at havail hlastgot hdata
    generalize hx : tftpRecvPacket myip r.t p.frame = x at havail hlastgot hdata
    simp only [Reception.step, hx, if_neg hs]
    constructor
    · intro n hn
      -- no ACK has been built: the payload is still there
      have hout : x.2 = [] := by
        by_contra hne
        simp [if_neg hne] at hn
      rw [if_pos hout] at hn
      obtain ⟨hlt, body, hmem, hlen, hle, htake⟩ := hr.held n hn
      refine ⟨hlt, body, ?_, havail.trans hlen, hle, ?_⟩
      · split
        · exact List.mem_cons_of_mem _ hmem
        · exact hmem
      · rw [hdata hout]
        exact htake
    · intro n hn
      rw [hlastgot]
      exact hr.delivered n hn

/-- **A call** that finds nothing new changes nothing; one that finds a block delivers it. -/
theorem getBlock (hr : r.Sound) {mem : Bytes} {at_ : Nat} (h : FindsBlock r (.getBlock mem at_)) :
    Delivers r (.getBlock mem at_) ∧ (r.step myip (.getBlock mem at_)).Sound := by
  rcases tftpGetBlock_cases r.t mem at_ with hget | ⟨-, hnew, hget⟩
  · simp only [Delivers, Reception.step, hget]
    exact ⟨fun hne => absurd rfl hne, hr⟩
  · have hgrows : r.t.lastgot ≤ r.t.blknum := by omega
    have hbelow : ∀ n ∈ r.delivered, n ≤ r.t.blknum := fun n hn => (hr.delivered n hn).trans hgrows
    by_cases hzero : r.t.dataAvailable = 0
    · simp only [Delivers, Reception.step, hget, hzero]
      exact ⟨fun hne => absurd rfl hne, fun _ h => (nomatch h), hbelow⟩
    · obtain ⟨hheld, hfirst⟩ : r.held = some r.t.blknum ∧ (r.t.blknum ≠ 0 ∨ r.delivered = []) := by
        rcases h with h | h | h
        · exact absurd h hzero
        · omega
        · exact h
      obtain ⟨hlt, body, hmem, hlen, hle, htake⟩ := hr.held _ hheld
      have hsize : (r.t.dataAvailable % 65536).toNat = body.length := by
        have : body.length ≤ 256 := hle
        omega
      rw [hsize, htake, if_pos hzero] at hget
      simp only [Delivers, Reception.step, hget]
      refine ⟨fun _ => ⟨r.t.blknum, body, hmem, rfl, ⟨_, rfl⟩, ?_⟩, ?_, ?_⟩
      · intro m hm
        rcases hfirst with hpos | hnil
        · have := hr.delivered m hm
          omega
        · simp [hnil] at hm
      · exact fun _ h => nomatch h
      · intro n hn
        rw [if_neg hzero] at hn
        simp only [List.map_cons, List.map_nil, List.singleton_append, List.mem_cons, ackDatagram,
          packetNumber_packetBytes, Nat.mod_eq_of_lt hlt] at hn
        exact hn.elim (fun h => h.le) (hbelow n)

end Reception.Sound

/-- **Each block is delivered once and under its own number** in every run in which each call of
`tftp_get_block` that has a block to copy finds its number in place. -/
theorem Reception.delivers (myip : Bytes) (t : Tftp) (filename : Bytes) (calls : List Call)
    (h : AllSteps (Reception.step myip) FindsBlock (.start t filename) calls) :
    AllSteps (Reception.step myip) Delivers (.start t filename) calls := by
  refine allSteps_of_invariant _ (I := Reception.Sound) ?_ calls _ (.start t filename) h
  intro r c hr hc
  cases c with
  | recvPacket p => exact ⟨trivial, hr.recvPacket p⟩
  | getBlock mem at_ => exact hr.getBlock hc

/-- A datagram from the server. -/
def Packet.fromServer (opcode number : Nat) (body : Bytes) (hop : opcode < 65536)
    (hnum : number < 65536) (hbody : body.length ≤ TFTP_BLKSIZE) : Packet where
  frame := .ofPayload TFTP_PORT (packetBytes opcode number body)
  sport := TFTP_PORT
  opcode := opcode
  number := number
  body := body
  carries := Frame.carries_ofPayload _ _ (by decide) (by
    have : body.length ≤ 256 := hbody
    rw [packetBytes_length]
    omega)
  opcode_lt := hop
  number_lt := hnum
  body_le := hbody

/-- A first block of 256 zeros. -/
def firstBlock : Packet :=
  .fromServer TFTP_DATA 1 (List.replicate 256 0) (by decide) (by decide)
    (by rw [List.length_replicate]; decide)

/-- Where it is copied to. -/
def zeros : Bytes := List.replicate IOBUF_SIZE 0

/-- The first block is received and fetched. -/
def oneBlock : List Call := [.recvPacket firstBlock, .getBlock zeros 0]

/-- The last block, of two bytes. -/
def lastBlock : Packet :=
  .fromServer TFTP_DATA 2 [1, 2] (by decide) (by decide) (by decide)

/-- The last block is received and fetched behind the byte that is held back, and comes once more. -/
def twoBlocks : List Call :=
  oneBlock ++ [.recvPacket lastBlock, .getBlock zeros 1, .recvPacket lastBlock]

theorem delivers_twoBlocks :
    AllSteps (Reception.step []) Delivers (.start .init (ascii "A")) twoBlocks :=
  Reception.delivers [] .init (ascii "A") twoBlocks
    ⟨trivial, Or.inr (Or.inr ⟨by decide +kernel, Or.inl (by decide +kernel)⟩), trivial,
      Or.inr (Or.inr ⟨by decide +kernel, Or.inl (by decide +kernel)⟩), trivial, trivial⟩

/-- After it comes an ACK. -/
def ackAfterBlock : List Call :=
  oneBlock ++ [.recvPacket (.fromServer TFTP_ACK 2 [] (by decide) (by decide) (by decide))]

/-- The data is fetched again, and acknowledged as block 2. -/
theorem not_delivers_ackAfterBlock :
    ¬AllSteps (Reception.step []) Delivers (.start .init (ascii "A"))
      (ackAfterBlock ++ [.getBlock zeros 0]) := by
  rintro ⟨-, -, -, h, -⟩
  have h : Delivers (ackAfterBlock.foldl (Reception.step []) (.start .init (ascii "A")))
    (.getBlock zeros 0) := h
  obtain ⟨number, body, hmem, -, ⟨port, hout⟩, -⟩ := h (by decide +kernel)
  have hreceived : ∀ x ∈ (ackAfterBlock.foldl (Reception.step [])
      (.start .init (ascii "A"))).received, x.1 = 1 := by decide +kernel
  have hacked : ∀ d ∈ (tftpGetBlock (ackAfterBlock.foldl (Reception.step [])
      (.start .init (ascii "A"))).t zeros 0 0).2.2.2, packetNumber d.payload = 2 := by decide +kernel
  have hnumber : number = 1 := hreceived _ hmem
  have htwo := hacked (ackDatagram port number) (by rw [hout]; exact List.mem_singleton_self _)
  rw [hnumber, ackDatagram, packetNumber_packetBytes] at htwo
  exact absurd htwo (by decide)

end C64Iec.Client

import C64Iec.Client.Sketch

set_option autoImplicit false

/-! # Transactions on the bus

A transaction begins with a byte under ATN, which says who is to listen or to talk. With
`MULTIDEVICE` the sketch is documented to be the devices 8 to 15. `Invisible` says that a history of
transactions has the same effects when those for other devices are silenced, and that each of those
is left with both lines released. The filter of `handle_atn` is never true (`notOurDevice_eq`), so
this holds only where there is nothing to silence (`invisible_iff`).
-/

namespace C64Iec.Client

open Lib

/-! ## Transactions -/

/-- A transaction: what `handle_atn` reads under ATN, the frame that arrives in this turn, and the
turns up to the next transaction. -/
structure Transaction where
  packet : Option Frame
  device : GetByte
  sec : GetByte
  data : List Input

def Transaction.turns (t : Transaction) : List Input :=
  ⟨t.packet, true, .timeout none, t.device, t.sec⟩ :: t.data

/-- LISTEN (`0x20` and the device number) or TALK (`0x40` and the number) for a device outside
8 to 15. Number 31 stands for UNLISTEN and UNTALK. -/
def isForeign (device : Byte) : Bool :=
  let n := device.toNat
  (0x20 ≤ n && n < 0x3f && !(0x28 ≤ n && n ≤ 0x2f)) ||
    (0x40 ≤ n && n < 0x5f && !(0x48 ≤ n && n ≤ 0x4f))

def Transaction.foreign (t : Transaction) : Bool :=
  match t.device with
  | .byte device _ => isForeign device
  | .timeout _ => false

/-- The turn with the bus left alone. The network is not part of the bus. -/
def Input.silent (i : Input) : Input := ⟨i.packet, false, .timeout none, .timeout none, .timeout none⟩

/-- The turns of a transaction that has been removed from the bus. -/
def Transaction.silenced (t : Transaction) : List Input :=
  if t.foreign then t.turns.map .silent else t.turns

/-! ## Lines -/

inductive Line where
  | released
  | pulled
  deriving DecidableEq, Repr

/-- The lines as the sketch drives them. -/
structure Lines where
  clock : Line
  data : Line
  deriving DecidableEq, Repr

/-- The lines once `handle_atn` has dealt with its first byte. `get_byte`, which takes every byte
under ATN for one with EOI, leaves the clock released and DATA pulled. -/
def linesAfterFirstByte (device : Byte) : Lines :=
  let mode := device.toNat &&& 0xf0
  if mode = IEC_UNLISTEN ∨ mode = IEC_UNTALK then ⟨.released, .pulled⟩
  else if (mode = IEC_LISTEN ∨ mode = IEC_TALK) ∧ notOurDevice device then ⟨.released, .released⟩
  else ⟨.released, .pulled⟩

/-! ## What can be observed -/

/-- Turns of the sketch, and what it puts out in them. -/
def runTurns (myip : Bytes) (s : Sketch) : List Input → Sketch × List Output
  | [] => (s, [])
  | i :: turns =>
      let (s, out) := s.step myip i
      let (s, out') := runTurns myip s turns
      (s, out ++ out')

/-- The content of `iobuf` at each transaction that is not foreign, and everything put out: the
datagrams and the bytes on the bus. `turns` gives the turns of a transaction. -/
def observe (myip : Bytes) (turns : Transaction → List Input) :
    Sketch → List Transaction → List Bytes × List Output
  | _, [] => ([], [])
  | s, t :: history =>
      let (s', out) := runTurns myip s (turns t)
      let (iobufs, out') := observe myip turns s' history
      (if t.foreign then iobufs else s.g.iobuf :: iobufs, out ++ out')

/-- Foreign transactions make no difference, and leave both lines released behind their first
byte. -/
structure Invisible (myip : Bytes) (history : List Transaction) : Prop where
  same : observe myip Transaction.turns .init history
    = observe myip Transaction.silenced .init history
  released : ∀ t ∈ history, ∀ device eoi, t.device = .byte device eoi → isForeign device = true →
    linesAfterFirstByte device = ⟨.released, .released⟩

/-! ## The filter -/

/-- `IEC_DEVICE < 8` and `IEC_DEVICE > 15` are both false, and so is the filter. -/
theorem notOurDevice_eq (device : Byte) : notOurDevice device = false := by
  simp [notOurDevice, IEC_DEVICE]

theorem linesAfterFirstByte_eq (device : Byte) :
    linesAfterFirstByte device = ⟨.released, .pulled⟩ := by
  simp [linesAfterFirstByte, notOurDevice_eq]

theorem Transaction.foreign_iff (t : Transaction) : t.foreign = true ↔
    ∃ device eoi, t.device = .byte device eoi ∧ isForeign device = true := by
  rw [foreign]
  cases t.device <;> simp

theorem observe_congr (myip : Bytes) {turns turns' : Transaction → List Input} :
    ∀ {history : List Transaction} (s : Sketch), (∀ t ∈ history, turns t = turns' t) →
      observe myip turns s history = observe myip turns' s history
  | [], _, _ => rfl
  | t :: history, s, h => by
      rw [observe, observe, h t List.mem_cons_self]
      simp only [observe_congr myip _ fun t' ht' => h t' (List.mem_cons_of_mem t ht')]

/-- **Traffic for other devices is invisible** only where there is none. -/
theorem invisible_iff (myip : Bytes) (history : List Transaction) :
    Invisible myip history ↔ ∀ t ∈ history, t.foreign = false := by
  constructor
  · intro h t ht
    by_contra hforeign
    obtain ⟨device, eoi, hdevice, hnum⟩ := t.foreign_iff.mp (by simpa using hforeign)
    have hreleased := h.released t ht device eoi hdevice hnum
    rw [linesAfterFirstByte_eq] at hreleased
    cases hreleased
  · intro h
    refine ⟨observe_congr myip _ fun t ht => ?_, fun t ht device eoi hdevice hnum => ?_⟩
    · rw [Transaction.silenced, h t ht]
      rfl
    · have := t.foreign_iff.mpr ⟨device, eoi, hdevice, hnum⟩
      rw [h t ht] at this
      cases this

/-- The turn that receives a byte in `handle_open`. -/
def nameByte (value : Byte) (eoi : Bool) : Input :=
  ⟨none, false, .byte value eoi, .timeout none, .timeout none⟩

/-- OPEN with the name "A" for device 8, OPEN with the name "B" for device 4, a printer, and TALK
for device 8. -/
def printing : List Transaction :=
  [⟨none, .byte 0x28 true, .byte 0xf0 true, [nameByte 65 true]⟩,
    ⟨none, .byte 0x24 true, .byte 0xf0 true, [nameByte 66 true]⟩,
    ⟨none, .byte 0x48 true, .byte 0x60 true, []⟩]

/-- The name for the printer is what the TALK finds, and requests. -/
theorem not_invisible_printing : ¬Invisible [] printing := by
  intro h
  have hname := congrArg (fun o => (o.1.getD 1 []).head?) h.same
  exact absurd hname (by decide)

end C64Iec.Client

import C64Iec.Client.Sketch
import C64Iec.Lib.Polling
import Mathlib.Data.Nat.Digits.Defs

set_option autoImplicit false

/-! # `get_byte`

The lines as the client reads them: `levels t` are the levels at the `t`-th `digitalRead`. `get_byte`
waits for CLOCK and DATA at about twenty points and gives up at any of them, with what it has stored
so far left in the output byte. `ClockedIn` describes the handshake by the times at which the lines
change, and a byte comes through exactly when it is kept to the end (`getByte_byte_iff`).
-/

namespace C64Iec.Client

open Lib

/-- The levels of the lines at one reading. -/
structure Levels where
  clock : Bool
  data : Bool
  atn : Bool
  deriving DecidableEq, Repr

def HIGH : Bool := true
def LOW : Bool := false

def TIMEOUT_COUNT : Nat := 2700

/-! ## Waiting for a line -/

section Waits

variable (levels : Nat → Levels)

/-- `wait_clock` -/
def waitClock (state : Bool) (t : Nat) : Bool × Nat :=
  pollFor (fun s => (levels s).clock) state TIMEOUT_COUNT t

/-- `wait_clock_eoi` -/
def waitClockEoi (state : Bool) (t : Nat) : Bool × Nat :=
  pollFor (fun s => (levels s).clock) state (TIMEOUT_COUNT / 100) t

/-- `wait_data` -/
def waitData (state : Bool) (t : Nat) : Bool × Nat :=
  pollFor (fun s => (levels s).data) state TIMEOUT_COUNT t

/-! ## Receiving a byte -/

/-- `*output |= digitalRead(DATA) << k`. The first bit replaces what `*output` held. -/
def putBit (k : Nat) (bit : Bool) (output : Option Byte) : Byte :=
  output.getD 0 ||| UInt8.ofNat (bit.toNat <<< k)

/-- The clock pulses of the bits `ks`: what has been stored, and whether all of them came. -/
def clockBits : List Nat → Option Byte → Nat → Option Byte × Bool
  | [], output, _ => (output, true)
  | k :: ks, output, t =>
      let (ok, t) := waitClock levels HIGH t
      if !ok then (output, false) else
      let output := some (putBit k (levels t).data output)
      let (ok, t) := waitClock levels LOW (t + 1)
      if !ok then (output, false) else clockBits ks output t

/-- `get_byte`, called at time `t`. -/
def getByte (t : Nat) (forceEoi : Bool) : GetByte :=
  let (ok, t) := waitClock levels HIGH t
  if !ok then .timeout none else
  let (ok, t) := waitData levels HIGH t
  if !ok then .timeout none else
  -- a clock that stays high is the sign of EOI
  let (low, t) := if forceEoi then (false, t) else waitClockEoi levels LOW t
  let eoi := !low
  let (ok, t) := waitClock levels LOW t
  if !ok then .timeout none else
  let (output, ok) := clockBits levels (List.range 8) none t
  if !ok then .timeout output else .byte (output.getD 0) eoi

/-! ## The handshake -/

/-- From time `t` on CLOCK goes high and low once for each bit, with DATA at the level of the bit
in the read after CLOCK has gone high. -/
def Pulses : List Bool → Nat → Prop
  | [], _ => True
  | bit :: bits, t => ∃ u w, FirstWithin (fun s => (levels s).clock) HIGH TIMEOUT_COUNT t u ∧
      (levels (u + 1)).data = bit ∧
      FirstWithin (fun s => (levels s).clock) LOW TIMEOUT_COUNT (u + 2) w ∧ Pulses bits (w + 1)

/-- The sender shows at time `t` whether the byte is the last, and this is known at time `w`. -/
def ShowsEoi (forceEoi eoi : Bool) (t w : Nat) : Prop :=
  if forceEoi then eoi = true ∧ w = t
  else if eoi then
    NoneWithin (fun s => (levels s).clock) LOW (TIMEOUT_COUNT / 100) t ∧
      w = t + TIMEOUT_COUNT / 100 + 1
  else ∃ x, FirstWithin (fun s => (levels s).clock) LOW (TIMEOUT_COUNT / 100) t x ∧ w = x + 1

/-- **The bits are clocked in completely**: CLOCK and DATA go high, the sender shows EOI or not,
CLOCK goes low, and the eight pulses follow, each change within the limit. -/
def ClockedIn (t : Nat) (forceEoi : Bool) (bits : List Bool) (eoi : Bool) : Prop :=
  bits.length = 8 ∧ ∃ u v w x,
    FirstWithin (fun s => (levels s).clock) HIGH TIMEOUT_COUNT t u ∧
    FirstWithin (fun s => (levels s).data) HIGH TIMEOUT_COUNT (u + 1) v ∧
    ShowsEoi levels forceEoi eoi (v + 1) w ∧
    FirstWithin (fun s => (levels s).clock) LOW TIMEOUT_COUNT w x ∧ Pulses levels bits (x + 1)

end Waits

variable {levels : Nat → Levels}

/-- What the bits leave in the output byte. -/
def putBits (output : Option Byte) : List (Nat × Bool) → Option Byte
  | [] => output
  | (k, bit) :: rest => putBits (some (putBit k bit output)) rest

/-- The eight bits make up a byte, the low bit first. -/
theorem putBits_range_eight {bits : List Bool} (h : bits.length = 8) :
    putBits none ((List.range 8).zip bits)
      = some (UInt8.ofNat (Nat.ofDigits 2 (bits.map Bool.toNat))) := by
  have hall : ∀ a b c d e f g h : Bool, putBits none ((List.range 8).zip [a, b, c, d, e, f, g, h])
      = some (UInt8.ofNat (Nat.ofDigits 2 ([a, b, c, d, e, f, g, h].map Bool.toNat))) := by
    decide
  match bits, h with
  | [a, b, c, d, e, f, g, h], _ => exact hall a b c d e f g h

theorem clockBits_true_iff {ks : List Nat} {output stored : Option Byte} {t : Nat} :
    clockBits levels ks output t = (stored, true) ↔
      ∃ bits, bits.length = ks.length ∧ Pulses levels bits t ∧
        stored = putBits output (ks.zip bits) := by
  induction ks generalizing output t with
  | nil =>
      rw [clockBits, Prod.mk.injEq]
      constructor
      · rintro ⟨rfl, -⟩
        exact ⟨[], rfl, trivial, rfl⟩
      · rintro ⟨bits, -, -, rfl⟩
        exact ⟨rfl, rfl⟩
  | cons k ks ih =>
      rw [clockBits]
      rcases hhigh : waitClock levels HIGH t with ⟨_ | _, t₁⟩
      · -- CLOCK does not go high
        have hnone := (pollFor_false_iff.mp hhigh).1
        apply iff_of_false
        · simp
        · rintro ⟨_ | ⟨bit, bits⟩, hlen, hpulses, -⟩
          · cases hlen
          · obtain ⟨u, w, hu, -⟩ := hpulses
            exact hu.not_none hnone
      · obtain ⟨u, hu, rfl⟩ := pollFor_true_iff.mp hhigh
        rcases hlow : waitClock levels LOW (u + 1 + 1) with ⟨_ | _, t₂⟩
        · have hnone := (pollFor_false_iff.mp hlow).1
          simp only [hlow, Bool.not_true, Bool.not_false]
          apply iff_of_false
          · simp
          · rintro ⟨_ | ⟨bit, bits⟩, hlen, hpulses, -⟩
            · cases hlen
            · obtain ⟨u', w, hu', -, hw, -⟩ := hpulses
              rw [hu'.unique hu] at hw
              exact hw.not_none hnone
        · obtain ⟨w, hw, rfl⟩ := pollFor_true_iff.mp hlow
          simp only [hlow, Bool.not_true]
          show clockBits levels ks _ (w + 1) = _ ↔ _
          rw [ih]
          constructor
          · rintro ⟨bits, hlen, hpulses, hstored⟩
            exact ⟨(levels (u + 1)).data :: bits, by rw [List.length_cons, hlen, List.length_cons],
              ⟨u, w, hu, rfl, hw, hpulses⟩, hstored⟩
          · rintro ⟨_ | ⟨bit, bits⟩, hlen, hpulses, hstored⟩
            · cases hlen
            · obtain ⟨u', w', hu', rfl, hw', hpulses⟩ := hpulses
              obtain rfl := hu'.unique hu
              obtain rfl := hw'.unique hw
              exact ⟨bits, Nat.succ.inj hlen, hpulses, hstored⟩

/-- A wait for the end of the EOI signal, and what it says about EOI. -/
theorem showsEoi_iff {forceEoi eoi : Bool} {t w : Nat} :
    ShowsEoi levels forceEoi eoi t w ↔
      (if forceEoi then (false, t) else waitClockEoi levels LOW t) = (!eoi, w) := by
  rw [ShowsEoi]
  cases forceEoi with
  | true => cases eoi <;> simp [eq_comm]
  | false =>
      cases eoi with
      | true => exact pollFor_false_iff.symm
      | false => exact pollFor_true_iff.symm

/-- **A byte comes through** exactly when its bits are clocked in completely. -/
theorem getByte_byte_iff {t : Nat} {forceEoi : Bool} {value : Byte} {eoi : Bool} :
    getByte levels t forceEoi = .byte value eoi ↔
      ∃ bits, ClockedIn levels t forceEoi bits eoi ∧
        value = UInt8.ofNat (Nat.ofDigits 2 (bits.map Bool.toNat)) := by
  constructor
  · intro h
    unfold getByte at h
    rcases hhigh : waitClock levels HIGH t with ⟨_ | _, t₁⟩
    · simp [hhigh] at h
    obtain ⟨u, hu, rfl⟩ := pollFor_true_iff.mp hhigh
    rcases hdata : waitData levels HIGH (u + 1) with ⟨_ | _, t₂⟩
    · simp [hhigh, hdata] at h
    obtain ⟨v, hv, rfl⟩ := pollFor_true_iff.mp hdata
    rcases heoi : (if forceEoi then (false, v + 1) else waitClockEoi levels LOW (v + 1))
      with ⟨low, w⟩
    rcases hlow : waitClock levels LOW w with ⟨_ | _, t₃⟩
    · simp [hhigh, hdata, heoi, hlow] at h
    obtain ⟨x, hx, rfl⟩ := pollFor_true_iff.mp hlow
    rcases hbits : clockBits levels (List.range 8) none (x + 1) with ⟨stored, _ | _⟩
    · simp [hhigh, hdata, heoi, hlow, hbits] at h
    simp only [hhigh, hdata, heoi, hlow, hbits, Bool.not_true, Bool.false_eq_true, if_false,
      GetByte.byte.injEq] at h
    obtain ⟨rfl, rfl⟩ := h
    obtain ⟨bits, hlen, hpulses, rfl⟩ := clockBits_true_iff.mp hbits
    refine ⟨bits, ⟨hlen, u, v, w, x, hu, hv, ?_, hx, hpulses⟩, ?_⟩
    · rw [showsEoi_iff, heoi, Bool.not_not]
    · rw [putBits_range_eight hlen, Option.getD_some]
  · rintro ⟨bits, ⟨hlen, u, v, w, x, hu, hv, hshows, hx, hpulses⟩, rfl⟩
    have hhigh : waitClock levels HIGH t = (true, u + 1) := pollFor_true_iff.mpr ⟨u, hu, rfl⟩
    have hdata : waitData levels HIGH (u + 1) = (true, v + 1) :=
      pollFor_true_iff.mpr ⟨v, hv, rfl⟩
    have heoi := showsEoi_iff.mp hshows
    have hlow : waitClock levels LOW w = (true, x + 1) := pollFor_true_iff.mpr ⟨x, hx, rfl⟩
    have hbits : clockBits levels (List.range 8) none (x + 1)
        = (some (UInt8.ofNat (Nat.ofDigits 2 (bits.map Bool.toNat))), true) :=
      clockBits_true_iff.mpr ⟨bits, hlen.trans List.length_range.symm, hpulses,
        (putBits_range_eight hlen).symm⟩
    unfold getByte
    simp [hhigh, hdata, heoi, hlow, hbits]

/-- The byte a call of `get_byte` has clocked in, if it has not given up. -/
def GetByte.value : GetByte → Option Byte
  | .byte value _ => some value
  | .timeout _ => none

theorem getByte_value_isSome_iff {t : Nat} {forceEoi : Bool} :
    (getByte levels t forceEoi).value.isSome = true ↔
      ∃ bits eoi, ClockedIn levels t forceEoi bits eoi := by
  constructor
  · intro h
    cases hbyte : getByte levels t forceEoi with
    | byte value eoi =>
        obtain ⟨bits, hbits, -⟩ := getByte_byte_iff.mp hbyte
        exact ⟨bits, eoi, hbits⟩
    | timeout stored =>
        rw [hbyte] at h
        cases h
  · rintro ⟨bits, eoi, hbits⟩
    rw [getByte_byte_iff.mpr ⟨bits, hbits, rfl⟩]
    rfl

end C64Iec.Client

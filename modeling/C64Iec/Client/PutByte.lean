import C64Iec.Client.GetByte

set_option autoImplicit false

/-! # `put_byte`

What `put_byte` does to the lines, for any levels it reads on DATA: `levels t` are the levels at the
`t`-th `digitalRead`, as for `get_byte`. The bits of the byte stand on DATA, the low bit first, when
CLOCK goes high, as many of them as the listener has let pass (`putByte_samples`).
-/

namespace C64Iec.Client

open Lib

/-- What `put_byte` does between its readings. -/
inductive Act where
  | pushClock
  | pullClock
  | pushData
  | pullData
  /-- `pinMode(DATA, INPUT)` -/
  | releaseData
  | delay (us : Nat)
  deriving DecidableEq, Repr

/-- How a call of `put_byte` ends: what it returns, what it has done, and the time of the next
reading. -/
structure PutByte where
  ret : Bool
  acts : List Act
  time : Nat

section Calls

variable (levels : Nat → Levels)

/-- `wait_data_inf`, which never gives up: nothing if the level has not come within the fuel. -/
def waitDataInf (state : Bool) (fuel t : Nat) : Option Nat :=
  let (ok, t) := pollFor (fun s => (levels s).data) state fuel t
  if ok then some t else none

/-- The wait for the listener up to the EOI signal: the flag, and what has been done. `active` is
what `data_active` has said. -/
def putByteReady (fuel : Nat) (active eoi : Bool) (t : Nat) : Option (Bool × List Act × Nat) :=
  if active then (waitDataInf levels HIGH fuel t).map fun t => (eoi, [.releaseData], t)
  else some (true, [], t)

/-- The listener's answer to the EOI signal. -/
def putByteEoi (flag : Bool) (t : Nat) : Bool × List Act × Nat :=
  if !flag then (true, [], t) else
  let (ok, t) := waitData levels HIGH t
  if !ok then (false, [.releaseData], t) else
  let (ok, t) := waitData levels LOW t
  (ok, [.releaseData, .releaseData], t)

/-- The turns of the loop for the bits `is`: whether they have all been clocked out. -/
def putByteBits (value : Byte) : List Nat → Nat → Bool × List Act × Nat
  | [], t => (true, [], t)
  | i :: is, t =>
      -- a listener that pulls DATA has had enough
      if (levels t).data = LOW then (false, [.delay 70], t + 1) else
      let (ok, acts, t) := putByteBits value is (t + 1)
      let bit := if value.toNat &&& (1 <<< i) ≠ 0 then Act.pushData else .pullData
      (ok, [.delay 70, bit, .pushClock, .delay 70, .pullClock, .pushData] ++ acts, t)

/-- `put_byte` from `pull_clock` on, `acts` having been done. -/
def putByteRest (value : Byte) (flag : Bool) (acts : List Act) (t : Nat) : PutByte :=
  let (ok, t) := waitData levels HIGH t
  let acts := acts ++ [.pullClock, .releaseData]
  if !ok then ⟨false, acts, t⟩ else
  let (ok, bits, t) := putByteBits levels value (List.range 8) t
  let acts := acts ++ bits
  if !ok then ⟨true, acts, t⟩ else
  let (ok, t) := waitData levels LOW t
  ⟨ok && flag, acts ++ [.delay 100, .releaseData], t⟩

/-- `put_byte`, called at time `t`. -/
def putByte (fuel t : Nat) (value : Byte) (eoi : Bool) : Option PutByte :=
  let active := decide ((levels t).data = LOW)
  match putByteReady levels fuel active eoi (t + 1) with
  | none => none
  | some (flag, ready, t) =>
      let (ok, answer, t) := putByteEoi levels flag t
      let acts := [.delay 100, .pushClock] ++ (ready ++ answer)
      if !ok then some ⟨false, acts, t⟩ else some (putByteRest levels value flag acts t)

end Calls

/-! ## The lines -/

/-- The levels the lines have when nobody else pulls them. -/
structure Wire where
  clock : Bool
  data : Bool
  deriving DecidableEq, Repr

def Wire.after (w : Wire) : Act → Wire
  | .pushClock => { w with clock := HIGH }
  | .pullClock => { w with clock := LOW }
  | .pushData => { w with data := HIGH }
  | .pullData => { w with data := LOW }
  | .releaseData => { w with data := HIGH }
  | .delay _ => w

/-- The lines between two bytes of a talker. -/
def Wire.idle : Wire := ⟨LOW, HIGH⟩

/-- The levels of DATA when CLOCK goes high. -/
def samples : Wire → List Act → List Bool
  | _, [] => []
  | w, a :: acts =>
      if w.clock = LOW ∧ (w.after a).clock = HIGH then (w.after a).data :: samples (w.after a) acts
      else samples (w.after a) acts

/-- The bits of a byte, the low bit first. -/
def bitsOf (value : Byte) : List Bool := (List.range 8).map value.toNat.testBit

theorem length_bitsOf (value : Byte) : (bitsOf value).length = 8 := by
  rw [bitsOf, List.length_map, List.length_range]

/-! ## The bits -/

theorem bit_ne_zero_iff (n i : Nat) : n &&& (1 <<< i) ≠ 0 ↔ n.testBit i = true := by
  rw [Nat.one_shiftLeft]
  constructor
  · intro h
    by_contra hbit
    apply h
    apply Nat.eq_of_testBit_eq
    intro j
    rw [Nat.testBit_and, Nat.testBit_two_pow, Nat.zero_testBit]
    by_cases hij : i = j
    · rw [← hij, Bool.eq_false_iff.mpr hbit, Bool.false_and]
    · rw [decide_eq_false hij, Bool.and_false]
  · intro h hzero
    have hbit := congrArg (Nat.testBit · i) hzero
    simp [h] at hbit

/-- What is done for the bits once they are all clocked out. -/
def bitActs (bits : List Bool) : List Act :=
  bits.flatMap fun bit =>
    [.delay 70, if bit then .pushData else .pullData, .pushClock, .delay 70, .pullClock, .pushData]

variable {levels : Nat → Levels}

/-- **The loop** clocks out the bits as long as the listener leaves DATA alone. -/
theorem putByteBits_cases (levels : Nat → Levels) (value : Byte) : ∀ (is : List Nat) (t : Nat),
    (∀ i < is.length, (levels (t + i)).data = HIGH) ∧
        putByteBits levels value is t =
          (true, bitActs (is.map value.toNat.testBit), t + is.length) ∨
      ∃ k < is.length, (∀ i < k, (levels (t + i)).data = HIGH) ∧ (levels (t + k)).data = LOW ∧
        putByteBits levels value is t =
          (false, bitActs ((is.map value.toNat.testBit).take k) ++ [.delay 70], t + k + 1)
  | [], t => Or.inl ⟨fun i hi => absurd hi (Nat.not_lt_zero i), rfl⟩
  | i :: is, t => by
      by_cases hlow : (levels t).data = LOW
      · refine Or.inr ⟨0, Nat.succ_pos _, fun i hi => absurd hi (Nat.not_lt_zero i), hlow, ?_⟩
        rw [putByteBits, if_pos hlow]
        rfl
      · have hhigh : (levels t).data = HIGH := by
          cases hdata : (levels t).data with
          | true => rfl
          | false => exact absurd hdata hlow
        -- the reading at `t` and those of the rest
        have hcons : ∀ k, (∀ j < k, (levels (t + 1 + j)).data = HIGH) →
            ∀ j < k + 1, (levels (t + j)).data = HIGH := by
          intro k hk j hj
          cases j with
          | zero => exact hhigh
          | succ j =>
              have := hk j (by omega)
              rwa [show t + 1 + j = t + (j + 1) by omega] at this
        have hbit : (if value.toNat &&& (1 <<< i) ≠ 0 then Act.pushData else .pullData)
            = if value.toNat.testBit i then .pushData else .pullData := by
          simp only [bit_ne_zero_iff]
        rcases putByteBits_cases levels value is (t + 1) with ⟨hall, heq⟩ | ⟨k, hk, hbefore, hat, heq⟩
        · refine Or.inl ⟨hcons _ hall, ?_⟩
          rw [putByteBits, if_neg hlow, heq]
          simp only [hbit, List.map_cons, List.length_cons, bitActs, List.flatMap_cons]
          rw [show t + 1 + is.length = t + (is.length + 1) by omega]
        · refine Or.inr ⟨k + 1, Nat.succ_lt_succ hk, hcons k hbefore, ?_, ?_⟩
          · rwa [show t + (k + 1) = t + 1 + k by omega]
          · rw [putByteBits, if_neg hlow, heq]
            simp only [hbit, List.map_cons, List.take_succ_cons, bitActs, List.flatMap_cons,
              List.append_assoc]
            rw [show t + 1 + k + 1 = t + (k + 1) + 1 by omega]

/-! ## A whole call -/

/-- The listener lets the byte come: what it does with DATA until the bits begin, the first of them
being waited for at time `s`. `flag` says whether an EOI signal is answered. -/
def LetsCome (levels : Nat → Levels) (t : Nat) (eoi flag : Bool) (s : Nat) : Prop :=
  ∃ limit u v w,
    (if (levels t).data = LOW then
        flag = eoi ∧ FirstWithin (fun s => (levels s).data) HIGH limit (t + 1) u
      else flag = true ∧ u = t) ∧
    (if flag then ∃ x, FirstWithin (fun s => (levels s).data) HIGH TIMEOUT_COUNT (u + 1) x ∧
        FirstWithin (fun s => (levels s).data) LOW TIMEOUT_COUNT (x + 1) v
      else v = u) ∧
    FirstWithin (fun s => (levels s).data) HIGH TIMEOUT_COUNT (v + 1) w ∧ s = w + 1

/-- What is done in a call that gets as far as the bits. -/
def talkActs (ready bits : List Act) : List Act :=
  .delay 100 :: .pushClock :: (ready ++ .pullClock :: .releaseData :: bits)

theorem talkActs_append (ready bits last : List Act) :
    talkActs ready bits ++ last = talkActs ready (bits ++ last) := by
  simp [talkActs]

/-- How a call of `put_byte` can end: the byte is not let come; it is, and some of its bits are
clocked out; or all of them, and the listener answers or not. -/
inductive PutByteEnds (levels : Nat → Levels) (t : Nat) (value : Byte) (eoi : Bool) : PutByte → Prop
  | early {ready last : List Act} {time : Nat} (hready : ∀ a ∈ ready, a = .releaseData)
      (hlast : last = [] ∨ last = [.pullClock, .releaseData]) :
      PutByteEnds levels t value eoi ⟨false, .delay 100 :: .pushClock :: (ready ++ last), time⟩
  | stopped {ready : List Act} {k s time : Nat} {flag : Bool}
      (hready : ∀ a ∈ ready, a = .releaseData) (hcome : LetsCome levels t eoi flag s) (hk : k < 8)
      (hbefore : ∀ i < k, (levels (s + i)).data = HIGH) (hat : (levels (s + k)).data = LOW) :
      PutByteEnds levels t value eoi
        ⟨true, talkActs ready (bitActs ((bitsOf value).take k) ++ [.delay 70]), time⟩
  | sent {ready : List Act} {s time : Nat} {flag ok : Bool}
      (hready : ∀ a ∈ ready, a = .releaseData) (hcome : LetsCome levels t eoi flag s)
      (hall : ∀ i < 8, (levels (s + i)).data = HIGH)
      (hok : ok = true ↔
        ∃ x, FirstWithin (fun s => (levels s).data) LOW TIMEOUT_COUNT (s + 8) x) :
      PutByteEnds levels t value eoi
        ⟨ok && flag, talkActs ready (bitActs (bitsOf value) ++ [.delay 100, .releaseData]), time⟩

/-- What the wait for the listener says about the reading it ends with. -/
theorem putByteReady_eq_some {fuel t u' : Nat} {active eoi flag : Bool} {acts : List Act}
    (h : putByteReady levels fuel active eoi (t + 1) = some (flag, acts, u')) :
    (∀ a ∈ acts, a = .releaseData) ∧ ∃ u, u' = u + 1 ∧
      if active = true then
        flag = eoi ∧ FirstWithin (fun s => (levels s).data) HIGH fuel (t + 1) u
      else flag = true ∧ u = t := by
  unfold putByteReady waitDataInf at h
  cases active with
  | false =>
      cases h
      exact ⟨by simp, t, rfl, rfl, rfl⟩
  | true =>
      rcases hpoll : pollFor (fun s => (levels s).data) HIGH fuel (t + 1) with ⟨_ | _, v⟩
      · simp [hpoll] at h
      · obtain ⟨u, hu, rfl⟩ := pollFor_true_iff.mp hpoll
        simp only [hpoll, if_true, Option.map_some, Option.some.injEq, Prod.mk.injEq] at h
        obtain ⟨rfl, rfl, rfl⟩ := h
        exact ⟨by simp, u, rfl, rfl, hu⟩

/-- What the answer to the EOI signal says about the readings. -/
theorem putByteEoi_cases (levels : Nat → Levels) (flag : Bool) (u : Nat) :
    ∃ acts, (∀ a ∈ acts, a = Act.releaseData) ∧
      ((∃ time, putByteEoi levels flag (u + 1) = (false, acts, time)) ∨
        ∃ v, putByteEoi levels flag (u + 1) = (true, acts, v + 1) ∧
          if flag then
            ∃ x, FirstWithin (fun s => (levels s).data) HIGH TIMEOUT_COUNT (u + 1) x ∧
              FirstWithin (fun s => (levels s).data) LOW TIMEOUT_COUNT (x + 1) v
          else v = u) := by
  cases flag with
  | false => exact ⟨[], by simp, Or.inr ⟨u, rfl, rfl⟩⟩
  | true =>
      unfold putByteEoi
      rcases hhigh : waitData levels HIGH (u + 1) with ⟨_ | _, t₁⟩
      · exact ⟨[.releaseData], by simp, Or.inl ⟨t₁, rfl⟩⟩
      · obtain ⟨x, hx, rfl⟩ := pollFor_true_iff.mp hhigh
        rcases hlow : waitData levels LOW (x + 1) with ⟨_ | _, t₂⟩
        · exact ⟨[.releaseData, .releaseData], by simp, Or.inl ⟨t₂, by simp [hlow]⟩⟩
        · obtain ⟨v, hv, rfl⟩ := pollFor_true_iff.mp hlow
          exact ⟨[.releaseData, .releaseData], by simp, Or.inr ⟨v, by simp [hlow], x, hx, hv⟩⟩

/-- The rest of a call once the EOI signal has been dealt with. -/
theorem putByteRest_ends {t u v limit : Nat} {value : Byte} {eoi flag : Bool} {ready : List Act}
    (hready : ∀ a ∈ ready, a = .releaseData)
    (hu : if (levels t).data = LOW then
        flag = eoi ∧ FirstWithin (fun s => (levels s).data) HIGH limit (t + 1) u
      else flag = true ∧ u = t)
    (hv : if flag then ∃ x, FirstWithin (fun s => (levels s).data) HIGH TIMEOUT_COUNT (u + 1) x ∧
        FirstWithin (fun s => (levels s).data) LOW TIMEOUT_COUNT (x + 1) v
      else v = u) :
    PutByteEnds levels t value eoi
      (putByteRest levels value flag (.delay 100 :: .pushClock :: ready) (v + 1)) := by
  unfold putByteRest
  have hacts : ∀ bits : List Act, (.delay 100 :: .pushClock :: ready ++ [.pullClock, .releaseData])
      ++ bits = talkActs ready bits := fun bits => by simp [talkActs]
  rcases hhigh : waitData levels HIGH (v + 1) with ⟨_ | _, t₁⟩
  · exact .early hready (Or.inr rfl)
  · obtain ⟨w, hw, rfl⟩ := pollFor_true_iff.mp hhigh
    have hcome : LetsCome levels t eoi flag (w + 1) := ⟨limit, u, v, w, hu, hv, hw, rfl⟩
    rcases putByteBits_cases levels value (List.range 8) (w + 1) with
      ⟨hall, hbits⟩ | ⟨k, hk, hbefore, hat, hbits⟩
    · simp only [hbits, Bool.not_true, Bool.false_eq_true, if_false, hacts]
      rw [talkActs_append]
      refine .sent hready hcome hall ?_
      rcases hlow : waitData levels LOW (w + 1 + (List.range 8).length) with ⟨_ | _, t₂⟩
      · have hnone := (pollFor_false_iff.mp hlow).1
        refine iff_of_false Bool.false_ne_true ?_
        rintro ⟨x, hx⟩
        exact hx.not_none hnone
      · obtain ⟨x, hx, -⟩ := pollFor_true_iff.mp hlow
        exact iff_of_true rfl ⟨x, hx⟩
    · simp only [hbits, Bool.not_true, Bool.not_false, Bool.false_eq_true, if_false, if_true, hacts]
      exact .stopped hready hcome hk hbefore hat

/-- **A call of `put_byte`** ends in one of these ways. -/
theorem putByte_ends {fuel t : Nat} {value : Byte} {eoi : Bool} {r : PutByte}
    (h : putByte levels fuel t value eoi = some r) : PutByteEnds levels t value eoi r := by
  unfold putByte at h
  dsimp only at h
  split at h
  · cases h
  · rename_i flag ready t₁ hready
    obtain ⟨hwaits, u, rfl, hu⟩ := putByteReady_eq_some hready
    simp only [decide_eq_true_iff] at hu
    obtain ⟨answer, hanswer, hcases⟩ := putByteEoi_cases levels flag u
    have hboth : ∀ a ∈ ready ++ answer, a = .releaseData := by
      intro a ha
      rcases List.mem_append.mp ha with ha | ha
      · exact hwaits a ha
      · exact hanswer a ha
    rcases hcases with ⟨time, heoi⟩ | ⟨v, heoi, hv⟩
    · simp only [heoi, Bool.not_false, if_true, Option.some.injEq] at h
      subst h
      have hends : PutByteEnds levels t value eoi
          ⟨false, .delay 100 :: .pushClock :: (ready ++ answer ++ []), time⟩ :=
        .early hboth (Or.inl rfl)
      rwa [List.append_nil] at hends
    · simp only [heoi, Bool.not_true, Bool.false_eq_true, if_false, Option.some.injEq] at h
      subst h
      exact putByteRest_ends hboth hu hv

/-! ### What the bus carries -/

def Wire.afterAll (w : Wire) (acts : List Act) : Wire := acts.foldl Wire.after w

theorem Wire.afterAll_append (w : Wire) (acts acts' : List Act) :
    w.afterAll (acts ++ acts') = (w.afterAll acts).afterAll acts' := List.foldl_append

theorem samples_append (w : Wire) (acts acts' : List Act) :
    samples w (acts ++ acts') = samples w acts ++ samples (w.afterAll acts) acts' := by
  induction acts generalizing w with
  | nil => rfl
  | cons a acts ih =>
      have hafter : w.afterAll (a :: acts) = (w.after a).afterAll acts := rfl
      rw [List.cons_append, samples, samples, hafter, ih]
      split <;> rfl

/-- Only `push_clock` makes CLOCK go high. -/
theorem samples_eq_nil {acts : List Act} (h : .pushClock ∉ acts) (w : Wire) :
    samples w acts = [] := by
  induction acts generalizing w with
  | nil => rfl
  | cons a acts ih =>
      rw [List.mem_cons, not_or] at h
      rw [samples, if_neg, ih h.2]
      rintro ⟨hlow, hhigh⟩
      cases a with
      | pushClock => exact h.1 rfl
      | pullClock => exact absurd (show LOW = HIGH from hhigh) (by decide)
      | pushData => exact absurd (hlow.symm.trans hhigh) (by decide)
      | pullData => exact absurd (hlow.symm.trans hhigh) (by decide)
      | releaseData => exact absurd (hlow.symm.trans hhigh) (by decide)
      | delay us => exact absurd (hlow.symm.trans hhigh) (by decide)

/-- Each bit is on DATA when CLOCK goes high for it. -/
theorem samples_bitActs (bits : List Bool) {w : Wire} (hw : w.clock = LOW) :
    samples w (bitActs bits) = bits ∧ (w.afterAll (bitActs bits)).clock = LOW := by
  induction bits generalizing w with
  | nil => exact ⟨rfl, hw⟩
  | cons bit bits ih =>
      obtain ⟨clock, data⟩ := w
      obtain rfl : clock = LOW := hw
      obtain ⟨hbits, hclock⟩ := ih (w := ⟨LOW, HIGH⟩) rfl
      have hcons : bitActs (bit :: bits) = [.delay 70, if bit then .pushData else .pullData,
          .pushClock, .delay 70, .pullClock, .pushData] ++ bitActs bits := rfl
      have hfirst : samples ⟨LOW, data⟩ [.delay 70, if bit then .pushData else .pullData,
          .pushClock, .delay 70, .pullClock, .pushData] = [bit] := by cases bit <;> rfl
      have hafter : Wire.afterAll ⟨LOW, data⟩ [.delay 70, if bit then .pushData else .pullData,
          .pushClock, .delay 70, .pullClock, .pushData] = ⟨LOW, HIGH⟩ := by cases bit <;> rfl
      refine ⟨?_, ?_⟩
      · rw [hcons, samples_append, hfirst, hafter, hbits]
        rfl
      · rw [hcons, Wire.afterAll_append, hafter]
        exact hclock

/-- Up to the bits only the level that DATA had is on the bus. -/
theorem samples_early {ready : List Act} (h : ∀ a ∈ ready, a = .releaseData) {w : Wire}
    (hw : w.clock = LOW) {last : List Act} (hlast : .pushClock ∉ last) :
    samples w (.delay 100 :: .pushClock :: (ready ++ last)) = [w.data] := by
  obtain ⟨clock, data⟩ := w
  obtain rfl : clock = LOW := hw
  have hrest : Act.pushClock ∉ ready ++ last := by
    intro hmem
    rcases List.mem_append.mp hmem with hmem | hmem
    · cases h _ hmem
    · exact hlast hmem
  show data :: samples ⟨HIGH, data⟩ (ready ++ last) = [data]
  rw [samples_eq_nil hrest]

theorem samples_talkActs {ready : List Act} (h : ∀ a ∈ ready, a = .releaseData) {w : Wire}
    (hw : w.clock = LOW) (bits : List Act) :
    samples w (talkActs ready bits) = w.data :: samples .idle bits := by
  obtain ⟨clock, data⟩ := w
  obtain rfl : clock = LOW := hw
  have hready : Act.pushClock ∉ ready := fun hmem => by cases h _ hmem
  show data :: samples ⟨HIGH, data⟩ (ready ++ ([.pullClock, .releaseData] ++ bits)) = _
  rw [samples_append, samples_eq_nil hready, samples_append, samples_eq_nil (by decide)]
  rfl

theorem samples_bits (bits : List Bool) {last : List Act} (hlast : .pushClock ∉ last) :
    samples .idle (bitActs bits ++ last) = bits := by
  rw [samples_append, (samples_bitActs bits rfl).1, samples_eq_nil hlast, List.append_nil]

/-- **What the bus carries** is the bits of the byte, as many as have been clocked out: behind the
edge that says the talker is ready, DATA has the bits at the edges of CLOCK. -/
theorem putByte_samples {fuel t : Nat} {value : Byte} {eoi : Bool} {r : PutByte}
    (h : putByte levels fuel t value eoi = some r) {w : Wire} (hw : w.clock = LOW) :
    ∃ k ≤ 8, samples w r.acts = w.data :: (bitsOf value).take k := by
  cases putByte_ends h with
  | early hready hlast =>
      refine ⟨0, Nat.zero_le _, ?_⟩
      rw [samples_early hready hw, List.take_zero]
      rcases hlast with rfl | rfl <;> decide
  | @stopped ready k s time flag hready hcome hk hbefore hat =>
      refine ⟨k, Nat.le_of_lt hk, ?_⟩
      rw [samples_talkActs hready hw, samples_bits _ (by decide)]
  | sent hready hcome hall hok =>
      refine ⟨8, le_rfl, ?_⟩
      rw [samples_talkActs hready hw, samples_bits _ (by decide),
        List.take_of_length_le (length_bitsOf value).le]

/-- A listener that holds DATA low at first, then lets a byte come, and takes it. -/
def listening (t : Nat) : Levels := ⟨HIGH, decide (1 ≤ t ∧ t ≤ 10), HIGH⟩

/-- What `put_byte` does for it with the letter `A`. -/
def sampleSent : PutByte :=
  ⟨false, talkActs [.releaseData] (bitActs (bitsOf 65) ++ [.delay 100, .releaseData]), 12⟩

theorem putByte_listening : putByte listening 1 0 65 false = some sampleSent := rfl

theorem putByte_samples_listening :
    ∃ k ≤ 8, samples .idle sampleSent.acts = HIGH :: (bitsOf 65).take k :=
  putByte_samples putByte_listening rfl

/-! ### When the whole byte is sent -/

/-- The wait for the listener comes to an end. -/
theorem putByteReady_of_reads {limit t u : Nat} {eoi flag : Bool} (active : Bool)
    (hu : if active = true then
        flag = eoi ∧ FirstWithin (fun s => (levels s).data) HIGH limit (t + 1) u
      else flag = true ∧ u = t) :
    ∃ ready, (∀ a ∈ ready, a = .releaseData) ∧
      putByteReady levels limit active eoi (t + 1) = some (flag, ready, u + 1) := by
  unfold putByteReady waitDataInf
  cases active with
  | false =>
      obtain ⟨rfl, rfl⟩ := hu
      exact ⟨[], by simp, rfl⟩
  | true =>
      obtain ⟨rfl, hu⟩ := hu
      have hpoll : pollFor (fun s => (levels s).data) HIGH limit (t + 1) = (true, u + 1) :=
        pollFor_true_iff.mpr ⟨u, hu, rfl⟩
      exact ⟨[.releaseData], by simp, by simp [hpoll]⟩

/-- The EOI signal is answered. -/
theorem putByteEoi_of_reads {u v : Nat} {flag : Bool}
    (hv : if flag then ∃ x, FirstWithin (fun s => (levels s).data) HIGH TIMEOUT_COUNT (u + 1) x ∧
        FirstWithin (fun s => (levels s).data) LOW TIMEOUT_COUNT (x + 1) v
      else v = u) :
    ∃ answer, (∀ a ∈ answer, a = Act.releaseData) ∧
      putByteEoi levels flag (u + 1) = (true, answer, v + 1) := by
  unfold putByteEoi
  cases flag with
  | false =>
      obtain rfl := hv
      exact ⟨[], by simp, rfl⟩
  | true =>
      obtain ⟨x, hx, hv⟩ := hv
      have hhigh : waitData levels HIGH (u + 1) = (true, x + 1) := pollFor_true_iff.mpr ⟨x, hx, rfl⟩
      have hlow : waitData levels LOW (x + 1) = (true, v + 1) := pollFor_true_iff.mpr ⟨v, hv, rfl⟩
      exact ⟨[.releaseData, .releaseData], by simp, by simp [hhigh, hlow]⟩

/-- A byte that is let come, with DATA left alone, is clocked out. -/
theorem putByte_of_letsCome {t s : Nat} {eoi flag : Bool} (value : Byte)
    (hcome : LetsCome levels t eoi flag s) (hall : ∀ i < 8, (levels (s + i)).data = HIGH) :
    ∃ fuel r ready, putByte levels fuel t value eoi = some r ∧ (∀ a ∈ ready, a = .releaseData) ∧
      r.acts = talkActs ready (bitActs (bitsOf value) ++ [.delay 100, .releaseData]) := by
  obtain ⟨limit, u, v, w, hu, hv, hw, rfl⟩ := hcome
  obtain ⟨ready, hready, hreadyEq⟩ :=
    putByteReady_of_reads (decide ((levels t).data = LOW)) (by simpa using hu)
  obtain ⟨answer, hanswer, hanswerEq⟩ := putByteEoi_of_reads hv
  have hhigh : waitData levels HIGH (v + 1) = (true, w + 1) := pollFor_true_iff.mpr ⟨w, hw, rfl⟩
  have hbits : putByteBits levels value (List.range 8) (w + 1)
      = (true, bitActs (bitsOf value), w + 1 + (List.range 8).length) := by
    rcases putByteBits_cases levels value (List.range 8) (w + 1) with
      ⟨-, heq⟩ | ⟨k, hk, -, hat, -⟩
    · exact heq
    · exact absurd ((hall k hk).symm.trans hat) (by decide)
  refine ⟨limit, putByteRest levels value flag (.delay 100 :: .pushClock :: (ready ++ answer))
    (v + 1), ready ++ answer, ?_, ?_, ?_⟩
  · unfold putByte
    dsimp only
    rw [hreadyEq]
    simp only [hanswerEq, Bool.not_true, Bool.false_eq_true, if_false]
    rfl
  · intro a ha
    rcases List.mem_append.mp ha with ha | ha
    · exact hready a ha
    · exact hanswer a ha
  · unfold putByteRest
    simp only [hhigh, hbits, Bool.not_true, Bool.false_eq_true, if_false, talkActs,
      List.cons_append, List.append_assoc, List.nil_append]

/-- Eight bits on the bus are a byte that has been let come and was not stopped. -/
theorem PutByteEnds.sent_of_samples {t : Nat} {value : Byte} {eoi : Bool} {r : PutByte}
    (h : PutByteEnds levels t value eoi r) (hlen : (samples .idle r.acts).length = 9) :
    ∃ ready flag s, (∀ a ∈ ready, a = .releaseData) ∧ LetsCome levels t eoi flag s ∧
      (∀ i < 8, (levels (s + i)).data = HIGH) ∧
      r.acts = talkActs ready (bitActs (bitsOf value) ++ [.delay 100, .releaseData]) := by
  cases h with
  | early hready hlast =>
      rw [samples_early hready rfl] at hlen
      · exact absurd hlen (by decide)
      · rcases hlast with rfl | rfl <;> decide
  | @stopped ready k s time flag hready hcome hk hbefore hat =>
      rw [samples_talkActs hready rfl, samples_bits _ (by decide), List.length_cons,
        List.length_take, length_bitsOf] at hlen
      omega
  | @sent ready s time flag ok hready hcome hall hok =>
      exact ⟨ready, flag, s, hready, hcome, hall, rfl⟩

/-- **The whole byte is on the bus** exactly when the listener lets it come and then leaves DATA
alone for eight readings. -/
theorem putByte_sends_iff {t : Nat} {value : Byte} {eoi : Bool} :
    (∃ fuel r, putByte levels fuel t value eoi = some r ∧
        samples .idle r.acts = HIGH :: bitsOf value) ↔
      ∃ flag s, LetsCome levels t eoi flag s ∧ ∀ i < 8, (levels (s + i)).data = HIGH := by
  constructor
  · rintro ⟨fuel, r, h, hsamples⟩
    obtain ⟨ready, flag, s, -, hcome, hall, -⟩ := (putByte_ends h).sent_of_samples
      (by rw [hsamples, List.length_cons, length_bitsOf])
    exact ⟨flag, s, hcome, hall⟩
  · rintro ⟨flag, s, hcome, hall⟩
    obtain ⟨fuel, r, ready, h, hready, hacts⟩ := putByte_of_letsCome value hcome hall
    refine ⟨fuel, r, h, ?_⟩
    rw [hacts, samples_talkActs hready rfl, samples_bits _ (by decide)]
    rfl

end C64Iec.Client

import C64Iec.Client.PutByte
import Mathlib.Data.List.GetD

set_option autoImplicit false

/-! # `put_byte` read by `get_byte`

A listener reads the lines while `put_byte` drives them: so many times behind each of its actions,
at least four times in a delay, and not so often that it gives up (`Paced`). Read so, the lines are
`Waves` of the bits, from which `get_byte` makes the byte (`getByte_putByte`).
-/

namespace C64Iec.Client

open Lib

/-! ## Readings -/

/-- What is read when the talker does one action after the other, with so many readings behind
each. -/
def readings : Wire → List (Act × Nat) → List Wire
  | _, [] => []
  | w, (a, n) :: timed => List.replicate n (w.after a) ++ readings (w.after a) timed

/-- The readings as `get_byte` makes them; behind the last one the lines are idle. -/
def levelsOf (l : List Wire) (t : Nat) : Levels :=
  let w := l.getD t .idle
  ⟨w.clock, w.data, HIGH⟩

/-- The reading behind some others. -/
theorem getD_length_append {β : Type*} (pre rest : List β) (x z : β) :
    (pre ++ x :: rest).getD pre.length z = x := by
  rw [List.getD_append_right _ _ _ _ le_rfl, Nat.sub_self]
  rfl

/-- The first reading with a level stands behind those without it. -/
theorem firstWithin_getD {β γ : Type*} {f : β → γ} {level : γ} (pre rest : List β) {mid : List β}
    {x z : β} {limit : Nat} (hmid : ∀ y ∈ mid, f y ≠ level) (hx : f x = level)
    (hlen : mid.length ≤ limit) :
    FirstWithin (fun s => f ((pre ++ (mid ++ x :: rest)).getD s z)) level limit pre.length
      (pre.length + mid.length) where
  start := Nat.le_add_right _ _
  within := by omega
  reads := by
    show f _ = level
    rw [← List.append_assoc, ← List.length_append, getD_length_append]
    exact hx
  first := by
    intro s hs hlt
    show f _ ≠ level
    rw [List.getD_append_right _ _ _ _ hs, List.getD_append _ _ _ _ (by omega),
      List.getD_eq_getElem _ _ (by omega)]
    exact hmid _ (List.getElem_mem _)

/-! ## Waves -/

/-- CLOCK goes high and low once for each bit, the bit being on DATA in the second reading that
finds it high. -/
inductive Waves : List Bool → List Wire → Prop
  | nil (l : List Wire) : Waves [] l
  | bit {b : Bool} {bits : List Bool} {low high rest : List Wire} {first second last : Wire}
      (hlow : ∀ w ∈ low, w.clock = LOW) (hlowLength : low.length ≤ TIMEOUT_COUNT)
      (hfirst : first.clock = HIGH) (hsecond : second.data = b)
      (hhigh : ∀ w ∈ high, w.clock = HIGH) (hhighLength : high.length ≤ TIMEOUT_COUNT)
      (hlast : last.clock = LOW) (hrest : Waves bits (last :: rest)) :
      Waves (b :: bits) (low ++ first :: second :: (high ++ last :: rest))

variable {levels : Nat → Levels}

/-- The pulses may as well be waited for when some of the low readings are over. -/
theorem Pulses.later {bits : List Bool} {t t' : Nat} (h : Pulses levels bits t) (hle : t ≤ t')
    (hlow : ∀ s, t ≤ s → s < t' → (levels s).clock = LOW) : Pulses levels bits t' := by
  cases bits with
  | nil => trivial
  | cons bit bits =>
      obtain ⟨u, w, hu, hbit, hw, hrest⟩ := h
      have hstart := hu.start
      have hwithin := hu.within
      have hlate : t' ≤ u := by
        by_contra hlt
        exact absurd ((hlow u hstart (by omega)).symm.trans hu.reads) (by decide)
      exact ⟨u, w, ⟨hlate, by omega, hu.reads, fun s hs => hu.first s (by omega)⟩, hbit, hw, hrest⟩

/-- **Waves are pulses** for the listener. -/
theorem Waves.pulses {bits : List Bool} {l : List Wire} (h : Waves bits l) (pre : List Wire) :
    Pulses (levelsOf (pre ++ l)) bits pre.length := by
  induction h generalizing pre with
  | nil => trivial
  | @bit b bits low high rest first second last hlow hlowLength hfirst hsecond hhigh hhighLength
      hlast hrest ih =>
      have hu := firstWithin_getD (f := Wire.clock) (z := .idle) pre
        (second :: (high ++ last :: rest)) (fun w hmem => by rw [hlow w hmem]; decide)
        hfirst hlowLength
      have hw := firstWithin_getD (f := Wire.clock) (z := .idle) (pre ++ low ++ [first, second])
        rest (fun w hmem => by rw [hhigh w hmem]; decide) hlast hhighLength
      have hrest := ih (pre ++ low ++ [first, second] ++ high)
      -- the same readings, split at the places where CLOCK changes
      have hsecondSplit : pre ++ (low ++ first :: second :: (high ++ last :: rest))
          = (pre ++ low ++ [first]) ++ second :: (high ++ last :: rest) := by simp
      have hhighSplit : pre ++ low ++ [first, second] ++ (high ++ last :: rest)
          = pre ++ (low ++ first :: second :: (high ++ last :: rest)) := by simp
      have hlastSplit : pre ++ low ++ [first, second] ++ high ++ last :: rest
          = pre ++ (low ++ first :: second :: (high ++ last :: rest)) := by simp
      have hhighStart : (pre ++ low ++ [first, second]).length = pre.length + low.length + 2 := by
        simp
        omega
      have hlastStart : (pre ++ low ++ [first, second] ++ high).length
          = pre.length + low.length + 2 + high.length := by simp; omega
      refine ⟨pre.length + low.length, pre.length + low.length + 2 + high.length, hu, ?_, ?_, ?_⟩
      · have hat := getD_length_append (pre ++ low ++ [first]) (high ++ last :: rest) second .idle
        rw [← hsecondSplit, show (pre ++ low ++ [first]).length = pre.length + low.length + 1 by
          simp
          omega] at hat
        show Wire.data _ = b
        rw [hat, hsecond]
      · rw [hhighSplit, hhighStart] at hw
        exact hw
      · have hat := getD_length_append (pre ++ low ++ [first, second] ++ high) rest last .idle
        rw [hlastSplit, hlastStart] at hat hrest
        refine hrest.later (Nat.le_succ _) fun s hs hlt => ?_
        obtain rfl : s = pre.length + low.length + 2 + high.length := by omega
        show Wire.clock _ = LOW
        rw [hat, hlast]

/-! ## The listener -/

/-- CLOCK is high from time `m` to time `p` and then low for three readings or more, with DATA high:
the listener takes this for the beginning of a byte. -/
theorem clockedIn_of_pulses {bits : List Bool} {m p : Nat} (hlen : bits.length = 8)
    (hm : m ≤ TIMEOUT_COUNT) (hmp : m < p) (hp : p ≤ m + TIMEOUT_COUNT)
    (hlow : ∀ s < m, (levels s).clock = LOW)
    (hhigh : ∀ s, m ≤ s → s < p → (levels s).clock = HIGH)
    (hdata : ∀ s, m ≤ s → s < p + 3 → (levels s).data = HIGH)
    (hafter : ∀ s, p ≤ s → s < p + 3 → (levels s).clock = LOW) (hpulses : Pulses levels bits p) :
    ClockedIn levels 0 false bits (decide (m + 30 ≤ p)) := by
  have hne : ∀ s, m ≤ s → s < p → (levels s).clock ≠ LOW := fun s hs hlt => by
    rw [hhigh s hs hlt]
    decide
  have hstart : FirstWithin (fun s => (levels s).clock) HIGH TIMEOUT_COUNT 0 m :=
    ⟨Nat.zero_le _, by omega, hhigh m le_rfl hmp, fun s _ hlt => by rw [hlow s hlt]; decide⟩
  have hready : FirstWithin (fun s => (levels s).data) HIGH TIMEOUT_COUNT (m + 1) (m + 1) :=
    firstWithin_self _ (hdata _ (by omega) (by omega))
  unfold TIMEOUT_COUNT at hp
  by_cases heoi : m + 30 ≤ p
  · -- CLOCK stays high for too long
    refine ⟨hlen, m, m + 1, m + 30, p, hstart, hready, ?_, ?_, ?_⟩
    · rw [decide_eq_true heoi]
      exact ⟨fun s hs hle => hne s (by omega) (by unfold TIMEOUT_COUNT at hle; omega), rfl⟩
    · exact ⟨heoi, by unfold TIMEOUT_COUNT; omega, hafter p le_rfl (by omega),
        fun s hs => hne s (by omega)⟩
    · exact hpulses.later (Nat.le_succ _) fun s hs hlt => hafter s hs (by omega)
  · obtain ⟨x, hx, hxp, hxp', hfirst⟩ : ∃ x, m + 2 ≤ x ∧ p ≤ x ∧ x ≤ p + 1 ∧
        (x = p ∨ x = m + 2) := by
      rcases Nat.lt_or_ge p (m + 2) with hlt | hge
      · exact ⟨m + 2, le_rfl, by omega, by omega, Or.inr rfl⟩
      · exact ⟨p, hge, le_rfl, Nat.le_succ _, Or.inl rfl⟩
    refine ⟨hlen, m, m + 1, x + 1, x + 1, hstart, hready, ?_, ?_, ?_⟩
    · rw [decide_eq_false heoi]
      refine ⟨x, ⟨hx, by unfold TIMEOUT_COUNT; omega, hafter x hxp (by omega), fun s hs hlt => ?_⟩,
        rfl⟩
      exact hne s (by omega) (by omega)
    · exact firstWithin_self _ (hafter _ (by omega) (by omega))
    · exact hpulses.later (by omega) fun s hs hlt => hafter s hs (by omega)

/-! ## The talker's readings -/

/-- How often the listener reads behind each action. A delay of the talker is long enough for four
readings. -/
def Paced (timed : List (Act × Nat)) : Prop :=
  ∀ p ∈ timed, p.2 ≤ 600 ∧ ∀ us, p.1 = .delay us → 4 ≤ p.2

/-- The readings while the talker says that it is ready. -/
def readyReads (timed : List (Act × Nat)) : Nat :=
  ((timed.tail.takeWhile fun p => p.1 ≠ .pullClock).map Prod.snd).sum

theorem readings_append (w : Wire) (timed timed' : List (Act × Nat)) :
    readings w (timed ++ timed')
      = readings w timed ++ readings (w.afterAll (timed.map Prod.fst)) timed' := by
  induction timed generalizing w with
  | nil => rfl
  | cons p timed ih =>
      obtain ⟨a, n⟩ := p
      rw [List.cons_append, readings, readings, ih, List.append_assoc]
      rfl

/-- A line that is left alone is read the same all the time. -/
theorem readings_eq_replicate {w : Wire} {timed : List (Act × Nat)}
    (h : ∀ p ∈ timed, w.after p.1 = w) :
    readings w timed = List.replicate (timed.map Prod.snd).sum w := by
  induction timed with
  | nil => rfl
  | cons p timed ih =>
      obtain ⟨a, n⟩ := p
      have ha : w.after a = w := h (a, n) List.mem_cons_self
      rw [readings, ha, ih fun q hq => h q (List.mem_cons_of_mem _ hq), List.map_cons,
        List.sum_cons, List.replicate_add]

/-- A delay of the talker is seen. -/
theorem readings_delay {w : Wire} {us : Nat} {acts : List Act} {timed : List (Act × Nat)}
    (hacts : timed.map Prod.fst = .delay us :: acts) (hpaced : Paced timed) :
    ∃ rest, readings w timed = w :: w :: w :: w :: rest := by
  obtain ⟨⟨a, n⟩, timed', rfl, rfl, rfl⟩ := List.map_eq_cons_iff.mp hacts
  obtain ⟨-, hn⟩ := hpaced _ List.mem_cons_self
  obtain ⟨k, rfl⟩ := Nat.exists_eq_add_of_le (hn us rfl)
  refine ⟨List.replicate k w ++ readings w timed', ?_⟩
  rw [readings, Nat.add_comm 4 k]
  rfl

/-- The bits begin with a delay, and so does what follows them. -/
theorem bitActs_append_delay (bits : List Bool) (us : Nat) (acts : List Act) :
    ∃ us' acts', bitActs bits ++ .delay us :: acts = .delay us' :: acts' := by
  cases bits with
  | nil => exact ⟨us, acts, rfl⟩
  | cons bit bits => exact ⟨70, _, rfl⟩

theorem Paced.of_cons {p : Act × Nat} {timed : List (Act × Nat)} (h : Paced (p :: timed)) :
    Paced timed :=
  fun q hq => h q (List.mem_cons_of_mem _ hq)

/-- What is read for one bit: CLOCK low, high with the bit on DATA, and low. -/
theorem readings_bit (data bit : Bool) {n₄ : Nat} (h₄ : 4 ≤ n₄) (n₁ n₂ n₃ n₅ n₆ : Nat)
    (timed : List (Act × Nat)) :
    readings ⟨LOW, data⟩ ((.delay 70, n₁) :: (if bit then .pushData else .pullData, n₂) ::
        (.pushClock, n₃) :: (.delay 70, n₄) :: (.pullClock, n₅) :: (.pushData, n₆) :: timed)
      = (List.replicate n₁ ⟨LOW, data⟩ ++ List.replicate n₂ ⟨LOW, bit⟩) ++ ⟨HIGH, bit⟩ ::
        ⟨HIGH, bit⟩ :: (List.replicate (n₃ + n₄ - 2) ⟨HIGH, bit⟩ ++
          ((List.replicate n₅ ⟨LOW, bit⟩ ++ List.replicate n₆ ⟨LOW, HIGH⟩) ++
            readings ⟨LOW, HIGH⟩ timed)) := by
  have hafter : Wire.after ⟨LOW, data⟩ (if bit then .pushData else .pullData) = ⟨LOW, bit⟩ := by
    cases bit <;> rfl
  have hhigh : List.replicate n₃ (⟨HIGH, bit⟩ : Wire) ++ List.replicate n₄ ⟨HIGH, bit⟩
      = ⟨HIGH, bit⟩ :: ⟨HIGH, bit⟩ :: List.replicate (n₃ + n₄ - 2) ⟨HIGH, bit⟩ := by
    rw [← List.replicate_add, ← List.replicate_succ, ← List.replicate_succ]
    congr 1
    omega
  have hclock : Wire.after ⟨LOW, bit⟩ .pushClock = ⟨HIGH, bit⟩ := rfl
  have hdelay : Wire.after ⟨HIGH, bit⟩ (.delay 70) = ⟨HIGH, bit⟩ := rfl
  have hpull : Wire.after ⟨HIGH, bit⟩ .pullClock = ⟨LOW, bit⟩ := rfl
  have hpush : Wire.after ⟨LOW, bit⟩ .pushData = ⟨LOW, HIGH⟩ := rfl
  have hfirst : Wire.after ⟨LOW, data⟩ (.delay 70) = ⟨LOW, data⟩ := rfl
  simp only [readings, hfirst, hafter, hclock, hdelay, hpull, hpush]
  rw [← List.append_assoc (List.replicate n₃ _), hhigh]
  simp only [List.append_assoc, List.cons_append]

/-- **The bits are read as waves.** -/
theorem waves_bitActs {bits : List Bool} {us : Nat} {acts : List Act} {timed : List (Act × Nat)}
    (hacts : timed.map Prod.fst = bitActs bits ++ .delay us :: acts) (hpaced : Paced timed)
    {low : List Wire} (hlow : ∀ w ∈ low, w.clock = LOW) (hlowLength : low.length ≤ 1200) {w : Wire}
    (hw : w.clock = LOW) : Waves bits (low ++ readings w timed) := by
  induction bits generalizing timed low w with
  | nil => exact .nil _
  | cons bit bits ih =>
      obtain ⟨clock, data⟩ := w
      obtain rfl : clock = LOW := hw
      have hcons : bitActs (bit :: bits) ++ .delay us :: acts
          = .delay 70 :: (if bit then Act.pushData else .pullData) :: .pushClock :: .delay 70 ::
            .pullClock :: .pushData :: (bitActs bits ++ .delay us :: acts) := rfl
      rw [hcons] at hacts
      obtain ⟨⟨a₁, n₁⟩, timed₁, rfl, rfl, hacts₁⟩ := List.map_eq_cons_iff.mp hacts
      obtain ⟨⟨a₂, n₂⟩, timed₂, rfl, rfl, hacts₂⟩ := List.map_eq_cons_iff.mp hacts₁
      obtain ⟨⟨a₃, n₃⟩, timed₃, rfl, rfl, hacts₃⟩ := List.map_eq_cons_iff.mp hacts₂
      obtain ⟨⟨a₄, n₄⟩, timed₄, rfl, rfl, hacts₄⟩ := List.map_eq_cons_iff.mp hacts₃
      obtain ⟨⟨a₅, n₅⟩, timed₅, rfl, rfl, hacts₅⟩ := List.map_eq_cons_iff.mp hacts₄
      obtain ⟨⟨a₆, n₆⟩, timed', rfl, rfl, hacts'⟩ := List.map_eq_cons_iff.mp hacts₅
      have h₁ := hpaced (.delay 70, n₁) (by simp)
      have h₂ := hpaced (if bit then Act.pushData else .pullData, n₂) (by simp)
      have h₃ := hpaced (.pushClock, n₃) (by simp)
      have h₄ := hpaced (.delay 70, n₄) (by simp)
      have h₅ := hpaced (.pullClock, n₅) (by simp)
      have h₆ := hpaced (.pushData, n₆) (by simp)
      have hpaced' : Paced timed' := hpaced.of_cons.of_cons.of_cons.of_cons.of_cons.of_cons
      have hreadings := readings_bit data bit (h₄.2 70 rfl) n₁ n₂ n₃ n₅ n₆ timed'
      have hbehind : ∀ v ∈ List.replicate n₅ (⟨LOW, bit⟩ : Wire) ++ List.replicate n₆ ⟨LOW, HIGH⟩,
          v.clock = LOW := by
        intro v hv
        rcases List.mem_append.mp hv with hv | hv <;> rw [List.eq_of_mem_replicate hv]
      obtain ⟨us', acts', hdelay⟩ := bitActs_append_delay bits us acts
      obtain ⟨rest, hrest⟩ := readings_delay (w := ⟨LOW, HIGH⟩) (hacts'.trans hdelay) hpaced'
      have hwaves := ih hacts' hpaced' hbehind (by simp; omega) (w := ⟨LOW, HIGH⟩) rfl
      obtain ⟨last, rest', hlast, hlastLow⟩ : ∃ last rest',
          (List.replicate n₅ (⟨LOW, bit⟩ : Wire) ++ List.replicate n₆ ⟨LOW, HIGH⟩)
            ++ readings ⟨LOW, HIGH⟩ timed' = last :: rest' ∧ last.clock = LOW := by
        cases hfirst : List.replicate n₅ (⟨LOW, bit⟩ : Wire) ++ List.replicate n₆ ⟨LOW, HIGH⟩ with
        | nil => exact ⟨⟨LOW, HIGH⟩, _, hrest, rfl⟩
        | cons v vs => exact ⟨v, _, rfl, hbehind v (by rw [hfirst]; exact List.mem_cons_self)⟩
      rw [hlast] at hwaves hreadings
      rw [hreadings, ← List.append_assoc]
      refine .bit ?_ ?_ rfl rfl ?_ ?_ hlastLow hwaves
      · intro v hv
        rcases List.mem_append.mp hv with hv | hv
        · exact hlow v hv
        · rcases List.mem_append.mp hv with hv | hv <;> rw [List.eq_of_mem_replicate hv]
      · simp only [List.length_append, List.length_replicate]
        unfold TIMEOUT_COUNT
        omega
      · intro v hv
        rw [List.eq_of_mem_replicate hv]
      · rw [List.length_replicate]
        unfold TIMEOUT_COUNT
        omega

/-! ## The byte -/

/-- The low bits of a number are its rest. -/
theorem ofDigits_testBit (n k : Nat) :
    Nat.ofDigits 2 ((List.range k).map fun i => (n.testBit i).toNat) = n % 2 ^ k := by
  induction k with
  | zero => rw [Nat.pow_zero, Nat.mod_one]; rfl
  | succ k ih =>
      rw [List.range_succ, List.map_append, Nat.ofDigits_append, ih, List.length_map,
        List.length_range, List.map_singleton, Nat.ofDigits_singleton, Nat.toNat_testBit,
        Nat.mod_pow_succ]

/-- A byte is made of its bits. -/
theorem ofDigits_bitsOf (value : Byte) :
    UInt8.ofNat (Nat.ofDigits 2 ((bitsOf value).map Bool.toNat)) = value := by
  rw [bitsOf, List.map_map]
  show UInt8.ofNat (Nat.ofDigits 2 ((List.range 8).map fun i => (value.toNat.testBit i).toNat)) = _
  rw [ofDigits_testBit, Nat.mod_eq_of_lt value.toNat_lt, UInt8.ofNat_toNat]

/-- The lines as the listener finds them up to the bits: CLOCK low, high, and low again. -/
def front (low : List Wire) (n : Nat) (rest : List Wire) : List Wire :=
  low ++ (List.replicate n ⟨HIGH, HIGH⟩ ++ (List.replicate 3 Wire.idle ++ rest))

section Front

variable {low rest : List Wire} {n s : Nat}

theorem front_low (hlow : ∀ w ∈ low, w.clock = LOW) (hs : s < low.length) :
    ((front low n rest).getD s .idle).clock = LOW := by
  rw [front, List.getD_append _ _ _ _ hs, List.getD_eq_getElem _ _ hs]
  exact hlow _ (List.getElem_mem _)

theorem front_high (hs : low.length ≤ s) (hlt : s < low.length + n) :
    (front low n rest).getD s .idle = ⟨HIGH, HIGH⟩ := by
  rw [front, List.getD_append_right _ _ _ _ hs, List.getD_append _ _ _ _ (by simp; omega),
    List.getD_eq_getElem _ _ (by simp; omega), List.getElem_replicate]

theorem front_idle (hs : low.length + n ≤ s) (hlt : s < low.length + n + 3) :
    (front low n rest).getD s .idle = .idle := by
  rw [front, ← List.append_assoc, List.getD_append_right _ _ _ _ (by simp; omega),
    List.getD_append _ _ _ _ (by simp; omega), List.getD_eq_getElem _ _ (by simp; omega),
    List.getElem_replicate]

end Front

theorem clockedIn_of_waves {bits : List Bool} {low rest : List Wire} {n : Nat}
    (hlen : bits.length = 8) (hlow : ∀ w ∈ low, w.clock = LOW)
    (hlowLength : low.length ≤ TIMEOUT_COUNT) (hn : 0 < n) (hnLength : n ≤ TIMEOUT_COUNT)
    (hwaves : Waves bits (List.replicate 3 Wire.idle ++ rest)) :
    ClockedIn (levelsOf (front low n rest)) 0 false bits (decide (30 ≤ n)) := by
  have hpulses := hwaves.pulses (low ++ List.replicate n ⟨HIGH, HIGH⟩)
  rw [List.append_assoc, List.length_append, List.length_replicate] at hpulses
  have heoi : decide (low.length + 30 ≤ low.length + n) = decide (30 ≤ n) :=
    decide_eq_decide.mpr Nat.add_le_add_iff_left
  rw [← heoi]
  refine clockedIn_of_pulses hlen hlowLength (by omega) (by omega) (fun s hs => front_low hlow hs)
    ?_ ?_ ?_ hpulses
  · intro s hs hlt
    show Wire.clock _ = HIGH
    rw [front_high hs hlt]
  · intro s hs hlt
    show Wire.data _ = HIGH
    rcases Nat.lt_or_ge s (low.length + n) with hlt' | hge
    · rw [front_high hs hlt']
    · rw [front_idle hge hlt]
      rfl
  · intro s hs hlt
    show Wire.clock _ = LOW
    rw [front_idle hs hlt]
    rfl

/-- What is read of a byte before its bits: the talker's delay, its readiness, and CLOCK low with
the bits to come. -/
theorem readings_front (n₁ n₂ n₄ n₅ : Nat) {us : Nat} {timedReady timed : List (Act × Nat)}
    {acts : List Act} (hready : ∀ p ∈ timedReady, p.1 = .releaseData)
    (hacts : timed.map Prod.fst = .delay us :: acts) (hpaced : Paced timed) :
    ∃ rest, List.replicate 3 .idle ++ rest
          = List.replicate (n₄ + n₅) .idle ++ readings .idle timed ∧
      readings .idle ((.delay 100, n₁) :: (.pushClock, n₂) :: (timedReady ++ (.pullClock, n₄) ::
          (.releaseData, n₅) :: timed))
        = front (List.replicate n₁ .idle) (n₂ + (timedReady.map Prod.snd).sum) rest := by
  obtain ⟨rest, hrest⟩ := readings_delay (w := .idle) hacts hpaced
  have hidle : List.replicate 3 Wire.idle ++ (List.replicate (n₄ + n₅) .idle ++ .idle :: rest)
      = List.replicate (n₄ + n₅) .idle ++ readings .idle timed := by
    have hfour : Wire.idle :: .idle :: .idle :: .idle :: rest
        = List.replicate 4 .idle ++ rest := rfl
    have hone : Wire.idle :: rest = List.replicate 1 .idle ++ rest := rfl
    rw [hrest, hfour, hone, ← List.append_assoc, ← List.append_assoc, ← List.append_assoc,
      ← List.replicate_add, ← List.replicate_add, ← List.replicate_add]
    congr 2
    omega
  refine ⟨_, hidle, ?_⟩
  -- DATA stays high while the talker waits for the listener
  have hsame : ∀ p ∈ timedReady, Wire.after ⟨HIGH, HIGH⟩ p.1 = ⟨HIGH, HIGH⟩ := by
    intro p hp
    rw [hready p hp]
    rfl
  have hstays : Wire.afterAll ⟨HIGH, HIGH⟩ (timedReady.map Prod.fst) = ⟨HIGH, HIGH⟩ := by
    clear hready
    induction timedReady with
    | nil => rfl
    | cons p timedReady ih =>
        have hp := hsame p List.mem_cons_self
        show Wire.afterAll (Wire.after ⟨HIGH, HIGH⟩ p.1) _ = _
        rw [hp]
        exact ih fun q hq => hsame q (List.mem_cons_of_mem _ hq)
  have hfirst : Wire.after .idle (.delay 100) = .idle := rfl
  have hclock : Wire.after .idle .pushClock = ⟨HIGH, HIGH⟩ := rfl
  have hpull : Wire.after ⟨HIGH, HIGH⟩ .pullClock = .idle := rfl
  have hrelease : Wire.after .idle .releaseData = .idle := rfl
  rw [front, hidle]
  simp only [readings, readings_append, readings_eq_replicate hsame, hstays, hfirst, hclock, hpull,
    hrelease, List.replicate_add, List.append_assoc]

/-- **A byte put on the bus is got from it**: whatever let `put_byte` clock out the eight bits, a
`get_byte` that reads the lines while it does so ends with the byte, and takes it for the last one
when CLOCK has stayed high for thirty readings. -/
theorem getByte_putByte {fuel t : Nat} {value : Byte} {eoi : Bool} {r : PutByte}
    (h : putByte levels fuel t value eoi = some r) (hsent : (samples .idle r.acts).length = 9)
    {timed : List (Act × Nat)} (hacts : timed.map Prod.fst = r.acts) (hpaced : Paced timed)
    (hready : 0 < readyReads timed) (hlimit : readyReads timed ≤ TIMEOUT_COUNT) :
    getByte (levelsOf (readings .idle timed)) 0 false
      = .byte value (decide (30 ≤ readyReads timed)) := by
  obtain ⟨ready, flag, s, hrelease, -, -, hrActs⟩ := (putByte_ends h).sent_of_samples hsent
  rw [hrActs] at hacts
  unfold talkActs at hacts
  obtain ⟨⟨a₁, n₁⟩, timed₁, rfl, rfl, hacts₁⟩ := List.map_eq_cons_iff.mp hacts
  obtain ⟨⟨a₂, n₂⟩, timed₂, rfl, rfl, hacts₂⟩ := List.map_eq_cons_iff.mp hacts₁
  obtain ⟨timedReady, timed₃, rfl, hreadyActs, hacts₃⟩ := List.map_eq_append_iff.mp hacts₂
  obtain ⟨⟨a₄, n₄⟩, timed₄, rfl, rfl, hacts₄⟩ := List.map_eq_cons_iff.mp hacts₃
  obtain ⟨⟨a₅, n₅⟩, timedBits, rfl, rfl, hactsBits⟩ := List.map_eq_cons_iff.mp hacts₄
  have hrelease' : ∀ p ∈ timedReady, p.1 = .releaseData := by
    intro p hp
    apply hrelease
    rw [← hreadyActs]
    exact List.mem_map_of_mem hp
  have hn₁ := (hpaced (.delay 100, n₁) (by simp)).1
  have hn₄ := (hpaced (.pullClock, n₄) (by simp)).1
  have hn₅ := (hpaced (.releaseData, n₅) (by simp)).1
  have hpacedBits : Paced timedBits := fun p hp => hpaced p (by simp [hp])
  have hreads : readyReads ((.delay 100, n₁) :: (.pushClock, n₂) :: (timedReady ++ (.pullClock, n₄)
      :: (.releaseData, n₅) :: timedBits)) = n₂ + (timedReady.map Prod.snd).sum := by
    unfold readyReads
    rw [List.tail_cons, List.takeWhile_cons_of_pos rfl, List.takeWhile_append_of_pos,
      List.takeWhile_cons_of_neg (by simp), List.append_nil, List.map_cons, List.sum_cons]
    intro p hp
    rw [hrelease' p hp]
    decide
  obtain ⟨us, acts, hdelay⟩ := bitActs_append_delay (bitsOf value) 100 [.releaseData]
  obtain ⟨rest, hrest, hreadings⟩ := readings_front n₁ n₂ n₄ n₅ hrelease'
    (hactsBits.trans hdelay) hpacedBits
  rw [hreads] at hready hlimit ⊢
  rw [hreadings]
  have hwaves : Waves (bitsOf value) (List.replicate 3 Wire.idle ++ rest) := by
    rw [hrest]
    refine waves_bitActs hactsBits hpacedBits ?_ ?_ rfl
    · intro w hw
      rw [List.eq_of_mem_replicate hw]
      rfl
    · rw [List.length_replicate]
      omega
  refine getByte_byte_iff.mpr ⟨bitsOf value, ?_, (ofDigits_bitsOf value).symm⟩
  refine clockedIn_of_waves (length_bitsOf value) ?_ ?_ hready hlimit hwaves
  · intro w hw
    rw [List.eq_of_mem_replicate hw]
    rfl
  · rw [List.length_replicate]
    unfold TIMEOUT_COUNT
    omega

/-- Ten readings behind each action of the sample. -/
def sampleTimed : List (Act × Nat) := sampleSent.acts.map fun a => (a, 10)

theorem getByte_putByte_listening :
    getByte (levelsOf (readings .idle sampleTimed)) 0 false
      = .byte 65 (decide (30 ≤ readyReads sampleTimed)) := by
  refine getByte_putByte putByte_listening (by decide) ?_ ?_ (by decide) (by decide)
  · rw [sampleTimed, List.map_map]
    exact List.map_id _
  · intro p hp
    obtain ⟨a, -, rfl⟩ := List.mem_map.mp hp
    exact ⟨show 10 ≤ 600 by decide, fun _ _ => show 4 ≤ 10 by decide⟩

end C64Iec.Client

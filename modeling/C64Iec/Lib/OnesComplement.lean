import Mathlib.Tactic

set_option autoImplicit false

/-! # Checksums in ones' complement

The 16-bit words of a string of bytes are added up (`wordSum`), and the carries are added to the low
word until there are none (`fold`). The complement of the sum, put into a word that was zero, makes
the whole string add up to `0xffff`, which is how it is checked (`Verifies`).
-/

namespace C64Iec.Lib

/-- The sum of the words of a string of bytes, high byte first; a last odd byte is a high one. -/
def wordSum : List UInt8 → Nat
  | h :: l :: rest => h.toNat * 256 + l.toNat + wordSum rest
  | [h] => h.toNat * 256
  | [] => 0

/-- `while (sum >> 16) sum = (sum & 0xffff) + (sum >> 16)` -/
def fold (sum : Nat) : Nat :=
  if h : sum < 65536 then sum else fold (sum % 65536 + sum / 65536)
termination_by sum
decreasing_by omega

/-- The complement of a folded sum. -/
def complement (sum : Nat) : Nat := 65535 - fold sum

/-! ## Folding -/

theorem fold_of_lt {sum : Nat} (h : sum < 65536) : fold sum = sum := by
  rw [fold, dif_pos h]

theorem fold_of_ge {sum : Nat} (h : ¬sum < 65536) :
    fold sum = fold (sum % 65536 + sum / 65536) := by
  rw [fold, dif_neg h]

/-- A sum of at least one folds to its rest modulo `0xffff`, which is taken from one on. -/
theorem fold_eq {sum : Nat} (h : 0 < sum) : fold sum = (sum - 1) % 65535 + 1 := by
  induction sum using Nat.strong_induction_on with
  | _ sum ih =>
      by_cases hlt : sum < 65536
      · rw [fold_of_lt hlt, Nat.mod_eq_of_lt (by omega)]
        omega
      · have hdiv := Nat.div_add_mod sum 65536
        rw [fold_of_ge hlt, ih _ (by omega) (by omega)]
        have hsum : sum - 1 = sum % 65536 + sum / 65536 - 1 + sum / 65536 * 65535 := by omega
        rw [hsum, Nat.add_mul_mod_self_right]

theorem fold_zero : fold 0 = 0 := fold_of_lt (by decide)

/-- All ones is what the positive multiples of `0xffff` fold to. -/
theorem fold_eq_ones_iff {sum : Nat} : fold sum = 65535 ↔ 0 < sum ∧ sum % 65535 = 0 := by
  rcases Nat.eq_zero_or_pos sum with rfl | hpos
  · rw [fold_zero]
    decide
  · rw [fold_eq hpos]
    omega

/-- **The complement completes the sum.** -/
theorem fold_add_complement (sum : Nat) : fold (sum + complement sum) = 65535 := by
  rw [fold_eq_ones_iff]
  unfold complement
  rcases Nat.eq_zero_or_pos sum with rfl | hpos
  · rw [fold_zero]
    decide
  · rw [fold_eq hpos]
    omega

theorem complement_lt (sum : Nat) : complement sum < 65536 := by
  unfold complement
  omega

/-! ## Sums of words -/

/-- A part of whole words is added to what is behind it. -/
theorem wordSum_append {a : List UInt8} (h : a.length % 2 = 0) (b : List UInt8) :
    wordSum (a ++ b) = wordSum a + wordSum b := by
  induction a using wordSum.induct with
  | case1 x y rest ih =>
      have hrest : rest.length % 2 = 0 := by
        rw [List.length_cons, List.length_cons] at h
        omega
      rw [List.cons_append, List.cons_append, wordSum, wordSum, ih hrest]
      omega
  | case2 x => cases h
  | case3 => rw [List.nil_append, wordSum, Nat.zero_add]

theorem wordSum_word (n : Nat) (h : n < 65536) :
    wordSum [UInt8.ofNat (n / 256), UInt8.ofNat n] = n := by
  simp only [wordSum, UInt8.toNat_ofNat']
  omega

/-- The string, with what is added to it from elsewhere, adds up to all ones. -/
def Verifies (extra : Nat) (s : List UInt8) : Prop := fold (extra + wordSum s) = 65535

instance (extra : Nat) (s : List UInt8) : Decidable (Verifies extra s) :=
  inferInstanceAs (Decidable (_ = _))

/-- **A string with its checksum in place verifies.** -/
theorem verifies_complement {extra : Nat} {before behind : List UInt8}
    (h : before.length % 2 = 0) :
    let sum := extra + wordSum (before ++ [0, 0] ++ behind)
    Verifies extra (before ++ [UInt8.ofNat (complement sum / 256), UInt8.ofNat (complement sum)] ++
      behind) := by
  intro sum
  have hword : ∀ word : List UInt8, word.length = 2 →
      wordSum (before ++ word ++ behind) = wordSum before + wordSum word + wordSum behind := by
    intro word hlen
    rw [wordSum_append (by rw [List.length_append, hlen]; omega), wordSum_append h]
  have hzero : sum = extra + (wordSum before + 0 + wordSum behind) := by
    show extra + _ = _
    rw [hword [0, 0] rfl]
    rfl
  unfold Verifies
  rw [hword _ rfl, wordSum_word _ (complement_lt sum)]
  have hsum : extra + (wordSum before + complement sum + wordSum behind) = sum + complement sum := by
    omega
  rw [hsum, fold_add_complement]

end C64Iec.Lib

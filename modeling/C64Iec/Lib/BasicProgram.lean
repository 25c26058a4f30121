import Mathlib.Data.UInt
import Mathlib.Tactic

set_option autoImplicit false

/-! # Tokenised BASIC programs

A program in memory is a sequence of lines and a link whose high byte is zero. A line is a link,
a number, both with the low byte first, and a text that ends with a zero byte. The interpreter
that has loaded a program goes through the lines by their texts (`scan`) and sets the links anew;
a program whose links are right already is `Linked`.
-/

namespace C64Iec.Lib

/-- A 16-bit number, low byte first. -/
def le16 (n : Nat) : List UInt8 := [UInt8.ofNat n, UInt8.ofNat (n / 256)]

@[simp] theorem le16_length (n : Nat) : (le16 n).length = 2 := rfl

/-- One line of a program. -/
structure Line where
  link : Nat
  number : Nat
  text : List UInt8
  deriving DecidableEq, Repr

namespace Line

def bytes (l : Line) : List UInt8 := le16 l.link ++ le16 l.number ++ l.text ++ [0]

theorem bytes_length (l : Line) : l.bytes.length = l.text.length + 5 := by
  simp only [bytes, List.length_append, le16_length, List.length_singleton]
  omega

/-- A program has no more lines than bytes. -/
theorem length_le_bytes (lines : List Line) :
    lines.length ≤ (lines.flatMap Line.bytes).length := by
  induction lines with
  | nil => exact Nat.le_refl 0
  | cons l lines ih =>
      have hl := l.bytes_length
      rw [List.length_cons, List.flatMap_cons, List.length_append]
      omega

/-- A line that is read back: its link does not end the program, and its text has no zero byte. -/
structure Proper (l : Line) : Prop where
  link_ge : 256 ≤ l.link
  link_lt : l.link < 65536
  number_lt : l.number < 65536
  text : ∀ c ∈ l.text, c ≠ 0

end Line

/-! ## Going through the lines -/

/-- The text up to the next zero byte, and what is behind that byte. -/
def splitText : List UInt8 → Option (List UInt8 × List UInt8)
  | [] => none
  | c :: rest => if c = 0 then some ([], rest) else (splitText rest).map fun r => (c :: r.1, r.2)

/-- The lines up to the link with high byte zero, and what is behind that link. The first argument
bounds the number of links. -/
def scan : Nat → List UInt8 → Option (List Line × List UInt8)
  | fuel + 1, lo :: hi :: rest =>
      if hi = 0 then some ([], rest)
      else
        match rest with
        | nlo :: nhi :: rest => do
            let (text, rest) ← splitText rest
            let (lines, rest) ← scan fuel rest
            return (⟨lo.toNat + 256 * hi.toNat, nlo.toNat + 256 * nhi.toNat, text⟩ :: lines, rest)
        | _ => none
  | _, _ => none

theorem splitText_append : ∀ {text : List UInt8}, (∀ c ∈ text, c ≠ 0) → ∀ rest : List UInt8,
    splitText (text ++ 0 :: rest) = some (text, rest)
  | [], _, _ => rfl
  | c :: text, h, rest => by
      have hc : c ≠ 0 := h c (by simp)
      have ih := splitText_append (fun x hx => h x (List.mem_cons_of_mem c hx)) rest
      rw [List.cons_append, splitText, if_neg hc, ih]
      rfl

/-- The bytes of a 16-bit number give it back. -/
theorem toNat_le16 {n : Nat} (h : n < 65536) :
    (UInt8.ofNat n).toNat + 256 * (UInt8.ofNat (n / 256)).toNat = n := by
  simp only [UInt8.toNat_ofNat']
  omega

theorem scan_line {l : Line} (h : l.Proper) (fuel : Nat) (rest : List UInt8) :
    scan (fuel + 1) (l.bytes ++ rest) = (scan fuel rest).map fun r => (l :: r.1, r.2) := by
  have hbytes : l.bytes ++ rest = UInt8.ofNat l.link :: UInt8.ofNat (l.link / 256) ::
      UInt8.ofNat l.number :: UInt8.ofNat (l.number / 256) :: (l.text ++ 0 :: rest) := by
    simp [Line.bytes, le16]
  have hhi : UInt8.ofNat (l.link / 256) ≠ 0 := by
    intro h0
    have := congrArg UInt8.toNat h0
    have := h.link_ge
    have := h.link_lt
    simp only [UInt8.toNat_ofNat', UInt8.toNat_zero] at *
    omega
  rw [hbytes, scan, if_neg hhi, splitText_append h.text]
  simp only [toNat_le16 h.link_lt, toNat_le16 h.number_lt, Option.bind_eq_bind, Option.bind_some]
  cases scan fuel rest <;> rfl

/-- **A program is read back**: its lines, and what is behind its last link. -/
theorem scan_program {lines : List Line} (h : ∀ l ∈ lines, l.Proper) {fuel : Nat}
    (hfuel : lines.length < fuel) (lo : UInt8) (rest : List UInt8) :
    scan fuel (lines.flatMap Line.bytes ++ lo :: 0 :: rest) = some (lines, rest) := by
  induction lines generalizing fuel with
  | nil =>
      cases fuel with
      | zero => cases hfuel
      | succ fuel => rfl
  | cons l lines ih =>
      cases fuel with
      | zero => cases hfuel
      | succ fuel =>
          have ih' := ih (fun l' hl' => h l' (List.mem_cons_of_mem l hl'))
            (Nat.lt_of_succ_lt_succ hfuel)
          rw [List.flatMap_cons, List.append_assoc, scan_line (h l (by simp)), ih']
          rfl

/-! ## Links -/

/-- Loaded at `addr`, the link of every line is the address of what follows it. -/
def Linked : Nat → List Line → Prop
  | _, [] => True
  | addr, l :: lines => l.link = addr + l.bytes.length ∧ Linked (addr + l.bytes.length) lines

/-- Loaded at `addr`, the link of every line is too low. -/
def Short : Nat → List Line → Prop
  | _, [] => True
  | addr, l :: lines => l.link < addr + l.bytes.length ∧ Short (addr + l.bytes.length) lines

/-- Links that are too low are not right. -/
theorem Short.not_linked {addr : Nat} {lines : List Line} (h : Short addr lines)
    (hne : lines ≠ []) : ¬Linked addr lines := by
  cases lines with
  | nil => exact absurd rfl hne
  | cons l lines =>
      intro hlinked
      have := h.1
      have := hlinked.1
      omega

end C64Iec.Lib

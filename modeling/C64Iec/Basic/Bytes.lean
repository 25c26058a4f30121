import Mathlib.Data.UInt
import Mathlib.Tactic

set_option autoImplicit false

/-! # Bytes, 16-bit numbers and packet fields

Strings, buffers and datagrams are lists of bytes on both sides. A 16-bit number is a natural
number: `be16 h l` reads one from two bytes, and `beBytes n` writes the low 16 bits of `n`, as
`tftpdata[2] = blknum>>8; tftpdata[3] = blknum;` does on the client and `[n].pack("n")` on the
server. The two ends share the packet opcodes and the block size.
-/

namespace C64Iec

abbrev Byte := UInt8

abbrev Bytes := List Byte

/-- Decided along the string, not over all 256 bytes. -/
instance (s : Bytes) (p : Byte → Prop) [DecidablePred p] : Decidable (∀ c ∈ s, p c) :=
  List.decidableBAll p s

/-- The bytes of an ASCII text. -/
def ascii (s : String) : Bytes := s.toList.map fun c => UInt8.ofNat c.toNat

/-- The 16-bit number with high byte `h` and low byte `l`. -/
def be16 (h l : Byte) : Nat := h.toNat * 256 + l.toNat

/-- The low 16 bits of `n`, high byte first. -/
def beBytes (n : Nat) : Bytes := [UInt8.ofNat (n / 256), UInt8.ofNat n]

/-- A 16-bit pattern as a signed number (an `int` of the AVR). -/
def int16 (n : Nat) : Int := if n < 32768 then n else (n : Int) - 65536

@[simp] theorem beBytes_length (n : Nat) : (beBytes n).length = 2 := rfl

theorem be16_lt (h l : Byte) : be16 h l < 65536 := by
  have hh := h.toNat_lt
  have hl := l.toNat_lt
  unfold be16
  omega

@[simp] theorem be16_ofNat (n : Nat) :
    be16 (UInt8.ofNat (n / 256)) (UInt8.ofNat n) = n % 65536 := by
  simp only [be16, UInt8.toNat_ofNat']
  omega

theorem beBytes_be16 (h l : Byte) : beBytes (be16 h l) = [h, l] := by
  have hl := l.toNat_lt
  have hhigh : (h.toNat * 256 + l.toNat) / 256 = h.toNat := by omega
  have hlow : UInt8.ofNat (h.toNat * 256 + l.toNat) = l := by
    refine UInt8.toNat_inj.mp ?_
    rw [UInt8.toNat_ofNat']
    omega
  rw [beBytes, be16, hhigh, hlow, UInt8.ofNat_toNat]

theorem int16_of_lt {n : Nat} (h : n < 32768) : int16 n = n := by
  simp [int16, h]

/-! ## Packet opcodes and sizes -/

def TFTP_RRQ : Nat := 1
def TFTP_WRQ : Nat := 2
def TFTP_DATA : Nat := 3
def TFTP_ACK : Nat := 4
def TFTP_ERROR : Nat := 5
def TFTP_OPTACK : Nat := 6

def TFTP_BLKSIZE : Nat := 256

/-- A packet: opcode, a number (block number or error code), and what follows. -/
def packetBytes (opcode number : Nat) (body : Bytes) : Bytes :=
  beBytes opcode ++ beBytes number ++ body

/-- The number of a packet. -/
def packetNumber (packet : Bytes) : Nat := be16 (packet.getD 2 0) (packet.getD 3 0)

@[simp] theorem packetNumber_packetBytes (opcode number : Nat) (body : Bytes) :
    packetNumber (packetBytes opcode number body) = number % 65536 := by
  simp [packetNumber, packetBytes, beBytes]

theorem packetBytes_length (opcode number : Nat) (body : Bytes) :
    (packetBytes opcode number body).length = body.length + 4 := by
  simp [packetBytes]
  omega

/-- Four bytes are enough for a packet. -/
theorem exists_packetBytes {payload : Bytes} (h : 4 ≤ payload.length) :
    ∃ opcode < 65536, ∃ number < 65536, ∃ body, payload = packetBytes opcode number body := by
  match payload, h with
  | a :: b :: c :: d :: body, _ =>
      refine ⟨be16 a b, be16_lt a b, be16 c d, be16_lt c d, body, ?_⟩
      rw [packetBytes, beBytes_be16, beBytes_be16]
      rfl

theorem beBytes_inj {m n : Nat} (h : beBytes m = beBytes n) : m % 65536 = n % 65536 := by
  have h' := congrArg (fun l : Bytes => be16 (l.getD 0 0) (l.getD 1 0)) h
  simpa [beBytes] using h'

/-- A packet determines its opcode and its number, each modulo `2^16`, and its body. -/
theorem packetBytes_inj {op op' number number' : Nat} {body body' : Bytes}
    (h : packetBytes op number body = packetBytes op' number' body') :
    op % 65536 = op' % 65536 ∧ number % 65536 = number' % 65536 ∧ body = body' := by
  rw [packetBytes, packetBytes] at h
  obtain ⟨h12, h3⟩ := List.append_inj h (by simp)
  obtain ⟨h1, h2⟩ := List.append_inj h12 (by simp)
  exact ⟨beBytes_inj h1, beBytes_inj h2, h3⟩

end C64Iec

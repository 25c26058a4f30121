import C64Iec.Basic.Bytes
import C64Iec.Lib.Memory
import C64Iec.Lib.Lines

set_option autoImplicit false

/-! # Strings of the server (`common.rb`)

Ruby strings are byte strings, as they are under a binary source and external encoding. An
expression that raises an exception is an `Except RubyError` value; nothing in the server
rescues one.
-/

namespace C64Iec.Server

open Lib

/-- The exceptions the server's expressions can raise. `diverge` is not a Ruby exception: it
stands for a loop that never ends. -/
inductive RubyError where
  | noMethodError
  | typeError
  | argumentError
  | ioError
  | systemCallError
  | diverge
  deriving DecidableEq, Repr

theorem ok_bind {ε α β : Type} (a : α) (f : α → Except ε β) : (Except.ok a >>= f) = f a := rfl

theorem error_bind {ε α β : Type} (e : ε) (f : α → Except ε β) :
    ((Except.error e : Except ε α) >>= f) = .error e := rfl

/-- A computation that goes well has a first step that goes well. -/
theorem bind_eq_ok {ε α β : Type} {x : Except ε α} {f : α → Except ε β} {b : β} :
    (x >>= f) = .ok b ↔ ∃ a, x = .ok a ∧ f a = .ok b := by
  cases x with
  | error e => simp [bind, Except.bind]
  | ok a => simp [bind, Except.bind]

/-- `String#uint8` -/
def uint8 (s : Bytes) (offset : Nat) : Except RubyError Nat :=
  match s[offset]? with
  | some b => .ok b.toNat
  | none => .error .noMethodError

/-- `String#uint16`: `nil` when fewer than two bytes are left. -/
def uint16 (s : Bytes) (offset : Nat) : Except RubyError (Option Nat) :=
  if s.length < offset then .error .noMethodError else
  match s.drop offset with
  | h :: l :: _ => .ok (some (be16 h l))
  | _ => .ok none

/-- `String#cstring`: the first of the strings `split("\x00")` gives, `nil` when only NULs are
left (trailing empty strings are dropped). -/
def cstring (s : Bytes) (offset : Nat) : Except RubyError (Option Bytes) :=
  if s.length < offset then .error .noMethodError else
  if (s.drop offset).all (· = 0) then .ok none else .ok (some (untilNul (s.drop offset)))

/-- `String#size` on a value that may be `nil`. -/
def sizeOrRaise (s : Option Bytes) : Except RubyError Bytes :=
  match s with
  | some s => .ok s
  | none => .error .noMethodError

/-- Line feed, the line break of Ruby's regular expressions. -/
def isLineFeed (c : Byte) : Bool := c == 10

def isDigit (c : Byte) : Bool := 48 ≤ c && c ≤ 57

/-- The value of a hex digit. -/
def hexValue (c : Byte) : Option Nat :=
  if 48 ≤ c ∧ c ≤ 57 then some (c.toNat - 48)
  else if 97 ≤ c ∧ c ≤ 102 then some (c.toNat - 87)
  else if 65 ≤ c ∧ c ≤ 70 then some (c.toNat - 55)
  else none

/-- `gsub(/[ \xa0\x00]*$/, "")` -/
def stripPadding (s : Bytes) : Bytes :=
  stripLineEnds (fun c => c == 32 || c == 0xa0 || c == 0) isLineFeed s

theorem stripPadding_length_le (s : Bytes) : (stripPadding s).length ≤ s.length :=
  (stripLineEnds_sublist s).length_le

end C64Iec.Server

import LoxLexer.Text.Basic
import Mathlib.Algebra.Group.Nat.Defs

/-!
# Hexadecimal digits

A number is written in a fixed count of hexadecimal digits, which denote it if there are enough of
them.

* `isAscii` — a character of ASCII.
* `Text.hexDigit_spec` — a digit is ASCII and has the value that it is the digit of.
* `Text.valueInBase_hex` — digits denote the number that they are the notation of.
-/

namespace LoxLexer

/-- A character of ASCII. -/
def isAscii (c : Char) : Bool := c.toNat < 0x80

namespace Text

theorem hexDigit_spec (n : Nat) :
    isHexDigit (hexDigit n) = true ∧ hexDigitValue (hexDigit n) = n % 16 ∧
      isAscii (hexDigit n) = true := by
  have hall : ∀ d < 16, isHexDigit (Nat.digitChar d) = true ∧
      hexDigitValue (Nat.digitChar d) = d ∧ isAscii (Nat.digitChar d) = true := by decide
  exact hall (n % 16) (Nat.mod_lt n (by decide))

theorem length_hex (width n : Nat) : (hex width n).length = width := by
  induction width generalizing n with
  | zero => rfl
  | succ width ih => rw [hex, List.length_append, ih, List.length_singleton]

theorem exists_of_mem_hex {width n : Nat} {c : Char} (h : c ∈ hex width n) :
    ∃ m, c = hexDigit m := by
  induction width generalizing n with
  | zero => contradiction
  | succ width ih =>
      rcases List.mem_append.mp h with hmore | hlast
      · exact ih hmore
      · exact ⟨n, List.mem_singleton.mp hlast⟩

/-- Hexadecimal digits denote the number that they are the notation of. -/
theorem valueInBase_hex {width n : Nat} (h : n < 16 ^ width) :
    valueInBase 16 (hex width n) = n := by
  induction width generalizing n with
  | zero =>
      have hzero : n = 0 := by simpa using h
      rw [hzero]
      rfl
  | succ width ih =>
      have hquotient : n / 16 < 16 ^ width := by
        rw [Nat.pow_succ] at h
        omega
      have hvalue := ih hquotient
      unfold valueInBase at hvalue
      rw [valueInBase, hex, List.foldl_append, hvalue, List.foldl_cons, List.foldl_nil,
        (hexDigit_spec n).2.1]
      omega

end Text

end LoxLexer

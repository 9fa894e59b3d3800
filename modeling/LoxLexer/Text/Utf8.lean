import LoxLexer.Text.Basic

/-!
# UTF-8

Reading is strict: overlong forms, surrogates and code points beyond U+10FFFF are refused, and a
refusal tells which bytes are to blame.

* `Utf8.encode` — the bytes of a text.
* `Utf8.tails?` — the ranges of the bytes that must follow a lead byte.
* `Utf8.decode` — the text of bytes, or the first sequence that is no character.
* `Utf8.repair` — the text of bytes, with a replacement for each sequence that is no character.
* `Utf8.DecodeError` — that sequence: where it starts, how long it is, and what is wrong.  It is
  the longest part that a well-formed character could start with, and at least one byte.
-/

namespace LoxLexer

/-- A sequence of bytes. -/
abbrev Bytes := List UInt8

namespace Utf8

/-- The continuation byte for the last six bits of `n`. -/
def tailByte (n : Nat) : UInt8 := UInt8.ofNat (0x80 + n % 0x40)

/-- The bytes of a code point. -/
def encodeCodePoint (n : Nat) : Bytes :=
  if n < 0x80 then [UInt8.ofNat n]
  else if n < 0x800 then [UInt8.ofNat (0xc0 + n / 0x40), tailByte n]
  else if n < 0x10000 then
    [UInt8.ofNat (0xe0 + n / 0x1000), tailByte (n / 0x40), tailByte n]
  else
    [UInt8.ofNat (0xf0 + n / 0x40000), tailByte (n / 0x1000), tailByte (n / 0x40), tailByte n]

/-- The bytes of a text. -/
def encode (text : Text) : Bytes := text.flatMap fun c => encodeCodePoint c.toNat

/-- What is wrong with a sequence of bytes. -/
inductive Flaw
  | invalidStart
  | invalidContinuation
  | unexpectedEnd
deriving DecidableEq, Repr

/-- A flaw in words. -/
def Flaw.describe : Flaw → Text
  | invalidStart => "invalid start byte".toList
  | invalidContinuation => "invalid continuation byte".toList
  | unexpectedEnd => "unexpected end of data".toList

/-- A sequence of bytes that is no character. -/
structure DecodeError where
  lead : UInt8
  position : Nat
  width : Nat
  flaw : Flaw
deriving DecidableEq

/-- What a refusal says: it names the byte if it is one, and else the positions. -/
def DecodeError.message (error : DecodeError) : Text :=
  "'utf-8' codec can't decode byte".toList ++
    (if error.width = 1 then
      " 0x".toList ++ Text.hex 2 error.lead.toNat ++ " in position ".toList ++
        Text.ofNat error.position
    else
      "s in position ".toList ++ Text.ofNat error.position ++
        '-' :: Text.ofNat (error.position + error.width - 1)) ++
    ": ".toList ++ error.flaw.describe

/-- Closed intervals of bytes. -/
abbrev Ranges := List (Nat × Nat)

/-- Any continuation byte. -/
def anyTail : Nat × Nat := (0x80, 0xbf)

/-- The bits that a lead byte contributes, and the ranges of the bytes that must follow it. -/
def tails? (lead : Nat) : Option (Nat × Ranges) :=
  if lead < 0x80 then some (lead, [])
  else if lead < 0xc2 then none
  else if lead < 0xe0 then some (lead - 0xc0, [anyTail])
  else if lead = 0xe0 then some (0, [(0xa0, 0xbf), anyTail])
  else if lead = 0xed then some (0xd, [(0x80, 0x9f), anyTail])
  else if lead < 0xf0 then some (lead - 0xe0, [anyTail, anyTail])
  else if lead = 0xf0 then some (0, [(0x90, 0xbf), anyTail, anyTail])
  else if lead < 0xf4 then some (lead - 0xf0, [anyTail, anyTail, anyTail])
  else if lead = 0xf4 then some (4, [(0x80, 0x8f), anyTail, anyTail])
  else none

/-- The code point that goes on from `value` with one byte in each range; `width` bytes have been
read.  If it does not go on so: how many bytes do, and why no more. -/
def readTail (value width : Nat) : Ranges → Bytes → Except (Nat × Flaw) Nat
  | [], _ => .ok value
  | _ :: _, [] => .error (width, .unexpectedEnd)
  | (low, high) :: ranges, byte :: rest =>
    if low ≤ byte.toNat ∧ byte.toNat ≤ high then
      readTail (value * 0x40 + byte.toNat % 0x40) (width + 1) ranges rest
    else .error (width, .invalidContinuation)

/-- The character that starts with a lead byte, and how many bytes it takes of those behind.  If
there is none: how many bytes are to blame, the lead byte included, and why. -/
def character (lead : UInt8) (rest : Bytes) : Except (Nat × Flaw) (Char × Nat) :=
  match tails? lead.toNat with
  | none => .error (1, .invalidStart)
  | some (value, ranges) =>
    (readTail value 1 ranges rest).map fun codePoint => (Char.ofNat codePoint, ranges.length)

/-- The text of bytes of which the first stands at `position`. -/
def decodeFrom (position : Nat) : Bytes → Except DecodeError Text
  | [] => .ok []
  | lead :: rest =>
    match character lead rest with
    | .error (width, flaw) => .error ⟨lead, position, width, flaw⟩
    | .ok (c, taken) =>
      match decodeFrom (position + 1 + taken) (rest.drop taken) with
      | .error error => .error error
      | .ok text => .ok (c :: text)
termination_by bytes => bytes.length
decreasing_by simp only [List.length_cons, List.length_drop]; omega

/-- The text of bytes. -/
def decode (bytes : Bytes) : Except DecodeError Text := decodeFrom 0 bytes

/-- The character that stands for bytes that are no character. -/
def replacement : Char := '\ufffd'

/-- The text of bytes, with a replacement for each sequence that is no character. -/
def repair : Bytes → Text
  | [] => []
  | lead :: rest =>
    match character lead rest with
    | .error (width, _) => replacement :: repair (rest.drop (width - 1))
    | .ok (c, taken) => c :: repair (rest.drop taken)
termination_by bytes => bytes.length
decreasing_by all_goals (simp only [List.length_cons, List.length_drop]; omega)

end Utf8
end LoxLexer

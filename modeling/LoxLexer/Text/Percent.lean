import LoxLexer.Text.Utf8

/-!
# Percent-encoding

A percent sign and two hexadecimal digits stand for a byte; every other character stands for its
own bytes in UTF-8.

* `Percent.bytes` — the bytes after escapes have been resolved.
* `Percent.decode` — the text of those bytes, with a replacement for what is no character.
-/

namespace LoxLexer
namespace Percent

/-- The value of a byte that is a hexadecimal digit. -/
def hexValue? (byte : UInt8) : Option Nat :=
  let c := Char.ofNat byte.toNat
  if Text.isHexDigit c then some (Text.hexDigitValue c) else none

/-- The byte of a percent sign. -/
def sign : UInt8 := 0x25

/-- The byte that two hexadecimal digits behind a percent sign stand for. -/
def escaped? (first high low : UInt8) : Option UInt8 :=
  if first = sign then do
    let high ← hexValue? high
    let low ← hexValue? low
    return UInt8.ofNat (high * 16 + low)
  else none

/-- Bytes with a single byte for every escape. -/
def bytes : Bytes → Bytes
  | first :: high :: low :: rest =>
    match escaped? first high low with
    | some byte => byte :: bytes rest
    | none => first :: bytes (high :: low :: rest)
  | rest => rest

/-- The text that a percent-encoded text stands for. -/
def decode (text : Text) : Text := Utf8.repair (bytes (Utf8.encode text))

end Percent
end LoxLexer

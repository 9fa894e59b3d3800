import LoxLexer.Number.Binary64
import LoxLexer.Text.Unicode

/-!
# Reading numerals

A numeral is the text of a floating-point number:

* white space around it, of any script, does not count;
* an optional sign stands first;
* then comes `inf`, `infinity` or `nan` in letters of either case, or digits with at most one
  point among them and at least one digit, and then, perhaps, `e` or `E` and an exponent of an
  optional sign and at least one digit;
* digits of any script count, and a single underscore may stand between two digits.

* `Numeral.ascii?` — digits and spaces of every script brought to ASCII.
* `Numeral.read?` — the value of a text, or `none` if it is not a numeral.
-/

namespace LoxLexer
namespace Numeral

/-- A character as the ASCII character that a numeral may hold in its place. -/
def asciiChar? (c : Char) : Option Char :=
  if c.toNat < 0x80 then some c
  else if Unicode.isSpace c then some ' '
  else (Unicode.digitValue? c).map Nat.digitChar

/-- Digits and spaces of every script brought to ASCII; `none` if any other character is beyond
ASCII. -/
def ascii? (text : Text) : Option Text := text.mapM asciiChar?

/-- The white space that may surround a numeral. -/
def isBlank (c : Char) : Bool := c = ' ' || (0x09 ≤ c.toNat && c.toNat ≤ 0x0d)

/-- A text without the white space around it. -/
def trim (text : Text) : Text :=
  ((text.dropWhile isBlank).reverse.dropWhile isBlank).reverse

/-- A text without its underscores, each of which must stand between two digits; `previous` is
the character before the text. -/
def withoutUnderscores? (previous : Option Char) : Text → Option Text
  | [] => some []
  | '_' :: rest =>
    if previous.any Char.isDigit && rest.head?.any Char.isDigit then
      withoutUnderscores? (some '_') rest
    else none
  | c :: rest => (withoutUnderscores? (some c) rest).map (c :: ·)

/-- The number that a sequence of ASCII digits denotes, most significant first. -/
def digitsValue (digits : Text) : Nat :=
  digits.foldl (fun value c => value * 10 + (c.toNat - '0'.toNat)) 0

/-- A sign, and what follows it. -/
def splitSign : Text → Bool × Text
  | '-' :: rest => (true, rest)
  | '+' :: rest => (false, rest)
  | rest => (false, rest)

/-- The exponent that a text consists of: nothing, or `e`, an optional sign and digits. -/
def exponent? : Text → Option Int
  | [] => some 0
  | c :: rest =>
    let (negative, digits) := splitSign rest
    if c.toLower = 'e' ∧ digits ≠ [] ∧ digits.all Char.isDigit then
      some (if negative then -(digitsValue digits : Int) else digitsValue digits)
    else none

/-- The value of a numeral without sign that consists of digits, a point and an exponent. -/
def decimal? (negative : Bool) (text : Text) : Option Binary64 :=
  let whole := text.takeWhile Char.isDigit
  let rest := text.dropWhile Char.isDigit
  let (fraction, rest) := match rest with
    | '.' :: more => (more.takeWhile Char.isDigit, more.dropWhile Char.isDigit)
    | _ => ([], rest)
  if whole ++ fraction = [] then none
  else (exponent? rest).map fun exponent =>
    Binary64.ofScientific negative (digitsValue (whole ++ fraction))
      (exponent - fraction.length)

/-- The value of an ASCII numeral without surrounding space and without underscores. -/
def plain? (text : Text) : Option Binary64 :=
  let (negative, magnitude) := splitSign text
  let word := magnitude.map Char.toLower
  if word = "inf".toList ∨ word = "infinity".toList then some (.infinite negative)
  else if word = "nan".toList then some .nan
  else decimal? negative magnitude

/-- The value of a text, if it is a numeral. -/
def read? (text : Text) : Option Binary64 :=
  (ascii? text).bind fun plain => (withoutUnderscores? none (trim plain)).bind plain?

end Numeral
end LoxLexer

/-!
# Text

Text is a list of code points.  Every position, length and column of the library counts code
points, so positions in a text are positions in the list.

* `Text.lineFeeds` — how many line feeds a text holds.
* `Text.slice` — the part between two positions, clamped to the text.
* `Text.ofNat`, `Text.ofInt` — decimal notation of integers.
* `Text.hex` — hexadecimal notation of a fixed width; `Text.valueInBase` reads digits.
* `Text.split`, `Text.join` — cutting at a separator and putting together.
-/

namespace LoxLexer

/-- A sequence of code points. -/
abbrev Text := List Char

namespace Text

/-- How many line feeds a text holds. -/
def lineFeeds (text : Text) : Nat := text.count '\n'

@[simp] theorem lineFeeds_nil : lineFeeds [] = 0 := rfl

@[simp] theorem lineFeeds_append (a b : Text) :
    lineFeeds (a ++ b) = lineFeeds a + lineFeeds b :=
  List.count_append

/-- The part of a text from position `first` up to, not including, position `last`. -/
def slice (text : Text) (first last : Nat) : Text := (text.take last).drop first

/-- The decimal notation of a natural number. -/
def ofNat (n : Nat) : Text := Nat.toDigits 10 n

/-- The decimal notation of an integer, with a minus sign if it is negative. -/
def ofInt : Int → Text
  | .ofNat n => ofNat n
  | .negSucc n => '-' :: ofNat (n + 1)

/-- The lower-case hexadecimal digit of `n < 16`. -/
def hexDigit (n : Nat) : Char := Nat.digitChar (n % 16)

/-- The last `width` hexadecimal digits of `n`, the most significant first. -/
def hex : Nat → Nat → Text
  | 0, _ => []
  | width + 1, n => hex width (n / 16) ++ [hexDigit n]

/-- Whether a character is a hexadecimal digit of either case. -/
def isHexDigit (c : Char) : Bool :=
  c.isDigit || ('a' ≤ c && c ≤ 'f') || ('A' ≤ c && c ≤ 'F')

/-- The value of a hexadecimal digit. -/
def hexDigitValue (c : Char) : Nat :=
  if c.isDigit then c.toNat - '0'.toNat else c.toLower.toNat - 'a'.toNat + 10

/-- The number that digits denote in a base, the most significant first. -/
def valueInBase (base : Nat) (digits : Text) : Nat :=
  digits.foldl (fun value c => value * base + hexDigitValue c) 0

/-- `text` with blanks before it up to `width` characters. -/
def padLeft (width : Nat) (text : Text) : Text :=
  List.replicate (width - text.length) ' ' ++ text

/-- `text` with blanks behind it up to `width` characters. -/
def padRight (width : Nat) (text : Text) : Text :=
  text ++ List.replicate (width - text.length) ' '

/-- The parts of a text between its separators: one more than there are separators. -/
def split (separator : Char) : Text → List Text
  | [] => [[]]
  | c :: rest =>
    if c = separator then [] :: split separator rest
    else
      match split separator rest with
      | [] => [[c]]
      | part :: parts => (c :: part) :: parts

/-- The parts with `separator` between each two of them. -/
def join (separator : Text) : List Text → Text
  | [] => []
  | [part] => part
  | part :: parts => part ++ separator ++ join separator parts

/-- Whether a text is exactly one character, and one that has the property. -/
def isSingle (property : Char → Bool) : Text → Bool
  | [c] => property c
  | _ => false

end Text
end LoxLexer

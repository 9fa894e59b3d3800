import LoxLexer.Number.Numeral
import LoxLexer.Text.Basic
import LoxLexer.Toml.Value

/-!
# Reading TOML keys and scalars

Each reader takes what it reads from the front of a text and gives the rest.  It gives nothing if
the text does not start with what it reads.

* `basicString?`, `literalString?` and their forms over several lines.
* `key?` — a dotted key.
* `moment?` — a date, a time, or both.
* `number?` — an integer or a float.
-/

namespace LoxLexer
namespace Toml

/-- A reader of values at the front of a text. -/
abbrev Reader (α : Type) := Text → Option (α × Text)

/-- White space within a line. -/
def isSpace (c : Char) : Bool := c = ' ' || c = '\t'

/-- White space, line feeds included. -/
def isSpaceOrLineFeed (c : Char) : Bool := isSpace c || c = '\n'

/-- A text without the white space in front. -/
def skipSpace (text : Text) : Text := text.dropWhile isSpace

/-- A control character. -/
def isControl (c : Char) : Bool := c.toNat < 0x20 || c = '\x7f'

/-- A character that may not stand in a comment or a string of one line. -/
def isIllegal (c : Char) : Bool := isControl c && c ≠ '\t'

/-- A character that may not stand in a string of several lines. -/
def isIllegalInLines (c : Char) : Bool := isIllegal c && c ≠ '\n'

/-! ### Strings -/

/-- The character that the first `count` hexadecimal digits of a text stand for. -/
def codePoint? (count : Nat) (text : Text) : Option Char :=
  let digits := text.take count
  if digits.length = count ∧ digits.all Text.isHexDigit then
    let value := Text.valueInBase 16 digits
    if value.isValidChar then some (Char.ofNat value) else none
  else none

/-- How far a backslash at the end of a line reaches: over the white space around the line feed
and the empty lines behind it. -/
def continuationReach? (text : Text) : Option Nat :=
  let blanks := (text.takeWhile isSpace).length
  if (text.drop blanks).head? = some '\n' then
    some (text.takeWhile isSpaceOrLineFeed).length
  else none

/-- What the escape behind a backslash stands for, and how far it reaches. -/
def escape? (lines : Bool) : Text → Option (Text × Nat)
  | [] => none
  | c :: rest =>
    match c with
    | 'b' => some (['\x08'], 1)
    | 't' => some (['\t'], 1)
    | 'n' => some (['\n'], 1)
    | 'f' => some (['\x0c'], 1)
    | 'r' => some (['\r'], 1)
    | '"' => some (['"'], 1)
    | '\\' => some (['\\'], 1)
    | 'u' => (codePoint? 4 rest).map fun found => ([found], 5)
    | 'U' => (codePoint? 8 rest).map fun found => ([found], 9)
    | _ =>
      if lines ∧ isSpaceOrLineFeed c then
        (continuationReach? (c :: rest)).map fun reach => ([], reach)
      else none

/-- The rest of a basic string, up to and including its closing quotes: one, or three in a string
of several lines. -/
def basicString? (lines : Bool) (text : Text) : Option (Text × Text) :=
  match text with
  | [] => none
  | '"' :: rest =>
    if ¬lines then some ([], rest)
    else if rest.take 2 = ['"', '"'] then some ([], rest.drop 2)
    else (basicString? lines rest).map fun (more, rest) => ('"' :: more, rest)
  | '\\' :: rest =>
    match escape? lines rest with
    | none => none
    | some (found, reach) =>
      (basicString? lines (rest.drop reach)).map fun (more, rest) => (found ++ more, rest)
  | c :: rest =>
    if (if lines then isIllegalInLines c else isIllegal c) then none
    else (basicString? lines rest).map fun (more, rest) => (c :: more, rest)
termination_by text.length
decreasing_by all_goals (simp only [List.length_cons, List.length_drop]; omega)

/-- The rest of a literal string, up to and including its closing apostrophe. -/
def literalString? : Text → Option (Text × Text)
  | [] => none
  | '\'' :: rest => some ([], rest)
  | c :: rest =>
    if isIllegal c then none
    else (literalString? rest).map fun (more, rest) => (c :: more, rest)

/-- The rest of a literal string of several lines, up to and including three apostrophes. -/
def literalLines? : Text → Option (Text × Text)
  | [] => none
  | '\'' :: '\'' :: '\'' :: rest => some ([], rest)
  | c :: rest =>
    if isIllegalInLines c then none
    else (literalLines? rest).map fun (more, rest) => (c :: more, rest)

/-- A text without the line feed that it may start with. -/
def skipLineFeed : Text → Text
  | '\n' :: rest => rest
  | rest => rest

/-- A string of several lines and what follows it.  Up to two more delimiters belong to it. -/
def withDelimiters (delimiter : Char) (found : Text × Text) : Text × Text :=
  let more := min 2 (found.2.takeWhile (· = delimiter)).length
  (found.1 ++ List.replicate more delimiter, found.2.drop more)

/-- A string in any of the four notations. -/
def string? : Reader Text
  | '"' :: '"' :: '"' :: rest =>
    (basicString? true (skipLineFeed rest)).map (withDelimiters '"')
  | '"' :: rest => basicString? false rest
  | '\'' :: '\'' :: '\'' :: rest =>
    (literalLines? (skipLineFeed rest)).map (withDelimiters '\'')
  | '\'' :: rest => literalString? rest
  | _ => none

/-! ### Keys -/

/-- A character that a key may hold without quotes. -/
def isKeyChar (c : Char) : Bool := c.isAlphanum || c = '-' || c = '_'

/-- A part of a dotted key. -/
def keyPart? : Reader Text
  | '"' :: rest => basicString? false rest
  | '\'' :: rest => literalString? rest
  | text =>
    match text.takeWhile isKeyChar with
    | [] => none
    | part => some (part, text.dropWhile isKeyChar)

/-- The further parts of a dotted key; `fuel` bounds their number. -/
def keyTail? : Nat → Reader (List Text)
  | 0, _ => none
  | fuel + 1, text =>
    match skipSpace text with
    | '.' :: rest => do
      let (part, rest) ← keyPart? (skipSpace rest)
      let (parts, rest) ← keyTail? fuel rest
      return (part :: parts, rest)
    | rest => some ([], rest)

/-- A dotted key and the white space behind it: its first part and the others. -/
def key? : Reader (List Text) := fun text => do
  let (part, rest) ← keyPart? text
  let (parts, rest) ← keyTail? (rest.length + 1) rest
  return (part :: parts, rest)

/-! ### Dates and times -/

/-- A number of exactly `count` digits. -/
def digits? (count : Nat) : Reader Nat := fun text =>
  let digits := text.take count
  if digits.length = count ∧ digits.all Char.isDigit then
    some (Numeral.digitsValue digits, text.drop count)
  else none

/-- A number of two digits between two bounds. -/
def twoDigits? (low high : Nat) : Reader Nat := fun text => do
  let (value, rest) ← digits? 2 text
  if low ≤ value ∧ value ≤ high then some (value, rest) else none

/-- A single character. -/
def char? (property : Char → Bool) : Reader Char
  | c :: rest => if property c then some (c, rest) else none
  | [] => none

/-- A date, whether or not it exists. -/
def date? : Reader Date := fun text => do
  let (year, rest) ← digits? 4 text
  let (_, rest) ← char? (· = '-') rest
  let (month, rest) ← twoDigits? 1 12 rest
  let (_, rest) ← char? (· = '-') rest
  let (day, rest) ← twoDigits? 1 31 rest
  return (⟨year, month, day⟩, rest)

/-- The microseconds that the digits behind a point denote; further digits do not count. -/
def fraction : Text → Nat × Text
  | '.' :: rest =>
    match rest.takeWhile Char.isDigit with
    | [] => (0, '.' :: rest)
    | digits =>
      let six := digits.take 6
      (Numeral.digitsValue six * tenTo (6 - six.length), rest.dropWhile Char.isDigit)
  | rest => (0, rest)

/-- A time of the day. -/
def time? : Reader Time := fun text => do
  let (hour, rest) ← twoDigits? 0 23 text
  let (_, rest) ← char? (· = ':') rest
  let (minute, rest) ← twoDigits? 0 59 rest
  let (_, rest) ← char? (· = ':') rest
  let (second, rest) ← twoDigits? 0 59 rest
  let (microsecond, rest) := fraction rest
  return (⟨hour, minute, second, microsecond⟩, rest)

/-- An offset from UTC in minutes. -/
def offset? : Reader Int := fun text => do
  let (first, rest) ← char? (fun c => c ∈ ['Z', 'z', '+', '-']) text
  if first = 'Z' ∨ first = 'z' then return (0, rest)
  let (hours, rest) ← twoDigits? 0 23 rest
  let (_, rest) ← char? (· = ':') rest
  let (minutes, rest) ← twoDigits? 0 59 rest
  let ahead : Int := 60 * hours + minutes
  return (if first = '-' then -ahead else ahead, rest)

/-- The time and the offset behind a date. -/
def timeOfDay? : Reader (Time × Option Int) := fun text => do
  let (_, rest) ← char? (fun c => c ∈ ['T', 't', ' ']) text
  let (time, rest) ← time? rest
  match offset? rest with
  | some (offset, rest) => return ((time, some offset), rest)
  | none => return ((time, none), rest)

/-- What a text that starts with a date or a time denotes; `none` within if the date does not
exist. -/
def moment? : Reader (Option Value) := fun text =>
  match date? text with
  | some (date, rest) =>
    let (value, rest) := match timeOfDay? rest with
      | some ((time, offset), rest) => (Value.dateTime date time offset, rest)
      | none => (Value.date date, rest)
    some (if date.exists then some value else none, rest)
  | none => (time? text).map fun (time, rest) => (some (.time time), rest)

/-! ### Numbers -/

/-- Further digits of a kind, each with at most one underscore before it. -/
def moreDigits (property : Char → Bool) : Text → Text × Text
  | '_' :: c :: rest =>
    if property c then
      let (digits, rest) := moreDigits property rest
      (c :: digits, rest)
    else ([], '_' :: c :: rest)
  | c :: rest =>
    if property c then
      let (digits, rest) := moreDigits property rest
      (c :: digits, rest)
    else ([], c :: rest)
  | [] => ([], [])

/-- Digits of a kind, at least one. -/
def someDigits? (property : Char → Bool) : Reader Text := fun text => do
  let (first, rest) ← char? property text
  let (digits, rest) := moreDigits property rest
  return (first :: digits, rest)

/-- An integer of base two, eight or sixteen, behind its mark. -/
def based? : Reader Nat
  | '0' :: 'x' :: rest =>
    (someDigits? Text.isHexDigit rest).map fun (digits, rest) => (Text.valueInBase 16 digits, rest)
  | '0' :: 'b' :: rest =>
    (someDigits? (fun c => c = '0' || c = '1') rest).map fun (digits, rest) =>
      (Text.valueInBase 2 digits, rest)
  | '0' :: 'o' :: rest =>
    (someDigits? (fun c => '0' ≤ c && c ≤ '7') rest).map fun (digits, rest) =>
      (Text.valueInBase 8 digits, rest)
  | _ => none

/-- The whole part of a decimal number: zero, or digits that do not start with zero. -/
def wholePart? : Reader Text
  | '0' :: rest => some (['0'], rest)
  | text => someDigits? Char.isDigit text

/-- The fraction behind a whole part. -/
def fractionPart? : Reader Text
  | '.' :: rest => someDigits? Char.isDigit rest
  | _ => none

/-- The exponent behind a number. -/
def exponentPart? : Reader Int := fun text => do
  let (_, rest) ← char? (fun c => c = 'e' || c = 'E') text
  let (negative, rest) := Numeral.splitSign rest
  let (digits, rest) ← someDigits? Char.isDigit rest
  let value : Int := Numeral.digitsValue digits
  return (if negative then -value else value, rest)

/-- A number as it is written. -/
inductive Number
  | based (value : Nat)
  | whole (negative : Bool) (digits : Text)
  | float (value : Binary64)

/-- A part that may be missing: what is read, if anything, and the rest. -/
def orNothing {α : Type} (reader : Reader α) (text : Text) : Option α × Text :=
  match reader text with
  | some (value, rest) => (some value, rest)
  | none => (none, text)

/-- A decimal number: an integer, or a float if it has a fraction or an exponent. -/
def decimal? : Reader Number := fun text => do
  let (negative, rest) := Numeral.splitSign text
  let (whole, rest) ← wholePart? rest
  let (fraction, rest) := orNothing fractionPart? rest
  let (exponent, rest) := orNothing exponentPart? rest
  if fraction = none ∧ exponent = none then return (.whole negative whole, rest)
  let decimals := fraction.getD []
  return (.float (Binary64.ofScientific negative (Numeral.digitsValue (whole ++ decimals))
    (exponent.getD 0 - decimals.length)), rest)

/-- An infinity or a nan. -/
def special? : Reader Binary64 := fun text =>
  let (negative, rest) := Numeral.splitSign text
  match rest with
  | 'i' :: 'n' :: 'f' :: rest => some (.infinite negative, rest)
  | 'n' :: 'a' :: 'n' :: rest => some (.nan, rest)
  | _ => none

/-- A number in any notation. -/
def number? : Reader Number := fun text =>
  match based? text with
  | some (value, rest) => some (.based value, rest)
  | none =>
    match decimal? text with
    | some found => some found
    | none => (special? text).map fun (value, rest) => (.float value, rest)

end Toml
end LoxLexer

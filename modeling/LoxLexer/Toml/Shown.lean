import LoxLexer.Number.Decimal
import LoxLexer.Text.Quoted
import LoxLexer.Toml.Value

/-!
# TOML values in messages

A value in a message stands for itself: a string without quotes, a date as in ISO 8601.  Within an
array or a table it is written so that its type shows: strings are quoted, and dates and times are
written as calls that would make them.

* `Value.literal` — the notation within arrays and tables.
* `Value.shown` — the notation of a value by itself.
* `Value.obstacle?` — what keeps a value from being shown: a very long integer, or too many levels.
-/

namespace LoxLexer
namespace Toml

/-- A number of at least `width` digits, with zeros in front. -/
def zeroPadded (width n : Nat) : Text :=
  let digits := Text.ofNat n
  List.replicate (width - digits.length) '0' ++ digits

/-- A truth value. -/
def booleanText (value : Bool) : Text := if value then "True".toList else "False".toList

/-- A date in ISO 8601. -/
def Date.iso (date : Date) : Text :=
  zeroPadded 4 date.year ++ '-' :: zeroPadded 2 date.month ++ '-' :: zeroPadded 2 date.day

/-- A time in ISO 8601; the fraction of a second is left out if it is zero. -/
def Time.iso (time : Time) : Text :=
  zeroPadded 2 time.hour ++ ':' :: zeroPadded 2 time.minute ++ ':' :: zeroPadded 2 time.second ++
    if time.microsecond = 0 then [] else '.' :: zeroPadded 6 time.microsecond

/-- An offset from UTC in ISO 8601. -/
def offsetIso : Option Int → Text
  | none => []
  | some minutes =>
    (if minutes < 0 then '-' else '+') :: zeroPadded 2 (minutes.natAbs / 60) ++
      ':' :: zeroPadded 2 (minutes.natAbs % 60)

/-- Parts with commas between them. -/
def commaSeparated (parts : List Text) : Text := Text.join ", ".toList parts

/-- A call that makes a value: a name and its arguments. -/
def callText (name : Text) (arguments : List Text) : Text :=
  "datetime.".toList ++ name ++ '(' :: commaSeparated arguments ++ [')']

/-- The arguments that make a date. -/
def Date.arguments (date : Date) : List Text := [date.year, date.month, date.day].map Text.ofNat

/-- The arguments that make a time; seconds and microseconds are left out if they are zero. -/
def Time.arguments (time : Time) : List Text :=
  (if time.microsecond ≠ 0 then [time.hour, time.minute, time.second, time.microsecond]
  else if time.second ≠ 0 then [time.hour, time.minute, time.second]
  else [time.hour, time.minute]).map Text.ofNat

/-- An argument that is given by name. -/
def namedArgument (name value : Text) : Text := name ++ '=' :: value

/-- The span of time that makes an offset: whole days, negative if need be, and seconds. -/
def spanText (minutes : Int) : Text :=
  let days := Int.fdiv minutes 1440
  let seconds := Int.fmod minutes 1440 * 60
  callText "timedelta".toList
    ((if days = 0 then [] else [namedArgument "days".toList (Text.ofInt days)]) ++
      if seconds = 0 then [] else [namedArgument "seconds".toList (Text.ofInt seconds)])

/-- The time zone that makes an offset. -/
def zoneText (minutes : Int) : Text :=
  if minutes = 0 then "datetime.timezone.utc".toList
  else callText "timezone".toList [spanText minutes]

mutual

/-- The notation of a value within arrays and tables. -/
def Value.literal : Value → Text
  | .boolean value => booleanText value
  | .integer value => Text.ofInt value
  | .float value => value.toText
  | .string value => value.quoted
  | .date value => callText "date".toList value.arguments
  | .time value => callText "time".toList value.arguments
  | .dateTime day moment offset =>
    callText "datetime".toList
      (day.arguments ++ moment.arguments ++
        (offset.map fun minutes => namedArgument "tzinfo".toList (zoneText minutes)).toList)
  | .array items => '[' :: commaSeparated (literalItems items) ++ [']']
  | .table entries => '\x7b' :: commaSeparated (literalEntries entries) ++ ['\x7d']

/-- The notations of the items of an array. -/
def literalItems : List Value → List Text
  | [] => []
  | item :: items => item.literal :: literalItems items

/-- The notations of the entries of a table. -/
def literalEntries : List (Text × Value) → List Text
  | [] => []
  | (key, value) :: entries =>
    (Text.quoted key ++ ':' :: ' ' :: value.literal) :: literalEntries entries

end

/-- The notation of a value by itself. -/
def Value.shown : Value → Text
  | .string value => value
  | .date value => value.iso
  | .time value => value.iso
  | .dateTime day moment offset => day.iso ++ ' ' :: moment.iso ++ offsetIso offset
  | value => value.literal

/-- Why a value cannot be shown. -/
inductive Unshowable
  /-- an integer has too many digits -/
  | tooManyDigits
  /-- values within values go beyond the limit -/
  | tooDeep
deriving DecidableEq, Repr

/-- How many levels a value that is shown may have; one that holds no others has one.

Like the steps of reading, levels are calls within calls.  The number is what is left of a thousand
where the message about a format is made, and goes with the depth of that one place. -/
def mostLevels : Nat := 994

mutual

/-- What keeps a value from being shown on `levels` levels: what comes first in its notation. -/
def Value.obstacle? (levels : Nat) (value : Value) : Option Unshowable :=
  if levels = 0 then some .tooDeep
  else
    match value with
    | .integer value =>
      if (Text.ofNat value.natAbs).length ≤ mostDigits then none else some .tooManyDigits
    | .array items => obstacleOfItems? (levels - 1) items
    | .table entries => obstacleOfEntries? (levels - 1) entries
    | _ => none

/-- What keeps the items of an array from being shown. -/
def obstacleOfItems? (levels : Nat) : List Value → Option Unshowable
  | [] => none
  | item :: items => item.obstacle? levels <|> obstacleOfItems? levels items

/-- What keeps the entries of a table from being shown. -/
def obstacleOfEntries? (levels : Nat) : List (Text × Value) → Option Unshowable
  | [] => none
  | (_, value) :: entries => value.obstacle? levels <|> obstacleOfEntries? levels entries

end

end Toml
end LoxLexer

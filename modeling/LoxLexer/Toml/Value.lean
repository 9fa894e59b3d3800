import LoxLexer.Number.Binary64

/-!
# TOML values

* `Toml.Date`, `Toml.Time` — days of the calendar and times of the day.
* `Toml.Value` — a TOML value; a table keeps its entries in the order in which they were made.
* `Toml.Table` — the entries of a table, and how to look one up.
-/

namespace LoxLexer
namespace Toml

/-- A day of the Gregorian calendar. -/
structure Date where
  year : Nat
  month : Nat
  day : Nat
deriving DecidableEq

/-- Whether February of a year has a leap day. -/
def isLeapYear (year : Nat) : Bool :=
  year % 4 = 0 && (year % 100 ≠ 0 || year % 400 = 0)

/-- How many days a month has. -/
def daysIn (year month : Nat) : Nat :=
  if month = 2 then (if isLeapYear year then 29 else 28)
  else if month ∈ [4, 6, 9, 11] then 30
  else 31

/-- Whether a date exists; the calendar starts with the year one. -/
def Date.exists (date : Date) : Bool :=
  1 ≤ date.year && 1 ≤ date.month && date.month ≤ 12 && 1 ≤ date.day &&
    date.day ≤ daysIn date.year date.month

/-- A time of the day. -/
structure Time where
  hour : Nat
  minute : Nat
  second : Nat
  microsecond : Nat
deriving DecidableEq

/-- A TOML value. -/
inductive Value
  | boolean (value : Bool)
  | integer (value : Int)
  | float (value : Binary64)
  | string (value : Text)
  | date (value : Date)
  | time (value : Time)
  /-- a date and a time, with the minutes by which it is ahead of UTC if they are known -/
  | dateTime (date : Date) (time : Time) (offset : Option Int)
  | array (items : List Value)
  | table (entries : List (Text × Value))

/-- The entries of a table, in the order in which they were made. -/
abbrev Table := List (Text × Value)

/-- The most digits that the decimal notation of an integer may have. -/
def mostDigits : Nat := 4300

/-- The value of a key in a table. -/
def Table.get? (table : Table) (key : Text) : Option Value := table.lookup key

/-- The table with a new value for a key that it has. -/
def Table.replace (table : Table) (key : Text) (value : Value) : Table :=
  table.map fun entry => if entry.1 = key then (key, value) else entry

/-- The table with a key that it does not have yet. -/
def Table.append (table : Table) (key : Text) (value : Value) : Table := table ++ [(key, value)]

end Toml
end LoxLexer

import LoxLexer.Toml.Scalar

/-!
# Reading TOML documents

A document is read statement by statement.  Each statement is carried out on the table read so
far; whether it may be depends on how the tables it concerns were made.

* `ReadError` — why a document is refused.
* `Builder` — the table read so far, and what is known about how its parts were made.
* `value` — a value of any type.
* `read` — the table of a document.
-/

namespace LoxLexer
namespace Toml

/-- Why a document is refused. -/
inductive ReadError
  | malformed
  /-- a decimal integer of so many digits -/
  | tooManyDigits (count : Nat)
  /-- values within values beyond the limit -/
  | tooDeep
deriving DecidableEq

/-- How many steps down reading may go, from a value to the values that it holds.  An array takes
`stepsPerArray` of them and an inline table `stepsPerTable`.

Each step is a call within a call, and no more than a thousand calls may be open at once.  The number
is what the calls that are open before the first value leave of them, so it goes with one depth from
which documents are read; from further down, reading would not reach as far. -/
def mostSteps : Nat := 990

/-- The steps from an array to its items. -/
def stepsPerArray : Nat := 2

/-- The steps from an inline table to its values. -/
def stepsPerTable : Nat := 3

/-- The steps that reading needs to look into an array or a table, even if it is empty. -/
def stepsInside : Nat := 3

/-- The steps that reading a key of an inline table needs. -/
def stepsToKey : Nat := 5

/-- A dotted key. -/
abbrev Key := List Text

/-- The table after a change to the table behind a key, which is made if it is missing.  With
`lists`, a list of tables on the way stands for its last table. -/
def updateAt (lists : Bool) (change : Table → Option Table) : Key → Table → Option Table
  | [], table => change table
  | name :: names, table =>
    match table.get? name with
    | none => (updateAt lists change names []).map fun inner => table.append name (.table inner)
    | some (.table inner) =>
      (updateAt lists change names inner).map fun inner => table.replace name (.table inner)
    | some (.array items) =>
      match lists, items.getLast? with
      | true, some (.table inner) =>
        (updateAt lists change names inner).map fun inner =>
          table.replace name (.array (items.dropLast ++ [.table inner]))
      | _, _ => none
    | some _ => none

/-- The table with a new entry; `none` if the key is taken. -/
def Table.insert? (name : Text) (value : Value) (table : Table) : Option Table :=
  if (table.get? name).isSome then none else some (table.append name value)

/-- The table with one more table in the list behind a name. -/
def Table.extendList? (name : Text) (table : Table) : Option Table :=
  match table.get? name with
  | none => some (table.append name (.array [.table []]))
  | some (.array items) => some (table.replace name (.array (items ++ [.table []])))
  | some _ => none

/-- Whether one of `keys` is the start of `key`. -/
def isWithin (keys : List Key) (key : Key) : Bool := keys.any (·.isPrefixOf key)

/-- Whether a value holds others. -/
def Value.isCompound : Value → Bool
  | .array _ => true
  | .table _ => true
  | _ => false

/-! ### Values -/

/-- A text without the comment in front; `none` if the comment holds an illegal character. -/
def skipComment? : Text → Option Text
  | '#' :: rest =>
    if (rest.takeWhile (· ≠ '\n')).any isIllegal then none else some (rest.dropWhile (· ≠ '\n'))
  | rest => some rest

/-- A text without the white space, line feeds and comments in front; `fuel` bounds the number of
comments. -/
def skipBlankLines? : Nat → Text → Option Text
  | 0, _ => none
  | fuel + 1, text =>
    match text.dropWhile isSpaceOrLineFeed with
    | '#' :: rest => (skipComment? ('#' :: rest)).bind (skipBlankLines? fuel)
    | rest => some rest

/-- The result of reading; nothing read means a malformed document. -/
def orMalformed {α : Type} : Option α → Except ReadError α
  | some value => .ok value
  | none => .error .malformed

/-- The value of a number. -/
def Number.value : Number → Except ReadError Value
  | .based value => .ok (.integer value)
  | .float value => .ok (.float value)
  | .whole negative digits =>
    if mostDigits < digits.length then .error (.tooManyDigits digits.length)
    else
      let value : Int := Numeral.digitsValue digits
      .ok (.integer (if negative then -value else value))

/-- A value that holds no others. -/
def scalar (text : Text) : Except ReadError (Value × Text) :=
  match text with
  | 't' :: 'r' :: 'u' :: 'e' :: rest => .ok (.boolean true, rest)
  | 'f' :: 'a' :: 'l' :: 's' :: 'e' :: rest => .ok (.boolean false, rest)
  | '"' :: _ => (orMalformed (string? text)).map fun (value, rest) => (.string value, rest)
  | '\'' :: _ => (orMalformed (string? text)).map fun (value, rest) => (.string value, rest)
  | _ =>
    match moment? text with
    | some (some value, rest) => .ok (value, rest)
    | some (none, _) => .error .malformed
    | none => do
      let (number, rest) ← orMalformed (number? text)
      return (← number.value, rest)

mutual

/-- A value, at most `steps` down; `fuel` bounds the number of values in it. -/
def value (fuel steps : Nat) (text : Text) : Except ReadError (Value × Text) :=
  match fuel with
  | 0 => .error .malformed
  | fuel + 1 =>
    match text with
    | '[' :: rest =>
      if steps < stepsInside then .error .tooDeep
      else do
        match ← orMalformed (skipBlankLines? (rest.length + 1) rest) with
        | ']' :: rest => return (.array [], rest)
        | rest => items fuel (steps - stepsPerArray) [] rest
    | '\x7b' :: rest =>
      if steps < stepsInside then .error .tooDeep
      else
        match skipSpace rest with
        | '\x7d' :: rest => return (.table [], rest)
        | rest =>
          if steps < stepsToKey then .error .tooDeep
          else entries fuel (steps - stepsPerTable) [] [] rest
    | _ => scalar text

/-- The rest of an array after the items `found`, at an item. -/
def items (fuel steps : Nat) (found : List Value) (text : Text) : Except ReadError (Value × Text) :=
  match fuel with
  | 0 => .error .malformed
  | fuel + 1 => do
    let (item, rest) ← value fuel steps text
    let found := found ++ [item]
    match ← orMalformed (skipBlankLines? (rest.length + 1) rest) with
    | ']' :: rest => return (.array found, rest)
    | ',' :: rest =>
      match ← orMalformed (skipBlankLines? (rest.length + 1) rest) with
      | ']' :: rest => return (.array found, rest)
      | rest => items fuel steps found rest
    | _ => .error .malformed

/-- The rest of an inline table after the entries `found`, at an entry.  Nothing may be added to
the values behind the keys `closed`. -/
def entries (fuel steps : Nat) (found : Table) (closed : List Key) (text : Text) :
    Except ReadError (Value × Text) :=
  match fuel with
  | 0 => .error .malformed
  | fuel + 1 => do
    let (key, rest) ← orMalformed (key? text)
    match rest with
    | '=' :: rest =>
      let (entry, rest) ← value fuel steps (skipSpace rest)
      if isWithin closed key then .error .malformed
      else
        let found ← orMalformed
          (updateAt false (Table.insert? (key.getLastD []) entry) key.dropLast found)
        match skipSpace rest with
        | '\x7d' :: rest => return (.table found, rest)
        | ',' :: rest =>
          entries fuel steps found (if entry.isCompound then key :: closed else closed)
            (skipSpace rest)
        | _ => .error .malformed
    | _ => .error .malformed

end

/-! ### Statements -/

/-- The table read so far, and what is known about how its parts were made. -/
structure Builder where
  table : Table := []
  /-- the table that entries are added to -/
  header : Key := []
  /-- the values to which nothing may be added: those written as a whole -/
  closed : List Key := []
  /-- the tables that have a heading of their own -/
  headed : List Key := []
  /-- the tables made by dotted keys since the last heading, which count as headed after it -/
  pending : List Key := []

namespace Builder

/-- The starts of a dotted key behind a header, the key itself left out. -/
def starts (header key : Key) : List Key :=
  (List.range (key.length - 1)).map fun n => header ++ key.take (n + 1)

/-- Adds an entry. -/
def addEntry (builder : Builder) (key : Key) (value : Value) : Option Builder :=
  let above := builder.header ++ key.dropLast
  let made := starts builder.header key
  if made.any (builder.headed.contains ·) || isWithin builder.closed above then none
  else do
    let table ← updateAt true (Table.insert? (key.getLastD []) value) above builder.table
    return { builder with
      table
      pending := made ++ builder.pending
      closed := if value.isCompound then (builder.header ++ key) :: builder.closed
        else builder.closed }

/-- Notes that a heading follows. -/
def closeSection (builder : Builder) : Builder :=
  { builder with headed := builder.pending ++ builder.headed, pending := [] }

/-- Turns to the table of a heading. -/
def openTable (builder : Builder) (key : Key) : Option Builder :=
  if builder.headed.contains key || isWithin builder.closed key then none
  else do
    let table ← updateAt true some key builder.table
    return { builder with table, headed := key :: builder.headed, header := key }

/-- Turns to a new table at the end of the list of a heading.  What was known of the tables
behind the key concerns the table before. -/
def openListItem (builder : Builder) (key : Key) : Option Builder :=
  if isWithin builder.closed key then none
  else do
    let table ← updateAt true (Table.extendList? (key.getLastD [])) key.dropLast builder.table
    return { builder with
      table
      header := key
      closed := builder.closed.filter fun known => !key.isPrefixOf known
      headed := key :: builder.headed.filter fun known => !key.isPrefixOf known }

/-- Carries out the statement at the front of a text, which is not empty. -/
def statement (builder : Builder) (text : Text) : Except ReadError (Builder × Text) :=
  match text with
  | '[' :: '[' :: rest => do
    let (key, rest) ← orMalformed (key? (skipSpace rest))
    let builder ← orMalformed (builder.closeSection.openListItem key)
    match rest with
    | ']' :: ']' :: rest => return (builder, rest)
    | _ => .error .malformed
  | '[' :: rest => do
    let (key, rest) ← orMalformed (key? (skipSpace rest))
    let builder ← orMalformed (builder.closeSection.openTable key)
    match rest with
    | ']' :: rest => return (builder, rest)
    | _ => .error .malformed
  | text => do
    let (key, rest) ← orMalformed (key? text)
    match rest with
    | '=' :: rest =>
      let rest := skipSpace rest
      let (entry, rest) ← value (2 * rest.length + 2) mostSteps rest
      return (← orMalformed (builder.addEntry key entry), rest)
    | _ => .error .malformed

/-- Carries out the statements of a text; `fuel` bounds the number of lines. -/
def statements (builder : Builder) : Nat → Text → Except ReadError Builder
  | 0, _ => .error .malformed
  | fuel + 1, text =>
    match skipSpace text with
    | [] => .ok builder
    | '\n' :: rest => builder.statements fuel rest
    | first :: rest => do
      let (builder, rest) ←
        if first = '#' then pure (builder, first :: rest) else builder.statement (first :: rest)
      match ← orMalformed (skipComment? (skipSpace rest)) with
      | [] => return builder
      | '\n' :: rest => builder.statements fuel rest
      | _ => .error .malformed

end Builder

/-- A text with a line feed for each pair of carriage return and line feed. -/
def unifyLines : Text → Text
  | '\r' :: '\n' :: rest => '\n' :: unifyLines rest
  | c :: rest => c :: unifyLines rest
  | [] => []

/-- The table of a document. -/
def read (text : Text) : Except ReadError Table :=
  let text := unifyLines text
  (({} : Builder).statements (text.length + 1) text).map Builder.table

end Toml
end LoxLexer

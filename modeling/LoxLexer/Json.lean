import LoxLexer.Number.Decimal

/-!
# JSON documents

* `Json` — a JSON value; the members of an object keep their order.
* `Json.quoted` — a string in ASCII, everything else escaped in UTF-16.
* `Json.write` — a value over several lines, each level two blanks deeper.
-/

namespace LoxLexer

/-- A JSON value. -/
inductive Json
  | null
  | integer (value : Int)
  | number (value : Binary64)
  | string (value : Text)
  | array (items : List Json)
  | object (members : List (Text × Json))

namespace Json

/-- A UTF-16 code unit as an escape. -/
def escapeUnit (unit : Nat) : Text := '\\' :: 'u' :: Text.hex 4 unit

/-- A character in a string: escaped unless it is a printable ASCII character that may stand for
itself. -/
def escape (c : Char) : Text :=
  if c = '"' then ['\\', '"']
  else if c = '\\' then ['\\', '\\']
  else if c = '\n' then ['\\', 'n']
  else if c = '\r' then ['\\', 'r']
  else if c = '\t' then ['\\', 't']
  else if c = '\x08' then ['\\', 'b']
  else if c = '\x0c' then ['\\', 'f']
  else if 0x20 ≤ c.toNat ∧ c.toNat < 0x7f then [c]
  else if c.toNat < 0x10000 then escapeUnit c.toNat
  else
    escapeUnit (0xd800 + (c.toNat - 0x10000) / 0x400) ++
      escapeUnit (0xdc00 + (c.toNat - 0x10000) % 0x400)

/-- A string in quotes. -/
def quoted (text : Text) : Text := '"' :: text.flatMap escape ++ ['"']

/-- A number.  What no JSON number denotes is written as a word. -/
def numberText : Binary64 → Text
  | .finite negative rank => Binary64.finiteText negative rank
  | .infinite negative => Binary64.signText negative ++ "Infinity".toList
  | .nan => "NaN".toList

/-- The start of a line at a depth. -/
def newLine (depth : Nat) : Text := '\n' :: List.replicate (2 * depth) ' '

mutual

/-- A value whose first line stands at a depth. -/
def write (depth : Nat) : Json → Text
  | null => "null".toList
  | integer value => Text.ofInt value
  | number value => numberText value
  | string value => quoted value
  | array [] => "[]".toList
  | array (item :: items) =>
    '[' :: newLine (depth + 1) ++ write (depth + 1) item ++ writeItems (depth + 1) items ++
      newLine depth ++ [']']
  | object [] => "{}".toList
  | object ((key, value) :: members) =>
    '{' :: newLine (depth + 1) ++ quoted key ++ ':' :: ' ' :: write (depth + 1) value ++
      writeMembers (depth + 1) members ++ newLine depth ++ ['}']

/-- Further items of an array, each after a comma on a line of its own. -/
def writeItems (depth : Nat) : List Json → Text
  | [] => []
  | item :: items => ',' :: newLine depth ++ write depth item ++ writeItems depth items

/-- Further members of an object, each after a comma on a line of its own. -/
def writeMembers (depth : Nat) : List (Text × Json) → Text
  | [] => []
  | (key, value) :: members =>
    ',' :: newLine depth ++ quoted key ++ ':' :: ' ' :: write depth value ++
      writeMembers depth members

end

end Json
end LoxLexer

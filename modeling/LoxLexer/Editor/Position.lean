import LoxLexer.Text.Basic

/-!
# Positions in a document

Lines and columns are counted from zero.  Editors exchange them as numbers of 31 bits, so a
position beyond that does not exist.

* `Position` — a line and a column, both within the bound.
* `Position.ofInts` — the position of a line and a column, or which of them is out of bounds.
* `Range` — the positions between two.
-/

namespace LoxLexer
namespace Editor

/-- The greatest line or column. -/
def greatestCoordinate : Nat := 2147483647

/-- A place in a document. -/
structure Position where
  line : Nat
  character : Nat
  line_le : line ≤ greatestCoordinate
  character_le : character ≤ greatestCoordinate
deriving DecidableEq

/-- The two coordinates of a position. -/
inductive Coordinate
  | line
  | character
deriving DecidableEq, Repr

/-- The name of a coordinate. -/
def Coordinate.name : Coordinate → Text
  | line => "line".toList
  | character => "character".toList

/-- A coordinate that is out of bounds, and its value. -/
structure PositionError where
  coordinate : Coordinate
  value : Int
deriving DecidableEq

/-- What is said about a coordinate that is out of bounds. -/
def PositionError.message (error : PositionError) : Text :=
  "Position.".toList ++ error.coordinate.name ++ " should be in range [0:".toList ++
    Text.ofNat greatestCoordinate ++ "], but was ".toList ++ Text.ofInt error.value ++ ['.']

/-- Whether a number is a line or a column. -/
def IsCoordinate (value : Int) : Prop := 0 ≤ value ∧ value ≤ greatestCoordinate

instance (value : Int) : Decidable (IsCoordinate value) :=
  inferInstanceAs (Decidable (0 ≤ value ∧ value ≤ greatestCoordinate))

/-- The position of a line and a column.  The line is looked at first. -/
def Position.ofInts (line character : Int) : Except PositionError Position :=
  if hl : IsCoordinate line then
    if hc : IsCoordinate character then
      .ok ⟨line.toNat, character.toNat, Int.toNat_le.2 hl.2, Int.toNat_le.2 hc.2⟩
    else .error ⟨.character, character⟩
  else .error ⟨.line, line⟩

/-- The places from `start` up to, not including, `stop`. -/
structure Range where
  start : Position
  stop : Position
deriving DecidableEq

end Editor
end LoxLexer

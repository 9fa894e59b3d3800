import LoxLexer.Number.Binary64

/-!
# Decimal notation of binary floating point

The notation of a binary64 value is the shortest that reads back as the same value.

* `Decimal` — a magnitude `0.d₁d₂… · 10^point` given by its digits.
* `shortest` — the fewest digits that read back and, of those, the nearest to the value.
* `Decimal.layout` — positional notation while the first digit stands for `10^-4` to `10^15`,
  with at least one digit on either side of the point; else a signed exponent of two digits or
  more.
* `Binary64.toText` — the notation of any value.
-/

namespace LoxLexer

/-- The magnitude `0.d₁d₂… · 10^point`. -/
structure Decimal where
  digits : Text
  point : Int
deriving DecidableEq

namespace Decimal

/-- The decimal `coefficient · 10^exponent`, without zeros at its end. -/
def ofCoefficient (coefficient : Nat) (exponent : Int) : Decimal :=
  let digits := Text.ofNat coefficient
  { digits := (digits.reverse.dropWhile (· = '0')).reverse
    point := digits.length + exponent }

/-- The ratio `num / den` divided by `10^exponent`, again as a ratio. -/
def scaled (num den : Nat) : Int → Nat × Nat
  | .ofNat e => (num, den * tenTo e)
  | .negSucc e => (num * tenTo (e + 1), den)

/-- Whether `coefficient · 10^exponent` reads as the positive finite value of `rank`. -/
def readsAs (rank coefficient : Nat) (exponent : Int) : Bool :=
  Binary64.ofScientific false coefficient exponent = Binary64.ofRank false rank

/-- The multiple of `10^exponent` that reads as the value of `rank`, if one does: of the two
neighbours of the value the nearer that does, and the even one if both are as near. -/
def onGrid? (rank : Nat) (exponent : Int) : Option Decimal :=
  let (num, den) := scaled (Binary64.units rank) (twoTo 1074) exponent
  let below := num / den
  let candidates :=
    if Binary64.roundHalfEven num den = below then [below, below + 1] else [below + 1, below]
  (candidates.find? (readsAs rank · exponent)).map (ofCoefficient · exponent)

/-- The place of the decimal point of the value of `rank`, counted from its first digit. -/
def pointOf (rank : Nat) : Int :=
  (Text.ofNat (Binary64.units rank * tenTo 324 / twoTo 1074)).length - 324

/-- The fewest digits that read back as the positive finite value of `rank`: seventeen always
do.  The exact decimal expansion stands behind them. -/
def shortest (rank : Nat) : Decimal :=
  let point := pointOf rank
  (List.range 17).findSome? (fun (n : Nat) => onGrid? rank (point - (n + 1))) |>.getD
    (ofCoefficient (Binary64.units rank * Nat.pow 5 1074) (-1074))

/-- An exponent: its sign and at least two digits. -/
def exponentText (exponent : Int) : Text :=
  let digits := Text.ofNat exponent.natAbs
  (if exponent < 0 then '-' else '+') :: List.replicate (2 - digits.length) '0' ++ digits

/-- A decimal as text. -/
def layout (d : Decimal) : Text :=
  if 0 < d.point ∧ d.point ≤ 16 then
    let whole := d.point.toNat
    if d.digits.length ≤ whole then
      d.digits ++ List.replicate (whole - d.digits.length) '0' ++ ".0".toList
    else d.digits.take whole ++ '.' :: d.digits.drop whole
  else if -4 < d.point ∧ d.point ≤ 0 then
    "0.".toList ++ List.replicate (-d.point).toNat '0' ++ d.digits
  else
    let fraction := d.digits.drop 1
    d.digits.take 1 ++ (if fraction = [] then [] else '.' :: fraction) ++
      'e' :: exponentText (d.point - 1)

end Decimal

namespace Binary64

/-- The sign of a number in its notation. -/
def signText (negative : Bool) : Text := if negative then ['-'] else []

/-- The notation of a finite value. -/
def finiteText (negative : Bool) (rank : Nat) : Text :=
  signText negative ++
    if rank = 0 then "0.0".toList else (Decimal.shortest rank).layout

/-- The notation of a value. -/
def toText : Binary64 → Text
  | finite negative rank => finiteText negative rank
  | infinite negative => signText negative ++ "inf".toList
  | nan => "nan".toList

end Binary64
end LoxLexer

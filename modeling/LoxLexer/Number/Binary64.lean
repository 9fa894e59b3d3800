import LoxLexer.Number.Power
import LoxLexer.Text.Basic

/-!
# Binary floating point of 64 bits

The values of the IEEE 754 format binary64, held exactly.  A finite value is a sign and a *rank*:
the position of its magnitude among all finite magnitudes, from zero up.  The rank is the bit
pattern without the sign bit, so the order of ranks is the order of magnitudes, a carry out of
the significand is plain addition, and the rank after the largest finite one is infinity.

* `Binary64.units` — the magnitude of a rank, counted in the least positive magnitude `2^-1074`.
* `Binary64.ofRatio` — the value nearest to a ratio of natural numbers; ties go to the even
  significand, and ratios from `2^1024 - 2^970` on become infinite.
* `Binary64.ofScientific` — the value nearest to `digits · 10^exponent`.
* `Binary64.equal` — numeric equality: the two zeros are equal, and a nan equals nothing.
-/

namespace LoxLexer

/-- How many values of one sign share an exponent. -/
def Binary64.perExponent : Nat := twoTo 52

/-- How many finite magnitudes there are. -/
def Binary64.finiteRanks : Nat := 2047 * Binary64.perExponent

/-- A value of IEEE 754 binary64; all nans are one. -/
inductive Binary64
  | finite (negative : Bool) (rank : Fin Binary64.finiteRanks)
  | infinite (negative : Bool)
  | nan
deriving DecidableEq

namespace Binary64

/-- The magnitude of the finite value of a rank, in units of `2^-1074`. -/
def units (rank : Nat) : Nat :=
  if rank < perExponent then rank
  else (perExponent + rank % perExponent) * twoTo (rank / perExponent - 1)

/-- The value of a rank, or infinity if there is no finite value of that rank. -/
def ofRank (negative : Bool) (rank : Nat) : Binary64 :=
  if h : rank < finiteRanks then finite negative ⟨rank, h⟩ else infinite negative

/-- The zero of a sign. -/
def zero (negative : Bool) : Binary64 := ofRank negative 0

/-- The integer nearest to `num / den`; a tie goes to the even one. -/
def roundHalfEven (num den : Nat) : Nat :=
  let floor := num / den
  match compare (2 * (num % den)) den with
  | .lt => floor
  | .gt => floor + 1
  | .eq => floor + floor % 2

/-- The exponent, in powers of two, of the spacing of the values around `num / den` units. -/
def spacing (num den : Nat) : Nat :=
  let floor := num / den
  if floor < 2 * perExponent then 0 else floor.log2 - 52

/-- The rank nearest to `num / den` units, whether or not a finite value has it. -/
def nearestRank (num den : Nat) : Nat :=
  let shift := spacing num den
  shift * perExponent + roundHalfEven num (den * twoTo shift)

/-- The value nearest to `num / den`, with a sign. -/
def ofRatio (negative : Bool) (num den : Nat) : Binary64 :=
  ofRank negative (nearestRank (num * twoTo 1074) den)

/-- The value nearest to `digits · 10^exponent`, with a sign.  A magnitude of at least `10^400`
is infinite and one below `2^-1100` is zero, which spares the powers of ten far out of range. -/
def ofScientific (negative : Bool) (digits : Nat) (exponent : Int) : Binary64 :=
  if digits = 0 then zero negative
  else match exponent with
    | .ofNat e => if 400 ≤ e then infinite negative else ofRatio negative (digits * tenTo e) 1
    | .negSucc e =>
      if digits.log2 + 1101 < 3 * (e + 1) then zero negative
      else ofRatio negative digits (tenTo (e + 1))

/-- Numeric equality. -/
def equal : Binary64 → Binary64 → Bool
  | finite s a, finite t b => a = b && (s = t || a.val = 0)
  | infinite s, infinite t => s = t
  | _, _ => false

end Binary64
end LoxLexer

import LoxLexer.Number.Binary64
import Mathlib.Algebra.Order.Field.Basic
import Mathlib.Data.Rat.Cast.Order
import Mathlib.Tactic.FieldSimp
import Mathlib.Tactic.Linarith
import Mathlib.Tactic.Ring

/-!
# Rounding to binary64

`Binary64.ofScientific` rounds a decimal in exact integer arithmetic, and cuts the work short where
the result is known beforehand.  What it gives depends on nothing but the rational number that the
decimal denotes, however the number is written.

* `Binary64.nearestRank_units` — a magnitude of the format is rounded to itself.
* `Binary64.ofRatio_eq_infinite_iff` — the least ratio that is rounded to infinity.
* `Binary64.ofScientific_eq_ofRatio` — cutting the work short changes nothing.
* `Binary64.ofScientific_congr` — decimals that denote the same rational round to the same value.
-/

namespace LoxLexer

theorem twoTo_zero : twoTo 0 = 1 := rfl

theorem tenTo_zero : tenTo 0 = 1 := rfl

theorem twoTo_add (m n : Nat) : twoTo (m + n) = twoTo m * twoTo n := Nat.pow_add 2 m n

theorem twoTo_succ (n : Nat) : twoTo (n + 1) = 2 * twoTo n := by
  rw [Nat.add_comm, twoTo_add]
  rfl

theorem twoTo_le_twoTo {m n : Nat} (h : m ≤ n) : twoTo m ≤ twoTo n :=
  Nat.pow_le_pow_right (by decide) h

theorem tenTo_le_tenTo {m n : Nat} (h : m ≤ n) : tenTo m ≤ tenTo n :=
  Nat.pow_le_pow_right (by decide) h

/-- Ten is more than the third power of two. -/
theorem twoTo_le_tenTo (n : Nat) : twoTo (3 * n) ≤ tenTo n :=
  calc twoTo (3 * n) = (2 ^ 3) ^ n := Nat.pow_mul ..
    _ ≤ 10 ^ n := Nat.pow_le_pow_left (by decide) n

namespace Binary64

/-! ### Rounding to an integer -/

variable {num den num' den' k : Nat}

theorem roundHalfEven_mul_left (hk : 0 < k) (num den : Nat) :
    roundHalfEven (k * num) (k * den) = roundHalfEven num den := by
  have hdiv : k * num / (k * den) = num / den := Nat.mul_div_mul_left num den hk
  have hmod : 2 * (k * num % (k * den)) = k * (2 * (num % den)) := by
    rw [Nat.mul_mod_mul_left, Nat.mul_left_comm]
  have hcompare : compare (k * (2 * (num % den))) (k * den) =
      compare (2 * (num % den)) den := by
    simp only [Nat.compare_eq_ite_lt, Nat.mul_lt_mul_left hk]
  rw [roundHalfEven, roundHalfEven, hdiv, hmod, hcompare]

theorem roundHalfEven_mul_self (n : Nat) (hden : 0 < den) :
    roundHalfEven (n * den) den = n := by
  have hlt : 2 * (n * den % den) < den := by rwa [Nat.mul_mod_left]
  rw [roundHalfEven, Nat.compare_eq_lt.mpr hlt, Nat.mul_div_cancel n hden]

theorem div_le_roundHalfEven (num den : Nat) : num / den ≤ roundHalfEven num den := by
  unfold roundHalfEven
  dsimp only
  split <;> omega

theorem roundHalfEven_le (num den : Nat) : roundHalfEven num den ≤ num / den + 1 := by
  unfold roundHalfEven
  dsimp only
  split <;> omega

/-- An even integer is reached from half below it on. -/
theorem le_roundHalfEven_iff (hden : 0 < den) (hk : k % 2 = 0) :
    k ≤ roundHalfEven num den ↔ 2 * (k * den) ≤ 2 * num + den := by
  have hnum : den * (num / den) + num % den = num := Nat.div_add_mod num den
  have hlt : num % den < den := Nat.mod_lt num hden
  -- with `q` for the quotient both sides compare `k` with `q` or with `q + 1`
  have hbelow (h : k ≤ num / den) : 2 * (k * den) ≤ 2 * num := by
    have hmul := Nat.mul_le_mul_right den h
    rw [Nat.mul_comm (num / den)] at hmul
    omega
  have habove (h : num / den + 1 < k) : 2 * num + den < 2 * (k * den) := by
    have hmul : (num / den + 1 + 1) * den ≤ k * den := Nat.mul_le_mul_right den h
    have hexpand : (num / den + 1 + 1) * den = den * (num / den) + den + den := by ring
    omega
  have hnext (h : k = num / den + 1) : k * den = den * (num / den) + den := by
    rw [h]
    ring
  unfold roundHalfEven
  dsimp only
  rcases Nat.lt_trichotomy k (num / den + 1) with hle | heq | hgt
  · have hleft := hbelow (Nat.le_of_lt_succ hle)
    split <;> omega
  · have hleft := hnext heq
    split
    · rename_i hcompare
      rw [Nat.compare_eq_lt] at hcompare
      omega
    · rename_i hcompare
      rw [Nat.compare_eq_gt] at hcompare
      omega
    · rename_i hcompare
      rw [Nat.compare_eq_eq] at hcompare
      omega
  · have hleft := habove hgt
    split <;> omega

/-! ### Rounding to a magnitude of the format -/

theorem spacing_mul_left (hk : 0 < k) (num den : Nat) :
    spacing (k * num) (k * den) = spacing num den := by
  rw [spacing, spacing, Nat.mul_div_mul_left num den hk]

theorem nearestRank_mul_left (hk : 0 < k) (num den : Nat) :
    nearestRank (k * num) (k * den) = nearestRank num den := by
  rw [nearestRank, nearestRank, spacing_mul_left hk, Nat.mul_assoc k den,
    roundHalfEven_mul_left hk]

/-- The nearest rank depends on the ratio alone. -/
theorem nearestRank_congr (hden : 0 < den) (hden' : 0 < den') (h : num * den' = num' * den) :
    nearestRank num den = nearestRank num' den' := by
  calc nearestRank num den = nearestRank (den' * num) (den' * den) :=
        (nearestRank_mul_left hden' num den).symm
    _ = nearestRank (den * num') (den * den') := by
        rw [Nat.mul_comm den' num, h, Nat.mul_comm num' den, Nat.mul_comm den' den]
    _ = nearestRank num' den' := nearestRank_mul_left hden num' den'

theorem perExponent_pos : 0 < perExponent := twoTo_pos 52

/-- The spacing of the values around a ratio, by the place of its leading digit. -/
theorem spacing_cases (num den : Nat) :
    num / den < 2 * perExponent * twoTo (spacing num den) ∧
      (spacing num den ≠ 0 → perExponent * twoTo (spacing num den) ≤ num / den) := by
  unfold spacing
  dsimp only
  generalize num / den = floor
  split
  · rename_i hlt
    exact ⟨by simpa [twoTo] using hlt, fun h => absurd rfl h⟩
  · rename_i hle
    have hfloor : floor ≠ 0 := by
      have hpos := perExponent_pos
      omega
    have hlog : 53 ≤ floor.log2 := by
      rw [Nat.le_log2 hfloor]
      exact Nat.le_of_not_lt hle
    have hupper : 2 * perExponent * twoTo (floor.log2 - 52) = 2 ^ (floor.log2 + 1) := by
      have hexponent : 53 + (floor.log2 - 52) = floor.log2 + 1 := by omega
      rw [← hexponent, Nat.pow_add]
      rfl
    have hlower : perExponent * twoTo (floor.log2 - 52) = 2 ^ floor.log2 := by
      have hexponent : 52 + (floor.log2 - 52) = floor.log2 := by omega
      rw [perExponent, ← twoTo_add, hexponent]
      rfl
    rw [hupper, hlower]
    exact ⟨Nat.lt_log2_self, fun _ => Nat.log2_self_le hfloor⟩

theorem spacing_eq (hden : 0 < den) {shift : Nat}
    (hupper : num < 2 * perExponent * twoTo shift * den)
    (hlower : shift ≠ 0 → perExponent * twoTo shift * den ≤ num) : spacing num den = shift := by
  obtain ⟨hlt, hle⟩ := spacing_cases num den
  rw [Nat.div_lt_iff_lt_mul hden] at hlt
  rw [Nat.le_div_iff_mul_le hden] at hle
  generalize spacing num den = other at hlt hle
  -- were one of them larger, what bounds it from below would be beyond what bounds the other
  have hnot {m n : Nat} (hmn : m < n) (hm : num < 2 * perExponent * twoTo m * den)
      (hn : n ≠ 0 → perExponent * twoTo n * den ≤ num) : False := by
    have hpower : 2 * twoTo m ≤ twoTo n := by
      rw [← twoTo_succ]
      exact twoTo_le_twoTo hmn
    have hbounds : 2 * perExponent * twoTo m * den ≤ perExponent * twoTo n * den := by
      rw [Nat.mul_comm 2, Nat.mul_assoc perExponent 2]
      exact Nat.mul_le_mul_right den (Nat.mul_le_mul_left perExponent hpower)
    have hle := hn (by omega)
    omega
  rcases Nat.lt_trichotomy other shift with hother | hother | hother
  · exact (hnot hother hlt hlower).elim
  · exact hother
  · exact (hnot hother hupper hle).elim

/-- A rank is a power of two above its spacing and a significand. -/
theorem exists_units_eq (rank : Nat) :
    ∃ shift significand, rank = shift * perExponent + significand ∧
      units rank = significand * twoTo shift ∧ significand < 2 * perExponent ∧
      (shift ≠ 0 → perExponent ≤ significand) := by
  have hpos := perExponent_pos
  unfold units
  split
  · rename_i hlt
    exact ⟨0, rank, by omega, by simp [twoTo], by omega, fun h => absurd rfl h⟩
  · rename_i hle
    have hrank : perExponent * (rank / perExponent) + rank % perExponent = rank :=
      Nat.div_add_mod rank perExponent
    have hmod : rank % perExponent < perExponent := Nat.mod_lt rank hpos
    have hquotient : 1 ≤ rank / perExponent := by
      rw [Nat.le_div_iff_mul_le hpos]
      omega
    obtain ⟨shift, hshift⟩ : ∃ shift, rank / perExponent = shift + 1 :=
      ⟨rank / perExponent - 1, by omega⟩
    rw [hshift] at hrank
    refine ⟨shift, perExponent + rank % perExponent, ?_, ?_, by omega, fun _ => by omega⟩
    · rw [Nat.mul_succ, Nat.mul_comm] at hrank
      omega
    · rw [hshift, Nat.add_sub_cancel]

/-- A magnitude of the format is rounded to itself. -/
theorem nearestRank_units (rank : Nat) (hden : 0 < den) :
    nearestRank (units rank * den) den = rank := by
  obtain ⟨shift, significand, hrank, hunits, hlt, hle⟩ := exists_units_eq rank
  have hpower := twoTo_pos shift
  have hspacing : spacing (units rank * den) den = shift := by
    rw [hunits]
    refine spacing_eq hden ?_ fun h => ?_
    · exact Nat.mul_lt_mul_of_pos_right (Nat.mul_lt_mul_of_pos_right hlt hpower) hden
    · exact Nat.mul_le_mul_right den (Nat.mul_le_mul_right _ (hle h))
  have hnum : units rank * den = significand * (den * twoTo shift) := by
    rw [hunits]
    ring
  rw [nearestRank, hspacing, hnum, roundHalfEven_mul_self _ (Nat.mul_pos hden hpower), ← hrank]

/-! ### Infinity -/

/-- The least integer that is rounded to infinity. -/
def leastInfinite : Nat := twoTo 1024 - twoTo 970

theorem leastInfinite_eq : leastInfinite = (4 * perExponent - 1) * twoTo 970 := by
  have hsum : 1024 = 2 + 52 + 970 := rfl
  have hfour : twoTo 2 = 4 := rfl
  rw [leastInfinite, hsum, twoTo_add, twoTo_add, hfour, Nat.sub_mul, Nat.one_mul, perExponent]

/-- The same in units of the least positive magnitude. -/
theorem leastInfinite_units :
    leastInfinite * twoTo 1074 = (4 * perExponent - 1) * twoTo 2044 := by
  rw [leastInfinite_eq, Nat.mul_assoc, ← twoTo_add]

/-- No finite value is nearest exactly if the ratio reaches the midpoint above the largest. -/
theorem finiteRanks_le_nearestRank_iff (hden : 0 < den) :
    finiteRanks ≤ nearestRank num den ↔ (4 * perExponent - 1) * twoTo 2044 * den ≤ num := by
  have hpos := perExponent_pos
  obtain ⟨hlt, hle⟩ := spacing_cases num den
  rw [Nat.div_lt_iff_lt_mul hden] at hlt
  rw [Nat.le_div_iff_mul_le hden] at hle
  rw [nearestRank, finiteRanks]
  generalize spacing num den = shift at hlt hle
  have hwidth : 0 < den * twoTo shift := Nat.mul_pos hden (twoTo_pos shift)
  have hquotient : num / (den * twoTo shift) < 2 * perExponent := by
    rw [Nat.div_lt_iff_lt_mul hwidth, Nat.mul_comm den, ← Nat.mul_assoc]
    exact hlt
  have hround := roundHalfEven_le num (den * twoTo shift)
  have hmidpoint : (4 * perExponent - 1) * twoTo 2044 * den =
      4 * (perExponent * (twoTo 2044 * den)) - twoTo 2044 * den := by
    rw [Nat.mul_assoc, Nat.sub_mul, Nat.one_mul, Nat.mul_assoc]
  rw [hmidpoint]
  have hle' : twoTo 2044 * den ≤ perExponent * (twoTo 2044 * den) :=
    Nat.le_mul_of_pos_left _ hpos
  rcases Nat.lt_trichotomy shift 2045 with hshift | rfl | hshift
  · -- too small for the last exponent: neither side holds
    have hranks : shift * perExponent ≤ 2044 * perExponent :=
      Nat.mul_le_mul_right _ (Nat.le_of_lt_succ hshift)
    have hpower : perExponent * twoTo shift * den ≤ perExponent * (twoTo 2044 * den) := by
      rw [Nat.mul_assoc]
      exact Nat.mul_le_mul_left _
        (Nat.mul_le_mul_right den (twoTo_le_twoTo (Nat.le_of_lt_succ hshift)))
    rw [Nat.mul_assoc 2, Nat.mul_assoc 2] at hlt
    omega
  · -- at the last exponent the midpoint is a tie, which goes to the even rank above
    have heven : 2 * perExponent % 2 = 0 := Nat.mul_mod_right 2 perExponent
    have hiff : 2 * perExponent ≤ roundHalfEven num (den * twoTo 2045) ↔
        2 * (2 * perExponent * (den * twoTo 2045)) ≤ 2 * num + den * twoTo 2045 :=
      le_roundHalfEven_iff hwidth heven
    have hpower : twoTo 2045 = 2 * twoTo 2044 := twoTo_succ 2044
    have hwide : den * twoTo 2045 = 2 * (twoTo 2044 * den) := by
      rw [hpower]
      ring
    rw [hwide] at hiff ⊢
    have hproduct : 2 * (2 * perExponent * (2 * (twoTo 2044 * den))) =
        8 * (perExponent * (twoTo 2044 * den)) := by ring
    rw [hproduct] at hiff
    omega
  · -- beyond the last exponent both sides hold
    have hlower := hle (by omega)
    have hranks : 2046 * perExponent ≤ shift * perExponent := Nat.mul_le_mul_right _ hshift
    have hfloor : perExponent ≤ num / (den * twoTo shift) := by
      rw [Nat.le_div_iff_mul_le hwidth, Nat.mul_comm den, ← Nat.mul_assoc]
      exact hlower
    have hround' := div_le_roundHalfEven num (den * twoTo shift)
    have hpower : 4 * twoTo 2044 ≤ twoTo shift := by
      have hsplit : twoTo (2044 + 1 + 1) = 4 * twoTo 2044 := by
        rw [twoTo_succ, twoTo_succ]
        omega
      rw [← hsplit]
      exact twoTo_le_twoTo hshift
    have hreach : 4 * (perExponent * (twoTo 2044 * den)) ≤ num := by
      calc 4 * (perExponent * (twoTo 2044 * den))
          = perExponent * (4 * twoTo 2044) * den := by ring
        _ ≤ perExponent * twoTo shift * den :=
            Nat.mul_le_mul_right den (Nat.mul_le_mul_left _ hpower)
        _ ≤ num := hlower
    constructor
    · intro _
      omega
    · intro _
      omega

theorem ofRank_eq_infinite_iff {negative : Bool} {rank : Nat} :
    ofRank negative rank = infinite negative ↔ finiteRanks ≤ rank := by
  unfold ofRank
  split
  · rename_i hlt
    simpa using hlt
  · rename_i hle
    simpa using hle

theorem ofRatio_eq_infinite_iff {negative : Bool} (hden : 0 < den) :
    ofRatio negative num den = infinite negative ↔ leastInfinite * den ≤ num := by
  rw [ofRatio, ofRank_eq_infinite_iff, finiteRanks_le_nearestRank_iff hden,
    ← leastInfinite_units, Nat.mul_right_comm]
  exact ⟨fun h => Nat.le_of_mul_le_mul_right h (twoTo_pos 1074),
    fun h => Nat.mul_le_mul_right _ h⟩

/-! ### Decimals -/

theorem ofRatio_congr (negative : Bool) (hden : 0 < den) (hden' : 0 < den')
    (h : num * den' = num' * den) : ofRatio negative num den = ofRatio negative num' den' := by
  have hunits : num * twoTo 1074 * den' = num' * twoTo 1074 * den := by
    rw [Nat.mul_right_comm, h, Nat.mul_right_comm]
  rw [ofRatio, ofRatio, nearestRank_congr hden hden' hunits]

theorem ofRatio_zero (negative : Bool) (hden : 0 < den) :
    ofRatio negative 0 den = zero negative := by
  have hunits : units 0 * den = 0 * twoTo 1074 := by
    rw [units, if_pos perExponent_pos, Nat.zero_mul, Nat.zero_mul]
  rw [ofRatio, ← hunits, nearestRank_units 0 hden, zero]

/-- What is less than half the least positive magnitude is rounded to zero. -/
theorem ofRatio_eq_zero (negative : Bool) (h : 2 * (num * twoTo 1074) < den) :
    ofRatio negative num den = zero negative := by
  have hfloor : num * twoTo 1074 / den = 0 := Nat.div_eq_of_lt (by omega)
  have hmod : num * twoTo 1074 % den = num * twoTo 1074 := Nat.mod_eq_of_lt (by omega)
  have hspacing : spacing (num * twoTo 1074) den = 0 := by
    have hpos := perExponent_pos
    rw [spacing, hfloor, if_pos (by omega)]
  have hone : den * twoTo 0 = den := by rw [twoTo_zero, Nat.mul_one]
  have hround : roundHalfEven (num * twoTo 1074) den = 0 := by
    rw [roundHalfEven, hmod, Nat.compare_eq_lt.mpr h, hfloor]
  rw [ofRatio, nearestRank, hspacing, hone, hround]
  rfl

/-- A magnitude far out of range is infinite or zero, so that its power of ten is not needed. -/
theorem ofScientific_eq_ofRatio (negative : Bool) (digits : Nat) (exponent : Int) :
    ofScientific negative digits exponent =
      ofRatio negative (digits * tenTo exponent.toNat) (tenTo (-exponent).toNat) := by
  unfold ofScientific
  by_cases hdigits : digits = 0
  · rw [if_pos hdigits, hdigits, Nat.zero_mul, ofRatio_zero negative (tenTo_pos _)]
  · rw [if_neg hdigits]
    cases exponent with
    | ofNat e =>
        have hnum : (Int.ofNat e).toNat = e := rfl
        have hden : (-Int.ofNat e).toNat = 0 := by simp
        rw [hnum, hden]
        by_cases hlarge : 400 ≤ e
        · -- the power of ten alone is beyond the largest finite value
          have hpower : leastInfinite ≤ tenTo e :=
            calc leastInfinite ≤ twoTo 1024 := by
                  rw [leastInfinite]
                  exact Nat.sub_le _ _
              _ ≤ twoTo (3 * 400) := twoTo_le_twoTo (by decide)
              _ ≤ tenTo 400 := twoTo_le_tenTo 400
              _ ≤ tenTo e := tenTo_le_tenTo hlarge
          have hreach : leastInfinite * tenTo 0 ≤ digits * tenTo e :=
            calc leastInfinite * tenTo 0 = leastInfinite := by rw [tenTo_zero, Nat.mul_one]
              _ ≤ tenTo e := hpower
              _ ≤ digits * tenTo e := Nat.le_mul_of_pos_left _ (Nat.pos_of_ne_zero hdigits)
          simp only [if_pos hlarge]
          exact ((ofRatio_eq_infinite_iff (tenTo_pos 0)).mpr hreach).symm
        · simp only [if_neg hlarge, tenTo_zero]
    | negSucc e =>
        have hden : (-Int.negSucc e).toNat = e + 1 := rfl
        have hnum : digits * tenTo (Int.negSucc e).toNat = digits := Nat.mul_one digits
        rw [hden, hnum]
        by_cases hsmall : digits.log2 + 1101 < 3 * (e + 1)
        · -- the digits are fewer than the power of ten by more than the least magnitude
          have hlt : 2 * (digits * twoTo 1074) < tenTo (e + 1) :=
            calc 2 * (digits * twoTo 1074) < 2 * (twoTo (digits.log2 + 1) * twoTo 1074) := by
                  have hlog : digits < twoTo (digits.log2 + 1) := Nat.lt_log2_self
                  exact Nat.mul_lt_mul_of_pos_left
                    (Nat.mul_lt_mul_of_pos_right hlog (twoTo_pos 1074)) (by decide)
              _ = twoTo (digits.log2 + 1 + 1074 + 1) := by
                  rw [twoTo_succ (digits.log2 + 1 + 1074), twoTo_add (digits.log2 + 1)]
              _ ≤ twoTo (3 * (e + 1)) := twoTo_le_twoTo (by omega)
              _ ≤ tenTo (e + 1) := twoTo_le_tenTo (e + 1)
          simp only [if_pos hsmall]
          exact (ofRatio_eq_zero negative hlt).symm
        · simp only [if_neg hsmall]

/-- A power of ten as a ratio of two that are natural numbers. -/
theorem ten_zpow_mul (exponent : Int) :
    (10 : ℚ) ^ exponent * tenTo (-exponent).toNat = tenTo exponent.toNat := by
  have hsum : exponent + ((-exponent).toNat : Int) = (exponent.toNat : Int) := by omega
  have hcast (n : Nat) : ((tenTo n : Nat) : ℚ) = 10 ^ (n : Int) := by
    rw [zpow_natCast]
    exact Nat.cast_pow 10 n
  rw [hcast, hcast, ← zpow_add₀ (by norm_num), hsum]

/-- What a decimal is rounded to depends on the rational that it denotes, not on its digits. -/
theorem ofScientific_congr (negative : Bool) {digits digits' : Nat} {exponent exponent' : Int}
    (h : (digits : ℚ) * 10 ^ exponent = digits' * 10 ^ exponent') :
    ofScientific negative digits exponent = ofScientific negative digits' exponent' := by
  have hratio : ((digits * tenTo exponent.toNat * tenTo (-exponent').toNat : Nat) : ℚ) =
      (digits' * tenTo exponent'.toNat * tenTo (-exponent).toNat : Nat) := by
    push_cast
    rw [← ten_zpow_mul exponent, ← ten_zpow_mul exponent']
    calc (digits : ℚ) * (10 ^ exponent * tenTo (-exponent).toNat) * tenTo (-exponent').toNat
        = digits * 10 ^ exponent * (tenTo (-exponent).toNat * tenTo (-exponent').toNat) := by ring
      _ = digits' * 10 ^ exponent' * (tenTo (-exponent).toNat * tenTo (-exponent').toNat) := by
          rw [h]
      _ = digits' * (10 ^ exponent' * tenTo (-exponent').toNat) * tenTo (-exponent).toNat := by
          ring
  rw [ofScientific_eq_ofRatio, ofScientific_eq_ofRatio]
  exact ofRatio_congr negative (tenTo_pos _) (tenTo_pos _) (Nat.cast_injective hratio)

end Binary64
end LoxLexer

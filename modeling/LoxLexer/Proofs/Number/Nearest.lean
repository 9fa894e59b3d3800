import LoxLexer.Proofs.Number.Rounding
import Mathlib.Algebra.Order.Group.Abs
import Mathlib.Order.Monotone.Basic
import Mathlib.Order.WithBot

/-!
# The nearest value

What rounding gives is told apart from how it is found: no finite value is nearer to the rational,
and of two that are equally near it is the one whose significand is even.  This alone determines the
value, and puts the values of two rationals in the order of the rationals.

* `Binary64.magnitude`, `Binary64.signed` — the rationals that the finite values are.
* `Binary64.units_strictMono` — the order of ranks is the order of magnitudes.
* `Binary64.Nearest` — a value is the nearest to a rational.
* `Binary64.nearest_ofRatio` — rounding gives the nearest value.
* `Binary64.Nearest.not_less`, `Binary64.Nearest.unique` — nearest values come in the order of their
  rationals, and there is but one for each.
-/

namespace LoxLexer
namespace Binary64

/-! ### Magnitudes -/

/-- The magnitude of the finite value of a rank. -/
def magnitude (rank : Nat) : ℚ := units rank / twoTo 1074

/-- The rational that the finite value of a sign and a rank is. -/
def signed (negative : Bool) (rank : Nat) : ℚ :=
  if negative then -magnitude rank else magnitude rank

/-- The units of a rank that is so far into a power of two. -/
theorem units_succ_mul_add (place : Nat) {rest : Nat} (hrest : rest < perExponent) :
    units ((place + 1) * perExponent + rest) = (perExponent + rest) * twoTo place := by
  have hlarge : ¬ (place + 1) * perExponent + rest < perExponent := by
    rw [Nat.succ_mul]
    omega
  have hdiv : ((place + 1) * perExponent + rest) / perExponent = place + 1 := by
    rw [Nat.mul_comm, Nat.mul_add_div perExponent_pos, Nat.div_eq_of_lt hrest, Nat.add_zero]
  have hmod : ((place + 1) * perExponent + rest) % perExponent = rest := by
    rw [Nat.mul_comm, Nat.mul_add_mod, Nat.mod_eq_of_lt hrest]
  rw [units, if_neg hlarge, hdiv, hmod, Nat.add_sub_cancel]

/-- The units of a rank from its shift and significand.  A significand that has just become too large
belongs to the next shift, with the same units. -/
theorem units_add {shift significand : Nat} (hle : significand ≤ 2 * perExponent)
    (hge : shift ≠ 0 → perExponent ≤ significand) :
    units (shift * perExponent + significand) = significand * twoTo shift := by
  rcases Nat.lt_or_ge significand perExponent with hsmall | hlarge
  · -- below the first power of two there is no shift
    obtain rfl : shift = 0 := by
      by_contra hshift
      exact absurd (hge hshift) (Nat.not_le.mpr hsmall)
    rw [Nat.zero_mul, Nat.zero_add, units, if_pos hsmall, twoTo_zero, Nat.mul_one]
  · obtain ⟨rest, rfl⟩ := Nat.exists_eq_add_of_le hlarge
    rcases Nat.lt_or_ge rest perExponent with hrest | hrest
    · rw [← units_succ_mul_add shift hrest, Nat.succ_mul, Nat.add_assoc]
    · obtain rfl : rest = perExponent := by omega
      have hnext := units_succ_mul_add (shift + 1) perExponent_pos
      rw [Nat.add_zero, Nat.add_zero, Nat.succ_mul, Nat.succ_mul, Nat.add_assoc] at hnext
      rw [hnext, twoTo_succ]
      ring

theorem units_strictMono : StrictMono units := by
  refine strictMono_nat_of_lt_succ fun rank => ?_
  obtain ⟨shift, significand, rfl, hunits, hlt, hge⟩ := exists_units_eq rank
  have hnext : units (shift * perExponent + (significand + 1)) =
      (significand + 1) * twoTo shift :=
    units_add hlt fun hshift => Nat.le_succ_of_le (hge hshift)
  rw [hunits, Nat.add_assoc, hnext]
  exact Nat.mul_lt_mul_of_pos_right (Nat.lt_succ_self significand) (twoTo_pos shift)

theorem magnitude_strictMono : StrictMono magnitude := by
  intro rank rank' hlt
  have hunits : (units rank : ℚ) < units rank' := Nat.cast_lt.mpr (units_strictMono hlt)
  exact div_lt_div_of_pos_right hunits (Nat.cast_pos.mpr (twoTo_pos 1074))

theorem magnitude_nonneg (rank : Nat) : 0 ≤ magnitude rank :=
  div_nonneg (Nat.cast_nonneg _) (Nat.cast_nonneg _)

theorem magnitude_zero : magnitude 0 = 0 := by
  rw [magnitude, units, if_pos perExponent_pos, Nat.cast_zero, zero_div]

/-! ### Rounding to one of two neighbours -/

/-- A rational is rounded to a rank: down or up to a neighbour, at most half the way, and half the
way only to an even rank. -/
inductive RoundsTo (q : ℚ) : Nat → Prop
  | down {rank : Nat} (hle : magnitude rank ≤ q)
      (hhalf : 2 * q ≤ magnitude rank + magnitude (rank + 1))
      (heven : 2 * q = magnitude rank + magnitude (rank + 1) → rank % 2 = 0) : RoundsTo q rank
  | up {rank : Nat} (hlt : q < magnitude (rank + 1))
      (hhalf : magnitude rank + magnitude (rank + 1) ≤ 2 * q)
      (heven : 2 * q = magnitude rank + magnitude (rank + 1) → (rank + 1) % 2 = 0) :
      RoundsTo q (rank + 1)

variable {num den : Nat}

/-- Of a number and the next the nearer is chosen, and the even one if both are as near: `rest` is
how far up it is to what is rounded, and `width` how far to the next number. -/
def Chooses (chosen lower rest width : Nat) : Prop :=
  chosen = lower ∧ 2 * rest ≤ width ∧ (2 * rest = width → lower % 2 = 0) ∨
    chosen = lower + 1 ∧ width ≤ 2 * rest ∧ (2 * rest = width → (lower + 1) % 2 = 0)

theorem chooses_roundHalfEven (num den : Nat) :
    Chooses (roundHalfEven num den) (num / den) (num % den) den := by
  unfold roundHalfEven
  dsimp only
  split
  · rename_i hcompare
    rw [Nat.compare_eq_lt] at hcompare
    exact .inl ⟨rfl, hcompare.le, fun htie => absurd htie hcompare.ne⟩
  · rename_i hcompare
    rw [Nat.compare_eq_gt] at hcompare
    exact .inr ⟨rfl, hcompare.le, fun htie => absurd htie hcompare.ne'⟩
  · rename_i hcompare
    rw [Nat.compare_eq_eq] at hcompare
    rcases Nat.mod_two_eq_zero_or_one (num / den) with heven | hodd
    · exact .inl ⟨by rw [heven, Nat.add_zero], hcompare.le, fun _ => heven⟩
    · exact .inr ⟨by rw [hodd], hcompare.ge, fun _ => by omega⟩

/-- An even number more on either side does not change which one is even. -/
theorem Chooses.add_left {chosen lower rest width : Nat} (h : Chooses chosen lower rest width)
    {more : Nat} (heven : more % 2 = 0) : Chooses (more + chosen) (more + lower) rest width := by
  unfold Chooses at h ⊢
  omega

/-- A ratio lies between the units of two neighbouring ranks, and is rounded to one of them. -/
theorem exists_neighbours (num : Nat) (hden : 0 < den) :
    ∃ rank rest width, num = units rank * den + rest ∧
      units (rank + 1) * den = units rank * den + width ∧ rest < width ∧
      Chooses (nearestRank num den) rank rest width := by
  obtain ⟨hlt, hge⟩ := spacing_cases num den
  rw [nearestRank]
  generalize spacing num den = shift at hlt hge ⊢
  have hpower := twoTo_pos shift
  have hwidth : 0 < den * twoTo shift := Nat.mul_pos hden hpower
  have hquotient : num / (den * twoTo shift) = num / den / twoTo shift :=
    (Nat.div_div_eq_div_mul num den (twoTo shift)).symm
  rw [← Nat.div_lt_iff_lt_mul hpower, ← hquotient] at hlt
  rw [← Nat.le_div_iff_mul_le hpower, ← hquotient] at hge
  have hlower : units (shift * perExponent + num / (den * twoTo shift)) =
      num / (den * twoTo shift) * twoTo shift := units_add hlt.le hge
  have hupper : units (shift * perExponent + (num / (den * twoTo shift) + 1)) =
      (num / (den * twoTo shift) + 1) * twoTo shift :=
    units_add hlt fun hshift => Nat.le_succ_of_le (hge hshift)
  have heven : shift * perExponent % 2 = 0 := by
    have hperExponent : perExponent % 2 = 0 := rfl
    rw [Nat.mul_mod, hperExponent, Nat.mul_zero]
  refine ⟨shift * perExponent + num / (den * twoTo shift), num % (den * twoTo shift),
    den * twoTo shift, ?_, ?_, Nat.mod_lt _ hwidth, (chooses_roundHalfEven num _).add_left heven⟩
  · have hsplit := Nat.div_add_mod num (den * twoTo shift)
    rw [hlower, Nat.mul_assoc, Nat.mul_comm (twoTo shift), Nat.mul_comm (num / _), hsplit]
  · rw [Nat.add_assoc, hlower, hupper]
    ring

/-- So many units, and a rest, over a common denominator. -/
theorem div_eq_magnitude_add (hden : 0 < den) {total rank rest : Nat}
    (h : total = units rank * den + rest) :
    (total : ℚ) / (den * twoTo 1074) = magnitude rank + rest / (den * twoTo 1074) := by
  have hden' : (den : ℚ) ≠ 0 := Nat.cast_ne_zero.mpr hden.ne'
  rw [h, Nat.cast_add, Nat.cast_mul, add_div, mul_comm (den : ℚ), mul_div_mul_right _ _ hden',
    magnitude]

/-- A ratio and its two neighbours as rationals: `rest` and `width` are counted in parts of a common
denominator. -/
theorem exists_magnitudes (num : Nat) (hden : 0 < den) :
    ∃ (rank rest width : Nat) (common : ℚ), 0 < common ∧
      (num / den : ℚ) = magnitude rank + rest / common ∧
      magnitude (rank + 1) = magnitude rank + width / common ∧ rest < width ∧
      Chooses (nearestRank (num * twoTo 1074) den) rank rest width := by
  obtain ⟨rank, rest, width, hnum, hnext, hrest, hround⟩ :=
    exists_neighbours (num * twoTo 1074) hden
  have hscale : (0 : ℚ) < twoTo 1074 := Nat.cast_pos.mpr (twoTo_pos 1074)
  refine ⟨rank, rest, width, den * twoTo 1074, mul_pos (Nat.cast_pos.mpr hden) hscale, ?_, ?_,
    hrest, hround⟩
  · rw [← div_eq_magnitude_add hden hnum, Nat.cast_mul, mul_div_mul_right _ _ hscale.ne']
  · have hself := div_eq_magnitude_add hden (Nat.add_zero (units (rank + 1) * den)).symm
    rw [Nat.cast_zero, zero_div, add_zero] at hself
    rw [← hself, div_eq_magnitude_add hden hnext]

/-- Rounding goes to one of the two neighbours of a ratio. -/
theorem roundsTo_nearestRank (num : Nat) (hden : 0 < den) :
    RoundsTo (num / den) (nearestRank (num * twoTo 1074) den) := by
  obtain ⟨rank, rest, width, common, hcommon, hq, hupper, hrest, hround⟩ :=
    exists_magnitudes num hden
  generalize (num / den : ℚ) = q at hq
  -- how far the ratio is beyond the middle
  have hmiddle : 2 * q - (magnitude rank + magnitude (rank + 1)) =
      (2 * rest - width) / common := by
    rw [hq, hupper]
    ring
  have htie (htie : 2 * q = magnitude rank + magnitude (rank + 1)) : 2 * rest = width := by
    rw [htie, sub_self, eq_comm, div_eq_zero_iff, or_iff_left hcommon.ne', sub_eq_zero] at hmiddle
    exact_mod_cast hmiddle
  obtain ⟨hrank, hhalf, heven⟩ | ⟨hrank, hhalf, heven⟩ := hround
  · have hhalf' : (2 * rest : ℚ) ≤ width := by exact_mod_cast hhalf
    rw [hrank]
    refine .down ?_ ?_ fun h => heven (htie h)
    · have hnonneg : (0 : ℚ) ≤ rest / common := div_nonneg (Nat.cast_nonneg _) hcommon.le
      linarith
    · have hnonpos : (2 * rest - width) / common ≤ 0 :=
        div_nonpos_of_nonpos_of_nonneg (sub_nonpos.mpr hhalf') hcommon.le
      linarith
  · have hhalf' : (width : ℚ) ≤ 2 * rest := by exact_mod_cast hhalf
    rw [hrank]
    refine .up ?_ ?_ fun h => heven (htie h)
    · have hlt : (rest : ℚ) / common < width / common :=
        div_lt_div_of_pos_right (Nat.cast_lt.mpr hrest) hcommon
      linarith
    · have hnonneg : 0 ≤ (2 * rest - width) / common :=
        div_nonneg (sub_nonneg.mpr hhalf') hcommon.le
      linarith

/-! ### Nearest values -/

/-- Of two rationals the larger is as near to a third that is their middle or beyond it. -/
theorem abs_larger_sub_le_iff {a b q : ℚ} (h : a < b) : |b - q| ≤ |a - q| ↔ a + b ≤ 2 * q := by
  rw [← sq_le_sq]
  constructor
  · intro hle
    nlinarith
  · intro hle
    nlinarith

/-- Up to their middle the smaller is. -/
theorem abs_smaller_sub_le_iff {a b q : ℚ} (h : a < b) : |a - q| ≤ |b - q| ↔ 2 * q ≤ a + b := by
  rw [← sq_le_sq]
  constructor
  · intro hle
    nlinarith
  · intro hle
    nlinarith

/-- No rank is nearer to a rational than the one to which it is rounded, and another that is as near
leaves it the even one. -/
theorem RoundsTo.nearest {q : ℚ} {rank : Nat} (h : RoundsTo q rank) (other : Nat) :
    |magnitude rank - q| ≤ |magnitude other - q| ∧
      (other ≠ rank → |magnitude other - q| = |magnitude rank - q| → rank % 2 = 0) := by
  rcases Nat.lt_trichotomy other rank with hother | rfl | hother
  · have hlt := magnitude_strictMono hother
    cases h with
    | down hle hhalf heven =>
        refine ⟨(abs_larger_sub_le_iff hlt).mpr (by linarith), fun _ htie => ?_⟩
        have hbefore := (abs_smaller_sub_le_iff hlt).mp htie.le
        linarith
    | @up below hupper hhalf heven =>
        have hbelow : magnitude other ≤ magnitude below :=
          magnitude_strictMono.monotone (Nat.le_of_lt_succ hother)
        refine ⟨(abs_larger_sub_le_iff hlt).mpr (by linarith), fun _ htie => heven ?_⟩
        have hbefore := (abs_smaller_sub_le_iff hlt).mp htie.le
        linarith
  · exact ⟨le_rfl, fun hne => absurd rfl hne⟩
  · have hlt := magnitude_strictMono hother
    cases h with
    | down hle hhalf heven =>
        have habove : magnitude (rank + 1) ≤ magnitude other :=
          magnitude_strictMono.monotone hother
        refine ⟨(abs_smaller_sub_le_iff hlt).mpr (by linarith), fun _ htie => heven ?_⟩
        have hbeyond := (abs_larger_sub_le_iff hlt).mp htie.le
        linarith
    | up hupper hhalf heven =>
        refine ⟨(abs_smaller_sub_le_iff hlt).mpr (by linarith), fun _ htie => ?_⟩
        have hbeyond := (abs_larger_sub_le_iff hlt).mp htie.le
        linarith

/-- The value nearest to a rational that is not negative: from the midpoint above the largest finite
value on it is infinite; below, no finite value of either sign is nearer, and if another is as near
the last bit of the significand, which is the last bit of the rank, is zero. -/
inductive Nearest (q : ℚ) : Binary64 → Prop
  | finite {rank : Fin finiteRanks} (hlt : q < leastInfinite)
      (hnearest : ∀ negative (other : Fin finiteRanks),
        |magnitude rank - q| ≤ |signed negative other - q|)
      (heven : ∀ negative (other : Fin finiteRanks), signed negative other ≠ magnitude rank →
        |signed negative other - q| = |magnitude rank - q| → rank.val % 2 = 0) :
      Nearest q (.finite false rank)
  | infinite (hle : leastInfinite ≤ q) : Nearest q (.infinite false)

/-- How far a rational that is not negative is from a negative value. -/
theorem abs_neg_magnitude_sub {q : ℚ} (hq : 0 ≤ q) (rank : Nat) :
    |-magnitude rank - q| = magnitude rank + q := by
  have hmagnitude := magnitude_nonneg rank
  rw [abs_of_nonpos (by linarith)]
  ring

theorem abs_magnitude_sub_le {q : ℚ} (hq : 0 ≤ q) (rank : Nat) :
    |magnitude rank - q| ≤ magnitude rank + q := by
  have hmagnitude := magnitude_nonneg rank
  rw [abs_le]
  constructor <;> linarith

/-- The signs of the values do not matter for a rational that is not negative: what is nearest among
the magnitudes is nearest among all. -/
theorem RoundsTo.nearest_signed {q : ℚ} {rank : Nat} (h : RoundsTo q rank) (hq : 0 ≤ q)
    (negative : Bool) (other : Nat) :
    |magnitude rank - q| ≤ |signed negative other - q| ∧
      (signed negative other ≠ magnitude rank →
        |signed negative other - q| = |magnitude rank - q| → rank % 2 = 0) := by
  obtain ⟨hle, heven⟩ := h.nearest other
  cases negative with
  | false => exact ⟨hle, fun hne => heven fun hsame => hne (congrArg magnitude hsame)⟩
  | true =>
      have hbeyond := abs_magnitude_sub_le hq other
      have hsigned : |signed true other - q| = magnitude other + q := abs_neg_magnitude_sub hq other
      rw [hsigned]
      refine ⟨hle.trans hbeyond, fun hne htie => ?_⟩
      by_cases hsame : other = rank
      · -- the opposite of a value can only be as near as the value itself if both are zero
        subst hsame
        have hzero : |magnitude other - q| ≤ |magnitude 0 - q| := (h.nearest 0).1
        rw [magnitude_zero, zero_sub, abs_neg, abs_of_nonneg hq] at hzero
        have hnonneg := magnitude_nonneg other
        have hother : magnitude other = 0 := by linarith
        refine absurd ?_ hne
        rw [signed, if_pos rfl, hother, neg_zero]
      · exact heven hsame (le_antisymm (by linarith) hle)

/-- Rounding a ratio gives the value nearest to it. -/
theorem nearest_ofRatio (num : Nat) (hden : 0 < den) :
    Nearest (num / den) (ofRatio false num den) := by
  have hden' : (0 : ℚ) < den := Nat.cast_pos.mpr hden
  have hq : (0 : ℚ) ≤ num / den := div_nonneg (Nat.cast_nonneg _) hden'.le
  have hinfinite : ofRatio false num den = infinite false ↔ leastInfinite * den ≤ num :=
    ofRatio_eq_infinite_iff hden
  by_cases hlarge : leastInfinite * den ≤ num
  · rw [hinfinite.mpr hlarge]
    refine .infinite ?_
    rw [le_div_iff₀ hden', ← Nat.cast_mul]
    exact Nat.cast_le.mpr hlarge
  · have hround := roundsTo_nearestRank num hden
    have hnum := Nat.lt_of_not_le hlarge
    have hfinite : nearestRank (num * twoTo 1074) den < finiteRanks := by
      rw [← hinfinite, ofRatio, ofRank_eq_infinite_iff] at hlarge
      exact Nat.lt_of_not_le hlarge
    have hlt : (num / den : ℚ) < leastInfinite := by
      rw [div_lt_iff₀ hden', ← Nat.cast_mul]
      exact Nat.cast_lt.mpr hnum
    rw [ofRatio, ofRank, dif_pos hfinite]
    exact .finite hlt (fun negative other => (hround.nearest_signed hq negative other).1)
      fun negative other => (hround.nearest_signed hq negative other).2

/-! ### The order of values -/

/-- Where a value stands among the rationals and the two infinities; a nan stands nowhere. -/
def standing? : Binary64 → Option (WithBot (WithTop ℚ))
  | finite negative rank => some ((signed negative rank : ℚ) : WithTop ℚ)
  | infinite false => some ((⊤ : WithTop ℚ) : WithBot (WithTop ℚ))
  | infinite true => some ⊥
  | nan => none

/-- One value is less than another. -/
def Less (a b : Binary64) : Prop :=
  ∃ x y, a.standing? = some x ∧ b.standing? = some y ∧ x < y

theorem less_finite_iff {rank rank' : Fin finiteRanks} :
    (finite false rank).Less (finite false rank') ↔ rank < rank' := by
  have hstanding (rank : Fin finiteRanks) :
      standing? (finite false rank) = some ((magnitude rank : ℚ) : WithTop ℚ) := rfl
  rw [Less, hstanding, hstanding]
  constructor
  · rintro ⟨_, _, ⟨⟩, ⟨⟩, hlt⟩
    rw [WithBot.coe_lt_coe, WithTop.coe_lt_coe] at hlt
    exact magnitude_strictMono.lt_iff_lt.mp hlt
  · intro hlt
    refine ⟨_, _, rfl, rfl, ?_⟩
    rw [WithBot.coe_lt_coe, WithTop.coe_lt_coe]
    exact magnitude_strictMono hlt

theorem not_less_infinite {value : Binary64} : ¬ (infinite false).Less value := by
  rintro ⟨_, standing, ⟨⟩, -, hlt⟩
  exact not_top_lt hlt

variable {q q' : ℚ} {value value' : Binary64}

/-- A larger rational has no smaller nearest value. -/
theorem Nearest.not_less (h : Nearest q value) (h' : Nearest q' value') (hle : q ≤ q') :
    ¬ value'.Less value := by
  cases h' with
  | infinite => exact not_less_infinite
  | @finite rank' hlt' hnearest' heven' =>
      cases h with
      | infinite hlarge => exact absurd (hlarge.trans hle) (not_le.mpr hlt')
      | @finite rank hlt hnearest heven =>
          rw [less_finite_iff]
          intro hless
          have hmagnitude : magnitude rank' < magnitude rank := magnitude_strictMono hless
          -- both rationals would be the middle of the two, and both ranks even
          have hbeyond := (abs_larger_sub_le_iff hmagnitude).mp (hnearest false rank')
          have hbefore := (abs_smaller_sub_le_iff hmagnitude).mp (hnearest' false rank)
          have hmiddle : 2 * q = magnitude rank' + magnitude rank := by linarith
          obtain rfl : q = q' := by linarith
          have htie : |magnitude rank' - q| = |magnitude rank - q| :=
            le_antisymm (hnearest' false rank) (hnearest false rank')
          have hrank := heven false rank' hmagnitude.ne htie
          have hrank' := heven' false rank hmagnitude.ne' htie.symm
          have hbetween : rank'.val + 1 < rank.val := by
            have hval : rank'.val < rank.val := hless
            omega
          -- so that one between them is nearer
          have hnear : |magnitude rank - q| ≤ |magnitude (rank' + 1) - q| :=
            hnearest false ⟨rank' + 1, hbetween.trans rank.isLt⟩
          rw [abs_larger_sub_le_iff (magnitude_strictMono hbetween)] at hnear
          have hlower : magnitude rank' < magnitude (rank' + 1) :=
            magnitude_strictMono (Nat.lt_succ_self rank')
          linarith

/-- There is one nearest value. -/
theorem Nearest.unique (h : Nearest q value) (h' : Nearest q value') : value = value' := by
  cases h with
  | infinite hlarge =>
      cases h' with
      | infinite => rfl
      | finite hlt => exact absurd hlarge (not_le.mpr hlt)
  | @finite rank hlt hnearest heven =>
      cases h' with
      | infinite hlarge => exact absurd hlarge (not_le.mpr hlt)
      | @finite rank' hlt' hnearest' heven' =>
          have hnot := Nearest.not_less (.finite hlt hnearest heven)
            (.finite hlt' hnearest' heven') le_rfl
          have hnot' := Nearest.not_less (.finite hlt' hnearest' heven')
            (.finite hlt hnearest heven) le_rfl
          rw [less_finite_iff, Fin.not_lt] at hnot hnot'
          rw [Fin.le_antisymm hnot hnot']

end Binary64
end LoxLexer

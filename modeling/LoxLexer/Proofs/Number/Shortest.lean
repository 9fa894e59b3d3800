import LoxLexer.Character
import LoxLexer.Number.Decimal
import LoxLexer.Number.Numeral
import LoxLexer.Proofs.Number.Rounding

/-!
# The shortest digits

The notation of a finite value starts from the fewest digits that read back as it.

* `Numeral.digitsValue_ofNat` — digits denote the number that they are the notation of.
* `Decimal.ofCoefficient_spec` — leaving out zeros at the end does not change what is denoted.
* `Decimal.exists_shortest_eq` — the shortest digits read back as the value.
* `Binary64.ofScientific_shortest` — and so they do with either sign.
-/

namespace LoxLexer

/-! ### Digits -/

namespace Numeral

theorem digitsValue_eq (digits : Text) : digitsValue digits = Nat.ofDigitChars 10 digits 0 := by
  unfold digitsValue
  rw [Nat.ofDigitChars_eq_foldl]
  congr 1
  funext value c
  rw [Nat.mul_comm]

theorem digitsValue_append (a b : Text) :
    digitsValue (a ++ b) = digitsValue a * 10 ^ b.length + digitsValue b := by
  rw [digitsValue_eq, digitsValue_eq, digitsValue_eq, Nat.ofDigitChars_append,
    Nat.ofDigitChars_eq_ofDigitChars_zero, Nat.mul_comm]

theorem digitsValue_replicate_zero (n : Nat) : digitsValue (List.replicate n '0') = 0 := by
  rw [digitsValue_eq, Nat.ofDigitChars_replicate_zero, Nat.mul_zero]

theorem digitsValue_ofNat (n : Nat) : digitsValue (Text.ofNat n) = n := by
  rw [digitsValue_eq]
  exact Nat.ofDigitChars_ten_toDigits

end Numeral

namespace Text

theorem isDigit_of_mem_ofNat {n : Nat} {c : Char} (h : c ∈ ofNat n) : isDigit c = true :=
  Nat.isDigit_of_mem_toDigits (by decide) (by decide) h

theorem ofNat_ne_nil (n : Nat) : ofNat n ≠ [] := Nat.toDigits_ne_nil

theorem ofNat_zero : ofNat 0 = ['0'] := rfl

/-- Only zero is written with a leading zero. -/
theorem head?_ofNat_ne {n : Nat} (h : n ≠ 0) : (ofNat n).head? ≠ some '0' := by
  induction n using Nat.strongRecOn with
  | ind n ih =>
      rw [ofNat, Nat.toDigits_eq_if (by decide)]
      split
      · simpa [Nat.digitChar_eq_zero] using h
      · have hquotient : n / 10 ≠ 0 := by omega
        have hhead := ih (n / 10) (by omega) hquotient
        obtain ⟨c, more, hmore⟩ := List.exists_cons_of_ne_nil (ofNat_ne_nil (n / 10))
        rw [hmore] at hhead
        rw [← ofNat, hmore]
        simpa using hhead

/-- What is taken off the end of a text is a run of the character that is taken off. -/
theorem eq_append_replicate (c : Char) (text : Text) :
    ∃ n, text = (text.reverse.dropWhile (· = c)).reverse ++ List.replicate n c := by
  have hrun : text.reverse.takeWhile (· = c) =
      List.replicate (text.reverse.takeWhile (· = c)).length c := by
    rw [List.eq_replicate_iff]
    refine ⟨rfl, fun d hd => ?_⟩
    have hall := List.all_eq_true.mp (List.all_takeWhile (l := text.reverse) (p := (· = c))) d hd
    exact of_decide_eq_true hall
  refine ⟨(text.reverse.takeWhile (· = c)).length, ?_⟩
  have hsplit := congrArg List.reverse
    (List.takeWhile_append_dropWhile (p := (· = c)) (l := text.reverse))
  rw [List.reverse_append, List.reverse_reverse, hrun, List.reverse_replicate] at hsplit
  exact hsplit.symm

end Text

/-! ### Decimals -/

namespace Decimal

/-- The rational that a decimal denotes. -/
def value (d : Decimal) : ℚ := Numeral.digitsValue d.digits * 10 ^ (d.point - d.digits.length)

/-- The digits of a decimal start with the first that counts. -/
structure IsNormal (d : Decimal) : Prop where
  ne_nil : d.digits ≠ []
  isDigit : ∀ c ∈ d.digits, isDigit c = true
  head?_ne : d.digits.head? ≠ some '0'

/-- Leaving out the zeros at the end does not change what is denoted. -/
theorem ofCoefficient_spec {coefficient : Nat} (h : coefficient ≠ 0) (exponent : Int) :
    (ofCoefficient coefficient exponent).IsNormal ∧
      (ofCoefficient coefficient exponent).value = coefficient * 10 ^ exponent := by
  obtain ⟨zeros, hdigits⟩ := Text.eq_append_replicate '0' (Text.ofNat coefficient)
  have hpoint : (ofCoefficient coefficient exponent).point =
      (Text.ofNat coefficient).length + exponent := rfl
  have hkept : (ofCoefficient coefficient exponent).digits =
      ((Text.ofNat coefficient).reverse.dropWhile (· = '0')).reverse := rfl
  rw [← hkept] at hdigits
  generalize ofCoefficient coefficient exponent = d at hpoint hdigits
  have hcoefficient : coefficient = Numeral.digitsValue d.digits * 10 ^ zeros := by
    rw [← Numeral.digitsValue_ofNat coefficient, hdigits, Numeral.digitsValue_append,
      Numeral.digitsValue_replicate_zero, List.length_replicate, Nat.add_zero]
  have hne : d.digits ≠ [] := by
    intro hnil
    rw [hnil] at hcoefficient
    exact h (by simpa [Numeral.digitsValue] using hcoefficient)
  refine ⟨⟨hne, fun c hc => ?_, fun hzero => ?_⟩, ?_⟩
  · refine Text.isDigit_of_mem_ofNat (n := coefficient) ?_
    rw [hdigits]
    exact List.mem_append_left _ hc
  · refine Text.head?_ofNat_ne h ?_
    rw [hdigits, List.head?_append, hzero]
    rfl
  · have hlength : (d.point - d.digits.length : Int) = zeros + exponent := by
      have hlengths := congrArg List.length hdigits
      rw [List.length_append, List.length_replicate] at hlengths
      omega
    rw [value, hlength, hcoefficient, zpow_add₀ (by norm_num), zpow_natCast]
    push_cast
    ring

/-- Every step of the search gives a multiple of a power of ten that reads back. -/
theorem exists_onGrid_eq {rank : Nat} {exponent : Int} {d : Decimal}
    (h : onGrid? rank exponent = some d) :
    ∃ coefficient, d = ofCoefficient coefficient exponent ∧
      readsAs rank coefficient exponent = true := by
  obtain ⟨coefficient, hfind, rfl⟩ := Option.map_eq_some_iff.mp h
  exact ⟨coefficient, rfl, List.find?_some (p := fun n => readsAs rank n exponent) hfind⟩

theorem tenTo_eq (n : Nat) : tenTo n = Nat.pow 5 n * twoTo n := Nat.mul_pow 5 2 n

/-- A decimal that is a value exactly reads back. -/
theorem readsAs_of_units_eq {rank coefficient : Nat} {exponent : Int}
    (h : coefficient * tenTo exponent.toNat * twoTo 1074 =
      Binary64.units rank * tenTo (-exponent).toNat) :
    readsAs rank coefficient exponent = true := by
  refine decide_eq_true ?_
  rw [Binary64.ofScientific_eq_ofRatio, Binary64.ofRatio, h,
    Binary64.nearestRank_units rank (tenTo_pos _)]

/-- The exact expansion of a value reads back. -/
theorem readsAs_expansion (rank : Nat) :
    readsAs rank (Binary64.units rank * Nat.pow 5 1074) (-1074) = true := by
  have hnum : (-1074 : Int).toNat = 0 := rfl
  have hden : (- -1074 : Int).toNat = 1074 := rfl
  apply readsAs_of_units_eq
  rw [hnum, hden, tenTo_zero, Nat.mul_one]
  generalize 1074 = places
  rw [tenTo_eq, Nat.mul_assoc]

/-- The shortest digits read back as the value. -/
theorem exists_shortest_eq (rank : Nat) :
    ∃ coefficient exponent, shortest rank = ofCoefficient coefficient exponent ∧
      readsAs rank coefficient exponent = true := by
  unfold shortest
  dsimp only
  generalize hfound : (List.range 17).findSome? _ = found
  cases found with
  | none => exact ⟨_, _, rfl, readsAs_expansion rank⟩
  | some d =>
      obtain ⟨n, -, hgrid⟩ := List.exists_of_findSome?_eq_some hfound
      obtain ⟨coefficient, rfl, hreads⟩ := exists_onGrid_eq hgrid
      exact ⟨coefficient, _, rfl, hreads⟩

end Decimal

namespace Binary64

theorem ofRank_injective {negative : Bool} {rank rank' : Nat} (hrank : rank' < finiteRanks)
    (h : ofRank negative rank = ofRank negative rank') : rank = rank' := by
  have hright : ofRank negative rank' = finite negative ⟨rank', hrank⟩ := dif_pos hrank
  rw [hright] at h
  unfold ofRank at h
  split at h
  · simpa using h
  · contradiction

theorem ofRank_val (negative : Bool) (rank : Fin finiteRanks) :
    ofRank negative rank = finite negative rank := dif_pos rank.isLt

/-- The sign of a value is the sign of its notation. -/
theorem ofScientific_eq_ofRank (negative : Bool) {digits rank : Nat} {exponent : Int}
    (hrank : rank < finiteRanks) (h : ofScientific false digits exponent = ofRank false rank) :
    ofScientific negative digits exponent = ofRank negative rank := by
  rw [ofScientific_eq_ofRatio] at h ⊢
  rw [ofRatio, ofRank_injective hrank h]

/-- The shortest digits of a value other than zero, read with its sign, are the value. -/
theorem ofScientific_shortest (negative : Bool) {rank : Fin finiteRanks} (h : rank.val ≠ 0) :
    (Decimal.shortest rank).IsNormal ∧
      ofScientific negative (Numeral.digitsValue (Decimal.shortest rank).digits)
        ((Decimal.shortest rank).point - (Decimal.shortest rank).digits.length) =
          finite negative rank := by
  obtain ⟨coefficient, exponent, hshortest, hreads⟩ := Decimal.exists_shortest_eq rank.val
  have hread : ofScientific false coefficient exponent = ofRank false rank.val :=
    of_decide_eq_true hreads
  have hcoefficient : coefficient ≠ 0 := by
    rintro rfl
    have hzero : ofScientific false 0 exponent = ofRank false 0 := if_pos rfl
    rw [hzero] at hread
    exact h (ofRank_injective rank.isLt hread).symm
  obtain ⟨hnormal, hvalue⟩ := Decimal.ofCoefficient_spec hcoefficient exponent
  rw [← hshortest] at hnormal hvalue
  refine ⟨hnormal, ?_⟩
  rw [← ofRank_val, ← ofScientific_eq_ofRank negative rank.isLt hread]
  exact ofScientific_congr negative hvalue

end Binary64

end LoxLexer

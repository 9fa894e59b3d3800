import LoxLexer.Proofs.Number.Shortest
import LoxLexer.Proofs.Text.Run

/-!
# Notations of numbers

A number is written as an optional minus sign, digits without needless zeros before them, and
perhaps a fraction and an exponent.  The notation of an integer is of this form, and so is the
notation of every finite binary64 value, positional or not; and the latter denotes the value that it
is the notation of.

* `DecimalNotation` — the parts of such a notation; `DecimalNotation.text` puts them together.
* `DecimalNotation.integer`, `DecimalNotation.value` — the integer and the binary64 value that a
  notation denotes.
* `DecimalNotation.exists_of_int`, `DecimalNotation.exists_of_finite` — integers and finite values
  are written in this form.
* `DecimalNotation.text_injective` — the parts are known from the text.
-/

namespace LoxLexer

/-! ### Notations -/

/-- The exponent of a notation: a letter, perhaps a sign, and digits. -/
@[ext] structure DecimalNotation.Exponent where
  letter : Char
  sign : Text
  digits : Text
  letter_eq : letter = 'e' ∨ letter = 'E'
  sign_eq : sign = [] ∨ sign = ['+'] ∨ sign = ['-']
  ne_nil : digits ≠ []
  isDigit_digits : ∀ c ∈ digits, isDigit c = true

/-- The parts of the notation of a number.  An empty fraction stands for none; before the point no
zero stands needlessly. -/
@[ext] structure DecimalNotation where
  negative : Bool
  whole : Text
  fraction : Text
  exponent : Option DecimalNotation.Exponent
  ne_nil : whole ≠ []
  isDigit_whole : ∀ c ∈ whole, isDigit c = true
  leading : whole.head? = some '0' → whole = ['0']
  isDigit_fraction : ∀ c ∈ fraction, isDigit c = true

namespace DecimalNotation

/-- The text of an exponent. -/
def Exponent.text (exponent : Exponent) : Text :=
  exponent.letter :: exponent.sign ++ exponent.digits

/-- The integer that an exponent denotes. -/
def Exponent.value (exponent : Exponent) : Int :=
  if exponent.sign = ['-'] then -(Numeral.digitsValue exponent.digits : Int)
  else Numeral.digitsValue exponent.digits

/-- The text of a fraction and its point. -/
def fractionText (fraction : Text) : Text := if fraction = [] then [] else '.' :: fraction

/-- The text of an exponent, if there is one. -/
def exponentText (exponent : Option Exponent) : Text := (exponent.map Exponent.text).getD []

/-- The integer that an exponent denotes, if there is one. -/
def exponentValue (exponent : Option Exponent) : Int := (exponent.map Exponent.value).getD 0

/-- The text of a notation. -/
def text (n : DecimalNotation) : Text :=
  Binary64.signText n.negative ++ (n.whole ++ (fractionText n.fraction ++ exponentText n.exponent))

/-- Neither a fraction nor an exponent is written. -/
def IsInteger (n : DecimalNotation) : Prop := n.fraction = [] ∧ n.exponent = none

instance (n : DecimalNotation) : Decidable n.IsInteger :=
  inferInstanceAs (Decidable (n.fraction = [] ∧ n.exponent = none))

/-- The integer that the digits before the point denote. -/
def integer (n : DecimalNotation) : Int :=
  if n.negative then -(Numeral.digitsValue n.whole : Int) else Numeral.digitsValue n.whole

/-- The binary64 value nearest to the number that a notation denotes. -/
def value (n : DecimalNotation) : Binary64 :=
  Binary64.ofScientific n.negative (Numeral.digitsValue (n.whole ++ n.fraction))
    (exponentValue n.exponent - n.fraction.length)

/-- Every exponent is written with its sign. -/
theorem Exponent.exists_of_int (value : Int) :
    ∃ exponent : Exponent, exponent.text = 'e' :: Decimal.exponentText value ∧
      exponent.value = value := by
  generalize hdigits : List.replicate (2 - (Text.ofNat value.natAbs).length) '0' ++
    Text.ofNat value.natAbs = digits
  have hne : digits ≠ [] := by
    rw [← hdigits]
    exact List.append_ne_nil_of_right_ne_nil _ (Text.ofNat_ne_nil value.natAbs)
  have hdigit : ∀ c ∈ digits, isDigit c = true := by
    intro c hc
    rw [← hdigits] at hc
    rcases List.mem_append.mp hc with hc | hc
    · rw [(List.mem_replicate.mp hc).2]
      rfl
    · exact Text.isDigit_of_mem_ofNat hc
  -- the zeros in front do not count
  have hvalue : Numeral.digitsValue digits = value.natAbs := by
    rw [← hdigits, Numeral.digitsValue_append, Numeral.digitsValue_replicate_zero, Nat.zero_mul,
      Nat.zero_add, Numeral.digitsValue_ofNat]
  have htext : Decimal.exponentText value = (if value < 0 then '-' else '+') :: digits :=
    congrArg _ hdigits
  by_cases hneg : value < 0
  · refine ⟨⟨'e', ['-'], digits, .inl rfl, .inr (.inr rfl), hne, hdigit⟩, ?_, ?_⟩
    · rw [htext, if_pos hneg]
      rfl
    · rw [Exponent.value, if_pos rfl, hvalue]
      omega
  · refine ⟨⟨'e', ['+'], digits, .inl rfl, .inr (.inl rfl), hne, hdigit⟩, ?_, ?_⟩
    · rw [htext, if_neg hneg]
      rfl
    · have hsign : ¬ ['+'] = ['-'] := by decide
      rw [Exponent.value, if_neg hsign, hvalue]
      omega

/-! ### Integers -/

theorem leading_ofNat (n : Nat) : (Text.ofNat n).head? = some '0' → Text.ofNat n = ['0'] := by
  intro hzero
  by_cases h : n = 0
  · rw [h, Text.ofNat_zero]
  · exact absurd hzero (Text.head?_ofNat_ne h)

/-- The notation of an integer. -/
def ofInteger (negative : Bool) (magnitude : Nat) : DecimalNotation where
  negative := negative
  whole := Text.ofNat magnitude
  fraction := []
  exponent := none
  ne_nil := Text.ofNat_ne_nil magnitude
  isDigit_whole := fun _ hc => Text.isDigit_of_mem_ofNat hc
  leading := leading_ofNat magnitude
  isDigit_fraction := List.forall_mem_nil _

theorem text_ofInteger (negative : Bool) (magnitude : Nat) :
    (ofInteger negative magnitude).text = Binary64.signText negative ++ Text.ofNat magnitude := by
  simp [text, ofInteger, fractionText, exponentText]

/-- An integer is written without fraction and exponent, in a notation that denotes it. -/
theorem exists_of_int (value : Int) :
    ∃ n : DecimalNotation, n.text = Text.ofInt value ∧ n.IsInteger ∧ n.integer = value := by
  cases value with
  | ofNat magnitude =>
      refine ⟨ofInteger false magnitude, text_ofInteger false magnitude, ⟨rfl, rfl⟩, ?_⟩
      simp [integer, ofInteger, Numeral.digitsValue_ofNat]
  | negSucc predecessor =>
      refine ⟨ofInteger true (predecessor + 1), text_ofInteger true _, ⟨rfl, rfl⟩, ?_⟩
      simp [integer, ofInteger, Numeral.digitsValue_ofNat]
      omega

/-! ### Finite values -/

section Layout

variable (negative : Bool) {d : Decimal} (h : d.IsNormal)

include h

/-- Digits before the point only: zeros fill the places up to it. -/
theorem exists_of_filled {zeros : Nat} (hzeros : d.point = d.digits.length + zeros) :
    ∃ n : DecimalNotation,
      n.text = Binary64.signText negative ++
        (d.digits ++ List.replicate zeros '0' ++ ".0".toList) ∧
      ¬ n.IsInteger ∧
      n.value = Binary64.ofScientific negative (Numeral.digitsValue d.digits)
        (d.point - d.digits.length) := by
  have hdigit : ∀ c ∈ d.digits ++ List.replicate zeros '0', isDigit c = true := by
    intro c hc
    rcases List.mem_append.mp hc with hc | hc
    · exact h.isDigit c hc
    · rw [(List.mem_replicate.mp hc).2]
      rfl
  have hleading : (d.digits ++ List.replicate zeros '0').head? ≠ some '0' := by
    rw [List.head?_append_of_ne_nil _ h.ne_nil]
    exact h.head?_ne
  refine ⟨⟨negative, d.digits ++ List.replicate zeros '0', ['0'], none,
    List.append_ne_nil_of_left_ne_nil h.ne_nil _, hdigit, (absurd · hleading),
    List.forall_mem_singleton.mpr rfl⟩, ?_, by simp [IsInteger], ?_⟩
  · simp [text, fractionText, exponentText]
  · -- the zero behind the point takes back one of the places that the fraction counts
    refine Binary64.ofScientific_congr negative ?_
    have hpower : d.point - d.digits.length = zeros := by omega
    rw [hpower, Numeral.digitsValue_append, Numeral.digitsValue_append,
      Numeral.digitsValue_replicate_zero]
    simp [exponentValue, Numeral.digitsValue]

/-- Digits on both sides of the point. -/
theorem exists_of_divided {places : Nat} (hplaces : d.point = places) (hpos : 0 < places)
    (hlt : places < d.digits.length) :
    ∃ n : DecimalNotation,
      n.text = Binary64.signText negative ++ (d.digits.take places ++ '.' :: d.digits.drop places) ∧
      ¬ n.IsInteger ∧
      n.value = Binary64.ofScientific negative (Numeral.digitsValue d.digits)
        (d.point - d.digits.length) := by
  have hne : d.digits.take places ≠ [] := by
    simpa [h.ne_nil] using Nat.pos_iff_ne_zero.mp hpos
  have hleading : (d.digits.take places).head? ≠ some '0' := by
    rw [List.head?_take, if_neg (Nat.pos_iff_ne_zero.mp hpos)]
    exact h.head?_ne
  have hrest : d.digits.drop places ≠ [] := by simpa using hlt
  refine ⟨⟨negative, d.digits.take places, d.digits.drop places, none, hne,
    fun c hc => h.isDigit c (List.mem_of_mem_take hc), (absurd · hleading),
    fun c hc => h.isDigit c (List.mem_of_mem_drop hc)⟩, ?_, fun hinteger => hrest hinteger.1, ?_⟩
  · simp [text, fractionText, exponentText, hrest]
  · have hpower : (0 : Int) - (d.digits.length - places : Nat) =
        d.point - d.digits.length := by omega
    simp [value, exponentValue, ← hpower]

/-- Digits behind the point only: zeros stand between. -/
theorem exists_of_small {zeros : Nat} (hzeros : d.point = -(zeros : Int)) :
    ∃ n : DecimalNotation,
      n.text = Binary64.signText negative ++
        ("0.".toList ++ List.replicate zeros '0' ++ d.digits) ∧
      ¬ n.IsInteger ∧
      n.value = Binary64.ofScientific negative (Numeral.digitsValue d.digits)
        (d.point - d.digits.length) := by
  have hdigit : ∀ c ∈ List.replicate zeros '0' ++ d.digits, isDigit c = true := by
    intro c hc
    rcases List.mem_append.mp hc with hc | hc
    · rw [(List.mem_replicate.mp hc).2]
      rfl
    · exact h.isDigit c hc
  refine ⟨⟨negative, ['0'], List.replicate zeros '0' ++ d.digits, none, List.cons_ne_nil _ _,
    List.forall_mem_singleton.mpr rfl, fun _ => rfl, hdigit⟩, ?_, fun hinteger => ?_, ?_⟩
  · simp [text, fractionText, exponentText, h.ne_nil]
  · exact h.ne_nil (List.append_eq_nil_iff.mp hinteger.1).2
  · have hdigits : Numeral.digitsValue (['0'] ++ (List.replicate zeros '0' ++ d.digits)) =
        Numeral.digitsValue d.digits := by
      rw [Numeral.digitsValue_append, Numeral.digitsValue_append,
        Numeral.digitsValue_replicate_zero]
      simp [Numeral.digitsValue]
    have hpower : (0 : Int) - (List.replicate zeros '0' ++ d.digits).length =
        d.point - d.digits.length := by
      simp only [List.length_append, List.length_replicate]
      omega
    rw [value, hdigits]
    exact congrArg _ hpower

/-- One digit before the point, and an exponent. -/
theorem exists_of_exponential :
    ∃ n : DecimalNotation,
      n.text = Binary64.signText negative ++ (d.digits.take 1 ++
        (if d.digits.drop 1 = [] then [] else '.' :: d.digits.drop 1) ++
          'e' :: Decimal.exponentText (d.point - 1)) ∧
      ¬ n.IsInteger ∧
      n.value = Binary64.ofScientific negative (Numeral.digitsValue d.digits)
        (d.point - d.digits.length) := by
  have hlength : 0 < d.digits.length := List.length_pos_iff.mpr h.ne_nil
  have htaken : d.digits.take 1 ≠ [] := by simp [h.ne_nil]
  have hleading : (d.digits.take 1).head? ≠ some '0' := by
    rw [List.head?_take, if_neg one_ne_zero]
    exact h.head?_ne
  obtain ⟨exponent, htext, hvalue⟩ := Exponent.exists_of_int (d.point - 1)
  refine ⟨⟨negative, d.digits.take 1, d.digits.drop 1, some exponent, htaken,
    fun c hc => h.isDigit c (List.mem_of_mem_take hc), (absurd · hleading),
    fun c hc => h.isDigit c (List.mem_of_mem_drop hc)⟩, ?_, fun hinteger => ?_, ?_⟩
  · simp [text, fractionText, exponentText, htext]
  · exact Option.some_ne_none _ hinteger.2
  · have hpower : exponent.value - (d.digits.drop 1).length = d.point - d.digits.length := by
      rw [hvalue, List.length_drop]
      omega
    rw [value, List.take_append_drop]
    exact congrArg _ hpower

/-- The layout of a decimal, behind a sign, is a notation of the number. -/
theorem exists_of_layout :
    ∃ n : DecimalNotation,
      n.text = Binary64.signText negative ++ d.layout ∧ ¬ n.IsInteger ∧
      n.value = Binary64.ofScientific negative (Numeral.digitsValue d.digits)
        (d.point - d.digits.length) := by
  unfold Decimal.layout
  by_cases hplain : 0 < d.point ∧ d.point ≤ 16
  · rw [if_pos hplain]
    dsimp only
    by_cases hshort : d.digits.length ≤ d.point.toNat
    · rw [if_pos hshort]
      exact exists_of_filled negative h (by omega)
    · rw [if_neg hshort]
      exact exists_of_divided negative h (by omega) (by omega) (by omega)
  · rw [if_neg hplain]
    by_cases hsmall : -4 < d.point ∧ d.point ≤ 0
    · rw [if_pos hsmall]
      exact exists_of_small negative h (by omega)
    · rw [if_neg hsmall]
      exact exists_of_exponential negative h

end Layout

/-- Zero, of either sign. -/
def ofZero (negative : Bool) : DecimalNotation where
  negative := negative
  whole := ['0']
  fraction := ['0']
  exponent := none
  ne_nil := List.cons_ne_nil _ _
  isDigit_whole := List.forall_mem_singleton.mpr rfl
  leading := fun _ => rfl
  isDigit_fraction := List.forall_mem_singleton.mpr rfl

/-- A finite value is written with a fraction or an exponent, in a notation that denotes it. -/
theorem exists_of_finite (negative : Bool) (rank : Fin Binary64.finiteRanks) :
    ∃ n : DecimalNotation, n.text = Binary64.finiteText negative rank ∧ ¬ n.IsInteger ∧
      n.value = .finite negative rank := by
  unfold Binary64.finiteText
  by_cases hzero : rank.val = 0
  · rw [if_pos hzero]
    refine ⟨ofZero negative, rfl, by decide +revert, ?_⟩
    have hdigits : Numeral.digitsValue ['0', '0'] = 0 := rfl
    have hvalue : (ofZero negative).value = Binary64.zero negative := by
      show Binary64.ofScientific negative (Numeral.digitsValue ['0', '0']) _ = _
      rw [hdigits]
      rfl
    rw [hvalue, ← Binary64.ofRank_val, hzero, Binary64.zero]
  · rw [if_neg hzero]
    obtain ⟨hnormal, hreads⟩ := Binary64.ofScientific_shortest negative hzero
    obtain ⟨n, htext, hinteger, hvalue⟩ := exists_of_layout negative hnormal
    exact ⟨n, htext, hinteger, hvalue.trans hreads⟩

/-! ### Characters -/

/-- A character that the notation of a number may hold. -/
def isNumeralChar (c : Char) : Bool :=
  isDigit c || c = '.' || c = 'e' || c = 'E' || c = '+' || c = '-'

theorem isNumeralChar_of_isDigit {c : Char} (h : isDigit c = true) : isNumeralChar c = true := by
  simp [isNumeralChar, h]

theorem Exponent.isNumeralChar_of_mem_text {exponent : Exponent} {c : Char}
    (h : c ∈ exponent.text) : isNumeralChar c = true := by
  simp only [Exponent.text, List.cons_append, List.mem_cons, List.mem_append] at h
  obtain rfl | hsign | hdigit := h
  · rcases exponent.letter_eq with hletter | hletter <;> rw [hletter] <;> rfl
  · rcases exponent.sign_eq with hnone | hplus | hminus <;> simp_all [isNumeralChar]
  · exact isNumeralChar_of_isDigit (exponent.isDigit_digits c hdigit)

theorem mem_fractionText {fraction : Text} {c : Char} (h : c ∈ fractionText fraction) :
    c = '.' ∨ c ∈ fraction := by
  unfold fractionText at h
  split at h
  · contradiction
  · exact List.mem_cons.mp h

/-- Only digits, points, letters of exponents and signs stand in a notation. -/
theorem isNumeralChar_of_mem_text {n : DecimalNotation} {c : Char} (h : c ∈ n.text) :
    isNumeralChar c = true := by
  simp only [text, List.mem_append] at h
  obtain hsign | hwhole | hfraction | hexponent := h
  · cases hnegative : n.negative <;> simp_all [Binary64.signText, isNumeralChar]
  · exact isNumeralChar_of_isDigit (n.isDigit_whole c hwhole)
  · obtain rfl | hdigit := mem_fractionText hfraction
    · rfl
    · exact isNumeralChar_of_isDigit (n.isDigit_fraction c hdigit)
  · cases hsome : n.exponent with
    | none => simp [exponentText, hsome] at hexponent
    | some exponent =>
        rw [hsome] at hexponent
        exact Exponent.isNumeralChar_of_mem_text hexponent

/-! ### Parts of a text -/

theorem isDigit_eq_false_of_mem_sign {exponent : Exponent} {c : Char} (h : c ∈ exponent.sign) :
    isDigit c = false := by
  rcases exponent.sign_eq with hnone | hplus | hminus <;> simp_all <;> rfl

theorem Exponent.text_injective {e f : Exponent} (h : e.text = f.text) : e = f := by
  obtain ⟨hletter, hrest⟩ := List.cons_eq_cons.mp h
  have hstops (g : Exponent) : Text.Stops (fun c => !isDigit c) g.digits := by
    intro c hc
    simp [g.isDigit_digits c (List.mem_of_mem_head? hc)]
  have hsign (g : Exponent) : ∀ c ∈ g.sign, (fun c => !isDigit c) c = true := by
    intro c hc
    simp [isDigit_eq_false_of_mem_sign hc]
  obtain ⟨hsigns, hdigits⟩ :=
    Text.run_unique (hsign e) (hstops e) (hsign f) (hstops f) hrest
  exact Exponent.ext hletter hsigns hdigits

theorem stops_exponentText {property : Char → Bool} (hsmall : property 'e' = false)
    (hlarge : property 'E' = false) (exponent : Option Exponent) :
    Text.Stops property (exponentText exponent) := by
  cases exponent with
  | none => exact Text.stops_nil property
  | some exponent =>
      refine Text.stops_cons ?_ _
      rcases exponent.letter_eq with hletter | hletter <;> rw [hletter] <;> assumption

theorem exponentText_injective {e f : Option Exponent} (h : exponentText e = exponentText f) :
    e = f := by
  cases e with
  | none =>
      cases f with
      | none => rfl
      | some f => exact absurd h (List.cons_ne_nil _ _).symm
  | some e =>
      cases f with
      | none => exact absurd h (List.cons_ne_nil _ _)
      | some f => rw [Exponent.text_injective h]

theorem fractionText_injective {a b : Text} (h : fractionText a = fractionText b) : a = b := by
  unfold fractionText at h
  split at h <;> split at h <;> simp_all

theorem stops_fractionText (fraction : Text) (exponent : Option Exponent) :
    Text.Stops isDigit (fractionText fraction ++ exponentText exponent) := by
  unfold fractionText
  split
  · exact stops_exponentText (by decide) (by decide) exponent
  · exact Text.stops_cons (by decide) _

/-- The first digit of a notation. -/
theorem exists_whole_eq_cons (n : DecimalNotation) :
    ∃ c digits, n.whole = c :: digits ∧ isDigit c = true := by
  obtain ⟨c, digits, hwhole⟩ := List.exists_cons_of_ne_nil n.ne_nil
  exact ⟨c, digits, hwhole, n.isDigit_whole c (hwhole ▸ List.mem_cons_self)⟩

/-- A notation starts with its minus sign or with a digit. -/
theorem exists_text_eq_cons (n : DecimalNotation) :
    ∃ c more, n.text = c :: more ∧ (c = '-' ∨ isDigit c = true) := by
  obtain ⟨c, digits, hwhole, hdigit⟩ := n.exists_whole_eq_cons
  cases hnegative : n.negative with
  | true => exact ⟨'-', _, by rw [text, hnegative]; rfl, .inl rfl⟩
  | false => exact ⟨c, _, by rw [text, hnegative, hwhole]; rfl, .inr hdigit⟩

/-- The parts of a notation are known from its text. -/
theorem text_injective {n m : DecimalNotation} (h : n.text = m.text) : n = m := by
  -- each part is a run of characters that the next part cannot start with
  have hminus (negative : Bool) :
      ∀ c ∈ Binary64.signText negative, (fun c => decide (c = '-')) c = true := by
    cases negative <;> simp [Binary64.signText]
  have hstart (n : DecimalNotation) (rest : Text) :
      Text.Stops (fun c => decide (c = '-')) (n.whole ++ rest) := by
    obtain ⟨c, digits, hwhole, hdigit⟩ := n.exists_whole_eq_cons
    rw [hwhole]
    refine Text.stops_cons (decide_eq_false ?_) _
    rintro rfl
    exact absurd hdigit (by decide)
  have hfractions {n : DecimalNotation} :
      ∀ c ∈ fractionText n.fraction, (fun c => isDigit c || c = '.') c = true := by
    intro c hc
    obtain rfl | hdigit := mem_fractionText hc
    · rfl
    · simp [n.isDigit_fraction c hdigit]
  obtain ⟨hsign, hrest⟩ :=
    Text.run_unique (hminus n.negative) (hstart n _) (hminus m.negative) (hstart m _) h
  obtain ⟨hwhole, htail⟩ := Text.run_unique n.isDigit_whole (stops_fractionText _ _)
    m.isDigit_whole (stops_fractionText _ _) hrest
  obtain ⟨hfraction, hexponent⟩ := Text.run_unique hfractions
    (stops_exponentText (by decide) (by decide) n.exponent) hfractions
    (stops_exponentText (by decide) (by decide) m.exponent) htail
  have hnegative : n.negative = m.negative := by
    revert hsign
    cases n.negative <;> cases m.negative <;> simp [Binary64.signText]
  exact DecimalNotation.ext hnegative hwhole (fractionText_injective hfraction)
    (exponentText_injective hexponent)

end DecimalNotation
end LoxLexer

import LoxLexer.Proofs.Number.Notation
import LoxLexer.Proofs.Number.PlainNumeral

/-!
# Notations are read back

A notation of a number is read as the value that it denotes: nothing in it is changed before it is
taken apart, and its parts are found as they were put together.  So a binary64 value is read back from
its own notation, whether that is positional, has an exponent or is a word.

* `DecimalNotation.read?_text` — what the text of a notation is read as.
* `Binary64.read?_toText` — every value is read back.
-/

namespace LoxLexer

namespace DecimalNotation

theorem isVerbatim_of_isNumeralChar {c : Char} (h : isNumeralChar c = true) :
    Numeral.isVerbatim c = true := by
  have hmarks : ∀ d ∈ ['.', 'e', 'E', '+', '-'], Numeral.isVerbatim d = true :=
    Text.forall_mem_of_all (by decide)
  simp only [isNumeralChar, Bool.or_eq_true, decide_eq_true_eq, or_assoc] at h
  obtain hdigit | hmark := h
  · exact Numeral.isVerbatim_of_isPlain (Numeral.isPlain_of_isDigit hdigit)
  · exact hmarks c (by simpa using hmark)

theorem splitSign_append {sign digits : Text} (hsign : sign = [] ∨ sign = ['+'] ∨ sign = ['-'])
    (hne : digits ≠ []) (hdigits : ∀ c ∈ digits, isDigit c = true) :
    Numeral.splitSign (sign ++ digits) = (decide (sign = ['-']), digits) := by
  obtain ⟨c, more, rfl⟩ := List.exists_cons_of_ne_nil hne
  rcases hsign with rfl | rfl | rfl
  · exact Numeral.splitSign_digit (hdigits c List.mem_cons_self) more
  · rfl
  · rfl

/-- What stands behind the digits is read as the exponent. -/
theorem exponent?_exponentText (exponent : Option Exponent) :
    Numeral.exponent? (exponentText exponent) = some (exponentValue exponent) := by
  cases exponent with
  | none => rfl
  | some exponent =>
      have hletter : exponent.letter.toLower = 'e' := by
        rcases exponent.letter_eq with hletter | hletter <;> rw [hletter] <;> rfl
      have hdigits : exponent.digits.all Char.isDigit = true :=
        List.all_eq_true.mpr exponent.isDigit_digits
      have hsplit :=
        splitSign_append exponent.sign_eq exponent.ne_nil exponent.isDigit_digits
      show Numeral.exponent? (exponent.letter :: (exponent.sign ++ exponent.digits)) =
        some exponent.value
      rw [Numeral.exponent?, hsplit]
      simp [hletter, exponent.ne_nil, hdigits, Exponent.value]

/-- Without a fraction no point stands behind the digits. -/
theorem exponentText_ne_point (exponent : Option Exponent) (rest : Text) :
    exponentText exponent ≠ '.' :: rest := by
  intro h
  have hstops : Text.Stops (fun c => decide (c = '.')) (exponentText exponent) :=
    stops_exponentText (by decide) (by decide) exponent
  rw [h] at hstops
  exact absurd (hstops '.' rfl) (by decide)

/-- The parts of a notation are found as they were put together. -/
theorem decimal?_parts (n : DecimalNotation) :
    Numeral.decimal? n.negative (n.whole ++ (fractionText n.fraction ++ exponentText n.exponent)) =
      some n.value := by
  have hstops := stops_fractionText n.fraction n.exponent
  have hwhole := Text.takeWhile_run n.isDigit_whole hstops
  have hrest := Text.dropWhile_run n.isDigit_whole hstops
  have hend : Text.Stops isDigit (exponentText n.exponent) :=
    stops_exponentText (by decide) (by decide) n.exponent
  have hfraction := Text.takeWhile_run n.isDigit_fraction hend
  have hexponent := Text.dropWhile_run n.isDigit_fraction hend
  have hne : n.whole ++ n.fraction ≠ [] := List.append_ne_nil_of_left_ne_nil n.ne_nil _
  -- the digits of both classes are the same
  have hclass : Char.isDigit = isDigit := rfl
  rw [Numeral.decimal?, hclass, hwhole, hrest, value]
  unfold fractionText
  by_cases hnone : n.fraction = []
  · simp only [if_pos hnone, List.nil_append]
    split
    · exact absurd ‹_› (exponentText_ne_point n.exponent _)
    · simp [exponent?_exponentText, hnone, n.ne_nil]
  · simp only [if_neg hnone, List.cons_append, hfraction, hexponent, if_neg hne,
      exponent?_exponentText, Option.map_some]

/-- The text of a notation is read as the value that it denotes. -/
theorem read?_text (n : DecimalNotation) : Numeral.read? n.text = some n.value := by
  obtain ⟨c, digits, hwhole, hdigit⟩ := n.exists_whole_eq_cons
  have hverbatim : ∀ c ∈ n.text, Numeral.isVerbatim c = true :=
    fun c hc => isVerbatim_of_isNumeralChar (isNumeralChar_of_mem_text hc)
  rw [Numeral.read?_verbatim hverbatim, ← decimal?_parts, text, hwhole]
  exact Numeral.plain?_signed n.negative hdigit _

end DecimalNotation

/-- Every value is read back from its notation. -/
theorem Binary64.read?_toText (value : Binary64) : Numeral.read? value.toText = some value := by
  cases value with
  | finite negative rank =>
      obtain ⟨n, htext, -, hvalue⟩ := DecimalNotation.exists_of_finite negative rank
      rw [toText, ← htext, n.read?_text, hvalue]
  | infinite negative => cases negative <;> decide
  | nan => decide

end LoxLexer

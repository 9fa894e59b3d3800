import LoxLexer.Proofs.Number.Notation

/-!
# Numbers are known from their notations

Different integers are written differently, and so are different binary64 values: the notation of a
finite value denotes it, and no digit stands in the words for the others.

* `Text.ofNat_injective`, `Text.ofInt_injective` — a number is known from its notation.
* `Binary64.isValueChar` — the characters that the notation of a value is made of.
* `Binary64.toText_injective` — a value is known from its notation, its sign included.
-/

namespace LoxLexer
namespace Text

theorem ofNat_injective {m n : Nat} (h : ofNat m = ofNat n) : m = n := by
  rw [← Numeral.digitsValue_ofNat m, h, Numeral.digitsValue_ofNat]

theorem ofInt_injective {m n : Int} (h : ofInt m = ofInt n) : m = n := by
  obtain ⟨a, ha, -, hm⟩ := DecimalNotation.exists_of_int m
  obtain ⟨b, hb, -, hn⟩ := DecimalNotation.exists_of_int n
  rw [← ha, ← hb] at h
  rw [← hm, ← hn, DecimalNotation.text_injective h]

theorem isNumeralChar_of_mem_ofInt {n : Int} {c : Char} (h : c ∈ ofInt n) :
    DecimalNotation.isNumeralChar c = true := by
  obtain ⟨a, ha, -⟩ := DecimalNotation.exists_of_int n
  rw [← ha] at h
  exact DecimalNotation.isNumeralChar_of_mem_text h

theorem ofInt_ne_nil (n : Int) : ofInt n ≠ [] := by
  cases n with
  | ofNat n => exact ofNat_ne_nil n
  | negSucc n => exact List.cons_ne_nil _ _

end Text

namespace Binary64

/-- A character that the notation of a value may hold: one of a number, or a letter of `inf` and
`nan`. -/
def isValueChar (c : Char) : Bool :=
  DecimalNotation.isNumeralChar c || c = 'i' || c = 'n' || c = 'f' || c = 'a'

theorem isValueChar_of_mem_toText (value : Binary64) : ∀ c ∈ value.toText, isValueChar c = true := by
  cases value with
  | finite negative rank =>
      obtain ⟨n, hn, -⟩ := DecimalNotation.exists_of_finite negative rank
      intro c hc
      rw [toText, ← hn] at hc
      simp [isValueChar, DecimalNotation.isNumeralChar_of_mem_text hc]
  | infinite negative => cases negative <;> exact Text.forall_mem_of_all (by decide)
  | nan => exact Text.forall_mem_of_all (by decide)

/-- The values that are written as words. -/
def words : List Binary64 := [infinite false, infinite true, nan]

theorem exists_finite_or_mem_words (value : Binary64) :
    (∃ negative rank, value = finite negative rank) ∨ value ∈ words := by
  cases value with
  | finite negative rank => exact .inl ⟨negative, rank, rfl⟩
  | infinite negative => cases negative <;> exact .inr (by decide)
  | nan => exact .inr (by decide)

/-- A digit stands in the notation of a finite value. -/
theorem any_isDigit_finite (negative : Bool) (rank : Fin finiteRanks) :
    (finite negative rank).toText.any isDigit = true := by
  obtain ⟨n, hn, -⟩ := DecimalNotation.exists_of_finite negative rank
  obtain ⟨c, digits, hwhole, hdigit⟩ := n.exists_whole_eq_cons
  rw [toText, ← hn, List.any_eq_true]
  exact ⟨c, by simp [DecimalNotation.text, hwhole], hdigit⟩

/-- A digit stands in none of the words, so that no finite value is written as one. -/
theorem toText_finite_ne {negative : Bool} {rank : Fin finiteRanks} {word : Binary64}
    (hword : word ∈ words) : (finite negative rank).toText ≠ word.toText := by
  have hnone : ∀ word ∈ words, word.toText.any isDigit = false := by decide
  intro h
  have hdigit := any_isDigit_finite negative rank
  rw [h, hnone word hword] at hdigit
  contradiction

/-- A value is known from its notation. -/
theorem toText_injective {a b : Binary64} (h : a.toText = b.toText) : a = b := by
  have hdistinct : ∀ a ∈ words, ∀ b ∈ words, a.toText = b.toText → a = b := by decide
  obtain ⟨negative, rank, rfl⟩ | hword := a.exists_finite_or_mem_words
  · obtain ⟨negative', rank', rfl⟩ | hword' := b.exists_finite_or_mem_words
    · obtain ⟨n, hn, -, hvalue⟩ := DecimalNotation.exists_of_finite negative rank
      obtain ⟨m, hm, -, hvalue'⟩ := DecimalNotation.exists_of_finite negative' rank'
      have htext : n.text = m.text := by rw [hn, hm]; exact h
      rw [← hvalue, ← hvalue', DecimalNotation.text_injective htext]
    · exact absurd h (toText_finite_ne hword')
  · obtain ⟨negative', rank', rfl⟩ | hword' := b.exists_finite_or_mem_words
    · exact absurd h.symm (toText_finite_ne hword)
    · exact hdistinct a hword b hword' h

end Binary64
end LoxLexer

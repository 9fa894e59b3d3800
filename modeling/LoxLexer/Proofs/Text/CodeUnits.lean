import LoxLexer.Proofs.Json.Strings

/-!
# Lengths in UTF-16

A text takes as many code units in UTF-16 as it has characters, and one more for each character
beyond the Basic Multilingual Plane.

* `Text.unitLength` — the length of a text in code units.
* `Text.unitLength_eq` — it is the number of characters, supplementary ones counted twice.
* `Text.unitLength_eq_length_iff` — it is the number of characters if none is supplementary.
-/

namespace LoxLexer
namespace Text

/-- How many UTF-16 code units a text takes. -/
def unitLength (text : Text) : Nat := (text.flatMap Json.units).length

/-- A character beyond the Basic Multilingual Plane, which takes two code units. -/
def isSupplementary (c : Char) : Bool := 0x10000 ≤ c.toNat

theorem length_units (c : Char) :
    (Json.units c).length = 1 + if isSupplementary c then 1 else 0 := by
  unfold Json.units isSupplementary
  by_cases hbasic : c.toNat < 0x10000
  · rw [if_pos hbasic, if_neg (by simpa using hbasic)]
    rfl
  · rw [if_neg hbasic, if_pos (by simpa using hbasic)]
    rfl

theorem unitLength_append (a b : Text) : unitLength (a ++ b) = unitLength a + unitLength b := by
  rw [unitLength, List.flatMap_append, List.length_append]
  rfl

/-- The length in code units counts supplementary characters twice. -/
theorem unitLength_eq (text : Text) :
    unitLength text = text.length + text.countP isSupplementary := by
  induction text with
  | nil => rfl
  | cons c text ih =>
      unfold unitLength at ih ⊢
      rw [List.flatMap_cons, List.length_append, ih, length_units, List.countP_cons,
        List.length_cons]
      omega

example : unitLength "a😀b".toList = 4 := by decide

/-- Characters are counted right as code units if none is supplementary. -/
theorem unitLength_eq_length_iff {text : Text} :
    unitLength text = text.length ↔ ∀ c ∈ text, isSupplementary c = false := by
  have hnone : unitLength text = text.length ↔ text.countP isSupplementary = 0 := by
    rw [unitLength_eq]
    omega
  rw [hnone, List.countP_eq_zero]
  simp only [Bool.not_eq_true]

end Text
end LoxLexer

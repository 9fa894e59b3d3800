import LoxLexer.Text.Basic

/-!
# Character classes of Lox

Identifiers and numbers of Lox are ASCII: a letter or digit beyond ASCII belongs to no class.
-/

namespace LoxLexer

/-- An ASCII decimal digit. -/
def isDigit (c : Char) : Bool := c.isDigit

/-- A character that a word may start with: an ASCII letter or the underscore. -/
def isWordStart (c : Char) : Bool := c.isAlpha || c = '_'

theorem isDigit_iff {c : Char} : isDigit c = true ↔ '0' ≤ c ∧ c ≤ '9' := by
  have heq : isDigit c = (decide ('0' ≤ c) && decide (c ≤ '9')) := rfl
  rw [heq, Bool.and_eq_true, decide_eq_true_iff, decide_eq_true_iff]

theorem isWordStart_iff {c : Char} :
    isWordStart c = true ↔ 'a' ≤ c ∧ c ≤ 'z' ∨ 'A' ≤ c ∧ c ≤ 'Z' ∨ c = '_' := by
  have heq : isWordStart c = (decide ('A' ≤ c ∧ c ≤ 'Z') ||
      (decide ('a' ≤ c) && decide (c ≤ 'z')) || decide (c = '_')) := rfl
  rw [heq, Bool.or_eq_true, Bool.or_eq_true, Bool.and_eq_true, decide_eq_true_iff,
    decide_eq_true_iff, decide_eq_true_iff, decide_eq_true_iff, or_assoc, or_left_comm]

/-- A character that a word may go on with. -/
def isWordChar (c : Char) : Bool := isWordStart c || isDigit c

/-- White space that separates lexemes without ending the line. -/
def isBlank (c : Char) : Bool := c = ' ' || c = '\t' || c = '\r'

/-- A character that may stand between the quotes of a string. -/
def isStringChar (c : Char) : Bool := c ≠ '"' && c ≠ '\n'

/-- A character that may stand in a comment. -/
def isCommentChar (c : Char) : Bool := c ≠ '\n'

end LoxLexer

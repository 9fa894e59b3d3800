import LoxLexer.Text.Basic

/-!
# The lines of a text

A text is lines with a line feed between each two of them.  What is said about a text is proved line
by line.

* `Text.split_last`, `Text.split_line` — the parts of a text, the first of them taken off.
* `Text.induction_lines` — induction over a text, one line at a time.
* `Text.lineFeed_notMem_ofInt` — a number is written on one line.
-/

namespace LoxLexer
namespace Text

variable {separator : Char} {line : Text}

theorem split_last (h : separator ∉ line) : split separator line = [line] := by
  induction line with
  | nil => rfl
  | cons c line ih =>
      rw [List.mem_cons, not_or] at h
      rw [split, if_neg (Ne.symm h.1), ih h.2]

theorem split_line (h : separator ∉ line) (rest : Text) :
    split separator (line ++ separator :: rest) = line :: split separator rest := by
  induction line with
  | nil => rw [List.nil_append, split, if_pos rfl]
  | cons c line ih =>
      rw [List.mem_cons, not_or] at h
      rw [List.cons_append, split, if_neg (Ne.symm h.1), ih h.2]

/-- Induction over a text, one line at a time. -/
@[elab_as_elim]
theorem induction_lines {motive : Text → Prop} (last : ∀ line, '\n' ∉ line → motive line)
    (next : ∀ line rest, '\n' ∉ line → motive rest → motive (line ++ '\n' :: rest))
    (text : Text) : motive text := by
  by_cases hfeed : '\n' ∈ text
  · obtain ⟨line, rest, htext, hline⟩ := List.eq_append_cons_of_mem hfeed
    have hlt : rest.length < text.length := by
      rw [htext, List.length_append, List.length_cons]
      omega
    rw [htext]
    exact next line rest hline (induction_lines last next rest)
  · exact last text hfeed
termination_by text.length

theorem lineFeed_notMem_ofNat (n : Nat) : '\n' ∉ ofNat n := by
  intro h
  have hdigit := Nat.isDigit_of_mem_toDigits (by decide) (by decide) h
  exact absurd hdigit (by decide)

theorem lineFeed_notMem_ofInt (n : Int) : '\n' ∉ ofInt n := by
  cases n with
  | ofNat n => exact lineFeed_notMem_ofNat n
  | negSucc n =>
      rw [ofInt, List.mem_cons, not_or]
      exact ⟨by decide, lineFeed_notMem_ofNat (n + 1)⟩

end Text
end LoxLexer

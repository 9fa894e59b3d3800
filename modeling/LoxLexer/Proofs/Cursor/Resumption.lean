import LoxLexer.Cursor.Call
import LoxLexer.Proofs.Cursor.Round
import LoxLexer.Proofs.Lexing.Shift

/-!
# Finishing after other calls

A cursor may be called in any order, so it may be asked to finish from a state that no run from the
start of its source passes through: with the mark far behind, inside a lexeme, beyond the end, or on
a line that the text does not bear out.  What it adds when it finishes depends on nothing but the
text that remains; the line and the position where it stands move the result and do no more.

* `Cursor.Continues` — a step that reads the same source and does not record the end of file.
* `Cursor.continues_perform`, `Cursor.continues_after` — every call but the last is such a step.
* `Cursor.finished_after` — once the end of file is recorded it stays recorded.
* `Cursor.finish_after` — a cursor finishes with what a fresh one finds in the text that remains,
  and only once.
-/

namespace LoxLexer
namespace Cursor

/-! ### Calls that leave the cursor open -/

/-- The step from `c` to `d` keeps the source, and whether the end of file has been recorded. -/
structure Continues (c d : Cursor) : Prop where
  source_eq : d.source = c.source
  finished_eq : d.finished = c.finished

namespace Continues

variable {c d e : Cursor}

theorem refl (c : Cursor) : c.Continues c := ⟨rfl, rfl⟩

theorem trans (h : c.Continues d) (h' : d.Continues e) : c.Continues e :=
  ⟨h'.source_eq.trans h.source_eq, h'.finished_eq.trans h.finished_eq⟩

end Continues

theorem continues_move (c : Cursor) (n : Nat) : c.Continues (c.move n) := ⟨rfl, rfl⟩

theorem continues_accept (c : Cursor) (expected : Text) :
    c.Continues (c.accept expected).2 := by
  unfold accept
  split
  · exact c.continues_move 1
  · exact .refl c

theorem continues_advance (c : Cursor) : c.Continues c.advance.2 := by
  unfold advance
  split
  · exact .refl c
  · exact c.continues_move 1

theorem continues_takeString (c : Cursor) : c.Continues c.takeString := by
  unfold takeString
  split
  · exact ⟨rfl, rfl⟩
  · exact ⟨rfl, rfl⟩

theorem continues_takeNumber (c : Cursor) : c.Continues c.takeNumber.2 := by
  unfold takeNumber
  dsimp only
  split
  · exact ⟨rfl, rfl⟩
  · exact c.continues_move _

theorem continues_takeRest (c : Cursor) (ch : Char) : c.Continues (c.takeRest ch).2 := by
  unfold takeRest
  split
  · exact ⟨rfl, rfl⟩
  · have h := c.continues_accept ['=']
    exact ⟨h.source_eq, h.finished_eq⟩
  · by_cases hslash : ch = '/'
    · have h := c.continues_accept ['/']
      rw [if_pos hslash]
      dsimp only
      split
      · exact ⟨h.source_eq, h.finished_eq⟩
      · exact ⟨h.source_eq, h.finished_eq⟩
    · rw [if_neg hslash]
      repeat' split
      · exact .refl c
      · exact ⟨rfl, rfl⟩
      · exact c.continues_takeString
      · exact c.continues_takeNumber
      · exact ⟨rfl, rfl⟩
      · exact ⟨rfl, rfl⟩

theorem continues_takeLexeme (c : Cursor) : c.Continues c.takeLexeme.2 := by
  have h := c.continues_advance
  unfold takeLexeme
  generalize c.advance = next at h
  obtain ⟨fault | ch, d⟩ := next
  · exact h
  · exact h.trans (d.continues_takeRest ch)

@[simp] theorem reply_snd {α : Type} (toReply : α → Reply) (outcome : Outcome α) :
    (Outcome.reply toReply outcome).2 = outcome.2 := by
  obtain ⟨fault | value, c⟩ := outcome <;> rfl

/-- Every call but the one to finish leaves the cursor open. -/
theorem continues_perform (c : Cursor) {call : Call} (hcall : call ≠ .finish) :
    c.Continues (c.perform call).2 := by
  cases call with
  | finish => contradiction
  | advance => simpa [perform] using c.continues_advance
  | accept expected => exact c.continues_accept expected
  | takeLexeme => simpa [perform] using c.continues_takeLexeme
  | takeString => exact c.continues_takeString
  | takeNumber => simpa [perform] using c.continues_takeNumber
  | _ => exact ⟨rfl, rfl⟩

theorem after_cons (c : Cursor) (call : Call) (calls : List Call) :
    c.after (call :: calls) = (c.perform call).2.after calls := rfl

theorem continues_after (c : Cursor) {calls : List Call} (hcalls : Call.finish ∉ calls) :
    c.Continues (c.after calls) := by
  induction calls generalizing c with
  | nil => exact .refl c
  | cons call calls ih =>
      rw [List.mem_cons, not_or] at hcalls
      rw [after_cons]
      exact (c.continues_perform (Ne.symm hcalls.1)).trans (ih _ hcalls.2)

/-! ### Finishing is final -/

variable {c : Cursor}

theorem finish_of_finished (h : c.finished = true) : c.finish = (.ok c.tokens, c) := by
  rw [finish, if_pos h]

theorem finished_perform (h : c.finished = true) (call : Call) :
    (c.perform call).2.finished = true := by
  by_cases hcall : call = .finish
  · subst hcall
    simpa [perform, finish_of_finished h] using h
  · rw [(c.continues_perform hcall).finished_eq, h]

/-- No call takes the end of file back. -/
theorem finished_after (h : c.finished = true) (calls : List Call) :
    (c.after calls).finished = true := by
  induction calls generalizing c with
  | nil => exact h
  | cons call calls ih => exact ih (finished_perform h call)

/-! ### What is added -/

/-- Reading on from where a cursor stands finds what is found in the remaining text alone, moved to
the line of the cursor. -/
theorem tokensOf_remaining (c : Cursor) :
    tokensOf c.line (lexemes c.remaining) =
      (analyse c.remaining).tokens.map (Token.later (c.line - 1)) := by
  have hline : (c.line : Int) = 1 + (c.line - 1) := by omega
  calc tokensOf c.line (lexemes c.remaining)
      = tokensOf (1 + (c.line - 1)) (lexemes c.remaining) := by rw [← hline]
    _ = (analyse c.remaining).tokens.map (Token.later (c.line - 1)) := tokensOf_add _ _ _

/-- The same of the errors, which are moved to the position of the cursor as well. -/
theorem errorsOf_remaining (c : Cursor) :
    errorsOf c.line c.current (lexemes c.remaining) =
      (analyse c.remaining).report.errors.map (LexicalError.later (c.line - 1) c.current) := by
  have hline : (c.line : Int) = 1 + (c.line - 1) := by omega
  calc errorsOf c.line c.current (lexemes c.remaining)
      = errorsOf (1 + (c.line - 1)) (0 + c.current) (lexemes c.remaining) := by
        rw [← hline, Nat.zero_add]
    _ = (analyse c.remaining).report.errors.map
          (LexicalError.later (c.line - 1) c.current) := errorsOf_add _ _ _ _ _

/-- Whatever a fresh cursor has been asked for, it finishes without a fault when it is asked to.  It
keeps the tokens and the errors that it has, and adds those that a fresh cursor finds in the text
that remains, moved to the line and the position where it stands.  Whatever it is asked for after
that, finishing again changes nothing. -/
theorem finish_after {source : Text} {report : Report} {calls : List Call}
    (hcalls : Call.finish ∉ calls) (hreached : (fresh source report).after calls = c) :
    ∃ last rest, c.finish = (.ok last.tokens, last) ∧
      (fresh (source.drop c.current)).finish = (.ok rest.tokens, rest) ∧
      last.tokens = c.tokens ++ rest.tokens.map (Token.later (c.line - 1)) ∧
      last.report.errors = c.report.errors ++
        rest.report.errors.map (LexicalError.later (c.line - 1) c.current) ∧
      ∀ more, (last.after more).finish = (.ok (last.after more).tokens, last.after more) := by
  have hcontinues := (fresh source report).continues_after hcalls
  rw [hreached] at hcontinues
  have hremaining : source.drop c.current = c.remaining := by
    rw [remaining, hcontinues.source_eq]
    rfl
  obtain ⟨last, hlast, hfinished, -, htokens, herrors⟩ := finish_eq hcontinues.finished_eq
  obtain ⟨rest, hrest, hrestTokens, hrestErrors⟩ := finish_fresh c.remaining {}
  refine ⟨last, rest, hlast, ?_, ?_, ?_, ?_⟩
  · rw [hremaining]
    exact hrest
  · rw [htokens, hrestTokens, tokensOf_remaining]
  · rw [herrors, hrestErrors, errorsOf_remaining]
    rfl
  · intro more
    exact finish_of_finished (finished_after hfinished more)

/-- The cursor has passed over a line feed without counting it, and has taken a word whose mark
stands before the line feed. -/
theorem finish_after_uncounted_lineFeed :
    Call.finish ∉ [.advance, .advance, .report 7 ['!'], .takeWord] ∧
      (fresh ['\n', 'a', 'b', ' ', '@']).after [.advance, .advance, .report 7 ['!'], .takeWord] =
        ⟨['\n', 'a', 'b', ' ', '@'], 0, 3, 1, [⟨.identifier, ['\n', 'a', 'b'], none, 1⟩],
          ⟨[⟨.unexpectedCharacter, ['!'], 7, -1⟩]⟩, false⟩ ∧
      ∃ last rest,
        (⟨['\n', 'a', 'b', ' ', '@'], 0, 3, 1, [⟨.identifier, ['\n', 'a', 'b'], none, 1⟩],
          ⟨[⟨.unexpectedCharacter, ['!'], 7, -1⟩]⟩, false⟩ : Cursor).finish =
            (.ok last.tokens, last) ∧
        (fresh [' ', '@']).finish = (.ok rest.tokens, rest) ∧
        last.tokens = ⟨.identifier, ['\n', 'a', 'b'], none, 1⟩ ::
          rest.tokens.map (Token.later (1 - 1)) ∧
        last.report.errors = ⟨.unexpectedCharacter, ['!'], 7, -1⟩ ::
          rest.report.errors.map (LexicalError.later (1 - 1) 3) ∧
        ∀ more, (last.after more).finish = (.ok (last.after more).tokens, last.after more) := by
  have hcalls : Call.finish ∉ [.advance, .advance, .report 7 ['!'], .takeWord] := by decide
  have hreached : (fresh ['\n', 'a', 'b', ' ', '@']).after
      [.advance, .advance, .report 7 ['!'], .takeWord] =
        ⟨['\n', 'a', 'b', ' ', '@'], 0, 3, 1, [⟨.identifier, ['\n', 'a', 'b'], none, 1⟩],
          ⟨[⟨.unexpectedCharacter, ['!'], 7, -1⟩]⟩, false⟩ := by decide
  exact ⟨hcalls, hreached, finish_after hcalls hreached⟩

end Cursor
end LoxLexer

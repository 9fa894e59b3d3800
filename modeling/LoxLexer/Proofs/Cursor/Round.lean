import LoxLexer.Proofs.Cursor.Step
import Mathlib.Data.List.Forall2

/-!
# Rounds of the cursor

`Cursor.sweep` goes round as long as something is left.  This module spells its rounds out, each
with the states before and after it, so that what holds of a round can be carried through a run.

* `Cursor.Round` — one round: something is left, and a lexeme is taken without a fault.
* `Cursor.Run` — the rounds from one state to another at which nothing is left.
* `Cursor.exists_run` — from every state there is such a run, one round for each lexeme of what
  remains; `Cursor.Run.sweep_eq` says that `sweep` makes it.
* `Cursor.Run.invariant` — what each round keeps holds in every state of a run.
* `Cursor.finish_eq` — what a cursor adds when it finishes: the tokens and the errors of the
  lexemes that remain.
-/

namespace LoxLexer
namespace Cursor

/-! ### Fields of a cursor behind a lexeme -/

@[simp] theorem absorb_source (c : Cursor) (lexeme : Lexeme) :
    (c.absorb lexeme).source = c.source := rfl

theorem absorb_current (c : Cursor) (lexeme : Lexeme) :
    (c.absorb lexeme).current = c.current + lexeme.text.length := rfl

theorem absorb_line (c : Cursor) (lexeme : Lexeme) :
    (c.absorb lexeme).line = c.line + lexeme.text.lineFeeds := rfl

theorem absorb_remaining {c : Cursor} {lexeme : Lexeme} {rest : Text}
    (h : Front c.remaining lexeme rest) : (c.absorb lexeme).remaining = rest := by
  have hdrop : (c.absorb lexeme).remaining = c.remaining.drop lexeme.text.length := by
    simp [remaining, absorb, List.drop_drop]
  rw [hdrop, h.text_append, List.drop_left]

/-! ### Rounds -/

/-- One round of the loop: something is left, and from a fresh mark a lexeme is taken. -/
structure Round where
  before : Cursor
  after : Cursor
  unread : before.current < before.source.length
  taken : before.mark.takeLexeme = (.ok (), after)

namespace Round

/-- The round that takes the lexeme at the front of what remains. -/
def ofFront {c : Cursor} {lexeme : Lexeme} {rest : Text} (h : Front c.remaining lexeme rest) :
    Round where
  before := c
  after := c.absorb lexeme
  unread := by
    rw [← remaining_ne_nil_iff, h.text_append]
    exact List.append_ne_nil_of_left_ne_nil h.text_ne_nil rest
  taken := takeLexeme_mark h

/-- A round takes the lexeme at the front of what remains, and does nothing else. -/
theorem exists_front (round : Round) :
    ∃ lexeme rest, Front round.before.remaining lexeme rest ∧
      round.after = round.before.absorb lexeme := by
  obtain ⟨ch, tail, htext⟩ :=
    List.exists_cons_of_ne_nil ((remaining_ne_nil_iff _).mpr round.unread)
  obtain ⟨lexeme, rest, hfront⟩ := LoxLexer.exists_front ch tail
  rw [← htext] at hfront
  have htaken := round.taken
  rw [takeLexeme_mark hfront] at htaken
  exact ⟨lexeme, rest, hfront, (congrArg Prod.snd htaken).symm⟩

theorem eq_of_before {round round' : Round} (h : round.before = round'.before) :
    round = round' := by
  have hafter : round.after = round'.after := by
    have htaken := round.taken
    rw [h, round'.taken] at htaken
    exact (congrArg Prod.snd htaken).symm
  cases round
  cases round'
  cases h
  cases hafter
  rfl

/-- Where the round starts to read the source, and how far it reads. -/
def span (round : Round) : Nat × Nat := (round.after.start, round.after.current)

/-- The tokens that the round records. -/
def scanned (round : Round) : List Token :=
  round.after.tokens.drop round.before.tokens.length

variable {round : Round} {lexeme : Lexeme}

theorem span_of_after_eq (h : round.after = round.before.absorb lexeme) :
    round.span = (round.before.current, round.before.current + lexeme.text.length) := by
  rw [span, h]
  rfl

theorem scanned_of_after_eq (h : round.after = round.before.absorb lexeme) :
    round.scanned = (lexeme.token? round.before.line).toList := by
  rw [scanned, h]
  exact List.drop_left

/-- A round keeps the tokens that were recorded before it. -/
theorem tokens_append_scanned (round : Round) :
    round.before.tokens ++ round.scanned = round.after.tokens := by
  obtain ⟨lexeme, rest, -, hafter⟩ := round.exists_front
  rw [scanned_of_after_eq hafter, hafter]
  rfl

end Round

/-- `Run c rounds last`: entered at `c`, the loop makes these rounds and is left at `last`. -/
inductive Run : Cursor → List Round → Cursor → Prop
  | leave {c : Cursor} (h : c.source.length ≤ c.current) : Run c [] c
  | next (round : Round) {rounds : List Round} {last : Cursor}
      (h : Run round.after rounds last) : Run round.before (round :: rounds) last

/-- The cursor with the end of file recorded. -/
def close (c : Cursor) : Cursor :=
  { c with tokens := c.tokens ++ [Token.endOfFile c.line], finished := true }

/-- What the cursor is behind several lexemes. -/
def absorbAll (c : Cursor) (lexemes : List Lexeme) : Cursor := lexemes.foldl absorb c

/-- From every state the loop ends: it makes one round for each lexeme of what remains. -/
theorem exists_run (c : Cursor) :
    ∃ rounds, Run c rounds (c.absorbAll (lexemes c.remaining)) ∧
      List.Forall₂ (fun round lexeme => round.after = round.before.absorb lexeme) rounds
        (lexemes c.remaining) := by
  generalize htext : c.remaining = text
  -- over what remains, one lexeme at a time; the cursor moves on with it
  induction text using Front.induction generalizing c with
  | nil =>
      have hend : c.source.length ≤ c.current := List.drop_eq_nil_iff.mp htext
      rw [lexemes_nil]
      exact ⟨[], .leave hend, .nil⟩
  | front text lexeme rest hfront ih =>
      rw [hfront.lexemes_eq]
      rw [← htext] at hfront
      obtain ⟨rounds, hrun, htaken⟩ := ih (c.absorb lexeme) (absorb_remaining hfront)
      exact ⟨.ofFront hfront :: rounds, .next (.ofFront hfront) hrun, .cons rfl htaken⟩

namespace Run

variable {c last : Cursor} {rounds : List Round}

/-- `sweep` makes the rounds of a run. -/
theorem sweep_eq (h : Run c rounds last) : c.sweep = (.ok (), last) := by
  induction h with
  | leave h => rw [sweep, dif_neg (Nat.not_lt.mpr h)]
  | next round h ih =>
      rw [sweep, dif_pos round.unread]
      simp only [round.taken]
      exact ih

theorem unique {last' : Cursor} {rounds' : List Round} (h : Run c rounds last)
    (h' : Run c rounds' last') : rounds = rounds' ∧ last = last' := by
  induction h generalizing rounds' with
  | leave hend =>
      cases h' with
      | leave => exact ⟨rfl, rfl⟩
      | next round' h' => exact absurd round'.unread (Nat.not_lt.mpr hend)
  | next round h ih =>
      -- `round.before` is no variable, so the other run is split over an equation
      generalize hbefore : round.before = c at h'
      cases h' with
      | leave hend => exact absurd (hbefore ▸ round.unread) (Nat.not_lt.mpr hend)
      | next round' h' =>
          obtain rfl := Round.eq_of_before hbefore
          obtain ⟨rfl, rfl⟩ := ih h'
          exact ⟨rfl, rfl⟩

theorem atEnd (h : Run c rounds last) : last.source.length ≤ last.current := by
  induction h with
  | leave h => exact h
  | next round h ih => exact ih

theorem tokens_eq (h : Run c rounds last) :
    last.tokens = c.tokens ++ rounds.flatMap Round.scanned := by
  induction h with
  | leave h => simp
  | next round h ih => rw [ih, List.flatMap_cons, ← List.append_assoc, round.tokens_append_scanned]

/-- A cursor that has not finished closes what a run leaves by the end of file. -/
theorem finish_eq (h : Run c rounds last) (hc : c.finished = false) :
    c.finish = (.ok last.close.tokens, last.close) := by
  rw [finish, hc, h.sweep_eq]
  rfl

/-- What each round keeps holds before and after every round, and at the end. -/
theorem invariant {property : Cursor → Prop}
    (hround : ∀ round : Round, property round.before → property round.after)
    (h : Run c rounds last) (hc : property c) :
    property last ∧ ∀ round ∈ rounds, property round.before ∧ property round.after := by
  induction h with
  | leave h => exact ⟨hc, by simp⟩
  | next round h ih =>
      have hafter := hround round hc
      obtain ⟨hlast, hrounds⟩ := ih hafter
      exact ⟨hlast, List.forall_mem_cons.mpr ⟨⟨hc, hafter⟩, hrounds⟩⟩

end Run

/-! ### Several lexemes, and the end of file -/

@[simp] theorem absorbAll_source (c : Cursor) (found : List Lexeme) :
    (c.absorbAll found).source = c.source := by
  induction found generalizing c with
  | nil => rfl
  | cons lexeme found ih => exact ih (c.absorb lexeme)

/-- With the end of file behind them, the tokens of several lexemes are added. -/
theorem absorbAll_tokens (c : Cursor) (found : List Lexeme) :
    (c.absorbAll found).tokens ++ [Token.endOfFile (c.absorbAll found).line] =
      c.tokens ++ tokensOf c.line found := by
  induction found generalizing c with
  | nil => rfl
  | cons lexeme found ih =>
      have htail := ih (c.absorb lexeme)
      simpa [absorbAll, absorb, tokensOf] using htail

theorem absorbAll_errors (c : Cursor) (found : List Lexeme) :
    (c.absorbAll found).report.errors =
      c.report.errors ++ errorsOf c.line c.current found := by
  induction found generalizing c with
  | nil => simp [absorbAll, errorsOf]
  | cons lexeme found ih =>
      have htail := ih (c.absorb lexeme)
      simpa [absorbAll, absorb, errorsOf, Report.addAll] using htail

/-- A cursor that has not finished finishes with the tokens and the errors of the lexemes that
remain, and never faults. -/
theorem finish_eq {c : Cursor} (h : c.finished = false) :
    ∃ d, c.finish = (.ok d.tokens, d) ∧ d.finished = true ∧ d.source = c.source ∧
      d.tokens = c.tokens ++ tokensOf c.line (lexemes c.remaining) ∧
      d.report.errors =
        c.report.errors ++ errorsOf c.line c.current (lexemes c.remaining) := by
  obtain ⟨rounds, hrun, -⟩ := c.exists_run
  have htokens := c.absorbAll_tokens (lexemes c.remaining)
  have herrors := c.absorbAll_errors (lexemes c.remaining)
  exact ⟨_, hrun.finish_eq h, rfl, absorbAll_source c _, htokens, herrors⟩

/-- A fresh cursor finishes with the tokens of the source and adds its errors to the report. -/
theorem finish_fresh (source : Text) (report : Report) :
    ∃ d, (fresh source report).finish = (.ok d.tokens, d) ∧
      d.tokens = (analyse source).tokens ∧
      d.report.errors = report.errors ++ (analyse source).report.errors := by
  obtain ⟨d, hfinish, -, -, htokens, herrors⟩ := finish_eq (c := fresh source report) rfl
  exact ⟨d, hfinish, htokens, herrors⟩

/-- With a report of its own a fresh cursor finishes with the analysis of the source. -/
theorem finish_alone (source : Text) :
    ∃ d, (fresh source).finish = (.ok d.tokens, d) ∧ d.tokens = (analyse source).tokens ∧
      d.report = (analyse source).report := by
  obtain ⟨d, hfinish, htokens, herrors⟩ := finish_fresh source {}
  exact ⟨d, hfinish, htokens, congrArg Report.mk herrors⟩

end Cursor
end LoxLexer

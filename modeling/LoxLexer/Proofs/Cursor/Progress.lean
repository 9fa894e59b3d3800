import LoxLexer.Proofs.Cursor.Resumption

/-!
# What every call keeps

The calls to a cursor may come in any order, so the lexemes are also taken from states that the
main loop never makes: with a stale mark, inside a string, beyond the end.  Whatever the order, a
cursor only ever goes on: it moves forward, it counts no line feed that is not behind it, and what
it has recorded stays.

* `Cursor.Advances` — a step that goes on and keeps what was recorded.
* `Cursor.Reads` — such a step that reads nothing beyond the end of the source; every call but the
  acceptance of the empty text is one.
* `Cursor.InBounds` — what the steps keep: the mark is not ahead, and the line is borne out by the
  text behind the cursor.
* `Cursor.perform_fault` — which calls fault, and that these record nothing.
* `Cursor.proceeds_after` — all this for every call after any other calls.
-/

namespace LoxLexer

theorem stringReach_le (rest : Text) : (stringReach rest).2 ≤ rest.length := by
  have hbody : (rest.takeWhile isStringChar).length ≤ rest.length :=
    (List.takeWhile_prefix _).length_le
  unfold stringReach
  dsimp only
  split
  · rename_i tail hdrop
    have hlength := congrArg List.length hdrop
    simp only [List.length_drop, List.length_cons] at hlength
    omega
  · rename_i c tail hdrop
    have hlength := congrArg List.length hdrop
    simp only [List.length_drop, List.length_cons] at hlength
    omega
  · exact hbody

theorem numberReach_le (rest : Text) : numberReach rest ≤ rest.length := by
  have hwhole : (rest.takeWhile isDigit).length ≤ rest.length := (List.takeWhile_prefix _).length_le
  unfold numberReach
  dsimp only
  split
  · rename_i more hdrop
    have hfraction : (more.takeWhile isDigit).length ≤ more.length :=
      (List.takeWhile_prefix _).length_le
    have hlength := congrArg List.length hdrop
    simp only [List.length_drop, List.length_cons] at hlength
    split <;> omega
  · exact hwhole

namespace Cursor

/-- The line feeds that a cursor has behind it. -/
def feedsBehind (c : Cursor) : Nat := Text.lineFeeds (c.source.take c.current)

/-- The step from `c` to `d` goes on in the same source and keeps what was recorded.  The mark
stays or is set to a place that the step has passed, and a line is counted only where a line feed is
passed. -/
structure Advances (c d : Cursor) : Prop where
  source_eq : d.source = c.source
  current_le : c.current ≤ d.current
  start : d.start = c.start ∨ c.current ≤ d.start ∧ d.start ≤ d.current
  line_le : c.line ≤ d.line
  feeds : d.line + c.feedsBehind ≤ c.line + d.feedsBehind
  tokens : c.tokens <+: d.tokens
  errors : c.report.errors <+: d.report.errors

/-- A step that goes on and does not move beyond the end of the source. -/
structure Reads (c d : Cursor) : Prop extends Advances c d where
  inside : d.current = c.current ∨ d.current ≤ c.source.length

variable {c d e : Cursor}

theorem Advances.refl (c : Cursor) : c.Advances c :=
  ⟨rfl, Nat.le_refl _, .inl rfl, Nat.le_refl _, Nat.le_refl _, List.prefix_rfl, List.prefix_rfl⟩

theorem Advances.trans (h : c.Advances d) (h' : d.Advances e) : c.Advances e where
  source_eq := h'.source_eq.trans h.source_eq
  current_le := Nat.le_trans h.current_le h'.current_le
  start := by
    have hle := h.current_le
    have hle' := h'.current_le
    rcases h'.start with hstart' | hstart'
    · rcases h.start with hstart | hstart
      · exact .inl (hstart'.trans hstart)
      · right
        omega
    · right
      omega
  line_le := Nat.le_trans h.line_le h'.line_le
  feeds := by
    have hfeeds := h.feeds
    have hfeeds' := h'.feeds
    omega
  tokens := h.tokens.trans h'.tokens
  errors := h.errors.trans h'.errors

theorem Reads.refl (c : Cursor) : c.Reads c := ⟨.refl c, .inl rfl⟩

theorem Reads.trans (h : c.Reads d) (h' : d.Reads e) : c.Reads e where
  toAdvances := h.toAdvances.trans h'.toAdvances
  inside := by
    have hinside' := h'.inside
    rw [h.source_eq] at hinside'
    rcases hinside' with hcurrent | hle
    · rw [hcurrent]
      exact h.inside
    · exact .inr hle

/-! ### Moving, marking and recording -/

/-- What is behind a cursor grows by what it passes over. -/
theorem feedsBehind_move (c : Cursor) (n : Nat) :
    (c.move n).feedsBehind = c.feedsBehind + Text.lineFeeds (c.remaining.take n) := by
  show Text.lineFeeds (c.source.take (c.current + n)) = _
  rw [List.take_add, Text.lineFeeds_append]
  rfl

theorem advances_move (c : Cursor) (n : Nat) : c.Advances (c.move n) where
  source_eq := rfl
  current_le := Nat.le_add_right _ _
  start := .inl rfl
  line_le := Nat.le_refl _
  feeds := by
    rw [feedsBehind_move]
    show c.line + _ ≤ _
    omega
  tokens := List.prefix_rfl
  errors := List.prefix_rfl

/-- Passing over no more than remains does not move beyond the end. -/
theorem reads_move {n : Nat} (h : n ≤ c.remaining.length) : c.Reads (c.move n) where
  toAdvances := c.advances_move n
  inside := by
    rw [remaining, List.length_drop] at h
    show c.current + n = c.current ∨ c.current + n ≤ c.source.length
    omega

theorem reads_mark (c : Cursor) : c.Reads c.mark where
  toAdvances :=
    { Advances.refl c with start := .inr ⟨Nat.le_refl _, Nat.le_refl _⟩ }
  inside := .inl rfl

theorem reads_emit (c : Cursor) (kind : TokenKind) (literal : Option Literal) :
    c.Reads (c.emit kind literal) where
  toAdvances := { Advances.refl c with tokens := List.prefix_append _ _ }
  inside := .inl rfl

/-- An error is recorded, whatever it says. -/
theorem reads_add (c : Cursor) (error : LexicalError) :
    c.Reads { c with report := c.report.add error } where
  toAdvances := { Advances.refl c with errors := List.prefix_append _ _ }
  inside := .inl rfl

theorem reads_complain (c : Cursor) (defect : Defect) : c.Reads (c.complain defect) :=
  c.reads_add _

/-! ### Single characters -/

/-- What is accepted stands there, unless it is nothing. -/
theorem reads_accept {expected : Text} (h : expected ≠ []) :
    c.Reads (c.accept expected).2 := by
  unfold accept
  split
  · rename_i hpeek
    refine reads_move (Nat.pos_of_ne_zero fun hzero => h ?_)
    rw [← hpeek, peek_zero, List.length_eq_zero_iff.mp hzero]
    rfl
  · exact .refl c

theorem advances_accept (c : Cursor) (expected : Text) :
    c.Advances (c.accept expected).2 := by
  unfold accept
  split
  · exact c.advances_move 1
  · exact .refl c

theorem reads_move_one {ch : Char} {tail : Text} (h : c.remaining = ch :: tail) :
    c.Reads (c.move 1) :=
  reads_move (by rw [h, List.length_cons]; exact Nat.le_add_left _ _)

theorem reads_advance (c : Cursor) : c.Reads c.advance.2 := by
  unfold advance
  split
  · exact .refl c
  · rename_i ch tail hremaining
    exact reads_move_one hremaining

/-- A line feed is passed over and counted. -/
theorem reads_lineFeed {tail : Text} (h : c.remaining = '\n' :: tail) :
    c.Reads { c.move 1 with line := c.line + 1 } where
  toAdvances :=
    { c.advances_move 1 with
      line_le := Nat.le_succ _
      feeds := by
        have hpassed : Text.lineFeeds (c.remaining.take 1) = 1 := by rw [h]; rfl
        have hfeeds := c.feedsBehind_move 1
        rw [hpassed] at hfeeds
        show c.line + 1 + c.feedsBehind ≤ c.line + (c.move 1).feedsBehind
        omega }
  inside := (reads_move_one h).inside

/-! ### Lexemes -/

theorem reads_skipComment (c : Cursor) : c.Reads c.skipComment :=
  reads_move ((List.takeWhile_prefix _).length_le)

/-- A string counts a line feed exactly if it is one that it takes. -/
theorem reads_takeString (c : Cursor) : c.Reads c.takeString := by
  have hle := stringReach_le c.remaining
  unfold takeString
  split
  · rename_i n hreach
    rw [hreach] at hle
    exact (reads_move hle).trans (reads_emit _ _ _)
  · rename_i shape n hshape hreach
    rw [hreach] at hle
    have hcomplain := (reads_move hle).trans (reads_complain _ .unterminated)
    exact
      { hcomplain with
        line_le := Nat.le_add_right _ _
        feeds := by
          have hfeeds := c.feedsBehind_move n
          show c.line + Text.lineFeeds (c.remaining.take n) + c.feedsBehind ≤
            c.line + (c.move n).feedsBehind
          omega }

theorem reads_takeNumber (c : Cursor) : c.Reads c.takeNumber.2 := by
  have hmove := reads_move (numberReach_le c.remaining)
  unfold takeNumber
  dsimp only
  split
  · exact hmove.trans (reads_emit _ _ _)
  · exact hmove

theorem reads_takeWord (c : Cursor) : c.Reads c.takeWord :=
  (reads_move ((List.takeWhile_prefix _).length_le)).trans (reads_emit _ _ _)

/-- Behind any first character but a line feed the rest of a lexeme is read from where the cursor
stands. -/
theorem reads_takeRest {ch : Char} (hch : ch ≠ '\n') (c : Cursor) :
    c.Reads (c.takeRest ch).2 := by
  have haccept {expected : Char} : c.Reads (c.accept [expected]).2 :=
    reads_accept (List.cons_ne_nil _ _)
  unfold takeRest
  split
  · exact c.reads_emit _ _
  · exact haccept.trans (reads_emit _ _ _)
  · by_cases hslash : ch = '/'
    · rw [if_pos hslash]
      dsimp only
      split
      · exact haccept.trans (reads_skipComment _)
      · exact haccept.trans (reads_emit _ _ _)
    · rw [if_neg hslash, if_neg hch]
      repeat' split
      · exact .refl c
      · exact c.reads_takeString
      · exact c.reads_takeNumber
      · exact c.reads_takeWord
      · exact c.reads_complain _

theorem reads_takeLexeme (c : Cursor) : c.Reads c.takeLexeme.2 := by
  cases hremaining : c.remaining with
  | nil =>
      rw [takeLexeme, advance, hremaining]
      exact .refl c
  | cons ch tail =>
      rw [takeLexeme, advance_of_remaining hremaining]
      by_cases hch : ch = '\n'
      · subst hch
        exact reads_lineFeed hremaining
      · exact (reads_move_one hremaining).trans (reads_takeRest hch _)

/-! ### All lexemes, and the end of file -/

theorem Round.reads (round : Round) : round.before.Reads round.after := by
  have h := round.before.reads_mark.trans round.before.mark.reads_takeLexeme
  rwa [round.taken] at h

theorem reads_finish (c : Cursor) : c.Reads c.finish.2 := by
  by_cases hfinished : c.finished = true
  · rw [finish_of_finished hfinished]
    exact .refl c
  · obtain ⟨rounds, hrun, -⟩ := c.exists_run
    -- what has been read since `c` is an invariant of the rounds
    have hround (round : Round) (h : c.Reads round.before) : c.Reads round.after :=
      h.trans round.reads
    obtain ⟨hlast, -⟩ := hrun.invariant hround (.refl c)
    rw [hrun.finish_eq (Bool.eq_false_iff.mpr hfinished)]
    exact hlast.trans
      { Reads.refl _ with tokens := List.prefix_append _ _ }

/-! ### Calls -/

/-- Every call but the acceptance of the empty text reads nothing beyond the end. -/
theorem reads_perform (c : Cursor) {call : Call} (hcall : call ≠ .accept []) :
    c.Reads (c.perform call).2 := by
  cases call with
  | atEnd => exact .refl c
  | advance => simpa [perform] using c.reads_advance
  | peek distance => exact .refl c
  | accept expected => exact reads_accept (fun h => hcall (congrArg Call.accept h))
  | mark => exact c.reads_mark
  | takeLexeme => simpa [perform] using c.reads_takeLexeme
  | skipComment => exact c.reads_skipComment
  | takeString => exact c.reads_takeString
  | takeNumber => simpa [perform] using c.reads_takeNumber
  | takeWord => exact c.reads_takeWord
  | emit kind literal => exact c.reads_emit kind literal
  | report line message => exact c.reads_add _
  | finish => simpa [perform] using c.reads_finish

theorem advances_perform (c : Cursor) (call : Call) : c.Advances (c.perform call).2 := by
  by_cases hcall : call = .accept []
  · subst hcall
    exact c.advances_accept []
  · exact (c.reads_perform hcall).toAdvances

/-! ### What holds of every cursor -/

/-- The cursor reads `source`; its mark is not ahead of it, and it counts no line feed that is not
behind it. -/
structure InBounds (source : Text) (c : Cursor) : Prop where
  source_eq : c.source = source
  start_le : c.start ≤ c.current
  one_le_line : 1 ≤ c.line
  line_le : c.line ≤ 1 + Text.lineFeeds (source.take c.current)

theorem inBounds_fresh (source : Text) (report : Report) :
    (fresh source report).InBounds source :=
  ⟨rfl, Nat.le_refl _, Nat.le_refl _, Nat.le_add_right _ _⟩

theorem InBounds.advance {source : Text} (hc : c.InBounds source) (h : c.Advances d) :
    d.InBounds source where
  source_eq := h.source_eq.trans hc.source_eq
  start_le := by
    have hstart := hc.start_le
    have hcurrent := h.current_le
    rcases h.start with heq | hle
    · omega
    · exact hle.2
  one_le_line := Nat.le_trans hc.one_le_line h.line_le
  line_le := by
    have hline := hc.line_le
    have hfeeds := h.feeds
    rw [feedsBehind, feedsBehind, h.source_eq, hc.source_eq] at hfeeds
    omega

theorem InBounds.after {source : Text} (hc : c.InBounds source) (calls : List Call) :
    (c.after calls).InBounds source := by
  induction calls generalizing c with
  | nil => exact hc
  | cons call calls ih =>
      rw [after_cons]
      exact ih (hc.advance (c.advances_perform call))

theorem InBounds.start_le_of_advances {source : Text} (hc : c.InBounds source)
    (h : c.Advances d) : c.start ≤ d.start := by
  have hstart := hc.start_le
  rcases h.start with heq | hle
  · exact Nat.le_of_eq heq.symm
  · exact Nat.le_trans hstart hle.1

/-! ### Faults -/

/-- From `c` to `d` nothing is changed but how far the source has been read. -/
structure OnlyMoves (c d : Cursor) : Prop where
  start_eq : d.start = c.start
  line_eq : d.line = c.line
  tokens_eq : d.tokens = c.tokens
  report_eq : d.report = c.report

theorem onlyMoves_move (c : Cursor) (n : Nat) : c.OnlyMoves (c.move n) := ⟨rfl, rfl, rfl, rfl⟩

variable {fault : Fault}

theorem advance_fault (h : c.advance.1 = .error fault) :
    fault = .exhausted ∧ c.OnlyMoves c.advance.2 := by
  unfold advance at h ⊢
  split at h
  · exact ⟨(Except.error.inj h).symm, c.onlyMoves_move 0⟩
  · contradiction

theorem takeNumber_fault (h : c.takeNumber.1 = .error fault) :
    (∃ text, fault = .notANumeral text) ∧ c.OnlyMoves c.takeNumber.2 := by
  unfold takeNumber at h ⊢
  dsimp only at h ⊢
  split at h
  · contradiction
  · exact ⟨⟨_, (Except.error.inj h).symm⟩, c.onlyMoves_move _⟩

/-- Behind the first character only a number can fault. -/
theorem takeRest_cases (c : Cursor) (ch : Char) :
    (∃ d, c.takeRest ch = (.ok (), d)) ∨ c.takeRest ch = c.takeNumber := by
  unfold takeRest
  split
  · exact .inl ⟨_, rfl⟩
  · exact .inl ⟨_, rfl⟩
  · repeat' split
    all_goals first
      | exact .inl ⟨_, rfl⟩
      | exact .inr rfl

theorem takeLexeme_fault (h : c.takeLexeme.1 = .error fault) :
    (fault = .exhausted ∨ ∃ text, fault = .notANumeral text) ∧ c.OnlyMoves c.takeLexeme.2 := by
  cases hremaining : c.remaining with
  | nil =>
      rw [takeLexeme, advance, hremaining] at h ⊢
      exact ⟨.inl (Except.error.inj h).symm, c.onlyMoves_move 0⟩
  | cons ch tail =>
      rw [takeLexeme, advance_of_remaining hremaining] at h ⊢
      dsimp only at h ⊢
      rcases (c.move 1).takeRest_cases ch with ⟨d, heq⟩ | heq
      · rw [heq] at h
        contradiction
      · rw [heq] at h ⊢
        obtain ⟨hfault, hmoves⟩ := takeNumber_fault h
        exact ⟨.inr hfault, hmoves.start_eq, hmoves.line_eq, hmoves.tokens_eq, hmoves.report_eq⟩

/-- Finishing never faults. -/
theorem finish_ok (c : Cursor) : c.finish.1 = .ok c.finish.2.tokens := by
  by_cases hfinished : c.finished = true
  · rw [finish_of_finished hfinished]
  · obtain ⟨d, hfinish, -⟩ := finish_eq (Bool.eq_false_iff.mpr hfinished)
    rw [hfinish]

theorem reply_fault_iff {α : Type} {toReply : α → Reply}
    (hreply : ∀ value, toReply value ≠ .fault fault) (outcome : Outcome α) :
    (Outcome.reply toReply outcome).1 = .fault fault ↔ outcome.1 = .error fault := by
  obtain ⟨other | value, c⟩ := outcome
  · simp [Outcome.reply]
  · simp [Outcome.reply, hreply]

/-- What a call that faults was, and why it faults. -/
inductive Faults : Call → Fault → Prop
  | advance : Faults .advance .exhausted
  | takeLexeme : Faults .takeLexeme .exhausted
  | takeNumber (text : Text) : Faults .takeNumber (.notANumeral text)
  | takeLexemeNumber (text : Text) : Faults .takeLexeme (.notANumeral text)

/-- Only taking a character, a number or a lexeme faults, and then nothing is recorded. -/
theorem perform_fault {call : Call} (h : (c.perform call).1 = .fault fault) :
    Faults call fault ∧ c.OnlyMoves (c.perform call).2 := by
  cases call with
  | advance =>
      rw [perform, reply_fault_iff (by simp)] at h
      obtain ⟨rfl, hmoves⟩ := advance_fault h
      exact ⟨.advance, by simpa [perform] using hmoves⟩
  | takeLexeme =>
      rw [perform, reply_fault_iff (by simp)] at h
      obtain ⟨rfl | ⟨text, rfl⟩, hmoves⟩ := takeLexeme_fault h
      · exact ⟨.takeLexeme, by simpa [perform] using hmoves⟩
      · exact ⟨.takeLexemeNumber text, by simpa [perform] using hmoves⟩
  | takeNumber =>
      rw [perform, reply_fault_iff (by simp)] at h
      obtain ⟨⟨text, rfl⟩, hmoves⟩ := takeNumber_fault h
      exact ⟨.takeNumber text, by simpa [perform] using hmoves⟩
  | finish =>
      rw [perform, reply_fault_iff (by simp), finish_ok] at h
      contradiction
  | _ => cases h

/-! ### Every call after any other calls -/

/-- How a cursor over `source` performs a call: it was in bounds and stays so; it moves nothing
back and takes back nothing that it has recorded; beyond the end of the source it moves only where
it accepts the empty text; and a call that faults changes nothing but how far has been read. -/
structure Proceeds (source : Text) (c : Cursor) (call : Call) : Prop where
  before : c.InBounds source
  after : (c.perform call).2.InBounds source
  start_le : c.start ≤ (c.perform call).2.start
  current_le : c.current ≤ (c.perform call).2.current
  line_le : c.line ≤ (c.perform call).2.line
  tokens : c.tokens <+: (c.perform call).2.tokens
  errors : c.report.errors <+: (c.perform call).2.report.errors
  inside : source.length < (c.perform call).2.current →
    (c.perform call).2.current = c.current ∨ call = .accept []
  fault : ∀ cause, (c.perform call).1 = .fault cause →
    Faults call cause ∧ c.OnlyMoves (c.perform call).2

/-- Whatever a fresh cursor has been asked for, it performs every further call in this way. -/
theorem proceeds_after (source : Text) (report : Report) (calls : List Call) (call : Call) :
    ((fresh source report).after calls).Proceeds source call := by
  have hbounds := (inBounds_fresh source report).after calls
  generalize (fresh source report).after calls = c at hbounds
  have hadvances := c.advances_perform call
  exact
    { before := hbounds
      after := hbounds.advance hadvances
      start_le := hbounds.start_le_of_advances hadvances
      current_le := hadvances.current_le
      line_le := hadvances.line_le
      tokens := hadvances.tokens
      errors := hadvances.errors
      inside := by
        intro hbeyond
        by_cases hcall : call = .accept []
        · exact .inr hcall
        · have hinside := (c.reads_perform hcall).inside
          rw [hbounds.source_eq] at hinside
          exact .inl (hinside.resolve_right (Nat.not_le.mpr hbeyond))
      fault := fun cause hcause => perform_fault hcause }

end Cursor
end LoxLexer

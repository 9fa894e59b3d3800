import LoxLexer.Proofs.Cursor.Round

/-!
# Lines and offsets

The cursor counts lines in two places: line feeds between lexemes, and the one that ends an
unclosed string, which is reported before it is counted.  That the count is right everywhere is an
invariant of the rounds.

* `Cursor.Aligned` — the line of a cursor is one more than the number of line feeds behind it.
* `LexicalError.StandsAt` — an error names the line, the offset and the character of a position.
* `Cursor.Exact` — aligned, and every error stands where it says, in the order of the source.
* `Cursor.finish_positions` — every token, the end of file and every error of a source carry their
  exact lines and offsets.
-/

namespace LoxLexer

/-- An error stands at a position of the source: it names its offset and its line, and the
character there is the one that it complains about, or the quote that nothing closes. -/
structure LexicalError.StandsAt (source : Text) (error : LexicalError) (position : Nat) :
    Prop where
  offset_eq : error.offset = position
  line_eq : error.line = 1 + Text.lineFeeds (source.take position)
  position_lt : position < source.length
  character : error.kind = .unexpectedCharacter →
    ∃ c, source[position]? = some c ∧ error.message = "Unexpected character: ".toList ++ [c]
  quote : error.kind = .unterminatedString → source[position]? = some '"'

/-- What is wrong with a lexeme shows in its first character. -/
theorem Front.head_of_defect {text rest : Text} {lexeme : Lexeme} {defect : Defect}
    (h : Front text lexeme rest) (hdefect : lexeme.defect? = some defect) :
    ∃ c, text.head? = some c ∧ (defect = .unexpected c ∨ defect = .unterminated ∧ c = '"') := by
  cases h with
  | unclosed => exact ⟨'"', rfl, .inr ⟨(Option.some.inj hdefect).symm, rfl⟩⟩
  | unclosedAtEnd => exact ⟨'"', rfl, .inr ⟨(Option.some.inj hdefect).symm, rfl⟩⟩
  | @stray c => exact ⟨c, rfl, .inl (Option.some.inj hdefect).symm⟩
  | _ => contradiction

namespace Cursor

/-- The cursor stands inside the source or at its end, on the line that the line feeds before it
make. -/
structure Aligned (c : Cursor) : Prop where
  current_le : c.current ≤ c.source.length
  line_eq : c.line = 1 + Text.lineFeeds (c.source.take c.current)

theorem aligned_fresh (source : Text) (report : Report) : (fresh source report).Aligned :=
  ⟨Nat.zero_le _, rfl⟩

/-- What is behind the cursor grows by the lexeme that it takes. -/
theorem take_absorb {c : Cursor} {lexeme : Lexeme} {rest : Text}
    (h : Front c.remaining lexeme rest) :
    c.source.take (c.absorb lexeme).current = c.source.take c.current ++ lexeme.text := by
  have htext : c.source.drop c.current = lexeme.text ++ rest := h.text_append
  rw [absorb_current, List.take_add, htext, List.take_left]

theorem Aligned.absorb {c : Cursor} {lexeme : Lexeme} {rest : Text} (hc : c.Aligned)
    (h : Front c.remaining lexeme rest) : (c.absorb lexeme).Aligned where
  current_le := by
    have hlength : c.source.length - c.current = lexeme.text.length + rest.length := by
      have htext := congrArg List.length h.text_append
      rwa [remaining, List.length_drop, List.length_append] at htext
    have hle := hc.current_le
    rw [absorb_current, absorb_source]
    omega
  line_eq := by
    rw [absorb_source, take_absorb h, Text.lineFeeds_append, absorb_line, hc.line_eq]
    omega

/-- The error of a lexeme stands where the lexeme starts. -/
theorem Aligned.standsAt {c : Cursor} {lexeme : Lexeme} {rest : Text} {defect : Defect}
    (hc : c.Aligned) (h : Front c.remaining lexeme rest) (hdefect : lexeme.defect? = some defect) :
    (defect.located c.line c.current).StandsAt c.source c.current := by
  obtain ⟨ch, hhead, hcharacter⟩ := h.head_of_defect hdefect
  have hget : c.source[c.current]? = some ch := by
    rw [remaining, List.head?_drop] at hhead
    exact hhead
  have hlt : c.current < c.source.length := (List.getElem?_eq_some_iff.mp hget).1
  refine ⟨rfl, ?_, hlt, ?_, ?_⟩
  · have hline := hc.line_eq
    simp only [Defect.located]
    omega
  · intro hkind
    rcases hcharacter with rfl | ⟨rfl, -⟩
    · exact ⟨ch, hget, rfl⟩
    · contradiction
  · intro hkind
    rcases hcharacter with rfl | ⟨rfl, rfl⟩
    · contradiction
    · exact hget

/-! ### What the rounds record -/

/-- The cursor reads `source` and is aligned, and the errors that it has added to `report` stand
behind it, in the order of the source. -/
structure Exact (source : Text) (report : Report) (c : Cursor) : Prop where
  source_eq : c.source = source
  aligned : c.Aligned
  errors : ∃ own, c.report.errors = report.errors ++ own ∧
    (∀ error ∈ own, ∃ position < c.current, error.StandsAt source position) ∧
    own.Pairwise fun error later => error.offset < later.offset

theorem exact_fresh (source : Text) (report : Report) :
    (fresh source report).Exact source report where
  source_eq := rfl
  aligned := aligned_fresh source report
  errors := ⟨[], (List.append_nil _).symm, by simp, .nil⟩

/-- The error of a lexeme comes behind all that were found before it. -/
theorem Exact.absorb {source rest : Text} {report : Report} {c : Cursor} {lexeme : Lexeme}
    (hc : c.Exact source report) (h : Front c.remaining lexeme rest) :
    (c.absorb lexeme).Exact source report where
  source_eq := hc.source_eq
  aligned := hc.aligned.absorb h
  errors := by
    obtain ⟨own, hown, hstand, hsorted⟩ := hc.errors
    have hlt : c.current < (c.absorb lexeme).current := by
      have hpos := List.length_pos_iff.mpr h.text_ne_nil
      rw [absorb_current]
      omega
    have hbehind : ∀ error ∈ own,
        ∃ position < (c.absorb lexeme).current, error.StandsAt source position := by
      intro error herror
      obtain ⟨position, hposition, hstands⟩ := hstand error herror
      exact ⟨position, by omega, hstands⟩
    -- a lexeme without a defect leaves the errors as they are
    cases hdefect : lexeme.defect? with
    | none =>
        refine ⟨own, ?_, hbehind, hsorted⟩
        simp [Cursor.absorb, hdefect, hown, Report.addAll]
    | some defect =>
        have hnew := hc.aligned.standsAt h hdefect
        rw [hc.source_eq] at hnew
        refine ⟨own ++ [defect.located c.line c.current], ?_, ?_, ?_⟩
        · simp [Cursor.absorb, hdefect, hown, Report.addAll]
        · intro error herror
          rcases List.mem_append.mp herror with herror | herror
          · exact hbehind error herror
          · obtain rfl := List.mem_singleton.mp herror
            exact ⟨c.current, hlt, hnew⟩
        · refine List.pairwise_append.mpr ⟨hsorted, List.pairwise_singleton _ _, ?_⟩
          intro error herror later hlater
          -- the errors before stand behind the cursor, and the new one where it stands
          obtain ⟨position, hposition, hstands⟩ := hstand error herror
          obtain rfl := List.mem_singleton.mp hlater
          rw [hstands.offset_eq, hnew.offset_eq]
          exact Int.ofNat_lt.mpr hposition

theorem Exact.round {source : Text} {report : Report} (round : Round)
    (h : round.before.Exact source report) : round.after.Exact source report := by
  obtain ⟨lexeme, rest, hfront, hafter⟩ := round.exists_front
  rw [hafter]
  exact h.absorb hfront

theorem exists_exact_run (source : Text) (report : Report) :
    ∃ rounds last, Run (fresh source report) rounds last ∧ last.Exact source report ∧
      ∀ round ∈ rounds, round.before.Exact source report ∧ round.after.Exact source report := by
  obtain ⟨rounds, hrun, -⟩ := (fresh source report).exists_run
  obtain ⟨hlast, hrounds⟩ := hrun.invariant Exact.round (exact_fresh source report)
  exact ⟨rounds, _, hrun, hlast, hrounds⟩

/-- From an exact cursor, a round records the text of its span, on the line where the span
starts. -/
theorem Exact.scanned {source : Text} {report : Report} {round : Round} {token : Token}
    (h : round.before.Exact source report) (htoken : token ∈ round.scanned) :
    token.lexeme = source.slice round.span.1 round.span.2 ∧
      token.line = 1 + Text.lineFeeds (source.take round.span.1) := by
  obtain ⟨lexeme, rest, hfront, hafter⟩ := round.exists_front
  rw [Round.scanned_of_after_eq hafter] at htoken
  rw [Round.span_of_after_eq hafter]
  obtain ⟨kind, -, rfl⟩ := Option.map_eq_some_iff.mp (Option.mem_toList.mp htoken)
  constructor
  · have hslice := round.before.slice_source 0 lexeme.text.length
    rw [hfront.text_append, List.take_left, h.source_eq] at hslice
    exact hslice.symm
  · have hline := h.aligned.line_eq
    rw [h.source_eq] at hline
    show (round.before.line : Int) = 1 + Text.lineFeeds (source.take round.before.current)
    omega

/-- An exact cursor that has read everything records the end of file on the last line. -/
theorem Exact.close_tokens {source : Text} {report : Report} {c : Cursor}
    (h : c.Exact source report) (hend : c.source.length ≤ c.current) :
    c.close.tokens = c.tokens ++ [Token.endOfFile (1 + Text.lineFeeds source)] := by
  have hcount := h.aligned.line_eq
  rw [List.take_of_length_le hend, h.source_eq] at hcount
  have hline : (c.line : Int) = 1 + Text.lineFeeds source := by omega
  rw [close, hline]

/-- Whatever the source, the cursor goes round without a fault; every round records its tokens on
the line where its span starts, the end of file stands on the last line, and the errors that it
adds stand where they say and come in the order of the source. -/
theorem finish_positions (source : Text) (report : Report) :
    ∃ rounds last errors, Run (fresh source report) rounds last ∧
      (∀ round ∈ rounds, ∀ token ∈ round.scanned,
        token.lexeme = source.slice round.span.1 round.span.2 ∧
          token.line = 1 + Text.lineFeeds (source.take round.span.1)) ∧
      (fresh source report).finish =
        (.ok (rounds.flatMap Round.scanned ++ [Token.endOfFile (1 + Text.lineFeeds source)]),
          last.close) ∧
      last.close.report.errors = report.errors ++ errors ∧
      (∀ error ∈ errors, ∃ position, error.StandsAt source position) ∧
      errors.Pairwise fun error later => error.offset < later.offset := by
  obtain ⟨rounds, last, hrun, hlast, hrounds⟩ := exists_exact_run source report
  obtain ⟨errors, herrors, hstand, hsorted⟩ := hlast.errors
  have htokens : last.close.tokens =
      rounds.flatMap Round.scanned ++ [Token.endOfFile (1 + Text.lineFeeds source)] := by
    rw [hlast.close_tokens hrun.atEnd, hrun.tokens_eq]
    rfl
  refine ⟨rounds, last, errors, hrun, ?_, ?_, herrors, ?_, hsorted⟩
  · intro round hround token htoken
    exact (hrounds round hround).1.scanned htoken
  · rw [hrun.finish_eq rfl, htokens]
  · intro error herror
    obtain ⟨position, -, hstands⟩ := hstand error herror
    exact ⟨position, hstands⟩

end Cursor

/-- The errors of a source stand where they say, in the order of the source. -/
theorem analyse_errors_standsAt (source : Text) :
    (∀ error ∈ (analyse source).report.errors, ∃ position, error.StandsAt source position) ∧
      (analyse source).report.errors.Pairwise fun error later => error.offset < later.offset := by
  obtain ⟨rounds, last, hrun, hlast, -⟩ := Cursor.exists_exact_run source {}
  obtain ⟨own, hown, hstand, hsorted⟩ := hlast.errors
  obtain ⟨d, hfinish, -, herrors⟩ := Cursor.finish_fresh source {}
  have hd : last.close = d := by
    rw [hrun.finish_eq rfl] at hfinish
    exact congrArg Prod.snd hfinish
  have heq : (analyse source).report.errors = own := by
    rw [← hd] at herrors
    exact herrors.symm.trans hown
  rw [heq]
  refine ⟨fun error herror => ?_, hsorted⟩
  obtain ⟨position, -, hstands⟩ := hstand error herror
  exact ⟨position, hstands⟩

end LoxLexer

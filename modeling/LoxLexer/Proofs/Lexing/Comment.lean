import LoxLexer.Proofs.Cursor.Position
import LoxLexer.Proofs.Lexing.LineFeed

/-!
# Comments are inert

Two slashes and what follows them on the line can be set behind any text without a trace, unless the
text ends in something that two more slashes go along with: a string that nothing has closed takes
them in, and a slash that is a token becomes a comment with the first of them.

* `Cursor.IsCommentable` — neither of these, as a scan shows it.
* `Front.append_comment` — one lexeme before a comment.
* `TakesComment`, `lexemes_append_comment` — all lexemes before a comment.
* `Cursor.finish_comment` — a comment changes neither tokens nor errors; what stands behind it is
  moved by its length.
-/

namespace LoxLexer

/-! ### One lexeme before a comment -/

/-- A lexeme that two more slashes at its end make another one of: a slash, or a string that nothing
has closed. -/
def Lexeme.TakesSlash (lexeme : Lexeme) : Prop :=
  lexeme.shape = .symbol .slash ∨ lexeme.shape = .unclosed ∧ '\n' ∉ lexeme.text

/-- A point before a comment starts no fraction. -/
theorem not_startsFraction_append_slash {rest : Text} (h : ¬ StartsFraction rest) (more : Text) :
    ¬ StartsFraction (rest ++ '/' :: more) := by
  rintro ⟨d, after, htext, hd⟩
  match rest, h with
  | [], _ => simp at htext
  | [c], _ =>
      simp only [List.cons_append, List.nil_append, List.cons.injEq] at htext
      rw [← htext.2.1] at hd
      contradiction
  | c :: e :: rest, h =>
      simp only [List.cons_append, List.cons.injEq] at htext
      exact h ⟨d, rest, by rw [htext.1, htext.2.1], hd⟩

theorem head?_append_slash_ne {rest : Text} {c : Char} (hc : c ≠ '/') (h : rest.head? ≠ some c)
    (more : Text) : (rest ++ '/' :: more).head? ≠ some c := by
  cases rest with
  | nil => simpa using hc.symm
  | cons d rest => exact h

/-- Before a comment the same lexeme stands at the front, unless it is a comment that goes to the
end: that one takes the other in. -/
theorem Front.append_comment {text rest body : Text} {lexeme : Lexeme}
    (h : Front text lexeme rest) (hbody : ∀ c ∈ body, isCommentChar c = true)
    (hend : rest = [] → ¬ lexeme.TakesSlash) :
    Front (text ++ '/' :: '/' :: body) lexeme (rest ++ '/' :: '/' :: body) ∨
      rest = [] ∧ lexeme = ⟨.comment, text⟩ ∧
        Front (text ++ '/' :: '/' :: body) ⟨.comment, text ++ '/' :: '/' :: body⟩ [] := by
  have hstops {property : Char → Bool} (hslash : property '/' = false) {rest : Text}
      (hrest : Text.Stops property rest) : Text.Stops property (rest ++ '/' :: '/' :: body) :=
    hrest.append (Text.stops_cons hslash _)
  cases h with
  | blank hc => exact .inl (.blank hc)
  | lineFeed => exact .inl .lineFeed
  | @comment first rest hfirst hrest =>
      cases rest with
      | nil =>
          have hlonger : ∀ c ∈ first ++ '/' :: '/' :: body, isCommentChar c = true := by
            intro c hc
            rcases List.mem_append.mp hc with hc | hc
            · exact hfirst c hc
            · rcases List.mem_cons.mp hc with rfl | hc
              · decide
              · rcases List.mem_cons.mp hc with rfl | hc
                · decide
                · exact hbody c hc
          have hfront := Front.comment hlonger (Text.stops_nil isCommentChar)
          right
          simpa using hfront
      | cons c rest =>
          have hstop : Text.Stops isCommentChar (c :: rest ++ '/' :: '/' :: body) :=
            Text.stops_cons (hrest c rfl) _
          left
          simpa using Front.comment hfirst hstop
  | single hc => exact .inl (.single hc)
  | slash hrest =>
      cases rest with
      | nil => exact absurd (.inl rfl) (hend rfl)
      | cons c rest => exact .inl (.slash hrest)
  | @operator c alone withEqual rest hc hrest =>
      exact .inl (.operator hc (head?_append_slash_ne (by decide) hrest _))
  | operatorEqual hc => exact .inl (.operatorEqual hc)
  | string hfirst =>
      left
      simpa using Front.string hfirst
  | unclosed hfirst =>
      left
      simpa using Front.unclosed hfirst
  | @unclosedAtEnd first hfirst =>
      have hfeed : '\n' ∉ '"' :: first := by simpa using lineFeed_notMem hfirst (by decide)
      exact absurd (.inr ⟨rfl, hfeed⟩) (hend rfl)
  | integer hc hdigits hrest hpoint =>
      left
      simpa using Front.integer hc hdigits (hstops (by decide) hrest)
        (not_startsFraction_append_slash hpoint _)
  | fraction hc hdigits hd hdecimals hrest =>
      left
      simpa using Front.fraction hc hdigits hd hdecimals (hstops (by decide) hrest)
  | word hc hfirst hrest =>
      left
      simpa using Front.word hc hfirst (hstops (by decide) hrest)
  | stray hc hdigit hword => exact .inl (.stray hc hdigit hword)

/-! ### All lexemes before a comment -/

/-- `TakesComment comment found ended`: with a comment behind them, the lexemes `found` become
`ended`.  Either the comment is a lexeme of its own, or it goes on the one before it. -/
inductive TakesComment (comment : Text) : List Lexeme → List Lexeme → Prop
  | apart : TakesComment comment [] [⟨.comment, comment⟩]
  | joined {text : Text} : TakesComment comment [⟨.comment, text⟩] [⟨.comment, text ++ comment⟩]
  | cons {lexeme : Lexeme} {found ended : List Lexeme} (h : TakesComment comment found ended) :
      TakesComment comment (lexeme :: found) (lexeme :: ended)

namespace TakesComment

variable {comment : Text} {found ended : List Lexeme}

/-- A comment adds no token. -/
theorem scannedOf_eq (h : TakesComment comment found ended) (line : Int) :
    scannedOf line ended = scannedOf line found := by
  induction h generalizing line with
  | apart => rfl
  | joined => rfl
  | cons h ih => rw [scannedOf, scannedOf, ih]

/-- A comment adds no error and moves none. -/
theorem errorsOf_eq (h : TakesComment comment found ended) (line : Int) (offset : Nat) :
    errorsOf line offset ended = errorsOf line offset found := by
  induction h generalizing line offset with
  | apart => rfl
  | joined => rfl
  | cons h ih => rw [errorsOf, errorsOf, ih]

end TakesComment

/-- A comment behind a source is taken by its lexemes, unless the last of them takes a slash. -/
theorem lexemes_append_comment {a body : Text} (hbody : ∀ c ∈ body, isCommentChar c = true)
    (hend : ∀ lexeme, (lexemes a).getLast? = some lexeme → ¬ lexeme.TakesSlash) :
    TakesComment ('/' :: '/' :: body) (lexemes a) (lexemes (a ++ '/' :: '/' :: body)) := by
  induction a using Front.induction with
  | nil =>
      have hfront := Front.comment hbody (Text.stops_nil isCommentChar)
      rw [List.append_nil] at hfront
      rw [List.nil_append, hfront.lexemes_eq, lexemes_nil]
      exact .apart
  | front text lexeme rest hfront ih =>
      have hlexemes := hfront.lexemes_eq
      rw [hlexemes, List.getLast?_cons] at hend
      have hlast : rest = [] → ¬ lexeme.TakesSlash := by
        rintro rfl
        exact hend lexeme (by simp)
      rw [hlexemes]
      rcases hfront.append_comment hbody hlast with hsame | ⟨rfl, rfl, hjoined⟩
      · rw [hsame.lexemes_eq]
        refine .cons (ih fun other hother => hend other ?_)
        rw [hother, Option.getD_some]
      · rw [hjoined.lexemes_eq, lexemes_nil]
        exact .joined

theorem lineFeeds_append_comment (a : Text) {body : Text}
    (hbody : ∀ c ∈ body, isCommentChar c = true) :
    Text.lineFeeds (a ++ '/' :: '/' :: body) = Text.lineFeeds a := by
  have hfeed : '\n' ∉ '/' :: '/' :: body := by
    simpa using lineFeed_notMem hbody (by decide)
  rw [Text.lineFeeds_append, Text.lineFeeds, Text.lineFeeds, List.count_eq_zero.mpr hfeed,
    Nat.add_zero]

/-- A comment behind a source changes nothing about it. -/
theorem analyse_append_comment {a body : Text} (hbody : ∀ c ∈ body, isCommentChar c = true)
    (hend : ∀ lexeme, (lexemes a).getLast? = some lexeme → ¬ lexeme.TakesSlash) :
    analyse (a ++ '/' :: '/' :: body) = analyse a := by
  have htakes := lexemes_append_comment hbody hend
  have hfeeds := lineFeeds_append_comment a hbody
  have htokens : tokensOf 1 (lexemes (a ++ '/' :: '/' :: body)) = tokensOf 1 (lexemes a) := by
    rw [tokensOf_eq, tokensOf_eq, htakes.scannedOf_eq, textOf_lexemes, textOf_lexemes, hfeeds]
  rw [analyse, analyse, htokens, htakes.errorsOf_eq]

/-! ### What a scan shows of the last lexeme -/

/-- A string that is unclosed at the end of a source is an error on the last line. -/
theorem exists_error_of_last_unclosed {a : Text} {lexeme : Lexeme}
    (hlast : (lexemes a).getLast? = some lexeme) (hshape : lexeme.shape = .unclosed)
    (hfeed : '\n' ∉ lexeme.text) :
    ∃ error ∈ (analyse a).report.errors, error.kind = .unterminatedString ∧
      error.line = 1 + a.lineFeeds := by
  obtain ⟨found, hfound⟩ := List.getLast?_eq_some_iff.mp hlast
  have hdefect : lexeme.defect? = some .unterminated := by
    obtain ⟨shape, text⟩ := lexeme
    subst hshape
    rfl
  have htext : a = textOf found ++ lexeme.text := by
    rw [← textOf_lexemes a, hfound, textOf_append, textOf_cons, textOf_nil, List.append_nil]
  have hfeeds : a.lineFeeds = (textOf found).lineFeeds := by
    rw [htext, Text.lineFeeds_append, Text.lineFeeds, Text.lineFeeds,
      List.count_eq_zero.mpr hfeed, Nat.add_zero]
  refine ⟨Defect.unterminated.located (1 + (textOf found).lineFeeds) (textOf found).length, ?_,
    rfl, ?_⟩
  · show _ ∈ errorsOf 1 0 (lexemes a)
    rw [hfound, errorsOf_append, errorsOf, hdefect]
    simp
  · rw [hfeeds]
    rfl

namespace Cursor

/-- The last round of a run takes the last lexeme of what remains. -/
theorem Run.exists_last {c last : Cursor} {rounds : List Round} {lexeme : Lexeme}
    (h : Run c rounds last) (hlast : (lexemes c.remaining).getLast? = some lexeme) :
    ∃ round ∈ rounds, round.after = round.before.absorb lexeme ∧ round.after = last := by
  induction h with
  | leave hend =>
      rw [remaining, List.drop_eq_nil_iff.mpr hend, lexemes_nil] at hlast
      contradiction
  | next round h ih =>
      obtain ⟨first, rest, hfront, hafter⟩ := round.exists_front
      have hrest : round.after.remaining = rest := by rw [hafter, absorb_remaining hfront]
      rw [hfront.lexemes_eq, List.getLast?_cons] at hlast
      cases hmore : (lexemes rest).getLast? with
      | some other =>
          rw [hmore] at hlast
          obtain rfl := Option.some.inj hlast
          rw [hrest] at ih
          obtain ⟨later, hlater, htaken⟩ := ih hmore
          exact ⟨later, List.mem_cons_of_mem _ hlater, htaken⟩
      | none =>
          rw [hmore] at hlast
          obtain rfl := Option.some.inj hlast
          -- nothing remains, so the run is left at once
          have hnil : rest = [] := by
            rw [← textOf_lexemes rest, List.getLast?_eq_none_iff.mp hmore, textOf_nil]
          have hend : round.after.source.length ≤ round.after.current :=
            List.drop_eq_nil_iff.mp (hrest.trans hnil)
          exact ⟨round, List.mem_cons_self, hafter, (h.unique (.leave hend)).2.symm⟩

/-- A comment may follow the source: its last line has no string that nothing closes, and its last
character is no slash that is a token. -/
structure IsCommentable (source : Text) : Prop where
  closed : ∀ error ∈ (fresh source).finish.2.report.errors, error.kind = .unterminatedString →
    error.line ≠ 1 + source.lineFeeds
  noSlash : ∀ rounds last, Run (fresh source) rounds last → ∀ round ∈ rounds,
    round.span.2 = source.length → ∀ token ∈ round.scanned, token.kind ≠ .slash

theorem IsCommentable.not_takesSlash {a : Text} {lexeme : Lexeme} (h : IsCommentable a)
    (hlast : (lexemes a).getLast? = some lexeme) : ¬ lexeme.TakesSlash := by
  rintro (hslash | ⟨hunclosed, hfeed⟩)
  · obtain ⟨rounds, last, hrun, hexact, -⟩ := exists_exact_run a {}
    obtain ⟨round, hround, hafter, hend⟩ := hrun.exists_last hlast
    have hspan : round.span.2 = a.length := by
      have hle := hexact.aligned.current_le
      have hge := hrun.atEnd
      rw [hexact.source_eq] at hle hge
      rw [Round.span, hend]
      exact Nat.le_antisymm hle hge
    have hkind : lexeme.kind? = some .slash := by
      obtain ⟨shape, text⟩ := lexeme
      subst hslash
      rfl
    refine h.noSlash rounds last hrun round hround hspan
      ⟨.slash, lexeme.text, lexeme.literal?, round.before.line⟩ ?_ rfl
    rw [Round.scanned_of_after_eq hafter, Lexeme.token?, hkind]
    simp
  · obtain ⟨error, herror, hkind, hline⟩ := exists_error_of_last_unclosed hlast hunclosed hfeed
    obtain ⟨d, hfinish, -, herrors⟩ := finish_fresh a {}
    refine h.closed error ?_ hkind hline
    rw [hfinish]
    show error ∈ d.report.errors
    rw [herrors]
    exact herror

end Cursor

/-! ### A comment inside a source -/

/-- The error where it stands once `more` characters have been set in at a position. -/
def LexicalError.movedFrom (position more : Nat) (error : LexicalError) : LexicalError :=
  if error.offset < position then error else error.later 0 more

/-- The errors of a text stand before its end. -/
theorem movedFrom_of_mem_errors {a : Text} {error : LexicalError}
    (h : error ∈ (analyse a).report.errors) (more : Nat) :
    error.movedFrom a.length more = error := by
  obtain ⟨position, hstands⟩ := (analyse_errors_standsAt a).1 error h
  have hlt := hstands.position_lt
  rw [LexicalError.movedFrom, if_pos (by rw [hstands.offset_eq]; omega)]

/-- The errors of a text that is set behind another stand behind the end of that one. -/
theorem movedFrom_later {b : Text} {error : LexicalError}
    (h : error ∈ (analyse b).report.errors) (lines : Int) (position more : Nat) :
    (error.later lines (position + 1)).movedFrom position more =
      error.later lines (position + more + 1) := by
  have hle := offset_le_of_mem_errorsOf h
  have hnot : ¬ (error.later lines (position + 1)).offset < position := by
    show ¬ error.offset + ((position + 1 : Nat) : Int) < position
    omega
  have hoffset : error.offset + ((position + 1 : Nat) : Int) + more =
      error.offset + ((position + more + 1 : Nat) : Int) := by omega
  rw [LexicalError.movedFrom, if_neg hnot]
  simp only [LexicalError.later, hoffset, Int.add_zero]

/-- A comment at the end of a line, wherever that is in a source, changes no token, and moves the
errors behind it by its length. -/
theorem analyse_comment_lineFeed {a body : Text} (hbody : ∀ c ∈ body, isCommentChar c = true)
    (hend : ∀ lexeme, (lexemes a).getLast? = some lexeme → ¬ lexeme.TakesSlash) (b : Text) :
    tokens (a ++ '/' :: '/' :: (body ++ '\n' :: b)) = tokens (a ++ '\n' :: b) ∧
      (analyse (a ++ '/' :: '/' :: (body ++ '\n' :: b))).report.errors =
        (analyse (a ++ '\n' :: b)).report.errors.map
          (LexicalError.movedFrom a.length (2 + body.length)) := by
  have hsame := analyse_append_comment hbody hend
  have hlength : (a ++ '/' :: '/' :: body).length + 1 = a.length + (2 + body.length) + 1 := by
    simp only [List.length_append, List.length_cons]
    omega
  obtain ⟨scanned, hplain, hcommented, herrors⟩ := analyse_lineFeed_of_eq hsame b b
  obtain ⟨-, -, -, hplainErrors⟩ := analyse_lineFeed a b
  rw [List.append_assoc] at hcommented herrors
  constructor
  · show tokens (a ++ ('/' :: '/' :: body ++ '\n' :: b)) = _
    rw [hcommented, hplain]
  · show (analyse (a ++ ('/' :: '/' :: body ++ '\n' :: b))).report.errors = _
    rw [herrors, hplainErrors, hlength, List.map_append, List.map_map]
    have hbefore : (analyse a).report.errors.map
        (LexicalError.movedFrom a.length (2 + body.length)) = (analyse a).report.errors :=
      map_eq_self fun error herror => movedFrom_of_mem_errors herror _
    rw [hbefore]
    congr 1
    refine List.map_congr_left fun error herror => ?_
    exact (movedFrom_later herror _ _ _).symm

namespace Cursor

/-- Where a comment may follow a source, it adds no token and no error, at the end of the text or
before a line feed and more text: tokens and errors are as without it, and the errors that stand
behind it are moved by its length. -/
theorem finish_comment {a body : Text} (ha : IsCommentable a) (hbody : '\n' ∉ body) (b : Text) :
    ∃ alone ended plain commented,
      (fresh a).finish = (.ok alone.tokens, alone) ∧
      (fresh (a ++ '/' :: '/' :: body)).finish = (.ok ended.tokens, ended) ∧
      (fresh (a ++ '\n' :: b)).finish = (.ok plain.tokens, plain) ∧
      (fresh (a ++ '/' :: '/' :: (body ++ '\n' :: b))).finish =
        (.ok commented.tokens, commented) ∧
      ended.tokens = alone.tokens ∧ ended.report.errors = alone.report.errors ∧
      commented.tokens = plain.tokens ∧
      commented.report.errors =
        plain.report.errors.map (LexicalError.movedFrom a.length (2 + body.length)) := by
  have hchars : ∀ c ∈ body, isCommentChar c = true := Text.decide_ne_of_notMem hbody
  have hend : ∀ lexeme, (lexemes a).getLast? = some lexeme → ¬ lexeme.TakesSlash :=
    fun lexeme hlast => ha.not_takesSlash hlast
  obtain ⟨alone, halone, haloneTokens, haloneErrors⟩ := finish_fresh a {}
  obtain ⟨ended, hended, hendedTokens, hendedErrors⟩ := finish_fresh (a ++ '/' :: '/' :: body) {}
  obtain ⟨plain, hplain, hplainTokens, hplainErrors⟩ := finish_fresh (a ++ '\n' :: b) {}
  obtain ⟨commented, hcommented, hcommentedTokens, hcommentedErrors⟩ :=
    finish_fresh (a ++ '/' :: '/' :: (body ++ '\n' :: b)) {}
  have hsame := analyse_append_comment hchars hend
  obtain ⟨htokens, herrors⟩ := analyse_comment_lineFeed hchars hend b
  refine ⟨alone, ended, plain, commented, halone, hended, hplain, hcommented, ?_, ?_, ?_, ?_⟩
  · rw [hendedTokens, haloneTokens, hsame]
  · rw [hendedErrors, haloneErrors, hsame]
  · rw [hcommentedTokens, hplainTokens]
    exact htokens
  · rw [hcommentedErrors, hplainErrors]
    exact herrors

/-- A source without a slash among its tokens, and without an open string on its last line. -/
theorem isCommentable_of_forall_ne_slash {a : Text}
    (hclosed : ∀ error ∈ (fresh a).finish.2.report.errors, error.kind = .unterminatedString →
      error.line ≠ 1 + a.lineFeeds)
    (hslash : ∀ token ∈ (fresh a).finish.2.tokens, token.kind ≠ .slash) : IsCommentable a where
  closed := hclosed
  noSlash := by
    intro rounds last hrun round hround _ token htoken
    refine hslash token ?_
    rw [hrun.finish_eq rfl]
    show token ∈ last.tokens ++ _
    rw [hrun.tokens_eq]
    exact List.mem_append_left _
      (List.mem_append_right _ (List.mem_flatMap.mpr ⟨round, hround, htoken⟩))

/-- The first text has an open string above its last line and ends inside a comment, in a slash that
is no token; the comment set behind it opens a string that nothing closes, and the text behind it
has an error. -/
theorem finish_comment_behind_comment :
    IsCommentable "\"\n1.=// /".toList ∧ '\n' ∉ "\"@/".toList ∧
      ∃ alone ended plain commented,
        (fresh "\"\n1.=// /".toList).finish = (.ok alone.tokens, alone) ∧
        (fresh "\"\n1.=// ///\"@/".toList).finish = (.ok ended.tokens, ended) ∧
        (fresh "\"\n1.=// /\n@".toList).finish = (.ok plain.tokens, plain) ∧
        (fresh "\"\n1.=// ///\"@/\n@".toList).finish = (.ok commented.tokens, commented) ∧
        ended.tokens = alone.tokens ∧ ended.report.errors = alone.report.errors ∧
        commented.tokens = plain.tokens ∧
        commented.report.errors = plain.report.errors.map (LexicalError.movedFrom 9 5) := by
  have hcommentable : IsCommentable "\"\n1.=// /".toList :=
    isCommentable_of_forall_ne_slash (by decide +kernel) (by decide +kernel)
  exact ⟨hcommentable, by decide, finish_comment hcommentable (by decide) "@".toList⟩

end Cursor
end LoxLexer

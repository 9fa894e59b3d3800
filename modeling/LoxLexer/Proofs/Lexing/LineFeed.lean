import LoxLexer.Proofs.Cursor.Round
import LoxLexer.Proofs.Lexing.WhiteSpace

/-!
# Line feeds part a source

No lexeme goes on behind a line feed, so the lexer starts anew there.  A line feed changes the
lexemes before it in one way only: an unclosed string that went to the end of the source now ends
with the line feed.

* `EndsLine` — what becomes of lexemes when a line feed follows them.
* `Front.append_lineFeed` — one lexeme before a line feed.
* `lexemes_lineFeed` — all lexemes before a line feed, and those behind it.
* `analyse_lineFeed`, `Cursor.finish_lineFeed` — the tokens and the errors of the whole are those
  of the parts, the second moved behind the first.
* `analyse_lineFeed_of_eq` — what stands before the line feed is exchanged for a text that scans
  alike.
-/

namespace LoxLexer

/-! ### One lexeme before a line feed -/

/-- Before a line feed the same lexeme stands at the front, unless it is a string that goes
unclosed to the end: that one takes the line feed as well. -/
theorem Front.append_lineFeed {text rest : Text} {lexeme : Lexeme} (h : Front text lexeme rest)
    (more : Text) :
    Front (text ++ '\n' :: more) lexeme (rest ++ '\n' :: more) ∨
      rest = [] ∧ lexeme = ⟨.unclosed, text⟩ ∧
        Front (text ++ '\n' :: more) ⟨.unclosed, text ++ ['\n']⟩ more := by
  have hsame (hcomment : lexeme.shape = .comment → Text.Stops isCommentChar rest)
      (hunclosed : lexeme.shape = .unclosed → '\n' ∈ lexeme.text) :
      Front (text ++ '\n' :: more) lexeme (rest ++ '\n' :: more) := by
    rw [h.text_append, List.append_assoc]
    apply h.withRest (.append rest (by decide) more)
    · intro hshape
      exact (hcomment hshape).append (Text.stops_cons (by decide) more)
    · intro hshape
      exact .inl (hunclosed hshape)
  cases h with
  | unclosedAtEnd hbody => exact .inr ⟨rfl, rfl, .unclosed hbody⟩
  | comment hbody hrest => exact .inl (hsame (fun _ => hrest) nofun)
  | unclosed hbody => exact .inl (hsame nofun fun _ => by simp)
  | _ => exact .inl (hsame nofun nofun)

/-! ### All lexemes before a line feed -/

/-- `EndsLine found ended`: with a line feed behind them, the lexemes `found` become `ended`.
Either the line feed is a lexeme of its own, or it ends the unclosed string before it. -/
inductive EndsLine : List Lexeme → List Lexeme → Prop
  | lineFeed : EndsLine [] [⟨.lineFeed, ['\n']⟩]
  | unclosed {text : Text} : EndsLine [⟨.unclosed, text⟩] [⟨.unclosed, text ++ ['\n']⟩]
  | cons {lexeme : Lexeme} {found ended : List Lexeme} (h : EndsLine found ended) :
      EndsLine (lexeme :: found) (lexeme :: ended)

/-- The lexemes of a source before a line feed end their line, and those behind it are the lexemes
of what stands behind it. -/
theorem lexemes_lineFeed (a b : Text) :
    ∃ ended, EndsLine (lexemes a) ended ∧ lexemes (a ++ '\n' :: b) = ended ++ lexemes b := by
  induction a using Front.induction with
  | nil =>
      have hfeed : lexemes ('\n' :: b) = ⟨.lineFeed, ['\n']⟩ :: lexemes b :=
        Front.lexemes_eq .lineFeed
      rw [lexemes_nil]
      exact ⟨_, .lineFeed, hfeed⟩
  | front text lexeme rest hfront ih =>
      rw [hfront.lexemes_eq]
      rcases hfront.append_lineFeed b with hsame | ⟨rfl, rfl, hended⟩
      · obtain ⟨ended, hended, hlexemes⟩ := ih
        exact ⟨_, .cons hended, by rw [hsame.lexemes_eq, hlexemes, List.cons_append]⟩
      · rw [lexemes_nil]
        exact ⟨_, .unclosed, hended.lexemes_eq⟩

namespace EndsLine

variable {found ended : List Lexeme}

theorem textOf_eq (h : EndsLine found ended) : textOf ended = textOf found ++ ['\n'] := by
  induction h with
  | lineFeed => rfl
  | unclosed => simp
  | cons h ih => rw [textOf_cons, textOf_cons, ih, List.append_assoc]

/-- A line feed adds no token. -/
theorem scannedOf_eq (h : EndsLine found ended) (line : Int) :
    scannedOf line ended = scannedOf line found := by
  induction h generalizing line with
  | lineFeed => rfl
  | unclosed => rfl
  | cons h ih => rw [scannedOf, scannedOf, ih]

/-- A line feed adds no error and moves none: an unclosed string is an error where it starts. -/
theorem errorsOf_eq (h : EndsLine found ended) (line : Int) (offset : Nat) :
    errorsOf line offset ended = errorsOf line offset found := by
  induction h generalizing line offset with
  | lineFeed => rfl
  | unclosed => rfl
  | cons h ih => rw [errorsOf, errorsOf, ih]

end EndsLine

/-! ### Tokens and errors -/

/-- The tokens and the errors of two texts with a line feed between them are those of the first,
without its end of file, and those of the second, moved behind the line feed. -/
theorem analyse_lineFeed (a b : Text) :
    ∃ scanned, tokens a = scanned ++ [Token.endOfFile (1 + a.lineFeeds)] ∧
      tokens (a ++ '\n' :: b) = scanned ++ (tokens b).map (Token.later (1 + a.lineFeeds)) ∧
      (analyse (a ++ '\n' :: b)).report.errors = (analyse a).report.errors ++
        (analyse b).report.errors.map (LexicalError.later (1 + a.lineFeeds) (a.length + 1)) := by
  obtain ⟨ended, hended, hlexemes⟩ := lexemes_lineFeed a b
  have htext : textOf ended = a ++ ['\n'] := by rw [hended.textOf_eq, textOf_lexemes]
  have hline : (1 : Int) + (textOf ended).lineFeeds = 1 + (1 + a.lineFeeds) := by
    rw [htext, Text.lineFeeds_append]
    simp [Text.lineFeeds, Int.add_comm]
  have hoffset : (textOf ended).length = a.length + 1 := by simp [htext]
  refine ⟨scannedOf 1 (lexemes a), ?_, ?_, ?_⟩
  · have heof := tokensOf_eq 1 (lexemes a)
    rwa [textOf_lexemes] at heof
  · show tokensOf 1 (lexemes (a ++ '\n' :: b)) = _
    rw [hlexemes, tokensOf_append, hended.scannedOf_eq, hline, tokensOf_add]
    rfl
  · show errorsOf 1 0 (lexemes (a ++ '\n' :: b)) = _
    rw [hlexemes, errorsOf_append, hended.errorsOf_eq, hline, hoffset, errorsOf_add]
    rfl

/-- A text may be exchanged for another before a line feed, if both by themselves come to the same
tokens and errors: the first line scans alike, and the rest is moved behind the other text. -/
theorem analyse_lineFeed_of_eq {a a' : Text} (h : analyse a' = analyse a) (b b' : Text) :
    ∃ scanned,
      tokens (a ++ '\n' :: b) = scanned ++ (tokens b).map (Token.later (1 + a.lineFeeds)) ∧
      tokens (a' ++ '\n' :: b') = scanned ++ (tokens b').map (Token.later (1 + a.lineFeeds)) ∧
      (analyse (a' ++ '\n' :: b')).report.errors = (analyse a).report.errors ++
        (analyse b').report.errors.map (LexicalError.later (1 + a.lineFeeds) (a'.length + 1)) := by
  obtain ⟨scanned, hscanned, htokens, -⟩ := analyse_lineFeed a b
  obtain ⟨scanned', hscanned', htokens', herrors'⟩ := analyse_lineFeed a' b'
  have hsame : scanned' ++ [Token.endOfFile (1 + a'.lineFeeds)] =
      scanned ++ [Token.endOfFile (1 + a.lineFeeds)] := by
    rw [← hscanned', ← hscanned, tokens, tokens, h]
  obtain ⟨rfl, hend⟩ := List.append_inj' hsame rfl
  have hline : (1 : Int) + a'.lineFeeds = 1 + a.lineFeeds :=
    congrArg Token.line (List.singleton_inj.mp hend)
  rw [hline] at htokens' herrors'
  rw [h] at herrors'
  exact ⟨scanned', htokens, htokens', herrors'⟩

namespace Cursor

/-- Fresh cursors on two texts and on both with a line feed between them: the third finishes with
the tokens and the errors of the first, and those of the second moved behind the line feed. -/
theorem finish_lineFeed (a b : Text) :
    ∃ first second whole scanned,
      (fresh a).finish = (.ok first.tokens, first) ∧
      (fresh b).finish = (.ok second.tokens, second) ∧
      (fresh (a ++ '\n' :: b)).finish = (.ok whole.tokens, whole) ∧
      first.tokens = scanned ++ [Token.endOfFile (1 + a.lineFeeds)] ∧
      whole.tokens = scanned ++ second.tokens.map (Token.later (1 + a.lineFeeds)) ∧
      whole.report.errors = first.report.errors ++
        second.report.errors.map (LexicalError.later (1 + a.lineFeeds) (a.length + 1)) := by
  obtain ⟨first, hfirst, hfirstTokens, hfirstErrors⟩ := finish_fresh a {}
  obtain ⟨second, hsecond, hsecondTokens, hsecondErrors⟩ := finish_fresh b {}
  obtain ⟨whole, hwhole, hwholeTokens, hwholeErrors⟩ := finish_fresh (a ++ '\n' :: b) {}
  obtain ⟨scanned, hscanned, htokens, herrors⟩ := analyse_lineFeed a b
  refine ⟨first, second, whole, scanned, hfirst, hsecond, hwhole, ?_, ?_, ?_⟩
  · rw [hfirstTokens]
    exact hscanned
  · rw [hwholeTokens, hsecondTokens]
    exact htokens
  · rw [hwholeErrors, hfirstErrors, hsecondErrors]
    exact herrors

end Cursor
end LoxLexer

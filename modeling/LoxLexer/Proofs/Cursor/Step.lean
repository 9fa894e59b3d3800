import LoxLexer.Cursor.Basic
import LoxLexer.Proofs.Lexeme.Front
import LoxLexer.Proofs.Number.PlainNumeral

/-!
# One lexeme of the cursor

The cursor takes a lexeme in several small moves: it looks ahead, moves on, and records.  Seen from
the outside all of them together take the lexeme at the front of what remains, and nothing else.

* `Cursor.absorb` — the effect of a lexeme on a cursor, said without its moves.
* `Cursor.takeLexeme_mark` — taking a lexeme from a fresh mark has exactly this effect.  It never
  faults, whatever remains.
-/

namespace LoxLexer
namespace Cursor

/-! ### Moving and looking ahead -/

@[simp] theorem remaining_mark (c : Cursor) : c.mark.remaining = c.remaining := rfl

@[simp] theorem remaining_move (c : Cursor) (n : Nat) :
    (c.move n).remaining = c.remaining.drop n := by
  simp [remaining, move, List.drop_drop]

@[simp] theorem move_move (c : Cursor) (m n : Nat) : (c.move m).move n = c.move (m + n) := by
  simp [move, Nat.add_assoc]

theorem remaining_ne_nil_iff (c : Cursor) : c.remaining ≠ [] ↔ c.current < c.source.length := by
  rw [remaining, ne_eq, List.drop_eq_nil_iff, Nat.not_le]

/-- Positions in the source count on from where the cursor stands. -/
theorem slice_source (c : Cursor) (m n : Nat) :
    c.source.slice (c.current + m) (c.current + n) = (c.remaining.take n).drop m := by
  simp only [Text.slice, remaining, List.drop_take, List.drop_drop]
  congr 1
  omega

@[simp] theorem marked_mark_move (c : Cursor) (n : Nat) :
    (c.mark.move n).marked = c.remaining.take n := c.slice_source 0 n

theorem peek_zero (c : Cursor) : c.peek 0 = c.remaining.take 1 := rfl

theorem accept_of_head {c : Cursor} {expected : Char} (h : c.remaining.head? = some expected) :
    c.accept [expected] = (true, c.move 1) := by
  obtain ⟨rest, hrest⟩ := List.head?_eq_some_iff.mp h
  simp [accept, peek_zero, hrest]

theorem accept_of_not_head {c : Cursor} {expected : Char}
    (h : c.remaining.head? ≠ some expected) : c.accept [expected] = (false, c) := by
  have hpeek : c.peek 0 ≠ [expected] := by
    rw [peek_zero]
    cases hrest : c.remaining with
    | nil => simp
    | cons d rest =>
        rw [hrest] at h
        simpa using h
  simp [accept, hpeek]

theorem atEnd_iff (c : Cursor) : c.atEnd = true ↔ c.remaining = [] := by
  rw [atEnd, decide_eq_true_iff, remaining, List.drop_eq_nil_iff]

section Front

variable {c : Cursor} {ch : Char} {tail : Text} (h : c.remaining = ch :: tail)

include h

theorem remaining_move_one : (c.move 1).remaining = tail := by
  rw [remaining_move, h]
  rfl

theorem advance_of_remaining : c.advance = (.ok ch, c.move 1) := by
  rw [advance, h]

/-- With something left, a lexeme is taken by its first character. -/
theorem takeLexeme_of_remaining : c.mark.takeLexeme = (c.mark.move 1).takeRest ch := by
  have hmark : c.mark.remaining = ch :: tail := h
  rw [takeLexeme, advance_of_remaining hmark]

end Front

/-! ### The effect of a lexeme -/

/-- The cursor behind a lexeme: the mark stands where the lexeme starts, its line feeds are
counted, and what it counts as is recorded for the line and the position where it starts. -/
def absorb (c : Cursor) (lexeme : Lexeme) : Cursor :=
  { c with
    start := c.current
    current := c.current + lexeme.text.length
    line := c.line + lexeme.text.lineFeeds
    tokens := c.tokens ++ (lexeme.token? c.line).toList
    report := c.report.addAll (lexeme.defect?.map (·.located c.line c.current)).toList }

section Effect

variable (c : Cursor) (lexeme : Lexeme) {rest : Text}

/-- A lexeme that counts as nothing is passed over. -/
theorem move_eq_absorb (hkind : lexeme.kind? = none) (hdefect : lexeme.defect? = none)
    (hfeeds : lexeme.text.lineFeeds = 0) :
    c.mark.move lexeme.text.length = c.absorb lexeme := by
  simp [absorb, mark, move, Lexeme.token?, hkind, hdefect, hfeeds, Report.addAll]

/-- Recording the marked text records the lexeme that it is. -/
theorem emit_eq_absorb (hremaining : c.remaining = lexeme.text ++ rest) {kind : TokenKind}
    (hkind : lexeme.kind? = some kind) (hdefect : lexeme.defect? = none)
    (hfeeds : lexeme.text.lineFeeds = 0) :
    (c.mark.move lexeme.text.length).emit kind lexeme.literal? = c.absorb lexeme := by
  simp only [emit, marked_mark_move, hremaining, List.take_left]
  simp [absorb, mark, move, Lexeme.token?, hkind, hdefect, hfeeds, Report.addAll]

/-- A complaint is about the lexeme that starts at the mark. -/
theorem complain_eq_absorb (defect : Defect) (hkind : lexeme.kind? = none)
    (hdefect : lexeme.defect? = some defect) :
    { (c.mark.move lexeme.text.length).complain defect with
      line := c.line + lexeme.text.lineFeeds } = c.absorb lexeme := by
  simp [absorb, complain, mark, move, Lexeme.token?, hkind, hdefect, Report.addAll, Report.add]

end Effect

/-! ### What is done by the first character -/

theorem takeRest_single {ch : Char} {kind : TokenKind} (h : single? ch = some kind)
    (c : Cursor) : c.takeRest ch = (.ok (), c.emit kind none) := by
  simp [takeRest, h]

theorem takeRest_operator {ch : Char} {alone withEqual : TokenKind}
    (h : operator? ch = some (alone, withEqual)) (c : Cursor) :
    c.takeRest ch =
      (.ok (), (c.accept ['=']).2.emit (if (c.accept ['=']).1 then withEqual else alone) none) := by
  simp [takeRest, single?_eq_none h, h]

theorem takeRest_slash (c : Cursor) :
    c.takeRest '/' =
      (.ok (), if (c.accept ['/']).1 then (c.accept ['/']).2.skipComment
        else (c.accept ['/']).2.emit .slash none) := rfl

theorem takeRest_blank {ch : Char} (h : isBlank ch = true) (c : Cursor) :
    c.takeRest ch = (.ok (), c) := by
  have hmem := mem_of_isBlank h
  simp only [List.mem_cons, List.not_mem_nil, or_false] at hmem
  rcases hmem with rfl | rfl | rfl <;> rfl

theorem takeRest_lineFeed (c : Cursor) :
    c.takeRest '\n' = (.ok (), { c with line := c.line + 1 }) := rfl

theorem takeRest_quote (c : Cursor) : c.takeRest '"' = (.ok (), c.takeString) := rfl

theorem takeRest_ordinary {ch : Char} (h : IsOrdinary ch) (c : Cursor) :
    c.takeRest ch =
      if isDigit ch then c.takeNumber
      else if isWordStart ch then (.ok (), c.takeWord)
      else (.ok (), c.complain (.unexpected ch)) := by
  simp [takeRest, h.single, h.operator, h.slash, h.blank, h.lineFeed, h.quote]

/-! ### The rest of a lexeme

In each of these the first character has been taken from a fresh mark, and the rest of the lexeme
is at the front of what remains. -/

section Rest

variable {c : Cursor} {ch : Char} {body rest : Text}

/-- What a number or a word has marked when its last character has been read. -/
theorem marked_of_remaining (hremaining : c.remaining = ch :: (body ++ rest)) :
    (c.mark.move (body.length + 1)).marked = ch :: body := by
  rw [marked_mark_move, hremaining, List.take_succ_cons, List.take_left]

theorem skipComment_eq_absorb (hremaining : c.remaining = '/' :: '/' :: (body ++ rest))
    (hrun : (body ++ rest).takeWhile isCommentChar = body)
    (hfeeds : Text.lineFeeds ('/' :: '/' :: body) = 0) :
    (c.mark.move 2).skipComment = c.absorb ⟨.comment, '/' :: '/' :: body⟩ := by
  have hafter : (c.mark.move 2).remaining = body ++ rest := by simp [hremaining]
  rw [skipComment, hafter, hrun, move_move, Nat.add_comm]
  exact move_eq_absorb c ⟨.comment, '/' :: '/' :: body⟩ rfl rfl hfeeds

/-- A closed string is recorded with what stands between its quotes. -/
theorem takeString_eq_absorb (hremaining : c.remaining = '"' :: (body ++ '"' :: rest))
    (hbody : ∀ d ∈ body, isStringChar d = true)
    (hfeeds : Text.lineFeeds ('"' :: (body ++ ['"'])) = 0) :
    (c.mark.move 1).takeString = c.absorb ⟨.string, '"' :: (body ++ ['"'])⟩ := by
  have hafter : (c.mark.move 1).remaining = body ++ '"' :: rest :=
    remaining_move_one (c := c.mark) hremaining
  have hlast : c.current + (1 + (body.length + 1)) - 1 = c.current + (body.length + 1) := by
    omega
  have hvalue : c.source.slice (c.current + 1) (c.current + (1 + (body.length + 1)) - 1) =
      body := by
    rw [hlast, slice_source, hremaining, List.take_succ_cons, List.take_left]
    rfl
  have hliteral : (⟨.string, '"' :: (body ++ ['"'])⟩ : Lexeme).literal? = some (.text body) := by
    simp [Lexeme.literal?]
  have hlength : ('"' :: (body ++ ['"'])).length = 1 + (body.length + 1) := by
    simp [Nat.add_comm]
  have hsplit : c.remaining = '"' :: (body ++ ['"']) ++ rest := by simp [hremaining]
  have hemit := emit_eq_absorb c ⟨.string, '"' :: (body ++ ['"'])⟩ hsplit rfl rfl hfeeds
  rw [hliteral, hlength] at hemit
  rw [← hemit]
  simp only [takeString, hafter, stringReach_closed hbody, move_move]
  exact congrArg (fun value => emit _ _ (some (.text value))) hvalue

/-- A string that is not closed is complained about on the line where it starts. -/
theorem takeString_eq_absorb_of_unclosed {tail : Text} {n : Nat}
    (hremaining : c.remaining = '"' :: tail) (hreach : stringReach tail = (.unclosed, n))
    (hlength : n ≤ tail.length) :
    (c.mark.move 1).takeString = c.absorb ⟨.unclosed, '"' :: tail.take n⟩ := by
  have hafter : (c.mark.move 1).remaining = tail := remaining_move_one (c := c.mark) hremaining
  have htaken : ('"' :: tail.take n).length = 1 + n := by
    rw [List.length_cons, List.length_take_of_le hlength, Nat.add_comm]
  have hfeeds : Text.lineFeeds ('"' :: tail.take n) = Text.lineFeeds (tail.take n) := by
    simp [Text.lineFeeds]
  rw [← complain_eq_absorb c ⟨.unclosed, '"' :: tail.take n⟩ .unterminated rfl rfl]
  simp only [takeString, hafter, hreach, move_move, htaken, hfeeds]
  rfl

/-- A number whose digits are read as a value is recorded with the value. -/
theorem takeNumber_eq_absorb {value : Binary64} (hremaining : c.remaining = ch :: (body ++ rest))
    (hreach : numberReach (body ++ rest) = body.length)
    (hread : Numeral.read? (ch :: body) = some value)
    (hfeeds : Text.lineFeeds (ch :: body) = 0) :
    (c.mark.move 1).takeNumber = (.ok (), c.absorb ⟨.number, ch :: body⟩) := by
  have hafter : (c.mark.move 1).remaining = body ++ rest :=
    remaining_move_one (c := c.mark) hremaining
  have hemit := emit_eq_absorb c ⟨.number, ch :: body⟩ hremaining rfl rfl hfeeds
  simp only [Lexeme.literal?, hread, Option.map_some] at hemit
  simp only [takeNumber, hafter, hreach, move_move, Nat.add_comm 1,
    marked_of_remaining hremaining, hread]
  rw [← hemit]
  rfl

/-- A word is recorded with the kind that the whole word has. -/
theorem takeWord_eq_absorb (hremaining : c.remaining = ch :: (body ++ rest))
    (hrun : (body ++ rest).takeWhile isWordChar = body)
    (hfeeds : Text.lineFeeds (ch :: body) = 0) :
    (c.mark.move 1).takeWord = c.absorb ⟨.word, ch :: body⟩ := by
  have hafter : (c.mark.move 1).remaining = body ++ rest :=
    remaining_move_one (c := c.mark) hremaining
  simp only [takeWord, hafter, hrun, move_move, Nat.add_comm 1, marked_of_remaining hremaining]
  exact emit_eq_absorb c ⟨.word, ch :: body⟩ hremaining rfl rfl hfeeds

end Rest

/-- Taking a lexeme from a fresh mark takes the lexeme at the front of what remains. -/
theorem takeLexeme_mark {c : Cursor} {lexeme : Lexeme} {rest : Text}
    (h : Front c.remaining lexeme rest) : c.mark.takeLexeme = (.ok (), c.absorb lexeme) := by
  have hsplit := h.text_append
  -- the line moves only behind line feeds and unclosed strings
  have hfeeds (hshape : lexeme.shape ≠ .lineFeed ∧ lexeme.shape ≠ .unclosed) :
      lexeme.text.lineFeeds = 0 :=
    List.count_eq_zero.mpr (h.lineFeed_notMem_text hshape.1 hshape.2)
  generalize htext : c.remaining = text at h
  cases h with
  | blank hc =>
      rw [takeLexeme_of_remaining htext, takeRest_blank hc]
      exact congrArg _ (move_eq_absorb c _ rfl rfl (hfeeds (by simp)))
  | lineFeed =>
      rw [takeLexeme_of_remaining htext, takeRest_lineFeed]
      simp [absorb, mark, move, Lexeme.token?, Lexeme.kind?, Lexeme.defect?, Report.addAll,
        Text.lineFeeds]
  | comment hbody hrest =>
      have hafter : (c.mark.move 1).remaining.head? = some '/' := by simp [htext]
      rw [takeLexeme_of_remaining htext, takeRest_slash, accept_of_head hafter, move_move]
      exact congrArg _
        (skipComment_eq_absorb htext (Text.takeWhile_run hbody hrest) (hfeeds (by simp)))
  | single hc =>
      rw [takeLexeme_of_remaining htext, takeRest_single hc]
      exact congrArg _ (emit_eq_absorb c _ hsplit rfl rfl (hfeeds (by simp)))
  | slash hrest =>
      have hafter : (c.mark.move 1).remaining.head? ≠ some '/' := by simpa [htext] using hrest
      rw [takeLexeme_of_remaining htext, takeRest_slash, accept_of_not_head hafter]
      exact congrArg _ (emit_eq_absorb c _ hsplit rfl rfl (hfeeds (by simp)))
  | operator hc hrest =>
      have hafter : (c.mark.move 1).remaining.head? ≠ some '=' := by simpa [htext] using hrest
      rw [takeLexeme_of_remaining htext, takeRest_operator hc, accept_of_not_head hafter]
      exact congrArg _ (emit_eq_absorb c _ hsplit rfl rfl (hfeeds (by simp)))
  | operatorEqual hc =>
      have hafter : (c.mark.move 1).remaining.head? = some '=' := by simp [htext]
      rw [takeLexeme_of_remaining htext, takeRest_operator hc, accept_of_head hafter, move_move]
      exact congrArg _ (emit_eq_absorb c _ hsplit rfl rfl (hfeeds (by simp)))
  | string hbody =>
      rw [takeLexeme_of_remaining htext, takeRest_quote]
      exact congrArg _ (takeString_eq_absorb htext hbody (hfeeds (by simp)))
  | @unclosed body rest hbody =>
      have hlength : body.length + 1 ≤ (body ++ '\n' :: rest).length := by simp
      rw [takeLexeme_of_remaining htext, takeRest_quote,
        takeString_eq_absorb_of_unclosed htext (stringReach_lineFeed hbody rest) hlength,
        List.take_length_add_append]
      rfl
  | unclosedAtEnd hbody =>
      rw [takeLexeme_of_remaining htext, takeRest_quote,
        takeString_eq_absorb_of_unclosed htext (stringReach_atEnd hbody) (Nat.le_refl _),
        List.take_length]
  | integer hc hdigits hrest hpoint =>
      rw [takeLexeme_of_remaining htext, takeRest_ordinary (isOrdinary_of_isDigit hc), if_pos hc]
      exact takeNumber_eq_absorb htext (numberReach_integer hdigits hrest hpoint)
        (Numeral.read?_integer hc hdigits) (hfeeds (by simp))
  | @fraction ch d digits decimals rest hc hdigits hd hdecimals hrest =>
      have hreach := numberReach_fraction hdigits hd hdecimals hrest
      rw [takeLexeme_of_remaining htext, takeRest_ordinary (isOrdinary_of_isDigit hc), if_pos hc]
      have hlength : (digits ++ '.' :: d :: decimals).length =
          digits.length + 1 + (decimals.length + 1) := by
        simp only [List.length_append, List.length_cons]
        omega
      refine takeNumber_eq_absorb hsplit ?_ (Numeral.read?_fraction hc hdigits hd hdecimals)
        (hfeeds (by simp))
      rw [hlength, ← hreach, List.append_assoc]
      rfl
  | word hc hbody hrest =>
      rw [takeLexeme_of_remaining htext, takeRest_ordinary (isOrdinary_of_isWordStart hc),
        if_neg (Bool.eq_false_iff.mp (isDigit_eq_false hc)), if_pos hc]
      exact congrArg _
        (takeWord_eq_absorb htext (Text.takeWhile_run hbody hrest) (hfeeds (by simp)))
  | @stray ch rest hc hdigit hword =>
      have hcomplain := complain_eq_absorb c ⟨.stray, [ch]⟩ (.unexpected ch) rfl rfl
      rw [hfeeds (by simp)] at hcomplain
      rw [takeLexeme_of_remaining htext, takeRest_ordinary hc,
        if_neg (Bool.eq_false_iff.mp hdigit), if_neg (Bool.eq_false_iff.mp hword)]
      exact congrArg _ hcomplain

end Cursor
end LoxLexer

import LoxLexer.Proofs.Cursor.Step

/-!
# Lexemes character by character

The cursor counts how far a comment, a string, a number or a word reaches and then moves on by that
much.  The same is done here in loops that look at one character, take it, and look at the next.
What such a loop asks for may not be there, so the loops write down everything that they ask for.

* `Cursor.Request` — what may not be there: a character to take, or the value of a text.
* `Cursor.passWhile`, `Cursor.passComment` — loops that look before they move.
* `Cursor.stringLoop`, `Cursor.numberLoop`, `Cursor.wordLoop` — the rest of a lexeme.
* `Cursor.lexemeLoop` — a whole lexeme; `Cursor.lexemeLoop_eq` says that `takeLexeme` does the same.
* `Cursor.restLoop_requests` — what is asked for behind the first character of a lexeme.
-/

namespace LoxLexer
namespace Cursor

/-- What the loops ask for that may not be there. -/
inductive Request
  /-- the character at a position -/
  | character (position : Nat)
  /-- the number that a text denotes -/
  | value (text : Text)
deriving DecidableEq

/-! ### The loops -/

theorem lt_of_isSingle {c : Cursor} {property : Char → Bool}
    (h : Text.isSingle property (c.peek 0) = true) : c.current < c.source.length := by
  rw [← remaining_ne_nil_iff]
  intro hnil
  rw [peek_zero, hnil] at h
  contradiction

/-- Passes over characters as long as the next one has the property. -/
def passWhile (property : Char → Bool) (c : Cursor) : Cursor :=
  if h : Text.isSingle property (c.peek 0) = true then
    have : c.current < c.source.length := lt_of_isSingle h
    passWhile property (c.move 1)
  else c
termination_by c.source.length - c.current
decreasing_by exact Nat.sub_lt_sub_left this (Nat.lt_succ_self _)

theorem lt_of_not_atEnd {c : Cursor} (h : ¬ c.atEnd = true) : c.current < c.source.length := by
  rwa [atEnd_iff, ← ne_eq, remaining_ne_nil_iff] at h

/-- Passes over characters up to a line feed or the end. -/
def passComment (c : Cursor) : Cursor :=
  if h : c.atEnd = true then c
  else if c.peek 0 = ['\n'] then c
  else
    have : c.current < c.source.length := lt_of_not_atEnd h
    passComment (c.move 1)
termination_by c.source.length - c.current
decreasing_by exact Nat.sub_lt_sub_left this (Nat.lt_succ_self _)

theorem advance_eq_ok {c d : Cursor} {ch : Char} (h : c.advance = (.ok ch, d)) :
    d = c.move 1 ∧ c.current < c.source.length := by
  unfold advance at h
  split at h
  · cases h
  · rename_i first rest hremaining
    cases h
    exact ⟨rfl, (remaining_ne_nil_iff c).mp (by simp [hremaining])⟩

/-- Takes characters up to the closing quote, a line feed or the end. -/
def stringLoop (c : Cursor) : List Request × Outcome Unit :=
  if c.atEnd then ([], .ok (), c.complain .unterminated)
  else
    match hnext : c.advance with
    | (.error fault, d) => ([.character c.current], .error fault, d)
    | (.ok ch, d) =>
      have : d = c.move 1 ∧ c.current < c.source.length := advance_eq_ok hnext
      if ch = '"' then
        ([.character c.current], .ok (),
          d.emit .string (some (.text (d.source.slice (d.start + 1) (d.current - 1)))))
      else if ch = '\n' then
        ([.character c.current], .ok (), { d.complain .unterminated with line := d.line + 1 })
      else
        let rest := stringLoop d
        (.character c.current :: rest.1, rest.2)
termination_by c.source.length - c.current
decreasing_by
  rw [this.1]
  exact Nat.sub_lt_sub_left this.2 (Nat.lt_succ_self _)

/-- Passes over digits, and over a point and digits if a digit follows the point. -/
def passNumber (c : Cursor) : Cursor :=
  let whole := c.passWhile isDigit
  if whole.peek 0 = ['.'] ∧ Text.isSingle isDigit (whole.peek 1) = true then
    (whole.move 1).passWhile isDigit
  else whole

/-- Passes over the rest of a number and asks for its value. -/
def numberLoop (c : Cursor) : List Request × Outcome Unit :=
  let last := c.passNumber
  match Numeral.read? last.marked with
  | some value => ([.value last.marked], .ok (), last.emit .number (some (.number value)))
  | none => ([.value last.marked], .error (.notANumeral last.marked), last)

/-- Passes over the characters of a word. -/
def wordLoop (c : Cursor) : Cursor :=
  let last := c.passWhile isWordChar
  last.emit (TokenKind.ofWord last.marked) none

/-- Takes the rest of the lexeme that starts with `ch`, which has been taken. -/
def restLoop (c : Cursor) (ch : Char) : List Request × Outcome Unit :=
  match single? ch, operator? ch with
  | some kind, _ => ([], .ok (), c.emit kind none)
  | none, some (alone, withEqual) =>
    let (found, d) := c.accept ['=']
    ([], .ok (), d.emit (if found then withEqual else alone) none)
  | none, none =>
    if ch = '/' then
      let (found, d) := c.accept ['/']
      ([], .ok (), if found then d.passComment else d.emit .slash none)
    else if isBlank ch then ([], .ok (), c)
    else if ch = '\n' then ([], .ok (), { c with line := c.line + 1 })
    else if ch = '"' then c.stringLoop
    else if isDigit ch then c.numberLoop
    else if isWordStart ch then ([], .ok (), c.wordLoop)
    else ([], .ok (), c.complain (.unexpected ch))

/-- Takes one lexeme. -/
def lexemeLoop (c : Cursor) : List Request × Outcome Unit :=
  match c.advance with
  | (.error fault, d) => ([.character c.current], .error fault, d)
  | (.ok ch, d) =>
    let rest := d.restLoop ch
    (.character c.current :: rest.1, rest.2)

/-! ### The loops reach as far as is counted -/

theorem isSingle_peek_zero (property : Char → Bool) (c : Cursor) :
    Text.isSingle property (c.peek 0) = true ↔
      ∃ ch rest, c.remaining = ch :: rest ∧ property ch = true := by
  rw [peek_zero]
  cases c.remaining with
  | nil => simp [Text.isSingle]
  | cons ch rest => simp [Text.isSingle]

theorem passWhile_eq (property : Char → Bool) (c : Cursor) :
    c.passWhile property = c.move (c.remaining.takeWhile property).length := by
  generalize htext : c.remaining = text
  induction text generalizing c with
  | nil =>
      have hnot : ¬ Text.isSingle property (c.peek 0) = true := by
        rw [isSingle_peek_zero, htext]
        rintro ⟨ch, rest, hcons, -⟩
        exact List.cons_ne_nil ch rest hcons.symm
      rw [passWhile, dif_neg hnot]
      rfl
  | cons ch rest ih =>
      have hiff := isSingle_peek_zero property c
      by_cases hch : property ch = true
      · have hnext : (c.move 1).remaining = rest := remaining_move_one htext
        rw [passWhile, dif_pos (hiff.mpr ⟨ch, rest, htext, hch⟩), ih _ hnext, move_move,
          List.takeWhile_cons_of_pos hch, List.length_cons, Nat.add_comm]
      · have hnot : ¬ Text.isSingle property (c.peek 0) = true := by
          rw [hiff, htext]
          rintro ⟨other, more, hcons, hother⟩
          rw [← (List.cons.inj hcons).1] at hother
          exact hch hother
        rw [passWhile, dif_neg hnot, List.takeWhile_cons_of_neg hch]
        rfl

theorem passComment_eq (c : Cursor) : c.passComment = c.skipComment := by
  rw [skipComment]
  generalize htext : c.remaining = text
  induction text generalizing c with
  | nil =>
      rw [passComment, dif_pos ((atEnd_iff c).mpr htext)]
      rfl
  | cons ch rest ih =>
      have hend : ¬ c.atEnd = true := by simp [atEnd_iff, htext]
      have hpeek : c.peek 0 = [ch] := by rw [peek_zero, htext]; rfl
      rw [passComment, dif_neg hend, hpeek]
      by_cases hch : ch = '\n'
      · subst hch
        rfl
      · have hnext : (c.move 1).remaining = rest := remaining_move_one htext
        have hcomment : isCommentChar ch = true := by simpa [isCommentChar] using hch
        rw [if_neg (by simpa using hch), ih _ hnext, move_move,
          List.takeWhile_cons_of_pos hcomment, List.length_cons, Nat.add_comm]

theorem wordLoop_eq (c : Cursor) : c.wordLoop = c.takeWord := by
  rw [wordLoop, passWhile_eq]
  rfl

theorem peek_fraction_iff (c : Cursor) :
    (c.peek 0 = ['.'] ∧ Text.isSingle isDigit (c.peek 1) = true) ↔
      StartsFraction c.remaining := by
  have hpeek : c.peek 1 = (c.move 1).peek 0 := rfl
  rw [hpeek, isSingle_peek_zero, remaining_move, peek_zero]
  constructor
  · rintro ⟨hpoint, d, rest, hrest, hd⟩
    refine ⟨d, rest, ?_, hd⟩
    rw [← List.take_append_drop 1 c.remaining, hpoint, hrest]
    rfl
  · rintro ⟨d, rest, htext, hd⟩
    rw [htext]
    exact ⟨rfl, d, rest, rfl, hd⟩

theorem passWhile_run {property : Char → Bool} {c : Cursor} {body rest : Text}
    (hremaining : c.remaining = body ++ rest) (hbody : ∀ d ∈ body, property d = true)
    (hrest : Text.Stops property rest) : c.passWhile property = c.move body.length := by
  rw [passWhile_eq, hremaining, Text.takeWhile_run hbody hrest]

/-- What is passed over as a number is what a number reaches. -/
theorem passNumber_eq (c : Cursor) : c.passNumber = c.move (numberReach c.remaining) := by
  obtain ⟨digits, rest, hremaining, hdigits, hstop⟩ :
      ∃ digits rest, c.remaining = digits ++ rest ∧ (∀ d ∈ digits, isDigit d = true) ∧
        Text.Stops isDigit rest := ⟨_, _, Text.exists_run isDigit c.remaining⟩
  have hwhole : c.passWhile isDigit = c.move digits.length :=
    passWhile_run hremaining hdigits hstop
  have hrest : (c.move digits.length).remaining = rest := by
    rw [remaining_move, hremaining, List.drop_left]
  have hiff := peek_fraction_iff (c.passWhile isDigit)
  unfold passNumber
  dsimp only
  -- the loop and the count agree on whether a fraction follows the digits
  by_cases hpoint : StartsFraction rest
  · obtain ⟨d, more, rfl, hd⟩ := hpoint
    obtain ⟨hmore, hdecimals, hend⟩ := Text.exists_run isDigit more
    have hreach := numberReach_fraction hdigits hd hdecimals hend
    have hnext : ((c.move digits.length).move 1).remaining =
        d :: more.takeWhile isDigit ++ more.dropWhile isDigit := by
      rw [remaining_move, hrest, List.cons_append, ← hmore]
      rfl
    have hlength : digits.length + (1 + (d :: more.takeWhile isDigit).length) =
        digits.length + 1 + ((more.takeWhile isDigit).length + 1) := by
      rw [List.length_cons, Nat.add_assoc]
    rw [← hmore, ← hremaining] at hreach
    rw [if_pos (hiff.mpr (by rw [hwhole, hrest]; exact ⟨d, more, rfl, hd⟩)), hwhole, hreach,
      passWhile_run hnext (List.forall_mem_cons.mpr ⟨hd, hdecimals⟩) hend, move_move, move_move,
      hlength]
  · have hreach := numberReach_integer hdigits hstop hpoint
    rw [← hremaining] at hreach
    rw [if_neg (fun h => hpoint (by simpa [hwhole, hrest] using hiff.mp h)), hwhole, hreach]

theorem numberLoop_eq (c : Cursor) :
    c.numberLoop =
      ([.value (c.move (numberReach c.remaining)).marked], c.takeNumber) := by
  simp only [numberLoop, passNumber_eq, takeNumber]
  cases Numeral.read? (c.move (numberReach c.remaining)).marked <;> rfl

/-! ### Strings -/

/-- A string that goes on reaches one further. -/
theorem stringReach_cons {ch : Char} (hch : isStringChar ch = true) (rest : Text) :
    stringReach (ch :: rest) = ((stringReach rest).1, (stringReach rest).2 + 1) := by
  simp only [stringReach, List.takeWhile_cons_of_pos hch, List.length_cons, List.drop_succ_cons]
  split <;> rfl

/-- Taking the rest of a string and taking it behind one of its characters are the same. -/
theorem takeString_move {c : Cursor} {ch : Char} {rest : Text}
    (hremaining : c.remaining = ch :: rest) (hch : isStringChar ch = true) :
    (c.move 1).takeString = c.takeString := by
  have hnext : (c.move 1).remaining = rest := remaining_move_one hremaining
  have hfeed : ch ≠ '\n' := by
    rintro rfl
    contradiction
  have hcount (more : Text) : Text.lineFeeds (ch :: more) = Text.lineFeeds more :=
    List.count_cons_of_ne hfeed
  unfold takeString
  rw [hnext, hremaining, stringReach_cons hch]
  obtain ⟨shape, n⟩ := stringReach rest
  cases shape <;> simp [hcount, Nat.add_comm 1] <;> rfl

/-- The string loop takes the rest of a string, and takes its characters where there are some. -/
theorem stringLoop_spec (c : Cursor) :
    c.stringLoop.2 = (.ok (), c.takeString) ∧
      ∀ request ∈ c.stringLoop.1,
        ∃ position < c.source.length, request = .character position := by
  generalize htext : c.remaining = text
  induction text generalizing c with
  | nil =>
      rw [stringLoop, if_pos ((atEnd_iff c).mpr htext), takeString, htext]
      exact ⟨rfl, by simp⟩
  | cons ch rest ih =>
      have hlt : c.current < c.source.length := (remaining_ne_nil_iff c).mp (by simp [htext])
      have hend : ¬ c.atEnd = true := by simp [atEnd_iff, htext]
      have hnext : (c.move 1).remaining = rest := remaining_move_one htext
      have hadvance := advance_of_remaining htext
      rw [stringLoop, if_neg hend]
      split
      · rename_i fault d hfault
        rw [hadvance] at hfault
        cases hfault
      · rename_i ch' d hok
        rw [hadvance] at hok
        cases hok
        -- a quote and a line feed end the string; behind any other character it goes on
        by_cases hquote : ch = '"'
        · subst hquote
          have hreach : stringReach ('"' :: rest) = (.string, 1) :=
            stringReach_closed (List.forall_mem_nil _) rest
          rw [takeString, htext, hreach]
          exact ⟨rfl, by simp [hlt]⟩
        · by_cases hfeed : ch = '\n'
          · subst hfeed
            have hreach : stringReach ('\n' :: rest) = (.unclosed, 1) :=
              stringReach_lineFeed (List.forall_mem_nil _) rest
            rw [takeString, htext, hreach]
            exact ⟨rfl, by simp [hlt]⟩
          · have hch : isStringChar ch = true := by simp [isStringChar, hquote, hfeed]
            obtain ⟨heffect, hrequests⟩ := ih _ hnext
            simp only [if_neg hquote, if_neg hfeed]
            refine ⟨heffect.trans (by rw [takeString_move htext hch]), ?_⟩
            exact List.forall_mem_cons.mpr ⟨⟨c.current, hlt, rfl⟩, hrequests⟩

/-! ### Whole lexemes -/

theorem restLoop_eq (c : Cursor) (ch : Char) : (c.restLoop ch).2 = c.takeRest ch := by
  unfold restLoop takeRest
  cases hsingle : single? ch with
  | some kind => rfl
  | none =>
      cases hoperator : operator? ch with
      | some kinds => rfl
      | none =>
          by_cases hslash : ch = '/'
          · simp only [if_pos hslash, passComment_eq]
          · simp only [if_neg hslash, apply_ite Prod.snd, (stringLoop_spec c).1, numberLoop_eq,
              wordLoop_eq]

/-- The loops take a lexeme as `takeLexeme` does. -/
theorem lexemeLoop_eq (c : Cursor) : c.lexemeLoop.2 = c.takeLexeme := by
  unfold lexemeLoop takeLexeme
  generalize c.advance = next
  obtain ⟨fault | ch, d⟩ := next
  · rfl
  · exact restLoop_eq d ch

/-- Behind its first character a lexeme asks for characters only if it is a string, and for one
value if it is a number. -/
theorem restLoop_requests (c : Cursor) (ch : Char) :
    ∀ request ∈ (c.restLoop ch).1,
      (∃ position < c.source.length, request = .character position) ∨
        isDigit ch = true ∧
          request = .value (c.move (numberReach c.remaining)).marked := by
  unfold restLoop
  split
  · simp
  · simp
  · by_cases hslash : ch = '/'
    · simp [hslash]
    by_cases hblank : isBlank ch = true
    · simp [hslash, hblank]
    by_cases hfeed : ch = '\n'
    · simp [hfeed, isBlank]
    by_cases hquote : ch = '"'
    · simp only [if_neg hslash, if_neg hblank, if_neg hfeed, if_pos hquote]
      intro request hrequest
      exact .inl ((stringLoop_spec c).2 request hrequest)
    by_cases hdigit : isDigit ch = true
    · simp only [if_neg hslash, if_neg hblank, if_neg hfeed, if_neg hquote, if_pos hdigit,
        numberLoop_eq]
      intro request hrequest
      exact .inr ⟨hdigit, List.mem_singleton.mp hrequest⟩
    · by_cases hword : isWordStart ch = true <;>
        simp [hslash, hblank, hfeed, hquote, hdigit, hword]

end Cursor
end LoxLexer

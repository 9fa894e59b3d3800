import LoxLexer.Lexeme
import LoxLexer.Text.Quoted

/-!
# The cursor

A cursor analyses a source in single steps.  It marks where the current lexeme starts, knows how
far it has read, counts lines, and collects tokens and errors.  The steps may be taken in any
order; those that cannot be taken fault and say why.

* `Cursor.peek`, `Cursor.accept`, `Cursor.advance` — look at and take single characters.
* `Cursor.emit`, `Cursor.complain` — record a token or an error.
* `Cursor.skipComment`, `Cursor.takeString`, `Cursor.takeNumber`, `Cursor.takeWord` — take the
  rest of a lexeme whose first character has been taken.
* `Cursor.takeLexeme` — take one lexeme.
* `Cursor.sweep`, `Cursor.finish` — take all that remain and close the tokens by the end of file.
-/

namespace LoxLexer

/-- Why a step could not be taken. -/
inductive Fault
  /-- no character is left to take -/
  | exhausted
  /-- the text of a number is not a numeral -/
  | notANumeral (text : Text)
deriving DecidableEq

/-- What a fault says. -/
def Fault.message : Fault → Text
  | exhausted => "string index out of range".toList
  | notANumeral text => "could not convert string to float: ".toList ++ text.quoted

/-- The state of an analysis in steps. -/
structure Cursor where
  source : Text
  /-- where the current lexeme starts -/
  start : Nat := 0
  /-- how far the source has been read -/
  current : Nat := 0
  line : Nat := 1
  tokens : List Token := []
  report : Report := {}
  /-- whether the end of file has been recorded -/
  finished : Bool := false
deriving DecidableEq

namespace Cursor

/-- The outcome of a step that may fault, and the state it leaves. -/
abbrev Outcome (α : Type) := Except Fault α × Cursor

/-- The cursor at the start of a source, with the errors found before. -/
def fresh (source : Text) (report : Report := {}) : Cursor := { source, report }

/-- What has not been read yet. -/
def remaining (c : Cursor) : Text := c.source.drop c.current

/-- Whether everything has been read. -/
def atEnd (c : Cursor) : Bool := c.source.length ≤ c.current

/-- The source from the mark to where it has been read. -/
def marked (c : Cursor) : Text := c.source.slice c.start c.current

/-- The cursor `n` characters further on. -/
def move (c : Cursor) (n : Nat) : Cursor := { c with current := c.current + n }

/-- The cursor with its mark where it stands. -/
def mark (c : Cursor) : Cursor := { c with start := c.current }

/-- The character `n` places ahead, or nothing beyond the end. -/
def peek (c : Cursor) (n : Nat) : Text := (c.source.drop (c.current + n)).take 1

/-- Moves on by one if what is ahead is `expected`. -/
def accept (c : Cursor) (expected : Text) : Bool × Cursor :=
  if c.peek 0 = expected then (true, c.move 1) else (false, c)

/-- Takes a character. -/
def advance (c : Cursor) : Outcome Char :=
  match c.remaining with
  | [] => (.error .exhausted, c)
  | ch :: _ => (.ok ch, c.move 1)

/-- Records the marked text as a token. -/
def emit (c : Cursor) (kind : TokenKind) (literal : Option Literal) : Cursor :=
  { c with tokens := c.tokens ++ [⟨kind, c.marked, literal, c.line⟩] }

/-- Records what is wrong with the current lexeme. -/
def complain (c : Cursor) (defect : Defect) : Cursor :=
  { c with report := c.report.add (defect.located c.line c.start) }

/-- Passes over the rest of a comment, up to the line feed. -/
def skipComment (c : Cursor) : Cursor := c.move (c.remaining.takeWhile isCommentChar).length

/-- Takes the rest of a string.  An unclosed one is reported on the line where it starts; the
line feed that ends it is read and counted. -/
def takeString (c : Cursor) : Cursor :=
  match stringReach c.remaining with
  | (.string, n) =>
    let c := c.move n
    c.emit .string (some (.text (c.source.slice (c.start + 1) (c.current - 1))))
  | (_, n) =>
    { (c.move n).complain .unterminated with
      line := c.line + Text.lineFeeds (c.remaining.take n) }

/-- Takes the rest of a number; the marked text must be a numeral. -/
def takeNumber (c : Cursor) : Outcome Unit :=
  let c := c.move (numberReach c.remaining)
  match Numeral.read? c.marked with
  | some value => (.ok (), c.emit .number (some (.number value)))
  | none => (.error (.notANumeral c.marked), c)

/-- Takes the rest of a word. -/
def takeWord (c : Cursor) : Cursor :=
  let c := c.move (c.remaining.takeWhile isWordChar).length
  c.emit (TokenKind.ofWord c.marked) none

/-- Takes the rest of the lexeme that starts with `ch`, which has been taken. -/
def takeRest (c : Cursor) (ch : Char) : Outcome Unit :=
  match single? ch, operator? ch with
  | some kind, _ => (.ok (), c.emit kind none)
  | none, some (alone, withEqual) =>
    let (found, c) := c.accept ['=']
    (.ok (), c.emit (if found then withEqual else alone) none)
  | none, none =>
    if ch = '/' then
      let (found, c) := c.accept ['/']
      (.ok (), if found then c.skipComment else c.emit .slash none)
    else if isBlank ch then (.ok (), c)
    else if ch = '\n' then (.ok (), { c with line := c.line + 1 })
    else if ch = '"' then (.ok (), c.takeString)
    else if isDigit ch then c.takeNumber
    else if isWordStart ch then (.ok (), c.takeWord)
    else (.ok (), c.complain (.unexpected ch))

/-- Takes one lexeme, from where the cursor stands.  The mark stays where it is. -/
def takeLexeme (c : Cursor) : Outcome Unit :=
  match c.advance with
  | (.error fault, c) => (.error fault, c)
  | (.ok ch, c) => c.takeRest ch

/-! ### Every lexeme moves the cursor on -/

/-- The cursor `d` reads the source of `c`, at least as far. -/
def IsBehind (c d : Cursor) : Prop := d.source = c.source ∧ c.current ≤ d.current

theorem isBehind_refl (c : Cursor) : c.IsBehind c := ⟨rfl, Nat.le_refl _⟩

theorem isBehind_move (c : Cursor) (n : Nat) : c.IsBehind (c.move n) :=
  ⟨rfl, Nat.le_add_right _ _⟩

theorem isBehind_accept (c : Cursor) (expected : Text) : c.IsBehind (c.accept expected).2 := by
  unfold accept
  split
  · exact c.isBehind_move 1
  · exact c.isBehind_refl

theorem isBehind_takeString (c : Cursor) : c.IsBehind c.takeString := by
  unfold takeString
  split <;> exact ⟨rfl, Nat.le_add_right _ _⟩

theorem isBehind_takeNumber (c : Cursor) : c.IsBehind c.takeNumber.2 := by
  unfold takeNumber
  dsimp only
  split <;> exact ⟨rfl, Nat.le_add_right _ _⟩

theorem isBehind_takeRest (c : Cursor) (ch : Char) : c.IsBehind (c.takeRest ch).2 := by
  unfold takeRest
  split
  · exact ⟨rfl, Nat.le_refl _⟩
  · exact c.isBehind_accept ['=']
  · split
    · dsimp only
      split
      · have h := c.isBehind_accept ['/']
        exact ⟨h.1, Nat.le_trans h.2 (Nat.le_add_right _ _)⟩
      · exact c.isBehind_accept ['/']
    · repeat' split
      · exact c.isBehind_refl
      · exact ⟨rfl, Nat.le_refl _⟩
      · exact c.isBehind_takeString
      · exact c.isBehind_takeNumber
      · exact ⟨rfl, Nat.le_add_right _ _⟩
      · exact ⟨rfl, Nat.le_refl _⟩

/-- Taking a lexeme keeps the source and moves the cursor on, unless everything has been read. -/
theorem current_lt_takeLexeme {c : Cursor} (h : c.current < c.source.length) :
    c.takeLexeme.2.source = c.source ∧ c.current < c.takeLexeme.2.current := by
  unfold takeLexeme advance remaining
  rw [List.drop_eq_getElem_cons h]
  exact ⟨(isBehind_takeRest _ _).1, (isBehind_takeRest (c.move 1) _).2⟩

/-- Takes every lexeme that remains, with the mark at its start. -/
def sweep (c : Cursor) : Outcome Unit :=
  if h : c.current < c.source.length then
    let next := c.mark.takeLexeme
    have : next.2.source = c.source ∧ c.current < next.2.current :=
      current_lt_takeLexeme (c := c.mark) h
    match next.1 with
    | .error fault => (.error fault, next.2)
    | .ok _ => next.2.sweep
  else (.ok (), c)
termination_by c.source.length - c.current
decreasing_by rw [this.1]; exact Nat.sub_lt_sub_left h this.2

/-- Takes every lexeme that remains and records the end of file, once. -/
def finish (c : Cursor) : Outcome (List Token) :=
  if c.finished then (.ok c.tokens, c)
  else match c.sweep with
    | (.error fault, d) => (.error fault, d)
    | (.ok _, d) =>
      let d := { d with tokens := d.tokens ++ [Token.endOfFile d.line], finished := true }
      (.ok d.tokens, d)

end Cursor
end LoxLexer

import LoxLexer.Proofs.Cursor.Loop
import LoxLexer.Proofs.Cursor.Position
import LoxLexer.Proofs.Grammar.Rule

/-!
# The cursor comes to an end

Nothing that a loop of the cursor asks for is missing, whatever the source: it takes characters
inside the source only, and asks for the values of numbers only.  Every round moves the cursor on
and leaves it inside the source or at its end, so there are no more rounds than characters.

* `Cursor.Request.IsMet` — what is asked for is there.
* `Cursor.lexemeLoop_isMet` — with something left, everything that a lexeme asks for is there.
* `Cursor.Run.length_le` — a run has no more rounds than characters are left.
* `Cursor.finish_total` — the cursor finishes on every source.
-/

namespace LoxLexer

/-- A lexeme of the shape of a number is a text of the number rule. -/
theorem Front.mem_number {text rest : Text} {lexeme : Lexeme} (h : Front text lexeme rest)
    (hshape : lexeme.shape = .number) : lexeme.text ∈ Grammar.Rule.number.language := by
  cases h with
  | @integer c digits rest hc hdigits hrest hpoint =>
      exact Grammar.mem_number.mpr ⟨c, digits, hc, hdigits, .inl rfl⟩
  | @fraction c d digits decimals rest hc hdigits hd hdecimals hrest =>
      exact Grammar.mem_number.mpr
        ⟨c, digits, hc, hdigits, .inr ⟨d, decimals, hd, hdecimals, rfl⟩⟩
  | _ => contradiction

namespace Cursor

/-- What is asked for is there: a position inside the source, or the text of a number, which has a
value. -/
def Request.IsMet (source : Text) : Request → Prop
  | character position => position < source.length
  | value text => text ∈ Grammar.Rule.number.language ∧ ∃ value, Numeral.read? text = some value

/-- The text of which a number asks the value is the lexeme at the front of what remains. -/
theorem marked_number {c : Cursor} {ch : Char} {tail rest : Text} {lexeme : Lexeme}
    (htext : c.remaining = ch :: tail) (h : Front (ch :: tail) lexeme rest)
    (hdigit : isDigit ch = true) :
    ((c.mark.move 1).move (numberReach tail)).marked = lexeme.text ∧ lexeme.shape = .number := by
  have hreach := h.reach_eq
  rw [reach_digit hdigit] at hreach
  obtain ⟨hshape, hlength⟩ := Prod.mk.inj hreach
  have hpos : 1 + (lexeme.text.length - 1) = lexeme.text.length := by
    have hne := List.length_pos_iff.mpr h.text_ne_nil
    omega
  refine ⟨?_, hshape.symm⟩
  rw [move_move, marked_mark_move, hlength, hpos, htext, h.text_append, List.take_left]

/-- With something left, everything that a lexeme asks for is there. -/
theorem lexemeLoop_isMet {c : Cursor} {lexeme : Lexeme} {rest : Text}
    (h : Front c.remaining lexeme rest) :
    ∀ request ∈ c.mark.lexemeLoop.1, request.IsMet c.source := by
  obtain ⟨ch, tail, htext⟩ : ∃ ch tail, c.remaining = ch :: tail := by
    refine List.exists_cons_of_ne_nil ?_
    rw [h.text_append]
    exact List.append_ne_nil_of_left_ne_nil h.text_ne_nil rest
  have hlt : c.current < c.source.length := (remaining_ne_nil_iff c).mp (by simp [htext])
  have hmark : c.mark.remaining = ch :: tail := htext
  have hnext := remaining_move_one hmark
  rw [lexemeLoop, advance_of_remaining hmark]
  refine List.forall_mem_cons.mpr ⟨hlt, ?_⟩
  intro request hrequest
  rcases restLoop_requests _ ch request hrequest with ⟨position, hposition, rfl⟩ | ⟨hdigit, rfl⟩
  · exact hposition
  · rw [htext] at h
    obtain ⟨hmarked, hshape⟩ := marked_number htext h hdigit
    rw [hnext, hmarked]
    exact ⟨h.mem_number hshape, Grammar.exists_value (h.mem_number hshape)⟩

/-- A round moves the cursor on. -/
theorem Round.current_lt (round : Round) : round.before.current < round.after.current := by
  obtain ⟨lexeme, rest, hfront, hafter⟩ := round.exists_front
  have hpos := List.length_pos_iff.mpr hfront.text_ne_nil
  rw [hafter, absorb_current]
  omega

/-- A run has no more rounds than characters are left. -/
theorem Run.length_le {c last : Cursor} {rounds : List Round} (h : Run c rounds last) :
    rounds.length ≤ c.source.length - c.current := by
  induction h with
  | leave h => exact Nat.zero_le _
  | next round h ih =>
      obtain ⟨lexeme, rest, -, hafter⟩ := round.exists_front
      have hsource : round.after.source = round.before.source := by rw [hafter, absorb_source]
      have hlt := round.current_lt
      have hunread := round.unread
      rw [hsource] at ih
      rw [List.length_cons]
      omega

/-- On every source a fresh cursor finishes without a fault.  It goes round at most once for each
character; every round moves it on and leaves it inside the source or at its end; and everything
that the loops of a round ask for is there. -/
theorem finish_total (source : Text) (report : Report) :
    ∃ rounds last, Run (fresh source report) rounds last ∧
      (fresh source report).finish = (.ok last.close.tokens, last.close) ∧
      rounds.length ≤ source.length ∧
      ∀ round ∈ rounds, round.before.current < round.after.current ∧
        round.after.current ≤ source.length ∧
        round.before.mark.lexemeLoop.2 = (.ok (), round.after) ∧
        ∀ request ∈ round.before.mark.lexemeLoop.1, request.IsMet source := by
  obtain ⟨rounds, last, hrun, -, hrounds⟩ := exists_exact_run source report
  refine ⟨rounds, last, hrun, hrun.finish_eq rfl, hrun.length_le, ?_⟩
  intro round hround
  obtain ⟨hbefore, hafter⟩ := hrounds round hround
  obtain ⟨lexeme, rest, hfront, -⟩ := round.exists_front
  have hle : round.after.current ≤ source.length := by
    have hle := hafter.aligned.current_le
    rwa [hafter.source_eq] at hle
  have hmet := lexemeLoop_isMet hfront
  rw [hbefore.source_eq] at hmet
  exact ⟨round.current_lt, hle, (lexemeLoop_eq _).trans round.taken, hmet⟩

end Cursor
end LoxLexer

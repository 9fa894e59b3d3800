import LoxLexer.Proofs.Grammar.LongestMatch
import LoxLexer.Proofs.Cursor.Position

/-!
# Tokenizations

A source is cut by the grammar into first pieces, each where the one before ends.  The rounds of the
cursor cut it at the same places, and record one token for each piece that has a rule of tokens.

* `Span` — a part of the source and its rule; `Span.token?` — the token that it is by its rule.
* `Tokenization` — the spans of a source from a position on, by the grammar.
* `Tokenization.unique` — the grammar leaves no choice.
* `finish_tokenization` — the cursor follows the grammar.
-/

namespace LoxLexer
namespace Grammar

/-! ### Spans -/

/-- A part of a source between two positions, with the rule that it matches if it matches one. -/
structure Span where
  rule? : Option Rule
  first : Nat
  last : Nat

namespace Span

def text (source : Text) (span : Span) : Text := source.slice span.first span.last

/-- The token that a span is by its rule, on the line where the span starts. -/
def token? (source : Text) (span : Span) : Option Token :=
  (span.rule?.bind (·.kind? (span.text source))).map fun kind =>
    ⟨kind, span.text source, span.rule?.bind (·.literal? (span.text source)),
      1 + Text.lineFeeds (source.take span.first)⟩

/-- What a span owes to its rule: its text matches, it is a token if the rule is one of tokens, and
its text is read as a number if the rule is that of numbers. -/
structure Sound (source : Text) (span : Span) (rule : Rule) : Prop where
  matched : span.text source ∈ rule.language
  token : rule.IsToken → ∃ kind, rule.kind? (span.text source) = some kind
  value : rule = .number → ∃ value, Numeral.read? (span.text source) = some value

end Span

/-- `Tokenization source first spans`: from the position `first` on, the grammar cuts the source
into these spans. -/
inductive Tokenization (source : Text) : Nat → List Span → Prop
  | atEnd : Tokenization source source.length []
  | next {first : Nat} {rule? : Option Rule} {piece : Text} {spans : List Span}
      (hfirst : First (source.drop first) rule? piece)
      (hrest : Tokenization source (first + piece.length) spans) :
      Tokenization source first (⟨rule?, first, first + piece.length⟩ :: spans)

theorem First.ne_nil {text piece : Text} {rule? : Option Rule} (h : First text rule? piece) :
    text ≠ [] := by
  rintro rfl
  cases h with
  | matched h =>
      obtain ⟨c, rest, rfl, -⟩ := Rule.exists_cons h.matched
      exact List.cons_ne_nil c rest (List.prefix_nil.mp h.front)

theorem First.longestMatch {text piece : Text} {rule : Rule} (h : First text (some rule) piece) :
    LongestMatch text rule piece := by
  cases h with
  | matched h => exact h

/-- The grammar cuts a source in one way only. -/
theorem Tokenization.unique {source : Text} {first : Nat} {spans spans' : List Span}
    (h : Tokenization source first spans) (h' : Tokenization source first spans') :
    spans = spans' := by
  induction h generalizing spans' with
  | atEnd =>
      cases h' with
      | atEnd => rfl
      | next hfirst' _ => exact absurd List.drop_length hfirst'.ne_nil
  | next hfirst hrest ih =>
      cases h' with
      | atEnd => exact absurd List.drop_length hfirst.ne_nil
      | next hfirst' hrest' =>
          obtain ⟨rfl, rfl⟩ := hfirst.unique hfirst'
          rw [ih hrest']

/-- A piece at the front of what follows a position is the text of its span. -/
theorem slice_of_prefix {source piece : Text} {first : Nat} (h : piece <+: source.drop first) :
    source.slice first (first + piece.length) = piece := by
  rw [Text.slice, List.drop_take, Nat.add_sub_cancel_left]
  exact (List.prefix_iff_eq_take.mp h).symm

/-- Every span with a rule matches it and counts as the rule says. -/
theorem Tokenization.sound {source : Text} {first : Nat} {spans : List Span}
    (h : Tokenization source first spans) :
    ∀ span ∈ spans, ∀ rule, span.rule? = some rule → span.Sound source rule := by
  induction h with
  | atEnd => simp
  | next hfirst hrest ih =>
      refine List.forall_mem_cons.mpr ⟨?_, ih⟩
      rintro rule rfl
      have hmem := hfirst.longestMatch.matched
      rw [← slice_of_prefix hfirst.longestMatch.front] at hmem
      refine ⟨hmem, Rule.exists_kind hmem, ?_⟩
      rintro rfl
      exact exists_value hmem

/-! ### The cursor follows the grammar -/

open Cursor (Round Run fresh Exact)

/-- The lexeme at the front of what remains is the next span, and records its token. -/
theorem span_of_front {source rest : Text} {report : Report} {c : Cursor} {lexeme : Lexeme}
    (hc : c.Exact source report) (hfront : Front c.remaining lexeme rest) :
    ∃ rule?, First (source.drop c.current) rule? lexeme.text ∧
      Span.token? source ⟨rule?, c.current, c.current + lexeme.text.length⟩ =
        lexeme.token? c.line := by
  obtain ⟨rule?, hfirst, hkind, hliteral⟩ := first_of_front hfront
  have hremaining : c.remaining = source.drop c.current := by
    rw [Cursor.remaining, hc.source_eq]
  have htext : Span.text source ⟨rule?, c.current, c.current + lexeme.text.length⟩ =
      lexeme.text := by
    refine slice_of_prefix ⟨rest, ?_⟩
    rw [← hremaining, hfront.text_append]
  have hline : (1 + Text.lineFeeds (source.take c.current) : Int) = c.line := by
    have hcount := hc.aligned.line_eq
    rw [hc.source_eq] at hcount
    omega
  refine ⟨rule?, hremaining ▸ hfirst, ?_⟩
  simp only [Span.token?, htext, hkind, hliteral, hline]
  rfl

/-- The rounds of a run cut what is left as the grammar does, and record the tokens of its
spans. -/
theorem exists_tokenization {source : Text} {report : Report} {c last : Cursor}
    {rounds : List Round} (h : Run c rounds last) (hc : c.Exact source report) :
    ∃ spans, Tokenization source c.current spans ∧
      rounds.map Round.span = spans.map (fun span => (span.first, span.last)) ∧
      rounds.flatMap Round.scanned = spans.filterMap (Span.token? source) := by
  induction h with
  | @leave c hend =>
      -- left at the end of the source and not behind it, for the cursor is aligned
      have hcurrent : c.current = source.length := by
        have hle := hc.aligned.current_le
        rw [hc.source_eq] at hle hend
        omega
      rw [hcurrent]
      exact ⟨[], .atEnd, rfl, rfl⟩
  | next round h ih =>
      obtain ⟨lexeme, rest, hfront, hafter⟩ := round.exists_front
      obtain ⟨rule?, hfirst, htoken⟩ := span_of_front hc hfront
      obtain ⟨spans, hspans, hplaces, htokens⟩ := ih (Exact.round round hc)
      have hcurrent : round.after.current = round.before.current + lexeme.text.length := by
        rw [hafter]
        rfl
      rw [hcurrent] at hspans
      refine ⟨_, .next hfirst hspans, ?_, ?_⟩
      · rw [List.map_cons, List.map_cons, hplaces, Round.span_of_after_eq hafter]
      · rw [List.flatMap_cons, htokens, Round.scanned_of_after_eq hafter, ← htoken,
          List.filterMap_cons]
        cases Span.token? source _ <;> rfl

/-- The rounds of the cursor on a source cut it exactly where the grammar does.  The tokens are
those of the spans, in their order, and then the end of file. -/
theorem finish_tokenization (source : Text) (report : Report) :
    ∃ spans rounds last,
      (∀ other, Tokenization source 0 other ↔ other = spans) ∧
      (∀ span ∈ spans, ∀ rule, span.rule? = some rule → span.Sound source rule) ∧
      Run (fresh source report) rounds last ∧
      rounds.map Round.span = spans.map (fun span => (span.first, span.last)) ∧
      (fresh source report).finish.1 = .ok (tokens source) ∧
      tokens source = spans.filterMap (Span.token? source) ++
        [Token.endOfFile (1 + Text.lineFeeds source)] := by
  obtain ⟨rounds, last, hrun, hlast, -⟩ := Cursor.exists_exact_run source report
  obtain ⟨spans, hspans, hplaces, htokens⟩ :=
    exists_tokenization hrun (Cursor.exact_fresh source report)
  obtain ⟨d, hfinish, hanalysis, -⟩ := Cursor.finish_fresh source report
  have hclose : d = last.close := by
    rw [hrun.finish_eq rfl] at hfinish
    exact (congrArg Prod.snd hfinish).symm
  refine ⟨spans, rounds, last, fun other => ⟨fun h => h.unique hspans, ?_⟩, hspans.sound, hrun,
    hplaces, ?_, ?_⟩
  · rintro rfl
    exact hspans
  · rw [hfinish, hanalysis]
    rfl
  · have hend := hlast.close_tokens hrun.atEnd
    rw [← htokens, tokens, ← hanalysis, hclose, hend, hrun.tokens_eq]
    rfl

end Grammar
end LoxLexer

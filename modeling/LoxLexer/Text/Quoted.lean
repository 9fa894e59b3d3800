import LoxLexer.Text.Unicode

/-!
# Quoted text

The notation of a text in diagnostics and tables: between quotes, on one line, with everything
that would not show escaped.

* `quoteFor` — apostrophes delimit, unless the text holds an apostrophe and no double quote.
* `escape` — a backslash before the delimiter and the backslash; `\n`, `\r`, `\t`; an
  unprintable character by its code point, in two, four or eight hexadecimal digits.
* `quoted` — the whole notation.
-/

namespace LoxLexer
namespace Text

/-- The delimiter that a text is quoted with. -/
def quoteFor (text : Text) : Char :=
  if '\'' ∈ text ∧ '"' ∉ text then '"' else '\''

/-- The notation of an unprintable character by its code point, as short as it allows. -/
def escapeCodePoint (n : Nat) : Text :=
  if n < 0x100 then '\\' :: 'x' :: hex 2 n
  else if n < 0x10000 then '\\' :: 'u' :: hex 4 n
  else '\\' :: 'U' :: hex 8 n

/-- The notation of one character inside the delimiter `quote`. -/
def escape (quote c : Char) : Text :=
  if c = quote ∨ c = '\\' then ['\\', c]
  else if c = '\n' then ['\\', 'n']
  else if c = '\r' then ['\\', 'r']
  else if c = '\t' then ['\\', 't']
  else if Unicode.isPrintable c then [c]
  else escapeCodePoint c.toNat

/-- A text between quotes, on one line, with everything that would not show escaped. -/
def quoted (text : Text) : Text :=
  let quote := quoteFor text
  quote :: text.flatMap (escape quote) ++ [quote]

end Text
end LoxLexer

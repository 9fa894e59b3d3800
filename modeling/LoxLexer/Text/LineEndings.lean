import LoxLexer.Text.Basic

/-!
# Line endings

Text files end their lines with a line feed, a carriage return, or both.  Within the program a
line ends with a line feed.
-/

namespace LoxLexer
namespace Text

/-- A text with a line feed for every line ending. -/
def unifyLineEndings : Text → Text
  | [] => []
  | '\r' :: '\n' :: rest => '\n' :: unifyLineEndings rest
  | c :: rest => (if c = '\r' then '\n' else c) :: unifyLineEndings rest

end Text
end LoxLexer

import LoxLexer.Cursor.Basic

/-!
# Calls to a cursor

The steps of a cursor as data, so that a sequence of them can be replayed.

* `Call`, `Reply` — a step that is asked for, and what it gives.
* `Cursor.perform` — one call; `Cursor.performAll` — a sequence of calls, with the state after
  each.
-/

namespace LoxLexer

/-- A step that a cursor can be asked for. -/
inductive Call
  | atEnd
  | advance
  | peek (distance : Nat)
  | accept (expected : Text)
  | mark
  | takeLexeme
  | skipComment
  | takeString
  | takeNumber
  | takeWord
  | emit (kind : TokenKind) (literal : Option Literal)
  | report (line : Int) (message : Text)
  | finish
deriving DecidableEq

/-- What a call gives. -/
inductive Reply
  | nothing
  | flag (value : Bool)
  | text (value : Text)
  | tokens (value : List Token)
  | fault (cause : Fault)
deriving DecidableEq

namespace Cursor

/-- The reply to a step that may fault. -/
def Outcome.reply {α : Type} (toReply : α → Reply) : Outcome α → Reply × Cursor
  | (.ok value, c) => (toReply value, c)
  | (.error fault, c) => (.fault fault, c)

/-- Performs one call. -/
def perform (c : Cursor) : Call → Reply × Cursor
  | .atEnd => (.flag c.atEnd, c)
  | .advance => Outcome.reply (fun ch => .text [ch]) c.advance
  | .peek distance => (.text (c.peek distance), c)
  | .accept expected => (.flag (c.accept expected).1, (c.accept expected).2)
  | .mark => (.nothing, c.mark)
  | .takeLexeme => Outcome.reply (fun _ => .nothing) c.takeLexeme
  | .skipComment => (.nothing, c.skipComment)
  | .takeString => (.nothing, c.takeString)
  | .takeNumber => Outcome.reply (fun _ => .nothing) c.takeNumber
  | .takeWord => (.nothing, c.takeWord)
  | .emit kind literal => (.nothing, c.emit kind literal)
  | .report line message =>
    let error := Report.unplaced line message
    (.text error.announcement, { c with report := c.report.add error })
  | .finish => Outcome.reply .tokens c.finish

/-- Performs calls in order; gives the reply to each and the state after it. -/
def performAll (c : Cursor) : List Call → List (Reply × Cursor)
  | [] => []
  | call :: calls => c.perform call :: (c.perform call).2.performAll calls

/-- The state after calls in order. -/
def after (c : Cursor) (calls : List Call) : Cursor :=
  calls.foldl (fun c call => (c.perform call).2) c

end Cursor
end LoxLexer

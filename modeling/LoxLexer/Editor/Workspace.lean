import LoxLexer.Editor.Address
import LoxLexer.Editor.Diagnostic
import LoxLexer.Lexing
import LoxLexer.Text.Quoted

/-!
# The workspace of an editor

An editor tells which documents are open and what they hold.  After each event the diagnostics
of the document are published anew.  A sequence of events breaks off at the first after which
nothing can be published.

* `Workspace` — the current text of each document.
* `EventError` — why nothing is published after an event.
* `Workspace.handle` — one event: the text is stored, then read back and analysed.
* `Workspace.handleAll` — a sequence of events, and what is published after each.
-/

namespace LoxLexer
namespace Editor

/-- The current text of each document. -/
structure Workspace where
  documents : List (Text × Text) := []

/-- What an editor reports about a document: that it was opened, or that it has a new text. -/
inductive Event
  | opened (uri text : Text)
  | changed (uri text : Text)
deriving DecidableEq

/-- The address of the document that an event is about. -/
def Event.uri : Event → Text
  | opened uri _ => uri
  | changed uri _ => uri

/-- The text that a document has after an event. -/
def Event.text : Event → Text
  | opened _ text => text
  | changed _ text => text

/-- The diagnostics of a document, as they are published. -/
structure Notification where
  uri : Text
  diagnostics : List Diagnostic
deriving DecidableEq

/-- Why nothing is published after an event. -/
inductive EventError
  /-- the document has changed but was never opened -/
  | notOpen (document : Text)
  /-- the address may not name a document -/
  | badAddress (error : AddressError)
  /-- an error lies at no position -/
  | misplaced (error : PositionError)
deriving DecidableEq

/-- What is said when nothing is published. -/
def EventError.message : EventError → Text
  | notOpen document => document.quoted
  | badAddress error => error.message
  | misplaced error => error.message

/-- The diagnostics of a text: one for each error, in the order of finding. -/
def diagnose (source : Text) : Except PositionError (List Diagnostic) :=
  (analyse source).report.errors.mapM (Diagnostic.ofError source)

namespace Workspace

/-- The text of the document at an address, if it was opened. -/
def text? (workspace : Workspace) (uri : Text) : Option Text :=
  workspace.documents.lookup (Address.document uri)

/-- The workspace with a new text for the document at an address. -/
def put (workspace : Workspace) (uri text : Text) : Workspace :=
  let document := Address.document uri
  ⟨(document, text) :: workspace.documents.filter (·.1 ≠ document)⟩

/-- The workspace with the text that an event brings.  Only an open document can change. -/
def store (workspace : Workspace) : Event → Except EventError Workspace
  | .opened uri text =>
    match Address.check uri with
    | .ok _ => .ok (workspace.put uri text)
    | .error error => .error (.badAddress error)
  | .changed uri text =>
    match workspace.text? uri with
    | some _ => .ok (workspace.put uri text)
    | none => .error (.notOpen (Address.document uri))

/-- What is published about a document as it stands. -/
def validate (workspace : Workspace) (uri : Text) : Except EventError Notification :=
  match workspace.text? uri with
  | none => .error (.notOpen (Address.document uri))
  | some text =>
    match diagnose text with
    | .ok diagnostics => .ok ⟨uri, diagnostics⟩
    | .error error => .error (.misplaced error)

/-- The workspace after an event, and what is published then. -/
def handle (workspace : Workspace) (event : Event) :
    Except EventError (Workspace × List Notification) := do
  let next ← workspace.store event
  let notification ← next.validate event.uri
  return (next, [notification])

/-- What is published after each of a sequence of events. -/
def handleAll (workspace : Workspace) : List Event → Except EventError (List (List Notification))
  | [] => .ok []
  | event :: events => do
    let step ← workspace.handle event
    let later ← step.1.handleAll events
    return step.2 :: later

end Workspace
end Editor
end LoxLexer

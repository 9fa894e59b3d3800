import LoxLexer.Text.Basic

/-!
# Paths

A path is a sequence of names behind a root.  Of its notation only the names count: repeated and
trailing slashes and the name `.` are dropped, while `..` is kept, since the name before it may
be a link.

* `Path.ofText`, `Path.toText` — reading and writing paths.
* `Path.parent`, `Path.child` — the way up and down.
-/

namespace LoxLexer

/-- Where a path starts.  Exactly two slashes are a root of their own. -/
inductive Path.Root
  | relative
  | slash
  | twoSlashes
deriving DecidableEq, Repr

/-- A path in the file tree. -/
structure Path where
  root : Path.Root
  names : List Text
deriving DecidableEq

namespace Path

/-- The root that a number of leading slashes stands for. -/
def Root.ofSlashes : Nat → Root
  | 0 => .relative
  | 2 => .twoSlashes
  | _ => .slash

/-- The notation of a root. -/
def Root.toText : Root → Text
  | relative => []
  | slash => ['/']
  | twoSlashes => ['/', '/']

/-- The path that a text denotes. -/
def ofText (text : Text) : Path where
  root := Root.ofSlashes (text.takeWhile (· = '/')).length
  names := (text.split '/').filter fun name => name ≠ [] ∧ name ≠ ['.']

/-- The notation of a path. -/
def toText (path : Path) : Text :=
  if path.root = .relative ∧ path.names = [] then ['.']
  else path.root.toText ++ Text.join ['/'] path.names

/-- The path without its last name. -/
def parent (path : Path) : Path := { path with names := path.names.dropLast }

/-- The path with one more name. -/
def child (path : Path) (name : Text) : Path := { path with names := path.names ++ [name] }

end Path
end LoxLexer

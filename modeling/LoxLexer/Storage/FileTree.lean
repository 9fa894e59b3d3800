import LoxLexer.Storage.Path
import LoxLexer.Text.Quoted
import LoxLexer.Text.Utf8

/-!
# The file tree

The files and directories that a program can reach, and how a path is followed to them.

* `FileTree` — the entries of the tree by location, and the directory that relative paths start
  from.
* `FileTree.follow` — the location that a path leads to.
* `FileTree.isFile`, `FileTree.read`, `FileTree.write` — the three things that the program does
  with a path; each may be refused.
-/

namespace LoxLexer

/-- Why a path does not give access to a file. -/
inductive Obstacle
  | notFound
  | notADirectory
  | isADirectory
  | nameTooLong
deriving DecidableEq, Repr

/-- The number by which an operating system knows an obstacle. -/
def Obstacle.number : Obstacle → Nat
  | notFound => 2
  | notADirectory => 20
  | isADirectory => 21
  | nameTooLong => 36

/-- An obstacle in words. -/
def Obstacle.describe : Obstacle → Text
  | notFound => "No such file or directory".toList
  | notADirectory => "Not a directory".toList
  | isADirectory => "Is a directory".toList
  | nameTooLong => "File name too long".toList

/-- Why access to a path was refused. -/
inductive AccessError
  | obstructed (obstacle : Obstacle) (path : Text)
  /-- the path holds a null character, which no file name can -/
  | nullCharacter
deriving DecidableEq

/-- What a refusal says. -/
def AccessError.message : AccessError → Text
  | obstructed obstacle path =>
    "[Errno ".toList ++ Text.ofNat obstacle.number ++ "] ".toList ++ obstacle.describe ++
      ": ".toList ++ path.quoted
  | nullCharacter => "embedded null byte".toList

/-- The names that lead from the top of the tree to an entry. -/
abbrev Location := List Text

/-- What stands at a location. -/
inductive Entry
  | file (content : Bytes)
  | directory
  /-- a device that is always empty and drops what is written to it -/
  | nullDevice
deriving DecidableEq

/-- The files and directories below the top of a tree. -/
structure FileTree where
  entries : List (Location × Entry)
  workingDirectory : Location

namespace FileTree

/-- What stands at a location.  The top is a directory. -/
def entry? (tree : FileTree) (location : Location) : Option Entry :=
  if location = [] then some .directory else tree.entries.lookup location

/-- The most bytes that a name may have. -/
def longestName : Nat := 255

/-- The most bytes that a path may have. -/
def longestPath : Nat := 4095

/-- The location that names lead to from a location.  All but the last must exist. -/
def walk (tree : FileTree) (here : Location) : List Text → Except Obstacle Location
  | [] => .ok here
  | name :: names =>
    match tree.entry? here with
    | none => .error .notFound
    | some (.file _) => .error .notADirectory
    | some .nullDevice => .error .notADirectory
    | some .directory =>
      if longestName < (Utf8.encode name).length then .error .nameTooLong
      else if name = "..".toList then tree.walk here.dropLast names
      else tree.walk (here ++ [name]) names

/-- The location that a path leads to; nothing need stand there. -/
def follow (tree : FileTree) (path : Path) : Except AccessError Location :=
  let text := path.toText
  let start := if path.root = .relative then tree.workingDirectory else []
  if '\x00' ∈ text then .error .nullCharacter
  else if longestPath < (Utf8.encode text).length then
    .error (.obstructed .nameTooLong text)
  else (tree.walk start path.names).mapError (.obstructed · text)

/-- Whether a path leads to a file.  Only a name that is too long is an error. -/
def isFile (tree : FileTree) (path : Path) : Except AccessError Bool :=
  match tree.follow path with
  | .ok location =>
    match tree.entry? location with
    | some (.file _) => .ok true
    | _ => .ok false
  | .error (.obstructed .nameTooLong text) => .error (.obstructed .nameTooLong text)
  | .error _ => .ok false

/-- The content of the file at a path. -/
def read (tree : FileTree) (path : Path) : Except AccessError Bytes :=
  match tree.follow path with
  | .error error => .error error
  | .ok location =>
    match tree.entry? location with
    | some (.file content) => .ok content
    | some .nullDevice => .ok []
    | some .directory => .error (.obstructed .isADirectory path.toText)
    | none => .error (.obstructed .notFound path.toText)

/-- The tree with a file at a location. -/
def put (tree : FileTree) (location : Location) (content : Bytes) : FileTree :=
  { tree with
    entries := tree.entries.filter (·.1 ≠ location) ++ [(location, .file content)] }

/-- The tree after a file was written at a path, whether or not it existed. -/
def write (tree : FileTree) (path : Path) (content : Bytes) : Except AccessError FileTree :=
  match tree.follow path with
  | .error error => .error error
  | .ok location =>
    match tree.entry? location with
    | some .directory => .error (.obstructed .isADirectory path.toText)
    | some .nullDevice => .ok tree
    | _ => .ok (tree.put location content)

/-- The files of `after` that `before` does not hold as they are. -/
def changes (before after : FileTree) : List (Location × Bytes) :=
  after.entries.filterMap fun (location, entry) =>
    match entry with
    | .directory => none
    | .nullDevice => none
    | .file content =>
      if before.entry? location = some (.file content) then none else some (location, content)

/-- The tree with a directory at a location, and with all those above it. -/
def withDirectory (tree : FileTree) (location : Location) : FileTree :=
  (List.range (location.length + 1)).foldl
    (fun tree depth =>
      if (tree.entry? (location.take depth)).isSome then tree
      else { tree with entries := tree.entries ++ [(location.take depth, .directory)] })
    tree

/-- The tree with a file at a location, and with all the directories above it. -/
def withFile (tree : FileTree) (location : Location) (content : Bytes) : FileTree :=
  (tree.withDirectory location.dropLast).put location content

end FileTree
end LoxLexer

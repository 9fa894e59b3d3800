import LoxLexer.Text.Quoted
import LoxLexer.Text.Unicode

/-!
# Command lines

A command line is a sequence of arguments.  Some are options, which start with a dash; the others
are values of options or stand for themselves.

* `Flag` — an option of a command: its names, and whether it takes a value.
* `Item` — an argument and what it looks like.
* `classify` — the arguments of a command line as items.  After the first `--` no argument is an
  option.
* `Event` — what a stretch of the command line means.
* `events` — the meaning of a command line from left to right, up to its first mistake.
-/

namespace LoxLexer
namespace Command

/-- An option of a command.  A name is a dash and a letter, or two dashes and a word. -/
structure Flag (α : Type) where
  names : List Text
  takesValue : Bool
  meaning : α

namespace Flag

/-- How messages refer to an option. -/
def label {α : Type} (flag : Flag α) : Text := Text.join ['/'] flag.names

/-- The option of a name. -/
def find? {α : Type} (flags : List (Flag α)) (name : Text) : Option (Flag α) :=
  flags.find? (·.names.contains name)

end Flag

/-- An occurrence of an option: the name by which it is called, and what is joined to the name. -/
structure Occurrence (α : Type) where
  flag : Flag α
  name : Text
  joined : Option Text

/-- What an argument looks like. -/
inductive Look (α : Type)
  | option (occurrence : Occurrence α)
  /-- like an option, but of no known name -/
  | unknown
  | plain
  /-- the `--` that ends the options -/
  | separator

/-- An argument and what it looks like. -/
structure Item (α : Type) where
  text : Text
  look : Look α

/-- Whether an item looks like an option. -/
def Item.isOption {α : Type} (item : Item α) : Bool :=
  match item.look with
  | .option _ | .unknown => true
  | _ => false

/-- Whether an item is plain. -/
def Item.isPlain {α : Type} (item : Item α) : Bool :=
  match item.look with
  | .plain => true
  | _ => false

/-- Whether an item ends the options. -/
def Item.isSeparator {α : Type} (item : Item α) : Bool :=
  match item.look with
  | .separator => true
  | _ => false

/-! ### Recognising options -/

/-- The parts of a text before and after its first equals sign, if it has one. -/
def splitEquals (text : Text) : Text × Option Text :=
  match text.dropWhile (· ≠ '=') with
  | _ :: after => (text.takeWhile (· ≠ '='), some after)
  | [] => (text, none)

/-- A decimal digit of any script. -/
def isAnyDigit (c : Char) : Bool := (Unicode.digitValue? c).isSome

/-- A text without the line feed that it may end with. -/
def dropFinalLineFeed (text : Text) : Text :=
  if text.getLast? = some '\n' then text.dropLast else text

/-- Whether a text looks like a negative number: a minus sign and digits, with at most one point,
before the last digit. -/
def looksNegative (text : Text) : Bool :=
  match dropFinalLineFeed text with
  | '-' :: rest =>
    match rest.dropWhile isAnyDigit with
    | [] => rest ≠ []
    | '.' :: more => more ≠ [] && more.all isAnyDigit
    | _ => false
  | _ => false

/-- The options that an argument may stand for: a long name may be cut short, and a value may be
joined to a short one. -/
def candidates {α : Type} (flags : List (Flag α)) (text : Text) : List (Occurrence α) :=
  if ['-', '-'].isPrefixOf text then
    let (start, joined) := splitEquals text
    flags.flatMap fun flag =>
      (flag.names.filter start.isPrefixOf).map fun name => ⟨flag, name, joined⟩
  else
    flags.flatMap fun flag =>
      (flag.names.filter (· = text.take 2)).map fun name => ⟨flag, name, some (text.drop 2)⟩

/-- What an argument looks like; if it could stand for several options, their names. -/
def look {α : Type} (flags : List (Flag α)) (text : Text) : Except (List Text) (Look α) :=
  if text.head? ≠ some '-' then .ok .plain
  else match Flag.find? flags text with
    | some flag => .ok (.option ⟨flag, text, none⟩)
    | none =>
      if text.length = 1 then .ok .plain
      else match splitEquals text with
        | (start, some joined) =>
          match Flag.find? flags start with
          | some flag => .ok (.option ⟨flag, start, some joined⟩)
          | none => guess
        | (_, none) => guess
where
  /-- What an argument looks like that holds no full name of an option. -/
  guess : Except (List Text) (Look α) :=
    match candidates flags text with
    | [occurrence] => .ok (.option occurrence)
    | [] => .ok (if looksNegative text ∨ ' ' ∈ text then .plain else .unknown)
    | several => .error (several.map Occurrence.name)

/-- What a command line says about an argument that could stand for several options. -/
def ambiguous (text : Text) (names : List Text) : Text :=
  "ambiguous option: ".toList ++ text ++ " could match ".toList ++ Text.join ", ".toList names

/-- The arguments of a command line as items, or what is wrong with the first that is
ambiguous. -/
def classify {α : Type} (flags : List (Flag α)) : List Text → Except Text (List (Item α))
  | [] => .ok []
  | text :: rest =>
    if text = "--".toList then
      .ok (⟨text, .separator⟩ :: rest.map fun text => ⟨text, .plain⟩)
    else match look flags text with
      | .error names => .error (ambiguous text names)
      | .ok look => (classify flags rest).map (⟨text, look⟩ :: ·)

/-! ### Reading a command line -/

/-- What a stretch of a command line means. -/
inductive Event (α : Type)
  /-- an option with its values -/
  | set (flag : Flag α) (values : List Text)
  /-- the arguments that the command itself takes -/
  | operand (arguments : List Text)
  /-- an argument that nothing takes -/
  | extra (text : Text)
  /-- a mistake -/
  | mistake (message : Text)

/-- Which arguments a command itself takes: one, or all from the first on. -/
inductive Operands
  | one
  | remaining
deriving DecidableEq, Repr

/-- A message about an argument. -/
def aboutArgument (label message : Text) : Text :=
  "argument ".toList ++ label ++ ": ".toList ++ message

/-- What is said when an option without values is given one. -/
def ignoredValue {α : Type} (flag : Flag α) (joined : Text) : Text :=
  aboutArgument flag.label ("ignored explicit argument ".toList ++ joined.quoted)

/-- What is said when an option lacks its value. -/
def missingValue {α : Type} (flag : Flag α) : Text :=
  aboutArgument flag.label "expected one argument".toList

/-- The meaning of an option that nothing is joined to, and how many of the items behind it are
its values. -/
def setApart {α : Type} (flag : Flag α) (behind : List (Item α)) :
    Except Text (List (Event α) × Nat) :=
  if flag.takesValue then
    match behind with
    | item :: _ => if item.isPlain then .ok ([.set flag [item.text]], 1) else .error (missingValue flag)
    | [] => .error (missingValue flag)
  else .ok ([.set flag []], 0)

/-- The meaning of an option that `joined` is joined to.  Behind the name of a short option
without value further short options may stand. -/
def setJoined {α : Type} (flags : List (Flag α)) (flag : Flag α) (isShort : Bool)
    (behind : List (Item α)) : Text → Except Text (List (Event α) × Nat)
  | [] => if flag.takesValue then .ok ([.set flag [[]]], 0) else .error (ignoredValue flag [])
  | c :: rest =>
    if flag.takesValue then .ok ([.set flag [c :: rest]], 0)
    else if isShort then
      match Flag.find? flags ['-', c] with
      | none => .error (ignoredValue flag (c :: rest))
      | some next =>
        (if rest = [] then setApart next behind else setJoined flags next true behind rest).map
          fun (found, count) => (.set flag [] :: found, count)
    else .error (ignoredValue flag (c :: rest))

/-- The meaning of an occurrence of an option, and how many of the items behind it are its
values. -/
def setOption {α : Type} (flags : List (Flag α)) (occurrence : Occurrence α)
    (behind : List (Item α)) : Except Text (List (Event α) × Nat) :=
  match occurrence.joined with
  | none => setApart occurrence.flag behind
  | some joined =>
    setJoined flags occurrence.flag (occurrence.name.take 2 ≠ "--".toList) behind joined

/-- How many items at the front are arguments that the command itself takes. -/
def operandCount {α : Type} (operands : Operands) (items : List (Item α)) : Nat :=
  let before := (items.takeWhile Item.isSeparator).length
  match items.drop before with
  | [] => 0
  | item :: rest =>
    if item.isPlain then
      match operands with
      | .one => before + 1 + (rest.takeWhile Item.isSeparator).length
      | .remaining => items.length
    else 0

/-- The event of the items at the front that the command itself takes. -/
def operandEvent {α : Type} (count : Nat) (items : List (Item α)) : Event α :=
  .operand ((items.take count).map Item.text)

/-- The meaning of items, from left to right; `open?` tells which arguments the command itself
still takes.  It ends with the first mistake. -/
def events {α : Type} (flags : List (Flag α)) (open? : Option Operands) :
    List (Item α) → List (Event α)
  | [] => []
  | item :: rest =>
    match item.look with
    | .unknown => .extra item.text :: events flags open? rest
    | .option occurrence =>
      match setOption flags occurrence rest with
      | .error message => [.mistake message]
      | .ok (found, count) => found ++ events flags open? (rest.drop count)
    | _ =>
      match open?.map fun operands => operandCount operands (item :: rest) with
      | some (count + 1) =>
        operandEvent (count + 1) (item :: rest) :: events flags none (rest.drop count)
      | _ => .extra item.text :: events flags open? rest
termination_by items => items.length
decreasing_by all_goals (simp only [List.length_cons, List.length_drop]; omega)

end Command
end LoxLexer

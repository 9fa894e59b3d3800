import LoxLexer.Editor.Host
import LoxLexer.Text.Percent

/-!
# Addresses of documents

An editor names a document by an address such as `file:///a.lox` or `untitled:1`.  Two addresses
that differ only in what is percent-encoded name the same document.  Some addresses are refused,
all for their authority: the part between two slashes and the path.

* `Address.document` — the document that an address names.
* `Address.authority` — the authority of an address.
* `Address.check` — whether a document may be opened at an address.
-/

namespace LoxLexer
namespace Editor

/-- Why a document may not be opened at an address. -/
inductive AddressError
  /-- the brackets in the authority do not enclose a host -/
  | misplacedBracket
  | badHost (error : HostError)
  /-- the authority has characters that are compatible with delimiters -/
  | disguisedDelimiter (authority : Text)
deriving DecidableEq

/-- What is said when a document may not be opened. -/
def AddressError.message : AddressError → Text
  | misplacedBracket => "Invalid IPv6 URL".toList
  | badHost error => error.message
  | disguisedDelimiter authority =>
    "netloc '".toList ++ authority ++
      "' contains invalid characters under NFKC normalization".toList

namespace Address

/-- The document that an address names: the address with its escapes resolved. -/
def document (address : Text) : Text := Percent.decode address

/-- Spaces and control characters, which are left out in front of an address. -/
def isBlank (c : Char) : Bool := c ≤ ' '

/-- Tabs and line ends, which are left out of an address. -/
def isIgnored (c : Char) : Bool := c = '\t' || c = '\r' || c = '\n'

/-- An address without what is left out of it. -/
def tidy (address : Text) : Text := (address.dropWhile isBlank).filter (!isIgnored ·)

/-- Whether a text has the form of a scheme: an ASCII letter, then letters, digits, `+`, `-` and
`.`. -/
def isScheme : Text → Bool
  | [] => false
  | c :: rest => c.isAlpha && rest.all fun c => c.isAlphanum || c = '+' || c = '-' || c = '.'

/-- What follows the scheme of an address; all of it if it has none. -/
def afterScheme (address : Text) : Text :=
  let scheme := address.takeWhile (· ≠ ':')
  if isScheme scheme && scheme.length < address.length then address.drop (scheme.length + 1)
  else address

/-- What ends the authority. -/
def isDelimiter (c : Char) : Bool := c = '/' || c = '?' || c = '#'

/-- The authority of an address; empty if it has none. -/
def authority (address : Text) : Text :=
  match afterScheme (tidy address) with
  | '/' :: '/' :: rest => rest.takeWhile (!isDelimiter ·)
  | _ => []

/-- What stands behind the last `@`, which ends the name of a user; all if there is none. -/
def withoutUser (authority : Text) : Text :=
  (authority.reverse.takeWhile (· ≠ '@')).reverse

/-- The host that brackets in an authority enclose.  Nothing stands before it, and only a port
behind it.  Brackets that belong to the name of a user enclose nothing. -/
def bracketedHost (authority : Text) : Except AddressError Text :=
  match withoutUser authority with
  | '[' :: rest =>
    let host := rest.takeWhile (· ≠ ']')
    match rest.drop (host.length + 1) with
    | [] => .ok host
    | ':' :: _ => .ok host
    | _ => .error .misplacedBracket
  | rest =>
    if rest.contains '[' then .error .misplacedBracket
    else .ok (rest.takeWhile (· ≠ ':'))

/-- Whether the brackets in an authority, if there are any, come in pairs and enclose a host. -/
def checkBrackets (authority : Text) : Except AddressError Unit :=
  match authority.contains '[', authority.contains ']' with
  | false, false => .ok ()
  | true, true => do
    let host ← bracketedHost authority
    (Host.check host).mapError .badHost
  | _, _ => .error .misplacedBracket

/-- Whether a document may be opened at an address. -/
def check (address : Text) : Except AddressError Unit := do
  let authority := authority address
  checkBrackets authority
  if authority.any Unicode.isDisguisedDelimiter then .error (.disguisedDelimiter authority)

end Address
end Editor
end LoxLexer

import LoxLexer.Text.Quoted

/-!
# Hosts in brackets

In an address a host between brackets is an IPv6 address, or one of a version yet to come.

* `Host.isIpv4` — four numbers below 256 with dots between them.
* `Host.isIpv6` — eight groups of hexadecimal digits with colons between them; one run of zero
  groups may be left out, the last two may be written as in IPv4, and a zone may follow.
* `Host.check` — whether a text may stand between the brackets.
-/

namespace LoxLexer
namespace Editor

/-- Why a text may not stand between brackets. -/
inductive HostError
  /-- it starts like an address of a version yet to come -/
  | badFuture
  | ipv4
  | noAddress (text : Text)
deriving DecidableEq

/-- What is said about a text that may not stand between brackets. -/
def HostError.message : HostError → Text
  | badFuture => "IPvFuture address is invalid".toList
  | ipv4 => "An IPv4 address cannot be in brackets".toList
  | noAddress text => text.quoted ++ " does not appear to be an IPv4 or IPv6 address".toList

namespace Host

/-- A decimal number below 256 without zeros in front. -/
def isOctet (text : Text) : Bool :=
  text.all Char.isDigit && text ≠ [] && text.length ≤ 3 && (text = ['0'] || text.head? ≠ some '0') &&
    Text.valueInBase 10 text < 256

/-- Whether a text is an IPv4 address. -/
def isIpv4 (text : Text) : Bool :=
  let parts := text.split '.'
  parts.length = 4 && parts.all isOctet

/-- One to four hexadecimal digits. -/
def isGroup (text : Text) : Bool :=
  text.all Text.isHexDigit && text ≠ [] && text.length ≤ 4

/-- How many groups some parts write, if each writes any.  The last may be an IPv4 address, which
is two groups, if it ends the whole address. -/
def groupCount? (isEnd : Bool) : List Text → Option Nat
  | [] => some 0
  | part :: parts =>
    if isGroup part then (groupCount? isEnd parts).map (· + 1)
    else if isEnd && parts.isEmpty && isIpv4 part then some 2
    else none

/-- How many groups a text writes that has no gap; none if it is empty. -/
def width? (isEnd : Bool) (text : Text) : Option Nat :=
  if text = [] then some 0 else groupCount? isEnd (text.split ':')

/-- What stands before and behind the first two colons in a row. -/
def splitGap? : Text → Option (Text × Text)
  | ':' :: ':' :: rest => some ([], rest)
  | c :: rest => (splitGap? rest).map fun (before, behind) => (c :: before, behind)
  | [] => none

/-- Whether a text writes eight groups, a gap standing for at least one. -/
def hasEightGroups (text : Text) : Bool :=
  match splitGap? text with
  | none => width? true text = some 8
  | some (before, behind) =>
    match width? false before, width? true behind with
    | some high, some low => high + low < 8
    | _, _ => false

/-- Whether a text is an IPv6 address.  A zone follows a percent sign and holds no other. -/
def isIpv6 (text : Text) : Bool :=
  match text.split '%' with
  | [address] => hasEightGroups address
  | [address, zone] => hasEightGroups address && zone ≠ []
  | _ => false

/-- Whether what follows a `v` is a version in hexadecimal digits, a dot, and something more. -/
def isFuture (text : Text) : Bool :=
  let version := text.takeWhile Text.isHexDigit
  match text.drop version.length with
  | '.' :: _ :: _ => version ≠ []
  | _ => false

/-- Whether a text may stand between brackets. -/
def check (text : Text) : Except HostError Unit :=
  match text with
  | 'v' :: rest => if isFuture rest then .ok () else .error .badFuture
  | _ =>
    if isIpv4 text then .error .ipv4
    else if isIpv6 text then .ok ()
    else .error (.noAddress text)

end Host
end Editor
end LoxLexer

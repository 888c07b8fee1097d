import ChainPoll.Text.Numeral
import ChainPoll.Url.Address
import ChainPoll.Url.Label

/-!
# Authorities

The part of a URL that names a host: optional user name and password, the host, and an optional
port.
-/

namespace ChainPoll
namespace Url

/-- The parts of an authority.  An empty user name or host counts as none. -/
structure Authority where
  user : Option (List Char)
  password : Option (List Char)
  host : Option (List Char)
  port : Option Nat
deriving DecidableEq, Repr

/-- Splits a text at the first occurrence of a character; the rest lacks it. -/
def splitFirst (sep : Char) (cs : List Char) : List Char × Option (List Char) :=
  match cs.dropWhile (· ≠ sep) with
  | [] => (cs, none)
  | _ :: rest => (cs.takeWhile (· ≠ sep), some rest)

/-- Splits a text at the last occurrence of a character. -/
def splitLast (sep : Char) (cs : List Char) : Option (List Char) × List Char :=
  match splitFirst sep cs.reverse with
  | (_, none) => (none, cs)
  | (back, some front) => (some front.reverse, back.reverse)

/-- A text, or nothing if it is empty. -/
def nonempty? (cs : List Char) : Option (List Char) :=
  if cs = [] then none else some cs

/-- Splits host and port text; brackets around the host are dropped with all outside them. -/
def splitHost (cs : List Char) : List Char × List Char :=
  match splitFirst '[' cs with
  | (_, some rest) =>
    let (host, after) := splitFirst ']' rest
    (host, ((splitFirst ':' (after.getD [])).2).getD [])
  | (_, none) =>
    let (host, port) := splitFirst ':' cs
    (host, port.getD [])

/-- Reads a port; an empty text is no port. -/
def port? (cs : List Char) : Except Flaw (Option Nat) :=
  if cs = [] then .ok none
  else match Text.integer? cs with
    | none => .error .portText
    | some n => if 0 ≤ n ∧ n ≤ 65535 then .ok (some n.toNat) else .error .portRange

/-- Splits an authority into its parts. -/
def Authority.ofText? (cs : List Char) : Except Flaw Authority := do
  let (info, hostPort) := splitLast '@' cs
  let (user, password) :=
    match info with
    | none => (none, none)
    | some info => splitFirst ':' info |>.map nonempty? id
  let (host, portText) := splitHost hostPort
  return { user, password, host := nonempty? host, port := ← port? portText }

/-- The text of host and port. -/
def hostPortText (host : List Char) (port : Option Nat) : List Char :=
  match port with
  | none => host
  | some n => host ++ ':' :: Text.digits n

/-- The text of an authority for a host that is written as given. -/
def Authority.text (a : Authority) (host : List Char) : List Char :=
  let place := hostPortText host a.port
  match a.user, a.password with
  | none, none => place
  | user, some password => user.getD [] ++ ':' :: password ++ '@' :: place
  | some user, none => user ++ '@' :: place

/-- The host in canonical form: a numeric address, or a name in ASCII. -/
def canonicalHost [HostCodec] (host : List Char) : Except Flaw (List Char) :=
  match numericHost? host with
  | some text => .ok text
  | none => encodeHost host

/--
The canonical text of an authority: host as by {lit}`canonicalHost`, user name and password escaped.
-/
def Authority.canonical [HostCodec] (scheme : String) (cs : List Char) :
    Except Flaw (List Char) := do
  let a ← Authority.ofText? cs
  match a.host with
  | none => throw (.hostMissing scheme)
  | some host =>
    let host ← canonicalHost host
    let a :=
      { a with
        user := a.user.map (requote isUserChar)
        password := a.password.map (requote isUserChar) }
    return a.text host

end Url
end ChainPoll

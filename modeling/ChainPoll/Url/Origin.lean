import ChainPoll.Url.Authority

/-!
# Origins

What a request takes from the base address of a service: its scheme and its authority, in canonical
form.  Path, query and fragment of the base address do not matter.
-/

namespace ChainPoll
namespace Url

/-- The two schemes of the web. -/
inductive Scheme where
  | http
  | https
deriving DecidableEq, Repr

namespace Scheme

/-- The name of a scheme. -/
def name : Scheme → String
  | .http => "http"
  | .https => "https"

/-- The port that need not be named. -/
def defaultPort : Scheme → Nat
  | .http => 80
  | .https => 443

/-- The scheme of a name. -/
def ofName? (name : String) : Option Scheme :=
  if name = "http" then some .http else if name = "https" then some .https else none

/-- Every scheme is found by its name. -/
theorem ofName?_name (s : Scheme) : ofName? s.name = some s := by
  cases s <;> decide

end Scheme

/-- A scheme and a canonical authority, which is not empty. -/
structure Origin where
  scheme : Scheme
  authority : List Char
  authority_ne_nil : authority ≠ []
deriving DecidableEq, Repr

/-! ## Taking a base address apart -/

/-- The characters dropped at the front of a base address. -/
def isLeadingJunk (c : Char) : Bool := c.toNat ≤ 32

/-- The line characters dropped everywhere in a base address. -/
def isDroppedEverywhere (c : Char) : Bool := c == '\t' || c == '\r' || c == '\n'

/-- The characters of a scheme after its first letter. -/
def isSchemeChar (c : Char) : Bool :=
  c.isAlphanum || c == '+' || c == '-' || c == '.'

/-- Takes a lower-cased scheme and its colon off the front; without one the scheme is empty. -/
def takeScheme (cs : List Char) : String × List Char :=
  match splitFirst ':' cs with
  | (c :: name, some rest) =>
    if c.isAlpha && name.all isSchemeChar then (String.ofList ((c :: name).map Char.toLower), rest)
    else ("", cs)
  | _ => ("", cs)

/-- Whether a character ends an authority. -/
def endsAuthority (c : Char) : Bool :=
  c == '/' || c == '?' || c == '#'

/-- The authority after two slashes; without them it is empty. -/
def takeAuthority : List Char → List Char
  | '/' :: '/' :: rest => rest.takeWhile fun c => !endsAuthority c
  | _ => []

/-- Whether a bracketed text is a future address: a version in hexadecimal and some text. -/
def isFutureAddress (cs : List Char) : Bool :=
  match splitFirst '.' (cs.drop 1) with
  | (version, some text) =>
    version ≠ [] && version.all (fun c => (Json.hexValue? c).isSome) && text ≠ []
      && !text.contains '\n'
  | _ => false

/-- Refuses brackets that are unpaired or do not hold an address. -/
def checkBrackets (authority : List Char) : Except Flaw Unit :=
  match authority.contains '[', authority.contains ']' with
  | true, true =>
    let content := (splitFirst ']' ((splitFirst '[' authority).2.getD [])).1
    if content.head? = some 'v' then
      if isFutureAddress content then .ok () else .error .futureAddress
    else if ':' ∈ content then .ok ()
    else .error .bracketContent
  | false, false => .ok ()
  | _, _ => .error .unpairedBracket

/-- The characters that stand for a separator of URLs or for a text with one. -/
def disguises : List Nat :=
  [0x2047, 0x2048, 0x2049, 0x2100, 0x2101, 0x2105, 0x2106, 0x2a74, 0xfe13, 0xfe16, 0xfe55, 0xfe56,
   0xfe5f, 0xfe6b, 0xff03, 0xff0f, 0xff1a, 0xff1f, 0xff20]

/-- Refuses an authority with a disguised separator. -/
def checkDisguises (authority : List Char) : Except Flaw Unit :=
  if authority.any fun c => disguises.contains c.toNat then
    .error (.disguisedSeparator (String.ofList authority))
  else .ok ()

/-- The schemes whose authority must name a host. -/
def hostSchemes : List String := ["http", "https", "ws", "wss", "ftp"]

/--
The canonical authority of a URL; other schemes than those with hosts may leave the host empty.
-/
def canonicalAuthority [HostCodec] (scheme : String) (authority : List Char) :
    Except Flaw (List Char) :=
  match Authority.canonical scheme authority with
  | .error (.hostMissing s) => if s ∈ hostSchemes then .error (.hostMissing s) else .ok []
  | result => result

/-- The origin of a base address. -/
def Origin.ofText? [HostCodec] (text : String) : Except Flaw Origin := do
  let cs := (text.toList.dropWhile isLeadingJunk).filter fun c => !isDroppedEverywhere c
  let (scheme, rest) := takeScheme cs
  let authority := takeAuthority rest
  checkBrackets authority
  checkDisguises authority
  if authority = [] then throw (.notWeb text)
  else
    let canonical ← canonicalAuthority scheme authority
    match Scheme.ofName? scheme with
    | none => throw (.notWeb text)
    | some scheme =>
      if h : canonical = [] then throw (.notWeb text)
      else return { scheme, authority := canonical, authority_ne_nil := h }

/-! ## Writing an origin -/

/-- A host that is read off an authority, with brackets if it holds a colon. -/
def bracketed (host : List Char) : List Char :=
  if ':' ∈ host then '[' :: host ++ [']'] else host

/--
The text of an origin at the front of a URL.  A default port is left out; that reads the authority
once more, which fails if the authority does not stand for itself.
-/
def Origin.text (o : Origin) : Except Flaw (List Char) := do
  let a ← Authority.ofText? o.authority
  let authority :=
    if a.port = some o.scheme.defaultPort then
      match a.host with
      | some host => { a with port := none }.text (bracketed host)
      | none => []
    else o.authority
  return o.scheme.name.toList ++ ':' :: '/' :: '/' :: authority

end Url
end ChainPoll

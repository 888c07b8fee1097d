import ChainPoll.Json.Reader
import ChainPoll.Url.Path

/-!
# Numeric hosts

Internet addresses of version 4 and 6 as hosts: four decimal octets, or eight hexadecimal groups
with at most one gap of zero groups.  The canonical text of a version 6 address leaves out its first
longest run of at least two zero groups.
-/

namespace ChainPoll
namespace Url

open Text

/-! ## Version 4 -/

/-- Reads one octet: one to three digits without a leading zero, at most 255. -/
def octet? (cs : List Char) : Option Nat := do
  let n ← ofDigits? cs
  if 3 < cs.length ∨ (1 < cs.length ∧ cs.head? = some '0') ∨ 255 < n then none else some n

/-- Reads four octets between points. -/
def address4? (cs : List Char) : Option (List Nat) := do
  let octets ← (splitAll '.' cs).mapM octet?
  if octets.length = 4 then some octets else none

/-! ## Version 6 -/

/-- The number of groups of an address. -/
def groupCount : Nat := 8

/-- Reads one group: one to four hexadecimal digits. -/
def group? (cs : List Char) : Option Nat := do
  if cs = [] ∨ 4 < cs.length then none
  else
    let ds ← cs.mapM Json.hexValue?
    return ds.foldl (fun n d => 16 * n + d) 0

/-- Replaces a last part with octets of version 4 by the two groups that they fill. -/
def expandTail (parts : List (List Char)) : Option (List (List Char)) :=
  match parts.getLast? with
  | some last =>
    if '.' ∈ last then
      match address4? last with
      | some [a, b, c, d] =>
        some (parts.dropLast ++ [Nat.toDigits 16 (256 * a + b), Nat.toDigits 16 (256 * c + d)])
      | _ => none
    else some parts
  | none => none

/-- Reads the groups on one side of a gap; a single empty part stands at the end of the address. -/
def gapSide? (parts : List (List Char)) : Option (List Nat) :=
  if parts = [[]] then some [] else parts.mapM group?

/-- Reads the groups of a version 6 address. -/
def address6? (cs : List Char) : Option (List Nat) := do
  let parts := splitAll ':' cs
  if parts.length < 3 then none
  else
    let parts ← expandTail parts
    if groupCount + 1 < parts.length then none
    else
      let inner := (parts.drop 1).dropLast
      match inner.findIdx? (· = []) with
      | none =>
        if parts.length = groupCount then parts.mapM group? else none
      | some i =>
        let high ← gapSide? (parts.take (i + 1))
        let low ← gapSide? (parts.drop (i + 2))
        if groupCount ≤ high.length + low.length then none
        else some (high ++ List.replicate (groupCount - high.length - low.length) 0 ++ low)

/-- The number of zeros at the front of a list. -/
def leadingZeros (groups : List Nat) : Nat :=
  (groups.takeWhile (· = 0)).length

/-- Start and length of the first longest run of zeros. -/
def longestZeros : List Nat → Nat × Nat
  | [] => (0, 0)
  | g :: rest =>
    let (start, size) := longestZeros rest
    let here := leadingZeros (g :: rest)
    if size ≤ here then (0, here) else (start + 1, size)

/-- Groups in hexadecimal with colons between them. -/
def groupsText (groups : List Nat) : List Char :=
  joinAll ':' (groups.map (Nat.toDigits 16))

/-- The canonical text of a version 6 address. -/
def address6Text (groups : List Nat) : List Char :=
  let (start, size) := longestZeros groups
  if size ≤ 1 then groupsText groups
  else groupsText (groups.take start) ++ ':' :: ':' :: groupsText (groups.drop (start + size))

/-! ## Hosts -/

/-- Splits a host at a percent sign before its zone. -/
def splitZone (cs : List Char) : List Char × List Char :=
  (cs.takeWhile (· ≠ '%'), cs.dropWhile (· ≠ '%'))

/--
The canonical text of a numeric host, in brackets for version 6; a zone is kept.  Only a host that
ends in a digit or holds a colon can be one.
-/
def numericHost? (cs : List Char) : Option (List Char) :=
  if cs.getLast?.any Char.isDigit ∨ ':' ∈ cs then
    let (address, zone) := splitZone cs
    match address4? address with
    | some _ => some (address ++ zone)
    | none => (address6? address).map fun groups => '[' :: address6Text groups ++ zone ++ [']']
  else none

end Url
end ChainPoll

import ChainPoll.Json.Reader

/-!
# Percent-encoding

Characters that may not stand in a part of a URL are written as the octets of their UTF-8 form, each
as a percent sign and two upper-case hexadecimal digits.  A query also writes a space as a plus
sign.

Main results:

- Theorem {lit}`hexValue?_upperHex`: a hexadecimal digit is read back as its value.
- Theorem {lit}`octets?_percent`: an escaped octet is read back as that octet.
-/

namespace ChainPoll
namespace Url

/-! ## Alphabets -/

/-- The characters that no part of a URL escapes. -/
def isUnreserved (c : Char) : Bool :=
  c.isAlphanum || "-._~!$'()*,".toList.contains c

/-- The characters that stand for themselves in a path. -/
def isPathChar (c : Char) : Bool :=
  isUnreserved c || "+&=;@:/".toList.contains c

/-- The characters that stand for themselves in a query. -/
def isQueryChar (c : Char) : Bool :=
  isUnreserved c || "?/:@".toList.contains c

/-- The characters that stand for themselves in a user name and a password. -/
def isUserChar (c : Char) : Bool :=
  isUnreserved c || "+&=;".toList.contains c

/-! ## Writing -/

/-- The upper-case hexadecimal digit of a value below sixteen. -/
def upperHex (n : Nat) : Char :=
  if n < 10 then Char.ofNat (48 + n) else Char.ofNat (55 + n)

/-- An octet as a percent sign and two digits. -/
def percent (b : UInt8) : List Char :=
  ['%', upperHex (b.toNat / 16), upperHex (b.toNat % 16)]

/-- A character as its escaped octets. -/
def escapeChar (c : Char) : List Char :=
  (String.utf8EncodeChar c).flatMap percent

/-- A text in which all but the safe characters are escaped. -/
def escape (safe : Char → Bool) (cs : List Char) : List Char :=
  cs.flatMap fun c => if safe c then [c] else escapeChar c

/-- One character of a query key or value. -/
def formChar (c : Char) : List Char :=
  if c = ' ' then ['+'] else if isQueryChar c then [c] else escapeChar c

/--
A query key or value: a space becomes a plus sign, and all but the safe characters are escaped.
-/
def formEscape (cs : List Char) : List Char :=
  cs.flatMap formChar

/-- The octet that a percent sign before two hexadecimal digits stands for. -/
def escapedOctet? (high low : Char) : Option UInt8 := do
  let h ← Json.hexValue? high
  let l ← Json.hexValue? low
  return UInt8.ofNat (16 * h + l)

/--
A text that may hold escapes already: those of safe characters are undone, others are kept with
upper-case digits, a stray percent sign is escaped, and so are unsafe characters.
-/
def requote (safe : Char → Bool) : List Char → List Char
  | [] => []
  | '%' :: high :: low :: rest =>
    match escapedOctet? high low with
    | some b =>
      let c := Char.ofNat b.toNat
      if b.toNat < 128 ∧ safe c then c :: requote safe rest else percent b ++ requote safe rest
    | none => percent 37 ++ requote safe (high :: low :: rest)
  | c :: rest => (if safe c then [c] else escapeChar c) ++ requote safe rest

/-! ## Reading -/

/-- The octets of an escaped text; with `form`, a plus sign stands for a space. -/
def octets? (form : Bool) : List Char → Option (List UInt8)
  | [] => some []
  | '%' :: high :: low :: rest => do
    let b ← escapedOctet? high low
    return b :: (← octets? form rest)
  | c :: rest => do
    if c = '%' then none
    else
      let bs := if form ∧ c = '+' then [32] else String.utf8EncodeChar c
      return bs ++ (← octets? form rest)

/-- The text that an escaped text stands for. -/
def unescape? (form : Bool) (cs : List Char) : Option String := do
  String.fromUTF8? (ByteArray.mk (← octets? form cs).toArray)

/--
The octets of the characters that separate the pairs of a query, which a shown query keeps escaped.
-/
def isSeparatorOctet (b : UInt8) : Bool :=
  b = 43 || b = 61 || b = 38 || b = 59

/-- The octets of a query as it is shown: escapes of separators stay. -/
def shownOctets : List Char → List UInt8
  | [] => []
  | '%' :: high :: low :: rest =>
    match escapedOctet? high low with
    | some b =>
      if isSeparatorOctet b then (percent b).flatMap String.utf8EncodeChar ++ shownOctets rest
      else b :: shownOctets rest
    | none => 37 :: shownOctets (high :: low :: rest)
  | c :: rest => (if c = '+' then [32] else String.utf8EncodeChar c) ++ shownOctets rest

/-- A query as it is shown to people. -/
def shownQuery (cs : List Char) : String :=
  (String.fromUTF8? (ByteArray.mk (shownOctets cs).toArray)).getD (String.ofList cs)

/-! ## Reading back -/

/-- A hexadecimal digit is read back as its value. -/
theorem hexValue?_upperHex {n : Nat} (h : n < 16) : Json.hexValue? (upperHex n) = some n := by
  have hall : ∀ k : Fin 16, Json.hexValue? (upperHex k.val) = some k.val := by decide
  exact hall ⟨n, h⟩

/-- An escaped octet is read back as that octet. -/
theorem octets?_percent (form : Bool) (b : UInt8) (rest : List Char) :
    octets? form (percent b ++ rest) = (octets? form rest).map (b :: ·) := by
  have hb : b.toNat < 256 := b.toNat_lt
  have hoctet : escapedOctet? (upperHex (b.toNat / 16)) (upperHex (b.toNat % 16)) = some b := by
    rw [escapedOctet?, hexValue?_upperHex (by omega), hexValue?_upperHex (by omega)]
    simp only [Option.bind_eq_bind, Option.bind_some]
    rw [Nat.div_add_mod]
    simp
  simp only [percent, List.cons_append, List.nil_append, octets?, hoctet, Option.bind_eq_bind,
    Option.bind_some]
  cases octets? form rest <;> rfl

end Url
end ChainPoll

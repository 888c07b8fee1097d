import ChainPoll.Decimal.Binary64
import ChainPoll.Text.Numeral

/-!
# Real numbers as people type them

Decimal numbers on a command line: blanks around them, a sign, grouped digits with an optional point
and an exponent, or one of the words for infinity and for no number.
-/

namespace ChainPoll
namespace Decimal

open Text

/-- Splits a text at its first character from a set, which is dropped. -/
def splitAtFirst (stop : Char → Bool) (cs : List Char) : List Char × Option (List Char) :=
  match cs.dropWhile fun c => !stop c with
  | [] => (cs, none)
  | _ :: rest => (cs.takeWhile fun c => !stop c, some rest)

/-- Reads a run of grouped digits that may be absent. -/
def optionalDigits? : List Char → Option (List Char)
  | [] => some []
  | cs => ungroup? cs

/--
Reads digits with an optional point; the result holds all digits and the number after the point.
-/
def significand? (cs : List Char) : Option (List Char × Nat) := do
  let (whole, fraction) := splitAtFirst (· = '.') cs
  let whole ← optionalDigits? whole
  let fraction ← optionalDigits? (fraction.getD [])
  if whole = [] ∧ fraction = [] then none
  else some (whole ++ fraction, fraction.length)

/-- Reads the part after an exponent mark. -/
def exponent? : Option (List Char) → Option Int
  | none => some 0
  | some cs => do
    let (negative, body) := splitSign cs
    let n ← ofDigits? (← ungroup? body)
    return signed negative n

/-- Reads a number as it is typed. -/
def real? (cs : List Char) : Option Binary64 :=
  let (negative, body) := splitSign (plainNumeral cs)
  let word := String.ofList (body.map Char.toLower)
  if word = "inf" ∨ word = "infinity" then some (.infinite negative)
  else if word = "nan" then some .nan
  else do
    let (mantissa, power) := splitAtFirst (fun c => c = 'e' || c = 'E') body
    let (ds, places) ← significand? mantissa
    let e ← exponent? power
    let n ← ofDigits? ds
    return .ofDecimal negative n (e - places)

end Decimal
end ChainPoll

/-!
# Decimal digits

Integers written in decimal, and digit runs read back.  Digits may be grouped by single low lines.

Main results:

- Theorem {lit}`ofDigits?_digits`: the digits of a number read back as that number.
- Theorem {lit}`ofDecimal?_decimal`: the decimal text of an integer reads back as that integer.
-/

namespace ChainPoll
namespace Text

/-- The decimal digits of a number, without leading zeros. -/
def digits (n : Nat) : List Char :=
  Nat.toDigits 10 n

/-- Reads a non-empty run of decimal digits, leading zeros allowed. -/
def ofDigits? (cs : List Char) : Option Nat :=
  if cs ≠ [] ∧ cs.all Char.isDigit then some (Nat.ofDigitChars 10 cs 0) else none

/-- The decimal text of an integer: a minus sign for negative ones, then the digits. -/
def decimal (n : Int) : List Char :=
  if n < 0 then '-' :: digits n.natAbs else digits n.natAbs

/-- The decimal text of an integer. -/
def decimalString (n : Int) : String :=
  String.ofList (decimal n)

/-- Takes one optional sign off a text; the flag tells whether it was a minus. -/
def splitSign : List Char → Bool × List Char
  | '-' :: cs => (true, cs)
  | '+' :: cs => (false, cs)
  | cs => (false, cs)

/-- The integer with the given sign and magnitude. -/
def signed (negative : Bool) (n : Nat) : Int :=
  if negative then -(n : Int) else n

/-- Reads an optional sign and a run of digits. -/
def ofDecimal? (cs : List Char) : Option Int :=
  let (negative, rest) := splitSign cs
  (ofDigits? rest).map (signed negative)

/-- Removes the low lines of a grouped digit run; each must stand between two digits. -/
def ungroup? : List Char → Option (List Char)
  | [] => none
  | [c] => if c.isDigit then some [c] else none
  | c :: '_' :: rest => if c.isDigit then (ungroup? rest).map (c :: ·) else none
  | c :: d :: rest => if c.isDigit then (ungroup? (d :: rest)).map (c :: ·) else none

/-- A number in the given width, padded with leading zeros. -/
def padded (width n : Nat) : List Char :=
  let ds := digits n
  List.replicate (width - ds.length) '0' ++ ds

/-- The digits of a number are never empty. -/
theorem digits_ne_nil (n : Nat) : digits n ≠ [] := by
  simp [digits]

/-- Every character of the digits of a number is a digit. -/
theorem isDigit_of_mem_digits {c : Char} {n : Nat} (h : c ∈ digits n) : c.isDigit = true :=
  Nat.isDigit_of_mem_toDigits (by decide) (by decide) h

/-- The digits of a number read back as that number. -/
theorem ofDigits?_digits (n : Nat) : ofDigits? (digits n) = some n := by
  have hall : (digits n).all Char.isDigit = true := by
    simpa [List.all_eq_true] using fun c hc => isDigit_of_mem_digits hc
  rw [ofDigits?, if_pos ⟨digits_ne_nil n, hall⟩, digits,
    Nat.ofDigitChars_toDigits (by decide) (by decide)]

/-- Digits carry no sign. -/
theorem splitSign_digits (n : Nat) : splitSign (digits n) = (false, digits n) := by
  have hdigit := fun c => isDigit_of_mem_digits (c := c) (n := n)
  match h : digits n with
  | [] => rfl
  | c :: cs =>
    have hc : c.isDigit = true := hdigit c (by simp [h])
    unfold splitSign
    split
    · simp_all
    · simp_all
    · rfl

/-- The decimal text of an integer reads back as that integer. -/
theorem ofDecimal?_decimal (n : Int) : ofDecimal? (decimal n) = some n := by
  by_cases h : n < 0
  · simp only [decimal, if_pos h, ofDecimal?, splitSign, ofDigits?_digits, Option.map_some, signed,
      if_true, Option.some.injEq]
    omega
  · simp only [decimal, if_neg h, ofDecimal?, splitSign_digits, ofDigits?_digits, Option.map_some,
      signed, Bool.false_eq_true, if_false, Option.some.injEq]
    omega

/-- Different integers have different decimal texts. -/
theorem decimal_injective {m n : Int} (h : decimal m = decimal n) : m = n := by
  have := congrArg ofDecimal? h
  simpa [ofDecimal?_decimal] using this

end Text
end ChainPoll

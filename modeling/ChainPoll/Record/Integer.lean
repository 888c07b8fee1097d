import ChainPoll.Json.Value
import ChainPoll.Record.Flaw
import ChainPoll.Text.Numeral

/-!
# Integers in records

Which JSON values a record accepts as an integer: whole numbers of any size, truth values, whole
doubles within the range of machine integers, and texts of whole numbers.

Main results:

- Theorem {lit}`integerOfText?_decimal`: the decimal text of an integer is accepted as that integer.
-/

namespace ChainPoll
namespace Record

open Text

/-- Whether a text is empty, or a point and at least one zero. -/
def isZeroFraction : List Char → Bool
  | [] => true
  | '.' :: zeros => zeros ≠ [] && zeros.all (· = '0')
  | _ => false

/--
Reads the text of a whole number: blanks at both ends, one sign, digits grouped by single low lines,
and a point with nothing but zeros after it.
-/
def integerOfText? (cs : List Char) : Option Int := do
  let (negative, body) := splitSign (trimBy isBlank cs)
  let n ← ofDigits? (← ungroup? (body.takeWhile (· ≠ '.')))
  if isZeroFraction (body.dropWhile (· ≠ '.')) then some (signed negative n) else none

/-- The bound that whole doubles must stay within: two to the power of 63. -/
def machineBound : Int := 9223372036854775808

/-- Reads a double as an integer. -/
def integerOfDouble (x : Binary64) : Except Defect Int :=
  match x with
  | .finite _ _ _ =>
    match x.toInt? with
    | none => .error .fractionalInteger
    | some n => if -machineBound < n ∧ n < machineBound then .ok n else .error .overlargeInteger
  | _ => .error .notFinite

/-- Reads a JSON value as an integer. -/
def integerOfJson : Json → Except Defect Int
  | .int n => .ok n
  | .bool b => .ok (if b then 1 else 0)
  | .float x => integerOfDouble x
  | .text s =>
    match integerOfText? s.toList with
    | some n => .ok n
    | none => .error .unreadableInteger
  | _ => .error .notInteger

/-- A digit is not blank. -/
theorem isBlank_of_isDigit {c : Char} (h : c.isDigit = true) : isBlank c = false := by
  have hrange : 48 ≤ c.toNat ∧ c.toNat ≤ 57 := by
    simp only [Char.isDigit, Bool.and_eq_true, decide_eq_true_eq, UInt32.le_iff_toNat_le] at h
    have hval : c.val.toNat = c.toNat := rfl
    simp at h
    omega
  simp only [isBlank]
  grind

/-- The characters of a decimal text are digits and minus signs. -/
theorem mem_decimal {c : Char} {n : Int} (h : c ∈ decimal n) : c = '-' ∨ c.isDigit = true := by
  unfold decimal at h
  split at h
  · rcases List.mem_cons.1 h with rfl | h
    · exact .inl rfl
    · exact .inr (isDigit_of_mem_digits h)
  · exact .inr (isDigit_of_mem_digits h)

/-- The decimal text of an integer is accepted as that integer. -/
theorem integerOfText?_decimal (n : Int) : integerOfText? (decimal n) = some n := by
  have hblank : ∀ c ∈ decimal n, isBlank c = false := by
    intro c hc
    rcases mem_decimal hc with rfl | hc
    · decide
    · exact isBlank_of_isDigit hc
  have htrim : trimBy isBlank (decimal n) = decimal n :=
    trimBy_of_no_blank_ends (fun c hc => hblank c (List.mem_of_head? hc))
      (fun c hc => hblank c (List.mem_of_getLast? hc))
  have hpoint : ∀ k : Nat, ∀ c ∈ digits k, (decide (c ≠ '.')) = true := by
    intro k c hc
    have := isDigit_of_mem_digits hc
    simp only [decide_eq_true_eq]
    rintro rfl
    exact absurd this (by decide)
  -- No digit is a point, so that the part before the point is all there is.
  have hwhole : (digits n.natAbs ++ []).takeWhile (· ≠ '.') = digits n.natAbs ++ [] :=
    List.takeWhile_append_of_pos (hpoint n.natAbs)
  have hrest : (digits n.natAbs ++ []).dropWhile (· ≠ '.') = [] :=
    List.dropWhile_append_of_pos (hpoint n.natAbs)
  rw [List.append_nil] at hwhole hrest
  have hsign : splitSign (decimal n) = (decide (n < 0), digits n.natAbs) := by
    unfold decimal
    split
    · next h => simp [splitSign, h]
    · next h => simp [splitSign_digits, h]
  have hungroup : ungroup? (digits n.natAbs) = some (digits n.natAbs) :=
    ungroup?_of_all_isDigit (digits_ne_nil _) fun c hc => isDigit_of_mem_digits hc
  have hvalue : signed (decide (n < 0)) n.natAbs = n := by
    unfold signed
    split
    · next h =>
      have := of_decide_eq_true h
      omega
    · next h =>
      have : ¬ n < 0 := fun hn => h (decide_eq_true hn)
      omega
  rw [integerOfText?, htrim, hsign]
  simp only [hwhole, hrest, hungroup, ofDigits?_digits, isZeroFraction, hvalue, Option.bind_eq_bind,
    Option.bind_some, if_true]

end Record
end ChainPoll

import ChainPoll.Decimal.Rounding

/-!
# Double-precision numbers

Numbers of the 64-bit binary format as exact values, and the rounding of a rational number to the
nearest of them, a tie going to the even significand.

Main results:

- Theorem {lit}`Binary64.toInt?_eq_some_iff`: a double is the whole number `n` exactly when `n` is
  its value.
-/

namespace ChainPoll

open Decimal

/-- A double-precision number; a finite one is `± significand * 2 ^ exponent`. -/
inductive Binary64 where
  | finite (negative : Bool) (significand : Nat) (exponent : Int)
  | infinite (negative : Bool)
  | nan
deriving DecidableEq, Repr

namespace Binary64

/-- The number of bits of a significand. -/
def precision : Nat := 53

/-- The smallest significand with all its bits in use. -/
def fullSignificand : Nat := Nat.pow 2 (precision - 1)

/-- The smallest exponent. -/
def minExponent : Int := -1074

/-- The largest exponent. -/
def maxExponent : Int := 971

/-- Zero, or negative zero. -/
def zero (negative : Bool) : Binary64 :=
  .finite negative 0 minExponent

instance : Inhabited Binary64 := ⟨zero false⟩

/-- The double of the given sign nearest to a size, a tie going to the even significand. -/
def ofSize (negative : Bool) (size : Rat) : Binary64 :=
  if size ≤ 0 then zero negative
  else
    let e := max (floorLog 2 size - (precision - 1 : Nat)) minExponent
    let m := (roundEven (size / 2 ^ e)).toNat
    let (m, e) := if m = 2 * fullSignificand then (fullSignificand, e + 1) else (m, e)
    if maxExponent < e then .infinite negative else .finite negative m e

/-- The double nearest to a rational number. -/
def ofRat (q : Rat) : Binary64 :=
  if q < 0 then ofSize true (-q) else ofSize false q

/--
The double nearest to `digits * 10 ^ exponent`.  Sizes far outside the range of the format are
settled by the number of digits alone.
-/
def ofDecimal (negative : Bool) (digits : Nat) (exponent : Int) : Binary64 :=
  let places : Int := digitCount 10 digits + exponent
  if digits = 0 ∨ places < -400 then zero negative
  else if 400 < places then .infinite negative
  else ofSize negative (digits * 10 ^ exponent)

/-- The exact value of a finite double. -/
def toRat? : Binary64 → Option Rat
  | .finite negative m e =>
    let size : Rat := m * 2 ^ e
    some (if negative then -size else size)
  | .infinite _ => none
  | .nan => none

/-- Whether a finite double is a whole number, and which. -/
def toInt? (x : Binary64) : Option Int :=
  x.toRat?.bind fun q => if q.den = 1 then some q.num else none

/-- A double is the whole number `n` exactly when `n` is its value. -/
theorem toInt?_eq_some_iff {x : Binary64} {n : Int} :
    x.toInt? = some n ↔ x.toRat? = some (n : Rat) := by
  rw [toInt?, Option.bind_eq_some_iff]
  constructor
  · rintro ⟨q, hq, h⟩
    split at h
    · next hden =>
      rw [hq]
      simp only [Option.some.injEq] at h ⊢
      subst h
      exact (Rat.ext (by simp) (by simpa using hden))
    · simp at h
  · intro h
    exact ⟨n, h, by simp⟩

end Binary64
end ChainPoll

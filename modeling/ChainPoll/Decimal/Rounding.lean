/-!
# Rounding rational numbers

The whole number nearest to a rational one, under the two usual rules for a half, and the order of
magnitude of a positive rational number in a base.

Main results:

- Theorems {lit}`roundEven_sub_le` and {lit}`sub_roundEven_le`: rounding moves a number by at most a
  half.
- Theorem {lit}`roundEven_intCast`: whole numbers are fixed.
-/

namespace ChainPoll
namespace Decimal

/-- The whole number nearest to `q`, a half going to the even neighbour. -/
def roundEven (q : Rat) : Int :=
  let n := q.floor
  if q - n < 1 / 2 then n
  else if 1 / 2 < q - n then n + 1
  else if n % 2 = 0 then n else n + 1

/-- The whole number nearest to `q`, a half going away from zero. -/
def roundAway (q : Rat) : Int :=
  if 0 ≤ q then (q + 1 / 2).floor else -(-q + 1 / 2).floor

/-- The whole part of `q`: the nearest whole number not farther from zero. -/
def truncate (q : Rat) : Int :=
  if 0 ≤ q then q.floor else -(-q).floor

/-- The number of digits of `n` in a base. -/
def digitCount (base n : Nat) : Nat :=
  (Nat.toDigits base n).length

/-- The greatest `k` with `base ^ k ≤ q`, for positive `q`. -/
def floorLog (base : Nat) (q : Rat) : Int :=
  let k : Int := (digitCount base q.num.natAbs : Int) - digitCount base q.den
  if (base : Rat) ^ k ≤ q then k else k - 1

/-- Whole numbers are fixed by rounding. -/
theorem roundEven_intCast (n : Int) : roundEven n = n := by
  have h : ((n : Rat) - n : Rat) < 1 / 2 := by grind
  simp only [roundEven, Rat.floor_intCast, if_pos h]

/-- Rounding raises a number by at most a half. -/
theorem roundEven_sub_le (q : Rat) : (roundEven q : Rat) - q ≤ 1 / 2 := by
  have hfloor := Rat.floor_le q
  simp only [roundEven]
  split
  · grind
  · split
    · rw [Rat.intCast_add]
      grind
    · split
      · grind
      · rw [Rat.intCast_add]
        grind

/-- Rounding lowers a number by at most a half. -/
theorem sub_roundEven_le (q : Rat) : q - (roundEven q : Rat) ≤ 1 / 2 := by
  have hfloor := Rat.lt_floor_add_one q
  rw [Rat.intCast_add] at hfloor
  simp only [roundEven]
  split
  · grind
  · split
    · rw [Rat.intCast_add]
      grind
    · split
      · grind
      · rw [Rat.intCast_add]
        grind

end Decimal
end ChainPoll

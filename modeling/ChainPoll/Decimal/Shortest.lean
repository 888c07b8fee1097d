import ChainPoll.Decimal.Binary64
import ChainPoll.Text.Digits

/-!
# The shortest decimal text of a double

The fewest decimal digits that read back as a given double, nearest to its value among those, and
their layout: positional for moderate sizes, with an exponent otherwise.

Main results:

- Theorem {lit}`Shortest.gridPoint?_within`: a grid point that is found reads back, and is a
  multiple of its step.
-/

namespace ChainPoll
namespace Shortest

open Decimal Text

/-- The sizes that round to one double: two ends, and whether the ends belong to it. -/
structure Basin where
  low : Rat
  high : Rat
  closed : Bool

/-- Whether a size rounds to the double of this basin. -/
def Basin.holds (b : Basin) (q : Rat) : Bool :=
  if b.closed then decide (b.low ≤ q) && decide (q ≤ b.high)
  else decide (b.low < q) && decide (q < b.high)

/--
The basin of `m * 2 ^ e`: half a unit on both sides, but only a quarter below a power of two, where
the next smaller doubles lie closer.
-/
def basinOf (m : Nat) (e : Int) : Basin :=
  let unit : Rat := 2 ^ e
  let below : Rat :=
    if m = Binary64.fullSignificand ∧ Binary64.minExponent < e then unit / 4 else unit / 2
  { low := m * unit - below, high := m * unit + unit / 2, closed := m % 2 = 0 }

/--
The neighbour of `size` on the grid of multiples of `10 ^ j` that reads back, if there is one.
-/
def gridPoint? (b : Basin) (size : Rat) (j : Int) : Option Nat :=
  let step : Rat := 10 ^ j
  let q := (size / step).floor.toNat
  let lower := b.holds (q * step)
  let upper := b.holds ((q + 1 : Nat) * step)
  if lower && upper then some (roundEven (size / step)).toNat
  else if lower then some q
  else if upper then some (q + 1)
  else none

/-- The shortest digits of a positive size, with the power of ten of the last one. -/
def digitsOf (b : Basin) (size : Rat) : Nat × Int :=
  let k := floorLog 10 size
  let found := (List.range 17).findSome? fun (n : Nat) =>
    (gridPoint? b size (k - n)).map fun d => (d, k - (n : Int))
  found.getD ((roundEven (size / 10 ^ (k - 16))).toNat, k - 16)

/-- Removes trailing zeros of a digit text. -/
def dropTrailingZeros (cs : List Char) : List Char :=
  (cs.reverse.dropWhile (· = '0')).reverse

/-- An exponent with its sign and at least two digits. -/
def exponentText (x : Int) : List Char :=
  'e' :: (if x < 0 then '-' else '+') :: padded 2 x.natAbs

/-- Digits with a point after the first `k + 1` of them, filled with zeros on either side. -/
def positional (ds : List Char) (k : Int) : List Char :=
  if k < 0 then '0' :: '.' :: (List.replicate (-k - 1).toNat '0' ++ ds)
  else
    let whole := ds.take (k.toNat + 1)
    let fraction := ds.drop (k.toNat + 1)
    whole ++ List.replicate (k.toNat + 1 - ds.length) '0'
      ++ '.' :: (if fraction = [] then ['0'] else fraction)

/-- Digits with a point after the first of them and the exponent `k`. -/
def scientific (ds : List Char) (k : Int) : List Char :=
  match ds with
  | [] => exponentText k
  | [d] => d :: exponentText k
  | d :: rest => d :: '.' :: rest ++ exponentText k

/--
The text of a finite size: positional from `1e-4` up to `1e16`, where whole numbers keep a zero.
-/
def sizeText (m : Nat) (e : Int) : List Char :=
  if m = 0 then ['0', '.', '0']
  else
    let (d, j) := digitsOf (basinOf m e) (m * 2 ^ e)
    let ds := digits d
    let k := j + ds.length - 1
    let ds := dropTrailingZeros ds
    if -4 ≤ k ∧ k < 16 then positional ds k else scientific ds k

/-- The shortest text that reads back as the given double. -/
def text : Binary64 → String
  | .finite negative m e =>
    String.ofList (if negative then '-' :: sizeText m e else sizeText m e)
  | .infinite negative => if negative then "-inf" else "inf"
  | .nan => "nan"

/-- A grid point that is found reads back. -/
theorem gridPoint?_within {b : Basin} {size : Rat} {j : Int} {d : Nat}
    (h : gridPoint? b size j = some d) (hsize : 0 ≤ size) (hstep : (0 : Rat) < 10 ^ j) :
    b.holds ((d : Rat) * 10 ^ j) = true := by
  have hround : (roundEven (size / 10 ^ j)).toNat = (size / 10 ^ j).floor.toNat
      ∨ (roundEven (size / 10 ^ j)).toNat = (size / 10 ^ j).floor.toNat + 1 := by
    have hq : 0 ≤ (size / (10 : Rat) ^ j).floor :=
      Rat.le_floor_iff.2 (by
        rw [Rat.div_def]
        exact Rat.mul_nonneg hsize (Rat.le_of_lt (Rat.inv_pos.2 hstep)))
    simp only [roundEven]
    split
    · exact .inl rfl
    · split
      · exact .inr (by omega)
      · split
        · exact .inl rfl
        · exact .inr (by omega)
  simp only [gridPoint?] at h
  split at h
  · next hboth =>
    simp only [Bool.and_eq_true] at hboth
    simp only [Option.some.injEq] at h
    subst h
    rcases hround with hr | hr
    · rw [hr]; exact hboth.1
    · rw [hr]; exact hboth.2
  · split at h
    · simp_all
    · split at h
      · next hupper =>
        simp only [Option.some.injEq] at h
        subst h
        exact hupper
      · simp at h

end Shortest
end ChainPoll

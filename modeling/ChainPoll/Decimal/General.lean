import ChainPoll.Decimal.Shortest

/-!
# Numbers to six significant digits

The text of a number in a sentence: six significant digits, no trailing zeros, and an exponent for
sizes below `1e-4` and from `1e6` on.
-/

namespace ChainPoll
namespace General

open Decimal Text Shortest

/-- The number of significant digits. -/
def significant : Nat := 6

/-- Removes a fraction's trailing zeros, and its point when nothing is left of it. -/
def trimFraction (whole fraction : List Char) : List Char :=
  match dropTrailingZeros fraction with
  | [] => whole
  | cs => whole ++ '.' :: cs

/--
The six significant digits of a positive size and the power of ten of the first; rounding may carry
into the next power.
-/
def significantDigits (size : Rat) : List Char × Int :=
  let k := floorLog 10 size
  let d := (roundEven (size / 10 ^ (k - (significant - 1 : Nat)))).toNat
  if d = Nat.pow 10 significant then (digits (Nat.pow 10 (significant - 1)), k + 1)
  else (digits d, k)

/-- The text of a size that is not negative. -/
def sizeText (size : Rat) : List Char :=
  if size ≤ 0 then ['0']
  else
    let (ds, k) := significantDigits size
    if k < -4 ∨ significant ≤ k then trimFraction (ds.take 1) (ds.drop 1) ++ exponentText k
    else if k < 0 then trimFraction ['0'] (List.replicate (-k - 1).toNat '0' ++ ds)
    else trimFraction (ds.take (k.toNat + 1)) (ds.drop (k.toNat + 1))

/-- The text of a rational number. -/
def ofRat (q : Rat) : String :=
  String.ofList (if q < 0 then '-' :: sizeText (-q) else sizeText q)

/-- The text of a double; zero keeps its sign. -/
def ofBinary64 : Binary64 → String
  | .finite negative m e =>
    let size := sizeText (m * 2 ^ e)
    String.ofList (if negative then '-' :: size else size)
  | .infinite negative => if negative then "-inf" else "inf"
  | .nan => "nan"

end General
end ChainPoll

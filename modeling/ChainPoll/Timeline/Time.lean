import ChainPoll.Decimal.Binary64
import ChainPoll.Json.Value

/-!
# Time

Instants and durations are exact rational numbers of seconds.
-/

namespace ChainPoll

/-- An instant or a duration in seconds. -/
abbrev Time := Rat

namespace Time

/-- An instant in whole microseconds, rounded to the nearest, a half to the even one. -/
def micros (t : Time) : Int :=
  Decimal.roundEven (t * 1000000)

/-- A duration as a JSON number; whole numbers of seconds have no point. -/
def toJson (t : Time) : Json :=
  if t.den = 1 then .int t.num else .float (Binary64.ofRat t)

/-- Whether an instant is there and not after `now`. -/
def reached (now : Time) : Option Time → Bool
  | some t => decide (t ≤ now)
  | none => false

/-- The later of two instants. -/
def later (t u : Time) : Time :=
  if t ≤ u then u else t

/-- The earlier of two instants. -/
def earlier (t u : Time) : Time :=
  if t ≤ u then t else u

/-- The later of two instants is not before the first. -/
theorem le_later_left (t u : Time) : t ≤ later t u := by
  unfold later
  split
  · next h => exact h
  · exact Rat.le_refl

/-- The later of two instants is not before the second. -/
theorem le_later_right (t u : Time) : u ≤ later t u := by
  unfold later
  split
  · exact Rat.le_refl
  · next h => exact Rat.le_of_lt (Rat.not_le.1 h)

end Time
end ChainPoll

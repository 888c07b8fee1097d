import ChainPoll.Fault
import ChainPoll.Timeline.Time

/-!
# The grid of retries

Retries fall on the points of a grid with a fixed period that starts when the grid is made.  A point
that is overrun fires as soon as someone waits for it; the points overrun after it are dropped.

Main results:

- Theorem {lit}`Grid.lt_advance`: after a tick the next point lies strictly in the future.
- Theorem {lit}`Grid.advance_le`: it is the first such point, or the one right after the point that
  fired.
-/

namespace ChainPoll

/-- A grid of retries: its period and the next point that fires. -/
structure Grid where
  period : Time
  next : Time
  period_pos : 0 < period

namespace Grid

/-- The grid that starts at `now`; its period must be positive. -/
def make? (period now : Time) : Except Fault Grid :=
  if h : 0 < period then .ok { period, next := now + period, period_pos := h }
  else .error (.refused .retryPeriod)

/-- The number of periods that a tick at `firedAt` moves the grid on. -/
def skip (g : Grid) (firedAt : Time) : Int :=
  max 1 (((firedAt - g.next) / g.period).floor + 1)

/-- The grid after a tick at `firedAt`: at least one point further, and strictly after the tick. -/
def advance (g : Grid) (firedAt : Time) : Grid :=
  { g with next := g.next + g.skip firedAt * g.period }

/-- A tick moves the grid on by a positive number of periods. -/
theorem one_le_skip (g : Grid) (firedAt : Time) : 1 ≤ g.skip firedAt := by
  unfold skip
  omega

/-- The gap between a tick and the point before it, measured in periods. -/
theorem gap_eq (g : Grid) (firedAt : Time) :
    (firedAt - g.next) / g.period * g.period = firedAt - g.next :=
  Rat.div_mul_cancel (Rat.ne_of_gt g.period_pos)

/-- After a tick the next point lies strictly in the future. -/
theorem lt_advance (g : Grid) (firedAt : Time) : firedAt < (g.advance firedAt).next := by
  have hgap := g.gap_eq firedAt
  have hskip : ((firedAt - g.next) / g.period).floor + 1 ≤ g.skip firedAt := by
    unfold skip
    omega
  have hfloor := Rat.lt_floor_add_one ((firedAt - g.next) / g.period)
  have hlt : (firedAt - g.next) / g.period < (g.skip firedAt : Rat) := by
    have hcast : (((firedAt - g.next) / g.period).floor + 1 : Int) ≤ (g.skip firedAt : Int) := hskip
    have := Rat.intCast_le_intCast.2 hcast
    grind
  have hmul := Rat.mul_lt_mul_of_pos_right hlt g.period_pos
  simp only [advance]
  grind

/-- No earlier point of the grid lies strictly after the tick, except points that fired. -/
theorem advance_le (g : Grid) (firedAt : Time) (k : Int) (hk : 1 ≤ k)
    (h : firedAt < g.next + k * g.period) : (g.advance firedAt).next ≤ g.next + k * g.period := by
  have hgap := g.gap_eq firedAt
  have hfloor := Rat.floor_le ((firedAt - g.next) / g.period)
  have hlt : (firedAt - g.next) / g.period < (k : Rat) := by
    have hpos := g.period_pos
    apply Rat.not_le.1
    intro hle
    have := Rat.mul_le_mul_of_nonneg_right hle (Rat.le_of_lt hpos)
    grind
  have hfloorlt : ((firedAt - g.next) / g.period).floor < k := by
    have : ((((firedAt - g.next) / g.period).floor : Int) : Rat) < (k : Rat) := by grind
    exact Rat.intCast_lt_intCast.1 this
  have hskip : g.skip firedAt ≤ k := by
    unfold skip
    omega
  have hcast : (g.skip firedAt : Rat) ≤ (k : Rat) := Rat.intCast_le_intCast.2 hskip
  have := Rat.mul_le_mul_of_nonneg_right hcast (Rat.le_of_lt g.period_pos)
  simp only [advance]
  grind

end Grid
end ChainPoll

import ChainPoll.Timeline.Broadcast
import ChainPoll.Timeline.Grid

/-!
# Waiting for the grid

Tasks that wait for the next point of a grid of retries, unless the signal to stop is given before.
-/

namespace ChainPoll

/-- A grid together with the signal that ends all waits for it. -/
structure Ticker where
  signal : Signal
  grid : Grid

/-- A wait for a point of the grid: since when, and the point. -/
structure Tick where
  since : Time
  point : Time
deriving DecidableEq, Repr

/-- A command to a ticker. -/
inductive TickerCommand where
  /-- Gives the signal; the reply tells whether this was the first time. -/
  | close
  /-- Lets the signal be given later. -/
  | closeIn (span : Time)
deriving DecidableEq, Repr

namespace Tick

/-- A wait ends with a tick, which moves the grid on, or without one. -/
def finish (ticker : Ticker) (t : Time) : Cause → Ticker × Except Fault Bool
  | .alarm => ({ ticker with grid := ticker.grid.advance t }, .ok true)
  | .closing => (ticker, .ok false)
  | .cancellation => (ticker, .error .aborted)
  | .deadline => (ticker, .error .overdue)

instance : Awaited Tick Ticker (Except Fault Bool) where
  wait ticker tick := .within .none tick.since (some tick.point) ticker.signal.givenAt
  finish ticker _ t cause := finish ticker t cause

/-- Begins to wait for the next point of the grid; a point that was overrun fires at once. -/
def begin (now : Time) (ticker : Ticker) : Task Tick (Except Fault Bool) :=
  if ticker.signal.given now then .ended now (.ok false)
  else .waiting ⟨now, Time.later now ticker.grid.next⟩ none

instance : Served (Task Tick (Except Fault Bool)) Ticker Unit TickerCommand (Option Bool) where
  begin now ticker _ := (ticker, begin now ticker)
  command now ticker
    | .close =>
      let (first, signal) := ticker.signal.close now
      ({ ticker with signal }, some first)
    | .closeIn span =>
      ({ ticker with signal := ticker.signal.schedule (now + Time.later 0 span) }, none)

end Tick
end ChainPoll

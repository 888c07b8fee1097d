import ChainPoll.Fault
import ChainPoll.Timeline.Program
import ChainPoll.Timeline.Signal
import ChainPoll.Timeline.Task

/-!
# Waiting for the signal

Any number of tasks wait for one signal, each for a limited time or without limit.  All of them
learn at once that the signal is given.

Main results:

- Theorem {lit}`Watch.begin_given`: waiting for a signal that was given is over at once.
- Theorem {lit}`Watch.begin_pending`: waiting for one that was not given begins a wait.
-/

namespace ChainPoll

/-- A wait for the signal: since when, and until when at most. -/
structure Watch where
  since : Time
  untilAt : Option Time
deriving DecidableEq, Repr

/-- A command to a signal. -/
inductive SignalCommand where
  /-- Gives the signal; the reply tells whether this was the first time. -/
  | close
  /-- Asks whether the signal was given. -/
  | closed
deriving DecidableEq, Repr

namespace Watch

/-- What comes of a wait for the signal: whether the signal was given. -/
def outcome : Cause → Except Fault Bool
  | .cancellation => .error .aborted
  | .deadline => .error .overdue
  | .alarm => .ok false
  | .closing => .ok true

instance : Awaited Watch Signal (Except Fault Bool) where
  wait signal watch := .within .none watch.since watch.untilAt signal.givenAt
  finish signal _ _ cause := (signal, outcome cause)

/-- Begins to wait for the signal; a time that is not positive is over at once. -/
def begin (now : Time) (signal : Signal) (span : Option Time) : Task Watch (Except Fault Bool) :=
  if signal.given now then .ended now (.ok true)
  else .waiting ⟨now, span.map fun s => now + Time.later 0 s⟩ none

instance : Served (Task Watch (Except Fault Bool)) Signal (Option Time) SignalCommand Bool where
  begin now signal span := (signal, begin now signal span)
  command now signal
    | .close => ((signal.close now).2, (signal.close now).1)
    | .closed => (signal, signal.given now)

/-- Waiting for a signal that was given is over at once. -/
theorem begin_given {now : Time} {signal : Signal} (h : signal.given now = true)
    (span : Option Time) : begin now signal span = .ended now (.ok true) := by
  simp [begin, h]

/-- Waiting for a signal that was not given begins a wait. -/
theorem begin_pending {now : Time} {signal : Signal} (h : signal.given now = false)
    (span : Option Time) :
    begin now signal span = .waiting ⟨now, span.map fun s => now + Time.later 0 s⟩ none := by
  simp [begin, h]

end Watch
end ChainPoll

import ChainPoll.Journal
import ChainPoll.Retry.Errand
import ChainPoll.Timeline.Agenda
import ChainPoll.Timeline.Grid
import ChainPoll.Timeline.Signal
import ChainPoll.Transport.Connector

/-!
# Retried calls

A call sends requests until one of them succeeds.  After the first failed attempt a grid of retries
is made, and every further attempt starts at a point of it.  A call ends early by a fault that
another attempt cannot mend, by the signal to stop between two attempts, and at any time by its
deadline or its cancellation.

Main results:

- Theorem {lit}`Retry.begin_of_given`: after the signal was given no call starts a request.
- Theorem {lit}`Retry.resume_ended`: a call that has ended stays as it is.
-/

namespace ChainPoll

/-- How a call tries again: the time between attempts, and how often it reports failures. -/
structure Policy where
  period : Time
  /--
  Of the failed attempts after the first, every one with a number divisible by this is reported.
  -/
  reportEach : Int
deriving DecidableEq, Repr

/-- What all calls share: the signal to stop, and the connector to the gateway. -/
structure Hub where
  signal : Signal
  gateway : Connector
deriving DecidableEq, Repr

/-- What a call leaves behind: its requests, and what it noted. -/
structure Trace where
  requests : List Request
  entries : List Entry
deriving DecidableEq, Repr

namespace Trace

/-- A call that has left nothing behind yet. -/
def empty : Trace := ⟨[], []⟩

/-- Adds a request that is over. -/
def addRequest (trace : Trace) (request : Request) : Trace :=
  { trace with requests := trace.requests ++ [request] }

/-- Adds notes made at an instant. -/
def addNotes (trace : Trace) (t : Time) (notes : List Note) : Trace :=
  { trace with entries := trace.entries ++ notes.map (Entry.mk t) }

end Trace

/-- Where a call stands. -/
inductive Retry.Phase where
  /-- An attempt is under way; there is no grid before the first one has failed. -/
  | flying (flight : Flight) (grid : Option Grid)
  /-- The call waits for the next point of the grid. -/
  | ticking (grid : Grid) (since : Time)
  | ended (endedAt : Time) (outcome : Except Fault (Option Payload))

/-- A call that is tried again and again. -/
structure Retry where
  errand : Errand
  policy : Policy
  limits : Limits
  script : Script
  /-- The number of the attempt that is under way, or comes next. -/
  attempt : Nat
  phase : Retry.Phase
  trace : Trace

/-- Whether a cause ends a whole call rather than an attempt. -/
def Cause.endsCall : Cause → Bool
  | .cancellation | .deadline => true
  | .alarm | .closing => false

namespace Retry

/-! ## Changes of a call -/

/-- Ends a call. -/
def finish (r : Retry) (t : Time) (outcome : Except Fault (Option Payload)) : Retry :=
  { r with phase := .ended t outcome }

/-- Notes something down. -/
def jot (r : Retry) (t : Time) (notes : List Note) : Retry :=
  { r with trace := r.trace.addNotes t notes }

/-- Ends a call between two attempts. -/
def stop (r : Retry) (t : Time) (reason : Stop) (fault : Fault) : Retry :=
  (r.jot t [.callStopped r.errand.path r.attempt reason]).finish t (.error fault)

/-- Starts an attempt. -/
def depart (hub : Hub) (r : Retry) (now : Time) (grid : Option Grid) : Hub × Retry :=
  match r.errand.url with
  | .error fault => (hub, r.finish now (.error fault))
  | .ok url =>
    let (answer, script) := r.script.next
    let (flight, gateway) := hub.gateway.depart now url answer
    ({ hub with gateway }, { r with script, phase := .flying flight grid })

/-- Plans the next attempt and waits for it, unless the signal was given. -/
def rest (hub : Hub) (r : Retry) (now : Time) (grid : Grid) : Retry :=
  let r := r.jot now [.retryPlanned r.errand.path r.attempt r.policy.period]
  let r := { r with attempt := r.attempt + 1 }
  if hub.signal.given now then r.stop now .shutdown .stopped
  else { r with phase := .ticking grid now }

/-- Reports a failed attempt. -/
def report (r : Retry) (now : Time) (fault : Fault) : Retry :=
  r.jot now [.attemptFailed r.errand.path r.attempt fault]

/-- Goes on after a failed attempt that another one may mend. -/
def recover (hub : Hub) (r : Retry) (now : Time) (grid : Option Grid) (fault : Fault) : Retry :=
  match grid with
  | none =>
    let r := r.report now fault
    match Grid.make? r.policy.period now with
    | .error refusal => r.finish now (.error refusal)
    | .ok grid => r.rest hub now grid
  | some grid =>
    if r.policy.reportEach = 0 then r.finish now (.error .zeroInterval)
    else if (r.attempt : Int) % r.policy.reportEach = 0 then (r.report now fault).rest hub now grid
    else r.rest hub now grid

/-- Goes on after the exchange of an attempt is over. -/
def land (hub : Hub) (r : Retry) (flight : Flight) (grid : Option Grid) (t : Time) (cause : Cause) :
    Retry :=
  let r := { r with trace := r.trace.addRequest (flight.request t) }
  match r.errand.interpret (flight.outcome cause) with
  | .ok payload => r.finish t (.ok payload)
  | .error fault =>
    if cause.endsCall || !fault.retryable then r.finish t (.error fault)
    else r.recover hub t grid fault

/-- Goes on after the wait between two attempts is over. -/
def wakeUp (hub : Hub) (r : Retry) (grid : Grid) (t : Time) : Cause → Hub × Retry
  | .alarm => r.depart hub t (some (grid.advance t))
  | .closing => (hub, r.stop t .shutdown .stopped)
  | .cancellation => (hub, r.stop t .cancelled .aborted)
  | .deadline => (hub, r.stop t .cancelled .overdue)

/-! ## The life of a call -/

/-- Begins a call; one that begins after the signal was given ends at once. -/
def begin (hub : Hub) (now : Time) (errand : Errand) (policy : Policy) (limits : Limits)
    (script : Script) (trace : Trace) : Hub × Retry :=
  let r : Retry :=
    { errand, policy, limits, script, attempt := 1, phase := .ended now (.error .stopped), trace }
  if hub.signal.given now then (hub, r) else r.depart hub now none

/-- What a call waits for. -/
def wait? (hub : Hub) (r : Retry) : Option Wait :=
  match r.phase with
  | .flying flight _ => some (flight.wait hub.gateway.sessions r.limits)
  | .ticking grid since => some (.within r.limits since (some grid.next) hub.signal.givenAt)
  | .ended _ _ => none

/-- When and why a call moves next. -/
def wake (hub : Hub) (r : Retry) : Option (Time × Cause) :=
  (r.wait? hub).bind Wait.wake

/-- The next move of a call. -/
def resume (hub : Hub) (r : Retry) : Hub × Retry :=
  match r.wake hub, r.phase with
  | some (t, cause), .flying flight grid => (hub, r.land hub flight grid t cause)
  | some (t, cause), .ticking grid _ => r.wakeUp hub grid t cause
  | _, _ => (hub, r)

/-- How a call ended, if it has. -/
def outcome? (r : Retry) : Option (Time × Except Fault (Option Payload)) :=
  match r.phase with
  | .ended endedAt outcome => some (endedAt, outcome)
  | _ => none

/-- A call that is cancelled at an instant. -/
def cancel (t : Time) (r : Retry) : Retry :=
  { r with limits := { r.limits with cancelAt := some t } }

instance : Timed Hub Retry where
  due hub r := (r.wake hub).map (·.1)
  resume := resume
  ended r := r.outcome?.isSome
  cancel := cancel

/-- After the signal was given no call starts a request. -/
theorem begin_of_given {hub : Hub} {now : Time} (h : hub.signal.given now = true) (errand : Errand)
    (policy : Policy) (limits : Limits) (script : Script) (trace : Trace) :
    (begin hub now errand policy limits script trace).1 = hub
      ∧ (begin hub now errand policy limits script trace).2.outcome?
        = some (now, .error .stopped)
      ∧ (begin hub now errand policy limits script trace).2.trace = trace := by
  simp [begin, h, outcome?]

/-- A call that has ended stays as it is. -/
theorem resume_ended {hub : Hub} {r : Retry} (h : r.outcome?.isSome = true) :
    r.resume hub = (hub, r) := by
  unfold outcome? at h
  split at h
  · next hphase => simp [resume, wake, wait?, hphase]
  · simp at h

end Retry
end ChainPoll

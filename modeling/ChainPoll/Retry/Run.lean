import ChainPoll.Retry.Basic

/-!
# Runs of single calls

A single attempt from its start to its end, and a retried call from its start to its end, with the
events that disturb it from outside given beforehand.

Main results:

- Theorem {lit}`Retry.run_of_ended`: a call that has ended is not run any further.
- Theorem {lit}`Retry.run_add`: a run continues from where a shorter one left off.
-/

namespace ChainPoll

/-! ## Single attempts -/

/-- What comes of a single attempt. -/
structure Attempt where
  endedAt : Time
  outcome : Except Fault (Option Payload)
  requests : List Request

/-- A single attempt from its start to its end; none if it never ends. -/
def Errand.attempt? (errand : Errand) (gateway : Connector) (now : Time) (answer : Answer) :
    Option Attempt :=
  match errand.url with
  | .error fault => some ⟨now, .error fault, []⟩
  | .ok url =>
    let (flight, gateway) := gateway.depart now url answer
    (flight.wait gateway.sessions .none).wake.map fun (t, cause) =>
      ⟨t, errand.interpret (flight.outcome cause), [flight.request t]⟩

/-! ## Disturbances -/

/-- What can happen to a call from outside. -/
inductive Disturbance where
  /-- The signal to stop is given. -/
  | close
  /-- The call is cancelled. -/
  | cancel
deriving DecidableEq, Repr

namespace Disturbance

/-- The signal of a call that events disturb. -/
def signal (events : List (Time × Disturbance)) : Signal :=
  events.foldl (fun s event => if event.2 = .close then s.schedule event.1 else s) .pending

/-- The first instant at which events cancel a call. -/
def cancelAt (events : List (Time × Disturbance)) : Option Time :=
  events.foldl (fun first event =>
    if event.2 = .cancel then some (first.elim event.1 (Time.earlier event.1)) else first) none

end Disturbance

/-! ## Retried calls -/

namespace Retry

/-- Runs a call to its end, within a budget of moves. -/
def run : Nat → Hub → Retry → Hub × Retry
  | 0, hub, r => (hub, r)
  | budget + 1, hub, r =>
    if r.outcome?.isSome then (hub, r)
    else
      let (hub, r) := r.resume hub
      run budget hub r

/-- A call that has ended is not run any further. -/
theorem run_of_ended {r : Retry} (h : r.outcome?.isSome = true) (budget : Nat) (hub : Hub) :
    run budget hub r = (hub, r) := by
  cases budget <;> simp [run, h]

/-- A run continues from where a shorter one left off. -/
theorem run_add (m n : Nat) (hub : Hub) (r : Retry) :
    run (m + n) hub r = run n (run m hub r).1 (run m hub r).2 := by
  induction m generalizing hub r with
  | zero => simp [run]
  | succ m ih =>
    by_cases h : r.outcome?.isSome = true
    · rw [run_of_ended h, run_of_ended h, run_of_ended h]
    · rw [Nat.add_right_comm]
      simp only [run, h, Bool.false_eq_true, if_false]
      exact ih _ _

end Retry
end ChainPoll

import ChainPoll.Proofs.Retry.Moves

/-!
# Calls that follow others

A call that begins after others have left something behind adds to what they left.  It makes the
moves that it would make as the first one.

Main results:

- Theorem {lit}`Retry.resume_following`: a move does not depend on what was left behind before the
  call.
- Theorem {lit}`Retry.Plan.begin_following`: a call that follows others begins like the planned
  call.
- Theorem {lit}`Retry.Plan.resume_after_following`: it makes the moves of the planned call.
-/

namespace ChainPoll

/-- What is left behind after something else was. -/
def Trace.following (trace earlier : Trace) : Trace :=
  ⟨earlier.requests ++ trace.requests, earlier.entries ++ trace.entries⟩

/-- Notes are added at the end. -/
theorem Trace.addNotes_following (trace earlier : Trace) (t : Time) (notes : List Note) :
    (trace.following earlier).addNotes t notes = (trace.addNotes t notes).following earlier := by
  simp [addNotes, following, List.append_assoc]

/-- Requests are added at the end. -/
theorem Trace.addRequest_following (trace earlier : Trace) (request : Request) :
    (trace.following earlier).addRequest request =
    (trace.addRequest request).following earlier := by
  simp [addRequest, following, List.append_assoc]

/-- Without anything left behind before, there is only what was left behind since. -/
theorem Trace.empty_following (earlier : Trace) : Trace.empty.following earlier = earlier := by
  simp [empty, following]

namespace Retry

variable {hub : Hub} {r : Retry} {earlier : Trace}

/-- The same call, after something was left behind before it. -/
def following (r : Retry) (earlier : Trace) : Retry :=
  { r with trace := r.trace.following earlier }

/-! ## Moves after others -/

/-- Notes are made in the same way after others. -/
theorem jot_following (r : Retry) (earlier : Trace) (t : Time) (notes : List Note) :
    (r.following earlier).jot t notes = (r.jot t notes).following earlier := by
  simp only [jot, following, Trace.addNotes_following]

/-- Calls stop in the same way after others. -/
theorem stop_following (r : Retry) (earlier : Trace) (t : Time) (reason : Stop) (fault : Fault) :
    (r.following earlier).stop t reason fault = (r.stop t reason fault).following earlier := by
  simp only [stop, jot, following, finish, Trace.addNotes_following]

/-- Attempts start in the same way after others. -/
theorem depart_following (hub : Hub) (r : Retry) (earlier : Trace) (t : Time)
    (grid : Option Grid) :
    (r.following earlier).depart hub t grid =
      ((r.depart hub t grid).1, (r.depart hub t grid).2.following earlier) := by
  cases hurl : r.errand.url with
  | error fault => simp [depart, following, hurl, finish]
  | ok url => simp [depart, following, hurl]

/-- Rests are the same after others. -/
theorem rest_following (hub : Hub) (r : Retry) (earlier : Trace) (t : Time) (grid : Grid) :
    (r.following earlier).rest hub t grid = (r.rest hub t grid).following earlier := by
  cases h : hub.signal.given t with
  | true =>
      rw [rest_of_given h, rest_of_given h]
      simp only [following, Trace.addNotes_following]
  | false =>
      rw [rest_of_not_given h, rest_of_not_given h]
      simp only [following, Trace.addNotes_following]

/-- A call goes on after a failed attempt in the same way after others. -/
theorem recover_following (hub : Hub) (r : Retry) (earlier : Trace) (t : Time)
    (grid : Option Grid) (fault : Fault) :
    (r.following earlier).recover hub t grid fault =
      (r.recover hub t grid fault).following earlier := by
  cases grid with
  | none =>
      by_cases hperiod : 0 < r.policy.period
      · have hperiod' : 0 < (r.following earlier).policy.period := hperiod
        rw [recover_first hperiod, recover_first hperiod', ← rest_following, ← jot_following]
        rfl
      · have hperiod' : ¬ 0 < (r.following earlier).policy.period := hperiod
        rw [recover_refused hperiod, recover_refused hperiod', jot_following]
        rfl
  | some grid =>
      by_cases hreport : r.policy.reportEach = 0
      · simp [recover, following, hreport, finish]
      · have hreport' : (r.following earlier).policy.reportEach ≠ 0 := hreport
        rw [recover_later hreport, recover_later hreport', ← rest_following, ← jot_following]
        rfl

/-- Exchanges land in the same way after others. -/
theorem land_following (hub : Hub) (r : Retry) (earlier : Trace) (flight : Flight)
    (grid : Option Grid) (t : Time) (cause : Cause) :
    (r.following earlier).land hub flight grid t cause =
      (r.land hub flight grid t cause).following earlier := by
  have hlanded : { r.following earlier with
      trace := (r.following earlier).trace.addRequest (flight.request t) } =
        { r with trace := r.trace.addRequest (flight.request t) }.following earlier := by
    simp only [following, Trace.addRequest_following]
  by_cases hlast : ∀ fault, r.errand.interpret (flight.outcome cause) = .error fault →
      cause.endsCall = true ∨ fault.retryable = false
  · have hlast' : ∀ fault,
        (r.following earlier).errand.interpret (flight.outcome cause) = .error fault →
          cause.endsCall = true ∨ fault.retryable = false := hlast
    rw [land_eq_finish grid t hlast, land_eq_finish grid t hlast', hlanded]
    rfl
  · push Not at hlast
    obtain ⟨fault, hcame, hcause, hfatal⟩ := hlast
    have hcame' : (r.following earlier).errand.interpret (flight.outcome cause) = .error fault :=
      hcame
    have hcause' : cause.endsCall = false := by simpa using hcause
    have hretryable : fault.retryable = true := by simpa using hfatal
    rw [land_eq_recover grid t hcame hcause' hretryable,
      land_eq_recover grid t hcame' hcause' hretryable, hlanded, recover_following]

/-- A move does not depend on what was left behind before the call. -/
theorem resume_following (hub : Hub) (r : Retry) (earlier : Trace) :
    (r.following earlier).resume hub =
      ((r.resume hub).1, (r.resume hub).2.following earlier) := by
  have hsame : (r.following earlier).wake hub = r.wake hub := rfl
  cases hwake : r.wake hub with
  | none => rw [resume_of_wake_eq_none (hsame.trans hwake), resume_of_wake_eq_none hwake]
  | some a =>
      obtain ⟨t, cause⟩ := a
      cases hphase : r.phase with
      | flying flight grid =>
          have hphase' : (r.following earlier).phase = .flying flight grid := hphase
          simp only [resume, hsame, hwake, hphase, hphase', land_following]
      | ticking grid since =>
          have hphase' : (r.following earlier).phase = .ticking grid since := hphase
          simp only [resume, hsame, hwake, hphase, hphase']
          cases cause with
          | alarm => exact depart_following hub r earlier t _
          | closing => simp only [wakeUp, stop_following]
          | cancellation => simp only [wakeUp, stop_following]
          | deadline => simp only [wakeUp, stop_following]
      | ended endedAt outcome =>
          rw [wake_ended hphase] at hwake
          simp at hwake

/-! ## Whole calls after others -/

/-- A call that follows others begins like the planned call. -/
theorem Plan.begin_following (p : Plan) (limits : Limits) (earlier : Trace) :
    Retry.begin p.hub p.now p.errand p.policy limits p.script earlier =
      ((p.after limits 0).1, (p.after limits 0).2.following earlier) := by
  have hzero : p.after limits 0 =
      Retry.begin p.hub p.now p.errand p.policy limits p.script .empty := rfl
  rw [hzero]
  cases hgiven : p.hub.signal.given p.now with
  | true => simp [Retry.begin, hgiven, following, Trace.empty_following]
  | false =>
      simp only [Retry.begin, hgiven, Bool.false_eq_true, if_false]
      rw [← depart_following]
      simp only [following, Trace.empty_following]

/-- A call that follows others makes the moves of the planned call. -/
theorem Plan.resume_after_following (p : Plan) (limits : Limits) (earlier : Trace) (n : Nat) :
    ((p.after limits n).2.following earlier).resume (p.after limits n).1 =
      ((p.after limits (n + 1)).1, (p.after limits (n + 1)).2.following earlier) := by
  rw [resume_following, after_succ]

end Retry
end ChainPoll

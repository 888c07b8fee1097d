import ChainPoll.Proofs.Retry.Standing

/-!
# Calls at other times

The clock of a call has no origin, and before the signal is given the hub tells a call nothing but
the time that an attempt has.  A call that stands as another one does, only later, makes the same
moves over any such hub, each of them later by as much.

Main results:

- Theorem {lit}`Hub.Open.grown`: a move leaves a hub open.
- Theorem {lit}`Retry.wake_shift`: when and why a call moves that stands as another one, only later.
- Theorem {lit}`Retry.begin_shift`: a call that begins later begins in the same way.
- Theorem {lit}`Retry.resume_shift`: a call that stands as another one, only later, makes the same
  move.
-/

namespace ChainPoll

variable {d now t : Time}

namespace Time

/-- Of two instants that are both shifted the same one is the later one. -/
theorem later_shift (d t u : Time) : later (d + t) (d + u) = d + later t u := by
  unfold later
  split <;> split <;> grind

/-- A shifted instant is reached when the shifted clock reaches it. -/
theorem reached_shift (d now : Time) (t : Option Time) :
    reached (d + now) (t.map (d + ·)) = reached now t := by
  cases t <;> simp [reached]

end Time

/-! ## Waits -/

/-- The same limits, only later. -/
def Limits.shift (d : Time) (limits : Limits) : Limits :=
  ⟨limits.deadlineAt.map (d + ·), limits.cancelAt.map (d + ·)⟩

namespace Wait

/-- The same wait, only later. -/
def shift (d : Time) (w : Wait) : Wait where
  since := d + w.since
  cancelAt := w.cancelAt.map (d + ·)
  deadlineAt := w.deadlineAt.map (d + ·)
  alarmAt := w.alarmAt.map (d + ·)
  closingAt := w.closingAt.map (d + ·)

/-- The causes of a shifted wait strike later. -/
theorem instant_shift (d : Time) (w : Wait) (cause : Cause) :
    (w.shift d).instant cause = (w.instant cause).map (d + ·) := by
  cases cause <;> rfl

/-- Shifted causes go before each other as they did. -/
theorem precedes_shift {a b : Time × Cause} (h : Precedes a b) :
    Precedes (d + a.1, a.2) (d + b.1, b.2) := by
  simpa [Precedes] using h

/-- A shifted wait ends later, and by the same cause. -/
theorem wake_shift (d : Time) (w : Wait) :
    (w.shift d).wake = w.wake.map fun a => (d + a.1, a.2) := by
  cases hwake : w.wake with
  | none =>
      rw [wake_eq_none_iff] at hwake
      refine wake_eq_none_iff.mpr fun cause => ?_
      rw [instant_shift, hwake cause, Option.map_none]
  | some a =>
      obtain ⟨⟨u, hu, htime⟩, hfirst⟩ := wake_eq_some_iff.mp hwake
      refine wake_eq_some_iff.mpr ⟨⟨d + u, ?_, ?_⟩, ?_⟩
      · rw [instant_shift, hu, Option.map_some]
      · rw [htime]
        exact (Time.later_shift d _ _).symm
      · intro cause v hv
        rw [instant_shift] at hv
        obtain ⟨x, hx, rfl⟩ := Option.map_eq_some_iff.mp hv
        have hbefore := precedes_shift (d := d) (hfirst cause x hx)
        rwa [← Time.later_shift] at hbefore

end Wait

/-! ## Exchanges -/

/-- The same end of a pause, only later. -/
def Arrival.shift (d : Time) : Arrival → Arrival
  | .reached t => .reached (d + t)
  | .cutOff t => .cutOff (d + t)
  | .never => .never

/-- A pause that begins later ends later. -/
theorem Pause.arrival_shift (pause : Pause) (d start : Time) (cutoff : Option Time) :
    pause.arrival (d + start) (cutoff.map (d + ·)) = (pause.arrival start cutoff).shift d := by
  cases pause with
  | endless => cases cutoff <;> rfl
  | lasting span =>
      by_cases hspan : span ≤ 0
      · simp [arrival, hspan, Arrival.shift]
      · cases cutoff with
        | none => simp [arrival, hspan, Arrival.shift, add_assoc]
        | some c =>
            by_cases hlate : c < start + span
            · simp [arrival, hspan, Arrival.shift, hlate, add_assoc]
            · simp [arrival, hspan, Arrival.shift, hlate, add_assoc]

/-- The same course, only later. -/
def Course.shift (d : Time) (course : Course) : Course :=
  ⟨course.readAt.map (d + ·), course.landing.map fun landing => (d + landing.1, landing.2)⟩

/-- The course of an answer without a body that arrives later. -/
theorem Course.bare_shift (d : Time) (arrival : Arrival) (result : Except Fault Body) :
    bare (arrival.shift d) result = (bare arrival result).shift d := by
  cases arrival <;> rfl

/-- The course of an answer whose body is read later. -/
theorem Course.reading_shift (d start : Time) (arrival : Arrival) (result : Except Fault Body) :
    reading (d + start) (arrival.shift d) result = (reading start arrival result).shift d := by
  cases arrival <;> rfl

/-- An exchange that starts later takes the same course. -/
theorem Answer.course_shift (answer : Answer) (d start : Time) (cutoff : Option Time) :
    answer.course (d + start) (cutoff.map (d + ·)) = (answer.course start cutoff).shift d := by
  cases answer with
  | failure delay fault =>
      simp only [course, Pause.arrival_shift, Course.bare_shift]
  | reply delay status readDelay body =>
      simp only [course, Pause.arrival_shift]
      cases harrival : delay.arrival start cutoff with
      | reached t =>
          rw [Arrival.shift]
          dsimp only
          split
          · rfl
          · split
            · rw [Pause.arrival_shift, Course.reading_shift]
            · rfl
      | cutOff t => rfl
      | never => rfl

namespace Flight

/-- The same exchange, only later. -/
def shift (d : Time) (flight : Flight) : Flight :=
  { flight with startedAt := d + flight.startedAt, course := flight.course.shift d }

/-- An exchange takes no time at any time. -/
theorem settled_shift (d : Time) (flight : Flight) : (flight.shift d).settled = flight.settled := by
  cases hlanding : flight.course.landing <;> simp [settled, shift, Course.shift, hlanding]

/-- What comes of an exchange does not depend on when it starts. -/
theorem outcome_shift (d : Time) (flight : Flight) (cause : Cause) :
    (flight.shift d).outcome cause = flight.outcome cause := by
  cases hlanding : flight.course.landing <;>
    cases cause <;> simp [outcome, shift, Course.shift, hlanding]

end Flight

/-- The same request, only later. -/
def Request.shift (d : Time) (request : Request) : Request :=
  { request with startedAt := d + request.startedAt, endedAt := d + request.endedAt }

/-- The request of a shifted exchange. -/
theorem Flight.request_shift (d : Time) (flight : Flight) (endedAt : Time) :
    (flight.shift d).request (d + endedAt) = (flight.request endedAt).shift d := by
  simp [request, Request.shift, shift, Course.shift, Time.reached_shift]

/-! ## Grids -/

namespace Grid

/-- The same grid, only later. -/
def shift (d : Time) (grid : Grid) : Grid :=
  { grid with next := d + grid.next }

/-- A tick moves a shifted grid on as far. -/
theorem advance_shift (d : Time) (grid : Grid) (firedAt : Time) :
    (grid.shift d).advance (d + firedAt) = (grid.advance firedAt).shift d := by
  have hskip : (grid.shift d).skip (d + firedAt) = grid.skip firedAt := by
    simp [skip, shift]
  rw [advance, hskip]
  simp only [advance, shift, add_assoc]

end Grid

/-! ## Open hubs -/

namespace Hub

variable {hub hub' : Hub} {timeout : Time}

/-- Whether nothing of a hub can disturb a call: no signal was given, and no session was closed. -/
structure Open (timeout : Time) (hub : Hub) : Prop where
  pending : hub.signal.givenAt = none
  timeout_eq : hub.gateway.timeout = timeout
  sessions : hub.gateway.sessions.closings = [] ∨ hub.gateway.sessions.closings = [none]

/-- The hub of a client that was just made is open. -/
theorem open_fresh (timeout : Time) : Open timeout ⟨.pending, .fresh timeout⟩ :=
  ⟨rfl, rfl, .inl rfl⟩

/-- The signal of an open hub is never found given. -/
theorem Open.given_eq (h : hub.Open timeout) (now : Time) : hub.signal.given now = false := by
  simp [Signal.given, h.pending, Time.reached]

/-- No session of an open hub was closed. -/
theorem Open.closingOf_eq (h : hub.Open timeout) (number : Nat) :
    hub.gateway.sessions.closingOf number = none := by
  rcases h.sessions with hnone | hone
  · simp [Sessions.closingOf, hnone]
  · simp only [Sessions.closingOf, hone]
    rcases number - 1 with _ | n <;> rfl

/-- A request over an open hub is sent on the first session. -/
theorem Open.depart_eq (h : hub.Open timeout) (now : Time) (url : String) (answer : Answer) :
    hub.gateway.depart now url answer =
      (⟨url, 1, now, answer.course now (if 0 < timeout then some (now + timeout) else none)⟩,
        ⟨timeout, ⟨[none]⟩⟩) := by
  have hacquired : hub.gateway.sessions.acquire now = (1, ⟨[none]⟩) := by
    obtain ⟨-, -, hnone | hone⟩ := h
    · simp [Sessions.acquire, Sessions.isOpen, Sessions.count, hnone]
    · obtain ⟨signal, timeout, ⟨closings⟩⟩ := hub
      cases hone
      simp [Sessions.acquire, Sessions.isOpen, Sessions.count, Time.reached]
  simp only [Connector.depart, Connector.session, hacquired, Connector.cutoff, h.timeout_eq]

/-- A move leaves a hub open. -/
theorem Open.grown (h : hub.Open timeout) (hgrown : Grown now hub hub') : hub'.Open timeout := by
  rcases hgrown with rfl | ⟨url, answer, rfl⟩
  · exact h
  · refine ⟨h.pending, ?_, .inr ?_⟩ <;> simp only [sent, h.depart_eq]

/-- An exchange that is sent later over an open hub is the same, only later. -/
theorem Open.depart_shift (h : hub.Open timeout) (h' : hub'.Open timeout) (d now : Time)
    (url : String) (answer : Answer) :
    (hub'.gateway.depart (d + now) url answer).1 =
      (hub.gateway.depart now url answer).1.shift d := by
  have hcutoff : (if 0 < timeout then some (d + now + timeout) else none) =
      (if 0 < timeout then some (now + timeout) else none).map (d + ·) := by
    split <;> simp [add_assoc]
  simp only [h.depart_eq, h'.depart_eq, hcutoff, Answer.course_shift, Flight.shift]

/-- The wait for the end of a shifted exchange over an open hub. -/
theorem Open.wait_shift (h : hub.Open timeout) (h' : hub'.Open timeout) (d : Time)
    (flight : Flight) (limits : Limits) :
    (flight.shift d).wait hub'.gateway.sessions (limits.shift d) =
      (flight.wait hub.gateway.sessions limits).shift d := by
  simp only [Flight.wait, Flight.settled_shift, h.closingOf_eq, h'.closingOf_eq]
  split
  · rfl
  · cases hlanding : flight.course.landing <;>
      simp [Wait.within, Wait.shift, Limits.shift, Flight.shift, Course.shift, hlanding]

end Hub

/-! ## What calls leave behind -/

/-- The same entry, only later. -/
def Entry.shift (d : Time) (entry : Entry) : Entry :=
  { entry with time := d + entry.time }

namespace Trace

/-- The same trace, only later. -/
def shift (d : Time) (trace : Trace) : Trace :=
  ⟨trace.requests.map (Request.shift d), trace.entries.map (Entry.shift d)⟩

/-- Notes are added later to a shifted trace. -/
theorem addNotes_shift (d : Time) (trace : Trace) (t : Time) (notes : List Note) :
    (trace.shift d).addNotes (d + t) notes = (trace.addNotes t notes).shift d := by
  simp [addNotes, shift, Entry.shift, Function.comp_def]

/-- Requests are added later to a shifted trace. -/
theorem addRequest_shift (d : Time) (trace : Trace) (request : Request) :
    (trace.shift d).addRequest (request.shift d) = (trace.addRequest request).shift d := by
  simp [addRequest, shift]

end Trace

/-! ## Retried calls -/

/-- The same place, only later. -/
def Retry.Phase.shift (d : Time) : Phase → Phase
  | .flying flight grid => .flying (flight.shift d) (grid.map (Grid.shift d))
  | .ticking grid since => .ticking (grid.shift d) (d + since)
  | .ended endedAt outcome => .ended (d + endedAt) outcome

namespace Retry

variable {hub hub' : Hub} {timeout : Time} {r : Retry}

/-- The same call, only later. -/
def shift (d : Time) (r : Retry) : Retry :=
  { r with
    limits := r.limits.shift d
    phase := r.phase.shift d
    trace := r.trace.shift d }

/-- A shifted call ends later, and in the same way. -/
theorem outcome?_shift (d : Time) (r : Retry) :
    (r.shift d).outcome? = r.outcome?.map fun a => (d + a.1, a.2) := by
  cases hphase : r.phase <;> simp [outcome?, shift, Phase.shift, hphase]

/-- Notes are made later by a shifted call. -/
theorem jot_shift (d : Time) (r : Retry) (t : Time) (notes : List Note) :
    (r.shift d).jot (d + t) notes = (r.jot t notes).shift d := by
  simp only [jot, shift, Trace.addNotes_shift]

/-- A shifted call ends later. -/
theorem finish_shift (d : Time) (r : Retry) (t : Time)
    (outcome : Except Fault (Option Payload)) :
    (r.shift d).finish (d + t) outcome = (r.finish t outcome).shift d := rfl

/-- A shifted call stops later. -/
theorem stop_shift (d : Time) (r : Retry) (t : Time) (reason : Stop) (fault : Fault) :
    (r.shift d).stop (d + t) reason fault = (r.stop t reason fault).shift d := by
  rw [stop, stop, ← finish_shift, ← jot_shift]
  rfl

section

variable (h : hub.Open timeout) (h' : hub'.Open timeout)

include h h'

/-- A shifted call wakes later, and by the same cause. -/
theorem wake_shift (d : Time) (r : Retry) :
    (r.shift d).wake hub' = (r.wake hub).map fun a => (d + a.1, a.2) := by
  cases hphase : r.phase with
  | flying flight grid =>
      have hphase' : (r.shift d).phase = .flying (flight.shift d) (grid.map (Grid.shift d)) := by
        rw [shift, hphase, Phase.shift]
      rw [wake_flying hphase, wake_flying hphase', ← Wait.wake_shift, ← h.wait_shift h']
      rfl
  | ticking grid since =>
      have hphase' : (r.shift d).phase = .ticking (grid.shift d) (d + since) := by
        rw [shift, hphase, Phase.shift]
      rw [wake_ticking hphase, wake_ticking hphase', ← Wait.wake_shift, h.pending, h'.pending]
      rfl
  | ended endedAt outcome =>
      have hphase' : (r.shift d).phase = .ended (d + endedAt) outcome := by
        rw [shift, hphase, Phase.shift]
      rw [wake_ended hphase, wake_ended hphase', Option.map_none]

/-- A shifted call starts its attempts later. -/
theorem depart_shift (d : Time) (r : Retry) (t : Time) (grid : Option Grid) :
    ((r.shift d).depart hub' (d + t) (grid.map (Grid.shift d))).2 =
      (r.depart hub t grid).2.shift d := by
  cases hurl : r.errand.url with
  | error fault => simp [depart, shift, hurl, finish, Phase.shift]
  | ok url => simp [depart, shift, hurl, Phase.shift, h.depart_shift h']

/-- A shifted call waits later for its grid. -/
theorem rest_shift (d : Time) (r : Retry) (t : Time) (grid : Grid) :
    (r.shift d).rest hub' (d + t) (grid.shift d) = (r.rest hub t grid).shift d := by
  rw [rest_of_not_given (h.given_eq t), rest_of_not_given (h'.given_eq (d + t))]
  simp only [shift, Trace.addNotes_shift, Phase.shift]

/-- A shifted call goes on later after a failed attempt. -/
theorem recover_shift (d : Time) (r : Retry) (t : Time) (grid : Option Grid) (fault : Fault) :
    (r.shift d).recover hub' (d + t) (grid.map (Grid.shift d)) fault =
      (r.recover hub t grid fault).shift d := by
  cases grid with
  | none =>
      by_cases hperiod : 0 < r.policy.period
      · have hperiod' : 0 < (r.shift d).policy.period := hperiod
        rw [Option.map_none, recover_first hperiod, recover_first hperiod', ← rest_shift h h',
          ← jot_shift]
        simp only [Grid.shift, add_assoc]
        rfl
      · have hperiod' : ¬ 0 < (r.shift d).policy.period := hperiod
        rw [Option.map_none, recover_refused hperiod, recover_refused hperiod', ← finish_shift,
          ← jot_shift]
        rfl
  | some grid =>
      by_cases hreport : r.policy.reportEach = 0
      · simp [recover, shift, hreport, finish, Phase.shift]
      · have hreport' : (r.shift d).policy.reportEach ≠ 0 := hreport
        rw [Option.map_some, recover_later hreport, recover_later hreport', ← rest_shift h h',
          ← jot_shift]
        rfl

/-- The exchanges of a shifted call land later. -/
theorem land_shift (d : Time) (r : Retry) (flight : Flight) (grid : Option Grid) (t : Time)
    (cause : Cause) :
    (r.shift d).land hub' (flight.shift d) (grid.map (Grid.shift d)) (d + t) cause =
      (r.land hub flight grid t cause).shift d := by
  have hlanded : { r.shift d with
      trace := (r.shift d).trace.addRequest ((flight.shift d).request (d + t)) } =
        { r with trace := r.trace.addRequest (flight.request t) }.shift d := by
    simp only [shift, Flight.request_shift, Trace.addRequest_shift]
  have hcame : (r.shift d).errand.interpret ((flight.shift d).outcome cause) =
      r.errand.interpret (flight.outcome cause) := by
    rw [Flight.outcome_shift]
    rfl
  by_cases hlast : ∀ fault, r.errand.interpret (flight.outcome cause) = .error fault →
      cause.endsCall = true ∨ fault.retryable = false
  · rw [land_eq_finish grid t hlast, land_eq_finish _ _ (hcame ▸ hlast), hlanded, hcame]
    rfl
  · push Not at hlast
    obtain ⟨fault, hfault, hcause, hfatal⟩ := hlast
    have hcause' : cause.endsCall = false := by simpa using hcause
    have hretryable : fault.retryable = true := by simpa using hfatal
    rw [land_eq_recover grid t hfault hcause' hretryable,
      land_eq_recover _ _ (hcame.trans hfault) hcause' hretryable, hlanded, recover_shift h h']

/-- A shifted call makes the same move, only later. -/
theorem resume_shift (d : Time) (r : Retry) :
    ((r.shift d).resume hub').2 = (r.resume hub).2.shift d := by
  have hsame := wake_shift h h' d r
  cases hwake : r.wake hub with
  | none =>
      rw [hwake] at hsame
      rw [resume_of_wake_eq_none hwake, resume_of_wake_eq_none hsame]
  | some a =>
      obtain ⟨t, cause⟩ := a
      rw [hwake, Option.map_some] at hsame
      cases hphase : r.phase with
      | flying flight grid =>
          have hphase' : (r.shift d).phase =
              .flying (flight.shift d) (grid.map (Grid.shift d)) := by
            rw [shift, hphase, Phase.shift]
          simp only [resume, hsame, hwake, hphase, hphase', land_shift h h']
      | ticking grid since =>
          have hphase' : (r.shift d).phase = .ticking (grid.shift d) (d + since) := by
            rw [shift, hphase, Phase.shift]
          simp only [resume, hsame, hwake, hphase, hphase']
          cases cause with
          | alarm =>
              simp only [wakeUp, Grid.advance_shift]
              exact depart_shift h h' d r t (some (grid.advance t))
          | closing => simp only [wakeUp, stop_shift]
          | cancellation => simp only [wakeUp, stop_shift]
          | deadline => simp only [wakeUp, stop_shift]
      | ended endedAt outcome =>
          rw [wake_ended hphase] at hwake
          simp at hwake

/-- A call that begins later begins in the same way. -/
theorem begin_shift (d t : Time) (errand : Errand) (policy : Policy) (limits : Limits)
    (script : Script) (trace : Trace) :
    (begin hub' (d + t) errand policy (limits.shift d) script (trace.shift d)).2 =
      (begin hub t errand policy limits script trace).2.shift d := by
  simp only [begin, h.given_eq, h'.given_eq, Bool.false_eq_true, if_false]
  rw [← depart_shift h h']
  rfl

end

/-- A move leaves an open hub open. -/
theorem open_resume (h : hub.Open timeout) (r : Retry) : (r.resume hub).1.Open timeout := by
  cases hwake : r.wake hub with
  | none =>
      rw [resume_of_wake_eq_none hwake]
      exact h
  | some a => exact h.grown (moved_resume hwake).grown

end Retry
end ChainPoll

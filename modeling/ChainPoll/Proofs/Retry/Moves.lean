import Mathlib.Data.Rat.Floor
import ChainPoll.Proofs.Timeline.Waking
import ChainPoll.Retry.Run

/-!
# Moves of a call

A call moves when its wait is over: an attempt lands, or the wait for the next point of the grid
ends. This module says once what a move can do, what it leaves alone, and that a call makes only
finitely many moves before any instant, because every tick brings it one point of its grid further.

Main results:

- Theorem {lit}`Retry.moved_resume`: what the next move of a call can do.
- Theorem {lit}`Retry.Moved.trace_eq`: what a move adds to the trace, all of it at its instant.
- Theorem {lit}`Retry.Moved.starts_eq`: a move starts at most one request.
- Theorem {lit}`Retry.exists_last_move_before`: before any instant a call moves finitely often.
-/

namespace ChainPoll

/-- Adding notes twice at one instant is adding them all. -/
theorem Trace.addNotes_addNotes (trace : Trace) (t : Time) (notes more : List Note) :
    (trace.addNotes t notes).addNotes t more = trace.addNotes t (notes ++ more) := by
  simp [addNotes, List.append_assoc]

/-- Adding no notes changes nothing. -/
theorem Trace.addNotes_nil (trace : Trace) (t : Time) : trace.addNotes t [] = trace := by
  simp [addNotes]

/-- When, for what and on which session a request was started. -/
def Request.start (request : Request) : Time × String × Nat :=
  (request.startedAt, request.url, request.session)

namespace Retry

variable {hub : Hub} {r : Retry} {t : Time} {cause : Cause}

/-! ## What a call waits for -/

/-- The instant since which a call stands where it does. -/
def began (r : Retry) : Time :=
  match r.phase with
  | .flying flight _ => flight.startedAt
  | .ticking _ since => since
  | .ended endedAt _ => endedAt

/-- The wait of a call under way is the wait for the end of its exchange. -/
theorem wake_flying {flight : Flight} {grid : Option Grid} (h : r.phase = .flying flight grid) :
    r.wake hub = (flight.wait hub.gateway.sessions r.limits).wake := by
  simp [wake, wait?, h]

/-- Between two attempts a call waits for its grid or for the signal. -/
theorem wake_ticking {grid : Grid} {since : Time} (h : r.phase = .ticking grid since) :
    r.wake hub =
      (Wait.within r.limits since (some grid.next) hub.signal.givenAt).wake := by
  simp [wake, wait?, h]

/-- A call that has ended waits for nothing. -/
theorem wake_ended {endedAt : Time} {outcome : Except Fault (Option Payload)}
    (h : r.phase = .ended endedAt outcome) : r.wake hub = none := by
  simp [wake, wait?, h]

/-- The place of a call that has ended. -/
theorem phase_of_outcome? {outcome : Except Fault (Option Payload)}
    (h : r.outcome? = some (t, outcome)) : r.phase = .ended t outcome := by
  unfold outcome? at h
  split at h
  · next heq =>
    simp only [Option.some.injEq, Prod.mk.injEq] at h
    rw [heq, h.1, h.2]
  · simp at h

/-- An exchange that takes no time is over at once, whatever the limits of the call. -/
theorem wake_of_settled {flight : Flight} {grid : Option Grid} (h : r.phase = .flying flight grid)
    (hsettled : flight.settled = true) : r.wake hub = some (flight.startedAt, .alarm) := by
  have honly : (Wait.within .none flight.startedAt (some flight.startedAt) none).wake =
      some (Time.later flight.startedAt flight.startedAt, .alarm) :=
    Wait.wake_of_only rfl (by intro d hd; cases d <;> first | rfl | exact absurd rfl hd)
  rw [wake_flying h, Flight.wait_of_settled hsettled, honly, Time.later_of_le le_rfl]

/-- A call waits since it stands where it does. -/
theorem since_of_wait? {w : Wait} (h : r.wait? hub = some w) : w.since = r.began := by
  unfold wait? at h
  split at h
  · next flight grid hphase =>
    simp only [Option.some.injEq] at h
    subst h
    simp only [began, hphase, Flight.wait]
    split <;> rfl
  · next grid since hphase =>
    simp only [Option.some.injEq] at h
    subst h
    simp [began, hphase, Wait.within]
  · simp at h

/-- A call never moves before it came to where it stands. -/
theorem began_le_of_wake (h : r.wake hub = some (t, cause)) : r.began ≤ t := by
  obtain ⟨w, hw, hwake⟩ := Option.bind_eq_some_iff.mp h
  rw [← since_of_wait? hw]
  exact Wait.wake_since_le hwake

/-! ## The next move -/

/-- What the next move of a call is: its exchange lands, or its wait for the grid is over. -/
theorem resume_cases (h : r.wake hub = some (t, cause)) :
    (∃ flight grid, r.phase = .flying flight grid ∧
        r.resume hub = (hub, r.land hub flight grid t cause)) ∨
      ∃ grid since, r.phase = .ticking grid since ∧ r.resume hub = r.wakeUp hub grid t cause := by
  cases hphase : r.phase with
  | flying flight grid => exact .inl ⟨flight, grid, rfl, by simp [resume, h, hphase]⟩
  | ticking grid since => exact .inr ⟨grid, since, rfl, by simp [resume, h, hphase]⟩
  | ended endedAt outcome =>
      rw [wake_ended hphase] at h
      exact absurd h (by simp)

/-- A call that waits for nothing stays as it is. -/
theorem resume_of_wake_eq_none (h : r.wake hub = none) : r.resume hub = (hub, r) := by
  simp [resume, h]

/-- The next attempt starts an exchange, unless there is no URL to ask. -/
theorem depart_cases (hub : Hub) (r : Retry) (now : Time) (grid : Option Grid) :
    (∃ fault, r.errand.url = .error fault ∧
        r.depart hub now grid = (hub, r.finish now (.error fault))) ∨
      ∃ url, r.errand.url = .ok url ∧
        r.depart hub now grid =
          ({ hub with gateway := (hub.gateway.depart now url r.script.next.1).2 },
            { r with
              script := r.script.next.2
              phase := .flying (hub.gateway.depart now url r.script.next.1).1 grid }) := by
  cases hurl : r.errand.url with
  | error fault => exact .inl ⟨fault, rfl, by simp [depart, hurl]⟩
  | ok url => exact .inr ⟨url, rfl, by simp [depart, hurl]⟩

/-- A call begins with its first attempt, or ends at once. -/
theorem begin_cases (hub : Hub) (now : Time) (errand : Errand) (policy : Policy) (limits : Limits)
    (script : Script) (trace : Trace) :
    (∃ fault, begin hub now errand policy limits script trace =
        (hub, { errand, policy, limits, script, attempt := 1, phase := .ended now (.error fault)
                trace })) ∨
      ∃ url, errand.url = .ok url ∧ hub.signal.given now = false ∧
        begin hub now errand policy limits script trace =
          ({ hub with gateway := (hub.gateway.depart now url script.next.1).2 },
            { errand, policy, limits, script := script.next.2, attempt := 1
              phase := .flying (hub.gateway.depart now url script.next.1).1 none, trace }) := by
  cases hgiven : hub.signal.given now with
  | true => exact .inl ⟨.stopped, by simp [begin, hgiven]⟩
  | false =>
      simp only [begin, hgiven, Bool.false_eq_true, if_false]
      rcases depart_cases hub
          { errand, policy, limits, script, attempt := 1, phase := .ended now (.error .stopped)
            trace } now none with ⟨fault, -, hdepart⟩ | ⟨url, hurl, hdepart⟩
      · exact .inl ⟨fault, hdepart⟩
      · exact .inr ⟨url, hurl, trivial, hdepart⟩

/-- After a failed attempt a call that finds the signal given stops. -/
theorem rest_of_given (h : hub.signal.given t = true) (grid : Grid) :
    r.rest hub t grid =
      { r with
        attempt := r.attempt + 1
        phase := .ended t (.error .stopped)
        trace := r.trace.addNotes t
          [.retryPlanned r.errand.path r.attempt r.policy.period,
            .callStopped r.errand.path (r.attempt + 1) .shutdown] } := by
  simp [rest, h, stop, finish, jot, Trace.addNotes_addNotes]

/-- After a failed attempt a call that does not find the signal given waits for its grid. -/
theorem rest_of_not_given (h : hub.signal.given t = false) (grid : Grid) :
    r.rest hub t grid =
      { r with
        attempt := r.attempt + 1
        phase := .ticking grid t
        trace := r.trace.addNotes t [.retryPlanned r.errand.path r.attempt r.policy.period] } := by
  simp [rest, h, jot]

/-- The grid that a call waits for after an attempt: the one it has, or a fresh one. -/
def NextGrid (policy : Policy) (t : Time) (grid : Option Grid) (next : Grid) : Prop :=
  grid = some next ∨ grid = none ∧ next.period = policy.period ∧ next.next = t + policy.period

/-- What a move of a call at an instant can do. -/
inductive Moved (hub : Hub) (r : Retry) (t : Time) : Hub → Retry → Prop where
  /-- The attempt under way was the last one. -/
  | landed {flight : Flight} {grid : Option Grid} {attempt : Nat}
      {outcome : Except Fault (Option Payload)} {notes : List Note}
      (hphase : r.phase = .flying flight grid) :
      Moved hub r t hub
        { r with
          attempt
          phase := .ended t outcome
          trace := (r.trace.addRequest (flight.request t)).addNotes t notes }
  /-- The attempt under way has failed, and another one follows. -/
  | rested {flight : Flight} {grid : Option Grid} {next : Grid} {notes : List Note}
      (hphase : r.phase = .flying flight grid) (hopen : hub.signal.given t = false)
      (hnext : NextGrid r.policy t grid next) :
      Moved hub r t hub
        { r with
          attempt := r.attempt + 1
          phase := .ticking next t
          trace := (r.trace.addRequest (flight.request t)).addNotes t notes }
  /-- The next attempt has started. -/
  | departed {grid : Grid} {since : Time} {url : String}
      (hphase : r.phase = .ticking grid since) (hpoint : t = Time.later since grid.next)
      (hurl : r.errand.url = .ok url) :
      Moved hub r t { hub with gateway := (hub.gateway.depart t url r.script.next.1).2 }
        { r with
          script := r.script.next.2
          phase := .flying (hub.gateway.depart t url r.script.next.1).1 (some (grid.advance t)) }
  /-- The call has stopped between two attempts. -/
  | stopped {grid : Grid} {since : Time} {outcome : Except Fault (Option Payload)}
      {notes : List Note} (hphase : r.phase = .ticking grid since) :
      Moved hub r t hub
        { r with phase := .ended t outcome, trace := r.trace.addNotes t notes }

/-- What is noted of a failed attempt: the first one always, of the others every so many. -/
def failureNotes (r : Retry) (grid : Option Grid) (fault : Fault) : List Note :=
  if grid.isNone ∨ (r.attempt : Int) % r.policy.reportEach = 0 then
    [.attemptFailed r.errand.path r.attempt fault]
  else []

/-- After the first failed attempt a grid is made. -/
theorem recover_first (hperiod : 0 < r.policy.period) (fault : Fault) :
    r.recover hub t none fault =
      (r.jot t (r.failureNotes none fault)).rest hub t
        ⟨r.policy.period, t + r.policy.period, hperiod⟩ := by
  simp [recover, Grid.make?, failureNotes, report, jot, hperiod]

/-- Without a positive period the first failed attempt ends the call. -/
theorem recover_refused (hperiod : ¬ 0 < r.policy.period) (fault : Fault) :
    r.recover hub t none fault =
      (r.jot t (r.failureNotes none fault)).finish t (.error (.refused .retryPeriod)) := by
  simp [recover, Grid.make?, failureNotes, report, jot, finish, hperiod]

/-- After later failed attempts the grid stays as it is. -/
theorem recover_later (hreport : r.policy.reportEach ≠ 0) (grid : Grid) (fault : Fault) :
    r.recover hub t (some grid) fault =
      (r.jot t (r.failureNotes (some grid) fault)).rest hub t grid := by
  by_cases h : (r.attempt : Int) % r.policy.reportEach = 0
  · simp [recover, failureNotes, report, hreport, h]
  · simp [recover, failureNotes, jot, hreport, h, Trace.addNotes_nil]

/-- A rest after a failed attempt ends the call or lets it wait for a grid. -/
theorem rest_cases (hub : Hub) (r : Retry) (t : Time) (notes : List Note) (grid : Grid) :
    (∃ more, (r.jot t notes).rest hub t grid =
        { r with
          attempt := r.attempt + 1
          phase := .ended t (.error .stopped)
          trace := r.trace.addNotes t more }) ∨
      hub.signal.given t = false ∧
        ∃ more, (r.jot t notes).rest hub t grid =
          { r with
            attempt := r.attempt + 1
            phase := .ticking grid t
            trace := r.trace.addNotes t more } := by
  cases h : hub.signal.given t with
  | true =>
      left
      rw [rest_of_given h]
      exact ⟨_, by simp only [jot, Trace.addNotes_addNotes]; rfl⟩
  | false =>
      right
      rw [rest_of_not_given h]
      exact ⟨rfl, _, by simp only [jot, Trace.addNotes_addNotes]; rfl⟩

/-- Going on after a failed attempt ends the call or lets it wait for its next grid. -/
theorem recover_cases (hub : Hub) (r : Retry) (t : Time) (grid : Option Grid) (fault : Fault) :
    (∃ attempt outcome notes, r.recover hub t grid fault =
        { r with
          attempt
          phase := .ended t outcome
          trace := r.trace.addNotes t notes }) ∨
      hub.signal.given t = false ∧
        ∃ next notes, NextGrid r.policy t grid next ∧
          r.recover hub t grid fault =
            { r with
              attempt := r.attempt + 1
              phase := .ticking next t
              trace := r.trace.addNotes t notes } := by
  cases grid with
  | none =>
      by_cases hperiod : 0 < r.policy.period
      · rw [recover_first hperiod]
        rcases rest_cases hub r t (r.failureNotes none fault)
            ⟨r.policy.period, t + r.policy.period, hperiod⟩ with ⟨notes, h⟩ | ⟨hopen, notes, h⟩
        · exact .inl ⟨_, _, notes, h⟩
        · exact .inr ⟨hopen, _, notes, .inr ⟨rfl, rfl, rfl⟩, h⟩
      · rw [recover_refused hperiod]
        exact .inl ⟨r.attempt, _, _, rfl⟩
  | some grid =>
      by_cases hreport : r.policy.reportEach = 0
      · refine .inl ⟨r.attempt, .error .zeroInterval, [], ?_⟩
        simp [recover, hreport, finish, Trace.addNotes_nil]
      · rw [recover_later hreport]
        rcases rest_cases hub r t (r.failureNotes (some grid) fault) grid with
          ⟨notes, h⟩ | ⟨hopen, notes, h⟩
        · exact .inl ⟨_, _, notes, h⟩
        · exact .inr ⟨hopen, grid, notes, .inl rfl, h⟩

/-- The landing of an exchange ends a call that goes no further with what the attempt comes to. -/
theorem land_eq_finish {flight : Flight} (grid : Option Grid) (t : Time)
    (hlast : ∀ fault, r.errand.interpret (flight.outcome cause) = .error fault →
      cause.endsCall = true ∨ fault.retryable = false) :
    r.land hub flight grid t cause =
      { r with trace := r.trace.addRequest (flight.request t) }.finish t
        (r.errand.interpret (flight.outcome cause)) := by
  cases hcame : r.errand.interpret (flight.outcome cause) with
  | ok payload => simp [land, hcame]
  | error fault =>
      rcases hlast fault hcame with hends | hfatal
      · simp [land, hcame, hends]
      · simp [land, hcame, hfatal]

/-- The landing of an exchange is followed by another attempt if that may mend what it came to. -/
theorem land_eq_recover {flight : Flight} {fault : Fault} (grid : Option Grid) (t : Time)
    (hcame : r.errand.interpret (flight.outcome cause) = .error fault)
    (hcause : cause.endsCall = false) (hretryable : fault.retryable = true) :
    r.land hub flight grid t cause =
      { r with trace := r.trace.addRequest (flight.request t) }.recover hub t grid fault := by
  simp [land, hcame, hcause, hretryable]

/-- The landing of an exchange is one of the moves. -/
theorem moved_land {flight : Flight} {grid : Option Grid} (hphase : r.phase = .flying flight grid)
    (t : Time) (cause : Cause) : Moved hub r t hub (r.land hub flight grid t cause) := by
  have hland : ∀ outcome, Moved hub r t hub
      ({ r with trace := r.trace.addRequest (flight.request t) }.finish t outcome) := by
    intro outcome
    have h : Moved hub r t hub
        { r with
          phase := .ended t outcome
          trace := (r.trace.addRequest (flight.request t)).addNotes t [] } := .landed hphase
    rwa [Trace.addNotes_nil] at h
  simp only [land]
  split
  · exact hland _
  · next fault _ =>
    split
    · exact hland _
    · rcases recover_cases hub { r with trace := r.trace.addRequest (flight.request t) } t grid
          fault with ⟨attempt, outcome, notes, h⟩ | ⟨hopen, next, notes, hnext, h⟩
      · rw [h]
        exact .landed hphase
      · rw [h]
        exact .rested hphase hopen hnext

/-- A tick falls on the next point of the grid, or on the begin of the wait if that was overrun. -/
theorem alarm_of_ticking {grid : Grid} {since : Time} (hphase : r.phase = .ticking grid since)
    (h : r.wake hub = some (t, .alarm)) : t = Time.later since grid.next := by
  rw [wake_ticking hphase] at h
  obtain ⟨⟨u, hu, ht⟩, -⟩ := Wait.wake_eq_some_iff.mp h
  simp only [Wait.instant, Wait.within, Option.some.injEq] at hu
  rw [ht, ← hu]
  rfl

/-- The end of the wait between two attempts is one of the moves. -/
theorem moved_wakeUp {grid : Grid} {since : Time} (hphase : r.phase = .ticking grid since)
    (hpoint : cause = .alarm → t = Time.later since grid.next) :
    Moved hub r t (r.wakeUp hub grid t cause).1 (r.wakeUp hub grid t cause).2 := by
  cases cause with
  | alarm =>
      rcases depart_cases hub r t (some (grid.advance t)) with
        ⟨fault, -, hdepart⟩ | ⟨url, hurl, hdepart⟩
      · rw [wakeUp, hdepart]
        have h : Moved hub r t hub
            { r with phase := .ended t (.error fault), trace := r.trace.addNotes t [] } :=
          .stopped hphase
        rwa [Trace.addNotes_nil] at h
      · rw [wakeUp, hdepart]
        exact .departed hphase (hpoint rfl) hurl
  | closing => exact .stopped hphase
  | cancellation => exact .stopped hphase
  | deadline => exact .stopped hphase

/-- The next move of a call is one of the moves, at the instant at which it wakes. -/
theorem moved_resume (h : r.wake hub = some (t, cause)) :
    Moved hub r t (r.resume hub).1 (r.resume hub).2 := by
  rcases resume_cases h with ⟨flight, grid, hphase, hresume⟩ | ⟨grid, since, hphase, hresume⟩
  · rw [hresume]
    exact moved_land hphase t cause
  · rw [hresume]
    refine moved_wakeUp hphase ?_
    rintro rfl
    exact alarm_of_ticking hphase h

/-! ## What moves keep and what they change -/

variable {hub' : Hub} {r' : Retry}

/-- A call stands where it does since its last move. -/
theorem Moved.began_eq (h : Moved hub r t hub' r') : r'.began = t := by
  cases h <;> rfl

/-- A move changes neither what a call is sent for, nor how it tries again, nor its limits. -/
theorem Moved.frame (h : Moved hub r t hub' r') :
    r'.errand = r.errand ∧ r'.policy = r.policy ∧ r'.limits = r.limits := by
  cases h <;> simp

/-- What a call would have left behind if the exchange under way, if any, ended at an instant. -/
def traceAt (r : Retry) (t : Time) : Trace :=
  match r.phase with
  | .flying flight _ => r.trace.addRequest (flight.request t)
  | _ => r.trace

/-- A move ends the exchange under way and adds notes, all of it at its instant. -/
theorem Moved.trace_eq (h : Moved hub r t hub' r') :
    ∃ notes, r'.trace = (r.traceAt t).addNotes t notes := by
  cases h with
  | landed hphase => exact ⟨_, by simp only [traceAt, hphase]; rfl⟩
  | rested hphase => exact ⟨_, by simp only [traceAt, hphase]; rfl⟩
  | departed hphase => exact ⟨[], by simp only [traceAt, hphase, Trace.addNotes_nil]⟩
  | stopped hphase => exact ⟨_, by simp only [traceAt, hphase]; rfl⟩

/-- The starts of all requests of a call, the one under way included. -/
def starts (r : Retry) : List (Time × String × Nat) :=
  (r.traceAt r.began).requests.map Request.start

/-- When an exchange ends does not matter to when it was started. -/
theorem starts_eq (r : Retry) (t : Time) : r.starts = (r.traceAt t).requests.map Request.start := by
  cases hphase : r.phase <;> simp [starts, traceAt, hphase, Trace.addRequest, Request.start,
    Flight.request]

/-- After its landing a call has started what it had started. -/
theorem starts_landed {flight : Flight} {grid : Option Grid}
    (hphase : r.phase = .flying flight grid) (t : Time) (notes : List Note) :
    ((r.trace.addRequest (flight.request t)).addNotes t notes).requests.map Request.start =
      r.starts := by
  simp [starts, traceAt, hphase, Trace.addNotes, Trace.addRequest, Request.start, Flight.request]

/-- A move starts at most one request, at its instant. -/
theorem Moved.starts_eq (h : Moved hub r t hub' r') :
    r'.starts = r.starts ∨ ∃ target, r'.starts = r.starts ++ [(t, target)] := by
  cases h with
  | landed hphase => exact .inl (starts_landed hphase t _)
  | rested hphase => exact .inl (starts_landed hphase t _)
  | @departed grid since url hphase _ _ =>
      right
      refine ⟨(url, (hub.gateway.session t).1), ?_⟩
      simp [starts, traceAt, hphase, Trace.addRequest, Request.start, Flight.request,
        Connector.depart]
  | stopped hphase =>
      left
      simp [starts, traceAt, hphase, Trace.addNotes]

/-- Attempts are counted: the one that is under way or comes next is one more than those over. -/
def Counted (r : Retry) : Prop :=
  r.outcome? = none → r.attempt = r.trace.requests.length + 1

/-- A move keeps the count of attempts. -/
theorem Moved.counted (h : Moved hub r t hub' r') (hr : r.Counted) : r'.Counted := by
  intro hrunning
  cases h with
  | landed _ => simp [outcome?] at hrunning
  | rested hphase =>
      have hattempt := hr (by simp [outcome?, hphase])
      simp [Trace.addNotes, Trace.addRequest, hattempt]
  | departed hphase => exact hr (by simp [outcome?, hphase])
  | stopped _ => simp [outcome?] at hrunning

/-! ## Runs -/

/-- A longer run is a run with one more move at its end. -/
theorem run_succ (n : Nat) (hub : Hub) (r : Retry) :
    run (n + 1) hub r = (run n hub r).2.resume (run n hub r).1 := by
  rw [run_add]
  by_cases h : (run n hub r).2.outcome?.isSome = true
  · rw [run_of_ended h, resume_ended h]
  · simp [run, h]

/-- A call that waits for nothing is not run any further. -/
theorem run_of_wake_eq_none (h : r.wake hub = none) (n : Nat) : run n hub r = (hub, r) := by
  induction n with
  | zero => rfl
  | succ n ih => rw [run_succ, ih, resume_of_wake_eq_none h]

/-- A longer run is a run of the call after its first move. -/
theorem run_succ_eq (n : Nat) (hub : Hub) (r : Retry) :
    run (n + 1) hub r = run n (r.resume hub).1 (r.resume hub).2 := by
  have hone : run 1 hub r = r.resume hub := run_succ 0 hub r
  rw [Nat.add_comm, run_add, hone]

end Retry

/-! ## Finitely many moves before any instant -/

/-- The number of points of a grid, of those still to fire, that lie before an instant. -/
def Grid.pointsBefore (grid : Grid) (t : Time) : Nat :=
  ⌈(t - grid.next) / grid.period⌉₊

/-- A number that is smaller by one has a smaller ceiling. -/
private theorem ceil_lt_ceil_of_add_one_le {x y : Rat} (hx : 0 < x) (hyx : y + 1 ≤ x) :
    ⌈y⌉₊ < ⌈x⌉₊ := by
  rw [Nat.lt_ceil]
  rcases le_or_gt y 0 with hy | hy
  · rw [Nat.ceil_eq_zero.mpr hy]
    exact_mod_cast hx
  · exact (Nat.ceil_lt_add_one hy.le).trans_le hyx

/-- A tick leaves fewer points of the grid before an instant that the tick precedes. -/
theorem Grid.pointsBefore_advance_lt {grid : Grid} {t : Time} (h : grid.next < t) (u : Time) :
    (grid.advance u).pointsBefore t < grid.pointsBefore t := by
  have hpos := grid.period_pos
  have hskip : (1 : Rat) ≤ grid.skip u := by exact_mod_cast grid.one_le_skip u
  have hnext : grid.next + grid.period ≤ (grid.advance u).next := by
    simp only [advance]
    nlinarith
  apply ceil_lt_ceil_of_add_one_le
  · exact div_pos (sub_pos.mpr h) hpos
  · have hperiod : (grid.advance u).period = grid.period := rfl
    rw [hperiod, div_add_one hpos.ne']
    exact div_le_div_of_nonneg_right (by linarith) hpos.le

namespace Retry

/-- A bound for the moves that a call still makes before an instant. -/
def movesBefore (r : Retry) (t : Time) : Nat :=
  match r.phase with
  | .flying flight none => 2 * ⌈(t - flight.startedAt) / r.policy.period⌉₊ + 2
  | .flying _ (some grid) => 2 * grid.pointsBefore t + 2
  | .ticking grid _ => 2 * grid.pointsBefore t + 1
  | .ended _ _ => 0

/--
The grid made after the first attempt has no more points before an instant than fit since then.
-/
theorem pointsBefore_of_nextGrid {policy : Policy} {grid : Option Grid} {next : Grid}
    {started t u : Time} (hnext : NextGrid policy u grid next) (hnone : grid = none)
    (hle : started ≤ u) : next.pointsBefore t ≤ ⌈(t - started) / policy.period⌉₊ := by
  rcases hnext with hsome | ⟨-, hperiod, hpoint⟩
  · rw [hnone] at hsome
    simp at hsome
  · have hpos : 0 < policy.period := hperiod ▸ next.period_pos
    rw [Grid.pointsBefore, hperiod, hpoint]
    exact Nat.ceil_mono (div_le_div_of_nonneg_right (by linarith) hpos.le)

/-- A move before an instant leaves fewer moves before it. -/
theorem Moved.movesBefore_lt {hub hub' : Hub} {r r' : Retry} {t u : Time}
    (h : Moved hub r t hub' r') (hbegan : r.began ≤ t) (htu : t < u) :
    r'.movesBefore u < r.movesBefore u := by
  cases h with
  | @landed flight grid attempt outcome notes hphase =>
      cases grid <;> simp [movesBefore, hphase]
  | @rested flight grid next notes hphase _ hnext =>
      have hstarted : flight.startedAt ≤ t := by simpa [began, hphase] using hbegan
      cases grid with
      | none =>
          have hle := pointsBefore_of_nextGrid (t := u) hnext rfl hstarted
          simp only [movesBefore, hphase]
          omega
      | some grid =>
          rcases hnext with hsome | ⟨hnone, -⟩
          · rw [Option.some.injEq] at hsome
            simp only [movesBefore, hphase, hsome]
            omega
          · simp at hnone
  | @departed grid since url hphase hpoint _ =>
      have hnext : grid.next < u := (hpoint ▸ Time.le_later_right since grid.next).trans_lt htu
      have hlt := Grid.pointsBefore_advance_lt hnext t
      simp only [movesBefore, hphase]
      omega
  | stopped hphase => simp [movesBefore, hphase]

/-- Before any instant a call moves finitely often. -/
theorem exists_last_move_before (u : Time) (hub : Hub) (r : Retry) :
    ∃ n, (∀ m < n, ∃ t cause, (run m hub r).2.wake (run m hub r).1 = some (t, cause) ∧ t < u) ∧
      ∀ t cause, (run n hub r).2.wake (run n hub r).1 = some (t, cause) → u ≤ t := by
  induction hmoves : r.movesBefore u using Nat.strong_induction_on generalizing hub r with
  | _ k ih =>
      cases hwake : r.wake hub with
      | none => exact ⟨0, by simp, by simp [run, hwake]⟩
      | some a =>
          obtain ⟨t, cause⟩ := a
          by_cases htu : t < u
          · have hlt := (moved_resume hwake).movesBefore_lt (began_le_of_wake hwake) htu
            obtain ⟨n, hbefore, hafter⟩ := ih _ (hmoves ▸ hlt) _ _ rfl
            refine ⟨n + 1, ?_, ?_⟩
            · intro m hm
              cases m with
              | zero => exact ⟨t, cause, hwake, htu⟩
              | succ m =>
                  rw [run_succ_eq]
                  exact hbefore m (by omega)
            · rw [run_succ_eq]
              exact hafter
          · refine ⟨0, by simp, ?_⟩
            intro t' cause' h
            rw [show run 0 hub r = (hub, r) from rfl, hwake, Option.some.injEq,
              Prod.mk.injEq] at h
            rw [← h.1]
            exact not_lt.mp htu

/-! ## Whole calls -/

/--
A call before it begins: what it shares, when it begins, and all that it is given but its limits.
-/
structure Plan where
  hub : Hub
  now : Time
  errand : Errand
  policy : Policy
  script : Script

namespace Plan

/-- A planned call under limits, after so many moves. -/
def after (p : Plan) (limits : Limits) (n : Nat) : Hub × Retry :=
  let start := Retry.begin p.hub p.now p.errand p.policy limits p.script .empty
  Retry.run n start.1 start.2

/-- When and why a planned call under limits moves after so many moves. -/
def wakeAfter (p : Plan) (limits : Limits) (n : Nat) : Option (Time × Cause) :=
  (p.after limits n).2.wake (p.after limits n).1

variable {p : Plan} {limits : Limits} {m n : Nat} {t : Time} {cause : Cause}

/-- After one move more, a call has made its next move. -/
theorem after_succ (p : Plan) (limits : Limits) (n : Nat) :
    p.after limits (n + 1) = (p.after limits n).2.resume (p.after limits n).1 :=
  run_succ n _ _

/-- A call that waits for nothing stays as it is. -/
theorem after_of_wakeAfter_eq_none (h : p.wakeAfter limits n = none) (hmn : n ≤ m) :
    p.after limits m = p.after limits n := by
  obtain ⟨k, rfl⟩ := Nat.exists_eq_add_of_le hmn
  simp only [after, run_add]
  exact run_of_wake_eq_none h k

/-- Each move of a call is one of the moves there are. -/
theorem moved_after (h : p.wakeAfter limits n = some (t, cause)) :
    Moved (p.after limits n).1 (p.after limits n).2 t (p.after limits (n + 1)).1
      (p.after limits (n + 1)).2 := by
  rw [after_succ]
  exact moved_resume h

/-- What holds of a call when it begins, and after each of its moves, holds all along. -/
theorem after_induction {motive : Nat → Hub → Retry → Prop}
    (begin : motive 0 (p.after limits 0).1 (p.after limits 0).2)
    (move : ∀ n hub r hub' r' t cause, motive n hub r → r.wake hub = some (t, cause) →
      Moved hub r t hub' r' → motive (n + 1) hub' r')
    (rest : ∀ n hub r, motive n hub r → r.wake hub = none → motive (n + 1) hub r) :
    motive n (p.after limits n).1 (p.after limits n).2 := by
  induction n with
  | zero => exact begin
  | succ n ih =>
      cases h : p.wakeAfter limits n with
      | none =>
          rw [after_of_wakeAfter_eq_none h n.le_succ]
          exact rest n _ _ ih h
      | some a =>
          obtain ⟨t, cause⟩ := a
          exact move n _ _ _ _ t cause ih h (moved_after h)

/-- A planned call begins with its first attempt, or ends at once. -/
theorem after_zero_cases (p : Plan) (limits : Limits) :
    (∃ outcome, (p.after limits 0).1 = p.hub ∧ (p.after limits 0).2 =
        { errand := p.errand, policy := p.policy, limits, script := p.script, attempt := 1
          phase := .ended p.now outcome, trace := .empty }) ∨
      ∃ url, p.errand.url = .ok url ∧ p.hub.signal.given p.now = false ∧
        (p.after limits 0).1 =
          { p.hub with gateway := (p.hub.gateway.depart p.now url p.script.next.1).2 } ∧
        (p.after limits 0).2 =
          { errand := p.errand, policy := p.policy, limits, script := p.script.next.2, attempt := 1
            phase := .flying (p.hub.gateway.depart p.now url p.script.next.1).1 none
            trace := .empty } := by
  have hzero : p.after limits 0 =
      Retry.begin p.hub p.now p.errand p.policy limits p.script .empty := rfl
  rw [hzero]
  rcases begin_cases p.hub p.now p.errand p.policy limits p.script .empty with
    ⟨fault, hbegin⟩ | ⟨url, hurl, hopen, hbegin⟩
  · rw [hbegin]
    exact .inl ⟨.error fault, rfl, rfl⟩
  · rw [hbegin]
    exact .inr ⟨url, hurl, hopen, rfl, rfl⟩

/-- A call begins when it is planned to. -/
theorem began_after_zero (p : Plan) (limits : Limits) : (p.after limits 0).2.began = p.now := by
  rcases p.after_zero_cases limits with ⟨outcome, -, hzero⟩ | ⟨url, -, -, -, hzero⟩
  · rw [hzero]
    rfl
  · rw [hzero]
    rfl

/-- A call keeps what it is sent for, how it tries again, and its limits. -/
theorem frame_after (p : Plan) (limits : Limits) (n : Nat) :
    (p.after limits n).2.errand = p.errand ∧ (p.after limits n).2.policy = p.policy
      ∧ (p.after limits n).2.limits = limits := by
  apply after_induction (motive := fun _ _ r =>
    r.errand = p.errand ∧ r.policy = p.policy ∧ r.limits = limits)
  · rcases p.after_zero_cases limits with ⟨outcome, -, hzero⟩ | ⟨url, -, -, -, hzero⟩ <;>
      simp [hzero]
  · intro n hub r hub' r' t cause hr _ hmoved
    obtain ⟨herrand, hpolicy, hlimits⟩ := hmoved.frame
    rwa [herrand, hpolicy, hlimits]
  · intro n hub r hr _
    exact hr

/-- The attempts of a call are counted all along. -/
theorem counted_after (p : Plan) (limits : Limits) (n : Nat) : (p.after limits n).2.Counted := by
  apply after_induction (motive := fun _ _ r => r.Counted)
  · rcases p.after_zero_cases limits with ⟨outcome, -, hzero⟩ | ⟨url, -, -, -, hzero⟩ <;>
      simp [hzero, Counted, Trace.empty]
  · intro n hub r hub' r' t cause hr _ hmoved
    exact hmoved.counted hr
  · intro n hub r hr _
    exact hr

/-- No move gives the signal. -/
theorem signal_after (p : Plan) (limits : Limits) (n : Nat) :
    (p.after limits n).1.signal = p.hub.signal := by
  apply after_induction (motive := fun _ hub _ => hub.signal = p.hub.signal)
  · rcases p.after_zero_cases limits with ⟨outcome, hzero, -⟩ | ⟨url, -, -, hzero, -⟩ <;>
      simp [hzero]
  · intro n hub r hub' r' t cause hr _ hmoved
    cases hmoved <;> exact hr
  · intro n hub r hr _
    exact hr

/-- A call goes through its places in the order of time. -/
theorem began_after_mono (p : Plan) (limits : Limits) (hmn : m ≤ n) :
    (p.after limits m).2.began ≤ (p.after limits n).2.began := by
  induction n, hmn using Nat.le_induction with
  | base => exact le_rfl
  | succ n _ ih =>
      cases h : p.wakeAfter limits n with
      | none => rwa [after_of_wakeAfter_eq_none h n.le_succ]
      | some a =>
          obtain ⟨t, cause⟩ := a
          rw [(moved_after h).began_eq]
          exact ih.trans (began_le_of_wake h)

/-- A move of a call is not after any place that the call comes to later. -/
theorem wakeAfter_le_began (h : p.wakeAfter limits m = some (t, cause)) (hmn : m < n) :
    t ≤ (p.after limits n).2.began := by
  rw [← (moved_after h).began_eq]
  exact p.began_after_mono limits hmn

end Plan
end Retry
end ChainPoll

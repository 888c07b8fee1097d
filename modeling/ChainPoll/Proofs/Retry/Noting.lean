import Mathlib.Algebra.Order.Interval.Finset.SuccPred
import Mathlib.Data.Nat.SuccPred
import Mathlib.Order.Interval.Finset.Nat
import ChainPoll.Proofs.Retry.Pacing

/-!
# What a call notes

A call notes its failures: of each failed attempt that another one may mend it says that it tries
again, of the first and of every so many it says before what had failed.  If it then stops while it
waits for its grid, it says that as well, and counts the attempt that it did not make.  It notes
nothing else, whatever the order of events.

Main results:

- Theorem {lit}`Retry.Plan.exists_recounts_iff`: wherever a call comes to, its failures can be told.
- Theorem {lit}`Retry.Plan.Told.moveBy`: each move of a call adds to its notes what it adds to its
  failures.
- Theorem {lit}`Retry.Plan.notes_failures`: what a call has noted, given its failures.
-/

namespace ChainPoll
namespace Retry

/-- A failed attempt that another one may mend: its request, and the fault that it came to. -/
structure Failure where
  request : Request
  fault : Fault
deriving DecidableEq

/-- The failure that a move of a call by a cause is, if it is one. -/
def failure? (r : Retry) (t : Time) (cause : Cause) : Option Failure :=
  match r.phase with
  | .flying flight _ =>
    match r.errand.interpret (flight.outcome cause) with
    | .error fault =>
      if cause.endsCall || !fault.retryable then none else some ⟨flight.request t, fault⟩
    | .ok _ => none
  | _ => none

variable {hub : Hub} {r : Retry} {t : Time} {cause : Cause}

/-- What becomes of a call whose attempt is over: it fails and goes on after that, or it ends. -/
theorem failure?_cases {flight : Flight} {grid : Option Grid} (h : r.phase = .flying flight grid)
    (hub : Hub) (t : Time) (cause : Cause) :
    (∃ fault, r.failure? t cause = some ⟨flight.request t, fault⟩ ∧ cause.endsCall = false ∧
        fault.retryable = true ∧ r.errand.interpret (flight.outcome cause) = .error fault ∧
        r.land hub flight grid t cause =
          { r with trace := r.trace.addRequest (flight.request t) }.recover hub t grid fault) ∨
      r.failure? t cause = none ∧ ∃ outcome, r.land hub flight grid t cause =
          { r with trace := r.trace.addRequest (flight.request t) }.finish t outcome := by
  by_cases hlast : ∀ fault, r.errand.interpret (flight.outcome cause) = .error fault →
      cause.endsCall = true ∨ fault.retryable = false
  · refine .inr ⟨?_, _, land_eq_finish grid t hlast⟩
    cases hcame : r.errand.interpret (flight.outcome cause) with
    | ok payload => simp [failure?, h, hcame]
    | error fault => rcases hlast fault hcame with hends | hfatal <;> simp [failure?, *]
  · push Not at hlast
    obtain ⟨fault, hcame, hcause, hfatal⟩ := hlast
    have hcause' : cause.endsCall = false := by simpa using hcause
    have hretryable : fault.retryable = true := by simpa using hfatal
    refine .inl ⟨fault, ?_, hcause', hretryable, hcame,
      land_eq_recover grid t hcame hcause' hretryable⟩
    simp [failure?, h, hcame, hcause', hretryable]

/-- A call that waits for its grid is stopped by the signal only if that was given. -/
theorem given_of_closing {grid : Grid} {since : Time} {w : Wait}
    (hphase : r.phase = .ticking grid since) (hwait : r.wait? hub = some w)
    (hend : w.MayEnd t .closing) : hub.signal.given t = true := by
  have hw : w = .within r.limits since (some grid.next) hub.signal.givenAt := by
    simpa [wait?, hphase, eq_comm] using hwait
  obtain ⟨u, hu, ht⟩ := Wait.mem_causes_iff.mp hend.1
  have hgivenAt : hub.signal.givenAt = some u := by rwa [hw] at hu
  have hpassed : u ≤ t := ht ▸ Time.le_later_right _ _
  simp [Signal.given, hgivenAt, Time.reached, hpassed]

namespace Plan

variable {p : Plan} {limits : Limits} {g : Connector} {failures : List Failure}

/-! ## The failures of a call -/

/--
Where a planned call can come to, as {lit}`Reaches` says, with the failures it has met on its way.
-/
inductive Recounts (p : Plan) (limits : Limits) : Connector → Retry → List Failure → Prop where
  | begin {seen : Signal} (hseen : p.hub.signal.SeenAs p.now seen) :
      Recounts p limits
        (Retry.begin ⟨seen, p.hub.gateway⟩ p.now p.errand p.policy limits p.script .empty).1.gateway
        (Retry.begin ⟨seen, p.hub.gateway⟩ p.now p.errand p.policy limits p.script .empty).2 []
  | move {g : Connector} {r : Retry} {failures : List Failure} {w : Wait} {t : Time} {cause : Cause}
      {seen : Signal} (h : Recounts p limits g r failures)
      (hwait : r.wait? ⟨p.hub.signal, g⟩ = some w) (hend : w.MayEnd t cause)
      (hseen : p.hub.signal.SeenAs t seen) :
      Recounts p limits (r.moveBy ⟨seen, g⟩ t cause).1.gateway (r.moveBy ⟨seen, g⟩ t cause).2
        (failures ++ (r.failure? t cause).toList)
  | shared {g g' : Connector} {r : Retry} {failures : List Failure}
      (h : Recounts p limits g r failures)
      (htimeout : g'.timeout = g.timeout) : Recounts p limits g' r failures

/-- The failures of a planned call in the order of precedence, after so many moves. -/
def failuresAfter (p : Plan) (limits : Limits) : ℕ → List Failure
  | 0 => []
  | n + 1 => p.failuresAfter limits n ++
      ((p.wakeAfter limits n).bind fun a => (p.after limits n).2.failure? a.1 a.2).toList

/-- Wherever a call comes to, its failures can be told. -/
theorem exists_recounts_iff :
    p.Reaches limits g r ↔ ∃ failures, p.Recounts limits g r failures := by
  constructor
  · intro h
    induction h with
    | begin hseen => exact ⟨_, .begin hseen⟩
    | move _ hwait hend hseen ih =>
        obtain ⟨failures, ih⟩ := ih
        exact ⟨_, .move ih hwait hend hseen⟩
    | shared _ htimeout ih =>
        obtain ⟨failures, ih⟩ := ih
        exact ⟨failures, .shared ih htimeout⟩
  · rintro ⟨failures, h⟩
    induction h with
    | begin hseen => exact .begin hseen
    | move _ hwait hend hseen ih => exact .move ih hwait hend hseen
    | shared _ htimeout ih => exact .shared ih htimeout

/-- The failures of a call in the order of precedence are those on one of its ways. -/
theorem recounts_after (p : Plan) (limits : Limits) (n : ℕ) :
    p.Recounts limits (p.after limits n).1.gateway (p.after limits n).2
      (p.failuresAfter limits n) := by
  induction n with
  | zero => exact .begin (.inl rfl)
  | succ n ih =>
      cases hwake : p.wakeAfter limits n with
      | none =>
          rw [after_of_wakeAfter_eq_none hwake n.le_succ, failuresAfter, hwake]
          simpa using ih
      | some a =>
          obtain ⟨t, cause⟩ := a
          obtain ⟨w, hwait, hw⟩ := Option.bind_eq_some_iff.mp hwake
          have hhub : (p.after limits n).1 = ⟨p.hub.signal, (p.after limits n).1.gateway⟩ := by
            rw [← p.signal_after limits n]
          rw [after_succ, resume_eq_moveBy hwake, failuresAfter, hwake, hhub]
          exact .move ih (by rwa [← hhub]) (Wait.mayEnd_of_wake hw) (.inl rfl)

/-! ## The notes of failures -/

/--
What is noted of the failure with a number: what had failed if it is reported, and that it is
retried.
-/
def notesOf (p : Plan) (number : ℕ) (fault : Fault) : List Note :=
  (if number = 1 ∨ p.policy.reportEach ∣ number then
      [.attemptFailed p.errand.path number fault] else [])
    ++ [.retryPlanned p.errand.path number p.policy.period]

/-- What is noted of all failures, each time when the attempt ends that failed. -/
def entriesOf (p : Plan) (failures : List Failure) : List Entry :=
  (failures.zipIdx 1).flatMap fun failure =>
    (p.notesOf failure.2 failure.1.fault).map (Entry.mk failure.1.request.endedAt)

/-- Without failures nothing is noted of them. -/
theorem entriesOf_nil (p : Plan) : p.entriesOf [] = [] := rfl

/-- What is noted of one failure more comes last. -/
theorem entriesOf_concat (p : Plan) (failures : List Failure) (failure : Failure) :
    p.entriesOf (failures ++ [failure]) = p.entriesOf failures ++
      (p.notesOf (failures.length + 1) failure.fault).map (Entry.mk failure.request.endedAt) := by
  simp [entriesOf, List.zipIdx_append, Nat.add_comm]

/-! ## What is noted where a call stands -/

/-- Why and with what outcome a call may stop at an instant while it waits for its grid. -/
inductive Halts (p : Plan) (limits : Limits) (t : Time) :
    Except Fault (Option Payload) → Stop → Prop where
  /-- The signal was given. -/
  | shutdown (hgiven : p.hub.signal.given t = true) : Halts p limits t (.error .stopped) .shutdown
  /-- It was cancelled. -/
  | aborted {c : Time} (hcancel : limits.cancelAt = some c) (hpassed : c ≤ t) :
      Halts p limits t (.error .aborted) .cancelled
  /-- There is a deadline, and it has passed. -/
  | overdue {d : Time} (hdeadline : limits.deadlineAt = some d) (hpassed : d ≤ t) :
      Halts p limits t (.error .overdue) .cancelled

/-- How a call has ended that has met some failures, and what it has noted by then. -/
inductive EndsNoting (p : Plan) (limits : Limits) (failures : List Failure)
    (trace : Trace) (t : Time) :
    Except Fault (Option Payload) → Prop where
  /-- It has sent nothing and noted nothing. -/
  | unsent {outcome : Except Fault (Option Payload)} (hnone : failures = [])
      (hrequests : trace.requests = []) (hentries : trace.entries = []) :
      EndsNoting p limits failures trace t outcome
  /-- Its last attempt has ended it, which is not noted. -/
  | landed {outcome : Except Fault (Option Payload)} {last : Request}
      (hperiod : failures ≠ [] → 0 < p.policy.period)
      (hrequests : trace.requests = failures.map Failure.request ++ [last])
        (hlast : last.endedAt = t)
      (hentries : trace.entries = p.entriesOf failures) :
      EndsNoting p limits failures trace t outcome
  /-- All its attempts have failed, and it has stopped while it waited for the next one. -/
  | halted {outcome : Except Fault (Option Payload)} {reason : Stop} (hsome : failures ≠ [])
      (hperiod : 0 < p.policy.period) (hrequests : trace.requests = failures.map Failure.request)
      (hreason : p.Halts limits t outcome reason)
      (hentries : trace.entries = p.entriesOf failures ++
        [⟨t, .callStopped p.errand.path (failures.length + 1) reason⟩]) :
      EndsNoting p limits failures trace t outcome
  /-- Its first attempt has failed, and there is no grid for its period. -/
  | refused {failure : Failure} (hperiod : ¬ 0 < p.policy.period) (hone : failures = [failure])
      (hrequests : trace.requests = [failure.request]) (hlast : failure.request.endedAt = t)
      (hentries : trace.entries = [⟨t, .attemptFailed p.errand.path 1 failure.fault⟩]) :
      EndsNoting p limits failures trace t (.error (.refused .retryPeriod))

/--
What a call that has not ended has done and noted: all its attempts that are over have failed.
-/
structure Persists (p : Plan) (failures : List Failure) (r : Retry) : Prop where
  url : ∃ url, p.errand.url = .ok url
  attempt : r.attempt = failures.length + 1
  requests : r.trace.requests = failures.map Failure.request
  entries : r.trace.entries = p.entriesOf failures
  /-- After the first failure there is a grid. -/
  period : failures ≠ [] → 0 < p.policy.period

/-- Whether a call stands where its failures say, and has noted them. -/
def Stands (p : Plan) (limits : Limits) (failures : List Failure) (r : Retry) : Prop :=
  match r.phase with
  | .flying _ grid => p.Persists failures r ∧ (grid.isSome ↔ failures ≠ [])
  | .ticking _ _ => p.Persists failures r ∧ failures ≠ []
  | .ended t outcome => p.EndsNoting limits failures r.trace t outcome

/-- Whether a call is the planned one, stands where its failures say, and has noted them. -/
structure Told (p : Plan) (limits : Limits) (failures : List Failure) (r : Retry) : Prop where
  errand : r.errand = p.errand
  policy : r.policy = p.policy
  limits_eq : r.limits = limits
  stands : p.Stands limits failures r

/-- A call that has just met one failure more, and noted something of it. -/
structure Failing (p : Plan) (limits : Limits) (failures : List Failure)
    (failure : Failure) (t : Time) (notes : List Note) (r : Retry) : Prop where
  errand : r.errand = p.errand
  policy : r.policy = p.policy
  limits_eq : r.limits = limits
  url : ∃ url, p.errand.url = .ok url
  attempt : r.attempt = failures.length + 1
  requests : r.trace.requests = (failures ++ [failure]).map Failure.request
  last : failure.request.endedAt = t
  entries : r.trace.entries = p.entriesOf failures ++ notes.map (Entry.mk t)

variable {failure : Failure} {seen : Signal}

/-- A call that has met a failure waits for its grid, or stops. -/
theorem Failing.rest {notes : List Note} (h : p.Failing limits failures failure t notes r)
    (hnotes : notes ++ [.retryPlanned p.errand.path (failures.length + 1) p.policy.period] =
      p.notesOf (failures.length + 1) failure.fault)
    (hgiven : seen.given t = true → p.hub.signal.given t = true) (hperiod : 0 < p.policy.period)
    (grid : Grid) : p.Told limits (failures ++ [failure]) (r.rest ⟨seen, g⟩ t grid) := by
  have hentries : r.trace.entries ++
      [⟨t, .retryPlanned p.errand.path (failures.length + 1) p.policy.period⟩] =
        p.entriesOf (failures ++ [failure]) := by
    rw [entriesOf_concat, ← hnotes, h.entries, h.last]
    simp
  cases hseen : seen.given t with
  | true =>
      rw [rest_of_given hseen]
      refine ⟨h.errand, h.policy, h.limits_eq,
        .halted (by simp) hperiod h.requests (.shutdown (hgiven hseen)) ?_⟩
      rw [← hentries]
      simp [Trace.addNotes, h.errand, h.policy, h.attempt]
  | false =>
      rw [rest_of_not_given hseen]
      refine ⟨h.errand, h.policy, h.limits_eq,
        ⟨h.url, by simp [h.attempt], h.requests, ?_, fun _ => hperiod⟩, by simp⟩
      rw [← hentries]
      simp [Trace.addNotes, h.errand, h.policy, h.attempt]

/--
A call that has met a failure notes it, and waits for its grid, or stops, or is refused a grid.
-/
theorem Failing.recover (h : p.Failing limits failures failure t [] r) {grid : Option Grid}
    (hgrid : grid.isSome ↔ failures ≠ []) (hperiod : failures ≠ [] → 0 < p.policy.period)
    (hreport : p.policy.reportEach ≠ 0)
    (hgiven : seen.given t = true → p.hub.signal.given t = true) :
    p.Told limits (failures ++ [failure]) (r.recover ⟨seen, g⟩ t grid failure.fault) := by
  have hfirst : grid.isNone ↔ failures.length + 1 = 1 := by
    cases grid <;> simp_all
  have hnotes : r.failureNotes grid failure.fault ++
      [.retryPlanned p.errand.path (failures.length + 1) p.policy.period] =
        p.notesOf (failures.length + 1) failure.fault := by
    simp only [failureNotes, notesOf, hfirst, h.errand, h.policy, h.attempt,
      Int.dvd_iff_emod_eq_zero]
  have hnoted : p.Failing limits failures failure t (r.failureNotes grid failure.fault)
      (r.jot t (r.failureNotes grid failure.fault)) :=
    ⟨h.errand, h.policy, h.limits_eq, h.url, h.attempt, h.requests, h.last, by
      simpa [jot, Trace.addNotes] using h.entries⟩
  cases grid with
  | none =>
      obtain rfl : failures = [] := by simpa using hgrid
      by_cases hpos : 0 < p.policy.period
      · rw [recover_first (h.policy.symm ▸ hpos)]
        exact hnoted.rest hnotes hgiven hpos _
      · rw [recover_refused (h.policy.symm ▸ hpos)]
        refine ⟨h.errand, h.policy, h.limits_eq, .refused hpos rfl h.requests h.last ?_⟩
        simpa [finish, failureNotes, h.errand, h.attempt, entriesOf_nil] using hnoted.entries
  | some grid =>
      rw [recover_later (h.policy.symm ▸ hreport)]
      exact hnoted.rest hnotes hgiven (hperiod (hgrid.mp rfl)) grid

/-- Each move of a call adds to its notes what it adds to its failures. -/
theorem Told.moveBy {w : Wait} (h : p.Told limits failures r)
    (hwait : r.wait? ⟨p.hub.signal, g⟩ = some w) (hend : w.MayEnd t cause)
    (hseen : p.hub.signal.SeenAs t seen) (hreport : p.policy.reportEach ≠ 0) :
    p.Told limits (failures ++ (r.failure? t cause).toList) (r.moveBy ⟨seen, g⟩ t cause).2 := by
  obtain ⟨hcancelled, hoverdue⟩ := limit_of_mayEnd hwait hend
  rw [h.limits_eq] at hcancelled hoverdue
  have hstands := h.stands
  cases hphase : r.phase with
  | flying flight grid =>
      obtain ⟨hgoes, hgrid⟩ : p.Persists failures r ∧ (grid.isSome ↔ failures ≠ []) := by
        simpa only [Stands, hphase] using hstands
      simp only [Retry.moveBy, hphase]
      rcases failure?_cases hphase ⟨seen, g⟩ t cause with
        ⟨fault, hfailure, -, -, -, hland⟩ | ⟨hfailure, outcome, hland⟩
      · rw [hfailure, hland]
        have hfailing : p.Failing limits failures ⟨flight.request t, fault⟩ t []
            { r with trace := r.trace.addRequest (flight.request t) } :=
          ⟨h.errand, h.policy, h.limits_eq, hgoes.url, hgoes.attempt,
            by simp [Trace.addRequest, hgoes.requests],
            rfl, by simp [Trace.addRequest, hgoes.entries]⟩
        exact hfailing.recover hgrid hgoes.period hreport hseen.given
      · rw [hfailure, hland, Option.toList_none, List.append_nil]
        have hrequests : (r.trace.addRequest (flight.request t)).requests =
            failures.map Failure.request ++ [flight.request t] := by
          rw [Trace.addRequest, hgoes.requests]
        exact ⟨h.errand, h.policy, h.limits_eq, .landed hgoes.period hrequests rfl hgoes.entries⟩
  | ticking grid since =>
      obtain ⟨hgoes, hsome⟩ : p.Persists failures r ∧ failures ≠ [] := by
        simpa only [Stands, hphase] using hstands
      have hnone : r.failure? t cause = none := by simp only [failure?, hphase]
      have hstop : ∀ reason fault, p.Halts limits t (.error fault) reason →
          p.Told limits failures (r.stop t reason fault) := fun reason fault hhalts =>
        ⟨h.errand, h.policy, h.limits_eq, .halted hsome (hgoes.period hsome)
          hgoes.requests hhalts (by
          simp [stop, jot, finish, Trace.addNotes, hgoes.entries, hgoes.attempt, h.errand])⟩
      simp only [Retry.moveBy, hphase, hnone, Option.toList_none, List.append_nil]
      cases cause with
      | alarm =>
          obtain ⟨url, hurl⟩ := hgoes.url
          rcases depart_cases ⟨seen, g⟩ r t (some (grid.advance t)) with
            ⟨fault, hfault, -⟩ | ⟨url, -, hdepart⟩
          · rw [h.errand, hurl] at hfault
            simp at hfault
          · rw [wakeUp, hdepart]
            exact ⟨h.errand, h.policy, h.limits_eq,
              ⟨hgoes.url, hgoes.attempt, hgoes.requests, hgoes.entries,
              hgoes.period⟩, by simpa using hsome⟩
      | closing =>
          have hgiven : (Hub.mk p.hub.signal g).signal.given t = true :=
            given_of_closing hphase hwait hend
          exact hstop _ _ (.shutdown hgiven)
      | cancellation =>
          obtain ⟨c, hc, hpassed⟩ := hcancelled rfl
          exact hstop _ _ (.aborted hc hpassed)
      | deadline =>
          obtain ⟨d, hd, hpassed⟩ := hoverdue rfl
          exact hstop _ _ (.overdue hd hpassed)
  | ended endedAt outcome => simp [wait?, hphase] at hwait

/-- Wherever a call comes to, it has noted its failures. -/
theorem Recounts.told (h : p.Recounts limits g r failures) (hreport : p.policy.reportEach ≠ 0) :
    p.Told limits failures r := by
  induction h with
  | @begin seen hseen =>
      cases hgiven : seen.given p.now with
      | true =>
          simp only [Retry.begin, hgiven, if_true]
          exact ⟨rfl, rfl, rfl, .unsent rfl rfl rfl⟩
      | false =>
          simp only [Retry.begin, hgiven, Bool.false_eq_true, if_false]
          rcases depart_cases ⟨seen, p.hub.gateway⟩
              { errand := p.errand, policy := p.policy, limits, script := p.script, attempt := 1
                phase := .ended p.now (.error .stopped), trace := .empty } p.now none with
            ⟨fault, -, hdepart⟩ | ⟨url, hurl, hdepart⟩
          · rw [hdepart]
            exact ⟨rfl, rfl, rfl, .unsent rfl rfl rfl⟩
          · rw [hdepart]
            exact ⟨rfl, rfl, rfl, ⟨⟨url, hurl⟩, rfl, rfl, rfl, by simp⟩, by simp⟩
  | move _ hwait hend hseen ih => exact ih.moveBy hwait hend hseen hreport
  | shared _ _ ih => exact ih

/-- A call that is told of and has not ended persists. -/
theorem Told.persists (h : p.Told limits failures r) (hrunning : r.outcome? = none) :
    p.Persists failures r := by
  have hstands := h.stands
  cases hphase : r.phase with
  | flying flight grid =>
      simp only [Stands, hphase] at hstands
      exact hstands.1
  | ticking grid since =>
      simp only [Stands, hphase] at hstands
      exact hstands.1
  | ended t outcome => simp [outcome?, hphase] at hrunning

/-- A call that is told of and has ended has done so in one of the ways there are. -/
theorem Told.endsNoting {outcome : Except Fault (Option Payload)} (h : p.Told limits failures r)
    (hends : r.outcome? = some (t, outcome)) : p.EndsNoting limits failures r.trace t outcome := by
  simpa only [Stands, phase_of_outcome? hends] using h.stands

/-! ## What has failed -/

/--
Whether a failure is that of the attempt with so many others before it: as answered, or cut off.
-/
def Meets (p : Plan) (k : ℕ) (failure : Failure) : Prop :=
  failure.fault.retryable = true ∧
    (failure.fault = .connectionClosed ∨ ∃ span,
      failure.request.startedAt + span = failure.request.endedAt ∧
        p.Attempts k span (.error failure.fault))

/-- A failure of a call that its answers account for is the one that its next answer brings. -/
theorem Accounted.meets {w : Wait} (h : p.Accounted limits g r)
    (hwait : r.wait? ⟨p.hub.signal, g⟩ = some w) (hend : w.MayEnd t cause)
    (hfailure : r.failure? t cause = some failure) :
    p.Meets r.trace.requests.length failure := by
  cases hphase : r.phase with
  | flying flight grid =>
      have hw : w = flight.wait g.sessions r.limits := by
        simpa [wait?, hphase, eq_comm] using hwait
      subst hw
      rcases failure?_cases hphase ⟨p.hub.signal, g⟩ t cause with
        ⟨fault, hsome, hcause, hretryable, hcame, -⟩ | ⟨hnone, -⟩
      · obtain rfl : ⟨flight.request t, fault⟩ = failure :=
          Option.some.inj (hsome.symm.trans hfailure)
        refine ⟨hretryable, ?_⟩
        cases cause with
        | alarm =>
            obtain ⟨span, hspan, hattempt⟩ := h.attempts_of_alarm hphase hend.1
            rw [← h.errand, hcame] at hattempt
            exact .inr ⟨span, hspan, hattempt⟩
        | closing => exact .inl (Except.error.inj hcame).symm
        | cancellation => simp [Cause.endsCall] at hcause
        | deadline => simp [Cause.endsCall] at hcause
      · rw [hnone] at hfailure
        simp at hfailure
  | ticking grid since => simp [failure?, hphase] at hfailure
  | ended endedAt outcome => simp [wait?, hphase] at hwait

/-- A call that meets a failure has an attempt under way. -/
theorem outcome?_of_failure? (h : r.failure? t cause = some failure) : r.outcome? = none := by
  cases hphase : r.phase with
  | flying flight grid => simp [outcome?, hphase]
  | ticking grid since => simp [failure?, hphase] at h
  | ended endedAt outcome => simp [failure?, hphase] at h

/-- What a call has met are the failures of its first attempts. -/
theorem Recounts.meets {endpoint : Endpoint} {form : Form} (h : p.Recounts limits g r failures)
    (herrand : p.errand = .ofEndpoint endpoint form) (hperiod : 0 < p.policy.period)
    (hreport : p.policy.reportEach ≠ 0) {k : ℕ} (hk : failures[k]? = some failure) :
    p.Meets k failure := by
  have hurl : ∀ fault, p.errand.url = .error fault → ¬ Mendable (.error fault) := by
    intro fault hfault
    rw [herrand] at hfault
    exact Endpoint.not_mendable_of_url? hfault
  induction h with
  | begin _ => simp at hk
  | @move g r failures w t cause seen hrecounts hwait hend _ ih =>
      by_cases hlt : k < failures.length
      · exact ih (by rwa [List.getElem?_append_left hlt] at hk)
      · rw [List.getElem?_append_right (by omega)] at hk
        obtain ⟨hfailure, hlength⟩ : r.failure? t cause = some failure ∧ k = failures.length := by
          cases hfailure : r.failure? t cause with
          | none => simp [hfailure] at hk
          | some failure' =>
              simp only [hfailure, Option.toList_some, List.getElem?_singleton] at hk
              split at hk
              · exact ⟨hk, by omega⟩
              · simp at hk
        have hgoes := (hrecounts.told hreport).persists (outcome?_of_failure? hfailure)
        have haccounted : p.Accounted limits g r :=
          (exists_recounts_iff.mpr ⟨failures, hrecounts⟩).accounted hperiod hreport hurl
        rw [hlength, ← List.length_map Failure.request, ← hgoes.requests]
        exact haccounted.meets hwait hend hfailure
  | shared _ _ ih => exact ih hk

/-! ## How many notes there are -/

/-- With one failure more there are the notes of that one more, at each level. -/
theorem countP_entriesOf_concat (p : Plan) (failures : List Failure)
    (failure : Failure) (level : Level) :
    (p.entriesOf (failures ++ [failure])).countP (fun entry => entry.note.level = level) =
      (p.entriesOf failures).countP (fun entry => entry.note.level = level) +
        (p.notesOf (failures.length + 1) failure.fault).countP
        (fun note => note.level = level) := by
  rw [entriesOf_concat, List.countP_append, List.countP_map]
  rfl

/-- Of each failure it is noted once that it is tried again. -/
theorem countP_info_entriesOf (p : Plan) (failures : List Failure) :
    (p.entriesOf failures).countP (fun entry => entry.note.level = .info) = failures.length := by
  induction failures using List.reverseRecOn with
  | nil => rfl
  | append_singleton failures failure ih =>
      rw [countP_entriesOf_concat, ih, List.length_append, notesOf]
      split <;> rfl

/--
The first failure is reported, and of the others those with a number that the frequency divides.
-/
theorem countP_warning_entriesOf (p : Plan) {failures : List Failure} (hsome : failures ≠ []) :
    (p.entriesOf failures).countP (fun entry => entry.note.level = .warning) =
      1 + ((Finset.Icc 2 failures.length).filter fun k : ℕ => p.policy.reportEach ∣ k).card := by
  induction failures using List.reverseRecOn with
  | nil => simp at hsome
  | append_singleton failures failure ih =>
      rw [countP_entriesOf_concat, List.length_append, List.length_singleton]
      by_cases hfirst : failures = []
      · subst hfirst
        simp [entriesOf_nil, notesOf, Note.level]
      · have hlength : 0 < failures.length := List.length_pos_iff.mpr hfirst
        rw [ih hfirst, ← Finset.insert_Icc_right_eq_Icc_add_one
          (by omega : 2 ≤ failures.length + 1),
          Finset.filter_insert, notesOf]
        by_cases hdvd : p.policy.reportEach ∣ (failures.length + 1 : ℕ)
        · rw [if_pos (.inr hdvd), if_pos hdvd, Finset.card_insert_of_notMem (by simp)]
          rfl
        · rw [if_neg (not_or.mpr ⟨by omega, hdvd⟩), if_neg hdvd]
          rfl

/-! ## What a call has noted -/

/-- Beside its failures a call notes its stop at most, if there is a grid for its period. -/
theorem Told.exists_entries (h : p.Told limits failures r)
    (hperiod : failures ≠ [] → 0 < p.policy.period) :
    ∃ more : List Entry, r.trace.entries = p.entriesOf failures ++ more ∧
      (failures = [] → more = []) ∧ ∀ entry ∈ more, entry.note.level = .debug := by
  cases houtcome : r.outcome? with
  | none => exact ⟨[], by simp [(h.persists houtcome).entries], by simp, by simp⟩
  | some ending =>
      obtain ⟨t, outcome⟩ := ending
      cases h.endsNoting houtcome with
      | unsent hnone _ hentries =>
          exact ⟨[], by simp [hentries, hnone, entriesOf_nil], by simp, by simp⟩
      | landed _ _ _ hentries => exact ⟨[], by simp [hentries], by simp, by simp⟩
      | halted hsome _ _ _ hentries =>
          exact ⟨_, hentries, fun h => absurd h hsome, by simp [Note.level]⟩
      | refused hrefused hone _ _ _ => exact absurd (hperiod (by simp [hone])) hrefused

/--
Without a positive period a call has met no failure and noted nothing, or its first one has ended
it.
-/
theorem Told.refused (h : p.Told limits failures r) (hperiod : ¬ 0 < p.policy.period) :
    failures = [] ∧ r.trace.entries = [] ∨
      ∃ failure, failures = [failure] ∧
        r.outcome? = some (failure.request.endedAt, .error (.refused .retryPeriod)) ∧
        r.trace.entries =
          [⟨failure.request.endedAt, .attemptFailed p.errand.path 1 failure.fault⟩] := by
  have hnothing : ∀ {failures : List Failure}, (failures ≠ [] → 0 < p.policy.period) →
      failures = [] ∧ p.entriesOf failures = [] := fun {failures} hpositive => by
    have hnone : failures = [] := by_contra fun hsome => hperiod (hpositive hsome)
    exact ⟨hnone, by rw [hnone, entriesOf_nil]⟩
  cases houtcome : r.outcome? with
  | none =>
      have hpersists := h.persists houtcome
      exact .inl ((hnothing hpersists.period).imp_right hpersists.entries.trans)
  | some ending =>
      obtain ⟨t, outcome⟩ := ending
      cases h.endsNoting houtcome with
      | unsent hnone _ hentries => exact .inl ⟨hnone, hentries⟩
      | landed hpositive _ _ hentries => exact .inl ((hnothing hpositive).imp_right hentries.trans)
      | halted _ hpositive _ _ _ => exact absurd hpositive hperiod
      | @refused failure _ hone _ hlast hentries =>
          subst hlast
          exact .inr ⟨failure, hone, rfl, hentries⟩

/--
A call has noted its failures, in order and each when the attempt ended that failed: what had
failed, if it is the first one or the frequency divides its number, and that it is tried again.  If
it has ended, one note more says so if it stopped while it waited for its next attempt, and with
what number and why; there is none if an attempt has ended it.  So each failure is noted once as
tried again.  Its failures are what the first answers have brought.  Without a positive period the
first failure ends the call at once, which is refused its grid and notes what had failed and no
more; a call that meets none notes nothing.
-/
theorem notes_failures {endpoint : Endpoint} {form : Form}
    (herrand : p.errand = .ofEndpoint endpoint form) (hreport : 1 ≤ p.policy.reportEach)
    (limits : Limits) :
    (∀ g r, p.Reaches limits g r ↔ ∃ failures, p.Recounts limits g r failures) ∧
      (∀ n, p.Recounts limits (p.after limits n).1.gateway (p.after limits n).2
        (p.failuresAfter limits n)) ∧
      ∀ g r failures, p.Recounts limits g r failures →
        (r.outcome? = none → r.trace.entries = p.entriesOf failures) ∧
        (∀ t outcome, r.outcome? = some (t, outcome) →
          p.EndsNoting limits failures r.trace t outcome) ∧
        (failures = [] → r.trace.entries = []) ∧
        (0 < p.policy.period →
          r.trace.entries.countP (fun entry => entry.note.level = .info) = failures.length ∧
          (failures ≠ [] → r.trace.entries.countP (fun entry => entry.note.level = .warning) =
            1 + ((Finset.Icc 2 failures.length).filter fun k : ℕ => p.policy.reportEach ∣ k).card) ∧
          ∀ k failure, failures[k]? = some failure → p.Meets k failure) ∧
        (¬ 0 < p.policy.period →
          failures = [] ∧ r.trace.entries = [] ∨
            ∃ failure, failures = [failure] ∧
              r.outcome? = some (failure.request.endedAt, .error (.refused .retryPeriod)) ∧
              r.trace.entries =
                [⟨failure.request.endedAt, .attemptFailed p.errand.path 1 failure.fault⟩]) := by
  have hzero : p.policy.reportEach ≠ 0 := by omega
  refine ⟨fun _ _ => exists_recounts_iff, p.recounts_after limits, ?_⟩
  intro g r failures hrecounts
  have htold := hrecounts.told hzero
  refine ⟨fun hrunning => (htold.persists hrunning).entries, fun _ _ => htold.endsNoting, ?_, ?_,
    htold.refused⟩
  · intro hnone
    obtain ⟨more, hentries, hmore, -⟩ := htold.exists_entries (fun h => absurd hnone h)
    rw [hentries, hmore hnone, hnone, entriesOf_nil, List.append_nil]
  · intro hperiod
    obtain ⟨more, hentries, -, hmore⟩ := htold.exists_entries fun _ => hperiod
    have hcount : ∀ level : Level, level ≠ .debug →
        r.trace.entries.countP (fun entry => entry.note.level = level) =
          (p.entriesOf failures).countP fun entry => entry.note.level = level := by
      intro level hlevel
      rw [hentries, List.countP_append, Nat.add_eq_left, List.countP_eq_zero]
      intro entry hentry
      simp [hmore entry hentry, hlevel.symm]
    refine ⟨?_, ?_, ?_⟩
    · rw [hcount .info (by decide), countP_info_entriesOf]
    · intro hsome
      rw [hcount .warning (by decide), countP_warning_entriesOf p hsome]
    · exact fun k failure hk => hrecounts.meets herrand hperiod hzero hk

/-- The answer of a service that fails after a while. -/
def failing (after : Time) : Answer := .reply (.lasting after) 500 (.lasting 0) (.ok .empty)

/-- The authority of the flagging call is not empty. -/
theorem flagging_authority_ne_nil : ['h'] ≠ [] := List.cons_ne_nil _ _

/-- The origin of the flagging call. -/
theorem flagging_origin_eq :
    Url.Origin.ofText? "http://h" = .ok ⟨.http, ['h'], flagging_authority_ne_nil⟩ := by
      decide +kernel

/--
A call that fails three times, reports every second failure, and is over before it can try again.
-/
def flagging : Plan where
  hub := { signal := .pending, gateway := .fresh 30 }
  now := 0
  errand := .ofEndpoint
    { base := "http://h", path := "/milestone", query := []
      origin := ⟨.http, ['h'], flagging_authority_ne_nil⟩
      origin_eq := flagging_origin_eq } .milestone
  policy := { period := 5, reportEach := 2 }
  script := { head := failing 1, tail := [failing 2, failing 0] }

/-- The deadline of the flagging call. -/
def flaggingLimits : Limits := { deadlineAt := some 12, cancelAt := none }

/--
The flagging call says three times that it tries again, twice what had failed, and once that it
stops.
-/
theorem flagging_notes :
    1 ≤ flagging.policy.reportEach ∧
      (flagging.after flaggingLimits 6).2.trace.entries =
        flagging.entriesOf (flagging.failuresAfter flaggingLimits 6) ++
          [⟨12, .callStopped "/milestone" 4 .cancelled⟩] ∧
      (flagging.failuresAfter flaggingLimits 6).map (fun failure => failure.request.endedAt) =
      [1, 8, 11] ∧
      flagging.EndsNoting flaggingLimits (flagging.failuresAfter flaggingLimits 6)
        (flagging.after flaggingLimits 6).2.trace 12 (.error .overdue) ∧
      (flagging.after flaggingLimits 6).2.trace.entries.countP
        (fun entry => entry.note.level = .warning) = 1 + 1 := by
  have hreport : 1 ≤ flagging.policy.reportEach := by decide
  have hfailures : (flagging.failuresAfter flaggingLimits 6).map
      (fun failure => failure.request.endedAt) = [1, 8, 11] := by decide +kernel
  have hsome : flagging.failuresAfter flaggingLimits 6 ≠ [] := by
    intro hnone
    simp [hnone] at hfailures
  obtain ⟨-, hrecounts, hnotes⟩ := notes_failures rfl hreport flaggingLimits
  obtain ⟨-, hends, -, hcounts, -⟩ := hnotes _ _ _ (hrecounts 6)
  obtain ⟨-, hwarnings, -⟩ := hcounts (by decide +kernel)
  refine ⟨hreport, by decide +kernel, hfailures, hends 12 _ (by decide +kernel), ?_⟩
  have hlength : (flagging.failuresAfter flaggingLimits 6).length = 3 := by decide +kernel
  rw [hwarnings hsome, hlength]
  rfl

/-- A call that fails once and has no period to try again in. -/
def hasty : Plan := { flagging with policy := { period := 0, reportEach := 2 } }

/-- The hasty call notes of its failure what had failed, but not that it is tried again. -/
theorem hasty_notes :
    hasty.Recounts .none (hasty.after .none 1).1.gateway (hasty.after .none 1).2
        (hasty.failuresAfter .none 1) ∧
      (hasty.failuresAfter .none 1).length = 1 ∧
      (hasty.after .none 1).2.outcome? = some (1, .error (.refused .retryPeriod)) ∧
      ¬ ∃ more, (hasty.after .none 1).2.trace.entries =
        hasty.entriesOf (hasty.failuresAfter .none 1) ++ more := by
  refine ⟨hasty.recounts_after .none 1, by decide +kernel, by decide +kernel, ?_⟩
  rintro ⟨more, hentries⟩
  have hone : (hasty.after .none 1).2.trace.entries.length = 1 := by decide +kernel
  have htwo : (hasty.entriesOf (hasty.failuresAfter .none 1)).length = 2 := by decide +kernel
  rw [hentries, List.length_append, htwo] at hone
  omega

end Plan
end Retry
end ChainPoll

import ChainPoll.Proofs.Retry.Moves

/-!
# Calls cut off by their limits

A call under limits is compared with the same call without limits.  Both make the same moves as long
as these come before the first limit; then the call under limits ends at that limit, and leaves
behind what the other one had done by then.

Main results:

- Theorem {lit}`Retry.resume_under_of_wake`: limits that do not disturb a wait do not disturb the
  move that ends it.
- Theorem {lit}`Retry.resume_under_of_cut`: a limit that strikes before the next move ends the call.
- Theorem {lit}`Retry.Plan.limits_truncate`: a call under limits is the call without them, cut off
  at the first of them.
-/

namespace ChainPoll

/-- The fault with which a limit ends a call. -/
def Cause.limitFault : Cause → Fault
  | .cancellation => .aborted
  | _ => .overdue

namespace Retry

variable {hub : Hub} {r : Retry} {limits : Limits} {t : Time} {cause : Cause}

/-! ## The same call under limits -/

/-- A call under other limits. -/
def under (r : Retry) (limits : Limits) : Retry :=
  { r with limits }

/-- Whether a call really waits: an exchange that takes no time is not waited for. -/
def Suspended (r : Retry) : Prop :=
  match r.phase with
  | .flying flight _ => flight.settled = false
  | .ticking _ _ => True
  | .ended _ _ => False

/-- A call that does not really wait heeds no limits. -/
theorem wake_under_of_not_suspended (h : ¬ r.Suspended) :
    (r.under limits).wake hub = r.wake hub := by
  cases hphase : r.phase with
  | flying flight grid =>
      have hsettled : flight.settled = true := by simpa [Suspended, hphase] using h
      have hphase' : (r.under limits).phase = .flying flight grid := hphase
      rw [wake_of_settled hphase hsettled, wake_of_settled hphase' hsettled]
  | ticking grid since => simp [Suspended, hphase] at h
  | ended endedAt outcome =>
      have hphase' : (r.under limits).phase = .ended endedAt outcome := hphase
      rw [wake_ended hphase, wake_ended hphase']

/-- What a call without limits really waits for has no limits, and has them under limits. -/
theorem wait?_of_suspended (hub : Hub) (limits : Limits) (hr : r.limits = .none)
    (h : r.Suspended) :
    ∃ w, r.wait? hub = some w ∧ w.Unlimited ∧
      (r.under limits).wait? hub = some (w.under limits) := by
  cases hphase : r.phase with
  | flying flight grid =>
      have hsettled : flight.settled = false := by simpa [Suspended, hphase] using h
      refine ⟨flight.wait hub.gateway.sessions .none, ?_, ?_, ?_⟩
      · simp [wait?, hphase, hr]
      · simp [Flight.wait, hsettled, Wait.Unlimited, Wait.within, Limits.none]
      · simp [wait?, under, hphase, Flight.wait, hsettled, Wait.under, Wait.within]
  | ticking grid since =>
      refine ⟨.within .none since (some grid.next) hub.signal.givenAt, ?_, ?_, ?_⟩
      · simp [wait?, hphase, hr]
      · simp [Wait.Unlimited, Wait.within, Limits.none]
      · simp [wait?, under, hphase, Wait.under, Wait.within]
  | ended endedAt outcome => simp [Suspended, hphase] at h

/-- Limits that strike after the next move do not disturb the wait for it. -/
theorem wake_under_of_before (hr : r.limits = .none) (h : r.wake hub = some (t, cause))
    (hlate : ∀ d v, limits.instant d = some v → t < v) :
    (r.under limits).wake hub = some (t, cause) := by
  by_cases hs : r.Suspended
  · obtain ⟨w, hw, hunlimited, hunder⟩ := wait?_of_suspended hub limits hr hs
    rw [wake, hw] at h
    rw [wake, hunder]
    exact Wait.wake_under_of_before hunlimited h hlate
  · rw [wake_under_of_not_suspended hs, h]

/-- A limit ends a wait that nothing ends before it. -/
theorem wake_under_of_cut (hr : r.limits = .none) (hs : r.Suspended)
    (hcause : limits.instant cause = some t)
    (hfirst : ∀ d v, limits.instant d = some v →
      Wait.Precedes (Time.later r.began t, cause) (Time.later r.began v, d))
    (hlate : ∀ u d, r.wake hub = some (u, d) → Time.later r.began t ≤ u) :
    (r.under limits).wake hub = some (Time.later r.began t, cause) := by
  obtain ⟨w, hw, hunlimited, hunder⟩ := wait?_of_suspended hub limits hr hs
  have hsince : w.since = r.began := since_of_wait? hw
  rw [wake, hw] at hlate
  rw [wake, hunder, ← hsince]
  rw [← hsince] at hfirst hlate
  exact Wait.wake_under_of_first hunlimited hcause hfirst hlate

/-! ## Moves under limits -/

/-- Attempts start in the same way under all limits. -/
theorem depart_under (hub : Hub) (r : Retry) (limits : Limits) (t : Time) (grid : Option Grid) :
    (r.under limits).depart hub t grid =
      ((r.depart hub t grid).1, (r.depart hub t grid).2.under limits) := by
  cases hurl : r.errand.url with
  | error fault => simp [depart, under, hurl, finish]
  | ok url => simp [depart, under, hurl]

/-- Rests are the same under all limits. -/
theorem rest_under (hub : Hub) (r : Retry) (limits : Limits) (t : Time) (grid : Grid) :
    (r.under limits).rest hub t grid = (r.rest hub t grid).under limits := by
  cases h : hub.signal.given t with
  | true =>
      rw [rest_of_given h, rest_of_given h]
      rfl
  | false =>
      rw [rest_of_not_given h, rest_of_not_given h]
      rfl

/-- A call goes on after a failed attempt in the same way under all limits. -/
theorem recover_under (hub : Hub) (r : Retry) (limits : Limits) (t : Time) (grid : Option Grid)
    (fault : Fault) :
    (r.under limits).recover hub t grid fault = (r.recover hub t grid fault).under limits := by
  cases grid with
  | none =>
      by_cases hperiod : 0 < r.policy.period
      · have hperiod' : 0 < (r.under limits).policy.period := hperiod
        rw [recover_first hperiod, recover_first hperiod', ← rest_under]
        rfl
      · have hperiod' : ¬ 0 < (r.under limits).policy.period := hperiod
        rw [recover_refused hperiod, recover_refused hperiod']
        rfl
  | some grid =>
      by_cases hreport : r.policy.reportEach = 0
      · simp [recover, under, hreport, finish]
      · have hreport' : (r.under limits).policy.reportEach ≠ 0 := hreport
        rw [recover_later hreport, recover_later hreport', ← rest_under]
        rfl

/-- Exchanges land in the same way under all limits. -/
theorem land_under (hub : Hub) (r : Retry) (limits : Limits) (flight : Flight)
    (grid : Option Grid) (t : Time) (cause : Cause) :
    (r.under limits).land hub flight grid t cause =
      (r.land hub flight grid t cause).under limits := by
  have hrecover := recover_under hub { r with trace := r.trace.addRequest (flight.request t) }
    limits t grid
  cases houtcome : r.errand.interpret (flight.outcome cause) with
  | ok payload => simp only [land, under, houtcome, finish]
  | error fault =>
      by_cases hends : (cause.endsCall || !fault.retryable) = true
      · simp only [land, under, houtcome, hends, if_true, finish]
      · have hleft : (r.under limits).land hub flight grid t cause =
            ({ r with trace := r.trace.addRequest (flight.request t) }.under limits).recover hub t
              grid fault := by
          simp [land, under, houtcome, hends]
        have hright : r.land hub flight grid t cause =
            { r with trace := r.trace.addRequest (flight.request t) }.recover hub t grid fault := by
          simp [land, houtcome, hends]
        rw [hleft, hright, hrecover fault]

/-- The wait between two attempts ends in the same way under all limits. -/
theorem wakeUp_under (hub : Hub) (r : Retry) (limits : Limits) (grid : Grid) (t : Time)
    (cause : Cause) :
    (r.under limits).wakeUp hub grid t cause =
      ((r.wakeUp hub grid t cause).1, (r.wakeUp hub grid t cause).2.under limits) := by
  cases cause with
  | alarm => exact depart_under hub r limits t _
  | closing => rfl
  | cancellation => rfl
  | deadline => rfl

/-- A call whose wait the limits do not disturb moves as it does without them. -/
theorem resume_under_of_wake (h : (r.under limits).wake hub = r.wake hub) :
    (r.under limits).resume hub = ((r.resume hub).1, (r.resume hub).2.under limits) := by
  cases hwake : r.wake hub with
  | none =>
      rw [hwake] at h
      rw [resume_of_wake_eq_none hwake, resume_of_wake_eq_none h]
  | some a =>
      obtain ⟨t, cause⟩ := a
      rw [hwake] at h
      cases hphase : r.phase with
      | flying flight grid =>
          have hphase' : (r.under limits).phase = .flying flight grid := hphase
          simp only [resume, h, hwake, hphase, hphase', land_under]
      | ticking grid since =>
          have hphase' : (r.under limits).phase = .ticking grid since := hphase
          simp only [resume, h, hwake, hphase, hphase', wakeUp_under]
      | ended endedAt outcome =>
          have hphase' : (r.under limits).phase = .ended endedAt outcome := hphase
          simp only [resume, h, hwake, hphase, hphase']

/-! ## The end at a limit -/

/--
What a call leaves behind when it is cut off at an instant: an exchange under way is released, and a
call that waits for its next attempt notes that it stops.
-/
def cutOff (r : Retry) (t : Time) : Trace :=
  match r.phase with
  | .flying flight _ => r.trace.addRequest (flight.request t)
  | .ticking _ _ =>
    r.trace.addNotes t [.callStopped r.errand.path (r.trace.requests.length + 1) .cancelled]
  | .ended _ _ => r.trace

/-- A limit that strikes before the next move ends the call. -/
theorem resume_under_of_cut (hcounted : r.Counted) (hs : r.Suspended) {d : Cause}
    (hcause : limits.instant d = some t) {u : Time}
    (hwake : (r.under limits).wake hub = some (u, d)) :
    (r.under limits).resume hub =
      (hub, { r with
        limits
        phase := .ended u (.error d.limitFault)
        trace := r.cutOff u }) := by
  cases hphase : r.phase with
  | flying flight grid =>
      have hphase' : (r.under limits).phase = .flying flight grid := hphase
      cases d with
      | cancellation =>
          simp only [resume, hwake, hphase', land]
          simp [under, Flight.outcome, Errand.interpret_error, Cause.endsCall, finish, cutOff,
            hphase, Cause.limitFault]
      | deadline =>
          simp only [resume, hwake, hphase', land]
          simp [under, Flight.outcome, Errand.interpret_error, Cause.endsCall, finish, cutOff,
            hphase, Cause.limitFault]
      | alarm => simp [Limits.instant] at hcause
      | closing => simp [Limits.instant] at hcause
  | ticking grid since =>
      have hphase' : (r.under limits).phase = .ticking grid since := hphase
      have hattempt : r.attempt = r.trace.requests.length + 1 :=
        hcounted (by simp [outcome?, hphase])
      cases d with
      | cancellation =>
          simp only [resume, hwake, hphase', wakeUp]
          simp [under, stop, jot, finish, cutOff, hphase, hattempt, Cause.limitFault]
      | deadline =>
          simp only [resume, hwake, hphase', wakeUp]
          simp [under, stop, jot, finish, cutOff, hphase, hattempt, Cause.limitFault]
      | alarm => simp [Limits.instant] at hcause
      | closing => simp [Limits.instant] at hcause
  | ended endedAt outcome => simp [Suspended, hphase] at hs

end Retry

/-! ## What was done by an instant -/

namespace Retry

variable {hub hub' : Hub} {r r' : Retry} {limits : Limits} {t u : Time} {cause : Cause}

/-- A call that is cut off has started what it had started. -/
theorem starts_cutOff (r : Retry) (t : Time) :
    (r.cutOff t).requests.map Request.start = r.starts := by
  rw [starts_eq r t]
  cases hphase : r.phase <;> simp [cutOff, traceAt, hphase, Trace.addNotes]

/-- A move at or after an instant adds no start before it. -/
theorem Moved.starts_before (h : Moved hub r t hub' r') (hut : u ≤ t) :
    r'.starts.filter (fun s => s.1 < u) = r.starts.filter (fun s => s.1 < u) := by
  rcases h.starts_eq with heq | ⟨target, heq⟩
  · rw [heq]
  · rw [heq, List.filter_append]
    simp [not_lt.mpr hut]

/-- A move notes things at its instant only. -/
theorem Moved.entries_eq (h : Moved hub r t hub' r') :
    ∃ notes : List Note, r'.trace.entries = r.trace.entries ++ notes.map (Entry.mk t) := by
  obtain ⟨notes, htrace⟩ := h.trace_eq
  refine ⟨notes, ?_⟩
  rw [htrace]
  cases hphase : r.phase <;> simp [Trace.addNotes, traceAt, hphase, Trace.addRequest]

/-- A move at or after an instant adds no note before it. -/
theorem Moved.entries_before (h : Moved hub r t hub' r') (hut : u ≤ t) :
    r'.trace.entries.filter (fun e => e.time < u) =
      r.trace.entries.filter (fun e => e.time < u) := by
  obtain ⟨notes, hentries⟩ := h.entries_eq
  rw [hentries, List.filter_append]
  simp [hut]

/-- Whether all that a call has started and noted comes before an instant. -/
def AllBefore (r : Retry) (u : Time) : Prop :=
  (∀ s ∈ r.starts, s.1 < u) ∧ ∀ e ∈ r.trace.entries, e.time < u

/-- A move before an instant only starts and notes things before it. -/
theorem Moved.allBefore (h : Moved hub r t hub' r') (htu : t < u) (hr : r.AllBefore u) :
    r'.AllBefore u := by
  constructor
  · intro s hs
    rcases h.starts_eq with heq | ⟨target, heq⟩
    · exact hr.1 s (heq ▸ hs)
    · rw [heq, List.mem_append, List.mem_singleton] at hs
      rcases hs with hs | rfl
      · exact hr.1 s hs
      · exact htu
  · intro e he
    obtain ⟨notes, hentries⟩ := h.entries_eq
    rw [hentries, List.mem_append, List.mem_map] at he
    rcases he with he | ⟨note, -, rfl⟩
    · exact hr.2 e he
    · exact htu

namespace Plan

variable {p : Plan} {m n : Nat}

/-- So many moves are all that a planned call without limits makes before an instant. -/
structure StandsAt (p : Plan) (t : Time) (n : Nat) : Prop where
  before : ∀ m < n, ∃ u cause, p.wakeAfter .none m = some (u, cause) ∧ u < t
  next : ∀ u cause, p.wakeAfter .none n = some (u, cause) → t ≤ u

/-- At every instant a planned call stands somewhere. -/
theorem exists_standsAt (p : Plan) (t : Time) : ∃ n, p.StandsAt t n := by
  obtain ⟨n, hbefore, hafter⟩ := exists_last_move_before t (p.after .none 0).1 (p.after .none 0).2
  have hrun : ∀ k, run k (p.after .none 0).1 (p.after .none 0).2 = p.after .none k := by
    intro k
    have hzero : p.after .none 0 =
        Retry.begin p.hub p.now p.errand p.policy .none p.script .empty := rfl
    rw [hzero]
    rfl
  simp only [hrun] at hbefore hafter
  exact ⟨n, hbefore, hafter⟩

/-- A call that stands somewhere at an instant after its begin came there before. -/
theorem StandsAt.began_lt (h : p.StandsAt t n) (hnow : p.now < t) :
    (p.after .none n).2.began < t := by
  cases n with
  | zero => rwa [began_after_zero]
  | succ n =>
      obtain ⟨u, cause, hwake, hut⟩ := h.before n n.lt_succ_self
      rwa [(moved_after hwake).began_eq]

/-- All that a call did by an instant after its begin comes before that instant. -/
theorem StandsAt.allBefore (h : p.StandsAt t n) (hnow : p.now < t) :
    (p.after .none n).2.AllBefore t := by
  obtain ⟨hbefore, -⟩ := h
  induction n with
  | zero =>
      rcases p.after_zero_cases .none with ⟨outcome, -, hzero⟩ | ⟨url, -, -, -, hzero⟩
      · simp [hzero, AllBefore, starts, traceAt, Trace.empty]
      · simp [hzero, AllBefore, starts, traceAt, Trace.empty, Trace.addRequest, Request.start,
          Flight.request, Connector.depart, hnow]
  | succ n ih =>
      obtain ⟨u, cause, hwake, hut⟩ := hbefore n n.lt_succ_self
      exact (moved_after hwake).allBefore hut (ih fun m hm => hbefore m (by omega))

/-- What a call does later neither starts nor notes anything before an instant. -/
theorem StandsAt.filter_after (h : p.StandsAt t n) (hnm : n ≤ m) :
    (p.after .none m).2.starts.filter (fun s => s.1 < t) =
        (p.after .none n).2.starts.filter (fun s => s.1 < t) ∧
      (p.after .none m).2.trace.entries.filter (fun e => e.time < t) =
        (p.after .none n).2.trace.entries.filter (fun e => e.time < t) := by
  induction m, hnm using Nat.le_induction with
  | base => exact ⟨rfl, rfl⟩
  | succ m hnm ih =>
      cases hwake : p.wakeAfter .none m with
      | none => rwa [after_of_wakeAfter_eq_none hwake m.le_succ]
      | some a =>
          obtain ⟨u, cause⟩ := a
          have htu : t ≤ u := by
            rcases hnm.lt_or_eq with hlt | rfl
            · cases hn : p.wakeAfter .none n with
              | none =>
                  have heq := after_of_wakeAfter_eq_none hn hnm
                  rw [wakeAfter, heq] at hwake
                  rw [wakeAfter, hwake] at hn
                  simp at hn
              | some b =>
                  exact (h.next b.1 b.2 hn).trans
                    ((wakeAfter_le_began hn hlt).trans (began_le_of_wake hwake))
            · exact h.next u cause hwake
          exact ⟨((moved_after hwake).starts_before htu).trans ih.1,
            ((moved_after hwake).entries_before htu).trans ih.2⟩

/-- What a call had started and noted by an instant is what it ever starts and notes before it. -/
theorem StandsAt.eq_filter (h : p.StandsAt t n) (hnow : p.now < t) (hnm : n ≤ m) :
    (p.after .none n).2.starts = (p.after .none m).2.starts.filter (fun s => s.1 < t) ∧
      (p.after .none n).2.trace.entries =
        (p.after .none m).2.trace.entries.filter (fun e => e.time < t) := by
  obtain ⟨hstarts, hentries⟩ := h.filter_after hnm
  obtain ⟨hstartsBefore, hentriesBefore⟩ := h.allBefore hnow
  rw [hstarts, hentries]
  constructor
  · exact (List.filter_eq_self.mpr fun s hs => by simpa using hstartsBefore s hs).symm
  · exact (List.filter_eq_self.mpr fun e he => by simpa using hentriesBefore e he).symm

/-! ## Calls under limits -/

/-- A call begins in the same way under all limits. -/
theorem after_zero_under (p : Plan) (limits : Limits) :
    p.after limits 0 = ((p.after .none 0).1, (p.after .none 0).2.under limits) := by
  cases hgiven : p.hub.signal.given p.now with
  | true => simp [after, Retry.begin, run, hgiven, under]
  | false =>
      have h := depart_under p.hub
        { errand := p.errand, policy := p.policy, limits := .none, script := p.script, attempt := 1
          phase := .ended p.now (.error .stopped), trace := .empty } limits p.now none
      simp only [after, Retry.begin, run, hgiven, Bool.false_eq_true, if_false]
      exact h

/-- As long as limits disturb no wait, a call makes the moves that it makes without them. -/
theorem after_under
    (h : ∀ m < n,
      ((p.after .none m).2.under limits).wake (p.after .none m).1 = p.wakeAfter .none m) :
    p.after limits n = ((p.after .none n).1, (p.after .none n).2.under limits) := by
  induction n with
  | zero => exact p.after_zero_under limits
  | succ n ih =>
      rw [after_succ, ih fun m hm => h m (by omega), after_succ]
      exact resume_under_of_wake (h n n.lt_succ_self)

/-- A call makes the moves before all its limits that it makes without them. -/
theorem StandsAt.after_under (h : p.StandsAt t n)
    (hlimits : ∀ d v, limits.instant d = some v → t ≤ v) :
    p.after limits n = ((p.after .none n).1, (p.after .none n).2.under limits) := by
  apply Plan.after_under
  intro m hm
  obtain ⟨u, cause, hwake, hut⟩ := h.before m hm
  rw [hwake]
  exact wake_under_of_before (p.frame_after .none m).2.2 hwake
    fun d v hv => hut.trans_le (hlimits d v hv)

/-- Limits that strike after the end of a call do not disturb it. -/
theorem after_under_of_ended {outcome : Except Fault (Option Payload)}
    (h : (p.after .none n).2.outcome? = some (u, outcome))
    (hlimits : ∀ d v, limits.instant d = some v → u < v) :
    p.after limits n = ((p.after .none n).1, (p.after .none n).2.under limits) := by
  have hphase := phase_of_outcome? h
  have hbegan : (p.after .none n).2.began = u := by simp [began, hphase]
  apply after_under
  intro m hm
  cases hwake : p.wakeAfter .none m with
  | none =>
      -- a call that waits for nothing has come to its end already
      have hend : (p.after .none m).2.phase = .ended u outcome := by
        rw [← after_of_wakeAfter_eq_none hwake hm.le]
        exact hphase
      rw [← hwake]
      exact wake_under_of_not_suspended (by simp [Suspended, hend])
  | some a =>
      obtain ⟨v, cause⟩ := a
      have hvu : v ≤ u := hbegan ▸ wakeAfter_le_began hwake hm
      exact wake_under_of_before (p.frame_after .none m).2.2 hwake
        fun d x hx => hvu.trans_lt (hlimits d x hx)

/-- What a call under limits ends with when a limit cuts it off after so many moves. -/
structure CutAfter (p : Plan) (limits : Limits) (n : Nat) (t : Time) (cause : Cause) : Prop where
  outcome : (p.after limits (n + 1)).2.outcome? = some (t, .error cause.limitFault)
  trace : (p.after limits (n + 1)).2.trace = (p.after .none n).2.cutOff t
  /-- The request that is under way is over then. -/
  released : ∀ flight grid, (p.after .none n).2.phase = .flying flight grid →
    (p.after limits (n + 1)).2.trace.requests = (p.after .none n).2.trace.requests ++
      [{ startedAt := flight.startedAt
         url := flight.url
         session := flight.session
         read := Time.reached t flight.course.readAt
         endedAt := t }]

/-- A call that really waits when a limit strikes is cut off by it. -/
theorem cutAfter_of_suspended
    (hunder : p.after limits n = ((p.after .none n).1, (p.after .none n).2.under limits))
    (hs : (p.after .none n).2.Suspended) (hcause : limits.instant cause = some t)
    (hfirst : ∀ d v, limits.instant d = some v →
      Wait.Precedes (Time.later (p.after .none n).2.began t, cause)
        (Time.later (p.after .none n).2.began v, d))
    (hlate : ∀ v d, p.wakeAfter .none n = some (v, d) →
      Time.later (p.after .none n).2.began t ≤ v) :
    p.CutAfter limits n (Time.later (p.after .none n).2.began t) cause := by
  have hwake := wake_under_of_cut (p.frame_after .none n).2.2 hs hcause hfirst hlate
  have hresume := resume_under_of_cut (p.counted_after .none n) hs hcause hwake
  have htrace : (p.after limits (n + 1)).2.trace =
      (p.after .none n).2.cutOff (Time.later (p.after .none n).2.began t) := by
    rw [after_succ, hunder, hresume]
  refine ⟨?_, htrace, fun flight grid hphase => ?_⟩
  · rw [after_succ, hunder, hresume]
    rfl
  · rw [htrace, cutOff, hphase]
    rfl

/-- A call that stands somewhere at an instant and has not ended really waits there. -/
theorem StandsAt.suspended (h : p.StandsAt t n) (hnow : p.now < t)
    (hrunning : ∀ v outcome, (p.after .none n).2.outcome? = some (v, outcome) → ¬ v < t) :
    (p.after .none n).2.Suspended := by
  have hbegan := h.began_lt hnow
  cases hphase : (p.after .none n).2.phase with
  | flying flight grid =>
      cases hsettled : flight.settled with
      | false => simp [Suspended, hphase, hsettled]
      | true =>
          have hwake : p.wakeAfter .none n = some (flight.startedAt, .alarm) :=
            wake_of_settled hphase hsettled
          have hlate := h.next _ _ hwake
          simp only [began, hphase] at hbegan
          exact absurd hbegan (not_lt.mpr hlate)
  | ticking grid since => simp [Suspended, hphase]
  | ended v outcome =>
      have hend := hrunning v outcome (by simp [outcome?, hphase])
      simp only [began, hphase] at hbegan
      exact absurd hbegan hend

/--
A call really waits, or has ended, after one move at most, and that at the instant of its begin.
-/
theorem exists_first_suspension (p : Plan) :
    ∃ n ≤ 1, (∀ m < n, ¬ (p.after .none m).2.Suspended) ∧ (p.after .none n).2.began = p.now ∧
      ((p.after .none n).2.Suspended ∨ (p.after .none n).2.outcome?.isSome) := by
  have hbegan := p.began_after_zero .none
  rcases p.after_zero_cases .none with ⟨outcome, -, hzero⟩ | ⟨url, -, -, -, hzero⟩
  · exact ⟨0, by omega, by simp, hbegan, .inr (by simp [hzero, outcome?])⟩
  · by_cases hs : (p.after .none 0).2.Suspended
    · exact ⟨0, by omega, by simp, hbegan, .inl hs⟩
    · have hphase : (p.after .none 0).2.phase =
          .flying (p.hub.gateway.depart p.now url p.script.next.1).1 none := by rw [hzero]
      have hsettled : (p.hub.gateway.depart p.now url p.script.next.1).1.settled = true := by
        simpa [Suspended, hphase] using hs
      have hwake : p.wakeAfter .none 0 = some (p.now, .alarm) := wake_of_settled hphase hsettled
      have hmoved := moved_after hwake
      refine ⟨1, le_rfl, ?_, hmoved.began_eq, ?_⟩
      · intro m hm
        rwa [show m = 0 by omega]
      · generalize p.after .none (0 + 1) = next at hmoved ⊢
        obtain ⟨hub', r'⟩ := next
        generalize (p.after .none 0).1 = hub at hmoved
        generalize (p.after .none 0).2 = r at hmoved hphase
        cases hmoved with
        | landed _ => exact .inr rfl
        | rested _ _ _ => exact .inl trivial
        | departed hticking _ _ =>
            rw [hphase] at hticking
            simp at hticking
        | stopped _ => exact .inr rfl

/--
A call under limits is the call without them, cut off at the first of them.  If the call without
limits ends before the first limit strikes, the call under limits is the same.  If not, it ends
right at that limit, with the fault of the limit: its requests are those that the other one started
before, the one under way being released, and its notes are those that the other one made before,
with a last one if it was waiting for its next attempt.  A deadline that is over when the call
begins strikes when the call first really waits.
-/
theorem limits_truncate (p : Plan) :
    (∀ limits t cause, limits.first = some (t, cause) → p.now < t →
      (∀ n u outcome, (p.after .none n).2.outcome? = some (u, outcome) → u < t →
        p.after limits n = ((p.after .none n).1, (p.after .none n).2.under limits)) ∧
      ((∀ n u outcome, (p.after .none n).2.outcome? = some (u, outcome) → ¬ u < t) →
        ∃ n, p.StandsAt t n ∧ p.CutAfter limits n t cause ∧
          ∀ m, n ≤ m →
            (p.after limits (n + 1)).2.trace.requests.map Request.start =
                (p.after .none m).2.starts.filter (fun s => s.1 < t) ∧
              (p.after .none n).2.trace.entries =
                (p.after .none m).2.trace.entries.filter (fun e => e.time < t))) ∧
    ∀ limits d, limits.deadlineAt = some d → d ≤ p.now →
      (∀ c, limits.cancelAt = some c → p.now < c) →
      ∃ n ≤ 1, (∀ m < n, ¬ (p.after .none m).2.Suspended) ∧
        ((p.after .none n).2.Suspended ∧ p.CutAfter limits n p.now .deadline ∨
          (p.after .none n).2.outcome?.isSome ∧
            p.after limits n = ((p.after .none n).1, (p.after .none n).2.under limits)) := by
  constructor
  · intro limits t cause hfirst hnow
    obtain ⟨hcause, hall⟩ := Limits.first_spec hfirst
    have hlimits : ∀ d v, limits.instant d = some v → t ≤ v := fun d v hv => (hall d v hv).le
    constructor
    · intro n u outcome hend hut
      exact after_under_of_ended hend fun d v hv => hut.trans_le (hlimits d v hv)
    · intro hrunning
      obtain ⟨n, hn⟩ := p.exists_standsAt t
      have hbegan := hn.began_lt hnow
      have hlater : ∀ v, t ≤ v → Time.later (p.after .none n).2.began v = v :=
        fun v hv => Time.later_of_le (hbegan.le.trans hv)
      have hcut : p.CutAfter limits n t cause := by
        have h := cutAfter_of_suspended (hn.after_under hlimits)
          (hn.suspended hnow fun v outcome => hrunning n v outcome) hcause
          (by
            intro d v hv
            rw [hlater t le_rfl, hlater v (hlimits d v hv)]
            exact hall d v hv)
          (by
            rw [hlater t le_rfl]
            exact hn.next)
        rwa [hlater t le_rfl] at h
      refine ⟨n, hn, hcut, ?_⟩
      intro m hnm
      obtain ⟨hstarts, hentries⟩ := hn.eq_filter hnow hnm
      rw [hcut.trace, starts_cutOff]
      exact ⟨hstarts, hentries⟩
  · intro limits d hdeadline hd hcancel
    obtain ⟨n, hn, hbefore, hbegan, hplace⟩ := p.exists_first_suspension
    have hunder : p.after limits n = ((p.after .none n).1, (p.after .none n).2.under limits) :=
      after_under fun m hm => wake_under_of_not_suspended (hbefore m hm)
    refine ⟨n, hn, hbefore, ?_⟩
    rcases hplace with hs | hend
    · refine .inl ⟨hs, ?_⟩
      have hlater : Time.later (p.after .none n).2.began d = p.now := by
        rw [hbegan, Time.later_eq_max, max_eq_left hd]
      have hcause : limits.instant .deadline = some d := hdeadline
      have h := cutAfter_of_suspended hunder hs hcause
        (by
          intro e v hv
          rw [hlater]
          cases e with
          | cancellation =>
              left
              exact (hcancel v hv).trans_le (Time.le_later_right _ _)
          | deadline =>
              have hvd : v = d := Option.some.inj (hv.symm.trans hdeadline)
              rw [hvd, hlater]
              exact .inr ⟨rfl, le_rfl⟩
          | alarm => simp [Limits.instant] at hv
          | closing => simp [Limits.instant] at hv)
        (by
          intro v e hv
          rw [hlater, ← hbegan]
          exact began_le_of_wake hv)
      rwa [hlater] at h
    · exact .inr ⟨hend, hunder⟩

/-- A call whose first attempt fails at once, and whose second one is never answered. -/
def stalled : Plan where
  hub := { signal := .pending, gateway := .fresh 0 }
  now := 0
  errand := { url := .ok "http://h/milestone", path := "/milestone", form := .milestone }
  policy := { period := 5, reportEach := 1 }
  script := { head := .failure (.lasting 0) .noBody, tail := [.failure .endless .overdue] }

/-- A deadline in the wait between its attempts cuts the stalled call off there. -/
theorem stalled_truncated :
    Limits.first ⟨some 3, none⟩ = some (3, .deadline) ∧ stalled.now < 3 ∧
      (∀ n u outcome, (stalled.after .none n).2.outcome? = some (u, outcome) → ¬ u < 3) ∧
      ∃ n, stalled.StandsAt 3 n ∧ stalled.CutAfter ⟨some 3, none⟩ n 3 .deadline := by
  have hfirst : Limits.first ⟨some 3, none⟩ = some (3, .deadline) := rfl
  have hnow : stalled.now < 3 := by decide +kernel
  have hrunning : ∀ n, (stalled.after .none n).2.outcome? = none := by
    have hsmall : ∀ n ≤ 2, (stalled.after .none n).2.outcome?.isNone = true := by decide +kernel
    have hstuck : stalled.wakeAfter .none 2 = none := by decide +kernel
    intro n
    rcases le_total n 2 with hn | hn
    · exact Option.isNone_iff_eq_none.mp (hsmall n hn)
    · rw [after_of_wakeAfter_eq_none hstuck hn]
      exact Option.isNone_iff_eq_none.mp (hsmall 2 le_rfl)
  have hlater : ∀ n u outcome,
      (stalled.after .none n).2.outcome? = some (u, outcome) → ¬ u < 3 := by
    intro n u outcome h
    rw [hrunning n] at h
    simp at h
  obtain ⟨n, hn, hcut, -⟩ := ((limits_truncate stalled).1 _ _ _ hfirst hnow).2 hlater
  exact ⟨hfirst, hnow, hlater, n, hn, hcut⟩

end Plan
end Retry
end ChainPoll

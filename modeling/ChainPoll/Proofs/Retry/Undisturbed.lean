import ChainPoll.Proofs.Retry.Attempts
import ChainPoll.Proofs.Retry.Moves
import ChainPoll.Proofs.Supply

/-!
# Calls that nothing disturbs

Without a limit, a signal or a closing, a call is settled by what its attempts come to: it goes
through the answers in order, and ends with the first attempt that another one cannot mend.

Main results:

- Theorems {lit}`Retry.Plan.Flying.resume_of_mendable` and
  {lit}`Retry.Plan.Flying.resume_of_not_mendable`: what the landing of an attempt leads to.
- Theorem {lit}`Retry.Plan.Ticking.resume`: what the wait between two attempts leads to.
- Theorem {lit}`Retry.Plan.ends_iff_undisturbed`: a call ends exactly with the first attempt that
  another one cannot mend, after one request for each attempt.
-/

namespace ChainPoll

/-! ## Shared state that nothing disturbs -/

/-- Whether nothing disturbs calls from now on: no signal is given, and no session is closed. -/
structure Hub.Undisturbed (hub : Hub) (now : Time) : Prop where
  signal : hub.signal.givenAt = none
  sessions : ∀ t, some t ∈ hub.gateway.sessions.closings → t ≤ now

namespace Hub

variable {hub : Hub} {now t : Time}

/-- What nothing disturbs from now on, nothing disturbs later. -/
theorem Undisturbed.mono (h : hub.Undisturbed now) (hle : now ≤ t) : hub.Undisturbed t :=
  ⟨h.signal, fun u hu => (h.sessions u hu).trans hle⟩

/-- A signal that is never given is not given. -/
theorem Undisturbed.given_eq_false (h : hub.Undisturbed now) : hub.signal.given t = false := by
  simp [Signal.given, h.signal, Time.reached]

/-- After a request was sent, nothing disturbs calls, and its session is not closed. -/
theorem Undisturbed.depart (h : hub.Undisturbed now) (url : String) (answer : Answer) :
    let departed := hub.gateway.depart now url answer
    ({ hub with gateway := departed.2 } : Hub).Undisturbed now ∧
      departed.2.sessions.closingOf departed.1.session = none := by
  obtain ⟨⟨givenAt⟩, timeout, ⟨closings⟩⟩ := hub
  obtain ⟨hsignal, hsessions⟩ := h
  simp only [Connector.depart, Connector.session, Sessions.acquire]
  split
  · next hopen =>
    refine ⟨⟨hsignal, hsessions⟩, ?_⟩
    simp only [Sessions.isOpen] at hopen
    split at hopen
    · next closing hlast =>
      have hclosing : closing = none := by
        cases closing with
        | none => rfl
        | some t =>
            have hle : t ≤ now := hsessions t (List.mem_of_getLast? hlast)
            simp [Time.reached, hle] at hopen
      rw [List.getLast?_eq_getElem?] at hlast
      simp [Sessions.closingOf, Sessions.count, hlast, hclosing]
    · simp at hopen
  · refine ⟨⟨hsignal, ?_⟩, by simp [Sessions.closingOf, Sessions.count]⟩
    intro t ht
    simp only [List.mem_append, List.mem_singleton, reduceCtorEq, or_false] at ht
    exact hsessions t ht

end Hub

namespace Retry

/-- Whether another attempt may mend what one came to. -/
def Mendable (outcome : Except Fault (Option Payload)) : Prop :=
  ∃ fault, outcome = .error fault ∧
    ("HeimdallError" ∈ fault.lineage ∨ "ClientError" ∈ fault.lineage
      ∨ "TimeoutError" ∈ fault.lineage)

/-- A fault that an attempt came to may be mended exactly if it is one that is tried again. -/
theorem mendable_error_iff {fault : Fault} :
    Mendable (.error fault) ↔ fault.retryable = true := by
  simp [Mendable, Fault.retryable_iff]

namespace Plan

/-! ## What a call is settled by -/

/-- What the attempt after so many others comes to, and how long it takes. -/
def Attempts (p : Plan) (k : Nat) (span : Time) (outcome : Except Fault (Option Payload)) : Prop :=
  p.errand.Yields p.hub.gateway.limit (p.script.item k) span outcome

/-- Whether the attempt after so many others fails so that another one may mend it. -/
def Fails (p : Plan) (k : Nat) : Prop :=
  ∃ span outcome, p.Attempts k span outcome ∧ Mendable outcome

/-- Whether the attempt after so many others is the first one that another one cannot mend. -/
def EndsWith (p : Plan) (k : Nat) (outcome : Except Fault (Option Payload)) : Prop :=
  (∀ i < k, p.Fails i) ∧ (∃ span, p.Attempts k span outcome) ∧ ¬ Mendable outcome

/-- Requests that were made one after another, each as long as its attempt takes. -/
structure Sent (p : Plan) (url : String) (requests : List Request) : Prop where
  url : ∀ q ∈ requests, q.url = url
  order : requests.Pairwise fun q q' => q.endedAt ≤ q'.startedAt
  span : ∀ i q, requests[i]? = some q → ∃ outcome, p.Attempts i (q.endedAt - q.startedAt) outcome

/-- What a call has left behind that ended with the attempt after so many others. -/
structure Left (p : Plan) (url : String) (k : Nat) (t : Time) (r : Retry) : Prop where
  sent : p.Sent url r.trace.requests
  count : r.trace.requests.length = k + 1
  last : r.trace.requests.getLast?.map (·.endedAt) = some t
  script : r.script = p.script.rest (k + 1)

/-- One request more was made after the others. -/
theorem Sent.append {p : Plan} {url : String} {requests : List Request} {q : Request} {span : Time}
    {outcome : Except Fault (Option Payload)} (h : p.Sent url requests) (hurl : q.url = url)
    (horder : ∀ q' ∈ requests, q'.endedAt ≤ q.startedAt)
    (hattempt : p.Attempts requests.length span outcome) (hspan : q.endedAt = q.startedAt + span) :
    p.Sent url (requests ++ [q]) := by
  constructor
  · intro q' hq'
    rcases List.mem_append.mp hq' with hq' | hq'
    · exact h.url q' hq'
    · rw [List.mem_singleton.mp hq']
      exact hurl
  · refine List.pairwise_append.mpr ⟨h.order, List.pairwise_singleton _ _, ?_⟩
    intro q' hq' q'' hq''
    rw [List.mem_singleton.mp hq'']
    exact horder q' hq'
  · intro i q' hq'
    rcases Nat.lt_or_ge i requests.length with hi | hi
    · rw [List.getElem?_append_left hi] at hq'
      exact h.span i q' hq'
    · rw [List.getElem?_append_right hi, List.getElem?_singleton] at hq'
      split at hq'
      · next hzero =>
        have hi' : i = requests.length := by omega
        rw [Option.some.injEq] at hq'
        subst hq' hi'
        exact ⟨outcome, by rwa [hspan, add_sub_cancel_left]⟩
      · simp at hq'

/-! ## Where a call stands -/

/-- A call after so many failed attempts. -/
structure Underway (p : Plan) (url : String) (hub : Hub) (r : Retry) (k : Nat) : Prop where
  errand : r.errand = p.errand
  policy : r.policy = p.policy
  limits : r.limits = .none
  limit : hub.gateway.limit = p.hub.gateway.limit
  undisturbed : hub.Undisturbed r.began
  fails : ∀ i < k, p.Fails i
  sent : p.Sent url r.trace.requests
  count : r.trace.requests.length = k
  before : ∀ q ∈ r.trace.requests, q.endedAt ≤ r.began

/-- A call whose attempt after so many others is under way. -/
structure Flying (p : Plan) (url : String) (hub : Hub) (r : Retry) (k : Nat) (flight : Flight)
    (grid : Option Grid) : Prop extends p.Underway url hub r k where
  phase : r.phase = .flying flight grid
  url_eq : flight.url = url
  course : flight.course = (p.script.item k).course flight.startedAt
    (p.hub.gateway.limit.map (flight.startedAt + ·))
  closing : hub.gateway.sessions.closingOf flight.session = none
  script : r.script = p.script.rest (k + 1)

/-- A call that waits for the attempt after so many others. -/
structure Ticking (p : Plan) (url : String) (hub : Hub) (r : Retry) (k : Nat) (grid : Grid)
    (since : Time) : Prop extends p.Underway url hub r k where
  phase : r.phase = .ticking grid since
  script : r.script = p.script.rest k

variable {p : Plan} {url : String} {hub : Hub} {r : Retry} {k : Nat} {flight : Flight}
  {grid : Option Grid}

/-- What the exchange of an attempt comes to is what the attempt comes to. -/
theorem Flying.attempts (h : p.Flying url hub r k flight grid) {t : Time}
    {result : Except Fault Body} (hlanding : flight.course.landing = some (t, result)) :
    ∃ span, 0 ≤ span ∧ t = flight.startedAt + span ∧
      p.Attempts k span (p.errand.interpret result) := by
  rw [h.course] at hlanding
  obtain ⟨span, ht, hyields⟩ :
      ∃ span, t = flight.startedAt + span ∧ p.Attempts k span (p.errand.interpret result) :=
    Errand.yields_of_course p.hub.gateway.limit_nonneg hlanding
  exact ⟨span, hyields.nonneg p.hub.gateway.limit_nonneg, ht, hyields⟩

/-- What an attempt comes to is what its exchange comes to. -/
theorem Flying.landing (h : p.Flying url hub r k flight grid) {span : Time}
    {outcome : Except Fault (Option Payload)} (hattempt : p.Attempts k span outcome) :
    ∃ result, flight.course.landing = some (flight.startedAt + span, result) ∧
      p.errand.interpret result = outcome := by
  rw [h.course]
  exact Errand.course_of_yields p.hub.gateway.limit_nonneg hattempt flight.startedAt

/-- An attempt that nothing disturbs is over when its exchange lands. -/
theorem Flying.wake_eq (h : p.Flying url hub r k flight grid) :
    r.wake hub = flight.course.landing.map fun landing => (landing.1, .alarm) := by
  cases hlanding : flight.course.landing with
  | none =>
      rw [wake_flying h.phase, Flight.wait, Flight.settled, hlanding]
      refine Wait.wake_eq_none_iff.mpr ?_
      intro cause
      cases cause <;> simp [Wait.instant, Wait.within, h.limits, Limits.none, h.closing]
  | some landing =>
      by_cases hsettled : flight.settled = true
      · have hstart : landing.1 = flight.startedAt := by
          simpa [Flight.settled, hlanding] using hsettled
        rw [wake_of_settled h.phase hsettled, ← hstart, Option.map_some]
      · obtain ⟨t, result⟩ := landing
        obtain ⟨span, hspan, ht, -⟩ := h.attempts hlanding
        have hle : flight.startedAt ≤ t := by linarith
        have honly : (flight.wait hub.gateway.sessions r.limits).wake =
            some (Time.later flight.startedAt t, .alarm) := by
          rw [Flight.wait, if_neg hsettled, hlanding]
          refine Wait.wake_of_only rfl ?_
          intro d hd
          cases d <;> simp_all [Wait.instant, Wait.within, Limits.none, h.limits, h.closing]
        rw [wake_flying h.phase, honly, Time.later_of_le hle, Option.map_some]

/-- The requests of a call are in order when the request of the attempt under way is over. -/
theorem Flying.sent_append (h : p.Flying url hub r k flight grid) {span : Time}
    {outcome : Except Fault (Option Payload)} (hattempt : p.Attempts k span outcome) :
    p.Sent url (r.trace.requests ++ [flight.request (flight.startedAt + span)]) := by
  have hbegan : r.began = flight.startedAt := by simp [began, h.phase]
  refine h.sent.append h.url_eq ?_ (h.count ▸ hattempt) rfl
  intro q hq
  have hbefore := h.before q hq
  rwa [hbegan] at hbefore

/-! ## What the moves of a call lead to -/

/-- An attempt that another one cannot mend ends the call with what it comes to. -/
theorem land_of_not_mendable (hub : Hub) (grid : Option Grid) {t : Time}
    {result : Except Fault Body} (hlanding : flight.course.landing = some (t, result))
    (hmend : ¬ Mendable (r.errand.interpret result)) :
    r.land hub flight grid t .alarm =
      { r with
        phase := .ended t (r.errand.interpret result)
        trace := r.trace.addRequest (flight.request t) } := by
  have houtcome : flight.outcome .alarm = result := by simp [Flight.outcome, hlanding]
  rw [← houtcome] at hmend ⊢
  exact land_eq_finish grid t fun fault hcame => by
    rw [hcame, mendable_error_iff, Bool.not_eq_true] at hmend
    exact .inr hmend

/--
While the signal is not given, a call goes on after a failed attempt by waiting for the next one.
-/
theorem recover_of_not_given {t : Time} (hopen : hub.signal.given t = false)
    (hperiod : 0 < r.policy.period) (hreport : r.policy.reportEach ≠ 0) (grid : Option Grid)
    (fault : Fault) :
    ∃ next notes, r.recover hub t grid fault =
      { r with
        attempt := r.attempt + 1
        phase := .ticking next t
        trace := r.trace.addNotes t notes } := by
  cases grid with
  | none =>
      rw [recover_first hperiod, rest_of_not_given hopen]
      exact ⟨_, _, by simp only [jot, Trace.addNotes_addNotes]; rfl⟩
  | some grid =>
      rw [recover_later hreport, rest_of_not_given hopen]
      exact ⟨_, _, by simp only [jot, Trace.addNotes_addNotes]; rfl⟩

/-- An attempt that another one may mend is followed by the wait for the next one. -/
theorem land_of_mendable (grid : Option Grid) {t : Time} {result : Except Fault Body}
    (hopen : hub.signal.given t = false) (hperiod : 0 < r.policy.period)
    (hreport : r.policy.reportEach ≠ 0) (hlanding : flight.course.landing = some (t, result))
    (hmend : Mendable (r.errand.interpret result)) :
    ∃ next notes, r.land hub flight grid t .alarm =
      { r with
        attempt := r.attempt + 1
        phase := .ticking next t
        trace := (r.trace.addRequest (flight.request t)).addNotes t notes } := by
  obtain ⟨fault, hinterpret, -⟩ := id hmend
  have houtcome : flight.outcome .alarm = result := by simp [Flight.outcome, hlanding]
  have hretryable : fault.retryable = true := by
    rwa [hinterpret, mendable_error_iff] at hmend
  rw [land_eq_recover grid t (houtcome.symm ▸ hinterpret) rfl hretryable]
  exact recover_of_not_given (r := { r with trace := r.trace.addRequest (flight.request t) }) hopen
    hperiod hreport grid fault

/-- The move of a call whose attempt is under way is the landing of its exchange. -/
theorem Flying.resume_eq (h : p.Flying url hub r k flight grid) {span : Time}
    {outcome : Except Fault (Option Payload)} (hattempt : p.Attempts k span outcome) :
    ∃ t result, flight.startedAt + span = t ∧ r.began ≤ t ∧
      flight.course.landing = some (t, result) ∧ r.errand.interpret result = outcome ∧
      r.resume hub = (hub, r.land hub flight grid t .alarm) := by
  obtain ⟨result, hlanding, houtcome⟩ := h.landing hattempt
  have hspan : 0 ≤ span := hattempt.nonneg p.hub.gateway.limit_nonneg
  have hbegan : r.began = flight.startedAt := by simp [began, h.phase]
  have hwake : r.wake hub = some (flight.startedAt + span, .alarm) := by
    rw [h.wake_eq, hlanding, Option.map_some]
  exact ⟨_, result, rfl, by linarith, hlanding, by rwa [h.errand],
    by simp [Retry.resume, hwake, h.phase]⟩

/-- An attempt that another one may mend leads to the wait for the next one. -/
theorem Flying.resume_of_mendable (h : p.Flying url hub r k flight grid)
    (hperiod : 0 < p.policy.period) (hreport : p.policy.reportEach ≠ 0) {span : Time}
    {outcome : Except Fault (Option Payload)} (hattempt : p.Attempts k span outcome)
    (hmend : Mendable outcome) :
    ∃ next since, p.Ticking url (r.resume hub).1 (r.resume hub).2 (k + 1) next since := by
  obtain ⟨t, result, ht, hle, hlanding, houtcome, hresume⟩ := h.resume_eq hattempt
  obtain ⟨next, notes, hland⟩ := land_of_mendable grid h.undisturbed.given_eq_false
    (h.policy ▸ hperiod) (h.policy ▸ hreport) hlanding (by rwa [houtcome])
  rw [hresume, hland]
  refine ⟨next, t, ?_⟩
  refine
    { errand := h.errand, policy := h.policy, limits := h.limits, limit := h.limit
      undisturbed := h.undisturbed.mono hle, fails := ?_, sent := ht ▸ h.sent_append hattempt
      count := ?_, before := ?_, phase := rfl, script := h.script }
  · intro i hi
    rcases Nat.lt_succ_iff_lt_or_eq.mp hi with hi | rfl
    · exact h.fails i hi
    · exact ⟨span, outcome, hattempt, hmend⟩
  · simp [Trace.addNotes, Trace.addRequest, h.count]
  · intro q hq
    simp only [Trace.addNotes, Trace.addRequest, List.mem_append, List.mem_singleton] at hq
    rcases hq with hq | rfl
    · exact (h.before q hq).trans hle
    · exact le_rfl

/-- An attempt that another one cannot mend leads to the end of the call. -/
theorem Flying.resume_of_not_mendable (h : p.Flying url hub r k flight grid) {span : Time}
    {outcome : Except Fault (Option Payload)} (hattempt : p.Attempts k span outcome)
    (hmend : ¬ Mendable outcome) :
    ∃ t, (r.resume hub).2.outcome? = some (t, outcome) ∧ p.EndsWith k outcome ∧
      p.Left url k t (r.resume hub).2 ∧ r.began ≤ t ∧ (r.resume hub).1 = hub := by
  obtain ⟨t, result, ht, hle, hlanding, houtcome, hresume⟩ := h.resume_eq hattempt
  have hland := land_of_not_mendable (r := r) hub grid hlanding (by rwa [houtcome])
  rw [hresume, hland]
  refine ⟨t, by simp [outcome?, houtcome], ⟨h.fails, ⟨span, hattempt⟩, hmend⟩, ?_, hle, rfl⟩
  exact
    { sent := ht ▸ h.sent_append hattempt, count := by simp [Trace.addRequest, h.count]
      last := by simp [Trace.addRequest, Flight.request], script := h.script }

/-- An attempt that starts after others is under way. -/
theorem Underway.depart (h : p.Underway url hub r k) (hurl : p.errand.url = .ok url) {t : Time}
    (hle : r.began ≤ t) (hscript : r.script = p.script.rest k) (grid : Option Grid) :
    ∃ flight, p.Flying url (r.depart hub t grid).1 (r.depart hub t grid).2 k flight grid := by
  have hdepart : r.depart hub t grid =
      ({ hub with gateway := (hub.gateway.depart t url r.script.next.1).2 },
        { r with
          script := r.script.next.2
          phase := .flying (hub.gateway.depart t url r.script.next.1).1 grid }) := by
    simp [Retry.depart, h.errand, hurl]
  obtain ⟨hundisturbed, hclosing⟩ := (h.undisturbed.mono hle).depart url r.script.next.1
  rw [hdepart]
  refine ⟨(hub.gateway.depart t url r.script.next.1).1, ?_⟩
  exact
    { errand := h.errand, policy := h.policy, limits := h.limits, limit := h.limit
      undisturbed := hundisturbed, fails := h.fails, sent := h.sent, count := h.count
      before := fun q hq => (h.before q hq).trans hle, phase := rfl, url_eq := rfl
      course := by
        rw [← h.limit, ← Connector.cutoff_eq, hscript, Supply.next_rest]
        rfl
      closing := hclosing
      script := by
        rw [hscript, Supply.rest_succ] }

/-- What the wait between two attempts leads to. -/
theorem Ticking.resume {grid : Grid} {since : Time} (h : p.Ticking url hub r k grid since)
    (hurl : p.errand.url = .ok url) :
    ∃ flight next, p.Flying url (r.resume hub).1 (r.resume hub).2 k flight next := by
  have hbegan : r.began = since := by simp [began, h.phase]
  have hwake : r.wake hub = some (Time.later since grid.next, .alarm) := by
    rw [wake_ticking h.phase]
    refine Wait.wake_of_only rfl ?_
    intro d hd
    cases d <;>
      simp_all [Wait.instant, Wait.within, Limits.none, h.limits, h.undisturbed.signal]
  have hresume : r.resume hub =
      r.depart hub (Time.later since grid.next)
        (some (grid.advance (Time.later since grid.next))) := by
    simp [Retry.resume, hwake, h.phase, wakeUp]
  obtain ⟨flight, hflying⟩ := h.toUnderway.depart hurl (t := Time.later since grid.next)
    (by rw [hbegan]; exact Time.le_later_left _ _) h.script
    (some (grid.advance (Time.later since grid.next)))
  rw [hresume]
  exact ⟨flight, _, hflying⟩

/-! ## Whole calls -/

/-- A call begins with its first attempt. -/
theorem flying_after_zero (hhub : p.hub.Undisturbed p.now) (hurl : p.errand.url = .ok url) :
    ∃ flight, p.Flying url (p.after .none 0).1 (p.after .none 0).2 0 flight none := by
  have hbegin : p.after .none 0 =
      Retry.depart p.hub
        { errand := p.errand, policy := p.policy, limits := .none, script := p.script, attempt := 1
          phase := .ended p.now (.error .stopped), trace := .empty } p.now none := by
    simp [after, Retry.begin, run, hhub.given_eq_false]
  have hstart : p.Underway url p.hub
      { errand := p.errand, policy := p.policy, limits := .none, script := p.script, attempt := 1
        phase := .ended p.now (.error .stopped), trace := .empty } 0 :=
    { errand := rfl, policy := rfl, limits := rfl, limit := rfl, undisturbed := hhub
      fails := by simp
      sent := ⟨by simp [Trace.empty], by simp [Trace.empty], by simp [Trace.empty]⟩
      count := rfl, before := by simp [Trace.empty] }
  rw [hbegin]
  exact hstart.depart hurl le_rfl rfl none

/-- After attempts that others may mend, the next one gets under way. -/
theorem exists_flying_after (hhub : p.hub.Undisturbed p.now)
    (hurl : p.errand.url = .ok url) (k : Nat)
    (hpolicy : 0 < k → 0 < p.policy.period ∧ p.policy.reportEach ≠ 0)
    (hfails : ∀ i < k, p.Fails i) :
    ∃ n flight grid, p.Flying url (p.after .none n).1 (p.after .none n).2 k flight grid := by
  induction k with
  | zero =>
      obtain ⟨flight, hflying⟩ := flying_after_zero hhub hurl
      exact ⟨0, flight, none, hflying⟩
  | succ k ih =>
      obtain ⟨hperiod, hreport⟩ := hpolicy k.succ_pos
      obtain ⟨n, flight, grid, hflying⟩ :=
        ih (fun _ => ⟨hperiod, hreport⟩) fun i hi => hfails i (by omega)
      obtain ⟨span, outcome, hattempt, hmend⟩ := hfails k (by omega)
      obtain ⟨next, since, hticking⟩ := hflying.resume_of_mendable hperiod hreport hattempt hmend
      obtain ⟨flight', grid', hflying'⟩ := hticking.resume hurl
      refine ⟨n + 2, flight', grid', ?_⟩
      rw [after_succ, after_succ]
      exact hflying'

/-- A call is under way until the first attempt that another one cannot mend has ended it. -/
theorem exists_end_after (hhub : p.hub.Undisturbed p.now) (hurl : p.errand.url = .ok url)
    {outcome : Except Fault (Option Payload)} (hends : p.EndsWith k outcome)
    (hpolicy : 0 < k → 0 < p.policy.period ∧ p.policy.reportEach ≠ 0) :
    ∃ n t, (∀ m ≤ n, (p.after .none m).2.outcome? = none) ∧
      (p.after .none (n + 1)).2.outcome? = some (t, outcome) ∧
      p.Left url k t (p.after .none (n + 1)).2 ∧ (p.after .none (n + 1)).1.Undisturbed t ∧
      (p.after .none (n + 1)).1.gateway.limit = p.hub.gateway.limit := by
  obtain ⟨n, flight, grid, hflying⟩ := exists_flying_after hhub hurl k hpolicy hends.1
  obtain ⟨-, ⟨span, hattempt⟩, hmend⟩ := hends
  obtain ⟨t, houtcome, -, hleft, hle, hkept⟩ := hflying.resume_of_not_mendable hattempt hmend
  rw [← after_succ] at houtcome hleft hkept
  refine ⟨n, t, ?_, houtcome, hleft, ?_, ?_⟩
  · intro m hm
    by_contra hended
    obtain ⟨a, ha⟩ := Option.ne_none_iff_exists'.mp hended
    have hstuck : p.wakeAfter .none m = none := wake_ended (phase_of_outcome? ha)
    have hphase := hflying.phase
    rw [after_of_wakeAfter_eq_none hstuck hm, phase_of_outcome? ha] at hphase
    simp at hphase
  · rw [hkept]
    exact hflying.undisturbed.mono hle
  · rw [hkept]
    exact hflying.limit

/-- Where a call stands after any number of moves. -/
theorem standing_after (hhub : p.hub.Undisturbed p.now) (hurl : p.errand.url = .ok url)
    (hperiod : 0 < p.policy.period) (hreport : p.policy.reportEach ≠ 0) (n : Nat) :
    (∃ k flight grid, p.Flying url (p.after .none n).1 (p.after .none n).2 k flight grid) ∨
      (∃ k grid since, p.Ticking url (p.after .none n).1 (p.after .none n).2 k grid since) ∨
      ∃ k t outcome, (p.after .none n).2.outcome? = some (t, outcome) ∧ p.EndsWith k outcome ∧
        p.Left url k t (p.after .none n).2 := by
  induction n with
  | zero =>
      obtain ⟨flight, hflying⟩ := flying_after_zero hhub hurl
      exact .inl ⟨0, flight, none, hflying⟩
  | succ n ih =>
      rw [after_succ]
      rcases ih with ⟨k, flight, grid, hflying⟩ | ⟨k, grid, since, hticking⟩ |
        ⟨k, t, outcome, houtcome, hends, hleft⟩
      · cases hlanding : flight.course.landing with
        | none =>
            rw [resume_of_wake_eq_none (by rw [hflying.wake_eq, hlanding]; rfl)]
            exact .inl ⟨k, flight, grid, hflying⟩
        | some landing =>
            obtain ⟨span, -, -, hattempt⟩ := hflying.attempts hlanding
            by_cases hmend : Mendable (p.errand.interpret landing.2)
            · obtain ⟨next, since, hticking⟩ :=
                hflying.resume_of_mendable hperiod hreport hattempt hmend
              exact .inr (.inl ⟨k + 1, next, since, hticking⟩)
            · obtain ⟨t, houtcome, hends, hleft, -, -⟩ :=
                hflying.resume_of_not_mendable hattempt hmend
              exact .inr (.inr ⟨k, t, _, houtcome, hends, hleft⟩)
      · obtain ⟨flight, next, hflying⟩ := hticking.resume hurl
        exact .inl ⟨k, flight, next, hflying⟩
      · rw [resume_ended (by rw [houtcome]; rfl)]
        exact .inr (.inr ⟨k, t, outcome, houtcome, hends, hleft⟩)

/-- There is one first attempt that another one cannot mend, and it comes to one outcome. -/
theorem EndsWith.unique {k k' : Nat} {outcome outcome' : Except Fault (Option Payload)}
    (h : p.EndsWith k outcome) (h' : p.EndsWith k' outcome') : k = k' ∧ outcome = outcome' := by
  have hnot : ∀ {i j : Nat} {o o' : Except Fault (Option Payload)}, p.EndsWith i o →
      p.EndsWith j o' → ¬ i < j := by
    intro i j o o' hi hj hlt
    obtain ⟨-, ⟨span, hattempt⟩, hfinal⟩ := hi
    obtain ⟨span', o'', hattempt', hmend⟩ := hj.1 i hlt
    rw [← (hattempt.unique p.hub.gateway.limit_nonneg hattempt').2] at hmend
    exact hfinal hmend
  have hk : k = k' := by
    have hle := hnot h h'
    have hge := hnot h' h
    omega
  subst hk
  obtain ⟨-, ⟨span, hattempt⟩, -⟩ := h
  obtain ⟨-, ⟨span', hattempt'⟩, -⟩ := h'
  exact ⟨rfl, (hattempt.unique p.hub.gateway.limit_nonneg hattempt').2⟩

/--
A call that nothing disturbs ends exactly if one of its attempts cannot be mended by another one.
It ends with the first such attempt and with what that comes to.  It has then made one request for
each attempt up to that one, in the order of the answers, each to its URL and none before the one
before it was over, and it ends when the last request does.
-/
theorem ends_iff_undisturbed (hhub : p.hub.Undisturbed p.now) (hurl : p.errand.url = .ok url)
    (hperiod : 0 < p.policy.period) (hreport : 1 ≤ p.policy.reportEach) :
    (∀ k outcome, p.EndsWith k outcome →
        ∃ n t, (p.after .none n).2.outcome? = some (t, outcome)) ∧
      ∀ n t outcome, (p.after .none n).2.outcome? = some (t, outcome) →
        ∃ k, p.EndsWith k outcome ∧ (∀ k' outcome', p.EndsWith k' outcome' → k' = k) ∧
          p.Left url k t (p.after .none n).2 := by
  constructor
  · intro k outcome hends
    obtain ⟨n, t, -, houtcome, -⟩ :=
      exists_end_after hhub hurl hends fun _ => ⟨hperiod, by omega⟩
    exact ⟨n + 1, t, houtcome⟩
  · intro n t outcome houtcome
    rcases standing_after hhub hurl hperiod (by omega) n with
      ⟨k, flight, grid, hflying⟩ | ⟨k, grid, since, hticking⟩ |
        ⟨k, t', outcome', hended, hends, hleft⟩
    · simp [outcome?, hflying.phase] at houtcome
    · simp [outcome?, hticking.phase] at houtcome
    · rw [houtcome, Option.some.injEq, Prod.mk.injEq] at hended
      obtain ⟨rfl, rfl⟩ := hended
      exact ⟨k, hends, fun k' outcome' hends' => (hends'.unique hends).1, hleft⟩

/--
A call whose first attempt gets a status other than success, whose second one is never answered, and
whose third one gets an answer without content.
-/
def patient : Plan where
  hub := { signal := .pending, gateway := .fresh 2 }
  now := 0
  errand := { url := .ok "http://h/milestone", path := "/milestone", form := .milestone }
  policy := { period := 5, reportEach := 3 }
  script :=
    { head := .reply (.lasting 1) 500 (.lasting 0) (.ok .empty)
      tail := [.failure .endless .overdue, .reply (.lasting 1) 204 (.lasting 0) (.ok .empty)] }

/-- The patient call ends with its third attempt. -/
theorem patient_endsWith : patient.EndsWith 2 (.ok none) := by
  have hlimit : patient.hub.gateway.limit = some 2 := by decide +kernel
  have hpause : (Pause.lasting 1).EndsBy (some 2) 0 (0 + max 0 1) :=
    .lasting (by intro l hl; rw [← Option.some.inj hl]; decide +kernel)
  refine ⟨?_, ⟨0 + max 0 1, ?_⟩, by simp [Mendable]⟩
  · intro i hi
    have hcases : i = 0 ∨ i = 1 := by omega
    rcases hcases with rfl | rfl
    · refine ⟨0 + max 0 1, .error (.badStatus 500 ""), ?_, by simp [Mendable, Fault.lineage]⟩
      rw [Attempts, hlimit]
      exact .badStatus hpause (by decide) (by decide)
    · refine ⟨2, .error .overdue, ?_, by simp [Mendable, Fault.lineage, Fault.overdue]⟩
      rw [Attempts, hlimit]
      exact .lateAnswer rfl (by rintro u ⟨-⟩)
  · rw [Attempts, hlimit]
    exact .noContent hpause

/-- The patient call ends without an envelope after three requests. -/
theorem patient_ends :
    patient.hub.Undisturbed patient.now ∧ patient.errand.url = .ok "http://h/milestone" ∧
      0 < patient.policy.period ∧ 1 ≤ patient.policy.reportEach ∧
      ∃ n t, (patient.after .none n).2.outcome? = some (t, .ok none) ∧
        (patient.after .none n).2.trace.requests.length = 3 := by
  have hhub : patient.hub.Undisturbed patient.now :=
    ⟨rfl, by simp [patient, Connector.fresh, Sessions.none]⟩
  have hperiod : 0 < patient.policy.period := by decide +kernel
  have hreport : 1 ≤ patient.policy.reportEach := by decide
  obtain ⟨hends, hleft⟩ := ends_iff_undisturbed hhub rfl hperiod hreport
  obtain ⟨n, t, houtcome⟩ := hends 2 (.ok none) patient_endsWith
  obtain ⟨k, -, hunique, hcount⟩ := hleft n t (.ok none) houtcome
  have hk : 2 = k := hunique 2 _ patient_endsWith
  refine ⟨hhub, rfl, hperiod, hreport, n, t, houtcome, ?_⟩
  rw [hcount.count, ← hk]

end Plan
end Retry
end ChainPoll

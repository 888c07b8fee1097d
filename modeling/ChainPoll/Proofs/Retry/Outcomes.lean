import ChainPoll.Proofs.Retry.Undisturbed

/-!
# How calls end

Events at one instant happen in any order.  A wait may end by any of the causes that strike first,
and a call that moves at the instant of the signal may find it given or not.  Meanwhile other calls
and the closing of the client make and close sessions.  Over all these orders a call ends in a few
ways only, and a failed attempt that another one may mend is none of them.

Main results:

- Theorem {lit}`Retry.Plan.reaches_after`: the moves of a call are one of the orders there are.
- Theorem {lit}`Retry.Plan.Reaches.accounted`: wherever a call comes to, its answers account for it.
- Theorem {lit}`Retry.Plan.no_failure_escapes`: the ways in which a call ends, in any order of
  events.
- Theorem {lit}`Retry.Plan.flagged_unaddressed`: a call whose URL cannot be built ends without an
  answer.
-/

namespace ChainPoll

/-! ## Faults that another attempt cannot mend -/

/-- Whether an answer raises a fault, in place of a status or while its body is read. -/
inductive Answer.Raises (fault : Fault) : Answer → Prop where
  | failure {delay : Pause} : Raises fault (.failure delay fault)
  | readFailure {delay readDelay : Pause} :
      Raises fault (.reply delay 200 readDelay (.error fault))

/-- An attempt that comes to a fault that another one cannot mend was answered with that fault. -/
theorem Errand.Yields.raises {errand : Errand} {limit : Option Time} {answer : Answer} {span : Time}
    {fault : Fault} (h : errand.Yields limit answer span (.error fault))
    (hmend : ¬ Retry.Mendable (.error fault)) : answer.Raises fault := by
  have hfatal : fault.retryable = false := by simpa [Retry.mendable_error_iff] using hmend
  cases h with
  | failure _ => exact .failure
  | readFailure _ _ => exact .readFailure
  | badStatus _ _ _ => exact absurd hfatal (by simp [Fault.retryable])
  | emptyBody _ _ _ => exact absurd hfatal (by simp [Fault.retryable, Fault.noBody])
  | misshapen _ _ _ _ => exact absurd hfatal (by simp [Fault.retryable])
  | lateAnswer _ _ => exact absurd hfatal (by simp [Fault.retryable, Fault.overdue])
  | lateBody _ _ _ => exact absurd hfatal (by simp [Fault.retryable, Fault.overdue])

namespace Endpoint

/-- A parameter that cannot be written is a fault that another attempt cannot mend. -/
theorem retryable_of_pairText? {pair : String × QueryValue} {fault : Fault}
    (h : pairText? pair = .error fault) : fault.retryable = false := by
  obtain ⟨key, value⟩ := pair
  have hvalue : value.text? = .error fault := by
    cases htext : value.text? with
    | ok text => simp [pairText?, htext, bind, Except.bind, pure, Except.pure] at h
    | error fault' => simpa [pairText?, htext, bind, Except.bind] using h
  unfold QueryValue.text? at hvalue
  split at hvalue <;> simp only [Except.error.injEq, reduceCtorEq] at hvalue
  all_goals exact hvalue ▸ rfl

/-- A query that cannot be written has a parameter that cannot. -/
theorem exists_of_rawQuery?_error {pairs : List (String × QueryValue)} {fault : Fault}
    (h : pairs.mapM pairText? = .error fault) : ∃ pair ∈ pairs, pairText? pair = .error fault := by
  induction pairs with
  | nil => simp [pure, Except.pure] at h
  | cons pair pairs ih =>
      rw [List.mapM_cons] at h
      cases hpair : pairText? pair with
      | error fault' =>
          rw [hpair] at h
          exact ⟨pair, by simp, hpair.trans (congrArg Except.error (Except.error.inj h))⟩
      | ok text =>
          rw [hpair] at h
          cases hpairs : pairs.mapM pairText? with
          | ok texts => simp [hpairs, bind, Except.bind, pure, Except.pure] at h
          | error fault' =>
              rw [hpairs] at h
              have hfault : fault' = fault := Except.error.inj h
              obtain ⟨pair', hmem, hpair'⟩ := ih (hfault ▸ hpairs)
              exact ⟨pair', by simp [hmem], hpair'⟩

/-- An endpoint without a URL is a fault that another attempt cannot mend. -/
theorem not_mendable_of_url? {endpoint : Endpoint} {fault : Fault}
    (h : endpoint.url? = .error fault) : ¬ Retry.Mendable (.error fault) := by
  rw [Retry.mendable_error_iff, Bool.not_eq_true]
  cases hquery : endpoint.query.mapM pairText? with
  | error fault' =>
      obtain ⟨pair, -, hpair⟩ := exists_of_rawQuery?_error hquery
      have hraw : endpoint.rawQuery? = .error fault' := by rw [rawQuery?, hquery]; rfl
      rw [url?_of_rawQuery? hraw] at h
      exact Except.error.inj h ▸ retryable_of_pairText? hpair
  | ok texts =>
      have hraw : endpoint.rawQuery? = .ok (Url.joinAll '&' texts) := by
        rw [rawQuery?, hquery]
        rfl
      cases horigin : endpoint.origin.text with
      | ok origin =>
          rw [url?_of_text hraw horigin] at h
          simp at h
      | error flaw =>
          rw [url?_of_flaw hraw horigin] at h
          exact Except.error.inj h ▸ rfl

end Endpoint

/-! ## Any order of events at one instant -/

/-- What may end a wait, and when: any of the causes that strike first. -/
def Wait.MayEnd (w : Wait) (t : Time) (cause : Cause) : Prop :=
  (t, cause) ∈ w.causes ∧ ∀ b ∈ w.causes, t ≤ b.1

/-- What ends a wait in the order of precedence is one of the causes that may end it. -/
theorem Wait.mayEnd_of_wake {w : Wait} {t : Time} {cause : Cause} (h : w.wake = some (t, cause)) :
    w.MayEnd t cause :=
  ⟨wake_mem h, fun _ hb => wake_le h hb⟩

namespace Signal

/-- How a signal may be seen at an instant: as it is, or as pending if it is given just then. -/
def SeenAs (s : Signal) (t : Time) (seen : Signal) : Prop :=
  seen = s ∨ s.givenAt = some t ∧ seen = .pending

/-- A signal that is seen as given is given. -/
theorem SeenAs.given {s seen : Signal} {t : Time} (h : s.SeenAs t seen)
    (hgiven : seen.given t = true) : s.given t = true := by
  rcases h with rfl | ⟨-, rfl⟩
  · exact hgiven
  · simp [Signal.given, pending, Time.reached] at hgiven

end Signal

namespace Retry

variable {hub : Hub} {r : Retry} {t : Time} {cause : Cause}

/-- The move of a call whose wait is ended at an instant by a cause. -/
def moveBy (hub : Hub) (r : Retry) (t : Time) (cause : Cause) : Hub × Retry :=
  match r.phase with
  | .flying flight grid => (hub, r.land hub flight grid t cause)
  | .ticking grid _ => r.wakeUp hub grid t cause
  | .ended _ _ => (hub, r)

/-- The next move of a call is the one by what ends its wait. -/
theorem resume_eq_moveBy (h : r.wake hub = some (t, cause)) :
    r.resume hub = r.moveBy hub t cause := by
  rcases resume_cases h with ⟨flight, grid, hphase, hresume⟩ | ⟨grid, since, hphase, hresume⟩
  · rw [hresume, moveBy, hphase]
  · rw [hresume, moveBy, hphase]

namespace Plan

/--
Where a planned call can come to, with the gateway as it is then, whatever the order of events at
one instant.
-/
inductive Reaches (p : Plan) (limits : Limits) : Connector → Retry → Prop where
  | begin {seen : Signal} (hseen : p.hub.signal.SeenAs p.now seen) :
      Reaches p limits
        (Retry.begin ⟨seen, p.hub.gateway⟩ p.now p.errand p.policy limits p.script .empty).1.gateway
        (Retry.begin ⟨seen, p.hub.gateway⟩ p.now p.errand p.policy limits p.script .empty).2
  | move {g : Connector} {r : Retry} {w : Wait} {t : Time} {cause : Cause} {seen : Signal}
      (h : Reaches p limits g r) (hwait : r.wait? ⟨p.hub.signal, g⟩ = some w)
      (hend : w.MayEnd t cause) (hseen : p.hub.signal.SeenAs t seen) :
      Reaches p limits (r.moveBy ⟨seen, g⟩ t cause).1.gateway (r.moveBy ⟨seen, g⟩ t cause).2
  /-- Other calls make sessions, and sessions are closed. -/
  | shared {g g' : Connector} {r : Retry} (h : Reaches p limits g r)
      (htimeout : g'.timeout = g.timeout) : Reaches p limits g' r

variable {p : Plan} {limits : Limits} {g : Connector} {k : Nat}

/-- The moves of a call in the order of precedence are one of the orders there are. -/
theorem reaches_after (p : Plan) (limits : Limits) (n : Nat) :
    p.Reaches limits (p.after limits n).1.gateway (p.after limits n).2 := by
  induction n with
  | zero => exact .begin (.inl rfl)
  | succ n ih =>
      cases hwake : p.wakeAfter limits n with
      | none => rwa [after_of_wakeAfter_eq_none hwake n.le_succ]
      | some a =>
          obtain ⟨t, cause⟩ := a
          obtain ⟨w, hwait, hw⟩ := Option.bind_eq_some_iff.mp hwake
          have hhub : (p.after limits n).1 = ⟨p.hub.signal, (p.after limits n).1.gateway⟩ := by
            rw [← p.signal_after limits n]
          rw [after_succ, resume_eq_moveBy hwake, hhub]
          exact .move ih (by rwa [← hhub]) (Wait.mayEnd_of_wake hw) (.inl rfl)

/-! ## What accounts for where a call stands -/

/-- Whether the last request made was the attempt after so many others, and how long it took. -/
structure Lands (trace : Trace) (k : Nat) (span t : Time) : Prop where
  count : trace.requests.length = k + 1
  last : ∃ q, trace.requests.getLast? = some q ∧ q.startedAt + span = t ∧ q.endedAt = t

/-- The ways in which a planned call ends at an instant, with what it leaves behind. -/
inductive Ending (p : Plan) (limits : Limits) (trace : Trace) (t : Time) :
    Except Fault (Option Payload) → Prop where
  /-- Its last attempt is a success. -/
  | answered {k : Nat} {span : Time} {payload : Option Payload}
      (hattempt : p.Attempts k span (.ok payload)) (hlands : Lands trace k span t) :
      Ending p limits trace t (.ok payload)
  /-- The signal was given. -/
  | stopped (hgiven : p.hub.signal.given t = true) : Ending p limits trace t (.error .stopped)
  /-- There is a deadline, and it has passed. -/
  | overdue {d : Time} (hdeadline : limits.deadlineAt = some d) (hpassed : d ≤ t) :
      Ending p limits trace t (.error .overdue)
  /-- It was cancelled. -/
  | aborted {c : Time} (hcancel : limits.cancelAt = some c) (hpassed : c ≤ t) :
      Ending p limits trace t (.error .aborted)
  /-- Its last attempt was answered with a fault that another one cannot mend. -/
  | raised {k : Nat} {span : Time} {fault : Fault} (hraises : (p.script.item k).Raises fault)
      (hlands : Lands trace k span t) (hmend : ¬ Mendable (.error fault)) :
      Ending p limits trace t (.error fault)
  /-- There is no URL to ask, so that no request was made. -/
  | unaddressed {fault : Fault} (hurl : p.errand.url = .error fault)
      (hnone : trace.requests = []) (hmend : ¬ Mendable (.error fault)) :
      Ending p limits trace t (.error fault)

/-- What a call keeps: its errand, its policy, its limits, and the time that each attempt has. -/
structure Keeps (p : Plan) (limits : Limits) (g : Connector) (r : Retry) : Prop where
  errand : r.errand = p.errand
  policy : r.policy = p.policy
  limits_eq : r.limits = limits
  limit : g.limit = p.hub.gateway.limit

/-- Whether the answers used up account for where a call stands, and its end for itself. -/
def Placed (p : Plan) (limits : Limits) (r : Retry) : Prop :=
  match r.phase with
  | .flying flight _ =>
    (∃ url, p.errand.url = .ok url) ∧
      r.script = p.script.rest (r.trace.requests.length + 1) ∧
        flight.course = (p.script.item r.trace.requests.length).course flight.startedAt
          (p.hub.gateway.limit.map (flight.startedAt + ·))
  | .ticking _ _ =>
    (∃ url, p.errand.url = .ok url) ∧ r.script = p.script.rest r.trace.requests.length
  | .ended t outcome => p.Ending limits r.trace t outcome

/-- Whether a call keeps what it keeps, and its answers account for where it stands. -/
structure Accounted (p : Plan) (limits : Limits) (g : Connector) (r : Retry) : Prop
    extends p.Keeps limits g r where
  placed : p.Placed limits r

/-- The next attempt of a call that its answers account for is accounted for. -/
theorem Keeps.depart (h : p.Keeps limits hub.gateway r) (hscript : r.script =
    p.script.rest r.trace.requests.length) (now : Time) (grid : Option Grid)
    (hurl : ∀ fault, p.errand.url = .error fault →
      r.trace.requests = [] ∧ ¬ Mendable (.error fault)) :
    p.Accounted limits (r.depart hub now grid).1.gateway (r.depart hub now grid).2 := by
  rcases depart_cases hub r now grid with ⟨fault, hfault, hdepart⟩ | ⟨url, hok, hdepart⟩
  · rw [h.errand] at hfault
    obtain ⟨hnone, hmend⟩ := hurl fault hfault
    rw [hdepart]
    exact ⟨⟨h.errand, h.policy, h.limits_eq, h.limit⟩, .unaddressed hfault hnone hmend⟩
  · rw [h.errand] at hok
    rw [hdepart]
    refine ⟨⟨h.errand, h.policy, h.limits_eq, h.limit⟩, ⟨url, hok⟩, ?_, ?_⟩
    · simp only [hscript, Supply.rest_succ]
    · rw [← h.limit, ← Connector.cutoff_eq, hscript, Supply.next_rest]
      rfl

/-- A call that rests after a failed attempt waits for the next one, or stops by the signal. -/
theorem Keeps.rest (h : p.Keeps limits g r) (hscript : r.script =
    p.script.rest r.trace.requests.length) (hurl : ∃ url, p.errand.url = .ok url)
    (hgiven : hub.signal.given t = true → p.hub.signal.given t = true) (grid : Grid) :
    p.Accounted limits g (r.rest hub t grid) := by
  cases hseen : hub.signal.given t with
  | true =>
      rw [rest_of_given hseen]
      exact ⟨⟨h.errand, h.policy, h.limits_eq, h.limit⟩, .stopped (hgiven hseen)⟩
  | false =>
      rw [rest_of_not_given hseen]
      exact ⟨⟨h.errand, h.policy, h.limits_eq, h.limit⟩, hurl, hscript⟩

/-- A call whose attempt has failed goes on, or stops by the signal. -/
theorem Keeps.recover (h : p.Keeps limits g r) (hscript : r.script =
    p.script.rest r.trace.requests.length) (hurl : ∃ url, p.errand.url = .ok url)
    (hgiven : hub.signal.given t = true → p.hub.signal.given t = true)
    (hperiod : 0 < p.policy.period) (hreport : p.policy.reportEach ≠ 0) (grid : Option Grid)
    (fault : Fault) : p.Accounted limits g (r.recover hub t grid fault) := by
  have hjot : ∀ notes, p.Keeps limits g (r.jot t notes) :=
    fun _ => ⟨h.errand, h.policy, h.limits_eq, h.limit⟩
  cases grid with
  | none =>
      rw [recover_first (h.policy.symm ▸ hperiod)]
      exact (hjot _).rest hscript hurl hgiven _
  | some grid =>
      rw [recover_later (h.policy.symm ▸ hreport)]
      exact (hjot _).rest hscript hurl hgiven _

/-- What an exchange comes to that is not cut off, and when. -/
theorem Accounted.attempts_of_alarm (h : p.Accounted limits g r) {flight : Flight}
    {grid : Option Grid} (hphase : r.phase = .flying flight grid)
    (halarm : (t, .alarm) ∈ (flight.wait g.sessions r.limits).causes) :
    ∃ span, flight.startedAt + span = t ∧
      p.Attempts r.trace.requests.length span (p.errand.interpret (flight.outcome .alarm)) := by
  obtain ⟨-, -, hcourse⟩ : (∃ url, p.errand.url = .ok url) ∧
      r.script = p.script.rest (r.trace.requests.length + 1) ∧
        flight.course = (p.script.item r.trace.requests.length).course flight.startedAt
          (p.hub.gateway.limit.map (flight.startedAt + ·)) := by
    simpa only [Placed, hphase] using h.placed
  have hlanding : ∃ u result, flight.course.landing = some (u, result) ∧
      t = Time.later flight.startedAt u := by
    obtain ⟨u, hu, ht⟩ := Wait.mem_causes_iff.mp halarm
    by_cases hsettled : flight.settled = true
    · obtain ⟨landing, hland, hstart⟩ := (Option.any_eq_true _ _).mp hsettled
      rw [Flight.wait_of_settled hsettled] at hu ht
      refine ⟨landing.1, landing.2, hland, ?_⟩
      rw [ht, eq_of_beq hstart, ← Option.some.inj hu]
      rfl
    · rw [Flight.wait, if_neg hsettled] at hu ht
      obtain ⟨landing, hland, hlanded⟩ := Option.map_eq_some_iff.mp hu
      exact ⟨landing.1, landing.2, hland, by rw [ht, ← hlanded]; rfl⟩
  obtain ⟨u, result, hland, ht⟩ := hlanding
  have houtcome : flight.outcome .alarm = result := by simp [Flight.outcome, hland]
  rw [hcourse] at hland
  obtain ⟨span, hu, hyields⟩ :
      ∃ span, u = flight.startedAt + span ∧
        p.Attempts r.trace.requests.length span (p.errand.interpret result) :=
    Errand.yields_of_course p.hub.gateway.limit_nonneg hland
  have hspan : 0 ≤ span := hyields.nonneg p.hub.gateway.limit_nonneg
  refine ⟨span, ?_, by rwa [houtcome]⟩
  rw [ht, Time.later_of_le (by linarith), hu]

/-- A limit that may end what a call waits for is one of its limits, and has passed. -/
theorem limit_of_mayEnd {w : Wait} (hwait : r.wait? hub = some w) (hend : w.MayEnd t cause) :
    (cause = .cancellation → ∃ c, r.limits.cancelAt = some c ∧ c ≤ t) ∧
      (cause = .deadline → ∃ d, r.limits.deadlineAt = some d ∧ d ≤ t) := by
  obtain ⟨u, hu, ht⟩ := Wait.mem_causes_iff.mp hend.1
  have hpassed : u ≤ t := ht ▸ Time.le_later_right _ _
  have hlimits : (∀ c ∈ w.cancelAt, r.limits.cancelAt = some c) ∧
      ∀ d ∈ w.deadlineAt, r.limits.deadlineAt = some d := by
    unfold wait? at hwait
    split at hwait
    · next flight grid _ =>
      rw [← Option.some.inj hwait, Flight.wait]
      split <;> simp [Wait.within, Limits.none]
    · rw [← Option.some.inj hwait]
      simp [Wait.within]
    · simp at hwait
  constructor
  · rintro rfl
    exact ⟨u, hlimits.1 u hu, hpassed⟩
  · rintro rfl
    exact ⟨u, hlimits.2 u hu, hpassed⟩

/-- After an exchange has landed, its answer accounts for where the call stands. -/
theorem Accounted.land (h : p.Accounted limits g r) {flight : Flight} {grid : Option Grid}
    (hphase : r.phase = .flying flight grid)
    (hwait : r.wait? ⟨p.hub.signal, g⟩ = some (flight.wait g.sessions r.limits))
    (hend : (flight.wait g.sessions r.limits).MayEnd t cause)
    (hgiven : hub.signal.given t = true → p.hub.signal.given t = true)
    (hperiod : 0 < p.policy.period) (hreport : p.policy.reportEach ≠ 0) :
    p.Accounted limits g (r.land hub flight grid t cause) := by
  obtain ⟨hurl, hscript, -⟩ : (∃ url, p.errand.url = .ok url) ∧
      r.script = p.script.rest (r.trace.requests.length + 1) ∧ _ := by
    simpa only [Placed, hphase] using h.placed
  have hkeeps : ∀ r' : Retry, r'.errand = r.errand → r'.policy = r.policy → r'.limits = r.limits →
      p.Keeps limits g r' := fun r' herrand hpolicy hlimits =>
    ⟨herrand.trans h.errand, hpolicy.trans h.policy, hlimits.trans h.limits_eq, h.limit⟩
  have hfails : ∀ fault, r.errand.interpret (flight.outcome cause) = .error fault →
      cause.endsCall = false → fault.retryable = true →
      p.Accounted limits g (r.land hub flight grid t cause) := by
    intro fault hcame hcause hretryable
    rw [land_eq_recover grid t hcame hcause hretryable]
    exact (hkeeps { r with trace := r.trace.addRequest (flight.request t) } rfl rfl rfl).recover
      (by simpa [Trace.addRequest] using hscript) hurl hgiven hperiod hreport grid fault
  obtain ⟨hcancelled, hoverdue⟩ := limit_of_mayEnd hwait hend
  rw [h.limits_eq] at hcancelled hoverdue
  cases cause with
  | cancellation =>
      obtain ⟨c, hc, hpassed⟩ := hcancelled rfl
      exact ⟨hkeeps _ rfl rfl rfl, .aborted hc hpassed⟩
  | deadline =>
      obtain ⟨d, hd, hpassed⟩ := hoverdue rfl
      exact ⟨hkeeps _ rfl rfl rfl, .overdue hd hpassed⟩
  | closing => exact hfails .connectionClosed rfl rfl rfl
  | alarm =>
      obtain ⟨span, hspan, hattempt⟩ := h.attempts_of_alarm hphase hend.1
      have hlands : Lands (r.trace.addRequest (flight.request t)) r.trace.requests.length span t :=
        ⟨by simp [Trace.addRequest], flight.request t, by simp [Trace.addRequest], hspan, rfl⟩
      cases hcame : r.errand.interpret (flight.outcome .alarm) with
      | ok payload =>
          rw [land_eq_finish grid t (by simp [hcame]), hcame]
          rw [← h.errand, hcame] at hattempt
          exact ⟨hkeeps _ rfl rfl rfl, .answered hattempt hlands⟩
      | error fault =>
          rw [← h.errand, hcame] at hattempt
          by_cases hretryable : fault.retryable = true
          · exact hfails fault hcame rfl hretryable
          · have hmend : ¬ Mendable (.error fault) := by rwa [mendable_error_iff]
            rw [land_eq_finish grid t (by simp_all), hcame]
            exact ⟨hkeeps _ rfl rfl rfl,
              .raised (Errand.Yields.raises hattempt hmend) hlands hmend⟩

/-- After a move by whatever may end its wait, the answers of a call account for where it stands. -/
theorem Accounted.moveBy (h : p.Accounted limits g r) {w : Wait} {seen : Signal}
    (hwait : r.wait? ⟨p.hub.signal, g⟩ = some w) (hend : w.MayEnd t cause)
    (hseen : p.hub.signal.SeenAs t seen) (hperiod : 0 < p.policy.period)
    (hreport : p.policy.reportEach ≠ 0) :
    p.Accounted limits (r.moveBy ⟨seen, g⟩ t cause).1.gateway (r.moveBy ⟨seen, g⟩ t cause).2 := by
  obtain ⟨hcancelled, hoverdue⟩ := limit_of_mayEnd hwait hend
  rw [h.limits_eq] at hcancelled hoverdue
  cases hphase : r.phase with
  | flying flight grid =>
      have hw : w = flight.wait g.sessions r.limits := by
        simpa [wait?, hphase, eq_comm] using hwait
      subst hw
      simp only [Retry.moveBy, hphase]
      exact h.land hphase hwait hend hseen.given hperiod hreport
  | ticking grid since =>
      obtain ⟨⟨url, hurl⟩, hscript⟩ : (∃ url, p.errand.url = .ok url) ∧
          r.script = p.script.rest r.trace.requests.length := by
        simpa only [Placed, hphase] using h.placed
      have hstop : ∀ reason fault, p.Ending limits (r.stop t reason fault).trace t (.error fault) →
          p.Accounted limits g (r.stop t reason fault) := fun reason fault hending =>
        ⟨⟨h.errand, h.policy, h.limits_eq, h.limit⟩, hending⟩
      simp only [Retry.moveBy, hphase]
      cases cause with
      | alarm =>
          refine (show p.Keeps limits (Hub.mk seen g).gateway r from h.toKeeps).depart
            hscript t _ ?_
          intro fault hfault
          rw [hurl] at hfault
          simp at hfault
      | closing =>
          have hw : w = .within r.limits since (some grid.next) p.hub.signal.givenAt := by
            simpa [wait?, hphase, eq_comm] using hwait
          obtain ⟨u, hu, ht⟩ := Wait.mem_causes_iff.mp hend.1
          have hgivenAt : p.hub.signal.givenAt = some u := by rwa [hw] at hu
          have hpassed : u ≤ t := ht ▸ Time.le_later_right _ _
          exact hstop _ _ (.stopped (by simp [Signal.given, hgivenAt, Time.reached, hpassed]))
      | cancellation =>
          obtain ⟨c, hc, hpassed⟩ := hcancelled rfl
          exact hstop _ _ (.aborted hc hpassed)
      | deadline =>
          obtain ⟨d, hd, hpassed⟩ := hoverdue rfl
          exact hstop _ _ (.overdue hd hpassed)
  | ended endedAt outcome => simp [wait?, hphase] at hwait

/-- Wherever a call comes to, its answers account for where it stands. -/
theorem Reaches.accounted (h : p.Reaches limits g r) (hperiod : 0 < p.policy.period)
    (hreport : p.policy.reportEach ≠ 0)
    (hurl : ∀ fault, p.errand.url = .error fault → ¬ Mendable (.error fault)) :
    p.Accounted limits g r := by
  induction h with
  | @begin seen hseen =>
      cases hgiven : seen.given p.now with
      | true =>
          simp only [Retry.begin, hgiven, if_true]
          exact ⟨⟨rfl, rfl, rfl, rfl⟩, .stopped (hseen.given hgiven)⟩
      | false =>
          simp only [Retry.begin, hgiven, Bool.false_eq_true, if_false]
          have hstart : p.Keeps limits (Hub.mk seen p.hub.gateway).gateway
              { errand := p.errand, policy := p.policy, limits, script := p.script, attempt := 1
                phase := .ended p.now (.error .stopped), trace := .empty } := ⟨rfl, rfl, rfl, rfl⟩
          exact hstart.depart rfl p.now none fun fault hfault => ⟨rfl, hurl fault hfault⟩
  | move _ hwait hend hseen ih => exact ih.moveBy hwait hend hseen hperiod hreport
  | shared _ htimeout ih =>
      refine ⟨⟨ih.errand, ih.policy, ih.limits_eq, ?_⟩, ih.placed⟩
      rw [← ih.limit, Connector.limit, Connector.limit, htimeout]

/-! ## The ways in which a call ends -/

/--
In any order of events a call to an endpoint ends in one of these ways only: with the value of its
last attempt; by the signal, which was given; by its deadline or its cancellation, which has come;
or with a fault of its last answer, or of its URL, that another attempt cannot mend.  While the
signal is not given and without a deadline it never ends with a fault that another attempt may mend.
-/
theorem no_failure_escapes {endpoint : Endpoint} {form : Form}
    (herrand : p.errand = .ofEndpoint endpoint form) (hperiod : 0 < p.policy.period)
    (hreport : 1 ≤ p.policy.reportEach) (limits : Limits) :
    (∀ n, p.Reaches limits (p.after limits n).1.gateway (p.after limits n).2) ∧
      ∀ g r t outcome, p.Reaches limits g r → r.outcome? = some (t, outcome) →
        p.Ending limits r.trace t outcome ∧
          (p.hub.signal.given t = false → limits.deadlineAt = none → ¬ Mendable outcome) := by
  have hurl : ∀ fault, p.errand.url = .error fault → ¬ Mendable (.error fault) := by
    intro fault hfault
    rw [herrand] at hfault
    exact Endpoint.not_mendable_of_url? hfault
  refine ⟨p.reaches_after limits, ?_⟩
  intro g r t outcome hreaches houtcome
  have hplaced := (hreaches.accounted hperiod (by omega) hurl).placed
  have hending : p.Ending limits r.trace t outcome := by
    simpa only [Placed, phase_of_outcome? houtcome] using hplaced
  refine ⟨hending, ?_⟩
  intro hopen hdeadline
  cases hending with
  | answered _ _ => simp [Mendable]
  | stopped hgiven =>
      rw [hopen] at hgiven
      simp at hgiven
  | overdue hd _ =>
      rw [hdeadline] at hd
      simp at hd
  | aborted _ _ => simp [Mendable, Fault.aborted, Fault.lineage]
  | raised _ _ hmend => exact hmend
  | unaddressed _ _ hmend => exact hmend

/-- A call whose tick, signal, deadline and cancellation fall on one instant. -/
def crowded : Plan where
  hub := { signal := ⟨some 5⟩, gateway := .fresh 2 }
  now := 0
  errand := .ofEndpoint
    { base := "http://h", path := "/milestone", query := [], origin := ⟨.http, ['h'], by decide⟩
      origin_eq := by decide +kernel } .milestone
  policy := { period := 5, reportEach := 1 }
  script := ⟨.failure (.lasting 0) (.timedOut ""), [.failure (.lasting 0) (.shutDown "")]⟩

/-- The limits of the crowded call. -/
def crowdedLimits : Limits := ⟨some 5, some 5⟩

/-- In the order of precedence the crowded call is cancelled before anything else happens. -/
theorem crowded_ends :
    0 < crowded.policy.period ∧ 1 ≤ crowded.policy.reportEach ∧
      (crowded.after crowdedLimits 2).2.outcome? = some (5, .error .aborted) ∧
      crowded.Ending crowdedLimits (crowded.after crowdedLimits 2).2.trace 5 (.error .aborted) := by
  have hperiod : 0 < crowded.policy.period := by decide +kernel
  have hreport : 1 ≤ crowded.policy.reportEach := by decide
  have houtcome : (crowded.after crowdedLimits 2).2.outcome? = some (5, .error .aborted) := by
    decide +kernel
  obtain ⟨hreaches, hends⟩ := no_failure_escapes rfl hperiod hreport crowdedLimits
  exact ⟨hperiod, hreport, houtcome, (hends _ _ _ _ (hreaches 2) houtcome).1⟩

/-- A call to an endpoint with a truth value in its query, which a URL cannot hold. -/
def flagged : Plan where
  hub := { signal := .pending, gateway := .fresh 5 }
  now := 0
  errand := .ofEndpoint
    { base := "http://h", path := "/milestone", query := [("a", .bool true)]
      origin := ⟨.http, ['h'], by decide⟩, origin_eq := by decide +kernel } .milestone
  policy := { period := 1, reportEach := 1 }
  script := ⟨.reply (.lasting 0) 204 (.lasting 0) (.ok .empty), []⟩

/--
The flagged call ends with a fault that is neither that of the signal, of a deadline or of a
cancellation, nor raised by any answer: its URL cannot be built.
-/
theorem flagged_unaddressed :
    0 < flagged.policy.period ∧ 1 ≤ flagged.policy.reportEach ∧
      ∃ fault, (flagged.after .none 0).2.outcome? = some (0, .error fault) ∧
        fault ≠ .stopped ∧ fault ≠ .overdue ∧ fault ≠ .aborted ∧
        ∀ k, ¬ (flagged.script.item k).Raises fault := by
  refine ⟨by decide +kernel, by decide, .mistyped (.queryValue .yes), by decide +kernel,
    by decide, by decide, by decide, fun k hraises => ?_⟩
  have hitem : flagged.script.item k = .reply (.lasting 0) 204 (.lasting 0) (.ok .empty) := by
    cases k <;> rfl
  rw [hitem] at hraises
  cases hraises

end Plan
end Retry
end ChainPoll

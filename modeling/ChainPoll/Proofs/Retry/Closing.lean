import ChainPoll.Proofs.Retry.Standing

/-!
# Calls whose hub is closed

When a hub is closed, calls that wait for something later end by the closing.  A call whose next
tick is due at the very instant of the closing is not reached by it: a tick goes before a closing.

Main results:

- Theorem {lit}`Retry.wake_closed`: a call that is not due now is woken by the closing.
- Theorem {lit}`Retry.outcome?_of_closing`: what a call ends with that the closing wakes.
- Theorem {lit}`Retry.quiet_closed_iff`: after the closing a call waits for a tick exactly if that
  tick is due now.
- Theorem {lit}`Retry.ended_of_quiet`: any other call ends with its next move.
-/

namespace ChainPoll

namespace Wait

variable {w : Wait} {now t : Time}

/-- If a wait ends later than now, all that could end it comes later than now. -/
theorem lt_of_instant (hsince : w.since ≤ now) (hlate : ∀ a, w.wake = some a → now < a.1)
    {cause : Cause} {u : Time} (hu : w.instant cause = some u) : now < u := by
  obtain ⟨b, hb, hle⟩ := exists_wake_le hu
  have hnow := (hlate b hb).trans_le hle
  rw [Time.later_eq_max, lt_max_iff] at hnow
  exact hnow.resolve_left (not_lt.mpr hsince)

/-- A wait that is closed now ends by that if all else comes later. -/
theorem wake_closing (hsince : w.since ≤ now) (hlate : ∀ a, w.wake = some a → now < a.1) :
    ({ w with closingAt := some now } : Wait).wake = some (now, .closing) := by
  refine wake_eq_some_iff.mpr ⟨⟨now, rfl, (Time.later_of_le hsince).symm⟩, ?_⟩
  have hother : ∀ d v, w.instant d = some v →
      Precedes (now, .closing) (Time.later w.since v, d) :=
    fun d v hv => .inl ((lt_of_instant hsince hlate hv).trans_le (Time.le_later_right _ _))
  intro d v hv
  cases d with
  | closing =>
      have hvnow : now = v := Option.some.inj hv
      exact .inr ⟨by rw [← hvnow, Time.later_of_le hsince], le_rfl⟩
  | cancellation => exact hother .cancellation v hv
  | deadline => exact hother .deadline v hv
  | alarm => exact hother .alarm v hv

/-- A wait that is closed now still ends by its alarm exactly if that is due by now. -/
theorem wake_alarm_closing_iff (hsince : w.since ≤ now) (hnone : w.closingAt = none) :
    ({ w with closingAt := some now } : Wait).wake = some (t, .alarm) ↔
      w.wake = some (t, .alarm) ∧ t ≤ now := by
  rw [wake_eq_some_iff, wake_eq_some_iff]
  constructor
  · rintro ⟨halarm, hall⟩
    refine ⟨⟨halarm, ?_⟩, ?_⟩
    · intro d v hv
      cases d with
      | closing =>
          rw [instant, hnone] at hv
          simp at hv
      | cancellation => exact hall .cancellation v hv
      | deadline => exact hall .deadline v hv
      | alarm => exact hall .alarm v hv
    · have hle := (hall .closing now rfl).le
      rwa [Time.later_of_le hsince] at hle
  · rintro ⟨⟨halarm, hall⟩, hle⟩
    refine ⟨halarm, ?_⟩
    intro d v hv
    cases d with
    | closing =>
        have hvnow : now = v := Option.some.inj hv
        rw [← hvnow, Time.later_of_le hsince]
        rcases hle.lt_or_eq with hlt | heq
        · exact .inl hlt
        · exact .inr ⟨heq, by simp [Cause.rank]⟩
    | cancellation => exact hall .cancellation v hv
    | deadline => exact hall .deadline v hv
    | alarm => exact hall .alarm v hv

/-- A wait that is cancelled now does not end by its alarm any more. -/
theorem wake_ne_alarm_of_cancel (hlate : ∀ a, w.wake = some a → now ≤ a.1) :
    ({ w with cancelAt := some now } : Wait).wake ≠ some (t, .alarm) := by
  intro h
  obtain ⟨⟨u, hu, ht⟩, hall⟩ := wake_eq_some_iff.mp h
  have halarm : w.instant .alarm = some u := hu
  obtain ⟨a, ha, hle⟩ := exists_wake_le halarm
  have hnow : Time.later w.since now ≤ a.1 := by
    rw [Time.later_eq_max]
    exact max_le (wake_since_le ha) (hlate a ha)
  -- at one instant the cancellation goes before the alarm
  rcases hall .cancellation now rfl with hlt | ⟨-, hrank⟩
  · exact absurd (ht ▸ hlt.trans_le (hnow.trans hle)) (lt_irrefl _)
  · simp [Cause.rank] at hrank

end Wait

namespace Retry

variable {hub : Hub} {r : Retry} {now t : Time} {cause : Cause}

/-! ## Calls that the closing wakes -/

/-- An exchange under way of a call that is not due by now takes some time. -/
theorem Sound.not_settled (h : r.Sound hub now) (hlate : ∀ a, r.wake hub = some a → now < a.1)
    {flight : Flight} {grid : Option Grid} (hphase : r.phase = .flying flight grid) :
    ¬ flight.settled = true := by
  intro hsettled
  have hbegan := h.began_le
  simp only [began, hphase] at hbegan
  exact absurd ((hlate _ (wake_of_settled hphase hsettled)).trans_le hbegan) (lt_irrefl _)

/-- A call that is not due now is woken by the closing of its hub. -/
theorem wake_closed (h : r.Sound hub now) (hhub : hub.Sound now)
    (hlate : ∀ a, r.wake hub = some a → now < a.1) :
    r.wake (hub.closed now) = some (now, .closing) := by
  have hbegan := h.began_le
  cases hphase : r.phase with
  | flying flight grid =>
      have hsettled := h.not_settled hlate hphase
      simp only [wake_flying hphase] at hlate ⊢
      simp only [began, hphase] at hbegan
      obtain ⟨hpos, hcount⟩ := h.session flight grid hphase
      have hsince : (flight.wait hub.gateway.sessions r.limits).since ≤ now := by
        simpa [Flight.wait, hsettled, Wait.within] using hbegan
      have hclosing : (hub.closed now).gateway.sessions.closingOf flight.session = some now := by
        rcases hhub.close.2.sessions.closing _ hpos hcount with hold | hnew
        · -- a session that was closed before would have ended the exchange by now
          obtain ⟨u, hu, hclosed⟩ := hhub.sessions.closing_close hpos hcount
          have hkept : hub.gateway.sessions.closingOf flight.session = some u := hold ▸ hclosed
          have hinstant :
              (flight.wait hub.gateway.sessions r.limits).instant .closing = some u := by
            simp [Flight.wait, hsettled, Wait.instant, Wait.within, hkept]
          exact absurd (Wait.lt_of_instant hsince hlate hinstant) (not_lt.mpr hu)
        · exact hnew
      have hwait : flight.wait (hub.closed now).gateway.sessions r.limits =
          { flight.wait hub.gateway.sessions r.limits with closingAt := some now } := by
        simp [Flight.wait, hsettled, Wait.within, hclosing]
      rw [hwait]
      exact Wait.wake_closing hsince hlate
  | ticking grid since =>
      simp only [wake_ticking hphase] at hlate ⊢
      simp only [began, hphase] at hbegan
      obtain ⟨u, hu, hgiven, hnow⟩ := hhub.givenAt_closed
      have hpending : hub.signal.givenAt = none := by
        cases hsome : hub.signal.givenAt with
        | none => rfl
        | some v =>
            -- a signal that was given before would have ended the wait by now
            have hinstant : (Wait.within r.limits since (some grid.next)
                hub.signal.givenAt).instant .closing = some v := hsome
            exact absurd (Wait.lt_of_instant hbegan hlate hinstant)
              (not_lt.mpr (hhub.signal v hsome))
      rw [hgiven, hnow hpending]
      exact Wait.wake_closing
        (w := Wait.within r.limits since (some grid.next) hub.signal.givenAt) hbegan hlate
  | ended endedAt outcome =>
      have hrunning := h.running
      simp [outcome?, hphase] at hrunning

end Retry

namespace Policy

/--
The fault with which a closing ends calls: by the signal, unless their period is refused before.
-/
def abortFault (policy : Policy) : Fault :=
  if 0 < policy.period then .stopped else .refused .retryPeriod

/-- The fault that a failed attempt leads to after a closing. -/
def closingFault (policy : Policy) : Option Grid → Fault
  | none => policy.abortFault
  | some _ => if policy.reportEach = 0 then .zeroInterval else .stopped

end Policy

namespace Retry

variable {hub : Hub} {r : Retry} {now t : Time} {cause : Cause}

/-- The fault with which a closing ends a call. -/
def closingFault (r : Retry) : Fault :=
  match r.phase with
  | .flying _ grid => r.policy.closingFault grid
  | .ticking _ _ => .stopped
  | .ended _ _ => .stopped

/-- Whether a call has an attempt after its first one under way. -/
def Retrying (r : Retry) : Prop :=
  ∃ flight grid, r.phase = .flying flight (some grid)

/-- A closing ends a call that counts its failures, or has not tried again, as its policy says. -/
theorem closingFault_eq_abortFault (h : r.Sound hub now)
    (hcounts : r.policy.reportEach ≠ 0 ∨ ¬ r.Retrying) :
    r.closingFault = r.policy.abortFault := by
  have hgrid : r.grid?.isSome → r.policy.abortFault = .stopped :=
    fun hsome => if_pos (h.period hsome)
  cases hphase : r.phase with
  | flying flight grid =>
      cases grid with
      | none => simp only [closingFault, hphase, Policy.closingFault]
      | some grid =>
          have hreport : r.policy.reportEach ≠ 0 :=
            hcounts.resolve_right (not_not.mpr ⟨flight, grid, hphase⟩)
          simp only [closingFault, hphase, Policy.closingFault, if_neg hreport]
          exact (hgrid (by simp [grid?, hphase])).symm
  | ticking grid since =>
      simp only [closingFault, hphase]
      exact (hgrid (by simp [grid?, hphase])).symm
  | ended endedAt outcome =>
      have hrunning := h.running
      simp [outcome?, hphase] at hrunning

/-- After a failed attempt a call that finds the signal given ends. -/
theorem outcome?_recover_of_given (hgiven : hub.signal.given now = true) (grid : Option Grid)
    (fault : Fault) :
    (r.recover hub now grid fault).outcome? =
      some (now, .error (r.policy.closingFault grid)) := by
  cases grid with
  | none =>
      by_cases hperiod : 0 < r.policy.period
      · rw [recover_first hperiod, rest_of_given hgiven, Policy.closingFault, Policy.abortFault,
          if_pos hperiod]
        rfl
      · rw [recover_refused hperiod, Policy.closingFault, Policy.abortFault, if_neg hperiod]
        rfl
  | some grid =>
      by_cases hreport : r.policy.reportEach = 0
      · rw [recover, if_pos hreport, Policy.closingFault, if_pos hreport]
        rfl
      · rw [recover_later hreport, rest_of_given hgiven, Policy.closingFault, if_neg hreport]
        rfl

/-- What a call ends with that the closing of its hub wakes. -/
theorem outcome?_of_closing (hgiven : hub.signal.given now = true)
    (hwake : r.wake hub = some (now, .closing)) :
    (r.resume hub).2.outcome? = some (now, .error r.closingFault) := by
  rcases resume_cases hwake with ⟨flight, grid, hphase, hresume⟩ | ⟨grid, since, hphase, hresume⟩
  · have hland : r.land hub flight grid now .closing =
        { r with trace := r.trace.addRequest (flight.request now) }.recover hub now grid
          .connectionClosed := by
      simp [land, Flight.outcome, Errand.interpret, Cause.endsCall, Fault.connectionClosed,
        Fault.retryable]
    rw [hresume, hland, closingFault, hphase]
    exact outcome?_recover_of_given
      (r := { r with trace := r.trace.addRequest (flight.request now) }) hgiven grid _
  · rw [hresume, closingFault, hphase]
    rfl

/-! ## Calls that the closing does not reach -/

/-- Whether a call is to make its next attempt now. -/
def AtTick (hub : Hub) (now : Time) (r : Retry) : Prop :=
  (∃ grid since, r.phase = .ticking grid since) ∧ r.wake hub = some (now, .alarm)

instance (hub : Hub) (now : Time) (r : Retry) : Decidable (r.AtTick hub now) :=
  match hphase : r.phase with
  | .ticking grid since =>
    decidable_of_iff (r.wake hub = some (now, .alarm))
      ⟨fun h => ⟨⟨grid, since, hphase⟩, h⟩, fun h => h.2⟩
  | .flying _ _ => .isFalse fun h => by simp [AtTick, hphase] at h
  | .ended _ _ => .isFalse fun h => by simp [AtTick, hphase] at h

/-- Whether a call that waits between two attempts does not wait for a tick to come. -/
def Quiet (hub : Hub) (r : Retry) : Prop :=
  (∃ grid since, r.phase = .ticking grid since) → ∀ t, r.wake hub ≠ some (t, .alarm)

/-- After the closing of its hub a call still waits for a tick exactly if that was due by then. -/
theorem wake_alarm_closed_iff (h : r.Sound hub now) (hhub : hub.Sound now)
    (hpending : hub.signal.givenAt = none) {grid : Grid} {since : Time}
    (hphase : r.phase = .ticking grid since) :
    r.wake (hub.closed now) = some (t, .alarm) ↔ r.wake hub = some (t, .alarm) ∧ t ≤ now := by
  obtain ⟨u, -, hgiven, hnow⟩ := hhub.givenAt_closed
  have hsince : since ≤ now := by simpa [began, hphase] using h.began_le
  rw [wake_ticking hphase, wake_ticking hphase, hgiven, hnow hpending]
  exact Wait.wake_alarm_closing_iff
    (w := Wait.within r.limits since (some grid.next) hub.signal.givenAt) hsince hpending

/-- The closing of its hub reaches a call unless its next attempt is due now. -/
theorem quiet_closed_iff (h : r.Sound hub now) (hhub : hub.Sound now)
    (hpending : hub.signal.givenAt = none) : r.Quiet (hub.closed now) ↔ ¬ r.AtTick hub now := by
  constructor
  · rintro hquiet ⟨⟨grid, since, hphase⟩, hwake⟩
    exact hquiet ⟨grid, since, hphase⟩ now
      ((wake_alarm_closed_iff h hhub hpending hphase).mpr ⟨hwake, le_rfl⟩)
  · rintro htick ⟨grid, since, hphase⟩ t hwake
    obtain ⟨hwake', hle⟩ := (wake_alarm_closed_iff h hhub hpending hphase).mp hwake
    have ht : t = now := le_antisymm hle (h.late _ hwake')
    exact htick ⟨⟨grid, since, hphase⟩, ht ▸ hwake'⟩

/-- A call that is cancelled now is quiet. -/
theorem quiet_cancel (h : r.Sound hub now) : (r.cancel now).Quiet hub := by
  rintro ⟨grid, since, hphase⟩ t
  have hphase' : r.phase = .ticking grid since := hphase
  have hlate := h.late
  simp only [wake_ticking hphase'] at hlate
  rw [wake_ticking hphase]
  exact Wait.wake_ne_alarm_of_cancel hlate

/-- After the signal was given the landing of an attempt ends a call. -/
theorem Moved.ended_of_given {hub' : Hub} {r' : Retry} (h : Moved hub r t hub' r')
    (hgiven : hub.signal.given t = true) {flight : Flight} {grid : Option Grid}
    (hphase : r.phase = .flying flight grid) : r'.outcome?.isSome = true := by
  cases h with
  | landed _ => rfl
  | rested _ hopen _ =>
      rw [hgiven] at hopen
      simp at hopen
  | departed hticking _ _ =>
      rw [hphase] at hticking
      simp at hticking
  | stopped _ => rfl

/-- After the signal was given a quiet call ends with its next move. -/
theorem ended_of_quiet (hgiven : hub.signal.given now = true) (hquiet : r.Quiet hub)
    (hwake : r.wake hub = some (now, cause)) : (r.resume hub).2.outcome?.isSome = true := by
  rcases resume_cases hwake with ⟨flight, grid, hphase, -⟩ | ⟨grid, since, hphase, hresume⟩
  · exact (moved_resume hwake).ended_of_given hgiven hphase
  · rw [hresume]
    cases cause with
    | alarm => exact absurd hwake (hquiet ⟨grid, since, hphase⟩ now)
    | closing => rfl
    | cancellation => rfl
    | deadline => rfl

/-- A call whose next attempt is due starts it. -/
theorem starts_of_tick (h : r.Sound hub now) (htick : r.AtTick hub now) :
    (r.resume hub).2.outcome? = none ∧
      ∃ target, (r.resume hub).2.starts = r.starts ++ [(now, target)] := by
  obtain ⟨⟨grid, since, hphase⟩, hwake⟩ := htick
  obtain ⟨url, hurl⟩ := h.url
  have hresume : r.resume hub = r.depart hub now (some (grid.advance now)) := by
    simp [resume, hwake, hphase, wakeUp]
  rw [hresume, depart, hurl]
  refine ⟨rfl, (url, (hub.gateway.session now).1), ?_⟩
  simp [starts, traceAt, hphase, Trace.addRequest, Request.start, Flight.request, Connector.depart]

end Retry
end ChainPoll

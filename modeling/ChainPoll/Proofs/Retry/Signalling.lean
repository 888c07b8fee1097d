import ChainPoll.Proofs.Retry.Closing
import ChainPoll.Proofs.Retry.Truncation
import ChainPoll.Proofs.Retry.Undisturbed

/-!
# Calls cut off by the signal

A call whose signal is given at an instant, while its session stays open, is compared with the same
call without a signal.  Both make the same moves until that instant.  Then a call that waits for its
next attempt ends at once, and a call whose attempt is under way ends with that attempt: a signal is
looked at between attempts only.

Main results:

- Theorem {lit}`Retry.resume_signalled_of_before`: a signal that is given later does not disturb a
  move.
- Theorem {lit}`Retry.resume_signalled_of_ticking`: a signal ends the wait between two attempts at
  once.
- Theorem {lit}`Retry.land_signalled_of_mendable`: an attempt that fails after the signal is the
  last one.
- Theorem {lit}`Retry.Plan.signal_truncates`: a call with a signal is the call without it, cut off
  there.
-/

namespace ChainPoll

/-! ## Signals that are given at an instant -/

/-- A hub whose signal is given at an instant. -/
def Hub.signalled (hub : Hub) (k : Time) : Hub :=
  { hub with signal := ⟨some k⟩ }

/-- Before its instant a signal is not given. -/
theorem Hub.given_signalled_of_lt (hub : Hub) {k t : Time} (h : t < k) :
    (hub.signalled k).signal.given t = false := by
  simp [signalled, Signal.given, Time.reached, h]

/-- From its instant on a signal is given. -/
theorem Hub.given_signalled_of_le (hub : Hub) {k t : Time} (h : k ≤ t) :
    (hub.signalled k).signal.given t = true := by
  simp [signalled, Signal.given, Time.reached, h]

namespace Wait

/-- A closing that comes after the end of a wait does not disturb it. -/
theorem wake_of_closing_later {w : Wait} {t k : Time} {cause : Cause} (hnone : w.closingAt = none)
    (h : w.wake = some (t, cause)) (hlate : t < k) :
    ({ w with closingAt := some k } : Wait).wake = some (t, cause) := by
  obtain ⟨⟨u, hu, ht⟩, hall⟩ := wake_eq_some_iff.mp h
  refine wake_eq_some_iff.mpr ⟨⟨u, ?_, ht⟩, ?_⟩
  · cases cause with
    | closing =>
        rw [instant, hnone] at hu
        simp at hu
    | cancellation => exact hu
    | deadline => exact hu
    | alarm => exact hu
  · intro d v hv
    cases d with
    | closing =>
        have hvk : k = v := Option.some.inj hv
        exact .inl (hvk ▸ hlate.trans_le (Time.le_later_right _ _))
    | cancellation => exact hall .cancellation v hv
    | deadline => exact hall .deadline v hv
    | alarm => exact hall .alarm v hv

end Wait

namespace Retry

variable {hub : Hub} {r : Retry} {k t : Time} {cause : Cause}

/-! ## Moves before the signal -/

/-- Attempts start in the same way whether a signal is given or not. -/
theorem depart_signalled (hub : Hub) (r : Retry) (k t : Time) (grid : Option Grid) :
    r.depart (hub.signalled k) t grid =
      ((r.depart hub t grid).1.signalled k, (r.depart hub t grid).2) := by
  cases hurl : r.errand.url with
  | error fault => simp [depart, hurl]
  | ok url => simp [depart, hurl, Hub.signalled]

/--
A call that fails goes on in the same way over hubs that have both given the signal, or both not.
-/
theorem recover_congr {hub' : Hub} (h : hub.signal.given t = hub'.signal.given t)
    (grid : Option Grid) (fault : Fault) :
    r.recover hub t grid fault = r.recover hub' t grid fault := by
  simp only [recover, rest, h]

/-- An exchange lands in the same way over hubs that have both given the signal, or both not. -/
theorem land_congr {hub' : Hub} (h : hub.signal.given t = hub'.signal.given t) (flight : Flight)
    (grid : Option Grid) (cause : Cause) :
    r.land hub flight grid t cause = r.land hub' flight grid t cause := by
  simp only [land, recover_congr h]

/-- A signal that is given later does not disturb a wait. -/
theorem wake_signalled_of_before (hopen : hub.signal.givenAt = none)
    (h : r.wake hub = some (t, cause)) (htk : t < k) :
    r.wake (hub.signalled k) = some (t, cause) := by
  cases hphase : r.phase with
  | flying flight grid =>
      rw [wake_flying hphase] at h ⊢
      exact h
  | ticking grid since =>
      rw [wake_ticking hphase] at h ⊢
      exact Wait.wake_of_closing_later hopen h htk
  | ended endedAt outcome =>
      rw [wake_ended hphase] at h
      simp at h

/-- A signal that is given later does not disturb a move. -/
theorem resume_signalled_of_before (hopen : hub.signal.givenAt = none)
    (h : r.wake hub = some (t, cause)) (htk : t < k) :
    r.resume (hub.signalled k) = ((r.resume hub).1.signalled k, (r.resume hub).2) := by
  have hwake := wake_signalled_of_before hopen h htk
  have hgiven : (hub.signalled k).signal.given t = hub.signal.given t := by
    rw [hub.given_signalled_of_lt htk]
    simp [Signal.given, hopen, Time.reached]
  cases hphase : r.phase with
  | flying flight grid => simp only [resume, hwake, h, hphase, land_congr hgiven]
  | ticking grid since =>
      simp only [resume, hwake, h, hphase]
      cases cause with
      | alarm => exact depart_signalled hub r k t _
      | closing => rfl
      | cancellation => rfl
      | deadline => rfl
  | ended endedAt outcome =>
      rw [wake_ended hphase] at h
      simp at h

/-! ## Moves after the signal -/

/-- What ends the wait of a call without limits is no limit. -/
theorem endsCall_of_wake (hr : r.limits = .none) (h : r.wake hub = some (t, cause)) :
    cause.endsCall = false := by
  obtain ⟨w, hw, hwake⟩ := Option.bind_eq_some_iff.mp h
  have hunlimited : w.Unlimited := by
    unfold wait? at hw
    split at hw
    · next flight grid _ =>
      rw [Option.some.injEq] at hw
      subst hw
      unfold Flight.wait
      split <;> simp [Wait.Unlimited, Wait.within, Limits.none, hr]
    · rw [Option.some.injEq] at hw
      subst hw
      simp [Wait.Unlimited, Wait.within, Limits.none, hr]
    · simp at hw
  obtain ⟨⟨u, hu, -⟩, -⟩ := Wait.wake_eq_some_iff.mp hwake
  cases cause with
  | cancellation => simp [Wait.instant, hunlimited.1] at hu
  | deadline => simp [Wait.instant, hunlimited.2] at hu
  | alarm => rfl
  | closing => rfl

/-- A signal ends the wait between two attempts at once. -/
theorem resume_signalled_of_ticking {grid : Grid} {since : Time}
    (hphase : r.phase = .ticking grid since) (hsince : since ≤ k)
    (hlate : ∀ a, r.wake hub = some a → k < a.1) :
    r.resume (hub.signalled k) = (hub.signalled k, r.stop k .shutdown .stopped) := by
  have hwake : r.wake (hub.signalled k) = some (k, .closing) := by
    simp only [wake_ticking hphase] at hlate ⊢
    exact Wait.wake_closing
      (w := Wait.within r.limits since (some grid.next) hub.signal.givenAt) hsince hlate
  simp only [resume, hwake, hphase, wakeUp]

/-- A call that would wait for its next attempt stops if the signal was given. -/
theorem rest_signalled (hopen : hub.signal.givenAt = none) (hkt : k ≤ t) (grid : Grid) :
    r.rest (hub.signalled k) t grid = (r.rest hub t grid).stop t .shutdown .stopped := by
  have hgiven : hub.signal.given t = false := by simp [Signal.given, hopen, Time.reached]
  rw [rest_of_given (hub.given_signalled_of_le hkt), rest_of_not_given hgiven]
  simp only [stop, jot, finish, Trace.addNotes_addNotes]
  rfl

/-- After a failed attempt a call stops if the signal was given, and goes on if it was not. -/
theorem recover_signalled (hopen : hub.signal.givenAt = none) (hkt : k ≤ t)
    (hperiod : 0 < r.policy.period) (hreport : r.policy.reportEach ≠ 0) (grid : Option Grid)
    (fault : Fault) :
    r.recover (hub.signalled k) t grid fault =
      (r.recover hub t grid fault).stop t .shutdown .stopped := by
  cases grid with
  | none => rw [recover_first hperiod, recover_first hperiod, rest_signalled hopen hkt]
  | some grid => rw [recover_later hreport, recover_later hreport, rest_signalled hopen hkt]

/-- The move of a call whose attempt is under way is the landing of its exchange. -/
theorem resume_of_flying {flight : Flight} {grid : Option Grid}
    (hphase : r.phase = .flying flight grid) (hwake : r.wake hub = some (t, cause)) :
    r.resume hub = (hub, r.land hub flight grid t cause) := by
  simp only [resume, hwake, hphase]

/-- An attempt that another one cannot mend ends a call, whatever the signal. -/
theorem land_signalled_of_not_mendable (hub : Hub) (flight : Flight) (grid : Option Grid)
    (hmend : ¬ Mendable (r.errand.interpret (flight.outcome cause))) :
    r.land (hub.signalled k) flight grid t cause = r.land hub flight grid t cause ∧
      (r.land hub flight grid t cause).phase =
        .ended t (r.errand.interpret (flight.outcome cause)) := by
  have hlast : ∀ fault, r.errand.interpret (flight.outcome cause) = .error fault →
      cause.endsCall = true ∨ fault.retryable = false := by
    intro fault hcame
    rw [hcame, mendable_error_iff, Bool.not_eq_true] at hmend
    exact .inr hmend
  rw [land_eq_finish grid t hlast, land_eq_finish grid t hlast]
  exact ⟨rfl, rfl⟩

/-- An attempt that another one may mend is the last one if the signal was given. -/
theorem land_signalled_of_mendable (hopen : hub.signal.givenAt = none) (hkt : k ≤ t)
    (hperiod : 0 < r.policy.period) (hreport : r.policy.reportEach ≠ 0) (flight : Flight)
    (grid : Option Grid) (hcause : cause.endsCall = false)
    (hmend : Mendable (r.errand.interpret (flight.outcome cause))) :
    r.land (hub.signalled k) flight grid t cause =
        (r.land hub flight grid t cause).stop t .shutdown .stopped ∧
      (r.land hub flight grid t cause).outcome? = none := by
  obtain ⟨fault, hcame, -⟩ := id hmend
  have hretryable : fault.retryable = true := by
    rwa [hcame, mendable_error_iff] at hmend
  have hgiven : hub.signal.given t = false := by simp [Signal.given, hopen, Time.reached]
  rw [land_eq_recover grid t hcame hcause hretryable,
    land_eq_recover grid t hcame hcause hretryable]
  refine ⟨recover_signalled
    (r := { r with trace := r.trace.addRequest (flight.request t) }) hopen hkt hperiod hreport grid
    fault, ?_⟩
  obtain ⟨next, notes, hrecover⟩ := Plan.recover_of_not_given
    (r := { r with trace := r.trace.addRequest (flight.request t) }) hgiven hperiod hreport grid
    fault
  rw [hrecover]
  rfl

/-- How a call that is counted in its attempts ends by the signal, which it notes. -/
structure StoppedAs (r : Retry) (t : Time) (r' : Retry) : Prop where
  outcome : r'.outcome? = some (t, .error .stopped)
  trace : r'.trace = r.trace.addNotes t
    [.callStopped r.errand.path (r.trace.requests.length + 1) .shutdown]

/-- A call that stops between two attempts has started what it had started. -/
theorem StoppedAs.starts_eq {r' : Retry} (h : r.StoppedAs t r')
    (hphase : ∀ flight grid, r.phase ≠ .flying flight grid) : r'.starts = r.starts := by
  have hended := phase_of_outcome? h.outcome
  have hstarts : r.starts = r.trace.requests.map Request.start := by
    cases hplace : r.phase with
    | flying flight grid => exact absurd hplace (hphase flight grid)
    | ticking grid since => simp [starts, traceAt, hplace]
    | ended endedAt outcome => simp [starts, traceAt, hplace]
  rw [hstarts, starts, traceAt, hended, h.trace]
  rfl

/-- The landing of an attempt starts nothing. -/
theorem Moved.of_flying {hub' : Hub} {r' : Retry} (h : Moved hub r t hub' r') {flight : Flight}
    {grid : Option Grid} (hphase : r.phase = .flying flight grid) :
    r'.starts = r.starts ∧ ∀ flight grid, r'.phase ≠ .flying flight grid := by
  cases h with
  | landed hflying => exact ⟨starts_landed hflying t _, by simp⟩
  | rested hflying _ _ => exact ⟨starts_landed hflying t _, by simp⟩
  | departed hticking _ _ =>
      rw [hphase] at hticking
      simp at hticking
  | stopped hticking =>
      rw [hphase] at hticking
      simp at hticking

/-- A call that stops by the signal notes the number of the attempt that it does not make. -/
theorem Counted.stoppedAs (h : r.Counted) (hrunning : r.outcome? = none) (t : Time) :
    r.StoppedAs t (r.stop t .shutdown .stopped) :=
  ⟨rfl, by rw [← h hrunning]; rfl⟩

/-! ## Whole calls -/

namespace Plan

variable {p : Plan} {m n : Nat} {k t : Time}

/-- The same call with a signal that is given at an instant. -/
def signalled (p : Plan) (k : Time) : Plan :=
  { p with hub := p.hub.signalled k }

/-- Whether a call does not heed its signal in so many moves. -/
def Heedless (p : Plan) (k : Time) (n : Nat) : Prop :=
  (p.signalled k).after .none n = ((p.after .none n).1.signalled k, (p.after .none n).2)

/-- A call whose signal was given before it begins ends at once, and leaves nothing behind. -/
theorem after_signalled_of_le (hk : k ≤ p.now) (n : Nat) :
    ((p.signalled k).after .none n).2.outcome? = some (p.now, .error .stopped) ∧
      ((p.signalled k).after .none n).2.trace = .empty := by
  have hgiven : (p.signalled k).hub.signal.given (p.signalled k).now = true :=
    p.hub.given_signalled_of_le hk
  obtain ⟨-, houtcome, htrace⟩ := begin_of_given hgiven (p.signalled k).errand
    (p.signalled k).policy .none (p.signalled k).script .empty
  rw [after, run_of_ended (by rw [houtcome]; rfl)]
  exact ⟨houtcome, htrace⟩

section

variable (hopen : p.hub.signal.givenAt = none)

include hopen

/-- A call begins in the same way if its signal is given later. -/
theorem heedless_zero (hnow : p.now < k) : p.Heedless k 0 := by
  have hgiven : (p.signalled k).hub.signal.given (p.signalled k).now = false :=
    p.hub.given_signalled_of_lt hnow
  have hgiven' : p.hub.signal.given p.now = false := by
    simp [Signal.given, hopen, Time.reached]
  simp only [Heedless, after, begin, run, hgiven, hgiven', Bool.false_eq_true, if_false]
  exact depart_signalled p.hub _ k p.now none

/-- A call makes the moves before its signal that it makes without one. -/
theorem StandsAt.heedless (h : p.StandsAt k n) (hnow : p.now < k) (hmn : m ≤ n) :
    p.Heedless k m := by
  induction m with
  | zero => exact heedless_zero hopen hnow
  | succ m ih =>
      obtain ⟨t, cause, hwake, htk⟩ := h.before m (by omega)
      rw [Heedless, after_succ, after_succ, ih (by omega)]
      exact resume_signalled_of_before (by rw [signal_after, hopen]) hwake htk

end

/--
How a call that stands somewhere at an instant goes on when its signal is given there.  Only a call
that has an attempt to come heeds the signal.
-/
inductive CutBySignal (p : Plan) (k : Time) (n : Nat) : Prop
  /-- It had ended before. -/
  | done {u : Time} {outcome : Except Fault (Option Payload)}
      (hphase : (p.after .none n).2.phase = .ended u outcome) (hsame : ∀ m, p.Heedless k m)
  /-- It waits for its next attempt, and ends at once. -/
  | waiting {grid : Grid} {since : Time}
      (hphase : (p.after .none n).2.phase = .ticking grid since)
      (hstop : (p.after .none n).2.StoppedAs k ((p.signalled k).after .none (n + 1)).2)
  /-- Its attempt is never over. -/
  | endless {flight : Flight} {grid : Option Grid}
      (hphase : (p.after .none n).2.phase = .flying flight grid)
      (hwake : p.wakeAfter .none n = none) (hsame : ∀ m, p.Heedless k m)
  /-- Its attempt comes to something that another one cannot mend, and ends it with that. -/
  | landed {flight : Flight} {grid : Option Grid} {t : Time} {cause : Cause}
      (hphase : (p.after .none n).2.phase = .flying flight grid)
      (hwake : p.wakeAfter .none n = some (t, cause)) (hlate : k < t)
      (hfinal : ¬ Mendable (p.errand.interpret (flight.outcome cause)))
      (houtcome : ((p.signalled k).after .none (n + 1)).2.outcome? =
        some (t, p.errand.interpret (flight.outcome cause)))
      (hsame : ∀ m, p.Heedless k m)
  /-- Its attempt fails, which it notes as it does without a signal, and ends then. -/
  | failed {flight : Flight} {grid : Option Grid} {t : Time} {cause : Cause}
      (hphase : (p.after .none n).2.phase = .flying flight grid)
      (hwake : p.wakeAfter .none n = some (t, cause)) (hlate : k < t)
      (hmend : Mendable (p.errand.interpret (flight.outcome cause)))
      (hstop : (p.after .none (n + 1)).2.StoppedAs t ((p.signalled k).after .none (n + 1)).2)

/-- A call that has made its last move stands where it does for good. -/
theorem heedless_of_stuck (hbefore : ∀ m ≤ n, p.Heedless k m) (hwake : p.wakeAfter .none n = none)
    (hwake' : (p.signalled k).wakeAfter .none n = none) (m : Nat) : p.Heedless k m := by
  rcases le_total m n with hmn | hnm
  · exact hbefore m hmn
  · rw [Heedless, after_of_wakeAfter_eq_none hwake hnm, after_of_wakeAfter_eq_none hwake' hnm]
    exact hbefore n le_rfl

/-- A call that has ended makes no move. -/
theorem wakeAfter_of_ended {limits : Limits} {outcome : Except Fault (Option Payload)}
    (h : (p.after limits n).2.phase = .ended t outcome) : p.wakeAfter limits n = none :=
  wake_ended h

/-- What becomes of a call whose attempt is under way when its signal is given. -/
theorem cutBySignal_of_flying (hopen : p.hub.signal.givenAt = none) (hperiod : 0 < p.policy.period)
    (hreport : p.policy.reportEach ≠ 0) (hbefore : ∀ m ≤ n, p.Heedless k m)
    (hlate : ∀ t cause, p.wakeAfter .none n = some (t, cause) → k < t) {flight : Flight}
    {grid : Option Grid} (hphase : (p.after .none n).2.phase = .flying flight grid) :
    p.CutBySignal k n ∧ (p.signalled k).wakeAfter .none (n + 1) = none := by
  obtain ⟨herrand, hpolicy, hlimits⟩ := p.frame_after .none n
  have hsame := hbefore n le_rfl
  have hwakeSame : (p.signalled k).wakeAfter .none n = p.wakeAfter .none n := by
    rw [wakeAfter, hsame, wake_flying hphase, wakeAfter, wake_flying hphase]
    rfl
  cases hwake : p.wakeAfter .none n with
  | none =>
      rw [hwake] at hwakeSame
      refine ⟨.endless hphase hwake (heedless_of_stuck hbefore hwake hwakeSame), ?_⟩
      rwa [wakeAfter, after_of_wakeAfter_eq_none hwakeSame n.le_succ]
  | some a =>
      obtain ⟨t, cause⟩ := a
      rw [hwake, wakeAfter, hsame] at hwakeSame
      have hkt := hlate t cause hwake
      have hnext : p.after .none (n + 1) =
          ((p.after .none n).1, (p.after .none n).2.land (p.after .none n).1
            flight grid t cause) := by
        rw [after_succ, resume_of_flying hphase hwake]
      have hnext' : (p.signalled k).after .none (n + 1) = ((p.after .none n).1.signalled k,
          (p.after .none n).2.land ((p.after .none n).1.signalled k) flight grid t cause) := by
        rw [after_succ, hsame, resume_of_flying hphase hwakeSame]
      by_cases hmend : Mendable (p.errand.interpret (flight.outcome cause))
      · have hopen' : (p.after .none n).1.signal.givenAt = none := by rw [signal_after, hopen]
        obtain ⟨hland, hrunning⟩ := land_signalled_of_mendable hopen' hkt.le (hpolicy ▸ hperiod)
          (hpolicy ▸ hreport) flight grid (endsCall_of_wake hlimits hwake)
          (herrand.symm ▸ hmend)
        rw [hland] at hnext'
        have hcounted : (p.after .none (n + 1)).2.Counted := p.counted_after .none (n + 1)
        have hstop := hcounted.stoppedAs (by rw [hnext, hrunning]) t
        refine ⟨.failed hphase hwake hkt hmend ?_, wakeAfter_of_ended (by rw [hnext']; rfl)⟩
        rw [hnext']
        rw [hnext] at hstop ⊢
        exact hstop
      · obtain ⟨hland, hended⟩ := land_signalled_of_not_mendable (p.after .none n).1 flight grid
          (herrand.symm ▸ hmend) (k := k) (t := t)
        rw [hland] at hnext'
        rw [herrand] at hended
        have hstuck : p.wakeAfter .none (n + 1) = none :=
          wakeAfter_of_ended (by rw [hnext]; exact hended)
        have hstuck' : (p.signalled k).wakeAfter .none (n + 1) = none :=
          wakeAfter_of_ended (by rw [hnext']; exact hended)
        have hbefore' : ∀ m ≤ n + 1, p.Heedless k m := by
          intro m hm
          rcases Nat.le_succ_iff.mp hm with hm | rfl
          · exact hbefore m hm
          · rw [Heedless, hnext', hnext]
        refine ⟨.landed hphase hwake hkt hmend ?_ (heedless_of_stuck hbefore' hstuck hstuck'),
          hstuck'⟩
        rw [hnext']
        simp [outcome?, hended]

/-- What becomes of a call when its signal is given. -/
theorem StandsAt.cutBySignal (h : p.StandsAt k n) (hopen : p.hub.signal.givenAt = none)
    (hperiod : 0 < p.policy.period) (hreport : p.policy.reportEach ≠ 0) (hnow : p.now < k)
    (hlate : ∀ t cause, p.wakeAfter .none n = some (t, cause) → k < t) :
    p.CutBySignal k n ∧ (p.signalled k).wakeAfter .none (n + 1) = none := by
  have hbefore : ∀ m ≤ n, p.Heedless k m := fun m hm => h.heedless hopen hnow hm
  have hsame := hbefore n le_rfl
  have hbegan := h.began_lt hnow
  cases hphase : (p.after .none n).2.phase with
  | flying flight grid =>
      exact cutBySignal_of_flying hopen hperiod hreport hbefore hlate hphase
  | ticking grid since =>
      have hsince : since ≤ k := by simpa [began, hphase] using hbegan.le
      have hnext' : (p.signalled k).after .none (n + 1) =
          ((p.after .none n).1.signalled k, (p.after .none n).2.stop k .shutdown .stopped) := by
        rw [after_succ, hsame, resume_signalled_of_ticking hphase hsince fun a ha =>
          hlate a.1 a.2 ha]
      refine ⟨.waiting hphase ?_, wakeAfter_of_ended (by rw [hnext']; rfl)⟩
      rw [hnext']
      exact (p.counted_after .none n).stoppedAs (by simp [outcome?, hphase]) k
  | ended u outcome =>
      have hphase' : ((p.signalled k).after .none n).2.phase = .ended u outcome := by
        rw [hsame]
        exact hphase
      have hstuck' := wakeAfter_of_ended hphase'
      refine ⟨.done hphase (heedless_of_stuck hbefore (wakeAfter_of_ended hphase) hstuck'), ?_⟩
      rwa [wakeAfter, after_of_wakeAfter_eq_none hstuck' n.le_succ]

/-- A call starts no request once its signal was given. -/
theorem CutBySignal.starts_eq (h : p.CutBySignal k n) (hsame : p.Heedless k n)
    (hstuck : (p.signalled k).wakeAfter .none (n + 1) = none) (hnm : n ≤ m) :
    ((p.signalled k).after .none m).2.starts = (p.after .none n).2.starts := by
  rcases hnm.eq_or_lt with rfl | hlt
  · rw [hsame]
  rw [after_of_wakeAfter_eq_none hstuck hlt]
  cases h with
  | done hphase hall =>
      rw [hall (n + 1), after_of_wakeAfter_eq_none (wakeAfter_of_ended hphase) n.le_succ]
  | waiting hphase hstop => exact hstop.starts_eq (by simp [hphase])
  | endless hphase hwake hall => rw [hall (n + 1), after_of_wakeAfter_eq_none hwake n.le_succ]
  | landed hphase hwake _ _ _ hall =>
      rw [hall (n + 1)]
      exact ((moved_after hwake).of_flying hphase).1
  | failed hphase hwake _ _ hstop =>
      obtain ⟨hstarts, hlanded⟩ := (moved_after hwake).of_flying hphase
      rw [hstop.starts_eq hlanded, hstarts]

/--
A call whose signal alone is given at an instant is the call without a signal, cut off there.  If
the signal was given when the call begins, the call ends at once and leaves nothing behind.  If it
is given later, at an instant at which the call without a signal makes no move, both make the same
moves before; then the call goes on as {lit}`CutBySignal` says, and starts no request any more.
-/
theorem signal_truncates (hopen : p.hub.signal.givenAt = none) (hperiod : 0 < p.policy.period)
    (hreport : 1 ≤ p.policy.reportEach) :
    (∀ k ≤ p.now, ∀ n, ((p.signalled k).after .none n).2.outcome? = some (p.now, .error .stopped) ∧
        ((p.signalled k).after .none n).2.trace = .empty) ∧
      ∀ k, p.now < k → (∀ n t cause, p.wakeAfter .none n = some (t, cause) → t ≠ k) →
        ∃ n, p.StandsAt k n ∧ (∀ m ≤ n, p.Heedless k m) ∧ p.CutBySignal k n ∧
          ∀ m m', n ≤ m → n ≤ m' →
            ((p.signalled k).after .none m').2.starts =
              (p.after .none m).2.starts.filter (fun s => s.1 < k) := by
  constructor
  · intro k hk n
    exact after_signalled_of_le hk n
  · intro k hnow hquiet
    obtain ⟨n, hn⟩ := p.exists_standsAt k
    have hlate : ∀ t cause, p.wakeAfter .none n = some (t, cause) → k < t :=
      fun t cause hwake => (hn.next t cause hwake).lt_of_ne (hquiet n t cause hwake).symm
    obtain ⟨hcut, hstuck⟩ := hn.cutBySignal hopen hperiod (by omega) hnow hlate
    have hsame : ∀ m ≤ n, p.Heedless k m := fun m hm => hn.heedless hopen hnow hm
    refine ⟨n, hn, hsame, hcut, ?_⟩
    intro m m' hnm hnm'
    rw [hcut.starts_eq (hsame n le_rfl) hstuck hnm', (hn.eq_filter hnow hnm).1]

/--
A call whose first attempt fails at once, and whose second one fails only after the tick that would
follow it.
-/
def overrun : Plan where
  hub := { signal := .pending, gateway := .fresh 0 }
  now := 0
  errand := { url := .ok "http://h/milestone", path := "/milestone", form := .milestone }
  policy := { period := 5, reportEach := 1 }
  script :=
    { head := .failure (.lasting 0) .noBody
      tail := [.failure (.lasting 7) .noBody, .reply (.lasting 0) 204 (.lasting 0) (.ok .empty)] }

/-- The overrun call makes its moves at these instants. -/
theorem wakeAfter_overrun (n : Nat) :
    ∀ t cause, overrun.wakeAfter .none n = some (t, cause) → t = 0 ∨ t = 5 ∨ t = 12 := by
  have hsmall : ∀ n ≤ 5, (overrun.wakeAfter .none n).all
      (fun a => decide (a.1 = 0 ∨ a.1 = 5 ∨ a.1 = 12)) = true := by decide +kernel
  have hstuck : overrun.wakeAfter .none 5 = none := by decide +kernel
  intro t cause hwake
  rcases le_total n 5 with hn | hn
  · have h := hsmall n hn
    rw [hwake] at h
    simpa using h
  · rw [wakeAfter, after_of_wakeAfter_eq_none hstuck hn] at hwake
    rw [wakeAfter, hwake] at hstuck
    simp at hstuck

/--
The signal is given during the second attempt of the overrun call.  The tick after it is overdue
when the attempt fails, but the call ends.
-/
theorem overrun_signalled :
    overrun.hub.signal.givenAt = none ∧ 0 < overrun.policy.period ∧
      1 ≤ overrun.policy.reportEach ∧ overrun.now < 6 ∧
      (∀ n t cause, overrun.wakeAfter .none n = some (t, cause) → t ≠ 6) ∧
      (∃ n, overrun.StandsAt 6 n ∧ overrun.CutBySignal 6 n) ∧
      ((overrun.signalled 6).after .none 3).2.outcome? = some (12, .error .stopped) := by
  have hopen : overrun.hub.signal.givenAt = none := rfl
  have hperiod : 0 < overrun.policy.period := by decide +kernel
  have hreport : 1 ≤ overrun.policy.reportEach := by decide
  have hnow : overrun.now < 6 := by decide +kernel
  have hquiet : ∀ n t cause, overrun.wakeAfter .none n = some (t, cause) → t ≠ 6 := by
    intro n t cause hwake
    rcases wakeAfter_overrun n t cause hwake with rfl | rfl | rfl <;> decide +kernel
  obtain ⟨-, hlater⟩ := signal_truncates hopen hperiod hreport
  obtain ⟨n, hn, -, hcut, -⟩ := hlater 6 hnow hquiet
  exact ⟨hopen, hperiod, hreport, hnow, hquiet, ⟨n, hn, hcut⟩, by decide +kernel⟩

end Plan
end Retry
end ChainPoll

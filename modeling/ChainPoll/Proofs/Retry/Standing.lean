import ChainPoll.Proofs.Retry.Moves
import ChainPoll.Proofs.Transport.Sessions

/-!
# Calls side by side

Calls share a hub that each of them and its user may change.  What holds of the hub and of every
call under way is said here, together with the changes of the hub that all calls bear: a session is
made, the session is closed, the signal is given.

Main results:

- Theorem {lit}`Hub.Grown.sound`: a move changes a sound hub in a way that all calls bear.
- Theorem {lit}`Hub.Sound.close`: so does closing it.
- Theorem {lit}`Retry.Sound.follows`: a sound call bears such changes.
- Theorem {lit}`Retry.Sound.moved`: a move leaves a sound call sound.
-/

namespace ChainPoll

/-! ## Late waits -/

namespace Wait

/--
A wait that may only end by what could end another one, or by something later, ends late as well.
-/
theorem le_wake_of_instant {w w' : Wait} {now : Time} {a : Time × Cause}
    (hlate : ∀ a, w.wake = some a → now ≤ a.1) (ha : w'.wake = some a) (hsince : w'.since = w.since)
    (h : ∀ cause u, w'.instant cause = some u → w.instant cause = some u ∨ now ≤ u) :
    now ≤ a.1 := by
  obtain ⟨u, hu, ht⟩ := mem_causes_iff.mp (wake_mem ha)
  rw [ht, hsince]
  rcases h _ u hu with hold | hnew
  · obtain ⟨b, hb, hle⟩ := exists_wake_le hold
    exact (hlate b hb).trans hle
  · exact hnew.trans (Time.le_later_right _ _)

end Wait

/-! ## Hubs -/

namespace Hub

variable {hub hub' : Hub} {now t : Time}

/-- What holds of a hub: its signal is not to be given later, and its sessions are sound. -/
structure Sound (hub : Hub) (now : Time) : Prop where
  signal : ∀ t, hub.signal.givenAt = some t → t ≤ now
  sessions : hub.gateway.sessions.Sound now

/-- What becomes of a hub in one change that all calls bear. -/
structure Follows (now : Time) (hub hub' : Hub) : Prop where
  signal : hub'.signal.givenAt = hub.signal.givenAt ∨ hub'.signal.givenAt = some now
  sessions : hub.gateway.sessions.Follows now hub'.gateway.sessions

/-- What holds of a hub still holds later. -/
theorem Sound.mono (h : hub.Sound now) (hle : now ≤ t) : hub.Sound t :=
  ⟨fun u hu => (h.signal u hu).trans hle, h.sessions.mono hle⟩

/-- A change may leave a hub as it is. -/
theorem Follows.refl (now : Time) (hub : Hub) : hub.Follows now hub :=
  ⟨.inl rfl, .refl now _⟩

/-- A hub after a request was sent. -/
def sent (hub : Hub) (now : Time) (url : String) (answer : Answer) : Hub :=
  { hub with gateway := (hub.gateway.depart now url answer).2 }

/-- A hub after it was closed. -/
def closed (hub : Hub) (now : Time) : Hub :=
  { signal := (hub.signal.close now).2, gateway := hub.gateway.close now }

/-- A hub after a move: as it was, or after a request was sent. -/
def Grown (now : Time) (hub hub' : Hub) : Prop :=
  hub' = hub ∨ ∃ url answer, hub' = hub.sent now url answer

/-- A move changes a sound hub in a way that all calls bear. -/
theorem Grown.sound (h : Grown now hub hub') (hsound : hub.Sound now) :
    hub'.Sound now ∧ hub.Follows now hub' := by
  rcases h with rfl | ⟨url, answer, rfl⟩
  · exact ⟨hsound, .refl now hub'⟩
  · exact ⟨⟨hsound.signal, hsound.sessions.acquire⟩, ⟨.inl rfl, .acquire now _⟩⟩

/-- A move does not give the signal. -/
theorem Grown.signal_eq (h : Grown now hub hub') : hub'.signal = hub.signal := by
  rcases h with rfl | ⟨url, answer, rfl⟩ <;> rfl

/-- Before the signal is given, there is one session at most, and it is open. -/
def Single (hub : Hub) : Prop :=
  hub.signal.givenAt = none →
    hub.gateway.sessions.closings = [] ∨ hub.gateway.sessions.closings = [none]

/-- A move makes no second session before the signal is given. -/
theorem Grown.single (h : Grown now hub hub') (hsingle : hub.Single) : hub'.Single := by
  rcases h with rfl | ⟨url, answer, rfl⟩
  · exact hsingle
  · intro hopen
    rcases hsingle hopen with hnone | hone
    · right
      simp [sent, Connector.depart, Connector.session, Sessions.acquire, Sessions.isOpen, hnone]
    · right
      simp [sent, Connector.depart, Connector.session, Sessions.acquire, Sessions.isOpen, hone,
        Time.reached]

/-- A signal that was given before stays as it is when its hub is closed. -/
theorem Sound.givenAt_closed_of_given (h : hub.Sound now) (hgiven : hub.signal.givenAt = some t) :
    (hub.closed now).signal.givenAt = some t := by
  have hle : t ≤ now := h.signal t hgiven
  simp [closed, Signal.close, Signal.given, hgiven, Time.reached, hle]

/-- The signal of a hub that was closed was given at some instant. -/
theorem Sound.givenAt_closed (h : hub.Sound now) :
    ∃ t ≤ now, (hub.closed now).signal.givenAt = some t ∧
      (hub.signal.givenAt = none → t = now) := by
  cases hgiven : hub.signal.givenAt with
  | none =>
      refine ⟨now, le_rfl, ?_, fun _ => rfl⟩
      simp [closed, Signal.close, Signal.given, hgiven, Time.reached]
  | some t => exact ⟨t, h.signal t hgiven, h.givenAt_closed_of_given hgiven, by simp⟩

/-- Closing changes a sound hub in a way that all calls bear. -/
theorem Sound.close (h : hub.Sound now) :
    (hub.closed now).Sound now ∧ hub.Follows now (hub.closed now) := by
  obtain ⟨t, hle, ht, hnow⟩ := h.givenAt_closed
  refine ⟨⟨?_, h.sessions.close⟩, ⟨?_, .close now _⟩⟩
  · intro u hu
    rw [ht, Option.some.injEq] at hu
    exact hu ▸ hle
  · cases hgiven : hub.signal.givenAt with
    | none => exact .inr (by rw [ht, hnow hgiven])
    | some u => exact .inl (h.givenAt_closed_of_given hgiven)

/-- A hub that was closed is closed. -/
theorem given_closed (hub : Hub) (now : Time) : (hub.closed now).signal.given now = true :=
  hub.signal.given_close now

/-- Closing a hub again changes nothing. -/
theorem closed_eq_self (hgiven : hub.signal.given now = true)
    (hshut : hub.gateway.sessions.isOpen now = false) : hub.closed now = hub := by
  simp [closed, Signal.close_given hgiven, Connector.close, Sessions.close_idle hshut]

end Hub

/-! ## Calls -/

namespace Retry

variable {hub hub' : Hub} {r r' : Retry} {now t : Time}

/-- The grid that a call has, once its first attempt has failed. -/
def grid? (r : Retry) : Option Grid :=
  match r.phase with
  | .flying _ grid => grid
  | .ticking grid _ => some grid
  | .ended _ _ => none

/-- What holds of a call under way over a hub. -/
structure Sound (hub : Hub) (now : Time) (r : Retry) : Prop where
  running : r.outcome? = none
  url : ∃ url, r.errand.url = .ok url
  began_le : r.began ≤ now
  /-- The call was to make no move in the past. -/
  late : ∀ a, r.wake hub = some a → now ≤ a.1
  session : ∀ flight grid, r.phase = .flying flight grid →
    1 ≤ flight.session ∧ flight.session ≤ hub.gateway.sessions.count
  /-- There is a grid for positive periods only. -/
  period : r.grid?.isSome → 0 < r.policy.period

/-- What holds of a call still holds later, as long as it is not to move before. -/
theorem Sound.pass (h : r.Sound hub now) (hle : now ≤ t)
    (hlate : ∀ a, r.wake hub = some a → t ≤ a.1) : r.Sound hub t :=
  ⟨h.running, h.url, h.began_le.trans hle, hlate, h.session, h.period⟩

/-- A sound call bears changes of its hub, and limits that strike now or later. -/
theorem Sound.disturbed (h : r.Sound hub now) (hfollows : hub.Follows now hub') {limits : Limits}
    (hlimits : ∀ cause u, limits.instant cause = some u →
      r.limits.instant cause = some u ∨ now ≤ u) :
    ({ r with limits } : Retry).Sound hub' now := by
  refine ⟨h.running, h.url, h.began_le, ?_, ?_, h.period⟩
  · intro a ha
    have hlate := h.late
    cases hphase : r.phase with
    | flying flight grid =>
        have hphase' : ({ r with limits } : Retry).phase = .flying flight grid := hphase
        rw [wake_flying hphase'] at ha
        simp only [wake_flying hphase] at hlate
        by_cases hsettled : flight.settled = true
        · rw [Flight.wait_of_settled hsettled] at ha hlate
          exact hlate a ha
        · rw [Flight.wait, if_neg hsettled] at ha
          simp only [Flight.wait, hsettled, Bool.false_eq_true, if_false] at hlate
          refine Wait.le_wake_of_instant hlate ha rfl ?_
          intro cause u hu
          cases cause with
          | cancellation => exact hlimits .cancellation u hu
          | deadline => exact hlimits .deadline u hu
          | alarm => exact .inl hu
          | closing =>
              obtain ⟨hpos, hcount⟩ := h.session flight grid hphase
              simp only [Wait.instant, Wait.within] at hu ⊢
              rcases hfollows.sessions.closing _ hpos hcount with hold | hnew
              · exact .inl (hold ▸ hu)
              · rw [hnew, Option.some.injEq] at hu
                exact .inr hu.le
    | ticking grid since =>
        have hphase' : ({ r with limits } : Retry).phase = .ticking grid since := hphase
        rw [wake_ticking hphase'] at ha
        simp only [wake_ticking hphase] at hlate
        refine Wait.le_wake_of_instant hlate ha rfl ?_
        intro cause u hu
        cases cause with
        | cancellation => exact hlimits .cancellation u hu
        | deadline => exact hlimits .deadline u hu
        | alarm => exact .inl hu
        | closing =>
            simp only [Wait.instant, Wait.within] at hu ⊢
            rcases hfollows.signal with hold | hnew
            · exact .inl (hold ▸ hu)
            · rw [hnew, Option.some.injEq] at hu
              exact .inr hu.le
    | ended endedAt outcome =>
        have hphase' : ({ r with limits } : Retry).phase = .ended endedAt outcome := hphase
        rw [wake_ended hphase'] at ha
        simp at ha
  · intro flight grid hphase
    obtain ⟨hpos, hcount⟩ := h.session flight grid hphase
    exact ⟨hpos, hcount.trans hfollows.sessions.count_le⟩

/-- A sound call bears changes of its hub. -/
theorem Sound.follows (h : r.Sound hub now) (hfollows : hub.Follows now hub') :
    r.Sound hub' now :=
  h.disturbed hfollows fun _ _ hu => .inl hu

/-- A sound call bears to be cancelled now. -/
theorem Sound.cancel (h : r.Sound hub now) : (r.cancel now).Sound hub now := by
  refine h.disturbed (.refl now hub) ?_
  intro cause u hu
  cases cause with
  | cancellation => exact .inr (Option.some.inj hu).le
  | deadline => exact .inl hu
  | alarm => exact .inl hu
  | closing => exact .inl hu

/-- A call that has just sent a request is sound. -/
theorem sound_of_departed (hub : Hub) {url : String} {answer : Answer} {grid : Option Grid}
    (hurl : r.errand.url = .ok url)
    (hphase : r.phase = .flying (hub.gateway.depart now url answer).1 grid)
    (hperiod : grid.isSome → 0 < r.policy.period) :
    r.Sound (hub.sent now url answer) now := by
  have hbegan : r.began = now := by
    simp only [began, hphase]
    rfl
  refine ⟨by simp [outcome?, hphase], ⟨url, hurl⟩, hbegan.le, ?_, ?_, ?_⟩
  · intro a ha
    exact hbegan.ge.trans (began_le_of_wake ha)
  · intro flight grid' hflying
    rw [hphase, Phase.flying.injEq] at hflying
    rw [← hflying.1]
    exact hub.gateway.sessions.acquire_mem now
  · simpa [grid?, hphase] using hperiod

/-- A move changes the hub by a request at most. -/
theorem Moved.grown (h : Moved hub r t hub' r') : Hub.Grown t hub hub' := by
  cases h with
  | landed _ => exact .inl rfl
  | rested _ _ _ => exact .inl rfl
  | @departed grid since url _ _ _ => exact .inr ⟨url, _, rfl⟩
  | stopped _ => exact .inl rfl

/-- A move that ends a call does nothing else. -/
theorem Moved.of_ended (h : Moved hub r t hub' r') (hended : r'.outcome?.isSome = true) :
    hub' = hub ∧ r'.starts = r.starts := by
  cases h with
  | landed hphase => exact ⟨rfl, starts_landed hphase t _⟩
  | rested hphase _ _ => simp [outcome?] at hended
  | departed _ _ _ => simp [outcome?] at hended
  | stopped hphase =>
      refine ⟨rfl, ?_⟩
      simp [starts, traceAt, hphase, Trace.addNotes]

/-- A move leaves a sound call sound, unless it ends it. -/
theorem Sound.moved (h : r.Sound hub now) (hmoved : Moved hub r now hub' r')
    (hrunning : r'.outcome? = none) : r'.Sound hub' now := by
  obtain ⟨url, hurl⟩ := h.url
  cases hmoved with
  | landed _ => simp [outcome?] at hrunning
  | @rested flight grid next notes hphase hopen hnext =>
      have hpos : 0 < r.policy.period := by
        rcases hnext with hsome | ⟨-, hperiod, -⟩
        · exact h.period (by simp [grid?, hphase, hsome])
        · exact hperiod ▸ next.period_pos
      exact
        { running := rfl, url := ⟨url, hurl⟩, began_le := le_rfl
          late := fun a ha => began_le_of_wake ha
          session := fun _ _ hflying => by simp at hflying
          period := fun _ => hpos }
  | departed hphase _ hurl' =>
      exact sound_of_departed hub hurl' rfl fun _ => h.period (by simp [grid?, hphase])
  | stopped _ => simp [outcome?] at hrunning

end Retry
end ChainPoll

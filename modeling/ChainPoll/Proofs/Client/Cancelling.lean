import ChainPoll.Proofs.Client.Sealing

/-!
# What a cancellation ends

A call that is cancelled while nothing else is due ends by that with its next move, at the instant
of the cancellation: an exchange under way is broken off, and so is the wait between two attempts.

Main results:

- Theorem {lit}`Retry.Sound.wake_cancelled`: a call that is cancelled wakes by that.
- Theorem {lit}`Call.Sound.ended_of_cancel`: a call of a client that is cancelled ends by that.
-/

namespace ChainPoll

namespace Retry

variable {hub : Hub} {r : Retry} {now t : Time}

/-- A call that is cancelled before it is due wakes by that. -/
theorem Sound.wake_cancelled (h : r.Sound hub now) (hlate : ∀ a, r.wake hub = some a → now < a.1) :
    (r.cancel now).wake hub = some (now, .cancellation) := by
  have hbegan := h.began_le
  cases hphase : r.phase with
  | flying flight grid =>
      have hphase' : (r.cancel now).phase = .flying flight grid := hphase
      have hsettled := h.not_settled hlate hphase
      simp only [began, hphase] at hbegan
      rw [wake_flying hphase, Flight.wait, if_neg hsettled] at hlate
      rw [wake_flying hphase', Flight.wait, if_neg hsettled]
      exact Wait.wake_cancelled (w := .within r.limits flight.startedAt _ _) hbegan
        fun a ha => (hlate a ha).le
  | ticking grid since =>
      have hphase' : (r.cancel now).phase = .ticking grid since := hphase
      simp only [began, hphase] at hbegan
      rw [wake_ticking hphase] at hlate
      rw [wake_ticking hphase']
      exact Wait.wake_cancelled (w := .within r.limits since _ _) hbegan
        fun a ha => (hlate a ha).le
  | ended endedAt outcome =>
      have hrunning := h.running
      simp [outcome?, hphase] at hrunning

/-- What a call ends with that a cancellation wakes. -/
theorem outcome?_of_cancellation (h : r.wake hub = some (t, .cancellation)) :
    (r.resume hub).2.outcome? = some (t, .error .aborted) := by
  rcases resume_cases h with ⟨flight, grid, -, hresume⟩ | ⟨grid, since, -, hresume⟩
  · rw [hresume, land_eq_finish grid t fun _ _ => .inl rfl]
    rfl
  · rw [hresume]
    rfl

end Retry

namespace Call

variable {hub : Hub} {c : Call} {now t : Time} {station : Station}

/-- The instant and the fault with which a call ends that is cancelled before it is due. -/
theorem Sound.ended_of_cancel (h : c.Sound hub now station) (hrunning : c.outcome? = none)
    (hlate : ∀ t, c.due hub = some t → now < t) :
    (c.cancel now).due hub = some now ∧
      ((c.cancel now).resume hub).2.outcome? = some (now, .error .aborted) := by
  cases hstage : c.stage with
  | ended endedAt outcome => simp [outcome?, hstage] at hrunning
  | fetching inner =>
      obtain ⟨hsound, -⟩ := h.inner inner hstage
      have hstage' : (c.cancel now).stage = .fetching (inner.cancel now) := by
        simp [Call.cancel, hstage]
      have hwake : (inner.cancel now).wake hub = some (now, .cancellation) := by
        refine hsound.wake_cancelled ?_
        intro a ha
        exact hlate a.1 (by simp [due, hstage, ha])
      obtain ⟨hdue, -, hended⟩ :=
        resume_of_fault hstage' hwake (Retry.outcome?_of_cancellation hwake)
      exact ⟨hdue, hended⟩

end Call
end ChainPoll

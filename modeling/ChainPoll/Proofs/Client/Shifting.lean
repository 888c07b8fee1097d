import ChainPoll.Proofs.Client.Reachable
import ChainPoll.Proofs.Client.Running
import ChainPoll.Proofs.Retry.Shifting

/-!
# Calls of a client at other times

A call of a client that stands as another one does, only later, makes the same moves over any open
hub: those of its inner calls, and those between them.

Main results:

- Theorem {lit}`Call.begin_shift`: a call that begins later begins in the same way.
- Theorem {lit}`Call.due_shift`: a call that stands as another one, only later, is due later.
- Theorem {lit}`Call.resume_shift`: it makes the same move.
-/

namespace ChainPoll

/-- The same stage, only later. -/
def Call.Stage.shift (d : Time) : Stage → Stage
  | .fetching inner => .fetching (inner.shift d)
  | .ended endedAt outcome => .ended (d + endedAt) outcome

namespace Call

variable {hub hub' : Hub} {timeout d t : Time} {c : Call}

/-- The same call, only later. -/
def shift (d : Time) (c : Call) : Call :=
  { c with
    limits := c.limits.shift d
    stage := c.stage.shift d
    trace := c.trace.shift d }

/-- A shifted call ends later, and in the same way. -/
theorem outcome?_shift (d : Time) (c : Call) :
    (c.shift d).outcome? = c.outcome?.map fun a => (d + a.1, a.2) := by
  cases hstage : c.stage <;> simp [outcome?, shift, Stage.shift, hstage]

/-- A shifted call is cancelled later. -/
theorem cancel_shift (d : Time) (c : Call) (t : Time) :
    (c.shift d).cancel (d + t) = (c.cancel t).shift d := by
  cases hstage : c.stage <;> simp [cancel, shift, Stage.shift, hstage, Limits.shift, Retry.shift,
    Retry.cancel]

/-! ## Between requests -/

/-- Notes are made later by a shifted call. -/
theorem jot_shift (d : Time) (c : Call) (t : Time) (notes : List Note) :
    (c.shift d).jot (d + t) notes = (c.jot t notes).shift d := by
  simp only [jot, shift, Trace.addNotes_shift]

/-- A shifted call ends later. -/
theorem finish_shift (d : Time) (c : Call) (t : Time) (outcome : Except Fault Reading) :
    (c.shift d).finish (d + t) outcome = (c.finish t outcome).shift d := rfl

/-- A shifted call fails later. -/
theorem fail_shift (d : Time) (c : Call) (t : Time) (fault : Fault) :
    (c.shift d).fail (d + t) fault = (c.fail t fault).shift d := by
  have hwalk : (c.shift d).walk = c.walk := rfl
  unfold fail
  rw [hwalk]
  split
  · exact finish_shift d c t _
  · exact finish_shift d c t _
  · rw [jot_shift, finish_shift]

/-- A shifted walk comes to its end later. -/
theorem conclude_shift (d : Time) (c : Call) (w : Walk EventRecord) (t : Time)
    (ending : StreamEnd) :
    (c.shift d).conclude w (d + t) ending = (c.conclude w t ending).shift d := by
  unfold conclude
  split
  · rw [jot_shift, finish_shift]
  · exact finish_shift d c t _

/-! ## Requests -/

section

variable (h : hub.Open timeout) (h' : hub'.Open timeout)

include h h'

/-- A shifted call starts its next request later. -/
theorem fetch_shift (d : Time) (c : Call) (t : Time) :
    ((c.shift d).fetch hub' (d + t)).2 = (c.fetch hub t).2.shift d := by
  have hendpoint : (c.shift d).endpoint? = c.endpoint? := rfl
  unfold fetch
  rw [hendpoint]
  cases c.endpoint? with
  | error fault => exact fail_shift d c t fault
  | ok endpoint =>
      have hrequest : (c.shift d).requestNotes endpoint = c.requestNotes endpoint := rfl
      simp only [hrequest]
      cases c.requestNotes endpoint with
      | error fault => exact fail_shift d c t fault
      | ok notes =>
          dsimp only
          rw [jot_shift]
          generalize c.jot t notes = c
          have hbegin : (Retry.begin hub' (d + t) (.ofEndpoint endpoint (c.shift d).query.form)
              (c.shift d).station.policy (c.shift d).limits (c.shift d).script
              (c.shift d).trace).2 =
                (Retry.begin hub t (.ofEndpoint endpoint c.query.form) c.station.policy c.limits
                  c.script c.trace).2.shift d :=
            Retry.begin_shift h h' d t _ _ c.limits _ c.trace
          rw [hbegin]
          generalize (Retry.begin hub t _ _ _ _ _).2 = inner
          rw [Retry.outcome?_shift]
          cases inner.outcome? with
          | none => rfl
          | some a =>
              obtain ⟨u, outcome⟩ := a
              cases outcome with
              | ok payload => rfl
              | error fault => exact fail_shift d (c.leave inner) u fault

/-- A shifted walk goes on later after a page. -/
theorem turn_shift (d : Time) (c : Call) (w : Walk EventRecord) (t : Time)
    (page : Page EventRecord) :
    ((c.shift d).turn hub' w (d + t) page).2 = (c.turn hub w t page).2.shift d := by
  unfold turn
  rw [jot_shift]
  generalize c.jot t (w.pageNotes page) = c
  cases w.endOf page with
  | none => exact fetch_shift h h' d { c with walk := some (w.absorb page) } t
  | some ending =>
      exact conclude_shift d { c with walk := some (w.absorb page) } (w.absorb page) t ending

/-- A shifted call goes on later after its inner call has ended. -/
theorem settle_shift (d : Time) (c : Call) (inner : Retry) (t : Time)
    (outcome : Except Fault (Option Payload)) :
    ((c.shift d).settle hub' (inner.shift d) (d + t) outcome).2 =
      (c.settle hub inner t outcome).2.shift d := by
  have hleave : (c.shift d).leave (inner.shift d) = (c.leave inner).shift d := rfl
  have hwalk : ((c.leave inner).shift d).walk = (c.leave inner).walk := rfl
  unfold settle
  rw [hleave]
  dsimp only
  rw [hwalk]
  cases outcome with
  | error fault => exact fail_shift d _ t fault
  | ok payload =>
      cases (c.leave inner).walk with
      | some w => exact turn_shift h h' d _ w t _
      | none => cases payload <;> rfl

/-! ## The life of a call -/

/-- A call that begins later begins in the same way. -/
theorem begin_shift (d t : Time) (station : Station) (query : Query) (limits : Limits)
    (script : Script) :
    (begin hub' (d + t) station query (limits.shift d) script).2 =
      (begin hub t station query limits script).2.shift d := by
  have hfetch : ∀ walk, (fetch hub' ⟨station, query, limits.shift d, walk,
      .ended (d + t) (.ok query.nothing), script, .empty⟩ (d + t)).2 =
        (fetch hub ⟨station, query, limits, walk, .ended t (.ok query.nothing), script,
          .empty⟩ t).2.shift d := fun walk =>
    fetch_shift h h' d
      ⟨station, query, limits, walk, .ended t (.ok query.nothing), script, .empty⟩ t
  unfold begin
  cases query with
  | events fromId upTo =>
      dsimp only
      cases Cursor.make? fromId upTo with
      | error fault => rfl
      | ok cursor => exact hfetch _
  | _ => exact hfetch none

/-- A shifted call is due later. -/
theorem due_shift (d : Time) (c : Call) :
    (c.shift d).due hub' = (c.due hub).map (d + ·) := by
  cases hstage : c.stage with
  | ended endedAt outcome => simp [due, shift, Stage.shift, hstage]
  | fetching inner =>
      simp only [due, shift, Stage.shift, hstage, Retry.wake_shift h h', Option.map_map]
      rfl

/-- A shifted call makes the same move, only later. -/
theorem resume_shift (d : Time) (c : Call) :
    ((c.shift d).resume hub').2 = (c.resume hub).2.shift d := by
  cases hstage : c.stage with
  | ended endedAt outcome => simp [resume, shift, Stage.shift, hstage]
  | fetching inner =>
      have hstage' : (c.shift d).stage = .fetching (inner.shift d) := by
        rw [shift, hstage, Stage.shift]
      have hinner := Retry.resume_shift h h' d inner
      have hopen := Retry.open_resume h inner
      have hopen' := Retry.open_resume h' (inner.shift d)
      unfold resume
      simp only [hstage, hstage']
      rw [hinner, Retry.outcome?_shift]
      generalize (inner.resume hub).2 = next
      cases next.outcome? with
      | none => rfl
      | some a => exact settle_shift hopen hopen' d c next a.1 a.2

end

/-! ## Open hubs -/

/-- Starting a request leaves an open hub open. -/
theorem open_fetch (h : hub.Open timeout) (c : Call) (t : Time) :
    (c.fetch hub t).1.Open timeout := by
  rcases c.fetch_cases hub t with ⟨hhub, -⟩ | ⟨inner, url, answer, -, -, -, -, -, hhub, -⟩
  · rw [hhub]
    exact h
  · exact h.grown (.inr ⟨url, answer, hhub⟩)

/-- The begin of a call leaves an open hub open. -/
theorem open_begin (h : hub.Open timeout) (t : Time) (station : Station) (query : Query)
    (limits : Limits) (script : Script) :
    (begin hub t station query limits script).1.Open timeout := by
  rcases begin_cases hub t station query limits script with ⟨hhub, -⟩ | ⟨c, -, -, hfetch⟩
  · rw [hhub]
    exact h
  · rw [hfetch]
    exact open_fetch h c t

/-- A move leaves an open hub open. -/
theorem open_resume (h : hub.Open timeout) (c : Call) : (c.resume hub).1.Open timeout := by
  cases hstage : c.stage with
  | ended endedAt outcome =>
      rw [resume_ended (by rw [outcome?, hstage]; rfl)]
      exact h
  | fetching inner =>
      have hinner := Retry.open_resume h inner
      rcases resume_cases hub hstage with ⟨-, hresume⟩ | ⟨t, outcome, -, hresume⟩
      · rw [hresume]
        exact hinner
      · rw [hresume]
        rcases settle_cases (inner.resume hub).1 c (inner.resume hub).2 t outcome with
          ⟨hhub, -⟩ | ⟨c', -, -, hfetch⟩
        · rw [hhub]
          exact hinner
        · rw [hfetch]
          exact open_fetch hinner c' t

end Call
end ChainPoll

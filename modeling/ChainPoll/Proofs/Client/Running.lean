import ChainPoll.Client.Ask
import ChainPoll.Proofs.Retry.Following
import ChainPoll.Proofs.Retry.Undisturbed

/-!
# Runs of calls

A call of a client moves by the moves of its inner calls.  A run of it is the runs of these, one
after another.

Main results:

- Theorem {lit}`Call.run_add`: a run continues from where a shorter one left off.
- Theorem {lit}`Call.fetch_of_plan`: a request is a planned call that follows the requests before
  it.
- Theorem {lit}`Call.run_of_end`: a run of a request to its end is the run of the planned call.
-/

namespace ChainPoll
namespace Call

variable {hub : Hub} {c : Call} {t : Time}

/-- A call that is not due is not run any further. -/
theorem run_of_idle (h : (c.outcome?.isSome || (c.due hub).isNone) = true) (n : Nat) :
    run n hub c = (hub, c) := by
  cases n with
  | zero => rfl
  | succ n => rw [run, if_pos h]

/-- A call that is due is run further. -/
theorem run_succ_of_due (houtcome : c.outcome? = none) (hdue : (c.due hub).isSome = true)
    (n : Nat) : run (n + 1) hub c = run n (c.resume hub).1 (c.resume hub).2 := by
  have hnot : ¬ (c.outcome?.isSome || (c.due hub).isNone) = true := by
    cases h : c.due hub <;> simp_all
  rw [run, if_neg hnot]

/-- A run continues from where a shorter one left off. -/
theorem run_add (m n : Nat) (hub : Hub) (c : Call) :
    run (m + n) hub c = run n (run m hub c).1 (run m hub c).2 := by
  induction m generalizing hub c with
  | zero => rw [Nat.zero_add, run]
  | succ m ih =>
      by_cases h : (c.outcome?.isSome || (c.due hub).isNone) = true
      · rw [run_of_idle h, run_of_idle h, run_of_idle h]
      · have houtcome : c.outcome? = none := by
          cases houtcome : c.outcome? <;> simp_all
        have hdue : (c.due hub).isSome = true := by
          cases hdue : c.due hub <;> simp_all
        rw [Nat.add_right_comm, run_succ_of_due houtcome hdue, run_succ_of_due houtcome hdue]
        exact ih _ _

/-- A run goes no further than to the end of the call. -/
theorem run_of_le {n budget : Nat} (h : (run n hub c).2.outcome?.isSome = true) (hle : n ≤ budget) :
    run budget hub c = run n hub c := by
  obtain ⟨m, rfl⟩ := Nat.exists_eq_add_of_le hle
  rw [run_add, run_of_ended h]

/-! ## Requests -/

variable {p : Retry.Plan} {limits : Limits} {earlier : Trace} {n : Nat}

/-- A request is a planned call that follows the requests before it. -/
theorem fetch_of_plan {endpoint : Endpoint} {notes : List Note}
    (hendpoint : c.endpoint? = .ok endpoint) (hnotes : c.requestNotes endpoint = .ok notes)
    (hp : p = ⟨hub, t, .ofEndpoint endpoint c.query.form, c.station.policy, c.script⟩)
    (hrunning : (p.after c.limits 0).2.outcome? = none) :
    c.fetch hub t = ((p.after c.limits 0).1,
      { c.jot t notes with
        stage := .fetching ((p.after c.limits 0).2.following (c.jot t notes).trace) }) := by
  have hbegin := p.begin_following c.limits (c.jot t notes).trace
  have houtcome : ((p.after c.limits 0).2.following (c.jot t notes).trace).outcome? = none :=
    hrunning
  subst hp
  simp only [fetch, hendpoint, hnotes]
  rw [show (c.jot t notes).query = c.query from rfl,
    show (c.jot t notes).station = c.station from rfl,
    show (c.jot t notes).limits = c.limits from rfl,
    show (c.jot t notes).script = c.script from rfl,
    hbegin]
  dsimp only
  rw [houtcome]

/-- A call that waits for an inner call is due when the planned call moves. -/
theorem due_of_planned (p : Retry.Plan) (limits : Limits) (n : Nat) (c : Call) (earlier : Trace) :
    due (p.after limits n).1
        { c with stage := .fetching ((p.after limits n).2.following earlier) } =
      (p.wakeAfter limits n).map (·.1) := rfl

/-- A call that waits for an inner call moves as the planned call does. -/
theorem run_of_running (c : Call) (hrunning : ∀ m ≤ n, (p.after limits m).2.outcome? = none)
    (hwakes : ∀ m < n, (p.wakeAfter limits m).isSome = true) :
    run n (p.after limits 0).1
      { c with stage := .fetching ((p.after limits 0).2.following earlier) } =
      ((p.after limits n).1,
        { c with stage := .fetching ((p.after limits n).2.following earlier) }) := by
  induction n with
  | zero => rfl
  | succ n ih =>
      have hdue : (due (p.after limits n).1
          { c with stage := .fetching ((p.after limits n).2.following earlier) }).isSome
            = true := by
        rw [due_of_planned, Option.isSome_map]
        exact hwakes n n.lt_succ_self
      have hended : ((p.after limits (n + 1)).2.following earlier).outcome? = none :=
        hrunning (n + 1) le_rfl
      rw [run_add, ih (fun m hm => hrunning m (by omega)) fun m hm => hwakes m (by omega),
        run_succ_of_due rfl hdue]
      simp only [run, resume, Retry.Plan.resume_after_following, hended]

/-- A call has not ended as long as the planned call has not. -/
theorem outcome?_run_of_running (c : Call)
    (hrunning : ∀ m ≤ n, (p.after limits m).2.outcome? = none) :
    (run n (p.after limits 0).1
      { c with stage := .fetching ((p.after limits 0).2.following earlier) }).2.outcome? =
      none := by
  have hstands : ∃ m ≤ n, run n (p.after limits 0).1
      { c with stage := .fetching ((p.after limits 0).2.following earlier) } =
        ((p.after limits m).1,
          { c with stage := .fetching ((p.after limits m).2.following earlier) }) := by
    induction n with
    | zero => exact ⟨0, le_rfl, rfl⟩
    | succ n ih =>
        obtain ⟨m, hm, heq⟩ := ih fun m hm => hrunning m (by omega)
        rw [run_add, heq]
        cases hwake : p.wakeAfter limits m with
        | none =>
            have hidle : due (p.after limits m).1
                { c with stage := .fetching ((p.after limits m).2.following earlier) } = none := by
              rw [due_of_planned, hwake]
              rfl
            exact ⟨m, by omega, run_of_idle (by simp [hidle]) 1⟩
        | some a =>
            have hdue : (due (p.after limits m).1
                { c with stage := .fetching ((p.after limits m).2.following earlier) }).isSome =
                true := by
              rw [due_of_planned, hwake]
              rfl
            have hended : ((p.after limits (m + 1)).2.following earlier).outcome? = none :=
              hrunning (m + 1) (by omega)
            refine ⟨m + 1, by omega, ?_⟩
            rw [run_succ_of_due rfl hdue]
            simp only [run, resume, Retry.Plan.resume_after_following, hended]
  obtain ⟨m, -, heq⟩ := hstands
  rw [heq]
  rfl

/--
A run of a request to its end is the run of the planned call, and goes on with what that came to.
-/
theorem run_of_end (c : Call) (hrunning : ∀ m ≤ n, (p.after limits m).2.outcome? = none)
    {outcome : Except Fault (Option Payload)}
    (hend : (p.after limits (n + 1)).2.outcome? = some (t, outcome)) :
    run (n + 1) (p.after limits 0).1
        { c with stage := .fetching ((p.after limits 0).2.following earlier) } =
      { c with stage := .fetching ((p.after limits n).2.following earlier) }.settle
        (p.after limits (n + 1)).1 ((p.after limits (n + 1)).2.following earlier) t outcome := by
  have hwakes : ∀ m ≤ n, (p.wakeAfter limits m).isSome = true := by
    intro m hm
    cases hwake : p.wakeAfter limits m with
    | some a => rfl
    | none =>
        have hstuck := Retry.Plan.after_of_wakeAfter_eq_none hwake (show m ≤ n + 1 by omega)
        rw [hstuck, hrunning m hm] at hend
        simp at hend
  have hdue : (due (p.after limits n).1
      { c with stage := .fetching ((p.after limits n).2.following earlier) }).isSome = true := by
    rw [due_of_planned, Option.isSome_map]
    exact hwakes n le_rfl
  have hended : ((p.after limits (n + 1)).2.following earlier).outcome? = some (t, outcome) := hend
  rw [run_add, run_of_running c hrunning fun m hm => hwakes m hm.le, run_succ_of_due rfl hdue]
  simp only [run, resume, Retry.Plan.resume_after_following, hended]

end Call
end ChainPoll

import ChainPoll.Proofs.Client.Reachable
import ChainPoll.Proofs.Client.Running

/-!
# Calls alone

What a user learns who makes one call on a client that was just made, cancels it after some time, if
at all, and waits for its end.  With nothing beside it a client does nothing but make the moves of
its call, so that the end of the call is the end of a run of it.

Main results:

- Theorem {lit}`Call.run_eq_of_late`: a run goes no further than to a call that is not due.
- Theorem {lit}`Client.reportsAlone_iff_run`: what a call reports that is made alone.
- Theorem {lit}`Client.reportsAlone_of_cancel`: what a call reports that is made alone and
  cancelled.
-/

namespace ChainPoll

/-! ## Reports -/

namespace Call

variable {hub : Hub} {c : Call} {h t : Time} {m n : Nat}

/-- What a call reports: when and how it ended, its requests, and what it noted. -/
structure Report where
  endedAt : Time
  outcome : Except Fault Reading
  requests : List Request
  entries : List Entry

/-- The report of a call that has ended. -/
def report? (c : Call) : Option Report :=
  c.outcome?.map fun a => ⟨a.1, a.2, c.trace.requests, c.trace.entries⟩

/-- A call that has a report has ended. -/
theorem ended_of_report? {report : Report} (h : c.report? = some report) :
    c.outcome?.isSome = true := by
  obtain ⟨a, ha, -⟩ := Option.map_eq_some_iff.mp h
  rw [ha]
  rfl

/-! ## Runs up to an instant -/

/-- Whether a call is not due by an instant. -/
def Late (hub : Hub) (h : Time) (c : Call) : Prop :=
  ∀ t, c.due hub = some t → h < t

/-- Whether the first moves of a run are due by an instant. -/
def DueBy (h : Time) (n : Nat) (hub : Hub) (c : Call) : Prop :=
  ∀ m < n, ∀ t, (run m hub c).2.due (run m hub c).1 = some t → t ≤ h

/-- Moves that are due by an instant are due by a later one. -/
theorem DueBy.mono (hdue : DueBy h n hub c) (hle : h ≤ t) : DueBy t n hub c :=
  fun m hm u hu => (hdue m hm u hu).trans hle

/-- A run goes no further than to a call that is not due. -/
theorem run_of_stuck (hidle : (run m hub c).2.due (run m hub c).1 = none) (hle : m ≤ n) :
    run n hub c = run m hub c := by
  obtain ⟨k, rfl⟩ := Nat.exists_eq_add_of_le hle
  rw [run_add, run_of_idle (by simp [hidle])]

/-- A run goes no further by an instant than to a call that is not due by then. -/
theorem run_eq_of_late (hlate : (run m hub c).2.Late (run m hub c).1 h) (hdue : DueBy h n hub c)
    (hle : m ≤ n) : run n hub c = run m hub c := by
  rcases hle.eq_or_lt with rfl | hlt
  · rfl
  · refine run_of_stuck ?_ hle
    cases hnext : (run m hub c).2.due (run m hub c).1 with
    | none => rfl
    | some t => exact absurd (hdue m hlt t hnext) (not_le.mpr (hlate t hnext))

/-- A call that is due has not ended. -/
theorem outcome?_of_due (hdue : c.due hub = some t) : c.outcome? = none := by
  cases hstage : c.stage with
  | ended endedAt outcome => simp [due, hstage] at hdue
  | fetching inner => simp [outcome?, hstage]

/-- A run of one move more, where a move is due. -/
theorem run_succ_eq_resume (hdue : (run n hub c).2.due (run n hub c).1 = some t) :
    run (n + 1) hub c = (run n hub c).2.resume (run n hub c).1 := by
  rw [run_add, run_succ_of_due (outcome?_of_due hdue) (by rw [hdue]; rfl)]
  rfl

/-! ## The clock of a call -/

/-- The instant since which a call stands where it does. -/
def began (c : Call) : Time :=
  match c.stage with
  | .fetching inner => inner.began
  | .ended endedAt _ => endedAt

/-- A call that has ended stands there since its end. -/
theorem began_of_outcome? {outcome : Except Fault Reading} (h : c.outcome? = some (t, outcome)) :
    c.began = t := by
  cases hstage : c.stage with
  | fetching inner => simp [outcome?, hstage] at h
  | ended endedAt result =>
      simp only [outcome?, hstage, Option.some.injEq, Prod.mk.injEq] at h
      simp only [began, hstage, h.1]

/-- A call never moves before it came to where it stands. -/
theorem began_le_of_due (hdue : c.due hub = some t) : c.began ≤ t := by
  obtain ⟨inner, cause, hstage, hwake⟩ := exists_wake_of_due hdue
  simp only [began, hstage]
  exact Retry.began_le_of_wake hwake

/-- A call that starts its next request stands there since. -/
theorem began_fetch (hub : Hub) (c : Call) (now : Time) : (c.fetch hub now).2.began = now := by
  rcases c.fetch_cases hub now with ⟨-, -, ⟨outcome, houtcome⟩, -⟩ |
    ⟨inner, url, answer, -, -, -, -, hphase, -, -, hstage⟩
  · exact began_of_outcome? houtcome
  · simp only [began, hstage, Retry.began, hphase]
    rfl

/-- A call stands since its begin where that brings it. -/
theorem began_begin (hub : Hub) (now : Time) (station : Station) (query : Query) (limits : Limits)
    (script : Script) : (begin hub now station query limits script).2.began = now := by
  rcases begin_cases hub now station query limits script with
    ⟨-, -, ⟨outcome, houtcome⟩, -⟩ | ⟨c', -, -, hfetch⟩
  · exact began_of_outcome? houtcome
  · rw [hfetch]
    exact began_fetch hub c' now

/-- A call stands since its last move where that brought it. -/
theorem began_resume (hdue : c.due hub = some t) : (c.resume hub).2.began = t := by
  obtain ⟨inner, cause, hstage, hwake⟩ := exists_wake_of_due hdue
  have hbegan := (Retry.moved_resume hwake).began_eq
  rcases resume_cases hub hstage with ⟨-, hresume⟩ | ⟨u, outcome, hended, hresume⟩
  · rw [hresume]
    exact hbegan
  · obtain rfl : u = t := by
      rwa [Retry.began, Retry.phase_of_outcome? hended] at hbegan
    rw [hresume]
    rcases settle_cases (inner.resume hub).1 c (inner.resume hub).2 u outcome with
      ⟨-, -, ⟨result, hresult⟩, -⟩ | ⟨c', -, -, hfetch⟩
    · exact began_of_outcome? hresult
    · rw [hfetch]
      exact began_fetch _ c' u

/-- The clock of a call does not go back in a run. -/
theorem began_run_mono (hub : Hub) (c : Call) (hle : m ≤ n) :
    (run m hub c).2.began ≤ (run n hub c).2.began := by
  induction n, hle using Nat.le_induction with
  | base => exact le_rfl
  | succ n _ ih =>
      refine ih.trans ?_
      cases hdue : (run n hub c).2.due (run n hub c).1 with
      | none => rw [run_of_stuck hdue n.le_succ]
      | some t =>
          rw [run_succ_eq_resume hdue, began_resume hdue]
          exact began_le_of_due hdue

/-- After moves that are due by an instant, the clock of a call has not passed it. -/
theorem began_run_le (hle : c.began ≤ h) (hdue : DueBy h n hub c) :
    (run n hub c).2.began ≤ h := by
  induction n with
  | zero => exact hle
  | succ n ih =>
      cases hnext : (run n hub c).2.due (run n hub c).1 with
      | none =>
          rw [run_of_stuck hnext n.le_succ]
          exact ih fun m hm => hdue m (hm.trans n.lt_succ_self)
      | some t =>
          rw [run_succ_eq_resume hnext, began_resume hnext]
          exact hdue n n.lt_succ_self t hnext

end Call

namespace Client

variable {client : Client} {name : Option String} {c : Call} {now h t span : Time}
  {m n budget : Nat} {order : Assignment}

/-! ## One call -/

/-- A client whose one call has made its first moves. -/
def solo (client : Client) (name : Option String) (c : Call) (now : Time) (n : Nat) :
    Agenda Client Call :=
  ⟨now, { client with hub := (c.run n client.hub).1 }, [(name, (c.run n client.hub).2)]⟩

/-- Whether the call of a client is not due by an instant after its first moves. -/
abbrev LateAfter (client : Client) (c : Call) (h : Time) (n : Nat) : Prop :=
  (c.run n client.hub).2.Late (c.run n client.hub).1 h

/-- One call is the next to move when it is due. -/
theorem next?_solo : (solo client name c now n).next? =
    ((c.run n client.hub).2.due (c.run n client.hub).1).map (·, 0) := by
  simp [Agenda.next?, Agenda.candidates, solo, Agenda.sooner, Timed.due]

/-- A step moves one call that is due by the horizon. -/
theorem step_solo_of_due {horizon : Option Time}
    (hdue : (c.run n client.hub).2.due (c.run n client.hub).1 = some t)
    (hle : ∀ h ∈ horizon, t ≤ h) :
    (solo client name c now n).step horizon =
      some (solo client name c (Time.later now t) (n + 1)) := by
  have hall : (horizon.all fun h => decide (t ≤ h)) = true := by
    simpa [Option.all_eq_true] using hle
  rw [Agenda.step, next?_solo, hdue, Option.map_some]
  dsimp only
  rw [if_pos hall, solo, solo, Call.run_succ_eq_resume hdue]
  rfl

/-- No step moves one call that is not due by the horizon. -/
theorem step_solo_of_late (hlate : client.LateAfter c h n) :
    (solo client name c now n).step (some h) = none := by
  rw [Agenda.step, next?_solo]
  cases hdue : (c.run n client.hub).2.due (c.run n client.hub).1 with
  | none => rfl
  | some t => simp [hlate t hdue]

/-- All moves of one call that are due by an instant are made, as far as the budget goes. -/
theorem run_solo (client : Client) (name : Option String) (c : Call) (hnow : now ≤ h)
    (n budget : Nat) :
    ∃ m later, n ≤ m ∧ now ≤ later ∧ later ≤ h ∧
      (Call.DueBy h n client.hub c → Call.DueBy h m client.hub c) ∧
      (m < n + budget → client.LateAfter c h m) ∧
      (solo client name c now n).run (some h) budget = solo client name c later m := by
  induction budget generalizing now n with
  | zero => exact ⟨n, now, le_rfl, le_rfl, hnow, id, fun hm => absurd hm (lt_irrefl _), rfl⟩
  | succ budget ih =>
      by_cases hlate : client.LateAfter c h n
      · refine ⟨n, now, le_rfl, le_rfl, hnow, id, fun _ => hlate, ?_⟩
        rw [Agenda.run, step_solo_of_late hlate]
      · simp only [Call.Late, not_forall, not_lt] at hlate
        obtain ⟨t, ht, hle⟩ := hlate
        have hlater : Time.later now t ≤ h := by
          rw [Time.later_eq_max]
          exact max_le hnow hle
        have hmade : Call.DueBy h n client.hub c → Call.DueBy h (n + 1) client.hub c := by
          intro hdue m hm u hu
          rcases Nat.lt_succ_iff_lt_or_eq.mp hm with hm | rfl
          · exact hdue m hm u hu
          · rw [ht, Option.some.injEq] at hu
            exact hu ▸ hle
        obtain ⟨m, later, hnm, hnow', hbound, hmoves, hsettled, hrun⟩ := ih hlater (n + 1)
        refine ⟨m, later, by omega, (Time.le_later_left _ _).trans hnow', hbound,
          hmoves ∘ hmade, fun hm => hsettled (by omega), ?_⟩
        rw [Agenda.run, step_solo_of_due ht (by simpa using hle)]
        exact hrun

/-- To wait for the end of one call is to run it. -/
theorem await_solo (client : Client) (name : Option String) (c : Call) (now : Time)
    (n budget : Nat) :
    ∃ later, (solo client name c now n).await 0 budget = solo client name c later (n + budget) := by
  induction budget generalizing now n with
  | zero => exact ⟨now, rfl⟩
  | succ budget ih =>
      have hstuck : (((c.run n client.hub).2.outcome?).isSome ||
          ((c.run n client.hub).2.due (c.run n client.hub).1).isNone) = true →
          solo client name c now n = solo client name c now (n + (budget + 1)) := by
        intro hidle
        rw [solo, solo, Call.run_add, Call.run_of_idle hidle]
      rw [Agenda.await]
      split
      · next hended =>
        have houtcome : ((c.run n client.hub).2.outcome?).isSome = true := by
          simpa [Agenda.hasEnded, solo, Timed.ended] using hended
        exact ⟨now, hstuck (by rw [houtcome]; rfl)⟩
      · cases hdue : (c.run n client.hub).2.due (c.run n client.hub).1 with
        | none =>
            have hstep : (solo client name c now n).step none = none := by
              rw [Agenda.step, next?_solo, hdue, Option.map_none]
            rw [hstep]
            exact ⟨now, hstuck (by simp [hdue])⟩
        | some t =>
            rw [step_solo_of_due hdue (by simp)]
            obtain ⟨later, hawait⟩ := ih (Time.later now t) (n + 1)
            exact ⟨later, hawait.trans (by rw [show n + 1 + budget = n + (budget + 1) by omega])⟩

/-! ## The moves of the user -/

/-- The name under which a user makes a call alone. -/
def soloName : String := "call"

/--
What a user does to make a call, to cancel it after a span, if at all, and to wait for its end.
-/
def soloMoves (order : Assignment) (cancelAfter : Option Time) :
    List (Move Assignment ClientCommand) :=
  .start soloName order ::
    (cancelAfter.elim [] fun span => [.sleep span, .cancel soloName]) ++ [.join soloName]

/-- The report of the call at a position, if it has ended. -/
def reportAt (a : Agenda Client Call) (i : Nat) : Option Call.Report :=
  (Program.taskAt a i).bind Call.report?

/-- Whether a call that is made alone reports something, given moves enough. -/
def ReportsAlone (client : Client) (order : Assignment) (cancelAfter : Option Time)
    (report : Call.Report) : Prop :=
  ∃ least, ∀ budget ≥ least,
    reportAt (Program.run budget (Agenda.start client) (soloMoves order cancelAfter)).1 0 =
      some report

/-- A call that is made alone has one report at most. -/
theorem ReportsAlone.unique {cancelAfter : Option Time} {report report' : Call.Report}
    (h : ReportsAlone client order cancelAfter report)
    (h' : ReportsAlone client order cancelAfter report') : report = report' := by
  obtain ⟨least, hreports⟩ := h
  obtain ⟨least', hreports'⟩ := h'
  have hboth := (hreports (max least least') (le_max_left _ _)).symm.trans
    (hreports' (max least least') (le_max_right _ _))
  exact Option.some.inj hboth

/-- The report of one call is that of a run of it. -/
theorem reportAt_solo :
    reportAt (solo client name c now n) 0 = (c.run n client.hub).2.report? := rfl

/-- The position of the call that a user makes alone. -/
theorem position?_solo :
    (solo client (some soloName) c now n).position? soloName = some 0 := by
  simp [Agenda.position?, solo]

/-- To wait for the end of the call that a user makes alone is to run it. -/
theorem step_join_solo (client : Client) (c : Call) (now : Time) (n budget : Nat) :
    ∃ m later, n + budget ≤ m ∧
      (Program.step budget (solo client (some soloName) c now n)
        (.join soloName : Move Assignment ClientCommand)).1 =
        solo client (some soloName) c later m := by
  obtain ⟨later, hawait⟩ := await_solo client (some soloName) c now n budget
  obtain ⟨m, later', hle, -, -, -, -, hrun⟩ :=
    run_solo client (some soloName) c (le_refl later) (n + budget) budget
  refine ⟨m, later', hle, ?_⟩
  simp only [Program.step, Program.move, position?_solo]
  rw [hawait]
  exact hrun

/-- To let time pass is to make the moves that are due in it. -/
theorem step_sleep_solo (client : Client) (c : Call) (hspan : 0 ≤ span) (n budget : Nat) :
    (Program.step budget (solo client (some soloName) c 0 n)
      (.sleep span : Move Assignment ClientCommand)).1 =
      { (solo client (some soloName) c 0 n).run (some span) budget with now := span }.run
        (some span) budget := by
  have htarget : (0 : Time) + Time.later 0 span = span := by
    rw [Time.later_of_le hspan, zero_add]
  have hnow : (solo client (some soloName) c 0 n).now = 0 := rfl
  simp only [Program.step, Program.move, Agenda.sleep, Agenda.settle, hnow, htarget]

/-- One call under way is cancelled. -/
theorem cancel_solo (hrunning : (c.run n client.hub).2.outcome? = none) (name : Option String)
    (now : Time) :
    ((solo client name c now n).cancel 0).2 =
      solo { client with hub := (c.run n client.hub).1 } name
        ((c.run n client.hub).2.cancel now) now 0 := by
  have hopen : (solo client name c now n).hasEnded 0 = false := by
    simp [Agenda.hasEnded, solo, Timed.ended, hrunning]
  simp only [Agenda.cancel, hopen, Bool.false_eq_true, if_false]
  rfl

/-- A call that has ended is not cancelled any more. -/
theorem step_cancel_solo_of_ended (hended : (c.run n client.hub).2.outcome?.isSome = true)
    (budget : Nat) :
    (Program.step budget (solo client (some soloName) c now n)
      (.cancel soloName : Move Assignment ClientCommand)).1 =
      (solo client (some soloName) c now n).run (some now) budget := by
  have hover : (solo client (some soloName) c now n).hasEnded 0 = true := by
    simpa [Agenda.hasEnded, solo, Timed.ended] using hended
  simp only [Program.step, Program.move, position?_solo, Agenda.cancel, hover, if_true,
    Agenda.settle]
  rfl

/-- A call under way goes on as one that is cancelled. -/
theorem step_cancel_solo_of_running (hrunning : (c.run n client.hub).2.outcome? = none)
    (budget : Nat) :
    (Program.step budget (solo client (some soloName) c now n)
      (.cancel soloName : Move Assignment ClientCommand)).1 =
      (solo { client with hub := (c.run n client.hub).1 } (some soloName)
        ((c.run n client.hub).2.cancel now) now 0).run (some now) budget := by
  have hcancel := cancel_solo hrunning (some soloName) now
  simp only [Program.step, Program.move, position?_solo, Agenda.settle, hcancel]
  rfl

/-! ## What is reported -/

section

variable {begun : Client} (hbegin : client.begin 0 order = (begun, c))

include hbegin

/-- A call that is made alone begins with the moves that are due at once. -/
theorem step_start (budget : Nat) :
    (Program.step budget (Agenda.start client)
      (.start soloName order : Move Assignment ClientCommand)).1 =
      (solo begun (some soloName) c 0 0).run (some 0) budget := by
  obtain ⟨rfl, rfl⟩ : (client.begin 0 order).1 = begun ∧ (client.begin 0 order).2 = c := by
    rw [hbegin]
    exact ⟨rfl, rfl⟩
  rfl

/-- A call that is made alone and not cancelled is run. -/
theorem exists_run_alone (budget : Nat) :
    ∃ n later, budget ≤ n ∧
      (Program.run budget (Agenda.start client) (soloMoves order none)).1 =
        solo begun (some soloName) c later n := by
  obtain ⟨m, now, -, -, -, -, -, hstart⟩ :=
    run_solo begun (some soloName) c (le_refl 0) 0 budget
  obtain ⟨n, later, hle, hjoin⟩ := step_join_solo begun c now m budget
  refine ⟨n, later, by omega, ?_⟩
  rw [← hjoin, ← hstart, ← step_start hbegin]
  rfl

/-- What a call reports that is made alone is what the end of a run of it reports. -/
theorem reportsAlone_iff_run {report : Call.Report} :
    ReportsAlone client order none report ↔
      ∃ n, (c.run n begun.hub).2.report? = some report := by
  constructor
  · rintro ⟨least, hreports⟩
    obtain ⟨n, later, -, hrun⟩ := exists_run_alone hbegin least
    have hreport := hreports least le_rfl
    rw [hrun, reportAt_solo] at hreport
    exact ⟨n, hreport⟩
  · rintro ⟨n, hreport⟩
    refine ⟨n, fun budget hbudget => ?_⟩
    obtain ⟨m, later, hle, hrun⟩ := exists_run_alone hbegin budget
    rw [hrun, reportAt_solo,
      Call.run_of_le (Call.ended_of_report? hreport) (hbudget.trans hle), hreport]

section

variable (hspan : 0 ≤ span) (hdue : Call.DueBy span n begun.hub c)
  (hlate : begun.LateAfter c span n)

include hspan hdue hlate

/-- After some time a call made alone has made all moves that are due by then. -/
theorem step_asleep {budget : Nat} (hbudget : n < budget) :
    (Program.step budget
      (Program.step budget (Agenda.start client)
        (.start soloName order : Move Assignment ClientCommand)).1
      (.sleep span : Move Assignment ClientCommand)).1 = solo begun (some soloName) c span n := by
  obtain ⟨k, now, -, hnonneg, hnonpos, hfirst, -, hstart⟩ :=
    run_solo begun (some soloName) c (le_refl 0) 0 budget
  obtain rfl : now = 0 := le_antisymm hnonpos hnonneg
  obtain ⟨l, passed, -, -, -, hsecond, -, hsleep⟩ :=
    run_solo begun (some soloName) c hspan k budget
  obtain ⟨m, later, -, hpast, hfuture, hthird, hsettled, hsettle⟩ :=
    run_solo begun (some soloName) c (le_refl span) l budget
  obtain rfl : later = span := le_antisymm hfuture hpast
  have hmade : Call.DueBy later m begun.hub c :=
    hthird (hsecond ((hfirst fun _ hm => absurd hm (Nat.not_lt_zero _)).mono hspan))
  -- both runs go as far as moves are due by then
  have hsame : c.run m begun.hub = c.run n begun.hub := by
    rcases le_or_gt n m with hle | hlt
    · exact Call.run_eq_of_late hlate hmade hle
    · exact (Call.run_eq_of_late (hsettled (by omega)) hdue hlt.le).symm
  have hend : solo begun (some soloName) c later m = solo begun (some soloName) c later n := by
    rw [solo, solo, hsame]
  rw [step_start hbegin, hstart, step_sleep_solo begun c hspan, hsleep, ← hend, ← hsettle]
  rfl

/-- A call that has ended by the time of its cancellation reports its end. -/
theorem reportsAlone_of_ended {report : Call.Report}
    (hreport : (c.run n begun.hub).2.report? = some report) :
    ReportsAlone client order (some span) report := by
  refine ⟨n + 1, fun budget hbudget => ?_⟩
  have hended := Call.ended_of_report? hreport
  obtain ⟨k, now, hle, -, -, -, -, hcancel⟩ :=
    run_solo begun (some soloName) c (le_refl span) n budget
  obtain ⟨m, later, hle', hjoin⟩ := step_join_solo begun c now k budget
  have hrun : (Program.run budget (Agenda.start client) (soloMoves order (some span))).1 =
      solo begun (some soloName) c later m := by
    rw [← hjoin, ← hcancel, ← step_cancel_solo_of_ended hended,
      ← step_asleep hbegin hspan hdue hlate hbudget]
    rfl
  rw [hrun, reportAt_solo, Call.run_of_le hended (by omega), hreport]

/--
A call under way at the time of its cancellation reports the end of the call that is cancelled.
-/
theorem reportsAlone_of_cancel (hrunning : (c.run n begun.hub).2.outcome? = none) {k : Nat}
    {report : Call.Report}
    (hreport : (((c.run n begun.hub).2.cancel span).run k (c.run n begun.hub).1).2.report? =
      some report) : ReportsAlone client order (some span) report := by
  refine ⟨max (n + 1) k, fun budget hbudget => ?_⟩
  have hpassed : n < budget := by omega
  have hended := Call.ended_of_report? hreport
  obtain ⟨i, now, -, -, -, -, -, hcancel⟩ :=
    run_solo { begun with hub := (c.run n begun.hub).1 } (some soloName)
      ((c.run n begun.hub).2.cancel span) (le_refl span) 0 budget
  obtain ⟨m, later, hle, hjoin⟩ := step_join_solo { begun with hub := (c.run n begun.hub).1 }
    ((c.run n begun.hub).2.cancel span) now i budget
  have hrun : (Program.run budget (Agenda.start client) (soloMoves order (some span))).1 =
      solo { begun with hub := (c.run n begun.hub).1 } (some soloName)
        ((c.run n begun.hub).2.cancel span) later m := by
    rw [← hjoin, ← hcancel, ← step_cancel_solo_of_running hrunning,
      ← step_asleep hbegin hspan hdue hlate hpassed]
    rfl
  have hkm : k ≤ m := by omega
  rw [hrun, reportAt_solo, Call.run_of_le hended hkm, hreport]

end

end

end Client
end ChainPoll

import ChainPoll.Proofs.Client.Cancelling
import ChainPoll.Proofs.Client.Mirroring

/-!
# The independence of calls

Calls of one client share its signal, its session and nothing else.  As long as the client is not
closed, the signal stays pending and the one session open, so that no call leaves anything for
another one: each of them makes the moves that it makes alone on a client that was just made,
shifted by the time of its begin.

Main results:

- Theorem {lit}`Client.exists_alone_of_reportAt`: what a call reports is what it reports alone.
- Theorem {lit}`Client.exists_report_of_cancel`: so it is when the call is cancelled.
- Theorem {lit}`Client.reportsAsAlone`: so it is in a program.
- Theorem {lit}`Client.calls_independent`: what a call reports is what it reports alone, only later.
-/

namespace ChainPoll
namespace Call

variable {hub hub₀ : Hub} {c c₀ : Call} {timeout t d span : Time} {station : Station} {m n : Nat}

/-! ## Reports -/

/-- The same report, only later. -/
def Report.shift (d : Time) (report : Report) : Report :=
  { report with
    endedAt := d + report.endedAt
    requests := report.requests.map (Request.shift d)
    entries := report.entries.map (Entry.shift d) }

/-- A shifted call reports the same, only later. -/
theorem report?_shift (d : Time) (c : Call) :
    (c.shift d).report? = c.report?.map (Report.shift d) := by
  rw [report?, report?, outcome?_shift, Option.map_map, Option.map_map]
  rfl

/-- A call reports its end as the instant since which it stands there. -/
theorem endedAt_of_report? {report : Report} (h : c.report? = some report) :
    report.endedAt = c.began := by
  obtain ⟨a, ha, rfl⟩ := Option.map_eq_some_iff.mp h
  exact (began_of_outcome? ha).symm

/-- A run that has come to a call that is not due any more has come to its end, if that has come. -/
theorem report?_run_of_late (hlate : (run n hub c).2.Late (run n hub c).1 span) {alone : Report}
    (halone : (run m hub c).2.report? = some alone) (hpast : alone.endedAt ≤ span) :
    (run n hub c).2.report? = some alone := by
  suffices hsame : run n hub c = run m hub c by
    rw [hsame, halone]
  rcases le_or_gt m n with hmn | hnm
  · exact run_of_le (ended_of_report? halone) hmn
  · cases hdue : (run n hub c).2.due (run n hub c).1 with
    | none => exact (run_of_stuck hdue hnm.le).symm
    | some t =>
        -- the next move would come after now, and the end of the call not before that
        have hend : t ≤ (run m hub c).2.began := by
          have hmono := began_run_mono hub c (show n + 1 ≤ m from hnm)
          rwa [run_succ_eq_resume hdue, began_resume hdue] at hmono
        rw [← endedAt_of_report? halone] at hend
        exact absurd (hlate t hdue) (by linarith)

/-- A shifted call is late exactly when the call itself is. -/
theorem late_shift (hopen₀ : hub₀.Open timeout) (hopen : hub.Open timeout) :
    (c.shift d).Late hub (d + span) ↔ c.Late hub₀ span := by
  simp [Late, due_shift hopen₀ hopen]

/-! ## Calls that are cancelled -/

/-- To cancel a call twice at one instant is to cancel it. -/
theorem cancel_cancel (c : Call) (t : Time) : (c.cancel t).cancel t = c.cancel t := by
  cases hstage : c.stage <;> simp [cancel, hstage, Retry.cancel]

/-- A call that is cancelled alone as another one is later ends by that. -/
theorem run_of_cancel (hopen₀ : hub₀.Open timeout) (hopen : hub.Open timeout)
    (hsound : (c₀.shift d).Sound hub (d + span) station) (hrunning : c₀.outcome? = none)
    (hlate : c₀.Late hub₀ span) :
    (c₀.cancel span).due hub₀ = some span ∧
      (run 1 hub₀ (c₀.cancel span)).2.outcome? = some (span, .error .aborted) := by
  have hrunning' : (c₀.shift d).outcome? = none := by
    rw [outcome?_shift, hrunning, Option.map_none]
  obtain ⟨hdue, hended⟩ :=
    hsound.ended_of_cancel hrunning' ((late_shift hopen₀ hopen).mpr hlate)
  rw [cancel_shift, due_shift hopen₀ hopen] at hdue
  rw [cancel_shift, resume_shift hopen₀ hopen, outcome?_shift] at hended
  obtain ⟨t, ht, htime⟩ := Option.map_eq_some_iff.mp hdue
  obtain rfl : t = span := add_left_cancel htime
  obtain ⟨⟨u, outcome⟩, houtcome, hend⟩ := Option.map_eq_some_iff.mp hended
  simp only [Prod.mk.injEq, add_right_inj] at hend
  obtain ⟨rfl, rfl⟩ := hend
  refine ⟨ht, ?_⟩
  rw [run_succ_of_due (outcome?_of_due ht) (by rw [ht]; rfl)]
  exact houtcome

end Call

namespace Client

variable {client : Client} {name : Option String} {c : Call} {a b e b' : Agenda Client Call}
  {es fs gs : List Happening} {ts : List Time} {timeout d t : Time} {i : Nat} {address : String}
  {policy : Policy} {order : Assignment}

/-! ## Reports alone -/

/-- A call reports what its mirror reports, only later. -/
theorem Mirrors.reportAt_eq (h : Mirrors timeout d i b b') :
    Program.taskAt b i = (Program.taskAt b' 0).map (Call.shift d) ∧
      reportAt b i = (reportAt b' 0).map (Call.Report.shift d) := by
  obtain ⟨name, name', c, hx, htasks⟩ := h.task
  simp [reportAt, Program.taskAt, hx, htasks, Call.report?_shift]

/-- A call alone that was cancelled is to end now by that, or has ended by that. -/
theorem Alone.cases_of_cancel (h : Alone (solo client name (c.cancel t) t 0) ts b)
    (hdue : (c.cancel t).due client.hub = some t)
    (hended : ((c.cancel t).run 1 client.hub).2.outcome?.isSome = true) :
    b = solo client name (c.cancel t) t 0 ∨ b = solo client name (c.cancel t) b.now 1 := by
  have hover : ∀ u, (solo client name (c.cancel t) u 1).dueAt 0 = none := fun u =>
    dueAt_solo.trans (due_eq_none_of_ended hended)
  induction h with
  | start => exact .inl rfl
  | move _ he ih =>
      cases he with
      | move hdue' _ =>
          rcases ih with rfl | hb
          · obtain rfl : t = _ := Option.some.inj (hdue.symm.trans hdue')
            exact .inr (resumeAt_solo hdue')
          · rw [hb, hover] at hdue'
            simp at hdue'
  | @pass b _ _ u _ he ih =>
      cases he with
      | pass hnow hquiet =>
          rcases ih with rfl | hb
          · obtain rfl : t = u := le_antisymm hnow (hquiet 0 t hdue)
            exact .inl rfl
          · exact .inr (by rw [hb]; rfl)
  | @cancel b _ _ ih =>
      rcases ih with rfl | hb
      · have hrunning : (solo client name (c.cancel t) t 0).hasEnded 0 = false := by
          simpa [Agenda.hasEnded, solo, Timed.ended, Call.run] using Call.outcome?_of_due hdue
        left
        simp only [Agenda.cancel, hrunning, Bool.false_eq_true, if_false]
        simp [solo, Call.run, Timed.cancel, Call.cancel_cancel]
      · have hended' : (solo client name (c.cancel t) b.now 1).hasEnded 0 = true := by
          simpa [Agenda.hasEnded, solo, Timed.ended] using hended
        have hsame : (b.cancel 0).2 = b := by
          rw [hb]
          simp only [Agenda.cancel, hended', if_true]
        rw [hsame]
        exact .inr hb

/-- What a call reports that had ended when it was cancelled. -/
theorem reportAt_of_ended {a b : Agenda Client Call} {x : Option String × Call}
    (hx : a.tasks[i]? = some x) (hended : x.2.outcome?.isSome = true) {fs : List Happening}
    (hb : Program.Schedule (a.cancel i).2 fs b) : reportAt b i = x.2.report? := by
  have hover : a.hasEnded i = true := by
    simpa [Agenda.hasEnded, hx, Timed.ended] using hended
  have hsame : (a.cancel i).2 = a := by
    simp [Agenda.cancel, hover]
  rw [hsame] at hb
  have hkept := hb.getElem?_of_ended (fun _ _ => due_eq_none_of_ended) hx hended
  simp [reportAt, Program.taskAt, hkept]

/-! ## Calls side by side -/

section

variable {begun : Client}
  (h : Program.Schedule (Agenda.start (make address policy timeout)) es a)
  (hbegin : (make address policy timeout).begin 0 order = (begun, c))
  (hb : Program.Cancels a.tasks.length (Program.begin a name order) fs b [])
  (hopen : b.shared.closed b.now = false)

include h hbegin hb hopen

/-- A call that is not cancelled stands as after some moves of the run of it that is made alone. -/
theorem exists_run_of_schedule :
    ∃ n span, 0 ≤ span ∧ b.now = a.now + span ∧ Call.DueBy span n begun.hub c ∧
      Mirrors timeout a.now a.tasks.length b (solo begun none c span n) := by
  obtain ⟨b', halone, hmirrors⟩ := exists_mirror h hb hopen
  have hsolo : Program.begin (Agenda.start (make address policy timeout)) none order =
      solo begun none c 0 0 := by
    obtain ⟨rfl, rfl⟩ := Prod.mk.inj hbegin
    rfl
  rw [hsolo] at halone
  obtain ⟨n, hb', hle, hmade⟩ := halone.exists_run
  exact ⟨n, b'.now, hle, hmirrors.now_eq, hmade, hb' ▸ hmirrors⟩

/-- What a call reports that is not cancelled is what it reports alone, only later. -/
theorem exists_alone_of_reportAt {report : Call.Report}
    (hreport : reportAt b a.tasks.length = some report) :
    ∃ alone, ReportsAlone (make address policy timeout) order none alone ∧
      report = alone.shift a.now ∧ report.endedAt ≤ b.now := by
  obtain ⟨n, span, hspan, hnow, hmade, hmirrors⟩ := exists_run_of_schedule h hbegin hb hopen
  rw [hmirrors.reportAt_eq.2] at hreport
  obtain ⟨alone, halone, rfl⟩ := Option.map_eq_some_iff.mp hreport
  refine ⟨alone, (reportsAlone_iff_run hbegin).mpr ⟨n, halone⟩, rfl, ?_⟩
  have hstart : c.began ≤ span := by
    obtain ⟨-, rfl⟩ := Prod.mk.inj hbegin
    exact (Call.began_begin _ _ _ _ _ _).le.trans hspan
  have hbegan := Call.began_run_le hstart hmade
  rw [← Call.endedAt_of_report? halone] at hbegan
  rw [hnow]
  exact add_le_add_right hbegan a.now

omit hbegin in
/-- A call that is not due now stands as one that is not due alone. -/
theorem lateAfter_of_idle (hidle : b.dueAt a.tasks.length ≠ some b.now)
    {span : Time} {n : Nat} (hnow : b.now = a.now + span)
    (hmirrors : Mirrors timeout a.now a.tasks.length b (solo begun none c span n)) :
    begun.LateAfter c span n := by
  have hafter := (h.snoc (.begin name order)).append hb.schedule
  have hhub := open_of_schedule hafter .nil hopen
  intro u hu
  have hdue : b.dueAt a.tasks.length = some (a.now + u) := by
    rw [hmirrors.dueAt_eq hhub, dueAt_solo, hu, Option.map_some]
  have hle := le_of_dueAt hafter hdue
  have hne : b.now ≠ a.now + u := fun heq => hidle (hdue.trans (congrArg some heq.symm))
  exact lt_of_add_lt_add_left (hnow ▸ lt_of_le_of_ne hle hne)

/-- A call that is not cancelled reports what it reports alone as soon as its end has come. -/
theorem reportAt_of_alone {alone : Call.Report}
    (halone : ReportsAlone (make address policy timeout) order none alone)
    (hpast : a.now + alone.endedAt ≤ b.now) :
    reportAt b a.tasks.length = some (alone.shift a.now) ∨
      b.dueAt a.tasks.length = some b.now := by
  by_cases hidle : b.dueAt a.tasks.length = some b.now
  · exact .inr hidle
  left
  obtain ⟨n, span, -, hnow, -, hmirrors⟩ := exists_run_of_schedule h hbegin hb hopen
  obtain ⟨m, hrun⟩ := (reportsAlone_iff_run hbegin).mp halone
  have hlate := lateAfter_of_idle h hb hopen hidle hnow hmirrors
  rw [hnow] at hpast
  rw [hmirrors.reportAt_eq.2, reportAt_solo,
    Call.report?_run_of_late hlate hrun (le_of_add_le_add_left hpast), Option.map_some]

/--
A call that is cancelled, and not due then, reports what it reports alone when it is cancelled so.
-/
theorem exists_report_of_cancel (hidle : b.dueAt a.tasks.length ≠ some b.now)
    (he : Program.Schedule (b.cancel a.tasks.length).2 gs e)
    (hopen' : e.shared.closed e.now = false) :
    ∃ alone, ReportsAlone (make address policy timeout) order (some (b.now - a.now)) alone ∧
      (reportAt e a.tasks.length = some (alone.shift a.now) ∨
        e.dueAt a.tasks.length = some e.now) := by
  have hafter := (h.snoc (.begin name order)).append hb.schedule
  obtain ⟨n, span, hspan, hnow, hmade, hmirrors⟩ := exists_run_of_schedule h hbegin hb hopen
  have hlate := lateAfter_of_idle h hb hopen hidle hnow hmirrors
  rw [show b.now - a.now = span by rw [hnow]; ring]
  obtain ⟨name, name', c', hx, htasks⟩ := hmirrors.task
  obtain ⟨-, rfl⟩ : none = name' ∧ (c.run n begun.hub).2 = c' := by simpa [solo] using htasks
  cases houtcome : (c.run n begun.hub).2.outcome? with
  | some outcome =>
      obtain ⟨alone, halone⟩ : ∃ alone, (c.run n begun.hub).2.report? = some alone :=
        ⟨_, by rw [Call.report?, houtcome, Option.map_some]⟩
      have hended : ((c.run n begun.hub).2.shift a.now).outcome?.isSome = true := by
        rw [Call.outcome?_shift, houtcome]
        rfl
      refine ⟨alone, reportsAlone_of_ended hbegin hspan hmade hlate halone, .inl ?_⟩
      rw [reportAt_of_ended hx hended he, Call.report?_shift, halone, Option.map_some]
  | none =>
      have hopen₀ : (c.run n begun.hub).1.Open timeout := hmirrors.hub
      have hsound := ((single_of_schedule hafter).task _ _ hx).1
      rw [hnow] at hsound
      obtain ⟨hdue, hended⟩ := Call.run_of_cancel hopen₀ (open_of_schedule hafter .nil hopen)
        hsound houtcome hlate
      obtain ⟨alone, halone⟩ : ∃ alone, (((c.run n begun.hub).2.cancel span).run 1
          (c.run n begun.hub).1).2.report? = some alone :=
        ⟨_, by rw [Call.report?, hended, Option.map_some]⟩
      refine ⟨alone, reportsAlone_of_cancel hbegin hspan hmade hlate houtcome halone, ?_⟩
      -- the mirror was cancelled as the call was
      have hcut := hmirrors.cancel
      rw [cancel_solo houtcome] at hcut
      have hlast := hafter.snoc (.cancel a.tasks.length)
      obtain ⟨us, hus⟩ := he.exists_cancels a.tasks.length
      obtain ⟨e', halone', hmirrors'⟩ := hcut.cancels hlast hus hopen'
      rcases halone'.cases_of_cancel hdue (by rw [hended]; rfl) with hend | hend
      · right
        rw [hend] at hmirrors'
        rw [hmirrors'.dueAt_eq (open_of_schedule (hlast.append he) .nil hopen'), dueAt_solo,
          hmirrors'.now_eq]
        exact congrArg (Option.map (a.now + ·)) hdue
      · left
        rw [hmirrors'.reportAt_eq.2, hend, reportAt_solo, halone, Option.map_some]

end

/--
Whether a call that was begun in one state is independent of all others in a later one, before which
it was cancelled at certain instants: what it reports, and when, is what it reports alone on a
client that was just made, later by the time of its begin.
-/
structure Independent (client : Client) (order : Assignment) (a b : Agenda Client Call)
    (ts : List Time) : Prop where
  oneSession : OneSession b
  /--
  The call stands as it may do alone, cancelled at the same instants, only later.  Where a
  cancellation meets a move of the call itself, they come in the same order alone.
  -/
  mirrored : ∃ b', Alone (Program.begin (Agenda.start client) none order) (ts.map (· - a.now)) b' ∧
    b.now = a.now + b'.now ∧
    Program.taskAt b a.tasks.length = (Program.taskAt b' 0).map (Call.shift a.now) ∧
    reportAt b a.tasks.length = (reportAt b' 0).map (Call.Report.shift a.now)
  /-- A call that is not cancelled reports what it reports alone. -/
  reports (hts : ts = []) {report : Call.Report}
    (hreport : reportAt b a.tasks.length = some report) :
    ∃ alone, ReportsAlone client order none alone ∧ report = alone.shift a.now ∧
      report.endedAt ≤ b.now
  /-- It reports its end as soon as that has come, unless it is to move just now. -/
  ends (hts : ts = []) {alone : Call.Report} (halone : ReportsAlone client order none alone)
    (hpast : a.now + alone.endedAt ≤ b.now) :
    reportAt b a.tasks.length = some (alone.shift a.now) ∨ b.dueAt a.tasks.length = some b.now
  /--
  If it is cancelled now, it reports what it reports alone when cancelled after as much time.  That
  is one report only, but for a call that is due just now: which of the two comes first is open
  then, here as alone.
  -/
  cancelled (hts : ts = []) {gs : List Happening} {e : Agenda Client Call}
    (he : Program.Schedule (b.cancel a.tasks.length).2 gs e)
    (hopen : e.shared.closed e.now = false) :
    b.dueAt a.tasks.length = some b.now ∨
      ∃ alone, ReportsAlone client order (some (b.now - a.now)) alone ∧
        (reportAt e a.tasks.length = some (alone.shift a.now) ∨
          e.dueAt a.tasks.length = some e.now)

/-- Along every schedule that does not close the client a call is independent. -/
theorem independent (h : Program.Schedule (Agenda.start (make address policy timeout)) es a)
    (hb : Program.Cancels a.tasks.length (Program.begin a name order) fs b ts)
    (hopen : b.shared.closed b.now = false) :
    Independent (make address policy timeout) order a b ts := by
  have hwhole := (h.snoc (.begin name order)).append hb.schedule
  refine ⟨oneSession_of_schedule hwhole hopen, ?_, ?_, ?_, ?_⟩
  · obtain ⟨b', halone, hmirrors⟩ := exists_mirror h hb hopen
    exact ⟨b', halone, hmirrors.now_eq, hmirrors.reportAt_eq⟩
  · rintro rfl report hreport
    exact exists_alone_of_reportAt h rfl hb hopen hreport
  · rintro rfl alone halone hpast
    exact reportAt_of_alone h rfl hb hopen halone hpast
  · rintro rfl gs e he hopen'
    by_cases hidle : b.dueAt a.tasks.length = some b.now
    · exact .inl hidle
    · exact .inr (exists_report_of_cancel h rfl hb hopen hidle he hopen')

/-! ## Calls in programs -/

/-- A client whose hub is open is not closed. -/
theorem closed_eq_false (hopen : client.hub.Open timeout) (now : Time) :
    client.closed now = false := by
  simp [closed, Signal.given, hopen.pending, Time.reached]

/--
Whether a call that was begun at an instant, and cancelled at another one, if at all, reports what
it reports alone on a client that was just made, cancelled after as much time, only later.
-/
structure ReportsAsAlone (client : Client) (order : Assignment) (begunAt : Time)
    (cancelledAt : Option Time) (b : Agenda Client Call) (i : Nat) : Prop where
  oneSession : OneSession b
  reports (report : Call.Report) (hreport : reportAt b i = some report) :
    ∃ alone, ReportsAlone client order (cancelledAt.map (· - begunAt)) alone ∧
      report = alone.shift begunAt
  ends (alone : Call.Report)
    (halone : ReportsAlone client order (cancelledAt.map (· - begunAt)) alone)
    (hpast : begunAt + alone.endedAt ≤ b.now) : reportAt b i = some (alone.shift begunAt)

/-- A call in a program reports what it reports alone. -/
theorem reportsAsAlone {budget : Nat} {ms ns : List (Move Assignment ClientCommand)}
    {m : Move Assignment ClientCommand}
    (hsuffices : Program.SufficesAll budget
      (Agenda.start (make address policy timeout) : Agenda Client Call) (ms ++ m :: ns))
    (ha : (Program.run budget (Agenda.start (make address policy timeout)) ms).1 = a)
    (hb : (Program.run budget a (m :: ns)).1 = b) (horder : Program.order? m = some (name, order))
    (hopen : b.shared.closed b.now = false) :
    ReportsAsAlone (make address policy timeout) order a.now
      (Program.cancelledAt? budget a.tasks.length (Program.step budget a m).1 ns) b
      a.tasks.length := by
  obtain ⟨hbefore, hmove, hafter⟩ := Program.sufficesAll_append.mp hsuffices
  rw [ha] at hmove hafter
  obtain ⟨es, hes⟩ := Program.exists_schedule_program hbefore
  rw [ha] at hes
  obtain ⟨fs, hfs⟩ := Program.cancels_step (τ := Call) horder a.tasks.length
  have hquiet := Program.settled_step hmove
  have hidle : b.dueAt a.tasks.length ≠ some b.now := fun hdue =>
    lt_irrefl _ (hb ▸ Program.settled_run hquiet hafter _ _ (hb ▸ hdue))
  rcases Program.cancels_program hfs hquiet hafter with
    ⟨hnone, gs, hgs⟩ | ⟨c, gs, hs, hgs, hsettled, hsome, hhs⟩
  · rw [show (Program.run budget (Program.step budget a m).1 ns).1 = b from hb] at hgs
    have hind := independent hes hgs hopen
    rw [hnone]
    refine ⟨hind.oneSession, fun report hreport => ?_, fun alone halone hpast => ?_⟩
    · obtain ⟨alone, halone, hsame, -⟩ := hind.reports rfl hreport
      exact ⟨alone, halone, hsame⟩
    · exact (hind.ends rfl halone hpast).resolve_right hidle
  · rw [show (Program.run budget (Program.step budget a m).1 ns).1 = b from hb] at hhs
    have hcancel := (Program.Schedule.nil.snoc (.cancel a.tasks.length)).append hhs
    have hwhole := (hes.snoc (.begin name order)).append (hgs.schedule.append hcancel)
    have hopen' := closed_eq_false
      (open_of_schedule ((hes.snoc (.begin name order)).append hgs.schedule) hcancel hopen) c.now
    -- nothing was due when the call was cancelled
    obtain ⟨alone, halone, hreport⟩ :=
      exists_report_of_cancel hes rfl hgs hopen' (fun hdue => lt_irrefl _ (hsettled _ _ hdue))
        hhs hopen
    have hreport' := hreport.resolve_right hidle
    rw [hsome]
    refine ⟨oneSession_of_schedule hwhole hopen, fun report hsame => ?_, fun other hother _ => ?_⟩
    · exact ⟨alone, halone, Option.some.inj (hsame.symm.trans hreport')⟩
    · rw [hother.unique halone, hreport']

/--
Calls of a client do not interfere as long as it is not closed.  Whatever other calls were made
before and are made beside a call, and whatever becomes of them, the call is independent of them,
and so it is when it is cancelled, at any instants.  In a program, where a user goes on when nothing
is due any more, its report is just the one that it gives alone.
-/
theorem calls_independent (address : String) (policy : Policy) (timeout : Time) :
    (∀ (es fs : List Happening) (a b : Agenda Client Call) (ts : List Time)
        (name : Option String) (order : Assignment),
      Program.Schedule (Agenda.start (make address policy timeout)) es a →
      Program.Cancels a.tasks.length (Program.begin a name order) fs b ts →
      b.shared.closed b.now = false →
      Independent (make address policy timeout) order a b ts) ∧
    ∀ (budget : Nat) (ms ns : List (Move Assignment ClientCommand))
        (m : Move Assignment ClientCommand) (a b : Agenda Client Call) (name : Option String)
        (order : Assignment),
      Program.SufficesAll budget (Agenda.start (make address policy timeout) : Agenda Client Call)
        (ms ++ m :: ns) →
      (Program.run budget (Agenda.start (make address policy timeout)) ms).1 = a →
      (Program.run budget a (m :: ns)).1 = b → Program.order? m = some (name, order) →
      b.shared.closed b.now = false →
      ReportsAsAlone (make address policy timeout) order a.now
        (Program.cancelledAt? budget a.tasks.length (Program.step budget a m).1 ns) b
        a.tasks.length :=
  ⟨fun _ _ _ _ _ _ _ h hb hopen => independent h hb hopen,
    fun _ _ _ _ _ _ _ _ hsuffices ha hb horder hopen =>
      reportsAsAlone hsuffices ha hb horder hopen⟩

/-- A client with one call, whose attempts all fail at once. -/
def failing : Agenda Client Call :=
  Program.begin (Agenda.start (make "http://h" ⟨1, 1⟩ 5)) none
    ⟨.checkpoint, none, ⟨.failure (.lasting 0) .overdue, []⟩⟩

/-- The same client between the first two attempts of its call. -/
def resting : Agenda Client Call :=
  { failing.resumeAt 0 0 with now := 1 / 2 }

/-- A call that is answered after a second. -/
def answered : Assignment :=
  ⟨.milestone, some 3, ⟨.reply (.lasting 1) 204 (.lasting 0) (.ok .empty), []⟩⟩

/-- The client with that call beside the other one. -/
def asked : Agenda Client Call :=
  Program.begin resting none answered

/-- The client after another attempt of the other call has failed. -/
def awaiting : Agenda Client Call :=
  (asked.resumeAt 1 0).resumeAt 1 0

/-- The call has ended by its answer. -/
def told : Agenda Client Call :=
  awaiting.resumeAt (3 / 2) 1

/-- The call was cancelled before its answer came, and has ended by that. -/
def withdrawn : Agenda Client Call :=
  (Agenda.cancel 1 { asked with now := 3 / 4 }).2.resumeAt (3 / 4) 1

/-- The call was cancelled when its answer came, and has ended by that. -/
def crossed : Agenda Client Call :=
  (Agenda.cancel 1 { awaiting with now := 3 / 2 }).2.resumeAt (3 / 2) 1

/-- The client comes to rest there. -/
theorem exists_schedule_resting :
    ∃ es : List Happening,
      Program.Schedule (Agenda.start (make "http://h" ⟨1, 1⟩ 5)) es resting := by
  have hfirst : failing.next? = some (0, 0) := by decide +kernel
  have hsecond : (failing.resumeAt 0 0).next? = some (1, 0) := by decide +kernel
  exact ⟨_, ((Program.Schedule.nil.snoc (.begin none _)).snoc
    (Program.happens_of_next? hfirst)).snoc
      (Program.happens_pass_of_next? hsecond (by decide +kernel) (by norm_num))⟩

/-- The client comes there without a cancellation. -/
theorem exists_cancels_awaiting :
    ∃ fs : List Happening, Program.Cancels 1 asked fs awaiting [] := by
  have hfirst : asked.next? = some (1, 0) := by decide +kernel
  have hsecond : (asked.resumeAt 1 0).next? = some (1, 0) := by decide +kernel
  exact ⟨_, (Program.Cancels.nil.other (Program.happens_of_next? hfirst) (by simp)).other
    (Program.happens_of_next? hsecond) (by simp)⟩

/-- What a user does who lets a call fail again and again. -/
def preparing : List (Move Assignment ClientCommand) :=
  [.start "other" ⟨.checkpoint, none, ⟨.failure (.lasting 0) .overdue, []⟩⟩, .sleep (1 / 2)]

/-- The client of that user. -/
def prepared : Agenda Client Call :=
  (Program.run 8 (Agenda.start (make "http://h" ⟨1, 1⟩ 5)) preparing).1

/-- What a user does who cancels a call just when its answer comes. -/
def crossing : List (Move Assignment ClientCommand) :=
  [.sleep 1, .cancel "call"]

/-- A call made beside one that fails again and again is independent of it, however it ends. -/
theorem answered_independent :
    (∃ report alone, reportAt told 1 = some report ∧ report.endedAt = 3 / 2 ∧
      ReportsAlone (make "http://h" ⟨1, 1⟩ 5) answered none alone ∧
      report = alone.shift (1 / 2) ∧ reportAt told 1 = some (alone.shift (1 / 2))) ∧
    (∃ alone, ReportsAlone (make "http://h" ⟨1, 1⟩ 5) answered (some (1 / 4)) alone ∧
      reportAt withdrawn 1 = some (alone.shift (1 / 2))) ∧
    Independent (make "http://h" ⟨1, 1⟩ 5) answered resting crossed [3 / 2] ∧
    ∃ alone, ReportsAlone (make "http://h" ⟨1, 1⟩ 5) answered (some 1) alone ∧
      reportAt (Program.run 8 prepared (.start "call" answered :: crossing)).1 1 =
        some (alone.shift (1 / 2)) := by
  have hnext : asked.next? = some (1, 0) := by decide +kernel
  have hlast : awaiting.next? = some (3 / 2, 1) := by decide +kernel
  obtain ⟨es, hschedule⟩ := exists_schedule_resting
  obtain ⟨fs, hwaits⟩ := exists_cancels_awaiting
  obtain ⟨hindependent, hprograms⟩ := calls_independent "http://h" ⟨1, 1⟩ 5
  refine ⟨?_, ?_, ?_, ?_⟩
  · have htold : Independent (make "http://h" ⟨1, 1⟩ 5) answered resting told [] :=
      hindependent _ _ _ _ _ none answered hschedule
      (hwaits.other (Program.happens_of_next? hlast) (by simp)) (by decide +kernel)
    have hend : (reportAt told resting.tasks.length).map Call.Report.endedAt = some (3 / 2) := by
      decide +kernel
    obtain ⟨report, hreport, hendedAt⟩ := Option.map_eq_some_iff.mp hend
    obtain ⟨alone, halone, hsame, hpast⟩ := htold.reports rfl hreport
    rw [show resting.now = 1 / 2 from rfl] at hsame
    subst hsame
    have hidle : told.dueAt resting.tasks.length = none := by decide +kernel
    have hended := (htold.ends rfl halone hpast).resolve_right fun h =>
      absurd (hidle.symm.trans h) (by simp)
    rw [show resting.tasks.length = 1 from rfl] at hreport
    rw [show resting.tasks.length = 1 from rfl, show resting.now = 1 / 2 from rfl] at hended
    exact ⟨_, alone, hreport, hendedAt, halone, rfl, hended⟩
  · have hasked : Independent (make "http://h" ⟨1, 1⟩ 5) answered resting
        { asked with now := 3 / 4 } [] := hindependent _ _ _ _ _ none answered hschedule
      (Program.Cancels.nil.other (Program.happens_pass_of_next? hnext (u := 3 / 4)
        (by decide +kernel) (by norm_num)) (by simp)) (by decide +kernel)
    have hcancel : (Agenda.cancel 1 { asked with now := 3 / 4 }).2.next? = some (3 / 4, 1) := by
      decide +kernel
    have hend : Program.Schedule (Agenda.cancel resting.tasks.length { asked with now := 3 / 4 }).2
        ([] ++ [.move 1] : List Happening) withdrawn :=
      .snoc .nil (Program.happens_of_next? hcancel)
    have hidle : Agenda.dueAt { asked with now := 3 / 4 } resting.tasks.length ≠ some (3 / 4) := by
      decide +kernel
    have hopen : withdrawn.shared.closed withdrawn.now = false := by decide +kernel
    obtain ⟨alone, halone, hreport⟩ := (hasked.cancelled rfl hend hopen).resolve_left hidle
    refine ⟨alone, ?_, ?_⟩
    · convert halone using 2
      decide +kernel
    · have hidle : withdrawn.dueAt 1 = none := by decide +kernel
      exact hreport.resolve_right fun h => absurd (hidle.symm.trans h) (by simp)
  · have hcancel : (Agenda.cancel 1 { awaiting with now := 3 / 2 }).2.next? = some (3 / 2, 1) := by
      decide +kernel
    exact hindependent _ _ _ _ _ none answered hschedule
      ((hwaits.other (Program.happens_pass_of_next? hlast (u := 3 / 2) (by decide +kernel) le_rfl)
        (by simp)).cancel.other (Program.happens_of_next? hcancel) (by simp)) (by decide +kernel)
  · obtain ⟨-, hreports, -⟩ := hprograms 8 preparing crossing (.start "call" answered) prepared _ _
      answered (by decide +kernel) rfl rfl rfl (by decide +kernel)
    have hcancelled : (Program.cancelledAt? 8 prepared.tasks.length
        (Program.step 8 prepared (.start "call" answered)).1 crossing).map (· - prepared.now) =
          some 1 := by decide +kernel
    have hended : (reportAt (Program.run 8 prepared (.start "call" answered :: crossing)).1
        prepared.tasks.length).isSome := by decide +kernel
    obtain ⟨report, hreport⟩ := Option.isSome_iff_exists.mp hended
    obtain ⟨alone, halone, rfl⟩ := hreports report hreport
    rw [hcancelled] at halone
    rw [show prepared.tasks.length = 1 by decide +kernel,
      show prepared.now = 1 / 2 by decide +kernel] at hreport
    exact ⟨alone, halone, hreport⟩

end Client
end ChainPoll

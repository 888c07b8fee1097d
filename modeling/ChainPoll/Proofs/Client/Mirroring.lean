import ChainPoll.Proofs.Client.Alone
import ChainPoll.Proofs.Client.OneSession
import ChainPoll.Proofs.Timeline.Programs

/-!
# The mirror of a call

A call that is made among others has a mirror: the same call, made alone on a client that was just
made. Whatever happens among the others, the mirror takes the same moves and the same cancellations
at the same instants, counted from its begin, in the same order; what happens to other calls is time
that passes for it.  So the two stand alike at every instant.

Main results:

- Theorem {lit}`Client.Mirrors.happens`: the mirror goes along with what happens.
- Theorem {lit}`Client.Mirrors.cancels`: it does so along schedules.
- Theorem {lit}`Client.exists_mirror`: a call has a mirror along every schedule.
- Theorem {lit}`Client.Alone.exists_run`: a mirror that is not cancelled makes a run of its call.
-/

namespace ChainPoll

namespace Client

variable {client : Client} {name : Option String} {c : Call} {hub : Hub}
  {a b e a' b' : Agenda Client Call} {es fs : List Happening} {ev : Happening} {ts : List Time}
  {timeout d t u : Time} {i n : Nat}

/-! ## Calls alone -/

/--
What may have become of the first call of a client when nothing happens beside it, and it is
cancelled at certain instants: it moves when it is due, and time passes.
-/
inductive Alone (a : Agenda Client Call) : List Time → Agenda Client Call → Prop where
  | start : Alone a [] a
  | move {b c : Agenda Client Call} {ts : List Time} (h : Alone a ts b)
      (he : Program.Happens b (.move 0 : Happening) c) : Alone a ts c
  | pass {b c : Agenda Client Call} {ts : List Time} {t : Time} (h : Alone a ts b)
      (he : Program.Happens b (.pass t : Happening) c) : Alone a ts c
  | cancel {b : Agenda Client Call} {ts : List Time} (h : Alone a ts b) :
      Alone a (ts ++ [b.now]) (b.cancel 0).2

/-- When the one call of a client is due. -/
theorem dueAt_solo : (solo client name c t n).dueAt 0 =
    (c.run n client.hub).2.due (c.run n client.hub).1 := rfl

/-- One call that is due makes the next move of its run. -/
theorem resumeAt_solo (hdue : (solo client name c t n).dueAt 0 = some u) :
    (solo client name c t n).resumeAt u 0 =
      solo client name c (Time.later t u) (n + 1) := by
  rw [dueAt_solo] at hdue
  rw [solo, solo, Call.run_succ_eq_resume hdue]
  rfl

/-- One call that is not cancelled makes a run, all of whose moves were due by now. -/
theorem Alone.exists_run (h : Alone (solo client name c t 0) [] b) :
    ∃ n, b = solo client name c b.now n ∧ t ≤ b.now ∧ Call.DueBy b.now n client.hub c := by
  generalize hts : ([] : List Time) = ts at h
  induction h with
  | start => exact ⟨0, rfl, le_rfl, fun m hm => absurd hm (Nat.not_lt_zero m)⟩
  | @move b c' ts _ he ih =>
      obtain ⟨n, hb, hle, hmade⟩ := ih hts
      cases he with
      | @move _ u hdue _ =>
          rw [hb] at hdue
          have hnow : b.now ≤ Time.later b.now u := Time.le_later_left _ _
          rw [hb, resumeAt_solo hdue]
          refine ⟨n + 1, rfl, hle.trans hnow, fun m hm v hv => ?_⟩
          rcases Nat.lt_succ_iff_lt_or_eq.mp hm with hm | rfl
          · exact (hmade m hm v hv).trans hnow
          · obtain rfl : u = v := Option.some.inj (hdue.symm.trans hv)
            exact Time.le_later_right _ _
  | @pass b c' ts u _ he ih =>
      obtain ⟨n, hb, hle, hmade⟩ := ih hts
      cases he with
      | pass hnow _ => exact ⟨n, by rw [hb]; rfl, hle.trans hnow, hmade.mono hnow⟩
  | cancel _ _ => simp at hts

/-! ## Mirrors -/

/--
Whether the one call of a client stands as a call of another client did a span of time before.
-/
structure Mirrors (timeout d : Time) (i : Nat) (b b' : Agenda Client Call) : Prop where
  now_eq : b.now = d + b'.now
  hub : b'.shared.hub.Open timeout
  task : ∃ (name name' : Option String) (c : Call),
    b.tasks[i]? = some (name, c.shift d) ∧ b'.tasks = [(name', c)]

/-- A call and its mirror are due alike. -/
theorem Mirrors.dueAt_eq (h : Mirrors timeout d i b b') (hopen : b.shared.hub.Open timeout) :
    b.dueAt i = (b'.dueAt 0).map (d + ·) := by
  obtain ⟨name, name', c, hx, htasks⟩ := h.task
  simp only [Agenda.dueAt, hx, htasks, List.getElem?_cons_zero, Option.bind_some, Timed.due,
    Call.due_shift h.hub hopen]

/-- Nothing but its one call is due in the mirror. -/
theorem Mirrors.quietUntil (h : Mirrors timeout d i b b') (hopen : b.shared.hub.Open timeout)
    (hquiet : b.QuietUntil (d + t)) : b'.QuietUntil t := by
  intro j u hu
  obtain ⟨name, name', c, hx, htasks⟩ := h.task
  have hj : j = 0 := by
    by_contra hj
    simp [Agenda.dueAt, htasks, hj] at hu
  subst hj
  have hdue : b.dueAt i = some (d + u) := by
    rw [h.dueAt_eq hopen, hu, Option.map_some]
  exact le_of_add_le_add_left (hquiet i _ hdue)

/-- When nothing happens to a call, time passes for its mirror. -/
theorem Mirrors.pass (h : Mirrors timeout d i b b') (hopen : b.shared.hub.Open timeout)
    (hle : b.now ≤ e.now) (hquiet : b.QuietUntil e.now) (htask : e.tasks[i]? = b.tasks[i]?) :
    ∃ e', Program.Happens b' (.pass (e.now - d) : Happening) e' ∧ Mirrors timeout d i e e' := by
  have hnow : d + (e.now - d) = e.now := by ring
  have hnow' : b'.now ≤ e.now - d := by
    have := h.now_eq
    linarith
  refine ⟨{ b' with now := e.now - d }, .pass hnow' (h.quietUntil hopen (hnow.symm ▸ hquiet)),
    hnow.symm, h.hub, ?_⟩
  rw [htask]
  exact h.task

/-- A call that moves takes its mirror along. -/
theorem Mirrors.move (h : Mirrors timeout d i b b') (hopen : b.shared.hub.Open timeout)
    (hdue : b.dueAt i = some u) :
    ∃ e', Program.Happens b' (.move 0 : Happening) e' ∧
      Mirrors timeout d i (b.resumeAt u i) e' := by
  obtain ⟨v, hv, rfl⟩ := Option.map_eq_some_iff.mp ((h.dueAt_eq hopen).symm.trans hdue)
  obtain ⟨name, name', c, hx, htasks⟩ := h.task
  have hquiet : b'.QuietUntil v := by
    intro j w hw
    cases j with
    | zero => exact (Option.some.inj (hv.symm.trans hw)).le
    | succ j => simp [Agenda.dueAt, htasks] at hw
  have hi : i < b.tasks.length := (List.getElem?_eq_some_iff.mp hx).1
  refine ⟨_, .move hv hquiet, ?_, ?_, name, name', (c.resume b'.shared.hub).2, ?_, ?_⟩
  · simp only [Agenda.resumeAt, hx, htasks, List.getElem?_cons_zero, Time.later_eq_max, h.now_eq,
      max_add_add_left]
  · simp only [Agenda.resumeAt, htasks, List.getElem?_cons_zero]
    exact Call.open_resume h.hub c
  · simp only [Agenda.resumeAt, hx, Timed.resume, List.getElem?_set_self hi,
      Call.resume_shift h.hub hopen]
  · simp only [Agenda.resumeAt, htasks, List.getElem?_cons_zero, Timed.resume, List.set_cons_zero]

/-- A call that is cancelled takes its mirror along. -/
theorem Mirrors.cancel (h : Mirrors timeout d i b b') :
    Mirrors timeout d i (b.cancel i).2 (b'.cancel 0).2 := by
  obtain ⟨name, name', c, hx, htasks⟩ := h.task
  have hended : b.hasEnded i = b'.hasEnded 0 := by
    simp [Agenda.hasEnded, hx, htasks, Timed.ended, Call.outcome?_shift]
  unfold Agenda.cancel
  rw [hended]
  split
  · exact h
  · refine ⟨h.now_eq, h.hub, name, name', c.cancel b'.now, ?_, ?_⟩
    · simp [hx, Timed.cancel, h.now_eq, Call.cancel_shift]
    · simp [htasks, Timed.cancel]

/-- Whatever happens to a call but its cancellation, or to others, its mirror goes along with it. -/
theorem Mirrors.happens (h : Mirrors timeout d i b b') (hopen : b.shared.hub.Open timeout)
    (hlate : ∀ j u, b.dueAt j = some u → b.now ≤ u) (he : Program.Happens b ev e)
    (hother : ev ≠ .cancel i) (halone : Alone a' ts b') :
    ∃ e', Alone a' ts e' ∧ Mirrors timeout d i e e' := by
  have hi : i < b.tasks.length := by
    obtain ⟨name, name', c, hx, -⟩ := h.task
    exact (List.getElem?_eq_some_iff.mp hx).1
  have hstays (hnow : e.now = b.now) (htask : e.tasks[i]? = b.tasks[i]?) :
      ∃ e', Alone a' ts e' ∧ Mirrors timeout d i e e' := by
    refine ⟨b', halone, hnow ▸ h.now_eq, h.hub, ?_⟩
    rw [htask]
    exact h.task
  cases he with
  | begin name order => exact hstays rfl (List.getElem?_append_left hi)
  | command command => exact hstays rfl rfl
  | cancel j =>
      have hj : j ≠ i := fun hj => hother (hj ▸ rfl)
      have hcancel : (b.cancel j).2.now = b.now ∧ (b.cancel j).2.tasks[i]? = b.tasks[i]? := by
        unfold Agenda.cancel
        split
        · exact ⟨rfl, rfl⟩
        · exact ⟨rfl, by simp [hj]⟩
      exact hstays hcancel.1 hcancel.2
  | @move j u hdue hquiet =>
      by_cases hj : j = i
      · subst hj
        obtain ⟨e', he', hmirrors⟩ := h.move hopen hdue
        exact ⟨e', halone.move he', hmirrors⟩
      · obtain ⟨x, hx, -⟩ := Option.bind_eq_some_iff.mp hdue
        have hnow : (b.resumeAt u j).now = u := by
          simp only [Agenda.resumeAt, hx, Time.later_of_le (hlate j u hdue)]
        have htask : (b.resumeAt u j).tasks[i]? = b.tasks[i]? := by
          simp only [Agenda.resumeAt, hx, List.getElem?_set_ne hj]
        obtain ⟨e', he', hmirrors⟩ :=
          h.pass hopen (hnow.symm ▸ hlate j u hdue) (hnow.symm ▸ hquiet) htask
        exact ⟨e', halone.pass he', hmirrors⟩
  | @pass u hnow hquiet =>
      obtain ⟨e', he', hmirrors⟩ := h.pass (e := { b with now := u }) hopen hnow hquiet rfl
      exact ⟨e', halone.pass he', hmirrors⟩

/-! ## Calls among others -/

section

variable {address : String} {policy : Policy} {order : Assignment}
  (h : Program.Schedule (Agenda.start (make address policy timeout)) es a)

include h

/-- No call of a client is due in the past. -/
theorem le_of_dueAt {j : Nat} (hdue : a.dueAt j = some u) : a.now ≤ u := by
  obtain ⟨x, hx, hxdue⟩ := Option.bind_eq_some_iff.mp hdue
  exact ((single_of_schedule h).task j x hx).1.due_ge hxdue

/-- A call and its mirror begin alike. -/
theorem mirrors_begin (hopen : a.shared.hub.Open timeout) (name : Option String) :
    Mirrors timeout a.now a.tasks.length (Program.begin a name order)
      (Program.begin (Agenda.start (make address policy timeout)) none order) := by
  have hstation := (single_of_schedule h).shared.1.station_eq
  have hlimits : Limits.within a.now order.span = (Limits.within 0 order.span).shift a.now := by
    simp [Limits.within, Limits.shift]
  have hsame := Call.begin_shift (Hub.open_fresh timeout) hopen a.now 0 ⟨address, policy⟩
    order.query (.within 0 order.span) order.script
  rw [add_zero, ← hlimits, ← hstation] at hsame
  refine ⟨(add_zero a.now).symm, Call.open_begin (Hub.open_fresh timeout) 0 _ _ _ _, name, none,
    ((make address policy timeout).begin 0 order).2, ?_, rfl⟩
  simp only [Program.begin, Agenda.begin, List.getElem?_concat_length]
  exact congrArg (fun c => some (name, c)) (hsame.trans (by rw [hstation]; rfl))

/-- A call that has a mirror still has one after what happens then, if the client is not closed. -/
theorem Mirrors.cancels (hmirrors : Mirrors timeout d i a a') (hb : Program.Cancels i a fs b ts)
    (hopen : b.shared.closed b.now = false) :
    ∃ b', Alone a' (ts.map (· - d)) b' ∧ Mirrors timeout d i b b' := by
  -- the hub was open all the time before
  suffices hmirror : ∀ {fs gs : List Happening} {c : Agenda Client Call} {ts : List Time},
      Program.Cancels i a fs c ts → Program.Schedule c gs b →
      ∃ c', Alone a' (ts.map (· - d)) c' ∧ Mirrors timeout d i c c' from hmirror hb .nil
  intro fs gs c ts hc
  induction hc generalizing gs with
  | nil => exact fun _ => ⟨a', .start, hmirrors⟩
  | other hc he hother ih =>
      intro hrest
      have hbefore := h.append hc.schedule
      have hrest' := (Program.Schedule.nil.snoc he).append hrest
      obtain ⟨c', halone, hmirrors'⟩ := ih hrest'
      exact hmirrors'.happens (open_of_schedule hbefore hrest' hopen)
        (fun j u hdue => le_of_dueAt hbefore hdue) he hother halone
  | @cancel fs c ts hc ih =>
      intro hrest
      obtain ⟨c', halone, hmirrors'⟩ := ih ((Program.Schedule.nil.snoc (.cancel i)).append hrest)
      have hnow : c.now - d = c'.now := by
        have := hmirrors'.now_eq
        linarith
      refine ⟨_, ?_, hmirrors'.cancel⟩
      rw [List.map_append, List.map_singleton, hnow]
      exact halone.cancel

/-- A call has a mirror along every schedule that does not close its client. -/
theorem exists_mirror
    (hb : Program.Cancels a.tasks.length (Program.begin a name order) fs b ts)
    (hopen : b.shared.closed b.now = false) :
    ∃ b', Alone (Program.begin (Agenda.start (make address policy timeout)) none order)
        (ts.map (· - a.now)) b' ∧ Mirrors timeout a.now a.tasks.length b b' := by
  have hbegin := h.snoc (.begin name order)
  have hopen' := open_of_schedule h
    ((Program.Schedule.nil.snoc (.begin name order)).append hb.schedule) hopen
  exact (mirrors_begin h hopen' name).cancels hbegin hb hopen

end

end Client
end ChainPoll

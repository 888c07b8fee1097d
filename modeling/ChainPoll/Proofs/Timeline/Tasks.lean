import ChainPoll.Proofs.Timeline.Schedule
import ChainPoll.Timeline.Task

/-!
# Tasks along schedules

Tasks with a single wait each over a state that they share.  What happens to the shared state
strikes a wait now, if at all, and never in the past.  Hence a task that is not cancelled ends when
its own wait is over, whatever other tasks do; one that is cancelled ends by that, at once.

Main results:

- Theorem {lit}`Task.Orderly.ended_iff_wake`: when and how a task ends that is not cancelled.
- Theorem {lit}`Task.Orderly.ended_or_due_of_cancel`: a task that is cancelled ends by that.
- Theorem {lit}`Task.Orderly.settles`: tasks that are due have ended after as many moves as there
  are tasks.
- Theorem {lit}`Task.Orderly.frame`: the end of a task leaves all others as they are.
- Theorem {lit}`Task.Orderly.waiting_or_ended`: what becomes of a task that waits.
-/

namespace ChainPoll

/-- The task at a position below the number of tasks. -/
theorem Program.exists_taskAt {σ τ : Type} {a : Agenda σ τ} {i : Nat} (h : i < a.tasks.length) :
    ∃ x, a.tasks[i]? = some x ∧ taskAt a i = some x.2 := by
  have hget : a.tasks[i]? = some a.tasks[i] := List.getElem?_eq_getElem h
  exact ⟨a.tasks[i], hget, by simp [taskAt, hget]⟩

namespace Task

section

variable {ω σ α : Type} [Awaited ω σ α] {s s' : σ} {what : ω} {cancelAt : Option Time}
  {now t : Time} {cause : Cause} {task : Task ω α}

/-! ## The wait of a task -/

/-- The wait of a task with its cancellation. -/
def waitOf (s : σ) (what : ω) (cancelAt : Option Time) : Wait :=
  { Awaited.wait s what with cancelAt }

/-- A task that waits moves when its wait is over. -/
theorem due_waiting : Timed.due s (waiting what cancelAt : Task ω α) =
    (waitOf s what cancelAt).wake.map (·.1) := rfl

/-- The move of a task whose wait is over: it ends. -/
theorem resume_of_wake (h : (waitOf s what cancelAt).wake = some (t, cause)) :
    Timed.resume s (waiting what cancelAt : Task ω α) =
      ((Awaited.finish s what t cause).1, ended t (Awaited.finish s what t cause).2) := by
  have hwake : (waiting what cancelAt : Task ω α).wake s = some (t, cause) := h
  simp only [Timed.resume, resume, hwake]

/-- A task that is due waits, and its wait is over then. -/
theorem exists_wake_of_due (h : Timed.due s task = some t) :
    ∃ what cancelAt cause, task = waiting what cancelAt ∧
      (waitOf s what cancelAt).wake = some (t, cause) := by
  obtain ⟨⟨t, cause⟩, hwake, rfl⟩ := Option.map_eq_some_iff.mp h
  cases task with
  | waiting what cancelAt => exact ⟨what, cancelAt, cause, rfl, hwake⟩
  | ended endedAt result => simp [wake] at hwake

/-- A task that has ended is not due. -/
theorem due_of_ended (h : Timed.ended task = true) : Timed.due s task = none := by
  cases task with
  | waiting what cancelAt => simp [Timed.ended, isEnded] at h
  | ended endedAt result => rfl

/-! ## Tasks that are not due in the past -/

/-- Whether a task is not due before an instant. -/
def Upcoming (s : σ) (now : Time) (task : Task ω α) : Prop :=
  ∀ t, Timed.due s task = some t → now ≤ t

/-- A task that has ended is not due in the past. -/
theorem upcoming_ended (endedAt : Time) (result : α) :
    (ended endedAt result : Task ω α).Upcoming s now := by
  intro t ht
  simp [Timed.due, wake] at ht

/-- A task that waits is not due in the past exactly if no cause of its wait strikes there. -/
theorem upcoming_waiting_iff :
    (waiting what cancelAt : Task ω α).Upcoming s now ↔
      ∀ cause u, (waitOf s what cancelAt).instant cause = some u →
        now ≤ Time.later (Awaited.wait s what).since u := by
  refine Iff.trans ?_ (Wait.le_wake_iff (w := waitOf s what cancelAt))
  constructor
  · intro h a ha
    exact h a.1 (by rw [due_waiting, ha, Option.map_some])
  · intro h t ht
    obtain ⟨a, ha, rfl⟩ := Option.map_eq_some_iff.mp ht
    exact h a ha

/-- A task whose wait begins now is not due in the past. -/
theorem upcoming_of_since (h : (Awaited.wait s what).since = now) :
    (waiting what cancelAt : Task ω α).Upcoming s now :=
  upcoming_waiting_iff.mpr fun _ _ _ => h ▸ Time.le_later_left _ _

/-- A task that is cancelled is not due before, if it was not due before. -/
theorem Upcoming.cancel (h : task.Upcoming s now) : (Timed.cancel now task).Upcoming s now := by
  cases task with
  | ended endedAt result => exact upcoming_ended _ _
  | waiting what cancelAt =>
      rw [upcoming_waiting_iff] at h
      refine upcoming_waiting_iff.mpr ?_
      intro cause u hu
      cases cause with
      | cancellation =>
          simp only [waitOf, Wait.instant, Option.some.injEq] at hu
          exact hu ▸ Time.le_later_right _ _
      | deadline => exact h .deadline u hu
      | alarm => exact h .alarm u hu
      | closing => exact h .closing u hu

/-- The wait of a task that is cancelled now, and was not due before, is over by that. -/
theorem Upcoming.wake_cancelled (h : (waiting what cancelAt : Task ω α).Upcoming s now)
    (hsince : (Awaited.wait s what).since ≤ now) :
    (waitOf s what (some now)).wake = some (now, .cancellation) := by
  refine Wait.wake_cancelled (w := waitOf s what cancelAt) hsince ?_
  intro a ha
  exact h a.1 (by rw [due_waiting, ha, Option.map_some])

/-! ## Strikes -/

/--
Whether a change of the shared state leaves all waits as they were, but for closings that strike
now.
-/
def StrikesNow (ω : Type) [Awaited ω σ α] (now : Time) (s s' : σ) : Prop :=
  ∀ (what : ω), Awaited.wait s' what = Awaited.wait s what ∨
    (Awaited.wait s what).closingAt = none ∧
      Awaited.wait s' what = { Awaited.wait s what with closingAt := some now }

/-- A state that stays as it is strikes no wait. -/
theorem StrikesNow.refl (now : Time) (s : σ) : StrikesNow ω now s s :=
  fun _ => .inl rfl

/-- A task that is not due in the past is not due there after closings struck now either. -/
theorem Upcoming.of_strikesNow (h : task.Upcoming s now) (hstrikes : StrikesNow ω now s s') :
    task.Upcoming s' now := by
  cases task with
  | ended endedAt result => exact upcoming_ended _ _
  | waiting what cancelAt =>
      rw [upcoming_waiting_iff] at h ⊢
      intro cause u hu
      rcases hstrikes what with heq | ⟨-, heq⟩ <;> simp only [waitOf, heq] at hu ⊢
      · exact h cause u hu
      · cases cause with
        | closing =>
            simp only [Wait.instant, Option.some.injEq] at hu
            exact hu ▸ Time.le_later_right _ _
        | cancellation => exact h .cancellation u hu
        | deadline => exact h .deadline u hu
        | alarm => exact h .alarm u hu

/-- A wait that was over by now is so after closings struck now. -/
theorem wake_of_strikesNow (hstrikes : StrikesNow ω now s s') (hle : t ≤ now)
    (h : (waitOf s what cancelAt).wake = some (t, cause)) :
    (waitOf s' what cancelAt).wake = some (t, cause) := by
  rcases hstrikes what with heq | ⟨hnone, heq⟩
  · simp only [waitOf, heq]
    exact h
  obtain ⟨⟨u, hu, htime⟩, hfirst⟩ := Wait.wake_eq_some_iff.mp h
  simp only [waitOf, heq]
  rw [Wait.wake_eq_some_iff]
  constructor
  · refine ⟨u, ?_, htime⟩
    cases cause with
    | closing => simp [waitOf, Wait.instant, hnone] at hu
    | _ => exact hu
  · intro d v hv
    cases d with
    | closing =>
        -- no cause has a rank above that of a closing
        obtain rfl : now = v := Option.some.inj hv
        have hrank : cause.rank ≤ Cause.closing.rank := by cases cause <;> simp [Cause.rank]
        exact (hle.trans (Time.le_later_right _ _)).lt_or_eq.imp_right fun h => ⟨h, hrank⟩
    | cancellation => exact hfirst .cancellation v hv
    | deadline => exact hfirst .deadline v hv
    | alarm => exact hfirst .alarm v hv

/-! ## Standings -/

/-- Whether a wait has begun, and no closing had struck by then. -/
structure Begun (what : ω) (now : Time) (s : σ) : Prop where
  since_le : (Awaited.wait s what).since ≤ now
  le_closing : ∀ u, (Awaited.wait s what).closingAt = some u → (Awaited.wait s what).since ≤ u

/-- A wait that has begun has done so after closings struck now. -/
theorem Begun.of_strikesNow (h : Begun what now s) (hstrikes : StrikesNow ω now s s') :
    Begun what now s' := by
  rcases hstrikes what with heq | ⟨-, heq⟩
  · exact ⟨heq ▸ h.since_le, heq ▸ h.le_closing⟩
  · refine ⟨heq ▸ h.since_le, ?_⟩
    rw [heq]
    intro u hu
    exact Option.some.inj hu ▸ h.since_le

/--
Where a task stands that is not cancelled: it waits still, or has ended when its wait was over.
-/
def Undisturbed (what : ω) (now : Time) (s : σ) : Task ω α → Prop
  | .waiting other cancelAt => other = what ∧ cancelAt = none
  | .ended t result => t ≤ now ∧ ∃ cause, (waitOf s what none).wake = some (t, cause) ∧
      result = (Awaited.finish s what t cause).2

/-- Where a task stands that was cancelled: it has to move at once, or has ended by that. -/
def Aborted (what : ω) (k now : Time) (s : σ) : Task ω α → Prop
  | .waiting other cancelAt => other = what ∧ cancelAt = some k ∧ now = k
  | .ended t result => t = k ∧ result = (Awaited.finish s what k .cancellation).2

end

/-! ## Orderly states -/

section

variable {ω σ α ρ κ ν : Type} [Awaited ω σ α] [Served (Task ω α) σ ρ κ ν]

-- what moves along a schedule are tasks that are served, which move as tasks do
attribute [-instance] instTimed

/--
What makes the shared state of tasks orderly: the end of a task leaves all waits as they are, and
what is begun or commanded strikes them now, if at all.
-/
structure Orderly (shared : Time → σ → Prop) : Prop where
  timed : Served.toTimed = (instTimed : Timed σ (Task ω α))
  finish_fst {now : Time} {s : σ} (hs : shared now s) (what : ω) (t : Time) (cause : Cause) :
    shared now (Awaited.finish s what t cause).1
  finish_wait (s : σ) (what other : ω) (t : Time) (cause : Cause) :
    Awaited.wait (Awaited.finish s what t cause).1 other = Awaited.wait s other
  finish_snd (s s' : σ) (what : ω) (t : Time) (cause : Cause) :
    (Awaited.finish s what t cause).2 = (Awaited.finish s' what t cause).2
  begin {now : Time} {s : σ} (hs : shared now s) (order : ρ) :
    shared now (Served.begin (τ := Task ω α) now s order).1 ∧
      (Served.begin (τ := Task ω α) now s order).2.Upcoming
        (Served.begin (τ := Task ω α) now s order).1 now ∧
      StrikesNow ω now s (Served.begin (τ := Task ω α) now s order).1
  command {now : Time} {s : σ} (hs : shared now s) (command : κ) :
    shared now (Served.command (τ := Task ω α) now s command).1 ∧
      StrikesNow ω now s (Served.command (τ := Task ω α) now s command).1
  pass {now t : Time} {s : σ} (hs : shared now s) (hle : now ≤ t) : shared t s

namespace Orderly

variable {shared : Time → σ → Prop} {s : σ} {x : Task ω α} {what : ω} {now t k : Time}
  (orderly : Orderly (ω := ω) (α := α) (ρ := ρ) (κ := κ) (ν := ν) shared)

include orderly

/-- The tasks of an orderly state are due as tasks are. -/
theorem due_eq : Timed.due s x = (instTimed : Timed σ (Task ω α)).due s x := by
  rw [orderly.timed]

/-- The move of a task that is due: it ends, by what its wait was over. -/
theorem exists_of_due (h : Timed.due s x = some t) :
    ∃ what cancelAt cause, x = waiting what cancelAt ∧
      (waitOf s what cancelAt).wake = some (t, cause) ∧
      Timed.resume s x =
        ((Awaited.finish s what t cause).1, ended t (Awaited.finish s what t cause).2) := by
  rw [orderly.due_eq] at h
  obtain ⟨what, cancelAt, cause, rfl, hwake⟩ := exists_wake_of_due h
  refine ⟨what, cancelAt, cause, rfl, hwake, ?_⟩
  rw [orderly.timed, resume_of_wake hwake]

/-- The end of a task strikes no wait. -/
theorem strikesNow_finish (now : Time) (s : σ) (what : ω) (t : Time) (cause : Cause) :
    StrikesNow ω now s (Awaited.finish s what t cause).1 :=
  fun other => .inl (orderly.finish_wait s what other t cause)

/-- The cancellation of a task is that of tasks. -/
theorem cancel_eq : Timed.cancel t x = (instTimed : Timed σ (Task ω α)).cancel t x := by
  rw [orderly.timed]

/-- Whether a task has ended is what it is for tasks. -/
theorem ended_eq : Timed.ended x = x.isEnded := by
  rw [orderly.timed]
  rfl

/-! ## Laws -/

/-- No task of an orderly state is due in the past. -/
theorem standing_laws :
    Program.Laws (fun _ : Program.Happening ρ κ => True) 0 shared
      (fun _ now s (x : Task ω α) => x.Upcoming s now) (StrikesNow ω) where
  due_ge _ hx hdue := hx _ (orderly.due_eq ▸ hdue)
  bears _ hx hstrikes := hx.of_strikesNow hstrikes
  begin hs _ order := orderly.begin hs order
  command hs command := orderly.command hs command
  cancel _ _ hx _ := orderly.cancel_eq ▸ hx.cancel
  move := by
    intro i now s x hs _ hdue
    obtain ⟨what, cancelAt, cause, rfl, -, hresume⟩ := orderly.exists_of_due hdue
    rw [hresume]
    exact ⟨orderly.finish_fst hs .., upcoming_ended _ _, orderly.strikesNow_finish _ _ _ _ _⟩
  pass hs hle := orderly.pass hs hle
  pass_task _ _ _ hdue := fun t ht => hdue t (orderly.due_eq.trans ht)

/-- A task that is not cancelled waits until its wait is over. -/
theorem undisturbed_laws (what : ω) (i : Nat) :
    Program.Laws (fun e : Program.Happening ρ κ => e ≠ .cancel i) (i + 1) shared
      (fun j now s (x : Task ω α) =>
        x.Upcoming s now ∧ (j = i → Begun what now s ∧ Undisturbed what now s x))
      (StrikesNow ω) where
  due_ge hs hx hdue := orderly.standing_laws.due_ge (i := i) hs hx.1 hdue
  bears := by
    rintro j now s s' x hs ⟨hupcoming, hx⟩ hstrikes
    refine ⟨hupcoming.of_strikesNow hstrikes, fun hj => ?_⟩
    obtain ⟨hbegun, hundisturbed⟩ := hx hj
    refine ⟨hbegun.of_strikesNow hstrikes, ?_⟩
    cases x with
    | waiting other cancelAt => exact hundisturbed
    | ended t result =>
        obtain ⟨hle, cause, hwake, rfl⟩ := hundisturbed
        exact ⟨hle, cause, wake_of_strikesNow hstrikes hle hwake, orderly.finish_snd ..⟩
  begin := by
    intro j now s hs hj order
    obtain ⟨hshared, hupcoming, hstrikes⟩ := orderly.begin hs order
    exact ⟨hshared, ⟨hupcoming, fun h => absurd h (by omega)⟩, hstrikes⟩
  command hs command := orderly.command hs command
  cancel := by
    rintro j now s x hpermitted - ⟨hupcoming, -⟩ -
    refine ⟨orderly.cancel_eq ▸ hupcoming.cancel, ?_⟩
    rintro rfl
    exact absurd rfl hpermitted
  move := by
    rintro j now s x hs ⟨-, hx⟩ hdue
    obtain ⟨other, cancelAt, cause, rfl, hwake, hresume⟩ := orderly.exists_of_due hdue
    have hstrikes := orderly.strikesNow_finish now s other now cause
    rw [hresume]
    refine ⟨orderly.finish_fst hs .., ⟨upcoming_ended _ _, fun hj => ?_⟩, hstrikes⟩
    obtain ⟨hbegun, rfl, rfl⟩ := hx hj
    exact ⟨hbegun.of_strikesNow hstrikes, le_rfl, cause,
      wake_of_strikesNow hstrikes le_rfl hwake, orderly.finish_snd ..⟩
  pass hs hle := orderly.pass hs hle
  pass_task := by
    rintro j now t s x - ⟨-, hx⟩ hle hdue
    refine ⟨fun u hu => hdue u (orderly.due_eq.trans hu), fun hj => ?_⟩
    obtain ⟨⟨hsince, hclosing⟩, hundisturbed⟩ := hx hj
    refine ⟨⟨hsince.trans hle, hclosing⟩, ?_⟩
    cases x with
    | waiting other cancelAt => exact hundisturbed
    | ended u result => exact ⟨hundisturbed.1.trans hle, hundisturbed.2⟩

/-- A task that was cancelled ends by that at once, whatever happens. -/
theorem aborted_laws (what : ω) (k : Time) (i : Nat) :
    Program.Laws (fun _ : Program.Happening ρ κ => True) (i + 1) shared
      (fun j now s (x : Task ω α) =>
        x.Upcoming s now ∧ (j = i → Begun what now s ∧ Aborted what k now s x))
      (StrikesNow ω) where
  due_ge hs hx hdue := orderly.standing_laws.due_ge (i := i) hs hx.1 hdue
  bears := by
    rintro j now s s' x hs ⟨hupcoming, hx⟩ hstrikes
    refine ⟨hupcoming.of_strikesNow hstrikes, fun hj => ?_⟩
    obtain ⟨hbegun, haborted⟩ := hx hj
    refine ⟨hbegun.of_strikesNow hstrikes, ?_⟩
    cases x with
    | waiting other cancelAt => exact haborted
    | ended t result => exact ⟨haborted.1, haborted.2.trans (orderly.finish_snd ..)⟩
  begin := by
    intro j now s hs hj order
    obtain ⟨hshared, hupcoming, hstrikes⟩ := orderly.begin hs order
    exact ⟨hshared, ⟨hupcoming, fun h => absurd h (by omega)⟩, hstrikes⟩
  command hs command := orderly.command hs command
  cancel := by
    rintro j now s x - - ⟨hupcoming, hx⟩ hended
    rw [orderly.ended_eq] at hended
    rw [orderly.cancel_eq]
    refine ⟨hupcoming.cancel, fun hj => ?_⟩
    obtain ⟨hbegun, haborted⟩ := hx hj
    cases x with
    | waiting other cancelAt =>
        obtain ⟨rfl, -, rfl⟩ := haborted
        exact ⟨hbegun, rfl, rfl, rfl⟩
    | ended t result => simp [isEnded] at hended
  move := by
    rintro j now s x hs ⟨hupcoming, hx⟩ hdue
    obtain ⟨other, cancelAt, cause, rfl, hwake, hresume⟩ := orderly.exists_of_due hdue
    have hstrikes := orderly.strikesNow_finish now s other now cause
    rw [hresume]
    refine ⟨orderly.finish_fst hs .., ⟨upcoming_ended _ _, fun hj => ?_⟩, hstrikes⟩
    obtain ⟨hbegun, rfl, rfl, rfl⟩ := hx hj
    rw [hupcoming.wake_cancelled hbegun.since_le, Option.some.injEq, Prod.mk.injEq] at hwake
    refine ⟨hbegun.of_strikesNow hstrikes, rfl, ?_⟩
    rw [← hwake.2]
    exact orderly.finish_snd ..
  pass hs hle := orderly.pass hs hle
  pass_task := by
    rintro j now t s x - ⟨hupcoming, hx⟩ hle hdue
    refine ⟨fun u hu => hdue u (orderly.due_eq.trans hu), fun hj => ?_⟩
    obtain ⟨⟨hsince, hclosing⟩, haborted⟩ := hx hj
    refine ⟨⟨hsince.trans hle, hclosing⟩, ?_⟩
    cases x with
    | waiting other cancelAt =>
        -- it is due now, so that no time passes
        obtain ⟨rfl, rfl, rfl⟩ := haborted
        have hwake := hupcoming.wake_cancelled hsince
        have hlate := hdue now (orderly.due_eq.trans (by rw [due_waiting, hwake, Option.map_some]))
        exact ⟨rfl, rfl, le_antisymm hlate hle⟩
    | ended u result => exact haborted

/-! ## A task among others -/

variable {a b c : Agenda σ (Task ω α)} {fs gs : List (Program.Happening ρ κ)} {i : Nat}
  {result : α}

/-- Where a task stands that waited before and was not cancelled. -/
theorem undisturbed_of_schedule
    (ha : Program.Holds 0 shared (fun _ now s (x : Task ω α) => x.Upcoming s now) a)
    (htask : Program.taskAt a i = some (.waiting what none)) (hbegun : Begun what a.now a.shared)
    (hschedule : Program.Schedule a fs b) (hcancel : .cancel i ∉ fs) :
    Program.Holds (i + 1) shared
      (fun j now s (x : Task ω α) =>
        x.Upcoming s now ∧ (j = i → Begun what now s ∧ Undisturbed what now s x)) b := by
  obtain ⟨x, hx, hwaiting⟩ := Option.map_eq_some_iff.mp htask
  refine hschedule.keeps (orderly.undisturbed_laws what i) ?_ ⟨?_, ha.shared, ?_⟩
  · rintro e he rfl
    exact hcancel he
  · exact (List.getElem?_eq_some_iff.mp hx).1
  · intro j y hy
    refine ⟨ha.task j y hy, ?_⟩
    rintro rfl
    obtain rfl : x = y := Option.some.inj (hx.symm.trans hy)
    rw [hwaiting]
    exact ⟨hbegun, rfl, rfl⟩

/--
A task that waited before and was not cancelled has ended, if it has, by what its wait was over.
-/
theorem wake_of_ended
    (ha : Program.Holds 0 shared (fun _ now s (x : Task ω α) => x.Upcoming s now) a)
    (htask : Program.taskAt a i = some (.waiting what none)) (hbegun : Begun what a.now a.shared)
    (hschedule : Program.Schedule a fs b) (hcancel : .cancel i ∉ fs)
    (hended : Program.taskAt b i = some (.ended t result)) :
    t ≤ b.now ∧ ∃ cause, (waitOf b.shared what none).wake = some (t, cause) ∧
      result = (Awaited.finish b.shared what t cause).2 := by
  have hholds := orderly.undisturbed_of_schedule ha htask hbegun hschedule hcancel
  obtain ⟨⟨name, x⟩, hx, htaskAt⟩ := Program.exists_taskAt hholds.base_le
  obtain ⟨-, hundisturbed⟩ := hholds.task _ _ hx
  obtain rfl : x = .ended t result := Option.some.inj (htaskAt.symm.trans hended)
  exact (hundisturbed rfl).2

/--
A task that waited before and was not cancelled, and whose wait is over by now, has ended by that,
unless it was over just now and the task is about to move.
-/
theorem ended_or_due
    (ha : Program.Holds 0 shared (fun _ now s (x : Task ω α) => x.Upcoming s now) a)
    (htask : Program.taskAt a i = some (.waiting what none)) (hbegun : Begun what a.now a.shared)
    (hschedule : Program.Schedule a fs b) (hcancel : .cancel i ∉ fs) {cause : Cause}
    (hle : t ≤ b.now) (hwake : (waitOf b.shared what none).wake = some (t, cause)) :
    Program.taskAt b i = some (.ended t (Awaited.finish b.shared what t cause).2) ∨
      t = b.now ∧ b.dueAt i = some b.now := by
  have hholds := orderly.undisturbed_of_schedule ha htask hbegun hschedule hcancel
  obtain ⟨⟨name, x⟩, hx, htaskAt⟩ := Program.exists_taskAt hholds.base_le
  obtain ⟨hupcoming, hundisturbed⟩ := hholds.task _ _ hx
  obtain ⟨-, hundisturbed⟩ := hundisturbed rfl
  rw [htaskAt]
  cases x with
  | ended u other =>
      obtain ⟨-, cause', hwake', rfl⟩ := hundisturbed
      obtain ⟨rfl, rfl⟩ := Prod.mk.inj (Option.some.inj (hwake'.symm.trans hwake))
      exact .inl rfl
  | waiting other cancelAt =>
      obtain ⟨rfl, rfl⟩ := hundisturbed
      have hdue : Timed.due b.shared (.waiting other none : Task ω α) = some t := by
        rw [orderly.due_eq, due_waiting, hwake, Option.map_some]
      obtain rfl : t = b.now := le_antisymm hle (hupcoming t (orderly.due_eq ▸ hdue))
      exact .inr ⟨rfl, by simp only [Agenda.dueAt, hx, Option.bind_some, hdue]⟩

/--
A task that waited before, was not cancelled, and is not due now has ended exactly if its wait is
over by now, and then by what its wait was over.
-/
theorem ended_iff_wake
    (ha : Program.Holds 0 shared (fun _ now s (x : Task ω α) => x.Upcoming s now) a)
    (htask : Program.taskAt a i = some (.waiting what none)) (hbegun : Begun what a.now a.shared)
    (hschedule : Program.Schedule a fs b) (hcancel : .cancel i ∉ fs)
    (hidle : b.dueAt i ≠ some b.now) :
    Begun what b.now b.shared ∧ (Program.taskAt b i = some (.ended t result) ↔
      t ≤ b.now ∧ ∃ cause, (waitOf b.shared what none).wake = some (t, cause) ∧
        result = (Awaited.finish b.shared what t cause).2) := by
  have hholds := orderly.undisturbed_of_schedule ha htask hbegun hschedule hcancel
  obtain ⟨x, hx, -⟩ := Program.exists_taskAt hholds.base_le
  refine ⟨((hholds.task _ _ hx).2 rfl).1,
    orderly.wake_of_ended ha htask hbegun hschedule hcancel, ?_⟩
  rintro ⟨hle, cause, hwake, rfl⟩
  rcases orderly.ended_or_due ha htask hbegun hschedule hcancel hle hwake with hended | ⟨-, hdue⟩
  · exact hended
  · exact absurd hdue hidle

/--
A task that is cancelled while it waits ends by that at once, unless it is still about to move.
-/
theorem ended_or_due_of_cancel
    (ha : Program.Holds 0 shared (fun _ now s (x : Task ω α) => x.Upcoming s now) a)
    (htask : Program.taskAt a i = some (.waiting what none)) (hbegun : Begun what a.now a.shared)
    (hschedule : Program.Schedule a fs b) (hcancel : .cancel i ∉ fs)
    (hpending : b.hasEnded i = false) (hrest : Program.Schedule (b.cancel i).2 gs c) :
    Program.taskAt c i =
        some (.ended b.now (Awaited.finish c.shared what b.now .cancellation).2) ∨
      b.now = c.now ∧ c.dueAt i = some c.now := by
  have hholds := orderly.undisturbed_of_schedule ha htask hbegun hschedule hcancel
  have hcut : Program.Holds (i + 1) shared
      (fun j now s (x : Task ω α) =>
        x.Upcoming s now ∧ (j = i → Begun what now s ∧ Aborted what b.now now s x))
      (b.cancel i).2 := by
    simp only [Agenda.cancel, hpending, Bool.false_eq_true, if_false]
    refine ⟨by simpa using hholds.base_le, hholds.shared, ?_⟩
    intro j x hx
    rw [List.getElem?_modify] at hx
    obtain ⟨y, hy, rfl⟩ := Option.map_eq_some_iff.mp hx
    obtain ⟨hupcoming, hundisturbed⟩ := hholds.task j y hy
    split
    · next hj =>
      rw [orderly.cancel_eq]
      refine ⟨hupcoming.cancel, fun _ => ?_⟩
      have hrunning : y.2.isEnded = false := by
        rw [← orderly.ended_eq]
        simpa [Agenda.hasEnded, hj, hy] using hpending
      obtain ⟨name, y⟩ := y
      obtain ⟨hbegun, hundisturbed⟩ := hundisturbed hj.symm
      cases y with
      | waiting other cancelAt => exact ⟨hbegun, hundisturbed.1, rfl, rfl⟩
      | ended t result => simp [isEnded] at hrunning
    · next hj => exact ⟨hupcoming, fun h => absurd h.symm hj⟩
  have hend := hrest.keeps (orderly.aborted_laws what b.now i) (by simp) hcut
  obtain ⟨⟨name, x⟩, hx, htaskAt⟩ := Program.exists_taskAt hend.base_le
  obtain ⟨hupcoming, haborted⟩ := hend.task _ _ hx
  obtain ⟨hbegun, haborted⟩ := haborted rfl
  rw [htaskAt]
  cases x with
  | ended t result =>
      obtain ⟨rfl, rfl⟩ := haborted
      exact .inl rfl
  | waiting other cancelAt =>
      obtain ⟨rfl, rfl, hnow⟩ := haborted
      have hwake := hnow ▸ hupcoming.wake_cancelled hbegun.since_le
      refine .inr ⟨hnow.symm, ?_⟩
      simp only [Agenda.dueAt, hx, Option.bind_some, orderly.due_eq, due_waiting, hwake,
        Option.map_some, hnow]

/-- A task that is cancelled while it waits ends by that, at once. -/
theorem ended_of_cancel
    (ha : Program.Holds 0 shared (fun _ now s (x : Task ω α) => x.Upcoming s now) a)
    (htask : Program.taskAt a i = some (.waiting what none)) (hbegun : Begun what a.now a.shared)
    (hschedule : Program.Schedule a fs b) (hcancel : .cancel i ∉ fs)
    (hpending : b.hasEnded i = false) (hrest : Program.Schedule (b.cancel i).2 gs c)
    (hidle : c.dueAt i ≠ some c.now) :
    Program.taskAt c i =
      some (.ended b.now (Awaited.finish c.shared what b.now .cancellation).2) :=
  (orderly.ended_or_due_of_cancel ha htask hbegun hschedule hcancel hpending hrest).resolve_right
    fun h => hidle h.2

/-- A task that has ended stays as it is. -/
theorem taskAt_of_ended (h : Program.taskAt a i = some (.ended t result))
    (hschedule : Program.Schedule a fs b) :
    Program.taskAt b i = some (.ended t result) := by
  obtain ⟨⟨name, x⟩, hx, rfl⟩ := Option.map_eq_some_iff.mp h
  have hdue : ∀ (s : σ) (x : Task ω α), Timed.ended x = true → Timed.due s x = none := by
    intro s x hended
    rw [orderly.timed] at hended ⊢
    exact due_of_ended hended
  have hkept := hschedule.getElem?_of_ended hdue hx (orderly.ended_eq.trans rfl)
  simp [Program.taskAt, hkept]

/--
The cancellation of a task, and its end, leave all other tasks as they are, and the shared state too
but for what the end itself does to it.
-/
theorem frame {e : Program.Happening ρ κ} (he : e = .cancel i ∨ e = .move i)
    (h : Program.Happens a e b) :
    (b.shared = a.shared ∨ ∃ (what : ω) (t : Time) (cause : Cause),
        b.shared = (Awaited.finish a.shared what t cause).1) ∧
      ∀ j, j ≠ i → b.tasks[j]? = a.tasks[j]? := by
  cases h with
  | cancel k =>
      obtain rfl : k = i := by simpa using he
      unfold Agenda.cancel
      split
      · exact ⟨.inl rfl, fun j _ => rfl⟩
      · exact ⟨.inl rfl, fun j hj => by simp [hj.symm]⟩
  | @move k t hdue _ =>
      obtain rfl : k = i := by simpa using he
      obtain ⟨x, hx, hxdue⟩ := Option.bind_eq_some_iff.mp hdue
      obtain ⟨what, _, cause, -, -, hresume⟩ := orderly.exists_of_due hxdue
      simp only [Agenda.resumeAt, hx, hresume]
      exact ⟨.inr ⟨what, t, cause, rfl⟩, fun j hj => List.getElem?_set_ne hj.symm⟩
  | begin name order => simp at he
  | command command => simp at he
  | pass _ _ => simp at he

/-- All tasks that are due now have ended after as many moves as there are tasks. -/
theorem settles (ha : Program.Holds 0 shared (fun _ now s (x : Task ω α) => x.Upcoming s now) a)
    {n : Nat} (hn : a.tasks.length ≤ n) :
    (a.settle n).now = a.now ∧ ∀ i, (a.settle n).dueAt i ≠ some a.now := by
  have hends : ∀ (i : Nat) (now : Time) (s : σ) (x : Task ω α), shared now s → x.Upcoming s now →
      Timed.due s x = some now →
      Timed.ended x = false ∧ Timed.ended (Timed.resume s x).2 = true := by
    intro i now s x _ _ hdue
    obtain ⟨what, cancelAt, cause, rfl, -, hresume⟩ := orderly.exists_of_due hdue
    rw [hresume, orderly.ended_eq, orderly.ended_eq]
    exact ⟨rfl, rfl⟩
  obtain ⟨hnow, hidle, -⟩ := orderly.standing_laws.settles hends
    (List.countP_le_length.trans hn) ha
  exact ⟨hnow, hidle⟩

/-- The move of a task: it waited, its wait is over, and it has ended. -/
theorem exists_of_move
    (ha : Program.Holds 0 shared (fun _ now s (x : Task ω α) => x.Upcoming s now) a)
    (h : Program.Happens a (.move i) b) :
    ∃ name what cancelAt cause, a.tasks[i]? = some (name, .waiting what cancelAt) ∧
      b.shared = (Awaited.finish a.shared what b.now cause).1 ∧
      b.tasks = a.tasks.set i
        (name, .ended b.now (Awaited.finish a.shared what b.now cause).2) := by
  cases h with
  | @move _ t hdue _ =>
      obtain ⟨⟨name, x⟩, hx, hxdue⟩ := Option.bind_eq_some_iff.mp hdue
      have hnow : a.now ≤ t := ha.task i _ hx t (orderly.due_eq ▸ hxdue)
      obtain ⟨what, cancelAt, cause, rfl, -, hresume⟩ := orderly.exists_of_due hxdue
      refine ⟨name, what, cancelAt, cause, hx, ?_⟩
      simp only [Agenda.resumeAt, hx, hresume, Time.later_of_le hnow, and_self]

/-- What happens to a task that waits: it waits on, or it ends at the instant of the event. -/
theorem taskAt_of_happens {e : Program.Happening ρ κ} {cancelAt : Option Time}
    (ha : Program.Holds 0 shared (fun _ now s (x : Task ω α) => x.Upcoming s now) a)
    (htask : Program.taskAt a i = some (.waiting what cancelAt)) (h : Program.Happens a e b) :
    (∃ cancelAt, Program.taskAt b i = some (.waiting what cancelAt)) ∨
      ∃ cause, Program.taskAt b i =
        some (.ended b.now (Awaited.finish b.shared what b.now cause).2) := by
  obtain ⟨⟨name, x⟩, hx, rfl⟩ := Option.map_eq_some_iff.mp htask
  have hi : i < a.tasks.length := (List.getElem?_eq_some_iff.mp hx).1
  have hkept {b : Agenda σ (Task ω α)} (hb : b.tasks[i]? = a.tasks[i]?) :
      ∃ cancelAt, Program.taskAt b i = some (.waiting what cancelAt) :=
    ⟨cancelAt, by rw [Program.taskAt, hb]; exact htask⟩
  by_cases he : e = .move i
  · subst he
    obtain ⟨_, _, _, cause, hi', -, htasks⟩ := orderly.exists_of_move ha h
    obtain ⟨-, rfl, -⟩ := by simpa [hx] using hi'
    refine .inr ⟨cause, ?_⟩
    rw [orderly.finish_snd _ a.shared]
    simp [Program.taskAt, htasks, hi]
  refine .inl ?_
  cases h with
  | begin name order => exact hkept (List.getElem?_append_left hi)
  | command command => exact hkept rfl
  | pass _ _ => exact hkept rfl
  | cancel j =>
      by_cases hj : j = i
      · subst hj
        have hcancel : Timed.cancel a.now (.waiting what cancelAt : Task ω α) =
            .waiting what (some a.now) := orderly.cancel_eq
        refine ⟨some a.now, ?_⟩
        simp [Program.taskAt, Agenda.cancel, Agenda.hasEnded, hx,
          orderly.ended_eq, isEnded, hcancel]
      · exact hkept ((orderly.frame (.inl rfl) (.cancel j)).2 i (Ne.symm hj))
  | @move j t hdue hquiet =>
      have hj : i ≠ j := fun hij => he (hij ▸ rfl)
      exact hkept ((orderly.frame (.inr rfl) (.move hdue hquiet)).2 i hj)

/-- A task that waits does so still later on, or has ended by then. -/
theorem waiting_or_ended {what : ω} {cancelAt : Option Time}
    (ha : Program.Holds 0 shared (fun _ now s (x : Task ω α) => x.Upcoming s now) a)
    (htask : Program.taskAt a i = some (.waiting what cancelAt))
    (hschedule : Program.Schedule a fs b) :
    (∃ cancelAt, Program.taskAt b i = some (.waiting what cancelAt)) ∨
      ∃ t cause, t ≤ b.now ∧
        Program.taskAt b i = some (.ended t (Awaited.finish b.shared what t cause).2) := by
  induction hschedule with
  | nil => exact .inl ⟨cancelAt, htask⟩
  | @snoc fs b c e hschedule he ih =>
      rcases ih with ⟨cancelAt', hwaiting⟩ | ⟨t, cause, hle, hended⟩
      · have hb := hschedule.keeps orderly.standing_laws (by simp) ha
        refine (orderly.taskAt_of_happens hb hwaiting he).imp_right fun ⟨cause, hover⟩ => ?_
        exact ⟨c.now, cause, le_rfl, hover⟩
      · have hstays := orderly.taskAt_of_ended hended (.snoc .nil he)
        rw [orderly.finish_snd _ c.shared] at hstays
        exact .inr ⟨t, cause, hle.trans he.now_le, hstays⟩

end Orderly

end

end Task
end ChainPoll

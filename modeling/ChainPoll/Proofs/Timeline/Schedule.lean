import Mathlib.Algebra.Order.Ring.Rat
import ChainPoll.Proofs.Timeline.Waking
import ChainPoll.Timeline.Program

/-!
# Schedules

What can happen to the tasks of a user, in any order that the instants allow: of several tasks that
are due at one instant any one may move first, and the user may act before, between and after them.
What every event keeps holds along every schedule; the laws for single events are collected in one
structure.

Main results:

- Theorem {lit}`Program.Schedule.keeps`: what obeys the laws holds along every schedule.
- Theorem {lit}`Program.exists_schedule_run`: the runs of an agenda are schedules.
- Theorem {lit}`Program.Schedule.getElem?_of_ended`: a task that has ended stays as it is.
- Theorem {lit}`Program.Laws.settles`: tasks that end by their moves settle.
-/

namespace ChainPoll

/-! ## Due tasks -/

namespace Agenda

variable {σ τ : Type} [Timed σ τ]

/-- The instant at which the task at a position is due. -/
def dueAt (a : Agenda σ τ) (i : Nat) : Option Time :=
  a.tasks[i]?.bind fun task => Timed.due a.shared task.2

/-- Whether no task is due before an instant. -/
def QuietUntil (a : Agenda σ τ) (t : Time) : Prop :=
  ∀ i u, a.dueAt i = some u → t ≤ u

/-- The candidates to move next are the tasks that are due, with their positions. -/
theorem mem_candidates_iff {a : Agenda σ τ} {t : Time} {i : Nat} :
    some (t, i) ∈ a.candidates ↔ a.dueAt i = some t := by
  simp only [candidates, List.mem_map, Prod.exists, List.mem_zipIdx_iff_getElem?,
    Option.map_eq_some_iff, Prod.mk.injEq, dueAt, Option.bind_eq_some_iff]
  constructor
  · rintro ⟨name, task, j, htask, u, hu, rfl, rfl⟩
    exact ⟨name, task, htask, hu⟩
  · rintro ⟨name, task, htask, hu⟩
    exact ⟨name, task, i, htask, t, hu, rfl, rfl⟩

/-- The earliest of several candidates is one of them. -/
theorem foldl_sooner_mem (start : Option (Time × Nat)) (cs : List (Option (Time × Nat)))
    {r : Time × Nat} (h : cs.foldl sooner start = some r) : some r ∈ start :: cs := by
  induction cs generalizing start with
  | nil => simp [← h]
  | cons c cs ih =>
      rw [List.foldl_cons] at h
      have hsooner : sooner start c = start ∨ sooner start c = c := by
        unfold sooner
        split
        · exact .inr rfl
        · exact .inl rfl
        · split
          · exact .inr rfl
          · exact .inl rfl
      rcases List.mem_cons.mp (ih _ h) with hmem | hmem
      · rcases hsooner with hs | hs
        · rw [hs] at hmem
          simp [hmem]
        · rw [hs] at hmem
          simp [hmem]
      · simp [hmem]

/-- The task that moves next is due, and no task is due before it. -/
theorem due_of_next? {a : Agenda σ τ} {t : Time} {i : Nat} (h : a.next? = some (t, i)) :
    a.dueAt i = some t ∧ a.QuietUntil t := by
  constructor
  · have hmem := foldl_sooner_mem none a.candidates h
    exact mem_candidates_iff.mp (by simpa using hmem)
  · intro j u hu
    exact next?_le h (mem_candidates_iff.mpr hu)

/-- If no task moves next, none is due. -/
theorem dueAt_eq_none_of_next? {a : Agenda σ τ} (h : a.next? = none) (i : Nat) :
    a.dueAt i = none := by
  have hfold : ∀ (start : Option (Time × Nat)) (cs : List (Option (Time × Nat))),
      cs.foldl sooner start = none → ∀ c ∈ start :: cs, c = none := by
    intro start cs
    induction cs generalizing start with
    | nil =>
        intro h c hc
        rw [List.mem_singleton.mp hc]
        exact h
    | cons d cs ih =>
        intro h c hc
        have hrest := ih (sooner start d) h
        have hhead : start = none ∧ d = none := by
          have hsooner := hrest (sooner start d) (by simp)
          unfold sooner at hsooner
          split at hsooner
          · exact ⟨rfl, hsooner⟩
          · simp at hsooner
          · split at hsooner <;> simp at hsooner
        rcases List.mem_cons.mp hc with rfl | hc
        · exact hhead.1
        · rcases List.mem_cons.mp hc with rfl | hc
          · exact hhead.2
          · exact hrest c (by simp [hc])
  cases hdue : a.dueAt i with
  | none => rfl
  | some t =>
      have hnone := hfold none a.candidates h (some (t, i))
        (by simp [mem_candidates_iff.mpr hdue])
      simp at hnone

/-- A step moves the task that is due first, if that is by the horizon. -/
theorem exists_of_step {horizon : Option Time} {a b : Agenda σ τ} (h : a.step horizon = some b) :
    ∃ t i, a.dueAt i = some t ∧ a.QuietUntil t ∧ (∀ u ∈ horizon, t ≤ u) ∧ b = a.resumeAt t i := by
  unfold step at h
  split at h
  · simp at h
  · next t i hnext =>
    split at h
    · next hle =>
      obtain ⟨hdue, hquiet⟩ := due_of_next? hnext
      rw [Option.some.injEq] at h
      exact ⟨t, i, hdue, hquiet, by simpa [Option.all_eq_true] using hle, h.symm⟩
    · simp at h

/-- Where no task moves by an instant, none is due by then. -/
theorem lt_of_step {a : Agenda σ τ} {t u : Time} {i : Nat} (h : a.step (some t) = none)
    (hdue : a.dueAt i = some u) : t < u := by
  unfold step at h
  split at h
  · next hnext =>
    rw [dueAt_eq_none_of_next? hnext] at hdue
    simp at hdue
  · next v j hnext =>
    split at h
    · simp at h
    · next hlate =>
      have hlt : t < v := by simpa using hlate
      exact hlt.trans_le ((due_of_next? hnext).2 i u hdue)

/-- The moves that are due by an instant do not bring the clock past it. -/
theorem now_run_le {a : Agenda σ τ} {t : Time} (hle : a.now ≤ t) (budget : Nat) :
    (a.run (some t) budget).now ≤ t := by
  induction budget generalizing a with
  | zero => exact hle
  | succ budget ih =>
      unfold run
      split
      · exact hle
      · next b hstep =>
        obtain ⟨u, i, hdue, -, hu, rfl⟩ := exists_of_step hstep
        obtain ⟨x, hx, -⟩ := Option.bind_eq_some_iff.mp hdue
        refine ih ?_
        simp only [resumeAt, hx, Time.later_eq_max]
        exact max_le hle (hu t rfl)

end Agenda

/-! ## Schedules -/

namespace Program

variable {τ σ ρ κ ν : Type} [Served τ σ ρ κ ν]

/-- Something that happens to the tasks of a user. -/
inductive Happening (ρ κ : Type) where
  | begin (name : Option String) (order : ρ)
  | command (order : κ)
  | cancel (i : Nat)
  /-- The task at a position moves. -/
  | move (i : Nat)
  /-- Time passes until an instant. -/
  | pass (t : Time)

/-- An agenda after a command was carried out. -/
def order (a : Agenda σ τ) (command : κ) : Agenda σ τ :=
  { a with shared := (Served.command (τ := τ) a.now a.shared command).1 }

/-- What an agenda may be after something happened. -/
inductive Happens (a : Agenda σ τ) : Happening ρ κ → Agenda σ τ → Prop where
  | begin (name : Option String) (order : ρ) :
      Happens a (.begin name order) (Program.begin a name order)
  | command (command : κ) : Happens a (.command command) (order a command)
  | cancel (i : Nat) : Happens a (.cancel i) (a.cancel i).2
  | move {i : Nat} {t : Time} (hdue : a.dueAt i = some t) (hquiet : a.QuietUntil t) :
      Happens a (.move i) (a.resumeAt t i)
  | pass {t : Time} (hnow : a.now ≤ t) (hquiet : a.QuietUntil t) :
      Happens a (.pass t) { a with now := t }

/-- A schedule from one agenda to another: one thing happens after the other. -/
inductive Schedule (a : Agenda σ τ) : List (Happening ρ κ) → Agenda σ τ → Prop where
  | nil : Schedule a [] a
  | snoc {es : List (Happening ρ κ)} {b c : Agenda σ τ} {e : Happening ρ κ}
      (h : Schedule a es b) (he : Happens b e c) : Schedule a (es ++ [e]) c

/-- A schedule that continues another one. -/
theorem Schedule.append {a b c : Agenda σ τ} {es fs : List (Happening ρ κ)}
    (h : Schedule a es b) (h' : Schedule b fs c) : Schedule a (es ++ fs) c := by
  induction h' with
  | nil => simpa using h
  | snoc _ he ih =>
      rw [← List.append_assoc]
      exact ih.snoc he

/-- Whatever happens, the clock does not go back. -/
theorem Happens.now_le {a b : Agenda σ τ} {e : Happening ρ κ} (h : Happens a e b) :
    a.now ≤ b.now := by
  cases h with
  | begin name order => exact le_rfl
  | command command => exact le_rfl
  | cancel i =>
      unfold Agenda.cancel
      split <;> exact le_rfl
  | move hdue _ =>
      obtain ⟨x, hx, -⟩ := Option.bind_eq_some_iff.mp hdue
      simp only [Agenda.resumeAt, hx]
      exact Time.le_later_left _ _
  | pass hnow _ => exact hnow

/-- Along a schedule the clock does not go back. -/
theorem Schedule.now_le {a b : Agenda σ τ} {es : List (Happening ρ κ)} (h : Schedule a es b) :
    a.now ≤ b.now := by
  induction h with
  | nil => exact le_rfl
  | snoc _ he ih => exact ih.trans he.now_le

/-- The task that moves next moves in its turn. -/
theorem happens_of_next? {a : Agenda σ τ} {t : Time} {i : Nat} (h : a.next? = some (t, i)) :
    Happens a (.move i : Happening ρ κ) (a.resumeAt t i) :=
  .move (Agenda.due_of_next? h).1 (Agenda.due_of_next? h).2

/-- Time passes until the task that moves next does, and not longer. -/
theorem happens_pass_of_next? {a : Agenda σ τ} {t u : Time} {i : Nat} (h : a.next? = some (t, i))
    (hnow : a.now ≤ u) (hle : u ≤ t) :
    Happens a (.pass u : Happening ρ κ) { a with now := u } :=
  .pass hnow fun j v hv => hle.trans ((Agenda.due_of_next? h).2 j v hv)

/-- A move of the task that is due first happens in its turn. -/
theorem happens_of_step {horizon : Option Time} {a b : Agenda σ τ} (h : a.step horizon = some b) :
    ∃ i : Nat, Happens a (.move i) b := by
  obtain ⟨t, i, hdue, hquiet, -, rfl⟩ := Agenda.exists_of_step h
  exact ⟨i, .move hdue hquiet⟩

/-- The runs of an agenda are schedules of moves. -/
theorem exists_schedule_run (horizon : Option Time) (budget : Nat) (a : Agenda σ τ) :
    ∃ es : List (Happening ρ κ), Schedule a es (a.run horizon budget) ∧
      ∀ e ∈ es, ∃ i, e = .move i := by
  induction budget generalizing a with
  | zero => exact ⟨[], .nil, by simp⟩
  | succ budget ih =>
      unfold Agenda.run
      split
      · exact ⟨[], .nil, by simp⟩
      · next b hstep =>
        obtain ⟨i, hhappens⟩ := happens_of_step hstep
        obtain ⟨es, hschedule, hmoves⟩ := ih b
        exact ⟨[.move i] ++ es, (Schedule.snoc .nil hhappens).append hschedule,
          List.forall_mem_cons.mpr ⟨⟨i, rfl⟩, hmoves⟩⟩

/-- To wait for the end of a task is a schedule of moves. -/
theorem exists_schedule_await (i budget : Nat) (a : Agenda σ τ) :
    ∃ es : List (Happening ρ κ), Schedule a es (a.await i budget) ∧ ∀ e ∈ es, ∃ j, e = .move j := by
  induction budget generalizing a with
  | zero => exact ⟨[], .nil, by simp⟩
  | succ budget ih =>
      unfold Agenda.await
      split
      · exact ⟨[], .nil, by simp⟩
      · split
        · exact ⟨[], .nil, by simp⟩
        · next b hstep =>
          obtain ⟨j, hhappens⟩ := happens_of_step hstep
          obtain ⟨es, hschedule, hmoves⟩ := ih b
          exact ⟨[.move j] ++ es, (Schedule.snoc .nil hhappens).append hschedule,
            List.forall_mem_cons.mpr ⟨⟨j, rfl⟩, hmoves⟩⟩

/-- A task that has ended stays as it is, whatever happens. -/
theorem Schedule.getElem?_of_ended {a b : Agenda σ τ} {es : List (Happening ρ κ)}
    (h : Schedule a es b) (hdue : ∀ (s : σ) (x : τ), Timed.ended x = true → Timed.due s x = none)
    {i : Nat} {x : Option String × τ} (hx : a.tasks[i]? = some x)
    (hended : Timed.ended x.2 = true) : b.tasks[i]? = some x := by
  induction h with
  | nil => exact hx
  | @snoc es b c e _ he ih =>
      cases he with
      | begin name order =>
          have hi : i < b.tasks.length := (List.getElem?_eq_some_iff.mp ih).1
          simp only [Program.begin, Agenda.begin]
          rw [List.getElem?_append_left hi, ih]
      | command command => exact ih
      | cancel j =>
          unfold Agenda.cancel
          split
          · exact ih
          · next hrunning =>
            have hij : j ≠ i := by
              rintro rfl
              simp [Agenda.hasEnded, ih, hended] at hrunning
            simp [hij, ih]
      | @move j t hdueAt _ =>
          have hij : j ≠ i := by
            rintro rfl
            simp [Agenda.dueAt, ih, hdue b.shared x.2 hended] at hdueAt
          unfold Agenda.resumeAt
          split
          · exact ih
          · simp [List.getElem?_set_ne hij, ih]
      | pass _ _ => exact ih

/-! ## Laws of schedules -/

/--
Laws for what is to hold of the shared state and of each task at its position, along schedules of
permitted events: a change of the shared state is of a kind that all tasks bear.  Tasks are begun at
positions from {lit}`base` on.
-/
structure Laws (permitted : Happening ρ κ → Prop) (base : Nat) (shared : Time → σ → Prop)
    (task : Nat → Time → σ → τ → Prop) (change : Time → σ → σ → Prop) : Prop where
  /-- No task was due in the past. -/
  due_ge {i : Nat} {now t : Time} {s : σ} {x : τ} (hs : shared now s) (hx : task i now s x)
    (hdue : Timed.due s x = some t) : now ≤ t
  bears {i : Nat} {now : Time} {s s' : σ} {x : τ} (hs : shared now s) (hx : task i now s x)
    (hchange : change now s s') : task i now s' x
  begin {i : Nat} {now : Time} {s : σ} (hs : shared now s) (hi : base ≤ i) (order : ρ) :
    shared now (Served.begin (τ := τ) now s order).1 ∧
      task i now (Served.begin (τ := τ) now s order).1 (Served.begin now s order).2 ∧
      change now s (Served.begin (τ := τ) now s order).1
  command {now : Time} {s : σ} (hs : shared now s) (command : κ) :
    shared now (Served.command (τ := τ) now s command).1 ∧
      change now s (Served.command (τ := τ) now s command).1
  cancel {i : Nat} {now : Time} {s : σ} {x : τ} (hpermitted : permitted (.cancel i))
    (hs : shared now s) (hx : task i now s x) (hended : Timed.ended x = false) :
    task i now s (Timed.cancel now x)
  move {i : Nat} {now : Time} {s : σ} {x : τ} (hs : shared now s) (hx : task i now s x)
    (hdue : Timed.due s x = some now) :
    shared now (Timed.resume s x).1 ∧ task i now (Timed.resume s x).1 (Timed.resume s x).2 ∧
      change now s (Timed.resume s x).1
  pass {now t : Time} {s : σ} (hs : shared now s) (hle : now ≤ t) : shared t s
  pass_task {i : Nat} {now t : Time} {s : σ} {x : τ} (hs : shared now s) (hx : task i now s x)
    (hle : now ≤ t) (hdue : ∀ u, Timed.due s x = some u → t ≤ u) : task i t s x

/-- What is to hold of the shared state and of each task, all together. -/
structure Holds (base : Nat) (shared : Time → σ → Prop) (task : Nat → Time → σ → τ → Prop)
    (a : Agenda σ τ) : Prop where
  base_le : base ≤ a.tasks.length
  shared : shared a.now a.shared
  task : ∀ i x, a.tasks[i]? = some x → task i a.now a.shared x.2

variable {permitted : Happening ρ κ → Prop} {base : Nat} {shared : Time → σ → Prop}
  {task : Nat → Time → σ → τ → Prop} {change : Time → σ → σ → Prop} {a b : Agenda σ τ}

/-- What obeys the laws is kept when time passes to an instant before which no task is due. -/
theorem Laws.holds_pass (laws : Laws permitted base shared task change)
    (h : Holds base shared task a) {t : Time} (hnow : a.now ≤ t) (hquiet : a.QuietUntil t) :
    Holds base shared task { a with now := t } where
  base_le := h.base_le
  shared := laws.pass h.shared hnow
  task := by
    intro i x hx
    refine laws.pass_task h.shared (h.task i x hx) hnow ?_
    intro u hu
    exact hquiet i u (by simp [Agenda.dueAt, show a.tasks[i]? = some x from hx, hu])

/-- What obeys the laws is kept when a task that is due now moves. -/
theorem Laws.holds_resumeAt (laws : Laws permitted base shared task change)
    (h : Holds base shared task a) {i : Nat} (hdue : a.dueAt i = some a.now) :
    Holds base shared task (a.resumeAt a.now i) := by
  obtain ⟨⟨name, x⟩, hx, hxdue⟩ := Option.bind_eq_some_iff.mp hdue
  obtain ⟨hshared, hmoved, hchange⟩ := laws.move h.shared (h.task i _ hx) hxdue
  have hresume : a.resumeAt a.now i =
      { now := a.now, shared := (Timed.resume a.shared x).1
        tasks := a.tasks.set i (name, (Timed.resume a.shared x).2) } := by
    simp [Agenda.resumeAt, hx, Time.later]
  rw [hresume]
  refine ⟨by simpa using h.base_le, hshared, ?_⟩
  intro j y hy
  simp only [List.getElem?_set] at hy
  split at hy
  · next hij =>
    split at hy
    · rw [Option.some.injEq] at hy
      rw [← hij, ← hy]
      exact hmoved
    · simp at hy
  · exact laws.bears h.shared (h.task j y hy) hchange

/-- What obeys the laws is kept by every permitted event. -/
theorem Laws.holds_of_happens (laws : Laws permitted base shared task change)
    (h : Holds base shared task a) {e : Happening ρ κ} (hpermitted : permitted e)
    (he : Happens a e b) : Holds base shared task b := by
  cases he with
  | begin name order =>
      obtain ⟨hshared, hbegun, hchange⟩ := laws.begin h.shared h.base_le order
      refine ⟨by simp [Program.begin, Agenda.begin, h.base_le.trans (Nat.le_succ _)], hshared, ?_⟩
      intro i x hx
      simp only [Program.begin, Agenda.begin] at hx ⊢
      rcases Nat.lt_trichotomy i a.tasks.length with hi | rfl | hi
      · rw [List.getElem?_append_left hi] at hx
        exact laws.bears h.shared (h.task i x hx) hchange
      · rw [List.getElem?_concat_length, Option.some.injEq] at hx
        rw [← hx]
        exact hbegun
      · rw [List.getElem?_eq_none (by simp; omega)] at hx
        simp at hx
  | command command =>
      obtain ⟨hshared, hchange⟩ := laws.command h.shared command
      refine ⟨h.base_le, hshared, ?_⟩
      intro i x hx
      exact laws.bears h.shared (h.task i x hx) hchange
  | cancel i =>
      unfold Agenda.cancel
      split
      · exact h
      · next hended =>
        refine ⟨by simpa using h.base_le, h.shared, ?_⟩
        intro j x hx
        rw [List.getElem?_modify] at hx
        obtain ⟨y, hy, rfl⟩ := Option.map_eq_some_iff.mp hx
        split
        · next hij =>
          subst hij
          have hrunning : Timed.ended y.2 = false := by
            simpa [Agenda.hasEnded, hy] using hended
          exact laws.cancel hpermitted h.shared (h.task i y hy) hrunning
        · exact h.task j y hy
  | @move i t hdue hquiet =>
      have hnow : a.now ≤ t := by
        obtain ⟨x, hx, hxdue⟩ := Option.bind_eq_some_iff.mp hdue
        exact laws.due_ge h.shared (h.task i x hx) hxdue
      have hresume : a.resumeAt t i = ({ a with now := t } : Agenda σ τ).resumeAt t i := by
        obtain ⟨x, hx, -⟩ := Option.bind_eq_some_iff.mp hdue
        simp [Agenda.resumeAt, hx, Time.later_of_le hnow, Time.later_of_le (le_refl t)]
      rw [hresume]
      exact laws.holds_resumeAt (laws.holds_pass h hnow hquiet) hdue
  | pass hnow hquiet => exact laws.holds_pass h hnow hquiet

/-- What obeys the laws holds along every schedule of permitted events. -/
theorem Schedule.keeps {es : List (Happening ρ κ)} (h : Schedule a es b)
    (laws : Laws permitted base shared task change) (hpermitted : ∀ e ∈ es, permitted e)
    (ha : Holds base shared task a) : Holds base shared task b := by
  induction h with
  | nil => exact ha
  | snoc _ he ih =>
      refine laws.holds_of_happens (ih fun e he' => hpermitted e (by simp [he'])) ?_ he
      exact hpermitted _ (by simp)

/-! ## Settling -/

/-- The number of tasks that have not ended. -/
def running (a : Agenda σ τ) : Nat :=
  a.tasks.countP fun x => !Timed.ended x.2

/--
Tasks that obey the laws and end by their moves have settled after as many moves as there are.
-/
theorem Laws.settles (laws : Laws permitted base shared task change)
    (hends : ∀ i now s x, shared now s → task i now s x → Timed.due s x = some now →
      Timed.ended x = false ∧ Timed.ended (Timed.resume s x).2 = true)
    {n : Nat} (hn : running a ≤ n) (h : Holds base shared task a) :
    (a.settle n).now = a.now ∧ (∀ i, (a.settle n).dueAt i ≠ some a.now) ∧
      Holds base shared task (a.settle n) := by
  simp only [Agenda.settle]
  induction n generalizing a with
  | zero =>
      refine ⟨rfl, ?_, h⟩
      intro i hdue
      obtain ⟨x, hx, hxdue⟩ := Option.bind_eq_some_iff.mp hdue
      have hrunning := (hends i _ _ _ h.shared (h.task i x hx) hxdue).1
      have hnone := List.countP_eq_zero.mp (Nat.le_zero.mp hn) x (List.mem_of_getElem? hx)
      simp [hrunning] at hnone
  | succ n ih =>
      rw [Agenda.run]
      split
      · next hstep => exact ⟨rfl, fun _ hdue => lt_irrefl _ (Agenda.lt_of_step hstep hdue), h⟩
      · next b hstep =>
        obtain ⟨t, i, hdue, -, hle, rfl⟩ := Agenda.exists_of_step hstep
        obtain ⟨x, hx, hxdue⟩ := Option.bind_eq_some_iff.mp hdue
        obtain rfl : t = a.now :=
          le_antisymm (hle a.now rfl) (laws.due_ge h.shared (h.task i x hx) hxdue)
        obtain ⟨hrunning, hended⟩ := hends i _ _ _ h.shared (h.task i x hx) hxdue
        have hnow : (a.resumeAt a.now i).now = a.now := by
          simp [Agenda.resumeAt, hx, Time.later]
        have hfewer : running (a.resumeAt a.now i) ≤ n := by
          obtain ⟨hi, hget⟩ := List.getElem?_eq_some_iff.mp hx
          have hpos : 0 < running a :=
            List.countP_pos_iff.mpr ⟨x, List.mem_of_getElem? hx, by simp [hrunning]⟩
          simp only [running, Agenda.resumeAt, hx] at hn hpos ⊢
          rw [List.countP_set hi]
          simp only [hget, hrunning, hended, Bool.not_false, Bool.not_true, if_true,
            Bool.false_eq_true, if_false]
          omega
        have hrest := ih hfewer (laws.holds_resumeAt h hdue)
        rwa [hnow] at hrest

end Program
end ChainPoll

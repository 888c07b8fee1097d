import ChainPoll.Timeline.Time

/-!
# Agendas

Several tasks over one shared state, run in the order of the instants at which they are due.
Running a task takes no time; when all tasks wait, the clock moves on to the earliest instant.  A
task that was begun first goes first among tasks due at one instant.

Runs have a budget of steps, because tasks need not come to an end.

Main results:

- Theorem {lit}`Agenda.step_now_le`: the clock never goes back.
- Theorem {lit}`Agenda.next?_le`: the task that moves next is one of the earliest.
-/

namespace ChainPoll

/-- Tasks that move by themselves at certain instants, over a shared state. -/
class Timed (σ : outParam Type) (τ : Type) where
  /-- The instant at which a task moves next; none for a task that has ended or waits forever. -/
  due : σ → τ → Option Time
  /-- The move of a task at the instant at which it is due. -/
  resume : σ → τ → σ × τ
  /-- Whether a task has ended. -/
  ended : τ → Bool
  /-- A task that is cancelled at an instant. -/
  cancel : Time → τ → τ

/-- Tasks over a shared state, at an instant; a task may have a name. -/
structure Agenda (σ τ : Type) where
  now : Time
  shared : σ
  tasks : List (Option String × τ)

namespace Agenda

variable {σ τ : Type} [Timed σ τ]

/-- The agenda at the start of time. -/
def start (shared : σ) : Agenda σ τ :=
  { now := 0, shared, tasks := [] }

/-! ## Moves of the tasks -/

/-- The earlier of two candidates; the first of two at one instant. -/
def sooner : Option (Time × Nat) → Option (Time × Nat) → Option (Time × Nat)
  | none, b => b
  | some a, none => some a
  | some a, some b => if b.1 < a.1 then some b else some a

/-- The instants at which the tasks are due, with the positions of the tasks. -/
def candidates (a : Agenda σ τ) : List (Option (Time × Nat)) :=
  a.tasks.zipIdx.map fun (task, i) => (Timed.due a.shared task.2).map (·, i)

/-- The task that moves next, and when. -/
def next? (a : Agenda σ τ) : Option (Time × Nat) :=
  a.candidates.foldl sooner none

/-- Moves the task at a position at an instant. -/
def resumeAt (a : Agenda σ τ) (t : Time) (i : Nat) : Agenda σ τ :=
  match a.tasks[i]? with
  | none => a
  | some (name, task) =>
    let (shared, task) := Timed.resume a.shared task
    { now := Time.later a.now t, shared, tasks := a.tasks.set i (name, task) }

/-- One move of the task that is due first, if it is due by the horizon. -/
def step (horizon : Option Time) (a : Agenda σ τ) : Option (Agenda σ τ) :=
  match a.next? with
  | none => none
  | some (t, i) => if horizon.all fun h => t ≤ h then some (a.resumeAt t i) else none

/-- Moves all tasks that are due by the horizon, within a budget of moves. -/
def run (horizon : Option Time) : Nat → Agenda σ τ → Agenda σ τ
  | 0, a => a
  | budget + 1, a =>
    match a.step horizon with
    | none => a
    | some b => run horizon budget b

/-! ## The passing of time -/

/-- Lets every task run until it waits. -/
def settle (budget : Nat) (a : Agenda σ τ) : Agenda σ τ :=
  a.run (some a.now) budget

/-- Lets time pass. -/
def sleep (budget : Nat) (span : Time) (a : Agenda σ τ) : Agenda σ τ :=
  let target := a.now + Time.later 0 span
  { a.run (some target) budget with now := target }

/-- Whether the task at a position has ended; where no task is, nothing is left to end. -/
def hasEnded (a : Agenda σ τ) (i : Nat) : Bool :=
  a.tasks[i]?.all fun task => Timed.ended task.2

/-- Lets time pass until the task at a position has ended, within a budget of moves. -/
def await (i : Nat) : Nat → Agenda σ τ → Agenda σ τ
  | 0, a => a
  | budget + 1, a =>
    if a.hasEnded i then a
    else match a.step none with
      | none => a
      | some b => await i budget b

/-! ## Beginning and cancelling tasks -/

/-- The position of the task of a name; of several the one begun last. -/
def position? (a : Agenda σ τ) (name : String) : Option Nat :=
  (a.tasks.zipIdx.reverse.find? fun entry => entry.1.1 == some name).map (·.2)

/-- Begins a task, which takes the position after all others. -/
def begin (name : Option String) (shared : σ) (task : τ) (a : Agenda σ τ) : Agenda σ τ :=
  { a with shared, tasks := a.tasks ++ [(name, task)] }

/-- Cancels the task at a position, unless it has ended; the flag tells whether it had not. -/
def cancel (i : Nat) (a : Agenda σ τ) : Bool × Agenda σ τ :=
  if a.hasEnded i then (false, a)
  else
    (true, { a with tasks := a.tasks.modify i fun task => (task.1, Timed.cancel a.now task.2) })

/-! ## The order of moves -/

/-- The clock never goes back. -/
theorem step_now_le {horizon : Option Time} {a b : Agenda σ τ} (h : a.step horizon = some b) :
    a.now ≤ b.now := by
  unfold step at h
  split at h
  · simp at h
  · split at h
    · simp only [Option.some.injEq] at h
      subst h
      unfold resumeAt
      split
      · exact Rat.le_refl
      · exact Time.le_later_left _ _
    · simp at h

/-- Folding keeps the earliest of the candidates. -/
theorem foldl_sooner_le (start : Option (Time × Nat)) (cs : List (Option (Time × Nat)))
    {r : Time × Nat} (h : cs.foldl sooner start = some r) :
    ∀ c, some c ∈ start :: cs → r.1 ≤ c.1 := by
  induction cs generalizing start with
  | nil =>
    intro c hc
    simp only [List.foldl_nil] at h
    simp only [List.mem_singleton] at hc
    rw [h, Option.some.injEq] at hc
    exact hc ▸ Rat.le_refl
  | cons d cs ih =>
    intro c hc
    rw [List.foldl_cons] at h
    have hrest := ih (sooner start d) h
    have hhead : ∀ c, some c = start ∨ some c = d → ∃ e, sooner start d = some e ∧ e.1 ≤ c.1 := by
      intro c hc
      cases start with
      | none =>
        cases d with
        | none => simp at hc
        | some b =>
          simp only [reduceCtorEq, Option.some.injEq, false_or] at hc
          exact ⟨b, rfl, hc ▸ Rat.le_refl⟩
      | some a =>
        cases d with
        | none =>
          simp only [Option.some.injEq, reduceCtorEq, or_false] at hc
          exact ⟨a, rfl, hc ▸ Rat.le_refl⟩
        | some b =>
          simp only [Option.some.injEq] at hc
          by_cases hlt : b.1 < a.1
          · refine ⟨b, by simp [sooner, hlt], ?_⟩
            rcases hc with rfl | rfl
            · exact Rat.le_of_lt hlt
            · exact Rat.le_refl
          · refine ⟨a, by simp [sooner, hlt], ?_⟩
            rcases hc with rfl | rfl
            · exact Rat.le_refl
            · exact Rat.not_lt.1 hlt
    simp only [List.mem_cons] at hc
    rcases hc with hc | hc | hc
    · obtain ⟨e, he, hle⟩ := hhead c (.inl hc)
      exact Rat.le_trans (hrest e (by simp [he])) hle
    · obtain ⟨e, he, hle⟩ := hhead c (.inr hc)
      exact Rat.le_trans (hrest e (by simp [he])) hle
    · exact hrest c (by simp [hc])

/-- The task that moves next is one of the earliest. -/
theorem next?_le {a : Agenda σ τ} {t : Time} {i : Nat} (h : a.next? = some (t, i)) {u : Time}
    {j : Nat} (hj : some (u, j) ∈ a.candidates) : t ≤ u :=
  foldl_sooner_le none a.candidates h (u, j) (by simp [hj])

end Agenda
end ChainPoll

import ChainPoll.Timeline.Agenda
import ChainPoll.Timeline.Wait

/-!
# Tasks with a single wait

A task that waits once and then has ended, with a result that depends on what ended its wait.

Main results:

- Theorem {lit}`Task.resume_ended`: a task that has ended stays as it is.
-/

namespace ChainPoll

/-- A task that waits for something, unless it is cancelled before, or has ended with a result. -/
inductive Task (ω α : Type) where
  | waiting (what : ω) (cancelAt : Option Time)
  | ended (endedAt : Time) (result : α)

/-- Things that can be waited for, over a shared state. -/
class Awaited (ω : Type) (σ α : outParam Type) where
  /-- The wait of a task, without its cancellation. -/
  wait : σ → ω → Wait
  /-- The shared state and the result when a cause ends the wait. -/
  finish : σ → ω → Time → Cause → σ × α

namespace Task

variable {ω σ α : Type} [Awaited ω σ α]

/-- When and why a task moves. -/
def wake (shared : σ) : Task ω α → Option (Time × Cause)
  | waiting what cancelAt => ({ Awaited.wait shared what with cancelAt } : Wait).wake
  | ended _ _ => none

/-- The move of a task: its wait is over. -/
def resume (shared : σ) (task : Task ω α) : σ × Task ω α :=
  match task, task.wake shared with
  | waiting what _, some (t, cause) =>
    let (shared, result) := Awaited.finish shared what t cause
    (shared, ended t result)
  | task, _ => (shared, task)

/-- Whether a task has ended. -/
def isEnded : Task ω α → Bool
  | waiting _ _ => false
  | ended _ _ => true

/-- A task that is cancelled at an instant. -/
def cancel (t : Time) : Task ω α → Task ω α
  | waiting what _ => waiting what (some t)
  | ended endedAt result => ended endedAt result

instance : Timed σ (Task ω α) where
  due shared task := (task.wake shared).map (·.1)
  resume := resume
  ended := isEnded
  cancel := cancel

/-- A task that has ended stays as it is. -/
theorem resume_ended (shared : σ) (endedAt : Time) (result : α) :
    resume shared (ended endedAt result : Task ω α) = (shared, ended endedAt result) := rfl

end Task
end ChainPoll

import ChainPoll.Timeline.Agenda

/-!
# Programs

What a user does with tasks: begin them, wait for them, cancel them, ask whether they have ended,
let time pass, and give commands that take no time.  After each move all tasks run until they wait,
and the clock is read.

Main results:

- Theorem {lit}`Program.length_run`: every move yields one observation.
- Theorem {lit}`Program.run_append`: a program continues from where the first part of it left off.
-/

namespace ChainPoll

/-- Tasks that are begun by orders, and commands that take no time. -/
class Served (τ : Type) (σ ρ κ ν : outParam Type) extends Timed σ τ where
  /-- Begins the task of an order. -/
  begin : Time → σ → ρ → σ × τ
  /-- Carries out a command. -/
  command : Time → σ → κ → σ × ν

/-- A move of a user. -/
inductive Move (ρ κ : Type) where
  /-- Begins a task under a name and goes on. -/
  | start (name : String) (order : ρ)
  /-- Begins a task and waits for its end. -/
  | perform (order : ρ)
  | command (order : κ)
  | sleep (span : Time)
  | cancel (name : String)
  /-- Asks whether a task has ended. -/
  | inquire (name : String)
  /-- Waits for the end of a task. -/
  | join (name : String)

/-- What a user sees of a move. -/
inductive Sight (τ ν : Type) where
  | nothing
  /-- A task that was waited for. -/
  | task (task : Option τ)
  /-- The reply to a command. -/
  | reply (value : ν)
  /-- Whether a task was still to be cancelled. -/
  | cancelled (flag : Bool)
  /-- Whether a task has ended. -/
  | ended (flag : Bool)

namespace Program

variable {τ σ ρ κ ν : Type} [Served τ σ ρ κ ν]

/-- The task at a position. -/
def taskAt (a : Agenda σ τ) (i : Nat) : Option τ :=
  a.tasks[i]?.map (·.2)

/-- Begins the task of an order. -/
def begin (a : Agenda σ τ) (name : Option String) (order : ρ) : Agenda σ τ :=
  let (shared, task) := Served.begin a.now a.shared order
  a.begin name shared task

/-- Makes a move. -/
def move (budget : Nat) (a : Agenda σ τ) : Move ρ κ → Agenda σ τ × Sight τ ν
  | .start name order => (begin a (some name) order, .nothing)
  | .perform order =>
    let i := a.tasks.length
    let a := (begin a none order).await i budget
    (a, .task (taskAt a i))
  | .command order =>
    let (shared, value) := Served.command (τ := τ) a.now a.shared order
    ({ a with shared }, .reply value)
  | .sleep span => (a.sleep budget span, .nothing)
  | .cancel name =>
    match a.position? name with
    | none => (a, .cancelled false)
    | some i =>
      let (flag, a) := a.cancel i
      (a, .cancelled flag)
  | .inquire name => (a, .ended ((a.position? name).all a.hasEnded))
  | .join name =>
    match a.position? name with
    | none => (a, .task none)
    | some i =>
      let a := a.await i budget
      (a, .task (taskAt a i))

/-- Makes a move and lets all tasks run until they wait. -/
def step (budget : Nat) (a : Agenda σ τ) (m : Move ρ κ) : Agenda σ τ × Sight τ ν :=
  let (a, sight) := move budget a m
  (a.settle budget, sight)

/-- Makes moves in order; each observation bears the time after its move. -/
def run (budget : Nat) (a : Agenda σ τ) :
    List (Move ρ κ) → Agenda σ τ × List (Time × Sight τ ν)
  | [] => (a, [])
  | m :: ms =>
    let (a, sight) := step budget a m
    let (last, sights) := run budget a ms
    (last, (a.now, sight) :: sights)

/-- Every move yields one observation. -/
theorem length_run (budget : Nat) (a : Agenda σ τ) (ms : List (Move ρ κ)) :
    (run budget a ms).2.length = ms.length := by
  induction ms generalizing a with
  | nil => rfl
  | cons m ms ih => simp [run, ih]

/-- A program continues from where the first part of it left off. -/
theorem run_append (budget : Nat) (a : Agenda σ τ) (ms ns : List (Move ρ κ)) :
    run budget a (ms ++ ns) =
      ((run budget (run budget a ms).1 ns).1,
        (run budget a ms).2 ++ (run budget (run budget a ms).1 ns).2) := by
  induction ms generalizing a with
  | nil => rfl
  | cons m ms ih => simp [run, ih]

end Program
end ChainPoll

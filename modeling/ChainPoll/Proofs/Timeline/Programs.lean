import ChainPoll.Proofs.Timeline.Schedule

/-!
# Programs as schedules

What a user does in a program is a schedule, if the budget suffices for all moves that are due.
Nothing is due any more then when the user goes on, so that a task that is to move just when it is
cancelled has moved before.

Main results:

- Theorem {lit}`Program.exists_schedule_program`: what a user does in a program is a schedule.
- Theorem {lit}`Program.settled_run`: after a program nothing is due any more.
- Theorem {lit}`Program.cancels_program`: a program cancels a task that is not due, or never.
-/

namespace ChainPoll

/-- Whether nothing is due any more by now. -/
def Agenda.Settled {σ τ : Type} [Timed σ τ] (a : Agenda σ τ) : Prop :=
  ∀ i t, a.dueAt i = some t → a.now < t

namespace Program

variable {τ σ ρ κ ν : Type} [Served τ σ ρ κ ν]
  {a b c : Agenda σ τ} {es fs : List (Happening ρ κ)} {ts us : List Time} {i budget : Nat}
  {m : Move ρ κ} {ms : List (Move ρ κ)} {name : Option String} {order : ρ}

/-! ## Cancellations along schedules -/

/--
A schedule along which the task at a position is cancelled at certain instants, in that order.
-/
inductive Cancels (i : Nat) (a : Agenda σ τ) :
    List (Happening ρ κ) → Agenda σ τ → List Time → Prop where
  | nil : Cancels i a [] a []
  | other {es : List (Happening ρ κ)} {b c : Agenda σ τ} {e : Happening ρ κ} {ts : List Time}
      (h : Cancels i a es b ts) (he : Happens b e c) (hother : e ≠ .cancel i) :
      Cancels i a (es ++ [e]) c ts
  | cancel {es : List (Happening ρ κ)} {b : Agenda σ τ} {ts : List Time}
      (h : Cancels i a es b ts) : Cancels i a (es ++ [.cancel i]) (b.cancel i).2 (ts ++ [b.now])

/-- What is told of cancellations is told along a schedule. -/
theorem Cancels.schedule (h : Cancels i a es b ts) : Schedule a es b := by
  induction h with
  | nil => exact .nil
  | other _ he _ ih => exact ih.snoc he
  | cancel _ ih => exact ih.snoc (.cancel i)

/-- Along every schedule the cancellations of a task can be told. -/
theorem Schedule.exists_cancels (h : Schedule a es b) (i : Nat) : ∃ ts, Cancels i a es b ts := by
  induction h with
  | nil => exact ⟨[], .nil⟩
  | @snoc es b c e _ he ih =>
      obtain ⟨ts, hts⟩ := ih
      by_cases hcancel : e = .cancel i
      · subst hcancel
        cases he with
        | cancel _ => exact ⟨_, hts.cancel⟩
      · exact ⟨ts, hts.other he hcancel⟩

/-- Along a schedule without it no cancellation of a task is told. -/
theorem Schedule.cancels (h : Schedule a es b) (hcancel : .cancel i ∉ es) :
    Cancels i a es b [] := by
  induction h with
  | nil => exact .nil
  | snoc _ he ih =>
      simp only [List.mem_append, List.mem_singleton, not_or] at hcancel
      exact (ih hcancel.1).other he fun heq => hcancel.2 heq.symm

/-- A schedule that continues another one adds its cancellations. -/
theorem Cancels.append (h : Cancels i a es b ts) (h' : Cancels i b fs c us) :
    Cancels i a (es ++ fs) c (ts ++ us) := by
  induction h' with
  | nil => simpa using h
  | other _ he hother ih =>
      rw [← List.append_assoc]
      exact ih.other he hother
  | cancel _ ih =>
      rw [← List.append_assoc, ← List.append_assoc]
      exact ih.cancel

/-- Moves of tasks cancel none. -/
theorem cancel_not_mem_of_moves (hmoves : ∀ e ∈ es, ∃ j : Nat, e = .move j) : .cancel i ∉ es := by
  intro hmem
  obtain ⟨j, hj⟩ := hmoves _ hmem
  simp at hj

/-! ## The moves of a user -/

/--
Whether a budget suffices for a move: no task is left that is due by then when a user has slept, and
none when the next move is made.
-/
def Suffices (budget : Nat) (a : Agenda σ τ) (m : Move ρ κ) : Prop :=
  (match m with
    | .sleep span =>
      (a.run (some (a.now + Time.later 0 span)) budget).step (some (a.now + Time.later 0 span)) =
        none
    | _ => True) ∧
    (step (ν := ν) budget a m).1.step (some (move (ν := ν) budget a m).1.now) = none

instance (budget : Nat) (a : Agenda σ τ) (m : Move ρ κ) :
    Decidable (Suffices (ν := ν) budget a m) :=
  match m with
  | .sleep _ => inferInstanceAs (Decidable (_ = none ∧ _ = none))
  | .start _ _ | .perform _ | .command _ | .cancel _ | .inquire _ | .join _ =>
    inferInstanceAs (Decidable (True ∧ _ = none))

/-- Whether a move cancels the task at a position. -/
def aborts (a : Agenda σ τ) (i : Nat) : Move ρ κ → Bool
  | .cancel name => a.position? name == some i
  | _ => false

/-- A move for which the budget suffices is a schedule. -/
theorem exists_schedule_move (h : Suffices budget a m) :
    ∃ es : List (Happening ρ κ), Schedule a es (move (ν := ν) budget a m).1 ∧
      ∀ i, .cancel i ∈ es → aborts a i m = true := by
  cases m with
  | start name order => exact ⟨_, .snoc .nil (.begin (some name) order), by simp⟩
  | perform order =>
      obtain ⟨es, hawait, hmoves⟩ := exists_schedule_await (ρ := ρ) (κ := κ) a.tasks.length budget
        (begin a none order)
      refine ⟨_, (Schedule.snoc .nil (.begin none order)).append hawait, fun i hmem => ?_⟩
      simp [cancel_not_mem_of_moves hmoves] at hmem
  | command order => exact ⟨_, .snoc .nil (.command order), by simp⟩
  | sleep span =>
      have htarget : a.now ≤ a.now + Time.later 0 span :=
        le_add_of_nonneg_right (Time.le_later_left 0 span)
      obtain ⟨es, hrun, hmoves⟩ := exists_schedule_run (ρ := ρ) (κ := κ)
        (some (a.now + Time.later 0 span)) budget a
      refine ⟨_, hrun.snoc (.pass (Agenda.now_run_le htarget budget)
        fun _ _ hdue => (Agenda.lt_of_step h.1 hdue).le), fun i hmem => ?_⟩
      simp [cancel_not_mem_of_moves hmoves] at hmem
  | cancel name =>
      simp only [move, aborts]
      cases a.position? name with
      | none => exact ⟨[], .nil, by simp⟩
      | some i =>
          refine ⟨_, .snoc .nil (.cancel i), fun j hmem => ?_⟩
          obtain rfl : j = i := by simpa using hmem
          exact beq_self_eq_true _
  | inquire name => exact ⟨[], .nil, by simp⟩
  | join name =>
      simp only [move]
      cases a.position? name with
      | none => exact ⟨[], .nil, by simp⟩
      | some i =>
          obtain ⟨es, hawait, hmoves⟩ := exists_schedule_await (ρ := ρ) (κ := κ) i budget a
          exact ⟨es, hawait, fun j hmem => absurd hmem (cancel_not_mem_of_moves hmoves)⟩

/-- After a move of a user tasks move until nothing is due. -/
theorem exists_schedule_step (h : Suffices budget a m) :
    ∃ es : List (Happening ρ κ), Schedule a es (step (ν := ν) budget a m).1 ∧
      ∀ i, .cancel i ∈ es → aborts a i m = true := by
  obtain ⟨es, hes, hcancel⟩ := exists_schedule_move (ν := ν) h
  obtain ⟨fs, hfs, hmoves⟩ := exists_schedule_run (ρ := ρ) (κ := κ)
    (some (move (ν := ν) budget a m).1.now) budget (move (ν := ν) budget a m).1
  refine ⟨_, hes.append hfs, fun i hmem => ?_⟩
  rcases List.mem_append.mp hmem with hmem | hmem
  · exact hcancel i hmem
  · exact absurd hmem (cancel_not_mem_of_moves hmoves)

/-- After a move of a user nothing is due any more. -/
theorem settled_step (h : Suffices (ν := ν) budget a m) :
    (step (ν := ν) budget a m).1.Settled :=
  fun _ _ hdue => (Agenda.now_run_le le_rfl budget).trans_lt (Agenda.lt_of_step h.2 hdue)

/-! ## Programs -/

/-- Whether a budget suffices for all moves of a program. -/
def SufficesAll (budget : Nat) (a : Agenda σ τ) : List (Move ρ κ) → Prop
  | [] => True
  | m :: ms => Suffices (ν := ν) budget a m ∧ SufficesAll budget (step (ν := ν) budget a m).1 ms

instance SufficesAll.decidable (budget : Nat) : (a : Agenda σ τ) → (ms : List (Move ρ κ)) →
    Decidable (SufficesAll (ν := ν) budget a ms)
  | _, [] => inferInstanceAs (Decidable True)
  | a, m :: ms =>
    have := SufficesAll.decidable budget (step (ν := ν) budget a m).1 ms
    inferInstanceAs (Decidable (_ ∧ _))

/-- A budget that suffices for a program does so for its parts. -/
theorem sufficesAll_append {ns : List (Move ρ κ)} :
    SufficesAll (ν := ν) budget a (ms ++ ns) ↔
      SufficesAll (ν := ν) budget a ms ∧
        SufficesAll (ν := ν) budget (run (ν := ν) budget a ms).1 ns := by
  induction ms generalizing a with
  | nil => simp [SufficesAll, run]
  | cons m ms ih => simp [SufficesAll, run, ih, and_assoc]

/-- What a user does in a program for which the budget suffices is a schedule. -/
theorem exists_schedule_program (h : SufficesAll (ν := ν) budget a ms) :
    ∃ es : List (Happening ρ κ), Schedule a es (run (ν := ν) budget a ms).1 := by
  induction ms generalizing a with
  | nil => exact ⟨[], .nil⟩
  | cons m ms ih =>
      obtain ⟨es, hes, -⟩ := exists_schedule_step (ν := ν) h.1
      obtain ⟨fs, hfs⟩ := ih h.2
      exact ⟨_, hes.append hfs⟩

/-- After a program nothing is due any more. -/
theorem settled_run (hsettled : a.Settled) (h : SufficesAll (ν := ν) budget a ms) :
    (run (ν := ν) budget a ms).1.Settled := by
  induction ms generalizing a with
  | nil => exact hsettled
  | cons m ms ih => exact ih (settled_step h.1) h.2

/-- The instant at which a program first cancels the task at a position, if it does. -/
def cancelledAt? (budget i : Nat) (a : Agenda σ τ) : List (Move ρ κ) → Option Time
  | [] => none
  | m :: ms =>
    if aborts a i m then some a.now else cancelledAt? budget i (step (ν := ν) budget a m).1 ms

/--
A program that goes on where nothing is due cancels a task never, or first in a state in which
nothing is due either.
-/
theorem cancels_program (hb : Cancels i a fs b []) (hsettled : b.Settled)
    (h : SufficesAll (ν := ν) budget b ms) :
    (cancelledAt? (ν := ν) budget i b ms = none ∧
        ∃ gs, Cancels i a gs (run (ν := ν) budget b ms).1 []) ∨
      ∃ c gs hs, Cancels i a gs c [] ∧ c.Settled ∧
        cancelledAt? (ν := ν) budget i b ms = some c.now ∧
        Schedule (c.cancel i).2 hs (run (ν := ν) budget b ms).1 := by
  induction ms generalizing b fs with
  | nil => exact .inl ⟨rfl, fs, hb⟩
  | cons m ms ih =>
      obtain ⟨hmove, hrest⟩ := h
      cases haborts : aborts b i m with
      | false =>
          obtain ⟨es, hes, hcancel⟩ := exists_schedule_step (ν := ν) hmove
          have hnone : .cancel i ∉ es := fun hmem => by simp [hcancel i hmem] at haborts
          simp only [cancelledAt?, haborts, Bool.false_eq_true, if_false]
          exact ih (hb.append (hes.cancels hnone)) (settled_step hmove) hrest
      | true =>
          right
          obtain ⟨name, rfl, hposition⟩ :
              ∃ name, m = .cancel name ∧ b.position? name = some i := by
            cases m <;> simp_all [aborts]
          have hstep : (step (ν := ν) budget b (.cancel name)).1 =
            (b.cancel i).2.settle budget := by
            simp [step, move, hposition]
          obtain ⟨es, hes, -⟩ := exists_schedule_run (ρ := ρ) (κ := κ)
            (some (b.cancel i).2.now) budget (b.cancel i).2
          obtain ⟨gs, hgs⟩ := exists_schedule_program (ν := ν) hrest
          have hes' : Schedule (b.cancel i).2 es (step (ν := ν) budget b (.cancel name)).1 :=
            hstep ▸ hes
          exact ⟨b, fs, _, hb, hsettled, by simp [cancelledAt?, haborts], hes'.append hgs⟩

/-- The order of a move that begins a task, and the name of the task, if the move does. -/
def order? : Move ρ κ → Option (Option String × ρ)
  | .start name order => some (some name, order)
  | .perform order => some (none, order)
  | _ => none

/-- A move that begins a task does not cancel it. -/
theorem cancels_step (horder : order? m = some (name, order)) (i : Nat) :
    ∃ es, Cancels i (begin a name order) es (step (ν := ν) budget a m).1 [] := by
  have hsettle (b : Agenda σ τ) :
        ∃ es : List (Happening ρ κ), Cancels i b es (b.settle budget) [] := by
    obtain ⟨es, hes, hmoves⟩ := exists_schedule_run (ρ := ρ) (κ := κ) (some b.now) budget b
    exact ⟨es, hes.cancels (cancel_not_mem_of_moves hmoves)⟩
  cases m with
  | start name order =>
      cases horder
      exact hsettle _
  | perform order =>
      cases horder
      obtain ⟨es, hawait, hmoves⟩ := exists_schedule_await (ρ := ρ) (κ := κ) a.tasks.length budget
        (begin a none order)
      obtain ⟨fs, hfs⟩ := hsettle ((begin a none order).await a.tasks.length budget)
      exact ⟨_, (hawait.cancels (cancel_not_mem_of_moves hmoves)).append hfs⟩
  | _ => simp [order?] at horder

end Program
end ChainPoll

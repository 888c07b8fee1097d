import ChainPoll.Timeline.Time

/-!
# Waits

A wait begins at an instant and ends at the earliest of up to four: the cancellation of the call,
its deadline, the alarm it waits for, and the closing of what it depends on.  An instant before the
wait counts from its begin.  Of two causes at one instant the one named first wins.

Main results:

- Theorem {lit}`Wait.wake_since_le`: a wait never ends before it begins.
- Theorem {lit}`Wait.wake_mem`: what ends a wait is one of its causes, at the instant of that cause.
- Theorem {lit}`Wait.wake_le`: no cause strikes before the wait ends.
-/

namespace ChainPoll

/-- What ends a wait. -/
inductive Cause where
  | cancellation
  | deadline
  | alarm
  | closing
deriving DecidableEq, Repr

/-- What limits a call from outside: its deadline and its cancellation. -/
structure Limits where
  deadlineAt : Option Time
  cancelAt : Option Time
deriving Repr

/-- A call without limits. -/
def Limits.none : Limits := ⟨Option.none, Option.none⟩

/-- The limits of a call that starts at `now`, has so much time, and is not cancelled. -/
def Limits.within (now : Time) (span : Option Time) : Limits :=
  ⟨span.map (now + ·), Option.none⟩

/-- A wait and the instants of the causes that can end it. -/
structure Wait where
  since : Time
  cancelAt : Option Time
  deadlineAt : Option Time
  alarmAt : Option Time
  closingAt : Option Time
deriving Repr

namespace Wait

/-- A wait within limits, for an alarm or a closing. -/
def within (limits : Limits) (since : Time) (alarmAt closingAt : Option Time) : Wait :=
  { since, cancelAt := limits.cancelAt, deadlineAt := limits.deadlineAt, alarmAt, closingAt }

/-- The causes of a wait with their instants, in order of precedence. -/
def causes (w : Wait) : List (Time × Cause) :=
  [(w.cancelAt, Cause.cancellation), (w.deadlineAt, .deadline), (w.alarmAt, .alarm),
    (w.closingAt, .closing)].filterMap
      fun (t, cause) => t.map fun t => (Time.later w.since t, cause)

/-- The earlier of two causes; the first of two at one instant. -/
def first (a b : Time × Cause) : Time × Cause :=
  if b.1 < a.1 then b else a

/-- When and why a wait ends; a wait without any cause never ends. -/
def wake (w : Wait) : Option (Time × Cause) :=
  match w.causes with
  | [] => none
  | a :: rest => some (rest.foldl first a)

/-- The first of several causes is one of them, and none of them is earlier. -/
theorem foldl_first (a : Time × Cause) (rest : List (Time × Cause)) :
    rest.foldl first a ∈ a :: rest ∧ ∀ b ∈ a :: rest, (rest.foldl first a).1 ≤ b.1 := by
  induction rest generalizing a with
  | nil => exact ⟨by simp, by simp⟩
  | cons c rest ih =>
    obtain ⟨hmem, hle⟩ := ih (first a c)
    have hfirst : first a c = a ∨ first a c = c := by
      unfold first
      split <;> simp
    have hbound : (first a c).1 ≤ a.1 ∧ (first a c).1 ≤ c.1 := by
      unfold first
      split
      · next h => exact ⟨Rat.le_of_lt h, Rat.le_refl⟩
      · next h => exact ⟨Rat.le_refl, Rat.not_lt.1 h⟩
    rw [List.foldl_cons]
    constructor
    · rcases List.mem_cons.1 hmem with h | h
      · rw [h]
        rcases hfirst with h' | h' <;> simp [h']
      · simp [h]
    · intro b hb
      have hstart := hle (first a c) (by simp)
      rcases List.mem_cons.1 hb with rfl | hb
      · exact Rat.le_trans hstart hbound.1
      · rcases List.mem_cons.1 hb with rfl | hb
        · exact Rat.le_trans hstart hbound.2
        · exact hle b (by simp [hb])

/-- What ends a wait is one of its causes, at the instant of that cause. -/
theorem wake_mem {w : Wait} {a : Time × Cause} (h : w.wake = some a) : a ∈ w.causes := by
  unfold wake at h
  split at h
  · simp at h
  · next b rest hcauses =>
    rw [hcauses]
    simp only [Option.some.injEq] at h
    rw [← h]
    exact (foldl_first b rest).1

/-- No cause strikes before the wait ends. -/
theorem wake_le {w : Wait} {a b : Time × Cause} (h : w.wake = some a) (hb : b ∈ w.causes) :
    a.1 ≤ b.1 := by
  unfold wake at h
  split at h
  · simp at h
  · next c rest hcauses =>
    rw [hcauses] at hb
    simp only [Option.some.injEq] at h
    rw [← h]
    exact (foldl_first c rest).2 b hb

/-- A wait never ends before it begins. -/
theorem wake_since_le {w : Wait} {a : Time × Cause} (h : w.wake = some a) : w.since ≤ a.1 := by
  have hmem := wake_mem h
  simp only [causes, List.mem_filterMap, Option.map_eq_some_iff] at hmem
  obtain ⟨_, _, t, _, rfl⟩ := hmem
  exact Time.le_later_left _ _

end Wait
end ChainPoll

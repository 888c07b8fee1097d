import ChainPoll.Timeline.Time

/-!
# The signal to stop

A signal is given at most once and stays given.  It is broadcast: whoever waits for it learns of it
at the instant at which it is given.

Main results:

- Theorem {lit}`Signal.given_close`: after closing, the signal is given.
- Theorem {lit}`Signal.close_given`: closing again changes nothing.
-/

namespace ChainPoll

/-- A signal, with the instant at which it is given, if ever. -/
structure Signal where
  givenAt : Option Time
deriving DecidableEq, Repr

namespace Signal

/-- A signal that was not given. -/
def pending : Signal := ⟨none⟩

/-- Whether the signal was given by `now`. -/
def given (s : Signal) (now : Time) : Bool :=
  Time.reached now s.givenAt

/-- Gives the signal, unless it was given before; the flag tells whether this was the first time. -/
def close (s : Signal) (now : Time) : Bool × Signal :=
  if s.given now then (false, s) else (true, ⟨some now⟩)

/-- Gives the signal at an instant to come, unless it is given by then. -/
def schedule (s : Signal) (t : Time) : Signal :=
  match s.givenAt with
  | some u => ⟨some (Time.earlier u t)⟩
  | none => ⟨some t⟩

/-- After closing, the signal is given. -/
theorem given_close (s : Signal) (now : Time) : (s.close now).2.given now = true := by
  unfold close
  split
  · next h => exact h
  · simp [given, Time.reached]

/-- Closing a signal that was given changes nothing. -/
theorem close_given {s : Signal} {now : Time} (h : s.given now = true) :
    s.close now = (false, s) := by
  simp [close, h]

/-- A signal that was given stays given. -/
theorem given_mono {s : Signal} {t u : Time} (h : s.given t = true) (htu : t ≤ u) :
    s.given u = true := by
  unfold given Time.reached at h ⊢
  cases hs : s.givenAt with
  | none => simp [hs] at h
  | some k =>
    simp only [hs, decide_eq_true_eq] at h ⊢
    exact Rat.le_trans h htu

end Signal
end ChainPoll

import ChainPoll.Timeline.Time

/-!
# Sessions

Requests share one session.  It is made when it is first needed, and a new one is made when it is
needed after the last one was closed.  Sessions are numbered from one in the order in which they are
made.

Main results:

- Theorem {lit}`Sessions.acquire_open`: the session that is acquired is open.
- Theorem {lit}`Sessions.close_idle`: closing without an open session changes nothing.
-/

namespace ChainPoll

/-- All sessions made so far, each with the instant at which it is closed, if it is. -/
structure Sessions where
  closings : List (Option Time)
deriving DecidableEq, Repr

namespace Sessions

/-- No session was made. -/
def none : Sessions := ⟨[]⟩

/-- The number of sessions made so far, which is the number of the last of them. -/
def count (s : Sessions) : Nat := s.closings.length

/-- Whether the last session is open at `now`. -/
def isOpen (s : Sessions) (now : Time) : Bool :=
  match s.closings.getLast? with
  | some closing => !Time.reached now closing
  | Option.none => false

/-- The session for a request at `now`, which is made if none is open. -/
def acquire (s : Sessions) (now : Time) : Nat × Sessions :=
  if s.isOpen now then (s.count, s) else (s.count + 1, ⟨s.closings ++ [Option.none]⟩)

/-- Closes the session that is open at `now`, if there is one. -/
def close (s : Sessions) (now : Time) : Sessions :=
  if s.isOpen now then ⟨s.closings.dropLast ++ [some now]⟩ else s

/-- The instant at which the session of a number is closed, if it is. -/
def closingOf (s : Sessions) (number : Nat) : Option Time :=
  (s.closings[number - 1]?).join

/-- After acquiring a session, one is open, and it is the one acquired. -/
theorem acquire_open (s : Sessions) (now : Time) :
    (s.acquire now).2.isOpen now = true ∧ (s.acquire now).1 = (s.acquire now).2.count := by
  unfold acquire
  split
  · next h => exact ⟨h, rfl⟩
  · exact ⟨by simp [isOpen, Time.reached], by simp [count]⟩

/-- After closing, no session is open. -/
theorem isOpen_close (s : Sessions) (now : Time) : (s.close now).isOpen now = false := by
  unfold close
  split
  · simp [isOpen, Time.reached]
  · next h => simpa using h

/-- Closing without an open session changes nothing. -/
theorem close_idle {s : Sessions} {now : Time} (h : s.isOpen now = false) : s.close now = s := by
  simp [close, h]

end Sessions
end ChainPoll

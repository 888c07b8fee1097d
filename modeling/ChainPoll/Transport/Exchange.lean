import ChainPoll.Timeline.Wait
import ChainPoll.Transport.Script
import ChainPoll.Transport.Session

/-!
# Exchanges

One request and its answer on the way.  The course of an exchange is settled when it starts, by the
answer and by the instant at which the attempt is cut off; a deadline, a cancellation or the closing
of the session can still end it before.

Main results:

- Theorem {lit}`Pause.arrival_eq_reached`: a pause that no cutoff meets ends when its span is over.
- Theorem {lit}`Flight.wait_of_settled`: an exchange that never waits heeds no limits.
-/

namespace ChainPoll

/-! ## Pauses -/

/-- How a pause ends: when it is over, when the attempt is cut off, or not at all. -/
inductive Arrival where
  | reached (t : Time)
  | cutOff (t : Time)
  | never
deriving DecidableEq, Repr

/--
How a pause ends that begins at an instant.  A pause without a span is over at once; one that would
end after the cutoff is cut off, and one that ends at the cutoff is in time.
-/
def Pause.arrival (pause : Pause) (start : Time) (cutoff : Option Time) : Arrival :=
  match pause with
  | .lasting span =>
    if span ≤ 0 then .reached start
    else
      match cutoff with
      | some c => if c < start + span then .cutOff c else .reached (start + span)
      | none => .reached (start + span)
  | .endless =>
    match cutoff with
    | some c => .cutOff c
    | none => .never

/-- A pause that no cutoff meets ends when its span is over. -/
theorem Pause.arrival_eq_reached {span start : Time} {cutoff : Option Time} (hspan : 0 < span)
    (h : ∀ c ∈ cutoff, start + span ≤ c) :
    (Pause.lasting span).arrival start cutoff = .reached (start + span) := by
  have hpos : ¬ span ≤ 0 := Rat.not_le.2 hspan
  cases cutoff with
  | none => simp [arrival, hpos]
  | some c =>
    have hc : ¬ c < start + span := Rat.not_lt.2 (h c rfl)
    simp [arrival, hpos, hc]

/-! ## Courses -/

/-- The body of an answer; an answer without content has none. -/
abbrev Body := Option ByteArray

/-- When the body of an answer is read from on, and when and how an exchange comes to its end. -/
structure Course where
  readAt : Option Time
  landing : Option (Time × Except Fault Body)

namespace Course

/-- The course of an answer that has no body to read. -/
def bare (arrival : Arrival) (result : Except Fault Body) : Course :=
  match arrival with
  | .reached t => ⟨none, some (t, result)⟩
  | .cutOff t => ⟨none, some (t, .error .overdue)⟩
  | .never => ⟨none, none⟩

/-- The course of an answer whose body is read from an instant on. -/
def reading (start : Time) (arrival : Arrival) (result : Except Fault Body) : Course :=
  { bare arrival result with readAt := some start }

end Course

/-- The course of an exchange that starts at an instant and is cut off at another. -/
def Answer.course (answer : Answer) (start : Time) (cutoff : Option Time) : Course :=
  match answer with
  | .failure delay fault => .bare (delay.arrival start cutoff) (.error fault)
  | .reply delay status readDelay body =>
    let arrival := delay.arrival start cutoff
    match arrival with
    | .reached t =>
      if status = 204 then .bare arrival (.ok none)
      else if status = 200 then .reading t (readDelay.arrival t cutoff) (body.map some)
      else .bare arrival (.error (.badStatus status ""))
    | _ => .bare arrival (.ok none)

/-! ## Exchanges under way -/

/-- An exchange under way, on a session. -/
structure Flight where
  url : String
  session : Nat
  startedAt : Time
  course : Course

/-- What is known of a request when its exchange is over. -/
structure Request where
  startedAt : Time
  url : String
  session : Nat
  /-- Whether the body was read, or had begun to be. -/
  read : Bool
  endedAt : Time
deriving DecidableEq, Repr

namespace Flight

/-- Whether an exchange takes no time at all. -/
def settled (flight : Flight) : Bool :=
  flight.course.landing.any fun landing => landing.1 == flight.startedAt

/-- The wait for the end of an exchange; one that takes no time is not disturbed. -/
def wait (flight : Flight) (sessions : Sessions) (limits : Limits) : Wait :=
  if flight.settled then .within .none flight.startedAt (some flight.startedAt) none
  else
    .within limits flight.startedAt (flight.course.landing.map (·.1))
      (sessions.closingOf flight.session)

/-- What comes of an exchange that a cause ends. -/
def outcome (flight : Flight) : Cause → Except Fault Body
  | .cancellation => .error .aborted
  | .deadline => .error .overdue
  | .closing => .error .connectionClosed
  | .alarm =>
    match flight.course.landing with
    | some (_, result) => result
    | none => .error .overdue

/-- The request of an exchange that ended at an instant. -/
def request (flight : Flight) (endedAt : Time) : Request :=
  { startedAt := flight.startedAt
    url := flight.url
    session := flight.session
    read := Time.reached endedAt flight.course.readAt
    endedAt }

/-- An exchange that never waits heeds no limits. -/
theorem wait_of_settled {flight : Flight} (h : flight.settled = true) (sessions : Sessions)
    (limits : Limits) :
    flight.wait sessions limits = .within .none flight.startedAt (some flight.startedAt) none := by
  simp [wait, h]

end Flight
end ChainPoll

import ChainPoll.Fault
import ChainPoll.Supply
import ChainPoll.Timeline.Time

/-!
# Scripts of answers

What a service answers is given by a script: one answer for each request, the last of them again and
again.  An answer is a status after a pause and a body after another, or a fault after a pause.
-/

namespace ChainPoll

/-- A pause before a part of an answer. -/
inductive Pause where
  | lasting (span : Time)
  | endless
deriving DecidableEq, Repr

/-- What a service answers to one request. -/
inductive Answer where
  /-- A status after one pause; reading the body takes another, and may fail. -/
  | reply (delay : Pause) (status : Int) (readDelay : Pause) (body : Except Fault ByteArray)
  /-- A fault after a pause. -/
  | failure (delay : Pause) (fault : Fault)

/-- The answers to all requests. -/
abbrev Script := Supply Answer

/-- The script of a service that never answers. -/
def silence : Script := ⟨.failure .endless .overdue, []⟩

end ChainPoll

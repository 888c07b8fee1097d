import ChainPoll.Transport.Exchange

/-!
# Connectors

A connector sends requests over a shared session and cuts each attempt off when its time is over.
-/

namespace ChainPoll

/-- The time that an attempt has, zero for no limit, and the sessions made so far. -/
structure Connector where
  timeout : Time
  sessions : Sessions
deriving DecidableEq, Repr

namespace Connector

/-- A connector that has sent nothing yet. -/
def fresh (timeout : Time) : Connector := ⟨timeout, .none⟩

/-- The instant at which an attempt that starts at `now` is cut off. -/
def cutoff (g : Connector) (now : Time) : Option Time :=
  if 0 < g.timeout then some (now + g.timeout) else none

/-- The number of the session for a request, which is made if none is open. -/
def session (g : Connector) (now : Time) : Nat × Connector :=
  let (number, sessions) := g.sessions.acquire now
  (number, { g with sessions })

/-- Closes the session. -/
def close (g : Connector) (now : Time) : Connector :=
  { g with sessions := g.sessions.close now }

/-- Sends a request that will be answered as given. -/
def depart (g : Connector) (now : Time) (url : String) (answer : Answer) : Flight × Connector :=
  let (session, g) := g.session now
  ({ url, session, startedAt := now, course := answer.course now (g.cutoff now) }, g)

end Connector
end ChainPoll

import ChainPoll.Transport.Connector

/-!
# Gateways

A gateway answers requests that are sent over a connector, and takes the response of each back when
the request is over.

Main results:

- Theorem {lit}`Gateway.release_toConnector`: giving a response back leaves the sessions as they
  are.
-/

namespace ChainPoll

/-- A connector, and the requests whose responses were released so far, in that order. -/
structure Gateway extends Connector where
  released : List Request
deriving DecidableEq, Repr

namespace Gateway

/-- A gateway that nothing was sent to yet. -/
def fresh (timeout : Time) : Gateway := { Connector.fresh timeout with released := [] }

/-- Releases the response of a request. -/
def release (g : Gateway) (request : Request) : Gateway :=
  { g with released := g.released ++ [request] }

/-- Giving a response back leaves the sessions as they are. -/
@[simp]
theorem release_toConnector (g : Gateway) (request : Request) :
    (g.release request).toConnector = g.toConnector := rfl

end Gateway
end ChainPoll

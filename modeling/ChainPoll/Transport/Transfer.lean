import ChainPoll.Timeline.Program
import ChainPoll.Timeline.Task
import ChainPoll.Transport.Gateway

/-!
# Transfers

Single requests over a gateway, each of them a task.  However the wait of a request ends, its
response is released then.
-/

namespace ChainPoll

/-- What comes of a transfer: its request, and the body or a fault. -/
structure Delivery where
  request : Request
  result : Except Fault Body

/-- A request to be sent, and how it will be answered. -/
structure Posting where
  url : String
  script : Script

/-- A command to a gateway. -/
inductive GatewayCommand where
  /-- Asks for the session, which is made if none is open. -/
  | session
  | close
deriving DecidableEq, Repr

namespace Transfer

instance : Awaited Flight Gateway Delivery where
  wait gateway flight := flight.wait gateway.sessions .none
  finish gateway flight t cause :=
    let request := flight.request t
    (gateway.release request, ⟨request, flight.outcome cause⟩)

/-- Sends a request. -/
def begin (now : Time) (gateway : Gateway) (posting : Posting) : Gateway × Task Flight Delivery :=
  let (flight, connector) := gateway.depart now posting.url posting.script.head
  ({ gateway with toConnector := connector }, .waiting flight none)

/-- Carries out a command; the reply is the number of the session asked for. -/
def command (now : Time) (gateway : Gateway) : GatewayCommand → Gateway × Option Nat
  | .session =>
    let (number, connector) := gateway.session now
    ({ gateway with toConnector := connector }, some number)
  | .close => ({ gateway with toConnector := gateway.close now }, none)

instance : Served (Task Flight Delivery) Gateway Posting GatewayCommand (Option Nat) where
  begin := begin
  command := command

end Transfer
end ChainPoll

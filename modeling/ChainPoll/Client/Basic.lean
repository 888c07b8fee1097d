import ChainPoll.Client.Call
import ChainPoll.Timeline.Program

/-!
# Clients

A client answers queries by calls that run side by side.  Closing it gives the signal to stop, which
ends calls that wait for their next attempt, and closes the session, which ends requests under way.

Main results:

- Theorem {lit}`Client.closed_close`: after closing, a client is closed.
- Theorem {lit}`Client.entries_close`: only the first closing is noted.
-/

namespace ChainPoll

/-- A client: the service it asks, what its calls share, and what it noted itself. -/
structure Client where
  station : Station
  hub : Hub
  entries : List Entry
deriving DecidableEq, Repr

/-- A call to be made: its query, the time it has, and how its requests will be answered. -/
structure Assignment where
  query : Query
  span : Option Time
  script : Script

/-- A command to a client. -/
inductive ClientCommand where
  | close
  /-- Asks whether the client was closed. -/
  | closed
deriving DecidableEq, Repr

namespace Client

/-- A client that was just made. -/
def make (address : String) (policy : Policy) (timeout : Time) : Client :=
  { station := { address, policy }
    hub := { signal := .pending, gateway := .fresh timeout }
    entries := [] }

/-- Whether a client was closed by `now`. -/
def closed (client : Client) (now : Time) : Bool :=
  client.hub.signal.given now

/-- Closes a client. -/
def close (client : Client) (now : Time) : Client :=
  let (first, signal) := client.hub.signal.close now
  { client with
    hub := { signal, gateway := client.hub.gateway.close now }
    entries := client.entries ++
      if first then [⟨now, .clientClosed client.station.address⟩] else [] }

/-- Begins a call. -/
def begin (now : Time) (client : Client) (order : Assignment) : Client × Call :=
  let (hub, call) :=
    Call.begin client.hub now client.station order.query (.within now order.span) order.script
  ({ client with hub }, call)

/-- Carries out a command; only a question has a reply. -/
def command (now : Time) (client : Client) : ClientCommand → Client × Option Bool
  | .close => (client.close now, none)
  | .closed => (client, some (client.closed now))

instance : Served Call Client Assignment ClientCommand (Option Bool) where
  due client call := call.due client.hub
  resume client call :=
    let (hub, call) := call.resume client.hub
    ({ client with hub }, call)
  ended call := call.outcome?.isSome
  cancel := Call.cancel
  begin := begin
  command := command

/-- After closing, a client is closed. -/
theorem closed_close (client : Client) (now : Time) : (client.close now).closed now = true := by
  exact Signal.given_close client.hub.signal now

/-- Only the first closing is noted. -/
theorem entries_close (client : Client) (now : Time) :
    (client.close now).entries =
      if client.closed now then client.entries
      else client.entries ++ [⟨now, .clientClosed client.station.address⟩] := by
  by_cases h : client.closed now = true
  · have hclose := Signal.close_given (s := client.hub.signal) h
    simp [close, hclose, h]
  · have hgiven : client.hub.signal.given now = false := by simpa [closed] using h
    simp [close, Signal.close, hgiven, h]

end Client
end ChainPoll

import ChainPoll.Client.Basic

/-!
# Asking a client

One call from its begin to its end, with nothing beside it.

Main results:

- Theorem {lit}`Call.run_of_ended`: a call that has ended is not run any further.
-/

namespace ChainPoll

namespace Call

/-- Runs a call to its end, within a budget of moves. -/
def run : Nat → Hub → Call → Hub × Call
  | 0, hub, c => (hub, c)
  | budget + 1, hub, c =>
    if c.outcome?.isSome || (c.due hub).isNone then (hub, c)
    else
      let (hub, c) := c.resume hub
      run budget hub c

/-- A call that has ended is not run any further. -/
theorem run_of_ended {c : Call} (h : c.outcome?.isSome = true) (budget : Nat) (hub : Hub) :
    run budget hub c = (hub, c) := by
  cases budget <;> simp [run, h]

end Call

namespace Client

/-- Asks a client and waits for the end of the call. -/
def ask (budget : Nat) (client : Client) (now : Time) (assignment : Assignment) : Client × Call :=
  let (client, call) := client.begin now assignment
  let (hub, call) := call.run budget client.hub
  ({ client with hub }, call)

end Client
end ChainPoll

import ChainPoll.Client.Ask
import ChainPoll.Poll.Report

/-!
# Running a poll

A poll makes a client, asks it stage by stage, one call after the other, and closes it in the end.
A call that is out of time ends the poll with a line that tells so; any other fault leaves the poll.

Main results:

- Theorem {lit}`Poll.run_closed`: the client is closed in the end, whatever happened.
-/

namespace ChainPoll
namespace Poll

/-- The state of a poll under way. -/
structure State where
  client : Client
  now : Time
  script : Script
  requests : List Request
  lines : List String

/-- What comes of a poll. -/
structure Outcome where
  client : Client
  endedAt : Time
  requests : List Request
  lines : List String
  /-- The fault that left the poll, if any. -/
  fault : Option Fault

/--
The time that each call of a poll has.  One before all others has passed when the call begins, and
so has one that is no number; one after all others never passes.
-/
def callSpan (a : Arguments) : Option Time :=
  match a.timeout with
  | .infinite true | .nan => some (-1)
  | x => x.toRat?

/-- How a client of a poll tries again. -/
def policy : Policy := ⟨Settings.retryPeriod, Settings.reportInterval⟩

/-- Asks for one thing. -/
def ask (budget : Nat) (a : Arguments) (s : State) (query : Query) :
    State × Option (Except Fault Reading) :=
  let (client, call) := s.client.ask budget s.now ⟨query, callSpan a, s.script⟩
  let s :=
    { s with client, script := call.script, requests := s.requests ++ call.trace.requests }
  match call.outcome? with
  | some (t, outcome) => ({ s with now := t }, some outcome)
  | none => (s, none)

/-- Asks for several things in order, up to the first fault. -/
def askAll (budget : Nat) (a : Arguments) (s : State) :
    List Query → State × Option (Except Fault (List Reading))
  | [] => (s, some (.ok []))
  | query :: rest =>
    match ask budget a s query with
    | (s, none) => (s, none)
    | (s, some (.error fault)) => (s, some (.error fault))
    | (s, some (.ok reading)) =>
      let (s, others) := askAll budget a s rest
      (s, others.map fun r => r.map (reading :: ·))

/-- Goes through stages in order, up to the first fault. -/
def through (budget : Nat) (a : Arguments) (s : State) :
    List Stage → State × Option (Except Fault Unit)
  | [] => (s, some (.ok ()))
  | stage :: rest =>
    match askAll budget a s stage.queries with
    | (s, none) => (s, none)
    | (s, some (.error fault)) => (s, some (.error fault))
    | (s, some (.ok readings)) =>
      through budget a { s with lines := s.lines ++ stage.report readings } rest

/-- The line that a fault leaves in the report, if the poll copes with it. -/
def faultLine (a : Arguments) : Fault → Option String
  | .timedOut _ =>
    some ("Heimdall did not answer within " ++ General.ofBinary64 a.timeout ++ "s")
  | .shutDown _ => some "Client closed while polling"
  | _ => none

/-- The state of a poll that has not asked for anything yet. -/
def start (a : Arguments) (script : Script) : State :=
  { client := .make a.address policy Settings.attemptTimeout
    now := 0, script, requests := [], lines := [] }

/-- Closes the client and adds up what came of a poll. -/
def finish (a : Arguments) (s : State) (result : Except Fault Unit) : Outcome :=
  let client := s.client.close s.now
  let outcome (lines : List String) (fault : Option Fault) : Outcome :=
    { client, endedAt := s.now, requests := s.requests, lines := s.lines ++ lines, fault }
  match result with
  | .ok _ => outcome [] none
  | .error fault =>
    match faultLine a fault with
    | some line => outcome [line] none
    | none => outcome [] (some fault)

/-- Runs a poll at a time of day; none if it does not come to its end within its budget of moves. -/
def run (budget : Nat) (a : Arguments) (time : Int) (script : Script) : Option Outcome :=
  let (s, result) := through budget a (start a script) (stages a time)
  result.map (finish a s)

/-- The client is closed in the end, whatever happened. -/
theorem run_closed {budget : Nat} {a : Arguments} {time : Int} {script : Script} {o : Outcome}
    (h : run budget a time script = some o) : o.client.closed o.endedAt = true := by
  simp only [run, Option.map_eq_some_iff] at h
  obtain ⟨result, -, rfl⟩ := h
  unfold finish
  split
  · exact Client.closed_close _ _
  · split <;> exact Client.closed_close _ _

end Poll
end ChainPoll

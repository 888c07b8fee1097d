import ChainPoll.Endpoint.Resource
import ChainPoll.Record.Envelope

/-!
# Queries

What a client is asked for, and what it answers: the record out of its envelope, or nothing where
the service had nothing yet.
-/

namespace ChainPoll

/-- What a client is asked for. -/
inductive Query where
  | checkpoint
  | checkpointCount
  | milestone
  | milestoneCount
  | span (id : SpanId)
  /-- All events from an identifier on, recorded up to a time. -/
  | events (fromId upTo : Int)
deriving DecidableEq, Repr

/-- What a client answers. -/
inductive Reading where
  | checkpoint (record : Option Checkpoint)
  | milestone (record : Option Milestone)
  | count (number : Option Int)
  | span (record : Option Span)
  | events (records : List EventRecord)
deriving DecidableEq, Repr

namespace Query

/-- The resource that one request for a query asks for; a page of events starts at a cursor. -/
def resource (query : Query) (fromId limit : Nat) : Resource :=
  match query with
  | .checkpoint => .checkpoint
  | .checkpointCount => .checkpointCount
  | .milestone => .milestone
  | .milestoneCount => .milestoneCount
  | .span id => .span id
  | .events _ upTo => .events fromId upTo limit

/-- The envelope that answers a query. -/
def form : Query → Form
  | .checkpoint => .checkpoint
  | .checkpointCount => .checkpointCount
  | .milestone => .milestone
  | .milestoneCount => .milestoneCount
  | .span _ => .span
  | .events _ _ => .events

/-- The answer to a query for which the service had nothing yet. -/
def nothing : Query → Reading
  | .checkpoint => .checkpoint none
  | .checkpointCount | .milestoneCount => .count none
  | .milestone => .milestone none
  | .span _ => .span none
  | .events _ _ => .events []

end Query

namespace Reading

/-- The record out of an envelope. -/
def ofPayload : Payload → Reading
  | .checkpoint e => .checkpoint (some e.result)
  | .count e => .count (some e.result.result)
  | .milestone e => .milestone (some e.result)
  | .span e => .span (some e.result)
  | .events e => .events (e.result.getD [])

/-- An answer as JSON; nothing is written as null. -/
def toJson : Reading → Json
  | .checkpoint record => (record.map Checkpoint.toJson).getD .null
  | .milestone record => (record.map Milestone.toJson).getD .null
  | .count number => (number.map Json.int).getD .null
  | .span record => (record.map Span.toJson).getD .null
  | .events records => .list (records.map EventRecord.toJson)

end Reading

/-- The page of events in an envelope; null and no content are no page. -/
def Payload.page : Option Payload → Option (List EventRecord)
  | some (.events e) => e.result
  | _ => none

end ChainPoll

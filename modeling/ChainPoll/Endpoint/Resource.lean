import ChainPoll.Endpoint.Basic
import ChainPoll.Settings

/-!
# Resources

What can be asked of the service, and the endpoint of each of them.
-/

namespace ChainPoll

/-- The identifier of a span: a number, or a word that the service knows. -/
inductive SpanId where
  | number (n : Int)
  | word (s : String)
deriving DecidableEq, Repr

/-- The text of a span identifier. -/
def SpanId.text : SpanId → String
  | .number n => Text.decimalString n
  | .word s => s

/-- Something that the service can be asked for. -/
inductive Resource where
  | checkpoint
  | checkpointCount
  | milestone
  | milestoneCount
  | span (id : SpanId)
  /-- A page of events from an identifier on, up to a time, with at most so many records. -/
  | events (fromId upTo limit : Int)
deriving DecidableEq, Repr

namespace Resource

/-- The path of a resource. -/
def path : Resource → String
  | .checkpoint => Settings.checkpointPath
  | .checkpointCount => Settings.checkpointCountPath
  | .milestone => Settings.milestonePath
  | .milestoneCount => Settings.milestoneCountPath
  | .span id => Settings.spanFolder ++ id.text
  | .events _ _ _ => Settings.eventsPath

/-- The query of a resource. -/
def query : Resource → List (String × QueryValue)
  | .events fromId upTo limit =>
    [("from-id", .int fromId), ("to-time", .int upTo), ("limit", .int limit)]
  | _ => []

/-- The endpoint of a resource on a base address. -/
def endpoint? [Url.HostCodec] (resource : Resource) (base : String) : Except Fault Endpoint :=
  Endpoint.make? base resource.path resource.query

end Resource
end ChainPoll

import ChainPoll.Client.Query
import ChainPoll.Poll.Arguments

/-!
# The report of a poll

A poll asks a client in stages; a stage is reported when all its queries have been answered.  A
record that the service does not have yet has no line.

Main results:

- Theorem {lit}`Poll.queries_stages`: the queries of a poll in order.
-/

namespace ChainPoll
namespace Poll

/-! ## Lines -/

/-- Fills a text up with spaces on the left. -/
def padLeft (width : Nat) (s : String) : String :=
  String.ofList (List.replicate (width - s.length) ' ') ++ s

/-- Fills a text up with spaces on the right. -/
def padRight (width : Nat) (s : String) : String :=
  s ++ String.ofList (List.replicate (width - s.length) ' ')

/-- A count, or the word for none. -/
def countText : Option Int → String
  | some n => Text.decimalString n
  | none => "None"

/-- A range of blocks. -/
def rangeText (first last : Int) : String :=
  Text.decimalString first ++ "-" ++ Text.decimalString last

/-- The line of a checkpoint. -/
def checkpointLine (c : Checkpoint) (count : Option Int) : String :=
  "Checkpoint #" ++ countText count ++ ": blocks " ++ rangeText c.startBlock c.endBlock ++ " root "
    ++ c.rootHash

/-- The line of a milestone. -/
def milestoneLine (m : Milestone) (count : Option Int) : String :=
  "Milestone #" ++ countText count ++ ": blocks " ++ rangeText m.startBlock m.endBlock ++ " hash "
    ++ m.hash

/-- The line of a span. -/
def spanLine (s : Span) : String :=
  "Span " ++ Text.decimalString s.id ++ ": blocks " ++ rangeText s.startBlock s.endBlock
    ++ " producers [" ++ String.intercalate ", " (s.selectedProducers.map Validator.signer) ++ "]"

/-- A row of the table of events. -/
def tableRow (id time contract : String) : String :=
  padLeft 8 id ++ " | " ++ padRight 25 time ++ " | " ++ padRight 42 contract

/-- The rule under the head of the table of events. -/
def tableRule : String := String.ofList (List.replicate 82 '-')

/-- The lines of events from an identifier on. -/
def eventLines (fromId : Int) (events : List EventRecord) : List String :=
  ["State sync events from " ++ Text.decimalString fromId ++ " - showing "
      ++ Text.decimalString events.length ++ ":",
    tableRow "ID" "Record Time" "Contract", tableRule]
    ++ events.map fun e => tableRow (Text.decimalString e.id) e.recordTime.text e.contract

/-! ## Stages -/

/-- A part of a poll: what it asks for, and what it reports of the answers. -/
structure Stage where
  queries : List Query
  report : List Reading → List String

/-- The stage of the latest checkpoint. -/
def checkpointStage : Stage where
  queries := [.checkpoint, .checkpointCount]
  report
    | [.checkpoint (some c), .count n] => [checkpointLine c n]
    | _ => []

/-- The stage of the latest milestone. -/
def milestoneStage : Stage where
  queries := [.milestone, .milestoneCount]
  report
    | [.milestone (some m), .count n] => [milestoneLine m n]
    | _ => []

/-- The stage of a span. -/
def spanStage (id : Int) : Stage where
  queries := [.span (.number id)]
  report
    | [.span (some s)] => [spanLine s]
    | _ => []

/-- The stage of the events from an identifier on, up to a time. -/
def eventsStage (fromId now : Int) : Stage where
  queries := [.events fromId now]
  report
    | [.events es] => eventLines fromId es
    | _ => []

/-- The stages of a poll at a time of day. -/
def stages (a : Arguments) (now : Int) : List Stage :=
  [checkpointStage, milestoneStage] ++ (a.span.map spanStage).toList
    ++ (a.fromId.map (eventsStage · now)).toList

/-- The queries of a poll in order. -/
theorem queries_stages (a : Arguments) (now : Int) :
    (stages a now).flatMap Stage.queries =
      [.checkpoint, .checkpointCount, .milestone, .milestoneCount]
        ++ (a.span.map fun id => .span (.number id)).toList
        ++ (a.fromId.map fun id => .events id now).toList := by
  cases hs : a.span <;> cases hf : a.fromId <;>
    simp [stages, checkpointStage, milestoneStage, spanStage, eventsStage, hs, hf]

end Poll
end ChainPoll

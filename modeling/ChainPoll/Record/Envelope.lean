import ChainPoll.Json.Reader
import ChainPoll.Record.Checkpoint
import ChainPoll.Record.Event
import ChainPoll.Record.Milestone
import ChainPoll.Record.Span

/-!
# Envelopes

Every answer of the service wraps its record in an envelope with the height of the chain.  A form
tells which record an envelope holds.

Main results:

- Theorem {lit}`Form.decode_of_ofBytes?`: decoding is reading the one JSON value of a text.
-/

namespace ChainPoll

/-- A record with the height of the chain at which it was answered. -/
structure Envelope (α : Type) where
  height : String
  result : α
deriving DecidableEq, Repr

namespace Envelope

open Record

/-- The fields of an envelope whose record must be present. -/
def fields (shape : Shape) : Fields :=
  .needed "height" (.text false) <|
  .needed "result" shape .nil

/-- The fields of an envelope around a list that may be null or absent. -/
def listFields (item : Shape) : Fields :=
  .needed "height" (.text false) <|
  .field "result" (.optional (.list item)) .nil

/-- An envelope as a JSON object. -/
def toJson {α : Type} (write : α → Json) (e : Envelope α) : Json :=
  .record [("height", .text e.height), ("result", write e.result)]

end Envelope

/-- The envelopes of the service. -/
inductive Form where
  | checkpoint
  | checkpointCount
  | milestone
  | milestoneCount
  | span
  | events
deriving DecidableEq, Repr

/-- The content of an answer. -/
inductive Payload where
  | checkpoint (e : Envelope Checkpoint)
  | count (e : Envelope Count)
  | milestone (e : Envelope Milestone)
  | span (e : Envelope Span)
  | events (e : Envelope (Option (List EventRecord)))
deriving DecidableEq, Repr

namespace Payload

/-- A list of events that may be null, as JSON. -/
def eventsJson : Option (List EventRecord) → Json
  | none => .null
  | some es => .list (es.map EventRecord.toJson)

/-- The content of an answer as JSON. -/
def toJson : Payload → Json
  | .checkpoint e => e.toJson Checkpoint.toJson
  | .count e => e.toJson Count.toJson
  | .milestone e => e.toJson Milestone.toJson
  | .span e => e.toJson Span.toJson
  | .events e => e.toJson eventsJson

end Payload

namespace Form

open Record

/-- The title of a form in messages. -/
def title : Form → String
  | .checkpoint => "HeimdallResponse[Checkpoint]"
  | .checkpointCount | .milestoneCount => "HeimdallResponse[Count]"
  | .milestone => "HeimdallResponse[Milestone]"
  | .span => "HeimdallResponse[HeimdallSpan]"
  | .events => "StateSyncEventsResponse"

/-- The fields of an envelope of a form. -/
def fields : Form → Fields
  | .checkpoint => Envelope.fields (.record Checkpoint.fields)
  | .checkpointCount | .milestoneCount => Envelope.fields (.record Count.fields)
  | .milestone => Envelope.fields (.record Milestone.fields)
  | .span => Envelope.fields (.record Span.fields)
  | .events => Envelope.listFields (.record EventRecord.fields)

/-- The content with the given values. -/
def ofValues : (form : Form) → form.fields.Carrier → Payload
  | .checkpoint, (height, result, ()) => .checkpoint ⟨height, Checkpoint.ofValues result⟩
  | .checkpointCount, (height, result, ()) => .count ⟨height, Count.ofValues result⟩
  | .milestone, (height, result, ()) => .milestone ⟨height, Milestone.ofValues result⟩
  | .milestoneCount, (height, result, ()) => .count ⟨height, Count.ofValues result⟩
  | .span, (height, result, ()) => .span ⟨height, Span.ofValues result⟩
  | .events, (height, result, ()) =>
    .events ⟨height, Option.map (List.map EventRecord.ofValues) result⟩

/-- Reads a JSON value as an envelope. -/
def read (form : Form) (v : Json) : Checked Payload :=
  (Shape.read (.record form.fields) v).map form.ofValues

/-- Decodes the body of an answer. -/
def decode (form : Form) (body : ByteArray) : Checked Payload :=
  match Json.ofBytes? Json.standardDepth body with
  | some v => form.read v
  | none => .error [Flaw.here .malformedText]

/-- Decoding is reading the one JSON value of a text. -/
theorem decode_of_ofBytes? {form : Form} {body : ByteArray} {v : Json}
    (h : Json.ofBytes? Json.standardDepth body = some v) : form.decode body = form.read v := by
  rw [decode, h]

end Form
end ChainPoll

import ChainPoll.Fault
import ChainPoll.Record.Envelope

/-!
# Models

All records and envelopes under one type, for callers that choose at run time what to read.  A value
that was read is shown with the names that its fields have here.
-/

namespace ChainPoll

/-- A record or an envelope. -/
inductive Model where
  | envelope (form : Form)
  | checkpoint
  | count
  | milestone
  | validator
  | validatorSet
  | span
  | event
deriving DecidableEq, Repr

namespace Model

open Record

/-- The title of a model in messages. -/
def title : Model → String
  | .envelope form => form.title
  | .checkpoint => "Checkpoint"
  | .count => "Count"
  | .milestone => "Milestone"
  | .validator => "Validator"
  | .validatorSet => "ValidatorSet"
  | .span => "HeimdallSpan"
  | .event => "EventRecordWithTime"

/-- The fields of a model. -/
def fields : Model → Fields
  | .envelope form => form.fields
  | .checkpoint => Checkpoint.fields
  | .count => Count.fields
  | .milestone => Milestone.fields
  | .validator => Validator.fields
  | .validatorSet => ValidatorSet.fields
  | .span => Span.fields
  | .event => EventRecord.fields

/-- The values of a model as JSON. -/
def toJson : (model : Model) → model.fields.Carrier → Json
  | .envelope form, values => (form.ofValues values).toJson
  | .checkpoint, values => (Checkpoint.ofValues values).toJson
  | .count, values => (Count.ofValues values).toJson
  | .milestone, values => (Milestone.ofValues values).toJson
  | .validator, values => (Validator.ofValues values).toJson
  | .validatorSet, values => (ValidatorSet.ofValues values).toJson
  | .span, values => (Span.ofValues values).toJson
  | .event, values => (EventRecord.ofValues values).toJson

/-- The fault of a value with flaws. -/
def fault (model : Model) (flaws : List Flaw) : Fault :=
  .invalidRecord model.title flaws

/-- Reads a JSON value as a model and shows what was read. -/
def check (model : Model) (v : Json) : Except Fault Json :=
  match Shape.read (.record model.fields) v with
  | .ok values => .ok (model.toJson values)
  | .error flaws => .error (model.fault flaws)

/-- Reads a text in UTF-8 as a model and shows what was read. -/
def decode (model : Model) (body : ByteArray) : Except Fault Json :=
  match Json.ofBytes? Json.standardDepth body with
  | some v => model.check v
  | none => .error (model.fault [Flaw.here .malformedText])

/-- A record never changes: assigning any of its fields fails. -/
def assign (model : Model) (name : String) : Fault :=
  model.fault [⟨.frozenField, [.key name]⟩]

end Model
end ChainPoll

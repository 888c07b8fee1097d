import Mathlib.Data.List.Forall2
import Mathlib.Logic.Equiv.List
import Mathlib.Logic.Equiv.Option
import ChainPoll.Record.Model

/-!
# The contents of records

A record holds one value for each of its fields and nothing else, so that it may be taken apart into
these values and put together again.  It is shown as an object that has the value of each field
under the name of that field.

Main results:

- Theorem {lit}`Form.values?_eq_some_iff`: the content of an answer holds the values it was made of.
- Theorem {lit}`Model.shows_toJson`: a model is shown as an object with the values of its fields.
- Theorem {lit}`Model.toJson_keys`: the object has the names of the fields, and then derived
  numbers.
-/

namespace ChainPoll

/-! ## Records taken apart -/

/-- A validator is the values of its fields. -/
def Validator.contents : Validator ≃ Validator.fields.Carrier where
  toFun v := (v.id, v.signer, v.votingPower, v.proposerPriority, ())
  invFun := ofValues
  left_inv _ := rfl
  right_inv _ := rfl

/-- A set of validators is the values of its fields. -/
def ValidatorSet.contents : ValidatorSet ≃ ValidatorSet.fields.Carrier where
  toFun s := (s.validators.map Validator.contents, s.proposer.map Validator.contents, ())
  invFun := ofValues
  left_inv s :=
    congrArg₂ mk ((Equiv.listEquivOfEquiv Validator.contents).left_inv s.validators)
      (Validator.contents.optionCongr.left_inv s.proposer)
  right_inv := fun (validators, proposer, ()) =>
    congrArg₂ (fun validators proposer => (validators, proposer, ()))
      ((Equiv.listEquivOfEquiv Validator.contents).right_inv validators)
      (Validator.contents.optionCongr.right_inv proposer)

/-- A span is the values of its fields. -/
def Span.contents : Span ≃ Span.fields.Carrier where
  toFun s := (s.id, s.startBlock, s.endBlock, s.validatorSet.contents,
    s.selectedProducers.map Validator.contents, s.chainId, ())
  invFun := ofValues
  left_inv s :=
    congrArg₂ (fun validatorSet selectedProducers => { s with validatorSet, selectedProducers })
      (ValidatorSet.contents.left_inv s.validatorSet)
      ((Equiv.listEquivOfEquiv Validator.contents).left_inv s.selectedProducers)
  right_inv := fun (id, startBlock, endBlock, validatorSet, selectedProducers, chainId, ()) =>
    congrArg₂ (fun validatorSet selectedProducers =>
        (id, startBlock, endBlock, validatorSet, selectedProducers, chainId, ()))
      (ValidatorSet.contents.right_inv validatorSet)
      ((Equiv.listEquivOfEquiv Validator.contents).right_inv selectedProducers)

/-- An event is the values of its fields. -/
def EventRecord.contents : EventRecord ≃ EventRecord.fields.Carrier where
  toFun e := (e.id, e.contract, e.data, e.txHash, e.logIndex, e.chainId, e.recordTime, ())
  invFun := ofValues
  left_inv _ := rfl
  right_inv _ := rfl

/-- A checkpoint is the values of its fields. -/
def Checkpoint.contents : Checkpoint ≃ Checkpoint.fields.Carrier where
  toFun c := (c.proposer, c.startBlock, c.endBlock, c.rootHash, c.chainId, c.timestamp, ())
  invFun := ofValues
  left_inv _ := rfl
  right_inv _ := rfl

/-- A milestone is the values of its fields. -/
def Milestone.contents : Milestone ≃ Milestone.fields.Carrier where
  toFun m :=
    (m.proposer, m.startBlock, m.endBlock, m.hash, m.chainId, m.milestoneId, m.timestamp, ())
  invFun := ofValues
  left_inv _ := rfl
  right_inv _ := rfl

/-- A count is the value of its field. -/
def Count.contents : Count ≃ Count.fields.Carrier where
  toFun c := (c.result, ())
  invFun := ofValues
  left_inv _ := rfl
  right_inv _ := rfl

/-- The values of the fields of an envelope, if the content of an answer is of a form. -/
def Form.values? : (form : Form) → Payload → Option form.fields.Carrier
  | .checkpoint, .checkpoint e => some (e.height, e.result.contents, ())
  | .checkpointCount, .count e => some (e.height, e.result.contents, ())
  | .milestone, .milestone e => some (e.height, e.result.contents, ())
  | .milestoneCount, .count e => some (e.height, e.result.contents, ())
  | .span, .span e => some (e.height, e.result.contents, ())
  | .events, .events e => some (e.height, e.result.map (List.map EventRecord.contents), ())
  | _, _ => none

/-- The events of an answer are the values of their fields. -/
def EventRecord.listContents :
    Option (List EventRecord) ≃ Option (List EventRecord.fields.Carrier) :=
  (Equiv.listEquivOfEquiv EventRecord.contents).optionCongr

/-- The content of an answer that was made of some values holds these. -/
theorem Form.values?_ofValues : (form : Form) → (values : form.fields.Carrier) →
    form.values? (form.ofValues values) = some values
  | .checkpoint, (height, result, ()) =>
    congrArg (fun result => some (height, result, ())) (Checkpoint.contents.right_inv result)
  | .checkpointCount, (height, result, ()) =>
    congrArg (fun result => some (height, result, ())) (Count.contents.right_inv result)
  | .milestone, (height, result, ()) =>
    congrArg (fun result => some (height, result, ())) (Milestone.contents.right_inv result)
  | .milestoneCount, (height, result, ()) =>
    congrArg (fun result => some (height, result, ())) (Count.contents.right_inv result)
  | .span, (height, result, ()) =>
    congrArg (fun result => some (height, result, ())) (Span.contents.right_inv result)
  | .events, (height, result, ()) =>
    congrArg (fun result => some (height, result, ())) (EventRecord.listContents.right_inv result)

/-- The content of an answer is made of the values that it holds. -/
theorem Form.ofValues_of_values? {form : Form} {payload : Payload} {values : form.fields.Carrier}
    (h : form.values? payload = some values) : form.ofValues values = payload := by
  cases form with
  | checkpoint =>
      cases payload with
      | checkpoint e =>
          obtain rfl := Option.some.inj h
          exact congrArg (fun result => Payload.checkpoint ⟨e.height, result⟩)
            (Checkpoint.contents.left_inv e.result)
      | _ => cases h
  | checkpointCount =>
      cases payload with
      | count e =>
          obtain rfl := Option.some.inj h
          exact congrArg (fun result => Payload.count ⟨e.height, result⟩)
            (Count.contents.left_inv e.result)
      | _ => cases h
  | milestone =>
      cases payload with
      | milestone e =>
          obtain rfl := Option.some.inj h
          exact congrArg (fun result => Payload.milestone ⟨e.height, result⟩)
            (Milestone.contents.left_inv e.result)
      | _ => cases h
  | milestoneCount =>
      cases payload with
      | count e =>
          obtain rfl := Option.some.inj h
          exact congrArg (fun result => Payload.count ⟨e.height, result⟩)
            (Count.contents.left_inv e.result)
      | _ => cases h
  | span =>
      cases payload with
      | span e =>
          obtain rfl := Option.some.inj h
          exact congrArg (fun result => Payload.span ⟨e.height, result⟩)
            (Span.contents.left_inv e.result)
      | _ => cases h
  | events =>
      cases payload with
      | events e =>
          obtain rfl := Option.some.inj h
          exact congrArg (fun result => Payload.events ⟨e.height, result⟩)
            (EventRecord.listContents.left_inv e.result)
      | _ => cases h

/-- The content of an answer holds the values that it was made of. -/
theorem Form.values?_eq_some_iff {form : Form} {payload : Payload} {values : form.fields.Carrier} :
    form.values? payload = some values ↔ form.ofValues values = payload :=
  ⟨ofValues_of_values?, fun h => h ▸ form.values?_ofValues values⟩

/-- The content of an answer is read exactly if the values that it holds are. -/
theorem Form.read_eq_ok_iff {form : Form} {v : Json} {payload : Payload} :
    form.read v = .ok payload ↔
      ∃ values, form.values? payload = some values ∧
        Record.Shape.read (.record form.fields) v = .ok values := by
  simp only [values?_eq_some_iff, read]
  cases Record.Shape.read (.record form.fields) v with
  | error flaws => simp [Except.map]
  | ok values =>
      constructor
      · exact fun h => ⟨values, Except.ok.inj h, rfl⟩
      · rintro ⟨values', rfl, hread⟩
        rw [Except.ok.inj hread]
        rfl

namespace Record

/-! ## Objects that show a value -/

mutual

/--
Whether a JSON value shows a value: an object that has each field under the name of the field, in
any order and beside any other keys, with a time as its calendar text and nothing as null.
-/
def Shape.Shows : (shape : Shape) → shape.Carrier → Json → Prop
  | .text _, s, v => v = .text s
  | .integer, n, v => v = .int n
  | .time, t, v => v = .text (Timestamp.text t)
  | .list item, as, v => ∃ items, v = .list items ∧ List.Forall₂ item.Shows as items
  | .optional _, none, v => v = .null
  | .optional item, some a, v => v ≠ .null ∧ item.Shows a v
  | .record fields, values, v => ∃ entries, v = .record entries ∧ fields.Shows values entries

/-- Whether the entries of an object show the values of all fields. -/
def Fields.Shows : (fields : Fields) → fields.Carrier → List (String × Json) → Prop
  | .nil, _, _ => True
  | .cons key shape rest, (a, as), entries =>
    (∃ v, key.find? entries = some (key.name, v) ∧ shape.Shows a v) ∧ rest.Shows as entries

end

/-- A list is shown by what shows its members. -/
theorem Shape.shows_list {β : Type} (item : Shape) {ofValues : item.Carrier → β} {toJson : β → Json}
    (h : ∀ a, item.Shows a (toJson (ofValues a))) (as : List item.Carrier) :
    (Shape.list item).Shows as (.list ((as.map ofValues).map toJson)) := by
  refine ⟨_, rfl, ?_⟩
  rw [List.map_map, List.forall₂_map_right_iff, List.forall₂_same]
  exact fun a _ => h a

end Record

/-! ## What is shown of a model -/

section

open Record

/-- A validator is shown as an object. -/
theorem Validator.shows_toJson (values : Validator.fields.Carrier) :
    (Shape.record Validator.fields).Shows values (Validator.ofValues values).toJson := by
  obtain ⟨id, signer, votingPower, proposerPriority, ⟨⟩⟩ := values
  exact ⟨_, rfl, ⟨_, rfl, rfl⟩, ⟨_, rfl, rfl⟩, ⟨_, rfl, rfl⟩, ⟨_, rfl, rfl⟩, trivial⟩

/-- A set of validators is shown as an object, beside its total voting power. -/
theorem ValidatorSet.shows_toJson (values : ValidatorSet.fields.Carrier) :
    (Shape.record ValidatorSet.fields).Shows values (ValidatorSet.ofValues values).toJson := by
  obtain ⟨validators, proposer, ⟨⟩⟩ := values
  have hvalidators := Shape.shows_list (.record Validator.fields) Validator.shows_toJson validators
  refine ⟨_, rfl, ⟨_, rfl, hvalidators⟩, ⟨_, rfl, ?_⟩, trivial⟩
  cases proposer with
  | none => rfl
  | some values => exact ⟨nofun, Validator.shows_toJson values⟩

/-- A span is shown as an object. -/
theorem Span.shows_toJson (values : Span.fields.Carrier) :
    (Shape.record Span.fields).Shows values (Span.ofValues values).toJson := by
  obtain ⟨id, startBlock, endBlock, validatorSet, selectedProducers, chainId, ⟨⟩⟩ := values
  have hproducers :=
    Shape.shows_list (.record Validator.fields) Validator.shows_toJson selectedProducers
  exact ⟨_, rfl, ⟨_, rfl, rfl⟩, ⟨_, rfl, rfl⟩, ⟨_, rfl, rfl⟩,
    ⟨_, rfl, ValidatorSet.shows_toJson validatorSet⟩, ⟨_, rfl, hproducers⟩, ⟨_, rfl, rfl⟩, trivial⟩

/-- An event is shown as an object. -/
theorem EventRecord.shows_toJson (values : EventRecord.fields.Carrier) :
    (Shape.record EventRecord.fields).Shows values (EventRecord.ofValues values).toJson := by
  obtain ⟨id, contract, data, txHash, logIndex, chainId, recordTime, ⟨⟩⟩ := values
  exact ⟨_, rfl, ⟨_, rfl, rfl⟩, ⟨_, rfl, rfl⟩, ⟨_, rfl, rfl⟩, ⟨_, rfl, rfl⟩, ⟨_, rfl, rfl⟩,
    ⟨_, rfl, rfl⟩, ⟨_, rfl, rfl⟩, trivial⟩

/-- A checkpoint is shown as an object. -/
theorem Checkpoint.shows_toJson (values : Checkpoint.fields.Carrier) :
    (Shape.record Checkpoint.fields).Shows values (Checkpoint.ofValues values).toJson := by
  obtain ⟨proposer, startBlock, endBlock, rootHash, chainId, timestamp, ⟨⟩⟩ := values
  exact ⟨_, rfl, ⟨_, rfl, rfl⟩, ⟨_, rfl, rfl⟩, ⟨_, rfl, rfl⟩, ⟨_, rfl, rfl⟩, ⟨_, rfl, rfl⟩,
    ⟨_, rfl, rfl⟩, trivial⟩

/-- A milestone is shown as an object, beside its number of blocks. -/
theorem Milestone.shows_toJson (values : Milestone.fields.Carrier) :
    (Shape.record Milestone.fields).Shows values (Milestone.ofValues values).toJson := by
  obtain ⟨proposer, startBlock, endBlock, hash, chainId, milestoneId, timestamp, ⟨⟩⟩ := values
  exact ⟨_, rfl, ⟨_, rfl, rfl⟩, ⟨_, rfl, rfl⟩, ⟨_, rfl, rfl⟩, ⟨_, rfl, rfl⟩, ⟨_, rfl, rfl⟩,
    ⟨_, rfl, rfl⟩, ⟨_, rfl, rfl⟩, trivial⟩

/-- A count is shown as an object. -/
theorem Count.shows_toJson (values : Count.fields.Carrier) :
    (Shape.record Count.fields).Shows values (Count.ofValues values).toJson := by
  obtain ⟨result, ⟨⟩⟩ := values
  exact ⟨_, rfl, ⟨_, rfl, rfl⟩, trivial⟩

/-- An envelope is shown as an object. -/
theorem Form.shows_toJson : (form : Form) → (values : form.fields.Carrier) →
    (Shape.record form.fields).Shows values (form.ofValues values).toJson
  | .checkpoint, (_, result, ()) =>
    ⟨_, rfl, ⟨_, rfl, rfl⟩, ⟨_, rfl, Checkpoint.shows_toJson result⟩, trivial⟩
  | .checkpointCount, (_, result, ()) =>
    ⟨_, rfl, ⟨_, rfl, rfl⟩, ⟨_, rfl, Count.shows_toJson result⟩, trivial⟩
  | .milestone, (_, result, ()) =>
    ⟨_, rfl, ⟨_, rfl, rfl⟩, ⟨_, rfl, Milestone.shows_toJson result⟩, trivial⟩
  | .milestoneCount, (_, result, ()) =>
    ⟨_, rfl, ⟨_, rfl, rfl⟩, ⟨_, rfl, Count.shows_toJson result⟩, trivial⟩
  | .span, (_, result, ()) =>
    ⟨_, rfl, ⟨_, rfl, rfl⟩, ⟨_, rfl, Span.shows_toJson result⟩, trivial⟩
  | .events, (_, none, ()) => ⟨_, rfl, ⟨_, rfl, rfl⟩, ⟨_, rfl, rfl⟩, trivial⟩
  | .events, (_, some result, ()) =>
    have hevents := Shape.shows_list (.record EventRecord.fields) EventRecord.shows_toJson result
    ⟨_, rfl, ⟨_, rfl, rfl⟩, ⟨_, rfl, nofun, hevents⟩, trivial⟩

namespace Model

/-- The numbers that are shown beside the fields of a model. -/
def derived : Model → List String
  | .milestone => ["block_count"]
  | .validatorSet => ["total_voting_power"]
  | _ => []

/-- A model is shown as an object. -/
theorem shows_toJson (model : Model) (values : model.fields.Carrier) :
    (Shape.record model.fields).Shows values (model.toJson values) := by
  cases model with
  | envelope form => exact form.shows_toJson values
  | checkpoint => exact Checkpoint.shows_toJson values
  | count => exact Count.shows_toJson values
  | milestone => exact Milestone.shows_toJson values
  | validator => exact Validator.shows_toJson values
  | validatorSet => exact ValidatorSet.shows_toJson values
  | span => exact Span.shows_toJson values
  | event => exact EventRecord.shows_toJson values

/-- What is shown of a model are values that are read. -/
theorem check_eq_ok_iff {model : Model} {v shown : Json} :
    model.check v = .ok shown ↔
      ∃ values, Shape.read (.record model.fields) v = .ok values ∧ shown = model.toJson values := by
  unfold check
  split
  · next values hread =>
    constructor
    · exact fun h => ⟨values, hread, (Except.ok.inj h).symm⟩
    · rintro ⟨values', hread', rfl⟩
      rw [Except.ok.inj (hread.symm.trans hread')]
  · next flaws hread => simp [hread]

/-- A model is shown under the names of its fields, and then the numbers beside them. -/
theorem toJson_keys (model : Model) (values : model.fields.Carrier) :
    ∃ entries, model.toJson values = .record entries ∧
      entries.map Prod.fst = model.fields.keys.map FieldKey.name ++ model.derived := by
  cases model with
  | envelope form =>
      cases form with
      | events =>
          obtain ⟨height, result, ⟨⟩⟩ := values
          exact ⟨_, rfl, rfl⟩
      | _ => exact ⟨_, rfl, rfl⟩
  | _ => exact ⟨_, rfl, rfl⟩

end Model

end

end ChainPoll

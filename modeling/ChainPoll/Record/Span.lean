import ChainPoll.Record.Reader

/-!
# Spans

A span is a range of blocks that a fixed set of validators produces.
-/

namespace ChainPoll

/-- A validator. -/
structure Validator where
  id : Int
  signer : String
  votingPower : Int
  proposerPriority : Int
deriving DecidableEq, Repr

namespace Validator

open Record

/-- The fields of a validator. -/
def fields : Fields :=
  .renamed "ID" "id" .integer <|
  .field "signer" (.text false) <|
  .renamed "power" "voting_power" .integer <|
  .renamed "accum" "proposer_priority" .integer .nil

/-- The validator with the given values. -/
def ofValues : fields.Carrier → Validator
  | (id, signer, votingPower, proposerPriority, ()) =>
    { id, signer, votingPower, proposerPriority }

/-- A validator as a JSON object. -/
def toJson (v : Validator) : Json :=
  .record
    [("id", .int v.id), ("signer", .text v.signer), ("voting_power", .int v.votingPower),
      ("proposer_priority", .int v.proposerPriority)]

end Validator

/-- A set of validators with its current proposer. -/
structure ValidatorSet where
  validators : List Validator
  proposer : Option Validator
deriving DecidableEq, Repr

namespace ValidatorSet

open Record

/-- The fields of a set of validators. -/
def fields : Fields :=
  .field "validators" (.list (.record Validator.fields)) <|
  .field "proposer" (.optional (.record Validator.fields)) .nil

/-- The set of validators with the given values. -/
def ofValues : fields.Carrier → ValidatorSet
  | (validators, proposer, ()) =>
    { validators := List.map Validator.ofValues validators
      proposer := Option.map Validator.ofValues proposer }

/-- The voting power of all validators together. -/
def totalVotingPower (s : ValidatorSet) : Int :=
  s.validators.foldr (fun v total => v.votingPower + total) 0

/-- A set of validators as a JSON object, with its total voting power. -/
def toJson (s : ValidatorSet) : Json :=
  .record
    [("validators", .list (s.validators.map Validator.toJson)),
      ("proposer", (s.proposer.map Validator.toJson).getD .null),
      ("total_voting_power", .int s.totalVotingPower)]

end ValidatorSet

/-- A range of blocks that a fixed set of validators produces. -/
structure Span where
  id : Int
  startBlock : Int
  endBlock : Int
  validatorSet : ValidatorSet
  selectedProducers : List Validator
  chainId : String
deriving DecidableEq, Repr

namespace Span

open Record

/-- The fields of a span. -/
def fields : Fields :=
  .renamed "span_id" "id" .integer <|
  .field "start_block" .integer <|
  .field "end_block" .integer <|
  .field "validator_set" (.record ValidatorSet.fields) <|
  .field "selected_producers" (.list (.record Validator.fields)) <|
  .renamed "bor_chain_id" "chain_id" (.text false) .nil

/-- The span with the given values. -/
def ofValues : fields.Carrier → Span
  | (id, startBlock, endBlock, validatorSet, selectedProducers, chainId, ()) =>
    { id, startBlock, endBlock
      validatorSet := ValidatorSet.ofValues validatorSet
      selectedProducers := List.map Validator.ofValues selectedProducers
      chainId }

/-- A span as a JSON object. -/
def toJson (s : Span) : Json :=
  .record
    [("id", .int s.id), ("start_block", .int s.startBlock), ("end_block", .int s.endBlock),
      ("validator_set", s.validatorSet.toJson),
      ("selected_producers", .list (s.selectedProducers.map Validator.toJson)),
      ("chain_id", .text s.chainId)]

end Span
end ChainPoll

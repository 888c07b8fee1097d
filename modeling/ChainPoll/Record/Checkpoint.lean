import ChainPoll.Record.Reader

/-!
# Checkpoints and counts

A checkpoint is a range of blocks that was submitted to the root chain; a count tells how many
checkpoints or milestones there are.
-/

namespace ChainPoll

/-- A range of blocks that was submitted to the root chain. -/
structure Checkpoint where
  proposer : String
  startBlock : Int
  endBlock : Int
  rootHash : String
  chainId : String
  timestamp : Int
deriving DecidableEq, Repr

namespace Checkpoint

open Record

/-- The fields of a checkpoint; its texts are trimmed. -/
def fields : Fields :=
  .field "proposer" (.text true) <|
  .field "start_block" .integer <|
  .field "end_block" .integer <|
  .field "root_hash" (.text true) <|
  .field "bor_chain_id" (.text true) <|
  .field "timestamp" .integer .nil

/-- The checkpoint with the given values. -/
def ofValues : fields.Carrier → Checkpoint
  | (proposer, startBlock, endBlock, rootHash, chainId, timestamp, ()) =>
    { proposer, startBlock, endBlock, rootHash, chainId, timestamp }

/-- A checkpoint as a JSON object. -/
def toJson (c : Checkpoint) : Json :=
  .record
    [("proposer", .text c.proposer), ("start_block", .int c.startBlock),
      ("end_block", .int c.endBlock), ("root_hash", .text c.rootHash),
      ("bor_chain_id", .text c.chainId), ("timestamp", .int c.timestamp)]

end Checkpoint

/-- A number of checkpoints or milestones. -/
structure Count where
  result : Int
deriving DecidableEq, Repr

namespace Count

open Record

/-- The fields of a count. -/
def fields : Fields :=
  .field "result" .integer .nil

/-- The count with the given value. -/
def ofValues : fields.Carrier → Count
  | (result, ()) => { result }

/-- A count as a JSON object. -/
def toJson (c : Count) : Json :=
  .record [("result", .int c.result)]

end Count
end ChainPoll

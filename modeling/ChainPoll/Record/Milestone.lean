import ChainPoll.Record.Reader

/-!
# Milestones

A milestone is a range of blocks that the validators voted final.
-/

namespace ChainPoll

/-- A range of blocks that the validators voted final. -/
structure Milestone where
  proposer : String
  startBlock : Int
  endBlock : Int
  hash : String
  chainId : String
  milestoneId : String
  timestamp : Int
deriving DecidableEq, Repr

namespace Milestone

open Record

/-- The fields of a milestone; its texts are trimmed. -/
def fields : Fields :=
  .field "proposer" (.text true) <|
  .field "start_block" .integer <|
  .field "end_block" .integer <|
  .field "hash" (.text true) <|
  .field "bor_chain_id" (.text true) <|
  .field "milestone_id" (.text true) <|
  .field "timestamp" .integer .nil

/-- The milestone with the given values. -/
def ofValues : fields.Carrier → Milestone
  | (proposer, startBlock, endBlock, hash, chainId, milestoneId, timestamp, ()) =>
    { proposer, startBlock, endBlock, hash, chainId, milestoneId, timestamp }

/-- The number of blocks of a milestone, both ends included. -/
def blockCount (m : Milestone) : Int :=
  m.endBlock - m.startBlock + 1

/-- A milestone as a JSON object, with its number of blocks. -/
def toJson (m : Milestone) : Json :=
  .record
    [("proposer", .text m.proposer), ("start_block", .int m.startBlock),
      ("end_block", .int m.endBlock), ("hash", .text m.hash), ("bor_chain_id", .text m.chainId),
      ("milestone_id", .text m.milestoneId), ("timestamp", .int m.timestamp),
      ("block_count", .int m.blockCount)]

end Milestone
end ChainPoll

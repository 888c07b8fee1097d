import ChainPoll.Record.Reader

/-!
# Events

An event was bridged from the root chain; it carries the time at which it was recorded.
-/

namespace ChainPoll

/-- An event bridged from the root chain, with the time of its record. -/
structure EventRecord where
  id : Int
  contract : String
  data : String
  txHash : String
  logIndex : Int
  chainId : String
  recordTime : Record.Timestamp
deriving DecidableEq, Repr

namespace EventRecord

open Record

/-- The fields of an event; the time of its record must be present. -/
def fields : Fields :=
  .field "id" .integer <|
  .field "contract" (.text false) <|
  .field "data" (.text false) <|
  .field "tx_hash" (.text false) <|
  .field "log_index" .integer <|
  .renamed "bor_chain_id" "chain_id" (.text false) <|
  .needed "record_time" .time .nil

/-- The event with the given values. -/
def ofValues : fields.Carrier → EventRecord
  | (id, contract, data, txHash, logIndex, chainId, recordTime, ()) =>
    { id, contract, data, txHash, logIndex, chainId, recordTime }

/-- An event as a JSON object. -/
def toJson (e : EventRecord) : Json :=
  .record
    [("id", .int e.id), ("contract", .text e.contract), ("data", .text e.data),
      ("tx_hash", .text e.txHash), ("log_index", .int e.logIndex), ("chain_id", .text e.chainId),
      ("record_time", .text e.recordTime.text)]

end EventRecord
end ChainPoll

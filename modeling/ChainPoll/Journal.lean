import ChainPoll.Decimal.General
import ChainPoll.Paging.Cursor
import ChainPoll.Timeline.Time

/-!
# Journals

What calls and clients note down while they run: each note has a level, the name of the part that
wrote it, a sentence, and further fields.

Main results:

- Theorem {lit}`Note.level_eq_error_iff`: only a page that failed is noted as an error.
-/

namespace ChainPoll

/-- The weight of a note. -/
inductive Level where
  | debug
  | info
  | warning
  | error
deriving DecidableEq, Repr

/-- The name of a level. -/
def Level.name : Level → String
  | .debug => "DEBUG"
  | .info => "INFO"
  | .warning => "WARNING"
  | .error => "ERROR"

/-- Why a call stopped between two attempts. -/
inductive Stop where
  /-- The signal to stop was given. -/
  | shutdown
  /-- The call was cancelled, or its time was over. -/
  | cancelled
deriving DecidableEq, Repr

/-- The name of a reason to stop. -/
def Stop.name : Stop → String
  | .shutdown => "shutdown"
  | .cancelled => "cancelled"

/-- Something worth noting. -/
inductive Note where
  | attemptFailed (path : String) (attempt : Nat) (fault : Fault)
  | retryPlanned (path : String) (attempt : Nat) (period : Time)
  | callStopped (path : String) (attempt : Nat) (reason : Stop)
  | pageQueried (query : String)
  | pageCompleted (index : Nat) (cursor : Cursor) (rows limit : Nat)
  | pageFailed (index : Nat) (cursor : Cursor) (fault : Fault)
  | pagesCompleted (pagesUsed totalRecords : Nat) (ending : StreamEnd)
  | clientClosed (address : String)
deriving DecidableEq, Repr

namespace Note

/-- The level of a note. -/
def level : Note → Level
  | attemptFailed _ _ _ => .warning
  | retryPlanned _ _ _ => .info
  | callStopped _ _ _ => .debug
  | pageQueried _ => .info
  | pageCompleted _ _ _ _ => .debug
  | pageFailed _ _ _ => .error
  | pagesCompleted _ _ _ => .info
  | clientClosed _ => .debug

/-- The name of the part that wrote a note. -/
def source : Note → String
  | attemptFailed _ _ _ | retryPlanned _ _ _ | callStopped _ _ _ => "runtime.rest.telemetry"
  | pageCompleted _ _ _ _ | pageFailed _ _ _ | pagesCompleted _ _ _ => "runtime.paging.telemetry"
  | pageQueried _ | clientClosed _ => "clients.heimdall_client"

/-- The sentence of a note. -/
def message : Note → String
  | attemptFailed _ _ _ => "an error while trying fetching from Heimdall"
  | retryPlanned _ _ period =>
    "Retrying again in " ++ General.ofRat period ++ " seconds to fetch data from Heimdall"
  | callStopped _ _ _ => "Shutdown detected, terminating request"
  | pageQueried _ => "Fetching state sync events"
  | pageCompleted _ _ _ _ => "page_completed"
  | pageFailed _ _ _ => "page_error"
  | pagesCompleted _ _ _ => "pagination_complete"
  | clientClosed _ => "Heimdall client closed"

/-- The fields that tell of a fault. -/
def faultFields (fault : Fault) : List (String × Json) :=
  [("error_type", .text fault.typeName), ("error_message", .text fault.headline)]

/-- The fields that tell of a position. -/
def cursorFields (index : Nat) (cursor : Cursor) : List (String × Json) :=
  [("page_index", .int index), ("from_id", .int cursor.fromId), ("to", .int cursor.upTo)]

/-- The fields of a note beside its sentence. -/
def fields : Note → List (String × Json)
  | attemptFailed path attempt fault =>
    [("path", .text path), ("attempt", .int attempt)] ++ faultFields fault
  | retryPlanned path attempt period =>
    [("path", .text path), ("attempt", .int attempt), ("retry_period", period.toJson)]
  | callStopped path attempt reason =>
    [("path", .text path), ("attempt", .int attempt), ("reason", .text reason.name)]
  | pageQueried query => [("query_params", .text query)]
  | pageCompleted index cursor rows limit =>
    cursorFields index cursor ++ [("rows", .int rows), ("limit", .int limit)]
  | pageFailed index cursor fault => cursorFields index cursor ++ faultFields fault
  | pagesCompleted pagesUsed totalRecords ending =>
    [("pages_used", .int pagesUsed), ("total_records", .int totalRecords),
      ("end_of_stream", .text ending.name)]
  | clientClosed address => [("url", .text address)]

/-- Only a page that failed is noted as an error. -/
theorem level_eq_error_iff (note : Note) :
    note.level = .error ↔ ∃ index cursor fault, note = pageFailed index cursor fault := by
  cases note <;> simp [level]

end Note

/-- A note with the instant at which it was made. -/
structure Entry where
  time : Time
  note : Note
deriving DecidableEq, Repr

end ChainPoll

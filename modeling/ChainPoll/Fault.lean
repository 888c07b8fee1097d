import ChainPoll.Record.Flaw
import ChainPoll.Text.Digits
import ChainPoll.Url.Flaw

/-!
# Faults

Everything that can end an attempt, a call or an operation without a result: its family, its
message, and whether another attempt may mend it.

Main results:

- Theorem {lit}`Fault.typeName_mem_lineage`: a fault belongs to the kind it is named after.
- Theorem {lit}`Fault.retryable_iff`: the faults that another attempt may mend are those of the
  service, those of the connection, and timeouts.
-/

namespace ChainPoll

/-- The kinds of faults of a connection. -/
inductive ConnectionKind where
  | client
  | connection
  | system
  | disconnected
  | timeout
  | payload
deriving DecidableEq, Repr

/-- The kinds of faults that belong to no family of this library. -/
inductive StrayKind where
  | general
  | runtime
  | value
  | system
  | connectionReset
  | connectionRefused
deriving DecidableEq, Repr

/-- The kinds of values that have no place in a query. -/
inductive OddValue where
  | yes
  | no
  | nothing
deriving DecidableEq, Repr

/-- A reason to refuse an argument. -/
inductive Refusal where
  | retryPeriod
  | pageLimit
  | cursorStart
  | infiniteQueryValue
  | indefiniteQueryValue
  | address (flaw : Url.Flaw)
deriving DecidableEq, Repr

/-- A value of a kind that an operation cannot take. -/
inductive Mismatch where
  | queryValue (value : OddValue)
  | incomparable (left right : String)
  | notNegatable (kind : String)
  | missingOperations (names : List String)
deriving DecidableEq, Repr

/-- What ends an attempt, a call or an operation without a result. -/
inductive Fault where
  /-- A fault of the service without further detail. -/
  | service (message : String)
  /-- The signal to stop was given. -/
  | shutDown (message : String)
  /-- An answer without a body. -/
  | emptyBody (message : String)
  /-- An answer with a status other than success; an empty message stands for the usual one. -/
  | badStatus (status : Int) (message : String)
  /-- A body that could not be read, as reported from outside. -/
  | undecodable (message : String)
  /-- A body that does not hold the record of the given title. -/
  | misshapen (title path : String) (flaws : List Record.Flaw)
  /-- A fault of the connection. -/
  | connection (kind : ConnectionKind) (message : String)
  /-- The time for an attempt or for a call is over. -/
  | timedOut (message : String)
  /-- The call was cancelled. -/
  | cancelled (message : String)
  /-- A fault that belongs to none of the families above. -/
  | stray (kind : StrayKind) (message : String)
  /-- An argument was refused. -/
  | refused (reason : Refusal)
  /-- A value is of a kind that the operation cannot take. -/
  | mistyped (mismatch : Mismatch)
  /-- The interval between reports is zero. -/
  | zeroInterval
  /-- A field that never changes was to be assigned. -/
  | frozenField (name : String)
  /-- A value does not hold the record of the given title. -/
  | invalidRecord (title : String) (flaws : List Record.Flaw)
deriving DecidableEq, Repr

/-! ## Kinds -/

/-- The name of a kind of connection faults, and the kinds it belongs to. -/
def ConnectionKind.lineage : ConnectionKind → List String
  | .client => ["ClientError", "Exception"]
  | .connection => ["ClientConnectionError", "ClientError", "Exception"]
  | .system => ["ClientOSError", "ClientConnectionError", "ClientError", "OSError", "Exception"]
  | .disconnected =>
    ["ServerDisconnectedError", "ServerConnectionError", "ClientConnectionError", "ClientError",
      "Exception"]
  | .timeout =>
    ["ServerTimeoutError", "ServerConnectionError", "ClientConnectionError", "ClientError",
      "TimeoutError", "OSError", "Exception"]
  | .payload => ["ClientPayloadError", "ClientError", "Exception"]

/-- The name of a kind of stray faults, and the kinds it belongs to. -/
def StrayKind.lineage : StrayKind → List String
  | .general => ["Exception"]
  | .runtime => ["RuntimeError", "Exception"]
  | .value => ["ValueError", "Exception"]
  | .system => ["OSError", "Exception"]
  | .connectionReset => ["ConnectionResetError", "ConnectionError", "OSError", "Exception"]
  | .connectionRefused => ["ConnectionRefusedError", "ConnectionError", "OSError", "Exception"]

/-- The kinds a refusal belongs to. -/
def Refusal.lineage : Refusal → List String
  | .address flaw =>
    if flaw.isLabelFlaw then ["UnicodeError", "ValueError", "Exception"]
    else ["ValueError", "Exception"]
  | _ => ["ValueError", "Exception"]

namespace Fault

/-- The kinds that a fault belongs to, the narrowest first. -/
def lineage : Fault → List String
  | .service _ => ["HeimdallError", "Exception"]
  | .shutDown _ => ["ShutdownDetectedError", "HeimdallError", "Exception"]
  | .emptyBody _ => ["NoResponseError", "HeimdallError", "Exception"]
  | .badStatus _ _ => ["UnsuccessfulResponseError", "HeimdallError", "Exception"]
  | .undecodable _ => ["DecodeError", "HeimdallError", "Exception"]
  | .misshapen _ _ _ => ["DecodeError", "HeimdallError", "Exception"]
  | .connection kind _ => kind.lineage
  | .timedOut _ => ["TimeoutError", "OSError", "Exception"]
  | .cancelled _ => ["CancelledError"]
  | .stray kind _ => kind.lineage
  | .refused reason => reason.lineage
  | .mistyped _ => ["TypeError", "Exception"]
  | .zeroInterval => ["ZeroDivisionError", "ArithmeticError", "Exception"]
  | .frozenField _ => ["FrozenInstanceError", "AttributeError", "Exception"]
  | .invalidRecord _ _ => ["ValidationError", "ValueError", "Exception"]

/-- The name of the narrowest kind of a fault. -/
def typeName (fault : Fault) : String :=
  fault.lineage.headD "Exception"

/-- Whether another attempt may mend a fault. -/
def retryable : Fault → Bool
  | .service _ | .shutDown _ | .emptyBody _ | .badStatus _ _ | .undecodable _ | .misshapen _ _ _
  | .connection _ _ | .timedOut _ => true
  | _ => false

/-- Whether a fault is an ordinary error, which a cancellation is not. -/
def ordinary : Fault → Bool
  | .cancelled _ => false
  | _ => true

end Fault

/-! ## Messages -/

/-- The word for one or several flaws. -/
def flawCount (n : Nat) : String :=
  Text.decimalString n ++ (if n = 1 then " validation error" else " validation errors")

/-- The message of a refusal. -/
def Refusal.message : Refusal → String
  | .retryPeriod => "Retry period must be positive"
  | .pageLimit => "limit must be positive"
  | .cursorStart => "from_id must be >= 0"
  | .infiniteQueryValue => "float('inf') is not supported"
  | .indefiniteQueryValue => "float('nan') is not supported"
  | .address flaw => flaw.message

/-- How a value that has no place in a query is written, with the name of its type. -/
def OddValue.text : OddValue → String
  | .yes => "True of type <class 'bool'>"
  | .no => "False of type <class 'bool'>"
  | .nothing => "None of type <class 'NoneType'>"

/-- The message of a mismatch. -/
def Mismatch.message : Mismatch → String
  | .queryValue value =>
    "Invalid variable type: value should be str, int or float, got " ++ value.text
  | .incomparable left right =>
    "'<' not supported between instances of '" ++ left ++ "' and '" ++ right ++ "'"
  | .notNegatable kind => "bad operand type for unary -: '" ++ kind ++ "'"
  | .missingOperations names => String.intercalate ", " names

namespace Fault

/-- The message of a fault. -/
def message : Fault → String
  | .service m | .shutDown m | .emptyBody m | .undecodable m => m
  | .badStatus status m =>
    if m = "" then
      "error while fetching data from Heimdall: response code " ++ Text.decimalString status
    else m
  | .misshapen title path flaws =>
    "invalid " ++ title ++ " from " ++ path ++ ": " ++ flawCount flaws.length ++ " for " ++ title
  | .connection _ m | .timedOut m | .cancelled m | .stray _ m => m
  | .refused reason => reason.message
  | .mistyped mismatch => mismatch.message
  | .zeroInterval => "integer modulo by zero"
  | .frozenField name => "cannot assign to field " ++ Text.quoted name
  | .invalidRecord title flaws => flawCount flaws.length ++ " for " ++ title

/-- The first line of the message of a fault. -/
def headline (fault : Fault) : String :=
  String.ofList (fault.message.toList.takeWhile (· ≠ '\n'))

/-- The status of an answer, for a fault that has one. -/
def status? : Fault → Option Int
  | .badStatus status _ => some status
  | _ => none

/-- The flaws of a body, for a fault that rests on them. -/
def flaws? : Fault → Option (List Record.Flaw)
  | .misshapen _ _ flaws | .invalidRecord _ flaws => some flaws
  | _ => none

/-- The signal to stop, with the usual message. -/
def stopped : Fault := .shutDown "shutdown detected"

/-- An answer without a body, with the usual message. -/
def noBody : Fault := .emptyBody "got an empty response"

/-- An attempt or a call out of time, with no message. -/
def overdue : Fault := .timedOut ""

/-- A cancelled call, with no message. -/
def aborted : Fault := .cancelled ""

/-- A request cut off by the closing of its session. -/
def connectionClosed : Fault := .connection .connection "Connection closed"

/-- A fault belongs to the kind it is named after. -/
theorem typeName_mem_lineage (fault : Fault) : fault.typeName ∈ fault.lineage := by
  have hne : fault.lineage ≠ [] := by
    cases fault with
    | connection kind _ => cases kind <;> simp [lineage, ConnectionKind.lineage]
    | stray kind _ => cases kind <;> simp [lineage, StrayKind.lineage]
    | refused reason =>
      cases reason <;> simp only [lineage, Refusal.lineage] <;> try simp
      split <;> simp
    | _ => simp [lineage]
  rw [typeName, List.headD_eq_head?_getD]
  cases h : fault.lineage with
  | nil => exact absurd h hne
  | cons a as => simp

/--
The faults that another attempt may mend are those of the service, those of the connection, and
timeouts.
-/
theorem retryable_iff (fault : Fault) :
    fault.retryable = true ↔
      "HeimdallError" ∈ fault.lineage ∨ "ClientError" ∈ fault.lineage
        ∨ "TimeoutError" ∈ fault.lineage := by
  cases fault with
  | connection kind _ => cases kind <;> simp [retryable, lineage, ConnectionKind.lineage]
  | stray kind _ => cases kind <;> simp [retryable, lineage, StrayKind.lineage]
  | refused reason =>
    cases reason with
    | address flaw =>
      simp only [retryable, lineage, Refusal.lineage]
      split <;> simp
    | _ => simp [retryable, lineage, Refusal.lineage]
  | _ => simp [retryable, lineage]

end Fault
end ChainPoll

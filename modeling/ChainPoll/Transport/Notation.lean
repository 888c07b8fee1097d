import ChainPoll.Json.Value
import ChainPoll.Transport.Script
import ChainPoll.Url.Escape

/-!
# Writing scripts down

Scripts, pauses and faults as JSON values, read into the types of this library.
-/

namespace ChainPoll
namespace Notation

/-- Reads a number as a time. -/
def time? : Json → Option Time
  | .int n => some n
  | .float x => x.toRat?
  | _ => none

/-- Reads a whole number. -/
def int? : Json → Option Int
  | .int n => some n
  | _ => none

/-- Reads a text. -/
def text? : Json → Option String
  | .text s => some s
  | _ => none

/-- Reads a list. -/
def list? : Json → Option (List Json)
  | .list items => some items
  | _ => none

/-- Reads a pause; without one there is none. -/
def pause : Option Json → Pause
  | some (.text _) => .endless
  | some v => .lasting ((time? v).getD 0)
  | none => .lasting 0

/-- Reads the octets of a text in hexadecimal; other characters end it. -/
def octets : List Char → List UInt8
  | high :: low :: rest =>
    match Url.escapedOctet? high low with
    | some b => b :: octets rest
    | none => []
  | _ => []

/-- Reads a body: a text, octets in hexadecimal, or nothing. -/
def body (item : Json) : ByteArray :=
  match (item.get? "body").bind text?, (item.get? "body_hex").bind text? with
  | some s, _ => s.toUTF8
  | none, some s => ByteArray.mk (octets s.toList).toArray
  | none, none => ByteArray.empty

/-- The fault of a kind with a message; without one it has the usual message of its kind. -/
def fault (kind : String) (message : Option String) (status : Int) : Fault :=
  let plain := message.getD ""
  match kind with
  | "HeimdallError" => .service plain
  | "ShutdownDetectedError" => message.elim Fault.stopped .shutDown
  | "NoResponseError" => message.elim Fault.noBody .emptyBody
  | "UnsuccessfulResponseError" => .badStatus status plain
  | "DecodeError" => .undecodable plain
  | "ClientError" => .connection .client plain
  | "ClientConnectionError" => .connection .connection plain
  | "ClientOSError" => .connection .system plain
  | "ServerDisconnectedError" => .connection .disconnected (message.getD "Server disconnected")
  | "ServerTimeoutError" => .connection .timeout plain
  | "ClientPayloadError" => .connection .payload plain
  | "TimeoutError" => .timedOut plain
  | "CancelledError" => .cancelled plain
  | "RuntimeError" => .stray .runtime plain
  | "OSError" => .stray .system plain
  | "ConnectionResetError" => .stray .connectionReset plain
  | "ConnectionRefusedError" => .stray .connectionRefused plain
  | "ValueError" => .stray .value plain
  | _ => .stray .general plain

/-- Reads a fault. -/
def faultOf (item : Json) (kind : String) : Fault :=
  fault kind ((item.get? "message").bind text?) (((item.get? "status_code").bind int?).getD 500)

/-- Reads a fault that is written under the key `error`, if there is one. -/
def fault? (item : Json) : Option Fault :=
  ((item.get? "error").bind text?).map (faultOf item)

/-- Reads one answer. -/
def answer (item : Json) : Answer :=
  match fault? item with
  | some fault => .failure (pause (item.get? "delay")) fault
  | none =>
    let read : Except Fault ByteArray :=
      match (item.get? "read_error").bind fault? with
      | some fault => .error fault
      | none => .ok (body item)
    .reply (pause (item.get? "delay")) (((item.get? "status").bind int?).getD 200)
      (pause (item.get? "read_delay")) read

/-- Reads a script; one without answers is silence. -/
def script (items : List Json) : Script :=
  (Supply.ofList? (items.map answer)).getD silence

end Notation
end ChainPoll

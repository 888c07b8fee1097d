import ChainPoll.Endpoint.Basic
import ChainPoll.Record.Envelope
import ChainPoll.Transport.Exchange

/-!
# Errands

What a call is sent for: the URL to ask, and the envelope to expect.  An answer without content is a
success without an envelope; an answer without a body, or with a body that does not hold the
envelope, is a fault.

Main results:

- Theorem {lit}`Errand.interpret_error`: a fault of the exchange is a fault of the attempt.
-/

namespace ChainPoll

/-- The URL to ask, if it can be built, with the path to name in messages, and the form expected. -/
structure Errand where
  url : Except Fault String
  path : String
  form : Form

namespace Errand

/-- The errand to an endpoint. -/
def ofEndpoint (endpoint : Endpoint) (form : Form) : Errand :=
  { url := endpoint.url?, path := endpoint.path, form }

/-- What a body holds. -/
def decode (errand : Errand) (bytes : ByteArray) : Except Fault Payload :=
  if bytes.isEmpty then .error .noBody
  else
    match errand.form.decode bytes with
    | .ok payload => .ok payload
    | .error flaws => .error (.misshapen errand.form.title errand.path flaws)

/-- What an attempt comes to: an envelope, nothing where the answer had no content, or a fault. -/
def interpret (errand : Errand) : Except Fault Body → Except Fault (Option Payload)
  | .error fault => .error fault
  | .ok none => .ok none
  | .ok (some bytes) => (errand.decode bytes).map some

/-- A fault of the exchange is a fault of the attempt. -/
theorem interpret_error (errand : Errand) (fault : Fault) :
    errand.interpret (.error fault) = .error fault := rfl

end Errand
end ChainPoll

import ChainPoll.Decimal.Binary64

/-!
# JSON values

The values of JSON texts.  Whole numbers are exact and kept apart from numbers with a point or an
exponent; an object keeps its keys in order, repeated ones included, and the last of them counts.
-/

namespace ChainPoll

/-- A JSON value. -/
inductive Json where
  | null
  | bool (b : Bool)
  | int (n : Int)
  | float (x : Binary64)
  | text (s : String)
  | list (items : List Json)
  | record (fields : List (String × Json))
deriving Inhabited

namespace Json

/-- The value of a key; of several with the same key the last one counts. -/
def field? (fields : List (String × Json)) (key : String) : Option Json :=
  (fields.reverse.find? fun entry => entry.1 == key).map (·.2)

/-- The value of a key of an object. -/
def get? (key : String) : Json → Option Json
  | .record fields => field? fields key
  | _ => none

end Json
end ChainPoll

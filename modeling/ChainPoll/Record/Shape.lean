import ChainPoll.Record.Timestamp

/-!
# Shapes of records

What a JSON value must look like to be a record or a part of one, and the values that a shape holds.
A field has a name here and a key in the service's texts; a field that is not required takes the
zero of its shape where it is absent.
-/

namespace ChainPoll
namespace Record

/--
A field: the key that the service writes, the name it has here, and whether it must be present.
-/
structure FieldKey where
  wire : String
  name : String
  required : Bool
deriving DecidableEq, Repr

mutual

/-- The shape of a value; a trimmed text loses the blanks at its ends. -/
inductive Shape where
  | text (trimmed : Bool)
  | integer
  | time
  | list (item : Shape)
  | optional (item : Shape)
  | record (fields : Fields)

/-- The fields of a record, in order. -/
inductive Fields where
  | nil
  | cons (key : FieldKey) (shape : Shape) (rest : Fields)

end

mutual

/-- The values of a shape. -/
def Shape.Carrier : Shape → Type
  | .text _ => String
  | .integer => Int
  | .time => Timestamp
  | .list item => List item.Carrier
  | .optional item => Option item.Carrier
  | .record fields => fields.Carrier

/-- The values of the fields of a record. -/
def Fields.Carrier : Fields → Type
  | .nil => Unit
  | .cons _ shape rest => shape.Carrier × rest.Carrier

end

mutual

/-- The value of an absent part. -/
def Shape.zero : (shape : Shape) → shape.Carrier
  | .text _ => ""
  | .integer => (0 : Int)
  | .time => Timestamp.start
  | .list _ => []
  | .optional _ => none
  | .record fields => fields.zero

/-- The values of absent fields. -/
def Fields.zero : (fields : Fields) → fields.Carrier
  | .nil => ()
  | .cons _ shape rest => (shape.zero, rest.zero)

end

namespace Fields

/-- A field that may be absent and has one key. -/
def field (name : String) (shape : Shape) (rest : Fields) : Fields :=
  .cons ⟨name, name, false⟩ shape rest

/-- A field that may be absent and has another key in the service's texts. -/
def renamed (wire name : String) (shape : Shape) (rest : Fields) : Fields :=
  .cons ⟨wire, name, false⟩ shape rest

/-- A field that must be present. -/
def needed (name : String) (shape : Shape) (rest : Fields) : Fields :=
  .cons ⟨name, name, true⟩ shape rest

/-- The keys of a record, in order. -/
def keys : Fields → List FieldKey
  | .nil => []
  | .cons key _ rest => key :: rest.keys

end Fields

end Record
end ChainPoll

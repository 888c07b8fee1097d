/-!
# Flaws of records

What is wrong with a value that should be a record, and where.
-/

namespace ChainPoll
namespace Record

/-- A step from a value to a part of it. -/
inductive Step where
  | key (name : String)
  | index (i : Nat)
deriving DecidableEq, Repr

/-- A kind of flaw. -/
inductive Defect where
  | malformedText
  | notRecord
  | notList
  | absent
  | notText
  | notInteger
  | unreadableInteger
  | fractionalInteger
  | overlargeInteger
  | notFinite
  | notTime
  | unreadableTime
  | timeOutOfRange
  | frozenField
deriving DecidableEq, Repr

/-- The code of a kind of flaw. -/
def Defect.code : Defect → String
  | .malformedText => "json_invalid"
  | .notRecord => "model_type"
  | .notList => "list_type"
  | .absent => "missing"
  | .notText => "string_type"
  | .notInteger => "int_type"
  | .unreadableInteger => "int_parsing"
  | .fractionalInteger => "int_from_float"
  | .overlargeInteger => "int_parsing_size"
  | .notFinite => "finite_number"
  | .notTime => "datetime_type"
  | .unreadableTime => "datetime_from_date_parsing"
  | .timeOutOfRange => "datetime_parsing"
  | .frozenField => "frozen_instance"

/-- A flaw and the place where it lies, from the outside in. -/
structure Flaw where
  defect : Defect
  place : List Step
deriving DecidableEq, Repr

/-- A flaw of a part is a flaw of the whole, one step further inside. -/
def Flaw.within (step : Step) (flaw : Flaw) : Flaw :=
  { flaw with place := step :: flaw.place }

/-- A flaw of the whole value. -/
def Flaw.here (defect : Defect) : Flaw :=
  { defect, place := [] }

end Record
end ChainPoll

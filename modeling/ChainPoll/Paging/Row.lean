import ChainPoll.Json.Equality
import ChainPoll.Paging.Order

/-!
# Rows

Rows have an identifier and a tag, which may be values of any kind, and are put in order by one or
the other.  Numbers compare by size and texts by their characters; values of different kinds do not
compare.
-/

namespace ChainPoll

/-- A record of a page: an identifier and a tag. -/
structure Row where
  id : Json
  tag : Json

/-- What rows are put in order by. -/
inductive SortKey where
  | id
  | negatedId
  | tag
  | tagThenId
  /-- All rows are equal. -/
  | constant
deriving DecidableEq, Repr

/-- The name of the kind of a value. -/
def Json.kindName : Json → String
  | .null => "NoneType"
  | .bool _ => "bool"
  | .int _ => "int"
  | .float _ => "float"
  | .text _ => "str"
  | .list _ => "list"
  | .record _ => "dict"

namespace Row

/-- Whether a value is a number; truth values are. -/
def isNumber : Json → Bool
  | .bool _ | .int _ | .float _ => true
  | _ => false

/-- Whether two values compare. -/
def comparable : Json → Json → Bool
  | .text _, .text _ => true
  | a, b => isNumber a && isNumber b

/-- Whether a number is smaller than another; infinite numbers are beyond all others. -/
def numberLt (a b : Json) : Bool :=
  match a.number?, b.number? with
  | some x, some y => decide (x < y)
  | some _, none => match b with
    | .float (.infinite negative) => !negative
    | _ => false
  | none, some _ => match a with
    | .float (.infinite negative) => negative
    | _ => false
  | none, none => match a, b with
    | .float (.infinite true), .float (.infinite false) => true
    | _, _ => false

/-- Whether a value is smaller than another. -/
def valueLt : Json → Json → Bool
  | .text s, .text t => decide (s < t)
  | a, b => numberLt a b

/-- Why a value cannot be compared with another. -/
def valueClash (a b : Json) : Option Fault :=
  if comparable a b then none else some (.mistyped (.incomparable a.kindName b.kindName))

/-- The order of rows by the values that a key picks. -/
def orderBy (pick : Row → Json) : Order Row :=
  { reject := fun _ => none
    clash := fun a b => valueClash (pick a) (pick b)
    le := fun a b => !valueLt (pick b) (pick a) }

/-- Why a row has no negated identifier. -/
def notNegatable (row : Row) : Option Fault :=
  if isNumber row.id then none else some (.mistyped (.notNegatable row.id.kindName))

/-- The order of rows by tag, and by identifier where the tags are equal. -/
def byTagThenId : Order Row :=
  { reject := fun _ => none
    clash := fun a b =>
      if a.tag.same b.tag then
        if a.id.same b.id then none else valueClash a.id b.id
      else valueClash a.tag b.tag
    le := fun a b =>
      if a.tag.same b.tag then a.id.same b.id || !valueLt b.id a.id else !valueLt b.tag a.tag }

end Row

/-- The order of rows by a key. -/
def SortKey.order : SortKey → Order Row
  | .id => Row.orderBy Row.id
  | .negatedId =>
    { reject := Row.notNegatable
      clash := fun _ _ => none
      le := fun a b => !Row.valueLt a.id b.id }
  | .tag => Row.orderBy Row.tag
  | .tagThenId => Row.byTagThenId
  | .constant => { reject := fun _ => none, clash := fun _ _ => none, le := fun _ _ => true }

end ChainPoll

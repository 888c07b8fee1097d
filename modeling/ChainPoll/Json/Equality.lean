import ChainPoll.Json.Value

/-!
# Equality of JSON values

Values are compared by content: numbers by their size, where truth values count as one and zero;
lists in order; objects regardless of the order of their keys, the last of several equal keys
counting.  A number that is none differs from itself.

Main results:

- Theorem {lit}`Json.same_int`: whole numbers are equal only to themselves.
-/

namespace ChainPoll
namespace Json

/-- The number that a value is equal to. -/
def number? : Json → Option Rat
  | .int n => some n
  | .float x => x.toRat?
  | .bool b => some (if b then 1 else 0)
  | _ => none

mutual

/-- Whether two values are equal. -/
def same : Json → Json → Bool
  | .null, .null => true
  | .text s, .text t => s == t
  | .list as, .list bs => sameList as bs
  | .record as, .record bs => sameFields as bs && bs.all fun entry => (field? as entry.1).isSome
  | .float (.infinite s), .float (.infinite t) => s == t
  | a, b =>
    match a.number?, b.number? with
    | some x, some y => x == y
    | _, _ => false

/-- Whether two lists have equal items in order. -/
def sameList : List Json → List Json → Bool
  | [], [] => true
  | a :: as, b :: bs => same a b && sameList as bs
  | _, _ => false

/-- Whether every field has an equal one among others; an entry repeated later does not count. -/
def sameFields : List (String × Json) → List (String × Json) → Bool
  | [], _ => true
  | (key, a) :: rest, others =>
    (rest.any (·.1 == key) ||
      match field? others key with
      | some b => same a b
      | none => false)
    && sameFields rest others

end

/-- Whole numbers are equal only to themselves. -/
theorem same_int (m n : Int) : same (.int m) (.int n) = true ↔ m = n := by
  simp [same, number?]

end Json
end ChainPoll

import ChainPoll.Url.Origin

/-!
# Targets

What a request is sent to: an origin, and behind it a path and a query, both escaped.  Two targets
are the same if their parts are, whether or not they can be written: only the text of a target reads
its authority.

Main results:

- Theorem {lit}`Target.text_of_origin`: the text of a target by that of its origin.
-/

namespace ChainPoll
namespace Url

/-- An origin, an escaped path, and an escaped query, which is empty if there is none. -/
@[ext]
structure Target where
  origin : Origin
  path : List Char
  query : List Char
deriving DecidableEq, Repr

namespace Target

/-- What follows the origin in the text of a target. -/
def tail (t : Target) : List Char :=
  t.path ++ if t.query = [] then [] else '?' :: t.query

/-- The text of a target. -/
def text (t : Target) : Except Flaw (List Char) := do
  return (← t.origin.text) ++ t.tail

/-- The text of a target is that of its origin and what follows it. -/
theorem text_of_origin {t : Target} {origin : List Char} (h : t.origin.text = .ok origin) :
    t.text = .ok (origin ++ t.tail) := by
  rw [text, h]
  rfl

/-- A target whose origin cannot be written has no text. -/
theorem text_of_flaw {t : Target} {flaw : Flaw} (h : t.origin.text = .error flaw) :
    t.text = .error flaw := by
  rw [text, h]
  rfl

end Target

end Url
end ChainPoll

/-!
# Supplies

Items handed out one after another; the last of them is handed out again and again.

Main results:

- Theorem {lit}`Supply.next_fst`: the item handed out is the first one left.
-/

namespace ChainPoll

/-- Items in order, of which there is at least one. -/
structure Supply (α : Type) where
  head : α
  tail : List α
deriving DecidableEq, Repr

namespace Supply

variable {α : Type}

/-- The next item, and what is left. -/
def next (s : Supply α) : α × Supply α :=
  match s.tail with
  | [] => (s.head, s)
  | a :: rest => (s.head, ⟨a, rest⟩)

/-- The supply of the given items, if there are any. -/
def ofList? : List α → Option (Supply α)
  | [] => none
  | a :: rest => some ⟨a, rest⟩

/-- All items in order, the last of which repeats. -/
def toList (s : Supply α) : List α :=
  s.head :: s.tail

/-- The item handed out is the first one left. -/
theorem next_fst (s : Supply α) : s.next.1 = s.head := by
  unfold next
  split <;> rfl

end Supply
end ChainPoll

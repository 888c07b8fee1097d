import Mathlib.Logic.Function.Iterate
import ChainPoll.Supply

/-!
# What supplies hand out

The items of a supply by their number, and what is left of it after so many of them.

Main results:

- Theorem {lit}`Supply.next_rest`: the item handed out next is the one that its number says.
- Theorem {lit}`Supply.toList_rest`: what is left of the list after so many items.
-/

namespace ChainPoll

namespace Supply

variable {α : Type}

/-- The item that is handed out after so many others; the last one is handed out again and again. -/
def item (s : Supply α) (k : Nat) : α :=
  s.toList[k]?.getD (s.toList.getLast (by simp [toList]))

/-- What is left after so many items were handed out. -/
def rest (s : Supply α) (k : Nat) : Supply α :=
  (fun s => s.next.2)^[k] s

/-- After one item more, the next one was handed out. -/
theorem rest_succ (s : Supply α) (k : Nat) : s.rest (k + 1) = (s.rest k).next.2 :=
  Function.iterate_succ_apply' _ k s

/-- What is left after some items and then some more is left after all of them. -/
theorem rest_rest (s : Supply α) (k m : Nat) : (s.rest k).rest m = s.rest (k + m) := by
  rw [rest, rest, rest, Nat.add_comm, Function.iterate_add_apply]

/-- After the first item was handed out, all others follow. -/
theorem item_next (s : Supply α) (k : Nat) : s.next.2.item k = s.item (k + 1) := by
  obtain ⟨a, tail⟩ := s
  cases tail with
  | nil => cases k <;> simp [next, item, toList]
  | cons b tail => simp [next, item, toList]

/-- What holds of all items one by one, holds of those after the first. -/
theorem forall_item_next {β : Type} {P : α → β → Prop} {s : Supply α} {b : β} {bs : List β}
    (h : ∀ k x, (b :: bs)[k]? = some x → P (s.item k) x) (k : Nat) (x : β) (hk : bs[k]? = some x) :
    P (s.next.2.item k) x := by
  rw [item_next]
  exact h (k + 1) x (by simpa using hk)

/-- The item handed out next is the one that its number says. -/
theorem next_rest (s : Supply α) (k : Nat) : (s.rest k).next.1 = s.item k := by
  induction k generalizing s with
  | zero => simp [rest, next_fst, item, toList]
  | succ k ih =>
      rw [← item_next, ← ih]
      rfl

/-- What is left hands out the items that follow. -/
theorem item_rest (s : Supply α) (k i : Nat) : (s.rest k).item i = s.item (k + i) := by
  induction k generalizing i with
  | zero =>
      rw [Nat.zero_add]
      rfl
  | succ k ih => rw [rest_succ, item_next, ih, Nat.add_assoc, Nat.add_comm 1]

/-- After so many items were handed out, the first one left is the one that its number says. -/
theorem item_rest_zero (s : Supply α) (k : Nat) : (s.rest k).item 0 = s.item k :=
  s.item_rest k 0

/-- An item of the list is handed out after those before it. -/
theorem item_of_getElem? {s : Supply α} {k : Nat} {a : α} (h : s.toList[k]? = some a) :
    s.item k = a := by
  rw [item, h, Option.getD_some]

/-- While items are left that were not handed out, the list of these is left. -/
theorem toList_rest {s : Supply α} {k : Nat} (h : k < s.toList.length) :
    (s.rest k).toList = s.toList.drop k := by
  induction k with
  | zero => rfl
  | succ k ih =>
      have hleft := ih (by omega)
      have hlong : 1 < (s.rest k).toList.length := by
        rw [hleft, List.length_drop]
        omega
      rw [rest_succ, ← List.drop_drop, ← hleft]
      generalize s.rest k = left at hlong
      obtain ⟨a, tail⟩ := left
      cases tail with
      | nil => simp [toList] at hlong
      | cons b tail => rfl

end Supply

end ChainPoll

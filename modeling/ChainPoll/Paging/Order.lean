import ChainPoll.Fault

/-!
# Orders of records

Records are put in order by a key.  Some records have no key, and some keys cannot be compared; both
are found before anything is put in order.  Records with equal keys stay in the order in which they
came.

Main results:

- Theorem {lit}`Order.sort_perm`: putting in order neither loses nor adds a record.
- Theorem {lit}`Order.sort_byNumber`: records with numbers as keys can always be put in order.
-/

namespace ChainPoll

/-- How records are put in order. -/
structure Order (α : Type) where
  /-- Why a record has no key. -/
  reject : α → Option Fault
  /-- Why a record cannot be compared with one that came before it. -/
  clash : α → α → Option Fault
  /-- Whether a record may stand before another. -/
  le : α → α → Bool

namespace Order

variable {α : Type}

/-- The first clash of a record with one before it, the nearest first. -/
def firstClash (o : Order α) (before : List α) : List α → Option Fault
  | [] => none
  | a :: rest =>
    match before.findSome? (o.clash a) with
    | some fault => some fault
    | none => o.firstClash (a :: before) rest

/-- Puts records in order. -/
def sort (o : Order α) (rows : List α) : Except Fault (List α) :=
  match rows.findSome? o.reject with
  | some fault => .error fault
  | none =>
    match o.firstClash [] rows with
    | some fault => .error fault
    | none => .ok (rows.mergeSort o.le)

/-- The order by a number. -/
def byNumber (key : α → Int) : Order α :=
  { reject := fun _ => none, clash := fun _ _ => none, le := fun a b => decide (key a ≤ key b) }

/-- Putting in order neither loses nor adds a record. -/
theorem sort_perm {o : Order α} {rows sorted : List α} (h : o.sort rows = .ok sorted) :
    sorted.Perm rows := by
  unfold sort at h
  split at h
  · simp at h
  · split at h
    · simp at h
    · simp only [Except.ok.injEq] at h
      subst h
      exact List.mergeSort_perm rows o.le

/-- An order without clashes finds none. -/
theorem firstClash_eq_none {o : Order α} (h : ∀ a b, o.clash a b = none) (before rows : List α) :
    o.firstClash before rows = none := by
  induction rows generalizing before with
  | nil => rfl
  | cons a rows ih =>
    have hbefore : before.findSome? (o.clash a) = none := by
      simp [List.findSome?_eq_none_iff, h]
    simp [firstClash, hbefore, ih]

/-- Records with numbers as keys can always be put in order. -/
theorem sort_byNumber (key : α → Int) (rows : List α) :
    (byNumber key).sort rows = .ok (rows.mergeSort fun a b => decide (key a ≤ key b)) := by
  have hreject : rows.findSome? (byNumber key).reject = none := by
    simp [List.findSome?_eq_none_iff, byNumber]
  simp [sort, hreject, firstClash_eq_none (o := byNumber key) (fun _ _ => rfl)]
  rfl

end Order
end ChainPoll

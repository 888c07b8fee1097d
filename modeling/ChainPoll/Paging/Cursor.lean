import ChainPoll.Fault

/-!
# Cursors

A cursor is a position in a stream of records: the identifier of the first record of the next page,
and an upper bound on the time of the records, which stays the same for a whole run.

Main results:

- Theorem {lit}`Cursor.make?_ok_iff`: a cursor starts at any identifier that is not negative.
- Theorem {lit}`Cursor.advance_advance`: moving on twice is moving on by the sum.
-/

namespace ChainPoll

/-- A position in a stream of records. -/
structure Cursor where
  fromId : Nat
  upTo : Int
deriving DecidableEq, Repr

namespace Cursor

/-- The cursor at an identifier, which must not be negative. -/
def make? (fromId upTo : Int) : Except Fault Cursor :=
  if fromId < 0 then .error (.refused .cursorStart) else .ok ⟨fromId.toNat, upTo⟩

/-- Moves the cursor on by a number of identifiers. -/
def advance (c : Cursor) (n : Nat) : Cursor :=
  { c with fromId := c.fromId + n }

/-- A cursor starts at any identifier that is not negative. -/
theorem make?_ok_iff (fromId upTo : Int) (c : Cursor) :
    make? fromId upTo = .ok c ↔ fromId = c.fromId ∧ upTo = c.upTo := by
  unfold make?
  split
  · next h =>
    constructor
    · intro hc
      simp at hc
    · rintro ⟨hfrom, -⟩
      omega
  · next h =>
    rw [Except.ok.injEq]
    constructor
    · rintro rfl
      exact ⟨by simp only; omega, rfl⟩
    · rintro ⟨hfrom, rfl⟩
      rw [hfrom, Int.toNat_natCast]

/-- Moving on twice is moving on by the sum. -/
theorem advance_advance (c : Cursor) (m n : Nat) : (c.advance m).advance n = c.advance (m + n) := by
  simp [advance, Nat.add_assoc]

end Cursor

/-- The number of records on a full page, and of identifiers that a cursor moves on by. -/
structure PageSize where
  rows : Nat
  rows_pos : 0 < rows
deriving DecidableEq, Repr

namespace PageSize

/-- The size of a page, which must be positive. -/
def make? (limit : Int) : Except Fault PageSize :=
  if h : limit ≤ 0 then .error (.refused .pageLimit)
  else .ok ⟨limit.toNat, by omega⟩

end PageSize

/-- How a stream of records comes to its end. -/
inductive StreamEnd where
  /-- A page without content. -/
  | noContent
  /-- A page that is not full. -/
  | shortPage
deriving DecidableEq, Repr

/-- The name of an end. -/
def StreamEnd.name : StreamEnd → String
  | .noContent => "no_content"
  | .shortPage => "short_page"

end ChainPoll

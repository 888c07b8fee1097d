/-!
# Results of paged runs

All records of a run over pages, with the number of pages that were asked for.
-/

namespace ChainPoll

/-- The records of a paged run in their final order, and the number of pages asked for. -/
structure PageResult (α : Type) where
  data : List α
  pagesUsed : Int
deriving DecidableEq, Repr

namespace PageResult

variable {α : Type}

/-- The result of a run that asked for nothing. -/
def empty : PageResult α := ⟨[], 0⟩

/-- The number of records. -/
def totalRecords (r : PageResult α) : Nat := r.data.length

/--
Whether two results have the same number of pages and, by a given comparison, the same records.
-/
def same (eq : α → α → Bool) (a b : PageResult α) : Bool :=
  a.pagesUsed == b.pagesUsed && a.data.length == b.data.length
    && (a.data.zip b.data).all fun (x, y) => eq x y

end PageResult
end ChainPoll

import ChainPoll.Proofs.Paging.Comparing
import ChainPoll.Proofs.Paging.Touring

/-!
# Whole walks

A walk asks for one page after another, each a page size further, up to the first one that is not
full. It ends with the records of all these pages in their stable order, leaves its cursor where the
last page was asked for, and has noted each page that had content, and then its totals.  Where all
pages are full a walk never ends.

Main results:

- Theorem {lit}`Tour.run_of_allFull`: a walk over full pages, and what comes after them.
- Theorem {lit}`Tour.run_of_last`: a walk that ends with its next page.
- Theorem {lit}`Tour.executes`: a whole walk, from its begin to its end.
-/

namespace ChainPoll

open Store

variable {α : Type} {order : Order α} {w : Walk α} {supply : Supply (Except Fault (Page α))}
  {page : Page α} {pages : ℕ → Page α}

namespace Supply

/-- Whether a supply hands out the first pages of a sequence. -/
def Offers (supply : Supply (Except Fault (Page α))) (pages : ℕ → Page α) (n : ℕ) : Prop :=
  ∀ k < n, supply.item k = .ok (pages k)

/-- The first pages of any sequence can be handed out. -/
theorem exists_offers (pages : ℕ → Page α) (n : ℕ) :
    ∃ supply : Supply (Except Fault (Page α)), supply.Offers pages n := by
  refine ⟨⟨.ok (pages 0), (List.range n).map fun k => .ok (pages (k + 1))⟩, ?_⟩
  intro k hk
  refine item_of_getElem? ?_
  cases k with
  | zero => rfl
  | succ k => simp [toList, List.getElem?_range (show k < n by omega)]

end Supply

/-- The records of the first pages of a sequence. -/
def gatheredUpTo (pages : ℕ → Page α) (n : ℕ) : List α :=
  gathered ((List.range n).map pages)

/-- One page more adds its records at the end. -/
theorem gatheredUpTo_succ (pages : ℕ → Page α) (n : ℕ) :
    gatheredUpTo pages (n + 1) = gatheredUpTo pages n ++ (pages n).getD [] := by
  simp [gatheredUpTo, gathered, List.range_succ]

/-- Where the first pages of a walk are asked for. -/
def askedUpTo (size : PageSize) (cursor : Cursor) (n : ℕ) : List Cursor :=
  (List.range n).map fun k => cursor.advance (k * size.rows)

/-- What is noted of the first pages of a walk: each of them that has content. -/
def notedUpTo (size : PageSize) (cursor : Cursor) (pages : ℕ → Page α) (n : ℕ) : List Note :=
  (List.range n).flatMap fun k =>
    ((pages k).map fun rows =>
      Note.pageCompleted k (cursor.advance (k * size.rows)) rows.length size.rows).toList

/-- How a page that is not full ends a walk. -/
def endBy : Page α → StreamEnd
  | none => .noContent
  | some _ => .shortPage

namespace Walk

/-- A walk after some full pages. -/
def afterFull (size : PageSize) (cursor : Cursor) (pages : ℕ → Page α) (n : ℕ) : Walk α :=
  { size
    cursor := cursor.advance (n * size.rows)
    rows := gatheredUpTo pages n
    pagesUsed := n }

/-- A walk that has asked for nothing is after no pages. -/
theorem afterFull_zero (size : PageSize) (cursor : Cursor) (pages : ℕ → Page α) :
    afterFull size cursor pages 0 = start size cursor := by
  simp [afterFull, start, gatheredUpTo, gathered, Cursor.advance]

/-- One full page more. -/
theorem absorb_afterFull {size : PageSize} {n : ℕ} (cursor : Cursor) (h : IsFull size (pages n)) :
    (afterFull size cursor pages n).absorb (pages n) = afterFull size cursor pages (n + 1) := by
  have hfull : IsFull (afterFull size cursor pages n).size (pages n) := h
  rw [absorb_of_isFull hfull]
  simp only [afterFull, gatheredUpTo_succ, Cursor.advance_advance, Nat.succ_mul]

/-- A page is noted at its number and at the cursor it was asked for. -/
theorem pageNotes_afterFull (size : PageSize) (cursor : Cursor) (pages : ℕ → Page α) (n : ℕ) :
    notedUpTo size cursor pages n ++ (afterFull size cursor pages n).pageNotes (pages n) =
      notedUpTo size cursor pages (n + 1) := by
  rw [notedUpTo, notedUpTo, List.range_succ, List.flatMap_append, List.flatMap_singleton]
  cases pages n <;> rfl

/-- A page that is not full ends a walk. -/
theorem endOf_of_not_isFull (hshort : ¬ IsFull w.size page) : w.endOf page = some (endBy page) := by
  cases page with
  | none => rfl
  | some rows =>
      have hlt : rows.length < w.size.rows := not_le.mp hshort
      simp [endOf, endBy, hlt]

end Walk

namespace Tour

/-- A tour that begins with several pages asked for and noted down. -/
def precedeAll (cursors : List Cursor) (notes : List Note) (tour : Tour α) : Tour α :=
  { tour with seen := cursors ++ tour.seen, notes := notes ++ tour.notes }

/-- A walk asks for each of some full pages, and goes on with what comes after them. -/
theorem run_of_allFull (order : Order α) {size : PageSize} (cursor : Cursor) {n : ℕ}
    (hoffers : supply.Offers pages n) (hfull : ∀ k < n, IsFull size (pages k)) (budget : ℕ) :
    run order (n + budget) supply (.start size cursor) =
      precedeAll (askedUpTo size cursor n) (notedUpTo size cursor pages n)
        (run order budget (supply.rest n) (.afterFull size cursor pages n)) := by
  induction n generalizing budget with
  | zero =>
      rw [Walk.afterFull_zero, Nat.zero_add]
      rfl
  | succ n ih =>
      have hbefore := ih (fun k hk => hoffers k (by omega)) (fun k hk => hfull k (by omega))
      have hitem : (supply.rest n).item 0 = .ok (pages n) :=
        (supply.item_rest_zero n).trans (hoffers n n.lt_succ_self)
      have hnext : IsFull size (pages n) := hfull n n.lt_succ_self
      rw [Nat.add_assoc, Nat.add_comm 1, hbefore,
        run_of_isFull (w := .afterFull size cursor pages n) hitem hnext,
        Walk.absorb_afterFull cursor hnext, ← Supply.rest_succ, ← Walk.pageNotes_afterFull]
      simp [precedeAll, precede, askedUpTo, List.range_succ, Walk.afterFull]

/-- A walk whose next page is not full ends with it, and notes its totals if its records compare. -/
theorem run_of_last {data : List α} (budget : ℕ) (hpage : supply.item 0 = .ok page)
    (hshort : ¬ IsFull w.size page) (hsort : order.sort (w.rows ++ page.getD []) = .ok data) :
    run order (budget + 1) supply w =
      { seen := [w.cursor]
        notes := w.pageNotes page ++ [.pagesCompleted (w.pagesUsed + 1) data.length (endBy page)]
        cursor := w.cursor
        result := some (.ok ⟨data, ↑(w.pagesUsed + 1)⟩) } := by
  have hnext : supply.next.1 = .ok page := (supply.next_rest 0).trans hpage
  have hend := Walk.endOf_of_not_isFull hshort
  have hresult : (w.absorb page).result order = .ok ⟨data, ↑(w.pagesUsed + 1)⟩ := by
    simp [Walk.result, Walk.absorb, hsort, Except.map]
  have hcursor : (w.absorb page).cursor = w.cursor := by
    simp [Walk.absorb, hend]
  simp only [run, hnext, hend, finish, hresult, hcursor, precede, Walk.endNotes,
    PageResult.totalRecords, Int.toNat_natCast]

/--
A walk asks for its pages one page size after another, up to the first one that is not full, and
returns the records of all of them in their stable order.  Where all pages are full it goes on as
long as it may.
-/
theorem executes (order : Order α) (size : PageSize) (cursor : Cursor) (pages : ℕ → Page α) :
    (∀ K, (∀ k < K, IsFull size (pages k)) → ¬ IsFull size (pages K) →
      order.Compares (gatheredUpTo pages (K + 1)) →
      (∃ supply : Supply (Except Fault (Page α)), supply.Offers pages (K + 1)) ∧
      ∃ data, SortedBy order.le (gatheredUpTo pages (K + 1)) data ∧
        ∀ supply : Supply (Except Fault (Page α)), supply.Offers pages (K + 1) →
        ∀ budget, K < budget → run order budget supply (.start size cursor) =
          { seen := askedUpTo size cursor (K + 1)
            notes := notedUpTo size cursor pages (K + 1) ++
              [.pagesCompleted (K + 1) data.length (endBy (pages K))]
            cursor := cursor.advance (K * size.rows)
            result := some (.ok ⟨data, ↑(K + 1)⟩) }) ∧
    ((∀ k, IsFull size (pages k)) → ∀ budget,
      (∃ supply : Supply (Except Fault (Page α)), supply.Offers pages budget) ∧
      ∀ supply : Supply (Except Fault (Page α)), supply.Offers pages budget →
        run order budget supply (.start size cursor) =
          { seen := askedUpTo size cursor budget
            notes := notedUpTo size cursor pages budget
            cursor := cursor.advance (budget * size.rows)
            result := none }) := by
  constructor
  · intro K hfull hshort hcompares
    refine ⟨Supply.exists_offers pages (K + 1), ?_⟩
    obtain ⟨data, hsort, hsorted⟩ := hcompares.sort
    refine ⟨data, hsorted, ?_⟩
    intro supply hoffers budget hbudget
    obtain ⟨left, rfl⟩ := Nat.exists_eq_add_of_lt hbudget
    rw [gatheredUpTo_succ] at hsort
    have hitem : (supply.rest K).item 0 = .ok (pages K) :=
      (supply.item_rest_zero K).trans (hoffers K K.lt_succ_self)
    have hlast := run_of_last left (w := .afterFull size cursor pages K) hitem hshort hsort
    rw [Nat.add_assoc, run_of_allFull order cursor (fun k hk => hoffers k (by omega)) hfull, hlast,
      ← Walk.pageNotes_afterFull]
    simp [precedeAll, askedUpTo, List.range_succ, Walk.afterFull]
  · intro hfull budget
    refine ⟨Supply.exists_offers pages budget, ?_⟩
    intro supply hoffers
    rw [← Nat.add_zero budget, run_of_allFull order cursor hoffers (fun k _ => hfull k)]
    simp [precedeAll, run, Walk.afterFull]

/-- A page of two rows, and then pages of one. -/
def taggedPages : ℕ → Page Row
  | 0 => some [⟨.int 2, .text "a"⟩, ⟨.int 1, .text "b"⟩]
  | _ + 1 => some [⟨.int 1, .text "c"⟩]

/--
Of pages that are to have two rows the second one ends a walk, and of pages that are to have one row
none does.
-/
theorem taggedPages_executes :
    (∃ data, SortedBy SortKey.id.order.le (gatheredUpTo taggedPages 2) data ∧
      run SortKey.id.order 9 ⟨.ok (taggedPages 0), [.ok (taggedPages 1)]⟩
          (.start ⟨2, by decide⟩ ⟨5, 60⟩) =
        { seen := [⟨5, 60⟩, ⟨7, 60⟩]
          notes := [.pageCompleted 0 ⟨5, 60⟩ 2 2, .pageCompleted 1 ⟨7, 60⟩ 1 2,
            .pagesCompleted 2 data.length .shortPage]
          cursor := ⟨7, 60⟩
          result := some (.ok ⟨data, 2⟩) }) ∧
      run SortKey.id.order 2 ⟨.ok (taggedPages 0), [.ok (taggedPages 1)]⟩
          (.start ⟨1, by decide⟩ ⟨5, 60⟩) =
        { seen := [⟨5, 60⟩, ⟨6, 60⟩]
          notes := [.pageCompleted 0 ⟨5, 60⟩ 2 1, .pageCompleted 1 ⟨6, 60⟩ 1 1]
          cursor := ⟨7, 60⟩
          result := none } := by
  have hoffers : Supply.Offers ⟨.ok (taggedPages 0), [.ok (taggedPages 1)]⟩ taggedPages 2 := by
    intro k hk
    obtain rfl | rfl : k = 0 ∨ k = 1 := by omega
    · rfl
    · rfl
  have hcomparable : SortKey.id.Comparable (gatheredUpTo taggedPages 2) := by
    simp [SortKey.Comparable, Row.Comparable, gatheredUpTo, gathered, List.range_succ, taggedPages,
      Row.comparable, Row.isNumber]
  have hfull : ∀ k < 1, IsFull ⟨2, by decide⟩ (taggedPages k) := by
    intro k hk
    obtain rfl : k = 0 := by omega
    exact le_rfl
  have hshort : ¬ IsFull ⟨2, by decide⟩ (taggedPages 1) := not_le.mpr Nat.one_lt_two
  have hall : ∀ k, IsFull ⟨1, by decide⟩ (taggedPages k) := by
    intro k
    cases k with
    | zero => exact Nat.le_succ 1
    | succ k => exact le_rfl
  obtain ⟨-, data, hsorted, hrun⟩ :=
    (executes SortKey.id.order _ ⟨5, 60⟩ taggedPages).1 1 hfull hshort
      (SortKey.compares hcomparable)
  refine ⟨⟨data, hsorted, hrun _ hoffers 9 (by decide)⟩, ?_⟩
  exact ((executes SortKey.id.order _ ⟨5, 60⟩ taggedPages).2 hall 2).2 _ hoffers

end Tour
end ChainPoll

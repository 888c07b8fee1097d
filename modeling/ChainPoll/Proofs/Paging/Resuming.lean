import ChainPoll.Proofs.Paging.Executing

/-!
# Walks that fail and go on

A walk that fails at a page leaves its cursor where it asked for that page.  A walk that begins
there asks for the pages that the first one would have asked for after it, and its records complete
those of the pages before: put in order behind them, they are the records of a walk that does not
fail.

Main results:

- Theorem {lit}`Tour.run_of_fault`: a walk whose next page fails.
- Theorem {lit}`Tour.run_completes`: walks that differ in what they have gathered already.
- Theorem {lit}`Tour.resumes`: a walk that fails, and one that goes on where it stood.
-/

namespace ChainPoll

open Store

variable {α : Type} {order : Order α} {w w' : Walk α} {pages : ℕ → Page α} {budget k : ℕ}

/-- Ordinary errors are the faults of one family. -/
theorem Fault.ordinary_iff (fault : Fault) :
    fault.ordinary = true ↔ "Exception" ∈ fault.lineage := by
  cases fault with
  | connection kind _ => cases kind <;> simp [ordinary, lineage, ConnectionKind.lineage]
  | stray kind _ => cases kind <;> simp [ordinary, lineage, StrayKind.lineage]
  | refused reason =>
      cases reason with
      | address flaw =>
          simp only [ordinary, lineage, Refusal.lineage]
          split <;> simp
      | _ => simp [ordinary, lineage, Refusal.lineage]
  | _ => simp [ordinary, lineage]

namespace Supply

variable {supply : Supply (Except Fault (Page α))}

/-- The page that a supply hands out after so many others; a fault has no content. -/
def page (supply : Supply (Except Fault (Page α))) (k : ℕ) : Page α :=
  match supply.item k with
  | .ok page => page
  | .error _ => none

/-- A supply hands out the page that it says. -/
theorem page_of_ok {page : Page α} (h : supply.item k = .ok page) : supply.page k = page := by
  simp [Supply.page, h]

/-- The records of some pages are those of the first ones, and then those of what is left. -/
theorem gatheredUpTo_page_add (supply : Supply (Except Fault (Page α))) (k n : ℕ) :
    gatheredUpTo supply.page (k + n) =
      gatheredUpTo supply.page k ++ gatheredUpTo (supply.rest k).page n := by
  have hpages : (List.range n).map (supply.rest k).page =
      (List.range n).map fun i => supply.page (k + i) := List.map_congr_left fun i _ => by
    rw [page, page, item_rest]
  rw [gatheredUpTo, gatheredUpTo, gatheredUpTo, hpages, List.range_add, List.map_append,
    List.map_map, gathered, List.flatMap_append]
  rfl

/-- The records of some pages are those of the first one, and then those of the others. -/
theorem gatheredUpTo_page_succ (supply : Supply (Except Fault (Page α))) (n : ℕ) :
    gatheredUpTo supply.page (n + 1) =
      (supply.page 0).getD [] ++ gatheredUpTo supply.next.2.page n := by
  have hone : gatheredUpTo supply.page 1 = (supply.page 0).getD [] := by
    simp [gatheredUpTo, gathered]
  rw [Nat.add_comm, gatheredUpTo_page_add, hone]
  rfl

/-- The records of the first pages of a supply are those of the pages that it offers. -/
theorem Offers.gatheredUpTo_eq (h : supply.Offers pages k) :
    gatheredUpTo supply.page k = gatheredUpTo pages k := by
  have hpages : (List.range k).map supply.page = (List.range k).map pages :=
    List.map_congr_left fun i hi => page_of_ok (h i (List.mem_range.mp hi))
  rw [gatheredUpTo, gatheredUpTo, hpages]

end Supply

namespace Walk

/-- Whether a walk is another one that has gathered some pages more before. -/
structure Extends (k : ℕ) (rows : List α) (w w' : Walk α) : Prop where
  size : w.size = w'.size
  cursor : w.cursor = w'.cursor
  rows : w.rows = rows ++ w'.rows
  pagesUsed : w.pagesUsed = k + w'.pagesUsed

variable {rows : List α}

/-- A page ends both of two such walks or none. -/
theorem Extends.endOf_eq (h : Extends k rows w w') (page : Page α) :
    w.endOf page = w'.endOf page := by
  cases page <;> simp [endOf, h.size]

/-- A page changes two such walks in the same way. -/
theorem Extends.absorb (h : Extends k rows w w') (page : Page α) :
    Extends k rows (w.absorb page) (w'.absorb page) where
  size := h.size
  cursor := by simp [Walk.absorb, h.endOf_eq page, h.size, h.cursor]
  rows := by simp [Walk.absorb, h.rows]
  pagesUsed := by simp [Walk.absorb, h.pagesUsed, Nat.add_assoc]

/-- A walk after some full pages is one that begins there, and has gathered these pages before. -/
theorem extends_afterFull (size : PageSize) (cursor : Cursor) (pages : ℕ → Page α) (k : ℕ) :
    Extends k (gatheredUpTo pages k) (afterFull size cursor pages k)
      (start size (cursor.advance (k * size.rows))) :=
  ⟨rfl, rfl, by simp [afterFull, start], by simp [afterFull, start]⟩

/-- The records of two such walks, put in order, merge with those gathered before. -/
theorem Extends.result (h : Extends k rows w w') (hcompares : order.Compares w.rows) :
    ∃ r r' : PageResult α, w.result order = .ok r ∧ w'.result order = .ok r' ∧
      r.pagesUsed = k + r'.pagesUsed ∧ order.sort (rows ++ r'.data) = .ok r.data ∧
        SortedBy order.le (rows ++ r'.data) r.data := by
  have hcompares' : order.Compares w'.rows := hcompares.mono (by simp [h.rows])
  obtain ⟨data, hsort, hsorted⟩ := hcompares.sort
  obtain ⟨data', hsort', hsorted'⟩ := hcompares'.sort
  rw [h.rows] at hcompares hsorted
  have hmerged : SortedBy order.le (rows ++ data') data :=
    hcompares.sortedBy_append hsorted' hsorted
  have hall : order.Compares (rows ++ data') :=
    hcompares.mono (hsorted'.perm.append_left rows).subset
  obtain ⟨data'', hsort'', hsorted''⟩ := hall.sort
  rw [← hall.unique hmerged hsorted''] at hsort''
  refine ⟨⟨data, w.pagesUsed⟩, ⟨data', w'.pagesUsed⟩, ?_, ?_, ?_, hsort'', hmerged⟩
  · rw [Walk.result, hsort]
    rfl
  · rw [Walk.result, hsort']
    rfl
  · simp [h.pagesUsed]

end Walk

namespace Tour

variable {supply : Supply (Except Fault (Page α))} {rows : List α}

/-- A walk whose next page fails ends with that fault, and stays where it asked for the page. -/
theorem run_of_fault {fault : Fault} (order : Order α) (budget : ℕ)
    (hfault : supply.item 0 = .error fault) :
    run order (budget + 1) supply w =
      { seen := [w.cursor]
        notes := w.faultNotes fault
        cursor := w.cursor
        result := some (.error fault) } := by
  have hnext : supply.next.1 = .error fault := (supply.next_rest 0).trans hfault
  simp [run, hnext, precede]

/--
How a walk ends with some pages more than another one: as that one does, with the records of all.
-/
inductive Merges (order : Order α) (k : ℕ) (rows : List α) :
    Option (Except Fault (PageResult α)) → Option (Except Fault (PageResult α)) → Prop where
  | pending : Merges order k rows none none
  | failed (fault : Fault) : Merges order k rows (some (.error fault)) (some (.error fault))
  | ended {r r' : PageResult α} (hpages : r.pagesUsed = k + r'.pagesUsed)
      (hsort : order.sort (rows ++ r'.data) = .ok r.data)
      (hsorted : SortedBy order.le (rows ++ r'.data) r.data) :
      Merges order k rows (some (.ok r)) (some (.ok r'))

/-- What a walk with some pages more than another one does beside asking for these pages. -/
structure Completes (order : Order α) (k : ℕ) (asked : List Cursor) (rows : List α)
    (tour tour' : Tour α) : Prop where
  seen : tour.seen = asked ++ tour'.seen
  cursor : tour.cursor = tour'.cursor
  result : Merges order k rows tour.result tour'.result

/-- Walks that have gathered all their pages end with their records in order. -/
theorem completes_finish (h : Walk.Extends k rows w w') (hcompares : order.Compares w.rows)
    (ending : StreamEnd) :
    Completes order k [] rows (finish order w ending) (finish order w' ending) := by
  obtain ⟨r, r', hresult, hresult', hpages, hsort, hsorted⟩ := h.result hcompares
  simp only [finish, hresult, hresult']
  exact ⟨rfl, h.cursor, .ended hpages hsort hsorted⟩

/-- Walks over the same answers differ in what they had gathered before, and in nothing else. -/
theorem run_completes {supply' : Supply (Except Fault (Page α))} (h : Walk.Extends k rows w w')
    (hitem : ∀ i, supply.item i = supply'.item i)
    (hcompares : ∀ n, order.Compares (w.rows ++ gatheredUpTo supply.page n)) :
    Completes order k [] rows (run order budget supply w) (run order budget supply' w') := by
  induction budget generalizing supply supply' w w' with
  | zero => exact ⟨rfl, h.cursor, .pending⟩
  | succ budget ih =>
      have hfirst : supply.item 0 = supply'.item 0 := hitem 0
      have hrest : ∀ i, supply.next.2.item i = supply'.next.2.item i := fun i => by
        rw [Supply.item_next, Supply.item_next, hitem]
      cases hanswer : supply.item 0 with
      | error fault =>
          rw [run_of_fault order budget hanswer, run_of_fault order budget (hfirst ▸ hanswer)]
          exact ⟨by simp [h.cursor], h.cursor, .failed fault⟩
      | ok page =>
          have hgathered : ∀ n, w.rows ++ gatheredUpTo supply.page (n + 1) =
              (w.absorb page).rows ++ gatheredUpTo supply.next.2.page n := fun n => by
            rw [Supply.gatheredUpTo_page_succ, Supply.page_of_ok hanswer, ← List.append_assoc]
            rfl
          have hnext : supply.next.1 = .ok page := (supply.next_rest 0).trans hanswer
          have hnext' : supply'.next.1 = .ok page :=
            (supply'.next_rest 0).trans (hfirst ▸ hanswer)
          simp only [run, hnext, hnext', ← h.endOf_eq page]
          cases w.endOf page with
          | some ending =>
              have hone := hcompares 1
              rw [hgathered 0] at hone
              have hend := completes_finish (h.absorb page) (hone.mono (by simp)) ending
              exact ⟨by simp [precede, h.cursor, hend.seen], hend.cursor, hend.result⟩
          | none =>
              have hmore := ih (h.absorb page) hrest fun n => hgathered n ▸ hcompares (n + 1)
              exact ⟨by simp [precede, h.cursor, hmore.seen], hmore.cursor, hmore.result⟩

/--
A walk whose first pages are full and whose next one fails ends with that fault, and stays where it
asked for the page; the failure is noted unless it is a cancellation.  A walk that begins there, and
gets what the first one would have got from that page on, asks for the same pages and ends in the
same way as a walk that does not fail; its records, put in order behind those of the first pages,
are the records of all.
-/
theorem resumes (order : Order α) (size : PageSize) (cursor : Cursor)
    (hfull : ∀ i < k, IsFull size (pages i)) :
    (∀ fault (supply : Supply (Except Fault (Page α))), supply.Offers pages k →
      supply.item k = .error fault → ∀ budget, k < budget →
        run order budget supply (.start size cursor) =
          { seen := askedUpTo size cursor (k + 1)
            notes := notedUpTo size cursor pages k ++
              if "Exception" ∈ fault.lineage then
                [.pageFailed k (cursor.advance (k * size.rows)) fault]
              else []
            cursor := cursor.advance (k * size.rows)
            result := some (.error fault) }) ∧
      ∀ whole left : Supply (Except Fault (Page α)), whole.Offers pages k →
        (∀ i, whole.item (k + i) = left.item i) →
        (∀ n, order.Compares (gatheredUpTo whole.page n)) → ∀ budget,
          Completes order k (askedUpTo size cursor k) (gatheredUpTo pages k)
            (run order (k + budget) whole (.start size cursor))
            (run order budget left (.start size (cursor.advance (k * size.rows)))) := by
  constructor
  · intro fault supply hoffers hfault budget hbudget
    obtain ⟨left, rfl⟩ := Nat.exists_eq_add_of_lt hbudget
    have hitem : (supply.rest k).item 0 = .error fault := (supply.item_rest_zero k).trans hfault
    rw [Nat.add_assoc, run_of_allFull order cursor hoffers hfull, run_of_fault order left hitem]
    simp [precedeAll, askedUpTo, List.range_succ, Walk.faultNotes, Walk.afterFull,
      Fault.ordinary_iff]
  · intro whole left hoffers hitem hcompares budget
    rw [run_of_allFull order cursor hoffers hfull]
    have hrest : ∀ i, (whole.rest k).item i = left.item i := fun i => by
      rw [Supply.item_rest, hitem]
    have hall : ∀ n, order.Compares ((Walk.afterFull size cursor pages k).rows ++
        gatheredUpTo (whole.rest k).page n) := fun n => by
      have hsum := hcompares (k + n)
      rwa [Supply.gatheredUpTo_page_add, hoffers.gatheredUpTo_eq] at hsum
    have hmore : Completes order k [] (gatheredUpTo pages k)
        (run order budget (whole.rest k) (Walk.afterFull size cursor pages k))
        (run order budget left (.start size (cursor.advance (k * size.rows)))) :=
      run_completes (Walk.extends_afterFull size cursor pages k) hrest hall
    exact ⟨by simp [precedeAll, hmore.seen], hmore.cursor, hmore.result⟩

/-- Where a walk over the tagged pages gets no page in place of the second one. -/
def interrupted (fault : Fault) : Supply (Except Fault (Page Row)) :=
  ⟨.ok (taggedPages 0), [.error fault]⟩

/--
A walk over the tagged pages that fails at the second one notes that unless it was cancelled, and
the second page completes what it had gathered.
-/
theorem interrupted_resumes :
    (∀ i < 1, IsFull ⟨2, by decide⟩ (taggedPages i)) ∧
      run SortKey.id.order 9 (interrupted .noBody) (.start ⟨2, by decide⟩ ⟨5, 60⟩) =
        { seen := [⟨5, 60⟩, ⟨7, 60⟩]
          notes := [.pageCompleted 0 ⟨5, 60⟩ 2 2, .pageFailed 1 ⟨7, 60⟩ .noBody]
          cursor := ⟨7, 60⟩
          result := some (.error .noBody) } ∧
      run SortKey.id.order 9 (interrupted .aborted) (.start ⟨2, by decide⟩ ⟨5, 60⟩) =
        { seen := [⟨5, 60⟩, ⟨7, 60⟩]
          notes := [.pageCompleted 0 ⟨5, 60⟩ 2 2]
          cursor := ⟨7, 60⟩
          result := some (.error .aborted) } ∧
      Completes SortKey.id.order 1 [⟨5, 60⟩] [⟨.int 2, .text "a"⟩, ⟨.int 1, .text "b"⟩]
        (run SortKey.id.order 9 ⟨.ok (taggedPages 0), [.ok (taggedPages 1)]⟩
          (.start ⟨2, by decide⟩ ⟨5, 60⟩))
        (run SortKey.id.order 8 ⟨.ok (taggedPages 1), []⟩ (.start ⟨2, by decide⟩ ⟨7, 60⟩)) := by
  have hfull : ∀ i < 1, IsFull ⟨2, by decide⟩ (taggedPages i) := by
    intro i hi
    obtain rfl : i = 0 := by omega
    exact le_rfl
  have hoffers : ∀ answer, Supply.Offers ⟨.ok (taggedPages 0), [answer]⟩ taggedPages 1 := by
    intro answer i hi
    obtain rfl : i = 0 := by omega
    rfl
  obtain ⟨hfails, hcompletes⟩ := resumes SortKey.id.order ⟨2, by decide⟩ ⟨5, 60⟩ hfull
  have hitem : ∀ i, Supply.item ⟨Except.ok (taggedPages 0), [.ok (taggedPages 1)]⟩ (1 + i) =
      Supply.item (⟨.ok (taggedPages 1), []⟩ : Supply (Except Fault (Page Row))) i := by
    intro i
    rw [← Supply.item_rest]
    rfl
  have hcompares : ∀ n, SortKey.id.order.Compares (gatheredUpTo
      (Supply.page ⟨.ok (taggedPages 0), [.ok (taggedPages 1)]⟩) n) := by
    intro n
    refine (SortKey.follows_id fun row hrow => ?_).compares
    obtain ⟨i, -, hi⟩ : ∃ i < n, row ∈ (Supply.page
        ⟨.ok (taggedPages 0), [.ok (taggedPages 1)]⟩ i).getD [] := by
      simpa [gatheredUpTo, gathered] using hrow
    obtain _ | _ | i := i <;>
      simp only [Supply.page, Supply.item, Supply.toList, taggedPages] at hi <;> simp at hi
    · rcases hi with rfl | rfl <;> rfl
    · rw [hi, Row.number]
    · rw [hi, Row.number]
  refine ⟨hfull, ?_, ?_, ?_⟩
  · exact hfails .noBody _ (hoffers _) rfl 9 (by decide)
  · exact hfails .aborted _ (hoffers _) rfl 9 (by decide)
  · exact hcompletes _ _ (hoffers _) hitem hcompares 8

end Tour
end ChainPoll

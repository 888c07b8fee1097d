import ChainPoll.Proofs.Paging.Store
import ChainPoll.Proofs.Supply

/-!
# Walks over a store

A walk whose pages are answered by a store asks for a page after each full one, and ends after the
first that is not full with the records of all of them.

Main results:

- Theorem {lit}`Walk.endOf_eq_none_iff`: a walk goes on after full pages only.
- Theorem {lit}`Tour.run_of_gathers`: which pages a walk over a store asks for, and how it ends.
- Theorem {lit}`Tour.answers_of_gathers`: a walk over a store asks for nothing else.
- Theorem {lit}`Tour.returns_of_store`: a walk over a store ends with what the store returns.
-/

namespace ChainPoll

open Store

variable {α : Type} {key : α → Int} {s : Store α key} {order : Order α} {w : Walk α}
  {supply : Supply (Except Fault (Page α))} {page : Page α} {pages : List (Page α)} {budget : Nat}

namespace Walk

/-- A walk goes on after full pages only. -/
theorem endOf_eq_none_iff (w : Walk α) (page : Page α) :
    w.endOf page = none ↔ IsFull w.size page := by
  cases page with
  | none => simp [endOf, not_isFull_none]
  | some rows => simp [endOf, IsFull]

/-- A walk that goes on is at the next cursor. -/
theorem absorb_of_isFull (hfull : IsFull w.size page) :
    w.absorb page =
      { w with
        cursor := w.cursor.advance w.size.rows
        rows := w.rows ++ page.getD []
        pagesUsed := w.pagesUsed + 1 } := by
  simp [absorb, (w.endOf_eq_none_iff page).mpr hfull]

/-- The walk after some pages, wherever its cursor is then. -/
def absorbAll (w : Walk α) (pages : List (Page α)) : Walk α :=
  { w with rows := w.rows ++ gathered pages, pagesUsed := w.pagesUsed + pages.length }

/-- The records of a walk do not depend on its cursor. -/
theorem result_congr {w w' : Walk α} (hrows : w.rows = w'.rows) (hused : w.pagesUsed = w'.pagesUsed)
    (order : Order α) : w.result order = w'.result order := by
  rw [result, result, hrows, hused]

end Walk

namespace Tour

/-- A walk asks for its first page where its cursor is. -/
theorem seen_succ (order : Order α) (budget : Nat) (supply : Supply (Except Fault (Page α)))
    (w : Walk α) : (run order (budget + 1) supply w).seen[0]? = some w.cursor := by
  cases hanswer : supply.next.1 <;> simp only [run, hanswer, precede] <;> rfl

/-- A walk goes on after a full page. -/
theorem run_of_isFull (hpage : supply.item 0 = .ok page) (hfull : IsFull w.size page) :
    run order (budget + 1) supply w =
      precede w.cursor (w.pageNotes page) (run order budget supply.next.2 (w.absorb page)) := by
  have hnext : supply.next.1 = .ok page := (supply.next_rest 0).trans hpage
  simp only [run, hnext, (w.endOf_eq_none_iff page).mpr hfull]

/-- A walk ends after a page that is not full. -/
theorem run_of_not_isFull (order : Order α) (budget : Nat) (hpage : supply.item 0 = .ok page)
    (hshort : ¬ IsFull w.size page) :
    (run order (budget + 1) supply w).seen = [w.cursor] ∧
      (run order (budget + 1) supply w).result = some ((w.absorb page).result order) := by
  have hnext : supply.next.1 = .ok page := (supply.next_rest 0).trans hpage
  cases hend : w.endOf page with
  | none => exact absurd ((w.endOf_eq_none_iff page).mp hend) hshort
  | some ending =>
      simp only [run, hnext, hend, precede, finish]
      cases (w.absorb page).result order with
      | ok r => exact ⟨rfl, rfl⟩
      | error fault => exact ⟨rfl, rfl⟩

/-- After full pages a walk asks for the next one where its cursor is then. -/
theorem seen_of_isFull {k : Nat}
    (h : ∀ i < k, ∃ page, supply.item i = .ok page ∧ IsFull w.size page) :
    (run order (k + 1) supply w).seen[k]? = some (w.cursor.advance (k * w.size.rows)) := by
  induction k generalizing supply w with
  | zero =>
      rw [seen_succ, Nat.zero_mul]
      rfl
  | succ k ih =>
      obtain ⟨page, hpage, hfull⟩ := h 0 k.succ_pos
      have hrest : ∀ i < k, ∃ page', supply.next.2.item i = .ok page' ∧
          IsFull (w.absorb page).size page' := by
        intro i hi
        obtain ⟨page', hpage', hfull'⟩ := h (i + 1) (by omega)
        exact ⟨page', (supply.item_next i).trans hpage', hfull'⟩
      have hseen := ih hrest
      rw [Walk.absorb_of_isFull hfull, Cursor.advance_advance] at hseen
      rw [run_of_isFull hpage hfull, Walk.absorb_of_isFull hfull, Nat.succ_mul,
        Nat.add_comm (k * _)]
      exact hseen

/--
A walk over pages of a store asks for each of them, and ends with their records, put in order.
-/
theorem run_of_gathers {size : PageSize} {c : Nat} (order : Order α)
    (h : s.Gathers size c pages)
    (hsupply : ∀ k page, pages[k]? = some page → supply.item k = .ok page) (hsize : w.size = size)
    (hbudget : pages.length ≤ budget) :
    (run order budget supply w).seen =
        (List.range pages.length).map (fun k => w.cursor.advance (k * size.rows)) ∧
      (run order budget supply w).result = some ((w.absorbAll pages).result order) := by
  induction h generalizing w supply budget with
  | @last c page hanswers hshort =>
      obtain ⟨budget, rfl⟩ := Nat.exists_eq_add_of_le' hbudget
      have hpage : supply.item 0 = .ok page := hsupply 0 page rfl
      obtain ⟨hseen, hresult⟩ := run_of_not_isFull order budget hpage (hsize ▸ hshort)
      rw [List.length_singleton, hseen, hresult]
      refine ⟨by simp [Cursor.advance], congrArg some (Walk.result_congr ?_ ?_ order)⟩
      · simp [Walk.absorb, Walk.absorbAll, gathered]
      · simp [Walk.absorb, Walk.absorbAll]
  | @full c page pages hanswers hfull hrest ih =>
      obtain ⟨budget, rfl⟩ := Nat.exists_eq_add_of_le' hbudget
      have hpage : supply.item 0 = .ok page := hsupply 0 page rfl
      have hsupply' : ∀ k page, pages[k]? = some page → supply.next.2.item k = .ok page :=
        Supply.forall_item_next (P := fun answer page => answer = Except.ok page) hsupply
      have hsize' : (w.absorb page).size = size := hsize
      obtain ⟨hseen, hresult⟩ := ih hsupply' hsize' (Nat.le_add_left pages.length budget)
      rw [List.length_cons, ← Nat.add_assoc, run_of_isFull hpage (hsize ▸ hfull)]
      constructor
      · have hcursor : (w.absorb page).cursor = w.cursor.advance size.rows := by
          rw [Walk.absorb_of_isFull (hsize ▸ hfull), hsize]
        simp only [precede, hseen, hcursor, Cursor.advance_advance, List.range_succ_eq_map,
          List.map_cons, List.map_map, Nat.zero_mul]
        refine congrArg₂ _ rfl (List.map_congr_left fun k _ => ?_)
        simp [Nat.succ_mul, Nat.add_comm]
      · refine hresult.trans (congrArg some (Walk.result_congr ?_ ?_ order))
        · simp [Walk.absorb, Walk.absorbAll, gathered, List.append_assoc]
        · simp only [Walk.absorb, Walk.absorbAll, List.length_cons]
          omega

/--
A walk that gets the pages of a store, one after another, has each of its requests answered by it.
-/
theorem answers_of_gathers {size : PageSize} {k : Nat} {c : Cursor}
    (h : s.Gathers size w.cursor.fromId pages)
    (hsupply : ∀ k page, pages[k]? = some page → supply.item k = .ok page) (hsize : w.size = size)
    (hseen : (run order budget supply w).seen[k]? = some c) :
    ∃ page, supply.item k = .ok page ∧ s.Answers size c.fromId page := by
  induction pages generalizing w supply budget k with
  | nil => cases h
  | cons page pages ih =>
      have hpage : supply.item 0 = .ok page := hsupply 0 page rfl
      cases budget with
      | zero => simp [run] at hseen
      | succ budget =>
          cases k with
          | zero =>
              rw [seen_succ, Option.some.injEq] at hseen
              refine ⟨page, hpage, ?_⟩
              cases h with
              | last hanswers _ => exact hseen ▸ hanswers
              | full hanswers _ _ => exact hseen ▸ hanswers
          | succ k =>
              cases h with
              | last _ hshort =>
                  rw [(run_of_not_isFull order budget hpage (hsize ▸ hshort)).1] at hseen
                  simp at hseen
              | full _ hfull hrest =>
                  rw [run_of_isFull hpage (hsize ▸ hfull)] at hseen
                  have hnext : s.Gathers size (w.absorb page).cursor.fromId pages := by
                    rw [Walk.absorb_of_isFull (hsize ▸ hfull), hsize]
                    exact hrest
                  have hsupply' : ∀ k page, pages[k]? = some page →
                      supply.next.2.item k = .ok page :=
                    Supply.forall_item_next (P := fun answer page => answer =
                      Except.ok page) hsupply
                  obtain ⟨page', hpage', hanswers'⟩ := ih hnext hsupply' hsize hseen
                  exact ⟨page', (supply.item_next k).symm.trans hpage', hanswers'⟩

/--
A walk whose pages a store answers asks for finitely many of them, and ends with what the store
returns.
-/
theorem returns_of_store (horder : order.Follows key s.records) (size : PageSize) (cursor : Cursor)
    (supply : Supply (Except Fault (Page α)))
    (h : ∀ budget k c, (run order budget supply (.start size cursor)).seen[k]? = some c →
      ∃ page, supply.item k = .ok page ∧ s.Answers size c.fromId page) :
    ∃ pages data, s.Returns size cursor.fromId pages data ∧
      (∀ k page, pages[k]? = some page → supply.item k = .ok page) ∧
      ∀ budget, pages.length ≤ budget →
        (run order budget supply (.start size cursor)).seen =
            (List.range pages.length).map (fun k => cursor.advance (k * size.rows)) ∧
          (run order budget supply (.start size cursor)).result =
            some (.ok ⟨data, pages.length⟩) := by
  obtain ⟨pages, hgathers, hsupply⟩ :=
    s.exists_gathers size cursor.fromId (fun k page => supply.item k = .ok page)
      fun k hk => h (k + 1) k _ (seen_of_isFull hk)
  have hsub : gathered pages ⊆ s.records := by
    intro a ha
    exact (mem_above.mp (hgathers.mem_iff.mp ha)).1
  obtain ⟨data, hsort, hdata⟩ := (horder.mono hsub).sort
  refine ⟨pages, data, hgathers.returns hdata, hsupply, ?_⟩
  intro budget hbudget
  obtain ⟨hseen, hresult⟩ :=
    run_of_gathers order (w := .start size cursor) hgathers hsupply rfl hbudget
  refine ⟨hseen, hresult.trans ?_⟩
  simp [Walk.result, Walk.absorbAll, Walk.start, hsort, Except.map]

end Tour
end ChainPoll

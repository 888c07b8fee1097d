import ChainPoll.Journal
import ChainPoll.Paging.Order
import ChainPoll.Paging.Result
import ChainPoll.Supply

/-!
# Walks over pages

A walk asks for one page after another.  A page without content or one that is not full ends it;
after a full page the cursor moves on by the size of a page.  At the end all records are put in
order.
-/

namespace ChainPoll

/-- A page: its records, or no content. -/
abbrev Page (α : Type) := Option (List α)

/-- The state of a walk: where it stands, and what it has gathered. -/
structure Walk (α : Type) where
  size : PageSize
  cursor : Cursor
  rows : List α
  pagesUsed : Nat

namespace Walk

variable {α : Type}

/-- A walk that has asked for nothing yet. -/
def start (size : PageSize) (cursor : Cursor) : Walk α :=
  { size, cursor, rows := [], pagesUsed := 0 }

/-- How a page ends a walk, if it does. -/
def endOf (w : Walk α) : Page α → Option StreamEnd
  | none => some .noContent
  | some rows => if rows.length < w.size.rows then some .shortPage else none

/-- The walk after a page. -/
def absorb (w : Walk α) (page : Page α) : Walk α :=
  { w with
    cursor := if (w.endOf page).isSome then w.cursor else w.cursor.advance w.size.rows
    rows := w.rows ++ page.getD []
    pagesUsed := w.pagesUsed + 1 }

/-- What is noted of a page. -/
def pageNotes (w : Walk α) : Page α → List Note
  | none => []
  | some rows => [.pageCompleted w.pagesUsed w.cursor rows.length w.size.rows]

/-- What is noted of a page that failed; a cancellation is not noted. -/
def faultNotes (w : Walk α) (fault : Fault) : List Note :=
  if fault.ordinary then [.pageFailed w.pagesUsed w.cursor fault] else []

/-- The records gathered, in order. -/
def result (w : Walk α) (order : Order α) : Except Fault (PageResult α) :=
  (order.sort w.rows).map fun data => { data, pagesUsed := w.pagesUsed }

/-- What is noted of a walk that has ended. -/
def endNotes (r : PageResult α) (ending : StreamEnd) : List Note :=
  [.pagesCompleted r.pagesUsed.toNat r.totalRecords ending]

end Walk

/-! ## Whole walks -/

/-- A walk over pages that are there at once. -/
structure Tour (α : Type) where
  /-- Where the cursor stood whenever a page was asked for. -/
  seen : List Cursor
  notes : List Note
  /-- Where the cursor stands afterwards. -/
  cursor : Cursor
  /-- The result, unless the walk did not come to its end within its budget. -/
  result : Option (Except Fault (PageResult α))

namespace Tour

variable {α : Type}

/-- The tour that begins with a page asked for at a cursor and noted down. -/
def precede (cursor : Cursor) (notes : List Note) (tour : Tour α) : Tour α :=
  { tour with seen := cursor :: tour.seen, notes := notes ++ tour.notes }

/-- The tour of a walk that has come to its end. -/
def finish (order : Order α) (w : Walk α) (ending : StreamEnd) : Tour α :=
  match w.result order with
  | .ok r => ⟨[], Walk.endNotes r ending, w.cursor, some (.ok r)⟩
  | .error fault => ⟨[], [], w.cursor, some (.error fault)⟩

/-- Walks over the pages of a supply, within a budget of pages. -/
def run (order : Order α) : Nat → Supply (Except Fault (Page α)) → Walk α → Tour α
  | 0, _, w => ⟨[], [], w.cursor, none⟩
  | budget + 1, pages, w =>
    let (answer, pages) := pages.next
    match answer with
    | .error fault => precede w.cursor (w.faultNotes fault) ⟨[], [], w.cursor, some (.error fault)⟩
    | .ok page =>
      precede w.cursor (w.pageNotes page)
        (match w.endOf page with
          | some ending => finish order (w.absorb page) ending
          | none => run order budget pages (w.absorb page))

end Tour
end ChainPoll

import ChainPoll.Client.Query
import ChainPoll.Proofs.Endpoint.Events
import ChainPoll.Proofs.Paging.Store
import ChainPoll.Proofs.Retry.Undisturbed

/-!
# Streams of events

The answers to a call for events bring one page after another, each of them after answers that are
tried again.  The pages are settled by the successes alone: answers that are tried again do not
matter, nor does it matter how the service says that there is nothing more.

Main results:

- Theorem {lit}`Answer.isRetried_iff`: which answers are tried again.
- Theorem {lit}`Answer.EndsStream.givesPage`: no content, a null result and a missing one are no
  page.
- Theorem {lit}`EventStream.Brings.first`: where the first page stands, and what follows it.
- Theorem {lit}`EventStream.Brings.thinned`: answers that are tried again do not matter for the
  pages.
-/

namespace ChainPoll

/-! ## Answers to requests for events -/

/-- The errand for a page of events. -/
def Errand.events (url : String) : Errand :=
  { url := .ok url, path := Settings.eventsPath, form := .events }

/-- What an attempt for events comes to does not depend on the URL. -/
theorem Errand.Yields.of_events {url : String} {limit : Option Time} {answer : Answer} {span : Time}
    {outcome : Except Fault (Option Payload)}
    (h : (Errand.events url).Yields limit answer span outcome) (url' : String) :
    (Errand.events url').Yields limit answer span outcome := by
  cases h with
  | failure h => exact .failure h
  | noContent h => exact .noContent h
  | badStatus h hstatus hstatus' => exact .badStatus h hstatus hstatus'
  | readFailure h hread => exact .readFailure h hread
  | emptyBody h hread hempty => exact .emptyBody h hread hempty
  | misshapen h hread hempty hdecode => exact .misshapen h hread hempty hdecode
  | payload h hread hempty hdecode => exact .payload h hread hempty hdecode
  | lateAnswer hlimit h => exact .lateAnswer hlimit h
  | lateBody hlimit h hread => exact .lateBody hlimit h hread

/-- The size of a page of events. -/
def PageSize.events : PageSize := ⟨Settings.pageLimit, Nat.succ_pos _⟩

namespace Answer

variable {limit : Option Time} {a : Answer} {page page' : Page EventRecord}

/-- Whether an answer to a request for events is a success, and which page it gives. -/
def GivesPage (limit : Option Time) (a : Answer) (page : Page EventRecord) : Prop :=
  ∃ url span payload, (Errand.events url).Yields limit a span (.ok payload) ∧
    Payload.page payload = page

/-- Whether a request for events is tried again after an answer. -/
def IsRetried (limit : Option Time) (a : Answer) : Prop :=
  ∃ url span outcome, (Errand.events url).Yields limit a span outcome ∧ Retry.Mendable outcome

/-- A request for events is tried again after the faults that another attempt may mend. -/
theorem isRetried_iff :
    a.IsRetried limit ↔ ∃ url span fault,
      (Errand.events url).Yields limit a span (.error fault) ∧ fault.retryable = true := by
  constructor
  · rintro ⟨url, span, outcome, hyields, hmend⟩
    obtain ⟨fault, rfl, -⟩ := id hmend
    exact ⟨url, span, fault, hyields, Retry.mendable_error_iff.mp hmend⟩
  · rintro ⟨url, span, fault, hyields, hfault⟩
    exact ⟨url, span, _, hyields, Retry.mendable_error_iff.mpr hfault⟩

/-- The ways to say that there is nothing more: no content, a null result, and a missing one. -/
inductive EndsStream (limit : Option Time) : Answer → Prop where
  | noContent {delay readDelay : Pause} {body : Except Fault ByteArray} {span : Time}
      (h : delay.EndsBy limit 0 span) : EndsStream limit (.reply delay 204 readDelay body)
  | nothing {delay readDelay : Pause} {bytes : ByteArray} {begun span : Time}
      {entries : List (String × Json)} {height : String} (h : delay.EndsBy limit 0 begun)
      (hread : readDelay.EndsBy limit begun span) (hempty : bytes.isEmpty = false)
      (hbytes : Json.ofBytes? Json.standardDepth bytes = some (.record entries))
      (hheight : Json.field? entries "height" = some (.text height))
      (hresult : Json.field? entries "result" = some .null ∨ Json.field? entries "result" = none) :
      EndsStream limit (.reply delay 200 readDelay (.ok bytes))

/-- An envelope whose result is null or missing holds no events. -/
theorem decode_of_nothing {bytes : ByteArray} {entries : List (String × Json)} {height : String}
    (hbytes : Json.ofBytes? Json.standardDepth bytes = some (.record entries))
    (hheight : Json.field? entries "height" = some (.text height))
    (hresult : Json.field? entries "result" = some .null ∨ Json.field? entries "result" = none) :
    Form.events.decode bytes = .ok (.events ⟨height, none⟩) := by
  have hread : Form.events.fields.read entries = .ok (height, none, ()) := by
    rcases hresult with hresult | hresult
    · simp [Form.fields, Envelope.listFields, Record.Fields.needed, Record.Fields.field,
        Record.Fields.read, Record.readField, Record.FieldKey.find?, hheight, hresult,
        Record.Shape.read, Record.readText, Record.readOptional, Record.Checked.within,
        Record.Checked.both]
      rfl
    · simp [Form.fields, Envelope.listFields, Record.Fields.needed, Record.Fields.field,
        Record.Fields.read, Record.readField, Record.FieldKey.find?, hheight, hresult,
        Record.Shape.read, Record.readText, Record.Checked.within, Record.Checked.both,
        Record.Shape.zero]
      rfl
  rw [Form.decode_of_ofBytes? hbytes, Form.read]
  simp only [Record.Shape.read, Record.readRecord, hread]
  rfl

/-- No content, a null result and a missing one are no page. -/
theorem EndsStream.givesPage (h : a.EndsStream limit) : a.GivesPage limit none := by
  cases h with
  | noContent h => exact ⟨"", _, none, .noContent h, rfl⟩
  | nothing h hread hempty hbytes hheight hresult =>
      exact ⟨"", _, _, .payload h hread hempty (decode_of_nothing hbytes hheight hresult), rfl⟩

/-- An answer gives one page only. -/
theorem GivesPage.unique (hlimit : ∀ l ∈ limit, 0 ≤ l) (h : a.GivesPage limit page)
    (h' : a.GivesPage limit page') : page = page' := by
  obtain ⟨url, span, payload, hyields, rfl⟩ := h
  obtain ⟨url', span', payload', hyields', rfl⟩ := h'
  have hsame := ((hyields.of_events url').unique hlimit hyields').2
  rw [Except.ok.inj hsame]

/-- A success is not tried again. -/
theorem GivesPage.not_isRetried (hlimit : ∀ l ∈ limit, 0 ≤ l) (h : a.GivesPage limit page) :
    ¬ a.IsRetried limit := by
  obtain ⟨url, span, payload, hyields, -⟩ := h
  rintro ⟨url', span', outcome, hyields', fault, hfault, -⟩
  have hsame := ((hyields.of_events url').unique hlimit hyields').2
  rw [hfault] at hsame
  simp at hsame

end Answer

/-! ## Streams -/

namespace EventStream

open Store

/--
What the answers to a call for events bring: pages, each after so many answers that are tried again.
All pages are full but the last; what follows it does not matter.
-/
inductive Brings (limit : Option Time) : List Answer → List (Nat × Page EventRecord) → Prop where
  | retried {a : Answer} {rest : List Answer} {m : Nat} {page : Page EventRecord}
      {pages : List (Nat × Page EventRecord)} (ha : a.IsRetried limit)
      (hrest : Brings limit rest ((m, page) :: pages)) :
      Brings limit (a :: rest) ((m + 1, page) :: pages)
  | full {a : Answer} {rest : List Answer} {page : Page EventRecord}
      {pages : List (Nat × Page EventRecord)} (ha : a.GivesPage limit page)
      (hfull : IsFull .events page) (hrest : Brings limit rest pages) :
      Brings limit (a :: rest) ((0, page) :: pages)
  | last {a : Answer} {rest : List Answer} {page : Page EventRecord} (ha : a.GivesPage limit page)
      (hshort : ¬ IsFull .events page) : Brings limit (a :: rest) [(0, page)]

/--
Answers some of which were changed: of those that are tried again some were deleted, and of those
that end a stream some were replaced.
-/
inductive Thinned (limit : Option Time) : List Answer → List Answer → Prop where
  | nil : Thinned limit [] []
  | keep {a : Answer} {as bs : List Answer} (h : Thinned limit as bs) :
      Thinned limit (a :: as) (a :: bs)
  | delete {a : Answer} {as bs : List Answer} (ha : a.IsRetried limit) (h : Thinned limit as bs) :
      Thinned limit (a :: as) bs
  | replace {a b : Answer} {as bs : List Answer} (ha : a.EndsStream limit) (hb : b.EndsStream limit)
      (h : Thinned limit as bs) : Thinned limit (a :: as) (b :: bs)

/--
The URLs of the requests for pages from an identifier on: each once more than it is tried again.
-/
def urls (front : List Char) (upTo : Int) : Nat → List (Nat × Page EventRecord) → List String
  | _, [] => []
  | fromId, (m, _) :: pages =>
    List.replicate (m + 1) (eventsUrl front fromId upTo Settings.pageLimit)
      ++ urls front upTo (fromId + Settings.pageLimit) pages

variable {limit : Option Time} {answers : List Answer} {pages : List (Nat × Page EventRecord)}
  {page : Page EventRecord} {m : Nat}

/-- The first page that some answers bring, and what they bring then. -/
theorem Brings.first (h : Brings limit answers ((m, page) :: pages)) :
    (∀ i < m, ∃ a, answers[i]? = some a ∧ a.IsRetried limit) ∧
      (∃ a, answers[m]? = some a ∧ a.GivesPage limit page) ∧
      (IsFull .events page ∧ Brings limit (answers.drop (m + 1)) pages ∨
        ¬ IsFull .events page ∧ pages = []) := by
  induction m generalizing answers with
  | zero =>
      cases h with
      | full ha hfull hrest => exact ⟨by simp, ⟨_, rfl, ha⟩, .inl ⟨hfull, hrest⟩⟩
      | last ha hshort => exact ⟨by simp, ⟨_, rfl, ha⟩, .inr ⟨hshort, rfl⟩⟩
  | succ m ih =>
      cases h with
      | @retried a rest _ _ _ ha hrest =>
          obtain ⟨hretried, hgives, hnext⟩ := ih hrest
          refine ⟨?_, hgives, hnext⟩
          intro i hi
          cases i with
          | zero => exact ⟨a, rfl, ha⟩
          | succ i => exact hretried i (by omega)

/-- Answers that are tried again do not matter for the pages, nor how a stream ends. -/
theorem Brings.thinned (hlimit : ∀ l ∈ limit, 0 ≤ l) (h : Brings limit answers pages)
    {others : List Answer} (hthinned : Thinned limit answers others) :
    ∃ pages', Brings limit others pages' ∧ pages'.map (·.2) = pages.map (·.2) := by
  induction h generalizing others with
  | retried ha hrest ih =>
      cases hthinned with
      | keep h =>
          obtain ⟨pages', hbrings, hsame⟩ := ih h
          cases hbrings with
          | retried hb hrest' => exact ⟨_, .retried ha (.retried hb hrest'), hsame⟩
          | full hb hfull hrest' => exact ⟨_, .retried ha (.full hb hfull hrest'), hsame⟩
          | last hb hshort => exact ⟨_, .retried ha (.last hb hshort), hsame⟩
      | delete _ h => exact ih h
      | replace hends _ _ => exact absurd ha (hends.givesPage.not_isRetried hlimit)
  | full ha hfull hrest ih =>
      cases hthinned with
      | keep h =>
          obtain ⟨pages', hbrings, hsame⟩ := ih h
          exact ⟨_, .full ha hfull hbrings, by rw [List.map_cons, List.map_cons, hsame]⟩
      | delete hretried _ => exact absurd hretried (ha.not_isRetried hlimit)
      | replace hends _ _ =>
          rw [ha.unique hlimit hends.givesPage] at hfull
          exact absurd hfull (not_isFull_none .events)
  | last ha hshort =>
      cases hthinned with
      | keep h => exact ⟨_, .last ha hshort, rfl⟩
      | delete hretried _ => exact absurd hretried (ha.not_isRetried hlimit)
      | replace hends hends' _ =>
          rw [ha.unique hlimit hends.givesPage] at hshort ⊢
          exact ⟨_, .last hends'.givesPage hshort, rfl⟩

/-- Answers that bring pages are some. -/
theorem Brings.ne_nil (h : Brings limit answers pages) : answers ≠ [] := by
  cases h <;> simp

end EventStream

end ChainPoll

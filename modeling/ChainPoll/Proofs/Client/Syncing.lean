import ChainPoll.Proofs.Client.Streaming

/-!
# Calls for the events of a store

A call for events whose requests are answered from a store returns what a walk over the store
returns: the events from an identifier on, each of them at least once, and no others.

Main results:

- Theorem {lit}`EventStream.brings_of_gathers`: answers that give the pages of a store bring these.
- Theorem {lit}`Client.streams_of_serves`: a call for the events of a store returns them.
- Theorem {lit}`Store.nothing_lost`: what walks over stores and calls for their events return.
-/

namespace ChainPoll

open Store

/--
Whether a script answers the requests for events from an identifier on by what a store holds.  There
is a next request as long as all pages before are full.
-/
def Store.Serves (s : Store EventRecord EventRecord.id) (limit : Option Time) (fromId : Nat)
    (script : Script) : Prop :=
  ∀ k, (∀ i < k, ∃ page, (script.item i).GivesPage limit page ∧ IsFull .events page) →
    ∃ page, (script.item k).GivesPage limit page ∧
      s.Answers .events (fromId + k * PageSize.events.rows) page

namespace EventStream

variable {limit : Option Time} {a : Answer} {page : Page EventRecord}
  {pages : List (Nat × Page EventRecord)}

/-- A full page alone does not end a stream. -/
theorem not_brings_singleton (hlimit : ∀ l ∈ limit, 0 ≤ l) (ha : a.GivesPage limit page)
    (hfull : IsFull .events page) : ¬ Brings limit [a] pages := by
  intro h
  cases h with
  | retried hretried _ => exact ha.not_isRetried hlimit hretried
  | full _ _ hrest => exact hrest.ne_nil rfl
  | last hlast hshort => exact hshort (ha.unique hlimit hlast ▸ hfull)

/-- Answers that give the pages of a store, one after another, bring these. -/
theorem brings_of_gathers {s : Store EventRecord EventRecord.id} {c : Nat}
    {pages : List (Page EventRecord)} {script : Script} (hlimit : ∀ l ∈ limit, 0 ≤ l)
    (h : s.Gathers .events c pages)
    (hgiven : ∀ k page, pages[k]? = some page → (script.item k).GivesPage limit page) :
    Brings limit script.toList (pages.map (0, ·)) := by
  induction h generalizing script with
  | @last c page _ hshort => exact .last (hgiven 0 page rfl) hshort
  | @full c page pages _ hfull hrest ih =>
      have hpage : script.head.GivesPage limit page := hgiven 0 page rfl
      have hnext : Brings limit script.next.2.toList (pages.map (0, ·)) :=
        ih (Supply.forall_item_next (P := Answer.GivesPage limit) hgiven)
      obtain ⟨head, tail⟩ := script
      cases tail with
      | nil => exact absurd hnext (not_brings_singleton hlimit hpage hfull)
      | cons b rest => exact .full hpage hfull hnext

/-- Without answers that are tried again there is one request for each page. -/
theorem urls_of_given (front : List Char) (upTo : Int) (fromId : Nat)
    (pages : List (Page EventRecord)) :
    urls front upTo fromId (pages.map (0, ·)) =
      (List.range pages.length).map fun k =>
        eventsUrl front (fromId + k * Settings.pageLimit : Nat) upTo Settings.pageLimit := by
  induction pages generalizing fromId with
  | nil => rfl
  | cons page pages ih =>
      rw [List.map_cons, urls, ih, List.length_cons, List.range_succ_eq_map, List.map_cons,
        List.map_map, Nat.zero_mul]
      refine congrArg₂ _ rfl (List.map_congr_left fun k _ => ?_)
      rw [Function.comp_apply, Nat.succ_mul]
      exact congrArg (eventsUrl front · upTo Settings.pageLimit) (by omega)

end EventStream

/-- A call for the events of a store returns them. -/
theorem Client.streams_of_serves {client : Client} {now : Time} {front : List Char}
    {script : Script} {s : Store EventRecord EventRecord.id}
    (haddress : Addressable client.station.address front) (hhub : client.hub.Undisturbed now)
    (fromId : Nat) (upTo : Int) (h : s.Serves client.hub.gateway.limit fromId script) :
    ∃ pages data, s.Returns .events fromId pages data ∧
      (∀ k page, pages[k]? = some page →
        (script.item k).GivesPage client.hub.gateway.limit page) ∧
      client.Streams now fromId upTo script data ((List.range pages.length).map fun k =>
        eventsUrl front (fromId + k * Settings.pageLimit : Nat) upTo Settings.pageLimit) := by
  obtain ⟨pages, hgathers, hgiven⟩ := s.exists_gathers .events fromId
    (fun k page => (script.item k).GivesPage client.hub.gateway.limit page) h
  have hbrings := EventStream.brings_of_gathers client.hub.gateway.limit_nonneg hgathers hgiven
  have hpages : (pages.map (0, ·)).map (·.2) = pages := by simp [Function.comp_def]
  have hnone : ¬ ∃ x ∈ pages.map ((0 : Nat), ·), 0 < x.1 := by simp
  have hstreams := streams_of_brings haddress hhub (fun h => absurd h hnone) hbrings fromId upTo
  rw [hpages, EventStream.urls_of_given] at hstreams
  exact ⟨pages, _, hgathers.returns (StableSort.mergeSort EventRecord.id _), hgiven, hstreams⟩

/--
Nothing that a store holds from an identifier on is lost.  A walk over rows with integers for
identifiers ends with all of them in order, and so does a call for events; some come twice exactly
if an identifier is missing that a full page was asked for, so that each comes once if none is
missing at all.
-/
theorem Store.nothing_lost :
    (∀ s : Store Row Row.number, (∀ row ∈ s.records, row.id = .int row.number) →
      ∀ (size : PageSize) (cursor : Cursor) (supply : Supply (Except Fault (Page Row))),
        (∀ budget k c,
          (Tour.run SortKey.id.order budget supply (.start size cursor)).seen[k]? = some c →
            ∃ page, supply.item k = .ok page ∧ s.Answers size c.fromId page) →
        ∃ pages data, s.Returns size cursor.fromId pages data ∧
          (∀ k page, pages[k]? = some page → supply.item k = .ok page) ∧
          ∀ budget, pages.length ≤ budget →
            (Tour.run SortKey.id.order budget supply (.start size cursor)).seen =
                (List.range pages.length).map (fun k => cursor.advance (k * size.rows)) ∧
              (Tour.run SortKey.id.order budget supply (.start size cursor)).result =
                some (.ok ⟨data, pages.length⟩)) ∧
      ∀ (s : Store EventRecord EventRecord.id) (client : Client) (now : Time) (front : List Char),
        Addressable client.station.address front → client.hub.Undisturbed now →
        ∀ (fromId : Nat) (upTo : Int) (script : Script),
          s.Serves client.hub.gateway.limit fromId script →
          ∃ pages data, s.Returns .events fromId pages data ∧
            (∀ k page, pages[k]? = some page →
              (script.item k).GivesPage client.hub.gateway.limit page) ∧
            client.Streams now fromId upTo script data ((List.range pages.length).map fun k =>
              eventsUrl front (fromId + k * Settings.pageLimit : Nat) upTo Settings.pageLimit) :=
  ⟨fun _ hint size cursor supply h =>
      Tour.returns_of_store (SortKey.follows_id hint) size cursor supply h,
    fun _ _ _ _ haddress hhub fromId upTo _ h =>
      Client.streams_of_serves haddress hhub fromId upTo h⟩

/-- Two rows, with identifiers missing before them and between them. -/
def Store.sparse : Store Row Row.number where
  records := [⟨.int 1, .null⟩, ⟨.int 4, .null⟩]
  ascending := by simp [Row.number]
  nonneg := by simp [Row.number]

/-- What the sparse store answers to a walk over pages of two rows from zero on. -/
def Store.sparseAnswers : Supply (Except Fault (Page Row)) :=
  ⟨.ok (some [⟨.int 4, .null⟩, ⟨.int 1, .null⟩]), [.ok (some [⟨.int 4, .null⟩])]⟩

/--
The answers are the pages of the sparse store: a full one, and a short one with the later row again.
-/
theorem Store.sparse_gathers :
    sparse.Gathers ⟨2, by decide⟩ 0
      [some [⟨.int 4, .null⟩, ⟨.int 1, .null⟩], some [⟨.int 4, .null⟩]] := by
  refine .full ?_ (by simp [IsFull]) (.last ?_ (by simp [IsFull]))
  · simpa [Answers, above, sparse, Row.number] using List.Perm.swap _ _ _
  · simp [Answers, above, sparse, Row.number]

/-- The sparse store answers each request of a walk over pages of two rows from zero on. -/
theorem Store.sparse_answers (budget k : Nat) (c : Cursor)
    (h : (Tour.run SortKey.id.order budget sparseAnswers
      (.start ⟨2, by decide⟩ ⟨0, 9⟩)).seen[k]? = some c) :
    ∃ page, sparseAnswers.item k = .ok page ∧ sparse.Answers ⟨2, by decide⟩ c.fromId page := by
  refine Tour.answers_of_gathers (w := .start ⟨2, by decide⟩ ⟨0, 9⟩) sparse_gathers ?_ rfl h
  intro k page hk
  rcases k with _ | _ | k
  · rw [← Option.some.inj hk]
    rfl
  · rw [← Option.some.inj hk]
    rfl
  · simp at hk

/-- A store with two early events. -/
def Store.earlyEvents : Store EventRecord EventRecord.id where
  records := [Client.early 4, Client.early 5]
  ascending := by simp [Client.early]
  nonneg := by simp [Client.early]

/-- An answer with two early events answers a call for them. -/
theorem Store.earlyEvents_serves :
    earlyEvents.Serves Client.steady.hub.gateway.limit 4 ⟨Client.swapped, []⟩ := by
  have hgives : Client.swapped.GivesPage Client.steady.hub.gateway.limit
      (some [Client.early 5, Client.early 4]) := Client.steady_limit ▸ Client.givesPage_swapped
  intro k hk
  cases k with
  | zero =>
      refine ⟨_, hgives, ?_⟩
      simpa [Answers, above, earlyEvents, Client.early, PageSize.events, Settings.pageLimit]
        using List.Perm.swap _ _ _
  | succ k =>
      obtain ⟨page, hpage, hfull⟩ := hk 0 k.succ_pos
      rw [hpage.unique Client.steady.hub.gateway.limit_nonneg hgives] at hfull
      simp [IsFull, PageSize.events, Settings.pageLimit] at hfull

/-- What a walk over the sparse store and a call for two early events return. -/
theorem Store.sparse_returns :
    (∃ pages data, sparse.Returns ⟨2, by decide⟩ 0 pages data ∧
      (Tour.run SortKey.id.order pages.length sparseAnswers
        (.start ⟨2, by decide⟩ ⟨0, 9⟩)).result = some (.ok ⟨data, pages.length⟩)) ∧
      ∃ pages data, earlyEvents.Returns .events 4 pages data ∧
        Client.steady.Streams 0 4 9 ⟨Client.swapped, []⟩ data
          ((List.range pages.length).map fun k =>
            eventsUrl "http://h".toList (4 + k * Settings.pageLimit : Nat) 9
              Settings.pageLimit) := by
  have hint : ∀ row ∈ sparse.records, row.id = .int row.number := by
    simp [sparse, Row.number]
  obtain ⟨hwalks, hcalls⟩ := nothing_lost
  obtain ⟨pages, data, hreturns, -, hends⟩ :=
    hwalks sparse hint ⟨2, by decide⟩ ⟨0, 9⟩ sparseAnswers sparse_answers
  obtain ⟨pages', data', hreturns', -, hstreams⟩ :=
    hcalls earlyEvents Client.steady 0 _ Client.steady_addressable (Client.undisturbed_make _ _ _ _)
      4 9 _ earlyEvents_serves
  exact ⟨⟨pages, data, hreturns, (hends _ le_rfl).2⟩, pages', data', hreturns', hstreams⟩

end ChainPoll

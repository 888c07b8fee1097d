import ChainPoll.Proofs.Client.Running
import ChainPoll.Proofs.Paging.Streams
import ChainPoll.Proofs.Paging.Touring

/-!
# Calls for events

A call for events asks for one page after another, and for each of them again and again until an
answer is a success.  It returns the events of the pages that its answers bring, in order.

Main results:

- Theorem {lit}`Call.Asks.exists_turn`: after as many requests as a page takes, the call goes on
  with it.
- Theorem {lit}`Call.Asks.exists_end_of_brings`: a call ends with the events of the pages, in order.
- Theorem {lit}`Client.failures_invisible`: what a call for events returns, and which URLs it asks.
-/

namespace ChainPoll

/-! ## Calls for events -/

namespace Call

open EventStream Store

variable {hub : Hub} {c : Call} {t : Time} {front : List Char} {upTo : Int} {w : Walk EventRecord}

/-- A call for events that nothing disturbs, about to ask for a page of its walk. -/
structure Asks (hub : Hub) (t : Time) (front : List Char) (upTo : Int) (w : Walk EventRecord)
    (c : Call) : Prop where
  undisturbed : hub.Undisturbed t
  limits : c.limits = .none
  query : ∃ fromId, c.query = .events fromId upTo
  walk : c.walk = some w
  size : w.size = .events
  addressable : Addressable c.station.address front

/-- The planned call that asks for a page of events. -/
def pagePlan (hub : Hub) (t : Time) (url : String) (c : Call) : Retry.Plan :=
  ⟨hub, t, .events url, c.station.policy, c.script⟩

/-- A call that is about to ask for a page makes the planned call for it. -/
theorem Asks.exists_fetch (h : c.Asks hub t front upTo w) :
    ∃ notes, c.fetch hub t =
      (((c.pagePlan hub t (eventsUrl front w.cursor.fromId upTo Settings.pageLimit)).after
      .none 0).1,
        { c.jot t notes with
          stage := .fetching (((c.pagePlan hub t (eventsUrl front w.cursor.fromId upTo
            Settings.pageLimit)).after .none 0).2.following (c.jot t notes).trace) }) := by
  obtain ⟨fromId, hquery⟩ := h.query
  obtain ⟨e, he, hpath, hurl, text, htext⟩ := Resource.exists_events_endpoint h.addressable
    w.cursor.fromId upTo Settings.pageLimit
  have hendpoint : c.endpoint? = .ok e := by
    simp only [endpoint?, h.walk, hquery, Query.resource, h.size, PageSize.events]
    exact he
  have hnotes : c.requestNotes e = .ok [.pageQueried text] := by
    simp [requestNotes, h.walk, htext, Except.map]
  have hplan : c.pagePlan hub t (eventsUrl front w.cursor.fromId upTo Settings.pageLimit) =
      ⟨hub, t, .ofEndpoint e c.query.form, c.station.policy, c.script⟩ := by
    simp [pagePlan, Errand.ofEndpoint, Errand.events, hurl, hpath, hquery, Query.form]
  have hundisturbed : (c.pagePlan hub t (eventsUrl front w.cursor.fromId upTo
      Settings.pageLimit)).hub.Undisturbed t := h.undisturbed
  obtain ⟨flight, hflying⟩ := Retry.Plan.flying_after_zero hundisturbed rfl
  refine ⟨[.pageQueried text], ?_⟩
  rw [← h.limits]
  refine fetch_of_plan hendpoint hnotes hplan ?_
  rw [h.limits]
  simp [Retry.outcome?, hflying.phase]

/--
A call that asks for a page goes on with it after as many failed attempts as it is tried again.
-/
theorem Asks.exists_turn (h : c.Asks hub t front upTo w) {k : Nat} {page : Page EventRecord}
    (hretried : ∀ i < k, (c.script.item i).IsRetried hub.gateway.limit)
    (hgives : (c.script.item k).GivesPage hub.gateway.limit page)
    (hpolicy : 0 < k → 0 < c.station.policy.period ∧ c.station.policy.reportEach ≠ 0) :
    ∃ (n : Nat) (hub' : Hub) (c' : Call) (t' : Time),
      run n (c.fetch hub t).1 (c.fetch hub t).2 = c'.turn hub' w t' page ∧
        hub'.Undisturbed t' ∧ hub'.gateway.limit = hub.gateway.limit ∧ c'.limits = .none ∧
        c'.query = c.query ∧ c'.station = c.station ∧ c'.script = c.script.rest (k + 1) ∧
        c'.trace.requests.map (·.url) = c.trace.requests.map (·.url) ++
          List.replicate (k + 1) (eventsUrl front w.cursor.fromId upTo Settings.pageLimit) := by
  obtain ⟨notes, hfetch⟩ := h.exists_fetch
  generalize hp : c.pagePlan hub t (eventsUrl front w.cursor.fromId upTo Settings.pageLimit) = p
    at hfetch
  obtain ⟨url, span, payload, hyields, hpage⟩ := hgives
  have hends : p.EndsWith k (.ok payload) := by
    subst hp
    refine ⟨fun i hi => ?_, ⟨span, hyields.of_events _⟩, by simp [Retry.Mendable]⟩
    obtain ⟨url', span', outcome, hyields', hmend⟩ := hretried i hi
    exact ⟨span', outcome, hyields'.of_events _, hmend⟩
  have hundisturbed : p.hub.Undisturbed p.now := by
    subst hp
    exact h.undisturbed
  obtain ⟨n, t', hrunning, hend, hleft, hundisturbed', hlimit⟩ := Retry.Plan.exists_end_after
    hundisturbed (by rw [← hp]; rfl) hends (by rw [← hp]; exact hpolicy)
  have hurls : (p.after .none (n + 1)).2.trace.requests.map (·.url) =
      List.replicate (k + 1) (eventsUrl front w.cursor.fromId upTo Settings.pageLimit) := by
    refine List.eq_replicate_iff.mpr ⟨by rw [List.length_map, hleft.count], ?_⟩
    intro url hurl
    obtain ⟨q, hq, rfl⟩ := List.mem_map.mp hurl
    exact hleft.sent.url q hq
  have hscript : (p.after .none (n + 1)).2.script = c.script.rest (k + 1) := by
    rw [hleft.script, ← hp]
    rfl
  rw [hfetch]
  refine ⟨n + 1, (p.after .none (n + 1)).1,
    { c.jot t notes with
      stage := .fetching ((p.after .none n).2.following (c.jot t notes).trace) }.leave
        ((p.after .none (n + 1)).2.following (c.jot t notes).trace), t', ?_, hundisturbed',
    by rw [hlimit, ← hp]; rfl, h.limits, rfl, rfl, hscript, ?_⟩
  · rw [run_of_end (c.jot t notes) hrunning hend]
    simp only [settle, leave, jot, h.walk, hpage]
  · simp only [leave, Retry.following, Trace.following, List.map_append, hurls]
    rfl

/-- After a full page a call asks for the next one. -/
theorem turn_of_isFull {page : Page EventRecord} (hub : Hub) (c : Call) (t : Time)
    (hfull : IsFull w.size page) :
    c.turn hub w t page =
      { c.jot t (w.pageNotes page) with walk := some (w.absorb page) }.fetch hub t := by
  simp only [turn, (w.endOf_eq_none_iff page).mpr hfull]

/-- After a page that is not full a call ends with the events of all pages, in order. -/
theorem turn_of_not_isFull {page : Page EventRecord} (hub : Hub) (c : Call) (t : Time)
    (hshort : ¬ IsFull w.size page) :
    (c.turn hub w t page).2.outcome? = some (t, .ok (.events
        ((w.rows ++ page.getD []).mergeSort fun a b => decide (a.id ≤ b.id)))) ∧
      (c.turn hub w t page).2.trace.requests = c.trace.requests := by
  cases hend : w.endOf page with
  | none => exact absurd ((w.endOf_eq_none_iff page).mp hend) hshort
  | some ending =>
      have hresult : (w.absorb page).result (.byNumber EventRecord.id) =
          .ok ⟨(w.rows ++ page.getD []).mergeSort fun a b => decide (a.id ≤ b.id),
            (w.absorb page).pagesUsed⟩ := by
        rw [Walk.result, Order.sort_byNumber]
        rfl
      simp only [turn, hend, conclude, hresult]
      exact ⟨rfl, rfl⟩

/-- A call for events ends with the events of the pages that its answers bring, in order. -/
theorem Asks.exists_end_of_brings {limit : Option Time} {answers : List Answer}
    {pages : List (Nat × Page EventRecord)} (hpages : Brings limit answers pages)
    (h : c.Asks hub t front upTo w) (hlimit : hub.gateway.limit = limit)
    (hanswers : c.script.toList = answers)
    (hpolicy : (∃ x ∈ pages, 0 < x.1) →
      0 < c.station.policy.period ∧ c.station.policy.reportEach ≠ 0) :
    ∃ n t', (run n (c.fetch hub t).1 (c.fetch hub t).2).2.outcome? =
        some (t', .ok (.events ((w.rows ++ gathered (pages.map (·.2))).mergeSort
          fun a b => decide (a.id ≤ b.id)))) ∧
      (run n (c.fetch hub t).1 (c.fetch hub t).2).2.trace.requests.map (·.url) =
        c.trace.requests.map (·.url) ++ urls front upTo w.cursor.fromId pages := by
  induction pages generalizing answers hub c t w with
  | nil => cases hpages
  | cons first pages ih =>
      obtain ⟨m, page⟩ := first
      obtain ⟨hretried, ⟨a, ha, hgives⟩, hnext⟩ := hpages.first
      have hitem : ∀ {i : Nat} {b : Answer}, answers[i]? = some b → c.script.item i = b :=
        fun hb => Supply.item_of_getElem? (hanswers ▸ hb)
      obtain ⟨n, hub', c', t', hrun, hundisturbed, hkept, hlimits, hquery,
        hstation, hscript, hurls⟩ :=
        h.exists_turn
          (fun i hi => by
            obtain ⟨b, hb, hbad⟩ := hretried i hi
            rwa [hitem hb, hlimit])
          (by rwa [hitem ha, hlimit]) (fun hm => hpolicy ⟨(m, page), by simp, hm⟩)
      have hsize : w.size = .events := h.size
      rcases hnext with ⟨hfull, hrest⟩ | ⟨hshort, rfl⟩
      · -- The answers that are left bring the other pages.
        have hleft : c'.script.toList = answers.drop (m + 1) := by
          have hlong : m + 1 < answers.length := by
            have hne := hrest.ne_nil
            simpa using hne
          rw [hscript, ← hanswers]
          exact Supply.toList_rest (hanswers ▸ hlong)
        have habsorb := Walk.absorb_of_isFull (hsize ▸ hfull)
        have hasks : Asks hub' t' front upTo (w.absorb page)
            { c'.jot t' (w.pageNotes page) with walk := some (w.absorb page) } :=
          { undisturbed := hundisturbed, limits := hlimits, query := hquery ▸ h.query, walk := rfl
            size := by rw [habsorb, hsize], addressable := hstation ▸ h.addressable }
        obtain ⟨n', t'', houtcome, hurls'⟩ := ih hrest hasks (hkept.trans hlimit) hleft
          (fun ⟨x, hx, hpos⟩ => hstation ▸ hpolicy ⟨x, List.mem_cons_of_mem _ hx, hpos⟩)
        refine ⟨n + n', t'', ?_, ?_⟩
        · rw [run_add, hrun, turn_of_isFull hub' c' t' (hsize ▸ hfull), houtcome, habsorb]
          simp [gathered, List.append_assoc]
        · rw [run_add, hrun, turn_of_isFull hub' c' t' (hsize ▸ hfull), hurls', habsorb]
          simp only [jot, Trace.addNotes, hurls, urls, List.append_assoc, hsize]
          rfl
      · obtain ⟨houtcome, hrequests⟩ := turn_of_not_isFull hub' c' t' (hsize ▸ hshort)
        refine ⟨n, t', ?_, ?_⟩
        · rw [hrun, houtcome]
          simp [gathered]
        · rw [hrun, hrequests, hurls]
          simp [urls]

end Call

namespace Client

open EventStream

variable {client : Client} {now : Time} {front : List Char} {fromId : Nat} {upTo : Int}
  {script : Script} {pages : List (Nat × Page EventRecord)}

/--
Whether a call for events from an identifier on ends with some events, after requests to some URLs.
-/
def Streams (client : Client) (now : Time) (fromId : Nat) (upTo : Int) (script : Script)
    (events : List EventRecord) (urls : List String) : Prop :=
  ∃ n t, ∀ budget, n ≤ budget →
    let call := (client.ask budget now ⟨.events fromId upTo, none, script⟩).2
    call.outcome? = some (t, .ok (.events events)) ∧ call.trace.requests.map (·.url) = urls

/-- A call for events ends with the events of the pages that its answers bring, in order. -/
theorem streams_of_brings (haddress : Addressable client.station.address front)
    (hhub : client.hub.Undisturbed now)
    (hpolicy : (∃ x ∈ pages, 0 < x.1) →
      0 < client.station.policy.period ∧ client.station.policy.reportEach ≠ 0)
    (hpages : Brings client.hub.gateway.limit script.toList pages) (fromId : Nat) (upTo : Int) :
    client.Streams now fromId upTo script
      ((Store.gathered (pages.map (·.2))).mergeSort fun a b => decide (a.id ≤ b.id))
      (urls front upTo fromId pages) := by
  let c : Call :=
    { station := client.station, query := .events fromId upTo, limits := .none
      walk := some (.start .events ⟨fromId, upTo⟩), stage := .ended now (.ok (.events [])), script
      trace := .empty }
  have hasks : c.Asks client.hub now front upTo (.start .events ⟨fromId, upTo⟩) :=
    { undisturbed := hhub, limits := rfl, query := ⟨fromId, rfl⟩, walk := rfl, size := rfl
      addressable := haddress }
  have hbegin : ∀ budget, (client.ask budget now ⟨.events fromId upTo, none, script⟩).2 =
      (Call.run budget (c.fetch client.hub now).1 (c.fetch client.hub now).2).2 := by
    intro budget
    have hcursor : Cursor.make? fromId upTo = .ok ⟨fromId, upTo⟩ :=
      (Cursor.make?_ok_iff _ _ _).mpr ⟨rfl, rfl⟩
    have hcall : Call.begin client.hub now client.station (.events fromId upTo) (.within now none)
        script = c.fetch client.hub now := by
      simp only [Call.begin, hcursor]
      rfl
    simp only [ask, begin, hcall]
  obtain ⟨n, t, houtcome, hurls⟩ := hasks.exists_end_of_brings hpages rfl rfl hpolicy
  refine ⟨n, t, fun budget hbudget => ?_⟩
  have hended := Call.run_of_le (by rw [houtcome]; rfl) hbudget
  rw [hbegin, hended]
  exact ⟨houtcome, hurls⟩

/--
A call for events of a client that tries again returns the events of the pages that its answers
bring, in a stable order by their identifiers, and asks for each page once more than it is tried
again.  Without some of the answers that are tried again, and with others at the end, it returns the
same.
-/
theorem failures_invisible (haddress : Addressable client.station.address front)
    (hhub : client.hub.Undisturbed now) (hperiod : 0 < client.station.policy.period)
    (hreport : client.station.policy.reportEach ≠ 0)
    (hpages : Brings client.hub.gateway.limit script.toList pages) (fromId : Nat) (upTo : Int) :
    ∃ events, StableSort EventRecord.id (Store.gathered (pages.map (·.2))) events ∧
      client.Streams now fromId upTo script events (urls front upTo fromId pages) ∧
      ∀ others : Script, Thinned client.hub.gateway.limit script.toList others.toList →
        ∃ pages', Brings client.hub.gateway.limit others.toList pages' ∧
          client.Streams now fromId upTo others events (urls front upTo fromId pages') := by
  refine ⟨_, StableSort.mergeSort EventRecord.id _,
    streams_of_brings haddress hhub (fun _ => ⟨hperiod, hreport⟩) hpages fromId upTo, ?_⟩
  intro others hthinned
  obtain ⟨pages', hpages', hsame⟩ :=
    hpages.thinned client.hub.gateway.limit_nonneg hthinned
  refine ⟨pages', hpages', ?_⟩
  rw [← hsame]
  exact streams_of_brings haddress hhub (fun _ => ⟨hperiod, hreport⟩) hpages' fromId upTo

/-- Nothing disturbs the calls of a client that was just made. -/
theorem undisturbed_make (address : String) (policy : Policy) (timeout now : Time) :
    (make address policy timeout).hub.Undisturbed now :=
  ⟨rfl, by simp [make, Connector.fresh, Sessions.none]⟩

/-- Answers of which two are tried again: a status other than success, and silence. -/
def flaky (last : Answer) : Script :=
  ⟨.reply (.lasting 1) 500 (.lasting 0) (.ok .empty), [.failure .endless .overdue, last]⟩

/-- The flaky answers bring the page of the last one. -/
theorem brings_flaky {last : Answer} {page : Page EventRecord} (h : last.GivesPage (some 2) page)
    (hshort : ¬ Store.IsFull .events page) : Brings (some 2) (flaky last).toList [(2, page)] := by
  have hpause : (Pause.lasting 1).EndsBy (some 2) 0 (0 + max 0 1) :=
    Pause.endsBy_of_le (by decide +kernel)
  have hbad : (Answer.reply (.lasting 1) 500 (.lasting 0) (.ok .empty)).IsRetried (some 2) :=
    Answer.isRetried_iff.mpr ⟨"", 0 + max 0 1, _, .badStatus hpause (by decide) (by decide), rfl⟩
  have hsilent : (Answer.failure .endless .overdue).IsRetried (some 2) :=
    Answer.isRetried_iff.mpr ⟨"", 2, _, .lateAnswer rfl (by rintro u ⟨-⟩), rfl⟩
  exact .retried hbad (.retried hsilent (.last h hshort))

/-- An event at the beginning of time. -/
def early (id : Int) : EventRecord :=
  ⟨id, "", "", "", 0, "", ⟨1970, 1, 1, 0, 0, 0, 0, some 0⟩⟩

/-- An answer with two early events, the later one first. -/
def swapped : Answer :=
  let events := "\x7b\"id\":5,\"record_time\":0\x7d,\x7b\"id\":4,\"record_time\":0\x7d"
  let body := "\x7b\"height\":\"7\",\"result\":[" ++ events ++ "]\x7d"
  .reply (.lasting 1) 200 (.lasting 0) (.ok body.toUTF8)

/-- The answer with two early events gives their page. -/
theorem givesPage_swapped : swapped.GivesPage (some 2) (some [early 5, early 4]) := by
  have hpause : (Pause.lasting 1).EndsBy (some 2) 0 (0 + max 0 1) :=
    Pause.endsBy_of_le (by decide +kernel)
  have hread : (Pause.lasting 0).EndsBy (some 2) (0 + max 0 1) (0 + max 0 1 + max 0 0) :=
    Pause.endsBy_of_le (by decide +kernel)
  exact ⟨"", _, some (.events ⟨"7", some [early 5, early 4]⟩),
    .payload hpause hread (by decide +kernel) (by decide +kernel), rfl⟩

/-- A client that tries again every five seconds. -/
def steady : Client :=
  make "http://h" ⟨5, 3⟩ 2

/-- The attempts of the steady client have two seconds. -/
theorem steady_limit : steady.hub.gateway.limit = some 2 := by decide +kernel

/-- URLs can be built on the address of the steady client. -/
theorem steady_addressable : Addressable steady.station.address "http://h".toList :=
  ⟨⟨.http, ['h'], by decide⟩, by decide +kernel, by decide +kernel⟩

/-- The steady client returns both early events in order, after three requests. -/
theorem steady_streams :
    Addressable steady.station.address "http://h".toList ∧ steady.hub.Undisturbed 0 ∧
      0 < steady.station.policy.period ∧ steady.station.policy.reportEach ≠ 0 ∧
      Brings steady.hub.gateway.limit (flaky swapped).toList [(2, some [early 5, early 4])] ∧
      ∃ events, StableSort EventRecord.id [early 5, early 4] events ∧
        steady.Streams 0 4 0 (flaky swapped) events
          (List.replicate 3 "http://h/clerk/event-record/list?from-id=4&to-time=0&limit=50") := by
  have hhub : steady.hub.Undisturbed 0 := undisturbed_make _ _ _ _
  have hperiod : 0 < steady.station.policy.period := by decide +kernel
  have hreport : steady.station.policy.reportEach ≠ 0 := by decide
  have hpages : Brings steady.hub.gateway.limit (flaky swapped).toList
      [(2, some [early 5, early 4])] := by
    rw [steady_limit]
    exact brings_flaky givesPage_swapped
      (by simp [Store.IsFull, PageSize.events, Settings.pageLimit])
  obtain ⟨events, hsorted, hstreams, -⟩ :=
    failures_invisible steady_addressable hhub hperiod hreport hpages 4 0
  refine ⟨steady_addressable, hhub, hperiod, hreport, hpages, events, ?_, ?_⟩
  · simpa [Store.gathered] using hsorted
  · have hurl : eventsUrl "http://h".toList 4 0 Settings.pageLimit =
        "http://h/clerk/event-record/list?from-id=4&to-time=0&limit=50" := by decide +kernel
    rw [← hurl]
    simpa [urls] using hstreams

/-- A call that ends with a fault returns no events. -/
theorem not_streams_of_fault {n : Nat} {t : Time} {fault : Fault}
    (h : (client.ask n now ⟨.events fromId upTo, none, script⟩).2.outcome? = some (t, .error fault))
    (events : List EventRecord) (urls : List String) :
    ¬ client.Streams now fromId upTo script events urls := by
  rintro ⟨m, t', hends⟩
  have hlong := (hends (max n m) (le_max_right n m)).1
  simp only [ask] at h hlong
  rw [Call.run_of_le (by rw [h]; rfl) (le_max_left n m), h] at hlong
  simp at hlong

/-- An answer that there is nothing. -/
def blank : Answer :=
  .reply (.lasting 0) 204 (.lasting 0) (.ok .empty)

/--
Whether a client with an address that is accepted returns no events, though its answers bring a
page.
-/
def Baffled (client : Client) : Prop :=
  (Url.Origin.ofText? client.station.address).toOption.isSome = true ∧
    client.hub.Undisturbed 0 ∧
    Brings client.hub.gateway.limit (flaky blank).toList [(2, none)] ∧
    ∀ events urls, ¬ client.Streams 0 0 0 (flaky blank) events urls

/-- A client is baffled if its call ends with a fault. -/
theorem baffled_of_fault {address : String} {policy : Policy} {n : Nat} {t : Time} {fault : Fault}
    (haccepted : (Url.Origin.ofText? address).toOption.isSome = true)
    (hend : ((make address policy 2).ask n 0 ⟨.events 0 0, none, flaky blank⟩).2.outcome? =
      some (t, .error fault)) : (make address policy 2).Baffled := by
  have hblank : blank.GivesPage (some 2) none := by
    have hpause : (Pause.lasting 0).EndsBy (some 2) 0 (0 + max 0 0) :=
      Pause.endsBy_of_le (by decide +kernel)
    exact (Answer.EndsStream.noContent hpause).givesPage
  have hlimit : (Connector.fresh 2).limit = some 2 := by decide +kernel
  have hgateway : (make address policy 2).hub.gateway = .fresh 2 := rfl
  refine ⟨haccepted, undisturbed_make _ _ _ _, ?_, not_streams_of_fault hend⟩
  rw [hgateway, hlimit]
  exact brings_flaky hblank (Store.not_isFull_none _)

/--
Failed attempts are not invisible if the client does not try again, for want of a positive period or
of steps to count failures in, and nothing is returned where the URLs of requests cannot be built.
-/
theorem flaky_refused :
    (make "http://h" ⟨0, 1⟩ 2).Baffled ∧ (make "http://h" ⟨1, 0⟩ 2).Baffled ∧
      (make "http://[v1.a:b]" ⟨1, 1⟩ 2).Baffled := by
  have hperiod : ((make "http://h" ⟨0, 1⟩ 2).ask 1 0
      ⟨.events 0 0, none, flaky blank⟩).2.outcome? =
        some (1, .error (.refused .retryPeriod)) := by decide +kernel
  have hreport : ((make "http://h" ⟨1, 0⟩ 2).ask 3 0
      ⟨.events 0 0, none, flaky blank⟩).2.outcome? = some (4, .error .zeroInterval) := by
    decide +kernel
  have hurl : ((make "http://[v1.a:b]" ⟨1, 1⟩ 2).ask 0 0
      ⟨.events 0 0, none, flaky blank⟩).2.outcome? =
        some (0, .error (.refused (.address .portText))) := by decide +kernel
  exact ⟨baffled_of_fault (by decide +kernel) hperiod, baffled_of_fault (by decide +kernel) hreport,
    baffled_of_fault (by decide +kernel) hurl⟩

end Client
end ChainPoll

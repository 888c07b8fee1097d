import ChainPoll.Proofs.Client.Aborting
import ChainPoll.Proofs.Client.Streaming
import ChainPoll.Proofs.Endpoint.ReadingBack
import ChainPoll.Proofs.Retry.Deadlines
import ChainPoll.Proofs.Retry.Outcomes

/-!
# Courses of calls

A call that nothing but its deadline disturbs takes a course that the answers of its script lay
down: which URLs it asks, each of them once for every failed attempt and once more, and how it ends.
A call for a single record asks for one resource, and a call for events for one page after another.

Main results:

- Theorem {lit}`Call.Seeks.exists_proceed`: what asking for one resource leads to.
- Theorem {lit}`Call.Walks.exists_walked`: what asking for pages leads to.
- Theorem {lit}`Client.told_ask`: a call that has ended has taken one of its courses.
-/

namespace ChainPoll

/-! ## Courses -/

/-- Whether an answer is a failed attempt that another one may mend. -/
def Errand.Fails (errand : Errand) (limit : Option Time) (answer : Answer) : Prop :=
  ∃ span outcome, errand.Yields limit answer span outcome ∧ Retry.Mendable outcome

/-- The errand to a resource by its URL. -/
def Resource.errand (resource : Resource) (url : String) (form : Form) : Errand :=
  { url := .ok url, path := resource.path, form }

/--
How a resource is asked for on the answers of a script: which URLs are asked in order, and what
comes of it.
-/
inductive Resource.Fetched (base : String) (limit : Option Time) (form : Form) (resource : Resource)
    (script : Script) : List String → Except Fault (Option Payload) → Prop where
  /-- There is no URL, so that nothing is asked. -/
  | refused {fault : Fault} (h : resource.address? base = .error fault) :
      Fetched base limit form resource script [] (.error fault)
  /-- After failed attempts, one is a success, or comes to a fault that another one cannot mend. -/
  | answered {url : String} {k : ℕ} {span : Time} {outcome : Except Fault (Option Payload)}
      (hurl : resource.address? base = .ok url)
      (hfails : ∀ i < k, (resource.errand url form).Fails limit (script.item i))
      (hlast : (resource.errand url form).Yields limit (script.item k) span outcome)
      (hmend : ¬ Retry.Mendable outcome) :
      Fetched base limit form resource script (List.replicate (k + 1) url) outcome
  /-- After failed attempts, the time of the call is over, during the next attempt or before it. -/
  | overdue {url : String} {k n : ℕ} (hurl : resource.address? base = .ok url)
      (hfails : ∀ i < k, (resource.errand url form).Fails limit (script.item i))
      (hcount : n = k + 1 ∨ n = k ∧ 0 < k) :
      Fetched base limit form resource script (List.replicate n url) (.error .overdue)

/-- How pages of events are asked for from an identifier on, after some events were gathered. -/
inductive EventStream.Walked (base : String) (limit : Option Time) (upTo : Int) :
    ℕ → List EventRecord → Script → List String → Except Fault (List EventRecord) → Prop where
  /-- After a full page comes the next one. -/
  | full {fromId : ℕ} {rows : List EventRecord} {script : Script} {urls urls' : List String}
      {payload : Option Payload} {result : Except Fault (List EventRecord)}
      (h : (Resource.events fromId upTo Settings.pageLimit).Fetched base limit .events
        script urls (.ok payload))
      (hfull : Store.IsFull .events (Payload.page payload))
      (hrest : Walked base limit upTo (fromId + Settings.pageLimit)
        (rows ++ (Payload.page payload).getD [])
        (script.rest urls.length) urls' result) :
      Walked base limit upTo fromId rows script (urls ++ urls') result
  /-- After a page that is not full there are all events, in order. -/
  | last {fromId : ℕ} {rows : List EventRecord} {script : Script} {urls : List String}
      {payload : Option Payload}
      (h : (Resource.events fromId upTo Settings.pageLimit).Fetched base limit .events
        script urls (.ok payload))
      (hshort : ¬ Store.IsFull .events (Payload.page payload)) :
      Walked base limit upTo fromId rows script urls
        (.ok ((rows ++ (Payload.page payload).getD []).mergeSort fun a b => decide (a.id ≤ b.id)))
  /-- A page that cannot be had leaves no events. -/
  | failed {fromId : ℕ} {rows : List EventRecord} {script : Script}
      {urls : List String} {fault : Fault}
      (h : (Resource.events fromId upTo Settings.pageLimit).Fetched base limit .events script
        urls (.error fault)) :
      Walked base limit upTo fromId rows script urls (.error fault)

/-- What a query for a single record reads off an envelope, or off an answer without content. -/
def Query.reading (query : Query) : Option Payload → Reading
  | some payload => .ofPayload payload
  | none => query.nothing

/-- The courses of a query: which URLs are asked in order, and what comes of it. -/
inductive Query.Course (base : String) (limit : Option Time) (script : Script) :
    Query → List String → Except Fault Reading → Prop where
  /-- A single record is one resource. -/
  | record {query : Query} {urls : List String} {outcome : Except Fault (Option Payload)}
      (hquery : ∀ fromId upTo, query ≠ .events fromId upTo)
      (h : (query.resource 0 0).Fetched base limit query.form script urls outcome) :
      Course base limit script query urls (outcome.map query.reading)
  /-- There are no events from a negative identifier on. -/
  | negative {fromId upTo : Int} (h : fromId < 0) :
      Course base limit script (.events fromId upTo) [] (.error (.refused .cursorStart))
  /-- Events are on pages. -/
  | pages {fromId : ℕ} {upTo : Int} {urls : List String} {result : Except Fault (List EventRecord)}
      (h : EventStream.Walked base limit upTo fromId [] script urls result) :
      Course base limit script (.events fromId upTo) urls (result.map .events)

/-! ## Faults of courses -/

/-- A resource without a URL is a fault that another attempt cannot mend. -/
theorem Resource.not_mendable_of_address? {resource : Resource} {base : String} {fault : Fault}
    (h : resource.address? base = .error fault) : ¬ Retry.Mendable (.error fault) := by
  unfold address? at h
  cases hendpoint : resource.endpoint? base with
  | error fault' =>
      rw [hendpoint] at h
      obtain rfl : fault' = fault := Except.error.inj h
      rw [endpoint?, Endpoint.make?] at hendpoint
      split at hendpoint
      · cases hendpoint
      · rw [← Except.error.inj hendpoint, Retry.mendable_error_iff]
        exact Bool.false_ne_true
  | ok endpoint =>
      rw [hendpoint] at h
      exact Endpoint.not_mendable_of_url? h

/--
A fault that asking for a resource comes to is that of a deadline, or one that another attempt
cannot mend.
-/
theorem Resource.Fetched.fault_cases {base : String} {limit : Option Time} {form : Form}
    {resource : Resource} {script : Script} {urls : List String} {fault : Fault}
    (h : resource.Fetched base limit form script urls (.error fault)) :
    fault = .overdue ∨ fault.retryable = false := by
  have hfatal : ∀ {f : Fault}, ¬ Retry.Mendable (.error f) → f.retryable = false := fun hmend => by
    rwa [Retry.mendable_error_iff, Bool.not_eq_true] at hmend
  cases h with
  | refused h => exact .inr (hfatal (not_mendable_of_address? h))
  | answered _ _ _ hmend => exact .inr (hfatal hmend)
  | overdue _ _ _ => exact .inl rfl

/-- A resource that was had was asked for. -/
theorem Resource.Fetched.urls_ne_nil {base : String} {limit : Option Time} {form : Form}
    {resource : Resource} {script : Script} {urls : List String} {payload : Option Payload}
    (h : resource.Fetched base limit form script urls (.ok payload)) : urls ≠ [] := by
  cases h with
  | answered _ _ _ _ => simp

/-- A fault that asking for pages comes to is of the same kinds. -/
theorem EventStream.Walked.fault_cases {base : String} {limit : Option Time}
    {upTo : Int} {fromId : ℕ} {rows : List EventRecord} {script : Script} {urls : List String}
    {result : Except Fault (List EventRecord)}
    (h : EventStream.Walked base limit upTo fromId rows script urls result) {fault : Fault}
    (hfault : result = .error fault) : fault = .overdue ∨ fault.retryable = false := by
  induction h with
  | full _ _ _ ih => exact ih hfault
  | last _ _ => cases hfault
  | failed h =>
      cases hfault
      exact h.fault_cases

/-- A fault that a query comes to is of the same kinds. -/
theorem Query.Course.fault_cases {base : String} {limit : Option Time}
    {script : Script} {query : Query} {urls : List String} {fault : Fault}
    (h : query.Course base limit script urls (.error fault)) :
    fault = .overdue ∨ fault.retryable = false := by
  generalize houtcome : (Except.error fault : Except Fault Reading) = outcome at h
  cases h with
  | @record _ _ outcome hquery h =>
      cases outcome with
      | ok payload => cases houtcome
      | error fault' =>
          cases houtcome
          exact h.fault_cases
  | negative _ =>
      cases houtcome
      exact .inr rfl
  | @pages _ _ _ result h =>
      cases result with
      | ok events => cases houtcome
      | error fault' =>
          cases houtcome
          exact h.fault_cases rfl

/-! ## Hubs that nothing disturbs -/

namespace Hub

variable {hub hub' : Hub} {now : Time}

/-- Whether the signal of a hub is not to be given, and its session stays open. -/
structure Quiet (hub : Hub) : Prop where
  signal : hub.signal.givenAt = none
  sessions : hub.gateway.sessions.closings = [] ∨ hub.gateway.sessions.closings = [none]

/-- Nothing disturbs calls over a quiet hub. -/
theorem Quiet.undisturbed (h : hub.Quiet) (now : Time) : hub.Undisturbed now := by
  refine ⟨h.signal, fun t ht => ?_⟩
  rcases h.sessions with hnone | hone
  · simp [hnone] at ht
  · simp [hone] at ht

/-- A move leaves a hub quiet, and the time that each attempt has as it is. -/
theorem Grown.quiet (h : Grown now hub hub') (hquiet : hub.Quiet) :
    hub'.Quiet ∧ hub'.gateway.limit = hub.gateway.limit := by
  refine ⟨⟨h.signal_eq ▸ hquiet.signal, ?_⟩, ?_⟩
  · exact h.single (fun _ => hquiet.sessions) (h.signal_eq ▸ hquiet.signal)
  · rcases h with rfl | ⟨url, answer, rfl⟩ <;> rfl

end Hub

/-- Moves leave a hub quiet, and the time that each attempt has as it is. -/
theorem Retry.Plan.quiet_after {p : Retry.Plan} (hquiet : p.hub.Quiet) (limits : Limits) (n : ℕ) :
    (p.after limits n).1.Quiet ∧ (p.after limits n).1.gateway.limit = p.hub.gateway.limit := by
  apply after_induction
    (motive := fun _ hub _ => hub.Quiet ∧ hub.gateway.limit = p.hub.gateway.limit)
  · rcases p.after_zero_cases limits with ⟨outcome, hzero, -⟩ | ⟨url, -, -, hzero, -⟩
    · rw [hzero]
      exact ⟨hquiet, rfl⟩
    · rw [hzero]
      have hgrown : Hub.Grown p.now p.hub (p.hub.sent p.now url p.script.next.1) :=
        .inr ⟨url, _, rfl⟩
      exact hgrown.quiet hquiet
  · intro n hub r hub' r' t cause hhub _ hmoved
    obtain ⟨hquiet', hlimit⟩ := hmoved.grown.quiet hhub.1
    exact ⟨hquiet', hlimit.trans hhub.2⟩
  · exact fun _ _ _ hhub _ => hhub

/-- A planned call that is under way at first and ends within some moves ends with one of them. -/
theorem Retry.Plan.exists_end {p : Retry.Plan} {limits : Limits}
    (hzero : (p.after limits 0).2.outcome? = none) {budget : ℕ}
    (hends : ∃ n ≤ budget, (p.after limits n).2.outcome?.isSome = true) :
    ∃ n t outcome, n < budget ∧ (∀ m ≤ n, (p.after limits m).2.outcome? = none) ∧
      (p.after limits (n + 1)).2.outcome? = some (t, outcome) := by
  obtain ⟨hle, hend⟩ := Nat.find_spec hends
  have hfirst := fun m => Nat.find_min hends (m := m)
  generalize Nat.find hends = n at hle hend hfirst
  cases n with
  | zero => simp [hzero] at hend
  | succ n =>
      obtain ⟨⟨t, outcome⟩, hend⟩ := Option.isSome_iff_exists.mp hend
      refine ⟨n, t, outcome, hle, fun m hm => ?_, hend⟩
      rw [← Option.not_isSome_iff_eq_none]
      exact fun hsome => hfirst m (by omega) ⟨by omega, hsome⟩

/-! ## What calls leave behind -/

/--
How an end falls with regard to a deadline: at it if it is late, and before it else, if it was to
come.
-/
structure Limits.Timed (limits : Limits) (now t : Time) (late : Prop) : Prop where
  le : now ≤ t
  before : ¬ late → ∀ d, limits.deadlineAt = some d → now < d → t < d
  overdue : late → ∃ d, limits.deadlineAt = some d ∧ d ≤ t ∧ (now < d → t = d)

/-- What ends at once is not late. -/
theorem Limits.Timed.refl {limits : Limits} {now : Time} {late : Prop} (h : ¬ late) :
    limits.Timed now now late :=
  ⟨le_rfl, fun _ _ _ hlt => hlt, fun hlate => absurd hlate h⟩

/-- What goes on from an end that is not late is timed as a whole. -/
theorem Limits.Timed.trans {limits : Limits} {now t t' : Time} {early late : Prop}
    (h : limits.Timed now t early) (hearly : ¬ early) (h' : limits.Timed t t' late) :
    limits.Timed now t' late where
  le := h.le.trans h'.le
  before hlate d hd hlt := h'.before hlate d hd (h.before hearly d hd hlt)
  overdue hlate := by
    obtain ⟨d, hd, hpassed, hat⟩ := h'.overdue hlate
    exact ⟨d, hd, hpassed, fun hlt => hat (h.before hearly d hd hlt)⟩

/-- What ends under a deadline that is to come ends at it if it is late, and before it else. -/
theorem Limits.Timed.le_deadline {span : Option Time} {now t : Time} {late : Prop}
    (h : (Limits.within now span).Timed now t late) {d : Time}
    (hspan : span = some d) (hpos : 0 < d) :
    t ≤ now + d ∧ (late ↔ t = now + d) := by
  have hdeadline : (Limits.within now span).deadlineAt = some (now + d) := by
    rw [Limits.within, hspan]
    rfl
  have hcome : now < now + d := lt_add_of_pos_right now hpos
  by_cases hlate : late
  · obtain ⟨d', hd', -, hat⟩ := h.overdue hlate
    obtain rfl : now + d = d' := Option.some.inj (hdeadline.symm.trans hd')
    exact ⟨(hat hcome).le, iff_of_true hlate (hat hcome)⟩
  · have hbefore := h.before hlate (now + d) hdeadline hcome
    exact ⟨hbefore.le, iff_of_false hlate hbefore.ne⟩

/-- What is late has had a deadline. -/
theorem Limits.Timed.exists_span {span : Option Time} {now t : Time} {late : Prop}
    (h : (Limits.within now span).Timed now t late) (hlate : late) :
    ∃ d, span = some d ∧ now + d ≤ t := by
  obtain ⟨d', hd', hpassed, -⟩ := h.overdue hlate
  obtain ⟨d, hspan, rfl⟩ := Option.map_eq_some_iff.mp hd'
  exact ⟨d, hspan, hpassed⟩

namespace Call

variable {hub : Hub} {c : Call} {now t : Time}

/-- What a call has become after some requests: its script is used up so far. -/
structure Went (hub : Hub) (c : Call) (requests : List Request) (hub' : Hub)
    (c' : Call) : Prop where
  quiet : hub'.Quiet
  limit : hub'.gateway.limit = hub.gateway.limit
  station : c'.station = c.station
  query : c'.query = c.query
  limits : c'.limits = c.limits
  script : c'.script = c.script.rest requests.length
  made : c'.trace.requests = c.trace.requests ++ requests

/-- Requests that follow others are made after these. -/
theorem Went.trans {hub' hub'' : Hub} {c' c'' : Call} {requests requests' : List Request}
    (h : Went hub c requests hub' c') (h' : Went hub' c' requests' hub'' c'') :
    Went hub c (requests ++ requests') hub'' c'' where
  quiet := h'.quiet
  limit := h'.limit.trans h.limit
  station := h'.station.trans h.station
  query := h'.query.trans h.query
  limits := h'.limits.trans h.limits
  script := by rw [h'.script, h.script, List.length_append, Supply.rest_rest]
  made := by rw [h'.made, h.made, List.append_assoc]

/-- What changes without any request changes nothing about the requests before. -/
theorem Went.trans_nil {hub' hub'' : Hub} {c' c'' : Call} {requests : List Request}
    (h : Went hub c requests hub' c') (h' : Went hub' c' [] hub'' c'') :
    Went hub c requests hub'' c'' := by
  simpa only [List.append_nil] using h.trans h'

/-- A call that changes only what it notes and where it stands has asked for nothing. -/
theorem went_nil (hquiet : hub.Quiet) (c : Call) (walk : Option (Walk EventRecord)) (stage : Stage)
    (entries : List Entry) :
    Went hub c [] hub { c with walk, stage, trace := ⟨c.trace.requests, entries⟩ } :=
  ⟨hquiet, rfl, rfl, rfl, rfl, rfl, (List.append_nil _).symm⟩

/-- A call that fails has asked for nothing. -/
theorem went_fail (hquiet : hub.Quiet) (c : Call) (t : Time) (fault : Fault) :
    Went hub c [] hub (c.fail t fault) := by
  unfold fail
  split <;> exact went_nil hquiet c c.walk _ _

/-- A walk that ends with a page has asked for nothing since. -/
theorem went_turn (hquiet : hub.Quiet) (c : Call) {w : Walk EventRecord} {page : Page EventRecord}
    (hshort : ¬ Store.IsFull w.size page) (t : Time) :
    (c.turn hub w t page).1 = hub ∧ Went hub c [] hub (c.turn hub w t page).2 := by
  cases hend : w.endOf page with
  | none => exact absurd ((w.endOf_eq_none_iff page).mp hend) hshort
  | some ending =>
      simp only [turn, hend, conclude, true_and]
      split <;> exact went_nil hquiet c _ _ _

/--
What a call has become after some requests, which it made from an instant to another one, late or
not.
-/
structure Passed (hub : Hub) (c : Call) (now : Time) (requests : List Request)
    (t : Time) (late : Prop) (hub' : Hub) (c' : Call) :
    Prop extends Went hub c requests hub' c' where
  spanning : Request.Spanning now t requests
  timed : c.limits.Timed now t late

/-- A call that goes on without any delay has made its requests by then. -/
theorem Passed.trans_nil {hub' hub'' : Hub} {c' c'' : Call}
    {requests : List Request} {late late' : Prop} (h : Passed hub c now requests t late hub' c')
    (h' : Went hub' c' [] hub'' c'') (hlate : late ↔ late') :
    Passed hub c now requests t late' hub'' c'' :=
  ⟨h.toWent.trans_nil h', h.spanning, propext hlate ▸ h.timed⟩

/-- Requests that follow others in time are made after these. -/
theorem Passed.trans {hub' hub'' : Hub} {c' c'' : Call} {requests requests' : List Request}
    {early late : Prop} {t' : Time} (h : Passed hub c now requests t early hub' c')
    (hearly : ¬ early) (hne : requests ≠ []) (h' : Passed hub' c' t requests' t' late hub'' c'') :
    Passed hub c now (requests ++ requests') t' late hub'' c'' :=
  ⟨h.toWent.trans h'.toWent, h.spanning.append h'.spanning hne h'.timed.le,
    h.timed.trans hearly (h.limits ▸ h'.timed)⟩

/-- Goes on with what asking for a resource came to. -/
def proceed (hub : Hub) (c : Call) (t : Time) : Except Fault (Option Payload) → Hub × Call
  | .error fault => (hub, c.fail t fault)
  | .ok payload =>
    match c.walk with
    | some w => c.turn hub w t (Payload.page payload)
    | none => (hub, c.finish t (.ok (c.query.reading payload)))

/-- A call goes on with what its inner call came to. -/
theorem settle_eq_proceed (hub : Hub) (c : Call) (inner : Retry) (t : Time)
    (outcome : Except Fault (Option Payload)) :
    c.settle hub inner t outcome = (c.leave inner).proceed hub t outcome := by
  unfold settle proceed
  have hwalk : (c.leave inner).walk = c.walk := rfl
  cases outcome with
  | error fault => rfl
  | ok payload =>
      cases h : c.walk with
      | some w => simp only [hwalk, h]
      | none => cases payload <;> simp only [hwalk, h] <;> rfl

/-! ## Asking for a resource -/

/-- A call that nothing but its deadline disturbs, and that can be tried again. -/
structure Steady (c : Call) (hub : Hub) : Prop where
  quiet : hub.Quiet
  period : 0 < c.station.policy.period
  report : c.station.policy.reportEach ≠ 0
  cancel : c.limits.cancelAt = none

/-- After requests nothing but its deadline disturbs a call either. -/
theorem Steady.went (h : c.Steady hub) {requests : List Request} {hub' : Hub} {c' : Call}
    (hwent : Went hub c requests hub' c') : c'.Steady hub' where
  quiet := hwent.quiet
  period := hwent.station ▸ h.period
  report := hwent.station ▸ h.report
  cancel := hwent.limits ▸ h.cancel

/-- A call that nothing but its deadline disturbs, about to ask for a resource. -/
structure Seeks (hub : Hub) (c : Call) (resource : Resource) : Prop extends c.Steady hub where
  endpoint : c.endpoint? = resource.endpoint? c.station.address

variable {resource : Resource} {url : String}

/-- The planned call that asks for a resource by its URL. -/
def planFor (hub : Hub) (now : Time) (c : Call) (resource : Resource) (url : String) : Retry.Plan :=
  ⟨hub, now, resource.errand url c.query.form, c.station.policy, c.script⟩

/-- A call that asks for a resource without a URL fails at once. -/
theorem Seeks.fetch_of_refused (h : c.Seeks hub resource) (now : Time) {fault : Fault}
    (hurl : resource.address? c.station.address = .error fault) :
    ∃ c', Went hub c [] hub c' ∧ c'.walk = c.walk ∧
      c.fetch hub now = c'.proceed hub now (.error fault) := by
  have hsame : c.endpoint? >>= Endpoint.url? = .error fault := by rw [h.endpoint, ← hurl]; rfl
  cases hendpoint : c.endpoint? with
  | error fault' =>
      rw [hendpoint] at hsame
      obtain rfl : fault' = fault := Except.error.inj hsame
      refine ⟨c, went_nil h.quiet c c.walk c.stage c.trace.entries, rfl, ?_⟩
      simp only [fetch, hendpoint, proceed]
  | ok endpoint =>
      rw [hendpoint] at hsame
      have hurl' : endpoint.url? = .error fault := hsame
      obtain ⟨-, -, hquery⟩ := Endpoint.make?_fields (h.endpoint.symm.trans hendpoint)
      obtain ⟨notes, hnotes⟩ := c.exists_requestNotes hquery
      refine ⟨c.jot now notes, went_nil h.quiet c c.walk c.stage _, rfl, ?_⟩
      have hgiven := (h.quiet.undisturbed now).given_eq_false (t := now)
      simp only [fetch, hendpoint, hnotes, Retry.begin, hgiven, Bool.false_eq_true, if_false,
        Retry.depart, Errand.ofEndpoint, hurl', Retry.finish, Retry.outcome?, proceed]
      rfl

/-- A call that asks for a resource by its URL makes the planned call for it. -/
theorem Seeks.fetch_of_url (h : c.Seeks hub resource) (now : Time)
    (hurl : resource.address? c.station.address = .ok url) :
    ((planFor hub now c resource url).after c.limits 0).2.outcome? = none ∧
      ∃ notes, c.fetch hub now = (((planFor hub now c resource url).after c.limits 0).1,
        { c.jot now notes with
          stage := .fetching (((planFor hub now c resource url).after c.limits 0).2.following
            (c.jot now notes).trace) }) := by
  have hsame : c.endpoint? >>= Endpoint.url? = .ok url := by rw [h.endpoint, ← hurl]; rfl
  cases hendpoint : c.endpoint? with
  | error fault =>
      rw [hendpoint] at hsame
      cases hsame
  | ok endpoint =>
      rw [hendpoint] at hsame
      have hurl' : endpoint.url? = .ok url := hsame
      obtain ⟨-, hpath, hquery⟩ := Endpoint.make?_fields (h.endpoint.symm.trans hendpoint)
      obtain ⟨notes, hnotes⟩ := c.exists_requestNotes hquery
      have hplan : planFor hub now c resource url =
          ⟨hub, now, .ofEndpoint endpoint c.query.form, c.station.policy, c.script⟩ := by
        simp only [planFor, Resource.errand, Errand.ofEndpoint, hurl', hpath]
      have hundisturbed : (planFor hub now c resource url).hub.Undisturbed now :=
        h.quiet.undisturbed now
      obtain ⟨flight, hflying⟩ := Retry.Plan.flying_after_zero hundisturbed rfl
      have hrunning : ((planFor hub now c resource url).after c.limits 0).2.outcome? = none := by
        rw [Retry.Plan.after_zero_under]
        simp [Retry.under, Retry.outcome?, hflying.phase]
      exact ⟨hrunning, notes, fetch_of_plan hendpoint hnotes hplan hrunning⟩

/-- What asking for a resource has come to, and what becomes of the call. -/
structure Came (hub : Hub) (now : Time) (c : Call) (resource : Resource) (requests : List Request)
    (result : Except Fault (Option Payload)) (t : Time) (hub' : Hub) (c' : Call) : Prop
    extends Passed hub c now requests t (result = .error .overdue) hub' c' where
  fetched : resource.Fetched c.station.address hub.gateway.limit c.query.form c.script
    (requests.map (·.url)) result
  walk : c'.walk = c.walk

/-- A fault that another attempt cannot mend is not that of a deadline. -/
theorem ne_overdue_of_not_mendable {result : Except Fault (Option Payload)}
    (h : ¬ Retry.Mendable result) :
    result ≠ .error .overdue := by
  rintro rfl
  exact h (Retry.mendable_error_iff.mpr rfl)

/-- What asking for a resource by its URL has come to when the planned call has ended. -/
theorem Seeks.came_of_end (h : c.Seeks hub resource)
    (hurl : resource.address? c.station.address = .ok url) {n : ℕ}
    {result : Except Fault (Option Payload)}
    (hend : ((planFor hub now c resource url).after c.limits n).2.outcome? = some (t, result))
    (notes : List Note) (stage : Stage) :
    Came hub now c resource
      ((planFor hub now c resource url).after c.limits n).2.trace.requests result t
      ((planFor hub now c resource url).after c.limits n).1
      ({ c.jot now notes with stage }.leave
        (((planFor hub now c resource url).after c.limits n).2.following
        (c.jot now notes).trace)) := by
  obtain ⟨k, hfails, hspent, hlate, hurls, hscript⟩ := Retry.Plan.leaves_of_ended
    (p := planFor hub now c resource url) (h.quiet.undisturbed now) rfl h.period
      h.report h.cancel hend
  obtain ⟨hquiet, hlimit⟩ :=
    Retry.Plan.quiet_after (p := planFor hub now c resource url) h.quiet c.limits n
  have hspanning := Retry.Plan.spanning_of_ended hend
  refine ⟨⟨⟨hquiet, hlimit, rfl, rfl, rfl, hscript, rfl⟩, hspanning, ?_⟩, ?_, rfl⟩
  · cases hspent with
    | last _ hmend _ hbefore =>
        exact ⟨hlate, fun _ => hbefore, fun hoverdue =>
          absurd hoverdue (ne_overdue_of_not_mendable hmend)⟩
    | @overdue d hdeadline hpassed hat _ =>
        exact ⟨hlate, fun hnot => absurd rfl hnot, fun _ => ⟨d, hdeadline, hpassed, hat⟩⟩
  · have hreplicate :
        ((planFor hub now c resource url).after c.limits n).2.trace.requests.map (·.url) =
          List.replicate
            ((planFor hub now c resource url).after c.limits n).2.trace.requests.length url := by
      refine List.eq_replicate_iff.mpr ⟨List.length_map .., fun u hu => ?_⟩
      obtain ⟨q, hq, rfl⟩ := List.mem_map.mp hu
      exact hurls q hq
    rw [hreplicate]
    cases hspent with
    | last hattempt hmend hcount _ =>
        rw [hcount]
        exact .answered hurl hfails hattempt hmend
    | overdue _ _ _ hcount => exact .overdue hurl hfails hcount

/-- A call that has ended went on with what asking for its resource came to. -/
theorem Seeks.exists_proceed (h : c.Seeks hub resource) {budget : ℕ}
    (hended : (run budget (c.fetch hub now).1 (c.fetch hub now).2).2.outcome?.isSome = true) :
    ∃ requests result t hub' c' n, Came hub now c resource requests result t hub' c' ∧
      (∀ payload, result = .ok payload → n < budget) ∧
      run budget (c.fetch hub now).1 (c.fetch hub now).2 =
        run n (c'.proceed hub' t result).1 (c'.proceed hub' t result).2 := by
  cases hurl : resource.address? c.station.address with
  | error fault =>
      obtain ⟨c', hwent, hwalk, hfetch⟩ := h.fetch_of_refused now hurl
      have hlate := ne_overdue_of_not_mendable (Resource.not_mendable_of_address? hurl)
      have hcame : Came hub now c resource [] (.error fault) now hub c' :=
        ⟨⟨hwent, .nil _ _, .refl hlate⟩, .refused hurl, hwalk⟩
      exact ⟨[], .error fault, now, hub, c', budget, hcame, by simp, by rw [hfetch]⟩
  | ok url =>
      obtain ⟨hzero, notes, hfetch⟩ := h.fetch_of_url now hurl
      generalize hp : planFor hub now c resource url = p at hzero hfetch
      have hends : ∃ n ≤ budget, (p.after c.limits n).2.outcome?.isSome = true := by
        by_contra hnone
        have hrunning : ∀ m ≤ budget, (p.after c.limits m).2.outcome? = none := fun m hm => by
          rw [← Option.not_isSome_iff_eq_none]
          exact fun hsome => hnone ⟨m, hm, hsome⟩
        rw [hfetch, outcome?_run_of_running (c.jot now notes) hrunning] at hended
        cases hended
      obtain ⟨n, t, result, hlt, hrunning, hend⟩ := Retry.Plan.exists_end hzero hends
      obtain ⟨rest, rfl⟩ := Nat.exists_eq_add_of_lt hlt
      have hcame := h.came_of_end hurl (hp ▸ hend) notes
        (.fetching ((p.after c.limits n).2.following (c.jot now notes).trace))
      rw [hp] at hcame
      refine ⟨_, result, t, _, _, rest, hcame, fun _ _ => by omega, ?_⟩
      rw [Nat.add_right_comm, run_add, hfetch, run_of_end (c.jot now notes) hrunning
        hend, settle_eq_proceed]

/-! ## Asking for pages -/

/--
A call for events that nothing but its deadline disturbs, about to ask for a page of its walk.
-/
structure Walks (hub : Hub) (c : Call) (upTo : Int) (w : Walk EventRecord) :
    Prop extends c.Steady hub where
  query : ∃ fromId, c.query = .events fromId upTo
  walk : c.walk = some w
  size : w.size = .events

/-- A walk asks for the page that its cursor stands at. -/
theorem Walks.seeks {upTo : Int} {w : Walk EventRecord} (h : c.Walks hub upTo w) :
    c.Seeks hub (.events w.cursor.fromId upTo Settings.pageLimit) := by
  obtain ⟨fromId, hquery⟩ := h.query
  refine ⟨h.toSteady, ?_⟩
  simp only [endpoint?, h.walk, hquery, Query.resource, h.size, PageSize.events]

/-- A call for events that has ended has asked for its pages, from where its walk was on. -/
theorem Walks.exists_walked {upTo : Int} {w : Walk EventRecord} {budget : ℕ}
    {outcome : Except Fault Reading} (h : c.Walks hub upTo w)
    (hended : (run budget (c.fetch hub now).1 (c.fetch hub now).2).2.outcome? = some (t, outcome)) :
    ∃ requests result, outcome = result.map .events ∧
      EventStream.Walked c.station.address hub.gateway.limit upTo w.cursor.fromId w.rows c.script
        (requests.map (·.url)) result ∧
      Passed hub c now requests t (outcome = .error .overdue)
        (run budget (c.fetch hub now).1 (c.fetch hub now).2).1
        (run budget (c.fetch hub now).1 (c.fetch hub now).2).2 := by
  -- Every page takes a move at least.
  induction budget using Nat.strong_induction_on generalizing hub c now w with
  | h budget ih =>
      have hform : c.query.form = .events := by
        obtain ⟨fromId, hquery⟩ := h.query
        rw [hquery]
        rfl
      obtain ⟨requests, result, t', hub', c', n, hcame, hfewer, hrun⟩ :=
        h.seeks.exists_proceed (by rw [hended]; rfl)
      have hfetched := hcame.fetched
      rw [hform] at hfetched
      rw [hrun] at hended ⊢
      cases result with
      | error fault =>
          have hfail := (c'.fail_spec t' fault).1
          have hstays : run n (c'.proceed hub' t' (.error fault)).1
            (c'.proceed hub' t' (.error fault)).2 =
              (hub', c'.fail t' fault) := run_of_ended (by simp [proceed, hfail]) n hub'
          rw [hstays] at hended ⊢
          obtain ⟨rfl, rfl⟩ : t' = t ∧ .error fault = outcome := by simpa [hfail] using hended
          exact ⟨requests, .error fault, rfl, .failed hfetched,
            hcame.toPassed.trans_nil (went_fail hcame.quiet c' t' fault) (by simp)⟩
      | ok payload =>
          have hproceed : c'.proceed hub' t' (.ok payload) =
              c'.turn hub' w t' (Payload.page payload) := by
            simp only [proceed, hcame.walk, h.walk]
          rw [hproceed] at hended ⊢
          by_cases hfull : Store.IsFull w.size (Payload.page payload)
          · have hnext := went_nil hcame.quiet c' (some (w.absorb (Payload.page payload))) c'.stage
              (c'.jot t' (w.pageNotes (Payload.page payload))).trace.entries
            have hmoved := hcame.toPassed.trans_nil hnext Iff.rfl
            have hsame : ∃ fromId, c'.query = .events fromId upTo := hcame.query ▸ h.query
            rw [turn_of_isFull hub' c' t' hfull] at hended ⊢
            obtain ⟨requests', result, houtcome, hwalked, hpassed⟩ :=
              ih n (hfewer payload rfl) ⟨h.toSteady.went hmoved.toWent, hsame, rfl, h.size⟩ hended
            refine ⟨requests ++ requests', result, houtcome, ?_, hmoved.trans (by simp) ?_ hpassed⟩
            · rw [List.map_append]
              refine .full hfetched (h.size ▸ hfull) ?_
              rw [hmoved.station, hmoved.limit, hmoved.script,
                Walk.absorb_of_isFull hfull, h.size] at hwalked
              rw [List.length_map]
              exact hwalked
            · rintro rfl
              exact hfetched.urls_ne_nil rfl
          · obtain ⟨hhub, hwent⟩ := went_turn hcame.quiet c' hfull t'
            obtain ⟨hend, -⟩ := turn_of_not_isFull hub' c' t' hfull
            rw [run_of_ended (by rw [hend]; rfl)] at hended ⊢
            obtain ⟨rfl, rfl⟩ : t' = t ∧ .ok _ = outcome := by simpa [hend] using hended
            exact ⟨requests, _, rfl, .last hfetched (h.size ▸ hfull),
              hhub.symm ▸ hcame.toPassed.trans_nil hwent (by simp)⟩

/-! ## Asking for a single record -/

/-- A call for a single record ends with what asking for its resource came to. -/
theorem proceed_of_record (hub : Hub) (hwalk : c.walk = none) (t : Time)
    (result : Except Fault (Option Payload)) :
    c.proceed hub t result = (hub, c.finish t (result.map c.query.reading)) := by
  cases result with
  | error fault => simp only [proceed, fail, hwalk, Except.map]
  | ok payload => simp only [proceed, hwalk, Except.map]

/-- A call for a single record that has ended has asked for its resource. -/
theorem Seeks.exists_fetched (h : c.Seeks hub resource) (hwalk : c.walk = none) {budget : ℕ}
    {outcome : Except Fault Reading}
    (hended : (run budget (c.fetch hub now).1 (c.fetch hub now).2).2.outcome? = some (t, outcome)) :
    ∃ requests result, outcome = result.map c.query.reading ∧
      resource.Fetched c.station.address hub.gateway.limit c.query.form c.script
        (requests.map (·.url)) result ∧
      Passed hub c now requests t (outcome = .error .overdue)
        (run budget (c.fetch hub now).1 (c.fetch hub now).2).1
        (run budget (c.fetch hub now).1 (c.fetch hub now).2).2 := by
  obtain ⟨requests, result, t', hub', c', n, hcame, -, hrun⟩ :=
    h.exists_proceed (by rw [hended]; rfl)
  rw [hrun, proceed_of_record hub' (hcame.walk.trans hwalk), run_of_ended rfl] at hended ⊢
  obtain ⟨rfl, rfl⟩ : t' = t ∧ result.map c'.query.reading = outcome := by
    simpa [finish, outcome?] using hended
  refine ⟨requests, result, by rw [hcame.query], hcame.fetched, hcame.toPassed.trans_nil ?_ ?_⟩
  · exact went_nil hcame.quiet c' c'.walk _ c'.trace.entries
  · cases result <;> simp [Except.map]

end Call

/-! ## Asking a client -/

namespace Client

variable {client : Client} {now t : Time} {order : Assignment} {outcome : Except Fault Reading}

/-- What a call has come to, and what it has left behind for the next one. -/
structure Told (client : Client) (now : Time) (order : Assignment) (t : Time)
    (outcome : Except Fault Reading) (client' : Client) (call : Call) : Prop where
  course : order.query.Course client.station.address client.hub.gateway.limit order.script
    (call.trace.requests.map (·.url)) outcome
  spanning : Request.Spanning now t call.trace.requests
  timed : (Limits.within now order.span).Timed now t (outcome = .error .overdue)
  script : call.script = order.script.rest call.trace.requests.length
  quiet : client'.hub.Quiet
  limit : client'.hub.gateway.limit = client.hub.gateway.limit
  station : client'.station = client.station

/-- A call that a client has made and that has ended has taken one of its courses. -/
theorem told_ask (hquiet : client.hub.Quiet) (hperiod : 0 < client.station.policy.period)
    (hreport : client.station.policy.reportEach ≠ 0) {budget : ℕ}
    (hended : (client.ask budget now order).2.outcome? = some (t, outcome)) :
    client.Told now order t outcome (client.ask budget now order).1
      (client.ask budget now order).2 := by
  obtain ⟨query, span, script⟩ := order
  let c : Call :=
    { station := client.station, query, limits := .within now span, walk := none
      stage := .ended now (.ok query.nothing), script, trace := .empty }
  have hsteady : c.Steady client.hub := ⟨hquiet, hperiod, hreport, rfl⟩
  have htold : ∀ {hub' : Hub} {call : Call} {requests : List Request},
      Call.Passed client.hub c now requests t (outcome = .error .overdue) hub' call →
      query.Course client.station.address client.hub.gateway.limit script
        (requests.map (·.url)) outcome →
      client.Told now ⟨query, span, script⟩ t outcome { client with hub := hub' } call := by
    intro hub' call requests hpassed hcourse
    obtain rfl : call.trace.requests = requests := hpassed.made
    exact ⟨hcourse, hpassed.spanning, hpassed.timed, hpassed.script,
      hpassed.quiet, hpassed.limit, rfl⟩
  by_cases hevents : ∃ fromId upTo, query = .events fromId upTo
  · obtain ⟨fromId, upTo, rfl⟩ := hevents
    cases hcursor : Cursor.make? fromId upTo with
    | error fault =>
        have hbegin : Call.begin client.hub now client.station (.events fromId upTo)
            (.within now span) script =
              (client.hub, c.finish now (.error fault)) := by
          simp only [Call.begin, hcursor]
          rfl
        obtain ⟨hnegative, rfl⟩ : fromId < 0 ∧ fault = .refused .cursorStart := by
          rw [Cursor.make?] at hcursor
          split at hcursor <;> cases hcursor
          exact ⟨‹_›, rfl⟩
        simp only [ask, begin, hbegin, Call.run_of_ended (c := c.finish now _) rfl] at hended ⊢
        obtain ⟨rfl, rfl⟩ : now = t ∧ .error _ = outcome := by
          simpa [Call.finish, Call.outcome?] using hended
        exact htold ⟨Call.went_nil hquiet c c.walk _ c.trace.entries, .nil _ _,
          .refl (by simp [Fault.overdue])⟩
          (.negative hnegative)
    | ok cursor =>
        obtain ⟨rfl, rfl⟩ := (Cursor.make?_ok_iff fromId upTo cursor).mp hcursor
        have hbegin : Call.begin client.hub now client.station (.events cursor.fromId cursor.upTo)
            (.within now span) script =
              Call.fetch client.hub { c with walk := some (.start .events cursor) } now := by
          simp only [Call.begin, hcursor]
          rfl
        have hmoved : Call.Went client.hub c [] client.hub
          { c with walk := some (.start .events cursor) } :=
          Call.went_nil hquiet c _ _ _
        have hwalks : Call.Walks client.hub { c with walk := some (.start .events cursor) }
            cursor.upTo (.start .events cursor) := ⟨hsteady.went hmoved, ⟨_, rfl⟩, rfl, rfl⟩
        simp only [ask, begin, hbegin] at hended ⊢
        obtain ⟨requests, result, rfl, hwalked, hpassed⟩ := hwalks.exists_walked hended
        exact htold ⟨hmoved.trans hpassed.toWent, hpassed.spanning, hpassed.timed⟩ (.pages hwalked)
  · have hquery : ∀ fromId upTo, query ≠ .events fromId upTo :=
      fun fromId upTo heq => hevents ⟨fromId, upTo, heq⟩
    have hbegin : Call.begin client.hub now client.station query (.within now span) script =
        c.fetch client.hub now := by
      cases query <;> first | rfl | exact absurd rfl (hquery _ _)
    have hseeks : c.Seeks client.hub (query.resource 0 0) := ⟨hsteady, rfl⟩
    simp only [ask, begin, hbegin] at hended ⊢
    obtain ⟨requests, result, rfl, hfetched, hpassed⟩ := hseeks.exists_fetched rfl hended
    exact htold hpassed (.record hquery hfetched)

end Client
end ChainPoll

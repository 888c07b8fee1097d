import Mathlib.Data.List.Induction
import ChainPoll.Proofs.Client.Sealing
import ChainPoll.Proofs.Endpoint.Events

/-!
# What a closing ends

A closing ends all calls under way at its instant, if none of them is due just then: by the signal,
or by a period that is refused.  Every call made later ends at once.

Main results:

- Theorem {lit}`Call.outcome?_of_closing`: what a call ends with that the closing of its client
  wakes.
- Theorem {lit}`Call.outcome?_begin_of_given`: what a call ends with that begins after the closing.
- Theorem {lit}`Client.close_aborts`: what a closing ends, in any order, and what holds ever after.
-/

namespace ChainPoll

/-! ## Requests that can be built -/

/-- A query of whole numbers can be shown. -/
theorem Endpoint.shownQuery?_of_ints {e : Endpoint}
    (h : ∀ pair ∈ e.query, ∃ n, pair.2 = .int n) : ∃ text, e.shownQuery? = .ok text := by
  have hmap : ∀ pairs : List (String × QueryValue), (∀ pair ∈ pairs, ∃ n, pair.2 = .int n) →
      ∃ texts, pairs.mapM pairText? = .ok texts := by
    intro pairs
    induction pairs with
    | nil => exact fun _ => ⟨[], rfl⟩
    | cons pair pairs ih =>
        intro hpairs
        obtain ⟨n, hn⟩ := hpairs pair (by simp)
        obtain ⟨texts, htexts⟩ := ih fun p hp => hpairs p (by simp [hp])
        obtain ⟨text, hpair⟩ : ∃ text, pairText? pair = .ok text := by
          refine ⟨Url.formEscape pair.1.toList ++ '=' :: Url.formEscape (Text.decimal n), ?_⟩
          rw [pairText?, hn]
          rfl
        refine ⟨text :: texts, ?_⟩
        rw [List.mapM_cons, hpair, htexts]
        rfl
  obtain ⟨texts, htexts⟩ := hmap e.query h
  refine ⟨Url.shownQuery (Url.joinAll '&' texts), ?_⟩
  rw [shownQuery?, rawQuery?, htexts]
  rfl

/--
Whether a query can be asked: events are asked for from an identifier that is not negative on.
-/
def Query.Askable : Query → Prop
  | .events fromId _ => 0 ≤ fromId
  | _ => True

namespace Call

variable {hub : Hub} {c : Call} {now t : Time} {station : Station}

/-- A call for a service whose address has an origin has an endpoint for its next request. -/
theorem exists_endpoint {origin : Url.Origin}
    (h : Url.Origin.ofText? c.station.address = .ok origin) :
    ∃ e, c.endpoint? = .ok e ∧ ∃ resource : Resource, e.query = resource.query := by
  unfold endpoint?
  split
  · next w _ =>
    obtain ⟨e, he, -, hquery, -⟩ := Endpoint.exists_make? h
      (c.query.resource w.cursor.fromId w.size.rows).path
      (c.query.resource w.cursor.fromId w.size.rows).query
    exact ⟨e, he, _, hquery⟩
  · obtain ⟨e, he, -, hquery, -⟩ := Endpoint.exists_make? h (c.query.resource 0 0).path
      (c.query.resource 0 0).query
    exact ⟨e, he, _, hquery⟩

/-- What is noted before a request for a resource. -/
theorem exists_requestNotes (c : Call) {e : Endpoint} {resource : Resource}
    (h : e.query = resource.query) : ∃ notes, c.requestNotes e = .ok notes := by
  unfold requestNotes
  split
  · have hints : ∀ pair ∈ e.query, ∃ n, pair.2 = QueryValue.int n := by
      intro pair hpair
      rw [h] at hpair
      cases resource with
      | events fromId upTo limit =>
          simp only [Resource.query, List.mem_cons, List.not_mem_nil, or_false] at hpair
          rcases hpair with rfl | rfl | rfl
          · exact ⟨fromId, rfl⟩
          · exact ⟨upTo, rfl⟩
          · exact ⟨limit, rfl⟩
      | _ => simp [Resource.query] at hpair
    obtain ⟨text, htext⟩ := Endpoint.shownQuery?_of_ints hints
    rw [htext]
    exact ⟨_, rfl⟩
  · exact ⟨[], rfl⟩

/-- After the signal was given a call that is to go on ends by that. -/
theorem outcome?_fetch_of_given (hgiven : hub.signal.given now = true) {origin : Url.Origin}
    (h : Url.Origin.ofText? c.station.address = .ok origin) :
    (c.fetch hub now).2.outcome? = some (now, .error .stopped) := by
  obtain ⟨e, he, resource, hquery⟩ := exists_endpoint h
  obtain ⟨notes, hnotes⟩ := c.exists_requestNotes hquery
  unfold fetch
  rw [he]
  dsimp only
  rw [hnotes]
  simp only [Retry.begin, hgiven, if_true, Retry.outcome?]
  exact (fail_spec _ _ _).1

/-- A call that begins after the signal was given ends at once by that. -/
theorem outcome?_begin_of_given (hgiven : hub.signal.given now = true) {origin : Url.Origin}
    (h : Url.Origin.ofText? station.address = .ok origin) {query : Query} (hquery : query.Askable)
    (limits : Limits) (script : Script) :
    (begin hub now station query limits script).2.outcome? = some (now, .error .stopped) := by
  unfold begin
  dsimp only
  split
  · next fromId upTo =>
    have hcursor : Cursor.make? fromId upTo = .ok ⟨fromId.toNat, upTo⟩ := by
      simp only [Query.Askable] at hquery
      simp [Cursor.make?, not_lt.mpr hquery]
    rw [hcursor]
    exact outcome?_fetch_of_given hgiven h
  · exact outcome?_fetch_of_given hgiven h

/-- The fault with which a closing ends a call. -/
def closingFault (c : Call) : Fault :=
  match c.stage with
  | .fetching inner => inner.closingFault
  | .ended _ _ => .stopped

/-- Whether a call has an attempt after the first one for its page under way. -/
def Retrying (c : Call) : Prop :=
  ∃ inner, c.stage = .fetching inner ∧ inner.Retrying

/-- A closing ends a call that counts its failures, or has not tried again, as its policy says. -/
theorem closingFault_eq_abortFault (h : c.Sound hub now station) (hrunning : c.outcome? = none)
    (hcounts : station.policy.reportEach ≠ 0 ∨ ¬ c.Retrying) :
    c.closingFault = station.policy.abortFault := by
  cases hstage : c.stage with
  | ended endedAt outcome => simp [outcome?, hstage] at hrunning
  | fetching inner =>
      obtain ⟨hsound, hpolicy⟩ := h.inner inner hstage
      have hinner : inner.policy.reportEach ≠ 0 ∨ ¬ inner.Retrying :=
        hcounts.imp (fun hreport => hpolicy ▸ hreport) fun hnot hretrying =>
          hnot ⟨inner, hstage, hretrying⟩
      simp only [closingFault, hstage, Retry.closingFault_eq_abortFault hsound hinner, hpolicy]

/-- What a call ends with that the closing of its client wakes. -/
theorem outcome?_of_closing (h : c.Sound hub now station) (hhub : hub.Sound now)
    (hrunning : c.outcome? = none) (hlate : ∀ t, c.due hub = some t → now < t) :
    c.due (hub.closed now) = some now ∧ (c.resume (hub.closed now)).1 = hub.closed now ∧
      (c.resume (hub.closed now)).2.outcome? = some (now, .error c.closingFault) := by
  cases hstage : c.stage with
  | ended endedAt outcome => simp [outcome?, hstage] at hrunning
  | fetching inner =>
      obtain ⟨hsound, -⟩ := h.inner inner hstage
      have hwake : inner.wake (hub.closed now) = some (now, .closing) := by
        refine Retry.wake_closed hsound hhub ?_
        intro a ha
        exact hlate a.1 (by simp [due, hstage, ha])
      simp only [closingFault, hstage]
      exact resume_of_fault hstage hwake (Retry.outcome?_of_closing (hub.given_closed now) hwake)

end Call

namespace Client

variable {hub : Hub} {station : Station} {now t : Time} {a b : Agenda Client Call}

/-! ## Aborted calls -/

/--
What becomes of the call at a position when its client is closed: one that had ended stays as it
was, one under way stands still until it ends at the instant of the closing, and a later one has
ended.
-/
structure Aborted (a : Agenda Client Call) (i : Nat) (now : Time) (c : Call) : Prop where
  settled : ∀ x, a.tasks[i]? = some x → x.2.outcome?.isSome = true → c = x.2
  running : ∀ x, a.tasks[i]? = some x → x.2.outcome? = none →
    c = x.2 ∧ now = a.now ∨ c.outcome? = some (a.now, .error x.2.closingFault)
  later : a.tasks[i]? = none → c.outcome?.isSome = true

/-- A call that has ended is not due. -/
theorem due_eq_none_of_ended {hub : Hub} {c : Call} (h : c.outcome?.isSome = true) :
    c.due hub = none := by
  cases hstage : c.stage with
  | ended endedAt outcome => simp [Call.due, hstage]
  | fetching inner => simp [Call.outcome?, hstage] at h

/--
A call that is still due after the closing is one that was under way, and its time stands still.
-/
theorem Aborted.of_due {i : Nat} {c : Call} (h : Aborted a i now c) (hdue : c.due hub = some t) :
    ∃ x, a.tasks[i]? = some x ∧ x.2.outcome? = none ∧ c = x.2 ∧ now = a.now := by
  have hrunning : c.outcome? = none := by
    cases houtcome : c.outcome? with
    | none => rfl
    | some y =>
        rw [due_eq_none_of_ended (by rw [houtcome]; rfl)] at hdue
        simp at hdue
  cases hx : a.tasks[i]? with
  | none =>
      have hended := h.later hx
      rw [hrunning] at hended
      simp at hended
  | some x =>
      cases houtcome : x.2.outcome? with
      | none =>
          rcases h.running x hx houtcome with ⟨hsame, hnow⟩ | hended
          · exact ⟨x, rfl, houtcome, hsame, hnow⟩
          · rw [hrunning] at hended
            simp at hended
      | some y =>
          have hsame := h.settled x hx (by rw [houtcome]; rfl)
          rw [hsame, houtcome] at hrunning
          simp at hrunning

/-- A call that the closing has ended, or one begun later, is aborted. -/
theorem Aborted.of_outcome {i : Nat} {c : Call} {x : Option String × Call}
    (hx : a.tasks[i]? = some x) (hrunning : x.2.outcome? = none)
    (houtcome : c.outcome? = some (a.now, .error x.2.closingFault)) : Aborted a i now c := by
  refine ⟨?_, ?_, ?_⟩
  · intro y hy hended
    rw [hx, Option.some.injEq] at hy
    rw [← hy, hrunning] at hended
    simp at hended
  · intro y hy _
    rw [hx, Option.some.injEq] at hy
    exact .inr (hy ▸ houtcome)
  · intro hnone
    rw [hx] at hnone
    simp at hnone

/-- When its client is closed, every call stands where it did. -/
theorem aborted_start (hclient : a.shared.Sound station a.now) :
    Program.Holds a.tasks.length (Shut station (a.shared.hub.closed a.now))
      (fun i now _ (c : Call) => Aborted a i now c)
      (Program.order a ClientCommand.close) := by
  refine ⟨le_rfl, hclient.shut, ?_⟩
  intro i x hx
  have hx' : a.tasks[i]? = some x := hx
  refine ⟨?_, ?_, ?_⟩
  · intro y hy _
    rw [hx', Option.some.injEq] at hy
    rw [hy]
  · intro y hy _
    rw [hx', Option.some.injEq] at hy
    exact .inl ⟨by rw [hy], rfl⟩
  · intro hnone
    rw [hx'] at hnone
    simp at hnone

section

variable (hclient : a.shared.Sound station a.now)
  (htasks : ∀ (i : Nat) (x : Option String × Call), a.tasks[i]? = some x →
    x.2.Sound a.shared.hub a.now station)
  (hidle : ∀ i t, a.dueAt i = some t → a.now < t)

include hclient htasks hidle

/-- What a call under way ends with when its client is closed. -/
theorem outcome?_of_close {i : Nat} {x : Option String × Call} (hx : a.tasks[i]? = some x)
    (hrunning : x.2.outcome? = none) :
    x.2.due (a.shared.hub.closed a.now) = some a.now ∧
      (x.2.resume (a.shared.hub.closed a.now)).1 = a.shared.hub.closed a.now ∧
      (x.2.resume (a.shared.hub.closed a.now)).2.outcome? =
        some (a.now, .error x.2.closingFault) := by
  refine Call.outcome?_of_closing (htasks i x hx) hclient.hub hrunning ?_
  intro t ht
  exact hidle i t (by simp [Agenda.dueAt, hx, ht, Timed.due])

/-- What becomes of calls after the closing is kept by all that happens, cancellations apart. -/
theorem aborted_laws :
    Program.Laws (fun e : Happening => ∀ i, e ≠ .cancel i) a.tasks.length
      (Shut station (a.shared.hub.closed a.now))
      (fun i now _ (c : Call) => Aborted a i now c)
      (fun _ client client' => client'.hub = client.hub) where
  due_ge := by
    intro i now t client c hclient' hc hdue
    obtain ⟨x, hx, hrunning, rfl, rfl⟩ := hc.of_due hdue
    obtain ⟨hnow, -⟩ := outcome?_of_close hclient htasks hidle hx hrunning
    have hdue' : x.2.due client.hub = some t := hdue
    rw [hclient'.hub_eq, hnow, Option.some.injEq] at hdue'
    exact hdue'.le
  bears _ hc _ := hc
  begin := by
    intro i now client hclient' hi order
    have hgiven : client.hub.signal.given now = true := hclient'.hub_eq ▸ hclient'.given
    obtain ⟨hhub, -, hended⟩ := Call.begin_of_given hgiven client.station order.query
      (.within now order.span) order.script
    obtain ⟨outcome, houtcome⟩ := hended.outcome
    have hfree : a.tasks[i]? = none := List.getElem?_eq_none hi
    refine ⟨hclient'.of_hub_eq hhub rfl, ⟨?_, ?_, fun _ => ?_⟩, hhub⟩
    · intro x hx
      rw [hfree] at hx
      simp at hx
    · intro x hx
      rw [hfree] at hx
      simp at hx
    · exact Option.isSome_iff_exists.mpr ⟨_, houtcome⟩
  command := by
    intro now client hclient' command
    cases command with
    | close => exact ⟨hclient'.of_hub_eq hclient'.hub_close rfl, hclient'.hub_close⟩
    | closed => exact ⟨hclient', rfl⟩
  cancel hpermitted _ _ _ := absurd rfl (hpermitted _)
  move := by
    intro i now client c hclient' hc hdue
    obtain ⟨x, hx, hrunning, rfl, rfl⟩ := hc.of_due hdue
    obtain ⟨-, hhub, houtcome⟩ := outcome?_of_close hclient htasks hidle hx hrunning
    rw [← hclient'.hub_eq] at hhub houtcome
    exact ⟨hclient'.of_hub_eq hhub rfl, .of_outcome hx hrunning houtcome, hhub⟩
  pass hclient' hle := hclient'.mono hle
  pass_task := by
    intro i now t client c hclient' hc hle hdue
    refine ⟨hc.settled, ?_, hc.later⟩
    intro x hx hrunning
    rcases hc.running x hx hrunning with ⟨rfl, rfl⟩ | hended
    · obtain ⟨hnow, -⟩ := outcome?_of_close hclient htasks hidle hx hrunning
      have ht := hdue a.now (by rw [← hnow, ← hclient'.hub_eq]; rfl)
      exact .inl ⟨rfl, le_antisymm ht hle⟩
    · exact .inr hended

/-- A call that is due after the closing ends by its move. -/
theorem ended_of_aborted {i : Nat} {client : Client} {c : Call}
    (hshut : client.Shut station (a.shared.hub.closed a.now) now)
    (hc : Aborted a i now c) (hdue : Timed.due client c = some now) :
    Timed.ended c = false ∧ Timed.ended (Timed.resume client c).2 = true := by
  obtain ⟨x, hx, hrunning, rfl, rfl⟩ := hc.of_due hdue
  obtain ⟨-, -, houtcome⟩ := outcome?_of_close hclient htasks hidle hx hrunning
  rw [← hshut.hub_eq] at houtcome
  refine ⟨?_, ?_⟩
  · simp [Timed.ended, hrunning]
  · simp only [Timed.ended, Timed.resume]
    rw [houtcome]
    rfl

end

/--
Whether the calls that were under way have ended with a fault at the instant of the closing, which
is the one their policy says if they count their failures or have not tried again, and those that
had ended have not changed.
-/
def AllAborted (policy : Policy) (a b : Agenda Client Call) : Prop :=
  ∀ (i : Nat) (x : Option String × Call), a.tasks[i]? = some x → ∃ y, b.tasks[i]? = some y ∧
    (x.2.outcome?.isSome = true → y.2 = x.2) ∧
    (x.2.outcome? = none → ∃ fault, y.2.outcome? = some (a.now, .error fault) ∧
      (policy.reportEach ≠ 0 ∨ ¬ x.2.Retrying → fault = policy.abortFault))

/-- Where no call is due at the instant of the closing any more, all calls are aborted. -/
theorem allAborted_of_holds
    (h : Program.Holds a.tasks.length (Shut station hub)
      (fun i now _ (c : Call) => Aborted a i now c) b)
    (hdue : ∀ (i : Nat) (x : Option String × Call), a.tasks[i]? = some x →
      x.2.outcome? = none → x.2.due hub = some a.now)
    (hsound : ∀ (i : Nat) (x : Option String × Call), a.tasks[i]? = some x →
      x.2.Sound a.shared.hub a.now station)
    (hover : a.now < b.now ∨ ∀ i, b.dueAt i ≠ some a.now) : AllAborted station.policy a b := by
  intro i x hx
  have hlength : i < b.tasks.length :=
    (List.getElem?_eq_some_iff.mp hx).1.trans_le h.base_le
  have hy : b.tasks[i]? = some b.tasks[i] := List.getElem?_eq_getElem hlength
  have hfate := h.task i _ hy
  refine ⟨b.tasks[i], hy, hfate.settled x hx, ?_⟩
  intro hrunning
  rcases hfate.running x hx hrunning with ⟨hsame, hnow⟩ | hended
  · rcases hover with hlater | hnone
    · rw [hnow] at hlater
      exact absurd hlater (lt_irrefl _)
    · have hstill : b.dueAt i = some a.now := by
        simp only [Agenda.dueAt, hy, Option.bind_some]
        rw [hsame, ← hdue i x hx hrunning, ← h.shared.hub_eq]
        rfl
      exact absurd hstill (hnone i)
  · exact ⟨_, hended, Call.closingFault_eq_abortFault (hsound i x hx) hrunning⟩

/-- Calls that were aborted stay so, whatever happens. -/
theorem AllAborted.of_schedule {policy : Policy} {c : Agenda Client Call} {es : List Happening}
    (h : AllAborted policy a b) (hschedule : Program.Schedule b es c) : AllAborted policy a c := by
  intro i x hx
  obtain ⟨y, hy, hsettled, hrunning⟩ := h i x hx
  refine ⟨y, ?_, hsettled, hrunning⟩
  refine hschedule.getElem?_of_ended (fun _ _ hended => due_eq_none_of_ended hended) hy ?_
  cases houtcome : x.2.outcome? with
  | none =>
      obtain ⟨fault, hended, -⟩ := hrunning houtcome
      simp only [Timed.ended]
      rw [hended]
      rfl
  | some z =>
      have hended : x.2.outcome?.isSome = true := by rw [houtcome]; rfl
      rw [hsettled hended]
      exact hended

/-! ## Ever after -/

/-- A call made of a closed client ends at once and changes nothing. -/
theorem begin_of_closed {client : Client} (h : client.Sound station now)
    (hgiven : client.hub.signal.given now = true) {origin : Url.Origin}
    (horigin : Url.Origin.ofText? station.address = .ok origin) {order : Assignment}
    (hquery : order.query.Askable) :
    (begin now client order).1 = client ∧
      (begin now client order).2.outcome? = some (now, .error .stopped) ∧
      (begin now client order).2.trace.requests = [] := by
  obtain ⟨hhub, -, hended⟩ := Call.begin_of_given hgiven client.station order.query
    (.within now order.span) order.script
  refine ⟨?_, ?_, hended.requests⟩
  · simp only [begin, hhub]
  · exact Call.outcome?_begin_of_given hgiven (h.station_eq ▸ horigin) hquery _ _

/-- Whether a client stays closed: it is, has noted so once, and its next call would end at once. -/
structure StaysClosed (address : String) (a b : Agenda Client Call) : Prop where
  closed : b.shared.closed b.now = true
  entries : ∃ t ≤ a.now, b.shared.entries = [⟨t, .clientClosed address⟩] ∧
    (a.shared.closed a.now = false → t = a.now)
  calls : ∀ (name : Option String) (order : Assignment), order.query.Askable →
    ∃ c : Call, Program.begin b name order = { b with tasks := b.tasks ++ [(name, c)] } ∧
      c.outcome? = some (b.now, .error .stopped) ∧ c.trace.requests = []

/-- A client that was closed stays closed. -/
theorem staysClosed {fs : List Happening} (hclient : a.shared.Sound station a.now)
    (htasks : ∀ (i : Nat) (x : Option String × Call), a.tasks[i]? = some x →
      x.2.Sound a.shared.hub a.now station)
    {origin : Url.Origin} (horigin : Url.Origin.ofText? station.address = .ok origin)
    (hschedule : Program.Schedule (Program.order a .close) fs b) :
    StaysClosed station.address a b := by
  obtain ⟨t, hle, ht, hnow⟩ := hclient.hub.givenAt_closed
  have hstart : (a.shared.close a.now).GivenAt (some t) := by
    intro u hu
    rwa [← Option.some.inj hu]
  have hholds := hschedule.keeps (sound_laws station (some t)) (by simp)
    ⟨Nat.zero_le _, ⟨hclient.close, hstart⟩,
      fun i x hx => (htasks i x hx).follows hclient.hub.close.2⟩
  obtain ⟨hsound, hkept⟩ := hholds.shared
  have hgivenAt := hkept t rfl
  have hgiven : b.shared.hub.signal.given b.now = true := by
    simp [Signal.given, hgivenAt, Time.reached, hsound.hub.signal t hgivenAt]
  refine ⟨hgiven, ⟨t, hle, ?_, fun hopen => hnow (hclient.pending hopen)⟩, ?_⟩
  · rcases hsound.noted with ⟨hpending, -⟩ | ⟨u, hu, hentries⟩
    · rw [hgivenAt] at hpending
      simp at hpending
    · rw [hgivenAt, Option.some.injEq] at hu
      rw [hentries, ← hu, hsound.station_eq]
  · intro name order hquery
    obtain ⟨hshared, houtcome, hrequests⟩ := begin_of_closed hsound hgiven horigin hquery
    refine ⟨(begin b.now b.shared order).2, ?_, houtcome, hrequests⟩
    simp only [Program.begin, Agenda.begin, Served.begin, hshared]

/--
A closing at an instant at which no call is due ends all calls under way at that instant, as soon as
they have moved and in whichever order they do, unless they are cancelled just then; they stay so
whatever happens later.  They end with a fault: that of the signal, or the refusal of a period that
is not positive, as far as they count their failures or have not tried again.  The client stays
closed, has noted so once, and every later call ends at once.
-/
theorem close_aborts {address : String} {policy : Policy} {timeout : Time} {origin : Url.Origin}
    {es : List Happening} {a : Agenda Client Call}
    (horigin : Url.Origin.ofText? address = .ok origin)
    (h : Program.Schedule (Agenda.start (make address policy timeout)) es a)
    (hidle : ∀ i t, a.dueAt i = some t → a.now < t) :
    (∀ n, a.tasks.length ≤ n →
        AllAborted policy a ((Program.order a ClientCommand.close).settle n)) ∧
      (∀ (fs : List Happening) (b : Agenda Client Call),
        Program.Schedule (Program.order a .close) fs b → (∀ e ∈ fs, ∀ i, e ≠ .cancel i) →
        (a.now < b.now ∨ ∀ i, b.dueAt i ≠ some a.now) →
        ∀ (gs : List Happening) (c : Agenda Client Call), Program.Schedule b gs c →
          AllAborted policy a c) ∧
      ∀ (fs : List Happening) (b : Agenda Client Call),
        Program.Schedule (Program.order a .close) fs b → StaysClosed address a b := by
  obtain ⟨hclient, htasks⟩ := sound_of_schedule h
  have hlaws := aborted_laws hclient htasks hidle
  have hstart := aborted_start hclient
  have hdue : ∀ (i : Nat) (x : Option String × Call), a.tasks[i]? = some x → x.2.outcome? = none →
      x.2.due (a.shared.hub.closed a.now) = some a.now :=
    fun i x hx hrunning => (outcome?_of_close hclient htasks hidle hx hrunning).1
  refine ⟨?_, ?_, ?_⟩
  · intro n hn
    have hrunning : Program.running (Program.order a ClientCommand.close) ≤ n :=
      List.countP_le_length.trans hn
    obtain ⟨-, hover, hholds⟩ := hlaws.settles
      (fun i now s x hs hx hxdue => ended_of_aborted hclient htasks hidle hs hx hxdue)
      hrunning hstart
    exact allAborted_of_holds hholds hdue htasks (.inr hover)
  · intro fs b hschedule hpermitted hover gs c hrest
    have hholds := hschedule.keeps hlaws hpermitted hstart
    exact (allAborted_of_holds hholds hdue htasks hover).of_schedule hrest
  · intro fs b hschedule
    exact staysClosed hclient htasks horigin hschedule

/-- Three calls: one is never answered, one never gets its body, and one fails at once. -/
def unanswered : List Assignment :=
  [⟨.checkpoint, none, silence⟩,
    ⟨.milestone, none, ⟨.reply (.lasting 0) 200 .endless (.ok .empty), []⟩⟩,
    ⟨.checkpointCount, none, ⟨.reply (.lasting 0) 500 (.lasting 0) (.ok .empty), []⟩⟩]

/-- A client whose calls are all begun at the start of time. -/
def asking (policy : Policy) : List Assignment → Agenda Client Call :=
  List.foldl (fun a order => Program.begin a none order) (Agenda.start (make "http://h" policy 5))

/-- Beginning calls is a schedule. -/
theorem asking_schedule (policy : Policy) (orders : List Assignment) :
    Program.Schedule (Agenda.start (make "http://h" policy 5)) (orders.map (.begin none))
      (asking policy orders) := by
  induction orders using List.reverseRecOn with
  | nil => exact .nil
  | append_singleton orders order ih =>
      rw [List.map_append, asking, List.foldl_append]
      exact ih.snoc (.begin none order)

/-- Those calls a second later: one waits for a status, one for a body, and one to try again. -/
def silent (policy : Policy) : Agenda Client Call :=
  { (asking policy unanswered).resumeAt 0 2 with now := 1 }

/-- The silent client comes about, and none of its calls is due at its instant. -/
theorem silent_schedule (policy : Policy) (hfirst : (asking policy unanswered).next? = some (0, 2))
    (hnext : ((asking policy unanswered).resumeAt 0 2).next? = some (5, 0)) :
    (∃ es, Program.Schedule (Agenda.start (make "http://h" policy 5)) es (silent policy)) ∧
      ∀ i t, (silent policy).dueAt i = some t → (silent policy).now < t := by
  obtain ⟨hdue, hquiet⟩ := Agenda.due_of_next? hfirst
  have hlate := (Agenda.due_of_next? hnext).2
  have hnow : ((asking policy unanswered).resumeAt 0 2).now ≤ 1 := by
    simp [asking, unanswered, Agenda.resumeAt, Program.begin, Agenda.begin,
      Agenda.start, Time.later]
  have hlater : (1 : Time) < 5 := by norm_num
  have hmoved := (asking_schedule policy unanswered).snoc (.move hdue hquiet)
  rw [silent]
  generalize (asking policy unanswered).resumeAt 0 2 = a at hlate hnow hmoved
  exact ⟨⟨_, hmoved.snoc (.pass hnow fun i t ht => hlater.le.trans (hlate i t ht))⟩,
    fun i t ht => hlater.trans_le (hlate i t ht)⟩

/-- Closing the silent client ends its three calls by the signal. -/
theorem silent_aborted :
    (silent ⟨9, 1⟩).tasks.map (·.2.outcome?) = [none, none, none] ∧
      AllAborted ⟨9, 1⟩ (silent ⟨9, 1⟩)
        ((Program.order (silent ⟨9, 1⟩) ClientCommand.close).settle 3) ∧
      ((Program.order (silent ⟨9, 1⟩) ClientCommand.close).settle 3).tasks.map (·.2.outcome?) =
        [some (1, .error .stopped), some (1, .error .stopped), some (1, .error .stopped)] := by
  obtain ⟨⟨es, hschedule⟩, hidle⟩ :=
    silent_schedule ⟨9, 1⟩ (by decide +kernel) (by decide +kernel)
  have haccepted : (Url.Origin.ofText? "http://h").toOption.isSome = true := by decide +kernel
  refine ⟨by decide +kernel, ?_, by decide +kernel⟩
  cases horigin : Url.Origin.ofText? "http://h" with
  | error flaw =>
      rw [horigin] at haccepted
      simp [Except.toOption] at haccepted
  | ok origin => exact (close_aborts horigin hschedule hidle).1 3 le_rfl

/-- Without a positive period closing the silent client refuses that to its calls under way. -/
theorem silent_refused :
    (∃ es, Program.Schedule (Agenda.start (make "http://h" ⟨0, 1⟩ 5)) es (silent ⟨0, 1⟩)) ∧
      (∀ i t, (silent ⟨0, 1⟩).dueAt i = some t → (silent ⟨0, 1⟩).now < t) ∧
      (silent ⟨0, 1⟩).tasks.map (·.2.outcome?) =
        [none, none, some (0, .error (.refused .retryPeriod))] ∧
      ((Program.order (silent ⟨0, 1⟩) ClientCommand.close).settle 3).tasks.map (·.2.outcome?) =
        [some (1, .error (.refused .retryPeriod)), some (1, .error (.refused .retryPeriod)),
          some (0, .error (.refused .retryPeriod))] := by
  obtain ⟨hschedule, hidle⟩ :=
    silent_schedule ⟨0, 1⟩ (by decide +kernel) (by decide +kernel)
  exact ⟨hschedule, hidle, by decide +kernel, by decide +kernel⟩

end Client
end ChainPoll

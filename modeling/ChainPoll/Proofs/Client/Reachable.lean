import ChainPoll.Client.Basic
import ChainPoll.Proofs.Retry.Standing
import ChainPoll.Proofs.Timeline.Schedule

/-!
# Reachable clients

What holds of a client and of its calls under way in every state that a schedule leads to from a
client just made.  A call of a client does nothing but move its inner call, begin another one for
the next page, or end.

Main results:

- Theorem {lit}`Call.fetch_cases`: a call that goes on sends a request, or has ended.
- Theorem {lit}`Call.Sound.resume`: a move leaves the call sound.
- Theorem {lit}`Client.sound_of_schedule`: what holds of every reachable client and its calls.
-/

namespace ChainPoll

namespace Call

variable {hub hub' : Hub} {c : Call} {now t : Time} {station : Station}

/-- The starts of all requests of a call, the one under way included. -/
def starts (c : Call) : List (Time × String × Nat) :=
  match c.stage with
  | .fetching inner => inner.starts
  | .ended _ _ => c.trace.requests.map Request.start

/-- Whether a call has ended at an instant, after requests that were all over before. -/
structure EndedAfter (c : Call) (t : Time) (requests : List Request) : Prop where
  outcome : ∃ outcome, c.outcome? = some (t, outcome)
  requests : c.trace.requests = requests

/-- A call that has ended has started the requests that were over. -/
theorem EndedAfter.starts_eq {requests : List Request} (h : c.EndedAfter t requests) :
    c.starts = requests.map Request.start := by
  obtain ⟨outcome, houtcome⟩ := h.outcome
  unfold outcome? at houtcome
  split at houtcome
  · next hstage => simp [starts, hstage, h.requests]
  · simp at houtcome

/-! ## The moves of a call -/

/-- A call that fails ends with the fault, and keeps the rest. -/
theorem fail_spec (c : Call) (t : Time) (fault : Fault) :
    (c.fail t fault).outcome? = some (t, .error fault) ∧
      (c.fail t fault).trace.requests = c.trace.requests ∧
      (c.fail t fault).station = c.station := by
  unfold fail
  split <;> simp [finish, outcome?, jot, Trace.addNotes]

/-- A call that goes on sends a request, or has ended. -/
theorem fetch_cases (hub : Hub) (c : Call) (now : Time) :
    ((c.fetch hub now).1 = hub ∧ (c.fetch hub now).2.station = c.station ∧
        (c.fetch hub now).2.EndedAfter now c.trace.requests) ∨
      ∃ inner url answer, hub.signal.given now = false ∧ inner.errand.url = .ok url ∧
        inner.policy = c.station.policy ∧ inner.trace.requests = c.trace.requests ∧
        inner.phase = .flying (hub.gateway.depart now url answer).1 none ∧
        (c.fetch hub now).1 = hub.sent now url answer ∧
        (c.fetch hub now).2.station = c.station ∧ (c.fetch hub now).2.stage = .fetching inner := by
  have hfail : ∀ (c' : Call) (fault : Fault), c'.station = c.station →
      c'.trace.requests = c.trace.requests → (c'.fail now fault).station = c.station ∧
        (c'.fail now fault).EndedAfter now c.trace.requests := by
    intro c' fault hstation hrequests
    obtain ⟨houtcome, hkept, hkept'⟩ := c'.fail_spec now fault
    exact ⟨hkept'.trans hstation, ⟨_, houtcome⟩, hkept.trans hrequests⟩
  unfold fetch
  split
  · exact .inl ⟨rfl, hfail c _ rfl rfl⟩
  · next endpoint _ =>
    split
    · exact .inl ⟨rfl, hfail c _ rfl rfl⟩
    · next notes _ =>
      dsimp only
      rcases Retry.begin_cases hub now (.ofEndpoint endpoint c.query.form) c.station.policy c.limits
          c.script (c.trace.addNotes now notes) with ⟨fault, hbegin⟩ | ⟨url, hurl, hopen, hbegin⟩
      · left
        simp only [jot, hbegin, Retry.outcome?]
        exact ⟨trivial, hfail _ _ rfl rfl⟩
      · right
        simp only [jot, hbegin, Retry.outcome?]
        exact ⟨_, url, c.script.next.1, hopen, hurl, rfl, rfl, rfl, rfl, trivial, rfl⟩

/-- A call whose inner call has ended has ended as well, or goes on. -/
theorem settle_cases (hub : Hub) (c : Call) (inner : Retry) (t : Time)
    (outcome : Except Fault (Option Payload)) :
    ((c.settle hub inner t outcome).1 = hub ∧ (c.settle hub inner t outcome).2.station = c.station ∧
        (c.settle hub inner t outcome).2.EndedAfter t inner.trace.requests) ∨
      ∃ c' : Call, c'.station = c.station ∧ c'.trace.requests = inner.trace.requests ∧
        c.settle hub inner t outcome = c'.fetch hub t := by
  unfold settle
  dsimp only
  split
  · next fault =>
    obtain ⟨houtcome, hrequests, hstation⟩ := (c.leave inner).fail_spec t fault
    exact .inl ⟨rfl, hstation, ⟨_, houtcome⟩, hrequests⟩
  · next payload w _ =>
    unfold turn
    dsimp only
    split
    · left
      unfold conclude
      split
      · exact ⟨rfl, rfl, ⟨_, rfl⟩, rfl⟩
      · exact ⟨rfl, rfl, ⟨_, rfl⟩, rfl⟩
    · right
      refine ⟨_, ?_, ?_, rfl⟩
      · rfl
      · rfl
  · exact .inl ⟨rfl, rfl, ⟨_, rfl⟩, rfl⟩
  · exact .inl ⟨rfl, rfl, ⟨_, rfl⟩, rfl⟩

/-- A call of a client has ended when it begins, or goes on with a first request. -/
theorem begin_cases (hub : Hub) (now : Time) (station : Station) (query : Query) (limits : Limits)
    (script : Script) :
    ((begin hub now station query limits script).1 = hub ∧
        (begin hub now station query limits script).2.station = station ∧
        (begin hub now station query limits script).2.EndedAfter now []) ∨
      ∃ c' : Call, c'.station = station ∧ c'.trace.requests = [] ∧
        begin hub now station query limits script = c'.fetch hub now := by
  unfold begin
  dsimp only
  split
  · split
    · exact .inl ⟨rfl, rfl, ⟨_, rfl⟩, rfl⟩
    · exact .inr ⟨_, rfl, rfl, rfl⟩
  · exact .inr ⟨_, rfl, rfl, rfl⟩

/-- A call moves by the move of its inner call, and goes on when that has ended. -/
theorem resume_cases (hub : Hub) {inner : Retry} (h : c.stage = .fetching inner) :
    ((inner.resume hub).2.outcome? = none ∧
        c.resume hub = ((inner.resume hub).1, { c with stage := .fetching (inner.resume hub).2 })) ∨
      ∃ t outcome, (inner.resume hub).2.outcome? = some (t, outcome) ∧
        c.resume hub = c.settle (inner.resume hub).1 (inner.resume hub).2 t outcome := by
  unfold resume
  rw [h]
  dsimp only
  cases houtcome : (inner.resume hub).2.outcome? with
  | none => exact .inl ⟨rfl, rfl⟩
  | some a => exact .inr ⟨a.1, a.2, rfl, rfl⟩

/-- A call that is due waits for the move of its inner call. -/
theorem exists_wake_of_due (h : c.due hub = some t) :
    ∃ inner cause, c.stage = .fetching inner ∧ inner.wake hub = some (t, cause) := by
  unfold due at h
  split at h
  · simp at h
  · next inner hstage =>
    obtain ⟨⟨u, cause⟩, hwake, rfl⟩ := Option.map_eq_some_iff.mp h
    exact ⟨inner, cause, hstage, hwake⟩

/-! ## Sound calls -/

/-- What holds of a call of a client over its hub. -/
structure Sound (hub : Hub) (now : Time) (station : Station) (c : Call) : Prop where
  station_eq : c.station = station
  inner : ∀ inner, c.stage = .fetching inner →
    inner.Sound hub now ∧ inner.policy = station.policy

/-- A call that has ended is sound. -/
theorem EndedAfter.sound {requests : List Request} (h : c.EndedAfter t requests)
    (hstation : c.station = station) : c.Sound hub now station := by
  refine ⟨hstation, ?_⟩
  intro inner hstage
  obtain ⟨outcome, houtcome⟩ := h.outcome
  simp [outcome?, hstage] at houtcome

/-- A call that goes on is sound, and changes the hub by a request at most. -/
theorem sound_fetch (hub : Hub) (hstation : c.station = station) (now : Time) :
    Hub.Grown now hub (c.fetch hub now).1 ∧
      (c.fetch hub now).2.Sound (c.fetch hub now).1 now station := by
  rcases c.fetch_cases hub now with ⟨hhub, hstation', hended⟩ |
    ⟨inner, url, answer, -, hurl, hpolicy, -, hphase, hhub, hstation', hstage⟩
  · rw [hhub]
    exact ⟨.inl rfl, hended.sound (hstation'.trans hstation)⟩
  · rw [hhub]
    refine ⟨.inr ⟨url, answer, rfl⟩, hstation'.trans hstation, ?_⟩
    intro inner' hstage'
    rw [hstage, Stage.fetching.injEq] at hstage'
    rw [← hstage']
    exact ⟨Retry.sound_of_departed hub hurl hphase (by simp), by rw [hpolicy, hstation]⟩

/-- A call that has begun is sound, and changes the hub by a request at most. -/
theorem sound_begin (hub : Hub) (now : Time) (station : Station) (query : Query) (limits : Limits)
    (script : Script) :
    Hub.Grown now hub (begin hub now station query limits script).1 ∧
      (begin hub now station query limits script).2.Sound
        (begin hub now station query limits script).1 now station := by
  rcases begin_cases hub now station query limits script with
    ⟨hhub, hstation, hended⟩ | ⟨c', hstation, -, hfetch⟩
  · rw [hhub]
    exact ⟨.inl rfl, hended.sound hstation⟩
  · rw [hfetch]
    exact sound_fetch hub hstation now

/-- A move leaves a call sound, and changes the hub by a request at most. -/
theorem Sound.resume (h : c.Sound hub now station) (hdue : c.due hub = some now) :
    Hub.Grown now hub (c.resume hub).1 ∧
      (c.resume hub).2.Sound (c.resume hub).1 now station := by
  obtain ⟨inner, cause, hstage, hwake⟩ := exists_wake_of_due hdue
  obtain ⟨hsound, hpolicy⟩ := h.inner inner hstage
  have hmoved := Retry.moved_resume hwake
  rcases resume_cases hub hstage with ⟨hrunning, hresume⟩ | ⟨t, outcome, hended, hresume⟩
  · rw [hresume]
    refine ⟨hmoved.grown, h.station_eq, ?_⟩
    intro inner' hstage'
    rw [Stage.fetching.injEq] at hstage'
    rw [← hstage']
    exact ⟨hsound.moved hmoved hrunning, by rw [hmoved.frame.2.1, hpolicy]⟩
  · have hhub : (inner.resume hub).1 = hub := (hmoved.of_ended (by rw [hended]; rfl)).1
    have ht : t = now := by
      have hbegan := hmoved.began_eq
      rwa [Retry.began, Retry.phase_of_outcome? hended] at hbegan
    rw [hresume, hhub, ht]
    rcases settle_cases hub c (inner.resume hub).2 now outcome with
      ⟨hkept, hstation, hended'⟩ | ⟨c', hstation, -, hfetch⟩
    · rw [hkept]
      exact ⟨.inl rfl, hended'.sound (hstation.trans h.station_eq)⟩
    · rw [hfetch]
      exact sound_fetch hub (hstation.trans h.station_eq) now

/-- A sound call bears changes of its hub. -/
theorem Sound.follows (h : c.Sound hub now station) (hfollows : hub.Follows now hub') :
    c.Sound hub' now station :=
  ⟨h.station_eq, fun inner hstage =>
    ⟨(h.inner inner hstage).1.follows hfollows, (h.inner inner hstage).2⟩⟩

/-- A sound call bears to be cancelled now. -/
theorem Sound.cancel (h : c.Sound hub now station) : (c.cancel now).Sound hub now station := by
  refine ⟨h.station_eq, ?_⟩
  intro inner hstage
  cases hstage' : c.stage with
  | ended endedAt outcome => simp [Call.cancel, hstage'] at hstage
  | fetching inner' =>
      simp only [Call.cancel, hstage', Stage.fetching.injEq] at hstage
      rw [← hstage]
      exact ⟨(h.inner inner' hstage').1.cancel, (h.inner inner' hstage').2⟩

/-- A call was to make no move in the past. -/
theorem Sound.due_ge (h : c.Sound hub now station) (hdue : c.due hub = some t) : now ≤ t := by
  obtain ⟨inner, cause, hstage, hwake⟩ := exists_wake_of_due hdue
  exact (h.inner inner hstage).1.late _ hwake

/-- What holds of a call still holds later, as long as it is not due before. -/
theorem Sound.pass (h : c.Sound hub now station) (hle : now ≤ t)
    (hdue : ∀ u, c.due hub = some u → t ≤ u) : c.Sound hub t station := by
  refine ⟨h.station_eq, ?_⟩
  intro inner hstage
  refine ⟨(h.inner inner hstage).1.pass hle ?_, (h.inner inner hstage).2⟩
  intro a ha
  exact hdue a.1 (by simp [due, hstage, ha])

end Call

/-! ## Sound clients -/

namespace Client

variable {client : Client} {station : Station} {now t : Time}

/-- Whether a client has noted that it was closed, once and exactly if it was. -/
def Noted (client : Client) : Prop :=
  client.hub.signal.givenAt = none ∧ client.entries = [] ∨
    ∃ t, client.hub.signal.givenAt = some t ∧
      client.entries = [⟨t, .clientClosed client.station.address⟩]

/-- What holds of a client. -/
structure Sound (station : Station) (now : Time) (client : Client) : Prop where
  station_eq : client.station = station
  hub : client.hub.Sound now
  single : client.hub.Single
  noted : client.Noted

/-- Closing a client closes its hub. -/
theorem hub_close (client : Client) (now : Time) : (client.close now).hub = client.hub.closed now :=
  rfl

/-- A client that changes its hub by a request at most stays sound. -/
theorem Sound.grown {hub' : Hub} (h : client.Sound station now)
    (hgrown : Hub.Grown now client.hub hub') :
    ({ client with hub := hub' } : Client).Sound station now := by
  refine ⟨h.station_eq, (hgrown.sound h.hub).1, hgrown.single h.single, ?_⟩
  simpa only [Noted, hgrown.signal_eq] using h.noted

/-- A client that was closed stays sound. -/
theorem Sound.close (h : client.Sound station now) : (client.close now).Sound station now := by
  obtain ⟨t, hle, ht, hnow⟩ := h.hub.givenAt_closed
  refine ⟨h.station_eq, h.hub.close.1, ?_, ?_⟩
  · intro hopen
    rw [hub_close, ht] at hopen
    simp at hopen
  · right
    refine ⟨t, by rw [hub_close, ht], ?_⟩
    rw [entries_close]
    rcases h.noted with ⟨hpending, hentries⟩ | ⟨u, hgiven, hentries⟩
    · have hopen : client.closed now = false := by
        simp [closed, Signal.given, hpending, Time.reached]
      simp [hopen, hentries, hnow hpending, Client.close]
    · have hu : u ≤ now := h.hub.signal u hgiven
      have hclosed : client.closed now = true := by
        simp [closed, Signal.given, hgiven, Time.reached, hu]
      have htu : t = u :=
        Option.some.inj (ht.symm.trans (h.hub.givenAt_closed_of_given hgiven))
      simp [hclosed, hentries, htu, Client.close]

/-- A client just made is sound. -/
theorem sound_make (address : String) (policy : Policy) (timeout now : Time) :
    (make address policy timeout).Sound ⟨address, policy⟩ now := by
  refine ⟨rfl, ⟨?_, Sessions.sound_none now⟩, fun _ => .inl rfl, .inl ⟨rfl, rfl⟩⟩
  intro t ht
  simp [make, Signal.pending] at ht

/-- Something that happens to the calls of a client. -/
abbrev Happening : Type := Program.Happening Assignment ClientCommand

/-- What holds of a client still holds later. -/
theorem Sound.mono (h : client.Sound station now) (hle : now ≤ t) : client.Sound station t :=
  ⟨h.station_eq, h.hub.mono hle, h.single, h.noted⟩

/-- Whether the signal of a client was given at an instant, if one is named. -/
def GivenAt (past : Option Time) (client : Client) : Prop :=
  ∀ t ∈ past, client.hub.signal.givenAt = some t

/--
What holds of clients and their calls is kept by all that happens, and the signal of a client that
was closed stays as it was given.
-/
theorem sound_laws (station : Station) (past : Option Time) :
    Program.Laws (fun _ : Happening => True) 0
      (fun now client => client.Sound station now ∧ client.GivenAt past)
      (fun _ now client (c : Call) => c.Sound client.hub now station)
      (fun now client client' => client.hub.Follows now client'.hub) where
  due_ge _ hx hdue := hx.due_ge hdue
  bears _ hx hchange := hx.follows hchange
  begin := by
    rintro i now client ⟨hclient, hgiven⟩ _ order
    obtain ⟨hgrown, hsound⟩ := Call.sound_begin client.hub now station order.query
      (.within now order.span) order.script
    rw [← hclient.station_eq] at hgrown hsound
    refine ⟨⟨hclient.grown hgrown, ?_⟩, hclient.station_eq ▸ hsound, (hgrown.sound hclient.hub).2⟩
    intro t ht
    rw [← hgiven t ht, ← hgrown.signal_eq]
    rfl
  command := by
    rintro now client ⟨hclient, hgiven⟩ command
    cases command with
    | close =>
        refine ⟨⟨hclient.close, ?_⟩, hclient.hub.close.2⟩
        intro t ht
        exact hclient.hub.givenAt_closed_of_given (hgiven t ht)
    | closed => exact ⟨⟨hclient, hgiven⟩, .refl now client.hub⟩
  cancel _ _ hx _ := hx.cancel
  move := by
    rintro i now client x ⟨hclient, hgiven⟩ hx hdue
    obtain ⟨hgrown, hsound⟩ := hx.resume hdue
    refine ⟨⟨hclient.grown hgrown, ?_⟩, hsound, (hgrown.sound hclient.hub).2⟩
    intro t ht
    rw [← hgiven t ht, ← hgrown.signal_eq]
    rfl
  pass hclient hle := ⟨hclient.1.mono hle, hclient.2⟩
  pass_task _ hx hle hdue := hx.pass hle hdue

/-- What holds of every client that a schedule leads to, and of its calls. -/
theorem sound_of_schedule {address : String} {policy : Policy} {timeout : Time}
    {es : List Happening} {a : Agenda Client Call}
    (h : Program.Schedule (Agenda.start (make address policy timeout)) es a) :
    a.shared.Sound ⟨address, policy⟩ a.now ∧
      ∀ (i : Nat) (x : Option String × Call), a.tasks[i]? = some x →
        x.2.Sound a.shared.hub a.now ⟨address, policy⟩ := by
  have hholds := h.keeps (sound_laws ⟨address, policy⟩ none) (by simp)
    ⟨by simp, ⟨sound_make address policy timeout 0, by simp [GivenAt]⟩, by simp [Agenda.start]⟩
  exact ⟨hholds.shared.1, hholds.task⟩

end Client
end ChainPoll

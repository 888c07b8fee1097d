import ChainPoll.Proofs.Client.Aborting
import ChainPoll.Proofs.Client.Shifting

/-!
# The one session of a client

As long as a client is not closed its signal stays pending and its one session open, and all
requests of all its calls are sent on that session.

Main results:

- Theorem {lit}`Client.single_laws`: what holds of a client before it is closed is kept by all that
  happens.
- Theorem {lit}`Client.oneSession_of_schedule`: all calls of a client use one session.
- Theorem {lit}`Client.open_of_schedule`: the hub of a client was open at all times before.
-/

namespace ChainPoll

/-! ## Requests on the first session -/

namespace Retry

variable {hub hub' : Hub} {timeout t : Time} {r r' : Retry}

/-- Whether all requests of a call were started on the first session. -/
def OnFirst (r : Retry) : Prop :=
  ∀ start ∈ r.starts, start.2.2 = 1

/-- A move over an open hub starts a request on the first session, if at all. -/
theorem OnFirst.moved (h : r.OnFirst) (hopen : hub.Open timeout)
    (hmoved : Moved hub r t hub' r') : r'.OnFirst := by
  cases hmoved with
  | landed hphase => exact fun start hstart => h start (starts_landed hphase t _ ▸ hstart)
  | rested hphase => exact fun start hstart => h start (starts_landed hphase t _ ▸ hstart)
  | @departed grid since url hphase _ _ =>
      intro start hstart
      simp only [starts, traceAt, Trace.addRequest, List.map_append, List.map_cons, List.map_nil,
        List.mem_append, List.mem_singleton, hopen.depart_eq] at hstart
      rcases hstart with hold | rfl
      · exact h start (by simpa only [starts, traceAt, hphase] using hold)
      · rfl
  | stopped hphase =>
      intro start hstart
      exact h start (by simpa only [starts, traceAt, hphase, Trace.addNotes] using hstart)

/-- The next move over an open hub starts a request on the first session, if at all. -/
theorem OnFirst.resume (h : r.OnFirst) (hopen : hub.Open timeout) : (r.resume hub).2.OnFirst := by
  cases hwake : r.wake hub with
  | none =>
      rw [resume_of_wake_eq_none hwake]
      exact h
  | some a => exact h.moved hopen (moved_resume hwake)

end Retry

namespace Hub

variable {hub hub' : Hub} {now : Time}

/-- A signal that is pending after a change was pending before. -/
theorem Follows.pending (h : hub.Follows now hub') (hpending : hub'.signal.givenAt = none) :
    hub.signal.givenAt = none := by
  rcases h.signal with hsame | hgiven
  · exact hsame.symm.trans hpending
  · rw [hgiven] at hpending
    simp at hpending

/-- A move leaves the time that an attempt has. -/
theorem Grown.timeout_eq (h : Grown now hub hub') : hub'.gateway.timeout = hub.gateway.timeout := by
  rcases h with rfl | ⟨url, answer, rfl⟩ <;> rfl

end Hub

namespace Call

variable {hub : Hub} {c : Call} {timeout t : Time}

/-- Whether all requests of a call were started on the first session. -/
def OnFirst (c : Call) : Prop :=
  ∀ start ∈ c.starts, start.2.2 = 1

/-- A call that ends after requests on the first session has started no others. -/
theorem EndedAfter.onFirst {requests : List Request} (h : c.EndedAfter t requests)
    (hrequests : ∀ start ∈ requests.map Request.start, start.2.2 = 1) : c.OnFirst := by
  rw [OnFirst, h.starts_eq]
  exact hrequests

/-- A call that goes on over an open hub starts its next request on the first session. -/
theorem onFirst_fetch (hopen : hub.Open timeout)
    (hrequests : ∀ start ∈ c.trace.requests.map Request.start, start.2.2 = 1) (now : Time) :
    (c.fetch hub now).2.OnFirst := by
  rcases c.fetch_cases hub now with ⟨-, -, hended⟩ |
    ⟨inner, url, answer, -, -, -, htrace, hphase, -, -, hstage⟩
  · exact hended.onFirst hrequests
  · intro start hstart
    simp only [starts, hstage, Retry.starts, Retry.traceAt, hphase, Trace.addRequest, htrace,
      List.map_append, List.map_cons, List.map_nil, List.mem_append, List.mem_singleton,
      hopen.depart_eq] at hstart
    rcases hstart with hold | rfl
    · exact hrequests start hold
    · rfl

/-- A call that begins over an open hub starts its first request on the first session. -/
theorem onFirst_begin (hopen : hub.Open timeout) (now : Time) (station : Station) (query : Query)
    (limits : Limits) (script : Script) :
    (begin hub now station query limits script).2.OnFirst := by
  rcases begin_cases hub now station query limits script with
    ⟨-, -, hended⟩ | ⟨c', -, hnone, hfetch⟩
  · exact hended.onFirst (by simp)
  · rw [hfetch]
    exact onFirst_fetch hopen (by simp [hnone]) now

/-- A move over an open hub starts requests on the first session, if at all. -/
theorem OnFirst.resume (h : c.OnFirst) (hopen : hub.Open timeout) : (c.resume hub).2.OnFirst := by
  cases hstage : c.stage with
  | ended endedAt outcome =>
      rw [resume_ended (by rw [outcome?, hstage]; rfl)]
      exact h
  | fetching inner =>
      have hinner : inner.OnFirst := by
        simp only [OnFirst, starts, hstage] at h
        exact h
      have hmoved := hinner.resume hopen
      have hopen' := Retry.open_resume hopen inner
      rcases resume_cases hub hstage with ⟨-, hresume⟩ | ⟨t, outcome, hended, hresume⟩
      · rw [hresume]
        exact hmoved
      · have hrequests : ∀ start ∈ (inner.resume hub).2.trace.requests.map Request.start,
            start.2.2 = 1 := by
          simpa only [Retry.OnFirst, Retry.starts, Retry.traceAt,
            Retry.phase_of_outcome? hended] using hmoved
        rw [hresume]
        rcases settle_cases (inner.resume hub).1 c (inner.resume hub).2 t outcome with
          ⟨-, -, hended'⟩ | ⟨c', -, htrace, hfetch⟩
        · exact hended'.onFirst hrequests
        · rw [hfetch]
          exact onFirst_fetch hopen' (htrace ▸ hrequests) t

/-- To cancel a call starts nothing. -/
theorem OnFirst.cancel (h : c.OnFirst) (t : Time) : (c.cancel t).OnFirst := by
  have hstarts : (c.cancel t).starts = c.starts := by
    cases hstage : c.stage with
    | fetching inner =>
        simp only [starts, Call.cancel, hstage]
        rfl
    | ended endedAt outcome => simp only [starts, Call.cancel, hstage]
  rwa [OnFirst, hstarts]

end Call

namespace Client

variable {client : Client} {station : Station} {timeout now : Time}

/-! ## Laws -/

/-- A client that was not closed has an open hub. -/
theorem Sound.open (h : client.Sound station now) (htimeout : client.hub.gateway.timeout = timeout)
    (hpending : client.hub.signal.givenAt = none) : client.hub.Open timeout :=
  ⟨hpending, htimeout, h.single hpending⟩

/-- What holds of a client that gives each attempt a certain time. -/
abbrev SoundFor (station : Station) (timeout now : Time) (client : Client) : Prop :=
  client.Sound station now ∧ client.hub.gateway.timeout = timeout

/-- What holds of a call of a client before the client is closed. -/
abbrev Carries (station : Station) (now : Time) (client : Client) (c : Call) : Prop :=
  c.Sound client.hub now station ∧ (client.hub.signal.givenAt = none → c.OnFirst)

/-- What holds of a client before it is closed, and of its calls, is kept by all that happens. -/
theorem single_laws (station : Station) (timeout : Time) :
    Program.Laws (fun _ : Happening => True) 0 (SoundFor station timeout)
      (fun _ now client (c : Call) => client.Carries station now c)
      (fun now client client' => client.hub.Follows now client'.hub) where
  due_ge _ hx hdue := hx.1.due_ge hdue
  bears _ hx hchange := ⟨hx.1.follows hchange, fun hpending => hx.2 (hchange.pending hpending)⟩
  begin := by
    rintro i now client ⟨hclient, htimeout⟩ _ order
    obtain ⟨hgrown, hsound⟩ := Call.sound_begin client.hub now station order.query
      (.within now order.span) order.script
    rw [← hclient.station_eq] at hgrown hsound
    refine ⟨⟨hclient.grown hgrown, hgrown.timeout_eq.trans htimeout⟩,
      ⟨hclient.station_eq ▸ hsound, fun hpending => ?_⟩, (hgrown.sound hclient.hub).2⟩
    have hopen := hclient.open htimeout (hgrown.signal_eq ▸ hpending)
    exact Call.onFirst_begin hopen now _ _ _ _
  command := by
    rintro now client ⟨hclient, htimeout⟩ command
    cases command with
    | close => exact ⟨⟨hclient.close, htimeout⟩, hclient.hub.close.2⟩
    | closed => exact ⟨⟨hclient, htimeout⟩, .refl now client.hub⟩
  cancel := by
    rintro i now client x - - ⟨hsound, hfirst⟩ -
    exact ⟨hsound.cancel, fun hpending => (hfirst hpending).cancel now⟩
  move := by
    rintro i now client x ⟨hclient, htimeout⟩ ⟨hsound, hfirst⟩ hdue
    obtain ⟨hgrown, hmoved⟩ := hsound.resume hdue
    refine ⟨⟨hclient.grown hgrown, hgrown.timeout_eq.trans htimeout⟩, ⟨hmoved, fun hpending => ?_⟩,
      (hgrown.sound hclient.hub).2⟩
    have hpending' : client.hub.signal.givenAt = none := hgrown.signal_eq ▸ hpending
    exact (hfirst hpending').resume (hclient.open htimeout hpending')
  pass hclient hle := ⟨hclient.1.mono hle, hclient.2⟩
  pass_task _ hx hle hdue := ⟨hx.1.pass hle hdue, hx.2⟩

/-! ## Schedules -/

/-- Whether all requests of all calls were started on the one session that was made. -/
def OneSession (a : Agenda Client Call) : Prop :=
  a.shared.hub.gateway.sessions.count ≤ 1 ∧
    ∀ (i : Nat) (x : Option String × Call), a.tasks[i]? = some x → x.2.OnFirst

section

variable {address : String} {policy : Policy} {es fs : List Happening} {a b : Agenda Client Call}
  (h : Program.Schedule (Agenda.start (make address policy timeout)) es a)

include h

/-- What holds of every client that a schedule leads to before it is closed, and of its calls. -/
theorem single_of_schedule :
    Program.Holds 0 (SoundFor ⟨address, policy⟩ timeout)
      (fun _ now client (c : Call) => client.Carries ⟨address, policy⟩ now c) a :=
  h.keeps (single_laws ⟨address, policy⟩ timeout) (by simp)
    ⟨by simp, ⟨sound_make address policy timeout 0, rfl⟩, by simp [Agenda.start]⟩

/-- All calls of a client that was not closed use one session. -/
theorem oneSession_of_schedule (hopen : a.shared.closed a.now = false) : OneSession a := by
  have hholds := single_of_schedule h
  have hpending := hholds.shared.1.pending hopen
  refine ⟨?_, fun i x hx => (hholds.task i x hx).2 hpending⟩
  rcases hholds.shared.1.single hpending with hnone | hone
  · simp [Sessions.count, hnone]
  · simp [Sessions.count, hone]

/-- The hub of a client is open as long as it is not closed later. -/
theorem open_of_schedule (hb : Program.Schedule a fs b) (hopen : b.shared.closed b.now = false) :
    a.shared.hub.Open timeout := by
  have hholds := single_of_schedule h
  refine hholds.shared.1.open hholds.shared.2 ?_
  cases hgiven : a.shared.hub.signal.givenAt with
  | none => rfl
  | some t =>
      -- a signal that was given stays so
      have hkept := hb.keeps (sound_laws ⟨address, policy⟩ (some t)) (by simp)
        ⟨Nat.zero_le _, ⟨hholds.shared.1, by simpa [GivenAt] using hgiven⟩,
          fun i x hx => (hholds.task i x hx).1⟩
      have hpending := hkept.shared.1.pending hopen
      simp [hkept.shared.2 t rfl] at hpending

end

end Client
end ChainPoll

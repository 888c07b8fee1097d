import ChainPoll.Proofs.Client.Reachable
import ChainPoll.Proofs.Retry.Closing

/-!
# Clients that were closed

After a client was closed nothing is to be started any more.  This holds unless a call is to make
its next attempt at the very instant of the closing: then the attempt goes before the closing,
although it comes after it, and makes a new session.

Main results:

- Theorem {lit}`Call.resume_of_quiet`: after the closing a quiet call ends with its next move and
  starts nothing.
- Theorem {lit}`Client.sealed_iff`: a closing seals a client exactly if no call is at a tick.
-/

namespace ChainPoll

namespace Call

variable {hub : Hub} {c : Call} {now t : Time} {station : Station}

/-! ## Calls after the closing -/

/-- Whether a call is to make its next attempt now. -/
def AtTick (hub : Hub) (now : Time) (c : Call) : Prop :=
  ∃ inner, c.stage = .fetching inner ∧ inner.AtTick hub now

instance (hub : Hub) (now : Time) (c : Call) : Decidable (c.AtTick hub now) :=
  match hstage : c.stage with
  | .fetching inner =>
    decidable_of_iff (inner.AtTick hub now)
      ⟨fun h => ⟨inner, hstage, h⟩, fun ⟨inner', hstage', h⟩ => by
        rw [hstage, Stage.fetching.injEq] at hstage'
        exact hstage' ▸ h⟩
  | .ended _ _ => .isFalse fun ⟨inner, hstage', _⟩ => by simp [hstage] at hstage'

/-- Whether a call that waits between two attempts does not wait for a tick to come. -/
def Quiet (hub : Hub) (c : Call) : Prop :=
  ∀ inner, c.stage = .fetching inner → inner.Quiet hub

/-- A call that has ended is quiet. -/
theorem EndedAfter.quiet {requests : List Request} (h : c.EndedAfter t requests) (hub : Hub) :
    c.Quiet hub := by
  intro inner hstage
  obtain ⟨outcome, houtcome⟩ := h.outcome
  simp [outcome?, hstage] at houtcome

/-- After the signal was given a call that is to go on ends. -/
theorem fetch_of_given (hgiven : hub.signal.given now = true) (c : Call) :
    (c.fetch hub now).1 = hub ∧ (c.fetch hub now).2.station = c.station ∧
      (c.fetch hub now).2.EndedAfter now c.trace.requests := by
  rcases c.fetch_cases hub now with hended | ⟨_, _, _, hopen, -⟩
  · exact hended
  · rw [hgiven] at hopen
    simp at hopen

/-- A call that begins after the signal was given ends at once and starts nothing. -/
theorem begin_of_given (hgiven : hub.signal.given now = true) (station : Station) (query : Query)
    (limits : Limits) (script : Script) :
    (begin hub now station query limits script).1 = hub ∧
      (begin hub now station query limits script).2.station = station ∧
      (begin hub now station query limits script).2.EndedAfter now [] := by
  rcases begin_cases hub now station query limits script with hended | ⟨c', hstation, hnone, hfetch⟩
  · exact hended
  · rw [hfetch, ← hnone, ← hstation]
    exact fetch_of_given hgiven c'

/-- After the signal was given a call ends when its inner call has ended. -/
theorem settle_of_given (hgiven : hub.signal.given t = true) (c : Call) (inner : Retry)
    (outcome : Except Fault (Option Payload)) :
    (c.settle hub inner t outcome).1 = hub ∧ (c.settle hub inner t outcome).2.station = c.station ∧
      (c.settle hub inner t outcome).2.EndedAfter t inner.trace.requests := by
  rcases settle_cases hub c inner t outcome with hended | ⟨c', hstation, hrequests, hfetch⟩
  · exact hended
  · rw [hfetch, ← hrequests, ← hstation]
    exact fetch_of_given hgiven c'

/-- What becomes of a call whose inner call ends with its next move. -/
theorem resume_of_ended {inner : Retry} {cause : Cause} (hstage : c.stage = .fetching inner)
    (hwake : inner.wake hub = some (t, cause))
    (hended : (inner.resume hub).2.outcome?.isSome = true) :
    ∃ outcome, (inner.resume hub).2.outcome? = some (t, outcome) ∧
      (inner.resume hub).2.trace.requests.map Request.start = inner.starts ∧
      c.resume hub = c.settle hub (inner.resume hub).2 t outcome := by
  have hmoved := Retry.moved_resume hwake
  obtain ⟨hhub, hstarts⟩ := hmoved.of_ended hended
  rcases resume_cases hub hstage with ⟨hrunning, -⟩ | ⟨u, outcome, houtcome, hresume⟩
  · rw [hrunning] at hended
    simp at hended
  · have hphase := Retry.phase_of_outcome? houtcome
    have hu : u = t := by
      have hbegan := hmoved.began_eq
      rwa [Retry.began, hphase] at hbegan
    refine ⟨outcome, hu ▸ houtcome, ?_, ?_⟩
    · rw [← hstarts]
      simp [Retry.starts, Retry.traceAt, hphase]
    · rw [hresume, hhub, hu]

/-- A call whose inner call ends by a fault with its next move ends by it. -/
theorem resume_of_fault {inner : Retry} {cause : Cause} {fault : Fault}
    (hstage : c.stage = .fetching inner) (hwake : inner.wake hub = some (t, cause))
    (hfault : (inner.resume hub).2.outcome? = some (t, .error fault)) :
    c.due hub = some t ∧ (c.resume hub).1 = hub ∧
      (c.resume hub).2.outcome? = some (t, .error fault) := by
  obtain ⟨outcome, hended, -, hresume⟩ := resume_of_ended hstage hwake (by rw [hfault]; rfl)
  rw [hfault, Option.some.injEq, Prod.mk.injEq] at hended
  refine ⟨by simp [due, hstage, hwake], ?_⟩
  rw [hresume, ← hended.2]
  exact ⟨rfl, (fail_spec _ _ _).1⟩

/-- After the closing a quiet call ends with its next move and starts nothing. -/
theorem resume_of_quiet (hgiven : hub.signal.given now = true) (hquiet : c.Quiet hub)
    (hdue : c.due hub = some now) :
    (c.resume hub).1 = hub ∧ (c.resume hub).2.station = c.station ∧
      (c.resume hub).2.starts = c.starts ∧
      ∃ requests, (c.resume hub).2.EndedAfter now requests := by
  obtain ⟨inner, cause, hstage, hwake⟩ := exists_wake_of_due hdue
  have hended := Retry.ended_of_quiet hgiven (hquiet inner hstage) hwake
  obtain ⟨outcome, -, hstarts, hresume⟩ := resume_of_ended hstage hwake hended
  obtain ⟨hhub, hstation, hafter⟩ := settle_of_given hgiven c (inner.resume hub).2 outcome
  rw [hresume]
  refine ⟨hhub, hstation, ?_, _, hafter⟩
  rw [hafter.starts_eq, hstarts, starts, hstage]

/-- A call whose next attempt is due starts it. -/
theorem starts_of_tick (h : c.Sound hub now station) (htick : c.AtTick hub now) :
    c.due hub = some now ∧ ∃ target, (c.resume hub).2.starts = c.starts ++ [(now, target)] := by
  obtain ⟨inner, hstage, hinner⟩ := htick
  obtain ⟨hrunning, target, hstarts⟩ := Retry.starts_of_tick (h.inner inner hstage).1 hinner
  refine ⟨by simp [due, hstage, hinner.2], target, ?_⟩
  rcases resume_cases hub hstage with ⟨-, hresume⟩ | ⟨_, _, hended, -⟩
  · simp only [hresume, starts, hstage]
    exact hstarts
  · rw [hrunning] at hended
    simp at hended

end Call

namespace Client

variable {client client' : Client} {hub : Hub} {station : Station} {now t : Time}

/-! ## Clients after the closing -/

/-- A client that was closed, with the hub that it has since. -/
structure Shut (station : Station) (hub : Hub) (now : Time) (client : Client) : Prop where
  station_eq : client.station = station
  hub_eq : client.hub = hub
  sound : hub.Sound now
  given : hub.signal.given now = true
  shut : hub.gateway.sessions.isOpen now = false

/-- A client that was just closed is shut. -/
theorem Sound.shut (h : client.Sound station now) :
    (client.close now).Shut station (client.hub.closed now) now :=
  ⟨h.station_eq, rfl, h.hub.close.1, client.hub.given_closed now,
    client.hub.gateway.sessions.isOpen_close now⟩

/-- A client that was closed stays shut. -/
theorem Shut.mono (h : client.Shut station hub now) (hle : now ≤ t) :
    client.Shut station hub t :=
  ⟨h.station_eq, h.hub_eq, h.sound.mono hle, Signal.given_mono h.given hle,
    Sessions.isOpen_mono h.shut hle⟩

/-- A client that was closed stays shut when its hub stays the same. -/
theorem Shut.of_hub_eq (h : client.Shut station hub now) (hhub : client'.hub = client.hub)
    (hstation : client'.station = client.station) : client'.Shut station hub now :=
  ⟨hstation.trans h.station_eq, hhub.trans h.hub_eq, h.sound, h.given, h.shut⟩

/-- Closing a client that was closed leaves its hub as it is. -/
theorem Shut.hub_close (h : client.Shut station hub now) : (client.close now).hub = client.hub := by
  rw [Client.hub_close, h.hub_eq, Hub.closed_eq_self h.given h.shut]

/-- The starts of all requests of the call at a position, of which none is at a free one. -/
def started (a : Agenda Client Call) (i : Nat) : List (Time × String × Nat) :=
  a.tasks[i]?.elim [] fun x => x.2.starts

/--
Whether nothing was started between two states: no request, and no session, of which none is open.
-/
structure Sealed (a b : Agenda Client Call) : Prop where
  started : ∀ i, started b i = started a i
  sessions : b.shared.hub.gateway.sessions.count = a.shared.hub.gateway.sessions.count
  single : b.shared.hub.gateway.sessions.count ≤ 1
  shut : b.shared.hub.gateway.sessions.isOpen b.now = false

/-- What holds of quiet calls after the closing is kept by all that happens. -/
theorem quiet_laws (station : Station) (hub : Hub) (a : Agenda Client Call) :
    Program.Laws (fun _ : Happening => True) a.tasks.length (Shut station hub)
      (fun i now client (c : Call) =>
        c.Sound client.hub now station ∧ c.Quiet client.hub ∧ c.starts = started a i)
      (fun _ client client' => client'.hub = client.hub) where
  due_ge _ hx hdue := hx.1.due_ge hdue
  bears _ hx hchange := hchange ▸ hx
  begin := by
    intro i now client hclient hi order
    have hgiven : client.hub.signal.given now = true := hclient.hub_eq ▸ hclient.given
    obtain ⟨hhub, hstation, hended⟩ := Call.begin_of_given hgiven client.station order.query
      (.within now order.span) order.script
    refine ⟨hclient.of_hub_eq hhub rfl, ⟨?_, hended.quiet _, ?_⟩, hhub⟩
    · exact hended.sound (hstation.trans hclient.station_eq)
    · have hfree : a.tasks[i]? = none := List.getElem?_eq_none hi
      rw [started, hfree]
      exact hended.starts_eq
  command := by
    intro now client hclient command
    cases command with
    | close => exact ⟨hclient.of_hub_eq hclient.hub_close rfl, hclient.hub_close⟩
    | closed => exact ⟨hclient, rfl⟩
  cancel := by
    intro i now client x _ hclient hx hended
    obtain ⟨hsound, hquiet, hstarts⟩ := hx
    obtain ⟨inner, hstage⟩ : ∃ inner, x.stage = .fetching inner := by
      cases hstage : x.stage with
      | fetching inner => exact ⟨inner, rfl⟩
      | ended endedAt outcome => simp [Timed.ended, Call.outcome?, hstage] at hended
    refine ⟨hsound.cancel, ?_, ?_⟩
    · intro inner' hstage'
      simp only [Timed.cancel, Call.cancel, hstage, Call.Stage.fetching.injEq] at hstage'
      rw [← hstage']
      exact Retry.quiet_cancel (hsound.inner inner hstage).1
    · rw [← hstarts]
      simp only [Timed.cancel, Call.starts, Call.cancel, hstage]
      rfl
  move := by
    intro i now client x hclient hx hdue
    obtain ⟨hsound, hquiet, hstarts⟩ := hx
    have hgiven : client.hub.signal.given now = true := hclient.hub_eq ▸ hclient.given
    obtain ⟨hhub, hstation, hkept, requests, hended⟩ := Call.resume_of_quiet hgiven hquiet hdue
    refine ⟨hclient.of_hub_eq hhub rfl, ⟨?_, hended.quiet _, hkept.trans hstarts⟩, hhub⟩
    exact hended.sound (hstation.trans hsound.station_eq)
  pass hclient hle := hclient.mono hle
  pass_task _ hx hle hdue := ⟨hx.1.pass hle hdue, hx.2⟩

/-- A hub with one session at most has one at most after it was closed. -/
theorem count_closed_le (hsingle : hub.Single) (hpending : hub.signal.givenAt = none) (now : Time) :
    (hub.closed now).gateway.sessions.count = hub.gateway.sessions.count ∧
      hub.gateway.sessions.count ≤ 1 := by
  refine ⟨Sessions.count_close _ now, ?_⟩
  rcases hsingle hpending with hnone | hone
  · simp [Sessions.count, hnone]
  · simp [Sessions.count, hone]

/-- The signal of a sound client that is open was not given. -/
theorem Sound.pending (h : client.Sound station now) (hopen : client.closed now = false) :
    client.hub.signal.givenAt = none := by
  cases hgiven : client.hub.signal.givenAt with
  | none => rfl
  | some t =>
      have hle : t ≤ now := h.hub.signal t hgiven
      simp [closed, Signal.given, hgiven, Time.reached, hle] at hopen

section

variable {a : Agenda Client Call} (hclient : a.shared.Sound station a.now)
  (htasks : ∀ (i : Nat) (x : Option String × Call), a.tasks[i]? = some x →
    x.2.Sound a.shared.hub a.now station)
  (hpending : a.shared.hub.signal.givenAt = none)

include hclient htasks hpending

/-- A call at a tick starts its next attempt after the closing. -/
theorem not_sealed_of_tick {x : Option String × Call} (hx : x ∈ a.tasks)
    (htick : x.2.AtTick a.shared.hub a.now) :
    ∃ (fs : List Happening) (b : Agenda Client Call),
      Program.Schedule (Program.order a .close) fs b ∧ ¬ Sealed a b := by
  obtain ⟨i, hi⟩ := List.getElem?_of_mem hx
  have hsound := htasks i x hi
  have hfollows := hclient.hub.close.2
  obtain ⟨inner, hstage, ⟨grid, since, hphase⟩, hwake⟩ := htick
  -- the tick is still due after the closing, because it goes before it
  have hlate := (Retry.wake_alarm_closed_iff (hsound.inner inner hstage).1 hclient.hub hpending
    hphase).mpr ⟨hwake, le_rfl⟩
  obtain ⟨hdue, target, hstarts⟩ := Call.starts_of_tick (hsound.follows hfollows)
    ⟨inner, hstage, ⟨grid, since, hphase⟩, hlate⟩
  have hdueAt : (Program.order a ClientCommand.close).dueAt i = some a.now := by
    simp only [Agenda.dueAt, Program.order, hi, Option.bind_some]
    exact hdue
  have hquiet : (Program.order a ClientCommand.close).QuietUntil a.now := by
    intro j u hu
    obtain ⟨y, hy, hydue⟩ := Option.bind_eq_some_iff.mp hu
    exact ((htasks j y hy).follows hfollows).due_ge hydue
  refine ⟨_, _, .snoc .nil (.move hdueAt hquiet), ?_⟩
  intro hsealed
  have hlength : i < a.tasks.length := (List.getElem?_eq_some_iff.mp hi).1
  have hmoved := hsealed.started i
  simp only [started, Agenda.resumeAt, Program.order, hi, Option.elim_some,
    List.getElem?_set_self hlength] at hmoved
  have hkept : (x.2.resume (a.shared.hub.closed a.now)).2.starts = x.2.starts := hmoved
  rw [hstarts] at hkept
  simp at hkept

/-- If no call is at a tick, nothing is started after the closing. -/
theorem sealed_of_no_tick (htick : ∀ x ∈ a.tasks, ¬ x.2.AtTick a.shared.hub a.now)
    {fs : List Happening} {b : Agenda Client Call}
    (hschedule : Program.Schedule (Program.order a .close) fs b) : Sealed a b := by
  have hstart : Program.Holds a.tasks.length (Shut station (a.shared.hub.closed a.now))
      (fun i now client (c : Call) => c.Sound client.hub now station ∧
        c.Quiet client.hub ∧ c.starts = started a i)
      (Program.order a ClientCommand.close) := by
    refine ⟨le_rfl, hclient.shut, ?_⟩
    intro i x hi
    have hi' : a.tasks[i]? = some x := hi
    have hsound := htasks i x hi'
    refine ⟨hsound.follows hclient.hub.close.2, ?_, by simp [started, hi']⟩
    intro inner hstage
    refine (Retry.quiet_closed_iff (hsound.inner inner hstage).1 hclient.hub hpending).mpr ?_
    intro hinner
    exact htick x (List.mem_of_getElem? hi') ⟨inner, hstage, hinner⟩
  have hholds := hschedule.keeps (quiet_laws _ _ a) (by simp) hstart
  obtain ⟨hcount, hle⟩ := count_closed_le hclient.single hpending a.now
  have hhub := hholds.shared.hub_eq
  refine ⟨?_, by rw [hhub, hcount], by rw [hhub, hcount]; exact hle, ?_⟩
  · intro i
    rcases Nat.lt_or_ge i b.tasks.length with hi | hi
    · have hget : b.tasks[i]? = some b.tasks[i] := List.getElem?_eq_getElem hi
      rw [started, hget]
      exact (hholds.task i _ hget).2.2
    · rw [started, started, List.getElem?_eq_none hi,
        List.getElem?_eq_none (hholds.base_le.trans hi)]
  · rw [hhub]
    exact hholds.shared.shut

end

/--
A closing seals a client exactly if no call is to make its next attempt at that very instant:
whatever happens afterwards, no call starts a request, and no session is made.  There was one
session at most then, and none is open.
-/
theorem sealed_iff {address : String} {policy : Policy} {timeout : Time} {es : List Happening}
    {a : Agenda Client Call}
    (h : Program.Schedule (Agenda.start (make address policy timeout)) es a)
    (hopen : a.shared.closed a.now = false) :
    (∀ (fs : List Happening) (b : Agenda Client Call),
        Program.Schedule (Program.order a .close) fs b → Sealed a b) ↔
      ∀ x ∈ a.tasks, ¬ x.2.AtTick a.shared.hub a.now := by
  obtain ⟨hclient, htasks⟩ := sound_of_schedule h
  have hpending := hclient.pending hopen
  constructor
  · intro hsealed x hx htick
    obtain ⟨fs, b, hschedule, hbroken⟩ := not_sealed_of_tick hclient htasks hpending hx htick
    exact hbroken (hsealed fs b hschedule)
  · intro htick fs b hschedule
    exact sealed_of_no_tick hclient htasks hpending htick hschedule

/-- A client with one call whose first attempt is under way, and fails at once. -/
def starting : Agenda Client Call :=
  Program.begin (Agenda.start (make "http://h" ⟨1, 1⟩ 5)) none
    ⟨.checkpoint, none,
      ⟨.reply (.lasting 0) 500 (.lasting 0) (.ok .empty),
        [.reply (.lasting 0) 204 (.lasting 0) (.ok .empty)]⟩⟩

/-- The same client when the second attempt of its call is due. -/
def racing : Agenda Client Call :=
  { starting.resumeAt 0 0 with now := 1 }

/-- Closing the racing client does not seal it: its call starts another request afterwards. -/
theorem racing_not_sealed :
    racing.shared.closed racing.now = false ∧
      (∃ x ∈ racing.tasks, x.2.AtTick racing.shared.hub racing.now) ∧
      ∃ (fs : List Happening) (b : Agenda Client Call),
        Program.Schedule (Program.order racing .close) fs b ∧ ¬ Sealed racing b := by
  have hopen : racing.shared.closed racing.now = false := by decide +kernel
  have htick : ∃ x ∈ racing.tasks, x.2.AtTick racing.shared.hub racing.now := by decide +kernel
  have hfirst : starting.next? = some (0, 0) := by decide +kernel
  have hsecond : (starting.resumeAt 0 0).next? = some (1, 0) := by decide +kernel
  obtain ⟨hdue, hquiet⟩ := Agenda.due_of_next? hfirst
  have hpass : (starting.resumeAt 0 0).now ≤ 1 := by decide +kernel
  have hmove : Program.Happens starting (.move 0 : Happening) (starting.resumeAt 0 0) :=
    .move hdue hquiet
  have hlate : Program.Happens (starting.resumeAt 0 0) (.pass 1 : Happening) racing :=
    .pass hpass (Agenda.due_of_next? hsecond).2
  have hiff :=
    sealed_iff (((Program.Schedule.nil.snoc (.begin none _)).snoc hmove).snoc hlate) hopen
  refine ⟨hopen, htick, ?_⟩
  by_contra hsealed
  obtain ⟨x, hx, hxtick⟩ := htick
  refine hiff.mp ?_ x hx hxtick
  intro fs b hschedule
  by_contra hbroken
  exact hsealed ⟨fs, b, hschedule, hbroken⟩

end Client
end ChainPoll

import ChainPoll.Proofs.Timeline.Tasks
import ChainPoll.Proofs.Transport.Sessions
import ChainPoll.Transport.Transfer

/-!
# Requests over shared sessions

However requests over a gateway, their cancellations and the commands to the gateway follow each
other: at most one session is open, one is made exactly when it is used while none is open, and a
request runs on the session that is open when it starts.  The response of each request is released
once, when its task ends, whatever ends it.

Main results:

- Theorem {lit}`Transfer.orderly`: requests are orderly tasks.
- Theorem {lit}`Transfer.shares`: what becomes of the sessions in each event.
- Theorem {lit}`Transfer.released_perm`: the requests that were released are those that are over.
- Theorem {lit}`Transfer.carried`: what comes of a request.
- Theorem {lit}`Gateway.transfers`: all of it, on every schedule.
-/

namespace ChainPoll

/-! ## The course of an exchange -/

/--
A pause is not over, nor cut off, before it begins, and a pause that is over ends by the cutoff.
-/
theorem Pause.le_of_arrival {pause : Pause} {start t : Time} {cutoff : Option Time}
    (hcutoff : ∀ c, cutoff = some c → start ≤ c) :
    (pause.arrival start cutoff = .reached t →
        start ≤ t ∧ ∀ c, cutoff = some c → t ≤ c) ∧
      (pause.arrival start cutoff = .cutOff t → start ≤ t) := by
  cases pause with
  | endless =>
      cases cutoff with
      | none => simp [arrival]
      | some c =>
          simp only [arrival, reduceCtorEq, false_imp_iff, true_and, Arrival.cutOff.injEq]
          exact fun h => h ▸ hcutoff c rfl
  | lasting span =>
      by_cases hspan : span ≤ 0
      · simp only [arrival, hspan, if_true, Arrival.reached.injEq, reduceCtorEq, false_imp_iff,
          and_true]
        rintro rfl
        exact ⟨le_rfl, hcutoff⟩
      · have hlate : start ≤ start + span := le_add_of_nonneg_right (not_le.mp hspan).le
        cases cutoff with
        | none =>
            simp only [arrival, hspan, if_false, Arrival.reached.injEq, reduceCtorEq,
              false_imp_iff, and_true]
            rintro rfl
            exact ⟨hlate, by simp⟩
        | some c =>
            by_cases hcut : c < start + span
            · simp only [arrival, hspan, hcut, if_true, if_false, reduceCtorEq, false_imp_iff,
                true_and, Arrival.cutOff.injEq]
              exact fun h => h ▸ hcutoff c rfl
            · simp only [arrival, hspan, hcut, if_false, Arrival.reached.injEq, reduceCtorEq,
                false_imp_iff, and_true]
              rintro rfl
              refine ⟨hlate, fun d hd => ?_⟩
              exact Option.some.inj hd ▸ not_lt.mp hcut

namespace Answer

variable {answer : Answer} {start t : Time} {cutoff : Option Time} {result : Except Fault Body}

/-- A course without a body lands when its pause is over or cut off. -/
theorem landing_bare {arrival : Arrival} {other : Except Fault Body}
    (h : (Course.bare arrival other).landing = some (t, result)) :
    arrival = .reached t ∨ arrival = .cutOff t := by
  cases arrival with
  | reached u => exact .inl (congrArg _ (Prod.mk.inj (Option.some.inj h)).1)
  | cutOff u => exact .inr (congrArg _ (Prod.mk.inj (Option.some.inj h)).1)
  | never => simp [Course.bare] at h

/-- An exchange does not land before its start. -/
theorem le_of_landing (hcutoff : ∀ c, cutoff = some c → start ≤ c)
    (h : (answer.course start cutoff).landing = some (t, result)) : start ≤ t := by
  have hbare {pause : Pause} {other : Except Fault Body} {begun : Time}
      (hbegun : ∀ c, cutoff = some c → begun ≤ c)
      (h : (Course.bare (pause.arrival begun cutoff) other).landing = some (t, result)) :
      begun ≤ t := by
    rcases landing_bare h with harrival | harrival
    · exact ((Pause.le_of_arrival hbegun).1 harrival).1
    · exact (Pause.le_of_arrival hbegun).2 harrival
  cases answer with
  | failure delay fault => exact hbare hcutoff h
  | reply delay status readDelay body =>
      simp only [course] at h
      split at h
      · next u hreached =>
        obtain ⟨hstart, hbegun⟩ := (Pause.le_of_arrival hcutoff).1 hreached
        split at h
        · exact hbare hcutoff h
        · split at h
          · exact hstart.trans (hbare hbegun h)
          · exact hbare hcutoff h
      · exact hbare hcutoff h

/--
The body of an answer is read only if its status tells of a success, from when that arrived on.
-/
theorem exists_of_readAt (h : (answer.course start cutoff).readAt = some t) :
    ∃ delay readDelay body, answer = .reply delay 200 readDelay body ∧
      delay.arrival start cutoff = .reached t := by
  have hbare (arrival : Arrival) (other : Except Fault Body) :
      (Course.bare arrival other).readAt = none := by cases arrival <;> rfl
  cases answer with
  | failure delay fault => simp [course, hbare] at h
  | reply delay status readDelay body =>
      simp only [course] at h
      split at h
      · next u hreached =>
        split at h
        · simp [hbare] at h
        · split at h
          · next hstatus =>
            subst hstatus
            have htime : u = t := Option.some.inj h
            exact ⟨delay, readDelay, body, rfl, htime ▸ hreached⟩
          · simp [hbare] at h
      · simp [hbare] at h

end Answer

namespace Transfer

/-- The requests over a gateway. -/
abbrev Transfers : Type := Agenda Gateway (Task Flight Delivery)

/-- What can happen to them. -/
abbrev Happening : Type := Program.Happening Posting GatewayCommand

variable {a b c : Transfers} {g g' : Gateway} {now t timeout : Time} {flight : Flight}
  {result : Except Fault Body} {es fs gs : List Happening} {name : Option String}
  {posting : Posting}

/-! ## The end of a request -/

/--
When and how a request ends of itself whose session is closed at an instant, if ever.  At one
instant its answer goes first.
-/
inductive Ends (flight : Flight) (closing : Option Time) : Time → Except Fault Body → Prop where
  | landed {t : Time} {result : Except Fault Body}
      (hlanding : flight.course.landing = some (t, result))
      (hclosing : ∀ u, closing = some u → t ≤ u) : Ends flight closing t result
  | closed {t : Time} (hclosing : closing = some t)
      (hlanding : ∀ u result, flight.course.landing = some (u, result) → t < u) :
      Ends flight closing t (.error .connectionClosed)

/-- The wait of a request that takes no time is over when it starts. -/
theorem wake_of_settled (hsettled : flight.settled = true) :
    (Task.waitOf g flight none).wake = some (flight.startedAt, .alarm) := by
  have hwait : Task.waitOf g flight none =
      .within .none flight.startedAt (some flight.startedAt) none := by
    simp [Task.waitOf, Awaited.wait, flight.wait_of_settled hsettled, Wait.within, Limits.none]
  rw [hwait]
  refine (Wait.wake_undisturbed_iff rfl rfl ?_ ?_).mpr (.inl ⟨rfl, rfl, ?_⟩) <;>
    simp [Wait.within]

/-- A request that takes no time ends when it starts, as its answer says. -/
theorem ends_iff_of_settled (hsettled : flight.settled = true)
    (hclosing : ∀ u, g.sessions.closingOf flight.session = some u → flight.startedAt ≤ u) :
    Ends flight (g.sessions.closingOf flight.session) t result ↔
      t = flight.startedAt ∧ result = flight.outcome .alarm := by
  obtain ⟨⟨u, other⟩, hland, hstart⟩ := (Option.any_eq_true _ _).mp hsettled
  obtain rfl : u = flight.startedAt := by simpa using hstart
  simp only [Flight.outcome, hland]
  constructor
  · rintro (⟨hlanded, -⟩ | ⟨hclosed, hbefore⟩)
    · obtain ⟨rfl, rfl⟩ := Prod.mk.inj (Option.some.inj (hland.symm.trans hlanded))
      exact ⟨rfl, rfl⟩
    · exact absurd (hclosing t hclosed) (not_le.mpr (hbefore _ _ hland))
  · rintro ⟨rfl, rfl⟩
    exact .landed hland hclosing

/-- The wait of a request is over exactly when the request ends of itself. -/
theorem ends_iff_wake
    (hlanding : ∀ u other, flight.course.landing = some (u, other) → flight.startedAt ≤ u)
    (hclosing : ∀ u, g.sessions.closingOf flight.session = some u → flight.startedAt ≤ u) :
    Ends flight (g.sessions.closingOf flight.session) t result ↔
      ∃ cause, (Task.waitOf g flight none).wake = some (t, cause) ∧
        result = flight.outcome cause := by
  cases hsettled : flight.settled with
  | true =>
      rw [ends_iff_of_settled hsettled hclosing, wake_of_settled hsettled]
      constructor
      · rintro ⟨rfl, rfl⟩
        exact ⟨.alarm, rfl, rfl⟩
      · rintro ⟨cause, heq, rfl⟩
        obtain ⟨rfl, rfl⟩ := Prod.mk.inj (Option.some.inj heq)
        exact ⟨rfl, rfl⟩
  | false =>
      have hwait : Task.waitOf g flight none = .within .none flight.startedAt
          (flight.course.landing.map (·.1)) (g.sessions.closingOf flight.session) := by
        simp [Task.waitOf, Awaited.wait, Flight.wait, hsettled, Wait.within, Limits.none]
      have halarm : ∀ u, flight.course.landing.map (·.1) = some u → flight.startedAt ≤ u := by
        intro u hu
        obtain ⟨⟨_, other⟩, hland, rfl⟩ := Option.map_eq_some_iff.mp hu
        exact hlanding _ other hland
      rw [hwait]
      have hwake : ∀ cause, (Wait.within .none flight.startedAt
          (flight.course.landing.map (·.1)) (g.sessions.closingOf flight.session)).wake =
            some (t, cause) ↔ _ :=
        fun _ => Wait.wake_undisturbed_iff rfl rfl halarm hclosing
      constructor
      · rintro (⟨hlanded, hbefore⟩ | ⟨hclosed, hbefore⟩)
        · refine ⟨.alarm, (hwake _).mpr (.inl ⟨rfl, ?_, hbefore⟩),
            by simp [Flight.outcome, hlanded]⟩
          simp [Wait.within, hlanded]
        · refine ⟨.closing, (hwake _).mpr (.inr ⟨rfl, hclosed, ?_⟩), rfl⟩
          intro u hu
          obtain ⟨⟨_, other⟩, hland, rfl⟩ := Option.map_eq_some_iff.mp hu
          exact hbefore _ other hland
      · rintro ⟨cause, h, rfl⟩
        rcases (hwake cause).mp h with ⟨rfl, hlanded, hbefore⟩ | ⟨rfl, hclosed, hbefore⟩
        · obtain ⟨⟨_, other⟩, hland, rfl⟩ := Option.map_eq_some_iff.mp hlanded
          simp only [Flight.outcome, hland]
          exact .landed hland hbefore
        · refine .closed hclosed fun u other hland => ?_
          exact hbefore u (by simp [Wait.within, hland])

/-! ## Requests as tasks -/

/-- What strikes requests is that their session is closed. -/
theorem strikesNow (h : ∀ n, g'.sessions.closingOf n = g.sessions.closingOf n ∨
      g.sessions.closingOf n = none ∧ g'.sessions.closingOf n = some now) :
    Task.StrikesNow Flight now g g' := by
  intro flight
  simp only [Awaited.wait, Flight.wait]
  split
  · exact .inl rfl
  · rcases h flight.session with heq | ⟨hopen, hclosed⟩
    · exact .inl (by rw [heq])
    · exact .inr ⟨hopen, by rw [hclosed]; rfl⟩

/-- Requests over a gateway are orderly tasks. -/
theorem orderly (timeout : Time) :
    Task.Orderly (ω := Flight) (α := Delivery)
      fun now (g : Gateway) => g.timeout = timeout ∧ g.sessions.Sound now where
  timed := rfl
  finish_fst hs _ _ _ := hs
  finish_wait _ _ _ _ _ := rfl
  finish_snd _ _ _ _ _ := rfl
  begin := by
    rintro now g ⟨htimeout, hsound⟩ posting
    refine ⟨⟨htimeout, hsound.acquire⟩, Task.upcoming_of_since ?_, strikesNow fun n => ?_⟩
    · simp only [Awaited.wait, Flight.wait]
      split <;> rfl
    · exact .inl (Sessions.closingOf_acquire _ _ _)
  command := by
    rintro now g ⟨htimeout, hsound⟩ command
    cases command with
    | session =>
        refine ⟨⟨htimeout, hsound.acquire⟩, strikesNow fun n => ?_⟩
        exact .inl (Sessions.closingOf_acquire _ _ _)
    | close =>
        refine ⟨⟨htimeout, hsound.close⟩, strikesNow fun n => ?_⟩
        have hclosing := Sessions.closingOf_close g.sessions now n
        split at hclosing
        · next hlast =>
          refine .inr ⟨?_, hclosing⟩
          have hnone := hsound.closingOf_of_isOpen hlast.1
          simpa [Sessions.closingOf, ← hlast.2] using hnone
        · exact .inl hclosing
  pass hs hle := ⟨hs.1, hs.2.mono hle⟩

/-- On every schedule the sessions are sound, and no request is due in the past. -/
theorem standing_of_schedule (h : Program.Schedule (Agenda.start (Gateway.fresh timeout)) es a) :
    Program.Holds 0 (fun now (g : Gateway) => g.timeout = timeout ∧ g.sessions.Sound now)
      (fun _ now g (x : Task Flight Delivery) => x.Upcoming g now) a := by
  refine h.keeps (orderly timeout).standing_laws (by simp) ⟨Nat.zero_le _, ⟨rfl, ?_⟩, ?_⟩
  · exact Sessions.sound_none _
  · intro i x hx
    simp [Agenda.start] at hx

/-! ## Sessions in each event -/

/-- Whether something uses a session. -/
def uses : Happening → Bool
  | .begin _ _ | .command .session => true
  | _ => false

/-- Whether something closes the session. -/
def closes : Happening → Bool
  | .command .close => true
  | _ => false

/-- What becomes of the sessions in an event. -/
structure Shares (a : Transfers) (e : Happening) (b : Transfers) : Prop where
  /-- A session is made exactly if one is used while none is open. -/
  count : b.shared.sessions.count =
    if uses e = true ∧ a.shared.sessions.isOpen a.now = false then a.shared.sessions.count + 1
    else a.shared.sessions.count
  /-- After a use one is open, after a closing none, and else one is if it was before. -/
  isOpen : b.shared.sessions.isOpen b.now =
    (uses e || (!closes e && a.shared.sessions.isOpen a.now))
  /-- A closing closes the session that is open, and nothing else closes any. -/
  closingOf : ∀ n, 1 ≤ n → n ≤ a.shared.sessions.count →
    b.shared.sessions.closingOf n =
      if closes e = true ∧ n = a.shared.sessions.count ∧ a.shared.sessions.isOpen a.now = true then
        some a.now
      else a.shared.sessions.closingOf n

/-- What uses no session and closes none leaves them as they are. -/
theorem Shares.of_eq {e : Happening} (huses : uses e = false) (hcloses : closes e = false)
    (hsound : a.shared.sessions.Sound a.now) (hshared : b.shared.sessions = a.shared.sessions)
    (hnow : a.now ≤ b.now) : Shares a e b where
  count := by simp [huses, hshared]
  isOpen := by simp [huses, hcloses, hshared, hsound.isOpen_eq hnow]
  closingOf := by simp [hcloses, hshared]

/-- What uses a session acquires it. -/
theorem Shares.of_acquire {e : Happening} (huses : uses e = true) (hcloses : closes e = false)
    (hshared : b.shared.sessions = (a.shared.sessions.acquire a.now).2) (hnow : b.now = a.now) :
    Shares a e b where
  count := by
    rw [hshared, Sessions.count_acquire]
    cases hopen : a.shared.sessions.isOpen a.now <;> simp [huses]
  isOpen := by simp [huses, hshared, hnow, Sessions.acquire_open]
  closingOf := by simp [hcloses, hshared, Sessions.closingOf_acquire]

/-- What becomes of the sessions in every event. -/
theorem shares {e : Happening} (hsound : a.shared.sessions.Sound a.now)
    (h : Program.Happens a e b) : Shares a e b := by
  have hnow := h.now_le
  have hframe : ∀ i, e = .cancel i ∨ e = .move i → b.shared.sessions = a.shared.sessions := by
    intro i hi
    rcases ((orderly a.shared.timeout).frame hi h).1 with heq | ⟨_, _, _, heq⟩
    · rw [heq]
    · rw [heq]
      rfl
  cases h with
  | begin name posting => exact .of_acquire rfl rfl rfl rfl
  | cancel i => exact .of_eq rfl rfl hsound (hframe i (.inl rfl)) hnow
  | @move i t _ _ => exact .of_eq rfl rfl hsound (hframe i (.inr rfl)) hnow
  | pass _ _ => exact .of_eq rfl rfl hsound rfl hnow
  | command command =>
      cases command with
      | session => exact .of_acquire rfl rfl rfl rfl
      | close =>
          refine ⟨Sessions.count_close _ _, Sessions.isOpen_close _ _, fun n hn hcount => ?_⟩
          have hclosing := Sessions.closingOf_close a.shared.sessions a.now n
          rw [show n - 1 + 1 = n by omega] at hclosing
          exact hclosing.trans (by simp [closes, and_comm])

/-! ## Responses in each event -/

/--
What is delivered when a request is over: it is released then, and its body was read from its course
on.
-/
def delivered (flight : Flight) (t : Time) (result : Except Fault Body) : Delivery where
  request :=
    { startedAt := flight.startedAt
      url := flight.url
      session := flight.session
      read := Time.reached t flight.course.readAt
      endedAt := t }
  result

/-- What comes of a request that a cause ends is what is delivered. -/
theorem finish_eq (g : Gateway) (flight : Flight) (t : Time) (cause : Cause) :
    Awaited.finish g flight t cause =
      (g.release (delivered flight t (flight.outcome cause)).request,
      delivered flight t (flight.outcome cause)) := rfl

/-- The request of a task that is over. -/
def over? : Task Flight Delivery → Option Request
  | .waiting _ _ => none
  | .ended _ delivery => some delivery.request

/-- The requests that are over. -/
def finished (a : Transfers) : List Request :=
  a.tasks.filterMap fun x => over? x.2

/-- What becomes of the responses in an event. -/
structure Releases (a : Transfers) (e : Happening) (b : Transfers) : Prop where
  /-- The move of a task ends its request, whose response is released then. -/
  moved : ∀ i, e = .move i → ∃ name flight cancelAt result,
    a.tasks[i]? = some (name, .waiting flight cancelAt) ∧
      b.tasks = a.tasks.set i (name, .ended b.now (delivered flight b.now result)) ∧
      b.shared.released = a.shared.released ++ [(delivered flight b.now result).request]
  /-- Nothing else ends a request or releases a response. -/
  kept : (∀ i, e ≠ .move i) → finished b = finished a ∧ b.shared.released = a.shared.released

/-- The cancellation of a task ends no request. -/
theorem finished_cancel (i : Nat) : finished (a.cancel i).2 = finished a := by
  have hover : ∀ (tasks : List (Option String × Task Flight Delivery)) (i : Nat),
      (tasks.modify i fun x => (x.1, Timed.cancel (σ := Gateway) a.now x.2)).filterMap
          (fun x => over? x.2) = tasks.filterMap fun x => over? x.2 := by
    intro tasks
    induction tasks with
    | nil => simp
    | cons x tasks ih =>
        intro i
        cases i with
        | zero => obtain ⟨name, x | x⟩ := x <;> rfl
        | succ i => simp only [List.modify_succ_cons, List.filterMap_cons, ih i]
  unfold Agenda.cancel
  split
  · rfl
  · exact hover a.tasks i

/-- What becomes of the responses in every event. -/
theorem releases {e : Happening}
    (ha : Program.Holds 0 (fun now (g : Gateway) => g.timeout = timeout ∧ g.sessions.Sound now)
      (fun _ now g (x : Task Flight Delivery) => x.Upcoming g now) a)
    (h : Program.Happens a e b) : Releases a e b where
  moved := by
    rintro i rfl
    obtain ⟨name, flight, cancelAt, cause, hx, hshared, htasks⟩ :=
      (orderly timeout).exists_of_move ha h
    refine ⟨name, flight, cancelAt, flight.outcome cause, hx, htasks, ?_⟩
    rw [hshared, finish_eq]
    rfl
  kept := by
    intro he
    cases h with
    | begin name posting =>
        refine ⟨?_, rfl⟩
        simp [finished, Program.begin, Agenda.begin, Served.begin, begin, over?]
    | command command => cases command <;> exact ⟨rfl, rfl⟩
    | cancel i =>
        refine ⟨finished_cancel i, ?_⟩
        unfold Agenda.cancel
        split <;> rfl
    | move hdue hquiet => exact absurd rfl (he _)
    | pass _ _ => exact ⟨rfl, rfl⟩

/-- A task that has ended adds its request to those that are over. -/
theorem finished_set {tasks : List (Option String × Task Flight Delivery)} {i : Nat}
    {cancelAt : Option Time} {delivery : Delivery}
    (h : tasks[i]? = some (name, .waiting flight cancelAt)) :
    ((tasks.set i (name, .ended t delivery)).filterMap fun x => over? x.2).Perm
      ((tasks.filterMap fun x => over? x.2) ++ [delivery.request]) := by
  induction tasks generalizing i with
  | nil => simp at h
  | cons x tasks ih =>
      cases i with
      | zero =>
          obtain rfl : x = (name, .waiting flight cancelAt) := by simpa using h
          have hswap := List.perm_append_singleton delivery.request
            (tasks.filterMap fun x => over? x.2)
          simpa [over?] using hswap.symm
      | succ i =>
          have hrest := ih (i := i) (by simpa using h)
          simp only [List.set_cons_succ, List.filterMap_cons]
          cases over? x.2 with
          | none => exact hrest
          | some request => exact hrest.cons request

/-- The requests whose responses were released are those that are over, each of them once. -/
theorem released_perm (h : Program.Schedule (Agenda.start (Gateway.fresh timeout)) es a) :
    a.shared.released.Perm (finished a) := by
  induction h with
  | nil => exact .refl _
  | @snoc es a b e h he ih =>
      have hreleases := releases (standing_of_schedule h) he
      by_cases hmove : ∃ i, e = .move i
      · obtain ⟨i, rfl⟩ := hmove
        obtain ⟨name, flight, cancelAt, result, hx, htasks, hreleased⟩ := hreleases.moved i rfl
        rw [hreleased, finished, htasks]
        exact (ih.append_right _).trans (finished_set hx).symm
      · obtain ⟨hfinished, hreleased⟩ := hreleases.kept fun i hi => hmove ⟨i, hi⟩
        rw [hfinished, hreleased]
        exact ih

/-- A session that is closed stays so, and one that is open is closed later, if ever. -/
theorem closingOf_of_schedule
    (ha : Program.Holds 0 (fun now (g : Gateway) => g.timeout = timeout ∧ g.sessions.Sound now)
      (fun _ now g (x : Task Flight Delivery) => x.Upcoming g now) a)
    (hschedule : Program.Schedule a fs b) {n : Nat} (hn : 1 ≤ n)
    (hcount : n ≤ a.shared.sessions.count) :
    a.now ≤ b.now ∧ n ≤ b.shared.sessions.count ∧
      (∀ t, a.shared.sessions.closingOf n = some t → b.shared.sessions.closingOf n = some t) ∧
      ∀ t, a.shared.sessions.closingOf n = none → b.shared.sessions.closingOf n = some t →
        a.now ≤ t := by
  induction hschedule with
  | nil => exact ⟨le_rfl, hcount, fun t ht => ht, fun t hnone ht => by simp [hnone] at ht⟩
  | @snoc fs b c e hschedule he ih =>
      obtain ⟨hnow, hcount, hkept, hlate⟩ := ih
      have hsound := (hschedule.keeps (orderly timeout).standing_laws (by simp) ha).shared.2
      have hshares := shares hsound he
      have hclosing := hshares.closingOf n hn hcount
      refine ⟨hnow.trans he.now_le, ?_, fun t ht => ?_, fun t hnone ht => ?_⟩
      · rw [hshares.count]
        split <;> omega
      · rw [hclosing, if_neg]
        · exact hkept t ht
        · rintro ⟨-, rfl, hopen⟩
          have hopen := hsound.closingOf_of_isOpen hopen
          simp [hkept t ht] at hopen
      · rw [hclosing] at ht
        split at ht
        · exact Option.some.inj ht ▸ hnow
        · exact hlate t hnone ht

/-! ## A request among others -/

/-- The exchange of a request that starts now. -/
def sent (a : Transfers) (posting : Posting) : Flight :=
  (a.shared.depart a.now posting.url posting.script.head).1

/-- A request takes the position after all others. -/
theorem taskAt_begin : Program.taskAt (Program.begin a name posting) a.tasks.length =
    some (.waiting (sent a posting) none) := by
  simp [Program.taskAt, Program.begin, Agenda.begin, Served.begin, begin, sent]

/-- A request runs on the session that is open when it starts. -/
theorem openAt_sent (hsound : a.shared.sessions.Sound a.now) :
    (Program.begin a name posting).shared.sessions.OpenAt a.now (sent a posting).session := by
  have hacquire := Sessions.acquire_open a.shared.sessions a.now
  exact (hsound.acquire).openAt_iff.mpr ⟨hacquire.2, hacquire.1⟩

/-- The cutoff of an attempt is not before its start. -/
theorem le_cutoff {c : Time} (h : g.cutoff now = some c) : now ≤ c := by
  unfold Connector.cutoff at h
  split at h
  · next hpos => exact Option.some.inj h ▸ le_add_of_nonneg_right hpos.le
  · simp at h

/-- The wait of a request begins when the request starts. -/
theorem begun_sent (hsound : a.shared.sessions.Sound a.now) :
    Task.Begun (sent a posting) a.now (Program.begin a name posting).shared := by
  have hsince : ∀ g : Gateway, (Awaited.wait g (sent a posting)).since = a.now := by
    intro g
    simp only [Awaited.wait, Flight.wait]
    split <;> rfl
  refine ⟨(hsince _).le, fun u hu => ?_⟩
  obtain ⟨-, -, hopen⟩ : (Program.begin a name posting).shared.sessions.OpenAt a.now
      (sent a posting).session := openAt_sent hsound
  have hclosing : (Program.begin a name posting).shared.sessions.closingOf
      (sent a posting).session = some u := by
    simp only [Awaited.wait, Flight.wait] at hu
    split at hu
    · simp [Wait.within] at hu
    · exact hu
  rw [hsince]
  simp only [hclosing, Time.reached, decide_eq_false_iff_not, not_le] at hopen
  exact hopen.le

/-- The answer of a request that starts now does not come before. -/
theorem le_of_landing {u : Time} {other : Except Fault Body}
    (h : (sent a posting).course.landing = some (u, other)) : (sent a posting).startedAt ≤ u :=
  Answer.le_of_landing (fun _ => le_cutoff) h

/-- The session of a request is closed after its start, if ever. -/
theorem le_of_closingOf (h : Program.Schedule (Agenda.start (Gateway.fresh timeout)) es a)
    (hschedule : Program.Schedule (Program.begin a name posting) fs b) {u : Time}
    (hu : b.shared.sessions.closingOf (sent a posting).session = some u) : a.now ≤ u := by
  have hstanding := standing_of_schedule (h.snoc (.begin name posting))
  have hsound := (standing_of_schedule h).shared.2
  obtain ⟨hpos, hcount, hopen⟩ : (Program.begin a name posting).shared.sessions.OpenAt a.now
      (sent a posting).session := openAt_sent hsound
  obtain ⟨-, -, hkept, hlate⟩ := closingOf_of_schedule hstanding hschedule hpos hcount
  cases hclosing : (Program.begin a name posting).shared.sessions.closingOf
      (sent a posting).session with
  | none => exact hlate u hclosing hu
  | some t =>
      obtain rfl : t = u := Option.some.inj ((hkept t hclosing).symm.trans hu)
      simp only [hclosing, Time.reached, decide_eq_false_iff_not, not_le] at hopen
      exact hopen.le

/-- The wait of a request is over when the request ends of itself. -/
theorem ends_iff (h : Program.Schedule (Agenda.start (Gateway.fresh timeout)) es a)
    (hschedule : Program.Schedule (Program.begin a name posting) fs b) :
    Ends (sent a posting) (b.shared.sessions.closingOf (sent a posting).session) t result ↔
      ∃ cause, (Task.waitOf b.shared (sent a posting) none).wake = some (t, cause) ∧
        result = (sent a posting).outcome cause :=
  ends_iff_wake (fun _ _ => le_of_landing) fun _ => le_of_closingOf h hschedule

/-- A request that is not cancelled has ended, if it has, when and as it ends of itself. -/
theorem ends_of_ended (h : Program.Schedule (Agenda.start (Gateway.fresh timeout)) es a)
    (hschedule : Program.Schedule (Program.begin a name posting) fs b)
    (hcancel : .cancel a.tasks.length ∉ fs) {delivery : Delivery}
    (hended : Program.taskAt b a.tasks.length = some (.ended t delivery)) :
    ∃ result, Ends (sent a posting)
        (b.shared.sessions.closingOf (sent a posting).session) t result ∧
      t ≤ b.now ∧ delivery = delivered (sent a posting) t result := by
  obtain ⟨hle, cause, hwake, rfl⟩ := (orderly timeout).wake_of_ended
    (standing_of_schedule (h.snoc (.begin name posting))) taskAt_begin
    (begun_sent (standing_of_schedule h).shared.2) hschedule hcancel hended
  exact ⟨_, (ends_iff h hschedule).mpr ⟨cause, hwake, rfl⟩, hle, rfl⟩

/-- A request that is not cancelled and ends of itself by now has ended, or is about to move now. -/
theorem ended_or_due_of_ends (h : Program.Schedule (Agenda.start (Gateway.fresh timeout)) es a)
    (hschedule : Program.Schedule (Program.begin a name posting) fs b)
    (hcancel : .cancel a.tasks.length ∉ fs)
    (hends : Ends (sent a posting)
      (b.shared.sessions.closingOf (sent a posting).session) t result) (hle : t ≤ b.now) :
    Program.taskAt b a.tasks.length = some (.ended t (delivered (sent a posting) t result)) ∨
      t = b.now ∧ b.dueAt a.tasks.length = some b.now := by
  obtain ⟨cause, hwake, rfl⟩ := (ends_iff h hschedule).mp hends
  exact (orderly timeout).ended_or_due (standing_of_schedule (h.snoc (.begin name posting)))
    taskAt_begin (begun_sent (standing_of_schedule h).shared.2) hschedule hcancel hle hwake

/-- Whether a request pauses at an instant: it is not over, and its answer is still to come. -/
def Paused (b : Transfers) (i : Nat) (flight : Flight) : Prop :=
  b.hasEnded i = false ∧ ∀ u result, flight.course.landing = some (u, result) → b.now < u

/-- The session of a request that pauses is open, or it was closed just now. -/
theorem openAt_of_paused (h : Program.Schedule (Agenda.start (Gateway.fresh timeout)) es a)
    (hschedule : Program.Schedule (Program.begin a name posting) fs b)
    (hcancel : .cancel a.tasks.length ∉ fs) (hpaused : Paused b a.tasks.length (sent a posting)) :
    b.shared.sessions.OpenAt b.now (sent a posting).session ∨
      b.shared.sessions.closingOf (sent a posting).session = some b.now := by
  obtain ⟨hpending, hlanding⟩ := hpaused
  obtain ⟨hpos, hcount, -⟩ : (Program.begin a name posting).shared.sessions.OpenAt a.now
      (sent a posting).session := openAt_sent (standing_of_schedule h).shared.2
  obtain ⟨-, hcount, -⟩ := closingOf_of_schedule
    (standing_of_schedule (h.snoc (.begin name posting))) hschedule hpos hcount
  cases hclosing : b.shared.sessions.closingOf (sent a posting).session with
  | none => exact .inl ⟨hpos, hcount, by simp [hclosing, Time.reached]⟩
  | some t =>
      -- what closed the session before would have ended the request
      have hpast : t ≤ b.now := by
        have hlate := standing_of_schedule ((h.snoc (.begin name posting)).append hschedule)
        rw [Sessions.closingOf, Option.join_eq_some_iff] at hclosing
        exact hlate.shared.2.past t (List.mem_of_getElem? hclosing)
      have hends : Ends (sent a posting)
          (b.shared.sessions.closingOf (sent a posting).session) t (.error .connectionClosed) :=
        .closed hclosing fun u result hu => hpast.trans_lt (hlanding u result hu)
      rcases ended_or_due_of_ends h hschedule hcancel hends hpast with hended | ⟨rfl, -⟩
      · obtain ⟨x, hx, hxended⟩ := Option.map_eq_some_iff.mp hended
        simp [Agenda.hasEnded, hx, hxended, Timed.ended, Task.isEnded] at hpending
      · exact .inr rfl

/-- A request that pauses when its session is closed ends by that, at once. -/
theorem ended_or_due_of_close (h : Program.Schedule (Agenda.start (Gateway.fresh timeout)) es a)
    (hschedule : Program.Schedule (Program.begin a name posting) fs b)
    (hcancel : .cancel a.tasks.length ∉ fs) (hpaused : Paused b a.tasks.length (sent a posting))
    (hrest : Program.Schedule (Program.order b GatewayCommand.close) gs c)
    (hcancel' : .cancel a.tasks.length ∉ gs) :
    Program.taskAt c a.tasks.length = some (.ended b.now
        (delivered (sent a posting) b.now (.error .connectionClosed))) ∨
      b.now = c.now ∧ c.dueAt a.tasks.length = some c.now := by
  have hbefore := (h.snoc (.begin name posting)).append hschedule
  have hclose : Program.Happens b (.command .close) (Program.order b GatewayCommand.close) :=
    .command GatewayCommand.close
  have hsound := (standing_of_schedule hbefore).shared.2
  have hshares := shares hsound hclose
  obtain ⟨hpos, hcount, -⟩ : (Program.begin a name posting).shared.sessions.OpenAt a.now
      (sent a posting).session := openAt_sent (standing_of_schedule h).shared.2
  obtain ⟨-, hcount, -⟩ := closingOf_of_schedule
    (standing_of_schedule (h.snoc (.begin name posting))) hschedule hpos hcount
  have hclosed : (Program.order b GatewayCommand.close).shared.sessions.closingOf
      (sent a posting).session = some b.now := by
    rw [hshares.closingOf _ hpos hcount]
    rcases openAt_of_paused h hschedule hcancel hpaused with hopen | hclosing
    · obtain ⟨hlast, hisOpen⟩ := hsound.openAt_iff.mp hopen
      rw [if_pos ⟨rfl, hlast, hisOpen⟩]
    · split
      · rfl
      · exact hclosing
  obtain ⟨hnow, -, hkept, -⟩ := closingOf_of_schedule (standing_of_schedule (hbefore.snoc hclose))
    hrest hpos (by rw [hshares.count]; simpa [uses] using hcount)
  have hafter : Program.Schedule b ([.command .close] ++ gs) c :=
    (Program.Schedule.nil.snoc hclose).append hrest
  refine ended_or_due_of_ends h (hschedule.append hafter) ?_ ?_ hnow
  · simp [hcancel, hcancel']
  · exact .closed (hkept _ hclosed) hpaused.2

/--
What is to be said of a request that starts now, whatever happens to other requests meanwhile.
-/
structure Carried (timeout : Time) (a : Transfers) (name : Option String) (posting : Posting) :
    Prop where
  /-- It runs on the session that is open when it starts. -/
  openAt : (Program.begin a name posting).shared.sessions.OpenAt a.now (sent a posting).session
  /-- It is sent as it was posted, to be cut off when the time of an attempt is over. -/
  sent_eq : sent a posting = ⟨posting.url, (sent a posting).session, a.now,
    posting.script.head.course a.now ((Connector.fresh timeout).cutoff a.now)⟩
  /-- It waits, or it is over, and then its response was released when its task ended. -/
  released : ∀ (fs : List Happening) (b : Transfers),
    Program.Schedule (Program.begin a name posting) fs b →
    (∃ cancelAt, Program.taskAt b a.tasks.length =
        some (.waiting (sent a posting) cancelAt)) ∨
      ∃ t result, t ≤ b.now ∧ Program.taskAt b a.tasks.length =
          some (.ended t (delivered (sent a posting) t result)) ∧
        (delivered (sent a posting) t result).request ∈ b.shared.released
  /-- Its body is read only if its status told of a success by then. -/
  read : ∀ t result, (delivered (sent a posting) t result).request.read = true →
    ∃ delay readDelay body u, posting.script.head = .reply delay 200 readDelay body ∧
      delay.arrival a.now ((Connector.fresh timeout).cutoff a.now) = .reached u ∧ u ≤ t
  /-- It is not cancelled: it ends by its answer or the closing of its session, and not else. -/
  ends : ∀ (fs : List Happening) (b : Transfers),
    Program.Schedule (Program.begin a name posting) fs b → .cancel a.tasks.length ∉ fs →
    (∀ t delivery, Program.taskAt b a.tasks.length = some (.ended t delivery) →
        ∃ result, Ends (sent a posting)
            (b.shared.sessions.closingOf (sent a posting).session) t result ∧
          t ≤ b.now ∧ delivery = delivered (sent a posting) t result) ∧
      ∀ t result, Ends (sent a posting)
          (b.shared.sessions.closingOf (sent a posting).session) t result → t ≤ b.now →
        Program.taskAt b a.tasks.length =
            some (.ended t (delivered (sent a posting) t result)) ∨
          t = b.now ∧ b.dueAt a.tasks.length = some b.now
  /-- Its session is closed while it pauses: it ends by that, at once. -/
  closed : ∀ (fs : List Happening) (b : Transfers),
    Program.Schedule (Program.begin a name posting) fs b → .cancel a.tasks.length ∉ fs →
    Paused b a.tasks.length (sent a posting) →
    ∀ (gs : List Happening) (c : Transfers),
      Program.Schedule (Program.order b GatewayCommand.close) gs c →
      .cancel a.tasks.length ∉ gs →
      Program.taskAt c a.tasks.length = some (.ended b.now
          (delivered (sent a posting) b.now (.error .connectionClosed))) ∨
        b.now = c.now ∧ c.dueAt a.tasks.length = some c.now
  /-- It is cancelled before it is over: it ends by that, at once. -/
  aborted : ∀ (fs : List Happening) (b : Transfers),
    Program.Schedule (Program.begin a name posting) fs b → .cancel a.tasks.length ∉ fs →
    b.hasEnded a.tasks.length = false →
    ∀ (gs : List Happening) (c : Transfers),
      Program.Schedule (b.cancel a.tasks.length).2 gs c →
      Program.taskAt c a.tasks.length = some (.ended b.now
          (delivered (sent a posting) b.now (.error .aborted))) ∨
        b.now = c.now ∧ c.dueAt a.tasks.length = some c.now

/-- The response of a request that is over was released. -/
theorem mem_released (h : Program.Schedule (Agenda.start (Gateway.fresh timeout)) es a) {i : Nat}
    {delivery : Delivery} (hended : Program.taskAt a i = some (.ended t delivery)) :
    delivery.request ∈ a.shared.released := by
  obtain ⟨x, hx, hxended⟩ := Option.map_eq_some_iff.mp hended
  refine (released_perm h).mem_iff.mpr (List.mem_filterMap.mpr ⟨x, List.mem_of_getElem? hx, ?_⟩)
  rw [hxended]
  rfl

/-- What comes of a request, on every schedule. -/
theorem carried (h : Program.Schedule (Agenda.start (Gateway.fresh timeout)) es a)
    (name : Option String) (posting : Posting) : Carried timeout a name posting := by
  have hstanding := standing_of_schedule h
  have hbegin := h.snoc (.begin name posting)
  have hbegun := standing_of_schedule hbegin
  have hcutoff : a.shared.cutoff a.now = (Connector.fresh timeout).cutoff a.now := by
    unfold Connector.cutoff Connector.fresh
    rw [hstanding.shared.1]
  exact
    { openAt := openAt_sent hstanding.shared.2
      sent_eq := by rw [← hcutoff]; rfl
      released := by
        intro fs b hschedule
        refine ((orderly timeout).waiting_or_ended hbegun taskAt_begin hschedule).imp_right ?_
        rintro ⟨t, cause, hle, hended⟩
        exact ⟨t, (sent a posting).outcome cause, hle, hended,
          mem_released (hbegin.append hschedule) hended⟩
      read := by
        intro t result hread
        rw [← hcutoff]
        cases hreadAt : (sent a posting).course.readAt with
        | none => simp [delivered, hreadAt, Time.reached] at hread
        | some u =>
            obtain ⟨delay, readDelay, body, hanswer, hreached⟩ := Answer.exists_of_readAt hreadAt
            refine ⟨delay, readDelay, body, u, hanswer, hreached, ?_⟩
            simpa [delivered, hreadAt, Time.reached] using hread
      ends := fun fs b hschedule hcancel =>
        ⟨fun t delivery => ends_of_ended h hschedule hcancel,
          fun t result => ended_or_due_of_ends h hschedule hcancel⟩
      closed := fun fs b hschedule hcancel hpaused gs c hrest hcancel' =>
        ended_or_due_of_close h hschedule hcancel hpaused hrest hcancel'
      aborted := fun fs b hschedule hcancel hpending gs c hrest =>
        (orderly timeout).ended_or_due_of_cancel hbegun taskAt_begin
          (begun_sent hstanding.shared.2) hschedule hcancel hpending hrest }

end Transfer

/--
Requests over a gateway share sessions.  On every schedule of requests, cancellations and commands
at most one session is open; one is made exactly when it is used while none is open, and closed only
by a command, which changes nothing where none is open.  Every request runs on the session that is
open when it starts. It is over once, when its task ends, by its answer, by the closing of its
session or by its cancellation, whichever comes first, at that instant; its response is released
then and never else, and its body is read only if its status told of a success.
-/
theorem Gateway.transfers {timeout : Time} {es : List Transfer.Happening} {a : Transfer.Transfers}
    (h : Program.Schedule (Agenda.start (Gateway.fresh timeout)) es a) :
    (∀ m n, a.shared.sessions.OpenAt a.now m → a.shared.sessions.OpenAt a.now n → m = n) ∧
      (∀ (e : Transfer.Happening) (b : Transfer.Transfers),
        Program.Happens a e b → Transfer.Shares a e b ∧ Transfer.Releases a e b) ∧
      a.shared.released.Perm (Transfer.finished a) ∧
      (Transfer.command a.now a.shared .session).2 =
        some (Program.order a GatewayCommand.session).shared.sessions.count ∧
      (a.shared.sessions.isOpen a.now = false → Program.order a GatewayCommand.close = a) ∧
      (∀ name posting, Transfer.Carried timeout a name posting) ∧
      (∀ (i : Nat) (t : Time) (delivery : Delivery),
        Program.taskAt a i = some (.ended t delivery) →
        ∀ (fs : List Transfer.Happening) (b : Transfer.Transfers), Program.Schedule a fs b →
          Program.taskAt b i = some (.ended t delivery)) ∧
      ∀ n, a.tasks.length ≤ n →
        (a.settle n).now = a.now ∧ ∀ i, (a.settle n).dueAt i ≠ some a.now := by
  have hstanding := Transfer.standing_of_schedule h
  have hsound := hstanding.shared.2
  refine ⟨fun m n hm hn => ?_,
    fun e b he => ⟨Transfer.shares hsound he, Transfer.releases hstanding he⟩,
    Transfer.released_perm h, ?_, fun hidle => ?_, Transfer.carried h,
    fun i t delivery hended fs b => (Transfer.orderly timeout).taskAt_of_ended hended,
    fun n hn => (Transfer.orderly timeout).settles hstanding hn⟩
  · exact (hsound.openAt_iff.mp hm).1.trans (hsound.openAt_iff.mp hn).1.symm
  · exact congrArg some (Sessions.acquire_open a.shared.sessions a.now).2
  · simp only [Program.order, Served.command, Transfer.command, Connector.close,
      Sessions.close_idle hidle]

/-- A request whose status comes after a second, and its body in four more. -/
def Transfer.slow : Posting :=
  ⟨"u", ⟨.reply (.lasting 1) 200 (.lasting 4) (.ok .empty), []⟩⟩

/-- The slow request two seconds after its start: its body is being read. -/
def Transfer.reading : Transfer.Transfers :=
  { Program.begin (Agenda.start (Gateway.fresh 5)) none Transfer.slow with now := 2 }

/--
The closing of its session ends the slow request, whose response is released then, and the next
request makes another session.
-/
theorem Gateway.reading_closed :
    Program.Schedule (Agenda.start (Gateway.fresh 5) : Transfer.Transfers)
        [.begin none Transfer.slow, .pass 2, .command .close]
        (Program.order Transfer.reading GatewayCommand.close) ∧
      Program.taskAt ((Program.order Transfer.reading GatewayCommand.close).resumeAt 2 0) 0 =
        some (.ended 2 ⟨⟨0, "u", 1, true, 2⟩, .error .connectionClosed⟩) ∧
      ((Program.order Transfer.reading GatewayCommand.close).resumeAt 2 0).shared.released =
        [⟨0, "u", 1, true, 2⟩] ∧
      (Program.begin (Program.order Transfer.reading GatewayCommand.close) none
        Transfer.slow).shared.sessions.count = 2 := by
  have hfirst : (Program.begin (Agenda.start (Gateway.fresh 5)) none Transfer.slow :
      Transfer.Transfers).next? = some (5, 0) := by decide +kernel
  have hsecond : (Program.order Transfer.reading GatewayCommand.close).next? = some (2, 0) := by
    decide +kernel
  have hlast : ((Program.order Transfer.reading GatewayCommand.close).resumeAt 2 0).next? =
      none := by decide +kernel
  have hnow : (Program.begin (Agenda.start (Gateway.fresh 5)) none Transfer.slow :
      Transfer.Transfers).now ≤ 2 := by decide +kernel
  obtain ⟨hdue, hquiet⟩ := Agenda.due_of_next? hfirst
  obtain ⟨hdue', hquiet'⟩ := Agenda.due_of_next? hsecond
  have hpass : Program.Happens (Program.begin (Agenda.start (Gateway.fresh 5)) none Transfer.slow)
      (.pass 2 : Transfer.Happening) Transfer.reading := by
    refine .pass hnow fun i u hu => le_trans ?_ (hquiet i u hu)
    decide +kernel
  have hmove : Program.Schedule (Program.order Transfer.reading GatewayCommand.close)
      [(.move 0 : Transfer.Happening)] _ := .snoc .nil (.move hdue' hquiet')
  have hschedule : Program.Schedule (Agenda.start (Gateway.fresh 5) : Transfer.Transfers)
      [.begin none Transfer.slow, .pass 2, .command .close]
      (Program.order Transfer.reading GatewayCommand.close) :=
    ((Program.Schedule.nil.snoc (.begin none Transfer.slow)).snoc hpass).snoc
      (.command GatewayCommand.close)
  have hrequest : (Transfer.delivered (Transfer.sent (Agenda.start (Gateway.fresh 5)) Transfer.slow)
      2 (.error .connectionClosed)).request = ⟨0, "u", 1, true, 2⟩ := by decide +kernel
  obtain ⟨-, -, -, -, -, hcarried, -⟩ := transfers (Program.Schedule.nil
    (a := (Agenda.start (Gateway.fresh 5) : Transfer.Transfers)))
  obtain ⟨-, hshares, -⟩ := transfers hschedule
  obtain ⟨-, -, hreleased, -⟩ := transfers (hschedule.append hmove)
  have hended : Program.taskAt ((Program.order Transfer.reading GatewayCommand.close).resumeAt 2 0)
      0 = some (.ended 2 ⟨⟨0, "u", 1, true, 2⟩, .error .connectionClosed⟩) := by
    rw [← hrequest]
    refine ((hcarried none Transfer.slow).closed _ _ (.snoc .nil hpass) ?_ ⟨?_, ?_⟩ _ _ hmove
      ?_).resolve_right fun h => by simp [Agenda.dueAt_eq_none_of_next? hlast] at h
    · simp
    · decide +kernel
    · intro u result hlanding
      have hland :
        ((Transfer.sent (Agenda.start (Gateway.fresh 5)) Transfer.slow).course.landing.map
          (·.1)) = some 5 := by decide +kernel
      obtain rfl : u = 5 := by simpa [hlanding] using hland
      decide +kernel
    · simp
  refine ⟨hschedule, hended, List.perm_singleton.mp (hreleased.trans ?_), ?_⟩
  · have hfinished : Transfer.finished ((Program.order Transfer.reading
        GatewayCommand.close).resumeAt 2 0) = [⟨0, "u", 1, true, 2⟩] := by decide +kernel
    rw [hfinished]
  · rw [(hshares _ _ (.begin none Transfer.slow)).1.count]
    decide +kernel

end ChainPoll

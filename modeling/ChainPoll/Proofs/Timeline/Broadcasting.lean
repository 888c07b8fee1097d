import ChainPoll.Proofs.Timeline.Tasks
import ChainPoll.Timeline.Broadcast

/-!
# What comes of waiting for the signal

However waits for a signal, their cancellations and the commands to the signal follow each other:
the signal is given by the first command to close it, and a wait ends at the instant at which the
signal is given, or its time is over, or it is cancelled, whichever comes first.  No wait is lost,
and none has an effect on the signal or on another wait.

Main results:

- Theorem {lit}`Watch.orderly`: waits for the signal are orderly tasks.
- Theorem {lit}`Watch.ended_iff_ends`: when and how a wait ends that is not cancelled.
- Theorem {lit}`Signal.broadcasts`: what comes of every wait, on every schedule.
-/

namespace ChainPoll

namespace Signal

variable {s s' : Signal} {now t : Time}

/-- Whether a signal is given at no instant to come, and at the one that is named, if one is. -/
structure Steady (named : Option Time) (now : Time) (s : Signal) : Prop where
  past : ∀ t, s.givenAt = some t → t ≤ now
  kept : ∀ t, named = some t → s.givenAt = some t

/-- A steady signal that was not given is given at no instant. -/
theorem Steady.given_iff {named : Option Time} (h : s.Steady named now) :
    s.given now = true ↔ s.givenAt ≠ none := by
  cases hgivenAt : s.givenAt with
  | none => simp [given, hgivenAt, Time.reached]
  | some t => simp [given, hgivenAt, Time.reached, h.past t hgivenAt]

/-- Closing gives the signal now, unless it was given before. -/
theorem Steady.close {named : Option Time} (h : s.Steady named now) :
    (s.close now).2.Steady named now ∧
      ((s.close now).2 = s ∨ s.givenAt = none ∧ (s.close now).2.givenAt = some now) := by
  unfold Signal.close
  split
  · exact ⟨h, .inl rfl⟩
  · next hopen =>
    have hnone : s.givenAt = none := by simpa using mt h.given_iff.mpr hopen
    refine ⟨⟨fun t ht => (Option.some.inj ht).ge, fun t ht => ?_⟩, .inr ⟨hnone, rfl⟩⟩
    have hkept := h.kept t ht
    simp [hnone] at hkept

end Signal

namespace Watch

/--
The instant at which a wait is over at the latest; a time that is not positive is over at once.
-/
def limit (now : Time) (span : Option Time) : Option Time :=
  span.map fun s => now + max 0 s

/-- The tasks that wait for a signal. -/
abbrev Waiters : Type := Agenda Signal (Task Watch (Except Fault Bool))

/-- What can happen to them. -/
abbrev Happening : Type := Program.Happening (Option Time) SignalCommand

variable {a b c : Waiters} {s s' : Signal} {now t since : Time} {limitAt closing : Option Time}
  {result : Except Fault Bool} {es fs gs : List Happening} {name : Option String}
  {span : Option Time}

/-! ## The end of a wait -/

/--
When and how a wait ends of itself that is over at a limit, if there is one, while the signal is
given at an instant, if ever.  At one instant the end of its time goes first.
-/
inductive Ends (limitAt closing : Option Time) : Time → Except Fault Bool → Prop where
  | given {t : Time} (hclosing : closing = some t) (hlimit : ∀ u, limitAt = some u → t < u) :
      Ends limitAt closing t (.ok true)
  | over {t : Time} (hlimit : limitAt = some t) (hclosing : ∀ u, closing = some u → t ≤ u) :
      Ends limitAt closing t (.ok false)

/-- A wait is over exactly when it ends of itself. -/
theorem ends_iff_wake (hlimit : ∀ u, limitAt = some u → since ≤ u)
    (hclosing : ∀ u, s.givenAt = some u → since ≤ u) :
    Ends limitAt s.givenAt t result ↔
      ∃ cause, (Task.waitOf s (⟨since, limitAt⟩ : Watch) none).wake = some (t, cause) ∧
        result = outcome cause := by
  have hwake : ∀ cause, (Task.waitOf s (⟨since, limitAt⟩ : Watch) none).wake =
    some (t, cause) ↔ _ :=
    fun _ => Wait.wake_undisturbed_iff rfl rfl hlimit hclosing
  constructor
  · rintro (⟨hgiven, hbefore⟩ | ⟨hover, hbefore⟩)
    · exact ⟨.closing, (hwake _).mpr (.inr ⟨rfl, hgiven, hbefore⟩), rfl⟩
    · exact ⟨.alarm, (hwake _).mpr (.inl ⟨rfl, hover, hbefore⟩), rfl⟩
  · rintro ⟨cause, h, rfl⟩
    rcases (hwake cause).mp h with ⟨rfl, hover, hbefore⟩ | ⟨rfl, hgiven, hbefore⟩
    · exact .over hover hbefore
    · exact .given hgiven hbefore

/-! ## Waits as tasks -/

/-- What strikes waits for a signal is that it is given. -/
theorem strikesNow (h : s' = s ∨ s.givenAt = none ∧ s'.givenAt = some now) :
    Task.StrikesNow Watch now s s' := by
  intro watch
  rcases h with rfl | ⟨hopen, hgiven⟩
  · exact .inl rfl
  · exact .inr ⟨hopen, by simp only [Awaited.wait, Wait.within, hgiven]⟩

/-- Waits for a signal are orderly tasks. -/
theorem orderly (named : Option Time) :
    Task.Orderly (ω := Watch) (α := Except Fault Bool) fun now s => Signal.Steady named now s where
  timed := rfl
  finish_fst hs _ _ _ := hs
  finish_wait _ _ _ _ _ := rfl
  finish_snd _ _ _ _ _ := rfl
  begin := by
    intro now s hs span
    refine ⟨hs, ?_, .refl _ _⟩
    cases hgiven : s.given now with
    | true =>
        simp only [Served.begin, begin_given hgiven]
        exact Task.upcoming_ended _ _
    | false =>
        simp only [Served.begin, begin_pending hgiven]
        exact Task.upcoming_of_since rfl
  command := by
    intro now s hs command
    cases command with
    | closed => exact ⟨hs, .refl _ _⟩
    | close => exact ⟨hs.close.1, strikesNow hs.close.2⟩
  pass hs hle := ⟨fun t ht => (hs.past t ht).trans hle, hs.kept⟩

/-- The cancellation of a wait, and its end, leave the signal and all other waits as they are. -/
theorem frame {a b : Waiters} {e : Happening} {i : Nat} (he : e = .cancel i ∨ e = .move i)
    (h : Program.Happens a e b) :
    b.shared = a.shared ∧ ∀ j, j ≠ i → b.tasks[j]? = a.tasks[j]? := by
  obtain ⟨heq | ⟨_, _, _, heq⟩, hothers⟩ := (orderly none).frame he h
  · exact ⟨heq, hothers⟩
  · exact ⟨heq, hothers⟩

/-! ## Schedules -/

/-- The signal was given exactly if there was a command to close it. -/
theorem givenAt_eq_none_iff (h : Program.Schedule (Agenda.start Signal.pending) es a) :
    a.shared.givenAt = none ↔ .command .close ∉ es := by
  induction h with
  | nil => simp [Agenda.start, Signal.pending]
  | @snoc es b c e _ he ih =>
      have hframe : ∀ i, e = .cancel i ∨ e = .move i → c.shared = b.shared :=
        fun i hi => (frame hi he).1
      cases he with
      | begin name span => simpa [Program.begin, Agenda.begin, Served.begin] using ih
      | command command =>
          cases command with
          | closed => simpa [Program.order, Served.command] using ih
          | close =>
              have hgiven : (b.shared.close b.now).2.givenAt ≠ none := by
                intro hnone
                have := b.shared.given_close b.now
                simp [Signal.given, hnone, Time.reached] at this
              simpa [Program.order, Served.command] using hgiven
      | cancel i => simpa [hframe i (.inl rfl)] using ih
      | @move i t _ _ => simpa [hframe i (.inr rfl)] using ih
      | pass _ _ => simpa using ih

/-- On every schedule no wait is due in the past. -/
theorem standing_of_schedule (h : Program.Schedule (Agenda.start Signal.pending) es a) :
    Program.Holds 0 (fun now s => Signal.Steady none now s)
      (fun _ now s (x : Task Watch (Except Fault Bool)) => x.Upcoming s now) a := by
  refine h.keeps (orderly none).standing_laws (by simp) ⟨Nat.zero_le _, ⟨?_, by simp⟩, ?_⟩
  · intro t ht
    simp [Agenda.start, Signal.pending] at ht
  · intro i x hx
    simp [Agenda.start] at hx

/-- What a command to the signal replies. -/
def reply (a : Waiters) (command : SignalCommand) : Bool :=
  (Served.command (τ := Task Watch (Except Fault Bool)) a.now a.shared command).2

/-- Whether the commands so far gave the signal once: the first to close it, and no other, does. -/
structure ClosedOnce (es : List Happening) (a : Waiters) : Prop where
  reply_close : reply a .close = true ↔ .command .close ∉ es
  reply_closed : reply a .closed = true ↔ .command .close ∈ es
  /--
  The instant at which the signal is given is that of the first command to close it, ever after.
  -/
  givenAt : .command .close ∉ es → a.shared.givenAt = none ∧
    ∀ (fs : List Happening) (b : Waiters),
      Program.Schedule (Program.order a SignalCommand.close) fs b → b.shared.givenAt = some a.now

/-- The signal is given once, by the first command to close it. -/
theorem closedOnce (h : Program.Schedule (Agenda.start Signal.pending) es a) : ClosedOnce es a := by
  have hstanding := standing_of_schedule h
  have hgivenAt := givenAt_eq_none_iff h
  have hgiven : a.shared.given a.now = true ↔ .command .close ∈ es := by
    rw [hstanding.shared.given_iff, ne_eq, hgivenAt, not_not]
  refine ⟨?_, hgiven, fun hfirst => ⟨hgivenAt.mpr hfirst, ?_⟩⟩
  · rw [← hgiven]
    simp only [reply, Served.command, Signal.close]
    split <;> simp_all
  · intro fs b hschedule
    have hclosed : (Program.order a SignalCommand.close).shared.givenAt = some a.now := by
      simp [Program.order, Served.command, Signal.close, mt hgiven.mp hfirst]
    have hheld := (orderly none).standing_laws.holds_of_happens hstanding trivial (.command .close)
    have hkept := hschedule.keeps (orderly (some a.now)).standing_laws (by simp)
      ⟨Nat.zero_le _, ⟨hheld.shared.past, ?_⟩, hheld.task⟩
    · exact hkept.shared.kept a.now rfl
    · intro t ht
      rw [← ht]
      exact hclosed

/-! ## A wait among others -/

/-- A wait for a signal that was not given begins at the position after all others. -/
theorem taskAt_begin (hopen : a.shared.givenAt = none) :
    Program.taskAt (Program.begin a name span) a.tasks.length =
      some (.waiting ⟨a.now, limit a.now span⟩ none) := by
  have hpending : a.shared.given a.now = false := by simp [Signal.given, hopen, Time.reached]
  simp [Program.taskAt, Program.begin, Agenda.begin, Served.begin, begin_pending hpending, limit,
    Time.later_eq_max]

/-- The limit of a wait is not before its begin. -/
theorem le_limit {u : Time} (h : limit now span = some u) : now ≤ u := by
  obtain ⟨d, -, rfl⟩ := Option.map_eq_some_iff.mp h
  exact le_add_of_nonneg_right (le_max_left 0 d)

/-- No closing struck before the begin of a wait for a signal that was not given. -/
theorem begun_begin (hopen : a.shared.givenAt = none) :
    Task.Begun (⟨a.now, limit a.now span⟩ : Watch) (Program.begin a name span).now
      (Program.begin a name span).shared := by
  refine ⟨le_rfl, fun u hu => ?_⟩
  have hgiven : a.shared.givenAt = some u := hu
  simp [hopen] at hgiven

/--
A wait that was not cancelled, and is not due now, has ended exactly if it ends of itself by now.
-/
theorem ended_iff_ends (h : Program.Schedule (Agenda.start Signal.pending) es a)
    (hopen : a.shared.givenAt = none)
    (hschedule : Program.Schedule (Program.begin a name span) fs b)
    (hcancel : .cancel a.tasks.length ∉ fs) (hidle : b.dueAt a.tasks.length ≠ some b.now) :
    Program.taskAt b a.tasks.length = some (.ended t result) ↔
      Ends (limit a.now span) b.shared.givenAt t result ∧ t ≤ b.now := by
  have hstanding := standing_of_schedule (h.snoc (.begin name span))
  obtain ⟨hbegun, hended⟩ := (orderly none).ended_iff_wake hstanding (taskAt_begin hopen)
    (begun_begin hopen) hschedule hcancel hidle
  rw [hended, and_comm]
  refine and_congr_left fun _ => (ends_iff_wake ?_ hbegun.le_closing).symm
  exact fun u => le_limit

/-- A wait that is pending when the signal is given, and not due then, ends by that, at once. -/
theorem woken_of_close (h : Program.Schedule (Agenda.start Signal.pending) es a)
    (hschedule : Program.Schedule (Program.begin a name span) fs b)
    (hcancel : .cancel a.tasks.length ∉ fs) (hpending : b.hasEnded a.tasks.length = false)
    (hidle : b.dueAt a.tasks.length ≠ some b.now) (hopen : b.shared.givenAt = none)
    (hrest : Program.Schedule (Program.order b SignalCommand.close) gs c)
    (hcancel' : .cancel a.tasks.length ∉ gs) (hidle' : c.dueAt a.tasks.length ≠ some c.now) :
    Program.taskAt c a.tasks.length = some (.ended b.now (.ok true)) := by
  have hbefore := (h.snoc (.begin name span)).append hschedule
  have hfirst := (givenAt_eq_none_iff hbefore).mp hopen
  have hopen' : a.shared.givenAt = none := by
    refine (givenAt_eq_none_iff h).mpr fun hclose => hfirst ?_
    simp [hclose]
  have hclosing : Program.Schedule b ([.command .close] ++ gs) c :=
    (Program.Schedule.nil.snoc (.command SignalCommand.close)).append hrest
  have hlate := standing_of_schedule (hbefore.append hclosing)
  have hgivenAt := ((closedOnce hbefore).givenAt hfirst).2 gs c hrest
  refine (ended_iff_ends h hopen' (hschedule.append hclosing) ?_ hidle').mpr
    ⟨.given hgivenAt ?_, hlate.shared.past _ hgivenAt⟩
  · simp [hcancel, hcancel']
  · -- had the time of the wait been over, it would have ended before the closing
    intro u hu
    by_contra hover
    have hends : Ends (limit a.now span) b.shared.givenAt u (.ok false) :=
      .over hu (by simp [hopen])
    have hended := (ended_iff_ends h hopen' hschedule hcancel hidle).mpr ⟨hends, not_lt.mp hover⟩
    obtain ⟨x, hx, hxended⟩ := Option.map_eq_some_iff.mp hended
    simp [Agenda.hasEnded, hx, hxended, Timed.ended, Task.isEnded] at hpending

/-- A wait for a signal that was given is over at once. -/
theorem ended_of_given (h : Program.Schedule (Agenda.start Signal.pending) es a)
    (hgiven : a.shared.givenAt ≠ none)
    (hschedule : Program.Schedule (Program.begin a name span) fs b) :
    Program.taskAt b a.tasks.length = some (.ended a.now (.ok true)) := by
  have hreached := (standing_of_schedule h).shared.given_iff.mpr hgiven
  refine (orderly none).taskAt_of_ended ?_ hschedule
  simp [Program.taskAt, Program.begin, Agenda.begin, Served.begin, begin_given hreached]

/-- What is to be said of a wait that begins now, whatever happens to other waits meanwhile. -/
structure Heard (a : Waiters) (name : Option String) (span : Option Time) : Prop where
  /-- The signal was given before: the wait is over at once. -/
  given : a.shared.givenAt ≠ none →
    ∀ (fs : List Happening) (b : Waiters), Program.Schedule (Program.begin a name span) fs b →
      Program.taskAt b a.tasks.length = some (.ended a.now (.ok true))
  /--
  It is not cancelled: it ends by the signal or at its limit, whichever is first, and not else.
  -/
  ends : a.shared.givenAt = none →
    ∀ (fs : List Happening) (b : Waiters), Program.Schedule (Program.begin a name span) fs b →
      .cancel a.tasks.length ∉ fs → b.dueAt a.tasks.length ≠ some b.now →
      ∀ t result, Program.taskAt b a.tasks.length = some (.ended t result) ↔
        Ends (limit a.now span) b.shared.givenAt t result ∧ t ≤ b.now
  /-- The signal is given while it is pending: it ends then. -/
  woken : ∀ (fs : List Happening) (b : Waiters), Program.Schedule (Program.begin a name span) fs b →
      .cancel a.tasks.length ∉ fs → b.hasEnded a.tasks.length = false →
      b.dueAt a.tasks.length ≠ some b.now → b.shared.givenAt = none →
      ∀ (gs : List Happening) (c : Waiters),
        Program.Schedule (Program.order b SignalCommand.close) gs c →
        .cancel a.tasks.length ∉ gs → c.dueAt a.tasks.length ≠ some c.now →
        Program.taskAt c a.tasks.length = some (.ended b.now (.ok true))
  /-- It is cancelled while it is pending: it ends by that. -/
  aborted : a.shared.givenAt = none →
    ∀ (fs : List Happening) (b : Waiters), Program.Schedule (Program.begin a name span) fs b →
      .cancel a.tasks.length ∉ fs → b.hasEnded a.tasks.length = false →
      ∀ (gs : List Happening) (c : Waiters), Program.Schedule (b.cancel a.tasks.length).2 gs c →
        c.dueAt a.tasks.length ≠ some c.now →
        Program.taskAt c a.tasks.length = some (.ended b.now (.error .aborted))

end Watch

/--
The signal is given once and broadcast.  On every schedule of waits, cancellations and commands the
first command to close the signal gives it, and every wait ends by the signal, at its limit, or by
its cancellation, whichever comes first, at that instant; a wait that has ended stays so.  A wait
that is cancelled, or moves, leaves the signal and all other waits as they are, and no wait is left
behind.
-/
theorem Signal.broadcasts {es : List Watch.Happening} {a : Watch.Waiters}
    (h : Program.Schedule (Agenda.start Signal.pending) es a) :
    Watch.ClosedOnce es a ∧ (∀ name span, Watch.Heard a name span) ∧
      (∀ (i : Nat) (t : Time) (result : Except Fault Bool),
        Program.taskAt a i = some (.ended t result) →
        ∀ (fs : List Watch.Happening) (b : Watch.Waiters), Program.Schedule a fs b →
          Program.taskAt b i = some (.ended t result)) ∧
      (∀ (i : Nat) (e : Watch.Happening) (b : Watch.Waiters), e = .cancel i ∨ e = .move i →
        Program.Happens a e b →
        b.shared = a.shared ∧ ∀ j, j ≠ i → b.tasks[j]? = a.tasks[j]?) ∧
      ∀ n, a.tasks.length ≤ n →
        (a.settle n).now = a.now ∧ ∀ i, (a.settle n).dueAt i ≠ some a.now := by
  refine ⟨Watch.closedOnce h, fun name span => ?_,
    fun i t result hended fs b => (Watch.orderly none).taskAt_of_ended hended,
    fun i e b he => Watch.frame he,
    fun n hn => (Watch.orderly none).settles (Watch.standing_of_schedule h) hn⟩
  exact
    { given := fun hgiven fs b hschedule => Watch.ended_of_given h hgiven hschedule
      ends := fun hopen fs b hschedule hcancel hidle t result =>
        Watch.ended_iff_ends h hopen hschedule hcancel hidle
      woken := fun fs b hschedule hcancel hpending hidle hopen gs c hrest hcancel' hidle' =>
        Watch.woken_of_close h hschedule hcancel hpending hidle hopen hrest hcancel' hidle'
      aborted := fun hopen fs b hschedule hcancel hpending gs c hrest hidle =>
        (Watch.orderly none).ended_of_cancel
          (Watch.standing_of_schedule (h.snoc (.begin name span))) (Watch.taskAt_begin hopen)
          (Watch.begun_begin hopen) hschedule hcancel hpending hrest hidle }

/-- A wait of three seconds that is over. -/
def Watch.expired : Watch.Waiters :=
  (Program.begin (Agenda.start Signal.pending) none (some 3)).resumeAt 3 0

/-- A wait without limit that began then, a second later. -/
def Watch.patient : Watch.Waiters :=
  { Program.begin Watch.expired none none with now := 4 }

/-- The patient wait ends when the signal is given, which no command before did. -/
theorem Signal.patient_woken :
    Program.Schedule (Agenda.start Signal.pending) [.begin none (some 3), .move 0] Watch.expired ∧
      Watch.reply Watch.expired .closed = false ∧
      Program.taskAt ((Program.order Watch.patient SignalCommand.close).resumeAt 4 1) 1 =
        some (.ended 4 (.ok true)) := by
  have hfirst : (Program.begin (Agenda.start Signal.pending) none (some 3) : Watch.Waiters).next? =
      some (3, 0) := by decide +kernel
  have hsecond : (Program.begin Watch.expired none none).next? = none := by decide +kernel
  have hthird : (Program.order Watch.patient SignalCommand.close).next? = some (4, 1) := by
    decide +kernel
  have hlast : ((Program.order Watch.patient SignalCommand.close).resumeAt 4 1).next? = none := by
    decide +kernel
  have hnow : (Program.begin Watch.expired none none).now ≤ 4 := by decide +kernel
  obtain ⟨hdue, hquiet⟩ := Agenda.due_of_next? hfirst
  obtain ⟨hdue', hquiet'⟩ := Agenda.due_of_next? hthird
  have hidle := Agenda.dueAt_eq_none_of_next? hsecond
  have hschedule : Program.Schedule (Agenda.start Signal.pending)
      [.begin none (some 3), .move 0] Watch.expired :=
    (Program.Schedule.nil.snoc (.begin none (some 3))).snoc (.move hdue hquiet)
  obtain ⟨hclosed, hheard, -⟩ := broadcasts hschedule
  have hpass : Program.Schedule (Program.begin Watch.expired none none)
      [(.pass 4 : Watch.Happening)] Watch.patient :=
    .snoc .nil (.pass hnow fun i u hu => by simp [hidle i] at hu)
  have hmove : Program.Schedule (Program.order Watch.patient SignalCommand.close)
      [(.move 1 : Watch.Happening)] _ := .snoc .nil (.move hdue' hquiet')
  refine ⟨hschedule, ?_, ?_⟩
  · simpa using hclosed.reply_closed
  · refine (hheard none none).woken _ _ hpass ?_ (by decide +kernel) ?_ rfl _ _ hmove ?_ ?_
    · simp
    · exact fun h => by simpa using (hidle Watch.expired.tasks.length).symm.trans h
    · simp
    · exact fun h => by simp [Agenda.dueAt_eq_none_of_next? hlast] at h

end ChainPoll

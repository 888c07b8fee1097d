import ChainPoll.Proofs.Timeline.Points
import ChainPoll.Proofs.Timeline.Tasks
import ChainPoll.Timeline.Ticker

/-!
# What comes of waiting for the grid

A wait for the next point of a grid ends with a tick at that point, or at once if the point was
overrun, unless the signal is given or the wait is cancelled before.  Only a tick moves the grid on,
to the first point after it.  If waits follow each other, then one that is interrupted consumes
nothing: the next one ends with a tick when the interrupted one would have.

Main results:

- Theorem {lit}`Tick.laws`: what becomes of a wait, whatever happens to others.
- Theorem {lit}`Tick.Lone.happens`: what becomes of the grid when something happens.
- Theorem {lit}`Ticker.interruptions_consume_nothing`: what comes of waits that follow each other.
-/

namespace ChainPoll

/-! ## Signals that are given now or later -/

namespace Signal

variable {s : Signal} {now t : Time}

/-- What may become of a signal at an instant: it is not taken back, and not given in the past. -/
structure Follows (now : Time) (s s' : Signal) : Prop where
  kept : ∀ u, s.givenAt = some u → u ≤ now → s'.givenAt = some u
  late : ∀ u, s'.givenAt = some u → s.givenAt = some u ∨ now ≤ u

/-- A signal may stay as it is. -/
theorem Follows.refl (now : Time) (s : Signal) : s.Follows now s :=
  ⟨fun _ h _ => h, fun _ h => .inl h⟩

/-- A signal that was given at an instant is given by it exactly if the instant is not later. -/
theorem given_of_givenAt (h : s.givenAt = some t) : s.given now = true ↔ t ≤ now := by
  simp [given, h, Time.reached]

/-- Closing gives a signal now, unless it was given by then. -/
theorem follows_close (s : Signal) (now : Time) : s.Follows now (s.close now).2 := by
  unfold close
  split
  · exact .refl now s
  · next hopen =>
    refine ⟨fun u hu hle => absurd ((given_of_givenAt hu).mpr hle) hopen, fun u hu => .inr ?_⟩
    exact (Option.some.inj hu).le

/-- A signal that is to be given later may be given earlier than that, but not in the past. -/
theorem follows_schedule (s : Signal) (hle : now ≤ t) : s.Follows now (s.schedule t) := by
  unfold schedule
  cases hgivenAt : s.givenAt with
  | none =>
      exact ⟨fun u hu => by simp [hgivenAt] at hu, fun u hu => .inr ((Option.some.inj hu) ▸ hle)⟩
  | some v =>
      constructor
      · intro u hu hnow
        obtain rfl : v = u := Option.some.inj (hgivenAt.symm.trans hu)
        simp [Time.earlier, hnow.trans hle]
      · intro u hu
        simp only [Time.earlier, Option.some.injEq] at hu
        split at hu
        · exact .inl (hgivenAt.trans (congrArg some hu))
        · exact .inr (hu ▸ hle)

end Signal

namespace Tick

/-- The tasks that wait for the points of a grid. -/
abbrev Waiters : Type := Agenda Ticker (Task Tick (Except Fault Bool))

/-- What can happen to them. -/
abbrev Happening : Type := Program.Happening Unit TickerCommand

variable {a b c : Waiters} {s s' : Ticker} {now t k : Time} {tick : Tick}
    {cut cancelAt : Option Time} {x : Task Tick (Except Fault Bool)}
    {result : Except Fault Bool} {cause : Cause} {es fs gs : List Happening} {e : Happening}
    {name : Option String} {i : ℕ}

/-! ## The end of a wait -/

/--
When and how a wait for a point ends of itself, while the signal is given at an instant, if ever.
At one instant the tick goes first.
-/
inductive Ends (point : Time) (closing : Option Time) : Time → Except Fault Bool → Prop where
  | fired (hclosing : ∀ u, closing = some u → point ≤ u) : Ends point closing point (.ok true)
  | stopped {t : Time} (hclosing : closing = some t) (hpoint : t < point) :
      Ends point closing t (.ok false)

/-- A wait ends of itself in one way only. -/
theorem Ends.unique {point : Time} {closing : Option Time} {result' : Except Fault Bool}
    (h : Ends point closing t result) (h' : Ends point closing k result') :
    t = k ∧ result = result' := by
  cases h with
  | fired hclosing =>
      cases h' with
      | fired _ => exact ⟨rfl, rfl⟩
      | stopped hgiven hpoint => exact absurd (hclosing _ hgiven) (not_le.mpr hpoint)
  | stopped hgiven hpoint =>
      cases h' with
      | fired hclosing => exact absurd (hclosing _ hgiven) (not_le.mpr hpoint)
      | stopped hgiven' _ => exact ⟨Option.some.inj (hgiven.symm.trans hgiven'), rfl⟩

/-- A wait that is over and was not cancelled has ended of itself. -/
theorem ends_of_wake (hsince : tick.since ≤ tick.point) (hbegun : Task.Begun tick now s)
    (h : (Task.waitOf s tick none).wake = some (t, cause)) :
    Ends tick.point s.signal.givenAt t (finish s t cause).2 := by
  have halarm : ∀ u, some tick.point = some u → tick.since ≤ u :=
    fun u hu => Option.some.inj hu ▸ hsince
  rcases (Wait.wake_undisturbed_iff rfl rfl halarm hbegun.le_closing).mp h with
    ⟨rfl, hpoint, hbefore⟩ | ⟨rfl, hgiven, hbefore⟩
  · obtain rfl : tick.point = t := Option.some.inj hpoint
    exact .fired hbefore
  · exact .stopped hgiven (hbefore tick.point rfl)

/-- What has ended of itself by now has ended so for good. -/
theorem Ends.of_follows (h : Ends tick.point s.signal.givenAt t result) (hle : t ≤ now)
    (hfollows : s.signal.Follows now s'.signal) : Ends tick.point s'.signal.givenAt t result := by
  cases h with
  | fired hclosing =>
      refine .fired fun u hu => ?_
      rcases hfollows.late u hu with hold | hnew
      · exact hclosing u hold
      · exact hle.trans hnew
  | stopped hgiven hpoint => exact .stopped (hfollows.kept t hgiven hle) hpoint

/-! ## Waits whatever happens -/

/-- What becomes of the signal brings no wait to an end in the past. -/
theorem upcoming_of_follows (h : x.Upcoming s now) (hfollows : s.signal.Follows now s'.signal) :
    x.Upcoming s' now := by
  cases x with
  | ended endedAt result => exact Task.upcoming_ended _ _
  | waiting tick cancelAt =>
      rw [Task.upcoming_waiting_iff] at h ⊢
      intro cause u hu
      cases cause with
      | closing =>
          rcases hfollows.late u hu with hold | hnew
          · exact h .closing u hold
          · exact hnew.trans (Time.le_later_right _ _)
      | cancellation => exact h .cancellation u hu
      | deadline => exact h .deadline u hu
      | alarm => exact h .alarm u hu

/-- A wait that has begun has done so whatever becomes of the signal. -/
theorem begun_of_follows (h : Task.Begun tick now s) (hfollows : s.signal.Follows now s'.signal) :
    Task.Begun tick now s' := by
  refine ⟨h.since_le, fun u hu => ?_⟩
  rcases hfollows.late u hu with hold | hnew
  · exact h.le_closing u hold
  · exact h.since_le.trans hnew

/-- The move of a wait that is due: it ends, and the signal stays as it is. -/
theorem exists_of_due (h : Timed.due s x = some t) :
    ∃ tick cancelAt cause, x = .waiting tick cancelAt ∧
      (Task.waitOf s tick cancelAt).wake = some (t, cause) ∧
      Timed.resume s x = ((finish s t cause).1, .ended t (finish s t cause).2) := by
  obtain ⟨tick, cancelAt, cause, rfl, hwake⟩ := Task.exists_wake_of_due h
  exact ⟨tick, cancelAt, cause, rfl, hwake, Task.resume_of_wake hwake⟩

/-- No end of a wait gives the signal. -/
theorem signal_finish (s : Ticker) (t : Time) (cause : Cause) :
    (finish s t cause).1.signal = s.signal := by
  cases cause <;> rfl

/-- A command gives the signal now or later, if at all, and leaves the grid as it is. -/
theorem follows_command (now : Time) (s : Ticker) (command : TickerCommand) :
    s.signal.Follows now
        (Served.command (τ := Task Tick (Except Fault Bool)) now s command).1.signal ∧
      (Served.command (τ := Task Tick (Except Fault Bool)) now s command).1.grid = s.grid := by
  cases command with
  | close => exact ⟨s.signal.follows_close now, rfl⟩
  | closeIn span =>
      exact ⟨s.signal.follows_schedule (le_add_of_nonneg_right (Time.le_later_left 0 span)), rfl⟩

/-- A wait that begins now is not due in the past. -/
theorem upcoming_begin (now : Time) (s : Ticker) : (begin now s).Upcoming s now := by
  unfold begin
  split
  · exact Task.upcoming_ended _ _
  · exact Task.upcoming_of_since rfl

/-- No wait is due in the past. -/
theorem standing_laws :
    Program.Laws (fun _ : Happening => True) 0 (fun _ _ => True)
      (fun _ now s (x : Task Tick (Except Fault Bool)) => x.Upcoming s now)
      (fun now s s' => s.signal.Follows now s'.signal) where
  due_ge _ hx hdue := hx _ hdue
  bears _ hx hfollows := upcoming_of_follows hx hfollows
  begin {i now s} _ _ _ := ⟨trivial, upcoming_begin now s, .refl now _⟩
  command {now s} _ command := ⟨trivial, (follows_command now s command).1⟩
  cancel _ _ hx _ := hx.cancel
  move := by
    intro i now s x _ _ hdue
    obtain ⟨tick, cancelAt, cause, rfl, -, hresume⟩ := exists_of_due hdue
    rw [hresume]
    refine ⟨trivial, Task.upcoming_ended _ _, ?_⟩
    simp only [signal_finish]
    exact .refl now _
  pass _ _ := trivial
  pass_task _ _ _ hdue := hdue

/-- Where a wait stands that was cancelled at the instant {lit}`cut`, if at all. -/
def Stands (tick : Tick) (cut : Option Time) (now : Time) (s : Ticker) :
    Task Tick (Except Fault Bool) → Prop
  | .waiting other cancelAt => other = tick ∧ cancelAt = cut ∧ ∀ k, cut = some k → now = k
  | .ended t result => t ≤ now ∧
      match cut with
      | none => Ends tick.point s.signal.givenAt t result
      | some k => t = k ∧ result = .error .aborted

/-- What a wait came to that was cancelled, if at all, it came to for good. -/
theorem Stands.of_follows (h : Stands tick cut now s x)
    (hfollows : s.signal.Follows now s'.signal) :
    Stands tick cut now s' x := by
  cases x with
  | waiting other cancelAt => exact h
  | ended t result =>
      cases cut with
      | none => exact ⟨h.1, h.2.of_follows h.1 hfollows⟩
      | some k => exact h

/-- The move of a wait brings it where a wait stands that was cancelled, if at all. -/
theorem Stands.resume (h : Stands tick cut now s x) (hsince : tick.since ≤ tick.point)
    (hbegun : Task.Begun tick now s) (hupcoming : x.Upcoming s now)
    (hdue : Timed.due s x = some now) :
    Stands tick cut now (Timed.resume s x).1 (Timed.resume s x).2 := by
  obtain ⟨other, cancelAt, cause, rfl, hwake, hresume⟩ := exists_of_due hdue
  obtain ⟨rfl, rfl, hnow⟩ := h
  rw [hresume]
  refine ⟨le_rfl, ?_⟩
  cases cancelAt with
  | none =>
      simp only [signal_finish]
      exact ends_of_wake hsince hbegun hwake
  | some k =>
      obtain rfl := hnow k rfl
      rw [hupcoming.wake_cancelled hbegun.since_le, Option.some.injEq, Prod.mk.injEq] at hwake
      rw [← hwake.2]
      exact ⟨rfl, rfl⟩

/-- Where a wait stands, whatever happens to others, if it is cancelled at one instant at most. -/
theorem laws (hsince : tick.since ≤ tick.point) (cut : Option Time) (i : ℕ) :
    Program.Laws (fun e : Happening => cut = none → e ≠ .cancel i) (i + 1) (fun _ _ => True)
      (fun j now s (x : Task Tick (Except Fault Bool)) =>
        x.Upcoming s now ∧ (j = i → Task.Begun tick now s ∧ Stands tick cut now s x))
      (fun now s s' => s.signal.Follows now s'.signal) where
  due_ge _ hx hdue := hx.1 _ hdue
  bears := by
    rintro j now s s' x - ⟨hupcoming, hx⟩ hfollows
    refine ⟨upcoming_of_follows hupcoming hfollows, fun hj => ?_⟩
    exact ⟨begun_of_follows (hx hj).1 hfollows, (hx hj).2.of_follows hfollows⟩
  begin := by
    intro j now s _ hj _
    exact ⟨trivial, ⟨upcoming_begin now s, fun h => absurd h (by omega)⟩, .refl now _⟩
  command {now s} _ command := ⟨trivial, (follows_command now s command).1⟩
  cancel := by
    rintro j now s x hpermitted - ⟨hupcoming, hx⟩ hended
    refine ⟨hupcoming.cancel, fun hj => ?_⟩
    obtain ⟨hbegun, hstands⟩ := hx hj
    cases x with
    | ended t result => simp [Timed.ended, Task.isEnded] at hended
    | waiting other cancelAt =>
        obtain ⟨rfl, rfl, hnow⟩ := hstands
        cases cancelAt with
        | none => exact absurd (hj ▸ rfl) (hpermitted rfl)
        | some k => exact ⟨hbegun, rfl, congrArg some (hnow k rfl), hnow⟩
  move := by
    rintro j now s x - ⟨hupcoming, hx⟩ hdue
    have hmoved := standing_laws.move (i := j) trivial hupcoming hdue
    refine ⟨trivial, ⟨hmoved.2.1, fun hj => ?_⟩, hmoved.2.2⟩
    obtain ⟨hbegun, hstands⟩ := hx hj
    exact ⟨begun_of_follows hbegun hmoved.2.2, hstands.resume hsince hbegun hupcoming hdue⟩
  pass _ _ := trivial
  pass_task := by
    rintro j now t s x - ⟨hupcoming, hx⟩ hle hdue
    refine ⟨hdue, fun hj => ?_⟩
    obtain ⟨hbegun, hstands⟩ := hx hj
    refine ⟨⟨hbegun.since_le.trans hle, hbegun.le_closing⟩, ?_⟩
    cases x with
    | ended u result => exact ⟨hstands.1.trans hle, hstands.2⟩
    | waiting other cancelAt =>
        obtain ⟨rfl, rfl, hnow⟩ := hstands
        refine ⟨rfl, rfl, fun k hk => ?_⟩
        -- a wait that was cancelled is due at once, so that no time passes
        subst hk
        obtain rfl := hnow k rfl
        have hwake := hupcoming.wake_cancelled hbegun.since_le
        exact le_antisymm (hdue now (by rw [Task.due_waiting, hwake, Option.map_some])) hle

/-! ## A wait among others -/

/--
The instant at which a wait that begins now ends with a tick: the point of the grid, or now if it
has passed.
-/
def firing (a : Waiters) : Time :=
  max a.now a.shared.grid.next

/-- The wait that begins now. -/
def fresh (a : Waiters) : Tick := ⟨a.now, firing a⟩

/-- Whether no wait is due in the past. -/
abbrev Standing (a : Waiters) : Prop :=
  Program.Holds 0 (fun _ _ => True) (fun _ now s (x : Task Tick (Except Fault Bool)) =>
    x.Upcoming s now) a

/-- A wait stays where it began, at the position after all others. -/
theorem taskAt_begin (a : Waiters) (name : Option String) :
    Program.taskAt (Program.begin a name ()) a.tasks.length = some (begin a.now a.shared) := by
  simp [Program.taskAt, Program.begin, Agenda.begin, Served.begin]

/--
A wait that begins while the signal is pending waits for the point of the grid, or for now if it has
passed.
-/
theorem begin_of_pending (h : a.shared.signal.given a.now = false) :
    begin a.now a.shared = .waiting (fresh a) none := by
  rw [begin, if_neg (by simp [h]), fresh, firing, Time.later_eq_max]

/-- The wait that begins now waits for no point in the past. -/
theorem since_le_point (a : Waiters) : (fresh a).since ≤ (fresh a).point :=
  le_max_left _ _

/-- A wait that has ended stays as it is. -/
theorem taskAt_of_ended (h : Program.taskAt a i = some (.ended t result))
    (hschedule : Program.Schedule a fs b) : Program.taskAt b i = some (.ended t result) := by
  obtain ⟨x, hx, hended⟩ := Option.map_eq_some_iff.mp h
  have hkept := hschedule.getElem?_of_ended (fun _ _ => Task.due_of_ended) hx (by rw [hended]; rfl)
  rw [Program.taskAt, hkept, Option.map_some, hended]

/-- No wait is due in the past after something happened. -/
theorem Standing.schedule (h : Standing a) (hschedule : Program.Schedule a es b) : Standing b :=
  hschedule.keeps standing_laws (fun _ _ => trivial) h

/-- Whatever happens, the signal is not taken back, and not given in the past. -/
theorem follows_of_happens (h : Program.Happens a e b) :
    a.shared.signal.Follows a.now b.shared.signal := by
  cases h with
  | begin name order => exact .refl _ _
  | command command => exact (follows_command a.now a.shared command).1
  | cancel i =>
      unfold Agenda.cancel
      split <;> exact .refl _ _
  | @move i t hdue _ =>
      obtain ⟨x, hx, hxdue⟩ := Option.bind_eq_some_iff.mp hdue
      obtain ⟨tick, cancelAt, cause, -, -, hresume⟩ := exists_of_due hxdue
      simp only [Agenda.resumeAt, hx, hresume, signal_finish]
      exact .refl _ _
  | pass _ _ => exact .refl _ _

/-- A signal that was given by now stays so. -/
theorem givenAt_of_schedule (h : Program.Schedule a es b)
    (hgiven : a.shared.signal.givenAt = some t) (hle : t ≤ a.now) :
    b.shared.signal.givenAt = some t := by
  induction h with
  | nil => exact hgiven
  | snoc hbefore he ih => exact (follows_of_happens he).kept t ih (hle.trans hbefore.now_le)

/-- All waits that are due now have ended after as many moves as there are waits. -/
theorem Standing.settles (h : Standing a) {n : ℕ} (hn : a.tasks.length ≤ n) :
    (a.settle n).now = a.now ∧ ∀ i, (a.settle n).dueAt i ≠ some a.now := by
  have hends : ∀ (i : ℕ) (now : Time) (s : Ticker) (x : Task Tick (Except Fault Bool)), True →
      x.Upcoming s now → Timed.due s x = some now →
      Timed.ended x = false ∧ Timed.ended (Timed.resume s x).2 = true := by
    intro i now s x _ _ hdue
    obtain ⟨tick, cancelAt, cause, rfl, -, hresume⟩ := exists_of_due hdue
    rw [hresume]
    exact ⟨rfl, rfl⟩
  obtain ⟨hnow, hidle, -⟩ := standing_laws.settles hends (List.countP_le_length.trans hn) h
  exact ⟨hnow, hidle⟩

/-- Where a wait stands that began while the signal was pending, and was not cancelled. -/
theorem stands_of_schedule (ha : Standing a) (hopen : a.shared.signal.given a.now = false)
    (hschedule : Program.Schedule (Program.begin a name ()) fs b)
    (hcancel : .cancel a.tasks.length ∉ fs) :
    Program.Holds (a.tasks.length + 1) (fun _ _ => True)
      (fun j now s (x : Task Tick (Except Fault Bool)) => x.Upcoming s now ∧
        (j = a.tasks.length → Task.Begun (fresh a) now s ∧ Stands (fresh a) none now s x)) b := by
  have hbegun : Standing (Program.begin a name ()) := ha.schedule (.snoc .nil (.begin name ()))
  refine hschedule.keeps (laws (since_le_point a) none _) ?_ ⟨?_, trivial, fun j x hx => ?_⟩
  · rintro e he - rfl
    exact hcancel he
  · simp [Program.begin, Agenda.begin]
  · refine ⟨hbegun.task j x hx, ?_⟩
    rintro rfl
    have hx' := taskAt_begin a name
    rw [Program.taskAt, hx, Option.map_some, begin_of_pending hopen, Option.some.injEq] at hx'
    rw [hx']
    refine ⟨⟨le_rfl, fun u hu => ?_⟩, rfl, rfl, by simp⟩
    -- the signal is not given by now
    by_contra hlate
    have hgiven := (Signal.given_of_givenAt hu).mpr (le_of_not_ge hlate)
    exact absurd (hopen.symm.trans hgiven) (by decide)

/--
A wait that was not cancelled, and is not due now, has ended exactly if it ends of itself by now.
-/
theorem ended_iff_ends (ha : Standing a) (hopen : a.shared.signal.given a.now = false)
    (hschedule : Program.Schedule (Program.begin a name ()) fs b)
    (hcancel : .cancel a.tasks.length ∉ fs) (hidle : b.dueAt a.tasks.length ≠ some b.now) :
    Program.taskAt b a.tasks.length = some (.ended t result) ↔
      Ends (firing a) b.shared.signal.givenAt t result ∧ t ≤ b.now := by
  have hholds := stands_of_schedule ha hopen hschedule hcancel
  obtain ⟨⟨other, x⟩, hx, htaskAt⟩ := Program.exists_taskAt hholds.base_le
  obtain ⟨hupcoming, hstands⟩ := hholds.task _ _ hx
  obtain ⟨hbegun, hstands⟩ := hstands rfl
  rw [htaskAt]
  cases x with
  | ended u other =>
      constructor
      · intro heq
        obtain ⟨rfl, rfl⟩ := Task.ended.inj (Option.some.inj heq)
        exact ⟨hstands.2, hstands.1⟩
      · rintro ⟨hends, -⟩
        obtain ⟨rfl, rfl⟩ := hends.unique hstands.2
        rfl
  | waiting other cancelAt =>
      obtain ⟨rfl, rfl, -⟩ := hstands
      refine ⟨fun heq => by simp at heq, ?_⟩
      rintro ⟨hends, hle⟩
      -- its wait is over by now at the latest, and not in the past
      obtain ⟨cause, hcause⟩ : ∃ cause, (Task.waitOf b.shared (fresh a) none).instant cause =
          some t := by
        cases hends with
        | fired _ => exact ⟨.alarm, rfl⟩
        | stopped hgiven _ => exact ⟨.closing, hgiven⟩
      have hsince : a.now ≤ t := by
        cases hends with
        | fired _ => exact le_max_left _ _
        | stopped hgiven _ => exact hbegun.le_closing t hgiven
      obtain ⟨⟨v, cause⟩, hwake, hbefore⟩ := Wait.exists_wake_le hcause
      have hdue : Timed.due b.shared (.waiting (fresh a) none : Task Tick (Except Fault Bool)) =
          some v := by rw [Task.due_waiting, hwake, Option.map_some]
      have hlate : v ≤ b.now := hbefore.trans ((Time.later_of_le hsince).trans_le hle)
      obtain rfl : v = b.now := le_antisymm hlate (hupcoming v hdue)
      refine absurd ?_ hidle
      simp only [Agenda.dueAt, hx, Option.bind_some, hdue]

/-- A wait that goes on, and is not due, when the signal is given ends by that, without a tick. -/
theorem stopped_of_close (ha : Standing a) (hopen : a.shared.signal.given a.now = false)
    (hschedule : Program.Schedule (Program.begin a name ()) fs b)
    (hcancel : .cancel a.tasks.length ∉ fs) (hpending : b.hasEnded a.tasks.length = false)
    (hidle : b.dueAt a.tasks.length ≠ some b.now)
    (hrest : Program.Schedule (Program.order b TickerCommand.close) gs c)
    (hcancel' : .cancel a.tasks.length ∉ gs) (hidle' : c.dueAt a.tasks.length ≠ some c.now) :
    Program.taskAt c a.tasks.length = some (.ended b.now (.ok false)) := by
  have hended : ∀ t result, Ends (firing a) b.shared.signal.givenAt t result → ¬ t ≤ b.now := by
    intro t result hends hle
    have htask := (ended_iff_ends ha hopen hschedule hcancel hidle).mpr ⟨hends, hle⟩
    obtain ⟨x, hx, hxended⟩ := Option.map_eq_some_iff.mp htask
    simp [Agenda.hasEnded, hx, hxended, Timed.ended, Task.isEnded] at hpending
  -- neither has the point passed, nor was the signal given before
  have hpending' : ∀ u, b.shared.signal.givenAt = some u → b.now < u := by
    intro u hu
    by_contra hlate
    rcases lt_or_ge u (firing a) with hlt | hge
    · exact hended u _ (.stopped hu hlt) (not_lt.mp hlate)
    · refine hended _ _ (.fired fun v hv => ?_) (hge.trans (not_lt.mp hlate))
      exact Option.some.inj (hu.symm.trans hv) ▸ hge
  have hpoint : b.now < firing a := by
    by_contra hlate
    refine hended _ _ (.fired fun u hu => ?_) (not_lt.mp hlate)
    exact (not_lt.mp hlate).trans (hpending' u hu).le
  have hnotgiven : b.shared.signal.given b.now = false := by
    cases hgivenAt : b.shared.signal.givenAt with
    | none => simp [Signal.given, hgivenAt, Time.reached]
    | some u =>
        rw [← Bool.not_eq_true, Signal.given_of_givenAt hgivenAt]
        exact not_le.mpr (hpending' u hgivenAt)
  have hclosed : (Program.order b TickerCommand.close).shared.signal.givenAt = some b.now := by
    simp [Program.order, Served.command, Signal.close, hnotgiven]
  have hclosing : Program.Schedule b ([.command .close] ++ gs) c :=
    (Program.Schedule.nil.snoc (.command TickerCommand.close)).append hrest
  have hgiven := givenAt_of_schedule hrest hclosed le_rfl
  refine (ended_iff_ends ha hopen (hschedule.append hclosing) ?_ hidle').mpr
    ⟨.stopped hgiven hpoint, hrest.now_le⟩
  simp [hcancel, hcancel']

/-- A wait that is cancelled while it goes on ends by that, at once. -/
theorem ended_of_cancel (ha : Standing a) (hopen : a.shared.signal.given a.now = false)
    (hschedule : Program.Schedule (Program.begin a name ()) fs b)
    (hcancel : .cancel a.tasks.length ∉ fs) (hpending : b.hasEnded a.tasks.length = false)
    (hrest : Program.Schedule (b.cancel a.tasks.length).2 gs c)
    (hidle : c.dueAt a.tasks.length ≠ some c.now) :
    Program.taskAt c a.tasks.length = some (.ended b.now (.error .aborted)) := by
  have hholds := stands_of_schedule ha hopen hschedule hcancel
  have hcut : Program.Holds (a.tasks.length + 1) (fun _ _ => True)
      (fun j now s (x : Task Tick (Except Fault Bool)) => x.Upcoming s now ∧
        (j = a.tasks.length → Task.Begun (fresh a) now s ∧ Stands (fresh a) (some b.now) now s x))
      (b.cancel a.tasks.length).2 := by
    simp only [Agenda.cancel, hpending, Bool.false_eq_true, if_false]
    refine ⟨by simpa using hholds.base_le, trivial, fun j x hx => ?_⟩
    rw [List.getElem?_modify] at hx
    obtain ⟨⟨other, y⟩, hy, rfl⟩ := Option.map_eq_some_iff.mp hx
    obtain ⟨hupcoming, hstands⟩ := hholds.task j _ hy
    by_cases hj : a.tasks.length = j
    · rw [if_pos hj]
      refine ⟨hupcoming.cancel, fun _ => ?_⟩
      obtain ⟨hbegun, hstands⟩ := hstands hj.symm
      cases y with
      | ended t result => simp [Agenda.hasEnded, hj, hy, Timed.ended, Task.isEnded] at hpending
      | waiting other cancelAt => exact ⟨hbegun, hstands.1, rfl, fun k hk => Option.some.inj hk⟩
    · rw [if_neg hj]
      exact ⟨hupcoming, fun h => absurd h.symm hj⟩
  have hend := hrest.keeps (laws (since_le_point a) (some b.now) _) (by simp) hcut
  obtain ⟨⟨other, x⟩, hx, htaskAt⟩ := Program.exists_taskAt hend.base_le
  obtain ⟨hupcoming, hstands⟩ := hend.task _ _ hx
  obtain ⟨hbegun, hstands⟩ := hstands rfl
  rw [htaskAt]
  cases x with
  | ended t result =>
      obtain ⟨rfl, rfl⟩ := hstands.2
      rfl
  | waiting other cancelAt =>
      obtain ⟨rfl, rfl, hnow⟩ := hstands
      have hwake := hnow b.now rfl ▸ hupcoming.wake_cancelled hbegun.since_le
      refine absurd ?_ hidle
      simp only [Agenda.dueAt, hx, Option.bind_some, Task.due_waiting, hwake, Option.map_some,
        hnow b.now rfl]

/-- A wait that begins after the signal was given is over at once, without a tick. -/
theorem ended_of_given (hgiven : a.shared.signal.given a.now = true)
    (hschedule : Program.Schedule (Program.begin a name ()) fs b) :
    Program.taskAt b a.tasks.length = some (.ended a.now (.ok false)) := by
  refine taskAt_of_ended ?_ hschedule
  rw [taskAt_begin, begin, if_pos hgiven]

/-! ## Waits that follow each other -/

/-- Whether nobody waits. -/
def Idle (a : Waiters) : Prop :=
  ∀ i, a.hasEnded i = true

/-- Schedules on which a wait begins only when nobody waits. -/
inductive Solitary (a : Waiters) : List Happening → Waiters → Prop where
  | nil : Solitary a [] a
  | snoc {es : List Happening} {b c : Waiters} {e : Happening} (h : Solitary a es b)
      (hidle : ∀ name, e = .begin name () → Idle b) (he : Program.Happens b e c) :
        Solitary a (es ++ [e]) c

/-- Schedules on which waits follow each other are schedules. -/
theorem Solitary.schedule (h : Solitary a es b) : Program.Schedule a es b := by
  induction h with
  | nil => exact .nil
  | snoc _ _ he ih => exact ih.snoc he

/-- A schedule on which waits follow each other that continues another one. -/
theorem Solitary.append (h : Solitary a es b) (h' : Solitary b fs c) : Solitary a (es ++ fs) c := by
  induction h' with
  | nil => simpa using h
  | snoc _ hidle he ih =>
      rw [← List.append_assoc]
      exact ih.snoc hidle he

/-- A signal that was not given and a grid, at an instant when nobody has waited yet. -/
def outset (created : Time) (grid : Grid) : Waiters :=
  ⟨created, ⟨.pending, grid⟩, []⟩

/-- Along a schedule from the outset no wait is due in the past. -/
theorem Solitary.standing {created : Time} {grid : Grid} (h : Solitary (outset created grid) es a) :
    Standing a := by
  refine Standing.schedule ⟨Nat.zero_le _, trivial, fun i x hx => ?_⟩ h.schedule
  simp [outset] at hx

/--
What becomes of a grid, whose points are counted from the instant at which it was made, when
something happens.
-/
inductive Effect (created period : Time) (a : Waiters) (e : Happening) (b : Waiters) : Prop where
  /--
  A wait ends with a tick at the point, or at its begin if that is later, and the grid moves on.
  -/
  | fired {i : ℕ} {tick : Tick} {cancelAt : Option Time} {t : Time} (he : e = .move i)
      (hwaiting : Program.taskAt a i = some (.waiting tick cancelAt))
      (htime : t = max tick.since a.shared.grid.next)
      (hended : Program.taskAt b i = some (.ended t (.ok true)))
      (hnext : FirstAfter created period t b.shared.grid.next)
  /-- Anything else, such as a wait that ends without a tick, leaves the grid as it was. -/
  | kept (hgrid : b.shared.grid = a.shared.grid)
      (hresult : ∀ i t, e = .move i → Program.taskAt b i ≠ some (.ended t (.ok true)))

/-- What holds of a grid and of those who wait for it if waits follow each other. -/
structure Lone (created period : Time) (a : Waiters) : Prop where
  period_eq : a.shared.grid.period = period
  point : ∃ j : ℕ, 1 ≤ j ∧ a.shared.grid.next = created + j * period
  /-- Only the wait that began last may go on, and it waits for the point of the grid. -/
  waiting : ∀ i tick cancelAt, Program.taskAt a i = some (.waiting tick cancelAt) →
    i + 1 = a.tasks.length ∧ tick.point = max tick.since a.shared.grid.next

variable {created period : Time}

/-- A wait that has not ended goes on. -/
theorem hasEnded_of_waiting (h : Program.taskAt a i = some (.waiting tick cancelAt)) :
    a.hasEnded i = false := by
  obtain ⟨x, hx, hwaiting⟩ := Option.map_eq_some_iff.mp h
  simp [Agenda.hasEnded, hx, hwaiting, Timed.ended, Task.isEnded]

/-- A grid stays with those who wait for it, as long as it stays and no others wait. -/
theorem Lone.of_waiting (h : Lone created period a) (hgrid : b.shared.grid = a.shared.grid)
    (hlength : b.tasks.length = a.tasks.length)
    (hwaiting : ∀ i tick cancelAt, Program.taskAt b i = some (.waiting tick cancelAt) →
      ∃ cancelAt, Program.taskAt a i = some (.waiting tick cancelAt)) : Lone created period b := by
  refine ⟨hgrid ▸ h.period_eq, hgrid ▸ h.point, fun i tick cancelAt hb => ?_⟩
  obtain ⟨cancelAt, ha⟩ := hwaiting i tick cancelAt hb
  rw [hgrid, hlength]
  exact h.waiting i tick cancelAt ha

/-- A wait that begins when nobody waits is the only one, and waits for the point of the grid. -/
theorem Lone.begin (h : Lone created period a) (hidle : Idle a) (name : Option String) :
    Lone created period (Program.begin a name ()) := by
  refine ⟨h.period_eq, h.point, fun i tick cancelAt hwaiting => ?_⟩
  rcases lt_trichotomy i a.tasks.length with hi | rfl | hi
  · have hold : Program.taskAt a i = some (.waiting tick cancelAt) := by
      rw [← hwaiting]
      simp only [Program.taskAt, Program.begin, Agenda.begin, List.getElem?_append_left hi]
    exact absurd (hidle i) (by simp [hasEnded_of_waiting hold])
  · rw [taskAt_begin] at hwaiting
    refine ⟨by simp [Program.begin, Agenda.begin], ?_⟩
    cases hgiven : a.shared.signal.given a.now with
    | true => simp [Tick.begin, hgiven] at hwaiting
    | false =>
        rw [begin_of_pending hgiven, Option.some.injEq, Task.waiting.injEq] at hwaiting
        rw [← hwaiting.1]
        rfl
  · have hlength : (Program.begin a name ()).tasks.length ≤ i := by
      simpa [Program.begin, Agenda.begin] using Nat.succ_le_of_lt hi
    simp [Program.taskAt, List.getElem?_eq_none hlength] at hwaiting

/-- The cancellation of a wait leaves all waits where they stand. -/
theorem waiting_of_cancel {j : ℕ}
    (h : Program.taskAt (a.cancel j).2 i = some (.waiting tick cancelAt)) :
    ∃ cancelAt, Program.taskAt a i = some (.waiting tick cancelAt) := by
  unfold Agenda.cancel at h
  split at h
  · exact ⟨cancelAt, h⟩
  · obtain ⟨x, hx, hwaiting⟩ := Option.map_eq_some_iff.mp h
    rw [List.getElem?_modify] at hx
    obtain ⟨⟨other, y⟩, hy, rfl⟩ := Option.map_eq_some_iff.mp hx
    split at hwaiting
    · cases y with
      | ended t result => simp [Timed.cancel, Task.cancel] at hwaiting
      | waiting tick' cancelAt' =>
          obtain rfl : tick' = tick := (Task.waiting.inj hwaiting).1
          exact ⟨cancelAt', by simp [Program.taskAt, hy]⟩
    · exact ⟨cancelAt, by simpa [Program.taskAt, hy] using hwaiting⟩

/-- The move of a wait that is due: it ends, and nothing else happens to others. -/
theorem exists_of_dueAt (h : a.dueAt i = some t) :
    ∃ tick cancelAt cause, Program.taskAt a i = some (.waiting tick cancelAt) ∧
      (Task.waitOf a.shared tick cancelAt).wake = some (t, cause) ∧
      (a.resumeAt t i).shared = (finish a.shared t cause).1 ∧
      Program.taskAt (a.resumeAt t i) i = some (.ended t (finish a.shared t cause).2) ∧
      (∀ j, j ≠ i → Program.taskAt (a.resumeAt t i) j = Program.taskAt a j) := by
  obtain ⟨⟨other, x⟩, hx, hdue⟩ := Option.bind_eq_some_iff.mp h
  obtain ⟨tick, cancelAt, cause, rfl, hwake, hresume⟩ := exists_of_due hdue
  have hi : i < a.tasks.length := (List.getElem?_eq_some_iff.mp hx).1
  refine ⟨tick, cancelAt, cause, by simp [Program.taskAt, hx], hwake, ?_, ?_, fun j hj => ?_⟩
  · simp only [Agenda.resumeAt, hx, hresume]
  · simp only [Program.taskAt, Agenda.resumeAt, hx, hresume,
      List.getElem?_set_self hi, Option.map_some]
  · simp [Program.taskAt, Agenda.resumeAt, hx, List.getElem?_set_ne hj.symm]

/-- What becomes of a grid when something happens. -/
theorem Lone.effect (h : Lone created period a) (he : Program.Happens a e b) :
    Effect created period a e b := by
  cases he with
  | begin name order => exact .kept rfl (by simp)
  | command command => exact .kept (follows_command a.now a.shared command).2 (by simp)
  | pass _ _ => exact .kept rfl (by simp)
  | cancel i =>
      refine .kept ?_ (by simp)
      unfold Agenda.cancel
      split <;> rfl
  | @move i t hdue _ =>
      obtain ⟨tick, cancelAt, cause, hwaiting, hwake, hshared, hended, -⟩ := exists_of_dueAt hdue
      have hkept (hgrid : (finish a.shared t cause).1 = a.shared)
          (hresult : (finish a.shared t cause).2 ≠ .ok true) :
          Effect created period a (.move i) (a.resumeAt t i) := by
        refine .kept (by rw [hshared, hgrid]) ?_
        rintro j u hj htrue
        obtain rfl : i = j := by simpa using hj
        rw [hended, Option.some.injEq, Task.ended.injEq] at htrue
        exact hresult htrue.2
      cases cause with
      | cancellation => exact hkept rfl (by simp [finish])
      | deadline => exact hkept rfl (by simp [finish])
      | closing => exact hkept rfl (by simp [finish])
      | alarm =>
          obtain ⟨⟨u, hu, htime⟩, -⟩ := Wait.wake_eq_some_iff.mp hwake
          obtain rfl : tick.point = u := Option.some.inj hu
          have htime : t = max tick.since a.shared.grid.next := by
            rw [htime, Time.later_eq_max, (h.waiting i tick cancelAt hwaiting).2]
            exact max_eq_right (le_max_left _ _)
          obtain ⟨j, -, hpoint⟩ := h.point
          refine .fired rfl hwaiting htime hended ?_
          rw [hshared, ← h.period_eq]
          exact Grid.firstAfter_advance (h.period_eq.symm ▸ hpoint) (htime ▸ le_max_right _ _)

/-- Whatever happens, if a wait begins only when nobody waits, it is the only one. -/
theorem Lone.happens (h : Lone created period a) (hidle : ∀ name, e = .begin name () → Idle a)
    (he : Program.Happens a e b) : Lone created period b := by
  have heffect := h.effect he
  cases he with
  | begin name order => exact h.begin (hidle name rfl) name
  | command command =>
      exact h.of_waiting (follows_command a.now a.shared command).2 rfl
        fun i tick cancelAt hb => ⟨cancelAt, hb⟩
  | pass _ _ => exact h.of_waiting rfl rfl fun i tick cancelAt hb => ⟨cancelAt, hb⟩
  | cancel i =>
      refine h.of_waiting ?_ ?_ fun j tick cancelAt => waiting_of_cancel
      · unfold Agenda.cancel
        split <;> rfl
      · unfold Agenda.cancel
        split <;> simp
  | @move i t hdue _ =>
      obtain ⟨tick, cancelAt, cause, hwaiting, -, hshared, hended, hothers⟩ := exists_of_dueAt hdue
      have hperiod : (a.resumeAt t i).shared.grid.period = period := by
        rw [hshared, ← h.period_eq]
        cases cause <;> rfl
      -- the wait that ends was the only one
      have hnone : ∀ j tick cancelAt,
          Program.taskAt (a.resumeAt t i) j ≠ some (.waiting tick cancelAt) := by
        intro j tick' cancelAt' hj
        by_cases hij : j = i
        · subst hij
          simp [hended] at hj
        · rw [hothers j hij] at hj
          have hlast := (h.waiting j _ _ hj).1.trans (h.waiting i _ _ hwaiting).1.symm
          exact hij (Nat.succ.inj hlast)
      refine ⟨hperiod, ?_, fun j tick cancelAt hj => absurd hj (hnone j tick cancelAt)⟩
      cases heffect with
      | kept hgrid _ => exact hgrid ▸ h.point
      | fired _ _ htime _ hnext =>
          obtain ⟨⟨hafter, j, hj⟩, -⟩ := hnext
          refine ⟨j, Nat.one_le_iff_ne_zero.mpr ?_, hj⟩
          rintro rfl
          -- the tick would come before the grid was made
          obtain ⟨k, -, hk⟩ := h.point
          have hpos : 0 < period := h.period_eq ▸ a.shared.grid.period_pos
          have hmade : created ≤ a.shared.grid.next := hk ▸ le_add_of_nonneg_right (by positivity)
          rw [hj, htime, Nat.cast_zero, zero_mul, add_zero, max_lt_iff] at hafter
          exact absurd hmade (not_le.mpr hafter.2)

/-- On a schedule on which waits follow each other there is never more than one of them. -/
theorem Lone.solitary (h : Lone created period a) (hsolitary : Solitary a es b) :
    Lone created period b := by
  induction hsolitary with
  | nil => exact h
  | snoc _ hidle he ih => exact ih.happens hidle he

/-- A grid that was just made has its first point one period after that, and nobody waits for it. -/
theorem lone_outset {grid : Grid} (h : Grid.make? period created = .ok grid) :
    Lone created period (outset created grid) := by
  unfold Grid.make? at h
  split at h
  · simp only [Except.ok.injEq] at h
    subst h
    refine ⟨rfl, ⟨1, le_rfl, by simp [outset]⟩, fun i tick cancelAt hwaiting => ?_⟩
    simp [Program.taskAt, outset] at hwaiting
  · simp at h

/-- As long as no wait ends with a tick, the grid stays as it was. -/
theorem Lone.grid_eq (h : Lone created period a) (hsolitary : Solitary a es b)
    (hnone : ∀ i t, Program.taskAt b i = some (.ended t (.ok true)) →
      Program.taskAt a i = some (.ended t (.ok true))) : b.shared.grid = a.shared.grid := by
  induction hsolitary with
  | nil => rfl
  | @snoc es b c e hbefore hidle he ih =>
      have hstays : Program.Schedule b [e] c := .snoc .nil he
      have hgrid := ih fun i t hb => hnone i t (taskAt_of_ended hb hstays)
      cases (h.solitary hbefore).effect he with
      | kept hsame _ => exact hsame.trans hgrid
      | fired _ hwaiting _ hended _ =>
          -- a wait that ended with a tick just now goes on before, and has not ended earlier
          have hearlier := taskAt_of_ended (hnone _ _ hended) hbefore.schedule
          rw [hwaiting] at hearlier
          simp at hearlier

/-- What is to be said of a wait that begins now, whatever happens afterwards. -/
structure Kept (a : Waiters) (name : Option String) : Prop where
  /--
  The signal was given before: it is over at once, without a tick, even if the point was overrun.
  -/
  given : a.shared.signal.given a.now = true →
    ∀ (fs : List Happening) (b : Waiters), Program.Schedule (Program.begin a name ()) fs b →
      Program.taskAt b a.tasks.length = some (.ended a.now (.ok false))
  /--
  It is not cancelled: it ends with a tick, or by the signal if that is given before, and not else.
  -/
  ends : a.shared.signal.given a.now = false →
    ∀ (fs : List Happening) (b : Waiters), Program.Schedule (Program.begin a name ()) fs b →
      .cancel a.tasks.length ∉ fs → b.dueAt a.tasks.length ≠ some b.now →
      ∀ t result, Program.taskAt b a.tasks.length = some (.ended t result) ↔
        Ends (firing a) b.shared.signal.givenAt t result ∧ t ≤ b.now
  /-- The signal is given while it goes on: it ends then, without a tick. -/
  stopped : a.shared.signal.given a.now = false →
    ∀ (fs : List Happening) (b : Waiters), Program.Schedule (Program.begin a name ()) fs b →
      .cancel a.tasks.length ∉ fs → b.hasEnded a.tasks.length = false →
      b.dueAt a.tasks.length ≠ some b.now →
      ∀ (gs : List Happening) (c : Waiters),
        Program.Schedule (Program.order b TickerCommand.close) gs c →
        .cancel a.tasks.length ∉ gs → c.dueAt a.tasks.length ≠ some c.now →
        Program.taskAt c a.tasks.length = some (.ended b.now (.ok false))
  /-- It is cancelled while it goes on: it ends by that. -/
  aborted : a.shared.signal.given a.now = false →
    ∀ (fs : List Happening) (b : Waiters), Program.Schedule (Program.begin a name ()) fs b →
      .cancel a.tasks.length ∉ fs → b.hasEnded a.tasks.length = false →
      ∀ (gs : List Happening) (c : Waiters), Program.Schedule (b.cancel a.tasks.length).2 gs c →
        c.dueAt a.tasks.length ≠ some c.now →
        Program.taskAt c a.tasks.length = some (.ended b.now (.error .aborted))
  /--
  As long as no wait ends with a tick, the grid stays as it is, and a wait that begins then ends
  with a tick when this one would have, or at once if that has passed.
  -/
  resumed : Idle a →
    ∀ (fs : List Happening) (b : Waiters), Solitary (Program.begin a name ()) fs b →
      (∀ i t, Program.taskAt b i = some (.ended t (.ok true)) →
        Program.taskAt a i = some (.ended t (.ok true))) →
      b.shared.grid = a.shared.grid ∧ firing b = max b.now (firing a)

/-- A wait that began is over or goes on, and those before it are as they were. -/
theorem taskAt_begin_of_ended (h : Program.taskAt a i = some (.ended t result))
    (name : Option String) :
    Program.taskAt (Program.begin a name ()) i = some (.ended t result) :=
  taskAt_of_ended h (.snoc .nil (.begin name ()))

/-- What comes of a wait that begins now. -/
theorem Lone.kept (h : Lone created period a) (ha : Standing a)
    (name : Option String) : Kept a name where
  given hgiven fs b hschedule := ended_of_given hgiven hschedule
  ends hopen fs b hschedule hcancel hidle t result :=
    ended_iff_ends ha hopen hschedule hcancel hidle
  stopped hopen fs b hschedule hcancel hpending hidle gs c hrest hcancel' hidle' :=
    stopped_of_close ha hopen hschedule hcancel hpending hidle hrest hcancel' hidle'
  aborted hopen fs b hschedule hcancel hpending gs c hrest hidle :=
    ended_of_cancel ha hopen hschedule hcancel hpending hrest hidle
  resumed hidle fs b hsolitary hnone := by
    have hgrid : b.shared.grid = a.shared.grid :=
      (h.begin hidle name).grid_eq hsolitary fun i t hb => taskAt_begin_of_ended (hnone i t hb) name
    refine ⟨hgrid, ?_⟩
    have hnow : a.now ≤ b.now := hsolitary.schedule.now_le
    rw [firing, firing, hgrid, ← max_assoc, max_eq_left hnow]

end Tick

/--
On every schedule on which waits for a grid follow each other, the next point of the grid lies a
positive number of periods after the instant at which it was made.  A wait that ends without a tick
leaves the grid as it was; one that ends with a tick does so at the point, or at its begin if that
is later, and the grid moves on to the first point after the tick.  So the wait after one that was
interrupted ends with a tick when that one would have, or at once if that has passed.  After the
signal was given every wait is over at once, without a tick.
-/
theorem Ticker.interruptions_consume_nothing {period : Time} (hperiod : 0 < period)
    (created : Time) :
    ∃ grid, Grid.make? period created = .ok grid ∧
      ∀ (es : List Tick.Happening) (a : Tick.Waiters),
        Tick.Solitary (Tick.outset created grid) es a →
        (∃ j : ℕ, 1 ≤ j ∧ a.shared.grid.next = created + j * period) ∧
        (∀ e b, Program.Happens a e b → Tick.Effect created period a e b) ∧
        (∀ name, Tick.Kept a name) ∧
        (∀ (i : ℕ) (t : Time) (result : Except Fault Bool),
          Program.taskAt a i = some (.ended t result) →
          ∀ (fs : List Tick.Happening) (b : Tick.Waiters), Program.Schedule a fs b →
            Program.taskAt b i = some (.ended t result)) ∧
        ∀ n, a.tasks.length ≤ n →
          (a.settle n).now = a.now ∧ ∀ i, (a.settle n).dueAt i ≠ some a.now := by
  have hmake : Grid.make? period created = .ok ⟨period, created + period, hperiod⟩ := by
    simp [Grid.make?, hperiod]
  refine ⟨_, hmake, fun es a hsolitary => ?_⟩
  have hlone := (Tick.lone_outset hmake).solitary hsolitary
  have hstanding := hsolitary.standing
  exact ⟨hlone.point, fun e b => hlone.effect, hlone.kept hstanding,
    fun i t result hended fs b => Tick.taskAt_of_ended hended,
    fun n hn => Tick.Standing.settles hstanding hn⟩

/-- A grid with points every five seconds, made at the start of time. -/
def Tick.start : Tick.Waiters :=
  Tick.outset 0 ⟨5, 5, by decide +kernel⟩

/-- A wait for its first point goes on after two seconds. -/
def Tick.waiting : Tick.Waiters :=
  { Program.begin Tick.start none () with now := 2 }

/-- It was cancelled then, and the point has passed since. -/
def Tick.overrun : Tick.Waiters :=
  { (Tick.waiting.cancel 0).2.resumeAt 2 0 with now := 7 }

/--
The wait after the one that was cancelled ends with a tick at once, since the point has passed.
-/
theorem Ticker.cancelled_resumed :
    (0 : Time) < 5 ∧
      Tick.Solitary Tick.start [.begin none (), .pass 2, .cancel 0, .move 0, .pass 7] Tick.overrun ∧
      Tick.firing Tick.overrun = max 7 (Tick.firing Tick.start) ∧
      Program.taskAt ((Program.begin Tick.overrun none ()).resumeAt 7 1) 1 =
        some (.ended 7 (.ok true)) := by
  have hperiod : (0 : Time) < 5 := by decide +kernel
  have hfirst : (Program.begin Tick.start none ()).next? = some (5, 0) := by decide +kernel
  have hcancelled : (Tick.waiting.cancel 0).2.next? = some (2, 0) := by decide +kernel
  have hended : ((Tick.waiting.cancel 0).2.resumeAt 2 0).next? = none := by decide +kernel
  have hsecond : (Program.begin Tick.overrun none ()).next? = some (7, 1) := by decide +kernel
  have hlast : ((Program.begin Tick.overrun none ()).resumeAt 7 1).next? = none := by decide +kernel
  obtain ⟨hdue, hquiet⟩ := Agenda.due_of_next? hcancelled
  obtain ⟨hdue', hquiet'⟩ := Agenda.due_of_next? hsecond
  have hidle : Tick.Idle Tick.start := fun i => by simp [Agenda.hasEnded, Tick.start, Tick.outset]
  have hwait : Tick.Solitary (Program.begin Tick.start none ()) [.pass 2] Tick.waiting := by
    refine .snoc .nil (by simp) (.pass (by decide +kernel) fun i u hu => ?_)
    have hle : (2 : Time) ≤ 5 := by decide +kernel
    exact hle.trans ((Agenda.due_of_next? hfirst).2 i u hu)
  have hcancel := (hwait.snoc (by simp) (.cancel 0)).snoc (by simp) (.move hdue hquiet)
  have hoverrun : Tick.Solitary (Program.begin Tick.start none ())
      [.pass 2, .cancel 0, .move 0, .pass 7] Tick.overrun := by
    refine hcancel.snoc (by simp) (.pass (by decide +kernel) fun i u hu => ?_)
    simp [Agenda.dueAt_eq_none_of_next? hended i] at hu
  have hschedule := (Tick.Solitary.nil.snoc (fun _ _ => hidle) (.begin none ())).append hoverrun
  obtain ⟨grid, hgrid, hall⟩ := interruptions_consume_nothing hperiod 0
  have hstart : Tick.outset 0 grid = Tick.start := by
    simp only [Grid.make?, hperiod, dite_true, Except.ok.injEq] at hgrid
    rw [← hgrid, Tick.start]
    simp only [zero_add]
  rw [hstart] at hall
  obtain ⟨-, -, hkept, -⟩ := hall _ _ .nil
  obtain ⟨-, -, hkept', -⟩ := hall _ _ hschedule
  obtain ⟨-, hfiring⟩ := (hkept none).resumed hidle _ _ hoverrun fun i t htrue => by
    obtain ⟨x, hx, hended⟩ := Option.map_eq_some_iff.mp htrue
    have hi : i = 0 := by
      have hlt := (List.getElem?_eq_some_iff.mp hx).1
      have hlength : Tick.overrun.tasks.length = 1 := by decide +kernel
      omega
    subst hi
    have htask : Program.taskAt Tick.overrun 0 = some (.ended 2 (.error .aborted)) := by rfl
    rw [htask] at htrue
    simp at htrue
  refine ⟨hperiod, hschedule, hfiring, ?_⟩
  refine ((hkept' none).ends (by decide +kernel) [.move 1] _
    (.snoc .nil (.move hdue' hquiet')) ?_ ?_ 7
    (.ok true)).mpr ⟨?_, le_rfl⟩
  · simp
  · exact fun h => by simp [Agenda.dueAt_eq_none_of_next? hlast] at h
  · have hpoint : Tick.firing Tick.overrun = 7 := by decide +kernel
    rw [hpoint]
    exact .fired (by rintro u ⟨-⟩)

end ChainPoll

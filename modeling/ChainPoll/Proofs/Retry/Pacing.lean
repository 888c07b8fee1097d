import ChainPoll.Proofs.Retry.Outcomes
import ChainPoll.Proofs.Timeline.Points

/-!
# The pace of a call

After its first attempt has failed a call keeps to a grid: each further attempt starts at the first
point of the grid after the start of the one before it, or at the end of that one if this is later.
So the grid never drifts, points that are overrun are dropped but for one, and in any order of
events only so many attempts start within a window of time.

Main results:

- Theorem {lit}`Retry.Moved.pacing`: each move of a call keeps it to its grid.
- Theorem {lit}`Retry.Plan.Reaches.pacing`: wherever a call comes to, it has kept to its grid.
- Theorem {lit}`Retry.Plan.keeps_pace`: when the attempts of a call start, and how many of them in a
  window.
-/

namespace ChainPoll
namespace Retry

variable {hub hub' : Hub} {r r' : Retry} {t : Time} {cause : Cause}

/-! ## Moves in any order of events -/

/--
The move by what may end the wait of a call is one of the moves, whatever it sees of what it shares.
-/
theorem moved_moveBy {w : Wait} (hwait : r.wait? hub = some w)
    (hend : w.MayEnd t cause) (seen : Hub) :
    Moved seen r t (r.moveBy seen t cause).1 (r.moveBy seen t cause).2 := by
  cases hphase : r.phase with
  | flying flight grid =>
      simp only [moveBy, hphase]
      exact moved_land hphase t cause
  | ticking grid since =>
      simp only [moveBy, hphase]
      refine moved_wakeUp hphase ?_
      rintro rfl
      have hw : w = .within r.limits since (some grid.next) hub.signal.givenAt := by
        simpa [wait?, hphase, eq_comm] using hwait
      obtain ⟨u, hu, ht⟩ := Wait.mem_causes_iff.mp hend.1
      rw [hw] at hu ht
      obtain rfl : grid.next = u := Option.some.inj hu
      exact ht
  | ended endedAt outcome => simp [wait?, hphase] at hwait

/-- A wait never ends before the call came to where it stands. -/
theorem began_le_of_mayEnd {w : Wait} (hwait : r.wait? hub = some w) (hend : w.MayEnd t cause) :
    r.began ≤ t := by
  obtain ⟨u, -, ht⟩ := Wait.mem_causes_iff.mp hend.1
  rw [← since_of_wait? hwait, ht]
  exact Time.le_later_left _ _

/-! ## Keeping to the grid -/

/-- The instants at which the requests of a call started, the one under way included. -/
def startTimes (r : Retry) : List Time :=
  r.starts.map Prod.fst

/-- The instants at which the requests of a call ended. -/
def endTimes (r : Retry) : List Time :=
  r.trace.requests.map Request.endedAt

/--
Whether a call that is not over has its grid where it should be: there is none before the first
request has ended; from then on it counts from that end, and its next point is the first one after
the start of the last request, or after that end if there is only one request.
-/
def OnGrid (r : Retry) : Prop :=
  match r.phase with
  | .flying _ none => r.endTimes = []
  | .flying flight (some grid) =>
    grid.period = r.policy.period ∧ ∃ c, r.endTimes[0]? = some c ∧
      FirstAfter c grid.period flight.startedAt grid.next
  | .ticking grid since =>
    grid.period = r.policy.period ∧ r.endTimes.getLast? = some since ∧
      ∃ c s, r.endTimes[0]? = some c ∧ FirstAfter c grid.period s grid.next ∧
        (r.endTimes.length = 1 → s = c) ∧
          ∀ n, r.endTimes.length = n + 2 → r.startTimes[n + 1]? = some s
  | .ended _ _ => True

/-- Whether a call has kept to its grid so far. -/
structure Pacing (r : Retry) : Prop where
  paced : Paced r.policy.period r.startTimes r.endTimes
  onGrid : r.OnGrid

/-- The starts of all requests of a call with an exchange under way. -/
theorem startTimes_flying {flight : Flight} {grid : Option Grid}
    (h : r.phase = .flying flight grid) :
    r.startTimes = r.trace.requests.map Request.startedAt ++ [flight.startedAt] := by
  simp [startTimes, starts, traceAt, h, Trace.addRequest, Request.start, Flight.request]

/-- The starts of all requests of a call without an exchange under way. -/
theorem startTimes_of_not_flying (h : ∀ flight grid, r.phase ≠ .flying flight grid) :
    r.startTimes = r.trace.requests.map Request.startedAt := by
  cases hphase : r.phase with
  | flying flight grid => exact absurd hphase (h flight grid)
  | _ => simp [startTimes, starts, traceAt, hphase, Request.start]

/-- The exchange under way is the last request that has started. -/
theorem getElem?_startTimes_flying {flight : Flight} {grid : Option Grid}
    (h : r.phase = .flying flight grid) :
    r.startTimes[r.endTimes.length]? = some flight.startedAt := by
  simp [startTimes_flying h, endTimes]

/--
What a move does to the times of a call: an exchange ends, or the next one starts, or neither.
-/
inductive Beat (r : Retry) (t : Time) (r' : Retry) : Prop where
  | landed {flight : Flight} {grid : Option Grid} (hphase : r.phase = .flying flight grid)
      (hafter : (∃ outcome, r'.phase = .ended t outcome) ∨
        ∃ next, r'.phase = .ticking next t ∧ NextGrid r.policy t grid next)
      (hstarts : r'.startTimes = r.startTimes) (hends : r'.endTimes = r.endTimes ++ [t])
  | departed {grid : Grid} {since : Time} {flight : Flight} (hphase : r.phase = .ticking grid since)
      (hpoint : t = Time.later since grid.next)
      (hafter : r'.phase = .flying flight (some (grid.advance t))) (hstart : flight.startedAt = t)
      (hstarts : r'.startTimes = r.startTimes ++ [t]) (hends : r'.endTimes = r.endTimes)
  | stopped {outcome : Except Fault (Option Payload)} (hafter : r'.phase = .ended t outcome)
      (hstarts : r'.startTimes = r.startTimes) (hends : r'.endTimes = r.endTimes)

/-- Each move does one of these to the times of a call. -/
theorem Moved.beat (h : Moved hub r t hub' r') : r.Beat t r' := by
  cases h with
  | landed hphase =>
      refine .landed hphase (.inl ⟨_, rfl⟩) ?_ ?_
      · simp [startTimes_flying hphase, startTimes_of_not_flying, Trace.addNotes, Trace.addRequest,
          Flight.request]
      · simp [endTimes, Trace.addNotes, Trace.addRequest, Flight.request]
  | rested hphase _ hnext =>
      refine .landed hphase (.inr ⟨_, rfl, hnext⟩) ?_ ?_
      · simp [startTimes_flying hphase, startTimes_of_not_flying, Trace.addNotes, Trace.addRequest,
          Flight.request]
      · simp [endTimes, Trace.addNotes, Trace.addRequest, Flight.request]
  | departed hphase hpoint _ =>
      refine .departed hphase hpoint rfl rfl ?_ rfl
      rw [startTimes_flying rfl, startTimes_of_not_flying (by simp [hphase])]
      rfl
  | stopped hphase =>
      refine .stopped rfl ?_ ?_
      · simp [startTimes_of_not_flying, hphase, Trace.addNotes]
      · simp [endTimes, Trace.addNotes]

/-- Where the grid of a call is that waits for its next attempt. -/
theorem onGrid_ticking {grid : Grid} {since : Time} (h : r.phase = .ticking grid since) :
    r.OnGrid ↔ grid.period = r.policy.period ∧ r.endTimes.getLast? = some since ∧
      ∃ c s, r.endTimes[0]? = some c ∧ FirstAfter c grid.period s grid.next ∧
        (r.endTimes.length = 1 → s = c) ∧
          ∀ n, r.endTimes.length = n + 2 → r.startTimes[n + 1]? = some s := by
  simp only [OnGrid, h]

/-- The next request of a call starts when the grid says that the call has kept to so far. -/
theorem Pacing.paced_departed {grid : Grid} {since : Time} (hr : r.Pacing)
    (hperiod : 0 < r.policy.period) (hphase : r.phase = .ticking grid since)
    (hpoint : t = Time.later since grid.next) :
    Paced r.policy.period (r.startTimes ++ [t]) r.endTimes := by
  obtain ⟨heq, hsince, c, s, hc, hfirst, hone, hmany⟩ := (onGrid_ticking hphase).mp hr.onGrid
  rw [heq] at hfirst
  have hlength : r.startTimes.length = r.endTimes.length := by
    rw [startTimes_of_not_flying (by simp [hphase]), endTimes, List.length_map, List.length_map]
  rw [Time.later_eq_max] at hpoint
  rw [List.getLast?_eq_getElem?] at hsince
  refine hr.paced.concat_start hlength ?_ ?_
  · intro hlen
    rw [hlength] at hlen
    obtain rfl : s = c := hone hlen
    obtain rfl : since = s := by
      rw [hlen] at hsince
      exact Option.some.inj (hsince.symm.trans hc)
    have hnext : grid.next = since + r.policy.period := hfirst.unique (firstAfter_start hperiod)
    refine ⟨since, hc, ?_⟩
    rw [hpoint, hnext, max_eq_right (by linarith)]
  · intro n s' hlen hs'
    rw [hlength] at hlen
    obtain rfl : s = s' := Option.some.inj ((hmany n hlen).symm.trans hs')
    rw [hlen] at hsince
    exact ⟨c, since, grid.next, hc, hsince, hfirst, hpoint⟩

/-- The grid of a call whose attempt has failed, after the first one as after later ones. -/
theorem Pacing.onGrid_rested {flight : Flight} {grid : Option Grid} {next : Grid} (hr : r.Pacing)
    (hperiod : 0 < r.policy.period) (hphase : r.phase = .flying flight grid)
    (hnext : NextGrid r.policy t grid next) (hafter : r'.phase = .ticking next t)
    (hpolicy : r'.policy = r.policy) (hstarts : r'.startTimes = r.startTimes)
    (hends : r'.endTimes = r.endTimes ++ [t]) : r'.OnGrid := by
  rw [onGrid_ticking hafter, hpolicy, hstarts, hends]
  have hgrid := hr.onGrid
  cases grid with
  | none =>
      have hnone : r.endTimes = [] := by simpa only [OnGrid, hphase] using hgrid
      obtain ⟨-, hsame, hpoint⟩ : none = none ∧ _ := hnext.resolve_left nofun
      rw [hnone, hsame, hpoint]
      exact ⟨rfl, rfl, t, t, rfl, firstAfter_start hperiod, fun _ => rfl, nofun⟩
  | some grid =>
      obtain rfl : grid = next := Option.some.inj (hnext.resolve_right nofun)
      obtain ⟨hsame, c, hc, hfirst⟩ : grid.period = r.policy.period ∧ ∃ c, r.endTimes[0]? = some c ∧
          FirstAfter c grid.period flight.startedAt grid.next := by
        simpa only [OnGrid, hphase] using hgrid
      have hpos : 0 < r.endTimes.length := (List.getElem?_eq_some_iff.mp hc).1
      refine ⟨hsame, by simp, c, flight.startedAt, ?_, hfirst, ?_, ?_⟩
      · rw [List.getElem?_append_left hpos, hc]
      · intro hone
        simp only [List.length_append, List.length_singleton] at hone
        omega
      · intro n hlen
        simp only [List.length_append, List.length_singleton] at hlen
        have hlast : n + 1 = r.endTimes.length := by omega
        rw [hlast]
        exact getElem?_startTimes_flying hphase

/-- Each move of a call keeps it to its grid. -/
theorem Moved.pacing (h : Moved hub r t hub' r') (hr : r.Pacing) (hperiod : 0 < r.policy.period)
    (hbegan : r.began ≤ t) : r'.Pacing := by
  have hpolicy := h.frame.2.1
  have hended : ∀ outcome, r'.phase = .ended t outcome → r'.OnGrid := by
    intro outcome hafter
    simp only [OnGrid, hafter]
  cases h.beat with
  | @landed flight grid hphase hafter hstarts hends =>
      have hstarted : flight.startedAt ≤ t := by simpa [began, hphase] using hbegan
      refine ⟨?_, ?_⟩
      · rw [hpolicy, hstarts, hends]
        exact hr.paced.concat_end (getElem?_startTimes_flying hphase) hstarted
      · rcases hafter with ⟨outcome, hafter⟩ | ⟨next, hafter, hnext⟩
        · exact hended outcome hafter
        · exact hr.onGrid_rested hperiod hphase hnext hafter hpolicy hstarts hends
  | @departed grid since flight hphase hpoint hafter hstart hstarts hends =>
      refine ⟨?_, ?_⟩
      · rw [hpolicy, hstarts, hends]
        exact hr.paced_departed hperiod hphase hpoint
      · obtain ⟨hsame, -, c, s, hc, ⟨⟨-, i, hi⟩, -⟩, -⟩ := (onGrid_ticking hphase).mp hr.onGrid
        simp only [OnGrid, hafter, hpolicy, hends, hstart]
        refine ⟨hsame, c, hc, Grid.firstAfter_advance hi ?_⟩
        exact hpoint ▸ Time.le_later_right since grid.next
  | stopped hafter hstarts hends =>
      refine ⟨?_, hended _ hafter⟩
      rw [hpolicy, hstarts, hends]
      exact hr.paced

/-! ## Runs -/

/-- A call that begins keeps to its grid, of which there is none yet. -/
theorem pacing_begin (hub : Hub) (now : Time) (errand : Errand) (policy : Policy) (limits : Limits)
    (script : Script) : (begin hub now errand policy limits script .empty).2.Pacing := by
  rcases begin_cases hub now errand policy limits script .empty with
    ⟨fault, hbegin⟩ | ⟨url, -, -, hbegin⟩
  · rw [hbegin]
    exact ⟨⟨nofun, nofun, nofun⟩, trivial⟩
  · rw [hbegin]
    exact ⟨⟨nofun, nofun, nofun⟩, rfl⟩

namespace Plan

variable {p : Plan} {limits : Limits} {g : Connector}

/-- Wherever a call comes to, in any order of events, it has kept to its grid. -/
theorem Reaches.pacing (h : p.Reaches limits g r) (hperiod : 0 < p.policy.period) :
    r.policy = p.policy ∧ r.Pacing := by
  induction h with
  | begin hseen =>
      refine ⟨?_, pacing_begin ..⟩
      rcases begin_cases ⟨_, p.hub.gateway⟩ p.now p.errand p.policy limits p.script .empty with
        ⟨fault, hbegin⟩ | ⟨url, -, -, hbegin⟩ <;> rw [hbegin]
  | @move g r w t cause seen _ hwait hend hseen ih =>
      obtain ⟨hpolicy, hpacing⟩ := ih
      have hmoved := moved_moveBy hwait hend ⟨seen, g⟩
      rw [← hpolicy] at hperiod
      refine ⟨hmoved.frame.2.1.trans hpolicy, ?_⟩
      exact hmoved.pacing hpacing hperiod (began_le_of_mayEnd hwait hend)
  | shared _ _ ih => exact ih

/-- A start of a request is found among the starts of requests. -/
theorem getElem?_startTimes {n : ℕ} {f : Time × String × Nat} (h : r.starts[n]? = some f) :
    r.startTimes[n]? = some f.1 := by
  rw [startTimes, List.getElem?_map, h]
  rfl

/-- The end of a request is that of one of the requests. -/
theorem exists_request_of_endTimes {n : ℕ} {e : Time} (h : r.endTimes[n]? = some e) :
    ∃ q, r.trace.requests[n]? = some q ∧ q.endedAt = e := by
  rw [endTimes, List.getElem?_map] at h
  exact Option.map_eq_some_iff.mp h

/-- A request that is over started when it says. -/
theorem startedAt_of_starts {n : ℕ} {f : Time × String × Nat} {q : Request}
    (hf : r.starts[n]? = some f) (hq : r.trace.requests[n]? = some q) : q.startedAt = f.1 := by
  have hlt : n < r.trace.requests.length := (List.getElem?_eq_some_iff.mp hq).1
  have hsame : (r.traceAt r.began).requests[n]? = some q := by
    unfold traceAt
    split
    · simp only [Trace.addRequest, List.getElem?_append_left hlt, hq]
    · exact hq
  rw [starts, List.getElem?_map, hsame, Option.map_some, Option.some.injEq] at hf
  rw [← hf]
  rfl

/--
The attempts of a call, in any order of events, over a grid that counts from the end of the first
one. The second attempt starts one period after that; each later one starts at the first point of
the grid after the start of the one before it, or at the end of that one if this is later.  So no
attempt starts before its turn, a window of time sees at most one start more than periods fit into
it, rounded up, and between two starts there is at most a period or the time of the longest attempt.
The loop that moves the grid on after a tick ends.
-/
theorem keeps_pace (hperiod : 0 < p.policy.period) (limits : Limits) :
    (∀ n, p.Reaches limits (p.after limits n).1.gateway (p.after limits n).2) ∧
      (∀ (grid : Grid) (t : Time), ∃ n, (∀ k < n, (Grid.push^[k + 1] grid).next ≤ t) ∧
        t < (Grid.push^[n + 1] grid).next ∧ grid.advance t = Grid.push^[n + 1] grid) ∧
      ∀ g r, p.Reaches limits g r →
        (∀ f, r.starts[1]? = some f → ∃ first, r.trace.requests[0]? = some first ∧
          f.1 = first.endedAt + p.policy.period) ∧
        (∀ (n : ℕ) f f', r.starts[n + 1]? = some f → r.starts[n + 2]? = some f' →
          ∃ first q point, r.trace.requests[0]? = some first ∧ r.trace.requests[n + 1]? = some q ∧
            q.startedAt = f.1 ∧
            IsLeast {x | f.1 < x ∧ ∃ j : ℕ, x = first.endedAt + j * p.policy.period} point ∧
            f'.1 = max q.endedAt point) ∧
        (∀ (n : ℕ) f first, r.starts[n + 1]? = some f → r.trace.requests[0]? = some first →
          first.endedAt + ((n : Time) + 1) * p.policy.period ≤ f.1) ∧
        (∀ t span : Time, (r.starts.filter fun f => t ≤ f.1 ∧ f.1 ≤ t + span).length ≤
          ⌈span / p.policy.period⌉₊ + 1) ∧
        ∀ longest : Time, (∀ q ∈ r.trace.requests, q.endedAt ≤ q.startedAt + longest) →
          ∀ (n : ℕ) f f', r.starts[n + 1]? = some f → r.starts[n + 2]? = some f' →
            f'.1 ≤ f.1 + max longest p.policy.period := by
  refine ⟨p.reaches_after limits, Grid.exists_rounds, ?_⟩
  intro g r hreaches
  obtain ⟨hpolicy, hpacing⟩ := hreaches.pacing hperiod
  have hpaced := hpolicy ▸ hpacing.paced
  refine ⟨?_, ?_, ?_, ?_, ?_⟩
  · intro f hf
    obtain ⟨c, hc, heq⟩ := hpaced.second f.1 (getElem?_startTimes hf)
    obtain ⟨first, hfirst, rfl⟩ := exists_request_of_endTimes hc
    exact ⟨first, hfirst, heq⟩
  · intro n f f' hf hf'
    obtain ⟨c, e, point, hc, he, hpoint, heq⟩ :=
      hpaced.later n f.1 f'.1 (getElem?_startTimes hf) (getElem?_startTimes hf')
    obtain ⟨first, hfirst, rfl⟩ := exists_request_of_endTimes hc
    obtain ⟨q, hq, rfl⟩ := exists_request_of_endTimes he
    exact ⟨first, q, point, hfirst, hq, startedAt_of_starts hf hq, hpoint, heq⟩
  · intro n f first hf hfirst
    refine hpaced.le_start hperiod ?_ (getElem?_startTimes hf)
    rw [endTimes, List.getElem?_map, hfirst]
    rfl
  · intro t span
    have hwindow := hpaced.length_window_le hperiod t span
    rw [startTimes, List.filter_map, List.length_map] at hwindow
    exact hwindow
  · intro longest hlong n f f' hf hf'
    refine hpaced.start_le hperiod ?_ (getElem?_startTimes hf) (getElem?_startTimes hf')
    intro m s e hs he
    obtain ⟨q, hq, rfl⟩ := exists_request_of_endTimes he
    obtain ⟨f'', hf'', rfl⟩ : ∃ f'', r.starts[m]? = some f'' ∧ f''.1 = s := by
      rw [startTimes, List.getElem?_map] at hs
      exact Option.map_eq_some_iff.mp hs
    rw [← startedAt_of_starts hf'' hq]
    exact hlong q (List.mem_of_getElem? hq)

/--
A call of which the second attempt overruns two points of its grid and ends between two others.
-/
def overrunning : Plan where
  hub := { signal := .pending, gateway := .fresh 30 }
  now := 0
  errand := { url := .ok "http://h/milestone", path := "/milestone", form := .milestone }
  policy := { period := 5, reportEach := 1 }
  script :=
    { head := .failure (.lasting 1) (.timedOut "")
      tail := [.failure (.lasting 12) (.timedOut ""), .failure (.lasting 1) (.timedOut "")] }

/-- The grid of the overrunning call counts from 1, and so does its fourth attempt. -/
theorem overrunning_starts :
    0 < overrunning.policy.period ∧
      (overrunning.after .none 6).2.starts.map Prod.fst = [0, 6, 18, 21] ∧
      ((overrunning.after .none 6).2.starts.filter fun f => 6 ≤ f.1 ∧ f.1 ≤ 6 + 15).length ≤
        ⌈(15 / 5 : Rat)⌉₊ + 1 := by
  have hperiod : 0 < overrunning.policy.period := by decide +kernel
  obtain ⟨hreaches, -, hpaced⟩ := keeps_pace hperiod .none
  obtain ⟨-, -, -, hwindow, -⟩ := hpaced _ _ (hreaches 6)
  exact ⟨hperiod, by decide +kernel, hwindow 6 15⟩

end Plan
end Retry
end ChainPoll

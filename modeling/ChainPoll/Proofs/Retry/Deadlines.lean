import ChainPoll.Proofs.Retry.Truncation
import ChainPoll.Proofs.Retry.Undisturbed

/-!
# Calls with a deadline

A call that nothing but its deadline disturbs makes the moves that it makes without one, up to the
deadline. So it ends with the first attempt that another one cannot mend, before its deadline, or
right at its deadline.

Main results:

- Theorem {lit}`Retry.Plan.under_or_cut`: a call under a deadline is the call without it, or was cut
  off.
- Theorem {lit}`Retry.Plan.spanning_of_ended`: a call makes its requests one after another.
- Theorem {lit}`Retry.Plan.leaves_of_ended`: how such a call ends, and which requests it has made.
-/

namespace ChainPoll

/-! ## Requests one after another -/

/--
Whether requests were made one after another: the first at an instant, the last up to another one.
-/
structure Request.Spanning (now t : Time) (requests : List Request) : Prop where
  first : ∀ q ∈ requests.head?, q.startedAt = now
  within : ∀ q ∈ requests, now ≤ q.startedAt ∧ q.startedAt ≤ q.endedAt ∧ q.endedAt ≤ t
  order : requests.Pairwise fun q q' => q.endedAt ≤ q'.startedAt

namespace Request.Spanning

variable {now t u : Time} {requests others : List Request}

/-- Without requests there is nothing to say. -/
theorem nil (now t : Time) : Spanning now t [] :=
  ⟨by simp, by simp, .nil⟩

/-- A single request is made from its start to its end. -/
theorem single {q : Request} (hstart : q.startedAt = now) (hend : q.endedAt = t) (hle : now ≤ t) :
    Spanning now t [q] :=
  ⟨by simpa using hstart, by simpa [hstart, hend] using hle, List.pairwise_singleton _ _⟩

/-- What was made up to an instant was made up to later ones. -/
theorem mono (h : Spanning now t requests) (hle : t ≤ u) : Spanning now u requests :=
  ⟨h.first, fun q hq => ⟨(h.within q hq).1, (h.within q hq).2.1, (h.within q hq).2.2.trans hle⟩,
    h.order⟩

/-- Requests that follow others are made after these. -/
theorem append (h : Spanning now t requests) (h' : Spanning t u others)
    (hne : requests ≠ []) (hle : t ≤ u) :
    Spanning now u (requests ++ others) := by
  obtain ⟨q₀, rest, rfl⟩ := List.exists_cons_of_ne_nil hne
  have hnow : now ≤ t := by
    obtain ⟨hstart, hend, hlast⟩ := h.within q₀ List.mem_cons_self
    exact hstart.trans (hend.trans hlast)
  refine ⟨h.first, fun q hq => ?_, List.pairwise_append.mpr ⟨h.order, h'.order,
    fun q hq q' hq' => ?_⟩⟩
  · rcases List.mem_append.mp hq with hq | hq
    · exact (h.mono hle).within q hq
    · exact ⟨hnow.trans (h'.within q hq).1, (h'.within q hq).2⟩
  · exact (h.within q hq).2.2.trans (h'.within q' hq').1

end Request.Spanning

namespace Retry

variable {hub : Hub} {r : Retry} {limits : Limits} {t : Time}

/-- A deadline does not disturb a wait that ends before it, and ends the others. -/
theorem wake_under_or_cut (hr : r.limits = .none) (hcancel : limits.cancelAt = none) :
    ((r.under limits).wake hub = r.wake hub ∧
      ∀ d, limits.deadlineAt = some d → ∀ u cause, r.wake hub = some (u, cause) →
        u = r.began ∨ u < d) ∨
    ∃ d, limits.deadlineAt = some d ∧ r.Suspended ∧
      ∀ u cause, r.wake hub = some (u, cause) → Time.later r.began d ≤ u := by
  by_cases hs : r.Suspended
  · cases hdeadline : limits.deadlineAt with
    | none =>
        obtain ⟨w, hwait, hunlimited, hunder⟩ := wait?_of_suspended hub limits hr hs
        have hsame : w.under limits = w := by
          obtain ⟨since, cancelAt, deadlineAt, alarmAt, closingAt⟩ := w
          obtain ⟨rfl, rfl⟩ := hunlimited
          simp only [Wait.under, hcancel, hdeadline]
        exact .inl ⟨by rw [wake, wake, hwait, hunder, hsame], by simp⟩
    | some d =>
        by_cases hlate : ∀ u cause, r.wake hub = some (u, cause) → Time.later r.began d ≤ u
        · exact .inr ⟨d, rfl, hs, hlate⟩
        · push Not at hlate
          obtain ⟨u, cause, hwake, hbefore⟩ := hlate
          have hud : u < d := by
            rw [Time.later_eq_max, lt_max_iff] at hbefore
            exact hbefore.resolve_left (not_lt.mpr (began_le_of_wake hwake))
          have hlimits : ∀ e v, limits.instant e = some v → u < v := by
            intro e v hv
            cases e <;> simp_all [Limits.instant]
          refine .inl ⟨(wake_under_of_before hr hwake hlimits).trans hwake.symm, ?_⟩
          intro d' hd' v e hv
          rw [hwake, Option.some.injEq, Prod.mk.injEq] at hv
          rw [← hv.1, ← Option.some.inj hd']
          exact .inr hud
  · refine .inl ⟨wake_under_of_not_suspended hs, fun d _ u cause hwake => .inl ?_⟩
    cases hphase : r.phase with
    | flying flight grid =>
        have hsettled : flight.settled = true := by simpa [Suspended, hphase] using hs
        rw [wake_of_settled hphase hsettled, Option.some.injEq, Prod.mk.injEq] at hwake
        rw [← hwake.1, began, hphase]
    | ticking grid since => simp [Suspended, hphase] at hs
    | ended endedAt outcome =>
        rw [wake_ended hphase] at hwake
        simp at hwake

/-- A move keeps to it that requests are made one after another. -/
theorem Moved.spanning {hub' : Hub} {r' : Retry} {now : Time} (h : Moved hub r t hub' r')
    (hbegan : r.began ≤ t)
    (hticking : ∀ grid since, r.phase = .ticking grid since → r.trace.requests ≠ [])
    (hr : ∀ u, r.began ≤ u → Request.Spanning now u (r.traceAt u).requests)
    (u : Time) (hu : t ≤ u) :
    Request.Spanning now u (r'.traceAt u).requests := by
  have hbefore := hr t hbegan
  cases h with
  | landed hphase =>
      simp only [traceAt, hphase] at hbefore
      exact hbefore.mono hu
  | rested hphase _ _ =>
      simp only [traceAt, hphase] at hbefore
      exact hbefore.mono hu
  | departed hphase _ _ =>
      simp only [traceAt, hphase] at hbefore
      exact hbefore.append (.single rfl rfl hu) (hticking _ _ hphase) hu
  | stopped hphase =>
      simp only [traceAt, hphase] at hbefore
      exact hbefore.mono hu

/-- A call that is cut off by its deadline at an instant. -/
def expired (r : Retry) (limits : Limits) (t : Time) : Retry :=
  { r with limits, phase := .ended t (.error .overdue), trace := r.cutOff t }

namespace Plan

variable {p : Plan}

/-- Whether a call without limits has come to where it stands before a deadline that was to come. -/
def Timely (p : Plan) (limits : Limits) (n : ℕ) : Prop :=
  ∀ d, limits.deadlineAt = some d → p.now < d → (p.after .none n).2.began < d

/-- A call under a deadline is the call without it, or was cut off where that one really waited. -/
theorem under_or_cut (p : Plan) (hcancel : limits.cancelAt = none) (n : ℕ) :
    (p.Timely limits n ∧ p.after limits n =
      ((p.after .none n).1, (p.after .none n).2.under limits)) ∨
    ∃ m d, p.Timely limits m ∧ limits.deadlineAt = some d ∧ (p.after .none m).2.Suspended ∧
      p.after limits n = ((p.after .none m).1,
        (p.after .none m).2.expired limits (Time.later (p.after .none m).2.began d)) := by
  induction n with
  | zero =>
      refine .inl ⟨fun d _ hd => ?_, p.after_zero_under limits⟩
      rwa [p.began_after_zero]
  | succ n ih =>
      rcases ih with ⟨htimely, hunder⟩ | ⟨m, d, htimely, hd, hs, hcut⟩
      · have hr := (p.frame_after .none n).2.2
        rcases @wake_under_or_cut (p.after .none n).1 _ limits hr hcancel with
          ⟨hwake, hbound⟩ | ⟨d, hd, hs, hlate⟩
        · refine .inl ⟨fun d hd hnow => ?_, ?_⟩
          · cases hnext : p.wakeAfter .none n with
            | none =>
                rw [after_of_wakeAfter_eq_none hnext n.le_succ]
                exact htimely d hd hnow
            | some a =>
                rw [(moved_after hnext).began_eq]
                rcases hbound d hd a.1 a.2 hnext with heq | hlt
                · exact heq ▸ htimely d hd hnow
                · exact hlt
          · rw [after_succ, hunder, after_succ]
            exact resume_under_of_wake hwake
        · have hcause : limits.instant .deadline = some d := hd
          have hfirst : ∀ e v, limits.instant e = some v →
              Wait.Precedes (Time.later (p.after .none n).2.began d, .deadline)
                (Time.later (p.after .none n).2.began v, e) := by
            intro e v hv
            cases e <;> simp_all [Limits.instant, Wait.Precedes]
          have hwake := wake_under_of_cut hr hs hcause hfirst hlate
          refine .inr ⟨n, d, htimely, hd, hs, ?_⟩
          rw [after_succ, hunder]
          exact resume_under_of_cut (p.counted_after .none n) hs hcause hwake
      · refine .inr ⟨m, d, htimely, hd, hs, ?_⟩
        rw [after_succ, hcut, resume_ended rfl]

/-- A call that waits for its next attempt has made requests. -/
theorem requests_ne_nil_of_ticking {n : ℕ} {grid : Grid} {since : Time}
    (h : (p.after limits n).2.phase = .ticking grid since) :
    (p.after limits n).2.trace.requests ≠ [] := by
  have hall : ∀ grid since, (p.after limits n).2.phase = .ticking grid since →
      (p.after limits n).2.trace.requests ≠ [] := by
    apply after_induction (motive := fun _ _ r => ∀ grid since, r.phase = .ticking grid since →
      r.trace.requests ≠ [])
    · rcases p.after_zero_cases limits with ⟨outcome, -, hzero⟩ | ⟨url, -, -, -,
        hzero⟩ <;> simp [hzero]
    · intro n hub r hub' r' t cause _ _ hmoved grid since hticking
      cases hmoved with
      | landed _ => simp at hticking
      | rested _ _ _ => simp [Trace.addNotes, Trace.addRequest]
      | departed _ _ _ => simp at hticking
      | stopped _ => simp at hticking
    · exact fun _ _ _ hr _ => hr
  exact hall grid since h

/-- A call makes its requests one after another, from its begin on. -/
theorem spanning_after (p : Plan) (limits : Limits) (n : ℕ) (u : Time)
    (hu : (p.after limits n).2.began ≤ u) :
    Request.Spanning p.now u ((p.after limits n).2.traceAt u).requests := by
  induction n generalizing u with
  | zero =>
      rw [p.began_after_zero] at hu
      rcases p.after_zero_cases limits with ⟨outcome, -, hzero⟩ | ⟨url, -, -, -, hzero⟩
      · rw [hzero]
        exact .nil _ _
      · rw [hzero]
        exact .single rfl rfl hu
  | succ n ih =>
      cases hwake : p.wakeAfter limits n with
      | none =>
          rw [after_of_wakeAfter_eq_none hwake n.le_succ] at hu ⊢
          exact ih u hu
      | some a =>
          obtain ⟨v, cause⟩ := a
          have hmoved := moved_after hwake
          exact hmoved.spanning (began_le_of_wake hwake)
            (fun grid since hticking => requests_ne_nil_of_ticking hticking) ih u
              (hmoved.began_eq ▸ hu)

/-- A call that has ended has made its requests one after another, from its begin to its end. -/
theorem spanning_of_ended {n : ℕ} {outcome : Except Fault (Option Payload)}
    (hended : (p.after limits n).2.outcome? = some (t, outcome)) :
    Request.Spanning p.now t (p.after limits n).2.trace.requests := by
  have hphase := phase_of_outcome? hended
  have hspanning := p.spanning_after limits n t (by rw [began, hphase])
  rwa [traceAt, hphase] at hspanning

/-- How a call that nothing but its deadline disturbs has ended, after so many failed attempts. -/
inductive Spent (p : Plan) (limits : Limits) (k : ℕ) (t : Time) (requests : List Request) :
    Except Fault (Option Payload) → Prop where
  /-- With an attempt that another one cannot mend, before its deadline. -/
  | last {span : Time} {outcome : Except Fault (Option Payload)}
      (hattempt : p.Attempts k span outcome)
      (hmend : ¬ Mendable outcome) (hcount : requests.length = k + 1)
      (hbefore : ∀ d, limits.deadlineAt = some d → p.now < d → t < d) :
        Spent p limits k t requests outcome
  /-- At its deadline, during an attempt or while it waited for the next one. -/
  | overdue {d : Time} (hdeadline : limits.deadlineAt = some d) (hpassed : d ≤ t)
      (hat : p.now < d → t = d)
      (hcount : requests.length = k + 1 ∨ requests.length = k ∧ 0 < k) :
      Spent p limits k t requests (.error .overdue)

/-- What a call that nothing but its deadline disturbs has left behind when it has ended. -/
structure Leaves (p : Plan) (url : String) (limits : Limits) (k : ℕ) (t : Time)
    (outcome : Except Fault (Option Payload)) (r : Retry) : Prop where
  fails : ∀ i < k, p.Fails i
  spent : p.Spent limits k t r.trace.requests outcome
  late : p.now ≤ t
  url : ∀ q ∈ r.trace.requests, q.url = url
  script : r.script = p.script.rest r.trace.requests.length

section

variable {url : String} {k : ℕ} {flight : Flight} {grid : Option Grid} {d : Time}

/-- A call that its deadline cuts off during an attempt leaves the request for it behind. -/
theorem Flying.leaves_expired (h : p.Flying url hub r k flight grid)
    (hdeadline : limits.deadlineAt = some d) (hpassed : d ≤ t) (hat : p.now < d → t = d)
    (hlate : p.now ≤ t) :
    p.Leaves url limits k t (.error .overdue) (r.expired limits t) := by
  have hrequests : (r.expired limits t).trace.requests =
      r.trace.requests ++ [flight.request t] := by
    simp [expired, cutOff, h.phase, Trace.addRequest]
  have hcount : (r.expired limits t).trace.requests.length = k + 1 := by
    rw [hrequests, List.length_append, h.count]
    rfl
  refine ⟨h.fails, .overdue hdeadline hpassed hat (.inl hcount), hlate, fun q hq => ?_, ?_⟩
  · rw [hrequests] at hq
    rcases List.mem_append.mp hq with hq | hq
    · exact h.sent.url q hq
    · rw [List.mem_singleton.mp hq]
      exact h.url_eq
  · rw [hcount]
    exact h.script

/-- A call that its deadline cuts off between attempts leaves no further request behind. -/
theorem Ticking.leaves_expired {grid : Grid} {since : Time} (h : p.Ticking url hub r k grid since)
    (hdeadline : limits.deadlineAt = some d) (hpassed : d ≤ t)
    (hat : p.now < d → t = d) (hlate : p.now ≤ t) (hmade : r.trace.requests ≠ []) :
    p.Leaves url limits k t (.error .overdue) (r.expired limits t) := by
  have hrequests : (r.expired limits t).trace.requests = r.trace.requests := by
    simp [expired, cutOff, h.phase, Trace.addNotes]
  have hpos : 0 < k := h.count ▸ List.length_pos_of_ne_nil hmade
  have hcount : (r.expired limits t).trace.requests.length = k := hrequests ▸ h.count
  refine ⟨h.fails, .overdue hdeadline hpassed hat (.inr ⟨hcount, hpos⟩), hlate,
    hrequests ▸ h.sent.url, ?_⟩
  rw [hcount]
  exact h.script

end

/-- How a call that nothing but its deadline disturbs ends, and what it has left behind. -/
theorem leaves_of_ended {url : String} {n : ℕ} {outcome : Except Fault (Option Payload)}
    (hhub : p.hub.Undisturbed p.now) (hurl : p.errand.url = .ok url) (hperiod : 0 < p.policy.period)
    (hreport : p.policy.reportEach ≠ 0) (hcancel : limits.cancelAt = none)
    (hended : (p.after limits n).2.outcome? = some (t, outcome)) :
    ∃ k, p.Leaves url limits k t outcome (p.after limits n).2 := by
  have hnow : ∀ m, p.now ≤ (p.after .none m).2.began := fun m => by
    rw [← p.began_after_zero .none]
    exact p.began_after_mono .none m.zero_le
  rcases p.under_or_cut hcancel n with ⟨htimely, hunder⟩ | ⟨m, d, htimely, hd, hs, hcut⟩
  · rw [hunder] at hended ⊢
    have hended' : (p.after .none n).2.outcome? = some (t, outcome) := hended
    have hbegan : (p.after .none n).2.began = t := by rw [began, phase_of_outcome? hended']
    rcases standing_after hhub hurl hperiod hreport n with ⟨k, flight, grid, hflying⟩ |
      ⟨k, grid, since, hticking⟩ | ⟨k, t', outcome', hended'',
        ⟨hfails, ⟨span, hattempt⟩, hmend⟩, hleft⟩
    · simp [outcome?, hflying.phase] at hended'
    · simp [outcome?, hticking.phase] at hended'
    · rw [hended', Option.some.injEq, Prod.mk.injEq] at hended''
      obtain ⟨rfl, rfl⟩ := hended''
      have hscript := hleft.script
      rw [← hleft.count] at hscript
      exact ⟨k, hfails, .last hattempt hmend hleft.count (hbegan ▸ htimely),
        hbegan ▸ hnow n, hleft.sent.url, hscript⟩
  · rw [hcut] at hended ⊢
    obtain ⟨rfl, rfl⟩ : Time.later (p.after .none m).2.began d = t ∧ .error .overdue = outcome := by
      simpa only [expired, outcome?, Option.some.injEq, Prod.mk.injEq] using hended
    have hpassed : d ≤ Time.later (p.after .none m).2.began d := Time.le_later_right _ _
    have hat : p.now < d → Time.later (p.after .none m).2.began d = d := fun hlt =>
      Time.later_of_le (htimely d hd hlt).le
    have hlate : p.now ≤ Time.later (p.after .none m).2.began d :=
      (hnow m).trans (Time.le_later_left _ _)
    rcases standing_after hhub hurl hperiod hreport m with ⟨k, flight, grid, hflying⟩ |
      ⟨k, grid, since, hticking⟩ | ⟨k, t', outcome', hended, -⟩
    · exact ⟨k, hflying.leaves_expired hd hpassed hat hlate⟩
    · exact ⟨k, hticking.leaves_expired hd hpassed hat hlate
        (requests_ne_nil_of_ticking hticking.phase)⟩
    · simp [Suspended, phase_of_outcome? hended] at hs

end Plan
end Retry
end ChainPoll

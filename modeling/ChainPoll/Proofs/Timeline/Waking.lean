import Mathlib.Algebra.Order.Ring.Rat
import Mathlib.Tactic.Linarith
import ChainPoll.Timeline.Wait

/-!
# What ends a wait

The causes that can end a wait are ranked.  A wait ends by the cause whose instant comes first, and
of causes at one instant by the one of the lowest rank.  This fixes when and why a wait ends, so
that all later proofs name a cause and compare it with the others.

Main results:

- Theorem {lit}`Wait.wake_eq_some_iff`: a wait ends by the one cause that goes before all others.
- Theorem {lit}`Wait.wake_under_of_before`: limits that strike later do not disturb a wait.
- Theorem {lit}`Wait.wake_under_of_first`: a limit that strikes before all else ends it.
-/

namespace ChainPoll

namespace Time

/-- The later of two instants is their maximum. -/
theorem later_eq_max (t u : Time) : later t u = max t u := by
  unfold later
  split
  · next h => exact (max_eq_right h).symm
  · next h => exact (max_eq_left (le_of_not_ge h)).symm

/-- The later of two instants is the second if that does not come before the first. -/
theorem later_of_le {t u : Time} (h : t ≤ u) : later t u = u := by
  rw [later_eq_max, max_eq_right h]

end Time

/-! ## The rank of a cause -/

/-- The rank of a cause: of two causes at one instant the one with the lower rank wins. -/
def Cause.rank : Cause → Nat
  | .cancellation => 0
  | .deadline => 1
  | .alarm => 2
  | .closing => 3

/-- Different causes have different ranks. -/
theorem Cause.rank_injective {c d : Cause} (h : c.rank = d.rank) : c = d := by
  cases c <;> cases d <;> simp_all [rank]

namespace Wait

/-- The instant of a cause of a wait, if it can end the wait at all. -/
def instant (w : Wait) : Cause → Option Time
  | .cancellation => w.cancelAt
  | .deadline => w.deadlineAt
  | .alarm => w.alarmAt
  | .closing => w.closingAt

/-- Whether a cause at an instant goes before, or is, another one at its instant. -/
def Precedes (a b : Time × Cause) : Prop :=
  a.1 < b.1 ∨ a.1 = b.1 ∧ a.2.rank ≤ b.2.rank

/-- A cause that goes before another is not later. -/
theorem Precedes.le {a b : Time × Cause} (h : Precedes a b) : a.1 ≤ b.1 := by
  rcases h with hlt | ⟨heq, -⟩
  · exact hlt.le
  · exact heq.le

/-- Of two causes that go before each other there is only one. -/
theorem Precedes.antisymm {a b : Time × Cause} (hab : Precedes a b) (hba : Precedes b a) :
    a = b := by
  rcases hab with hlt | ⟨heq, hrank⟩
  · rcases hba with hlt' | ⟨heq', -⟩
    · exact absurd (hlt.trans hlt') (lt_irrefl _)
    · rw [heq'] at hlt
      exact absurd hlt (lt_irrefl _)
  · rcases hba with hlt' | ⟨-, hrank'⟩
    · rw [heq] at hlt'
      exact absurd hlt' (lt_irrefl _)
    · exact Prod.ext heq (Cause.rank_injective (le_antisymm hrank hrank'))

/-- A cause that goes before one that goes before a third goes before the third. -/
theorem Precedes.trans {a b c : Time × Cause} (hab : Precedes a b) (hbc : Precedes b c) :
    Precedes a c := by
  rcases hab with hlt | ⟨heq, hrank⟩
  · rcases hbc with hlt' | ⟨heq', -⟩
    · exact .inl (hlt.trans hlt')
    · exact .inl (heq' ▸ hlt)
  · rcases hbc with hlt' | ⟨heq', hrank'⟩
    · exact .inl (heq ▸ hlt')
    · exact .inr ⟨heq.trans heq', hrank.trans hrank'⟩

/-- The causes of a wait are those that have an instant, which counts from the begin of the wait. -/
theorem mem_causes_iff {w : Wait} {t : Time} {cause : Cause} :
    (t, cause) ∈ w.causes ↔ ∃ u, w.instant cause = some u ∧ t = Time.later w.since u := by
  simp only [causes, List.mem_filterMap, List.mem_cons, List.not_mem_nil, or_false,
    Option.map_eq_some_iff, Prod.mk.injEq, Prod.exists]
  constructor
  · rintro ⟨at?, c, hpair, u, hu, rfl, rfl⟩
    refine ⟨u, ?_, rfl⟩
    rcases hpair with ⟨rfl, rfl⟩ | ⟨rfl, rfl⟩ | ⟨rfl, rfl⟩ | ⟨rfl, rfl⟩ <;> exact hu
  · rintro ⟨u, hu, rfl⟩
    refine ⟨w.instant cause, cause, ?_, u, hu, rfl, rfl⟩
    cases cause <;> simp [instant]

/-- The causes of a wait are listed by rank. -/
theorem causes_pairwise (w : Wait) : w.causes.Pairwise fun a b => a.2.rank < b.2.rank := by
  obtain ⟨since, cancelAt, deadlineAt, alarmAt, closingAt⟩ := w
  cases cancelAt <;> cases deadlineAt <;> cases alarmAt <;> cases closingAt <;>
    simp [causes, Cause.rank]

/-- Of causes listed by rank, the first in time goes before all others. -/
theorem foldl_first_precedes (a : Time × Cause) (rest : List (Time × Cause))
    (hranks : (a :: rest).Pairwise fun a b => a.2.rank < b.2.rank) :
    ∀ b ∈ a :: rest, Precedes (rest.foldl first a) b := by
  induction rest generalizing a with
  | nil =>
      intro b hb
      rw [List.mem_singleton.mp hb]
      exact .inr ⟨rfl, le_rfl⟩
  | cons c rest ih =>
      obtain ⟨hhead, htail⟩ := List.pairwise_cons.mp hranks
      have hrest := (List.pairwise_cons.mp htail).2
      have hac : a.2.rank < c.2.rank := hhead c (by simp)
      rw [List.foldl_cons]
      by_cases hlt : c.1 < a.1
      · have hfirst : first a c = c := by simp [first, hlt]
        rw [hfirst]
        have hall := ih c htail
        intro b hb
        rcases List.mem_cons.mp hb with rfl | hb
        · exact (hall c (by simp)).trans (.inl hlt)
        · exact hall b hb
      · have hfirst : first a c = a := by simp [first, hlt]
        rw [hfirst]
        have hall := ih a (List.pairwise_cons.mpr ⟨fun b hb => hhead b (by simp [hb]), hrest⟩)
        intro b hb
        rcases List.mem_cons.mp hb with rfl | hb
        · exact hall b (by simp)
        · rcases List.mem_cons.mp hb with rfl | hb
          · have hbefore : Precedes a b := by
              rcases (not_lt.mp hlt).lt_or_eq with h | h
              · exact .inl h
              · exact .inr ⟨h, hac.le⟩
            exact (hall a (by simp)).trans hbefore
          · exact hall b (by simp [hb])

/-! ## When and why a wait ends -/

/-- A wait never ends exactly if no cause can end it. -/
theorem wake_eq_none_iff {w : Wait} : w.wake = none ↔ ∀ cause, w.instant cause = none := by
  have hcauses : w.wake = none ↔ w.causes = [] := by
    unfold wake
    split
    · next h => simp [h]
    · next h => simp [h]
  rw [hcauses, List.eq_nil_iff_forall_not_mem]
  constructor
  · intro h cause
    cases hinstant : w.instant cause with
    | none => rfl
    | some u => exact absurd (mem_causes_iff.mpr ⟨u, hinstant, rfl⟩) (h _)
  · rintro h ⟨t, cause⟩ hmem
    obtain ⟨u, hu, -⟩ := mem_causes_iff.mp hmem
    rw [h cause] at hu
    exact absurd hu (by simp)

/-- What ends a wait goes before all its causes. -/
theorem wake_precedes {w : Wait} {a : Time × Cause} (h : w.wake = some a) :
    ∀ b ∈ w.causes, Precedes a b := by
  have hranks := w.causes_pairwise
  unfold wake at h
  split at h
  · simp at h
  · next c rest hcauses =>
    rw [hcauses] at hranks ⊢
    rw [Option.some.injEq] at h
    rw [← h]
    exact foldl_first_precedes c rest hranks

/-- A wait that something can end does end, and not after that. -/
theorem exists_wake_le {w : Wait} {cause : Cause} {u : Time} (h : w.instant cause = some u) :
    ∃ a, w.wake = some a ∧ a.1 ≤ Time.later w.since u := by
  cases hwake : w.wake with
  | none =>
      rw [wake_eq_none_iff.mp hwake cause] at h
      simp at h
  | some a =>
      have hmem : (Time.later w.since u, cause) ∈ w.causes := mem_causes_iff.mpr ⟨u, h, rfl⟩
      have hle := (wake_precedes hwake _ hmem).le
      exact ⟨a, rfl, hle⟩

/-- A wait does not end before an instant exactly if no cause of it strikes before. -/
theorem le_wake_iff {w : Wait} {t : Time} :
    (∀ a, w.wake = some a → t ≤ a.1) ↔
      ∀ cause u, w.instant cause = some u → t ≤ Time.later w.since u := by
  constructor
  · intro h cause u hu
    obtain ⟨a, ha, hle⟩ := exists_wake_le hu
    exact (h a ha).trans hle
  · intro h a ha
    obtain ⟨u, hu, htime⟩ := mem_causes_iff.mp (wake_mem ha)
    exact htime ▸ h a.2 u hu

/-- A wait ends by the one cause that goes before all others. -/
theorem wake_eq_some_iff {w : Wait} {t : Time} {cause : Cause} :
    w.wake = some (t, cause) ↔
      (∃ u, w.instant cause = some u ∧ t = Time.later w.since u) ∧
        ∀ d v, w.instant d = some v → Precedes (t, cause) (Time.later w.since v, d) := by
  constructor
  · intro h
    refine ⟨mem_causes_iff.mp (wake_mem h), ?_⟩
    intro d v hv
    exact wake_precedes h _ (mem_causes_iff.mpr ⟨v, hv, rfl⟩)
  · rintro ⟨hcause, hall⟩
    cases hwake : w.wake with
    | none =>
        obtain ⟨u, hu, -⟩ := hcause
        rw [wake_eq_none_iff.mp hwake cause] at hu
        exact absurd hu (by simp)
    | some b =>
        obtain ⟨v, hv, hbv⟩ := mem_causes_iff.mp (wake_mem hwake)
        have hab : Precedes (t, cause) b := by
          have := hall b.2 v hv
          rwa [← hbv] at this
        have hba : Precedes b (t, cause) :=
          wake_precedes hwake _ (mem_causes_iff.mpr hcause)
        rw [hab.antisymm hba]

/-- A wait that can end by one cause only ends by it. -/
theorem wake_of_only {w : Wait} {cause : Cause} {u : Time} (h : w.instant cause = some u)
    (hrest : ∀ d, d ≠ cause → w.instant d = none) :
    w.wake = some (Time.later w.since u, cause) := by
  refine wake_eq_some_iff.mpr ⟨⟨u, h, rfl⟩, ?_⟩
  intro d v hv
  by_cases hd : d = cause
  · subst hd
    rw [h, Option.some.injEq] at hv
    rw [hv]
    exact .inr ⟨rfl, le_rfl⟩
  · rw [hrest d hd] at hv
    exact absurd hv (by simp)

/-- A wait that is cancelled now, and was not over before, is over by that. -/
theorem wake_cancelled {w : Wait} {now : Time} (hsince : w.since ≤ now)
    (hlate : ∀ a, w.wake = some a → now ≤ a.1) :
    { w with cancelAt := some now }.wake = some (now, .cancellation) := by
  refine wake_eq_some_iff.mpr ⟨⟨now, rfl, (Time.later_of_le hsince).symm⟩, ?_⟩
  intro cause u hu
  have hle : now ≤ Time.later w.since u := by
    cases cause with
    | cancellation => exact Option.some.inj hu ▸ Time.le_later_right _ _
    | deadline => exact le_wake_iff.mp hlate .deadline u hu
    | alarm => exact le_wake_iff.mp hlate .alarm u hu
    | closing => exact le_wake_iff.mp hlate .closing u hu
  -- no cause has a rank below that of a cancellation
  exact hle.lt_or_eq.imp_right fun heq => ⟨heq, Nat.zero_le _⟩

/--
When and why a wait ends that an alarm and a closing can end, neither of them before its begin.
-/
theorem wake_undisturbed_iff {w : Wait} {t : Time} {cause : Cause} (hcancel : w.cancelAt = none)
    (hdeadline : w.deadlineAt = none) (halarm : ∀ u, w.alarmAt = some u → w.since ≤ u)
    (hclosing : ∀ u, w.closingAt = some u → w.since ≤ u) :
    w.wake = some (t, cause) ↔
      cause = .alarm ∧ w.alarmAt = some t ∧ (∀ u, w.closingAt = some u → t ≤ u) ∨
        cause = .closing ∧ w.closingAt = some t ∧ ∀ u, w.alarmAt = some u → t < u := by
  rw [wake_eq_some_iff]
  constructor
  · rintro ⟨⟨u, hu, rfl⟩, hfirst⟩
    cases cause with
    | cancellation => simp [instant, hcancel] at hu
    | deadline => simp [instant, hdeadline] at hu
    | alarm =>
        rw [Time.later_of_le (halarm u hu)] at hfirst ⊢
        refine .inl ⟨rfl, hu, fun v hv => ?_⟩
        exact (hfirst .closing v hv).le.trans (Time.later_of_le (hclosing v hv)).le
    | closing =>
        rw [Time.later_of_le (hclosing u hu)] at hfirst ⊢
        refine .inr ⟨rfl, hu, fun v hv => ?_⟩
        have hbefore := hfirst .alarm v hv
        rw [Time.later_of_le (halarm v hv)] at hbefore
        rcases hbefore with hlt | ⟨-, hrank⟩
        · exact hlt
        · simp [Cause.rank] at hrank
  · rintro (⟨rfl, ht, hfirst⟩ | ⟨rfl, ht, hfirst⟩)
    · refine ⟨⟨t, ht, (Time.later_of_le (halarm t ht)).symm⟩, ?_⟩
      intro d v hv
      cases d with
      | cancellation => simp [instant, hcancel] at hv
      | deadline => simp [instant, hdeadline] at hv
      | alarm =>
          obtain rfl : t = v := Option.some.inj (ht.symm.trans hv)
          exact .inr ⟨(Time.later_of_le (halarm t ht)).symm, le_rfl⟩
      | closing =>
          have hle := (hfirst v hv).trans (Time.le_later_right w.since v)
          exact hle.lt_or_eq.imp_right fun h => ⟨h, by simp [Cause.rank]⟩
    · refine ⟨⟨t, ht, (Time.later_of_le (hclosing t ht)).symm⟩, ?_⟩
      intro d v hv
      cases d with
      | cancellation => simp [instant, hcancel] at hv
      | deadline => simp [instant, hdeadline] at hv
      | alarm => exact .inl ((hfirst v hv).trans_le (Time.le_later_right _ _))
      | closing =>
          obtain rfl : t = v := Option.some.inj (ht.symm.trans hv)
          exact .inr ⟨(Time.later_of_le (hclosing t ht)).symm, le_rfl⟩

/-! ## Limits -/

/-- A wait under limits. -/
def under (w : Wait) (limits : Limits) : Wait :=
  { w with cancelAt := limits.cancelAt, deadlineAt := limits.deadlineAt }

/-- A wait that no limits end. -/
def Unlimited (w : Wait) : Prop :=
  w.cancelAt = none ∧ w.deadlineAt = none

end Wait

namespace Limits

/-- The instant of a limit, if it is set; other causes are no limits. -/
def instant (limits : Limits) : Cause → Option Time
  | .cancellation => limits.cancelAt
  | .deadline => limits.deadlineAt
  | .alarm | .closing => Option.none

/-- The limit that strikes first; at one instant the cancellation goes before the deadline. -/
def first (limits : Limits) : Option (Time × Cause) :=
  match limits.cancelAt, limits.deadlineAt with
  | some c, some d => if d < c then some (d, .deadline) else some (c, .cancellation)
  | some c, Option.none => some (c, .cancellation)
  | Option.none, some d => some (d, .deadline)
  | Option.none, Option.none => Option.none

/-- The limit that strikes first is one of the limits, and goes before the other. -/
theorem first_spec {limits : Limits} {t : Time} {cause : Cause}
    (h : limits.first = some (t, cause)) :
    limits.instant cause = some t ∧
      ∀ d v, limits.instant d = some v → Wait.Precedes (t, cause) (v, d) := by
  obtain ⟨deadlineAt, cancelAt⟩ := limits
  unfold first at h
  cases cancelAt with
  | none =>
      cases deadlineAt with
      | none => simp at h
      | some d =>
          simp only [Option.some.injEq, Prod.mk.injEq] at h
          obtain ⟨rfl, rfl⟩ := h
          refine ⟨rfl, ?_⟩
          intro e v hv
          cases e <;> simp_all [instant, Wait.Precedes]
  | some c =>
      cases deadlineAt with
      | none =>
          simp only [Option.some.injEq, Prod.mk.injEq] at h
          obtain ⟨rfl, rfl⟩ := h
          refine ⟨rfl, ?_⟩
          intro e v hv
          cases e <;> simp_all [instant, Wait.Precedes]
      | some d =>
          simp only at h
          split at h <;> simp only [Option.some.injEq, Prod.mk.injEq] at h <;>
            obtain ⟨rfl, rfl⟩ := h
          · next hlt =>
            refine ⟨rfl, ?_⟩
            intro e v hv
            cases e <;> simp_all [instant, Wait.Precedes]
          · next hlt =>
            refine ⟨rfl, ?_⟩
            intro e v hv
            have hle := not_lt.mp hlt
            cases e with
            | deadline =>
                simp only [instant, Option.some.injEq] at hv
                subst hv
                rcases hle.lt_or_eq with h | h
                · exact .inl h
                · exact .inr ⟨h, by simp [Cause.rank]⟩
            | _ => simp_all [instant, Wait.Precedes]

end Limits

namespace Wait

variable {w : Wait} {limits : Limits}

/--
The instants of a wait under limits are those of the limits and those of its own alarm and closing.
-/
theorem instant_under {cause : Cause} {u : Time}
    (h : (w.under limits).instant cause = some u) :
    limits.instant cause = some u ∨ w.instant cause = some u := by
  cases cause
  · exact .inl h
  · exact .inl h
  · exact .inr h
  · exact .inr h

/-- A cause of a wait without limits is a cause of the wait under limits. -/
theorem instant_under_of_instant (hw : w.Unlimited) {cause : Cause} {u : Time}
    (h : w.instant cause = some u) : (w.under limits).instant cause = some u := by
  cases cause
  · rw [instant, hw.1] at h
    simp at h
  · rw [instant, hw.2] at h
    simp at h
  · exact h
  · exact h

/-- A limit is a cause of the wait under limits. -/
theorem instant_under_of_limit {cause : Cause} {u : Time} (h : limits.instant cause = some u) :
    (w.under limits).instant cause = some u := by
  cases cause
  · exact h
  · exact h
  · simp [Limits.instant] at h
  · simp [Limits.instant] at h

/-- Limits that strike after the end of a wait do not disturb it. -/
theorem wake_under_of_before (hw : w.Unlimited) {t : Time} {cause : Cause}
    (h : w.wake = some (t, cause)) (hlate : ∀ d v, limits.instant d = some v → t < v) :
    (w.under limits).wake = some (t, cause) := by
  obtain ⟨⟨u, hu, rfl⟩, hall⟩ := wake_eq_some_iff.mp h
  refine wake_eq_some_iff.mpr ⟨⟨u, instant_under_of_instant hw hu, rfl⟩, ?_⟩
  intro d v hv
  rcases instant_under hv with hv | hv
  · exact .inl ((hlate d v hv).trans_le (Time.le_later_right _ _))
  · exact hall d v hv

/-- At one instant a limit goes before all else that can end a wait. -/
theorem precedes_of_limit (hw : w.Unlimited) {cause d : Cause} {t u v : Time}
    (hcause : limits.instant cause = some u) (hd : w.instant d = some v) {x : Time} (h : t ≤ x) :
    Precedes (t, cause) (x, d) := by
  rcases h.lt_or_eq with hlt | heq
  · exact .inl hlt
  · refine .inr ⟨heq, ?_⟩
    cases d
    · rw [instant, hw.1] at hd
      simp at hd
    · rw [instant, hw.2] at hd
      simp at hd
    · cases cause <;> simp_all [Limits.instant, Cause.rank]
    · cases cause <;> simp_all [Limits.instant, Cause.rank]

/-- A limit that strikes during a wait, not after what would end it, ends it. -/
theorem wake_under_of_first (hw : w.Unlimited) {t : Time} {cause : Cause}
    (hcause : limits.instant cause = some t)
    (hfirst : ∀ d v, limits.instant d = some v →
      Precedes (Time.later w.since t, cause) (Time.later w.since v, d))
    (hlate : ∀ u d, w.wake = some (u, d) → Time.later w.since t ≤ u) :
    (w.under limits).wake = some (Time.later w.since t, cause) := by
  refine wake_eq_some_iff.mpr ⟨⟨t, instant_under_of_limit hcause, rfl⟩, ?_⟩
  intro d v hv
  rcases instant_under hv with hv | hv
  · exact hfirst d v hv
  · obtain ⟨a, ha, hle⟩ := exists_wake_le hv
    exact precedes_of_limit hw hcause hv ((hlate a.1 a.2 ha).trans hle)

end Wait
end ChainPoll

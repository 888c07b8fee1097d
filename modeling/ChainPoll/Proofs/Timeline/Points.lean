import Mathlib.Data.Int.Interval
import Mathlib.Data.Rat.Floor
import Mathlib.Tactic.Linarith
import ChainPoll.Timeline.Grid

/-!
# Points of a grid

A tick moves a grid on by one period, and then by further ones while the next point is not after the
tick.  That loop ends, and leaves the first point of the grid after the tick.  Starts that keep to
such a grid never come before their turn, and only so many of them fall into a window of time.

Main results:

- Theorem {lit}`Grid.exists_rounds`: the loop that a tick runs ends, and where it leaves the grid.
- Theorem {lit}`Grid.firstAfter_advance`: it leaves the first point after the tick.
- Theorem {lit}`Paced.le_start`: starts on a schedule never come before their turn.
- Theorem {lit}`Paced.length_window_le`: how many of them fall into a window of time.
-/

namespace ChainPoll

/-! ## The loop of a tick -/

namespace Grid

/-- The grid with its next point one period later. -/
def push (g : Grid) : Grid :=
  { g with next := g.next + g.period }

/-- The grid with its next point so many periods later. -/
theorem push_iterate (g : Grid) (n : ℕ) :
    push^[n] g = { g with next := g.next + n * g.period } := by
  induction n with
  | zero => simp
  | succ n ih =>
      rw [Function.iterate_succ_apply', ih]
      simp only [push, Nat.cast_succ, add_mul, one_mul, add_assoc]

/--
A tick pushes a grid once, and then again for as long as its next point is not after the tick, which
ends after so many rounds.
-/
theorem exists_rounds (g : Grid) (t : Time) :
    ∃ n, (∀ k < n, (push^[k + 1] g).next ≤ t) ∧ t < (push^[n + 1] g).next ∧
      g.advance t = push^[n + 1] g := by
  have hskip := g.one_le_skip t
  obtain ⟨n, hn⟩ : ∃ n : ℕ, g.skip t = n + 1 := ⟨(g.skip t - 1).toNat, by omega⟩
  have hadvance : g.advance t = push^[n + 1] g := by
    rw [push_iterate, advance, hn]
    push_cast
    rfl
  refine ⟨n, ?_, hadvance ▸ g.lt_advance t, hadvance⟩
  intro k hk
  by_contra hlate
  rw [push_iterate, not_le] at hlate
  -- A round that was not needed would leave the grid further than it is left.
  have hle := g.advance_le t (k + 1) (by omega) (by exact_mod_cast hlate)
  rw [hadvance, push_iterate] at hle
  have hlt : ((k : Rat) + 1) * g.period < (n + 1) * g.period := by
    have hkn : (k : Rat) < n := by exact_mod_cast hk
    exact mul_lt_mul_of_pos_right (by linarith) g.period_pos
  push_cast at hle
  linarith

end Grid

/-- The first point after an instant of those that lie whole periods after `start`. -/
def FirstAfter (start period t point : Time) : Prop :=
  IsLeast {x | t < x ∧ ∃ j : ℕ, x = start + j * period} point

/-- The first point after the start itself is one period later. -/
theorem firstAfter_start {start period : Time} (hperiod : 0 < period) :
    FirstAfter start period start (start + period) := by
  refine ⟨⟨by linarith, 1, by simp⟩, ?_⟩
  rintro x ⟨hlt, j, rfl⟩
  have hj : (1 : Rat) ≤ j := by
    rcases Nat.eq_zero_or_pos j with rfl | hj
    · simp at hlt
    · exact_mod_cast hj
  nlinarith

/-- The first point after an instant is at most one period after it. -/
theorem FirstAfter.le_add {start period t point : Time} (h : FirstAfter start period t point)
    (hperiod : 0 < period) (hstart : start ≤ t) : point ≤ t + period := by
  obtain ⟨⟨hafter, j, rfl⟩, hleast⟩ := h
  by_contra hfar
  cases j with
  | zero =>
      simp only [Nat.cast_zero, zero_mul, add_zero] at hafter
      linarith
  | succ i =>
      -- The point before this one would be after the instant as well.
      have hbefore : start + ((i + 1 : ℕ) : Rat) * period = start + i * period + period := by
        push_cast
        ring
      rw [hbefore] at hfar hafter hleast
      have hle := hleast ⟨by linarith, i, rfl⟩
      linarith

/-- After a tick that was not early the next point of a grid is the first one after the tick. -/
theorem Grid.firstAfter_advance {g : Grid} {start t : Time} {i : ℕ}
    (hpoint : g.next = start + i * g.period) (hle : g.next ≤ t) :
    FirstAfter start g.period t (g.advance t).next := by
  obtain ⟨n, -, hlt, hadvance⟩ := g.exists_rounds t
  have hnext : (g.advance t).next = g.next + (n + 1 : ℕ) * g.period := by
    rw [hadvance, push_iterate]
  refine ⟨⟨hadvance ▸ hlt, i + (n + 1), ?_⟩, ?_⟩
  · rw [hnext, hpoint]
    push_cast
    ring
  · rintro x ⟨htx, j, rfl⟩
    have hij : i < j := by
      by_contra hji
      have hle' : (j : Rat) ≤ i := by exact_mod_cast not_lt.mp hji
      nlinarith [g.period_pos]
    obtain ⟨k, rfl⟩ : ∃ k : ℕ, j = i + k := ⟨j - i, by omega⟩
    have hsame : start + ((i + k : ℕ) : Rat) * g.period = g.next + ((k : ℤ) : Rat) * g.period := by
      rw [hpoint]
      push_cast
      ring
    rw [hsame] at htx ⊢
    exact g.advance_le t k (by omega) htx

/-! ## Schedules -/

/--
Whether requests with these starts and ends, of which the last may be missing, keep to a grid: the
second starts one period after the end of the first one, from where on the grid is counted, and each
later one at the first point after the start of the one before it, or at the end of that one if this
is later.
-/
structure Paced (period : Time) (starts ends : List Time) : Prop where
  ordered : ∀ (n : ℕ) (s e : Time), starts[n]? = some s → ends[n]? = some e → s ≤ e
  second : ∀ s, starts[1]? = some s → ∃ c, ends[0]? = some c ∧ s = c + period
  later : ∀ (n : ℕ) (s s' : Time), starts[n + 1]? = some s → starts[n + 2]? = some s' →
    ∃ c e point, ends[0]? = some c ∧ ends[n + 1]? = some e ∧ FirstAfter c period s point ∧
      s' = max e point

namespace Paced

variable {period : Time} {starts ends : List Time}

/-- What was found in a list is found after more was added to it. -/
private theorem getElem?_append_of_some {α : Type} {xs ys : List α} {n : ℕ} {x : α}
    (h : xs[n]? = some x) : (xs ++ ys)[n]? = some x := by
  obtain ⟨hn, -⟩ := List.getElem?_eq_some_iff.mp h
  rw [List.getElem?_append_left hn, h]

/-- What is found in a list with one more at its end was found before, or is at the end. -/
private theorem getElem?_concat {α : Type} {xs : List α} {n : ℕ} {x y : α}
    (h : (xs ++ [x])[n]? = some y) : xs[n]? = some y ∨ n = xs.length ∧ y = x := by
  rcases lt_or_ge n xs.length with hn | hn
  · rw [List.getElem?_append_left hn] at h
    exact .inl h
  · rw [List.getElem?_append_right hn] at h
    obtain ⟨hlt, hget⟩ := List.getElem?_eq_some_iff.mp h
    simp only [List.length_singleton] at hlt
    refine .inr ⟨by omega, ?_⟩
    simpa [eq_comm] using hget

/-- The end of the last request, which was under way. -/
theorem concat_end (h : Paced period starts ends) {s e : Time}
    (hlast : starts[ends.length]? = some s) (hle : s ≤ e) : Paced period starts (ends ++ [e]) where
  ordered n s' e' hs he := by
    rcases getElem?_concat he with he | ⟨rfl, rfl⟩
    · exact h.ordered n s' e' hs he
    · rw [hlast] at hs
      exact Option.some.inj hs ▸ hle
  second s' hs := by
    obtain ⟨c, hc, heq⟩ := h.second s' hs
    exact ⟨c, getElem?_append_of_some hc, heq⟩
  later n s' s'' hs hs' := by
    obtain ⟨c, e', point, hc, he, hpoint, heq⟩ := h.later n s' s'' hs hs'
    exact ⟨c, e', point, getElem?_append_of_some hc, getElem?_append_of_some he, hpoint, heq⟩

/-- The start of one more request, after all that were started have ended. -/
theorem concat_start (h : Paced period starts ends) (hlength : starts.length = ends.length)
    {t : Time} (hsecond : starts.length = 1 → ∃ c, ends[0]? = some c ∧ t = c + period)
    (hlater : ∀ n s, starts.length = n + 2 → starts[n + 1]? = some s →
      ∃ c e point, ends[0]? = some c ∧ ends[n + 1]? = some e ∧ FirstAfter c period s point ∧
        t = max e point) : Paced period (starts ++ [t]) ends where
  ordered n s e hs he := by
    rcases getElem?_concat hs with hs | ⟨rfl, -⟩
    · exact h.ordered n s e hs he
    · rw [hlength, List.getElem?_length] at he
      simp at he
  second s hs := by
    rcases getElem?_concat hs with hs | ⟨hone, rfl⟩
    · exact h.second s hs
    · exact hsecond hone.symm
  later n s s' hs hs' := by
    rcases getElem?_concat hs' with hs' | ⟨hlen, rfl⟩
    · rcases getElem?_concat hs with hs | ⟨hn, -⟩
      · exact h.later n s s' hs hs'
      · obtain ⟨hlt, -⟩ := List.getElem?_eq_some_iff.mp hs'
        omega
    · rcases getElem?_concat hs with hs | ⟨hn, -⟩
      · exact hlater n s hlen.symm hs
      · omega

/-- Requests never start before their turn. -/
theorem le_start (h : Paced period starts ends) (hperiod : 0 < period) {c : Time}
    (hc : ends[0]? = some c) {n : ℕ} {s : Time} (hs : starts[n + 1]? = some s) :
    c + (n + 1) * period ≤ s := by
  induction n generalizing s with
  | zero =>
      obtain ⟨c', hc', rfl⟩ := h.second s hs
      rw [hc, Option.some.injEq] at hc'
      rw [hc', Nat.cast_zero, zero_add, one_mul]
  | succ n ih =>
      obtain ⟨hlt, -⟩ := List.getElem?_eq_some_iff.mp hs
      obtain ⟨s₀, hs₀⟩ : ∃ s₀, starts[n + 1]? = some s₀ :=
        ⟨_, List.getElem?_eq_getElem (by omega)⟩
      obtain ⟨c', e, point, hc', -, ⟨⟨hafter, j, hj⟩, -⟩, rfl⟩ := h.later n s₀ s hs₀ hs
      rw [hc, Option.some.injEq] at hc'
      subst hc'
      -- The point is a whole number of periods after `c`, and more than the one before.
      have hbefore := ih hs₀
      have hnj : n + 1 < j := by
        by_contra hjn
        have hle : (j : Rat) ≤ n + 1 := by exact_mod_cast not_lt.mp hjn
        nlinarith
      have hcast : ((n + 1 : ℕ) : Rat) + 1 ≤ j := by exact_mod_cast hnj
      have hpoint : c + (((n + 1 : ℕ) : Rat) + 1) * period ≤ point := by
        rw [hj]
        nlinarith
      exact hpoint.trans (le_max_right e point)

/-- A later request starts at most a period, or the time of an attempt, after the one before it. -/
theorem start_le (h : Paced period starts ends) (hperiod : 0 < period) {longest : Time}
    (hlong : ∀ (n : ℕ) (s e : Time), starts[n]? = some s → ends[n]? = some e → e ≤ s + longest)
    {n : ℕ} {s s' : Time} (hs : starts[n + 1]? = some s) (hs' : starts[n + 2]? = some s') :
    s' ≤ s + max longest period := by
  obtain ⟨c, e, point, hc, he, hpoint, rfl⟩ := h.later n s s' hs hs'
  have hturn := h.le_start hperiod hc hs
  have hcs : c ≤ s := by
    have hpos : 0 ≤ ((n : Rat) + 1) * period := by positivity
    linarith
  have hnear := hpoint.le_add hperiod hcs
  have hend : e ≤ s + longest := hlong _ s e hs he
  refine max_le ?_ ?_
  · exact hend.trans (add_le_add_right (le_max_left longest period) s)
  · exact hnear.trans (add_le_add_right (le_max_right longest period) s)

/-- The number of the period after `c` in which an instant lies. -/
def cell (period c t : Time) : ℤ :=
  ⌊(t - c) / period⌋

/-- Each request starts in a later period than the one before it. -/
theorem cell_lt_cell (h : Paced period starts ends) (hperiod : 0 < period) {c : Time}
    (hc : ends[0]? = some c) {n : ℕ} {s s' : Time} (hs : starts[n]? = some s)
    (hs' : starts[n + 1]? = some s') : cell period c s < cell period c s' := by
  have hpoint : ∃ j : ℕ, s < c + j * period ∧ c + j * period ≤ s' := by
    cases n with
    | zero =>
        obtain ⟨c', hc', rfl⟩ := h.second s' hs'
        obtain rfl : c = c' := Option.some.inj (hc.symm.trans hc')
        have hle := h.ordered 0 s c hs hc
        exact ⟨1, by push_cast; linarith, by simp⟩
    | succ n =>
        obtain ⟨c', e, point, hc', -, ⟨⟨hafter, j, hj⟩, -⟩, rfl⟩ := h.later n s s' hs hs'
        obtain rfl : c = c' := Option.some.inj (hc.symm.trans hc')
        exact ⟨j, hj ▸ hafter, hj ▸ le_max_right e point⟩
  obtain ⟨j, hbefore, hafter⟩ := hpoint
  have hlt : cell period c s < j := by
    rw [cell, Int.floor_lt, div_lt_iff₀ hperiod]
    push_cast
    linarith
  have hle : (j : ℤ) ≤ cell period c s' := by
    rw [cell, Int.le_floor, le_div_iff₀ hperiod]
    push_cast
    linarith
  exact hlt.trans_le hle

/-- All requests start in different periods, later ones in later ones. -/
theorem pairwise_cell (h : Paced period starts ends) (hperiod : 0 < period) {c : Time}
    (hc : ends[0]? = some c) : (starts.map (cell period c)).Pairwise (· < ·) := by
  rw [← List.isChain_iff_pairwise, List.isChain_iff_getElem]
  intro n hn
  simp only [List.length_map] at hn
  simp only [List.getElem_map]
  exact h.cell_lt_cell hperiod hc (List.getElem?_eq_getElem (by omega))
    (List.getElem?_eq_getElem (by omega))

/-- A window of time meets at most one period more than fit into it. -/
theorem cell_add_le (period c t span : Time) :
    cell period c (t + span) ≤ cell period c t + ⌈span / period⌉₊ := by
  have hsum : (t + span - c) / period = (t - c) / period + span / period := by ring
  rw [cell, cell, hsum, ← Int.floor_add_natCast]
  exact Int.floor_le_floor (by gcongr; exact Nat.le_ceil _)

/-- A window of time sees at most one start more than periods fit into it, rounded up. -/
theorem length_window_le (h : Paced period starts ends) (hperiod : 0 < period) (t span : Time) :
    (starts.filter fun s => t ≤ s ∧ s ≤ t + span).length ≤ ⌈span / period⌉₊ + 1 := by
  cases hends : ends[0]? with
  | none =>
      -- Before the end of the first request there is no second one.
      have hone : starts.length ≤ 1 := by
        by_contra hmany
        obtain ⟨c, hc, -⟩ := h.second starts[1] (List.getElem?_eq_getElem (by omega))
        rw [hends] at hc
        simp at hc
      exact (List.length_filter_le _ _).trans (hone.trans (by omega))
  | some c =>
      have hsub : ((starts.filter fun s => t ≤ s ∧ s ≤ t + span).map (cell period c)).Sublist
          (starts.map (cell period c)) := List.filter_sublist.map _
      have hnodup := ((h.pairwise_cell hperiod hends).sublist hsub).imp ne_of_lt
      have hwithin : ((starts.filter fun s => t ≤ s ∧ s ≤ t + span).map (cell period c)).toFinset ⊆
          Finset.Icc (cell period c t) (cell period c (t + span)) := by
        intro x hx
        simp only [List.mem_toFinset, List.mem_map, List.mem_filter, decide_eq_true_eq] at hx
        obtain ⟨s, ⟨-, hts, hspan⟩, rfl⟩ := hx
        rw [Finset.mem_Icc]
        refine ⟨Int.floor_le_floor ?_, Int.floor_le_floor ?_⟩
        · gcongr
        · gcongr
      have hcard := Finset.card_le_card hwithin
      rw [List.toFinset_card_of_nodup hnodup, List.length_map, Int.card_Icc] at hcard
      have hcells := cell_add_le period c t span
      omega

end Paced
end ChainPoll

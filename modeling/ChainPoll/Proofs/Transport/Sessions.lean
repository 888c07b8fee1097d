import Mathlib.Algebra.Order.Ring.Rat
import ChainPoll.Transport.Session

/-!
# Sessions side by side

Sessions are made one after another, each when the one before was closed.  What holds of them is
kept when one is acquired and when the last one is closed; both changes leave it to each session
whether it is closed now.

Main results:

- Theorem {lit}`Sessions.Sound.acquire`: acquiring a session leaves the sessions sound.
- Theorem {lit}`Sessions.Sound.close`: closing leaves the sessions sound.
- Theorem {lit}`Sessions.Sound.closing_close`: after closing, all sessions were closed.
- Theorem {lit}`Sessions.Sound.openAt_iff`: one session at most is open, the last.
-/

namespace ChainPoll

namespace Sessions

variable {s s' : Sessions} {now t : Time}

/-! ## Sound sessions -/

/-- What holds of sessions: all but the last one were closed, and none is to be closed later. -/
structure Sound (s : Sessions) (now : Time) : Prop where
  past : ∀ t, some t ∈ s.closings → t ≤ now
  closed : ∀ i, i + 1 < s.count → ∃ t, s.closings[i]? = some (some t)

/-- What becomes of sessions in one change: more are made, and open ones may be closed now. -/
structure Follows (now : Time) (s s' : Sessions) : Prop where
  count_le : s.count ≤ s'.count
  closing : ∀ n, 1 ≤ n → n ≤ s.count →
    s'.closingOf n = s.closingOf n ∨ s'.closingOf n = some now

/-- Without sessions nothing can be unsound. -/
theorem sound_none (now : Time) : Sessions.none.Sound now :=
  ⟨by simp [Sessions.none], by simp [Sessions.none, count]⟩

/-- What holds of sessions still holds later. -/
theorem Sound.mono (h : s.Sound now) (hle : now ≤ t) : s.Sound t :=
  ⟨fun u hu => (h.past u hu).trans hle, h.closed⟩

/-! ## Changes of sessions -/

/-- A change may leave the sessions as they are. -/
theorem Follows.refl (now : Time) (s : Sessions) : s.Follows now s :=
  ⟨le_rfl, fun _ _ _ => .inl rfl⟩

/-- Where a session is open, there is one. -/
theorem count_pos_of_isOpen (h : s.isOpen now = true) : 1 ≤ s.count := by
  unfold isOpen at h
  split at h
  · next closing hlast => exact List.length_pos_of_mem (List.mem_of_getLast? hlast)
  · simp at h

/-- If no session is open, the last one was closed. -/
theorem last_of_not_isOpen (h : s.isOpen now = false) {i : Nat} (hi : i + 1 = s.count) :
    ∃ t ≤ now, s.closings[i]? = some (some t) := by
  have hlast : s.closings.getLast? = s.closings[i]? := by
    rw [List.getLast?_eq_getElem?, show s.closings.length - 1 = i by simp only [count] at hi; omega]
  have hmem : i < s.closings.length := by simp only [count] at hi; omega
  have hget : s.closings[i]? = some s.closings[i] := List.getElem?_eq_getElem hmem
  simp only [isOpen, hlast, hget] at h
  cases hclosing : s.closings[i] with
  | none => simp [hclosing, Time.reached] at h
  | some t =>
      refine ⟨t, by simpa [hclosing, Time.reached] using h, ?_⟩
      rw [hget, hclosing]

/-- Acquiring a session leaves the sessions sound. -/
theorem Sound.acquire (h : s.Sound now) : (s.acquire now).2.Sound now := by
  unfold Sessions.acquire
  split
  · exact h
  · next hopen =>
    refine ⟨?_, ?_⟩
    · intro t ht
      simp only [List.mem_append, List.mem_singleton, reduceCtorEq, or_false] at ht
      exact h.past t ht
    · intro i hi
      simp only [count, List.length_append, List.length_singleton] at hi
      rw [List.getElem?_append_left (by omega)]
      rcases Nat.lt_or_ge (i + 1) s.count with hlt | hge
      · exact h.closed i hlt
      · obtain ⟨t, -, ht⟩ := last_of_not_isOpen (Bool.eq_false_of_not_eq_true hopen)
          (i := i) (by simp only [count] at hge ⊢; omega)
        exact ⟨t, ht⟩

/-- Acquiring a session closes none. -/
theorem Follows.acquire (now : Time) (s : Sessions) : s.Follows now (s.acquire now).2 := by
  unfold Sessions.acquire
  split
  · exact .refl now s
  · refine ⟨by simp [count], fun n hn hcount => .inl ?_⟩
    simp only [count] at hcount
    simp only [closingOf]
    rw [List.getElem?_append_left (by omega)]

/-- The session that is acquired is one of the sessions. -/
theorem acquire_mem (s : Sessions) (now : Time) :
    1 ≤ (s.acquire now).1 ∧ (s.acquire now).1 ≤ (s.acquire now).2.count := by
  obtain ⟨hopen, hcount⟩ := s.acquire_open now
  rw [hcount]
  exact ⟨count_pos_of_isOpen hopen, le_rfl⟩

/-- Closing turns the closing of the last session, if it is open, into one that is now. -/
theorem closings_close (s : Sessions) (now : Time) (i : Nat) :
    (s.close now).closings[i]? =
      if s.isOpen now = true ∧ i + 1 = s.count then some (some now) else s.closings[i]? := by
  unfold close
  by_cases hopen : s.isOpen now = true
  · have hpos : 1 ≤ s.closings.length := count_pos_of_isOpen hopen
    rw [if_pos hopen]
    rcases Nat.lt_trichotomy (i + 1) s.count with hi | hi | hi
    · have hi' : i < s.closings.dropLast.length := by
        rw [List.length_dropLast]
        simp only [count] at hi
        omega
      rw [if_neg (by omega), List.getElem?_append_left hi', List.getElem?_dropLast,
        if_pos (by simp only [count] at hi; omega)]
    · rw [if_pos ⟨hopen, hi⟩, List.getElem?_append_right (by simp [count] at hi ⊢; omega)]
      simp only [List.length_dropLast, count] at hi ⊢
      rw [show i - (s.closings.length - 1) = 0 by omega]
      rfl
    · rw [if_neg (by omega), List.getElem?_eq_none, List.getElem?_eq_none]
      · simp only [count] at hi
        omega
      · simp only [List.length_append, List.length_dropLast, List.length_singleton, count] at hi ⊢
        omega
  · rw [if_neg hopen, if_neg (by simp [hopen])]

/-- Closing makes no session. -/
theorem count_close (s : Sessions) (now : Time) : (s.close now).count = s.count := by
  unfold close
  split
  · next hopen =>
    have hpos : 1 ≤ s.closings.length := count_pos_of_isOpen hopen
    simp only [count, List.length_append, List.length_dropLast, List.length_singleton]
    omega
  · rfl

/-- Closing closes sessions now, if any. -/
theorem Follows.close (now : Time) (s : Sessions) : s.Follows now (s.close now) := by
  refine ⟨(s.count_close now).ge, ?_⟩
  intro n hn hcount
  simp only [closingOf, closings_close]
  split
  · exact .inr rfl
  · exact .inl rfl

/-- After closing, all sessions were closed. -/
theorem Sound.closing_close (h : s.Sound now) {n : Nat} (hn : 1 ≤ n) (hcount : n ≤ s.count) :
    ∃ t ≤ now, (s.close now).closingOf n = some t := by
  simp only [closingOf, closings_close]
  have hcases : n - 1 + 1 < s.count ∨ n - 1 + 1 = s.count := by omega
  rcases hcases with hlt | heq
  · obtain ⟨t, ht⟩ := h.closed (n - 1) hlt
    refine ⟨t, h.past t (List.mem_of_getElem? ht), ?_⟩
    rw [if_neg (by omega), ht]
    rfl
  · cases hopen : s.isOpen now with
    | true => exact ⟨now, le_rfl, by simp [heq]⟩
    | false =>
        obtain ⟨t, ht, hget⟩ := last_of_not_isOpen hopen heq
        exact ⟨t, ht, by simp [hget]⟩

/-- Closing leaves the sessions sound. -/
theorem Sound.close (h : s.Sound now) : (s.close now).Sound now := by
  refine ⟨?_, ?_⟩
  · intro t ht
    obtain ⟨i, hi⟩ := List.getElem?_of_mem ht
    rw [closings_close] at hi
    split at hi
    · rw [Option.some.injEq, Option.some.injEq] at hi
      exact hi.ge
    · exact h.past t (List.mem_of_getElem? hi)
  · intro i hi
    rw [count_close] at hi
    obtain ⟨t, ht⟩ := h.closed i hi
    exact ⟨t, by rw [closings_close, if_neg (by omega), ht]⟩

/-- Sessions that are closed stay closed. -/
theorem isOpen_mono (h : s.isOpen now = false) (hle : now ≤ t) : s.isOpen t = false := by
  unfold isOpen at h ⊢
  split at h
  · next closing hlast =>
    cases closing with
    | none => simp [Time.reached] at h
    | some u =>
        have hu : u ≤ now := by simpa [Time.reached] using h
        simp [hu.trans hle, Time.reached]
  · simp

/-! ## The session that is open -/

section

variable {n : Nat}

/-- Whether the session of a number is there, and open. -/
def OpenAt (s : Sessions) (now : Time) (n : Nat) : Prop :=
  1 ≤ n ∧ n ≤ s.count ∧ Time.reached now (s.closingOf n) = false

/-- The closing of the last session tells whether one is open. -/
theorem isOpen_iff (h : 1 ≤ s.count) :
    s.isOpen now = true ↔ Time.reached now (s.closingOf s.count) = false := by
  have hlast : s.closings.getLast? = s.closings[s.count - 1]? := List.getLast?_eq_getElem?
  have hlength : s.count - 1 < s.closings.length := by simp only [count] at h ⊢; omega
  simp [isOpen, closingOf, hlast, List.getElem?_eq_getElem hlength]

/-- A session that is open is the last one. -/
theorem Sound.openAt_iff (h : s.Sound now) :
    s.OpenAt now n ↔ n = s.count ∧ s.isOpen now = true := by
  constructor
  · rintro ⟨hpos, hle, hopen⟩
    have hlast : n = s.count := by
      by_contra hne
      obtain ⟨t, ht⟩ := h.closed (n - 1) (by omega)
      simp [closingOf, ht, Time.reached, h.past t (List.mem_of_getElem? ht)] at hopen
    exact ⟨hlast, (isOpen_iff (hlast ▸ hpos)).mpr (hlast ▸ hopen)⟩
  · rintro ⟨rfl, hopen⟩
    have hpos := count_pos_of_isOpen hopen
    exact ⟨hpos, le_rfl, (isOpen_iff hpos).mp hopen⟩

/-- The closing of a session that is open is not known. -/
theorem Sound.closingOf_of_isOpen (h : s.Sound now) (hopen : s.isOpen now = true) :
    s.closingOf s.count = Option.none := by
  have hreached := (isOpen_iff (count_pos_of_isOpen hopen)).mp hopen
  cases hclosing : s.closingOf s.count with
  | none => rfl
  | some t =>
      have hmem : some t ∈ s.closings := by
        rw [closingOf, Option.join_eq_some_iff] at hclosing
        exact List.mem_of_getElem? hclosing
      simp [hclosing, Time.reached, h.past t hmem] at hreached

/-- Sessions that are open stay open as time passes. -/
theorem Sound.isOpen_eq (h : s.Sound now) (hle : now ≤ t) : s.isOpen t = s.isOpen now := by
  cases hopen : s.isOpen now with
  | false => exact isOpen_mono hopen hle
  | true =>
      rw [isOpen_iff (count_pos_of_isOpen hopen), h.closingOf_of_isOpen hopen]
      rfl

/-- Acquiring a session leaves the closings of all sessions as they were. -/
theorem closingOf_acquire (s : Sessions) (now : Time) (n : Nat) :
    (s.acquire now).2.closingOf n = s.closingOf n := by
  unfold acquire
  split
  · rfl
  · simp only [closingOf]
    rcases Nat.lt_trichotomy (n - 1) s.closings.length with hlt | heq | hgt
    · rw [List.getElem?_append_left hlt]
    · simp [heq]
    · rw [List.getElem?_eq_none (by simp; omega), List.getElem?_eq_none (by omega)]

/-- Closing closes the session that is open, and no other one. -/
theorem closingOf_close (s : Sessions) (now : Time) (n : Nat) :
    (s.close now).closingOf n =
      if s.isOpen now = true ∧ n - 1 + 1 = s.count then some now else s.closingOf n := by
  simp only [closingOf, closings_close]
  split
  · rfl
  · rfl

/-- The number of sessions after one was acquired. -/
theorem count_acquire (s : Sessions) (now : Time) :
    (s.acquire now).2.count = if s.isOpen now then s.count else s.count + 1 := by
  unfold acquire
  split
  · rfl
  · simp [count]

end

end Sessions
end ChainPoll

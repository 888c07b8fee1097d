import Mathlib.Data.List.Nodup
import Mathlib.Data.List.Perm.Subperm
import ChainPoll.Paging.Walk
import ChainPoll.Proofs.Paging.Sorting

/-!
# Paging through a store

A store holds records with different natural numbers as identifiers, and answers with the records of
smallest identifier from a cursor on, at most a page of them.  The cursor moves on by the size of a
page, not by what a page holds.  So the records between two cursors fit on one page, and none is
lost; where an identifier between two cursors is missing, a full page holds a record that comes
again.

Main results:

- Theorem {lit}`Store.Answers.perm_window`: a page holds all records up to the next cursor.
- Theorem {lit}`Store.Gathers.mem_iff`: the pages together hold all records from the first cursor
  on.
- Theorem {lit}`Store.Gathers.nodup_iff`: they hold each once exactly if no identifier is missing
  between the cursors of full pages.
- Theorem {lit}`Store.Gathers.returns`: what a walk over a store returns.
- Theorem {lit}`Store.exists_gathers`: the pages that a store answers with come to an end.
-/

namespace ChainPoll

/-- Records with different natural numbers as identifiers, in the order of these. -/
structure Store (α : Type) (key : α → Int) where
  records : List α
  ascending : records.Pairwise fun a b => key a < key b
  nonneg : ∀ a ∈ records, 0 ≤ key a

namespace Store

variable {α : Type} {key : α → Int} {s : Store α key} {size : PageSize} {c n i : Nat}
  {page : Page α} {pages : List (Page α)}

/-- The records from an identifier on. -/
def above (s : Store α key) (c : Nat) : List α :=
  s.records.filter fun a => (c : Int) ≤ key a

/-- The records with identifiers among so many from one on. -/
def window (s : Store α key) (c n : Nat) : List α :=
  (s.above c).filter fun a => key a < (c + n : Nat)

/-- Whether there is a record with an identifier. -/
def Holds (s : Store α key) (i : Nat) : Prop :=
  ∃ a ∈ s.records, key a = i

/--
Whether a page is what a store answers from an identifier on: no page stands for an empty one.
-/
def Answers (s : Store α key) (size : PageSize) (c : Nat) (page : Page α) : Prop :=
  (page.getD []).Perm ((s.above c).take size.rows)

/-- Whether a page is full. -/
def IsFull (size : PageSize) (page : Page α) : Prop :=
  size.rows ≤ (page.getD []).length

/-- No page is not full. -/
theorem not_isFull_none (size : PageSize) : ¬ IsFull size (none : Page α) :=
  not_le.mpr size.rows_pos

/-- Whether there is a record with each of so many identifiers from one on. -/
def Gapless (s : Store α key) (c n : Nat) : Prop :=
  ∀ i, c ≤ i → i < c + n → s.Holds i

/-! ## Windows -/

/-- The records from an identifier on. -/
theorem mem_above {a : α} : a ∈ s.above c ↔ a ∈ s.records ∧ (c : Int) ≤ key a := by
  simp [above]

/-- The records in a window. -/
theorem mem_window {a : α} :
    a ∈ s.window c n ↔ a ∈ s.above c ∧ key a < (c + n : Nat) := by
  simp [window]

/-- Later identifiers leave fewer records. -/
theorem above_subset (s : Store α key) (c n : Nat) : s.above (c + n) ⊆ s.above c := by
  intro a ha
  rw [mem_above] at ha ⊢
  exact ⟨ha.1, by omega⟩

/-- The records from an identifier on stand in order. -/
theorem above_ascending (s : Store α key) (c : Nat) :
    (s.above c).Pairwise fun a b => key a < key b :=
  s.ascending.filter _

/-- The identifiers of records in order are different. -/
theorem nodup_map_key {rows : List α} (h : rows.Pairwise fun a b => key a < key b) :
    (rows.map key).Nodup :=
  List.pairwise_map.mpr (h.imp fun hlt => hlt.ne)

/-- Of records in order those below a bound come before the others. -/
theorem filter_append_filter (rows : List α) (bound : Int)
    (h : rows.Pairwise fun a b => key a < key b) :
    rows = (rows.filter fun a => key a < bound) ++ rows.filter fun a => bound ≤ key a := by
  induction rows with
  | nil => rfl
  | cons a rows ih =>
      obtain ⟨hhead, htail⟩ := List.pairwise_cons.mp h
      by_cases hlt : key a < bound
      · have hle : ¬ bound ≤ key a := not_le.mpr hlt
        simp only [List.filter_cons, hlt, hle, decide_true, decide_false, if_true,
          Bool.false_eq_true, if_false, List.cons_append]
        exact congrArg (a :: ·) (ih htail)
      · have hle : bound ≤ key a := not_lt.mp hlt
        have hnone : (rows.filter fun b => key b < bound) = [] := by
          refine List.filter_eq_nil_iff.mpr fun b hb => ?_
          have hab := hhead b hb
          simp only [decide_eq_true_eq]
          omega
        have hall : (rows.filter fun b => bound ≤ key b) = rows := by
          refine List.filter_eq_self.mpr fun b hb => ?_
          have hab := hhead b hb
          simp only [decide_eq_true_eq]
          omega
        simp only [List.filter_cons, hlt, hle, decide_true, decide_false, if_true,
          Bool.false_eq_true, if_false, hnone, hall, List.nil_append]

/-- The records from an identifier on are those of a window and those after it. -/
theorem above_eq (s : Store α key) (c n : Nat) :
    s.above c = s.window c n ++ s.above (c + n) := by
  have hsplit := filter_append_filter (s.above c) (c + n : Nat) (s.above_ascending c)
  have hrest : ((s.above c).filter fun a => ((c + n : Nat) : Int) ≤ key a) = s.above (c + n) := by
    rw [above, List.filter_filter]
    refine List.filter_congr fun a _ => ?_
    rw [← Bool.decide_and, decide_eq_decide]
    omega
  rw [hrest] at hsplit
  exact hsplit

/-- The identifiers in a window are some of the numbers there. -/
theorem window_subperm (s : Store α key) (c n : Nat) :
    ((s.window c n).map key).Subperm ((List.range' c n).map Int.ofNat) := by
  have hascending : (s.window c n).Pairwise fun a b => key a < key b :=
    (s.above_ascending c).filter _
  refine List.subperm_of_subset (nodup_map_key hascending) ?_
  intro k hk
  obtain ⟨a, ha, rfl⟩ := List.mem_map.mp hk
  obtain ⟨habove, hlt⟩ := mem_window.mp ha
  have hle := (mem_above.mp habove).2
  refine List.mem_map.mpr ⟨(key a).toNat, List.mem_range'_1.mpr ⟨by omega, by omega⟩, ?_⟩
  exact Int.toNat_of_nonneg (by omega)

/-- A window holds no more records than it has identifiers. -/
theorem length_window_le (s : Store α key) (c n : Nat) : (s.window c n).length ≤ n := by
  simpa using (s.window_subperm c n).length_le

/-- A window holds a record for each identifier exactly if it holds as many records. -/
theorem gapless_iff (s : Store α key) (c n : Nat) :
    s.Gapless c n ↔ (s.window c n).length = n := by
  constructor
  · intro h
    have hsubset : (List.range' c n).map Int.ofNat ⊆ (s.window c n).map key := by
      intro k hk
      obtain ⟨i, hi, rfl⟩ := List.mem_map.mp hk
      obtain ⟨hle, hlt⟩ := List.mem_range'_1.mp hi
      obtain ⟨a, ha, hkey⟩ := h i hle hlt
      refine List.mem_map.mpr ⟨a, mem_window.mpr ⟨mem_above.mpr ⟨ha, ?_⟩, ?_⟩, hkey⟩
      · omega
      · omega
    have hnodup : ((List.range' c n).map Int.ofNat).Nodup :=
      List.Nodup.map (fun _ _ h => Int.ofNat.inj h) List.nodup_range'
    have hge : n ≤ (s.window c n).length := by
      simpa using (List.subperm_of_subset hnodup hsubset).length_le
    exact le_antisymm (s.length_window_le c n) hge
  · intro h i hle hlt
    have hperm := (s.window_subperm c n).perm_of_length_le (by simp [h])
    have hmem : Int.ofNat i ∈ (s.window c n).map key :=
      hperm.mem_iff.mpr (List.mem_map.mpr ⟨i, List.mem_range'_1.mpr ⟨hle, hlt⟩, rfl⟩)
    obtain ⟨a, ha, hkey⟩ := List.mem_map.mp hmem
    exact ⟨a, (mem_above.mp (mem_window.mp ha).1).1, hkey⟩

/-! ## Pages -/

/-- A page holds records from its identifier on. -/
theorem Answers.subset (h : s.Answers size c page) : page.getD [] ⊆ s.above c :=
  fun _ ha => List.take_subset _ _ (List.Perm.subset h ha)

/-- A page holds no record twice. -/
theorem Answers.nodup (h : s.Answers size c page) : (page.getD []).Nodup :=
  h.nodup_iff.mpr ((nodup_map_key (s.above_ascending c)).of_map.sublist (List.take_sublist _ _))

/-- A page holds all records up to the next cursor, and then some of those that follow. -/
theorem Answers.perm_window (h : s.Answers size c page) :
    (page.getD []).Perm (s.window c size.rows ++
      (s.above (c + size.rows)).take (size.rows - (s.window c size.rows).length)) := by
  have hle := s.length_window_le c size.rows
  have htake : (s.above c).take size.rows = s.window c size.rows ++
      (s.above (c + size.rows)).take (size.rows - (s.window c size.rows).length) := by
    rw [s.above_eq c size.rows, List.take_append, List.take_of_length_le hle]
  rw [← htake]
  exact h

/-- A page that is not full holds all records from its identifier on. -/
theorem Answers.perm_of_not_isFull (h : s.Answers size c page) (hshort : ¬ IsFull size page) :
    (page.getD []).Perm (s.above c) := by
  have hlength := h.length_eq
  rw [List.length_take] at hlength
  have hle : (s.above c).length ≤ size.rows := by
    simp only [IsFull] at hshort
    omega
  have hperm : (page.getD []).Perm ((s.above c).take size.rows) := h
  rwa [List.take_of_length_le hle] at hperm

/-- A full page holds as many records as a page can. -/
theorem Answers.length_eq_of_isFull (h : s.Answers size c page) (hfull : IsFull size page) :
    (page.getD []).length = size.rows := by
  have hlength := h.length_eq
  rw [List.length_take] at hlength
  simp only [IsFull] at hfull
  omega

/--
A full page without a missing identifier up to the next cursor holds just the records up to it.
-/
theorem Answers.lt_of_gapless (h : s.Answers size c page) (hgapless : s.Gapless c size.rows)
    {a : α} (ha : a ∈ page.getD []) : key a < (c + size.rows : Nat) := by
  have hperm := h.perm_window
  rw [(s.gapless_iff c size.rows).mp hgapless, Nat.sub_self, List.take_zero,
    List.append_nil] at hperm
  exact (mem_window.mp (hperm.mem_iff.mp ha)).2

/--
A full page with a missing identifier up to the next cursor holds a record that comes after it.
-/
theorem Answers.exists_above_of_not_gapless (h : s.Answers size c page) (hfull : IsFull size page)
    (hgap : ¬ s.Gapless c size.rows) : ∃ a ∈ page.getD [], a ∈ s.above (c + size.rows) := by
  have hlength := h.perm_window.length_eq
  rw [h.length_eq_of_isFull hfull, List.length_append] at hlength
  have hlt : (s.window c size.rows).length < size.rows := by
    refine lt_of_le_of_ne (s.length_window_le c size.rows) ?_
    rwa [ne_eq, ← s.gapless_iff]
  obtain ⟨a, ha⟩ := List.exists_mem_of_length_pos (l := (s.above (c + size.rows)).take
    (size.rows - (s.window c size.rows).length)) (by omega)
  exact ⟨a, h.perm_window.mem_iff.mpr (List.mem_append_right _ ha), List.take_subset _ _ ha⟩

/-- Where a full page is, records follow. -/
theorem Answers.exists_of_isFull (h : s.Answers size c page) (hfull : IsFull size page) :
    ∃ a ∈ s.records, (c : Int) ≤ key a := by
  obtain ⟨a, ha⟩ := List.exists_mem_of_length_pos
    ((h.length_eq_of_isFull hfull).symm ▸ size.rows_pos)
  exact ⟨a, mem_above.mp (h.subset ha)⟩

/-- A full page has no missing identifier up to the next cursor if none is missing among all. -/
theorem Answers.gapless_of_contiguous (h : s.Answers size c page) (hfull : IsFull size page)
    (hcontiguous : ∀ i, c ≤ i → (∃ a ∈ s.records, (i : Int) ≤ key a) → s.Holds i) :
    s.Gapless c size.rows := by
  intro i hle hlt
  by_contra hmissing
  -- No record follows a missing identifier, so that too few are left for a full page.
  have hnone : s.above i = [] := by
    refine List.eq_nil_iff_forall_not_mem.mpr fun a ha => ?_
    exact hmissing (hcontiguous i hle ⟨a, mem_above.mp ha⟩)
  have habove := s.above_eq c (i - c)
  rw [show c + (i - c) = i by omega, hnone, List.append_nil] at habove
  have hfew := s.length_window_le c (i - c)
  rw [← habove] at hfew
  have hmany := h.length_eq
  rw [h.length_eq_of_isFull hfull, List.length_take] at hmany
  omega

/-! ## Walks -/

/-- Pages that are answered one after another from a cursor on, all of them full but the last. -/
inductive Gathers (s : Store α key) (size : PageSize) : Nat → List (Page α) → Prop where
  | last {c : Nat} {page : Page α} (h : s.Answers size c page) (hshort : ¬ IsFull size page) :
      Gathers s size c [page]
  | full {c : Nat} {page : Page α} {pages : List (Page α)} (h : s.Answers size c page)
      (hfull : IsFull size page) (hrest : Gathers s size (c + size.rows) pages) :
      Gathers s size c (page :: pages)

/-- The cursor of a later page. -/
theorem cursor_succ (size : PageSize) (c k : Nat) :
    c + (k + 1) * size.rows = c + size.rows + k * size.rows := by
  rw [Nat.succ_mul]
  omega

/-- All records on some pages. -/
def gathered (pages : List (Page α)) : List α :=
  pages.flatMap fun page => page.getD []

/-- The pages together hold all records from the first cursor on, and no others. -/
theorem Gathers.mem_iff (h : s.Gathers size c pages) {a : α} :
    a ∈ gathered pages ↔ a ∈ s.above c := by
  induction h with
  | last h hshort => simpa [gathered] using (h.perm_of_not_isFull hshort).mem_iff
  | @full c page pages h hfull _ ih =>
      have hcons : a ∈ gathered (page :: pages) ↔ a ∈ page.getD [] ∨ a ∈ gathered pages := by
        simp [gathered]
      rw [hcons, ih]
      constructor
      · rintro (ha | ha)
        · exact h.subset ha
        · exact s.above_subset c size.rows ha
      · intro ha
        rw [s.above_eq c size.rows, List.mem_append] at ha
        rcases ha with ha | ha
        · exact .inl (h.perm_window.mem_iff.mpr (List.mem_append_left _ ha))
        · exact .inr ha

/--
The pages hold no record twice exactly if the full ones among them have no missing identifiers.
-/
theorem Gathers.nodup_iff (h : s.Gathers size c pages) :
    (gathered pages).Nodup ↔
      ∀ k, k + 1 < pages.length → s.Gapless (c + k * size.rows) size.rows := by
  induction h with
  | last h hshort => simpa [gathered] using h.nodup
  | @full c page pages h hfull hrest ih =>
      have hcons : gathered (page :: pages) = page.getD [] ++ gathered pages := by
        simp [gathered]
      have hpos : 0 < pages.length := by cases hrest <;> simp
      have hdisjoint : (∀ a ∈ page.getD [], ∀ b ∈ gathered pages, a ≠ b) ↔
          s.Gapless c size.rows := by
        constructor
        · intro hapart
          by_contra hgap
          obtain ⟨a, ha, habove⟩ := h.exists_above_of_not_gapless hfull hgap
          exact hapart a ha a (hrest.mem_iff.mpr habove) rfl
        · rintro hgapless a ha b hb rfl
          have hlt := h.lt_of_gapless hgapless ha
          have hle := (mem_above.mp (hrest.mem_iff.mp hb)).2
          omega
      rw [hcons, List.nodup_append, hdisjoint, ih]
      constructor
      · rintro ⟨-, hlater, hfirst⟩ k hk
        cases k with
        | zero => simpa using hfirst
        | succ k =>
            have hgapless := hlater k (by simpa using hk)
            rwa [cursor_succ]
      · intro hall
        refine ⟨h.nodup, fun k hk => ?_, by simpa using hall 0 (by simpa using hpos)⟩
        have hgapless := hall (k + 1) (by simpa using hk)
        rwa [cursor_succ] at hgapless

/-- The full pages have no missing identifiers if none is missing among all. -/
theorem Gathers.gapless_of_contiguous (h : s.Gathers size c pages)
    (hcontiguous : ∀ i, c ≤ i → (∃ a ∈ s.records, (i : Int) ≤ key a) → s.Holds i) :
    ∀ k, k + 1 < pages.length → s.Gapless (c + k * size.rows) size.rows := by
  induction h with
  | last _ _ => simp
  | @full c page pages h hfull hrest ih =>
      intro k hk
      cases k with
      | zero => simpa using h.gapless_of_contiguous hfull hcontiguous
      | succ k =>
          have hgapless := ih (fun i hle hi => hcontiguous i (by omega) hi) k (by simpa using hk)
          rwa [cursor_succ]

/-- All pages but the last are full. -/
theorem Gathers.isFull_iff (h : s.Gathers size c pages) {k : Nat} (hk : pages[k]? = some page) :
    IsFull size page ↔ k + 1 < pages.length := by
  induction h generalizing k with
  | last _ hshort =>
      cases k with
      | zero =>
          rw [List.getElem?_cons_zero, Option.some.injEq] at hk
          simp [← hk, hshort]
      | succ k => simp at hk
  | @full c page' pages _ hfull hrest ih =>
      have hpos : 0 < pages.length := by cases hrest <;> simp
      cases k with
      | zero =>
          rw [List.getElem?_cons_zero, Option.some.injEq] at hk
          simp [← hk, hfull, hpos]
      | succ k => simpa using ih (by simpa using hk)

/--
What a walk over a store returns from an identifier on, by the pages that it gets: the records from
there on, in order, and some of them twice exactly if an identifier is missing that a full page was
asked for.
-/
structure Returns (s : Store α key) (size : PageSize) (c : Nat) (pages : List (Page α))
    (data : List α) : Prop where
  ascending : data.Pairwise fun a b => key a ≤ key b
  mem_iff : ∀ a, a ∈ data ↔ a ∈ s.records ∧ (c : Int) ≤ key a
  repeats_iff : ¬ data.Nodup ↔ ∃ k page, pages[k]? = some page ∧ IsFull size page ∧
    ∃ i, c + k * size.rows ≤ i ∧ i < c + k * size.rows + size.rows ∧ ¬ s.Holds i
  exact : (∀ i, c ≤ i → (∃ a ∈ s.records, (i : Int) ≤ key a) → s.Holds i) → data = s.above c

/-- The records that a store answers with, put in order, are what a walk over it returns. -/
theorem Gathers.returns (h : s.Gathers size c pages) {data : List α}
    (hdata : StableSort key (gathered pages) data) : s.Returns size c pages data := by
  have hmem : ∀ a, a ∈ data ↔ a ∈ s.above c := fun a => hdata.perm.mem_iff.trans h.mem_iff
  refine ⟨hdata.ascending, fun a => (hmem a).trans mem_above, ?_, ?_⟩
  · rw [hdata.perm.nodup_iff, h.nodup_iff]
    simp only [Gapless, not_forall, exists_prop]
    constructor
    · rintro ⟨k, hk, hgap⟩
      have hpage : pages[k]? = some pages[k] := List.getElem?_eq_getElem (by omega)
      exact ⟨k, _, hpage, (h.isFull_iff hpage).mpr hk, hgap⟩
    · rintro ⟨k, page, hpage, hfull, hgap⟩
      exact ⟨k, (h.isFull_iff hpage).mp hfull, hgap⟩
  · intro hcontiguous
    have hnodup : data.Nodup :=
      hdata.perm.nodup_iff.mpr (h.nodup_iff.mpr (h.gapless_of_contiguous hcontiguous))
    have habove := s.above_ascending c
    have hperm : data.Perm (s.above c) :=
      (List.perm_ext_iff_of_nodup hnodup (nodup_map_key habove).of_map).mpr hmem
    refine hperm.eq_of_pairwise ?_ hdata.ascending (habove.imp fun hlt => hlt.le)
    intro a b ha hb hab hba
    exact List.inj_on_of_nodup_map (nodup_map_key habove) ((hmem a).mp ha) hb (le_antisymm hab hba)

/-! ## The end of a walk -/

/-- The identifiers of a store are bounded. -/
theorem exists_bound (s : Store α key) : ∃ b : Nat, ∀ a ∈ s.records, key a < b := by
  induction s.records with
  | nil => exact ⟨0, by simp⟩
  | cons a rows ih =>
      obtain ⟨b, hb⟩ := ih
      refine ⟨max b ((key a).toNat + 1), ?_⟩
      intro x hx
      rcases List.mem_cons.mp hx with rfl | hx
      · omega
      · have := hb x hx
        omega

/-- If a store answers after each full page, the pages that it answers with come to an end. -/
theorem exists_gathers (s : Store α key) (size : PageSize) (c : Nat) (given : Nat → Page α → Prop)
    (h : ∀ k, (∀ i < k, ∃ page, given i page ∧ IsFull size page) →
      ∃ page, given k page ∧ s.Answers size (c + k * size.rows) page) :
    ∃ pages, s.Gathers size c pages ∧ ∀ k page, pages[k]? = some page → given k page := by
  obtain ⟨b, hb⟩ := s.exists_bound
  induction hleft : b - c using Nat.strong_induction_on generalizing c given with
  | _ left ih =>
      obtain ⟨page, hpage, hanswers⟩ := h 0 (by simp)
      rw [Nat.zero_mul, Nat.add_zero] at hanswers
      by_cases hfull : IsFull size page
      · -- A full page lies below the bound, so that the next cursor is nearer to it.
        obtain ⟨a, ha, hle⟩ := hanswers.exists_of_isFull hfull
        have hbound := hb a ha
        have hpos := size.rows_pos
        have hrest : ∀ k, (∀ i < k, ∃ page', given (i + 1) page' ∧ IsFull size page') →
            ∃ page', given (k + 1) page' ∧
              s.Answers size (c + size.rows + k * size.rows) page' := by
          intro k hk
          rw [← cursor_succ]
          refine h (k + 1) fun i hi => ?_
          cases i with
          | zero => exact ⟨page, hpage, hfull⟩
          | succ i => exact hk i (by omega)
        obtain ⟨pages, hgathers, hgiven⟩ :=
          ih _ (by omega) (c + size.rows) (fun k => given (k + 1)) hrest rfl
        refine ⟨page :: pages, .full hanswers hfull hgathers, ?_⟩
        intro k page' hk
        cases k with
        | zero =>
            rw [List.getElem?_cons_zero, Option.some.injEq] at hk
            exact hk ▸ hpage
        | succ k => exact hgiven k page' (by simpa using hk)
      · refine ⟨[page], .last hanswers hfull, ?_⟩
        intro k page' hk
        cases k with
        | zero =>
            rw [List.getElem?_cons_zero, Option.some.injEq] at hk
            exact hk ▸ hpage
        | succ k => simp at hk

end Store
end ChainPoll

import Mathlib.Algebra.Order.Ring.Rat
import Mathlib.Data.List.Basic
import ChainPoll.Paging.Row

/-!
# Stable sorting

Merge sort by a comparison leaves records that are equal in it in the order in which they came.  So
an order whose keys compare puts records in their stable order, and one that follows a number puts
them in the order of that number.

Main results:

- Theorem {lit}`SortedBy.mergeSort_of_mem`: merge sort is stable if the records to be sorted
  compare.
- Theorem {lit}`Order.Compares.sort`: records that compare are put in their stable order.
- Theorem {lit}`Order.Compares.unique`: there is one stable order of records that compare.
- Theorem {lit}`Order.Follows.sort`: an order that follows a number puts records in their stable
  order.
- Theorem {lit}`SortKey.follows_id`: the order by identifiers follows them if they are integers.
-/

namespace ChainPoll

variable {α : Type} {key : α → Int} {rows data : List α}

/-! ## Stable sorting by a comparison -/

/--
Records in the order of a comparison, those that are equal in it in the order in which they came.
-/
structure SortedBy (le : α → α → Bool) (rows data : List α) : Prop where
  perm : data.Perm rows
  ascending : data.Pairwise fun a b => le a b = true
  stable : ∀ a ∈ rows,
    (data.filter fun b => le a b && le b a) = rows.filter fun b => le a b && le b a

/-- Merge sort by a comparison of any two records is stable. -/
theorem SortedBy.mergeSort {le : α → α → Bool}
    (htrans : ∀ a b c, le a b = true → le b c = true → le a c = true)
    (htotal : ∀ a b, (le a b || le b a) = true) (rows : List α) :
    SortedBy le rows (rows.mergeSort le) := by
  have hperm := rows.mergeSort_perm le
  refine ⟨hperm, List.pairwise_mergeSort htrans htotal rows, ?_⟩
  intro a _
  -- The records that are equal are in order already, so that sorting keeps them as a sublist.
  have hequal : (rows.filter fun b => le a b && le b a).Pairwise fun b c => le b c = true := by
    refine List.pairwise_iff_forall_sublist.mpr ?_
    intro b c hbc
    have hb := (List.mem_filter.mp (hbc.subset List.mem_cons_self)).2
    have hc := (List.mem_filter.mp (hbc.subset (List.mem_cons_of_mem b List.mem_cons_self))).2
    rw [Bool.and_eq_true] at hb hc
    exact htrans b a c hb.2 hc.1
  have hsublist := (List.sublist_mergeSort htrans htotal hequal List.filter_sublist).filter
    fun b => le a b && le b a
  rw [List.filter_filter] at hsublist
  simp only [Bool.and_self] at hsublist
  exact (hsublist.eq_of_length (hperm.filter _).length_eq.symm).symm

/-- Merge sort by a comparison of the records to be sorted is stable. -/
theorem SortedBy.mergeSort_of_mem {le : α → α → Bool} (rows : List α)
    (htrans : ∀ a ∈ rows, ∀ b ∈ rows, ∀ c ∈ rows, le a b = true → le b c = true → le a c = true)
    (htotal : ∀ a ∈ rows, ∀ b ∈ rows, (le a b || le b a) = true) :
    SortedBy le rows (rows.mergeSort le) := by
  -- The records with the proofs that they are among the rows are comparable without exception.
  have hsorted : SortedBy (fun a b => le a.1 b.1) rows.attach
      (rows.attach.mergeSort fun a b => le a.1 b.1) :=
    .mergeSort (fun a b c => htrans a.1 a.2 b.1 b.2 c.1 c.2) (fun a b => htotal a.1 a.2 b.1 b.2) _
  have hmap := List.map_mergeSort (f := Subtype.val) (l := rows.attach)
    (r := fun a b => le a.1 b.1) (s := le) fun _ _ _ _ => rfl
  rw [List.attach_map_subtype_val] at hmap
  have hfilter : ∀ (xs : List { a // a ∈ rows }) (p : α → Bool),
      (xs.map Subtype.val).filter p = (xs.filter fun a => p a.1).map Subtype.val :=
    fun xs p => List.filter_map
  refine hmap ▸ ⟨?_, ?_, ?_⟩
  · simpa using hsorted.perm.map Subtype.val
  · exact List.pairwise_map.mpr hsorted.ascending
  · intro a ha
    have hstable := congrArg (List.map Subtype.val) (hsorted.stable ⟨a, ha⟩ (rows.mem_attach _))
    rw [← hfilter _ fun b => le a b && le b a, ← hfilter _ fun b => le a b && le b a,
      List.attach_map_subtype_val] at hstable
    exact hstable

/--
Two ascending lists of the same records are equal if equal records stand in them in one order.
-/
theorem eq_of_ascending {le : α → α → Bool} {xs ys : List α} (hperm : xs.Perm ys)
    (hrefl : ∀ a ∈ xs, le a a = true)
    (hxs : xs.Pairwise fun a b => le a b = true) (hys : ys.Pairwise fun a b => le a b = true)
    (hequal : ∀ a ∈ xs,
      (xs.filter fun b => le a b && le b a) = ys.filter fun b => le a b && le b a) :
    xs = ys := by
  induction xs generalizing ys with
  | nil => exact hperm.nil_eq
  | cons x xs ih =>
      cases ys with
      | nil => exact absurd hperm.length_eq (by simp)
      | cons y ys =>
          obtain ⟨hxle, hxrest⟩ := List.pairwise_cons.mp hxs
          obtain ⟨hyle, hyrest⟩ := List.pairwise_cons.mp hys
          have hx := hrefl x List.mem_cons_self
          -- Each head stands before the other one, so that they are equal in the comparison.
          have hxy : le x y = true := by
            rcases List.mem_cons.mp (hperm.mem_iff.mpr List.mem_cons_self) with rfl | hmem
            · exact hx
            · exact hxle y hmem
          have hyx : le y x = true := by
            rcases List.mem_cons.mp (hperm.mem_iff.mp List.mem_cons_self) with rfl | hmem
            · exact hx
            · exact hyle x hmem
          have hheads := hequal x List.mem_cons_self
          rw [List.filter_cons_of_pos (by simp [hx]), List.filter_cons_of_pos (by simp [hxy, hyx]),
            List.cons.injEq] at hheads
          obtain ⟨rfl, -⟩ := hheads
          refine congrArg (x :: ·) (ih hperm.cons_inv (fun a ha => hrefl a (by simp [ha]))
            hxrest hyrest ?_)
          intro a ha
          have h := hequal a (List.mem_cons_of_mem x ha)
          rw [List.filter_cons, List.filter_cons] at h
          split at h
          · exact (List.cons.inj h).2
          · exact h

/-! ## Stable sorting by a number -/

/-- Records in the order of a number, those of one number in the order in which they came. -/
structure StableSort (key : α → Int) (rows data : List α) : Prop where
  perm : data.Perm rows
  ascending : data.Pairwise fun a b => key a ≤ key b
  stable : ∀ k, (data.filter fun a => key a = k) = rows.filter fun a => key a = k

/-- Merge sort by a number is stable. -/
theorem StableSort.mergeSort (key : α → Int) (rows : List α) :
    StableSort key rows (rows.mergeSort fun a b => decide (key a ≤ key b)) := by
  have hsorted : SortedBy (fun a b => decide (key a ≤ key b)) rows
      (rows.mergeSort fun a b => decide (key a ≤ key b)) := by
    refine .mergeSort ?_ ?_ rows
    · intro a b c hab hbc
      simp only [decide_eq_true_eq] at hab hbc ⊢
      exact hab.trans hbc
    · intro a b
      simpa using le_total (key a) (key b)
  refine ⟨hsorted.perm, by simpa using hsorted.ascending, ?_⟩
  intro k
  by_cases hk : ∃ a ∈ rows, key a = k
  · obtain ⟨a, ha, rfl⟩ := hk
    have hequal : ∀ b, (decide (key a ≤ key b) && decide (key b ≤ key a)) =
        decide (key b = key a) := by
      intro b
      rw [← Bool.decide_and, decide_eq_decide]
      exact ⟨fun h => le_antisymm h.2 h.1, fun h => ⟨h.ge, h.le⟩⟩
    simpa only [hequal] using hsorted.stable a ha
  · have hnone : ∀ xs : List α, xs ⊆ rows → xs.filter (fun a => key a = k) = [] := by
      intro xs hxs
      refine List.filter_eq_nil_iff.mpr fun a ha hka => hk ⟨a, hxs ha, ?_⟩
      simpa using hka
    rw [hnone _ hsorted.perm.subset, hnone _ (List.Subset.refl rows)]

namespace Order

/-- Whether an order compares some records by a number. -/
structure Follows (order : Order α) (key : α → Int) (rows : List α) : Prop where
  reject : ∀ a ∈ rows, order.reject a = none
  clash : ∀ a ∈ rows, ∀ b ∈ rows, order.clash a b = none
  le : ∀ a ∈ rows, ∀ b ∈ rows, order.le a b = decide (key a ≤ key b)

variable {order : Order α}

/-- An order that compares records by a number compares some of them so. -/
theorem Follows.mono {rows' : List α} (h : order.Follows key rows) (hsub : rows' ⊆ rows) :
    order.Follows key rows' :=
  ⟨fun a ha => h.reject a (hsub ha), fun a ha b hb => h.clash a (hsub ha) b (hsub hb),
    fun a ha b hb => h.le a (hsub ha) b (hsub hb)⟩

/-- Among records that do not clash no clash is found. -/
theorem firstClash_of_forall (before rows : List α)
    (h : ∀ a ∈ rows, ∀ b ∈ before ++ rows, order.clash a b = none) :
    order.firstClash before rows = none := by
  induction rows generalizing before with
  | nil => rfl
  | cons a rows ih =>
      have hbefore : before.findSome? (order.clash a) = none :=
        List.findSome?_eq_none_iff.mpr fun b hb => h a (by simp) b (by simp [hb])
      have hrest : order.firstClash (a :: before) rows = none := by
        refine ih (a :: before) ?_
        intro b hb c hc
        refine h b (by simp [hb]) c ?_
        simp only [List.cons_append, List.mem_cons, List.mem_append] at hc ⊢
        tauto
      rw [firstClash, hbefore]
      exact hrest

/-- Records that have keys and do not clash are sorted. -/
theorem sort_eq_mergeSort (hreject : ∀ a ∈ rows, order.reject a = none)
    (hclash : ∀ a ∈ rows, ∀ b ∈ rows, order.clash a b = none) :
    order.sort rows = .ok (rows.mergeSort order.le) := by
  have hnone : order.firstClash [] rows = none :=
    firstClash_of_forall [] rows fun a ha b hb => hclash a ha b (by simpa using hb)
  rw [Order.sort, List.findSome?_eq_none_iff.mpr hreject, hnone]

/-- An order that follows a number puts records in their stable order. -/
theorem Follows.sort (h : order.Follows key rows) :
    ∃ data, order.sort rows = .ok data ∧ StableSort key rows data := by
  have hmerge : rows.mergeSort order.le = rows.mergeSort fun a b => decide (key a ≤ key b) := by
    have hmap := List.map_mergeSort (f := id) (s := fun a b => decide (key a ≤ key b)) h.le
    rwa [List.map_id, List.map_id] at hmap
  refine ⟨rows.mergeSort order.le, sort_eq_mergeSort h.reject h.clash, ?_⟩
  rw [hmerge]
  exact StableSort.mergeSort key rows

/--
Whether some records have keys in an order, and any two of the keys compare, without a circle.
-/
structure Compares (order : Order α) (rows : List α) : Prop where
  reject : ∀ a ∈ rows, order.reject a = none
  clash : ∀ a ∈ rows, ∀ b ∈ rows, order.clash a b = none
  trans : ∀ a ∈ rows, ∀ b ∈ rows, ∀ c ∈ rows,
    order.le a b = true → order.le b c = true → order.le a c = true
  total : ∀ a ∈ rows, ∀ b ∈ rows, (order.le a b || order.le b a) = true

/-- Records that compare are put in their stable order. -/
theorem Compares.sort (h : order.Compares rows) :
    ∃ data, order.sort rows = .ok data ∧ SortedBy order.le rows data :=
  ⟨_, sort_eq_mergeSort h.reject h.clash, .mergeSort_of_mem rows h.trans h.total⟩

/-- Records that compare do so with others left out. -/
theorem Compares.mono {rows' : List α} (h : order.Compares rows) (hsub : rows' ⊆ rows) :
    order.Compares rows' where
  reject a ha := h.reject a (hsub ha)
  clash a ha b hb := h.clash a (hsub ha) b (hsub hb)
  trans a ha b hb c hc := h.trans a (hsub ha) b (hsub hb) c (hsub hc)
  total a ha b hb := h.total a (hsub ha) b (hsub hb)

/-- Records that compare have one stable order. -/
theorem Compares.unique {data' : List α} (h : order.Compares rows)
    (hdata : SortedBy order.le rows data) (hdata' : SortedBy order.le rows data') :
    data = data' := by
  have hmem : ∀ a ∈ data, a ∈ rows := fun a ha => hdata.perm.subset ha
  refine eq_of_ascending (hdata.perm.trans hdata'.perm.symm) ?_ hdata.ascending hdata'.ascending ?_
  · intro a ha
    simpa using h.total a (hmem a ha) a (hmem a ha)
  · intro a ha
    rw [hdata.stable a (hmem a ha), hdata'.stable a (hmem a ha)]

/-- Records that are put in order are so too if the last of them were put in order before. -/
theorem Compares.sortedBy_append {front data' : List α} (h : order.Compares (front ++ rows))
    (hdata : SortedBy order.le rows data) (hdata' : SortedBy order.le (front ++ rows) data') :
    SortedBy order.le (front ++ data) data' := by
  have hperm : (front ++ data).Perm (front ++ rows) := hdata.perm.append_left front
  refine ⟨hdata'.perm.trans hperm.symm, hdata'.ascending, ?_⟩
  intro a ha
  have hrows : (data.filter fun b => order.le a b && order.le b a) =
      rows.filter fun b => order.le a b && order.le b a := by
    by_cases hexists : ∃ b ∈ rows, (order.le a b && order.le b a) = true
    · -- One of the last records is equal to the record, so that the same ones are equal to both.
      obtain ⟨b, hb, hab⟩ := hexists
      rw [Bool.and_eq_true] at hab
      have ha' : a ∈ front ++ rows := hperm.subset ha
      have hb' : b ∈ front ++ rows := by simp [hb]
      have hsame : ∀ c ∈ front ++ rows,
          (order.le a c && order.le c a) = (order.le b c && order.le c b) := by
        intro c hc
        rw [Bool.eq_iff_iff, Bool.and_eq_true, Bool.and_eq_true]
        exact ⟨fun hac => ⟨h.trans b hb' a ha' c hc hab.2 hac.1,
          h.trans c hc a ha' b hb' hac.2 hab.1⟩,
          fun hbc => ⟨h.trans a ha' b hb' c hc hab.1 hbc.1, h.trans c hc b hb' a ha' hbc.2 hab.2⟩⟩
      have hfilter : ∀ xs ⊆ rows, (xs.filter fun c => order.le a c && order.le c a) =
          xs.filter fun c => order.le b c && order.le c b := fun xs hxs =>
        List.filter_congr fun c hc => hsame c (by simp [hxs hc])
      rw [hfilter data hdata.perm.subset, hfilter rows (List.Subset.refl rows), hdata.stable b hb]
    · have hnone : ∀ xs ⊆ rows, (xs.filter fun c => order.le a c && order.le c a) = [] :=
        fun xs hxs => List.filter_eq_nil_iff.mpr fun c hc hac => hexists ⟨c, hxs hc, hac⟩
      rw [hnone data hdata.perm.subset, hnone rows (List.Subset.refl rows)]
  rw [hdata'.stable a (hperm.subset ha), List.filter_append, List.filter_append, hrows]

/-- Records compare if they have keys in some linear order that their order follows. -/
theorem Compares.of_key {κ : Type} [LinearOrder κ] (rank : α → κ)
    (hreject : ∀ a ∈ rows, order.reject a = none)
    (hclash : ∀ a ∈ rows, ∀ b ∈ rows, order.clash a b = none)
    (hle : ∀ a ∈ rows, ∀ b ∈ rows, order.le a b = decide (rank a ≤ rank b)) :
    order.Compares rows where
  reject := hreject
  clash := hclash
  trans a ha b hb c hc hab hbc := by
    rw [hle a ha b hb, decide_eq_true_eq] at hab
    rw [hle b hb c hc, decide_eq_true_eq] at hbc
    rw [hle a ha c hc, decide_eq_true_eq]
    exact hab.trans hbc
  total a ha b hb := by
    rw [hle a ha b hb, hle b hb a ha, Bool.or_eq_true, decide_eq_true_eq, decide_eq_true_eq]
    exact le_total (rank a) (rank b)

/-- Records whose order follows a number compare. -/
theorem Follows.compares (h : order.Follows key rows) : order.Compares rows :=
  .of_key key h.reject h.clash h.le

end Order

/-- The identifier of a row that has an integer for one. -/
def Row.number (row : Row) : Int :=
  match row.id with
  | .int n => n
  | _ => 0

/-- The order by identifiers follows them if they are integers. -/
theorem SortKey.follows_id {rows : List Row} (h : ∀ row ∈ rows, row.id = .int row.number) :
    SortKey.id.order.Follows Row.number rows := by
  refine ⟨fun _ _ => rfl, ?_, ?_⟩
  · intro a ha b hb
    simp [SortKey.order, Row.orderBy, Row.valueClash, h a ha, h b hb, Row.comparable, Row.isNumber]
  · intro a ha b hb
    simp only [SortKey.order, Row.orderBy, h a ha, h b hb, Row.valueLt, Row.numberLt, Json.number?]
    rw [Bool.not_eq_eq_eq_not, ← decide_not, decide_eq_decide, not_le, Rat.intCast_lt_intCast]

end ChainPoll

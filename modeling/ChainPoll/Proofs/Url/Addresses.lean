import Mathlib.Data.List.Induction
import ChainPoll.Url.Address

/-!
# Addresses read back

The canonical text of a version 6 address is read as that address: its gap stands for the zero
groups that were left out, and each group is written without leading zeros.

Main results:

- Theorem {lit}`splitAll_joinAll`: texts that were joined are split again.
- Theorem {lit}`longestZeros_spec`: the run of zero groups that is left out.
- Theorem {lit}`address6?_address6Text`: a version 6 address is read back.
-/

namespace ChainPoll
namespace Url

/-! ## Parts between separators -/

variable {sep : Char}

/-- A text has at least one part. -/
theorem splitAll_ne_nil (sep : Char) (cs : List Char) : splitAll sep cs ≠ [] := by
  cases cs with
  | nil => simp [splitAll]
  | cons c cs =>
      rw [splitAll]
      split
      · simp
      · split <;> simp

/-- A text is split at one of its separators into what is before it and what is after. -/
theorem splitAll_append (sep : Char) (cs ds : List Char) :
    splitAll sep (cs ++ sep :: ds) = splitAll sep cs ++ splitAll sep ds := by
  induction cs with
  | nil =>
      rw [List.nil_append, splitAll]
      cases h : splitAll sep ds with
      | nil => exact absurd h (splitAll_ne_nil sep ds)
      | cons part parts => simp [splitAll, h]
  | cons c cs ih =>
      rw [List.cons_append, splitAll, ih, splitAll]
      cases h : splitAll sep cs with
      | nil => exact absurd h (splitAll_ne_nil sep cs)
      | cons part parts =>
          simp only [List.cons_append]
          split <;> rfl

/-- A text without separators is a single part. -/
theorem splitAll_of_notMem {cs : List Char} (h : sep ∉ cs) : splitAll sep cs = [cs] := by
  induction cs with
  | nil => rfl
  | cons c cs ih =>
      have hc : c ≠ sep := fun hc => h (by simp [hc])
      rw [splitAll, ih fun hmem => h (by simp [hmem])]
      simp [hc]

/-- Texts that were joined are split again; no text at all is a single empty one. -/
theorem splitAll_joinAll {parts : List (List Char)} (h : ∀ part ∈ parts, sep ∉ part) :
    splitAll sep (joinAll sep parts) = if parts = [] then [[]] else parts := by
  induction parts with
  | nil => rfl
  | cons part parts ih =>
      have hpart := splitAll_of_notMem (h part (by simp))
      cases parts with
      | nil => simpa [joinAll] using hpart
      | cons next parts =>
          rw [joinAll, splitAll_append, hpart, ih fun q hq => h q (by simp [hq])]
          · simp
          · simp

/-- Each character that is no separator is in one of the parts. -/
theorem exists_mem_splitAll {cs : List Char} {c : Char} (hc : c ∈ cs) (hne : c ≠ sep) :
    ∃ part ∈ splitAll sep cs, c ∈ part := by
  obtain ⟨front, back, rfl⟩ := List.append_of_mem hc
  clear hc
  induction front with
  | nil =>
      rw [List.nil_append, splitAll]
      split
      · exact ⟨[c], by simp, by simp⟩
      · simp [hne]
  | cons d front ih =>
      obtain ⟨part, hpart, hmem⟩ := ih
      rw [List.cons_append, splitAll]
      cases h : splitAll sep (front ++ c :: back) with
      | nil => simp [h] at hpart
      | cons first parts =>
          rw [h] at hpart
          simp only
          split
          · exact ⟨part, by simp [hpart], hmem⟩
          · rcases List.mem_cons.mp hpart with rfl | hpart
            · exact ⟨d :: part, by simp, by simp [hmem]⟩
            · exact ⟨part, by simp [hpart], hmem⟩

/-- The characters of joined texts are theirs, and separators. -/
theorem mem_joinAll {parts : List (List Char)} {c : Char} (hc : c ∈ joinAll sep parts) :
    c = sep ∨ ∃ part ∈ parts, c ∈ part := by
  induction parts with
  | nil => simp [joinAll] at hc
  | cons part parts ih =>
      cases parts with
      | nil => exact .inr ⟨part, by simp, by simpa [joinAll] using hc⟩
      | cons next parts =>
          rw [joinAll] at hc
          · rcases List.mem_append.mp hc with hc | hc
            · exact .inr ⟨part, by simp, hc⟩
            · rcases List.mem_cons.mp hc with rfl | hc
              · exact .inl rfl
              · rcases ih hc with hsep | ⟨q, hq, hmem⟩
                · exact .inl hsep
                · exact .inr ⟨q, by simp [hq], hmem⟩
          · simp

/-- The characters of the parts of a text are characters of the text. -/
theorem mem_of_mem_splitAll {sep c : Char} {cs part : List Char} (hpart : part ∈ splitAll sep cs)
    (hc : c ∈ part) : c ∈ cs := by
  rw [← joinAll_splitAll sep cs]
  generalize splitAll sep cs = parts at hpart
  induction parts with
  | nil => simp at hpart
  | cons first parts ih =>
      cases parts with
      | nil =>
          rw [List.mem_singleton.mp hpart] at hc
          exact hc
      | cons next parts =>
          rw [joinAll]
          · rcases List.mem_cons.mp hpart with rfl | hpart
            · exact List.mem_append_left _ hc
            · exact List.mem_append_right _ (List.mem_cons_of_mem _ (ih hpart))
          · simp

/-- Joined texts are empty only if there are none or a single empty one. -/
theorem joinAll_ne_nil {sep : Char} {parts : List (List Char)} (hne : parts ≠ [])
    (h : ∀ part ∈ parts, part ≠ []) : joinAll sep parts ≠ [] := by
  cases parts with
  | nil => exact absurd rfl hne
  | cons part parts =>
      cases parts with
      | nil => exact h part (by simp)
      | cons next parts =>
          rw [joinAll]
          · simp
          · simp

/-! ## Hexadecimal groups -/

/-- A hexadecimal digit is read as its value. -/
theorem hexValue?_digitChar {d : ℕ} (h : d < 16) : Json.hexValue? (Nat.digitChar d) = some d := by
  have hall : ∀ k : Fin 16, Json.hexValue? (Nat.digitChar k.val) = some k.val := by decide
  exact hall ⟨d, h⟩

/-- The hexadecimal digits of a number are read as values that make it up. -/
theorem mapM_hexValue?_toDigits (n : ℕ) :
    ∃ ds, (Nat.toDigits 16 n).mapM Json.hexValue? = some ds ∧
      ds.foldl (fun m d => 16 * m + d) 0 = n := by
  induction n using Nat.strongRecOn with
  | ind n ih =>
      rcases Nat.lt_or_ge n 16 with hlt | hge
      · refine ⟨[n], ?_, by simp⟩
        rw [Nat.toDigits_of_lt_base hlt, List.mapM_cons, hexValue?_digitChar hlt]
        rfl
      · obtain ⟨ds, hds, hfold⟩ := ih (n / 16) (Nat.div_lt_self (by omega) (by decide))
        refine ⟨ds ++ [n % 16], ?_, ?_⟩
        · rw [Nat.toDigits_of_base_le (by decide) hge, List.mapM_append, hds, List.mapM_cons,
            hexValue?_digitChar (Nat.mod_lt n (by decide))]
          rfl
        · rw [List.foldl_append, hfold]
          exact Nat.div_add_mod n 16

/-- A group is read back. -/
theorem group?_toDigits {n : ℕ} (h : n < 65536) : group? (Nat.toDigits 16 n) = some n := by
  obtain ⟨ds, hds, hfold⟩ := mapM_hexValue?_toDigits n
  have hlength : (Nat.toDigits 16 n).length ≤ 4 :=
    (Nat.length_toDigits_le_iff (by decide) (by decide)).mpr h
  have hshort : ¬ (Nat.toDigits 16 n = [] ∨ 4 < (Nat.toDigits 16 n).length) := by
    simp only [Nat.toDigits_ne_nil, false_or]
    omega
  rw [group?, if_neg hshort, hds]
  simp [hfold]

/-- The digits of a number are digits of the base. -/
theorem exists_of_mem_toDigits {n : ℕ} {c : Char} (h : c ∈ Nat.toDigits 16 n) :
    ∃ d < 16, c = Nat.digitChar d := by
  induction n using Nat.strongRecOn with
  | ind n ih =>
      rcases Nat.lt_or_ge n 16 with hlt | hge
      · rw [Nat.toDigits_of_lt_base hlt, List.mem_singleton] at h
        exact ⟨n, hlt, h⟩
      · rw [Nat.toDigits_of_base_le (by decide) hge, List.mem_append, List.mem_singleton] at h
        rcases h with h | h
        · exact ih (n / 16) (Nat.div_lt_self (by omega) (by decide)) h
        · exact ⟨n % 16, Nat.mod_lt n (by decide), h⟩

/-- The values of hexadecimal digits are below sixteen. -/
theorem hexValue?_lt {c : Char} {d : ℕ} (h : Json.hexValue? c = some d) : d < 16 := by
  simp only [Json.hexValue?, Char.isDigit, Char.le_def, UInt32.le_iff_toNat_le, Bool.and_eq_true,
    decide_eq_true_eq] at h
  have hval : c.val.toNat = c.toNat := rfl
  split_ifs at h with hdigit hlower hupper <;>
    simp only [Option.some.injEq] at h <;> simp_all <;> omega

/-- What is read of several texts is read of each of them. -/
theorem mapM_eq_some {α β : Type} {f : α → Option β} {xs : List α} {ys : List β}
    (h : xs.mapM f = some ys) :
    ys.length = xs.length ∧ (∀ y ∈ ys, ∃ x ∈ xs, f x = some y) ∧ ∀ x ∈ xs, ∃ y, f x = some y := by
  induction xs generalizing ys with
  | nil =>
      obtain rfl : [] = ys := Option.some.inj h
      simp
  | cons x xs ih =>
      rw [List.mapM_cons] at h
      cases hx : f x with
      | none => simp [hx] at h
      | some y =>
          cases hxs : xs.mapM f with
          | none => simp [hx, hxs] at h
          | some zs =>
              obtain rfl : y :: zs = ys := by simpa [hx, hxs] using h
              obtain ⟨hlength, hmem, hall⟩ := ih hxs
              refine ⟨by simp [hlength], ?_, ?_⟩
              · intro z hz
                rcases List.mem_cons.mp hz with rfl | hz
                · exact ⟨x, by simp, hx⟩
                · obtain ⟨x', hx', hread⟩ := hmem z hz
                  exact ⟨x', by simp [hx'], hread⟩
              · intro x' hx'
                rcases List.mem_cons.mp hx' with rfl | hx'
                · exact ⟨y, hx⟩
                · exact hall x' hx'

/-- A group has sixteen bits. -/
theorem group?_lt {cs : List Char} {n : ℕ} (h : group? cs = some n) : n < 65536 := by
  unfold group? at h
  split at h
  · simp at h
  · next hshort =>
    cases hds : cs.mapM Json.hexValue? with
    | none => simp [hds] at h
    | some ds =>
        obtain ⟨hlength, hmem, -⟩ := mapM_eq_some hds
        have hfold : ∀ es : List ℕ, (∀ e ∈ es, e < 16) →
            es.foldl (fun m d => 16 * m + d) 0 < 16 ^ es.length := by
          intro es
          induction es using List.reverseRecOn with
          | nil => simp
          | append_singleton es e ih =>
              intro hes
              have hfront := ih fun e' he' => hes e' (by simp [he'])
              have hlast := hes e (by simp)
              rw [List.foldl_append, List.length_append, List.length_singleton, Nat.pow_succ]
              simp only [List.foldl_cons, List.foldl_nil]
              omega
        have hbound := hfold ds fun d hd => by
          obtain ⟨c, -, hc⟩ := hmem d hd
          exact hexValue?_lt hc
        have hpow : 16 ^ ds.length ≤ 16 ^ 4 := Nat.pow_le_pow_right (by decide) (by omega)
        obtain rfl : ds.foldl (fun m d => 16 * m + d) 0 = n := by simpa [hds] using h
        omega

/-! ## Runs of zeros -/

/-- A list begins with its leading zeros. -/
theorem eq_leadingZeros_append (groups : List ℕ) :
    groups = List.replicate (leadingZeros groups) 0 ++ groups.drop (leadingZeros groups) := by
  induction groups with
  | nil => rfl
  | cons g rest ih =>
      by_cases hg : g = 0
      · have hcount : leadingZeros (g :: rest) = leadingZeros rest + 1 := by simp [leadingZeros, hg]
        rw [hcount, List.replicate_succ, List.drop_succ_cons, List.cons_append, ← ih, hg]
      · have hcount : leadingZeros (g :: rest) = 0 := by simp [leadingZeros, hg]
        rw [hcount]
        rfl

/-- The run of zeros that is left out lies within the groups, and is a run of zeros. -/
theorem longestZeros_spec (groups : List ℕ) :
    (longestZeros groups).1 + (longestZeros groups).2 ≤ groups.length ∧
      groups = groups.take (longestZeros groups).1 ++ List.replicate (longestZeros groups).2 0 ++
        groups.drop ((longestZeros groups).1 + (longestZeros groups).2) := by
  induction groups with
  | nil => simp [longestZeros]
  | cons g rest ih =>
      obtain ⟨hle, heq⟩ := ih
      cases hrest : longestZeros rest with
      | mk start size =>
          rw [hrest] at hle heq
          by_cases hhere : size ≤ leadingZeros (g :: rest)
          · have hrun : longestZeros (g :: rest) = (0, leadingZeros (g :: rest)) := by
              simp [longestZeros, hrest, hhere]
            rw [hrun, Nat.zero_add]
            exact ⟨(List.takeWhile_prefix _).length_le, eq_leadingZeros_append (g :: rest)⟩
          · have hrun : longestZeros (g :: rest) = (start + 1, size) := by
              simp [longestZeros, hrest, hhere]
            rw [hrun, Nat.add_right_comm]
            refine ⟨Nat.succ_le_succ hle, ?_⟩
            rw [List.take_succ_cons, List.drop_succ_cons, List.cons_append, List.cons_append, ← heq]

/-! ## Reading addresses back -/

/-- The parts of the groups on one side of a gap; no groups are a single empty part. -/
def sideParts (groups : List ℕ) : List (List Char) :=
  if groups = [] then [[]] else groups.map (Nat.toDigits 16)

/-- Groups between colons are split into their parts. -/
theorem splitAll_groupsText (groups : List ℕ) :
    splitAll ':' (groupsText groups) = sideParts groups := by
  have hcolon : ∀ part ∈ groups.map (Nat.toDigits 16), ':' ∉ part := by
    intro part hpart hmem
    obtain ⟨g, -, rfl⟩ := List.mem_map.mp hpart
    obtain ⟨d, hd, hc⟩ := exists_of_mem_toDigits hmem
    have hall : ∀ k : Fin 16, ':' ≠ Nat.digitChar k.val := by decide
    exact hall ⟨d, hd⟩ hc
  simp [groupsText, sideParts, splitAll_joinAll hcolon]

/-- No part of groups holds a point. -/
theorem point_notMem_of_mem_sideParts {groups : List ℕ} {part : List Char}
    (h : part ∈ sideParts groups) : '.' ∉ part := by
  unfold sideParts at h
  split at h
  · rw [List.mem_singleton.mp h]
    simp
  · obtain ⟨g, -, rfl⟩ := List.mem_map.mp h
    intro hmem
    obtain ⟨d, hd, hc⟩ := exists_of_mem_toDigits hmem
    have hall : ∀ k : Fin 16, '.' ≠ Nat.digitChar k.val := by decide
    exact hall ⟨d, hd⟩ hc

/-- There is a part even if there are no groups. -/
theorem length_sideParts (groups : List ℕ) : (sideParts groups).length = max 1 groups.length := by
  unfold sideParts
  split
  · next h => simp [h]
  · next h =>
    have hpos := List.length_pos_iff.mpr h
    rw [List.length_map]
    omega

/-- Groups are read off their parts. -/
theorem mapM_group?_map {groups : List ℕ} (h : ∀ g ∈ groups, g < 65536) :
    (groups.map (Nat.toDigits 16)).mapM group? = some groups := by
  induction groups with
  | nil => rfl
  | cons g groups ih =>
      rw [List.map_cons, List.mapM_cons, group?_toDigits (h g (by simp)),
        ih fun g' hg' => h g' (by simp [hg'])]
      rfl

/-- The groups on one side of a gap are read back. -/
theorem gapSide?_sideParts {groups : List ℕ} (h : ∀ g ∈ groups, g < 65536) :
    gapSide? (sideParts groups) = some groups := by
  unfold sideParts
  split
  · next hnil => simp [gapSide?, hnil]
  · next hnil =>
    have hparts : groups.map (Nat.toDigits 16) ≠ [[]] := by
      intro hone
      obtain ⟨g, rfl, hg⟩ := List.map_eq_singleton_iff.mp hone
      exact Nat.toDigits_ne_nil hg
    rw [gapSide?, if_neg hparts, mapM_group?_map h]

/-- Parts without points stay as they are. -/
theorem expandTail_of_notMem {parts : List (List Char)} (hne : parts ≠ [])
    (h : ∀ part ∈ parts, '.' ∉ part) : expandTail parts = some parts := by
  cases hlast : parts.getLast? with
  | none => exact absurd (List.getLast?_eq_none_iff.mp hlast) hne
  | some last =>
      rw [expandTail, hlast]
      simp [h last (List.mem_of_getLast? hlast)]

/-- An address without a gap is read back. -/
theorem address6?_groupsText {groups : List ℕ} (hlength : groups.length = groupCount)
    (h : ∀ g ∈ groups, g < 65536) : address6? (groupsText groups) = some groups := by
  have hne : groups ≠ [] := by
    rintro rfl
    simp [groupCount] at hlength
  have hside : sideParts groups = groups.map (Nat.toDigits 16) := by rw [sideParts, if_neg hne]
  have hparts : splitAll ':' (groupsText groups) = groups.map (Nat.toDigits 16) :=
    (splitAll_groupsText groups).trans hside
  have hexpand : expandTail (groups.map (Nat.toDigits 16)) = some (groups.map (Nat.toDigits 16)) :=
    expandTail_of_notMem (by simp [hne]) fun part hpart =>
      point_notMem_of_mem_sideParts (hside.symm ▸ hpart : part ∈ sideParts groups)
  have hinner : ((groups.map (Nat.toDigits 16)).drop 1).dropLast.findIdx? (· = []) = none := by
    rw [List.findIdx?_eq_none_iff]
    intro part hpart
    obtain ⟨g, -, rfl⟩ := List.mem_map.mp (List.mem_of_mem_drop (List.dropLast_subset _ hpart))
    simp [Nat.toDigits_ne_nil]
  simp only [address6?, hparts, hexpand, List.length_map, hlength,
    Option.bind_eq_bind, Option.bind_some,
    hinner, mapM_group?_map h, groupCount]
  simp

/-- The first empty part between the outer ones of an address with a gap is the gap. -/
theorem findIdx?_gap (high low : List ℕ) :
    ((sideParts high ++ [] :: sideParts low).drop 1).dropLast.findIdx? (· = []) =
      some ((sideParts high).length - 1) := by
  have hne : ∀ groups, sideParts groups ≠ [] := fun groups hnil => by
    have hlength := length_sideParts groups
    rw [hnil, List.length_nil] at hlength
    omega
  have hlow : ([] :: sideParts low).dropLast = [] :: (sideParts low).dropLast := by
    rw [List.dropLast_cons_of_ne_nil (hne low)]
  have hfront : ∀ part ∈ (sideParts high).drop 1, part ≠ [] := by
    intro part hpart
    unfold sideParts at hpart
    split at hpart
    · simp at hpart
    · obtain ⟨g, -, rfl⟩ := List.mem_map.mp (List.mem_of_mem_drop hpart)
      exact Nat.toDigits_ne_nil
  have hnone : ((sideParts high).drop 1).findIdx? (· = []) = none := by
    rw [List.findIdx?_eq_none_iff]
    exact fun part hpart => by simp [hfront part hpart]
  rw [List.drop_append_of_le_length (List.length_pos_iff.mpr (hne high)),
    List.dropLast_append_of_ne_nil (by simp), hlow, List.findIdx?_append, hnone]
  simp [List.findIdx?_cons]

/-- An address with a gap is read back; the gap stands for the groups that are missing. -/
theorem address6?_gap {high low : List ℕ} (hlength : high.length + low.length < groupCount)
    (hhigh : ∀ g ∈ high, g < 65536) (hlow : ∀ g ∈ low, g < 65536) :
    address6? (groupsText high ++ ':' :: ':' :: groupsText low) =
      some (high ++ List.replicate (groupCount - high.length - low.length) 0 ++ low) := by
  have hparts : splitAll ':' (groupsText high ++ ':' :: ':' :: groupsText low) =
      sideParts high ++ [] :: sideParts low := by
    rw [splitAll_append, splitAll_groupsText, ← List.nil_append (':' :: groupsText low),
      splitAll_append,
      splitAll_groupsText]
    rfl
  have hexpand : expandTail (sideParts high ++ [] :: sideParts low) =
      some (sideParts high ++ [] :: sideParts low) := by
    refine expandTail_of_notMem (by simp) fun part hpart => ?_
    simp only [List.mem_append, List.mem_cons] at hpart
    rcases hpart with hpart | rfl | hpart
    · exact point_notMem_of_mem_sideParts hpart
    · simp
    · exact point_notMem_of_mem_sideParts hpart
  have hcount : (sideParts high ++ [] :: sideParts low).length =
      max 1 high.length + (max 1 low.length + 1) := by
    rw [List.length_append, List.length_cons, length_sideParts, length_sideParts]
  have hhighLength : 1 ≤ (sideParts high).length := by
    rw [length_sideParts]
    omega
  have htake : (sideParts high ++ [] :: sideParts low).take ((sideParts high).length - 1 + 1) =
      sideParts high := by
    rw [Nat.sub_add_cancel hhighLength, List.take_left]
  have hdrop : (sideParts high ++ [] :: sideParts low).drop ((sideParts high).length - 1 + 2) =
      sideParts low := by
    rw [show (sideParts high).length - 1 + 2 = (sideParts high).length + 1 by omega,
      List.drop_append]
    simp
  unfold groupCount at hlength ⊢
  have hmany : ¬ max 1 high.length + (max 1 low.length + 1) < 3 := by omega
  have hfew : ¬ groupCount + 1 < max 1 high.length + (max 1 low.length + 1) := by
    unfold groupCount
    omega
  have hroom : ¬ groupCount ≤ high.length + low.length := by
    unfold groupCount
    omega
  simp only [address6?, hparts, hcount, if_neg hmany, hexpand,
    Option.bind_eq_bind, Option.bind_some,
    if_neg hfew, findIdx?_gap, htake, hdrop, gapSide?_sideParts hhigh, gapSide?_sideParts hlow,
    if_neg hroom]
  rfl

/-- Eight groups of sixteen bits, as an address has them. -/
structure IsAddress (groups : List ℕ) : Prop where
  length_eq : groups.length = groupCount
  lt : ∀ g ∈ groups, g < 65536

/-- A version 6 address is read back. -/
theorem address6?_address6Text {groups : List ℕ} (h : IsAddress groups) :
    address6? (address6Text groups) = some groups := by
  obtain ⟨hle, heq⟩ := longestZeros_spec groups
  cases hrun : longestZeros groups with
  | mk start size =>
      rw [hrun] at hle heq
      by_cases hsize : size ≤ 1
      · have htext : address6Text groups = groupsText groups := by simp [address6Text, hrun, hsize]
        rw [htext, address6?_groupsText h.length_eq h.lt]
      · have htext : address6Text groups =
            groupsText (groups.take start) ++ ':' :: ':' :: groupsText
              (groups.drop (start + size)) := by
          simp [address6Text, hrun, hsize]
        have hlength := h.length_eq
        have hhigh : (groups.take start).length = start := by
          rw [List.length_take]
          omega
        have hlow : (groups.drop (start + size)).length = groupCount - start - size := by
          rw [List.length_drop, hlength]
          omega
        rw [htext, address6?_gap (by omega) (fun g hg => h.lt g (List.mem_of_mem_take hg))
          (fun g hg => h.lt g (List.mem_of_mem_drop hg)), hhigh, hlow]
        have hgap : groupCount - start - (groupCount - start - size) = size := by omega
        rw [hgap, ← heq]

/-- What is read of an address are its groups. -/
theorem isAddress_of_address6? {cs : List Char} {groups : List ℕ} (h : address6? cs = some groups) :
    IsAddress groups := by
  have hside : ∀ {parts gs}, gapSide? parts = some gs → ∀ g ∈ gs, g < 65536 := by
    intro parts gs hgs g hg
    unfold gapSide? at hgs
    split at hgs
    · obtain rfl : [] = gs := Option.some.inj hgs
      simp at hg
    · obtain ⟨part, -, hpart⟩ := (mapM_eq_some hgs).2.1 g hg
      exact group?_lt hpart
  simp only [address6?, Option.bind_eq_bind] at h
  split at h
  · simp at h
  · obtain ⟨parts, hparts, h⟩ := Option.bind_eq_some_iff.mp h
    split at h
    · simp at h
    · split at h
      · split at h
        · next hlength =>
          obtain ⟨hsame, hmem, -⟩ := mapM_eq_some h
          refine ⟨hsame.trans hlength, fun g hg => ?_⟩
          obtain ⟨part, -, hpart⟩ := hmem g hg
          exact group?_lt hpart
        · simp at h
      · obtain ⟨high, hhigh, h⟩ := Option.bind_eq_some_iff.mp h
        obtain ⟨low, hlow, h⟩ := Option.bind_eq_some_iff.mp h
        split at h
        · simp at h
        · next hroom =>
          obtain rfl := Option.some.inj h
          refine ⟨?_, fun g hg => ?_⟩
          · simp only [List.length_append, List.length_replicate]
            omega
          · simp only [List.mem_append, List.mem_replicate] at hg
            rcases hg with (hg | ⟨-, rfl⟩) | hg
            · exact hside hhigh g hg
            · decide
            · exact hside hlow g hg

/-! ## What the text of an address is made of -/

/-- The characters of groups are colons and hexadecimal digits. -/
theorem mem_groupsText {groups : List ℕ} {c : Char} (h : c ∈ groupsText groups) :
    c = ':' ∨ ∃ d < 16, c = Nat.digitChar d := by
  rcases mem_joinAll h with hcolon | ⟨part, hpart, hc⟩
  · exact .inl hcolon
  · obtain ⟨g, -, rfl⟩ := List.mem_map.mp hpart
    exact .inr (exists_of_mem_toDigits hc)

/-- The characters of an address are colons and hexadecimal digits. -/
theorem mem_address6Text {groups : List ℕ} {c : Char} (h : c ∈ address6Text groups) :
    c = ':' ∨ ∃ d < 16, c = Nat.digitChar d := by
  unfold address6Text at h
  simp only at h
  split at h
  · exact mem_groupsText h
  · simp only [List.mem_append, List.mem_cons] at h
    rcases h with h | h | h | h
    · exact mem_groupsText h
    · exact .inl h
    · exact .inl h
    · exact mem_groupsText h

/-- The text of an address holds a colon. -/
theorem colon_mem_address6Text {groups : List ℕ} (h : IsAddress groups) :
    ':' ∈ address6Text groups := by
  by_contra hnone
  have hread := address6?_address6Text h
  rw [address6?, splitAll_of_notMem hnone] at hread
  simp at hread

/-! ## Hosts that are addresses -/

/-- An octet is made of digits. -/
theorem isDigit_of_octet? {cs : List Char} {n : ℕ} (h : octet? cs = some n) :
    ∀ c ∈ cs, c.isDigit = true := by
  cases hread : Text.ofDigits? cs with
  | none => simp [octet?, hread] at h
  | some m =>
      unfold Text.ofDigits? at hread
      split at hread
      · next hdigits => simpa [List.all_eq_true] using hdigits.2
      · simp at hread

/-- A text with a colon is no version 4 address. -/
theorem address4?_of_colon {cs : List Char} (h : ':' ∈ cs) : address4? cs = none := by
  obtain ⟨part, hpart, hcolon⟩ : ∃ part ∈ splitAll '.' cs, ':' ∈ part :=
    exists_mem_splitAll h (by decide)
  cases hread : (splitAll '.' cs).mapM octet? with
  | none => simp [address4?, hread]
  | some octets =>
      obtain ⟨n, hn⟩ := (mapM_eq_some hread).2.2 part hpart
      exact absurd (isDigit_of_octet? hn ':' hcolon) (by decide)

/-- A version 6 address holds a colon. -/
theorem colon_mem_of_address6? {cs : List Char} {groups : List ℕ} (h : address6? cs = some groups) :
    ':' ∈ cs := by
  by_contra hnone
  rw [address6?, splitAll_of_notMem hnone] at h
  simp at h

/-- The address and the zone of a host make it up. -/
theorem splitZone_append (cs : List Char) : (splitZone cs).1 ++ (splitZone cs).2 = cs :=
  List.takeWhile_append_dropWhile

/-- A host whose address is one of version 6 is written in brackets, with its zone. -/
theorem numericHost?_of_address6? {cs : List Char} {groups : List ℕ}
    (h : address6? (splitZone cs).1 = some groups) :
    numericHost? cs = some ('[' :: address6Text groups ++ (splitZone cs).2 ++ [']']) := by
  have hcolon := colon_mem_of_address6? h
  have hmem : ':' ∈ cs := by
    rw [← splitZone_append cs]
    exact List.mem_append_left _ hcolon
  rw [numericHost?, if_pos (.inr hmem)]
  simp only [address4?_of_colon hcolon, h, Option.map_some]

/-- A numeric host is written as it is, or is a version 6 address with a zone. -/
theorem numericHost?_cases {cs text : List Char} (h : numericHost? cs = some text) :
    text = cs ∨ ∃ groups, address6? (splitZone cs).1 = some groups := by
  unfold numericHost? at h
  split at h
  · simp only at h
    split at h
    · left
      rw [← Option.some.inj h, splitZone_append]
    · obtain ⟨groups, hread, -⟩ := Option.map_eq_some_iff.mp h
      exact .inr ⟨groups, hread⟩
  · simp at h

/-- The text of an address in brackets, with a zone, is that of the address with the zone. -/
theorem splitZone_address6Text {groups : List ℕ} {zone : List Char}
    (hzone : ∀ c ∈ zone.head?, c = '%') :
    splitZone (address6Text groups ++ zone) = (address6Text groups, zone) := by
  have hfront : ∀ c ∈ address6Text groups, decide (c ≠ '%') = true := by
    intro c hc
    rw [decide_eq_true_eq]
    rintro rfl
    rcases mem_address6Text hc with hcolon | ⟨d, hd, hdigit⟩
    · exact absurd hcolon (by decide)
    · have hall : ∀ k : Fin 16, '%' ≠ Nat.digitChar k.val := by decide
      exact hall ⟨d, hd⟩ hdigit
  have hback : zone.takeWhile (· ≠ '%') = [] ∧ zone.dropWhile (· ≠ '%') = zone := by
    cases zone with
    | nil => simp
    | cons c zone =>
        obtain rfl : c = '%' := hzone c rfl
        simp
  rw [splitZone, List.takeWhile_append_of_pos hfront, List.dropWhile_append_of_pos hfront, hback.1,
    hback.2, List.append_nil]

/-- What follows the address of a host begins with a percent sign. -/
theorem head_splitZone (cs : List Char) : ∀ c ∈ (splitZone cs).2.head?, c = '%' := by
  intro c hc
  have hnot := List.head?_dropWhile_not (· ≠ '%') cs
  rw [show (splitZone cs).2 = cs.dropWhile (· ≠ '%') from rfl] at hc
  rw [Option.mem_def.mp hc] at hnot
  simpa using hnot

end Url
end ChainPoll

import Mathlib.Data.Prod.Lex
import Mathlib.Data.String.Basic
import Mathlib.Order.WithBot
import ChainPoll.Proofs.Paging.Sorting

/-!
# Rows that compare

Numbers compare with numbers and texts with texts.  Values that all compare have ranks in one linear
order, which puts infinite numbers beyond all others; a number that is none has no place in it.  So
rows compare by each of their keys if the values of that key do.

Main results:

- Theorem {lit}`Row.valueLt_eq`: a value is smaller than another one if its rank is.
- Theorem {lit}`SortKey.compares`: rows compare by a key if its values do.
-/

namespace ChainPoll

variable {a b v w : Json} {rows : List Row}

namespace Row

/-- The size of a number; infinite numbers are beyond all others. -/
def magnitude : Json → WithBot (WithTop Rat)
  | .float (.infinite true) => ⊥
  | .float (.infinite false) => (⊤ : WithTop Rat)
  | v => ((v.number?.getD 0 : Rat) : WithTop Rat)

/-- The characters of a text. -/
def wording : Json → String
  | .text s => s
  | _ => ""

/-- The rank of a number or a text among its like. -/
def rank (v : Json) : WithBot (WithTop Rat) ×ₗ String :=
  toLex (magnitude v, wording v)

/-- Whether any two of some values compare, and none is a number that is none. -/
def Comparable (values : List Json) : Prop :=
  ∀ v ∈ values, v ≠ .float .nan ∧ ∀ w ∈ values, comparable v w = true

@[simp]
theorem number?_infinite (negative : Bool) :
    (Json.float (.infinite negative)).number? = none := rfl

@[simp]
theorem magnitude_negInfinite : magnitude (.float (.infinite true)) = ⊥ := rfl

@[simp]
theorem magnitude_infinite : magnitude (.float (.infinite false)) = ⊤ := rfl

@[simp]
theorem coe_lt_infinite (x : Rat) : ((x : WithTop Rat) : WithBot (WithTop Rat)) < ⊤ :=
  WithBot.coe_lt_coe.mpr (WithTop.coe_lt_top x)

/-- A number is finite and of its size, or infinite. -/
theorem number_cases (h : isNumber v = true) (hv : v ≠ .float .nan) :
    (∃ x, v.number? = some x ∧ magnitude v = ((x : WithTop Rat) : WithBot (WithTop Rat))) ∨
      v = .float (.infinite true) ∨ v = .float (.infinite false) := by
  cases v with
  | bool c => exact .inl ⟨_, rfl, rfl⟩
  | int n => exact .inl ⟨_, rfl, rfl⟩
  | float x =>
      cases x with
      | finite negative m e => exact .inl ⟨_, rfl, rfl⟩
      | infinite negative => cases negative <;> simp
      | nan => exact absurd rfl hv
  | _ => simp [isNumber] at h

/-- A number is smaller than another one if its size is. -/
theorem numberLt_eq (ha : isNumber a = true) (ha' : a ≠ .float .nan) (hb : isNumber b = true)
    (hb' : b ≠ .float .nan) : numberLt a b = decide (magnitude a < magnitude b) := by
  obtain ⟨x, hx, hax⟩ | rfl | rfl := number_cases ha ha' <;>
    obtain ⟨y, hy, hby⟩ | rfl | rfl := number_cases hb hb' <;>
      simp [numberLt, *]

/-- Numbers of which one is finite are equal if they are both of one size. -/
theorem same_of_number (ha : isNumber a = true) (hfinite : a.number?.isSome ∨ b.number?.isSome) :
    a.same b = true ↔ ∃ x, a.number? = some x ∧ b.number? = some x := by
  rw [Json.same.eq_def]
  split
  · simp [isNumber] at ha
  · simp [isNumber] at ha
  · simp [isNumber] at ha
  · simp [isNumber] at ha
  · simp at hfinite
  · cases a.number? with
    | none => simp
    | some x =>
        cases b.number? with
        | none => simp
        | some y => simpa using eq_comm

/-- Numbers are equal if their sizes are. -/
theorem same_eq_of_number (ha : isNumber a = true) (ha' : a ≠ .float .nan) (hb : isNumber b = true)
    (hb' : b ≠ .float .nan) : a.same b = decide (magnitude a = magnitude b) := by
  rw [Bool.eq_iff_iff, decide_eq_true_eq]
  obtain ⟨x, hx, hax⟩ | rfl | rfl := number_cases ha ha'
  · rw [same_of_number ha (.inl (by simp [hx]))]
    obtain ⟨y, hy, hby⟩ | rfl | rfl := number_cases hb hb'
    · simpa [hx, hy, hax, hby] using eq_comm
    · simp [hax]
    · simp [hax, (coe_lt_infinite x).ne]
  · obtain ⟨y, hy, hby⟩ | rfl | rfl := number_cases hb hb'
    · rw [same_of_number ha (.inr (by simp [hy]))]
      simp [hby]
    · simp [Json.same]
    · simp [Json.same]
  · obtain ⟨y, hy, hby⟩ | rfl | rfl := number_cases hb hb'
    · rw [same_of_number ha (.inr (by simp [hy]))]
      simp [hby, (coe_lt_infinite y).ne']
    · simp [Json.same]
    · simp [Json.same]

/-- Values that compare are both texts or both numbers. -/
theorem comparable_cases (h : comparable v w = true) :
    (∃ s t, v = .text s ∧ w = .text t) ∨ isNumber v = true ∧ isNumber w = true := by
  cases v <;> cases w <;> simp_all [comparable, isNumber]

/-- Numbers compare. -/
theorem comparable_of_number (hv : isNumber v = true) (hw : isNumber w = true) :
    comparable v w = true := by
  cases v <;> cases w <;> simp_all [comparable, isNumber]

/-- Numbers have no characters. -/
theorem wording_of_number (h : isNumber v = true) : wording v = "" := by
  cases v <;> simp_all [isNumber, wording]

/-- A value is smaller than another one if its rank is. -/
theorem valueLt_eq (h : comparable v w = true) (hv : v ≠ .float .nan) (hw : w ≠ .float .nan) :
    valueLt v w = decide (rank v < rank w) := by
  obtain ⟨s, t, rfl, rfl⟩ | ⟨hnv, hnw⟩ := comparable_cases h
  · simp [valueLt, rank, Prod.Lex.toLex_lt_toLex, magnitude, wording, Json.number?]
  · have hlt : valueLt v w = numberLt v w := by
      cases v <;> cases w <;> simp_all [valueLt, isNumber]
    rw [hlt, numberLt_eq hnv hv hnw hw]
    simp [rank, Prod.Lex.toLex_lt_toLex, wording_of_number hnv, wording_of_number hnw]

/-- Values that compare are equal if their ranks are. -/
theorem same_eq (h : comparable v w = true) (hv : v ≠ .float .nan) (hw : w ≠ .float .nan) :
    v.same w = decide (rank v = rank w) := by
  obtain ⟨s, t, rfl, rfl⟩ | ⟨hnv, hnw⟩ := comparable_cases h
  · rw [Bool.eq_iff_iff]
    simp [Json.same, rank, magnitude, wording, Json.number?]
  · rw [same_eq_of_number hnv hv hnw hw]
    simp [rank, wording_of_number hnv, wording_of_number hnw]

/-- Rows compare by values of theirs if the values do. -/
theorem compares_orderBy {pick : Row → Json} (h : Comparable (rows.map pick)) :
    (orderBy pick).Compares rows := by
  simp only [Comparable, List.forall_mem_map] at h
  refine .of_key (fun row => rank (pick row)) (fun _ _ => rfl) ?_ ?_
  · intro a ha b hb
    simp [orderBy, valueClash, (h a ha).2 b hb]
  · intro a ha b hb
    simp [orderBy, valueLt_eq ((h b hb).2 a ha) (h b hb).1 (h a ha).1, ← decide_not]

/-- Rows compare by their tags and identifiers if these do. -/
theorem compares_byTagThenId (htag : Comparable (rows.map Row.tag))
    (hid : Comparable (rows.map Row.id)) : byTagThenId.Compares rows := by
  simp only [Comparable, List.forall_mem_map] at htag hid
  refine .of_key (fun row => toLex (rank row.tag, rank row.id)) (fun _ _ => rfl) ?_ ?_
  · intro a ha b hb
    simp [byTagThenId, valueClash, (htag a ha).2 b hb, (hid a ha).2 b hb]
  · intro a ha b hb
    have htags := (htag a ha).2 b hb
    have htags' := (htag b hb).2 a ha
    have hids := (hid a ha).2 b hb
    have hids' := (hid b hb).2 a ha
    simp only [byTagThenId, same_eq htags (htag a ha).1 (htag b hb).1,
      same_eq hids (hid a ha).1 (hid b hb).1, valueLt_eq htags' (htag b hb).1 (htag a ha).1,
      valueLt_eq hids' (hid b hb).1 (hid a ha).1]
    rw [Bool.eq_iff_iff]
    simp only [decide_eq_true_eq, Prod.Lex.toLex_le_toLex]
    by_cases hequal : rank a.tag = rank b.tag
    · simp only [hequal, if_true, lt_irrefl, false_or, true_and, Bool.or_eq_true,
        Bool.not_eq_true', decide_eq_true_eq, decide_eq_false_iff_not, not_lt]
      exact ⟨fun h => h.elim le_of_eq fun hle => hle, .inr⟩
    · simp only [hequal, if_false, false_and, or_false, Bool.not_eq_true', decide_eq_false_iff_not,
        not_lt]
      exact ⟨fun h => lt_of_le_of_ne h hequal, le_of_lt⟩

end Row

/-- Whether the values of a key compare on some rows; a number that is to be negated must be one. -/
def SortKey.Comparable : SortKey → List Row → Prop
  | .id, rows => Row.Comparable (rows.map Row.id)
  | .negatedId, rows => ∀ row ∈ rows, Row.isNumber row.id = true ∧ row.id ≠ .float .nan
  | .tag, rows => Row.Comparable (rows.map Row.tag)
  | .tagThenId, rows => Row.Comparable (rows.map Row.tag) ∧ Row.Comparable (rows.map Row.id)
  | .constant, _ => True

/-- Rows compare by a key if its values do. -/
theorem SortKey.compares {key : SortKey} (h : key.Comparable rows) : key.order.Compares rows := by
  cases key with
  | id => exact Row.compares_orderBy h
  | negatedId =>
      refine .of_key (fun row => OrderDual.toDual (Row.rank row.id)) ?_ (fun _ _ _ _ => rfl) ?_
      · intro a ha
        simp [order, Row.notNegatable, (h a ha).1]
      · intro a ha b hb
        have hcomparable : Row.comparable a.id b.id = true :=
          Row.comparable_of_number (h a ha).1 (h b hb).1
        simp [order, Row.valueLt_eq hcomparable (h a ha).2 (h b hb).2, ← decide_not]
  | tag => exact Row.compares_orderBy h
  | tagThenId => exact Row.compares_byTagThenId h.1 h.2
  | constant => exact .of_key (fun _ => ()) (fun _ _ => rfl) (fun _ _ _ _ => rfl) fun _ _ _ _ => rfl

end ChainPoll

import Mathlib.Data.List.Nodup
import ChainPoll.Proofs.Record.Contents

/-!
# Records field by field

An object is read as a record exactly when each of its known keys holds a value that its field
accepts, and no key is missing that must be there.  Each field then has the value that was read for
it, or its zero; no field depends on another one, and no rule ties two fields together.

Main results:

- Theorem {lit}`Shape.isOk_read_iff`: which values are read.
- Theorem {lit}`Fields.read_eq_ok_iff`: what the fields of an object are read as.
- Theorem {lit}`Fields.read_without`: without a key that need not be there an object is still read.
- Theorem {lit}`Fields.read_replaced`: so it is with another accepted value under a key.
- Theorem {lit}`Model.reads_fieldwise`: all of it for the models of the service.
-/

namespace ChainPoll
namespace Record

variable {entries entries' : List (String × Json)}

/-! ## The keys of a field -/

namespace FieldKey

variable {key : FieldKey} {k : String} {v : Json}

/-- Whether a field may be given under a key: the service's, or the name that the field has here. -/
def Names (key : FieldKey) (k : String) : Prop :=
  k = key.wire ∨ k = key.name

instance (key : FieldKey) (k : String) : Decidable (key.Names k) :=
  inferInstanceAs (Decidable (_ ∨ _))

/-- Whether a field is given. -/
def Given (key : FieldKey) (entries : List (String × Json)) : Prop :=
  ∃ k v, (k, v) ∈ entries ∧ key.Names k

/-- Whether a field is given once at most. -/
def Single (key : FieldKey) (entries : List (String × Json)) : Prop :=
  ∀ e ∈ entries, ∀ e' ∈ entries, key.Names e.1 → key.Names e'.1 → e = e'

/-- What is found under a key is one of the entries. -/
theorem mem_of_field? (h : Json.field? entries k = some v) : (k, v) ∈ entries := by
  unfold Json.field? at h
  obtain ⟨⟨j, w⟩, hfind, rfl⟩ := Option.map_eq_some_iff.mp h
  have hkey : j = k := by simpa using List.find?_some hfind
  rw [← hkey]
  exact List.mem_reverse.mp (List.mem_of_find?_eq_some hfind)

/-- Nothing is found under a key that no entry has. -/
theorem field?_eq_none_iff : Json.field? entries k = none ↔ ∀ v, (k, v) ∉ entries := by
  simp only [Json.field?, Option.map_eq_none_iff, List.find?_eq_none, List.mem_reverse, beq_iff_eq,
    Prod.forall]
  constructor
  · intro h v hmem
    exact h k v hmem rfl
  · rintro h j v hmem rfl
    exact h v hmem

/-- What is found for a field is given under one of its keys. -/
theorem mem_of_find? {e : String × Json} (h : key.find? entries = some e) :
    e ∈ entries ∧ key.Names e.1 := by
  unfold find? at h
  split at h
  · next v hv =>
    rw [Option.some.injEq] at h
    exact h ▸ ⟨mem_of_field? hv, .inl rfl⟩
  · obtain ⟨v, hv, rfl⟩ := Option.map_eq_some_iff.mp h
    exact ⟨mem_of_field? hv, .inr rfl⟩

/-- Nothing is found for a field that is not given. -/
theorem find?_eq_none_iff : key.find? entries = none ↔ ¬ key.Given entries := by
  constructor
  · rintro h ⟨k, v, hmem, hnames⟩
    unfold find? at h
    split at h
    · simp at h
    · next hwire =>
      have hname := Option.map_eq_none_iff.mp h
      rcases hnames with rfl | rfl
      · exact field?_eq_none_iff.mp hwire v hmem
      · exact field?_eq_none_iff.mp hname v hmem
  · intro h
    cases hfind : key.find? entries with
    | none => rfl
    | some e => exact absurd ⟨e.1, e.2, mem_of_find? hfind⟩ h

/-- What is found for a field that is given once at most. -/
theorem find?_eq_some_iff (hsingle : key.Single entries) {e : String × Json} :
    key.find? entries = some e ↔ e ∈ entries ∧ key.Names e.1 := by
  refine ⟨mem_of_find?, ?_⟩
  rintro ⟨hmem, hnames⟩
  cases hfind : key.find? entries with
  | none => exact absurd ⟨e.1, e.2, hmem, hnames⟩ (find?_eq_none_iff.mp hfind)
  | some e' =>
      obtain ⟨hmem', hnames'⟩ := mem_of_find? hfind
      rw [hsingle e hmem e' hmem' hnames hnames']

end FieldKey

/-! ## Acceptance -/

mutual

/--
Whether a value is accepted against a shape.  Which values are texts, integers and times is up to
the readers of these; all else is accepted part by part.
-/
def Shape.Accepts : Shape → Json → Prop
  | .text _, v => ∃ s, v = .text s
  | .integer, v => ∃ n, integerOfJson v = .ok n
  | .time, v => ∃ t, Timestamp.ofJson v = .ok t
  | .list item, v => ∃ items, v = .list items ∧ ∀ w ∈ items, item.Accepts w
  | .optional item, v => v = .null ∨ item.Accepts v
  | .record fields, v => ∃ entries, v = .record entries ∧ fields.Accepts entries

/--
Whether the known keys of an object hold accepted values, and none is missing that must be there.
-/
def Fields.Accepts : Fields → List (String × Json) → Prop
  | .nil, _ => True
  | .cons key shape rest, entries =>
    (∀ k v, (k, v) ∈ entries → key.Names k → shape.Accepts v) ∧
      (key.required = true → key.Given entries) ∧ rest.Accepts entries

end

mutual

/--
Whether the objects that are read against a shape give no key twice, and no field under both keys.
-/
def Shape.Clear : Shape → Json → Prop
  | .list item, .list items => ∀ w ∈ items, item.Clear w
  | .optional item, v => item.Clear v
  | .record fields, .record entries => (entries.map Prod.fst).Nodup ∧ fields.Clear entries
  | _, _ => True

/--
Whether no field of an object is given under both its keys, nor any within the values of fields.
-/
def Fields.Clear : Fields → List (String × Json) → Prop
  | .nil, _ => True
  | .cons key shape rest, entries =>
    (∀ v w, (key.wire, v) ∈ entries → (key.name, w) ∈ entries → key.wire = key.name) ∧
      (∀ k v, (k, v) ∈ entries → key.Names k → shape.Clear v) ∧ rest.Clear entries

end

/-- Whether every field of a record is given once at most. -/
def Fields.Single : Fields → List (String × Json) → Prop
  | .nil, _ => True
  | .cons key _ rest, entries => key.Single entries ∧ rest.Single entries

/-- In a list of distinct keys each key has one value. -/
theorem eq_of_nodup_keys (h : (entries.map Prod.fst).Nodup) {e e' : String × Json}
    (he : e ∈ entries) (he' : e' ∈ entries) (hkey : e.1 = e'.1) : e = e' :=
  List.inj_on_of_nodup_map h he he' hkey

/-- In a clear object every field is given once at most. -/
theorem Fields.Clear.single {fields : Fields} (hnodup : (entries.map Prod.fst).Nodup)
    (h : fields.Clear entries) : fields.Single entries := by
  induction fields using Fields.rec (motive_1 := fun _ => True) with
  | nil => trivial
  | cons key shape rest _ ih =>
      obtain ⟨hboth, -, hrest⟩ := h
      refine ⟨?_, ih hrest⟩
      rintro ⟨k, v⟩ hmem ⟨k', v'⟩ hmem' hnames hnames'
      refine eq_of_nodup_keys hnodup hmem hmem' ?_
      rcases hnames with rfl | rfl <;> rcases hnames' with rfl | rfl
      · rfl
      · exact hboth _ _ hmem hmem'
      · exact (hboth _ _ hmem' hmem).symm
      · rfl
  | _ => trivial

/-! ## Reading -/

section

variable {α : Type} {key : FieldKey} {zero a : α} {read : Json → Checked α}

/--
What a field is read as: what is given for it, or its zero where it is not given and need not be.
-/
def FieldKey.Takes (key : FieldKey) (zero : α) (read : Json → Checked α)
    (entries : List (String × Json)) (a : α) : Prop :=
  (∀ k v, (k, v) ∈ entries → key.Names k → read v = .ok a) ∧
    (¬ key.Given entries → key.required = false ∧ a = zero)

/-- A part is read at a step inside exactly when it is read. -/
theorem within_eq_ok_iff {step : Step} {x : Checked α} : x.within step = .ok a ↔ x = .ok a := by
  cases x <;> simp [Checked.within]

/-- What a field is read as, if it is given once at most. -/
theorem readField_eq_ok_iff (hsingle : key.Single entries) :
    readField key zero read entries = .ok a ↔ key.Takes zero read entries a := by
  cases hfind : key.find? entries with
  | none =>
      have habsent := FieldKey.find?_eq_none_iff.mp hfind
      cases hrequired : key.required with
      | true => simp [readField, hfind, hrequired, FieldKey.Takes, habsent]
      | false =>
          have hnone : ∀ k v, (k, v) ∈ entries → ¬ key.Names k :=
            fun k v hmem hnames => habsent ⟨k, v, hmem, hnames⟩
          simp only [readField, hfind, hrequired, FieldKey.Takes, habsent, Bool.false_eq_true,
            if_false, Except.ok.injEq, not_false_eq_true, true_and, forall_true_left]
          refine ⟨fun h => ⟨fun k v hmem hnames => absurd hnames (hnone k v hmem), h.symm⟩, ?_⟩
          exact fun h => h.2.symm
  | some e =>
      obtain ⟨hmem, hnames⟩ := (FieldKey.find?_eq_some_iff hsingle).mp hfind
      have hgiven : key.Given entries := ⟨e.1, e.2, hmem, hnames⟩
      simp only [readField, hfind, within_eq_ok_iff, FieldKey.Takes, hgiven, not_true_eq_false,
        false_imp_iff, and_true]
      constructor
      · intro h k v hmem' hnames'
        have hsame : e = (k, v) := hsingle _ hmem _ hmem' hnames hnames'
        rwa [hsame] at h
      · intro h
        exact h e.1 e.2 hmem hnames

/--
A field that is given once at most is read if what is given is, and it is given if it must be.
-/
theorem exists_takes_iff (hsingle : key.Single entries) :
    (∃ a, key.Takes zero read entries a) ↔
      (∀ k v, (k, v) ∈ entries → key.Names k → ∃ a, read v = .ok a) ∧
        (key.required = true → key.Given entries) := by
  constructor
  · rintro ⟨a, hread, hzero⟩
    refine ⟨fun k v hmem hnames => ⟨a, hread k v hmem hnames⟩, ?_⟩
    intro hrequired
    by_contra habsent
    simp [(hzero habsent).1] at hrequired
  · rintro ⟨hread, hneeded⟩
    by_cases hgiven : key.Given entries
    · obtain ⟨k, v, hmem, hnames⟩ := hgiven
      obtain ⟨a, ha⟩ := hread k v hmem hnames
      refine ⟨a, ?_, fun habsent => absurd ⟨k, v, hmem, hnames⟩ habsent⟩
      intro k' v' hmem' hnames'
      obtain ⟨rfl, rfl⟩ := Prod.mk.injEq .. ▸ hsingle _ hmem _ hmem' hnames hnames'
      exact ha
    · refine ⟨zero, fun k v hmem hnames => absurd ⟨k, v, hmem, hnames⟩ hgiven, fun _ => ⟨?_, rfl⟩⟩
      cases hrequired : key.required with
      | false => rfl
      | true => exact absurd (hneeded hrequired) hgiven

/-- The items of a list are read exactly when each of them is. -/
theorem isOk_readItems_iff {items : List Json} {i : Nat} :
    (∃ as, readItems read i items = .ok as) ↔ ∀ w ∈ items, ∃ a, read w = .ok a := by
  induction items generalizing i with
  | nil => simp [readItems]
  | cons w rest ih =>
      rw [List.forall_mem_cons, ← ih (i := i + 1)]
      constructor
      · rintro ⟨as, h⟩
        rw [readItems] at h
        split at h
        · next a as' hboth =>
          obtain ⟨hhead, htail⟩ := both_eq_ok_iff.mp hboth
          exact ⟨⟨a, within_eq_ok_iff.mp hhead⟩, as', htail⟩
        · simp at h
      · rintro ⟨⟨a, ha⟩, as, has⟩
        have hhead : (read w).within (.index i) = .ok a := within_eq_ok_iff.mpr ha
        have hboth := both_eq_ok_iff.mpr ⟨hhead, has⟩
        exact ⟨a :: as, by rw [readItems, hboth]⟩

end

/-- What the fields of an object are read as, each for itself. -/
def Fields.Taken : (fields : Fields) → List (String × Json) → fields.Carrier → Prop
  | .nil, _, _ => True
  | .cons key shape rest, entries, (a, as) =>
    key.Takes shape.zero shape.read entries a ∧ rest.Taken entries as

/-- An object whose fields are given once at most is read field by field. -/
theorem Fields.read_eq_ok_iff {fields : Fields} (hsingle : fields.Single entries)
    {values : fields.Carrier} : fields.read entries = .ok values ↔ fields.Taken entries values := by
  induction fields using Fields.rec (motive_1 := fun _ => True) with
  | nil => exact ⟨fun _ => trivial, fun _ => rfl⟩
  | cons key shape rest _ ih =>
      obtain ⟨a, as⟩ := values
      exact both_eq_ok_iff.trans (and_congr (readField_eq_ok_iff hsingle.1) (ih hsingle.2))
  | _ => trivial

/-- The fields of an object are read if each of them is. -/
theorem Fields.exists_taken_cons {key : FieldKey} {shape : Shape} {rest : Fields} :
    (∃ values, (cons key shape rest).Taken entries values) ↔
      (∃ a, key.Takes shape.zero shape.read entries a) ∧ ∃ as, rest.Taken entries as := by
  constructor
  · rintro ⟨⟨a, as⟩, ha, has⟩
    exact ⟨⟨a, ha⟩, as, has⟩
  · rintro ⟨⟨a, ha⟩, as, has⟩
    exact ⟨(a, as), ha, has⟩

/-- What is read as a record is an object. -/
theorem isOk_readRecord_iff {α : Type} {read : List (String × Json) → Checked α} {v : Json} :
    (∃ a, readRecord read v = .ok a) ↔ ∃ entries, v = .record entries ∧
    ∃ a, read entries = .ok a := by
  cases v <;> simp [readRecord]

/-- What is read as a part that may be null is null, or is read as the part. -/
theorem isOk_readOptional_iff {α : Type} {read : Json → Checked α} {v : Json} :
    (∃ a, readOptional read v = .ok a) ↔ v = .null ∨ ∃ a, read v = .ok a := by
  cases v with
  | null => simp [readOptional]
  | _ =>
      simp only [readOptional, reduceCtorEq, false_or]
      split <;> simp_all

/-- What is read as a list is a list, each item of which is read. -/
theorem isOk_readList_iff {α : Type} {read : Json → Checked α} {v : Json} :
    (∃ as, readList read v = .ok as) ↔
      ∃ items, v = .list items ∧ ∀ w ∈ items, ∃ a, read w = .ok a := by
  cases v with
  | list items => simpa [readList] using isOk_readItems_iff
  | _ => simp [readList]

mutual

/-- A value whose objects are clear is read exactly when it is accepted. -/
theorem Shape.isOk_read_iff : (shape : Shape) → {v : Json} → shape.Clear v →
    ((∃ a, shape.read v = .ok a) ↔ shape.Accepts v)
  | .text trimmed, v, _ => by
      cases v <;> simp [Shape.read, Shape.Accepts, readText, Shape.Carrier]
  | .integer, v, _ => by
      cases h : integerOfJson v <;>
        simp [Shape.read, Shape.Accepts, Checked.single, h, Shape.Carrier]
  | .time, v, _ => by
      cases h : Timestamp.ofJson v <;>
        simp [Shape.read, Shape.Accepts, Checked.single, h, Shape.Carrier]
  | .list item, v, hclear => by
      refine isOk_readList_iff.trans (exists_congr fun items => and_congr_right ?_)
      rintro rfl
      refine forall₂_congr fun w hw => Shape.isOk_read_iff item ?_
      simp only [Shape.Clear] at hclear
      exact hclear w hw
  | .optional item, v, hclear => by
      refine isOk_readOptional_iff.trans (or_congr_right (Shape.isOk_read_iff item ?_))
      cases v <;> simpa only [Shape.Clear] using hclear
  | .record fields, v, hclear => by
      refine isOk_readRecord_iff.trans (exists_congr fun entries => and_congr_right ?_)
      rintro rfl
      simp only [Shape.Clear] at hclear
      exact Fields.isOk_read_iff fields (hclear.2.single hclear.1) hclear.2

/-- The fields of a clear object are read exactly when they are accepted. -/
theorem Fields.isOk_read_iff : (fields : Fields) → {entries : List (String × Json)} →
    fields.Single entries → fields.Clear entries →
    ((∃ values, fields.read entries = .ok values) ↔ fields.Accepts entries)
  | .nil, _, _, _ => ⟨fun _ => trivial, fun _ => ⟨(), rfl⟩⟩
  | .cons key shape rest, entries, hsingle, hclear => by
      have hshape : ∀ k v, (k, v) ∈ entries → key.Names k →
          ((∃ a, shape.read v = .ok a) ↔ shape.Accepts v) :=
        fun k v hmem hnames => Shape.isOk_read_iff shape (hclear.2.1 k v hmem hnames)
      have hrest := Fields.isOk_read_iff rest hsingle.2 hclear.2.2
      rw [exists_congr fun _ => Fields.read_eq_ok_iff hsingle, Fields.exists_taken_cons,
        exists_takes_iff hsingle.1, and_assoc, Fields.Accepts,
        ← exists_congr fun _ => Fields.read_eq_ok_iff hsingle.2, hrest]
      refine and_congr_left fun _ => ?_
      exact forall₄_congr hshape

end

/-! ## Edits -/

/-- Whether two readings of a record are the same in all fields that a key does not name. -/
def Fields.SameBeside (k : String) : (fields : Fields) → fields.Carrier → fields.Carrier → Prop
  | .nil, _, _ => True
  | .cons key _ rest, (a, as), (b, bs) => (¬ key.Names k → a = b) ∧ rest.SameBeside k as bs

/-- Whether a value is accepted by all fields that a key names. -/
def Fields.AcceptsAt (k : String) (w : Json) : Fields → Prop
  | .nil => True
  | .cons key shape rest =>
    (key.Names k → shape.Clear w ∧ shape.Accepts w) ∧ rest.AcceptsAt k w

/-- An object without a key. -/
def without (k : String) (entries : List (String × Json)) : List (String × Json) :=
  entries.filter fun e => e.1 ≠ k

/-- An object with another value under a key. -/
def replaced (k : String) (w : Json) (entries : List (String × Json)) : List (String × Json) :=
  entries.map fun e => if e.1 = k then (k, w) else e

section

variable {fields : Fields} {values values' : fields.Carrier} {k j : String} {v w : Json}

/-- Without a key all else is as it was. -/
theorem mem_without : (j, v) ∈ without k entries ↔ (j, v) ∈ entries ∧ j ≠ k := by
  simp [without]

/-- What an object holds in which a value was replaced. -/
theorem mem_replaced :
    (j, v) ∈ replaced k w entries ↔
      j ≠ k ∧ (j, v) ∈ entries ∨ j = k ∧ v = w ∧ ∃ u, (k, u) ∈ entries := by
  simp only [replaced, List.mem_map, Prod.exists]
  constructor
  · rintro ⟨i, u, hmem, heq⟩
    split at heq
    · next hi =>
      obtain ⟨rfl, rfl⟩ := Prod.mk.inj heq
      exact .inr ⟨rfl, rfl, u, hi ▸ hmem⟩
    · next hi =>
      obtain ⟨rfl, rfl⟩ := Prod.mk.inj heq
      exact .inl ⟨hi, hmem⟩
  · rintro (⟨hne, hmem⟩ | ⟨rfl, rfl, u, hmem⟩)
    · exact ⟨j, v, hmem, by simp [hne]⟩
    · exact ⟨j, u, hmem, by simp⟩

/-- Fields that a key does not name are read alike from objects that differ under that key only. -/
theorem Fields.Taken.sameBeside {fields : Fields} {values values' : fields.Carrier}
    (h : fields.Taken entries values) (h' : fields.Taken entries' values')
    (hsame : ∀ j v, j ≠ k → ((j, v) ∈ entries ↔ (j, v) ∈ entries')) :
    fields.SameBeside k values values' := by
  induction fields using Fields.rec (motive_1 := fun _ => True) with
  | nil => trivial
  | cons key shape rest _ ih =>
      obtain ⟨a, as⟩ := values
      obtain ⟨b, bs⟩ := values'
      refine ⟨?_, ih h.2 h'.2⟩
      intro hother
      have hne : ∀ j, key.Names j → j ≠ k := by
        rintro j hnames rfl
        exact hother hnames
      by_cases hgiven : key.Given entries
      · obtain ⟨j, v, hmem, hnames⟩ := hgiven
        have ha := h.1.1 j v hmem hnames
        have hb := h'.1.1 j v ((hsame j v (hne j hnames)).mp hmem) hnames
        rw [ha, Except.ok.injEq] at hb
        exact hb
      · have hgiven' : ¬ key.Given entries' := by
          rintro ⟨j, v, hmem, hnames⟩
          exact hgiven ⟨j, v, (hsame j v (hne j hnames)).mpr hmem, hnames⟩
        rw [(h.1.2 hgiven).2, (h'.1.2 hgiven').2]
  | _ => trivial

/-- Without a key that no field needs, the other fields are accepted as they were. -/
theorem Fields.Accepts.without {fields : Fields} (h : fields.Accepts entries)
    (hfree : ∀ key ∈ fields.keys, key.Names k → key.required = false) :
    fields.Accepts (without k entries) := by
  induction fields using Fields.rec (motive_1 := fun _ => True) with
  | nil => trivial
  | cons key shape rest _ ih =>
      obtain ⟨hshape, hneeded, hrest⟩ := h
      simp only [Fields.keys, List.forall_mem_cons] at hfree
      refine ⟨?_, ?_, ih hrest hfree.2⟩
      · intro j v hmem hnames
        exact hshape j v (mem_without.mp hmem).1 hnames
      · intro hrequired
        obtain ⟨j, v, hmem, hnames⟩ := hneeded hrequired
        refine ⟨j, v, mem_without.mpr ⟨hmem, ?_⟩, hnames⟩
        rintro rfl
        simp [hfree.1 hnames] at hrequired
  | _ => trivial

/-- With another accepted value under a key, all fields are accepted as they were. -/
theorem Fields.Accepts.replaced {fields : Fields} (h : fields.Accepts entries)
    (hw : fields.AcceptsAt k w) : fields.Accepts (replaced k w entries) := by
  induction fields using Fields.rec (motive_1 := fun _ => True) with
  | nil => trivial
  | cons key shape rest _ ih =>
      obtain ⟨hshape, hneeded, hrest⟩ := h
      refine ⟨?_, ?_, ih hrest hw.2⟩
      · intro j v hmem hnames
        rcases mem_replaced.mp hmem with ⟨-, hmem⟩ | ⟨rfl, rfl, -⟩
        · exact hshape j v hmem hnames
        · exact (hw.1 hnames).2
      · intro hrequired
        obtain ⟨j, v, hmem, hnames⟩ := hneeded hrequired
        by_cases hj : j = k
        · exact ⟨k, w, mem_replaced.mpr (.inr ⟨rfl, rfl, v, hj ▸ hmem⟩), hj ▸ hnames⟩
        · exact ⟨j, v, mem_replaced.mpr (.inl ⟨hj, hmem⟩), hnames⟩
  | _ => trivial

/-- An object that is clear is so without a key. -/
theorem clear_without (h : (Shape.record fields).Clear (.record entries)) (k : String) :
    (Shape.record fields).Clear (.record (without k entries)) := by
  simp only [Shape.Clear] at h ⊢
  refine ⟨h.1.sublist (List.filter_sublist.map _), ?_⟩
  obtain ⟨-, h⟩ := h
  induction fields using Fields.rec (motive_1 := fun _ => True) with
  | nil => trivial
  | cons key shape rest _ ih =>
      refine ⟨?_, ?_, ih h.2.2⟩
      · intro v w hv hw
        exact h.1 v w (mem_without.mp hv).1 (mem_without.mp hw).1
      · intro j v hmem hnames
        exact h.2.1 j v (mem_without.mp hmem).1 hnames
  | _ => trivial

/-- An object that is clear is so with another clear value under a key. -/
theorem clear_replaced (h : (Shape.record fields).Clear (.record entries))
    (hw : fields.AcceptsAt k w) :
    (Shape.record fields).Clear (.record (replaced k w entries)) := by
  simp only [Shape.Clear] at h ⊢
  have hkeys : (replaced k w entries).map Prod.fst = entries.map Prod.fst := by
    simp only [replaced, List.map_map]
    refine List.map_congr_left fun e _ => ?_
    simp only [Function.comp_apply]
    split
    · next hk => exact hk.symm
    · rfl
  rw [hkeys]
  refine ⟨h.1, ?_⟩
  obtain ⟨-, h⟩ := h
  have hgiven : ∀ j v, (j, v) ∈ replaced k w entries → ∃ u, (j, u) ∈ entries := by
    intro j v hmem
    rcases mem_replaced.mp hmem with ⟨-, hmem⟩ | ⟨rfl, -, u, hmem⟩
    · exact ⟨v, hmem⟩
    · exact ⟨u, hmem⟩
  induction fields using Fields.rec (motive_1 := fun _ => True) with
  | nil => trivial
  | cons key shape rest _ ih =>
      refine ⟨?_, ?_, ih hw.2 h.2.2⟩
      · intro v v' hv hv'
        obtain ⟨u, hu⟩ := hgiven _ _ hv
        obtain ⟨u', hu'⟩ := hgiven _ _ hv'
        exact h.1 u u' hu hu'
      · intro j v hmem hnames
        rcases mem_replaced.mp hmem with ⟨-, hmem⟩ | ⟨rfl, rfl, -⟩
        · exact h.2.1 j v hmem hnames
        · exact (hw.1 hnames).1
  | _ => trivial

/-- A clear object is read as a record field by field. -/
theorem read_record_iff (hclear : (Shape.record fields).Clear (.record entries)) :
    Shape.read (.record fields) (.record entries) = .ok values ↔ fields.Taken entries values := by
  simp only [Shape.Clear] at hclear
  exact Fields.read_eq_ok_iff (hclear.2.single hclear.1)

/-- A clear object is read as a record exactly when its fields are accepted. -/
theorem isOk_read_record_iff (hclear : (Shape.record fields).Clear (.record entries)) :
    (∃ values, Shape.read (.record fields) (.record entries) = .ok values) ↔
      fields.Accepts entries := by
  simp only [Shape.Clear] at hclear
  exact Fields.isOk_read_iff fields (hclear.2.single hclear.1) hclear.2

/-- An object that is accepted after an edit under a key is read alike in all other fields. -/
theorem exists_read_sameBeside (hclear : (Shape.record fields).Clear (.record entries))
    (hread : Shape.read (.record fields) (.record entries) = .ok values)
    (hclear' : (Shape.record fields).Clear (.record entries')) (haccepts : fields.Accepts entries')
    (hsame : ∀ j v, j ≠ k → ((j, v) ∈ entries ↔ (j, v) ∈ entries')) :
    ∃ values', Shape.read (.record fields) (.record entries') = .ok values' ∧
      fields.SameBeside k values values' := by
  obtain ⟨values', hread'⟩ := (isOk_read_record_iff hclear').mpr haccepts
  refine ⟨values', hread', ?_⟩
  exact ((read_record_iff hclear).mp hread).sameBeside ((read_record_iff hclear').mp hread') hsame

/-- Without a key that need not be there an object is still read, and alike in all other fields. -/
theorem Fields.read_without (hclear : (Shape.record fields).Clear (.record entries))
    (hread : Shape.read (.record fields) (.record entries) = .ok values)
    (hfree : ∀ key ∈ fields.keys, key.Names k → key.required = false) :
    ∃ values', Shape.read (.record fields) (.record (without k entries)) = .ok values' ∧
      fields.SameBeside k values values' := by
  refine exists_read_sameBeside hclear hread (clear_without hclear k) ?_ ?_
  · exact Fields.Accepts.without ((isOk_read_record_iff hclear).mp ⟨values, hread⟩) hfree
  · intro j v hne
    simp [mem_without, hne]

/--
With another accepted value under a key an object is still read, and alike in all other fields.
-/
theorem Fields.read_replaced (hclear : (Shape.record fields).Clear (.record entries))
    (hread : Shape.read (.record fields) (.record entries) = .ok values)
    (hw : fields.AcceptsAt k w) :
    ∃ values', Shape.read (.record fields) (.record (replaced k w entries)) = .ok values' ∧
      fields.SameBeside k values values' := by
  refine exists_read_sameBeside hclear hread (clear_replaced hclear hw) ?_ ?_
  · exact Fields.Accepts.replaced ((isOk_read_record_iff hclear).mp ⟨values, hread⟩) hw
  · intro j v hne
    simp [mem_replaced, hne]

end

/-! ## Zeros -/

mutual

/-- Whether a value is zero, empty or nothing; no time is. -/
def Shape.Blank : (shape : Shape) → shape.Carrier → Prop
  | .text _, s => (s : String) = ""
  | .integer, n => n = (0 : Int)
  | .time, _ => False
  | .list item, as => (as : List item.Carrier) = []
  | .optional item, a => (a : Option item.Carrier) = none
  | .record fields, values => fields.Blank values

/-- Whether all fields of a record are zero, empty or nothing. -/
def Fields.Blank : (fields : Fields) → fields.Carrier → Prop
  | .nil, _ => True
  | .cons _ shape rest, (a, as) => shape.Blank a ∧ rest.Blank as

end

/-- Whether the fields that need not be given are blank where they are not. -/
def Fields.BlankWhereAbsent : Fields → Prop
  | .nil => True
  | .cons key shape rest =>
    (key.required = false → shape.Blank shape.zero) ∧ rest.BlankWhereAbsent

end Record

/-! ## Models -/

namespace Model

open Record

/-- The keys that must be given for a model. -/
def needed : Model → List String
  | .envelope .events => ["height"]
  | .envelope _ => ["height", "result"]
  | .event => ["record_time"]
  | _ => []

/-- The fields of a model that must be given are those named here. -/
theorem filter_required_keys (model : Model) :
    model.fields.keys.filter (·.required) = model.needed.map fun name => ⟨name, name, true⟩ := by
  cases model with
  | envelope form => cases form <;> rfl
  | _ => rfl

/-- A key that is not needed names no field that must be given. -/
theorem required_eq_false_of_names {model : Model} {k : String} (hk : k ∉ model.needed)
    {key : FieldKey} (hkey : key ∈ model.fields.keys) (hnames : key.Names k) :
    key.required = false := by
  cases hrequired : key.required with
  | false => rfl
  | true =>
      have hmem := List.mem_filter.mpr ⟨hkey, hrequired⟩
      rw [filter_required_keys, List.mem_map] at hmem
      obtain ⟨name, hname, rfl⟩ := hmem
      rcases hnames with rfl | rfl <;> exact absurd hname hk

/-- Where a field of a model is absent, it is zero, empty or nothing. -/
theorem blankWhereAbsent (model : Model) : model.fields.BlankWhereAbsent := by
  have hzero {key : FieldKey} {shape : Shape} (h : shape.Blank shape.zero) :
      key.required = false → shape.Blank shape.zero := fun _ => h
  cases model with
  | envelope form =>
      cases form with
      | events => exact ⟨nofun, hzero rfl, trivial⟩
      | _ => exact ⟨nofun, nofun, trivial⟩
  | checkpoint => exact ⟨hzero rfl, hzero rfl, hzero rfl, hzero rfl, hzero rfl, hzero rfl, trivial⟩
  | count => exact ⟨hzero rfl, trivial⟩
  | milestone =>
      exact ⟨hzero rfl, hzero rfl, hzero rfl, hzero rfl, hzero rfl, hzero rfl, hzero rfl, trivial⟩
  | validator => exact ⟨hzero rfl, hzero rfl, hzero rfl, hzero rfl, trivial⟩
  | validatorSet => exact ⟨hzero rfl, hzero rfl, trivial⟩
  | span =>
      have hset : (Shape.record ValidatorSet.fields).Blank
        (Shape.record ValidatorSet.fields).zero :=
        ⟨rfl, rfl, trivial⟩
      exact ⟨hzero rfl, hzero rfl, hzero rfl, hzero hset, hzero rfl, hzero rfl, trivial⟩
  | event =>
      exact ⟨hzero rfl, hzero rfl, hzero rfl, hzero rfl, hzero rfl, hzero rfl, nofun, trivial⟩

/--
Whether an object that is read as a model is still read after an edit under a key, and alike in all
fields that this key does not name; so is the content of an answer.
-/
structure KeptBeside (model : Model) (k : String) (entries entries' : List (String × Json)) :
    Prop where
  values : ∀ values, Shape.read (.record model.fields) (.record entries) = .ok values →
    ∃ values', Shape.read (.record model.fields) (.record entries') = .ok values' ∧
      model.fields.SameBeside k values values'
  payload : ∀ form payload, model = .envelope form → form.read (.record entries) = .ok payload →
    ∃ payload' values values', form.read (.record entries') = .ok payload' ∧
      form.values? payload = some values ∧ form.values? payload' = some values' ∧
      form.fields.SameBeside k values values'

/-- It is enough to look at the values that are read. -/
theorem keptBeside_of_values {model : Model} {k : String} {entries entries' : List (String × Json)}
    (h : ∀ values, Shape.read (.record model.fields) (.record entries) = .ok values →
      ∃ values', Shape.read (.record model.fields) (.record entries') = .ok values' ∧
        model.fields.SameBeside k values values') : model.KeptBeside k entries entries' := by
  refine ⟨h, ?_⟩
  rintro form payload rfl hpayload
  obtain ⟨values, hvalues, hread⟩ := Form.read_eq_ok_iff.mp hpayload
  obtain ⟨values', hread', hsame⟩ := h values hread
  have hvalues' := form.values?_ofValues values'
  exact ⟨form.ofValues values', values, values',
    Form.read_eq_ok_iff.mpr ⟨values', hvalues', hread'⟩,
    hvalues, hvalues', hsame⟩

/--
How an object whose keys are distinct, and that gives no field under both its keys, is read as a
model.  It is read exactly if its known keys hold accepted values and none is missing that is
needed; each field of what is read is then what was read for it, or blank, and it is shown under its
name. Without a key that is not needed, or with another accepted value under a key, the object is
still read, and alike in all other fields.
-/
theorem reads_fieldwise (model : Model) {entries : List (String × Json)}
    (hclear : (Shape.record model.fields).Clear (.record entries)) :
    ((∃ shown, model.check (.record entries) = .ok shown) ↔ model.fields.Accepts entries) ∧
      (∀ values, Shape.read (.record model.fields) (.record entries) = .ok values ↔
        model.fields.Taken entries values) ∧
      (∀ shown, model.check (.record entries) = .ok shown ↔
        ∃ values, model.fields.Taken entries values ∧ shown = model.toJson values) ∧
      (∀ values, (Shape.record model.fields).Shows values (model.toJson values)) ∧
      (∀ form, model = .envelope form →
        ((∃ payload, form.read (.record entries) = .ok payload) ↔ form.fields.Accepts entries) ∧
        ∀ payload, form.read (.record entries) = .ok payload ↔
          ∃ values, form.values? payload = some values ∧ form.fields.Taken entries values) ∧
      (model.fields.keys.filter (·.required) = model.needed.map fun name => ⟨name, name, true⟩) ∧
      model.fields.BlankWhereAbsent ∧
      ∀ k, (k ∉ model.needed → model.KeptBeside k entries (without k entries)) ∧
        ∀ w, model.fields.AcceptsAt k w → model.KeptBeside k entries (replaced k w entries) := by
  have haccepts := isOk_read_record_iff hclear
  have htaken : ∀ values, Shape.read (.record model.fields) (.record entries) = .ok values ↔
      model.fields.Taken entries values := fun _ => read_record_iff hclear
  have hshown : ∀ shown, model.check (.record entries) = .ok shown ↔
      ∃ values, model.fields.Taken entries values ∧ shown = model.toJson values :=
    fun _ => check_eq_ok_iff.trans (exists_congr fun values => and_congr_left' (htaken values))
  refine ⟨?_, htaken, hshown, model.shows_toJson, ?_, model.filter_required_keys,
    model.blankWhereAbsent, fun k => ⟨fun hk => ?_, fun w hw => ?_⟩⟩
  · rw [← haccepts]
    simp only [hshown, htaken]
    exact ⟨fun ⟨_, values, h, _⟩ => ⟨values, h⟩, fun ⟨values, h⟩ => ⟨_, values, h, rfl⟩⟩
  · rintro form rfl
    have hpayload : ∀ payload, form.read (.record entries) = .ok payload ↔
        ∃ values, form.values? payload = some values ∧ form.fields.Taken entries values :=
      fun payload => Form.read_eq_ok_iff.trans
        (exists_congr fun values => and_congr_right fun _ => htaken values)
    refine ⟨?_, hpayload⟩
    refine Iff.trans ⟨?_, ?_⟩ haccepts
    · rintro ⟨payload, h⟩
      obtain ⟨values, -, hread⟩ := Form.read_eq_ok_iff.mp h
      exact ⟨values, hread⟩
    · rintro ⟨values, hread⟩
      exact ⟨_, Form.read_eq_ok_iff.mpr ⟨values, form.values?_ofValues values, hread⟩⟩
  · refine keptBeside_of_values fun values hread => Fields.read_without hclear hread ?_
    exact fun key hkey hnames => required_eq_false_of_names hk hkey hnames
  · exact keptBeside_of_values fun values hread => Fields.read_replaced hclear hread hw

/-- What holds of all entries of an object holds of the first and of the others. -/
theorem forall_entry_cons {e : String × Json} {entries : List (String × Json)}
    {holds : String → Json → Prop} :
    (∀ k v, (k, v) ∈ e :: entries → holds k v) ↔
      holds e.1 e.2 ∧ ∀ k v, (k, v) ∈ entries → holds k v := by
  simpa only [Prod.forall] using List.forall_mem_cons (p := fun e : String × Json => holds e.1 e.2)

/-- A span that ends before it starts, with one validator of which next to nothing is known. -/
def invertedSpan : List (String × Json) :=
  [("span_id", .text " 7 "), ("start_block", .int 10), ("end_block", .int 3),
    ("validator_set", .record [("validators", .list [.record [("signer", .text "anyone")]])]),
    ("height", .null)]

/-- The inverted span within an envelope. -/
def invertedAnswer : List (String × Json) :=
  [("height", .text "12"), ("result", .record invertedSpan)]

/--
The inverted span is read, also without its end, and with its start after any number of blocks;
within an envelope it is the span with just its values.
-/
theorem invertedSpan_read :
    (Shape.record Model.span.fields).Clear (.record invertedSpan) ∧
      (∃ shown, Model.span.check (.record invertedSpan) = .ok shown) ∧
      Model.span.KeptBeside "end_block" invertedSpan (without "end_block" invertedSpan) ∧
      (∀ n, Model.span.KeptBeside "start_block" invertedSpan
        (replaced "start_block" (.int n) invertedSpan)) ∧
      Form.span.read (.record invertedAnswer) = .ok (.span ⟨"12",
        { id := 7, startBlock := 10, endBlock := 3
          validatorSet := ⟨[⟨0, "anyone", 0, 0⟩], none⟩, selectedProducers := [],
          chainId := "" }⟩) ∧
      ∃ values, Form.span.values? (.span ⟨"12",
        { id := 7, startBlock := 10, endBlock := 3
          validatorSet := ⟨[⟨0, "anyone", 0, 0⟩], none⟩, selectedProducers := [],
          chainId := "" }⟩) = some values ∧ Form.span.fields.Taken invertedAnswer values := by
  have hclear : (Shape.record Model.span.fields).Clear (.record invertedSpan) := by
    simp only [Shape.Clear, Fields.Clear, Model.fields, Span.fields, ValidatorSet.fields,
      Validator.fields, Fields.field, Fields.renamed, invertedSpan, forall_entry_cons,
      List.forall_mem_cons]
    simp [FieldKey.Names]
  have hanswer : (Shape.record (Model.envelope .span).fields).Clear (.record invertedAnswer) := by
    simp only [Shape.Clear, Fields.Clear, Model.fields, Form.fields, Envelope.fields, Fields.needed,
      invertedAnswer, forall_entry_cons]
    simpa [FieldKey.Names, Model.fields, Shape.Clear] using hclear
  have hread : Form.span.read (.record invertedAnswer) = .ok (.span ⟨"12",
      { id := 7, startBlock := 10, endBlock := 3
        validatorSet := ⟨[⟨0, "anyone", 0, 0⟩], none⟩, selectedProducers := [],
        chainId := "" }⟩) := rfl
  obtain ⟨-, htaken, hshown, -, -, -, -, hedits⟩ := reads_fieldwise .span hclear
  obtain ⟨-, -, -, -, hpayload, -⟩ := reads_fieldwise (.envelope .span) hanswer
  obtain ⟨values, hvalues⟩ : ∃ values, Shape.read (.record Model.span.fields)
      (.record invertedSpan) = .ok values := ⟨_, rfl⟩
  refine ⟨hclear, ⟨_, (hshown _).mpr ⟨values, (htaken values).mp hvalues, rfl⟩⟩,
    (hedits "end_block").1 (by decide), fun n => (hedits "start_block").2 (.int n) ?_, hread,
    ((hpayload .span rfl).2 _).mp hread⟩
  simp [Fields.AcceptsAt, Model.fields, Span.fields, Fields.field, Fields.renamed, FieldKey.Names,
    Shape.Clear, Shape.Accepts, integerOfJson]

end Model
end ChainPoll

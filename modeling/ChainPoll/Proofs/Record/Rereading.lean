import Mathlib.Data.List.DropRight
import ChainPoll.Proofs.Record.Calendar
import ChainPoll.Proofs.Record.Fieldwise

/-!
# Records read again

What was read is in normal form: a text that is trimmed has no blanks at its ends, and a time is on
the calendar.  A value in normal form may be written as an object under the names of its fields, in
any order and beside any other keys, and is read from there as just that value.  So a model that is
shown is read again as what it was, with the numbers that are shown beside its fields ignored.

Main results:

- Theorem {lit}`Text.no_blank_ends_trimBy`: a text that was trimmed has no blank at its ends.
- Theorem {lit}`Text.exists_trimBy_append`: trimming takes nothing but blanks off the ends of a
  text.
- Theorem {lit}`Shape.normal_of_read`: whatever is read is in normal form.
- Theorem {lit}`Shape.read_of_shows`: a value in normal form is read from any object that shows it.
- Theorem {lit}`Model.reads_again`: what was read as a model is read again from what is shown of it.
-/

namespace ChainPoll

/-! ## Trimmed texts -/

namespace Text

variable {blank : Char → Bool}

/-- Dropping the blanks at the front, and those at the end of what is left. -/
theorem trimBy_eq (cs : List Char) : trimBy blank cs = (cs.dropWhile blank).rdropWhile blank := rfl

/-- A text that was trimmed has no blank at its ends. -/
theorem no_blank_ends_trimBy (cs : List Char) :
    (∀ c ∈ (trimBy blank cs).head?, blank c = false) ∧
      ∀ c ∈ (trimBy blank cs).getLast?, blank c = false := by
  rw [trimBy_eq]
  refine ⟨fun c hc => ?_, fun c hc => ?_⟩
  · have hfirst : c ∈ (cs.dropWhile blank).head? := by
      obtain ⟨rest, hrest⟩ := List.rdropWhile_prefix blank (cs.dropWhile blank)
      rw [← hrest, List.head?_append, hc]
      rfl
    simpa [Option.mem_def.mp hfirst] using List.head?_dropWhile_not blank cs
  · obtain ⟨hne, rfl⟩ := List.mem_getLast?_eq_getLast hc
    simpa using List.rdropWhile_last_not blank _ hne

/-- Trimming takes nothing but blanks off the ends of a text. -/
theorem exists_trimBy_append (cs : List Char) :
    ∃ front back, cs = front ++ trimBy blank cs ++ back ∧
      (∀ c ∈ front, blank c = true) ∧ ∀ c ∈ back, blank c = true := by
  refine ⟨cs.takeWhile blank, (cs.dropWhile blank).rtakeWhile blank, ?_,
    fun c hc => List.mem_takeWhile_imp hc, fun c hc => List.mem_rtakeWhile_imp hc⟩
  rw [trimBy_eq, List.append_assoc, List.rdropWhile_append_rtakeWhile,
    List.takeWhile_append_dropWhile]

/-- A text is trimmed at once. -/
theorem trimBy_trimBy (blank : Char → Bool) (cs : List Char) :
    trimBy blank (trimBy blank cs) = trimBy blank cs :=
  trimBy_of_no_blank_ends (no_blank_ends_trimBy cs).1 (no_blank_ends_trimBy cs).2

/-- A text that was trimmed is its own trimming. -/
theorem trim_trim (s : String) : trim (trim s) = trim s := by
  simp only [trim, String.toList_ofList, trimBy_trimBy]

end Text

namespace Record

/-! ## Normal form -/

mutual

/--
Whether a value has no trimmed text with blanks at its ends, and no time that is off the calendar.
-/
def Shape.Normal : (shape : Shape) → shape.Carrier → Prop
  | .text trimmed, s => trimmed = true → Text.trim s = s
  | .integer, _ => True
  | .time, t => Timestamp.OnCalendar t
  | .list item, as => List.Forall item.Normal as
  | .optional item, a => ∀ b, (a : Option item.Carrier) = some b → item.Normal b
  | .record fields, values => fields.Normal values

/-- Whether the values of all fields are in normal form. -/
def Fields.Normal : (fields : Fields) → fields.Carrier → Prop
  | .nil, _ => True
  | .cons _ shape rest, (a, as) => shape.Normal a ∧ rest.Normal as

end

/-- The time that stands in for an absent one is on the calendar. -/
theorem Timestamp.onCalendar_start : Timestamp.start.OnCalendar where
  year := by decide
  month := by decide
  day := by decide
  hour := by decide
  minute := by decide
  second := by decide
  micro := by decide
  offset := nofun

mutual

/-- The value of an absent part is in normal form. -/
theorem Shape.normal_zero : (shape : Shape) → shape.Normal shape.zero
  | .text _ => fun _ => rfl
  | .integer => trivial
  | .time => Timestamp.onCalendar_start
  | .list _ => trivial
  | .optional _ => nofun
  | .record fields => Fields.normal_zero fields

/-- The values of absent fields are in normal form. -/
theorem Fields.normal_zero : (fields : Fields) → fields.Normal fields.zero
  | .nil => trivial
  | .cons _ shape rest => ⟨Shape.normal_zero shape, Fields.normal_zero rest⟩

end

/-! ## What is read is in normal form -/

section

variable {α : Type} {read : Json → Checked α}

/-- A part that has at most one flaw is read exactly when it has none. -/
theorem single_eq_ok_iff {x : Except Defect α} {a : α} : Checked.single x = .ok a ↔ x = .ok a := by
  cases x <;> simp [Checked.single]

/-- The items of a list are read one by one. -/
theorem readItems_eq_ok_iff {items : List Json} {i : Nat} {as : List α} :
    readItems read i items = .ok as ↔ List.Forall₂ (fun w a => read w = .ok a) items as := by
  induction items generalizing i as with
  | nil => simp [readItems, eq_comm]
  | cons w rest ih =>
      rw [readItems, List.forall₂_cons_left_iff]
      constructor
      · intro h
        split at h
        · next a as' hboth =>
          obtain ⟨hhead, htail⟩ := both_eq_ok_iff.mp hboth
          rw [Except.ok.injEq] at h
          exact ⟨a, as', within_eq_ok_iff.mp hhead, ih.mp htail, h.symm⟩
        · simp at h
      · rintro ⟨a, as', hhead, htail, rfl⟩
        have hitem : (read w).within (.index i) = .ok a := within_eq_ok_iff.mpr hhead
        rw [both_eq_ok_iff.mpr ⟨hitem, ih.mpr htail⟩]

/-- What holds of the second of all pairs holds of all members of the second list. -/
theorem forall_of_forall₂ {β : Type} {holds : α → Prop} {xs : List β} {as : List α}
    (h : List.Forall₂ (fun _ a => holds a) xs as) : ∀ a ∈ as, holds a := by
  induction h with
  | nil => simp
  | cons ha _ ih => simpa using ⟨ha, by simpa using ih⟩

/-- What is read as a list is a list, and its items are read one by one. -/
theorem readList_eq_ok_iff {v : Json} {as : List α} :
    readList read v = .ok as ↔
      ∃ items, v = .list items ∧ List.Forall₂ (fun w a => read w = .ok a) items as := by
  cases v <;> simp [readList, readItems_eq_ok_iff]

/-- What is read as a part that may be null is null, or is read as the part. -/
theorem readOptional_eq_ok_iff {v : Json} {b : Option α} :
    readOptional read v = .ok b ↔
      (v = .null ∧ b = none) ∨ (v ≠ .null ∧ ∃ a, b = some a ∧ read v = .ok a) := by
  cases v with
  | null => simp [readOptional, eq_comm]
  | _ =>
      simp only [readOptional, reduceCtorEq, false_and, false_or,
        not_false_eq_true, ne_eq, true_and]
      generalize read _ = x
      cases x <;> simp [eq_comm]

/-- What is read as a record is an object, and its fields are read. -/
theorem readRecord_eq_ok_iff {readFields : List (String × Json) → Checked α} {v : Json} {a : α} :
    readRecord readFields v = .ok a ↔ ∃ entries, v = .record entries ∧
      readFields entries = .ok a := by
  cases v <;> simp [readRecord]

/-- What is read as a field is what was found for it, or its zero. -/
theorem eq_or_of_readField {key : FieldKey} {zero a : α} {entries : List (String × Json)}
    (h : readField key zero read entries = .ok a) : a = zero ∨ ∃ v, read v = .ok a := by
  unfold readField at h
  split at h
  · next found v hfind => exact .inr ⟨v, within_eq_ok_iff.mp h⟩
  · split at h
    · simp at h
    · exact .inl (Except.ok.inj h).symm

end

mutual

/-- Whatever is read is in normal form. -/
theorem Shape.normal_of_read : (shape : Shape) → {v : Json} → {a : shape.Carrier} →
    shape.read v = .ok a → shape.Normal a
  | .text trimmed, v, a, h => by
      intro htrimmed
      subst htrimmed
      cases v with
      | text s =>
          have ha : Text.trim s = a := Except.ok.inj h
          rw [← ha]
          exact Text.trim_trim s
      | _ => simp [Shape.read, readText] at h
  | .integer, _, _, _ => trivial
  | .time, v, a, h => by
      rw [Shape.read] at h
      exact Timestamp.onCalendar_of_ofJson (single_eq_ok_iff.mp h)
  | .list item, v, as, h => by
      obtain ⟨items, -, hitems⟩ := readList_eq_ok_iff.mp h
      have hnormal : List.Forall₂ (fun _ a => item.Normal a) items as :=
        hitems.imp fun w a hw => Shape.normal_of_read item hw
      exact List.forall_iff_forall_mem.mpr (forall_of_forall₂ hnormal)
  | .optional item, v, a, h => by
      rintro b rfl
      rcases readOptional_eq_ok_iff.mp h with ⟨-, hnone⟩ | ⟨-, c, hc, hread⟩
      · simp at hnone
      · rw [Option.some.inj hc]
        exact Shape.normal_of_read item hread
  | .record fields, v, values, h => by
      obtain ⟨entries, -, hread⟩ := readRecord_eq_ok_iff.mp h
      exact Fields.normal_of_read fields hread

/-- Whatever is read for the fields of an object is in normal form. -/
theorem Fields.normal_of_read : (fields : Fields) → {entries : List (String × Json)} →
    {values : fields.Carrier} → fields.read entries = .ok values → fields.Normal values
  | .nil, _, _, _ => trivial
  | .cons key shape rest, entries, (a, as), h => by
      obtain ⟨hfield, hrest⟩ := both_eq_ok_iff.mp h
      refine ⟨?_, Fields.normal_of_read rest hrest⟩
      rcases eq_or_of_readField hfield with rfl | ⟨v, hread⟩
      · exact shape.normal_zero
      · exact Shape.normal_of_read shape hread

end

/-! ## What is shown is read again -/

mutual

/-- A value in normal form is read from whatever shows it. -/
theorem Shape.read_of_shows : (shape : Shape) → {a : shape.Carrier} → {v : Json} →
    shape.Normal a → shape.Shows a v → shape.read v = .ok a
  | .text trimmed, s, v, hnormal, hshows => by
      obtain rfl : v = .text s := hshows
      cases trimmed with
      | true => exact congrArg Except.ok (hnormal rfl)
      | false => rfl
  | .integer, n, v, _, hshows => by
      obtain rfl : v = .int n := hshows
      rfl
  | .time, t, v, hnormal, hshows => by
      obtain rfl : v = .text (Timestamp.text t) := hshows
      have hcalendar : Timestamp.OnCalendar t := hnormal
      rw [Shape.read]
      exact single_eq_ok_iff.mpr (Timestamp.ofJson_text hcalendar)
  | .list item, as, v, hnormal, hshows => by
      obtain ⟨items, rfl, hitems⟩ := hshows
      refine readList_eq_ok_iff.mpr ⟨items, rfl, ?_⟩
      have hall := List.forall_iff_forall_mem.mp (show List.Forall item.Normal as from hnormal)
      clear hnormal
      induction hitems with
      | nil => exact .nil
      | cons hshow _ ih =>
          simp only [List.forall_mem_cons] at hall
          exact .cons (Shape.read_of_shows item hall.1 hshow) (ih hall.2)
  | .optional _, none, v, _, hshows => readOptional_eq_ok_iff.mpr (.inl ⟨hshows, rfl⟩)
  | .optional item, some a, v, hnormal, hshows => by
      refine readOptional_eq_ok_iff.mpr (.inr ⟨hshows.1, a, rfl, ?_⟩)
      exact Shape.read_of_shows item (hnormal a rfl) hshows.2
  | .record fields, values, v, hnormal, hshows => by
      obtain ⟨entries, rfl, hentries⟩ := hshows
      exact readRecord_eq_ok_iff.mpr ⟨entries, rfl, Fields.read_of_shows fields hnormal hentries⟩

/-- Values in normal form are read from the entries that show them. -/
theorem Fields.read_of_shows : (fields : Fields) → {values : fields.Carrier} →
    {entries : List (String × Json)} → fields.Normal values → fields.Shows values entries →
    fields.read entries = .ok values
  | .nil, _, _, _, _ => rfl
  | .cons key shape rest, (a, as), entries, hnormal, hshows => by
      obtain ⟨⟨v, hfind, hv⟩, hrest⟩ := hshows
      refine both_eq_ok_iff.mpr ⟨?_, Fields.read_of_shows rest hnormal.2 hrest⟩
      rw [readField, hfind]
      exact within_eq_ok_iff.mpr (Shape.read_of_shows shape hnormal.1 hv)

end

end Record

/-! ## Models -/

namespace Model

open Record

/--
What was read as a model, from a value or from a text, is in normal form, and is read again from
what is shown of it: an object under the names of the fields, with the derived numbers beside them.
It is read from any other object that shows it as well, in whatever order and beside whatever other
keys.
-/
theorem reads_again (model : Model) {v : Json} {values : model.fields.Carrier}
    (hread : Shape.read (.record model.fields) v = .ok values) :
    (Shape.record model.fields).Normal values ∧
      (∃ entries, model.toJson values = .record entries ∧
        entries.map Prod.fst = model.fields.keys.map FieldKey.name ++ model.derived) ∧
      (Shape.record model.fields).Shows values (model.toJson values) ∧
      Shape.read (.record model.fields) (model.toJson values) = .ok values ∧
      (∀ w, (Shape.record model.fields).Shows values w →
        Shape.read (.record model.fields) w = .ok values) ∧
      model.check v = .ok (model.toJson values) ∧
      (∀ body, Json.ofBytes? Json.standardDepth body = some v →
        model.decode body = .ok (model.toJson values)) ∧
      model.check (model.toJson values) = .ok (model.toJson values) ∧
      ∀ form payload, model = .envelope form → form.read v = .ok payload →
        payload.toJson = model.toJson values ∧ form.read payload.toJson = .ok payload := by
  have hnormal := Shape.normal_of_read (.record model.fields) hread
  have hshows := model.shows_toJson values
  have hagain := Shape.read_of_shows (.record model.fields) hnormal hshows
  have hcheck : model.check v = .ok (model.toJson values) := by rw [check, hread]
  refine ⟨hnormal, model.toJson_keys values, hshows, hagain,
    fun w hw => Shape.read_of_shows (.record model.fields) hnormal hw, hcheck, ?_, ?_, ?_⟩
  · intro body hbody
    rw [decode, hbody]
    exact hcheck
  · rw [check, hagain]
  · rintro form payload rfl hpayload
    have hform : form.read v = .ok (form.ofValues values) :=
      congrArg (Except.map form.ofValues) hread
    obtain rfl : form.ofValues values = payload := Except.ok.inj (hform.symm.trans hpayload)
    exact ⟨rfl, congrArg (Except.map form.ofValues) hagain⟩

/-- An event with numbers as a text and a truth value, and a time as a number of seconds. -/
def looseEvent : Json :=
  .record
    [("record_time", .int 1700000000), ("id", .text " +1_000.0\n"),
      ("log_index", .bool true), ("bor_chain_id", .text " 137 "), ("tx_hash", .text "0xab")]

/-- The loose event within an envelope. -/
def looseAnswer : Json :=
  .record [("result", .list [looseEvent]), ("height", .text " 7"), ("extra", .null)]

/-- What the loose event is shown as. -/
def strictEvent : Json :=
  .record
    [("id", .int 1000), ("contract", .text ""), ("data", .text ""), ("tx_hash", .text "0xab"),
      ("log_index", .int 1), ("chain_id", .text " 137 "),
      ("record_time", .text "2023-11-14T22:13:20+00:00")]

/-- The loose answer is read, and what is shown of it is read as the same. -/
theorem looseAnswer_reads_again :
    ∃ values, Shape.read (.record (envelope .events).fields) looseAnswer = .ok values ∧
      (envelope .events).toJson values =
        .record [("height", .text " 7"), ("result", .list [strictEvent])] ∧
      Shape.read (.record (envelope .events).fields)
        (.record [("height", .text " 7"), ("result", .list [strictEvent])]) = .ok values := by
  obtain ⟨values, hread, hshown⟩ : ∃ values,
      Shape.read (.record (envelope .events).fields) looseAnswer = .ok values ∧
        (envelope .events).toJson values =
          .record [("height", .text " 7"), ("result", .list [strictEvent])] := by
    refine ⟨_, rfl, ?_⟩
    rfl
  exact ⟨values, hread, hshown, hshown ▸ (reads_again (.envelope .events) hread).2.2.2.1⟩

end Model

end ChainPoll

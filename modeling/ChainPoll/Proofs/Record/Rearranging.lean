import ChainPoll.Proofs.Record.Fieldwise

/-!
# Objects that are rearranged

Reading depends on the known keys only.  The entries of any object may change their order, and keys
that the record which is read there does not know may come and go: what is read stays as it is, and
so does every flaw and its place.  A key of the service may give way to the name that its field has
here, if the object does not have that name yet: then what is read stays as it is, and the flaws
below that key are found below the name instead.

Main results:

- Theorem {lit}`Shape.read_exchanged`: exchanging a part that is read alike makes no other
  difference.
- Theorem {lit}`Shape.read_of_edited`: what is read after any number of such edits.
- Theorem {lit}`Model.reads_known_keys`: so it is for the models of the service.
-/

namespace ChainPoll
namespace Record

/-! ## Flaws at other places -/

/-- A flaw at another place. -/
def Flaw.moved (f : List Step → List Step) (flaw : Flaw) : Flaw :=
  { flaw with place := f flaw.place }

namespace Checked

variable {α β : Type} {f g : List Step → List Step}

/-- The outcome of reading with all flaws at other places. -/
def moved (f : List Step → List Step) : Checked α → Checked α
  | .ok a => .ok a
  | .error flaws => .error (flaws.map (Flaw.moved f))

/-- Flaws that are moved nowhere stay. -/
theorem moved_id (x : Checked α) : x.moved id = x := by
  cases x with
  | ok a => rfl
  | error flaws => exact congrArg Except.error (List.map_id flaws)

/-- Flaws that are moved twice. -/
theorem moved_moved (x : Checked α) : (x.moved f).moved g = x.moved (g ∘ f) := by
  cases x with
  | ok a => rfl
  | error flaws => exact congrArg Except.error (by rw [List.map_map]; rfl)

/-- The flaws of two parts are moved each for itself. -/
theorem moved_both (x : Checked α) (y : Checked β) :
    (x.both y).moved f = (x.moved f).both (y.moved f) := by
  cases x <;> cases y <;> simp [both, moved]

/-- What is made of a part has the flaws of the part. -/
theorem moved_map (h : α → β) (x : Checked α) :
    Checked.moved f (Except.map h x) = Except.map h (x.moved f) := by
  cases x <;> rfl

/--
Flaws of a part that are moved inside it are moved below the step to it, or to what it becomes.
-/
theorem moved_within {step step' : Step} (h : ∀ place, g (step :: place) = step' :: f place)
    (x : Checked α) : (x.within step).moved g = (x.moved f).within step' := by
  cases x with
  | ok a => rfl
  | error flaws =>
      simp only [within, moved, List.map_map]
      refine congrArg Except.error (List.map_congr_left fun flaw _ => ?_)
      simp [Flaw.moved, Flaw.within, h]

end Checked

/-- Moves the places below a place, as `f` moves them inside it. -/
def below : List Step → (List Step → List Step) → List Step → List Step
  | [], f, place => f place
  | _ :: _, _, [] => []
  | step :: inside, f, first :: rest =>
    if first = step then first :: below inside f rest else first :: rest

/-- Places below another step stay. -/
theorem below_of_ne {step first : Step} (h : first ≠ step) (inside rest : List Step)
    (f : List Step → List Step) : below (step :: inside) f (first :: rest) = first :: rest := by
  rw [below, if_neg h]

/-- Places below a step are moved inside it. -/
theorem below_self (step : Step) (inside rest : List Step) (f : List Step → List Step) :
    below (step :: inside) f (step :: rest) = step :: below inside f rest := by
  rw [below, if_pos rfl]

/-- Moving nothing at a place moves nothing. -/
theorem below_id (place : List Step) : below place id = id := by
  induction place with
  | nil => rfl
  | cons step inside ih =>
      funext p
      cases p with
      | nil => rfl
      | cons first rest =>
          rw [below, ih]
          split <;> rfl

/-! ## Lookups -/

section

variable {pre post entries entries' : List (String × Json)} {j k : String} {v w : Json}

/-- Another key does not matter, wherever it stands. -/
theorem field?_insert_of_ne (h : j ≠ k) :
    Json.field? (pre ++ (k, w) :: post) j = Json.field? (pre ++ post) j := by
  have hkey : ¬ k = j := fun heq => h heq.symm
  simp [Json.field?, hkey]

/-- A key that does not come again has its value. -/
theorem field?_insert_self (h : k ∉ post.map Prod.fst) :
    Json.field? (pre ++ (k, w) :: post) k = some w := by
  have hrest : post.reverse.find? (fun entry => entry.1 == k) = none := by
    rw [List.find?_eq_none]
    rintro ⟨j, v⟩ hmem
    simp only [beq_iff_eq]
    rintro rfl
    exact h (List.mem_map_of_mem (List.mem_reverse.mp hmem))
  simp [Json.field?, hrest]

/-- Nothing is found under a key that is not there. -/
theorem field?_eq_none_of_notMem (h : k ∉ entries.map Prod.fst) : Json.field? entries k = none := by
  refine FieldKey.field?_eq_none_iff.mpr fun v hmem => h ?_
  exact List.mem_map_of_mem (f := Prod.fst) hmem

/-- The order of distinct keys does not matter. -/
theorem field?_perm (hnodup : (entries.map Prod.fst).Nodup)
    (h : entries.Perm entries') (k : String) :
    Json.field? entries' k = Json.field? entries k := by
  cases hfind : Json.field? entries k with
  | none =>
      rw [FieldKey.field?_eq_none_iff] at hfind ⊢
      exact fun v hmem => hfind v (h.mem_iff.mpr hmem)
  | some v =>
      have hmem := h.mem_iff.mp (FieldKey.mem_of_field? hfind)
      cases hfind' : Json.field? entries' k with
      | none => exact absurd hmem (FieldKey.field?_eq_none_iff.mp hfind' v)
      | some v' =>
          have hmem' := FieldKey.mem_of_field? hfind'
          have hsame := eq_of_nodup_keys ((h.map Prod.fst).nodup_iff.mp hnodup) hmem' hmem rfl
          rw [(Prod.mk.inj hsame).2]

namespace FieldKey

variable {key : FieldKey}

/-- A field is found by its two keys. -/
theorem find?_congr (hwire : Json.field? entries' key.wire = Json.field? entries key.wire)
    (hname : Json.field? entries' key.name = Json.field? entries key.name) :
    key.find? entries' = key.find? entries := by
  simp only [find?, hwire, hname]

/-- A key that a field does not have does not matter for it. -/
theorem find?_insert_of_not_names (h : ¬ key.Names k) :
    key.find? (pre ++ (k, w) :: post) = key.find? (pre ++ post) := by
  simp only [Names, not_or] at h
  exact find?_congr (field?_insert_of_ne (Ne.symm h.1)) (field?_insert_of_ne (Ne.symm h.2))

/-- A key that a field does not have does not matter for it, nor does its value. -/
theorem find?_congr_of_not_names (hj : ¬ key.Names j) (hk : ¬ key.Names k) :
    key.find? (pre ++ (j, v) :: post) = key.find? (pre ++ (k, w) :: post) := by
  rw [find?_insert_of_not_names hj, find?_insert_of_not_names hk]

/-- A field is found under a key that it has, or under its other key with whatever value here. -/
theorem find?_insert_of_names (h : key.Names k) (pre : List (String × Json))
    (hpost : k ∉ post.map Prod.fst) (w w' : Json) :
    (key.find? (pre ++ (k, w) :: post) = some (k, w) ∧
        key.find? (pre ++ (k, w') :: post) = some (k, w')) ∨
      ∃ e, e.1 ≠ k ∧ key.find? (pre ++ (k, w) :: post) = some e ∧
        key.find? (pre ++ (k, w') :: post) = some e := by
  by_cases hwire : key.wire = k
  · refine .inl ⟨?_, ?_⟩ <;> simp only [find?, hwire, field?_insert_self hpost]
  · have hname : k = key.name := h.resolve_left (Ne.symm hwire)
    simp only [find?, field?_insert_of_ne hwire]
    cases Json.field? (pre ++ post) key.wire with
    | some u => exact .inr ⟨(key.wire, u), hwire, rfl, rfl⟩
    | none =>
        subst hname
        simp [field?_insert_self hpost]

end FieldKey

end

/-! ## Fields with keys of their own -/

/-- Whether two fields have no key in common. -/
def FieldKey.Apart (key other : FieldKey) : Prop :=
  (key.wire ≠ other.wire ∧ key.wire ≠ other.name) ∧ key.name ≠ other.wire ∧ key.name ≠ other.name

/-- No key is a key of both fields. -/
theorem FieldKey.Apart.not_names {key other : FieldKey} (h : key.Apart other) {k : String}
    (hk : key.Names k) : ¬ other.Names k := by
  rcases hk with rfl | rfl
  · exact not_or.mpr h.1
  · exact not_or.mpr h.2

/-- Two fields that have no key in common have none the other way round. -/
theorem FieldKey.Apart.symm {key other : FieldKey} (h : key.Apart other) : other.Apart key :=
  ⟨⟨h.1.1.symm, h.2.1.symm⟩, h.1.2.symm, h.2.2.symm⟩

mutual

/-- Whether the fields of each record have keys of their own. -/
def Shape.Separate : Shape → Prop
  | .list item => item.Separate
  | .optional item => item.Separate
  | .record fields => fields.Separate
  | _ => True

/-- Whether fields have keys of their own, and so do those of the records in them. -/
def Fields.Separate : Fields → Prop
  | .nil => True
  | .cons key shape rest =>
    (∀ other ∈ rest.keys, key.Apart other) ∧ shape.Separate ∧ rest.Separate

end

instance (key other : FieldKey) : Decidable (key.Apart other) :=
  inferInstanceAs (Decidable (_ ∧ _))

mutual

/-- Whether the fields of each record have keys of their own can be decided. -/
def Shape.decidableSeparate : (shape : Shape) → Decidable shape.Separate
  | .list item => item.decidableSeparate
  | .optional item => item.decidableSeparate
  | .record fields => fields.decidableSeparate
  | .text _ | .integer | .time => .isTrue trivial

/-- Whether fields, and those of the records in them, have keys of their own can be decided. -/
def Fields.decidableSeparate : (fields : Fields) → Decidable fields.Separate
  | .nil => .isTrue trivial
  | .cons _ shape rest =>
    have := shape.decidableSeparate
    have := rest.decidableSeparate
    inferInstanceAs (Decidable (_ ∧ _))

end

instance (shape : Shape) : Decidable shape.Separate :=
  shape.decidableSeparate

mutual

/--
The shape that is read at a place, if any is; where a part may be null, it is the shape of the part.
-/
def Shape.at? : Shape → List Step → Option Shape
  | .optional item, place => item.at? place
  | .list item, .index _ :: place => item.at? place
  | .record fields, .key k :: place => fields.at? k place
  | shape, [] => some shape
  | _, _ => none

/-- The shape that is read at a place under a key, if any is. -/
def Fields.at? : Fields → String → List Step → Option Shape
  | .nil, _, _ => none
  | .cons key shape rest, k, place =>
    if key.Names k then shape.at? place else rest.at? k place

end

mutual

/-- The fields of the record that is read at a place have keys of their own. -/
theorem Shape.Separate.at? :
    (shape : Shape) → shape.Separate → {place : List Step} → {inner : Shape} →
    shape.at? place = some inner → inner.Separate
  | .optional item, h, place, inner, hat => Shape.Separate.at? item h hat
  | .list item, h, place, inner, hat => by
      cases place with
      | nil => exact Option.some.inj hat ▸ h
      | cons step place =>
          cases step with
          | index i => exact Shape.Separate.at? item h hat
          | key k => simp [Shape.at?] at hat
  | .record fields, h, place, inner, hat => by
      cases place with
      | nil => exact Option.some.inj hat ▸ h
      | cons step place =>
          cases step with
          | index i => simp [Shape.at?] at hat
          | key k => exact Fields.Separate.at? fields h hat
  | .text _, _, place, inner, hat | .integer, _, place, inner, hat | .time, _,
      place, inner, hat => by
      cases place with
      | nil => exact Option.some.inj hat ▸ trivial
      | cons step place => simp [Shape.at?] at hat

/-- The fields of the record that is read at a place under a key have keys of their own. -/
theorem Fields.Separate.at? : (fields : Fields) → fields.Separate → {k : String} →
    {place : List Step} → {inner : Shape} → fields.at? k place = some inner → inner.Separate
  | .nil, _, _, _, _, hat => by simp [Fields.at?] at hat
  | .cons key shape rest, h, k, place, inner, hat => by
      rw [Fields.at?] at hat
      split at hat
      · exact Shape.Separate.at? shape h.2.1 hat
      · exact Fields.Separate.at? rest h.2.2 hat

end

/-! ## A part that is exchanged -/

/--
Whether a value has one object at a place where another value has another one, and is the same
elsewhere. No key on the way to the place comes again in its object.
-/
inductive Exchanged (part part' : List (String × Json)) : List Step → Json → Json → Prop where
  | here : Exchanged part part' [] (.record part) (.record part')
  | item {place : List Step} {v v' : Json} (pre post : List Json)
      (inside : Exchanged part part' place v v') :
      Exchanged part part' (.index pre.length :: place) (.list (pre ++ v :: post))
        (.list (pre ++ v' :: post))
  | entry {place : List Step} {v v' : Json} (pre post : List (String × Json)) (k : String)
      (alone : k ∉ post.map Prod.fst) (inside : Exchanged part part' place v v') :
      Exchanged part part' (.key k :: place) (.record (pre ++ (k, v) :: post))
        (.record (pre ++ (k, v') :: post))

section

variable {part part' : List (String × Json)} {place : List Step} {v v' : Json}

/-- A value with an object in it is not null. -/
theorem Exchanged.ne_null (h : Exchanged part part' place v v') : v ≠ .null ∧ v' ≠ .null := by
  cases h <;> exact ⟨nofun, nofun⟩

section

variable {α : Type} {read : Json → Checked α} {f g : List Step → List Step}

/-- Where a part is not null, it does not matter that it might be. -/
theorem readOptional_of_ne_null (h : v ≠ .null) :
    readOptional read v = (read v).map some := by
  cases v with
  | null => exact absurd rfl h
  | _ => simp only [readOptional]; split <;> simp_all [Except.map]

/-- A part that is read alike is read alike where it might be null. -/
theorem readOptional_exchanged (hv : v ≠ .null) (hv' : v' ≠ .null)
    (hread : read v' = (read v).moved f) :
    readOptional read v' = (readOptional read v).moved f := by
  rw [readOptional_of_ne_null hv, readOptional_of_ne_null hv', hread, Checked.moved_map]

/-- The items of a list are read together with the first of them. -/
theorem readItems_cons (i : Nat) (v : Json) (rest : List Json) :
    readItems read i (v :: rest) =
      Except.map (fun parts => parts.1 :: parts.2)
        (((read v).within (.index i)).both (readItems read (i + 1) rest)) := by
  rw [readItems]
  generalize ((read v).within (.index i)).both (readItems read (i + 1) rest) = x
  cases x <;> rfl

/-- Items whose places stay have their flaws where they were. -/
theorem moved_readItems_of_fixed {i : Nat} {items : List Json}
    (h : ∀ j place, i ≤ j → g (.index j :: place) = .index j :: place) :
    (readItems read i items).moved g = readItems read i items := by
  induction items generalizing i with
  | nil => rfl
  | cons v rest ih =>
      have hhead : ((read v).within (.index i)).moved g = (read v).within (.index i) := by
        rw [Checked.moved_within (f := id) (fun place => h i place (Nat.le_refl i)),
          Checked.moved_id]
      have htail := ih (i := i + 1) fun j place hj => h j place (Nat.le_of_succ_le hj)
      rw [readItems_cons, Checked.moved_map, Checked.moved_both, hhead, htail]

/-- A list with another item that is read alike. -/
theorem readItems_exchanged {i : Nat} {pre post : List Json} (hread : read v' = (read v).moved f)
    (hself : ∀ place, g (.index (i + pre.length) :: place) = .index (i + pre.length) :: f place)
    (hother : ∀ j place, j ≠ i + pre.length → g (.index j :: place) = .index j :: place) :
    readItems read i (pre ++ v' :: post) = (readItems read i (pre ++ v :: post)).moved g := by
  induction pre generalizing i with
  | nil =>
      have htail : (readItems read (i + 1) post).moved g = readItems read (i + 1) post := by
        refine moved_readItems_of_fixed fun j place hj => hother j place ?_
        simp only [List.length_nil]
        omega
      rw [List.length_nil, Nat.add_zero] at hself
      rw [List.nil_append, List.nil_append, readItems_cons, readItems_cons, Checked.moved_map,
        Checked.moved_both, Checked.moved_within hself, htail, hread]
  | cons u pre ih =>
      rw [List.length_cons] at hself hother
      have hhead : ((read u).within (.index i)).moved g = (read u).within (.index i) := by
        rw [Checked.moved_within (f := id) fun place => hother i place (by omega), Checked.moved_id]
      have htail : readItems read (i + 1) (pre ++ v' :: post) =
          (readItems read (i + 1) (pre ++ v :: post)).moved g := by
        refine ih ?_ ?_
        · intro place
          rw [show i + 1 + pre.length = i + (pre.length + 1) by omega]
          exact hself place
        · intro j place hj
          exact hother j place (by omega)
      rw [List.cons_append, List.cons_append, readItems_cons, readItems_cons, Checked.moved_map,
        Checked.moved_both, hhead, htail]

end

/-! ## Fields that are read alike -/

section

variable {fields : Fields} {entries entries' pre post : List (String × Json)} {k : String}
  {f g : List Step → List Step}

/-- A field that is found alike is read alike. -/
theorem readField_congr {α : Type} {key : FieldKey} {zero : α} {read : Json → Checked α}
    (h : key.find? entries' = key.find? entries) :
    readField key zero read entries' = readField key zero read entries := by
  simp only [readField, h]

/-- A field whose places stay has its flaws where they were. -/
theorem moved_readField_of_fixed {α : Type} {key : FieldKey} {zero : α} {read : Json → Checked α}
    (h : ∀ j place, key.Names j → g (.key j :: place) = .key j :: place) :
    (readField key zero read entries).moved g = readField key zero read entries := by
  unfold readField
  split
  · next found v hfind =>
    have hnames : key.Names found := (FieldKey.mem_of_find? hfind).2
    rw [Checked.moved_within (f := id) fun place => h found place hnames, Checked.moved_id]
  · split
    · simp [Checked.moved, Flaw.moved, h key.wire [] (.inl rfl)]
    · rfl

/-- Fields that are found alike are read alike. -/
theorem Fields.read_congr (h : ∀ key ∈ fields.keys, key.find? entries' = key.find? entries) :
    fields.read entries' = fields.read entries := by
  induction fields using Fields.rec (motive_1 := fun _ => True) with
  | nil => rfl
  | cons key shape rest _ ih =>
      simp only [Fields.keys, List.forall_mem_cons] at h
      rw [Fields.read, Fields.read, readField_congr h.1, ih h.2]
  | _ => trivial

/-- Fields whose places stay have their flaws where they were. -/
theorem Fields.moved_read_of_fixed
    (h : ∀ key ∈ fields.keys, ∀ j place, key.Names j → g (.key j :: place) = .key j :: place) :
    (fields.read entries).moved g = fields.read entries := by
  induction fields using Fields.rec (motive_1 := fun _ => True) with
  | nil => rfl
  | cons key shape rest _ ih =>
      simp only [Fields.keys, List.forall_mem_cons] at h
      exact (Checked.moved_both _ _).trans
        (congrArg₂ Checked.both (moved_readField_of_fixed h.1) (ih h.2))
  | _ => trivial

/-- A field that has a key, with another value under it that is read alike. -/
theorem readField_exchanged {α : Type} {key : FieldKey} {zero : α} {read : Json → Checked α}
    (hnames : key.Names k) (halone : k ∉ post.map Prod.fst) (hread : read v' = (read v).moved f)
    (hself : ∀ place, g (.key k :: place) = .key k :: f place)
    (hother : ∀ j place, j ≠ k → g (.key j :: place) = .key j :: place) :
    readField key zero read (pre ++ (k, v') :: post) =
      (readField key zero read (pre ++ (k, v) :: post)).moved g := by
  obtain ⟨hfind, hfind'⟩ | ⟨⟨j, u⟩, hne, hfind, hfind'⟩ :=
    FieldKey.find?_insert_of_names hnames pre halone v v'
  · simp only [readField, hfind, hfind', hread, Checked.moved_within hself]
  · have hstay : ∀ place, g (.key j :: place) = .key j :: id place :=
      fun place => hother j place hne
    simp only [readField, hfind, hfind', Checked.moved_within hstay, Checked.moved_id]

end

mutual

/--
A value in which a part was exchanged is read as before, with the flaws below the part moved, if the
part is read so where anything is read there at all.
-/
theorem Shape.read_exchanged {σ : List Step → List Step} : (shape : Shape) → shape.Separate →
    {place : List Step} → {v v' : Json} → Exchanged part part' place v v' →
    (∀ inner, shape.at? place = some inner →
      inner.read (.record part') = (inner.read (.record part)).moved σ) →
    shape.read v' = (shape.read v).moved (below place σ)
  | .optional item, hseparate, place, v, v', h, hpart => by
      have hinner : item.read v' = (item.read v).moved (below place σ) :=
        Shape.read_exchanged item hseparate h hpart
      exact readOptional_exchanged h.ne_null.1 h.ne_null.2 hinner
  | .list item, hseparate, _, _, _, .here, hpart => hpart _ rfl
  | .list item, hseparate, _, _, _, .item pre post inside, hpart => by
      have hinner := Shape.read_exchanged item hseparate inside hpart
      refine readItems_exchanged hinner ?_ ?_
      · intro place
        rw [Nat.zero_add]
        exact below_self ..
      · intro j place hj
        refine below_of_ne (fun heq => hj ?_) ..
        rw [Nat.zero_add]
        exact Step.index.inj heq
  | .list item, _, _, _, _, .entry .., _ => rfl
  | .record fields, _, _, _, _, .here, hpart => hpart _ rfl
  | .record fields, _, _, _, _, .item .., _ => rfl
  | .record fields, hseparate, _, _, _, .entry pre post k halone inside, hpart =>
      Fields.read_exchanged fields hseparate halone inside hpart
  | .text _, _, _, _, _, .here, hpart | .integer, _, _, _, _, .here, hpart
  | .time, _, _, _, _, .here, hpart => hpart _ rfl
  | .text _, _, _, _, _, .item .., _ | .integer, _, _, _, _, .item .., _
  | .time, _, _, _, _, .item .., _ => rfl
  | .text _, _, _, _, _, .entry .., _ | .integer, _, _, _, _, .entry .., _
  | .time, _, _, _, _, .entry .., _ => rfl

/-- So is an object in which a part was exchanged under a key. -/
theorem Fields.read_exchanged {σ : List Step → List Step} : (fields : Fields) → fields.Separate →
    {k : String} → {pre post : List (String × Json)} → k ∉ post.map Prod.fst →
    {place : List Step} → {v v' : Json} → Exchanged part part' place v v' →
    (∀ inner, fields.at? k place = some inner →
      inner.read (.record part') = (inner.read (.record part)).moved σ) →
    fields.read (pre ++ (k, v') :: post) =
      (fields.read (pre ++ (k, v) :: post)).moved (below (.key k :: place) σ)
  | .nil, _, _, _, _, _, _, _, _, _, _ => rfl
  | .cons key shape rest, hseparate, k, pre, post, halone, place, v, v', h, hpart => by
      obtain ⟨hapart, hshape, hrest⟩ := hseparate
      have hother : ∀ j p, j ≠ k → below (.key k :: place) σ (.key j :: p) = .key j :: p :=
        fun j p hj => below_of_ne (fun heq => hj (Step.key.inj heq)) ..
      refine Eq.trans ?_ (Checked.moved_both _ _).symm
      by_cases hnames : key.Names k
      · simp only [Fields.at?, if_pos hnames] at hpart
        have hinner := Shape.read_exchanged shape hshape h hpart
        have hfree : ∀ other ∈ rest.keys, ¬ other.Names k :=
          fun other hmem => (hapart other hmem).not_names hnames
        have hsame : rest.read (pre ++ (k, v') :: post) = rest.read (pre ++ (k, v) :: post) :=
          Fields.read_congr fun other hmem =>
            FieldKey.find?_congr_of_not_names (hfree other hmem) (hfree other hmem)
        have hstay : (rest.read (pre ++ (k, v) :: post)).moved (below (.key k :: place) σ) =
            rest.read (pre ++ (k, v) :: post) := by
          refine Fields.moved_read_of_fixed fun other hmem j p hj => hother j p ?_
          rintro rfl
          exact hfree other hmem hj
        have hhead : readField key shape.zero shape.read (pre ++ (k, v') :: post) =
            (readField key shape.zero shape.read (pre ++ (k, v) :: post)).moved
              (below (.key k :: place) σ) :=
          readField_exchanged hnames halone hinner (fun p => below_self ..) hother
        exact congrArg₂ Checked.both hhead (hsame.trans hstay.symm)
      · simp only [Fields.at?, if_neg hnames] at hpart
        have hsame : readField key shape.zero shape.read (pre ++ (k, v') :: post) =
            readField key shape.zero shape.read (pre ++ (k, v) :: post) :=
          readField_congr (FieldKey.find?_congr_of_not_names hnames hnames)
        have hstay : (readField key shape.zero shape.read (pre ++ (k, v) :: post)).moved
            (below (.key k :: place) σ) =
              readField key shape.zero shape.read (pre ++ (k, v) :: post) := by
          refine moved_readField_of_fixed fun j p hj => hother j p ?_
          rintro rfl
          exact hnames hj
        exact congrArg₂ Checked.both (hsame.trans hstay.symm)
          (Fields.read_exchanged rest hrest halone h hpart)

end

end

/-! ## Edits -/

/-- A key of the service that gives way to the name of its field, in the object at a place. -/
structure Renaming where
  place : List Step
  wire : String
  name : String
deriving DecidableEq, Repr

/-- Puts a name for a key where a place begins with the key. -/
def Step.renamed (wire name : String) : List Step → List Step
  | .key k :: rest => .key (if k = wire then name else k) :: rest
  | place => place

/-- Where a renaming moves a place. -/
def Renaming.move (r : Renaming) : List Step → List Step :=
  below r.place (Step.renamed r.wire r.name)

/-- Where renamings move a place, one after another. -/
def Renaming.moveAll (rs : List Renaming) (place : List Step) : List Step :=
  rs.foldl (fun place r => r.move place) place

/--
Whether one object within a value has its distinct keys in another order, or has one more key that
the record which is read there does not know.
-/
inductive Rearranges (shape : Shape) : Json → Json → Prop where
  | order {place : List Step} {entries entries' : List (String × Json)} {v v' : Json}
      (distinct : (entries.map Prod.fst).Nodup) (order : entries.Perm entries')
      (inside : Exchanged entries entries' place v v') : Rearranges shape v v'
  | unknown {place : List Step} {fields : Fields} {v v' : Json} (pre post : List (String × Json))
      (k : String) (w : Json) (reader : shape.at? place = some (.record fields))
      (free : ∀ key ∈ fields.keys, ¬ key.Names k)
      (inside : Exchanged (pre ++ post) (pre ++ (k, w) :: post) place v v') : Rearranges shape v v'

/--
Whether one object within a value has, for a key of the service, the name of the field of the record
that is read there, and had neither the name nor another such key before.
-/
inductive Renames (shape : Shape) (r : Renaming) : Json → Json → Prop where
  | intro {fields : Fields} {v v' : Json} (key : FieldKey)
      (pre post : List (String × Json)) (w : Json)
      (reader : shape.at? r.place = some (.record fields)) (known : key ∈ fields.keys)
      (wire : key.wire = r.wire) (name : key.name = r.name)
      (once : r.wire ∉ (pre ++ post).map Prod.fst) (free : r.name ∉ (pre ++ post).map Prod.fst)
      (inside : Exchanged (pre ++ (r.wire, w) :: post) (pre ++ (r.name, w) :: post) r.place v v') :
      Renames shape r v v'

/--
Whether a value comes from another one by rearranging objects, there or back, and by renamings.
-/
inductive Edited (shape : Shape) : List Renaming → Json → Json → Prop where
  | done (v : Json) : Edited shape [] v v
  | rearrange {rs : List Renaming} {v u v' : Json}
      (first : Rearranges shape v u ∨ Rearranges shape u v)
      (rest : Edited shape rs u v') : Edited shape rs v v'
  | rename {r : Renaming} {rs : List Renaming} {v u v' : Json} (first : Renames shape r v u)
      (rest : Edited shape rs u v') : Edited shape (r :: rs) v v'

/-- An object in which every key has the value that it had is read as it was. -/
theorem Shape.read_congr {entries entries' : List (String × Json)}
    (h : ∀ k, Json.field? entries' k = Json.field? entries k) :
    (shape : Shape) → shape.read (.record entries') = shape.read (.record entries)
  | .optional item => by
      have hnull : ∀ entries, (Json.record entries) ≠ .null := nofun
      have hread := congrArg (Except.map some) (Shape.read_congr h item)
      rw [← readOptional_of_ne_null (hnull _), ← readOptional_of_ne_null (hnull _)] at hread
      exact hread
  | .record fields => Fields.read_congr fun _ _ => FieldKey.find?_congr (h _) (h _)
  | .text _ | .integer | .time | .list _ => rfl

section

variable {shape : Shape} {v v' : Json}

/-- A rearranged value is read as it was. -/
theorem Shape.read_of_rearranges (hseparate : shape.Separate) (h : Rearranges shape v v') :
    shape.read v' = shape.read v := by
  have hstay : ∀ place, (shape.read v).moved (below place id) = shape.read v := by
    intro place
    rw [below_id, Checked.moved_id]
  cases h with
  | @order place _ _ _ _ hdistinct horder hinside =>
      rw [← hstay place]
      refine Shape.read_exchanged shape hseparate hinside fun inner _ => ?_
      rw [Checked.moved_id]
      exact Shape.read_congr (field?_perm hdistinct horder) inner
  | @unknown place fields _ _ _ _ _ _ hreader hfree hinside =>
      rw [← hstay place]
      refine Shape.read_exchanged shape hseparate hinside fun inner hinner => ?_
      obtain rfl : Shape.record fields = inner := Option.some.inj (hreader.symm.trans hinner)
      rw [Checked.moved_id]
      exact Fields.read_congr fun key hkey => FieldKey.find?_insert_of_not_names (hfree key hkey)

section

variable {key other : FieldKey} {pre post : List (String × Json)}

/-- A field is found under its name where the name was put for its key. -/
theorem FieldKey.find?_renamed (honce : key.wire ∉ (pre ++ post).map Prod.fst)
    (hfree : key.name ∉ (pre ++ post).map Prod.fst) (w : Json) :
    key.find? (pre ++ (key.wire, w) :: post) = some (key.wire, w) ∧
      key.find? (pre ++ (key.name, w) :: post) = some (key.name, w) := by
  have hpost : key.wire ∉ post.map Prod.fst ∧ key.name ∉ post.map Prod.fst := by
    simp only [List.map_append, List.mem_append, not_or] at honce hfree
    exact ⟨honce.2, hfree.2⟩
  constructor
  · rw [find?, field?_insert_self hpost.1]
  · rw [find?]
    by_cases heq : key.wire = key.name
    · rw [heq, field?_insert_self hpost.2]
    · rw [field?_insert_of_ne heq, field?_eq_none_of_notMem honce, field?_insert_self hpost.2]
      rfl

/-- Another field is found as it was. -/
theorem FieldKey.Apart.find?_renamed (h : key.Apart other) (w : Json) :
    other.find? (pre ++ (key.name, w) :: post) = other.find? (pre ++ (key.wire, w) :: post) :=
  find?_congr_of_not_names (h.not_names (.inr rfl)) (h.not_names (.inl rfl))

/-- Places under the keys of another field stay. -/
theorem FieldKey.Apart.renamed_place (h : key.Apart other) {j : String} (hj : other.Names j)
    (place : List Step) : Step.renamed key.wire key.name (.key j :: place) = .key j :: place := by
  rw [Step.renamed, if_neg]
  rintro rfl
  exact h.not_names (.inl rfl) hj

/-- A field with its name for its key is read as it was, with its flaws moved. -/
theorem readField_renamed {α : Type} {zero : α} {read : Json → Checked α}
    (honce : key.wire ∉ (pre ++ post).map Prod.fst) (hfree : key.name ∉ (pre ++ post).map Prod.fst)
    (w : Json) :
    readField key zero read (pre ++ (key.name, w) :: post) =
      (readField key zero read (pre ++ (key.wire, w) :: post)).moved
        (Step.renamed key.wire key.name) := by
  obtain ⟨hfind, hfind'⟩ := FieldKey.find?_renamed honce hfree w
  have hself : ∀ place, Step.renamed key.wire key.name (.key key.wire :: place) =
      .key key.name :: id place := by
    intro place
    rw [Step.renamed, if_pos rfl, id_eq]
  simp only [readField, hfind, hfind', Checked.moved_within hself, Checked.moved_id]

/-- An object with a name for a key of the service is read as it was, with its flaws moved. -/
theorem Fields.read_renamed {fields : Fields} (hseparate : fields.Separate)
    (hkey : key ∈ fields.keys) (honce : key.wire ∉ (pre ++ post).map Prod.fst)
    (hfree : key.name ∉ (pre ++ post).map Prod.fst) (w : Json) :
    fields.read (pre ++ (key.name, w) :: post) =
      (fields.read (pre ++ (key.wire, w) :: post)).moved (Step.renamed key.wire key.name) := by
  induction fields using Fields.rec (motive_1 := fun _ => True) with
  | nil => simp [Fields.keys] at hkey
  | cons first shape rest _ ih =>
      obtain ⟨hapart, -, hrest⟩ := hseparate
      refine Eq.trans ?_ (Checked.moved_both _ _).symm
      rcases List.mem_cons.mp hkey with rfl | hkey
      · have htail : rest.read (pre ++ (key.name, w) :: post) =
            (rest.read (pre ++ (key.wire, w) :: post)).moved (Step.renamed key.wire key.name) := by
          rw [Fields.moved_read_of_fixed fun other hmem j place hj =>
            (hapart other hmem).renamed_place hj place]
          exact Fields.read_congr fun other hmem => (hapart other hmem).find?_renamed w
        exact congrArg₂ Checked.both (readField_renamed honce hfree w) htail
      · have hfirst : key.Apart first := (hapart key hkey).symm
        have hhead : readField first shape.zero shape.read (pre ++ (key.name, w) :: post) =
            (readField first shape.zero shape.read (pre ++ (key.wire, w) :: post)).moved
              (Step.renamed key.wire key.name) := by
          rw [moved_readField_of_fixed fun j place hj => hfirst.renamed_place hj place]
          exact readField_congr (hfirst.find?_renamed w)
        exact congrArg₂ Checked.both hhead (ih hrest hkey)
  | _ => trivial

end

/-- A value with a name for a key of the service is read as it was, with its flaws moved. -/
theorem Shape.read_of_renames {r : Renaming} (hseparate : shape.Separate)
    (h : Renames shape r v v') :
    shape.read v' = (shape.read v).moved r.move := by
  obtain ⟨key, pre, post, w, hreader, hkey, hwire, hname, honce, hfree, hinside⟩ := h
  refine Shape.read_exchanged shape hseparate hinside fun inner hinner => ?_
  obtain rfl := Option.some.inj (hreader.symm.trans hinner)
  rw [← hwire] at honce
  rw [← hname] at hfree
  rw [← hwire, ← hname]
  exact Fields.read_renamed (Shape.Separate.at? shape hseparate hreader) hkey honce hfree w

/-- What is read of an edited value, and where its flaws are. -/
theorem Shape.read_of_edited {rs : List Renaming} (hseparate : shape.Separate)
    (h : Edited shape rs v v') : shape.read v' = (shape.read v).moved (Renaming.moveAll rs) := by
  induction h with
  | done v => exact (Checked.moved_id _).symm
  | rearrange first _ ih =>
      rw [ih]
      rcases first with first | first
      · rw [Shape.read_of_rearranges hseparate first]
      · rw [Shape.read_of_rearranges hseparate first]
  | @rename r rs _ _ _ first _ ih =>
      have hmove : Renaming.moveAll (r :: rs) = Renaming.moveAll rs ∘ r.move := rfl
      rw [ih, Shape.read_of_renames hseparate first, Checked.moved_moved, hmove]

end

end Record

/-! ## Models -/

namespace Model

open Record

/-- The fields of each model have keys of their own. -/
theorem separate (model : Model) : (Shape.record model.fields).Separate := by
  cases model with
  | envelope form => cases form <;> decide
  | _ => decide

/--
What is read as a model of a value that was edited: distinct keys of any of its objects in another
order, keys added or removed that the record which is read there does not know, and names put for
keys of the service.  It is read exactly if it was read before, and as the same; it has the same
flaws, in the same order, and only the renamings move them.
-/
theorem reads_known_keys (model : Model) {rs : List Renaming} {v v' : Json}
    (h : Edited (.record model.fields) rs v v') :
    Shape.read (.record model.fields) v' =
        (Shape.read (.record model.fields) v).moved (Renaming.moveAll rs) ∧
      (∀ shown, model.check v' = .ok shown ↔ model.check v = .ok shown) ∧
      (∀ flaws, model.check v = .error (model.fault flaws) →
        model.check v' = .error (model.fault (flaws.map (Flaw.moved (Renaming.moveAll rs))))) ∧
      (∀ form, model = .envelope form →
        form.read v' = (form.read v).moved (Renaming.moveAll rs)) ∧
      (rs = [] → Shape.read (.record model.fields) v' = Shape.read (.record model.fields) v ∧
        model.check v' = model.check v ∧
        (∀ form, model = .envelope form → form.read v' = form.read v) ∧
        ∀ body body', Json.ofBytes? Json.standardDepth body = some v →
          Json.ofBytes? Json.standardDepth body' = some v' →
          model.decode body' = model.decode body) := by
  have hread := Shape.read_of_edited model.separate h
  have hform : ∀ form, model = .envelope form →
      form.read v' = (form.read v).moved (Renaming.moveAll rs) := by
    rintro form rfl
    exact (congrArg (Except.map form.ofValues) hread).trans (Checked.moved_map _ _).symm
  refine ⟨hread, ?_, ?_, hform, ?_⟩
  · intro shown
    simp only [check, hread]
    cases Shape.read (.record model.fields) v <;> simp [Checked.moved]
  · intro flaws hflaws
    simp only [check] at hflaws
    simp only [check, hread]
    cases hv : Shape.read (.record model.fields) v with
    | ok values => simp [hv] at hflaws
    | error flaws' =>
        simp only [hv, fault, Except.error.injEq, Fault.invalidRecord.injEq, true_and] at hflaws
        rw [hflaws]
        rfl
  · rintro rfl
    have hmove : Renaming.moveAll [] = id := rfl
    rw [hmove, Checked.moved_id] at hread
    have hsame : model.check v' = model.check v := by simp only [check, hread]
    refine ⟨hread, hsame, ?_, ?_⟩
    · intro form hmodel
      rw [hform form hmodel, hmove, Checked.moved_id]
    · intro body body' hbody hbody'
      simp only [decode, hbody, hbody', hsame]

/-- A span with one producer; its own number has the given key. -/
def oneProducer (key : String) (producer : List (String × Json)) : List (String × Json) :=
  [(key, .int 7), ("selected_producers", .list [.record producer])]

/-- An answer with a span. -/
def spanAnswer (span : List (String × Json)) : Json :=
  .record [("result", .record span), ("height", .text "1")]

/-- A span within an answer. -/
theorem exchanged_span (span span' : List (String × Json)) :
    Exchanged span span' [.key "result"] (spanAnswer span) (spanAnswer span') :=
  .entry [] [("height", .text "1")] "result" (by decide) .here

/-- A producer within the span of an answer. -/
theorem exchanged_producer (key : String) (producer producer' : List (String × Json)) :
    Exchanged producer producer' [.key "result", .key "selected_producers", .index 0]
      (spanAnswer (oneProducer key producer)) (spanAnswer (oneProducer key producer')) :=
  .entry [] [("height", .text "1")] "result" (by decide) <|
    .entry [(key, .int 7)] [] "selected_producers" (by simp) <| .item [] [] .here

/-- A producer whose number is not one, under the key of the service or under the name. -/
def badProducer (key : String) (more : List (String × Json)) : List (String × Json) :=
  (key, .text "x") :: more ++ [("power", .int 5)]

/--
A bad producer is found under the key of the service, and in an answer with its keys in another
order, one more key, and the names for the keys of the service it is found under the name.
-/
theorem badProducer_flaws :
    let answer := Json.record
      [("height", .text "1"), ("result", .record (oneProducer "span_id" (badProducer "ID" [])))]
    let answer' := spanAnswer (oneProducer "id" (badProducer "id" [("extra", .null)]))
    (envelope .span).check answer = .error ((envelope .span).fault
        [⟨.unreadableInteger, [.key "result", .key "selected_producers", .index 0, .key "ID"]⟩]) ∧
      (envelope .span).check answer' = .error ((envelope .span).fault
        [⟨.unreadableInteger, [.key "result", .key "selected_producers",
        .index 0, .key "id"]⟩]) := by
  intro answer answer'
  have hedited : Edited (.record (envelope .span).fields)
      [⟨[.key "result"], "span_id", "id"⟩,
        ⟨[.key "result", .key "selected_producers", .index 0], "ID", "id"⟩] answer answer' := by
    refine .rearrange (.inl (.order (by decide) (.swap _ _ _) .here)) ?_
    refine .rename (.intro ⟨"span_id", "id", false⟩ [] _ (.int 7) rfl (by decide) rfl rfl
      (by decide) (by decide) (exchanged_span _ _)) ?_
    refine .rearrange (.inl (.unknown [("ID", .text "x")] [("power", .int 5)] "extra" .null rfl
      (by decide) (exchanged_producer "id" _ _))) ?_
    refine .rename (.intro ⟨"ID", "id", false⟩ [] _ (.text "x") rfl (by decide) rfl rfl
      (by decide) (by decide) (exchanged_producer "id" _ _)) ?_
    exact .done _
  have hbad : (envelope .span).check answer = .error ((envelope .span).fault
      [⟨.unreadableInteger, [.key "result", .key "selected_producers", .index 0,
      .key "ID"]⟩]) := rfl
  exact ⟨hbad, (reads_known_keys (.envelope .span) hedited).2.2.1 _ hbad⟩

end Model
end ChainPoll

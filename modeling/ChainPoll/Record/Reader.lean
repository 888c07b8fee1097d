import ChainPoll.Record.Integer
import ChainPoll.Record.Shape
import ChainPoll.Text.Blank

/-!
# Reading records

A JSON value is read against a shape.  All flaws are reported, in the order of the fields and of the
items of a list, each with its place.  Keys that no field has do not matter.

Main results:

- Theorem {lit}`both_eq_ok_iff`: two parts are read together exactly when each of them is read.
-/

namespace ChainPoll
namespace Record

/-- A value, or all flaws that were found instead. -/
abbrev Checked (α : Type) := Except (List Flaw) α

namespace Checked

/-- Two parts together, with the flaws of both. -/
def both {α β : Type} : Checked α → Checked β → Checked (α × β)
  | .ok a, .ok b => .ok (a, b)
  | .ok _, .error flaws => .error flaws
  | .error flaws, .ok _ => .error flaws
  | .error flaws, .error more => .error (flaws ++ more)

/-- A part of a value at a step inside. -/
def within {α : Type} (step : Step) : Checked α → Checked α
  | .ok a => .ok a
  | .error flaws => .error (flaws.map (Flaw.within step))

/-- The outcome of reading a part that has at most one flaw. -/
def single {α : Type} : Except Defect α → Checked α
  | .ok a => .ok a
  | .error defect => .error [Flaw.here defect]

end Checked

/-- Reads the items of a list, the first of which has the given index. -/
def readItems {α : Type} (read : Json → Checked α) : Nat → List Json → Checked (List α)
  | _, [] => .ok []
  | i, v :: rest =>
    match (read v).within (.index i) |>.both (readItems read (i + 1) rest) with
    | .ok (a, as) => .ok (a :: as)
    | .error flaws => .error flaws

/-- The key under which a field is found, and its value; the service's key goes before the name. -/
def FieldKey.find? (key : FieldKey) (entries : List (String × Json)) : Option (String × Json) :=
  match Json.field? entries key.wire with
  | some v => some (key.wire, v)
  | none => (Json.field? entries key.name).map fun v => (key.name, v)

/-- Reads a text. -/
def readText (trimmed : Bool) : Json → Checked String
  | .text s => .ok (if trimmed then Text.trim s else s)
  | _ => .error [Flaw.here .notText]

/-- Reads a list of items. -/
def readList {α : Type} (read : Json → Checked α) : Json → Checked (List α)
  | .list items => readItems read 0 items
  | _ => .error [Flaw.here .notList]

/-- Reads a part that may be null. -/
def readOptional {α : Type} (read : Json → Checked α) : Json → Checked (Option α)
  | .null => .ok none
  | v =>
    match read v with
    | .ok a => .ok (some a)
    | .error flaws => .error flaws

/-- Reads the fields of an object. -/
def readRecord {α : Type} (read : List (String × Json) → Checked α) : Json → Checked α
  | .record entries => read entries
  | _ => .error [Flaw.here .notRecord]

/-- Reads one field; where it is absent, its zero stands in for it unless it is required. -/
def readField {α : Type} (key : FieldKey) (zero : α) (read : Json → Checked α)
    (entries : List (String × Json)) : Checked α :=
  match key.find? entries with
  | some (found, v) => (read v).within (.key found)
  | none => if key.required then .error [⟨.absent, [.key key.wire]⟩] else .ok zero

mutual

/-- Reads a JSON value against a shape. -/
def Shape.read : (shape : Shape) → Json → Checked shape.Carrier
  | .text trimmed => readText trimmed
  | .integer => fun v => Checked.single (integerOfJson v)
  | .time => fun v => Checked.single (Timestamp.ofJson v)
  | .list item => readList item.read
  | .optional item => readOptional item.read
  | .record fields => readRecord fields.read

/-- Reads the fields of an object against those of a record. -/
def Fields.read : (fields : Fields) → List (String × Json) → Checked fields.Carrier
  | .nil, _ => .ok ()
  | .cons key shape rest, entries =>
    (readField key shape.zero shape.read entries).both (rest.read entries)

end

/-- Two parts are read together exactly when each of them is read. -/
theorem both_eq_ok_iff {α β : Type} {x : Checked α} {y : Checked β} {a : α} {b : β} :
    x.both y = .ok (a, b) ↔ x = .ok a ∧ y = .ok b := by
  cases x <;> cases y <;> simp [Checked.both]

end Record
end ChainPoll

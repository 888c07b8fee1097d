import ChainPoll.Fault

/-!
# What a client offers

A client has a fixed set of operations.  One that lacks some of them cannot be made; one that is
entered as a scope is closed when the scope is left, also by a fault.

Main results:

- Theorem {lit}`Interface.visit_ok_iff`: a client can be entered exactly if it lacks no operation.
-/

namespace ChainPoll
namespace Interface

/-- The operations of a client, in order of their names. -/
def operations : List String :=
  ["close", "fetch_checkpoint", "fetch_checkpoint_count", "fetch_milestone",
    "fetch_milestone_count",
    "span", "state_sync_events"]

/-- The operations that are not among those offered, in order of their names. -/
def missing (offered : List String) : List String :=
  operations.filter fun name => !offered.contains name

/-- What happened while a client was entered as a scope. -/
structure Visit where
  /-- The operations called on leaving the scope. -/
  calls : List String
  /-- The fault that left the scope. -/
  raised : Option Fault
deriving DecidableEq, Repr

/-- Enters a client with the operations offered, and leaves it, by a fault or without. -/
def visit (offered : List String) (inside : Option Fault) : Except Fault Visit :=
  match missing offered with
  | [] => .ok { calls := ["close"], raised := inside }
  | names => .error (.mistyped (.missingOperations names))

/-- A client can be entered exactly if it lacks no operation. -/
theorem visit_ok_iff (offered : List String) (inside : Option Fault) :
    (∃ v, visit offered inside = .ok v) ↔ ∀ name ∈ operations, name ∈ offered := by
  have hnil : missing offered = [] ↔ ∀ name ∈ operations, name ∈ offered := by
    simp [missing, List.filter_eq_nil_iff]
  rw [← hnil, visit]
  split <;> simp_all

end Interface
end ChainPoll

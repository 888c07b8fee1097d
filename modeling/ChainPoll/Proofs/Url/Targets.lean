import ChainPoll.Proofs.Url.Authorities
import ChainPoll.Proofs.Url.Escaping
import ChainPoll.Url.Target

/-!
# Targets read back

The path of a target is read by undoing its escapes, and its query by splitting it at ampersands and
each piece at its first equals sign.  On one origin, targets that are written alike are the same.

Main results:

- Theorem {lit}`pair?_pairText`: a key and a value are read back.
- Theorem {lit}`mapM_pair?_joinAll`: the pairs of a query are read back.
- Theorem {lit}`Target.eq_of_text`: the text of a target tells path and query.
-/

namespace ChainPoll
namespace Url

/-! ## Pairs -/

/-- The key and the value on both sides of the first equals sign. -/
def pair? (cs : List Char) : Option (String × String) := do
  let (key, value) := splitFirst '=' cs
  return (← unescape? true key, ← unescape? true (value.getD []))

/-- A key and a value as they stand in a query. -/
def pairText (pair : String × String) : List Char :=
  formEscape pair.1.toList ++ '=' :: formEscape pair.2.toList

/-- A key and a value are read back. -/
theorem pair?_pairText (pair : String × String) : pair? (pairText pair) = some pair := by
  have hequals : '=' ∉ formEscape pair.1.toList := fun hmem => (ne_of_mem_formEscape hmem).2.2 rfl
  simp [pair?, pairText, splitFirst_append _ hequals, unescape?_formEscape]

/-- A key and a value are not cut at an ampersand. -/
theorem and_notMem_pairText (pair : String × String) : '&' ∉ pairText pair := by
  have hescaped : ∀ {cs}, '&' ∉ formEscape cs := fun hmem => (ne_of_mem_formEscape hmem).2.1 rfl
  intro hmem
  rcases List.mem_append.mp hmem with hmem | hmem
  · exact hescaped hmem
  · exact hescaped ((List.mem_cons.mp hmem).resolve_left (by decide))

/-- The pairs of a query are read back. -/
theorem mapM_pair?_joinAll {pairs : List (String × String)} (hne : pairs ≠ []) :
    (splitAll '&' (joinAll '&' (pairs.map pairText))).mapM pair? = some pairs := by
  have hand : ∀ part ∈ pairs.map pairText, '&' ∉ part := by
    intro part hpart
    obtain ⟨pair, -, rfl⟩ := List.mem_map.mp hpart
    exact and_notMem_pairText pair
  rw [splitAll_joinAll hand, if_neg (by simpa using hne)]
  clear hne hand
  induction pairs with
  | nil => rfl
  | cons pair pairs ih => rw [List.map_cons, List.mapM_cons, pair?_pairText, ih]; rfl

/-- Only a query without pairs is empty. -/
theorem joinAll_pairText_eq_nil_iff {pairs : List (String × String)} :
    joinAll '&' (pairs.map pairText) = [] ↔ pairs = [] := by
  refine ⟨fun hnil => ?_, fun hnil => by rw [hnil]; rfl⟩
  by_contra hsome
  refine joinAll_ne_nil (by simpa using hsome) (fun part hpart => ?_) hnil
  obtain ⟨pair, -, rfl⟩ := List.mem_map.mp hpart
  simp [pairText]

namespace Target

/-! ## Reading a target -/

/-- The path of a target. -/
def path? (t : Target) : Option String :=
  unescape? false t.path

/-- The pairs of the query of a target; an empty query has none. -/
def pairs? (t : Target) : Option (List (String × String)) :=
  if t.query = [] then some [] else (splitAll '&' t.query).mapM pair?

/-- A target whose query is made of some pairs has those pairs. -/
theorem pairs?_of_query {t : Target} {pairs : List (String × String)}
    (h : t.query = joinAll '&' (pairs.map pairText)) : t.pairs? = some pairs := by
  rw [pairs?, h]
  split_ifs with hnil
  · rw [joinAll_pairText_eq_nil_iff.mp hnil]
  · exact mapM_pair?_joinAll fun hnone => hnil (by rw [hnone]; rfl)

/-- What follows the origin tells path and query. -/
theorem split_tail {t : Target} (h : '?' ∉ t.path) : splitFirst '?' t.tail =
    (t.path, if t.query = [] then none else some t.query) := by
  unfold tail
  split_ifs
  · rw [List.append_nil, splitFirst_of_notMem h]
  · rw [splitFirst_append _ h]

/-- On one origin, the text of a target tells path and query. -/
theorem eq_of_text {t t' : Target} {text : List Char} (horigin : t'.origin = t.origin)
    (h : '?' ∉ t.path) (h' : '?' ∉ t'.path) (htext : t.text = .ok text)
    (htext' : t'.text = .ok text) :
    t = t' := by
  cases hfront : t.origin.text with
  | error flaw =>
      rw [text_of_flaw hfront] at htext
      cases htext
  | ok front =>
      rw [text_of_origin hfront] at htext
      rw [text_of_origin (horigin ▸ hfront)] at htext'
      have htail : t.tail = t'.tail :=
        List.append_cancel_left (Except.ok.inj (htext.trans htext'.symm))
      have hsplit :=
        (split_tail h).symm.trans ((congrArg (splitFirst '?') htail).trans (split_tail h'))
      obtain ⟨hpath, hquery⟩ := Prod.mk.inj hsplit
      have hraw : t.query = t'.query := by
        split_ifs at hquery with hnil hnil'
        · exact hnil.trans hnil'.symm
        · exact Option.some.inj hquery
      exact Target.ext horigin.symm hpath hraw

end Target

end Url
end ChainPoll

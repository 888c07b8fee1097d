import ChainPoll.Url.Escape

/-!
# Paths of URLs

A path is a list of segments between slashes.  The segment `.` is dropped, and `..` takes the
segment before it away, where there is one.

Main results:

- Theorem {lit}`removeDots_of_plain`: segments without dot segments stay as they are.
-/

namespace ChainPoll
namespace Url

/-- Splits a text at every occurrence of a character. -/
def splitAll (sep : Char) : List Char → List (List Char)
  | [] => [[]]
  | c :: rest =>
    match splitAll sep rest with
    | [] => [[c]]
    | part :: parts => if c = sep then [] :: part :: parts else (c :: part) :: parts

/-- Joins texts with a character between them. -/
def joinAll (sep : Char) : List (List Char) → List Char
  | [] => []
  | [part] => part
  | part :: parts => part ++ sep :: joinAll sep parts

/-- Whether a segment is `.` or `..`. -/
def isDotSegment (segment : List Char) : Bool :=
  segment == ['.'] || segment == ['.', '.']

/-- What one segment does to the segments kept so far, the last of them first. -/
def keepSegment (kept : List (List Char)) (segment : List Char) : List (List Char) :=
  if segment = ['.', '.'] then kept.drop 1
  else if segment = ['.'] then kept
  else segment :: kept

/-- Resolves dot segments; one at the end leaves a slash there. -/
def removeDots (segments : List (List Char)) : List (List Char) :=
  let kept := (segments.foldl keepSegment []).reverse
  if segments.getLast?.any isDotSegment then kept ++ [[]] else kept

/-- The escaped, absolute path of a request for the given path text. -/
def requestPath (path : List Char) : List Char :=
  let escaped := escape isPathChar (path.dropWhile (· = '/'))
  '/' :: joinAll '/' (removeDots (splitAll '/' escaped))

/-- Splitting at a character and joining again restores the text. -/
theorem joinAll_splitAll (sep : Char) (cs : List Char) : joinAll sep (splitAll sep cs) = cs := by
  induction cs with
  | nil => rfl
  | cons c rest ih =>
    unfold splitAll
    split
    · next h => simp_all [joinAll]
    · next part parts h =>
      rw [h] at ih
      split
      · next hc =>
        subst hc
        rw [joinAll, ih]
        · rfl
        · simp
      · cases parts with
        | nil => simpa [joinAll] using ih
        | cons p ps => simpa [joinAll] using ih

/-- Segments without dot segments stay as they are. -/
theorem removeDots_of_plain {segments : List (List Char)}
    (h : ∀ s ∈ segments, isDotSegment s = false) : removeDots segments = segments := by
  have hfold : ∀ (kept : List (List Char)),
      segments.foldl keepSegment kept = segments.reverse ++ kept := by
    induction segments with
    | nil => intro kept; rfl
    | cons s rest ih =>
      intro kept
      have hs := h s (by simp)
      simp only [isDotSegment, Bool.or_eq_false_iff, beq_eq_false_iff_ne] at hs
      have hstep : keepSegment kept s = s :: kept := by simp [keepSegment, hs.1, hs.2]
      rw [List.foldl_cons, hstep, ih fun t ht => h t (by simp [ht])]
      simp
  have hlast : segments.getLast?.any isDotSegment = false := by
    cases hl : segments.getLast? with
    | none => rfl
    | some s => simpa using h s (List.mem_of_getLast? hl)
  simp [removeDots, hfold, hlast]

end Url
end ChainPoll

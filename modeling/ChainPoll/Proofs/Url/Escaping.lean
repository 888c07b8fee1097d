import ChainPoll.Proofs.Url.Hosts
import ChainPoll.Proofs.Url.Requoting

/-!
# Escaped texts read back

A text that was escaped, with or without plus signs for its spaces, is read back as that text.  What
it is escaped to holds no mark of a URL but those that stand for themselves, so it is not cut where
it is no end.

Main results:

- Theorem {lit}`unescape?_formEscape`: a query key or value is read back.
- Theorem {lit}`unescape?_escape`: a text is read back from its escaped form.
- Theorem {lit}`splitAll_escape`: escaping keeps the parts between slashes apart, and makes none.
-/

namespace ChainPoll
namespace Url

/-! ## Octets read back -/

variable {form : Bool} {safe : Char → Bool}

/-- A text is read off its octets. -/
theorem fromUTF8?_octets (cs : List Char) :
    String.fromUTF8? (ByteArray.mk (cs.flatMap String.utf8EncodeChar).toArray) =
      some (String.ofList cs) := by
  have hbytes : ByteArray.mk (cs.flatMap String.utf8EncodeChar).toArray = cs.utf8Encode :=
    ByteArray.ext (by simp [List.utf8Encode])
  rw [hbytes, String.fromUTF8?, dif_pos ⟨cs, rfl⟩]
  rfl

/-- Escaped octets are read back. -/
theorem octets?_escapes (form : Bool) (bs : List UInt8) (rest : List Char) :
    octets? form (bs.flatMap percent ++ rest) = (octets? form rest).map (bs ++ ·) := by
  induction bs with
  | nil => simp
  | cons b bs ih =>
      rw [List.flatMap_cons, List.append_assoc, octets?_percent, ih, Option.map_map]
      rfl

/-- A character that stands for itself is read as its octets. -/
theorem octets?_cons {c : Char} (hpercent : c ≠ '%') (hplus : form = true → c ≠ '+')
    (rest : List Char) :
    octets? form (c :: rest) = (octets? form rest).map (String.utf8EncodeChar c ++ ·) := by
  have hform : ¬ (form = true ∧ c = '+') := fun h => hplus h.1 h.2
  rw [octets?]
  · rw [if_neg hpercent, if_neg hform]
    cases octets? form rest <;> rfl
  · exact fun _ _ _ heq => absurd heq hpercent

/-- A text that is written character by character is read back if each character is. -/
theorem unescape?_flatMap {write : Char → List Char}
    (h : ∀ c rest, octets? form (write c ++ rest) =
      (octets? form rest).map (String.utf8EncodeChar c ++ ·)) (cs : List Char) :
    unescape? form (cs.flatMap write) = some (String.ofList cs) := by
  have hoctets : octets? form (cs.flatMap write) = some (cs.flatMap String.utf8EncodeChar) := by
    induction cs with
    | nil => rfl
    | cons c cs ih => rw [List.flatMap_cons, h, ih, List.flatMap_cons, Option.map_some]
  rw [unescape?, hoctets]
  exact fromUTF8?_octets cs

/-- A query key or value is read back. -/
theorem unescape?_formEscape (cs : List Char) :
    unescape? true (formEscape cs) = some (String.ofList cs) := by
  refine unescape?_flatMap (fun c rest => ?_) cs
  unfold formChar
  split_ifs with hspace hsafe
  · subst hspace
    rw [List.cons_append, List.nil_append, octets?]
    · cases octets? true rest <;> rfl
    · exact fun _ _ _ heq => absurd heq (by decide)
  · refine octets?_cons ?_ (fun _ => ?_) rest
    · rintro rfl
      exact absurd hsafe (by decide)
    · rintro rfl
      exact absurd hsafe (by decide)
  · exact octets?_escapes true _ rest

/-- A text is read back from its escaped form. -/
theorem unescape?_escape (hpercent : safe '%' = false) (cs : List Char) :
    unescape? false (escape safe cs) = some (String.ofList cs) := by
  refine unescape?_flatMap (fun c rest => ?_) cs
  split
  · next hsafe =>
    refine octets?_cons ?_ (fun hform => absurd hform Bool.false_ne_true) rest
    rintro rfl
    exact Bool.false_ne_true (hpercent.symm.trans hsafe)
  · exact octets?_escapes false _ rest

/-- Different texts are escaped to different ones. -/
theorem escape_injective (hpercent : safe '%' = false) {cs ds : List Char}
    (h : escape safe cs = escape safe ds) : cs = ds := by
  have hread := unescape?_escape hpercent cs
  rw [h, unescape?_escape hpercent ds] at hread
  exact (String.ofList_injective (Option.some.inj hread)).symm

/-! ## What escaped texts are made of -/

/-- An escape is made of percent signs and hexadecimal digits. -/
theorem mem_escapeChar {c d : Char} (h : d ∈ escapeChar c) :
    d = '%' ∨ ∃ n < 16, d = upperHex n := by
  obtain ⟨b, -, hd⟩ := List.mem_flatMap.mp h
  have hb : b.toNat < 256 := b.toNat_lt
  simp only [percent, List.mem_cons, List.not_mem_nil, or_false] at hd
  rcases hd with rfl | rfl | rfl
  · exact .inl rfl
  · exact .inr ⟨_, by omega, rfl⟩
  · exact .inr ⟨_, by omega, rfl⟩

/--
A slash, a question mark, a number sign, an ampersand and an equals sign are no part of an escape.
-/
theorem ne_of_mem_escapeChar {c d : Char} (h : d ∈ escapeChar c) :
    d ≠ '/' ∧ d ≠ '?' ∧ d ≠ '#' ∧ d ≠ '&' ∧ d ≠ '=' := by
  rcases mem_escapeChar h with rfl | ⟨n, hn, rfl⟩
  · decide
  · have hall : ∀ k : Fin 16, upperHex k.val ≠ '/' ∧ upperHex k.val ≠ '?' ∧ upperHex k.val ≠ '#' ∧
        upperHex k.val ≠ '&' ∧ upperHex k.val ≠ '=' := by decide
    exact hall ⟨n, hn⟩

/-- A query key or value holds no mark that would end it. -/
theorem ne_of_mem_formEscape {cs : List Char} {d : Char} (h : d ∈ formEscape cs) :
    d ≠ '#' ∧ d ≠ '&' ∧ d ≠ '=' := by
  obtain ⟨c, -, hd⟩ := List.mem_flatMap.mp h
  unfold formChar at hd
  split_ifs at hd with hspace hsafe
  · rw [List.mem_singleton.mp hd]
    decide
  · obtain rfl := List.mem_singleton.mp hd
    refine ⟨?_, ?_, ?_⟩ <;> rintro rfl <;> exact absurd hsafe (by decide)
  · obtain ⟨-, -, hnumber, hand, hequals⟩ := ne_of_mem_escapeChar hd
    exact ⟨hnumber, hand, hequals⟩

/-- An escaped path holds no mark that would end it. -/
theorem ne_of_mem_escape_path {cs : List Char} {d : Char} (h : d ∈ escape isPathChar cs) :
    d ≠ '?' ∧ d ≠ '#' := by
  obtain ⟨c, -, hd⟩ := List.mem_flatMap.mp h
  split at hd
  · next hsafe =>
    obtain rfl := List.mem_singleton.mp hd
    refine ⟨?_, ?_⟩ <;> rintro rfl <;> exact absurd hsafe (by decide)
  · obtain ⟨-, hquestion, hnumber, -, -⟩ := ne_of_mem_escapeChar hd
    exact ⟨hquestion, hnumber⟩

/-! ## Parts of escaped paths -/

/-- The parts between separators hold none. -/
theorem notMem_of_mem_splitAll {sep : Char} {cs part : List Char} (h : part ∈ splitAll sep cs) :
    sep ∉ part := by
  induction cs generalizing part with
  | nil => simp_all [splitAll]
  | cons c cs ih =>
      rw [splitAll] at h
      split at h
      · next hnone => exact absurd hnone (splitAll_ne_nil sep cs)
      · next first parts hsplit =>
        have hrest : ∀ q ∈ first :: parts, sep ∉ q := fun q hq => ih (hsplit ▸ hq)
        split at h
        · rcases List.mem_cons.mp h with rfl | h
          · exact List.not_mem_nil
          · exact hrest part h
        · next hne =>
          rcases List.mem_cons.mp h with rfl | h
          · exact fun hmem => (List.mem_cons.mp hmem).elim (fun heq => hne heq.symm)
              (hrest first (by simp))
          · exact hrest part (by simp [h])

/-- Joined texts are escaped one by one, where the separator stands for itself. -/
theorem escape_joinAll {sep : Char} (hsep : safe sep = true) (parts : List (List Char)) :
    escape safe (joinAll sep parts) = joinAll sep (parts.map (escape safe)) := by
  induction parts with
  | nil => rfl
  | cons part parts ih =>
      cases parts with
      | nil => rfl
      | cons next parts =>
          have hjoin : ∀ first q qs, joinAll sep (first :: q :: qs) =
            first ++ sep :: joinAll sep (q :: qs) :=
            fun first q qs => joinAll.eq_3 sep first (q :: qs) (by simp)
          rw [hjoin, List.map_cons, List.map_cons, hjoin, ← List.map_cons, ← ih, escape,
            List.flatMap_append,
            List.flatMap_cons, if_pos hsep]
          rfl

/-- Escaping a path keeps the parts between slashes apart, and makes none. -/
theorem splitAll_escape (cs : List Char) :
    splitAll '/' (escape isPathChar cs) = (splitAll '/' cs).map (escape isPathChar) := by
  have hparts : ∀ part ∈ (splitAll '/' cs).map (escape isPathChar), '/' ∉ part := by
    intro part hpart hmem
    obtain ⟨raw, hraw, rfl⟩ := List.mem_map.mp hpart
    obtain ⟨c, hc, hd⟩ := List.mem_flatMap.mp hmem
    split at hd
    · rw [← List.mem_singleton.mp hd] at hc
      exact notMem_of_mem_splitAll hraw hc
    · exact (ne_of_mem_escapeChar hd).1 rfl
  have hne : (splitAll '/' cs).map (escape isPathChar) ≠ [] := by simp [splitAll_ne_nil]
  calc splitAll '/' (escape isPathChar cs)
      = splitAll '/' (escape isPathChar (joinAll '/' (splitAll '/' cs))) := by rw [joinAll_splitAll]
    _ = splitAll '/' (joinAll '/' ((splitAll '/' cs).map (escape isPathChar))) := by
        rw [escape_joinAll (by decide)]
    _ = (splitAll '/' cs).map (escape isPathChar) := by rw [splitAll_joinAll hparts, if_neg hne]

/-- Escaping a part of a path makes no dot segment of it. -/
theorem isDotSegment_escape (segment : List Char) :
    isDotSegment (escape isPathChar segment) = isDotSegment segment := by
  have hpercent : isPathChar '%' = false := by decide
  have hone : escape isPathChar ['.'] = ['.'] := by decide
  have htwo : escape isPathChar ['.', '.'] = ['.', '.'] := by decide
  have hiff : ∀ dots, escape isPathChar dots = dots →
      (escape isPathChar segment = dots ↔ segment = dots) := fun dots hdots =>
    ⟨fun h => escape_injective hpercent (h.trans hdots.symm), fun h => h ▸ hdots⟩
  rw [Bool.eq_iff_iff]
  simp only [isDotSegment, Bool.or_eq_true, beq_iff_eq, hiff _ hone, hiff _ htwo]

/-! ## Paths of requests -/

/-- The parts of a path behind its leading slashes are parts of it. -/
theorem mem_splitAll_of_dropWhile {path segment : List Char}
    (h : segment ∈ splitAll '/' (path.dropWhile (· = '/'))) : segment ∈ splitAll '/' path := by
  induction path with
  | nil => exact h
  | cons c path ih =>
      by_cases hc : c = '/'
      · subst hc
        rw [List.dropWhile_cons_of_pos (by simp)] at h
        have hsplit := splitAll_append '/' [] path
        rw [List.nil_append] at hsplit
        rw [hsplit]
        exact List.mem_append_right _ (ih h)
      · rwa [List.dropWhile_cons_of_neg (by simpa using hc)] at h

/-- Resolving dot segments leaves segments that were there, and at most an empty one at the end. -/
theorem mem_removeDots {segments : List (List Char)} {s : List Char} (h : s ∈ removeDots segments) :
    s ∈ segments ∨ s = [] := by
  have hfold : ∀ kept, ∀ t ∈ segments.foldl keepSegment kept, t ∈ segments ∨ t ∈ kept := by
    clear h
    induction segments with
    | nil => exact fun kept t ht => .inr ht
    | cons segment segments ih =>
        intro kept t ht
        have hstep : keepSegment kept segment ⊆ segment :: kept := by
          unfold keepSegment
          split_ifs
          · exact List.subset_cons_of_subset _ (List.drop_subset _ _)
          · exact List.subset_cons_self _ _
          · exact List.Subset.refl _
        rcases ih _ t ht with hmem | hmem
        · exact .inl (List.mem_cons_of_mem _ hmem)
        · rcases List.mem_cons.mp (hstep hmem) with rfl | hmem
          · exact .inl (by simp)
          · exact .inr hmem
  have hkept : s ∈ (segments.foldl keepSegment []).reverse → s ∈ segments := fun hmem =>
    (hfold [] s (List.mem_reverse.mp hmem)).resolve_right List.not_mem_nil
  simp only [removeDots] at h
  split at h
  · rcases List.mem_append.mp h with h | h
    · exact .inl (hkept h)
    · exact .inr (List.mem_singleton.mp h)
  · exact .inl (hkept h)

/-- The path of a request holds no mark that would end it. -/
theorem ne_of_mem_requestPath {path : List Char} {d : Char} (h : d ∈ requestPath path) :
    d ≠ '?' ∧ d ≠ '#' := by
  rcases List.mem_cons.mp h with rfl | h
  · decide
  · rcases mem_joinAll h with rfl | ⟨s, hs, hd⟩
    · decide
    · rcases mem_removeDots hs with hs | rfl
      · exact ne_of_mem_escape_path (mem_of_mem_splitAll hs hd)
      · simp at hd

/-- A path without dot segments is escaped as it is, behind a single slash. -/
theorem requestPath_of_plain {path : List Char}
    (h : ∀ s ∈ splitAll '/' path, isDotSegment s = false) :
    requestPath path = escape isPathChar ('/' :: path.dropWhile (· = '/')) := by
  have hplain : ∀ s ∈ splitAll '/' (escape isPathChar (path.dropWhile (· = '/'))),
      isDotSegment s = false := by
    intro s hs
    rw [splitAll_escape] at hs
    obtain ⟨raw, hraw, rfl⟩ := List.mem_map.mp hs
    rw [isDotSegment_escape]
    exact h raw (mem_splitAll_of_dropWhile hraw)
  simp only [requestPath, removeDots_of_plain hplain, joinAll_splitAll]
  rfl

end Url
end ChainPoll

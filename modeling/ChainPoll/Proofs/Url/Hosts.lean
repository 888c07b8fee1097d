import ChainPoll.Proofs.Url.Addresses
import ChainPoll.Url.Origin

/-!
# Hosts that are settled

The canonical form of a host is a version 6 address in brackets, a version 4 address, or a name in
ASCII. What is read back of the canonical form is a host with the same canonical form, if the host
is an address, or if the codec gives its name in lower case and without colons and brackets.

Main results:

- Theorem {lit}`plainHost_of_ascii`: hosts in ASCII without colons and brackets are plain.
- Theorem {lit}`canonicalHost_of_isHostChar`: a name in lower case is its own canonical form.
- Theorem {lit}`exists_settledHost`: the canonical form of a plain host is that of a settled one.
-/

namespace ChainPoll
namespace Url

/-! ## Characters -/

/-- Whether a character may stand in an authority that is read off a base address. -/
def isBare (c : Char) : Bool :=
  !endsAuthority c && !isDroppedEverywhere c && !disguises.contains c.toNat

/-- The characters that separate a host from what is around it. -/
def isHostMark (c : Char) : Bool :=
  c == ':' || c == '[' || c == ']'

/-- Whether a character may stand in a host that is a name. -/
def isNameChar (c : Char) : Bool :=
  isBare c && c != '@' && !isHostMark c

/-- Whether a character may stand in a name that was encoded, and is in lower case. -/
def isHostChar (c : Char) : Bool :=
  decide (c.toNat < 128) && c.toLower == c && isNameChar c

/-- What a character of an encoded name is like. -/
theorem isHostChar_iff {c : Char} :
    isHostChar c = true ↔ c.toNat < 128 ∧ c.toLower = c ∧ isNameChar c = true := by
  simp [isHostChar, and_assoc]

/-- What a character of a name is like. -/
theorem isNameChar_iff {c : Char} :
    isNameChar c = true ↔ isBare c = true ∧ c ≠ '@' ∧ isHostMark c = false := by
  simp [isNameChar, and_assoc]

/-- A character that is no mark is neither a colon nor a bracket. -/
theorem ne_of_isHostMark {c : Char} (h : isHostMark c = false) : c ≠ ':' ∧ c ≠ '[' ∧ c ≠ ']' := by
  simp only [isHostMark, Bool.or_eq_false_iff, beq_eq_false_iff_ne] at h
  exact ⟨h.1.1, h.1.2, h.2⟩

/-- A character below 128 is one of the first 128. -/
theorem exists_fin_of_lt {n : ℕ} {c : Char} (h : c.toNat < n) : ∃ k : Fin n, c = Char.ofNat k.val :=
  ⟨⟨c.toNat, h⟩, by simp⟩

/-- The lower-case form of an ASCII character of a name may stand in an encoded one. -/
theorem isHostChar_toLower {c : Char} (hascii : c.toNat < 128) (hname : isNameChar c = true) :
    isHostChar c.toLower = true := by
  obtain ⟨k, rfl⟩ := exists_fin_of_lt hascii
  have hall : ∀ k : Fin 128, isNameChar (Char.ofNat k.val) = true →
      isHostChar (Char.ofNat k.val).toLower = true := by decide
  exact hall k hname

/--
The digits of groups may stand in an encoded name, and none of them is the mark of a future address.
-/
theorem isHostChar_digitChar {d : ℕ} (h : d < 16) :
    isHostChar (Nat.digitChar d) = true ∧ Nat.digitChar d ≠ 'v' := by
  have hall : ∀ k : Fin 16, isHostChar (Nat.digitChar k.val) = true ∧
      Nat.digitChar k.val ≠ 'v' := by
    decide
  exact hall ⟨d, h⟩

/-! ## Plain hosts -/

section Plain

variable [HostCodec] {host : List Char}

/--
A host that is an address, or a name that is encoded in lower case without colons and brackets.
-/
inductive PlainHost (host : List Char) : Prop where
  /-- An address of version 6, with or without a zone. -/
  | version6 {groups : List ℕ} (haddress : address6? (splitZone host).1 = some groups)
  /-- An address of version 4, whose zone, if it has one, holds no marks. -/
  | version4 (haddress : numericHost? host = some host) (hmarks : ∀ c ∈ host, isHostMark c = false)
  /-- A name. -/
  | name {text : List Char} (hnumeric : numericHost? host = none)
      (htext : encodeHost host = .ok text)
      (hne : text ≠ []) (hchars : ∀ c ∈ text, isHostChar c = true)

/-- A host in ASCII without colons and brackets is plain, whatever the codec. -/
theorem plainHost_of_ascii (hne : host ≠ [])
    (h : ∀ c ∈ host, c.toNat < 128 ∧ isNameChar c = true) : PlainHost host := by
  cases hnumeric : numericHost? host with
  | some text =>
      rcases numericHost?_cases hnumeric with rfl | ⟨groups, hread⟩
      · exact .version4 hnumeric fun c hc => (isNameChar_iff.mp (h c hc).2).2.2
      · exact .version6 hread
  | none =>
      refine .name hnumeric (encodeHost_of_ascii fun c hc => (h c hc).1) (by simpa using hne) ?_
      intro c hc
      obtain ⟨d, hd, rfl⟩ := List.mem_map.mp hc
      exact isHostChar_toLower (h d hd).1 (h d hd).2

/-- A host of characters that stay as they are is encoded as it is. -/
theorem encodeHost_of_isHostChar (h : ∀ c ∈ host, isHostChar c = true) :
    encodeHost host = .ok host := by
  rw [encodeHost_of_ascii fun c hc => (isHostChar_iff.mp (h c hc)).1]
  congr 1
  exact (List.map_congr_left fun c hc => (isHostChar_iff.mp (h c hc)).2.1).trans (List.map_id host)

/-- A name in lower case is its own canonical form. -/
theorem canonicalHost_of_isHostChar (h : ∀ c ∈ host, isHostChar c = true) :
    canonicalHost host = .ok host := by
  rw [canonicalHost]
  cases hnumeric : numericHost? host with
  | none => exact encodeHost_of_isHostChar h
  | some text =>
      rcases numericHost?_cases hnumeric with rfl | ⟨groups, hread⟩
      · rfl
      · have hmem : ':' ∈ (splitZone host).1 ++ (splitZone host).2 :=
          List.mem_append_left _ (colon_mem_of_address6? hread)
        rw [splitZone_append] at hmem
        exact absurd (h _ hmem) (by decide)

/-! ## Settled hosts -/

/-- A host that is the canonical form of itself, as far as brackets are no part of it. -/
structure SettledHost (host : List Char) : Prop where
  ne_nil : host ≠ []
  canonical : canonicalHost host = .ok (bracketed host)
  bare : ∀ c ∈ host, isBare c = true ∧ c ≠ '@' ∧ c ≠ ']'
  bracket : '[' ∈ host → ':' ∈ host
  head : ':' ∈ host → host.head? ≠ some 'v'

/--
The characters of a settled host with its brackets may stand in an authority, behind a user name.
-/
theorem SettledHost.mem_bracketed (h : SettledHost host) {c : Char} (hc : c ∈ bracketed host) :
    isBare c = true ∧ c ≠ '@' := by
  have hhost : c ∈ host → isBare c = true ∧ c ≠ '@' :=
    fun hmem => ⟨(h.bare c hmem).1, (h.bare c hmem).2.1⟩
  unfold bracketed at hc
  split at hc
  · simp only [List.cons_append, List.mem_cons, List.mem_append, List.not_mem_nil, or_false] at hc
    rcases hc with rfl | hc | rfl
    · decide
    · exact hhost hc
    · decide
  · exact hhost hc

/-- A version 6 address with a zone is settled. -/
theorem settledHost_address {groups : List ℕ} {zone : List Char} (h : IsAddress groups)
    (hhead : ∀ c ∈ zone.head?, c = '%') (hzone : ∀ c ∈ zone, isBare c = true ∧ c ≠ '@' ∧ c ≠ ']') :
    SettledHost (address6Text groups ++ zone) := by
  have hcolon : ':' ∈ address6Text groups ++ zone :=
    List.mem_append_left _ (colon_mem_address6Text h)
  have hread : address6? (splitZone (address6Text groups ++ zone)).1 = some groups := by
    rw [splitZone_address6Text hhead]
    exact address6?_address6Text h
  have hnonempty : address6Text groups ≠ [] := List.ne_nil_of_mem (colon_mem_address6Text h)
  refine ⟨List.ne_nil_of_mem hcolon, ?_, ?_, fun _ => hcolon, fun _ => ?_⟩
  · rw [canonicalHost, numericHost?_of_address6? hread, splitZone_address6Text hhead, bracketed,
      if_pos hcolon]
    simp
  · intro c hc
    rcases List.mem_append.mp hc with hc | hc
    · rcases mem_address6Text hc with rfl | ⟨d, hd, rfl⟩
      · decide
      · obtain ⟨-, -, hname⟩ := isHostChar_iff.mp (isHostChar_digitChar hd).1
        obtain ⟨hbare, hat, hmark⟩ := isNameChar_iff.mp hname
        exact ⟨hbare, hat, (ne_of_isHostMark hmark).2.2⟩
    · exact hzone c hc
  · rw [List.head?_append, List.head?_eq_some_head hnonempty, Option.some_or]
    intro hv
    have hmem : 'v' ∈ address6Text groups := Option.some.inj hv ▸ List.head_mem hnonempty
    rcases mem_address6Text hmem with hcolon | ⟨d, hd, hdigit⟩
    · exact absurd hcolon (by decide)
    · exact (isHostChar_digitChar hd).2 hdigit.symm

/-- A name that is its own canonical form is settled, and stands without brackets. -/
theorem settledHost_name (hne : host ≠ []) (hname : ∀ c ∈ host, isNameChar c = true)
    (h : canonicalHost host = .ok host) : SettledHost host ∧ host = bracketed host := by
  have hchar : ∀ c ∈ host, isBare c = true ∧ c ≠ '@' ∧ c ≠ ':' ∧ c ≠ '[' ∧ c ≠ ']' := by
    intro c hc
    obtain ⟨hbare, hat, hmark⟩ := isNameChar_iff.mp (hname c hc)
    exact ⟨hbare, hat, ne_of_isHostMark hmark⟩
  have hcolon : ':' ∉ host := fun hmem => (hchar _ hmem).2.2.1 rfl
  have hself : host = bracketed host := by rw [bracketed, if_neg hcolon]
  refine ⟨⟨hne, hself ▸ h, fun c hc => ?_, fun hmem => ?_, fun hmem => absurd hmem hcolon⟩, hself⟩
  · obtain ⟨hbare, hat, -, -, hclosing⟩ := hchar c hc
    exact ⟨hbare, hat, hclosing⟩
  · exact absurd rfl (hchar _ hmem).2.2.2.1

/-- The canonical form of a plain host is that of a settled one. -/
theorem exists_settledHost {raw text : List Char} (hne : raw ≠ [])
    (hbare : ∀ c ∈ raw, isBare c = true ∧ c ≠ '@') (hclosing : ':' ∈ raw → ']' ∉ raw)
    (hplain : PlainHost raw) (htext : canonicalHost raw = .ok text) :
    ∃ host, SettledHost host ∧ text = bracketed host := by
  cases hplain with
  | @version6 groups haddress =>
      have hcolon : ':' ∈ raw := by
        rw [← splitZone_append raw]
        exact List.mem_append_left _ (colon_mem_of_address6? haddress)
      have hzone : ∀ c ∈ (splitZone raw).2, isBare c = true ∧ c ≠ '@' ∧ c ≠ ']' := by
        intro c hc
        have hmem : c ∈ raw := by
          rw [← splitZone_append raw]
          exact List.mem_append_right _ hc
        exact ⟨(hbare c hmem).1, (hbare c hmem).2, fun heq => hclosing hcolon (heq ▸ hmem)⟩
      have hgroups := isAddress_of_address6? haddress
      have hmem : ':' ∈ address6Text groups ++ (splitZone raw).2 :=
        List.mem_append_left _ (colon_mem_address6Text hgroups)
      refine ⟨_, settledHost_address hgroups (head_splitZone raw) hzone, ?_⟩
      rw [canonicalHost, numericHost?_of_address6? haddress] at htext
      rw [← Except.ok.inj htext, bracketed, if_pos hmem]
      simp
  | version4 haddress hmarks =>
      have hsame : canonicalHost raw = .ok raw := by rw [canonicalHost, haddress]
      obtain rfl : raw = text := Except.ok.inj (hsame.symm.trans htext)
      exact ⟨raw, settledHost_name hne
        (fun c hc => isNameChar_iff.mpr ⟨(hbare c hc).1, (hbare c hc).2, hmarks c hc⟩) hsame⟩
  | @name encoded hnumeric hencoded hsome hchars =>
      rw [canonicalHost, hnumeric] at htext
      obtain rfl : encoded = text := Except.ok.inj (hencoded.symm.trans htext)
      exact ⟨encoded, settledHost_name hsome (fun c hc => (isHostChar_iff.mp (hchars c hc)).2.2)
        (canonicalHost_of_isHostChar hchars)⟩

end Plain

end Url
end ChainPoll

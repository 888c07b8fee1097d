import ChainPoll.Proofs.Url.Authorities

/-!
# Origins read back

The origin of a base address is read off its scheme and its authority, whatever follows them.  If
the host is plain, then the text of the origin is a base address itself, and its origin has that
text.

Main results:

- Theorem {lit}`Origin.ofText?_eq_ok_iff`: what the origin of a base address is read off.
- Theorem {lit}`front_of_parts`: scheme and authority do not depend on what follows them.
- Theorem {lit}`hasPlainHost_of_ascii`: which base addresses have plain hosts whatever the codec.
- Theorem {lit}`Origin.exists_text`: the origin of a plain host is written, and read off a text that
  begins like that.
-/

namespace ChainPoll
namespace Url

/-! ## What an origin is read off -/

/-- The scheme and the authority of a base address, as far as it has them. -/
def front (base : String) : String × List Char :=
  let cs := (base.toList.dropWhile isLeadingJunk).filter fun c => !isDroppedEverywhere c
  ((takeScheme cs).1, takeAuthority (takeScheme cs).2)

/-- An authority that is not empty is canonical as it is without regard to schemes without hosts. -/
theorem canonicalAuthority_eq_ok_iff [HostCodec] {scheme : String} {authority canonical : List Char}
    (hne : canonical ≠ []) :
    canonicalAuthority scheme authority = .ok canonical ↔
      Authority.canonical scheme authority = .ok canonical := by
  unfold canonicalAuthority
  split
  · next s hmissing =>
    rw [hmissing]
    refine ⟨fun h => ?_, fun h => by cases h⟩
    split at h
    · cases h
    · exact absurd (Except.ok.inj h).symm hne
  · rfl

/-- The origin of a base address is read off its scheme and its authority. -/
theorem Origin.ofText?_eq_ok_iff [HostCodec] {base : String} {origin : Origin} :
    Origin.ofText? base = .ok origin ↔
      checkBrackets (front base).2 = .ok () ∧ checkDisguises (front base).2 = .ok () ∧
      (front base).2 ≠ [] ∧
      Authority.canonical (front base).1 (front base).2 = .ok origin.authority ∧
      Scheme.ofName? (front base).1 = some origin.scheme := by
  rw [← canonicalAuthority_eq_ok_iff origin.authority_ne_nil]
  simp only [Origin.ofText?, front, bind, Except.bind, pure, Except.pure, throw, throwThe,
    MonadExceptOf.throw]
  generalize takeScheme
    ((base.toList.dropWhile isLeadingJunk).filter fun c => !isDroppedEverywhere c) = parts
  obtain ⟨scheme, rest⟩ := parts
  simp only
  generalize takeAuthority rest = authority
  cases hbrackets : checkBrackets authority with
  | error flaw => simp
  | ok checked =>
      cases hdisguises : checkDisguises authority with
      | error flaw => simp
      | ok checked' =>
          by_cases hauthority : authority = []
          · simp [hauthority]
          · cases hcanonical : canonicalAuthority scheme authority with
            | error flaw => simp [hauthority]
            | ok canonical =>
                cases hscheme : Scheme.ofName? scheme with
                | none => simp [hauthority]
                | some known =>
                    by_cases hempty : canonical = []
                    · have hnot : ¬ [] = origin.authority := fun h => origin.authority_ne_nil h.symm
                      simp [hauthority, hempty, hnot]
                    · obtain ⟨scheme', authority', hne⟩ := origin
                      simp [hauthority, hempty, and_comm]

/-- Base addresses with the same scheme and authority have the same origin. -/
theorem Origin.ofText?_of_front [HostCodec] {base base' : String} {origin : Origin}
    (hfront : front base' = front base) (h : Origin.ofText? base = .ok origin) :
    Origin.ofText? base' = .ok origin := by
  rw [Origin.ofText?_eq_ok_iff] at h ⊢
  rwa [hfront]

/-- No character of a scheme is dropped. -/
theorem kept_of_isSchemeChar {c : Char} (h : isSchemeChar c = true) :
    isLeadingJunk c = false ∧ isDroppedEverywhere c = false := by
  have hvisible : ¬ c.toNat < 33 := by
    intro hlt
    obtain ⟨k, rfl⟩ := exists_fin_of_lt hlt
    have hall : ∀ k : Fin 33, isSchemeChar (Char.ofNat k.val) = false := by decide
    rw [hall k] at h
    exact Bool.false_ne_true h
  have hother : ∀ d : Char, d.toNat < 33 → c ≠ d := by
    rintro d hd rfl
    exact hvisible hd
  refine ⟨?_, ?_⟩
  · simp only [isLeadingJunk, decide_eq_false_iff_not]
    omega
  · simp only [isDroppedEverywhere, Bool.or_eq_false_iff, beq_eq_false_iff_ne]
    exact ⟨⟨hother _ (by decide), hother _ (by decide)⟩, hother _ (by decide)⟩

/-- A character that ends an authority is not dropped. -/
theorem kept_of_endsAuthority {c : Char} (h : endsAuthority c = true) :
    isDroppedEverywhere c = false := by
  simp only [endsAuthority, Bool.or_eq_true, beq_iff_eq] at h
  rcases h with (rfl | rfl) | rfl <;> decide

/--
Scheme and authority of an address that is given by its parts do not depend on what follows them.
-/
theorem front_of_parts {c : Char} {name authority tail : List Char} (hc : c.isAlpha = true)
    (hname : ∀ d ∈ name, isSchemeChar d = true)
    (hauthority : ∀ d ∈ authority, endsAuthority d = false)
    (htail : ∀ d ∈ tail.head?, endsAuthority d = true) :
    front (String.ofList (c :: name ++ ':' :: '/' :: '/' :: (authority ++ tail))) =
      (String.ofList ((c :: name).map Char.toLower),
        authority.filter fun d => !isDroppedEverywhere d) := by
  have halpha : isSchemeChar c = true := by simp [isSchemeChar, Char.isAlphanum, hc]
  have hall : ∀ d ∈ c :: name, isSchemeChar d = true := by
    intro d hd
    rcases List.mem_cons.mp hd with rfl | hd
    · exact halpha
    · exact hname d hd
  have hjunk : isLeadingJunk c = false := (kept_of_isSchemeChar halpha).1
  have hkept : ∀ d ∈ c :: name, (!isDroppedEverywhere d) = true := fun d hd => by
    rw [(kept_of_isSchemeChar (hall d hd)).2]
    rfl
  have hcolon : ':' ∉ c :: name := fun hmem => absurd (hall _ hmem) (by decide)
  have htail' : (tail.filter fun d => !isDroppedEverywhere d).takeWhile
      (fun d => !endsAuthority d) = [] := by
    cases tail with
    | nil => rfl
    | cons d tail =>
        have hends : endsAuthority d = true := htail d rfl
        simp [kept_of_endsAuthority hends, hends]
  have hclean :
      (((c :: name ++ ':' :: '/' :: '/' :: (authority ++ tail)).dropWhile isLeadingJunk).filter
        fun d => !isDroppedEverywhere d) = c :: name ++ ':' :: '/' :: '/' ::
          ((authority.filter fun d => !isDroppedEverywhere d) ++
            tail.filter fun d => !isDroppedEverywhere d) := by
    rw [List.cons_append, List.dropWhile_cons_of_neg (by simp [hjunk]), ← List.cons_append,
      List.filter_append, List.filter_eq_self.mpr hkept]
    simp [isDroppedEverywhere]
  have hscheme : takeScheme (c :: name ++ ':' :: '/' :: '/' ::
        ((authority.filter fun d => !isDroppedEverywhere d) ++
          tail.filter fun d => !isDroppedEverywhere d)) =
      (String.ofList ((c :: name).map Char.toLower),
        '/' :: '/' :: ((authority.filter fun d => !isDroppedEverywhere d) ++
          tail.filter fun d => !isDroppedEverywhere d)) := by
    have hvalid : (c.isAlpha && name.all isSchemeChar) = true := by
      rw [hc, List.all_eq_true.mpr hname]
      rfl
    rw [takeScheme, splitFirst_append _ hcolon]
    simp only [hvalid, if_true]
  have hfiltered : ∀ d ∈ authority.filter fun d => !isDroppedEverywhere d,
    (!endsAuthority d) = true :=
    fun d hd => by simp [hauthority d (List.mem_of_mem_filter hd)]
  rw [front, String.toList_ofList]
  simp only [hclean, hscheme, takeAuthority]
  rw [List.takeWhile_append_of_pos hfiltered, htail', List.append_nil]

/-! ## Characters of an authority -/

/-- The characters of an authority are some of the text that it is taken off, and do not end it. -/
theorem mem_takeAuthority {cs : List Char} {c : Char} (h : c ∈ takeAuthority cs) :
    c ∈ cs ∧ endsAuthority c = false := by
  unfold takeAuthority at h
  split at h
  · next rest =>
    have hmem : c ∈ rest := List.takeWhile_subset _ h
    have hopen := List.all_eq_true.mp List.all_takeWhile c h
    exact ⟨List.mem_cons_of_mem _ (List.mem_cons_of_mem _ hmem), by simpa using hopen⟩
  · simp at h

/-- What follows a scheme is part of the text that the scheme is taken off. -/
theorem takeScheme_subset (cs : List Char) : (takeScheme cs).2 ⊆ cs := by
  rcases splitFirst_cases ':' cs with ⟨-, hsplit⟩ | ⟨name, rest, rfl, -, hsplit⟩
  · rw [takeScheme, hsplit]
    cases cs <;> exact List.Subset.refl _
  · rw [takeScheme, hsplit]
    have hrest : rest ⊆ name ++ ':' :: rest := fun c hc =>
      List.mem_append_right _ (List.mem_cons_of_mem _ hc)
    cases name with
    | nil => exact List.Subset.refl _
    | cons c name =>
        simp only
        split
        · exact hrest
        · exact List.Subset.refl _

/-- An authority without disguised separators is made of characters that may stand there. -/
theorem isBare_of_mem_front {base : String} (h : checkDisguises (front base).2 = .ok ()) :
    ∀ c ∈ (front base).2, isBare c = true := by
  intro c hc
  obtain ⟨hmem, hopen⟩ := mem_takeAuthority hc
  have hkept := List.of_mem_filter (takeScheme_subset _ hmem)
  have hplain : disguises.contains c.toNat = false := by
    unfold checkDisguises at h
    split at h
    · cases h
    · next hnone =>
      rw [Bool.not_eq_true, List.any_eq_false] at hnone
      simpa using hnone c hc
  simp only [isBare, hopen, hplain, Bool.and_eq_true]
  exact ⟨⟨rfl, hkept⟩, rfl⟩

/-! ## Addresses by their parts -/

/-- The text of an origin and what may follow it in a base address. -/
def Scheme.address (scheme : Scheme) (authority tail : List Char) : List Char :=
  scheme.name.toList ++ ':' :: '/' :: '/' :: (authority ++ tail)

/-- The name of a scheme is a lower-case letter and characters of schemes. -/
theorem Scheme.exists_name_eq (scheme : Scheme) :
    ∃ c name, scheme.name.toList = c :: name ∧ c.isAlpha = true ∧
      (∀ d ∈ name, isSchemeChar d = true) ∧
      String.ofList ((c :: name).map Char.toLower) = scheme.name := by
  cases scheme with
  | http =>
      exact ⟨'h', ['t', 't', 'p'], by decide, by decide, List.all_eq_true.mp (by decide), by decide⟩
  | https =>
      exact ⟨'h', ['t', 't', 'p', 's'], by decide, by decide, List.all_eq_true.mp (by decide),
        by decide⟩

/-! ## Origins of plain hosts -/

variable [HostCodec]

/-- Whether the host of a base address is plain. -/
def HasPlainHost (base : String) : Prop :=
  ∃ a host, Authority.ofText? (front base).2 = .ok a ∧ a.host = some host ∧ PlainHost host

/-- A base address in ASCII without brackets has a plain host, whatever the codec. -/
theorem hasPlainHost_of_ascii {base : String} {origin : Origin}
    (h : Origin.ofText? base = .ok origin)
    (hascii : ∀ c ∈ (front base).2, c.toNat < 128 ∧ c ≠ '[' ∧ c ≠ ']') : HasPlainHost base := by
  obtain ⟨-, hdisguises, -, hcanonical, -⟩ := Origin.ofText?_eq_ok_iff.mp h
  obtain ⟨a, host, ha, hhost⟩ := Authority.exists_of_canonical hcanonical
  obtain ⟨hne, hchars, hcolon⟩ := (Authority.spec_of_ofText? ha).1 host hhost
  refine ⟨a, host, ha, hhost, plainHost_of_ascii hne fun c hc => ?_⟩
  obtain ⟨hmem, hat⟩ := hchars c hc
  obtain ⟨hlt, hopening, hclosing⟩ := hascii c hmem
  have hnocolon : c ≠ ':' := by
    rintro rfl
    exact (hascii '[' (hcolon hc).1).2.1 rfl
  refine ⟨hlt, isNameChar_iff.mpr ⟨isBare_of_mem_front hdisguises c hmem, hat, ?_⟩⟩
  simp [isHostMark, hnocolon, hopening, hclosing]

/-- Whether a base address names the port that its scheme has without it. -/
def NamesDefaultPort (base : String) : Prop :=
  ∃ a scheme, Authority.ofText? (front base).2 = .ok a ∧
    Scheme.ofName? (front base).1 = some scheme ∧ a.port = some scheme.defaultPort

/-- The text of an origin whose authority is settled and names no default port. -/
theorem Origin.text_of_port {origin : Origin} {a : Authority} {host : List Char}
    (h : a.Settled host) (hauthority : origin.authority = a.text (bracketed host))
    (hport : a.port ≠ some origin.scheme.defaultPort) :
    origin.text = .ok (origin.scheme.address (a.text (bracketed host)) []) := by
  simp only [Origin.text, hauthority, Authority.ofText?_text h, bind, Except.bind, hport, if_false,
    Scheme.address, List.append_nil]
  rfl

/--
The text of an origin whose authority is settled is that of the authority without a default port.
-/
theorem Origin.text_of_settled {origin : Origin} {a : Authority} {host : List Char}
    (h : a.Settled host) (hauthority : origin.authority = a.text (bracketed host)) :
    ∃ kept : Authority, kept.Settled host ∧ kept.port ≠ some origin.scheme.defaultPort ∧
      (a.port ≠ some origin.scheme.defaultPort → kept = a) ∧
      origin.text = .ok (origin.scheme.address (kept.text (bracketed host)) []) := by
  by_cases hport : a.port = some origin.scheme.defaultPort
  · refine ⟨{ a with port := none }, h.dropPort, by simp, fun hother => absurd hport hother, ?_⟩
    simp only [Origin.text, hauthority, Authority.ofText?_text h, bind, Except.bind, hport, if_true,
      h.host_eq, Scheme.address, List.append_nil]
    rfl
  · exact ⟨a, h, hport, fun _ => rfl, Origin.text_of_port h hauthority hport⟩

/-- A scheme and a settled authority are read off an address that begins with them. -/
theorem Origin.ofText?_address {a : Authority} {host : List Char}
    (h : a.Settled host) (scheme : Scheme) {tail : List Char}
    (htail : ∀ d ∈ tail.head?, endsAuthority d = true) :
    Origin.ofText? (String.ofList (scheme.address (a.text (bracketed host)) tail)) =
      .ok ⟨scheme, a.text (bracketed host), h.text_ne_nil⟩ := by
  have hfront : front (String.ofList (scheme.address (a.text (bracketed host)) tail)) =
      (scheme.name, a.text (bracketed host)) := by
    have hkept : ((a.text (bracketed host)).filter fun d => !isDroppedEverywhere d) =
        a.text (bracketed host) := by
      refine List.filter_eq_self.mpr fun d hd => ?_
      have hbare := h.bare d hd
      simp only [isBare, Bool.and_eq_true] at hbare
      exact hbare.1.2
    have hopen : ∀ d ∈ a.text (bracketed host), endsAuthority d = false := by
      intro d hd
      have hbare := h.bare d hd
      simp only [isBare, Bool.and_eq_true, Bool.not_eq_true'] at hbare
      exact hbare.1.1
    obtain ⟨c, name, hname, hc, hchars, hlower⟩ := scheme.exists_name_eq
    rw [Scheme.address, hname, front_of_parts hc hchars hopen htail, hlower, hkept]
  rw [Origin.ofText?_eq_ok_iff, hfront]
  exact ⟨Authority.checkBrackets_text h, Authority.checkDisguises_text h, h.text_ne_nil,
    Authority.canonical_text h scheme.name, Scheme.ofName?_name scheme⟩

/--
The origin of a plain host is written, and an address that begins with its text has an origin with
that text: the same one, unless the port is left out in it.
-/
theorem Origin.exists_text {base : String} {origin : Origin} (h : Origin.ofText? base = .ok origin)
    (hplain : HasPlainHost base) :
    ∃ text, origin.text = .ok text ∧ ∀ tail : List Char,
      (∀ d ∈ tail.head?, endsAuthority d = true) →
      ∃ again, Origin.ofText? (String.ofList (text ++ tail)) = .ok again ∧ again.text = .ok text ∧
        (¬ NamesDefaultPort base → again = origin) := by
  obtain ⟨a, raw, ha, hraw, hplain⟩ := hplain
  obtain ⟨-, hdisguises, -, hcanonical, hscheme⟩ := Origin.ofText?_eq_ok_iff.mp h
  obtain ⟨settled, host, hsettled, hsame, hauthority⟩ :=
    Authority.exists_settled (isBare_of_mem_front hdisguises) ha hraw hplain hcanonical
  obtain ⟨kept, hkept, hport, hwhole, htext⟩ := Origin.text_of_settled hsettled hauthority
  refine ⟨_, htext, fun tail htail => ?_⟩
  have happend : origin.scheme.address (kept.text (bracketed host)) [] ++ tail =
      origin.scheme.address (kept.text (bracketed host)) tail := by simp [Scheme.address]
  rw [happend]
  refine ⟨_, Origin.ofText?_address hkept origin.scheme htail,
    Origin.text_of_port hkept rfl hport, ?_⟩
  intro hother
  have hnamed : settled.port ≠ some origin.scheme.defaultPort := fun heq =>
    hother ⟨a, origin.scheme, ha, hscheme, hsame.symm.trans heq⟩
  obtain rfl : kept = settled := hwhole hnamed
  obtain ⟨scheme, authority, hne⟩ := origin
  obtain rfl : authority = kept.text (bracketed host) := hauthority
  rfl

end Url
end ChainPoll

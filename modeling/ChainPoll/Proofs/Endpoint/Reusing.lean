import ChainPoll.Proofs.Endpoint.Events
import ChainPoll.Proofs.Url.Origins

/-!
# Addresses used again

The URL of an endpoint takes no more than scheme and authority from the base address, and its path
no matter how many slashes it begins with.  If the host of the base address is plain, then the text
of the URL is a base address itself, on which endpoints have URLs with the same texts.  All of that
holds whatever codec gives the names of hosts in ASCII.

Main results:

- Theorem {lit}`Endpoint.addresses_reused`: which base addresses and paths have the same URLs.
- Theorem {lit}`Endpoint.oddHosts_not_reused`: hosts that are not plain may have no URL in writing,
  or one that is no base address, or one on which the URL is another one.
-/

namespace ChainPoll

/-- Whether a value is a text or a whole number. -/
def QueryValue.IsTextOrInt : QueryValue → Prop
  | .text _ | .int _ => True
  | _ => False

namespace Endpoint

/-! ## Paths and queries -/

/-- A path that begins with some slashes more. -/
def slashed (n : ℕ) (path : String) : String :=
  String.ofList (List.replicate n '/' ++ path.toList)

/-- Slashes in front of a path do not matter. -/
theorem requestPath_slashed (n : ℕ) (path : String) :
    Url.requestPath (slashed n path).toList = Url.requestPath path.toList := by
  have hdrop : (List.replicate n '/' ++ path.toList).dropWhile (· = '/') =
      path.toList.dropWhile (· = '/') :=
    List.dropWhile_append_of_pos fun c hc => by simp [List.eq_of_mem_replicate hc]
  rw [slashed, String.toList_ofList, Url.requestPath, Url.requestPath, hdrop]

/-- Texts and whole numbers have a text in a query. -/
theorem exists_pairTexts {query : List (String × QueryValue)}
    (h : ∀ pair ∈ query, pair.2.IsTextOrInt) :
    ∃ texts, query.mapM pairText? = .ok texts := by
  induction query with
  | nil => exact ⟨[], rfl⟩
  | cons pair query ih =>
      obtain ⟨texts, htexts⟩ := ih fun p hp => h p (by simp [hp])
      obtain ⟨name, value⟩ := pair
      have hvalue : ∃ text, pairText? (name, value) = .ok text := by
        have hkind := h (name, value) (by simp)
        cases value with
        | text s => exact ⟨_, rfl⟩
        | int n => exact ⟨_, rfl⟩
        | float x => exact hkind.elim
        | bool b => exact hkind.elim
        | nothing => exact hkind.elim
      obtain ⟨text, htext⟩ := hvalue
      exact ⟨text :: texts, by rw [List.mapM_cons, htext, htexts]; rfl⟩

section Reuse

variable [Url.HostCodec]

/-! ## Endpoints by their parts -/

/-- Whether endpoints can be made on a base address. -/
def Accepted (base : String) : Prop :=
  ∃ origin, Url.Origin.ofText? base = .ok origin

instance (base : String) : Decidable (Accepted base) :=
  match h : Url.Origin.ofText? base with
  | .ok origin => isTrue ⟨origin, h⟩
  | .error flaw => isFalse fun ⟨origin, horigin⟩ => by
      rw [h] at horigin
      cases horigin

/-- What the request of an endpoint that is given by its parts is sent to. -/
def targetOn? (base path : String) (query : List (String × QueryValue)) :
    Except Fault Url.Target := do
  (← make? base path query).target?

/-- The text of the URL of an endpoint that is given by its parts. -/
def address? (base path : String) (query : List (String × QueryValue)) : Except Fault String := do
  (← make? base path query).url?

/-! ## What a URL depends on -/

/-- The text of a URL is that of its target. -/
theorem address?_eq (base path : String) (query : List (String × QueryValue)) :
    address? base path query = (targetOn? base path query).bind fun target =>
      (target.text.mapError fun flaw => .refused (.address flaw)).map String.ofList := by
  rw [address?, targetOn?]
  cases make? base path query with
  | error fault => rfl
  | ok e =>
      simp only [bind, Except.bind, url?]
      cases e.target? with
      | error fault => rfl
      | ok target => cases target.text <;> rfl

section Congr

variable {base base' path path' : String} {origin origin' : Url.Origin}

/-- Base addresses with the same origin have the same targets. -/
theorem targetOn?_congr (h : Url.Origin.ofText? base = .ok origin)
    (h' : Url.Origin.ofText? base' = .ok origin)
    (hpath : Url.requestPath path'.toList = Url.requestPath path.toList)
    (query : List (String × QueryValue)) :
    targetOn? base' path' query = targetOn? base path query := by
  obtain ⟨e, he, hepath, hequery, heorigin⟩ := exists_make? h path query
  obtain ⟨e', he', hepath', hequery', heorigin'⟩ := exists_make? h' path' query
  have htarget : e'.target? = e.target? := by
    rw [target?, target?, rawQuery?, rawQuery?, hequery, hequery', hepath, hepath', hpath, heorigin,
      heorigin']
  rw [targetOn?, targetOn?, he, he']
  exact htarget

/-- Base addresses whose origins have the same text have URLs with the same texts. -/
theorem address?_congr (h : Url.Origin.ofText? base = .ok origin)
    (h' : Url.Origin.ofText? base' = .ok origin') (htext : origin'.text = origin.text)
    (query : List (String × QueryValue)) :
    address? base' path query = address? base path query := by
  obtain ⟨e, he, hepath, hequery, heorigin⟩ := exists_make? h path query
  obtain ⟨e', he', hepath', hequery', heorigin'⟩ := exists_make? h' path query
  have hurl : e'.url? = e.url? := by
    cases hraw : e.rawQuery? with
    | error fault =>
        have hraw' : e'.rawQuery? = .error fault := by
          rw [← hraw, rawQuery?, rawQuery?, hequery, hequery']
        rw [url?_of_rawQuery? hraw, url?_of_rawQuery? hraw']
    | ok raw =>
        have hraw' : e'.rawQuery? = .ok raw := by
          rw [← hraw, rawQuery?, rawQuery?, hequery, hequery']
        cases hfront : origin.text with
        | error flaw =>
            rw [url?_of_flaw hraw (heorigin ▸ hfront),
              url?_of_flaw hraw' (heorigin' ▸ htext.trans hfront)]
        | ok front =>
            rw [url?_of_text hraw (heorigin ▸ hfront),
              url?_of_text hraw' (heorigin' ▸ htext.trans hfront),
              hepath, hepath']
  rw [address?, address?, he, he']
  exact hurl

end Congr

/-! ## Targets that are built -/

/--
Texts and whole numbers make a target, which has the origin of the base address and a path from a
slash on.
-/
theorem exists_targetOn? {base : String} {origin : Url.Origin}
    (h : Url.Origin.ofText? base = .ok origin) (path : String) {query : List (String × QueryValue)}
    (hquery : ∀ pair ∈ query, pair.2.IsTextOrInt) :
    ∃ target : Url.Target, targetOn? base path query = .ok target ∧ target.origin = origin ∧
      target.path.head? = some '/' := by
  obtain ⟨e, he, -, hequery, heorigin⟩ := exists_make? h path query
  obtain ⟨texts, htexts⟩ := exists_pairTexts hquery
  have hraw : e.rawQuery? = .ok (Url.joinAll '&' texts) := by
    rw [rawQuery?, hequery, htexts]
    rfl
  have htarget := target?_of_query hraw
  rw [targetOn?, he]
  exact ⟨_, htarget, heorigin, rfl⟩

/-! ## Reuse -/

/--
The URLs on a base address are those on each address with the same scheme and authority, for every
number of slashes before the path, and texts and whole numbers make one.  A host in ASCII without
brackets is plain.  If the host is plain, the URL has a text, which is a base address itself: URLs
on it have the same texts, and are the same where no default port is left out.
-/
theorem addresses_reused {base : String} (haccepted : Accepted base) :
    (∀ base', Url.front base' = Url.front base → Accepted base' ∧ ∀ n n' path query,
      targetOn? base' (slashed n' path) query = targetOn? base (slashed n path) query ∧
      address? base' (slashed n' path) query = address? base (slashed n path) query) ∧
    (∀ path query, (∀ pair ∈ query, pair.2.IsTextOrInt) →
      ∃ target, targetOn? base path query = .ok target) ∧
    ((∀ c ∈ (Url.front base).2, c.toNat < 128 ∧ c ≠ '[' ∧ c ≠ ']') → Url.HasPlainHost base) ∧
    (Url.HasPlainHost base → ∀ path query, (∀ pair ∈ query, pair.2.IsTextOrInt) →
      ∃ url, address? base path query = .ok url ∧ Accepted url ∧ ∀ path' query',
        address? url path' query' = address? base path' query' ∧
        (¬ Url.NamesDefaultPort base →
          targetOn? url path' query' = targetOn? base path' query')) := by
  obtain ⟨origin, horigin⟩ := haccepted
  refine ⟨fun base' hfront => ?_, fun path query hquery => ?_,
    Url.hasPlainHost_of_ascii horigin, fun hplain path query hquery => ?_⟩
  · have horigin' := Url.Origin.ofText?_of_front hfront horigin
    refine ⟨⟨origin, horigin'⟩, fun n n' path query => ?_⟩
    have hpath : Url.requestPath (slashed n' path).toList =
        Url.requestPath (slashed n path).toList := by
      rw [requestPath_slashed, requestPath_slashed]
    have htarget := targetOn?_congr horigin horigin' hpath query
    exact ⟨htarget, by rw [address?_eq, address?_eq, htarget]⟩
  · obtain ⟨target, htarget, -⟩ := exists_targetOn? horigin path hquery
    exact ⟨target, htarget⟩
  · obtain ⟨text, htext, hagain⟩ := Url.Origin.exists_text horigin hplain
    obtain ⟨target, htarget, rfl, hslash⟩ := exists_targetOn? horigin path hquery
    obtain ⟨again, hread, hsame, hwhole⟩ := hagain target.tail (by
      obtain ⟨rest, hrest⟩ := List.head?_eq_some_iff.mp hslash
      simp [Url.Target.tail, hrest, Url.endsAuthority])
    have hurl : address? base path query = .ok (String.ofList (text ++ target.tail)) := by
      rw [address?_eq, htarget]
      simp only [Except.bind, Url.Target.text_of_origin htext]
      rfl
    refine ⟨_, hurl, ⟨again, hread⟩, fun path' query' => ⟨?_, fun hport => ?_⟩⟩
    · exact address?_congr horigin hread (hsame.trans htext.symm) query'
    · exact targetOn?_congr horigin (hwhole hport ▸ hread) rfl query'

end Reuse

/--
A user, a stray percent sign, an address and a port, used again by the URL and by another base
address.
-/
theorem address_reused :
    ∃ url, address? "https://u%zz:p@[2001:DB8:0::1]:8443/x?y#z" "a b/../c"
      [("from id", .int (-5))] = .ok url ∧
      Accepted url ∧ ∀ path query,
        address? url path query = address? "https://u%zz:p@[2001:DB8:0::1]:8443"
          (slashed 3 path) query ∧
        targetOn? url path query =
          targetOn? "https://u%zz:p@[2001:DB8:0::1]:8443" (slashed 3 path) query := by
  have haccepted : Accepted "https://u%zz:p@[2001:DB8:0::1]:8443/x?y#z" := by decide +kernel
  have hauthority :
      Url.Authority.ofText? (Url.front "https://u%zz:p@[2001:DB8:0::1]:8443/x?y#z").2 =
        .ok ⟨some "u%zz".toList, some "p".toList, some "2001:DB8:0::1".toList, some 8443⟩ := by
    decide +kernel
  have hplain : Url.HasPlainHost "https://u%zz:p@[2001:DB8:0::1]:8443/x?y#z" :=
    have haddress : Url.address6? (Url.splitZone "2001:DB8:0::1".toList).1 =
        some [0x2001, 0xdb8, 0, 0, 0, 0, 0, 1] := by decide +kernel
    ⟨_, "2001:DB8:0::1".toList, hauthority, rfl, .version6 haddress⟩
  have hport : ¬ Url.NamesDefaultPort "https://u%zz:p@[2001:DB8:0::1]:8443/x?y#z" := by
    rintro ⟨a, scheme, ha, -, hnamed⟩
    obtain rfl := Except.ok.inj (hauthority.symm.trans ha)
    cases scheme <;> exact absurd hnamed (by decide)
  have hfront : Url.front "https://u%zz:p@[2001:DB8:0::1]:8443" =
      Url.front "https://u%zz:p@[2001:DB8:0::1]:8443/x?y#z" := by decide +kernel
  obtain ⟨hfronts, -, -, hreuse⟩ := addresses_reused haccepted
  obtain ⟨url, hurl, hagain, hsame⟩ := hreuse hplain "a b/../c" [("from id", .int (-5))] (by
    simp [QueryValue.IsTextOrInt])
  refine ⟨url, hurl, hagain, fun path query => ?_⟩
  obtain ⟨htarget, htext⟩ := (hfronts _ hfront).2 0 3 path query
  have hbare : slashed 0 path = path := String.ofList_toList
  rw [htext, htarget, hbare]
  exact ⟨(hsame path query).1, (hsame path query).2 hport⟩

/--
Texts in brackets that are no addresses: no URL in writing, one that is no base address, one that
changes once more.  A name that keeps a capital in ASCII changes once more too.  A default port is
left out of the text, so that the URL on it is another one though it has the same text.
-/
theorem oddHosts_not_reused :
    (Accepted "http://[v1.a:b]" ∧
      address? "http://[v1.a:b]" "milestone" [] = .error (.refused (.address .portText))) ∧
    (address? "http://[v1.a[b]" "milestone" [] = .ok "http://v1.a[b/milestone" ∧
      ¬ Accepted "http://v1.a[b/milestone") ∧
    (address? "http://[v1.a:]" "milestone" [] = .ok "http://v1.a:/milestone" ∧
      address? "http://v1.a:/milestone" "milestone" [] = .ok "http://v1.a/milestone") ∧
    (address? "http://Bor_0.bücher" "milestone" [] = .ok "http://Bor_0.xn--bcher-kva/milestone" ∧
      address? "http://Bor_0.xn--bcher-kva/milestone" "milestone" [] =
        .ok "http://bor_0.xn--bcher-kva/milestone") ∧
    address? "http://bor0:80" "milestone" [] = .ok "http://bor0/milestone" ∧
      targetOn? "http://bor0/milestone" "milestone" [] ≠
        targetOn? "http://bor0:80" "milestone" [] := by
  exact ⟨⟨by decide +kernel, by decide +kernel⟩, ⟨by decide +kernel, by decide +kernel⟩,
    ⟨by decide +kernel, by decide +kernel⟩, ⟨by decide +kernel, by decide +kernel⟩,
    by decide +kernel, by decide +kernel⟩

end Endpoint
end ChainPoll

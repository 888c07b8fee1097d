import ChainPoll.Proofs.Endpoint.Reusing
import ChainPoll.Proofs.Url.Targets

/-!
# Paths and queries read back

On every base address, the target of an endpoint tells the query that it was made of, and its path
if that has no dot segments.  Endpoints with different queries have different URLs, and so have
different resources.  The URLs differ in writing too, where they can be written.

Main results:

- Theorem {lit}`Endpoint.exists_tells`: the target of an endpoint, and what is read off it.
- Theorem {lit}`Resource.eq_of_plainPath`: path and query of a resource tell which one it is.
- Theorem {lit}`Endpoint.targets_tell`: the URLs on a base address tell path and query.
-/

namespace ChainPoll

/-- The text of a value in a query; only texts and whole numbers have one. -/
def QueryValue.asText : QueryValue → String
  | .text s => s
  | .int n => Text.decimalString n
  | _ => ""

/-- A query with the texts of its values. -/
def asTexts (query : List (String × QueryValue)) : List (String × String) :=
  query.map fun pair => (pair.1, pair.2.asText)

/-- A path behind a single slash. -/
def plainPath (path : String) : String :=
  String.ofList ('/' :: path.toList.dropWhile (· = '/'))

/-- Whether a path has no segments that are resolved. -/
def HasNoDots (path : String) : Prop :=
  ∀ segment ∈ Url.splitAll '/' path.toList, Url.isDotSegment segment = false

instance (path : String) : Decidable (HasNoDots path) :=
  inferInstanceAs (Decidable (∀ segment ∈ Url.splitAll '/' path.toList,
    Url.isDotSegment segment = false))

namespace Endpoint

/-! ## Targets -/

/-- Texts and whole numbers are written by their texts. -/
theorem mapM_pairText? {query : List (String × QueryValue)}
    (h : ∀ pair ∈ query, pair.2.IsTextOrInt) :
    query.mapM pairText? = .ok ((asTexts query).map Url.pairText) := by
  induction query with
  | nil => rfl
  | cons pair query ih =>
      have hpair : pairText? pair = .ok (Url.pairText (pair.1, pair.2.asText)) := by
        have hkind := h pair (by simp)
        obtain ⟨name, value⟩ := pair
        cases value with
        | text s => rfl
        | int n =>
            simp [pairText?, QueryValue.text?, Url.pairText, QueryValue.asText, Text.decimalString,
            bind, Except.bind, pure, Except.pure]
        | float x => exact hkind.elim
        | bool b => exact hkind.elim
        | nothing => exact hkind.elim
      rw [List.mapM_cons, hpair, ih fun p hp => h p (by simp [hp])]
      rfl

/--
What is read off a target: the parameters, a query just if there are any, and a path without dot
segments.
-/
structure Tells (target : Url.Target) (path : String) (query : List (String × QueryValue)) :
    Prop where
  pairs : target.pairs? = some (asTexts query)
  noQuery : target.query = [] ↔ query = []
  path : HasNoDots path → target.path? = some (plainPath path)

section Tells

variable [Url.HostCodec] {base : String} {origin : Url.Origin}

/-- Texts and whole numbers make a target that tells path and query. -/
theorem exists_tells (h : Url.Origin.ofText? base = .ok origin) (path : String)
    {query : List (String × QueryValue)} (hquery : ∀ pair ∈ query, pair.2.IsTextOrInt) :
    ∃ target : Url.Target, targetOn? base path query = .ok target ∧ target.origin = origin ∧
      '?' ∉ target.path ∧ Tells target path query := by
  obtain ⟨e, he, rfl, rfl, rfl⟩ := exists_make? h path query
  have hraw : e.rawQuery? = .ok (Url.joinAll '&' ((asTexts e.query).map Url.pairText)) := by
    rw [rawQuery?, mapM_pairText? hquery]
    rfl
  have htarget := target?_of_query hraw
  refine ⟨_, by rw [targetOn?, he]; exact htarget, rfl, ?_, ⟨?_, ?_, fun hdots => ?_⟩⟩
  · exact fun hmem => (Url.ne_of_mem_requestPath hmem).1 rfl
  · exact Url.Target.pairs?_of_query rfl
  · exact Url.joinAll_pairText_eq_nil_iff.trans List.map_eq_nil_iff
  · simp only [Url.Target.path?, Url.requestPath_of_plain hdots]
    exact Url.unescape?_escape (by decide) _

/-- Different targets on one base address are written differently. -/
theorem address?_ne {path path' : String} {query query' : List (String × QueryValue)}
    {target target' : Url.Target} (htarget : targetOn? base path query = .ok target)
    (htarget' : targetOn? base path' query' = .ok target')
    (horigin : target'.origin = target.origin) (h : '?' ∉ target.path) (h' : '?' ∉ target'.path)
    (hne : target ≠ target') {url : String} (hurl : address? base path query = .ok url) :
    address? base path' query' ≠ .ok url := by
  intro hurl'
  rw [address?_eq, htarget] at hurl
  rw [address?_eq, htarget'] at hurl'
  simp only [Except.bind] at hurl hurl'
  cases htext : target.text with
  | error flaw => simp [htext, Except.mapError, Except.map] at hurl
  | ok text =>
      cases htext' : target'.text with
      | error flaw => simp [htext', Except.mapError, Except.map] at hurl'
      | ok text' =>
          simp only [htext, htext', Except.mapError, Except.map, Except.ok.injEq] at hurl hurl'
          obtain rfl : text = text' := String.ofList_injective (hurl.trans hurl'.symm)
          exact hne (Url.Target.eq_of_text horigin h h' htext htext')

end Tells

end Endpoint

/-! ## Resources -/

namespace Resource

/-- Whether a resource is no span that is named by a word. -/
def IsNumbered : Resource → Prop
  | .span (.word _) => False
  | _ => True

/-- What the request for a resource on a base address is sent to. -/
def targetOn? [Url.HostCodec] (resource : Resource) (base : String) : Except Fault Url.Target := do
  (← resource.endpoint? base).target?

/-- The text of the URL of a resource on a base address. -/
def address? [Url.HostCodec] (resource : Resource) (base : String) : Except Fault String := do
  (← resource.endpoint? base).url?

/-- The parameters of a resource are whole numbers. -/
theorem isTextOrInt_query (resource : Resource) : ∀ pair ∈ resource.query, pair.2.IsTextOrInt := by
  cases resource <;> simp [query, QueryValue.IsTextOrInt]

/-- The path of a span that is named by a number. -/
theorem toList_path_span (n : Int) : (Resource.span (.number n)).path.toList =
    "bor".toList ++ '/' :: ("span".toList ++ '/' :: Text.decimal n) := by
  simp [path, Settings.spanFolder, SpanId.text, Text.decimalString]

/--
The path of a resource has no segments that are resolved, but for spans that are named by words.
-/
theorem hasNoDots_path {resource : Resource} (h : resource.IsNumbered) :
    HasNoDots resource.path := by
  cases resource with
  | checkpoint => decide
  | checkpointCount => decide
  | milestone => decide
  | milestoneCount => decide
  | span id =>
      cases id with
      | word s => exact h.elim
      | number n =>
          have hchar : ∀ c ∈ Text.decimal n, c ≠ '/' ∧ c ≠ '.' := by
            intro c hc
            rcases Record.mem_decimal hc with rfl | hdigit
            · decide
            · refine ⟨?_, ?_⟩ <;> rintro rfl <;> exact absurd hdigit (by decide)
          have hslash : '/' ∉ Text.decimal n := fun hmem => (hchar _ hmem).1 rfl
          have hpoint : '.' ∉ Text.decimal n := fun hmem => (hchar _ hmem).2 rfl
          have hnumber : Url.isDotSegment (Text.decimal n) = false := by
            simp only [Url.isDotSegment, Bool.or_eq_false_iff, beq_eq_false_iff_ne]
            exact ⟨fun heq => hpoint (by simp [heq]), fun heq => hpoint (by simp [heq])⟩
          intro segment hsegment
          rw [toList_path_span, Url.splitAll_append, Url.splitAll_append,
            Url.splitAll_of_notMem hslash] at hsegment
          have hfolder : ∀ s ∈ Url.splitAll '/' "bor".toList ++ Url.splitAll '/' "span".toList,
              Url.isDotSegment s = false := by decide
          rcases List.mem_append.mp hsegment with hmem | hmem
          · exact hfolder _ (List.mem_append_left _ hmem)
          · rcases List.mem_append.mp hmem with hmem | hmem
            · exact hfolder _ (List.mem_append_right _ hmem)
            · rw [List.mem_singleton.mp hmem]
              exact hnumber
  | events fromId upTo limit =>
      have hevents : HasNoDots Settings.eventsPath := by decide
      exact hevents

/-- The path of a span that is named by a number, behind a single slash. -/
theorem plainPath_span (n : Int) : plainPath (Resource.span (.number n)).path =
    String.ofList ("/bor/span/".toList ++ Text.decimal n) := by
  rw [plainPath, toList_path_span]
  rfl

/-- Only the paths of spans begin with the name of the chain. -/
theorem take_plainPath_ne {r : Resource} (h : ∀ id, r ≠ .span id) :
    (plainPath r.path).toList.take 2 ≠ ['/', 'b'] := by
  cases r with
  | checkpoint => decide
  | checkpointCount => decide
  | milestone => decide
  | milestoneCount => decide
  | span id => exact absurd rfl (h id)
  | events fromId upTo limit =>
      have hevents : (plainPath Settings.eventsPath).toList.take 2 ≠ ['/', 'b'] := by decide
      exact hevents

/-- Path and query of a resource tell which one it is. -/
theorem eq_of_plainPath {r r' : Resource} (h : r.IsNumbered) (h' : r'.IsNumbered)
    (hpath : plainPath r.path = plainPath r'.path) (hquery : asTexts r.query = asTexts r'.query) :
    r = r' := by
  have hspan : ∀ {n r}, plainPath (Resource.span (.number n)).path =
      plainPath r.path → r.IsNumbered →
        Resource.span (.number n) = r := by
    intro n r heq hr
    by_cases hkind : ∃ id, r = .span id
    · obtain ⟨id, rfl⟩ := hkind
      cases id with
      | word s => exact hr.elim
      | number m =>
          rw [plainPath_span, plainPath_span] at heq
          rw [Text.decimal_injective (List.append_cancel_left (String.ofList_injective heq))]
    · refine absurd ?_ (take_plainPath_ne fun id hid => hkind ⟨id, hid⟩)
      rw [← heq, plainPath_span]
      simp
  cases r with
  | span id =>
      cases id with
      | word s => exact h.elim
      | number n => exact hspan hpath h'
  | events fromId upTo limit =>
      cases r' with
      | span id =>
          cases id with
          | word s => exact h'.elim
          | number n => exact (hspan hpath.symm h).symm
      | events fromId' upTo' limit' =>
          simp only [query, asTexts, QueryValue.asText, List.map_cons,
            List.map_nil, List.cons.injEq,
            Prod.mk.injEq, true_and, and_true] at hquery
          obtain ⟨hfrom, hto, hlimit⟩ := hquery
          rw [Text.decimal_injective (String.ofList_injective hfrom),
            Text.decimal_injective (String.ofList_injective hto),
            Text.decimal_injective (String.ofList_injective hlimit)]
      | _ => exact absurd hpath (by simp only [path]; decide)
  | _ =>
      cases r' with
      | span id =>
          cases id with
          | word s => exact h'.elim
          | number n => exact (hspan hpath.symm h).symm
      | _ => first | rfl | exact absurd hpath (by simp only [path]; decide)

end Resource

namespace Endpoint

/-! ## Telling addresses -/

section Telling

variable [Url.HostCodec]

/-- What the URLs on a base address tell: path and query, and which resource they are of. -/
structure Telling (base : String) : Prop where
  reads : ∀ path query, (∀ pair ∈ query, pair.2.IsTextOrInt) →
    ∃ target, targetOn? base path query = .ok target ∧ Tells target path query
  queries : ∀ path path' query query', (∀ pair ∈ query, pair.2.IsTextOrInt) →
    (∀ pair ∈ query', pair.2.IsTextOrInt) → asTexts query ≠ asTexts query' →
      targetOn? base path query ≠ targetOn? base path' query' ∧
      ∀ url, address? base path query = .ok url → address? base path' query' ≠ .ok url
  resources : ∀ r r' : Resource, r.IsNumbered → r'.IsNumbered → r ≠ r' →
    r.targetOn? base ≠ r'.targetOn? base ∧ ∀ url, r.address? base = .ok url →
      r'.address? base ≠ .ok url

/-- The URLs on every base address tell path and query, so that they differ where these do. -/
theorem targets_tell {base : String} (haccepted : Accepted base) : Telling base := by
  obtain ⟨origin, horigin⟩ := haccepted
  refine ⟨fun path query hquery => ?_, fun path path' query query' hquery hquery' hne => ?_,
    fun r r' hr hr' hne => ?_⟩
  · obtain ⟨target, htarget, -, -, htells⟩ := exists_tells horigin path hquery
    exact ⟨target, htarget, htells⟩
  · obtain ⟨target, htarget, rfl, hpath, htells⟩ := exists_tells horigin path hquery
    obtain ⟨target', htarget', hsame, hpath', htells'⟩ := exists_tells horigin path' hquery'
    have hother : target ≠ target' := by
      rintro rfl
      exact hne (Option.some.inj (htells.pairs.symm.trans htells'.pairs))
    refine ⟨fun heq => hother (Except.ok.inj (htarget.symm.trans (heq.trans htarget'))),
      fun url hurl => ?_⟩
    exact address?_ne htarget htarget' hsame hpath hpath' hother hurl
  · obtain ⟨target, htarget, rfl, hpath, htells⟩ := exists_tells horigin r.path r.isTextOrInt_query
    obtain ⟨target', htarget', hsame, hpath', htells'⟩ :=
      exists_tells horigin r'.path r'.isTextOrInt_query
    have hother : target ≠ target' := by
      rintro rfl
      have hplain := (htells.path (Resource.hasNoDots_path hr)).symm.trans
        (htells'.path (Resource.hasNoDots_path hr'))
      exact hne (Resource.eq_of_plainPath hr hr' (Option.some.inj hplain)
        (Option.some.inj (htells.pairs.symm.trans htells'.pairs)))
    refine ⟨fun heq => hother (Except.ok.inj (htarget.symm.trans (heq.trans htarget'))),
      fun url hurl => ?_⟩
    exact address?_ne htarget htarget' hsame hpath hpath' hother hurl

end Telling

/--
Separators, escapes, spaces and letters beyond ASCII, told by a target on a base address whose URLs
cannot be written.
-/
theorem separators_told :
    ∃ target, targetOn? "http://[v1.a:b]/api?a#b" "//a b/%2F?é"
      [("k&=#", .text "+ %26ü"), ("", .int (-5))] =
        .ok target ∧
      target.pairs? = some [("k&=#", "+ %26ü"), ("", "-5")] ∧ target.path? = some "/a b/%2F?é" := by
  have haccepted : Accepted "http://[v1.a:b]/api?a#b" := by decide +kernel
  have htelling : Telling "http://[v1.a:b]/api?a#b" := targets_tell haccepted
  obtain ⟨target, htarget, htells⟩ :=
    htelling.reads "//a b/%2F?é" [("k&=#", .text "+ %26ü"), ("", .int (-5))] (by
      simp [QueryValue.IsTextOrInt])
  refine ⟨target, htarget, htells.pairs.trans ?_, (htells.path (by decide)).trans ?_⟩ <;>
    decide +kernel

end Endpoint
end ChainPoll

import ChainPoll.Endpoint.Resource
import ChainPoll.Record.Integer

/-!
# URLs of pages of events

The request for a page of events names the first identifier, the bound on the time, and the size of
the page, in that order.  All of them are whole numbers, which stand for themselves in a query.

Main results:

- Theorem {lit}`Url.formEscape_decimal`: a whole number stands for itself in a query.
- Theorem {lit}`Resource.exists_events_endpoint`: the URL that a page of events is asked for by.
-/

namespace ChainPoll

/-- Whether URLs can be built on an address, all of which begin with the same text. -/
def Addressable [Url.HostCodec] (address : String) (front : List Char) : Prop :=
  ∃ origin, Url.Origin.ofText? address = .ok origin ∧ origin.text = .ok front

/-- The URL of a page of events. -/
def eventsUrl (front : List Char) (fromId upTo limit : Int) : String :=
  String.ofList (front ++ "/clerk/event-record/list?from-id=".toList ++ Text.decimal fromId
    ++ "&to-time=".toList ++ Text.decimal upTo ++ "&limit=".toList ++ Text.decimal limit)

namespace Url

/-- Characters that are safe in a query stand for themselves. -/
theorem formEscape_of_safe {cs : List Char} (h : ∀ c ∈ cs, c ≠ ' ' ∧ isQueryChar c = true) :
    formEscape cs = cs := by
  induction cs with
  | nil => rfl
  | cons c cs ih =>
      obtain ⟨hspace, hsafe⟩ := h c (by simp)
      have hchar : formChar c = [c] := by rw [formChar, if_neg hspace, if_pos hsafe]
      have hrest : formEscape cs = cs := ih fun d hd => h d (by simp [hd])
      rw [formEscape, List.flatMap_cons, hchar, ← formEscape, hrest]
      rfl

/-- A whole number stands for itself in a query. -/
theorem formEscape_decimal (n : Int) : formEscape (Text.decimal n) = Text.decimal n := by
  refine formEscape_of_safe fun c hc => ?_
  rcases Record.mem_decimal hc with rfl | hdigit
  · decide
  · have halphanum : c.isAlphanum = true := by simp [Char.isAlphanum, hdigit]
    refine ⟨?_, by simp [isQueryChar, isUnreserved, halphanum]⟩
    rintro rfl
    exact absurd hdigit (by decide)

end Url

namespace Endpoint

/-- A parameter with a whole number for its value. -/
theorem pairText?_int {name : String} (h : Url.formEscape name.toList = name.toList) (n : Int) :
    pairText? (name, .int n) = .ok (name.toList ++ '=' :: Text.decimal n) := by
  simp only [pairText?, QueryValue.text?, h, bind, Except.bind, pure, Except.pure,
    Url.formEscape_decimal]

/-- An endpoint on a base address has the origin of that address. -/
theorem exists_make? [Url.HostCodec] {base : String} {origin : Url.Origin}
    (h : Url.Origin.ofText? base = .ok origin) (path : String)
    (query : List (String × QueryValue)) :
    ∃ e, make? base path query = .ok e ∧ e.path = path ∧ e.query = query ∧ e.origin = origin := by
  unfold make?
  split
  · next origin' horigin =>
    rw [h] at horigin
    exact ⟨_, rfl, rfl, rfl, (Except.ok.inj horigin).symm⟩
  · next flaw hflaw =>
    rw [h] at hflaw
    cases hflaw

end Endpoint

/-- On an address that URLs can be built on, a page of events is asked for by its URL. -/
theorem Resource.exists_events_endpoint [Url.HostCodec] {address : String} {front : List Char}
    (h : Addressable address front) (fromId upTo limit : Int) :
    ∃ e, (Resource.events fromId upTo limit).endpoint? address = .ok e ∧
      e.path = Settings.eventsPath ∧ e.url? = .ok (eventsUrl front fromId upTo limit) ∧
      ∃ text, e.shownQuery? = .ok text := by
  obtain ⟨origin, horigin, hfront⟩ := h
  obtain ⟨e, he, hpath, hquery, heq⟩ :=
    Endpoint.exists_make? horigin Settings.eventsPath (Resource.events fromId upTo limit).query
  have hfrom : "/clerk/event-record/list?from-id=".toList =
      Url.requestPath Settings.eventsPath.toList ++ '?' :: ("from-id".toList ++ ['=']) := by
    decide +kernel
  have hto : "&to-time=".toList = '&' :: ("to-time".toList ++ ['=']) := by decide
  have hlimit : "&limit=".toList = '&' :: ("limit".toList ++ ['=']) := by decide
  have hraw : e.rawQuery? = .ok (Url.joinAll '&'
      ["from-id".toList ++ '=' :: Text.decimal fromId, "to-time".toList ++ '=' :: Text.decimal upTo,
        "limit".toList ++ '=' :: Text.decimal limit]) := by
    rw [Endpoint.rawQuery?, hquery, Resource.query, List.mapM_cons, List.mapM_cons, List.mapM_cons,
      Endpoint.pairText?_int (by decide), Endpoint.pairText?_int (by decide),
      Endpoint.pairText?_int (by decide)]
    rfl
  refine ⟨e, he, hpath, ?_, ?_⟩
  · have hquestion : "from-id".toList ≠ [] := by decide
    rw [Endpoint.url?_of_text hraw (heq ▸ hfront), hpath]
    simp only [eventsUrl, hfrom, hto, hlimit, Url.joinAll, List.append_eq_nil_iff, hquestion,
      false_and, if_false, List.append_assoc,
      List.cons_append, List.nil_append]
  · exact ⟨_, by rw [Endpoint.shownQuery?, hraw]; rfl⟩

end ChainPoll

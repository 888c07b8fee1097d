import ChainPoll.Decimal.Shortest
import ChainPoll.Fault
import ChainPoll.Json.Value
import ChainPoll.Url.Target

/-!
# Endpoints

The full target of a request: the base address of a service, a path, and query parameters.  The path
replaces whatever path the base address has.

Main results:

- Theorem {lit}`Endpoint.make?_fields`: an endpoint keeps base address, path and query as given.
- Theorem {lit}`Endpoint.target?_of_query`: the target of an endpoint by its escaped query.
- Theorem {lit}`Endpoint.url?_of_text`: the URL of an endpoint by the texts of its origin and of its
  query.
-/

namespace ChainPoll

/-- A value of a query parameter; truth values and nothing are refused when the URL is built. -/
inductive QueryValue where
  | text (s : String)
  | int (n : Int)
  | float (x : Binary64)
  | bool (b : Bool)
  | nothing
deriving DecidableEq, Repr

namespace QueryValue

/-- The text of a value in a query, before it is escaped. -/
def text? : QueryValue → Except Fault (List Char)
  | .text s => .ok s.toList
  | .int n => .ok (Text.decimal n)
  | .float (.infinite _) => .error (.refused .infiniteQueryValue)
  | .float .nan => .error (.refused .indefiniteQueryValue)
  | .float x => .ok (Shortest.text x).toList
  | .bool b => .error (.mistyped (.queryValue (if b then .yes else .no)))
  | .nothing => .error (.mistyped (.queryValue .nothing))

/-- The number that a value is equal to; truth values count as one and zero. -/
def number? : QueryValue → Option Rat
  | .int n => some n
  | .float x => x.toRat?
  | .bool b => some (if b then 1 else 0)
  | _ => none

/-- Whether two values are equal, numbers by their size. -/
def same (a b : QueryValue) : Bool :=
  match a, b with
  | .text s, .text t => s == t
  | .nothing, .nothing => true
  | .float (.infinite s), .float (.infinite t) => s == t
  | _, _ =>
    match a.number?, b.number? with
    | some x, some y => x == y
    | _, _ => false

end QueryValue

/-- A path and query parameters on a base address that has an origin. -/
structure Endpoint [Url.HostCodec] where
  base : String
  path : String
  query : List (String × QueryValue)
  origin : Url.Origin
  origin_eq : Url.Origin.ofText? base = .ok origin

namespace Endpoint

variable [Url.HostCodec]

/-- Makes an endpoint, or tells why the base address is refused. -/
def make? (base path : String) (query : List (String × QueryValue)) : Except Fault Endpoint :=
  match h : Url.Origin.ofText? base with
  | .ok origin => .ok { base, path, query, origin, origin_eq := h }
  | .error flaw => .error (.refused (.address flaw))

/-- One parameter of a query. -/
def pairText? (pair : String × QueryValue) : Except Fault (List Char) := do
  let value ← pair.2.text?
  return Url.formEscape pair.1.toList ++ '=' :: Url.formEscape value

/-- The escaped query. -/
def rawQuery? (endpoint : Endpoint) : Except Fault (List Char) := do
  return Url.joinAll '&' (← endpoint.query.mapM pairText?)

/-- What the request is sent to. -/
def target? (endpoint : Endpoint) : Except Fault Url.Target := do
  let query ← endpoint.rawQuery?
  return { origin := endpoint.origin, path := Url.requestPath endpoint.path.toList, query }

/-- The text of the request URL.  There may be none though there is a target. -/
def url? (endpoint : Endpoint) : Except Fault String := do
  let target ← endpoint.target?
  let text ← target.text.mapError fun flaw => .refused (.address flaw)
  return String.ofList text

/-- The query as it is shown in a log. -/
def shownQuery? (endpoint : Endpoint) : Except Fault String := do
  return Url.shownQuery (← endpoint.rawQuery?)

/-- Whether two endpoints are given by equal parts. -/
def same (a b : Endpoint) : Bool :=
  a.base == b.base && a.path == b.path && a.query.length == b.query.length
    && (a.query.zip b.query).all fun (p, q) => p.1 == q.1 && p.2.same q.2

/-- An endpoint keeps base address, path and query as given. -/
theorem make?_fields {base path : String} {query : List (String × QueryValue)} {e : Endpoint}
    (h : make? base path query = .ok e) : e.base = base ∧ e.path = path ∧ e.query = query := by
  unfold make? at h
  split at h
  · simp only [Except.ok.injEq] at h
    subst h
    exact ⟨rfl, rfl, rfl⟩
  · simp at h

section Query

variable {e : Endpoint} {query : List Char}

/-- The target of an endpoint is its origin, its path in a URL, and its escaped query. -/
theorem target?_of_query (hquery : e.rawQuery? = .ok query) :
    e.target? = .ok ⟨e.origin, Url.requestPath e.path.toList, query⟩ := by
  rw [target?, hquery]
  rfl

/-- The URL of an endpoint by the texts of its origin and of its query. -/
theorem url?_of_text {origin : List Char} (hquery : e.rawQuery? = .ok query)
    (horigin : e.origin.text = .ok origin) :
    e.url? = .ok (String.ofList (origin ++ (Url.requestPath e.path.toList
      ++ if query = [] then [] else '?' :: query))) := by
  have htext := Url.Target.text_of_origin (t := ⟨e.origin, Url.requestPath e.path.toList, query⟩)
    horigin
  rw [url?, target?_of_query hquery]
  simp only [bind, Except.bind, htext]
  rfl

/-- An endpoint whose origin cannot be written has no URL. -/
theorem url?_of_flaw {flaw : Url.Flaw} (hquery : e.rawQuery? = .ok query)
    (horigin : e.origin.text = .error flaw) : e.url? = .error (.refused (.address flaw)) := by
  have htext := Url.Target.text_of_flaw (t := ⟨e.origin, Url.requestPath e.path.toList, query⟩)
    horigin
  rw [url?, target?_of_query hquery]
  simp only [bind, Except.bind, htext]
  rfl

/-- An endpoint whose query cannot be escaped has no URL. -/
theorem url?_of_rawQuery? {fault : Fault} (hquery : e.rawQuery? = .error fault) :
    e.url? = .error fault := by
  rw [url?, target?, hquery]
  rfl

end Query

end Endpoint
end ChainPoll

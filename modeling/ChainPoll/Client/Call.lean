import ChainPoll.Client.Query
import ChainPoll.Paging.Walk
import ChainPoll.Retry.Basic

/-!
# Calls of a client

A call for a single record is one retried call.  A call for events is a walk over pages, each of
them fetched by a retried call of its own, under the deadline of the whole call; its events are put
in order by their identifiers.

Main results:

- Theorem {lit}`Call.resume_ended`: a call that has ended stays as it is.
-/

namespace ChainPoll

/-- A client as its calls see it: the address of the service, and how to try again. -/
structure Station where
  address : String
  policy : Policy
deriving DecidableEq, Repr

/-- Where a call of a client stands. -/
inductive Call.Stage where
  /-- A request is being made, for a page of a walk or for a single record. -/
  | fetching (inner : Retry)
  | ended (endedAt : Time) (outcome : Except Fault Reading)

/-- A call of a client. -/
structure Call where
  station : Station
  query : Query
  limits : Limits
  /-- The pages gathered so far, of a call for events. -/
  walk : Option (Walk EventRecord)
  stage : Call.Stage
  /-- What is left of the script when the call has ended. -/
  script : Script
  /-- What the call has left behind when it has ended. -/
  trace : Trace

namespace Call

/-! ## Changes of a call -/

/-- Ends a call with an outcome. -/
def finish (c : Call) (t : Time) (outcome : Except Fault Reading) : Call :=
  { c with stage := .ended t outcome }

/-- Notes something down between two requests. -/
def jot (c : Call) (t : Time) (notes : List Note) : Call :=
  { c with trace := c.trace.addNotes t notes }

/--
Ends a call by a fault; of a call for events, the page that failed is noted.  No page has failed
when the time of the call is over, and no other timeout gets here, because attempts out of time are
tried again.
-/
def fail (c : Call) (t : Time) (fault : Fault) : Call :=
  match c.walk, fault with
  | none, _ | some _, .timedOut _ => c.finish t (.error fault)
  | some w, _ => (c.jot t (w.faultNotes fault)).finish t (.error fault)

/-- The endpoint of the next request. -/
def endpoint? (c : Call) : Except Fault Endpoint :=
  match c.walk with
  | some w => (c.query.resource w.cursor.fromId w.size.rows).endpoint? c.station.address
  | none => (c.query.resource 0 0).endpoint? c.station.address

/-- What is noted before a request: the query for a page. -/
def requestNotes (c : Call) (endpoint : Endpoint) : Except Fault (List Note) :=
  match c.walk with
  | some _ => endpoint.shownQuery?.map fun query => [.pageQueried query]
  | none => .ok []

/-- Takes over what an inner call that has ended left behind. -/
def leave (c : Call) (inner : Retry) : Call :=
  { c with script := inner.script, trace := inner.trace }

/-- Starts the next request of a call. -/
def fetch (hub : Hub) (c : Call) (now : Time) : Hub × Call :=
  match c.endpoint? with
  | .error fault => (hub, c.fail now fault)
  | .ok endpoint =>
    match c.requestNotes endpoint with
    | .error fault => (hub, c.fail now fault)
    | .ok notes =>
      let c := c.jot now notes
      let (hub, inner) :=
        Retry.begin hub now (.ofEndpoint endpoint c.query.form) c.station.policy c.limits c.script
          c.trace
      match inner.outcome? with
      | some (t, .error fault) => (hub, (c.leave inner).fail t fault)
      | _ => (hub, { c with stage := .fetching inner })

/-- Ends a walk: puts the events in order. -/
def conclude (c : Call) (w : Walk EventRecord) (t : Time) (ending : StreamEnd) : Call :=
  match w.result (.byNumber EventRecord.id) with
  | .ok r => (c.jot t (Walk.endNotes r ending)).finish t (.ok (.events r.data))
  | .error fault => c.finish t (.error fault)

/-- Goes on after a page of a walk. -/
def turn (hub : Hub) (c : Call) (w : Walk EventRecord) (t : Time) (page : Page EventRecord) :
    Hub × Call :=
  let c := c.jot t (w.pageNotes page)
  let next := w.absorb page
  let c := { c with walk := some next }
  match w.endOf page with
  | some ending => (hub, c.conclude next t ending)
  | none => c.fetch hub t

/-- Goes on after the inner call has ended. -/
def settle (hub : Hub) (c : Call) (inner : Retry) (t : Time)
    (outcome : Except Fault (Option Payload)) : Hub × Call :=
  let c := c.leave inner
  match outcome, c.walk with
  | .error fault, _ => (hub, c.fail t fault)
  | .ok payload, some w => c.turn hub w t (Payload.page payload)
  | .ok (some payload), none => (hub, c.finish t (.ok (.ofPayload payload)))
  | .ok none, none => (hub, c.finish t (.ok c.query.nothing))

/-! ## The life of a call -/

/-- Begins a call. -/
def begin (hub : Hub) (now : Time) (station : Station) (query : Query) (limits : Limits)
    (script : Script) : Hub × Call :=
  let c : Call :=
    { station, query, limits, walk := none, stage := .ended now (.ok query.nothing), script
      trace := .empty }
  match query with
  | .events fromId upTo =>
    match Cursor.make? fromId upTo with
    | .error fault => (hub, c.finish now (.error fault))
    | .ok cursor =>
      let size : PageSize := ⟨Settings.pageLimit, by decide⟩
      { c with walk := some (.start size cursor) }.fetch hub now
  | _ => c.fetch hub now

/-- The next move of a call. -/
def resume (hub : Hub) (c : Call) : Hub × Call :=
  match c.stage with
  | .ended _ _ => (hub, c)
  | .fetching inner =>
    let (hub, inner) := inner.resume hub
    match inner.outcome? with
    | none => (hub, { c with stage := .fetching inner })
    | some (t, outcome) => c.settle hub inner t outcome

/-- The instant at which a call moves next. -/
def due (hub : Hub) (c : Call) : Option Time :=
  match c.stage with
  | .ended _ _ => none
  | .fetching inner => (inner.wake hub).map (·.1)

/-- How a call ended, if it has. -/
def outcome? (c : Call) : Option (Time × Except Fault Reading) :=
  match c.stage with
  | .ended t outcome => some (t, outcome)
  | .fetching _ => none

/-- A call that is cancelled at an instant. -/
def cancel (t : Time) (c : Call) : Call :=
  { c with
    limits := { c.limits with cancelAt := some t }
    stage := match c.stage with
      | .fetching inner => .fetching (inner.cancel t)
      | stage => stage }

/-- A call that has ended stays as it is. -/
theorem resume_ended {hub : Hub} {c : Call} (h : c.outcome?.isSome = true) :
    c.resume hub = (hub, c) := by
  unfold outcome? at h
  split at h
  · next hstage => simp [resume, hstage]
  · simp at h

end Call
end ChainPoll

import ChainPoll.Proofs.Poll.Lines

/-!
# Accounts of polls

A poll that has come to its end is accounted for call by call.  Each call begins when the one before
it ended, with what that one left of the script, and the first fault ends the poll.  The lines are
those of the answers that came before; only a call out of time adds a line to them, and every other
fault leaves the poll.

Main results:

- Theorem {lit}`Poll.exists_leg`: what one call of a poll does.
- Theorem {lit}`Poll.exists_legs_through`: what going through stages does.
- Theorem {lit}`Poll.run_accounted`: every poll that has come to its end is accounted for.
-/

namespace ChainPoll

/-- After its closing a quiet hub has no session left open. -/
theorem Hub.Quiet.none_notMem_closings {hub : Hub} (h : hub.Quiet) (now : Time) :
    none ∉ (hub.gateway.close now).sessions.closings := by
  rcases h.sessions with hnone | hone
  · simp [Connector.close, Sessions.close, Sessions.isOpen, hnone]
  · simp [Connector.close, Sessions.close, Sessions.isOpen, hone, Time.reached]

namespace Poll

/-! ## Calls one after another -/

/-- A call has the time that is given for it, if that is a number. -/
theorem callSpan_of_toRat? {a : Arguments} {span : Time} (h : a.timeout.toRat? = some span) :
    callSpan a = some span := by
  unfold callSpan
  split
  · next htimeout => simp [htimeout, Binary64.toRat?] at h
  · next htimeout => simp [htimeout, Binary64.toRat?] at h
  · exact h

/--
One call of a poll: what it asked for, from when to when, by which requests, and what came of it.
-/
structure Leg where
  query : Query
  start : Time
  stop : Time
  requests : List Request
  outcome : Except Fault Reading

namespace Leg

/-- A query with its answer, if there is one. -/
def answer? (leg : Leg) : Option (Query × Reading) :=
  leg.outcome.toOption.map (leg.query, ·)

/-- Whether a call takes a course of its query on a script, in the time that it has. -/
structure Sound (a : Arguments) (script : Script) (leg : Leg) : Prop where
  course : leg.query.Course a.address (some Settings.attemptTimeout) script
    (leg.requests.map (·.url)) leg.outcome
  spanning : Request.Spanning leg.start leg.stop leg.requests
  ordered : leg.start ≤ leg.stop
  /--
  A call that has some time ends by its deadline, and is out of time exactly if it ends at it.
  -/
  inTime : ∀ span, a.timeout.toRat? = some span → 0 < span →
    leg.stop ≤ leg.start + span ∧ (leg.outcome = .error .overdue ↔ leg.stop = leg.start + span)
  /-- A call that is out of time has had a deadline. -/
  late : leg.outcome = .error .overdue → ∃ span, callSpan a = some span ∧
    leg.start + span ≤ leg.stop

end Leg

/--
The calls of a poll for some queries, from an instant on and on a script, up to an instant or a
fault.
-/
inductive Legs (a : Arguments) : List Query → Time → Script → List Leg → Time →
    Option Fault → Prop where
  /-- All queries have been answered. -/
  | done (t : Time) (script : Script) : Legs a [] t script [] t none
  /-- A call that comes to a fault is the last one. -/
  | cut {leg : Leg} {script : Script} {fault : Fault} (queries : List Query)
      (hleg : leg.Sound a script)
      (hfault : leg.outcome = .error fault) :
      Legs a (leg.query :: queries) leg.start script [leg] leg.stop (some fault)
  /-- A call that is answered is followed by the next one at once. -/
  | next {leg : Leg} {script : Script} {reading : Reading} {queries : List Query}
      {legs : List Leg} {t : Time}
      {fault : Option Fault} (hleg : leg.Sound a script) (hreading : leg.outcome = .ok reading)
      (hrest : Legs a queries leg.stop (script.rest leg.requests.length) legs t fault) :
      Legs a (leg.query :: queries) leg.start script (leg :: legs) t fault

namespace Legs

variable {a : Arguments} {queries queries' : List Query} {t t' t'' : Time} {script : Script}
  {legs legs' : List Leg} {fault : Option Fault}

/-- Calls for more queries follow those that were all answered. -/
theorem append (h : Legs a queries t script legs t' none)
    (h' : Legs a queries' t' (script.rest (legs.flatMap (·.requests)).length) legs' t'' fault) :
    Legs a (queries ++ queries') t script (legs ++ legs') t'' fault := by
  generalize hnone : (none : Option Fault) = fault' at h
  induction h with
  | done t script => exact h'
  | cut queries hleg hfault => cases hnone
  | next hleg hreading _ ih =>
      refine .next hleg hreading (ih ?_ hnone)
      rwa [Supply.rest_rest, ← List.length_append]

/-- No call follows one that came to a fault. -/
theorem append_cut {f : Fault} (h : Legs a queries t script legs t' (some f))
    (others : List Query) :
    Legs a (queries ++ others) t script legs t' (some f) := by
  generalize hfault : some f = fault at h
  induction h with
  | done t script => cases hfault
  | cut queries hleg hf =>
      cases hfault
      exact .cut (queries ++ others) hleg hf
  | next hleg hreading _ ih => exact .next hleg hreading (ih hfault)

/-- A fault is that of a deadline, or one that another attempt cannot mend. -/
theorem fault_cases (h : Legs a queries t script legs t' fault) :
    ∀ f ∈ fault, f = .overdue ∨ f.retryable = false := by
  induction h with
  | done t script => simp
  | cut queries hleg hfault =>
      rintro f ⟨⟩
      exact (hfault ▸ hleg.course).fault_cases
  | next _ _ _ ih => exact ih

/-- The fault is that of a deadline exactly if some call has hit its own. -/
theorem exists_overdue_iff (h : Legs a queries t script legs t' fault) :
    (∃ leg ∈ legs, leg.outcome = .error .overdue) ↔ fault = some .overdue := by
  induction h with
  | done t script => simp
  | cut queries hleg hfault => simp [hfault]
  | next hleg hreading _ ih => simp [hreading, ih]

/-- The answers are of the kinds that the queries ask for. -/
theorem fits (h : Legs a queries t script legs t' fault) :
    ∀ x ∈ legs.filterMap Leg.answer?, x.1.Fits x.2 := by
  induction h with
  | done t script => simp
  | cut queries hleg hfault => simp [Leg.answer?, hfault, Except.toOption]
  | next hleg hreading _ ih =>
      have hfits := (hreading ▸ hleg.course).fits
      simpa [Leg.answer?, hreading, Except.toOption, hfits] using ih

/-- Without a fault all queries are answered. -/
theorem queries_eq (h : Legs a queries t script legs t' none) :
    (legs.filterMap Leg.answer?).map (·.1) = queries := by
  generalize hnone : (none : Option Fault) = fault at h
  induction h with
  | done t script => rfl
  | cut queries hleg hfault => cases hnone
  | next hleg hreading _ ih => simp [Leg.answer?, hreading, Except.toOption, ih hnone]

/-- A fault leaves a query unanswered. -/
theorem prefix_queries {f : Fault} (h : Legs a queries t script legs t' (some f)) :
    (legs.filterMap Leg.answer?).map (·.1) <+: queries ∧
    (legs.filterMap Leg.answer?).map (·.1) ≠ queries := by
  generalize hfault : some f = fault at h
  induction h with
  | done t script => cases hfault
  | cut queries hleg hf => simp [Leg.answer?, hf, Except.toOption]
  | next hleg hreading _ ih =>
      obtain ⟨hinitial, hne⟩ := ih hfault
      simp [Leg.answer?, hreading, Except.toOption, hinitial, hne]

end Legs

/-! ## Steps of a poll -/

variable {a : Arguments} {budget : ℕ} {s s' s'' : State} {legs legs' : List Leg}
    {lines lines' : List String}

/-- Whether a poll is ready for its next call. -/
structure State.Ready (a : Arguments) (s : State) : Prop where
  quiet : s.client.hub.Quiet
  limit : s.client.hub.gateway.limit = some (Settings.attemptTimeout : Time)
  station : s.client.station = ⟨a.address, policy⟩

/-- What a poll has become after some calls and some lines. -/
structure State.Went (a : Arguments) (s : State) (legs : List Leg) (lines : List String)
    (s' : State) : Prop where
  ready : s'.Ready a
  script : s'.script = s.script.rest (legs.flatMap (·.requests)).length
  requests : s'.requests = s.requests ++ legs.flatMap (·.requests)
  lines : s'.lines = s.lines ++ lines

/-- Calls and lines that follow others come after these. -/
theorem State.Went.trans (h : s.Went a legs lines s') (h' : s'.Went a legs' lines' s'') :
    s.Went a (legs ++ legs') (lines ++ lines') s'' where
  ready := h'.ready
  script := by rw [h'.script, h.script, Supply.rest_rest, List.flatMap_append, List.length_append]
  requests := by rw [h'.requests, h.requests, List.flatMap_append, List.append_assoc]
  lines := by rw [h'.lines, h.lines, List.append_assoc]

/-- Lines may come after calls. -/
theorem State.Went.report (h : s.Went a legs lines s') (more : List String) :
    s.Went a legs (lines ++ more) { s' with lines := s'.lines ++ more } where
  ready := ⟨h.ready.quiet, h.ready.limit, h.ready.station⟩
  script := h.script
  requests := h.requests
  lines := by rw [h.lines, List.append_assoc]

/-- A poll that has just begun is ready. -/
theorem ready_start (a : Arguments) (script : Script) : (start a script).Ready a where
  quiet := ⟨rfl, .inl rfl⟩
  limit := by simp [start, Client.make, Connector.fresh, Connector.limit, Settings.attemptTimeout]
  station := rfl

/-- What one call of a poll does. -/
theorem exists_leg (h : s.Ready a) {query : Query} {outcome : Except Fault Reading}
    (hasked : (ask budget a s query).2 = some outcome) :
    ∃ leg : Leg, leg.query = query ∧ leg.start = s.now ∧ leg.stop = (ask budget a s query).1.now ∧
      leg.outcome = outcome ∧ leg.Sound a s.script ∧ s.Went a [leg] []
        (ask budget a s query).1 := by
  have hperiod : 0 < s.client.station.policy.period := by
    rw [h.station]
    norm_num [policy, Settings.retryPeriod]
  have hreport : s.client.station.policy.reportEach ≠ 0 := by
    rw [h.station]
    norm_num [policy, Settings.reportInterval]
  have htold := fun t => @Client.told_ask s.client s.now t ⟨query, callSpan a, s.script⟩
    outcome h.quiet hperiod
    hreport budget
  unfold ask at hasked ⊢
  generalize s.client.ask budget s.now ⟨query, callSpan a, s.script⟩ = asked at hasked htold ⊢
  obtain ⟨client, call⟩ := asked
  dsimp only at hasked htold ⊢
  split at hasked
  · next t outcome' hended =>
    obtain rfl : outcome' = outcome := Option.some.inj hasked
    have hcame := htold t hended
    have hcourse := hcame.course
    rw [h.station, h.limit] at hcourse
    refine ⟨⟨query, s.now, t, call.trace.requests, outcome'⟩, rfl, rfl, rfl, rfl,
      ⟨hcourse, hcame.spanning, hcame.timed.le,
        fun span hspan => hcame.timed.le_deadline (callSpan_of_toRat? hspan),
        hcame.timed.exists_span⟩, ?_⟩
    exact
      { ready := ⟨hcame.quiet, hcame.limit.trans h.limit, hcame.station.trans h.station⟩
        script := by simpa using hcame.script
        requests := by simp
        lines := by simp }
  · cases hasked

/-- The fault that a result is, if it is one. -/
def fault? {α : Type} : Except Fault α → Option Fault
  | .ok _ => none
  | .error fault => some fault

/-- What asking for several things does. -/
theorem exists_legs (h : s.Ready a) {queries : List Query} {result : Except Fault (List Reading)}
    (hasked : (askAll budget a s queries).2 = some result) :
    ∃ legs, Legs a queries s.now s.script legs (askAll budget a s queries).1.now (fault? result) ∧
      s.Went a legs [] (askAll budget a s queries).1 ∧
      ∀ readings, result = .ok readings → (legs.filterMap Leg.answer?).map (·.2) = readings := by
  induction queries generalizing s result with
  | nil =>
      obtain rfl := Option.some.inj hasked
      exact ⟨[], .done _ _, ⟨h, rfl, (List.append_nil _).symm, (List.append_nil _).symm⟩,
        by simp [eq_comm]⟩
  | cons query rest ih =>
      have hleg := @exists_leg a budget s h query
      unfold askAll at hasked ⊢
      generalize ask budget a s query = asked at hasked hleg ⊢
      obtain ⟨s', _ | (fault | reading)⟩ := asked
      · cases hasked
      · obtain rfl := Option.some.inj hasked
        obtain ⟨leg, rfl, hstart, hstop, houtcome, hsound, hwent⟩ := hleg rfl
        dsimp only
        rw [← hstart, ← hstop]
        exact ⟨[leg], .cut rest hsound houtcome, hwent, by simp⟩
      · obtain ⟨leg, rfl, hstart, hstop, houtcome, hsound, hwent⟩ := hleg rfl
        obtain ⟨others, hothers, rfl⟩ := Option.map_eq_some_iff.mp hasked
        obtain ⟨legs, hlegs, hwent', hanswers⟩ := ih hwent.ready hothers
        have hscript : s'.script = s.script.rest leg.requests.length := by simpa using hwent.script
        dsimp only at hlegs hwent' ⊢
        rw [hscript, ← hstop] at hlegs
        rw [← hstart]
        refine ⟨leg :: legs, ?_, hwent.trans hwent', fun readings hreadings => ?_⟩
        · have hfault : fault? (others.map (reading :: ·)) = fault? others := by
            cases others <;> rfl
          rw [hfault]
          exact .next hsound houtcome hlegs
        · cases others with
          | error fault => cases hreadings
          | ok readings' =>
              obtain rfl := Except.ok.inj hreadings
              simp [Leg.answer?, houtcome, Except.toOption, hanswers readings' rfl]

/-- What going through stages does. -/
theorem exists_legs_through (h : s.Ready a) {stages : List Stage}
    (htells : ∀ stage ∈ stages, Tells stage) {result : Except Fault Unit}
    (hended : (through budget a s stages).2 = some result) :
    ∃ legs, Legs a (stages.flatMap Stage.queries) s.now s.script legs
      (through budget a s stages).1.now
        (fault? result) ∧
      s.Went a legs (printed (legs.filterMap Leg.answer?)) (through budget a s stages).1 := by
  induction stages generalizing s with
  | nil =>
      obtain rfl := Option.some.inj hended
      exact ⟨[], .done _ _, ⟨h, rfl, (List.append_nil _).symm, (List.append_nil _).symm⟩⟩
  | cons stage rest ih =>
      have hlegs := @exists_legs a budget s h stage.queries
      have hstage := htells stage List.mem_cons_self
      unfold through at hended ⊢
      generalize askAll budget a s stage.queries = asked at hended hlegs ⊢
      obtain ⟨s', _ | (fault | readings)⟩ := asked
      · cases hended
      · obtain rfl := Option.some.inj hended
        obtain ⟨legs, hlegs, hwent, -⟩ := hlegs rfl
        obtain ⟨hinitial, hne⟩ := hlegs.prefix_queries
        rw [← hstage.part _ hinitial hne] at hwent
        exact ⟨legs, hlegs.append_cut _, hwent⟩
      · obtain ⟨legs, hlegs, hwent, hanswers⟩ := hlegs rfl
        have hreported : s.Went a legs (stage.report readings)
            { s' with lines := s'.lines ++ stage.report readings } :=
              hwent.report (stage.report readings)
        obtain ⟨legs', hlegs', hwent'⟩ := ih hreported.ready (fun stage' hmem =>
          htells stage' (List.mem_cons_of_mem _ hmem)) hended
        refine ⟨legs ++ legs', ?_, ?_⟩
        · refine hlegs.append ?_
          rw [← hwent.script]
          exact hlegs'
        · have hlines := hstage.whole _ (legs'.filterMap Leg.answer?) hlegs.queries_eq hlegs.fits
          rw [List.filterMap_append, hlines, hanswers readings rfl]
          exact hreported.trans hwent'

/-! ## Whole polls -/

/-- The line that tells that a call was out of time. -/
def overdueLine (a : Arguments) : String :=
  "Heimdall did not answer within " ++ General.ofBinary64 a.timeout ++ "s"

/-- The line that would tell that the client was closed. -/
def closedLine : String := "Client closed while polling"

/-- A fault that another attempt cannot mend leaves no line. -/
theorem faultLine_eq_none (a : Arguments) {fault : Fault} (h : fault.retryable = false) :
    faultLine a fault = none := by
  cases fault <;> first | rfl | cases h

/-- The account of a poll at a time of day: its calls, and the fault that ended them, if any. -/
structure Account (a : Arguments) (time : Int) (script : Script) (o : Outcome) (legs : List Leg)
    (fault : Option Fault) : Prop where
  calls : Legs a
    ([.checkpoint, .checkpointCount, .milestone, .milestoneCount] ++
      (a.span.map fun id => .span (.number id)).toList ++
      (a.fromId.map fun id => .events id time).toList)
    0 script legs o.endedAt fault
  requests : o.requests = legs.flatMap (·.requests)
  kinds : ∀ f ∈ fault, f = .overdue ∨ f.retryable = false
  lines : o.lines = printed (legs.filterMap Leg.answer?) ++
    if fault = some .overdue then [overdueLine a] else []
  left : o.fault = if fault = some .overdue then none else fault
  overdue : overdueLine a ∈ o.lines ↔ ∃ leg ∈ legs, leg.outcome = .error .overdue
  undisturbed : closedLine ∉ o.lines
  closed : o.client.closed o.endedAt = true
  shut : none ∉ o.client.hub.gateway.sessions.closings

/-- How the line of a call out of time begins. -/
theorem exists_toList_overdueLine (a : Arguments) :
    ∃ rest, (overdueLine a).toList = 'H' :: rest := by
  obtain ⟨rest, hrest⟩ : ∃ rest, "Heimdall did not answer within ".toList = 'H' :: rest := by simp
  unfold overdueLine
  generalize General.ofBinary64 a.timeout = time
  refine ⟨rest ++ (time ++ "s").toList, ?_⟩
  simp only [String.append_assoc, String.toList_append, hrest, List.cons_append]

/-- How the line of a closed client begins. -/
theorem exists_toList_closedLine : ∃ rest, closedLine.toList = 'C' :: 'l' :: rest := by
  simp [closedLine]

/-- The lines of answers are none of those that faults leave. -/
theorem notMem_printed (a : Arguments) (answers : List (Query × Reading)) :
    overdueLine a ∉ printed answers ∧ closedLine ∉ printed answers := by
  constructor
  · intro hmem
    obtain ⟨c, cs, hline, hfirst, -⟩ := opens_of_mem_printed hmem
    obtain ⟨rest, hrest⟩ := exists_toList_overdueLine a
    rw [hrest] at hline
    exact hfirst (List.cons.inj hline).1.symm
  · intro hmem
    obtain ⟨c, cs, hline, -, hsecond⟩ := opens_of_mem_printed hmem
    obtain ⟨rest, hrest⟩ := exists_toList_closedLine
    rw [hrest] at hline
    obtain ⟨rfl, rfl⟩ := List.cons.inj hline
    exact absurd (hsecond rfl) (by simp)

/-- The line of a call out of time does not tell that the client was closed. -/
theorem closedLine_ne_overdueLine (a : Arguments) : closedLine ≠ overdueLine a := by
  intro heq
  obtain ⟨rest, hrest⟩ := exists_toList_overdueLine a
  obtain ⟨rest', hrest'⟩ := exists_toList_closedLine
  rw [← heq, hrest'] at hrest
  exact absurd (List.cons.inj hrest).1 (by decide)

/-- What comes of a poll by the fault that ended its calls, if any. -/
theorem finish_spec (a : Arguments) (s : State) {result : Except Fault Unit}
    (hkinds : ∀ f ∈ fault? result, f = .overdue ∨ f.retryable = false) :
    (finish a s result).client = s.client.close s.now ∧ (finish a s result).endedAt = s.now ∧
      (finish a s result).requests = s.requests ∧
      (finish a s result).lines =
        s.lines ++ (if fault? result = some .overdue then [overdueLine a] else []) ∧
      (finish a s result).fault =
        if fault? result = some .overdue then none else fault? result := by
  cases result with
  | ok _ => simp [finish, fault?]
  | error fault =>
      rcases hkinds fault rfl with rfl | hfatal
      · have hline : faultLine a .overdue = some (overdueLine a) := rfl
        simp [finish, fault?, hline]
      · have hne : fault ≠ .overdue := by
          rintro rfl
          cases hfatal
        simp [finish, fault?, faultLine_eq_none a hfatal, hne]

/-- Every poll that has come to its end is accounted for. -/
theorem run_accounted {budget : ℕ} {a : Arguments} {time : Int} {script : Script} {o : Outcome}
    (h : run budget a time script = some o) : ∃ legs fault, Account a time script o legs fault := by
  have hrun : run budget a time script = (through budget a (start a script) (stages a time)).2.map
      (finish a (through budget a (start a script) (stages a time)).1) := rfl
  have hlegs := @exists_legs_through a budget _ (ready_start a script) (stages a time)
    fun stage hmem => tells_of_mem_stages hmem
  rw [hrun, Option.map_eq_some_iff] at h
  generalize through budget a (start a script) (stages a time) = ended at h hlegs
  obtain ⟨s, _⟩ := ended
  obtain ⟨result, hended, rfl⟩ := h
  obtain ⟨legs, hlegs, hwent⟩ := hlegs hended
  rw [queries_stages] at hlegs
  have hkinds := hlegs.fault_cases
  obtain ⟨hclient, hendedAt, hrequests, hlines, hfault⟩ := finish_spec a s hkinds
  obtain ⟨hoverdue, hclosed⟩ := notMem_printed a (legs.filterMap Leg.answer?)
  have hlines' : (finish a s result).lines = printed (legs.filterMap Leg.answer?) ++
      if fault? result = some .overdue then [overdueLine a] else [] := by
    rw [hlines, hwent.lines]
    rfl
  exact
    ⟨legs, fault? result,
      { calls := hendedAt.symm ▸ hlegs
        requests := hrequests.trans hwent.requests
        kinds := hkinds
        lines := hlines'
        left := hfault
        overdue := by
          rw [hlines', hlegs.exists_overdue_iff]
          by_cases hlate : fault? result = some .overdue <;> simp [hlate, hoverdue]
        undisturbed := by
          rw [hlines']
          by_cases hlate : fault? result = some .overdue <;>
            simp [hlate, hclosed, closedLine_ne_overdueLine]
        closed := by
          rw [hclient, hendedAt]
          exact Client.closed_close _ _
        shut := by
          rw [hclient]
          exact hwent.ready.quiet.none_notMem_closings _ }⟩

/-- A poll of a span and of events too, each of whose calls has twelve seconds. -/
def thorough : Arguments :=
  { Arguments.usual with timeout := .ofDecimal false 12 0, span := some 7, fromId := some 3 }

/-- The body of an answer around a record. -/
def wrapped (result : String) : Answer :=
  let body := "\x7b\"height\":\"9\",\"result\":" ++ result ++ "\x7d"
  .reply (.lasting 1) 200 (.lasting 0) (.ok body.toUTF8)

/-- A checkpoint from the first block on, with the fields that its line shows. -/
def someCheckpoint : Answer :=
  wrapped "\x7b\"start_block\":1,\"end_block\":8,\"root_hash\":\"0xab\"\x7d"

/-- A status that says that there is no such record. -/
def noRecord : Answer := .reply (.lasting 1) 204 (.lasting 0) (.ok .empty)

/--
A failed attempt, a checkpoint and its count, no milestone, a span of two producers, and one event.
-/
def plenty : Script where
  head := .failure (.lasting 1) (.connection .disconnected "gone")
  tail :=
    [someCheckpoint, wrapped "\x7b\"result\":4\x7d", noRecord, noRecord,
      wrapped ("\x7b\"span_id\":7,\"start_block\":1,\"end_block\":8,\"selected_producers\":"
        ++ "[\x7b\"signer\":\"0x1\"\x7d,\x7b\"signer\":\"0x2\"\x7d]\x7d"),
      wrapped "[\x7b\"id\":5,\"contract\":\"0xc\",\"record_time\":\"2023-11-14T22:13:20Z\"\x7d]"]

/-- A failed attempt, a checkpoint, no count of checkpoints yet, and no further answer. -/
def sparse : Script where
  head := .failure (.lasting 1) (.connection .disconnected "gone")
  tail := [someCheckpoint, noRecord, .reply .endless 200 (.lasting 0) (.ok .empty)]

/--
With plenty of answers the thorough poll reports all it has asked for; with few it tells that the
call for the milestone was out of time.
-/
theorem thorough_accounted :
    (∃ o, run 60 thorough 0 plenty = some o ∧
      o.lines = ["Checkpoint #4: blocks 1-8 root 0xab", "Span 7: blocks 1-8 producers [0x1, 0x2]",
        "State sync events from 3 - showing 1:",
        "      ID | Record Time               | Contract                                  ",
        "----------------------------------------------------------------------------------",
        "       5 | 2023-11-14T22:13:20+00:00 | 0xc                                       "] ∧
      ∃ legs fault, Account thorough 0 plenty o legs fault) ∧
    ∃ o, run 60 thorough 0 sparse = some o ∧
      o.lines =
        ["Checkpoint #None: blocks 1-8 root 0xab", "Heimdall did not answer within 12s"] ∧
      ∃ legs fault, Account thorough 0 sparse o legs fault := by
  have hplenty : (run 60 thorough 0 plenty).map (·.lines) =
      some ["Checkpoint #4: blocks 1-8 root 0xab", "Span 7: blocks 1-8 producers [0x1, 0x2]",
        "State sync events from 3 - showing 1:",
        "      ID | Record Time               | Contract                                  ",
        "----------------------------------------------------------------------------------",
        "       5 | 2023-11-14T22:13:20+00:00 | 0xc                                       "] := by
    decide +kernel
  have hsparse : (run 60 thorough 0 sparse).map (·.lines) =
      some ["Checkpoint #None: blocks 1-8 root 0xab", "Heimdall did not answer within 12s"] := by
    decide +kernel
  obtain ⟨o, ho, hlines⟩ := Option.map_eq_some_iff.mp hplenty
  obtain ⟨o', ho', hlines'⟩ := Option.map_eq_some_iff.mp hsparse
  exact ⟨⟨o, ho, hlines, run_accounted ho⟩, o', ho', hlines', run_accounted ho'⟩

end Poll
end ChainPoll

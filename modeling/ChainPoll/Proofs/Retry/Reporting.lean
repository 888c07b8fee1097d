import ChainPoll.Proofs.Retry.Pacing

/-!
# How often a call reports

Of the failed attempts of a call after the first one only some are reported.  How many is no matter
to anything else: two calls that report at different frequencies make the same requests and end in
the same way at the same time, and they note the same but for these reports.  The exception is a
frequency of zero, by which no number can be divided: such a call ends when its second attempt
fails.

Main results:

- Theorem {lit}`Retry.muted_moveBy`: a move does not depend on how often the call reports.
- Theorem {lit}`Retry.Plan.muted_after`: neither do all its moves, in the order of precedence.
- Theorem {lit}`Retry.Plan.Reaches.exists_muted`: nor do they in any other order of events.
- Theorem {lit}`Retry.Plan.reporting_alike`: the frequencies at which calls are alike, and what
  comes of zero.
-/

namespace ChainPoll

/-! ## What is left without reports -/

/-- Whether a note reports that an attempt after the first one has failed. -/
def Note.isLaterReport : Note → Bool
  | .attemptFailed _ attempt _ => 2 ≤ attempt
  | _ => false

/-- The notes that are no such reports. -/
def Note.beside (notes : List Note) : List Note :=
  notes.filter fun note => !note.isLaterReport

/-- What a call leaves behind beside its reports of failed attempts after the first one. -/
def Trace.muted (trace : Trace) : Trace :=
  { trace with entries := trace.entries.filter fun entry => !entry.note.isLaterReport }

/-- Of some notes those are left that are no such reports. -/
theorem Trace.muted_addNotes (trace : Trace) (t : Time) (notes : List Note) :
    (trace.addNotes t notes).muted = trace.muted.addNotes t (Note.beside notes) := by
  simp only [muted, addNotes, List.filter_append, List.filter_map]
  rfl

/-- There is nothing to leave out twice. -/
theorem Trace.muted_muted (trace : Trace) : trace.muted.muted = trace.muted := by
  simp [muted]

namespace Retry

variable {hub hub' : Hub} {r r' : Retry} {t : Time} {cause : Cause}

/--
A call that reports every failed attempt, without the reports that it has made after the first one.
-/
def muted (r : Retry) : Retry :=
  { r with policy := { r.policy with reportEach := 1 }, trace := r.trace.muted }

/-- There is nothing to leave out of a call twice. -/
theorem muted_muted (r : Retry) : r.muted.muted = r.muted := by
  simp only [muted, Trace.muted_muted]

/-- Two calls that differ in their reports of failed attempts after the first one only. -/
structure Alike (r r' : Retry) : Prop where
  outcome : r.outcome? = r'.outcome?
  requests : r.trace.requests = r'.trace.requests
  entries : r.trace.muted.entries = r'.trace.muted.entries

/-- Calls that are the same without these reports are alike. -/
theorem alike_of_muted (h : r.muted = r'.muted) : r.Alike r' where
  outcome := show r.muted.outcome? = r'.muted.outcome? by rw [h]
  requests := congrArg (fun r => r.trace.requests) h
  entries := congrArg (fun r => r.trace.entries) h

/--
The requests of a call are the same without these reports, with the one under way as without it.
-/
theorem requests_traceAt_muted (r : Retry) (t : Time) :
    (r.muted.traceAt t).requests = (r.traceAt t).requests := by
  cases hphase : r.phase <;> simp [traceAt, muted, hphase, Trace.muted, Trace.addRequest]

/-- Attempts are counted from one, and one with a grid is not the first. -/
def Numbered (r : Retry) : Prop :=
  match r.phase with
  | .flying _ none => 1 ≤ r.attempt
  | .flying _ (some _) | .ticking _ _ => 2 ≤ r.attempt
  | .ended _ _ => True

/-- Each move of a call counts its attempts on. -/
theorem Moved.numbered (h : Moved hub r t hub' r') (hr : r.Numbered) : r'.Numbered := by
  cases h with
  | landed _ => trivial
  | @rested _ grid _ _ hphase _ _ =>
      cases grid <;> simp only [Numbered, hphase] at hr ⊢ <;> omega
  | departed hphase _ _ => simpa only [Numbered, hphase] using hr
  | stopped _ => trivial

/-! ## Moves without reports -/

/-- Notes are made in the same way without reports. -/
theorem muted_jot (r : Retry) (t : Time) (notes : List Note) :
    (r.jot t notes).muted = r.muted.jot t (Note.beside notes) := by
  simp only [muted, jot, Trace.muted_addNotes]

/-- Calls stop in the same way without reports. -/
theorem muted_stop (r : Retry) (t : Time) (reason : Stop) (fault : Fault) :
    (r.stop t reason fault).muted = r.muted.stop t reason fault := by
  simp only [stop, finish, jot, muted, Trace.muted_addNotes]
  rfl

/-- Attempts start in the same way without reports. -/
theorem muted_depart (hub : Hub) (r : Retry) (t : Time) (grid : Option Grid) :
    r.muted.depart hub t grid = ((r.depart hub t grid).1, (r.depart hub t grid).2.muted) := by
  cases hurl : r.errand.url with
  | error fault => simp [depart, muted, hurl, finish]
  | ok url => simp [depart, muted, hurl]

/-- Rests are the same without reports. -/
theorem muted_rest (hub : Hub) (r : Retry) (t : Time) (grid : Grid) :
    (r.rest hub t grid).muted = r.muted.rest hub t grid := by
  cases h : hub.signal.given t with
  | true =>
      rw [rest_of_given h, rest_of_given h]
      simp only [muted, Trace.muted_addNotes]
      rfl
  | false =>
      rw [rest_of_not_given h, rest_of_not_given h]
      simp only [muted, Trace.muted_addNotes]
      rfl

/--
Whether a move by a cause is the failure of an attempt after the first one that another may mend.
-/
def FailsAgain (r : Retry) (cause : Cause) : Prop :=
  ∃ flight grid fault, r.phase = .flying flight (some grid) ∧
    r.errand.interpret (flight.outcome cause) = .error fault ∧ cause.endsCall = false ∧
      fault.retryable = true

/--
A call goes on after a failed attempt in the same way without reports, if there are any or the
attempt is the first one.
-/
theorem muted_recover (hub : Hub) (t : Time) {grid : Option Grid} (fault : Fault)
    (hattempt : grid.isSome → r.policy.reportEach ≠ 0 ∧ 2 ≤ r.attempt) :
    (r.muted.recover hub t grid fault).muted = (r.recover hub t grid fault).muted := by
  cases grid with
  | none =>
      have hnotes : r.muted.failureNotes none fault = r.failureNotes none fault := by
        simp [failureNotes, muted]
      by_cases hperiod : 0 < r.policy.period
      · have hperiod' : 0 < r.muted.policy.period := hperiod
        rw [recover_first hperiod, recover_first hperiod', muted_rest, muted_rest, muted_jot,
          muted_jot, muted_muted, hnotes]
        rfl
      · have hperiod' : ¬ 0 < r.muted.policy.period := hperiod
        rw [recover_refused hperiod, recover_refused hperiod', hnotes]
        simp only [finish, jot, muted, Trace.muted_addNotes, Trace.muted_muted]
  | some grid =>
      obtain ⟨hreport, htwo⟩ := hattempt rfl
      -- a failure of such an attempt is noted by a later report or not at all
      have hquiet : ∀ r' : Retry, r'.attempt = r.attempt →
          Note.beside (r'.failureNotes (some grid) fault) = [] := by
        intro r' hsame
        unfold failureNotes
        split <;> simp [Note.beside, Note.isLaterReport, hsame, htwo]
      have hreport' : r.muted.policy.reportEach ≠ 0 := by simp [muted]
      rw [recover_later hreport, recover_later hreport', muted_rest, muted_rest, muted_jot,
        muted_jot, hquiet r rfl, hquiet r.muted rfl, muted_muted]

/-- Exchanges land in the same way without reports. -/
theorem muted_land (hub : Hub) {flight : Flight} {grid : Option Grid}
    (hphase : r.phase = .flying flight grid) (t : Time) (hnumbered : r.Numbered)
    (hreport : r.policy.reportEach ≠ 0 ∨ ¬ r.FailsAgain cause) :
    (r.muted.land hub flight grid t cause).muted = (r.land hub flight grid t cause).muted := by
  have hlanded : { r.muted with trace := r.muted.trace.addRequest (flight.request t) } =
      { r with trace := r.trace.addRequest (flight.request t) }.muted := rfl
  by_cases hlast : ∀ fault, r.errand.interpret (flight.outcome cause) = .error fault →
      cause.endsCall = true ∨ fault.retryable = false
  · have hlast' : ∀ fault, r.muted.errand.interpret (flight.outcome cause) = .error fault →
        cause.endsCall = true ∨ fault.retryable = false := hlast
    rw [land_eq_finish grid t hlast, land_eq_finish grid t hlast', hlanded]
    simp only [finish, muted, Trace.muted_muted]
  · push Not at hlast
    obtain ⟨fault, hcame, hcause, hfatal⟩ := hlast
    have hcame' : r.muted.errand.interpret (flight.outcome cause) = .error fault := hcame
    have hcause' : cause.endsCall = false := by simpa using hcause
    have hretryable : fault.retryable = true := by simpa using hfatal
    rw [land_eq_recover grid t hcame hcause' hretryable,
      land_eq_recover grid t hcame' hcause' hretryable, hlanded]
    refine muted_recover hub t fault fun hgrid => ?_
    obtain ⟨grid, rfl⟩ := Option.isSome_iff_exists.mp hgrid
    refine ⟨hreport.resolve_right fun h => h ⟨flight, grid, fault, hphase, hcame,
      hcause', hretryable⟩,
      ?_⟩
    simpa only [Numbered, hphase] using hnumbered

/-- The move of a call does not depend on how often it reports. -/
theorem muted_moveBy (hub : Hub) (t : Time) (hnumbered : r.Numbered)
    (hreport : r.policy.reportEach ≠ 0 ∨ ¬ r.FailsAgain cause) :
    (r.muted.moveBy hub t cause).1 = (r.moveBy hub t cause).1 ∧
      (r.muted.moveBy hub t cause).2.muted = (r.moveBy hub t cause).2.muted := by
  cases hphase : r.phase with
  | flying flight grid =>
      have hphase' : r.muted.phase = .flying flight grid := hphase
      simp only [moveBy, hphase, hphase']
      exact ⟨trivial, muted_land hub hphase t hnumbered hreport⟩
  | ticking grid since =>
      have hphase' : r.muted.phase = .ticking grid since := hphase
      simp only [moveBy, hphase, hphase']
      cases cause with
      | alarm =>
          rw [wakeUp, wakeUp, muted_depart]
          exact ⟨rfl, muted_muted _⟩
      | closing => exact ⟨rfl, by simp only [wakeUp, ← muted_stop, muted_muted]⟩
      | cancellation => exact ⟨rfl, by simp only [wakeUp, ← muted_stop, muted_muted]⟩
      | deadline => exact ⟨rfl, by simp only [wakeUp, ← muted_stop, muted_muted]⟩
  | ended endedAt outcome =>
      have hphase' : r.muted.phase = .ended endedAt outcome := hphase
      simp only [moveBy, hphase, hphase']
      exact ⟨trivial, muted_muted r⟩

/-- Two calls that differ in their reports only make the same move. -/
theorem moveBy_of_muted_eq (hub : Hub) (t : Time) (cause : Cause) (hmuted : r.muted = r'.muted)
    (hnumbered : r.Numbered)
    (hreport : r.policy.reportEach ≠ 0 ∨ ¬ r.FailsAgain cause)
    (hreport' : r'.policy.reportEach ≠ 0 ∨ ¬ r.FailsAgain cause) :
    (r.moveBy hub t cause).1 = (r'.moveBy hub t cause).1 ∧
      (r.moveBy hub t cause).2.muted = (r'.moveBy hub t cause).2.muted := by
  have hnumbered' : r'.Numbered := show r'.muted.Numbered from hmuted ▸ hnumbered
  have hagain : r'.FailsAgain cause ↔ r.FailsAgain cause :=
    show r'.muted.FailsAgain cause ↔ r.muted.FailsAgain cause by rw [hmuted]
  obtain ⟨hhub, hcall⟩ := muted_moveBy hub t hnumbered hreport
  obtain ⟨hhub', hcall'⟩ := muted_moveBy hub t hnumbered' (hreport'.imp_right (mt hagain.mp))
  rw [← hhub, ← hcall, ← hhub', ← hcall', hmuted]
  exact ⟨rfl, rfl⟩

/-- A call that can divide by its frequency does not end with the fault of one that cannot. -/
theorem outcome?_moveBy_of_failsAgain (hub : Hub) (t : Time) (hagain : r.FailsAgain cause) :
    (r.moveBy hub t cause).2.outcome? = some (t, .error .zeroInterval) ↔
      r.policy.reportEach = 0 := by
  obtain ⟨flight, grid, fault, hphase, hcame, hcause, hretryable⟩ := hagain
  simp only [moveBy, hphase]
  rw [land_eq_recover (some grid) t hcame hcause hretryable]
  by_cases hreport : r.policy.reportEach = 0
  · simp [recover, hreport, finish, outcome?]
  · have hreport' : ({ r with trace := r.trace.addRequest (flight.request t) } :
        Retry).policy.reportEach ≠ 0 := hreport
    rw [recover_later hreport']
    rcases rest_cases hub { r with trace := r.trace.addRequest (flight.request t) } t
        (failureNotes { r with trace := r.trace.addRequest (flight.request t) } (some grid) fault)
        grid with ⟨more, hrest⟩ | ⟨-, more, hrest⟩ <;>
      rw [hrest] <;> simp [outcome?, hreport, Fault.stopped]

namespace Plan

variable {p : Plan} {limits : Limits} {g : Connector} {n m : Int} {k : ℕ}

/-- The same planned call, reporting at another frequency. -/
def reporting (p : Plan) (n : Int) : Plan :=
  { p with policy := { p.policy with reportEach := n } }

/--
Whether the next move of a planned call is at an instant, and is the failure of a further attempt.
-/
def FailsAgainAt (p : Plan) (limits : Limits) (k : ℕ) (t : Time) : Prop :=
  ∃ cause, p.wakeAfter limits k = some (t, cause) ∧ (p.after limits k).2.FailsAgain cause

/-- A call begins in the same way whatever its frequency. -/
theorem muted_begin (hub : Hub) (p : Plan) (limits : Limits) (n m : Int) :
    let begin := fun i => Retry.begin hub p.now (p.reporting i).errand (p.reporting i).policy limits
      (p.reporting i).script .empty
    (begin n).1 = (begin m).1 ∧ (begin n).2.muted = (begin m).2.muted := by
  cases hgiven : hub.signal.given p.now with
  | true => simp [Retry.begin, hgiven, reporting, muted]
  | false =>
      cases hurl : p.errand.url <;>
        simp [Retry.begin, hgiven, reporting, muted, depart, hurl, finish]

/-- A call tries again as it was told to when it began. -/
theorem policy_begin (hub : Hub) (now : Time) (errand : Errand) (policy : Policy) (limits : Limits)
    (script : Script) : (begin hub now errand policy limits script .empty).2.policy = policy := by
  rcases begin_cases hub now errand policy limits script .empty with
    ⟨fault, hbegin⟩ | ⟨url, -, -, hbegin⟩ <;> rw [hbegin]

/-- Attempts of a call that begins are counted from one. -/
theorem numbered_begin (hub : Hub) (now : Time) (errand : Errand)
    (policy : Policy) (limits : Limits) (script : Script) :
    (begin hub now errand policy limits script .empty).2.Numbered := by
  rcases begin_cases hub now errand policy limits script .empty with
    ⟨fault, hbegin⟩ | ⟨url, -, -, hbegin⟩ <;>
    rw [hbegin] <;> simp [Numbered]

/-- The attempts of a planned call are counted from one. -/
theorem numbered_after (p : Plan) (limits : Limits) (k : ℕ) : (p.after limits k).2.Numbered := by
  apply after_induction (motive := fun _ _ r => r.Numbered)
  · exact numbered_begin ..
  · exact fun _ _ _ _ _ _ _ hr _ hmoved => hmoved.numbered hr
  · exact fun _ _ _ hr _ => hr

/-- A planned call goes on with the move by what ends its wait. -/
theorem after_succ_of_wakeAfter {t : Time} {cause : Cause}
    (h : p.wakeAfter limits k = some (t, cause)) :
    p.after limits (k + 1) = (p.after limits k).2.moveBy (p.after limits k).1 t cause := by
  rw [after_succ, resume_eq_moveBy h]

/-- Calls that differ in their reports only have waited for the same. -/
theorem wakeAfter_of_muted_eq {q : Plan} (hhub : (p.after limits k).1 = (q.after limits k).1)
    (hmuted : (p.after limits k).2.muted = (q.after limits k).2.muted) :
    p.wakeAfter limits k = q.wakeAfter limits k :=
  show (p.after limits k).2.muted.wake _ = (q.after limits k).2.muted.wake _ by rw [hhub, hmuted]

/--
The moves of a call do not depend on how often it reports, unless that is a frequency of zero and an
attempt after the first one has failed.
-/
theorem muted_after (limits : Limits) (hn : n ≠ 0)
    (hm : m ≠ 0 ∨ ∀ j < k, ∀ t, ¬ (p.reporting n).FailsAgainAt limits j t) :
    ((p.reporting n).after limits k).1 = ((p.reporting m).after limits k).1 ∧
      ((p.reporting n).after limits k).2.muted = ((p.reporting m).after limits k).2.muted := by
  induction k with
  | zero => exact muted_begin p.hub p limits n m
  | succ k ih =>
      obtain ⟨hhub, hmuted⟩ := ih (hm.imp_right fun h j hj => h j (by omega))
      have hsame := wakeAfter_of_muted_eq hhub hmuted
      cases hwake : (p.reporting n).wakeAfter limits k with
      | none =>
          rw [after_of_wakeAfter_eq_none hwake k.le_succ,
            after_of_wakeAfter_eq_none (hsame ▸ hwake) k.le_succ]
          exact ⟨hhub, hmuted⟩
      | some a =>
          obtain ⟨t, cause⟩ := a
          rw [after_succ_of_wakeAfter hwake, after_succ_of_wakeAfter (hsame ▸ hwake), ← hhub]
          refine moveBy_of_muted_eq _ t cause hmuted (numbered_after ..) (.inl ?_) ?_
          · rw [((p.reporting n).frame_after limits k).2.1]
            exact hn
          · rw [((p.reporting m).frame_after limits k).2.1]
            exact hm.imp_right fun h hagain => h k k.lt_succ_self t ⟨cause, hwake, hagain⟩

/--
In any order of events a call can come to the same places whatever its frequency, if that is not
zero.
-/
theorem Reaches.exists_muted (h : (p.reporting n).Reaches limits g r) (hn : n ≠ 0) (hm : m ≠ 0) :
    r.policy.reportEach = n ∧ r.Numbered ∧
      ∃ r', (p.reporting m).Reaches limits g r' ∧ r'.policy.reportEach = m ∧
        r.muted = r'.muted := by
  induction h with
  | @begin seen hseen =>
      obtain ⟨hhub, hmuted⟩ := muted_begin ⟨seen, p.hub.gateway⟩ p limits n m
      refine ⟨?_, numbered_begin .., _, hhub ▸ .begin hseen, ?_, hmuted⟩
      · rw [policy_begin]
        rfl
      · rw [policy_begin]
        rfl
  | @move g r w t cause seen _ hwait hend hseen ih =>
      obtain ⟨hpolicy, hnumbered, r', hreaches', hpolicy', hmuted⟩ := ih
      have hwait' : r'.wait? ⟨p.hub.signal, g⟩ = some w :=
        show r'.muted.wait? _ = some w from hmuted ▸ hwait
      have hmoved := moved_moveBy hwait hend ⟨seen, g⟩
      have hmoved' := moved_moveBy hwait' hend ⟨seen, g⟩
      obtain ⟨hhub, hcall⟩ := moveBy_of_muted_eq ⟨seen, g⟩ t cause hmuted hnumbered
        (.inl (hpolicy ▸ hn)) (.inl (hpolicy' ▸ hm))
      refine ⟨?_, hmoved.numbered hnumbered, _, hhub ▸ .move hreaches' hwait' hend hseen, ?_, hcall⟩
      · rw [hmoved.frame.2.1, hpolicy]
      · rw [hmoved'.frame.2.1, hpolicy']
  | shared _ htimeout ih =>
      obtain ⟨hpolicy, hnumbered, r', hreaches', hpolicy', hmuted⟩ := ih
      exact ⟨hpolicy, hnumbered, r', .shared hreaches' htimeout, hpolicy', hmuted⟩

/-- A call with a frequency of zero ends when an attempt after the first one fails. -/
theorem zero_of_failsAgainAt {t : Time} {j : ℕ} (hn : n ≠ 0)
    (hagain : (p.reporting n).FailsAgainAt limits k t)
    (hfirst : ∀ j < k, ∀ u, ¬ (p.reporting n).FailsAgainAt limits j u) (hj : k < j) :
    ((p.reporting 0).after limits j).2.outcome? = some (t, .error .zeroInterval) ∧
      ((p.reporting 0).after limits j).2.trace.requests =
        ((p.reporting n).after limits (k + 1)).2.trace.requests ∧
      ((p.reporting n).after limits (k + 1)).2.outcome? ≠ some (t, .error .zeroInterval) := by
  obtain ⟨cause, hwake, hagain⟩ := hagain
  obtain ⟨hhub, hmuted⟩ := muted_after (m := 0) limits hn (.inr hfirst)
  have hwake' := wakeAfter_of_muted_eq hhub hmuted ▸ hwake
  have hagain' : ((p.reporting 0).after limits k).2.FailsAgain cause :=
    show ((p.reporting 0).after limits k).2.muted.FailsAgain cause from hmuted ▸ hagain
  have hends : ((p.reporting 0).after limits (k + 1)).2.outcome? =
      some (t, .error .zeroInterval) := by
    rw [after_succ_of_wakeAfter hwake', outcome?_moveBy_of_failsAgain _ t hagain',
      ((p.reporting 0).frame_after limits k).2.1]
    rfl
  have hidle : (p.reporting 0).wakeAfter limits (k + 1) = none :=
    wake_ended (phase_of_outcome? hends)
  have hstays := after_of_wakeAfter_eq_none hidle hj
  refine ⟨hstays ▸ hends, ?_, ?_⟩
  · obtain ⟨notes, htrace⟩ := (moved_after hwake).trace_eq
    obtain ⟨notes', htrace'⟩ := (moved_after hwake').trace_eq
    rw [hstays, htrace, htrace']
    exact (requests_traceAt_muted _ t).symm.trans (hmuted ▸ requests_traceAt_muted _ t)
  · rw [after_succ_of_wakeAfter hwake, Ne, outcome?_moveBy_of_failsAgain _ t hagain,
      ((p.reporting n).frame_after limits k).2.1]
    exact hn

/--
Two calls that differ in how often they report make the same requests, end in the same way at the
same time, and note the same but for their reports of failed attempts after the first one: after
each number of moves, and in any order of events.  Only if one of the frequencies is zero that does
not hold once an attempt after the first one fails: that call ends there, with a fault that no
answer has raised.
-/
theorem reporting_alike (p : Plan) (limits : Limits) (hn : n ≠ 0) (m : Int) :
    ((∀ k, ((p.reporting n).after limits k).1 = ((p.reporting m).after limits k).1 ∧
        ((p.reporting n).after limits k).2.Alike ((p.reporting m).after limits k).2) ↔
      m ≠ 0 ∨ ∀ k t, ¬ (p.reporting n).FailsAgainAt limits k t) ∧
    (m ≠ 0 → ∀ g r, (p.reporting n).Reaches limits g r →
      ∃ r', (p.reporting m).Reaches limits g r' ∧ r.Alike r') ∧
    ∀ k t, (p.reporting n).FailsAgainAt limits k t →
      (∀ j < k, ∀ u, ¬ (p.reporting n).FailsAgainAt limits j u) → ∀ j, k < j →
        ((p.reporting 0).after limits j).2.outcome? = some (t, .error .zeroInterval) ∧
          ((p.reporting 0).after limits j).2.trace.requests =
            ((p.reporting n).after limits (k + 1)).2.trace.requests := by
  refine ⟨⟨?_, ?_⟩, ?_, ?_⟩
  · intro halike
    by_contra hnot
    push Not at hnot
    obtain ⟨rfl, hsome⟩ := hnot
    classical
    obtain ⟨t, hagain⟩ := Nat.find_spec hsome
    have hfirst : ∀ j < Nat.find hsome, ∀ u, ¬ (p.reporting n).FailsAgainAt limits j u :=
      fun j hj u h => Nat.find_min hsome hj ⟨u, h⟩
    obtain ⟨hends, -, hnot⟩ := zero_of_failsAgainAt hn hagain hfirst (Nat.lt_succ_self _)
    exact hnot ((halike _).2.outcome.trans hends)
  · intro hm k
    obtain ⟨hhub, hmuted⟩ := muted_after (p := p) (k := k) limits hn (hm.imp_right fun h j _ => h j)
    exact ⟨hhub, alike_of_muted hmuted⟩
  · intro hm g r hreaches
    obtain ⟨-, -, r', hreaches', -, hmuted⟩ := hreaches.exists_muted hn hm
    exact ⟨r', hreaches', alike_of_muted hmuted⟩
  · intro k t hagain hfirst j hj
    obtain ⟨hends, hrequests, -⟩ := zero_of_failsAgainAt hn hagain hfirst hj
    exact ⟨hends, hrequests⟩

/-- A call of which the first two attempts fail, and the third one is answered without content. -/
def relapsing : Plan where
  hub := { signal := .pending, gateway := .fresh 30 }
  now := 0
  errand := { url := .ok "http://h/milestone", path := "/milestone", form := .milestone }
  policy := { period := 1, reportEach := 1 }
  script :=
    { head := .reply (.lasting 0) 500 (.lasting 0) (.ok .empty)
      tail := [.reply (.lasting 0) 500 (.lasting 0) (.ok .empty),
        .reply (.lasting 0) 204 (.lasting 0) (.ok .empty)] }

/--
The relapsing call ends in the same way if it reports every second failure, but not with zero.
-/
theorem relapsing_alike :
    (1 : Int) ≠ 0 ∧
      (∀ k, ((relapsing.reporting 1).after .none k).2.Alike
      ((relapsing.reporting 2).after .none k).2) ∧
      ((relapsing.reporting 1).after .none 5).2.outcome? = some (2, .ok none) ∧
      ((relapsing.reporting 0).after .none 5).2.outcome? = some (1, .error .zeroInterval) ∧
      ∃ k t, (relapsing.reporting 1).FailsAgainAt .none k t := by
  have hends : ((relapsing.reporting 1).after .none 5).2.outcome? = some (2, .ok none) := by
    decide +kernel
  have hzero : ((relapsing.reporting 0).after .none 5).2.outcome? =
      some (1, .error .zeroInterval) := by decide +kernel
  obtain ⟨htwo, -, -⟩ := reporting_alike relapsing .none (by decide : (1 : Int) ≠ 0) 2
  obtain ⟨hnone, -, -⟩ := reporting_alike relapsing .none (by decide : (1 : Int) ≠ 0) 0
  refine ⟨by decide, fun k => (htwo.mpr (.inl (by decide)) k).2, hends, hzero, ?_⟩
  by_contra hnot
  push Not at hnot
  have hsame := (hnone.mpr (.inr hnot) 5).2.outcome
  rw [hends, hzero] at hsame
  simp at hsame

end Plan
end Retry
end ChainPoll

import Mathlib.Algebra.Order.Ring.Rat
import Mathlib.Tactic.Linarith
import ChainPoll.Retry.Errand
import ChainPoll.Transport.Connector

/-!
# What attempts come to

An attempt comes to an envelope, to nothing, or to a fault, and takes so long.  Both are settled by
the answer, by the time that the attempt has, and by the envelope that is expected.  The rules for
them name each status, each body and each pause, and are shown to be what an exchange does.

Main results:

- Theorem {lit}`Errand.course_of_yields`: an exchange lands as the rules say.
- Theorem {lit}`Errand.yields_of_course`: the rules cover every exchange that lands.
- Theorem {lit}`Errand.Yields.unique`: an attempt comes to one outcome, at one time.
-/

namespace ChainPoll

/-! ## Pauses -/

/-- When a pause is over that begins so long after its attempt, in the time that the attempt has. -/
inductive Pause.EndsBy (limit : Option Time) (begun : Time) : Pause → Time → Prop where
  | lasting {span : Time} (h : ∀ l ∈ limit, begun + max 0 span ≤ l) :
      EndsBy limit begun (.lasting span) (begun + max 0 span)

namespace Pause

variable {pause : Pause} {limit : Option Time} {start begun ended l : Time}

/-- A pause is over when it lasts no longer than the time that the attempt has. -/
theorem endsBy_of_le {span : Time} (h : begun + max 0 span ≤ l) :
    (Pause.lasting span).EndsBy (some l) begun (begun + max 0 span) :=
  .lasting fun _ hl => Option.some.inj hl ▸ h

/-- A pause is not over before it begins. -/
theorem EndsBy.le (h : pause.EndsBy limit begun ended) : begun ≤ ended := by
  obtain ⟨-⟩ := h
  exact le_add_of_nonneg_right (le_max_left _ _)

/-- A pause that is over in time is over within the time that the attempt has. -/
theorem EndsBy.le_limit (h : pause.EndsBy limit begun ended) : ∀ l ∈ limit, ended ≤ l := by
  obtain ⟨hle⟩ := h
  exact hle

/-- A pause that is over in time reaches its end. -/
theorem arrival_of_endsBy (h : pause.EndsBy limit begun ended) (start : Time) :
    pause.arrival (start + begun) (limit.map (start + ·)) = .reached (start + ended) := by
  obtain ⟨hle⟩ := h
  rename_i span
  by_cases hspan : span ≤ 0
  · simp [arrival, hspan]
  · have hpos : 0 < span := not_le.mp hspan
    rw [max_eq_right hpos.le, ← add_assoc]
    refine arrival_eq_reached hpos ?_
    intro c hc
    obtain ⟨l, hl, rfl⟩ := Option.mem_map.mp hc
    have hspanl := hle l hl
    rw [max_eq_right hpos.le] at hspanl
    linarith

/-- A pause that is not over in time is cut off when the time is over. -/
theorem arrival_of_late (hbegun : begun ≤ l) (h : ∀ u, ¬ pause.EndsBy (some l) begun u)
    (start : Time) : pause.arrival (start + begun) (some (start + l)) = .cutOff (start + l) := by
  cases pause with
  | endless => rfl
  | lasting span =>
      have hlate : l < begun + max 0 span := by
        by_contra hle
        refine h _ (.lasting ?_)
        intro m hm
        rw [← Option.some.inj hm]
        exact not_lt.mp hle
      have hspan : ¬ span ≤ 0 := by
        intro hspan
        rw [max_eq_left hspan, add_zero] at hlate
        exact absurd hbegun (not_le.mpr hlate)
      rw [max_eq_right (not_le.mp hspan).le] at hlate
      have hcut : start + l < start + begun + span := by linarith
      simp [arrival, hspan, hcut]

/-- Without a limit a pause that is never over reaches nothing. -/
theorem arrival_of_never (h : ∀ u, ¬ pause.EndsBy none begun u) (start : Time) :
    pause.arrival start none = .never := by
  cases pause with
  | endless => rfl
  | lasting span => exact absurd (.lasting (by simp)) (h _)

/-- What becomes of a pause that begins in the time that the attempt has. -/
theorem arrival_cases (pause : Pause) (limit : Option Time) (hbegun : ∀ l ∈ limit, begun ≤ l)
    (start : Time) :
    (∃ ended, pause.EndsBy limit begun ended ∧
        pause.arrival (start + begun) (limit.map (start + ·)) = .reached (start + ended)) ∨
      (∀ u, ¬ pause.EndsBy limit begun u) ∧
        ((∃ l, limit = some l ∧
            pause.arrival (start + begun) (limit.map (start + ·)) = .cutOff (start + l)) ∨
          limit = none ∧ pause.arrival (start + begun) (limit.map (start + ·)) = .never) := by
  by_cases h : ∃ ended, pause.EndsBy limit begun ended
  · obtain ⟨ended, hended⟩ := h
    exact .inl ⟨ended, hended, arrival_of_endsBy hended start⟩
  · have hnever : ∀ u, ¬ pause.EndsBy limit begun u := not_exists.mp h
    refine .inr ⟨hnever, ?_⟩
    cases limit with
    | none => exact .inr ⟨rfl, arrival_of_never hnever _⟩
    | some l => exact .inl ⟨l, rfl, arrival_of_late (hbegun l rfl) hnever start⟩

end Pause

/-! ## Attempts -/

/-- The pause before the status of an answer, or before its fault. -/
def Answer.delay : Answer → Pause
  | .reply delay _ _ _ => delay
  | .failure delay _ => delay

/-- What an attempt comes to, and how long it takes, by its answer and the time that it has. -/
inductive Errand.Yields (errand : Errand) (limit : Option Time) :
    Answer → Time → Except Fault (Option Payload) → Prop where
  /-- The transport fails. -/
  | failure {delay : Pause} {fault : Fault} {span : Time} (h : delay.EndsBy limit 0 span) :
      Yields errand limit (.failure delay fault) span (.error fault)
  /-- There is nothing yet. -/
  | noContent {delay readDelay : Pause} {body : Except Fault ByteArray} {span : Time}
      (h : delay.EndsBy limit 0 span) :
      Yields errand limit (.reply delay 204 readDelay body) span (.ok none)
  /-- Any other status than success. -/
  | badStatus {delay readDelay : Pause} {body : Except Fault ByteArray} {status : Int} {span : Time}
      (h : delay.EndsBy limit 0 span) (hstatus : status ≠ 204) (hstatus' : status ≠ 200) :
      Yields errand limit (.reply delay status readDelay body) span (.error (.badStatus status ""))
  /-- Reading the body fails. -/
  | readFailure {delay readDelay : Pause} {fault : Fault} {begun span : Time}
      (h : delay.EndsBy limit 0 begun) (hread : readDelay.EndsBy limit begun span) :
      Yields errand limit (.reply delay 200 readDelay (.error fault)) span (.error fault)
  /-- The body is empty. -/
  | emptyBody {delay readDelay : Pause} {bytes : ByteArray} {begun span : Time}
      (h : delay.EndsBy limit 0 begun) (hread : readDelay.EndsBy limit begun span)
      (hempty : bytes.isEmpty = true) :
      Yields errand limit (.reply delay 200 readDelay (.ok bytes)) span (.error .noBody)
  /-- The body does not hold the envelope. -/
  | misshapen {delay readDelay : Pause} {bytes : ByteArray} {begun span : Time}
      {flaws : List Record.Flaw} (h : delay.EndsBy limit 0 begun)
      (hread : readDelay.EndsBy limit begun span) (hempty : bytes.isEmpty = false)
      (hdecode : errand.form.decode bytes = .error flaws) :
      Yields errand limit (.reply delay 200 readDelay (.ok bytes)) span
        (.error (.misshapen errand.form.title errand.path flaws))
  /-- The body holds the envelope. -/
  | payload {delay readDelay : Pause} {bytes : ByteArray} {begun span : Time} {payload : Payload}
      (h : delay.EndsBy limit 0 begun) (hread : readDelay.EndsBy limit begun span)
      (hempty : bytes.isEmpty = false) (hdecode : errand.form.decode bytes = .ok payload) :
      Yields errand limit (.reply delay 200 readDelay (.ok bytes)) span (.ok (some payload))
  /-- The time is over before the status or the fault. -/
  | lateAnswer {answer : Answer} {span : Time} (hlimit : limit = some span)
      (h : ∀ u, ¬ answer.delay.EndsBy limit 0 u) :
      Yields errand limit answer span (.error .overdue)
  /-- The time is over before the body. -/
  | lateBody {delay readDelay : Pause} {body : Except Fault ByteArray} {begun span : Time}
      (hlimit : limit = some span) (h : delay.EndsBy limit 0 begun)
      (hread : ∀ u, ¬ readDelay.EndsBy limit begun u) :
      Yields errand limit (.reply delay 200 readDelay body) span (.error .overdue)

namespace Errand

variable {errand : Errand} {limit : Option Time} {answer : Answer} {start span : Time}
  {outcome : Except Fault (Option Payload)}

/-- The landing of an exchange without a body, after a pause that is over or cut off. -/
theorem landing_bare_reached (t : Time) (result : Except Fault Body) :
    (Course.bare (.reached t) result).landing = some (t, result) := rfl

/-- An attempt whose body is empty comes to a fault. -/
theorem interpret_emptyBody {bytes : ByteArray} (hempty : bytes.isEmpty = true) :
    errand.interpret (.ok (some bytes)) = .error .noBody := by
  simp [interpret, decode, hempty, Except.map]

/-- An attempt whose body does not hold the envelope comes to a fault. -/
theorem interpret_misshapen {bytes : ByteArray} {flaws : List Record.Flaw}
    (hempty : bytes.isEmpty = false) (hdecode : errand.form.decode bytes = .error flaws) :
    errand.interpret (.ok (some bytes)) =
      .error (.misshapen errand.form.title errand.path flaws) := by
  have hbody : errand.decode bytes = .error (.misshapen errand.form.title errand.path flaws) := by
    simp only [decode, hempty, Bool.false_eq_true, if_false, hdecode]
  rw [interpret, hbody]
  rfl

/-- An attempt whose body holds the envelope comes to it. -/
theorem interpret_payload {bytes : ByteArray} {payload : Payload} (hempty : bytes.isEmpty = false)
    (hdecode : errand.form.decode bytes = .ok payload) :
    errand.interpret (.ok (some bytes)) = .ok (some payload) := by
  have hbody : errand.decode bytes = .ok payload := by
    simp only [decode, hempty, Bool.false_eq_true, if_false, hdecode]
  rw [interpret, hbody]
  rfl

/-- The landing of an exchange whose body is read. -/
theorem landing_of_success {delay readDelay : Pause} {body : Except Fault ByteArray} {begun : Time}
    (h : delay.EndsBy limit 0 begun) (start : Time) :
    ((Answer.reply delay 200 readDelay body).course start (limit.map (start + ·))).landing =
      (Course.bare (readDelay.arrival (start + begun) (limit.map (start + ·)))
        (body.map some)).landing := by
  have harrival := Pause.arrival_of_endsBy h start
  rw [add_zero] at harrival
  simp [Answer.course, harrival, Course.reading]

/-- The landing of an exchange whose body is read in time. -/
theorem landing_of_read {delay readDelay : Pause} {body : Except Fault ByteArray} {begun : Time}
    (h : delay.EndsBy limit 0 begun) (hread : readDelay.EndsBy limit begun span) (start : Time) :
    ((Answer.reply delay 200 readDelay body).course start (limit.map (start + ·))).landing =
      some (start + span, body.map some) := by
  rw [landing_of_success h, Pause.arrival_of_endsBy hread, landing_bare_reached]

/-- An exchange whose answer does not come in time lands when the time is over, if ever. -/
theorem landing_of_late (arrival : Arrival) (hlate : ∀ t, arrival ≠ .reached t)
    (harrival : answer.delay.arrival start limit = arrival) :
    (answer.course start limit).landing = (Course.bare arrival (.ok none)).landing := by
  cases answer with
  | failure delay fault =>
      simp only [Answer.delay] at harrival
      cases arrival with
      | reached t => exact absurd rfl (hlate t)
      | cutOff t => simp [Answer.course, harrival, Course.bare]
      | never => simp [Answer.course, harrival, Course.bare]
  | reply delay status readDelay body =>
      simp only [Answer.delay] at harrival
      cases arrival with
      | reached t => exact absurd rfl (hlate t)
      | cutOff t => simp [Answer.course, harrival]
      | never => simp [Answer.course, harrival]

/-- An exchange lands as the rules say. -/
theorem course_of_yields (hlimit : ∀ l ∈ limit, 0 ≤ l) (h : errand.Yields limit answer span outcome)
    (start : Time) :
    ∃ result, (answer.course start (limit.map (start + ·))).landing = some (start + span, result) ∧
      errand.interpret result = outcome := by
  cases h with
  | @failure delay fault _ h =>
      have harrival := Pause.arrival_of_endsBy h start
      rw [add_zero] at harrival
      exact ⟨.error fault, by simp [Answer.course, harrival, Course.bare], rfl⟩
  | noContent h =>
      have harrival := Pause.arrival_of_endsBy h start
      rw [add_zero] at harrival
      exact ⟨.ok none, by simp [Answer.course, harrival, Course.bare], rfl⟩
  | @badStatus delay readDelay body status _ h hstatus hstatus' =>
      have harrival := Pause.arrival_of_endsBy h start
      rw [add_zero] at harrival
      refine ⟨.error (.badStatus status ""), ?_, rfl⟩
      simp [Answer.course, harrival, hstatus, hstatus', Course.bare]
  | readFailure h hread => exact ⟨_, landing_of_read h hread start, rfl⟩
  | emptyBody h hread hempty =>
      exact ⟨_, landing_of_read h hread start, interpret_emptyBody hempty⟩
  | misshapen h hread hempty hdecode =>
      exact ⟨_, landing_of_read h hread start, interpret_misshapen hempty hdecode⟩
  | payload h hread hempty hdecode =>
      exact ⟨_, landing_of_read h hread start, interpret_payload hempty hdecode⟩
  | lateAnswer hspan h =>
      subst hspan
      have harrival := Pause.arrival_of_late (hlimit span rfl) h start
      rw [add_zero] at harrival
      refine ⟨.error .overdue, ?_, rfl⟩
      rw [Option.map_some, landing_of_late _ (by simp) harrival]
      rfl
  | lateBody hspan h hread =>
      subst hspan
      refine ⟨.error .overdue, ?_, rfl⟩
      rw [landing_of_success h, Option.map_some,
        Pause.arrival_of_late (h.le_limit span rfl) hread start]
      rfl

/-- What an attempt comes to when its status is a success and its body was read. -/
theorem yields_of_read {delay readDelay : Pause} {body : Except Fault ByteArray} {begun : Time}
    (h : delay.EndsBy limit 0 begun) (hread : readDelay.EndsBy limit begun span) :
    errand.Yields limit (.reply delay 200 readDelay body) span
      (errand.interpret (body.map some)) := by
  cases body with
  | error fault => exact .readFailure h hread
  | ok bytes =>
      change errand.Yields limit _ span (errand.interpret (.ok (some bytes)))
      cases hempty : bytes.isEmpty with
      | true =>
          rw [interpret_emptyBody hempty]
          exact .emptyBody h hread hempty
      | false =>
          cases hdecode : errand.form.decode bytes with
          | error flaws =>
              rw [interpret_misshapen hempty hdecode]
              exact .misshapen h hread hempty hdecode
          | ok payload =>
              rw [interpret_payload hempty hdecode]
              exact .payload h hread hempty hdecode

/-- The rules cover every exchange that lands. -/
theorem yields_of_course (hlimit : ∀ l ∈ limit, 0 ≤ l) {t : Time} {result : Except Fault Body}
    (h : (answer.course start (limit.map (start + ·))).landing = some (t, result)) :
    ∃ span, t = start + span ∧ errand.Yields limit answer span (errand.interpret result) := by
  have hdelay := Pause.arrival_cases answer.delay limit hlimit start
  rw [add_zero] at hdelay
  rcases hdelay with ⟨begun, hbegun, harrival⟩ | ⟨hlate, ⟨l, rfl, harrival⟩ | ⟨rfl, harrival⟩⟩
  · cases answer with
    | failure delay fault =>
        simp only [Answer.delay] at hbegun harrival
        simp only [Answer.course, harrival, Course.bare, Option.some.injEq, Prod.mk.injEq] at h
        obtain ⟨rfl, rfl⟩ := h
        exact ⟨begun, rfl, .failure hbegun⟩
    | reply delay status readDelay body =>
        simp only [Answer.delay] at hbegun harrival
        by_cases hnone : status = 204
        · subst hnone
          simp only [Answer.course, harrival, Course.bare, if_true, Option.some.injEq,
            Prod.mk.injEq] at h
          obtain ⟨rfl, rfl⟩ := h
          exact ⟨begun, rfl, .noContent hbegun⟩
        by_cases hsuccess : status = 200
        · subst hsuccess
          rw [landing_of_success hbegun] at h
          rcases Pause.arrival_cases readDelay limit hbegun.le_limit start with
            ⟨ended, hended, hread⟩ | ⟨hlate, ⟨l, rfl, hread⟩ | ⟨rfl, hread⟩⟩
          · rw [hread, landing_bare_reached, Option.some.injEq, Prod.mk.injEq] at h
            obtain ⟨rfl, rfl⟩ := h
            exact ⟨ended, rfl, yields_of_read hbegun hended⟩
          · simp only [hread, Course.bare, Option.some.injEq, Prod.mk.injEq] at h
            obtain ⟨rfl, rfl⟩ := h
            exact ⟨l, rfl, .lateBody rfl hbegun hlate⟩
          · rw [hread] at h
            simp [Course.bare] at h
        · simp only [Answer.course, harrival, Course.bare, hnone, hsuccess, if_false,
            Option.some.injEq, Prod.mk.injEq] at h
          obtain ⟨rfl, rfl⟩ := h
          exact ⟨begun, rfl, .badStatus hbegun hnone hsuccess⟩
  · rw [landing_of_late _ (by simp) harrival] at h
    simp only [Course.bare, Option.some.injEq, Prod.mk.injEq] at h
    obtain ⟨rfl, rfl⟩ := h
    exact ⟨l, rfl, .lateAnswer rfl hlate⟩
  · rw [landing_of_late _ (by simp) harrival] at h
    simp [Course.bare] at h

/-- An attempt comes to one outcome, at one time. -/
theorem Yields.unique (hlimit : ∀ l ∈ limit, 0 ≤ l) {span' : Time}
    {outcome' : Except Fault (Option Payload)} (h : errand.Yields limit answer span outcome)
    (h' : errand.Yields limit answer span' outcome') : span = span' ∧ outcome = outcome' := by
  obtain ⟨result, hlanding, hresult⟩ := course_of_yields hlimit h 0
  obtain ⟨result', hlanding', hresult'⟩ := course_of_yields hlimit h' 0
  rw [hlanding, Option.some.injEq, Prod.mk.injEq, zero_add, zero_add] at hlanding'
  refine ⟨hlanding'.1, ?_⟩
  rw [← hresult, ← hresult', hlanding'.2]

/-- An attempt takes no negative time. -/
theorem Yields.nonneg (hlimit : ∀ l ∈ limit, 0 ≤ l) (h : errand.Yields limit answer span outcome) :
    0 ≤ span := by
  cases h with
  | failure h => exact h.le
  | noContent h => exact h.le
  | badStatus h => exact h.le
  | readFailure h hread => exact h.le.trans hread.le
  | emptyBody h hread => exact h.le.trans hread.le
  | misshapen h hread => exact h.le.trans hread.le
  | payload h hread => exact h.le.trans hread.le
  | lateAnswer hspan => exact hlimit span hspan
  | lateBody hspan => exact hlimit span hspan

end Errand

/-! ## The time of attempts -/

namespace Connector

/-- The time that each attempt has, if it is limited. -/
def limit (g : Connector) : Option Time :=
  if 0 < g.timeout then some g.timeout else none

/-- An attempt has no negative time. -/
theorem limit_nonneg (g : Connector) : ∀ l ∈ g.limit, 0 ≤ l := by
  intro l hl
  unfold limit at hl
  split at hl
  · next h => exact Option.some.inj hl ▸ h.le
  · exact absurd hl (by simp)

/-- An attempt is cut off when its time is over. -/
theorem cutoff_eq (g : Connector) (now : Time) : g.cutoff now = g.limit.map (now + ·) := by
  unfold cutoff limit
  split <;> rfl

end Connector
end ChainPoll

import ChainPoll.Poll.Run
import ChainPoll.Proofs.Client.Courses

/-!
# The lines of a poll

The answers that a poll has had settle its lines.  A checkpoint and a milestone are reported when
their counts are there, a span and events by themselves, and nothing is reported of a record that
does not exist yet.

Main results:

- Theorem {lit}`Query.Course.fits`: an answer is of the kind that its query asks for.
- Theorem {lit}`Poll.eventLines_eq`: the table of events, line by line.
- Theorem {lit}`Poll.tells_of_mem_stages`: the report of a stage is what is printed of its answers.
- Theorem {lit}`Poll.opens_of_mem_printed`: how the lines of answers do not begin.
-/

namespace ChainPoll

/-! ## Kinds of answers -/

/-- Whether an answer is of the kind that a query asks for. -/
def Query.Fits : Query → Reading → Prop
  | .checkpoint, .checkpoint _ | .milestone, .milestone _ | .span _,
    .span _ | .events _ _, .events _
  | .checkpointCount, .count _ | .milestoneCount, .count _ => True
  | _, _ => False

/-- The record out of an envelope is of the kind that the query for it asks for. -/
theorem Query.fits_ofPayload {query : Query} {bytes : ByteArray} {payload : Payload}
    (h : query.form.decode bytes = .ok payload) : query.Fits (.ofPayload payload) := by
  rw [Form.decode] at h
  split at h
  · rw [Form.read] at h
    cases hvalues : Record.Shape.read (.record query.form.fields) ‹_› with
    | error flaws =>
        rw [hvalues] at h
        cases h
    | ok values =>
        rw [hvalues] at h
        obtain rfl : query.form.ofValues values = payload := Except.ok.inj h
        cases query <;> trivial
  · cases h

/-- What an attempt for a query brings is of the kind that the query asks for. -/
theorem Query.fits_reading {query : Query} {errand : Errand} {limit : Option Time}
    {answer : Answer} {span : Time} {outcome : Except Fault (Option Payload)}
    {payload : Option Payload} (h : errand.Yields limit answer span outcome)
    (hform : errand.form = query.form) (houtcome : outcome = .ok payload) :
    query.Fits (query.reading payload) := by
  cases h with
  | noContent _ =>
      obtain rfl := Except.ok.inj houtcome
      cases query <;> trivial
  | payload _ _ _ hdecode =>
      obtain rfl := Except.ok.inj houtcome
      rw [hform] at hdecode
      exact fits_ofPayload hdecode
  | _ => cases houtcome

/-- An answer to a query is of the kind that the query asks for. -/
theorem Query.Course.fits {base : String} {limit : Option Time} {script : Script} {query : Query}
    {urls : List String} {reading : Reading}
    (h : query.Course base limit script urls (.ok reading)) :
    query.Fits reading := by
  generalize houtcome : (Except.ok reading : Except Fault Reading) = outcome at h
  cases h with
  | @record _ _ outcome hquery h =>
      cases h with
      | refused _ => cases houtcome
      | overdue _ _ _ => cases houtcome
      | answered _ _ hlast _ =>
          cases outcome with
          | error fault => cases houtcome
          | ok payload =>
              obtain rfl := Except.ok.inj houtcome
              exact fits_reading hlast rfl rfl
  | negative _ => cases houtcome
  | @pages _ _ _ result h =>
      cases result with
      | error fault => cases houtcome
      | ok events =>
          obtain rfl := Except.ok.inj houtcome
          trivial

namespace Poll

/-! ## Lines of answers -/

/-- What is printed of a number, or of none. -/
def numeral : Option Int → String
  | some n => Text.decimalString n
  | none => "None"

/-- What is printed of a checkpoint and of the number of checkpoints. -/
def checkpointText (c : Checkpoint) (n : Option Int) : String :=
  "Checkpoint #" ++ numeral n ++ ": blocks "
    ++ (Text.decimalString c.startBlock ++ "-" ++ Text.decimalString c.endBlock) ++ " root "
    ++ c.rootHash

/-- What is printed of a milestone and of the number of milestones. -/
def milestoneText (m : Milestone) (n : Option Int) : String :=
  "Milestone #" ++ numeral n ++ ": blocks "
    ++ (Text.decimalString m.startBlock ++ "-" ++ Text.decimalString m.endBlock) ++ " hash "
    ++ m.hash

/-- What is printed of a span, with the signers of its producers. -/
def spanText (s : Span) : String :=
  "Span " ++ Text.decimalString s.id ++ ": blocks "
    ++ (Text.decimalString s.startBlock ++ "-" ++ Text.decimalString s.endBlock) ++ " producers ["
    ++ ", ".intercalate (s.selectedProducers.map (·.signer)) ++ "]"

/--
A row of the table of events: the number at the right end of eight characters, the time at the left
end of 25, and the contract at that of 42.
-/
def tableLine (e : EventRecord) : String :=
  String.ofList ((Text.decimal e.id).leftpad 8 ' ' ++ " | ".toList
    ++ e.recordTime.text.toList.rightpad 25 ' ' ++ " | ".toList
    ++ e.contract.toList.rightpad 42 ' ')

/-- The head of the table of events. -/
def tableHead : String :=
  "      ID | Record Time               | Contract                                  "

/-- The line between head and rows. -/
def tableDashes : String :=
  "----------------------------------------------------------------------------------"

/-- What is printed of events from a number on. -/
def eventTexts (fromId : Int) (events : List EventRecord) : List String :=
  ["State sync events from " ++ Text.decimalString fromId ++ " - showing "
      ++ Text.decimalString events.length ++ ":", tableHead, tableDashes] ++ events.map tableLine

/-- What is printed of the queries that were answered, and of their answers, line by line. -/
def printed : List (Query × Reading) → List String
  | (.checkpoint, .checkpoint record) :: (.checkpointCount, .count n) :: rest =>
    (record.map (checkpointText · n)).toList ++ printed rest
  | (.milestone, .milestone record) :: (.milestoneCount, .count n) :: rest =>
    (record.map (milestoneText · n)).toList ++ printed rest
  | (.span _, .span record) :: rest => (record.map spanText).toList ++ printed rest
  | (.events fromId _, .events events) :: rest => eventTexts fromId events ++ printed rest
  | _ => []

/-- The line of a checkpoint. -/
theorem checkpointLine_eq (c : Checkpoint) (n : Option Int) :
    checkpointLine c n = checkpointText c n := by
  cases n <;> rfl

/-- The line of a milestone. -/
theorem milestoneLine_eq (m : Milestone) (n : Option Int) :
    milestoneLine m n = milestoneText m n := by
  cases n <;> rfl

/-- The line of a span. -/
theorem spanLine_eq (s : Span) : spanLine s = spanText s := by
  rfl

/-- A cell filled up on the left. -/
theorem padLeft_ofList (width : Nat) (cs : List Char) :
    padLeft width (String.ofList cs) = String.ofList (cs.leftpad width ' ') := by
  simp [padLeft, List.leftpad]

/-- A cell filled up on the right. -/
theorem padRight_eq (width : Nat) (s : String) :
    padRight width s = String.ofList (s.toList.rightpad width ' ') := by
  simp only [padRight, List.rightpad, String.length_toList, String.ofList_append,
    String.ofList_toList]

/-- A row of the table of events. -/
theorem tableRow_eq (e : EventRecord) :
    tableRow (Text.decimalString e.id) e.recordTime.text e.contract = tableLine e := by
  simp only [tableRow, tableLine, Text.decimalString, padLeft_ofList, padRight_eq,
    String.ofList_append, String.ofList_toList]

/-- The table of events, line by line. -/
theorem eventLines_eq (fromId : Int) (events : List EventRecord) :
    eventLines fromId events = eventTexts fromId events := by
  have hhead : tableRow "ID" "Record Time" "Contract" = tableHead := by decide +kernel
  have hrule : tableRule = tableDashes := by decide +kernel
  simp only [eventLines, eventTexts, hhead, hrule, tableRow_eq]

/--
Whether the report of a stage is what is printed of its answers, and nothing is printed of answers
to a part of its queries.
-/
structure Tells (stage : Stage) : Prop where
  whole : ∀ answers rest : List (Query × Reading), answers.map (·.1) = stage.queries →
    (∀ x ∈ answers, x.1.Fits x.2) →
      printed (answers ++ rest) = stage.report (answers.map (·.2)) ++ printed rest
  part : ∀ answers : List (Query × Reading), answers.map (·.1) <+: stage.queries →
    answers.map (·.1) ≠ stage.queries → printed answers = []

/-- A stage of one query tells what its answer comes to. -/
theorem tells_of_single {q : Query} {report : List Reading → List String}
    (h : ∀ r rest, q.Fits r → printed ((q, r) :: rest) = report [r] ++ printed rest) :
    Tells ⟨[q], report⟩ where
  whole answers rest hqueries hfits := by
    obtain ⟨⟨q', r⟩, rfl, rfl⟩ := List.map_eq_singleton_iff.mp hqueries
    exact h r rest (hfits _ List.mem_cons_self)
  part answers hinitial hne := by
    rcases List.prefix_cons_iff.mp hinitial with hnil | ⟨rest, heq, hrest⟩
    · rw [List.map_eq_nil_iff.mp hnil]
      rfl
    · rw [List.prefix_nil.mp hrest] at heq
      exact absurd heq hne

/-- A stage of two queries tells what their answers come to. -/
theorem tells_of_pair {q q' : Query} {report : List Reading → List String}
    (h : ∀ r r' rest, q.Fits r → q'.Fits r' →
      printed ((q, r) :: (q', r') :: rest) = report [r, r'] ++ printed rest)
    (hpart : ∀ r, printed [(q, r)] = []) : Tells ⟨[q, q'], report⟩ where
  whole answers rest hqueries hfits := by
    obtain ⟨⟨q₁, r⟩, others, rfl, rfl, hothers⟩ := List.map_eq_cons_iff.mp hqueries
    obtain ⟨⟨q₂, r'⟩, rfl, rfl⟩ := List.map_eq_singleton_iff.mp hothers
    exact h r r' rest (hfits _ List.mem_cons_self)
      (hfits _ (List.mem_cons_of_mem _ List.mem_cons_self))
  part answers hinitial hne := by
    rcases List.prefix_cons_iff.mp hinitial with hnil | ⟨rest, heq, hrest⟩
    · rw [List.map_eq_nil_iff.mp hnil]
      rfl
    · rcases List.prefix_cons_iff.mp hrest with rfl | ⟨rest', rfl, hrest'⟩
      · obtain ⟨⟨q₁, r⟩, rfl, rfl⟩ := List.map_eq_singleton_iff.mp heq
        exact hpart r
      · rw [List.prefix_nil.mp hrest'] at heq
        exact absurd heq hne

/-- The report of a stage of a poll is what is printed of its answers. -/
theorem tells_of_mem_stages {a : Arguments} {time : Int} {stage : Stage}
    (h : stage ∈ stages a time) : Tells stage := by
  simp only [stages, List.mem_append, List.mem_cons, List.not_mem_nil, or_false, Option.mem_toList,
    Option.map_eq_some_iff] at h
  rcases h with ((rfl | rfl) | ⟨id, -, rfl⟩) | ⟨id, -, rfl⟩
  · refine tells_of_pair (fun r r' rest hr hr' => ?_) fun r => ?_
    · cases r <;> cases r' <;> first | exact hr.elim | exact hr'.elim | skip
      next record n => cases record <;> simp [printed, checkpointLine_eq]
    · cases r <;> rfl
  · refine tells_of_pair (fun r r' rest hr hr' => ?_) fun r => ?_
    · cases r <;> cases r' <;> first | exact hr.elim | exact hr'.elim | skip
      next record n => cases record <;> simp [printed, milestoneLine_eq]
    · cases r <;> rfl
  · refine tells_of_single fun r rest hr => ?_
    cases r <;> first | exact hr.elim | skip
    next record => cases record <;> simp [printed, spanLine_eq]
  · refine tells_of_single fun r rest hr => ?_
    cases r <;> first | exact hr.elim | skip
    next events => simp only [printed, eventLines_eq]

/-! ## How lines begin -/

/--
Whether a text begins in another way than with the letter H, or with the letter C without an h
behind it.
-/
def Opens (text : String) : Prop :=
  ∃ c rest, text.toList = c :: rest ∧ c ≠ 'H' ∧ (c = 'C' → rest.head? = some 'h')

/-- What follows does not matter for how a text begins. -/
theorem Opens.append {text : String} (h : Opens text) (rest : String) : Opens (text ++ rest) := by
  obtain ⟨c, cs, htext, hfirst, hsecond⟩ := h
  refine ⟨c, cs ++ rest.toList, by rw [String.toList_append, htext, List.cons_append], hfirst,
    fun hc => ?_⟩
  rw [List.head?_append, hsecond hc]
  rfl

/-- A row of the table begins with its padded number. -/
theorem opens_tableRow {id : String} (hid : ∀ c ∈ id.toList, c ≠ 'H' ∧ c ≠ 'C')
    (time contract : String) : Opens (tableRow id time contract) := by
  have hcell : ∀ c ∈ (padLeft 8 id).toList, c ≠ 'H' ∧ c ≠ 'C' := by
    intro c hc
    rw [padLeft, String.toList_append, String.toList_ofList, List.mem_append] at hc
    rcases hc with hc | hc
    · rw [List.eq_of_mem_replicate hc]
      decide
    · exact hid c hc
  have hopens : Opens (padLeft 8 id ++ " | ") := by
    cases hchars : (padLeft 8 id).toList with
    | nil =>
        exact ⟨' ', "| ".toList, by rw [String.toList_append, hchars]; rfl, by decide, by decide⟩
    | cons c cs =>
        obtain ⟨hH, hC⟩ := hcell c (by simp [hchars])
        exact ⟨c, cs ++ " | ".toList, by rw [String.toList_append, hchars]; rfl, hH,
          fun hc => absurd hc hC⟩
  exact ((hopens.append _).append _).append _

/-- The decimal text of a number has no letters. -/
theorem plain_decimalString (n : Int) : ∀ c ∈ (Text.decimalString n).toList, c ≠ 'H' ∧ c ≠ 'C' := by
  intro c hc
  rw [Text.decimalString, String.toList_ofList] at hc
  rcases Record.mem_decimal hc with rfl | hdigit
  · decide
  · constructor <;> (rintro rfl; exact absurd hdigit (by decide))

/-- How the line of a checkpoint begins. -/
theorem opens_checkpointText (c : Checkpoint) (n : Option Int) : Opens (checkpointText c n) := by
  have hopens : Opens "Checkpoint #" := ⟨'C', _, rfl, by decide, fun _ => rfl⟩
  unfold checkpointText
  exact ((((hopens.append _).append _).append _).append _).append _

/-- How the line of a milestone begins. -/
theorem opens_milestoneText (m : Milestone) (n : Option Int) : Opens (milestoneText m n) := by
  have hopens : Opens "Milestone #" := ⟨'M', _, rfl, by decide, by decide⟩
  unfold milestoneText
  exact ((((hopens.append _).append _).append _).append _).append _

/-- How the line of a span begins. -/
theorem opens_spanText (s : Span) : Opens (spanText s) := by
  have hopens : Opens "Span " := ⟨'S', _, rfl, by decide, by decide⟩
  unfold spanText
  exact (((((hopens.append _).append _).append _).append _).append _).append _

/-- How the lines of events begin. -/
theorem opens_of_mem_eventTexts {fromId : Int} {events : List EventRecord} {line : String}
    (h : line ∈ eventTexts fromId events) : Opens line := by
  rw [← eventLines_eq] at h
  simp only [eventLines, List.cons_append, List.nil_append, List.mem_cons, List.mem_map] at h
  rcases h with rfl | rfl | rfl | ⟨e, -, rfl⟩
  · have hopens : Opens "State sync events from " := ⟨'S', _, rfl, by decide, by decide⟩
    exact (((hopens.append _).append _).append _).append _
  · exact opens_tableRow (by simp) _ _
  · exact ⟨'-', _, rfl, by decide, by decide⟩
  · exact opens_tableRow (plain_decimalString e.id) _ _

/-- How the lines of answers begin. -/
theorem opens_of_mem_printed {answers : List (Query × Reading)} {line : String}
    (h : line ∈ printed answers) : Opens line := by
  fun_induction printed answers with
  | case1 record n rest ih =>
      rcases List.mem_append.mp h with h | h
      · obtain ⟨c, -, rfl⟩ := Option.map_eq_some_iff.mp (Option.mem_toList.mp h)
        exact opens_checkpointText c n
      · exact ih h
  | case2 record n rest ih =>
      rcases List.mem_append.mp h with h | h
      · obtain ⟨m, -, rfl⟩ := Option.map_eq_some_iff.mp (Option.mem_toList.mp h)
        exact opens_milestoneText m n
      · exact ih h
  | case3 id record rest ih =>
      rcases List.mem_append.mp h with h | h
      · obtain ⟨s, -, rfl⟩ := Option.map_eq_some_iff.mp (Option.mem_toList.mp h)
        exact opens_spanText s
      · exact ih h
  | case4 fromId upTo events rest ih =>
      rcases List.mem_append.mp h with h | h
      · exact opens_of_mem_eventTexts h
      · exact ih h
  | case5 answers => simp at h

end Poll
end ChainPoll

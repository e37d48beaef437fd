import LoadCoach.Content.Answers

/-! # Histories that differ in text

Two histories of writes about one job that differ in nothing but the text of its answers, with
equal hashes and lengths.  The rows they leave agree but for their text (`JobRows.Agree`) as long
as the checks cannot tell corresponding answers apart, and the rows of the checks are equal in no
other case (`validationsOf_eq_iff`). -/

namespace LoadCoach

open Foundations

/-! ### Runs that differ in text -/

/-- Two answers that differ in their text, with one hash and one length. -/
structure Reply.SameShape (tools : TextTools) (reply reply' : Reply) : Prop where
  hash : tools.sha256 reply.text = tools.sha256 reply'.text
  length : reply.text.length = reply'.text.length
  thinking : reply.thinking.length = reply'.thinking.length

/-- A submission without its text and its tools. -/
def JobSubmission.textless (submission : JobSubmission) : JobSubmission :=
  { submission with system := none, prompt := none, messages := none, tools := [] }

/-- A request without its text and its tools. -/
def GenerateRequest.textless (request : GenerateRequest) : GenerateRequest :=
  { request with system := none, prompt := none, messages := none, tools := [] }

/-- Two requests of one kind that differ in their text. -/
def StoredRequest.SameButText : StoredRequest → StoredRequest → Prop
  | queued submission _, queued submission' _ => submission.textless = submission'.textless
  | reserved request _, reserved request' _ => request.textless = request'.textless
  | unreserved request _, unreserved request' _ => request.textless = request'.textless
  | _, _ => False

/-- Two writes that differ in the text of an answer. -/
inductive ContentWrite.SameButText {tools : TextTools} :
    ContentWrite tools → ContentWrite tools → Prop where
  | book (step : Bookkeeping) (entries : List EventEntry) :
      SameButText (.book step entries) (.book step entries)
  | attempt {call call' : AnsweredCall tools} (now : Instant) (step : Bookkeeping)
      (eventType : Option String) (base : call.base = call'.base)
      (policy : call.policy = call'.policy) (reply : call.reply.SameShape tools call'.reply) :
      SameButText (.attempt call now step eventType) (.attempt call' now step eventType)
  | complete (finish : Completion) : SameButText (.complete finish) (.complete finish)

/-- Two writes whose answers, if they were validated, the checks cannot tell apart. -/
def ContentWrite.Alike {tools : TextTools} : ContentWrite tools → ContentWrite tools → Prop
  | .attempt call _ _ _, .attempt call' _ _ _ =>
      call.base.errorCode = none → tools.Alike call.policy call.reply.text call'.reply.text
  | _, _ => True

/-! ### Texts in a row -/

/-- What a record tells without the text: the parsed answer is not stored. -/
def CallRecord.told (record : CallRecord) : CallRecord :=
  { record with
    text := ""
    validation := record.validation.map fun outcome => { outcome with parsed := .null } }

section Told

variable {tools : TextTools} {record record' : CallRecord}

theorem CallRecord.columns_told (record : CallRecord) : record.told.columns = record.columns := rfl

/-- A call whose answer the checks cannot tell from another leaves a record that tells the
same. -/
theorem AnsweredCall.told_record {call call' : AnsweredCall tools} (hbase : call.base = call'.base)
    (hpolicy : call.policy = call'.policy) (hshape : call.reply.SameShape tools call'.reply)
    (halike : call.base.errorCode = none →
      tools.Alike call.policy call.reply.text call'.reply.text) (attempt : ℕ) :
    (call.record attempt).told = (call'.record attempt).told := by
  have hempty : call.reply.text = "" ↔ call'.reply.text = "" := by
    rw [← String.length_eq_zero_iff, ← String.length_eq_zero_iff, hshape.length]
  have hvalidation : (call.validation.map fun outcome => { outcome with parsed := Json.null }) =
      call'.validation.map fun outcome => { outcome with parsed := Json.null } := by
    cases hcode : call.base.errorCode with
    | some code =>
        rw [call.failed (by rw [hcode]; rfl), call'.failed (by rw [← hbase, hcode]; rfl)]
    | none =>
        obtain ⟨outcome, hsome, hok⟩ := call.answered hcode
        obtain ⟨outcome', hsome', hok'⟩ := call'.answered (hbase ▸ hcode)
        rw [← hpolicy] at hok'
        have hchecks := (validateOutput_checks_eq_iff hshape.length hok hok').2 (halike hcode)
        obtain ⟨hperformed, hpassed, -⟩ := validateOutput_eq_ok hok
        obtain ⟨hperformed', hpassed', -⟩ := validateOutput_eq_ok hok'
        rw [← hchecks] at hperformed' hpassed'
        rw [hsome, hsome', Option.map_some, Option.map_some, hperformed, hperformed', hpassed,
          hpassed', hchecks]
  have houtcome : call.validation.map answeredOutcome = call'.validation.map answeredOutcome := by
    have hcongr := congrArg (Option.map answeredOutcome) hvalidation
    rwa [Option.map_map, Option.map_map] at hcongr
  unfold record CallRecord.told
  simp only [hbase, hvalidation, houtcome, hshape.hash, hempty]

end Told

/-! ### Rows that differ in text -/

theorem getLast?_rel {α : Type*} {r : α → α → Prop} {l l' : List α} (h : List.Forall₂ r l l') :
    Option.Rel r l.getLast? l'.getLast? := by
  induction h with
  | nil => exact .none
  | cons hhead htail ih =>
      cases htail with
      | nil => exact .some hhead
      | cons hnext hrest =>
          rw [List.getLast?_cons_cons, List.getLast?_cons_cons]
          exact ih

/-- What scrubbing leaves of a request. -/
def strippedRequest (members : Members) : Members :=
  members.filter fun m => !scrubbedRequestKeys.contains m.1

section Rows

variable (rfc3339 : Instant → String) (now : Instant)

theorem StoredJob.scrubbed_eq (job : StoredJob) :
    job.scrubbed rfc3339 now =
      { job.bare with
        requestJson := Json.setMember scrubbedMarker (.str (rfc3339 now))
          (strippedRequest job.requestJson) } := rfl

/-- An event when its job is scrubbed. -/
def ContentEvent.swept (jobId : JobId) (event : ContentEvent) : ContentEvent :=
  if event.keepsText jobId then event.cleaned rfc3339 now else event

/-- Two attempts whose records tell the same, with answers of one shape. -/
def SameCall (tools : TextTools) (a b : CallRecord × Reply) : Prop :=
  a.1.told = b.1.told ∧ a.2.SameShape tools b.2

/-- Rows that are equal when the job is scrubbed, the checks left aside. -/
structure JobRows.Agree (tools : TextTools) (jobId : JobId) (a b : JobRows) : Prop where
  job : a.job.bare = b.job.bare
  request : strippedRequest a.job.requestJson = strippedRequest b.job.requestJson
  events : a.events.map (·.swept rfc3339 now jobId) = b.events.map (·.swept rfc3339 now jobId)
  attempts : a.attempts = b.attempts
  made : List.Forall₂ (SameCall tools) a.made b.made

variable {rfc3339 now} {tools : TextTools} {jobId : JobId} {a b : JobRows}

namespace JobRows.Agree

theorem append (h : Agree rfc3339 now tools jobId a b) {entry entry' : EventEntry}
    (hentry : ∀ n, (entry.event jobId n).swept rfc3339 now jobId =
      (entry'.event jobId n).swept rfc3339 now jobId) :
    Agree rfc3339 now tools jobId (a.append jobId entry) (b.append jobId entry') where
  job := h.job
  request := h.request
  events := by
    have hlength : a.events.length = b.events.length := by
      have := congrArg List.length h.events
      rwa [List.length_map, List.length_map] at this
    simp only [JobRows.append, List.map_append, h.events, hlength, List.map_cons, hentry,
      List.map_nil]
  attempts := h.attempts
  made := h.made

theorem appendAll (entries : List EventEntry) (h : Agree rfc3339 now tools jobId a b) :
    Agree rfc3339 now tools jobId (entries.foldl (fun rows entry => rows.append jobId entry) a)
      (entries.foldl (fun rows entry => rows.append jobId entry) b) := by
  induction entries generalizing a b with
  | nil => exact h
  | cons entry entries ih => exact ih (h.append fun _ => rfl)

theorem update (step : Bookkeeping) (h : Agree rfc3339 now tools jobId a b) :
    Agree rfc3339 now tools jobId { a with job := step.update a.job }
      { b with job := step.update b.job } where
  job := step.blind h.job
  request := by
    change strippedRequest (step.update a.job).requestJson =
      strippedRequest (step.update b.job).requestJson
    rw [step.request, step.request, h.request]
  events := h.events
  attempts := h.attempts
  made := h.made

theorem attempt (h : Agree rfc3339 now tools jobId a b) : a.job.attempt = b.job.attempt := by
  have hattempt := congrArg (fun job : StoredJob => job.attempt) h.job
  exact hattempt

theorem writeAttempt (h : Agree rfc3339 now tools jobId a b) {call call' : AnsweredCall tools}
    (hreply : call.reply.SameShape tools call'.reply)
    (htold : ∀ n, (call.record n).told = (call'.record n).told) (t : Instant) :
    Agree rfc3339 now tools jobId (a.writeAttempt jobId call t)
      (b.writeAttempt jobId call' t) where
  job := by
    have hbare := congrArg
      (fun job : StoredJob => ({ job with attempt := a.job.attempt + 1 } : StoredJob)) h.job
    have hattempt := h.attempt
    simp only [JobRows.writeAttempt, ← hattempt]
    exact hbare
  request := h.request
  events := h.events
  attempts := by
    have hcolumns : ∀ n, (call.record n).columns = (call'.record n).columns := fun n => by
      rw [← CallRecord.columns_told, htold, CallRecord.columns_told]
    simp only [JobRows.writeAttempt, h.attempts, h.attempt, hcolumns]
  made := by
    refine List.rel_append h.made (.cons ⟨?_, hreply⟩ .nil)
    simp only [h.attempt, htold]

end JobRows.Agree

end Rows

/-! ### A result -/

section Result

variable {rfc3339 : Instant → String} {now : Instant} {tools : TextTools} {jobId : JobId}
  {a b : JobRows}

theorem Reply.SameShape.summary {reply reply' : Reply} (h : reply.SameShape tools reply')
    {α : Type*} (value : α) :
    (reply.summary.map fun _ => value) = reply'.summary.map fun _ => value := by
  have hempty : reply.thinking = "" ↔ reply'.thinking = "" := by
    rw [← String.length_eq_zero_iff, ← String.length_eq_zero_iff, h.thinking]
  unfold Reply.summary
  by_cases hthinking : reply.thinking = ""
  · rw [if_pos hthinking, if_pos (hempty.1 hthinking)]
  · rw [if_neg hthinking, if_neg (hempty.not.1 hthinking)]
    rfl

theorem Completion.swept_entry (finish : Completion) (records : List CallRecord) (reply : Reply)
    (validation : ValidationOutcome) (n : ℕ) :
    ((finish.entry tools jobId records reply validation).event jobId n).swept rfc3339 now jobId =
      { jobId
        sequence := n
        timestamp := finish.timestamp
        eventType := if finish.streamed then "result" else "job.completed"
        message := finish.message
        dataJson := .obj (Json.setMember scrubbedMarker (.str (rfc3339 now))
          (("job_id", .int jobId) :: ("status", .str "completed") ::
            finish.account records validation)) } := by
  have hkeeps : ((finish.entry tools jobId records reply validation).event jobId n).keepsText
      jobId = true := by
    cases hstreamed : finish.streamed <;>
      simp [ContentEvent.keepsText, EventEntry.event, entry, hstreamed, asJson, content,
        scrubbedEventKeys]
  rw [ContentEvent.swept, if_pos hkeeps]
  rfl

theorem Completion.account_congr (finish : Completion) {records records' : List CallRecord}
    (hrecords : records.map CallRecord.told = records'.map CallRecord.told)
    {validation validation' : ValidationOutcome}
    (hvalidation : ({ validation with parsed := .null } : ValidationOutcome) =
      { validation' with parsed := .null }) :
    finish.account records validation = finish.account records' validation' := by
  have hasJson : records.map CallRecord.asJson = records'.map CallRecord.asJson := by
    have := congrArg (List.map CallRecord.asJson) hrecords
    rwa [List.map_map, List.map_map] at this
  have hlength : records.length = records'.length := by
    have := congrArg List.length hrecords
    rwa [List.length_map, List.length_map] at this
  obtain ⟨hperformed, hpassed, hchecks⟩ : validation.performed = validation'.performed ∧
      validation.passed = validation'.passed ∧ validation.checks = validation'.checks := by
    simpa using hvalidation
  simp only [Completion.account, hasJson, hlength, hperformed, hpassed, hchecks]

theorem Completion.bare_job (finish : Completion) {job job' : StoredJob}
    (hjob : job.bare = job'.bare) {reply reply' : Reply} (hreply : reply.SameShape tools reply')
    {validation validation' : ValidationOutcome}
    (hpassed : validation.passed = validation'.passed) :
    (finish.job tools reply validation job).bare =
      (finish.job tools reply' validation' job').bare := by
  have hcolumns : (finish.columns reply validation).bare =
      (finish.columns reply' validation').bare := by
    have hsome : reply.summary.isSome = reply'.summary.isSome := by
      have := congrArg Option.isSome (hreply.summary ())
      rwa [Option.isSome_map, Option.isSome_map] at this
    simp only [columns, ResultColumns.bare, hsome, hreply.summary, hpassed]
  let made (hash : String) (columns : ResultColumns) (job : StoredJob) : StoredJob :=
    { job with responseHash := some hash, data := { job.data with result := columns } }
  have hmade : ∀ (reply : Reply) (validation : ValidationOutcome) (job : StoredJob),
      (finish.job tools reply validation job).bare =
        made (tools.sha256 reply.text) (finish.columns reply validation).bare
          (finish.step.update job).bare := fun _ _ _ => rfl
  rw [hmade, hmade, hreply.hash, hcolumns, finish.step.blind hjob]

/-- The parts of a validation that are stored outside the texts. -/
theorem JobRows.Agree.lastAnswer (h : JobRows.Agree rfc3339 now tools jobId a b) :
    Option.Rel (fun p q : Reply × ValidationOutcome => p.1.SameShape tools q.1 ∧
      ({ p.2 with parsed := .null } : ValidationOutcome) = { q.2 with parsed := .null })
      a.lastAnswer b.lastAnswer := by
  have hlast := getLast?_rel h.made
  unfold JobRows.lastAnswer
  generalize a.made.getLast? = last at hlast
  generalize b.made.getLast? = last' at hlast
  cases hlast with
  | none => exact .none
  | @some p q hcall =>
      obtain ⟨htold, hreply⟩ := hcall
      have hvalidation := congrArg CallRecord.validation htold
      simp only [CallRecord.told] at hvalidation
      rw [Option.bind_some, Option.bind_some]
      cases hp : p.1.validation with
      | none =>
          rw [hp] at hvalidation
          rw [Option.map_eq_none_iff.1 hvalidation.symm]
          exact .none
      | some validation =>
          rw [hp] at hvalidation
          obtain ⟨validation', hq, heq⟩ := Option.map_eq_some_iff.1 hvalidation.symm
          rw [hq]
          exact .some ⟨hreply, heq.symm⟩

theorem JobRows.Agree.complete (h : JobRows.Agree rfc3339 now tools jobId a b)
    (finish : Completion) {reply reply' : Reply} (hreply : reply.SameShape tools reply')
    {validation validation' : ValidationOutcome}
    (hvalidation : ({ validation with parsed := .null } : ValidationOutcome) =
      { validation' with parsed := .null }) :
    JobRows.Agree rfc3339 now tools jobId (a.complete jobId tools finish reply validation)
      (b.complete jobId tools finish reply' validation') := by
  have htold : (a.made.map Prod.fst).map CallRecord.told =
      (b.made.map Prod.fst).map CallRecord.told := by
    rw [List.map_map, List.map_map]
    have hmap : List.Forall₂ (· = ·) (a.made.map (CallRecord.told ∘ Prod.fst))
        (b.made.map (CallRecord.told ∘ Prod.fst)) := by
      rw [List.forall₂_map_left_iff, List.forall₂_map_right_iff]
      exact h.made.imp fun _ _ hcall => hcall.1
    rwa [List.forall₂_eq_eq_eq] at hmap
  have haccount : finish.account
      ((a.made.map Prod.fst).drop (a.made.length - finish.made)) validation =
      finish.account ((b.made.map Prod.fst).drop (b.made.length - finish.made)) validation' := by
    refine finish.account_congr ?_ hvalidation
    rw [List.map_drop, List.map_drop, htold, h.made.length_eq]
  have hpassed : validation.passed = validation'.passed := congrArg (·.passed) hvalidation
  have hjob : JobRows.Agree rfc3339 now tools jobId
      { a with job := finish.job tools reply validation a.job }
      { b with job := finish.job tools reply' validation' b.job } :=
    { job := finish.bare_job h.job hreply hpassed
      request := by
        change strippedRequest (finish.step.update a.job).requestJson =
          strippedRequest (finish.step.update b.job).requestJson
        rw [finish.step.request, finish.step.request, h.request]
      events := h.events
      attempts := h.attempts
      made := h.made }
  refine hjob.append fun n => ?_
  rw [Completion.swept_entry, Completion.swept_entry, haccount]

end Result

/-! ### A history of writes -/

section History

variable {rfc3339 : Instant → String} {now : Instant} {tools : TextTools} {jobId : JobId}
  {a b : JobRows} {history history' : List (ContentWrite tools)}

/-- **One write** keeps rows that differ in text equal once the job is scrubbed, if the checks
cannot tell the answers apart. -/
theorem JobRows.Agree.write (h : JobRows.Agree rfc3339 now tools jobId a b)
    {w w' : ContentWrite tools} (hsame : w.SameButText w') (halike : w.Alike w') :
    JobRows.Agree rfc3339 now tools jobId (a.write jobId w) (b.write jobId w') := by
  cases hsame with
  | book step entries => exact (h.update step).appendAll entries
  | @attempt call call' t step eventType hbase hpolicy hreply =>
      have htold := AnsweredCall.told_record hbase hpolicy hreply halike
      have hattempt := (h.writeAttempt hreply htold t).update step
      cases eventType with
      | none => exact hattempt
      | some eventType =>
          refine hattempt.append fun n => ?_
          have hentry : ∀ record : CallRecord, JobRows.attemptEntry record t eventType =
              JobRows.attemptEntry record.told t eventType := fun _ => rfl
          rw [hentry, htold, hattempt.attempt, ← hentry]
  | complete finish =>
      have hlast := h.lastAnswer
      unfold JobRows.write
      generalize a.lastAnswer = answer at hlast
      generalize b.lastAnswer = answer' at hlast
      cases hlast with
      | none => exact h
      | some hanswer => exact h.complete finish hanswer.1 hanswer.2

/-- The rows of the checks a history makes, given the attempts before it. -/
def validationsOf (jobId : JobId) : ℕ → List (ContentWrite tools) → List ValidationRow
  | _, [] => []
  | n, .attempt call now _ _ :: history =>
      (call.record (n + 1)).validationRows jobId now ++ validationsOf jobId (n + 1) history
  | n, .book _ _ :: history => validationsOf jobId n history
  | n, .complete _ :: history => validationsOf jobId n history

variable (jobId) in
theorem appendAll_validations (entries : List EventEntry) (rows : JobRows) :
    (entries.foldl (fun rows entry => rows.append jobId entry) rows).validations =
        rows.validations ∧
      (entries.foldl (fun rows entry => rows.append jobId entry) rows).job = rows.job := by
  induction entries generalizing rows with
  | nil => exact ⟨rfl, rfl⟩
  | cons entry entries ih => exact ih (rows.append jobId entry)

theorem after_validations (rows : JobRows) :
    (rows.after jobId history).validations =
      rows.validations ++ validationsOf jobId rows.job.attempt history := by
  induction history generalizing rows with
  | nil => simp [JobRows.after, validationsOf]
  | cons w history ih =>
      have hrest := ih (rows.write jobId w)
      change ((rows.write jobId w).after jobId history).validations = _
      rw [hrest]
      cases w with
      | book step entries =>
          obtain ⟨hvalidations, hjob⟩ := appendAll_validations jobId entries
            { rows with job := step.update rows.job }
          simp only [JobRows.write, hvalidations, hjob, step.counter, validationsOf]
      | attempt call t step eventType =>
          cases eventType <;>
            simp [JobRows.write, JobRows.append, JobRows.writeAttempt, step.counter,
              validationsOf]
      | complete finish =>
          have hcounter := finish.step.counter rows.job
          cases hlast : rows.lastAnswer <;>
            simp [JobRows.write, hlast, JobRows.complete, JobRows.append, Completion.job,
              hcounter, validationsOf]

theorem validationRows_attempt {record : CallRecord} {t : Instant} :
    ∀ row ∈ record.validationRows jobId t, row.attempt = record.attempt := by
  intro row hrow
  obtain ⟨check, -, rfl⟩ := List.mem_map.1 hrow
  rfl

theorem validationsOf_attempt (n : ℕ) :
    ∀ row ∈ validationsOf jobId n history, n < row.attempt := by
  induction history generalizing n with
  | nil => simp [validationsOf]
  | cons w history ih =>
      intro row hrow
      cases w with
      | book step entries => exact ih n row hrow
      | attempt call t step eventType =>
          rcases List.mem_append.1 hrow with hrow | hrow
          · rw [validationRows_attempt row hrow]
            exact Nat.lt_succ_self n
          · exact Nat.lt_of_succ_lt (ih (n + 1) row hrow)
      | complete finish => exact ih n row hrow

theorem append_eq_append_of_split {α : Type*} {p : α → Bool} {l l' r r' : List α}
    (hl : ∀ x ∈ l, p x = true) (hl' : ∀ x ∈ l', p x = true) (hr : ∀ x ∈ r, p x = false)
    (hr' : ∀ x ∈ r', p x = false) : l ++ r = l' ++ r' ↔ l = l' ∧ r = r' := by
  constructor
  · intro h
    have hleft := congrArg (List.filter p) h
    rw [List.filter_append, List.filter_append, List.filter_eq_self.2 hl,
      List.filter_eq_self.2 hl', List.filter_eq_nil_iff.2 (by simpa using hr),
      List.filter_eq_nil_iff.2 (by simpa using hr'), List.append_nil, List.append_nil] at hleft
    exact ⟨hleft, List.append_cancel_left (hleft ▸ h)⟩
  · rintro ⟨rfl, rfl⟩
    rfl

theorem validationRows_eq_iff {call call' : AnsweredCall tools} (hbase : call.base = call'.base)
    (hpolicy : call.policy = call'.policy) (hreply : call.reply.SameShape tools call'.reply)
    (n : ℕ) (t : Instant) :
    (call.record n).validationRows jobId t = (call'.record n).validationRows jobId t ↔
      (call.base.errorCode = none →
        tools.Alike call.policy call.reply.text call'.reply.text) := by
  cases hcode : call.base.errorCode with
  | some code =>
      have hnone := call.failed (by rw [hcode]; rfl)
      have hnone' := call'.failed (by rw [← hbase, hcode]; rfl)
      simp [CallRecord.validationRows, AnsweredCall.record, hnone, hnone']
  | none =>
      obtain ⟨outcome, hsome, hok⟩ := call.answered hcode
      obtain ⟨outcome', hsome', hok'⟩ := call'.answered (hbase ▸ hcode)
      rw [← hpolicy] at hok'
      have hinjective : Function.Injective fun check : ValidationCheck =>
          (⟨jobId, n, check.kind, check.passed, check.detail, t⟩ : ValidationRow) := by
        rintro ⟨kind, passed, detail⟩ ⟨kind', passed', detail'⟩ heq
        simpa using heq
      rw [← validateOutput_checks_eq_iff hreply.length hok hok']
      simp only [true_implies, CallRecord.validationRows, AnsweredCall.record, hsome, hsome',
        Option.map_some, Option.getD_some]
      exact (List.map_injective_iff.2 hinjective).eq_iff

variable (jobId) in
/-- **The rows of the checks** of two histories are equal exactly when the checks cannot tell
corresponding answers apart. -/
theorem validationsOf_eq_iff (h : List.Forall₂ ContentWrite.SameButText history history')
    (n : ℕ) : validationsOf jobId n history = validationsOf jobId n history' ↔
      List.Forall₂ ContentWrite.Alike history history' := by
  induction h generalizing n with
  | nil => simp [validationsOf]
  | @cons w w' history history' hsame hrest ih =>
      rw [List.forall₂_cons]
      cases hsame with
      | book step entries => simp [validationsOf, ih, ContentWrite.Alike]
      | @attempt call call' t step eventType hbase hpolicy hreply =>
          have hnumber : ∀ c : AnsweredCall tools, (c.record (n + 1)).attempt = n + 1 :=
            fun _ => rfl
          rw [validationsOf, validationsOf, append_eq_append_of_split
            (p := fun row : ValidationRow => row.attempt == n + 1), ih,
            validationRows_eq_iff hbase hpolicy hreply]
          · rfl
          · intro row hrow
            simpa using (validationRows_attempt row hrow).trans (hnumber call)
          · intro row hrow
            simpa using (validationRows_attempt row hrow).trans (hnumber call')
          · intro row hrow
            simpa using (validationsOf_attempt (n + 1) row hrow).ne'
          · intro row hrow
            simpa using (validationsOf_attempt (n + 1) row hrow).ne'
      | complete finish => simp [validationsOf, ih, ContentWrite.Alike]

theorem JobRows.Agree.after (h : JobRows.Agree rfc3339 now tools jobId a b)
    (hsame : List.Forall₂ ContentWrite.SameButText history history')
    (halike : List.Forall₂ ContentWrite.Alike history history') :
    JobRows.Agree rfc3339 now tools jobId (a.after jobId history) (b.after jobId history') := by
  induction hsame generalizing a b with
  | nil => exact h
  | cons hhead _ ih =>
      obtain ⟨halikeHead, halikeTail⟩ := List.forall₂_cons.1 halike
      exact ih (h.write hhead halikeHead) halikeTail

end History

end LoadCoach

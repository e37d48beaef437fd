import LoadCoach.Content.Checks
import LoadCoach.Retention
import LoadCoach.RetryPolicy
import LoadCoach.Store.Synchronous

/-! # What an answer leaves in the store

The text of a request and of the answers to it goes into four tables: the job's row and its
events, and through the attempts (`write_attempt` of `services/execution.py`) the checks that were
made of every answer.  This file models the records and the documents built from an answer, and
the rows of one job as the writes about it build them up (`ContentWrite`): whatever touches
columns without text, an attempt with its checks and its event, and a result with the body of the
response. -/

namespace LoadCoach

open Foundations

/-! ### Answers and records -/

/-- What a provider's answer says. -/
structure Reply where
  text : String
  thinking : String := ""
  toolCalls : List Json := []

/-- `thinking or None`. -/
def Reply.summary (reply : Reply) : Option String :=
  if reply.thinking = "" then none else some reply.thinking

/-- `AttemptRecord`, with every field. -/
structure CallRecord extends AttemptRecord where
  ttftMs : Option ℤ := none
  inputTokens : Option ℕ := none
  cacheWriteTokens : Option ℕ := none
  cacheReadTokens : Option ℕ := none
  finishReason : Option String := none
  partialResponseHash : Option String := none
  promptId : Option String := none
  promptVersion : Option String := none
  promptSha256 : Option String := none
  validation : Option ValidationOutcome := none
  adapterName : Option String := none
  adapterDataClassification : Option String := none
  effectiveDataClassification : Option String := none

/-- `as_json` of a record. -/
def CallRecord.asJson (record : CallRecord) : Json :=
  .obj
    [("attempt", .int record.attempt),
     ("model", .str record.canonicalId),
     ("subject", .str (if record.subjectCanonicalId = "" then record.canonicalId
        else record.subjectCanonicalId)),
     ("adapter", .ofOption .str record.adapterName),
     ("runtime_profile_hash", .str record.runtimeProfileHash),
     ("rank", .int record.rank),
     ("outcome", .str record.outcome.value),
     ("provider_ms", .ofOption .int record.providerMs),
     ("ttft_ms", .ofOption .int record.ttftMs),
     ("error_code", .ofOption .str record.errorCode),
     ("prompt_id", .ofOption .str record.promptId),
     ("prompt_version", .ofOption .str record.promptVersion),
     ("prompt_sha256", .ofOption .str record.promptSha256)]

/-- The columns `write_attempt` gives a row: the record without its text, its validation and the
two names that are only reported. -/
def CallRecord.columns (record : CallRecord) : CallRecord :=
  { record with text := "", validation := none, canonicalId := "", adapterName := none }

/-- A row of `job_attempts`. -/
structure AttemptRow where
  jobId : JobId
  columns : CallRecord

/-- A row of `validations`, with the attempt it belongs to. -/
structure ValidationRow where
  jobId : JobId
  attempt : ℕ
  kind : String
  passed : Bool
  detailJson : Members
  createdAt : Instant

/-- The rows of an attempt's checks. -/
def CallRecord.validationRows (record : CallRecord) (jobId : JobId) (now : Instant) :
    List ValidationRow :=
  ((record.validation.map (·.checks)).getD []).map fun check =>
    { jobId, attempt := record.attempt, kind := check.kind, passed := check.passed
      detailJson := check.detail, createdAt := now }

/-! ### The rows of one job -/

/-- What the store holds about one job, and what it does not hold: the attempts made so far with
their answers, newest last. -/
structure JobRows where
  job : StoredJob
  events : List ContentEvent := []
  attempts : List AttemptRow := []
  validations : List ValidationRow := []
  made : List (CallRecord × Reply) := []

/-- The result columns without text. -/
def ResultColumns.bare (columns : ResultColumns) : ResultColumns :=
  { columns with
    responseText := none
    structuredOutput := none
    toolCalls := none
    reasoningSummary := none }

/-- The data columns without text. -/
def JobData.bare (data : JobData) : JobData := { data with result := data.result.bare }

/-- A job's row without text and without its request. -/
def StoredJob.bare (job : StoredJob) : StoredJob :=
  { job with requestJson := [], promptText := none, data := job.data.bare }

/-- A write of columns that hold no text: it does not carry text into them, it leaves the request
alone, and it does not count attempts. -/
structure Bookkeeping where
  update : StoredJob → StoredJob
  blind : ∀ {a b : StoredJob}, a.bare = b.bare → (update a).bare = (update b).bare
  request : ∀ job, (update job).requestJson = job.requestJson
  counter : ∀ job, (update job).attempt = job.attempt

/-- A move is bookkeeping when what it writes on the side holds no text. -/
def Bookkeeping.move (target : JobState) (now : Instant) (reason : Option String)
    (values : JobData → JobData)
    (hvalues : ∀ {d d' : JobData}, d.bare = d'.bare → (values d).bare = (values d').bare) :
    Bookkeeping where
  update job := { job with toJob := job.toJob.moved target now reason values }
  blind {a b} h := by
    -- the new row is made of the old one without text and of the new data without text
    let made (job : StoredJob) (data : JobData) : StoredJob :=
      { job with toJob := job.toJob.moved target now reason fun _ => data }
    have hmade : ∀ job : StoredJob,
        ({ job with toJob := job.toJob.moved target now reason values } : StoredJob).bare =
          made job.bare (values job.data).bare := by
      intro job
      simp only [made, StoredJob.bare, Job.moved]
      split_ifs <;> rfl
    have hdata : a.data.bare = b.data.bare := by
      have := congrArg (fun job : StoredJob => job.data) h
      exact this
    rw [hmade, hmade, h, hvalues hdata]
  request _ := Job.moved_requestJson ..
  counter _ := Job.moved_attempt ..

/-- An event, but for its number. -/
structure EventEntry where
  eventType : String
  timestamp : Instant
  message : Option String := none
  dataJson : Json := .obj []

/-- The row of an event. -/
def EventEntry.event (jobId : JobId) (sequence : ℕ) (entry : EventEntry) : ContentEvent where
  jobId
  sequence
  timestamp := entry.timestamp
  eventType := entry.eventType
  message := entry.message
  dataJson := entry.dataJson

/-- One call of a provider that `write_attempt` records: the record but for what the answer
decides, the answer, and what its validation said.  A failed call is not validated. -/
structure AnsweredCall (tools : TextTools) where
  base : CallRecord
  policy : ValidationPolicy
  reply : Reply
  validation : Option ValidationOutcome
  failed : base.errorCode.isSome → validation = none
  answered : base.errorCode = none →
    ∃ outcome, validation = some outcome ∧ validateOutput tools policy reply.text = .ok outcome

/-- How an answered call ends. -/
def answeredOutcome (validation : ValidationOutcome) : AttemptOutcomeKind :=
  if validation.passed = some false then .validationFailed else .completed

/-- The record of a call, `_record`. -/
def AnsweredCall.record {tools : TextTools} (call : AnsweredCall tools) (attempt : ℕ) :
    CallRecord :=
  { call.base with
    attempt
    outcome := (call.validation.map answeredOutcome).getD call.base.outcome
    partialResponseHash := if call.reply.text = "" then none
      else some (tools.sha256 call.reply.text)
    validation := call.validation
    text := call.reply.text }

/-- What a result is written with besides the answer: the columns that are set with it, the
measurements, how many of the attempts this execution made, and what its response says about the
model and the decision. -/
structure Completion where
  step : Bookkeeping
  measured : ResultColumns
  made : ℕ
  finishReason : Option String := none
  queueWaitMs : ℤ := 0
  model : Members := []
  routing : Members := []
  /-- Whether the synchronous path ends a stream with it. -/
  streamed : Bool
  timestamp : Instant
  message : Option String := none

/-- One write about a job. -/
inductive ContentWrite (tools : TextTools) where
  /-- Columns without text, and events without text. -/
  | book (step : Bookkeeping) (entries : List EventEntry)
  /-- An attempt, with what its transaction writes besides and its event, if it has one. -/
  | attempt (call : AnsweredCall tools) (now : Instant) (step : Bookkeeping)
      (eventType : Option String)
  /-- The result of the last attempt. -/
  | complete (finish : Completion)

section Body

variable (tools : TextTools)

/-- A count, or the word for a measurement there is none of. -/
def usageJson (count : Option ℕ) : Json :=
  (count.map fun n : ℕ => Json.int n).getD (.str "unsupported")

/-- `as_json` of one check. -/
def ValidationCheck.asJson (check : ValidationCheck) : Json :=
  .obj [("kind", .str check.kind), ("passed", .bool check.passed), ("detail", .obj check.detail)]

/-- `output` and `reasoning` of a response. -/
def Completion.content (finish : Completion) (reply : Reply) (validation : ValidationOutcome) :
    Members :=
  [("output", .obj
      [("text", .str reply.text),
       ("finish_reason", .ofOption .str finish.finishReason),
       ("structured", if validation.performed then validation.parsed else .null),
       ("tool_calls", .arr reply.toolCalls),
       ("tool_calls_assembled", .arr (tools.assembleToolCalls reply.toolCalls))]),
    ("reasoning", .obj
      [("available", .bool reply.summary.isSome),
       ("summary", .ofOption .str reply.summary),
       ("source", .ofOption .str (reply.summary.map fun _ => "provider"))])]

/-- What a response says about an answer besides. -/
def Completion.account (finish : Completion) (records : List CallRecord)
    (validation : ValidationOutcome) : Members :=
  [("model", .obj finish.model),
    ("routing", .obj finish.routing),
    ("usage", .obj
      [("input_tokens", usageJson finish.measured.inputTokens),
       ("output_tokens", usageJson finish.measured.outputTokens),
       ("cache_write_tokens", usageJson finish.measured.cacheWriteTokens),
       ("cache_read_tokens", usageJson finish.measured.cacheReadTokens),
       ("thinking_tokens", usageJson finish.measured.thinkingTokens)]),
    ("timing", .obj
      [("total_ms", .ofOption .int finish.measured.totalMs),
       ("provider_ms", .ofOption .int finish.measured.providerMs),
       ("loadcoach_overhead_ms", .ofOption .int finish.measured.loadcoachOverheadMs),
       ("ttft_ms", .ofOption .int finish.measured.ttftMs),
       ("queue_wait_ms", .int finish.queueWaitMs)]),
    ("validation", .obj
      [("performed", .bool validation.performed),
       ("passed", .ofOption .bool validation.passed),
       ("attempts", .int records.length),
       ("checks", .arr (validation.checks.map ValidationCheck.asJson))]),
    ("attempts", .arr (records.map CallRecord.asJson)),
    ("degradations", .arr (finish.measured.degradations.map .str))]

/-- `ExecutionOutcome.as_json`. -/
def Completion.asJson (finish : Completion) (jobId : JobId) (records : List CallRecord)
    (reply : Reply) (validation : ValidationOutcome) : Members :=
  [("job_id", .int jobId), ("status", .str "completed")] ++
    finish.content tools reply validation ++ finish.account records validation

/-- The event of a result. -/
def Completion.entry (finish : Completion) (jobId : JobId) (records : List CallRecord)
    (reply : Reply) (validation : ValidationOutcome) : EventEntry where
  eventType := if finish.streamed then "result" else "job.completed"
  timestamp := finish.timestamp
  message := finish.message
  dataJson := .obj (finish.asJson tools jobId records reply validation)

/-- The result columns a result is written with. -/
def Completion.columns (finish : Completion) (reply : Reply) (validation : ValidationOutcome) :
    ResultColumns :=
  { finish.measured with
    responseText := some reply.text
    structuredOutput := if validation.performed then some validation.parsed else none
    toolCalls := some reply.toolCalls
    reasoningAvailable := reply.summary.isSome
    reasoningSummary := reply.summary
    reasoningSource := reply.summary.map fun _ => "provider"
    validationPassed := validation.passed }

/-- The row of a job with its result. -/
def Completion.job (finish : Completion) (reply : Reply) (validation : ValidationOutcome)
    (job : StoredJob) : StoredJob :=
  let job := finish.step.update job
  { job with
    responseHash := some (tools.sha256 reply.text)
    data := { job.data with result := finish.columns reply validation } }

end Body

namespace JobRows

variable {tools : TextTools} (jobId : JobId)

/-- Append one event. -/
def append (entry : EventEntry) (rows : JobRows) : JobRows :=
  { rows with events := rows.events ++ [entry.event jobId (rows.events.length + 1)] }

/-- The event of an attempt. -/
def attemptEntry (record : CallRecord) (now : Instant) (eventType : String) : EventEntry where
  eventType
  timestamp := now
  message := s!"attempt {record.attempt} on {record.canonicalId}: {record.outcome.value}"
  dataJson := record.asJson

/-- Write one attempt; its number is what the counter yields. -/
def writeAttempt (call : AnsweredCall tools) (now : Instant) (rows : JobRows) : JobRows :=
  let job : StoredJob := { rows.job with attempt := rows.job.attempt + 1 }
  let record := call.record job.attempt
  { rows with
    job
    attempts := rows.attempts ++ [⟨jobId, record.columns⟩]
    validations := rows.validations ++ record.validationRows jobId now
    made := rows.made ++ [(record, call.reply)] }

/-- Write the result of an answer; the response counts the attempts of this execution. -/
def complete (tools : TextTools) (finish : Completion) (reply : Reply)
    (validation : ValidationOutcome) (rows : JobRows) : JobRows :=
  let records := (rows.made.map Prod.fst).drop (rows.made.length - finish.made)
  append jobId (finish.entry tools jobId records reply validation)
    { rows with job := finish.job tools reply validation rows.job }

/-- What the last attempt answered, with its validation, if it was answered. -/
def lastAnswer (rows : JobRows) : Option (Reply × ValidationOutcome) :=
  rows.made.getLast?.bind fun last => last.1.validation.map fun validation => (last.2, validation)

/-- One write. -/
def write (rows : JobRows) : ContentWrite tools → JobRows
  | .book step entries =>
      entries.foldl (fun rows entry => rows.append jobId entry)
        { rows with job := step.update rows.job }
  | .attempt call now step eventType =>
      let rows := rows.writeAttempt jobId call now
      let rows := { rows with job := step.update rows.job }
      match eventType with
      | none => rows
      | some eventType =>
          rows.append jobId (attemptEntry (call.record rows.job.attempt) now eventType)
  -- a result is the one of the last attempt, which was answered
  | .complete finish =>
      match rows.lastAnswer with
      | none => rows
      | some (reply, validation) => rows.complete jobId tools finish reply validation

/-- The rows after a history of writes. -/
def after (rows : JobRows) (history : List (ContentWrite tools)) : JobRows :=
  history.foldl (write jobId) rows

end JobRows

/-! ### The first row -/

/-- What a job's request is stored from, with the transcript: a submission to the queue, or a
synchronous request with or without a reserved row. -/
inductive StoredRequest where
  | queued (submission : JobSubmission) (turns : List Message)
  | reserved (request : GenerateRequest) (turns : List Message)
  | unreserved (request : GenerateRequest) (turns : List Message)

namespace StoredRequest

/-- The transcript. -/
def turns : StoredRequest → List Message
  | queued _ turns | reserved _ turns | unreserved _ turns => turns

/-- The stored request, `jobs.request_json`. -/
def members : StoredRequest → Members
  | queued submission turns => submission.requestMembers turns
  | reserved request turns => syncRequestMembers request turns
  | unreserved request _ => unreservedMembers request

/-- The text whose hash is `jobs.prompt_hash`. -/
def promptOf (request : StoredRequest) : String :=
  "\n".intercalate (request.turns.map fun m => s!"{m.role.value}:{m.content}")

/-- The first row of a job, given the columns that say nothing about its text. -/
def row (tools : TextTools) (request : StoredRequest) (columns : Job) : StoredJob :=
  { columns with
    requestJson := request.members
    promptHash := some (tools.sha256 request.promptOf) }

end StoredRequest

end LoadCoach

import LoadCoach.Store.Queue

/-! # The synchronous path's transactions

`services/execution.py` and `web/routes/generate.py`: a synchronous execution reserves its row
before it starts (`reserveSyncJob`), ends it with a result or an error (`persist`,
`failReserved`), and the streaming endpoint adds a last resort (`backstop`).  These writers do
not go through `transition`: they assign the row's columns, the state among them
(`Db.assign`). -/

namespace LoadCoach

open Foundations

/-! ### Reservation -/

/-- The stored request of a synchronous execution. -/
def syncRequestMembers (r : GenerateRequest) (turns : List Message) : Members :=
  [("task", .str r.task),
    ("messages", .arr (turns.map messageJson)),
    ("tools", toolDefinitionsJson r.tools),
    ("response_format", .ofOption .str r.responseFormat),
    ("sampling", .obj r.sampling),
    ("stream", .bool r.stream)]

/-- The stored request of a synchronous execution can be read back. -/
theorem fromRequestJson_syncRequestMembers {rack : ModelRack} {r : GenerateRequest}
    {turns : List Message} (hturns : AcceptedTurns rack turns) (htools : ∀ t ∈ r.tools, t.name ≠ "")
    (row : JobSubmission.Columns) :
    ∃ s, JobSubmission.fromRequestJson rack (syncRequestMembers r turns) row = .ok s := by
  have hmessages := messagesOfJson_map hturns
  have htools := toolDefinitionsOfJson_toolDefinitionsJson htools
  simp [JobSubmission.fromRequestJson, syncRequestMembers, Json.member?, item, pyStr, dictOf,
    hmessages, htools, JobSubmission.overridesOfJson, bind, Except.bind, pure,
    Except.pure]

/-- The row of a synchronous execution that is about to start. -/
def reservedJob (r : GenerateRequest) (profile : String × String) (requestJson : Members)
    (now : Instant) (ttlHours : ℚ) : Job where
  taskProfileId := profile.1
  taskProfileVersion := profile.2
  jobClass := .interactive
  basePriority := 800
  effectivePriority := 800
  source := r.source
  state := .executing
  stateReason := some "synchronous"
  idempotencyKey := r.idempotencyKey
  idempotent := r.idempotencyKey.isSome
  idempotencyExpiresAt := r.idempotencyKey.map fun _ => now + hours ttlHours
  requestJson
  attempt := 0
  maxAttempts := 1
  createdAt := now
  data := { startedAt := some now }

/-- How a synchronous execution ends. -/
inductive SyncOutcome where
  | result (columns : ResultColumns) (selected : Selection)
  | error (code message : String)

namespace SyncOutcome

/-- The state an outcome leaves its row in. -/
def state : SyncOutcome → JobState
  | result .. => .completed
  | error .. => .failed

/-- The event an outcome ends the stream with. -/
def eventType : SyncOutcome → String
  | result .. => "result"
  | error .. => "error"

/-- The code of an error. -/
def errorCode : SyncOutcome → Option String
  | result .. => none
  | error code _ => some code

/-- The data columns of an ended row. -/
def data (outcome : SyncOutcome) (d : JobData) : JobData :=
  match outcome with
  | result columns selected =>
      { d.select selected with result := columns, errorCode := none, errorText := none }
  | error code message =>
      { d with
        selectedModelId := none
        runtimeProfileHash := none
        servedContext := none
        servedContextSource := none
        targetGpuIndex := none
        result := {}
        errorCode := some code
        errorText := some message }

end SyncOutcome

/-- What `persist` assigns to the row it was given. -/
def Job.persisted (outcome : SyncOutcome) (profile : String × String) (attempts : ℕ)
    (now : Instant) (job : Job) : Job :=
  { job with
    taskProfileId := profile.1
    taskProfileVersion := profile.2
    state := outcome.state
    stateReason := some (outcome.errorCode.getD "synchronous")
    maxAttempts := max attempts 1
    completedAt := some now
    data := outcome.data job.data }

/-- What `failReserved` assigns, and `backstop` with its own code. -/
def Job.failedWith (code message : String) (now : Instant) (job : Job) : Job :=
  { job with
    state := .failed
    stateReason := some code
    completedAt := some now
    data := { job.data with errorCode := some code, errorText := some message } }

/-- The stored request of an execution without a reservation; it has no transcript. -/
def unreservedMembers (r : GenerateRequest) : Members :=
  [("task", .str r.task),
    ("tools", toolDefinitionsJson r.tools),
    ("response_format", .ofOption .str r.responseFormat),
    ("sampling", .obj r.sampling),
    ("stream", .bool r.stream)]

theorem fromRequestJson_unreservedMembers {rack : ModelRack} {r : GenerateRequest}
    (htools : ∀ t ∈ r.tools, t.name ≠ "") (row : JobSubmission.Columns) :
    ∃ s, JobSubmission.fromRequestJson rack (unreservedMembers r) row = .ok s := by
  have htools := toolDefinitionsOfJson_toolDefinitionsJson htools
  simp [JobSubmission.fromRequestJson, unreservedMembers, Json.member?, item, pyStr, dictOf,
    messagesOfJson, htools, JobSubmission.overridesOfJson, bind, Except.bind, pure,
    Except.pure]

/-- The row of an execution without a reservation. -/
def unreservedJob (r : GenerateRequest) (profile : String × String) (outcome : SyncOutcome)
    (attempts : ℕ) (now : Instant) : Job where
  taskProfileId := profile.1
  taskProfileVersion := profile.2
  source := r.source
  state := outcome.state
  stateReason := outcome.errorCode
  idempotencyKey := r.idempotencyKey
  idempotent := r.idempotencyKey.isSome
  requestJson := unreservedMembers r
  maxAttempts := max attempts 1
  createdAt := now
  completedAt := some now
  data :=
    let d := outcome.data { startedAt := some now }
    match outcome with
    | .result _ selected =>
        { d with
          selectedAdapterId := selected.adapterId
          selectedSubjectCanonicalId := some selected.subjectCanonicalId }
    | .error .. => d

namespace Db

/-- Assign columns of a row that must exist, its state among them. -/
def assign (jobId : JobId) (f : Job → Job) (db : Db) : Except Raised Db :=
  match db.jobs.lookup jobId with
  | none => .error .unexpected
  | some job =>
      .ok { db with
        jobs := (db.jobs.updateWhere (fun id _ => decide (id = jobId) && true) f).1
        journal := db.journal ++ [⟨jobId, job.state, (f job).state⟩] }

/-- The insert of a reservation. -/
def reserveSyncJob (rack : ModelRack) (jobId : JobId) (r : GenerateRequest)
    (profile : String × String) (now : Instant) (ttlHours : ℚ) (db : Db) :
    Except Raised Db := do
  let turns ← r.transcript rack
  db.insertJob jobId (reservedJob r profile (syncRequestMembers r turns) now ttlHours)

/-- Write the attempts of an execution, in order. -/
def writeAttempts (jobId : JobId) (records : List AttemptRecord) (db : Db) : Except Raised Db :=
  records.foldlM (fun db record => db.writeAttempt jobId record none) db

/-- End a reserved row with its outcome, its attempts and its terminal event. -/
def persist (jobId : JobId) (outcome : SyncOutcome) (profile : String × String)
    (records : List AttemptRecord) (now : Instant) (db : Db) : Except Raised Db := do
  let db ← db.assign jobId (Job.persisted outcome profile records.length now)
  let db ← db.writeAttempts jobId records
  pure (db.append jobId outcome.eventType now "")

/-- Insert the ended row of an execution without a reservation, its attempts and its events. -/
def persistNew (jobId : JobId) (r : GenerateRequest) (profile : String × String)
    (outcome : SyncOutcome) (records : List AttemptRecord) (now : Instant) (db : Db) :
    Except Raised Db := do
  let db ← db.insertJob jobId (unreservedJob r profile outcome records.length now)
  let db ← db.writeAttempts jobId records
  let db := db.append jobId "job.executing" now ""
  let db := records.foldl (fun db record =>
    db.append jobId (if record.attempt > 1 then "job.retrying" else "job.executing") now
      s!"attempt {record.attempt} on {record.canonicalId}: {record.outcome.value}") db
  pure (db.append jobId (eventTypeFor outcome.state) now "")

/-- Fail a reserved row whose execution ended before any attempt. -/
def failReserved (jobId : JobId) (code message : String) (now : Instant) (db : Db) :
    Except Raised Db := do
  let db ← db.assign jobId (Job.failedWith code message now)
  pure (db.append jobId "error" now "")

/-- Whether a job's stream has its terminal frame. -/
def hasTerminalFrame (jobId : JobId) (db : Db) : Bool :=
  db.jobEvents.any fun e =>
    decide (e.jobId = jobId) && (e.eventType == "result" || e.eventType == "error")

/-- Fail a row that is there and not terminal yet. -/
def failUnended (jobId : JobId) (message : String) (now : Instant) (db : Db) : Except Raised Db :=
  match db.jobs.lookup jobId with
  | none => .ok db
  | some job =>
      if job.state ∈ terminalStates then .ok db
      else db.assign jobId (Job.failedWith "INTERNAL_ERROR" message now)

/-- Persist a terminal error frame if the job has none. -/
def backstop (jobId : JobId) (message : String) (now : Instant) (db : Db) : Except Raised Db :=
  if db.hasTerminalFrame jobId then
    .ok db
  else do
    let db ← db.failUnended jobId message now
    pure (db.append jobId "error" now "")

end Db

end LoadCoach

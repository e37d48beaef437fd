import LoadCoach.Foundations.Table
import LoadCoach.QueueState
import LoadCoach.Submission

/-! # The job store

The tables the queue writes: `jobs`, `job_attempts` and `job_events`, and the two statements
every writer is built from, the compare-and-set move `transition` (`services/queue.py`) and the
numbered attempt `writeAttempt` (`services/execution.py`).  A function into `Except Raised Db` is
one write transaction: it commits its result, or raises and leaves the database as it was.

`Db.journal` is a history variable, not a table: the state writes that were committed, oldest
first.  One transaction may write a state twice (a worker's cancellation does), and a property
of every change of a job's state has to see both. -/

namespace LoadCoach

open Foundations

/-! ### Rows -/

/-- A job's identifier, a ULID; the queue only compares them. -/
abbrev JobId := ℕ

/-- A lease owner `"{process}/{worker}"`: the prefix a process generates at its start and the
worker's name in it. -/
structure Owner where
  process : ℕ
  worker : ℕ
deriving DecidableEq, Repr

/-- The result columns of a job. -/
structure ResultColumns where
  responseText : Option String := none
  structuredOutput : Option Json := none
  toolCalls : Option (List Json) := none
  reasoningAvailable : Bool := false
  reasoningSummary : Option String := none
  reasoningSource : Option String := none
  providerMs : Option ℤ := none
  loadcoachOverheadMs : Option ℤ := none
  totalMs : Option ℤ := none
  ttftMs : Option ℤ := none
  inputTokens : Option ℕ := none
  outputTokens : Option ℕ := none
  cacheWriteTokens : Option ℕ := none
  cacheReadTokens : Option ℕ := none
  thinkingTokens : Option ℕ := none
  validationPassed : Option Bool := none
  degradations : List String := []

/-- The columns a transition may set on the side. -/
structure JobData where
  cancelRequested : Bool := false
  startedAt : Option Instant := none
  queueWaitMs : Option ℤ := none
  selectedModelId : Option String := none
  selectedAdapterId : Option String := none
  selectedSubjectCanonicalId : Option String := none
  runtimeProfileHash : Option String := none
  servedContext : Option ℕ := none
  servedContextSource : Option String := none
  targetGpuIndex : Option ℕ := none
  result : ResultColumns := {}
  errorCode : Option String := none
  errorText : Option String := none

/-- What the router decided about the candidate a job runs on. -/
structure Selection where
  modelId : String
  adapterId : Option String := none
  subjectCanonicalId : String := ""
  runtimeProfileHash : String := ""
  servedContext : ℕ := 0
  servedContextSource : String := ""
  targetGpuIndex : Option ℕ := none
deriving DecidableEq, Repr

/-- The five selection columns an admission writes. -/
def JobData.select (s : Selection) (d : JobData) : JobData :=
  { d with
    selectedModelId := some s.modelId
    runtimeProfileHash := some s.runtimeProfileHash
    servedContext := some s.servedContext
    servedContextSource := some s.servedContextSource
    targetGpuIndex := s.targetGpuIndex }

/-- A row of `jobs`. -/
structure Job where
  taskProfileId : String
  taskProfileVersion : String
  jobClass : JobClass := .normal
  basePriority : ℤ := 0
  effectivePriority : ℤ := 0
  source : String := "anonymous"
  state : JobState
  stateReason : Option String := none
  idempotencyKey : Option String := none
  idempotent : Bool := false
  idempotencyExpiresAt : Option Instant := none
  requestJson : Members := []
  attempt : ℕ := 0
  maxAttempts : ℕ := 1
  leaseOwner : Option Owner := none
  leaseExpiresAt : Option Instant := none
  createdAt : Instant
  scheduledFor : Option Instant := none
  queuedAt : Option Instant := none
  completedAt : Option Instant := none
  maxWaitSeconds : Option ℕ := none
  data : JobData := {}

/-- How an attempt ended. -/
inductive AttemptOutcomeKind where
  | completed
  | validationFailed
  | cancelled
  | timeout
  | contextExceeded
  | providerError
deriving DecidableEq, Repr

/-- The spelling of an outcome in `job_attempts.outcome`. -/
def AttemptOutcomeKind.value : AttemptOutcomeKind → String
  | completed => "completed"
  | validationFailed => "validation_failed"
  | cancelled => "cancelled"
  | timeout => "timeout"
  | contextExceeded => "context_exceeded"
  | providerError => "provider_error"

/-- One attempt, as it is stored and reported. -/
structure AttemptRecord where
  attempt : ℕ
  canonicalId : String := ""
  modelId : Option String := none
  runtimeProfileHash : String := ""
  rank : ℕ := 1
  outcome : AttemptOutcomeKind
  startedAt : Instant := 0
  completedAt : Option Instant := none
  providerMs : Option ℤ := none
  outputTokens : Option ℕ := none
  errorCode : Option String := none
  errorText : Option String := none
  text : String := ""
  subjectCanonicalId : String := ""
  adapterId : Option String := none
deriving DecidableEq, Repr

/-- A row of `job_attempts`. -/
structure JobAttempt where
  jobId : JobId
  attempt : ℕ
  record : AttemptRecord
deriving DecidableEq, Repr

/-- A row of `job_events`. -/
structure JobEvent where
  jobId : JobId
  eventType : String
  timestamp : Instant
  message : String := ""
deriving DecidableEq, Repr

/-- One committed write of `jobs.state`. -/
structure StateWrite where
  jobId : JobId
  before : JobState
  after : JobState
deriving DecidableEq, Repr

/-- The database. -/
structure Db where
  jobs : Table JobId Job := ∅
  jobAttempts : List JobAttempt := []
  jobEvents : List JobEvent := []
  journal : List StateWrite := []

/-! ### The two statements -/

/-- The spelling of a lease owner. -/
def Owner.value (w : Owner) : String := s!"{w.process}/worker-{w.worker}"

/-- `TransitionRefused`. -/
def transitionRefused (jobId : JobId) (current target : JobState) (owner : Option Owner) :
    Raised :=
  let lease := (owner.map fun w => s!" under lease '{w.value}'").getD ""
  .suite "TRANSITION_REFUSED"
    (s!"Job {jobId} could not move {current.value} -> {target.value}: it is no longer in " ++
      s!"{current.value}{lease}.")
    [("job_id", .int jobId), ("current", .str current.value), ("target", .str target.value),
     ("owner", .ofOption (fun w : Owner => .str w.value) owner)]

/-- `IllegalTransition`. -/
def illegalTransition (current target : JobState) : Raised :=
  .suite "ILLEGAL_TRANSITION"
    s!"A job cannot move from '{current.value}' to '{target.value}'."
    [("current", .str current.value), ("target", .str target.value)]

/-- `AttemptRefused`. -/
def attemptRefused (jobId : JobId) (attempt : ℕ) : Raised :=
  .suite "ATTEMPT_REFUSED" s!"Attempt {attempt} of job {jobId} was not written."
    [("job_id", .int jobId), ("attempt", .int attempt)]

/-- The fence of a statement: without an owner every row passes, with one only its own. -/
def fenced (owner : Option Owner) (job : Job) : Bool :=
  match owner with
  | none => true
  | some w => job.leaseOwner == some w

/-- What a move writes into its row. -/
def Job.moved (target : JobState) (now : Instant) (reason : Option String)
    (values : JobData → JobData) (job : Job) : Job :=
  let job := { job with state := target, stateReason := reason }
  -- only a lease-holding state carries a lease: the reaper's predicate depends on it
  let job := if target ∈ waitingStates ∨ target ∈ terminalStates then
    { job with leaseOwner := none, leaseExpiresAt := none } else job
  let job := if target = .queued then { job with scheduledFor := some now } else job
  let job := if target ∈ terminalStates then { job with completedAt := some now } else job
  { job with data := values job.data }

/-- A row whose attempt counter was incremented. -/
def Job.counted (job : Job) : Job := { job with attempt := job.attempt + 1 }

@[simp] theorem Job.counted_attempt (job : Job) : job.counted.attempt = job.attempt + 1 := rfl

namespace Db

/-- Append one event. -/
def append (jobId : JobId) (eventType : String) (now : Instant) (message : String) (db : Db) :
    Db :=
  { db with jobEvents := db.jobEvents ++ [⟨jobId, eventType, now, message⟩] }

/-- Move a job `current → target` by compare-and-set. -/
def transition (jobId : JobId) (current target : JobState) (now : Instant)
    (owner : Option Owner) (reason : Option String) (values : JobData → JobData) (db : Db) :
    Except Raised Db :=
  if isLegal current target then
    let (jobs, rowcount) := db.jobs.updateWhere
      (fun id job => decide (id = jobId) && (decide (job.state = current) && fenced owner job))
      (Job.moved target now reason values)
    if rowcount = 1 then
      .ok { db with jobs, journal := db.journal ++ [⟨jobId, current, target⟩] }
    else
      .error (transitionRefused jobId current target owner)
  else
    .error (illegalTransition current target)

/-- `transition` and its event, as one transaction. -/
def move (jobId : JobId) (current target : JobState) (now : Instant) (owner : Option Owner)
    (reason : Option String) (message : Option String) (values : JobData → JobData) (db : Db) :
    Except Raised Db := do
  let db ← db.transition jobId current target now owner reason values
  pure (db.append jobId (eventTypeFor target) now
    (message.getD s!"{current.value} -> {target.value}"))

/-- Write one attempt row, the only place `jobs.attempt` is incremented. -/
def writeAttempt (jobId : JobId) (record : AttemptRecord) (owner : Option Owner) (db : Db) :
    Except Raised Db :=
  let (jobs, rowcount) := db.jobs.updateWhere
    (fun id job => decide (id = jobId) && fenced owner job) Job.counted
  -- `… RETURNING attempt`
  match if rowcount = 1 then jobs.lookup jobId else none with
  | none => .error (attemptRefused jobId record.attempt)
  | some job =>
      if job.attempt ≠ record.attempt then
        .error (attemptRefused jobId record.attempt)
      else if ∃ row ∈ db.jobAttempts, row.jobId = jobId ∧ row.attempt = job.attempt then
        .error .integrityError
      else
        .ok { db with
          jobs
          jobAttempts := db.jobAttempts ++ [⟨jobId, job.attempt, record⟩] }

end Db

/-! ### What a move writes -/

section Moved

variable (target : JobState) (now : Instant) (reason : Option String)
  (values : JobData → JobData) (job : Job)

@[simp] theorem Job.moved_state : (job.moved target now reason values).state = target := by
  simp only [moved]
  split_ifs <;> rfl

@[simp] theorem Job.moved_attempt :
    (job.moved target now reason values).attempt = job.attempt := by
  simp only [moved]
  split_ifs <;> rfl

@[simp] theorem Job.moved_maxAttempts :
    (job.moved target now reason values).maxAttempts = job.maxAttempts := by
  simp only [moved]
  split_ifs <;> rfl

@[simp] theorem Job.moved_queuedAt :
    (job.moved target now reason values).queuedAt = job.queuedAt := by
  simp only [moved]
  split_ifs <;> rfl

@[simp] theorem Job.moved_idempotent :
    (job.moved target now reason values).idempotent = job.idempotent := by
  simp only [moved]
  split_ifs <;> rfl

@[simp] theorem Job.moved_requestJson :
    (job.moved target now reason values).requestJson = job.requestJson := by
  simp only [moved]
  split_ifs <;> rfl

@[simp] theorem Job.moved_data :
    (job.moved target now reason values).data = values job.data := by
  simp only [moved]
  split_ifs <;> rfl

/-- A move ends the lease unless its target is a state a worker may be touching. -/
theorem Job.moved_leaseOwner : (job.moved target now reason values).leaseOwner =
    if target ∈ inFlightStates then job.leaseOwner else none := by
  cases target <;> rfl

theorem Job.moved_leaseExpiresAt : (job.moved target now reason values).leaseExpiresAt =
    if target ∈ inFlightStates then job.leaseExpiresAt else none := by
  cases target <;> rfl

end Moved

end LoadCoach

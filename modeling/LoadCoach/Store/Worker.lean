import LoadCoach.Store.Queue

/-! # A worker's transactions

`services/worker.py`: every write a worker makes to the job it holds, each under the fence of
its lease.  Most are one move with its event (`fencedMove`); the two that follow a provider call
write the attempt row in the same transaction; `cancelFrom` and `failAfterCrash` first read the
state the row is in now. -/

namespace LoadCoach

open Foundations

namespace Db

/-- One move of the lease's owner, with its event. -/
def fencedMove (w : Owner) (jobId : JobId) (current target : JobState) (now : Instant)
    (reason : Option String) (values : JobData → JobData) (message : String) (db : Db) :
    Except Raised Db :=
  db.move jobId current target now (some w) reason (some message) values

/-- The row of a job, if it is leased to `w`. -/
def held (w : Owner) (jobId : JobId) (db : Db) : Option Job :=
  (db.jobs.lookup jobId).filter fun job => decide (job.leaseOwner = some w)

variable (w : Owner) (jobId : JobId) (now : Instant) (db : Db)

/-! ### Admission -/

/-- `leased → waiting_resources`, releasing the lease. -/
def defer (reason summary : String) (firstModelId : Option String) : Except Raised Db :=
  db.fencedMove w jobId .leased .waitingResources now (some reason)
    (fun d => { d with errorText := some summary, selectedModelId := firstModelId }) summary

/-- Hand the job back because every remaining candidate is being probed. -/
def requeueForProbe (state : JobState) (probeSkipped : List String) : Except Raised Db :=
  let skipped := String.intercalate ", " probeSkipped
  db.fencedMove w jobId state .queued now (some "PROBE_IN_FLIGHT") id
    (s!"circuit-breaker probe already in flight on {skipped}: " ++
      "requeued rather than run as a second probe")

/-- `leased → failed`: no candidate at all. -/
def failAdmission (code message : String) : Except Raised Db :=
  db.fencedMove w jobId .leased .failed now (some code)
    (fun d => { d with errorCode := some code, errorText := some message })
    s!"no eligible model: {message}"

/-- `leased → admitted`, with the selection. -/
def admitOn (selected : Selection) : Except Raised Db :=
  db.fencedMove w jobId .leased .admitted now none (JobData.select selected)
    s!"admitted on {selected.subjectCanonicalId}"

/-! ### Attempts -/

/-- The columns the first start of a job sets. -/
def startValues (queuedAt : Instant) (first : Bool) (d : JobData) : JobData :=
  if first then
    { d with startedAt := some now, queueWaitMs := some ((now - queuedAt) / 1000) }
  else
    d

/-- `state → executing`. -/
def startExecuting (state : JobState) (attemptNumber : ℕ) (queuedAt : Instant) (first : Bool) :
    Except Raised Db :=
  db.fencedMove w jobId state .executing now none (startValues now queuedAt first)
    s!"attempt {attemptNumber} started"

/-- The attempt row and the move it belongs to. -/
def recordAttempt (record : AttemptRecord) (target : JobState) (reason : Option String) :
    Except Raised Db := do
  let db ← db.writeAttempt jobId record (some w)
  db.fencedMove w jobId .executing target now reason id
    s!"attempt {record.attempt} on {record.canonicalId}: {record.outcome.value}"

/-- Provider failure: the attempt row and `executing → retrying`. -/
def recordFailedAttempt (record : AttemptRecord) : Except Raised Db :=
  recordAttempt w jobId now db record .retrying record.errorCode

/-- The provider answered: the attempt row and `executing → validating`. -/
def validateAttempt (record : AttemptRecord) : Except Raised Db :=
  recordAttempt w jobId now db record .validating none

/-- The first half of a re-admission, `state → retrying`. -/
def startRetrying (state : JobState) (reason : String) : Except Raised Db :=
  db.fencedMove w jobId state .retrying now (some reason) id reason

/-- `retrying → admitted` for the next attempt. -/
def readmitJob (selected : Selection) (reason : String) : Except Raised Db :=
  db.fencedMove w jobId .retrying .admitted now (some reason) (JobData.select selected)
    s!"re-admitted on {selected.subjectCanonicalId} ({reason})"

/-! ### Endings -/

/-- `validating → completed`, with the result. -/
def complete (columns : ResultColumns) (selected : Selection) : Except Raised Db :=
  db.fencedMove w jobId .validating .completed now none
    (fun d => { d.select selected with result := columns, errorCode := none, errorText := none })
    s!"completed on {selected.subjectCanonicalId}"

/-- A terminal failure from the current state. -/
def fail (state : JobState) (code : String) (attempts maxAttempts : ℕ) (totalMs providerMs : ℤ) :
    Except Raised Db :=
  let message :=
    if code = "ATTEMPTS_EXHAUSTED" then
      s!"attempts exhausted after {attempts} (max {maxAttempts})"
    else if code = "ALL_CANDIDATES_FAILED" then
      "every candidate was tried and every attempt failed"
    else code
  db.fencedMove w jobId state .failed now (some code)
    (fun d =>
      { d with
        errorCode := some code
        errorText := some message
        result := { d.result with totalMs := some totalMs, providerMs := some providerMs } })
    message

/-- Keep the record of a call that was cancelled: the last record, if its outcome says so. -/
def recordCancelled (records : List AttemptRecord) : Except Raised Db :=
  match records.getLast? with
  | some record =>
      if record.outcome = .cancelled then db.writeAttempt jobId record (some w) else .ok db
  | none => .ok db

/-- `<state> → cancelling`, unless the row is there already. -/
def startCancelling (state : JobState) : Except Raised Db :=
  if state = .cancelling then .ok db else
    db.fencedMove w jobId state .cancelling now (some "cancel_requested") id
      s!"cancel requested in {state.value}"

/-- `cancelling → cancelled`. -/
def finishCancelling : Except Raised Db :=
  db.fencedMove w jobId .cancelling .cancelled now (some "GENERATION_CANCELLED")
    (fun d => { d with errorCode := some "GENERATION_CANCELLED", cancelRequested := true })
    "cancelled"

/-- `<state> → cancelling → cancelled` from the state the row is in now, keeping the record of a
call that was cancelled. -/
def cancelFrom (records : List AttemptRecord) : Except Raised Db :=
  match held w jobId db with
  | none =>
      .error (.suite "TRANSITION_REFUSED"
        s!"Job {jobId} is no longer leased to '{w.value}'; nothing to cancel."
        [("job_id", .int jobId), ("owner", .str w.value)])
  | some job => do
      let db ← recordCancelled w jobId db records
      let db ← startCancelling w jobId now db job.state
      finishCancelling w jobId now db

/-- Fail the job from whatever state it is in; a lease that is gone changes nothing, and a refusal
is swallowed. -/
def failAfterCrash (code text : String) : Except Raised Db :=
  match held w jobId db with
  | none => .ok db
  | some job =>
      db.fencedMove w jobId job.state .failed now (some code)
        (fun d => { d with errorCode := some code, errorText := some text })
        s!"failed in {job.state.value}: {code}"

end Db

/-! ### The transactions as data -/

/-- One write transaction of a worker. -/
inductive WorkerTx where
  | defer (reason summary : String) (firstModelId : Option String)
  | requeueForProbe (state : JobState) (probeSkipped : List String)
  | failAdmission (code message : String)
  | admitOn (selected : Selection)
  | startExecuting (state : JobState) (attemptNumber : ℕ) (queuedAt : Instant) (first : Bool)
  | recordFailedAttempt (record : AttemptRecord)
  | validateAttempt (record : AttemptRecord)
  | startRetrying (state : JobState) (reason : String)
  | readmitJob (selected : Selection) (reason : String)
  | complete (columns : ResultColumns) (selected : Selection)
  | fail (state : JobState) (code : String) (attempts maxAttempts : ℕ) (totalMs providerMs : ℤ)
  | cancelFrom (records : List AttemptRecord)
  | failAfterCrash (code text : String)

/-- Run a worker's transaction on the job it was given. -/
def WorkerTx.run (w : Owner) (jobId : JobId) (now : Instant) (db : Db) :
    WorkerTx → Except Raised Db
  | defer reason summary firstModelId => db.defer w jobId now reason summary firstModelId
  | requeueForProbe state probeSkipped => db.requeueForProbe w jobId now state probeSkipped
  | failAdmission code message => db.failAdmission w jobId now code message
  | admitOn selected => db.admitOn w jobId now selected
  | startExecuting state attemptNumber queuedAt first =>
      db.startExecuting w jobId now state attemptNumber queuedAt first
  | recordFailedAttempt record => db.recordFailedAttempt w jobId now record
  | validateAttempt record => db.validateAttempt w jobId now record
  | startRetrying state reason => db.startRetrying w jobId now state reason
  | readmitJob selected reason => db.readmitJob w jobId now selected reason
  | complete columns selected => db.complete w jobId now columns selected
  | fail state code attempts maxAttempts totalMs providerMs =>
      db.fail w jobId now state code attempts maxAttempts totalMs providerMs
  | cancelFrom records => db.cancelFrom w jobId now records
  | failAfterCrash code text => db.failAfterCrash w jobId now code text

end LoadCoach

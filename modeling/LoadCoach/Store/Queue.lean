import Mathlib.Algebra.Order.Floor.Defs
import Mathlib.Data.Rat.Floor
import LoadCoach.Store.Arithmetic
import LoadCoach.Store.Db

/-! # The queue's transactions

`services/queue.py`, `services/recovery.py`: enqueue, claim, cancel, the lease keeper's and the
reaper's statements, the max-wait and ageing sweeps, the re-queueing of a waiting job, the
watchdog's forced end and start-up recovery.  Each is one write transaction. -/

namespace LoadCoach

open Foundations

/-! ### Enqueue -/

/-- What an enqueue reads of the settings. -/
structure QueueSettings where
  maxDepth : ℕ := 1000
  maxActivePerSource : ℕ := 200
  maxWaitSeconds : ℕ := 3600
  idempotencyTtlHours : ℚ := 24
  maxAttempts : ℕ := 3

/-- The row of a submission that was just queued. -/
def queuedJob (s : JobSubmission) (profile : String × String) (pinnedModelId : Option String)
    (requestJson : Members) (priority : ℤ) (now : Instant) (settings : QueueSettings) : Job where
  taskProfileId := profile.1
  taskProfileVersion := profile.2
  jobClass := s.jobClass
  basePriority := priority
  effectivePriority := priority
  source := s.source
  state := .queued
  idempotencyKey := s.idempotencyKey
  idempotent := s.idempotent
  idempotencyExpiresAt :=
    s.idempotencyKey.map fun _ => now + hours settings.idempotencyTtlHours
  requestJson
  attempt := 0
  maxAttempts := settings.maxAttempts
  createdAt := now
  scheduledFor := some now
  queuedAt := some now
  -- `submission.max_wait_seconds or queue_settings.max_wait_seconds`
  maxWaitSeconds := some (if (s.maxWaitSeconds.getD 0) = 0 then settings.maxWaitSeconds
    else s.maxWaitSeconds.getD 0)
  data := { selectedModelId := pinnedModelId }

namespace Db

/-- Insert a new row; `(source, idempotency_key)` is unique. -/
def insertJob (jobId : JobId) (job : Job) (db : Db) : Except Raised Db :=
  if jobId ∈ db.jobs then
    .error .integrityError
  else if job.idempotencyKey.isSome ∧ db.jobs.select (fun _ other =>
      other.source == job.source && other.idempotencyKey == job.idempotencyKey) ≠ [] then
    .error .integrityError
  else
    .ok { db with jobs := db.jobs.insert jobId job }

/-- The insert of an enqueue and its event. -/
def enqueue (rack : ModelRack) (jobId : JobId) (s : JobSubmission) (profile : String × String)
    (pinnedModelId : Option String) (now : Instant) (settings : QueueSettings) (db : Db) :
    Except Raised Db := do
  let priority ← basePriority s.jobClass s.priority
  let requestJson ← s.asRequestJson rack
  let db ← db.insertJob jobId
    (queuedJob s profile pinnedModelId requestJson priority now settings)
  pure (db.append jobId (eventTypeFor .queued) now
    s!"queued as {s.jobClass.value} at priority {priority}")

/-- The unexpired job holding a caller's key; an expired one is released. -/
def existingJobForKey (source key : String) (now : Instant) (db : Db) :
    Option (JobId × JobState) × Db :=
  match db.jobs.select (fun _ job => job.source == source && job.idempotencyKey == some key) with
  | [] => (none, db)
  | (jobId, job) :: _ =>
      if ∃ expiresAt ∈ job.idempotencyExpiresAt, expiresAt ≤ now then
        (none, { db with jobs := (db.jobs.updateWhere (fun id _ => decide (id = jobId) && true)
          fun job => { job with idempotencyKey := none, idempotencyExpiresAt := none }).1 })
      else
        (some (jobId, job.state), db)

end Db

/-! ### Claim -/

/-- Which models are resident, and how long the streak is. -/
structure AffinityHint where
  residentModelIds : List String
  streak : ℕ
  maxStreak : ℕ

/-- A job a worker now holds, with everything execution needs. -/
structure ClaimedJob where
  jobId : JobId
  jobClass : JobClass
  basePriority : ℤ
  effectivePriority : ℤ
  attempt : ℕ
  maxAttempts : ℕ
  idempotent : Bool
  cancelRequested : Bool
  createdAt : Instant
  queuedAt : Instant
  scheduledFor : Instant
  leaseExpiresAt : Instant
  source : String
  submission : JobSubmission
  selectedModelId : Option String
  targetGpuIndex : Option ℕ
  byAffinity : Bool

/-- A queued row whose time has come. -/
def eligible (now : Instant) (job : Job) : Bool :=
  decide (job.state = .queued) && (job.scheduledFor.any fun t => decide (t ≤ now))

/-- `ORDER BY effective_priority DESC, created_at ASC`: `a` comes strictly before `b`. -/
def claimedBefore (a b : Job) : Bool :=
  decide (b.effectivePriority < a.effectivePriority) ||
    (decide (a.effectivePriority = b.effectivePriority) && decide (a.createdAt < b.createdAt))

/-- The claim's result, read from the row it leased. -/
def claimed (rack : ModelRack) (jobId : JobId) (byAffinity : Bool) (job : Job) :
    Except Raised ClaimedJob :=
  match job.queuedAt, job.leaseExpiresAt with
  | some queuedAt, some leaseExpiresAt => do
      let submission ← JobSubmission.fromRequestJson rack job.requestJson
        { jobClass := job.jobClass
          priority := job.basePriority
          maxWaitSeconds := job.maxWaitSeconds
          idempotent := job.idempotent
          idempotencyKey := job.idempotencyKey
          source := job.source }
      pure
        { jobId, submission, byAffinity, queuedAt, leaseExpiresAt
          jobClass := job.jobClass
          basePriority := job.basePriority
          effectivePriority := job.effectivePriority
          attempt := job.attempt
          maxAttempts := job.maxAttempts
          idempotent := job.idempotent
          cancelRequested := job.data.cancelRequested
          createdAt := job.createdAt
          scheduledFor := job.scheduledFor.getD queuedAt
          source := job.source
          selectedModelId := job.data.selectedModelId
          targetGpuIndex := job.data.targetGpuIndex }
  | _, _ => .error .assertionError

/-- What the claim writes into its row. -/
def Job.leasedBy (owner : Owner) (expiresAt : Instant) (job : Job) : Job :=
  { job with
    state := .leased
    stateReason := none
    leaseOwner := some owner
    leaseExpiresAt := some expiresAt }

namespace Db

/-- The rows an ordered `LIMIT 1` over a condition may return: those no other row comes before. -/
def heads (p : Job → Bool) (db : Db) : List JobId :=
  let rows := db.jobs.select fun _ job => p job
  (rows.filter fun row => rows.all fun other => !claimedBefore other.2 row.2).map Prod.fst

/-- The claim statement; `pick` decides among the rows the order leaves equal. -/
def claimMatching (owner : Owner) (now : Instant) (leaseSeconds pick : ℕ) (extra : Job → Bool)
    (db : Db) : Option (JobId × Db) :=
  let heads := db.heads fun job => eligible now job && extra job
  match heads[pick % heads.length]? with
  | none => none
  | some chosen =>
      let (jobs, _) := db.jobs.updateWhere
        (fun id job => decide (id = chosen) && decide (job.state = .queued))
        (Job.leasedBy owner (now + seconds leaseSeconds))
      some (chosen, { db with
        jobs
        journal := db.journal ++ [⟨chosen, .queued, .leased⟩] })

/-- The affinity part of a claim: a resident row of the top priority, while the streak lasts. -/
def claimByAffinity (owner : Owner) (now : Instant) (leaseSeconds pick : ℕ)
    (affinity : Option AffinityHint) (db : Db) : Option (JobId × Db) :=
  match affinity with
  | none => none
  | some hint =>
      if hint.residentModelIds ≠ [] ∧ hint.streak < hint.maxStreak then
        match ((db.jobs.select fun _ job => eligible now job).map
            fun row => row.2.effectivePriority).max? with
        | none => none
        | some top => db.claimMatching owner now leaseSeconds pick fun job =>
            decide (job.effectivePriority = top) &&
              (job.data.selectedModelId.any fun id => decide (id ∈ hint.residentModelIds))
      else
        none

/-- Take the highest-priority eligible job under a lease. -/
def claim (rack : ModelRack) (owner : Owner) (now : Instant) (leaseSeconds pick : ℕ)
    (affinity : Option AffinityHint) (db : Db) : Except Raised (Option ClaimedJob × Db) :=
  let affine := db.claimByAffinity owner now leaseSeconds pick affinity
  match affine.or (db.claimMatching owner now leaseSeconds pick fun _ => true) with
  | none => .ok (none, db)
  | some (chosen, leased) =>
      match leased.jobs.lookup chosen with
      | none => .error .unexpected
      | some job => do
          let byAffinity := affine.isSome
          let claimedJob ← claimed rack chosen byAffinity job
          let suffix := if byAffinity then " (affinity)" else ""
          pure (some claimedJob, leased.append chosen (eventTypeFor .leased) now
            s!"leased by {owner.value}{suffix}")

/-! ### Cancellation -/

/-- Request a job's cancellation; the result says whether it was already on its way. -/
def cancelJob (jobId : JobId) (now : Instant) (db : Db) :
    Except Raised ((JobState × Bool) × Db) :=
  match db.jobs.lookup jobId with
  | none => .error (.suite "JOB_NOT_FOUND" s!"No job '{jobId}'." [("job_id", .int jobId)])
  | some job =>
      if job.state ∈ terminalStates then
        .error (.suite "JOB_NOT_CANCELLABLE"
          s!"Job {jobId} is already {job.state.value}; nothing to cancel."
          [("job_id", .int jobId), ("state", .str job.state.value)])
      else
        match cancelTarget job.state with
        | none => .ok ((job.state, true), db)
        | some target => do
            let reason :=
              if target = .cancelling then "cancel_requested" else "GENERATION_CANCELLED"
            let db ← db.transition jobId job.state target now none (some reason) fun d =>
              { d with
                cancelRequested := true
                errorCode :=
                  if target = .cancelled then some "GENERATION_CANCELLED" else d.errorCode }
            pure ((target, false), db.append jobId (eventTypeFor target) now
              s!"cancel requested in {job.state.value}")

/-! ### Leases -/

/-- Extend every lease the owner still holds; the result is the jobs it turned out not to hold. -/
def renewLeases (owner : Owner) (jobIds : List JobId) (now : Instant) (leaseSeconds : ℕ)
    (db : Db) : List JobId × Db :=
  let renewable : JobId → Job → Bool := fun id job =>
    decide (id ∈ jobIds) &&
      (decide (job.leaseOwner = some owner) && decide (job.state ∈ inFlightStates))
  let renewed := (db.jobs.select renewable).map Prod.fst
  (jobIds.filter fun id => decide (id ∉ renewed),
    { db with jobs := (db.jobs.updateWhere renewable fun job =>
        { job with leaseExpiresAt := some (now + seconds leaseSeconds) }).1 })

/-- The spelling of an optional owner in a message. -/
def ownerText (owner : Option Owner) : String := (owner.map Owner.value).getD "None"

/-- Recover one row whose lease expired. -/
def reapOne (now : Instant) (db : Db) (row : JobId × Job) : Except Raised Db :=
  let (jobId, job) := row
  match recoveryTarget job.state job.idempotent with
  | none => .ok db
  | some target => do
      let reason :=
        if target = .cancelled then "cancelled"
        else if target = .queued then "lease_expired"
        else "worker_lost"
      let db ← db.transition jobId job.state target now none (some reason) fun d =>
        if target = .failed then
          { d with
            errorCode := some "WORKER_LOST"
            errorText := some s!"lease held by {ownerText job.leaseOwner} expired" }
        else d
      pure (db.append jobId (eventTypeFor target) now
        s!"lease held by {ownerText job.leaseOwner} expired in {job.state.value}: {reason}")

/-- Recover every job whose lease expired. -/
def reapExpiredLeases (now : Instant) (db : Db) : Except Raised Db :=
  (db.jobs.select fun _ job => job.leaseExpiresAt.any fun t => decide (t < now)).foldlM
    (reapOne now) db

/-! ### Sweeps -/

/-- `now - queued_at` in seconds; unknown for a row that was never queued. -/
def waitingSeconds (sql : SqlArithmetic) (now : Instant) (job : Job) : Option ℚ :=
  job.queuedAt.map (sql.elapsed now)

/-- The points a waiting time earned, with the epsilon. -/
def agedPoints (sql : SqlArithmetic) (pointsPerMinute waited : ℚ) : ℚ :=
  let minutes := sql.round (waited / 60)
  sql.round (sql.round (minutes * pointsPerMinute) + sql.round (1 / 1000000))

/-- The effective priority the ageing sweep computes for a row. -/
def freshPriority (sql : SqlArithmetic) (now : Instant) (pointsPerMinute : ℚ)
    (overflowAllowance : ℤ) (job : Job) : Option ℤ :=
  (waitingSeconds sql now job).map fun waited =>
    let points := agedPoints sql pointsPerMinute waited
    min (job.basePriority + ⌊max points 0⌋) ((bandOf job.jobClass).2 + overflowAllowance)

/-- Bring every waiting job's effective priority up to date. -/
def ageingSweep (sql : SqlArithmetic) (now : Instant) (pointsPerMinute : ℚ)
    (overflowAllowance : ℤ) (db : Db) : Db :=
  let fresh := freshPriority sql now pointsPerMinute overflowAllowance
  let stale : JobId → Job → Bool := fun _ job =>
    decide (job.state ∈ waitingStates) &&
      ((fresh job).any fun p => decide (job.effectivePriority ≠ p))
  let (jobs, _) := db.jobs.updateWhere stale fun job =>
    { job with effectivePriority := (fresh job).getD job.effectivePriority }
  { db with jobs }

/-- Fail one waiting row whose bound has passed. -/
def expireOne (now : Instant) (defaultMaxWaitSeconds : ℕ) (db : Db) (row : JobId × Job) :
    Except Raised Db := do
  let (jobId, job) := row
  let bound := if (job.maxWaitSeconds.getD 0) = 0 then defaultMaxWaitSeconds
    else job.maxWaitSeconds.getD 0
  let db ← db.transition jobId job.state .failed now none (some "MAX_WAIT_EXCEEDED") fun d =>
    { d with
      errorCode := some "MAX_WAIT_EXCEEDED"
      errorText := some s!"waited longer than max_wait_seconds ({bound})" }
  pure (db.append jobId (eventTypeFor .failed) now
    s!"max_wait_seconds ({bound}) exceeded in {job.state.value}")

/-- Fail every waiting job whose absolute bound has passed. -/
def expireMaxWait (sql : SqlArithmetic) (now : Instant) (defaultMaxWaitSeconds : ℕ) (db : Db) :
    Except Raised Db :=
  (db.jobs.select fun _ job =>
    decide (job.state ∈ waitingStates) && ((waitingSeconds sql now job).any fun waited =>
      decide (((job.maxWaitSeconds.getD defaultMaxWaitSeconds : ℕ) : ℚ) < waited))).foldlM
    (expireOne now defaultMaxWaitSeconds) db

/-- Re-queue a waiting job that could be admitted now. -/
def resourcesFreed (jobId : JobId) (now : Instant) (db : Db) : Except Raised Db :=
  db.move jobId .waitingResources .queued now none (some "resources_freed")
    (some "resources may now be available: re-queued for admission") id

/-- Force a cancelling job to its end. -/
def forceCancelled (jobId : JobId) (now : Instant) (limit : ℕ) (db : Db) : Except Raised Db :=
  db.move jobId .cancelling .cancelled now none (some "cancelling_watchdog")
    (some (s!"cancelling for more than {limit} s: terminal transition forced by " ++
      "the watchdog"))
    fun d => { d with errorCode := some "GENERATION_CANCELLED" }

/-! ### Start-up recovery -/

/-- Whether a lease belongs to the process that recovers. -/
def ownLease (process : ℕ) (job : Job) : Bool :=
  job.leaseOwner.any fun w => decide (w.process = process)

/-- Recover one row found in flight. -/
def recoverOne (process : ℕ) (now : Instant) (db : Db) (row : JobId × Job) :
    Except Raised Db :=
  let (jobId, job) := row
  if ownLease process job then
    .ok db
  else
    match recoveryTarget job.state job.idempotent with
    | none => .ok db
    | some target => do
        let reason :=
          if target = .cancelled then "recovered_cancelling"
          else if target = .queued then "recovered"
          else "worker_lost"
        let db ← db.transition jobId job.state target now none (some reason) fun d =>
          if target = .failed then
            { d with
              errorCode := some "WORKER_LOST"
              errorText := some (s!"recovered at startup from {job.state.value}; " ++
                s!"lease held by {ownerText job.leaseOwner}") }
          else if target = .cancelled then
            { d with errorCode := some "GENERATION_CANCELLED" }
          else d
        pure (db.append jobId (eventTypeFor target) now
          (s!"startup recovery: {job.state.value} -> {target.value} " ++
            s!"(lease held by {ownerText job.leaseOwner})"))

/-- The recovery transaction of a starting process. -/
def recover (process : ℕ) (now : Instant) (db : Db) : Except Raised Db :=
  (db.jobs.select fun _ job => decide (job.state ∈ inFlightStates)).foldlM
    (recoverOne process now) db

end Db

end LoadCoach

import LoadCoach.RetryPolicy
import LoadCoach.Store.System

/-! # Workers, registry and lease keeper

`services/worker.py` as a transition system.  Each worker runs its own program: claim, register,
`_run` and its attempt loop, and the removal of its entry at the end.  A `Point` is a place in the
program together with the locals that are live there; a step of the system executes one statement
at a worker's point, and every read of shared data and every write transaction is a step of its
own, so that anything may happen in between.

What the environment decides is in the label of a step (`Act`): the router's verdict, the
breakers' answer, the provider's behaviour, an unexpected exception.  Everything else follows from
the point.  `World.calls` is a history variable: the call a worker made and has not settled yet.

The world refines the job store: `World.simulation` maps every step to one transaction of the
store or to none, so what is proved of all runs of the store holds of all runs of the workers. -/

namespace LoadCoach

open Foundations

/-! ### The program of a worker -/

/-- The locals of the attempt loop. -/
structure AttemptLoop where
  job : ClaimedJob
  primary : RankedCandidate
  fallbacks : List RankedCandidate
  perCandidate : ℕ
  attemptNumber : ℕ
  state : JobState := .admitted
  records : List AttemptRecord := []
  index : Fin (fallbacks.length + 1) := 0
  first : Bool := true
  attemptsHere : ℕ := 0
  probeSkipped : List String := []

namespace AttemptLoop

/-- A candidate of the ranking. -/
def candidateAt (l : AttemptLoop) (index : Fin (l.fallbacks.length + 1)) : RankedCandidate :=
  (l.primary :: l.fallbacks).get index

/-- The candidate the loop is at. -/
def candidate (l : AttemptLoop) : RankedCandidate := l.candidateAt l.index

/-- Where a fallback goes. -/
def nextIndex (l : AttemptLoop) (largerContextOnly : Bool) :
    Option (Fin (l.fallbacks.length + 1)) :=
  nextCandidateIndex (fun i => (l.candidateAt i).servedContext) l.index largerContextOnly

end AttemptLoop

/-- What the router tells a worker. -/
inductive RouteVerdict where
  | deferred (reason summary : String) (firstModelId : Option String)
  | ineligible (code message : String)
  | routed (primary : RankedCandidate) (fallbacks : List RankedCandidate) (perCandidate : ℕ)

/-- A place in a worker's program. -/
inductive Point where
  | idle
  /-- `process`, before the entry is registered. -/
  | claimed (job : ClaimedJob)
  /-- `_run`, at its first look for a cancel request. -/
  | checking (job : ClaimedJob)
  | routing (job : ClaimedJob)
  | deferring (job : ClaimedJob) (reason summary : String) (firstModelId : Option String)
  | failingAdmission (job : ClaimedJob) (code message : String)
  | admitting (l : AttemptLoop)
  | checkingAdmitted (l : AttemptLoop)
  /-- The head of the loop over candidates, at the breaker. -/
  | gate (l : AttemptLoop)
  | requeueing (l : AttemptLoop)
  /-- `_readmit`: the move to `retrying`, the look at the entry after the backoff, the move to
  `admitted`. -/
  | startingRetry (l : AttemptLoop) (reason : String)
  | resuming (l : AttemptLoop) (reason : String)
  | readmitting (l : AttemptLoop) (reason : String)
  /-- The head of the loop over attempts. -/
  | counting (l : AttemptLoop)
  | checkingToken (l : AttemptLoop)
  | checkingRow (l : AttemptLoop)
  | starting (l : AttemptLoop)
  /-- Inside the provider call. -/
  | calling (l : AttemptLoop)
  | settling (l : AttemptLoop) (o : AttemptOutcome)
  | recording (l : AttemptLoop) (o : AttemptOutcome)
  | deciding (l : AttemptLoop) (o : AttemptOutcome)
  | completing (l : AttemptLoop) (o : AttemptOutcome)
  | failing (l : AttemptLoop) (code : String)
  | cancelling (job : ClaimedJob) (records : List AttemptRecord)
  /-- `_fail_after_crash`. -/
  | crashed (job : ClaimedJob) (code text : String)
  /-- `process`, at the removal of the entry. -/
  | leaving (job : ClaimedJob)

namespace Point

/-- The job a worker is on. -/
def job? : Point → Option ClaimedJob
  | idle => none
  | claimed job | checking job | routing job | deferring job .. | failingAdmission job ..
  | cancelling job _ | crashed job .. | leaving job => some job
  | admitting l | checkingAdmitted l | gate l | requeueing l | startingRetry l _ | resuming l _
  | readmitting l _ | counting l | checkingToken l | checkingRow l | starting l | calling l
  | settling l _ | recording l _ | deciding l _ | completing l _ | failing l _ => some l.job

/-- The provider time of the attempts of a loop. -/
def providerMs (l : AttemptLoop) : ℤ := (l.records.map fun r => r.providerMs.getD 0).sum

/-- The result columns of a completed job. -/
def resultOf (l : AttemptLoop) (o : AttemptOutcome) (totalMs : ℤ) : ResultColumns :=
  { o.result.getD {} with
    responseText := some o.text
    providerMs := some (providerMs l)
    loadcoachOverheadMs := some (max (totalMs - providerMs l) 0)
    totalMs := some totalMs
    validationPassed := o.validation }

/-- The transaction a point runs; `totalMs` is the time since the job was claimed. -/
def tx (totalMs : ℤ) : Point → Option (ClaimedJob × WorkerTx)
  | deferring job reason summary firstModelId =>
      some (job, .defer reason summary firstModelId)
  | failingAdmission job code message => some (job, .failAdmission code message)
  | admitting l => some (l.job, .admitOn l.primary.selection)
  | requeueing l => some (l.job, .requeueForProbe l.state l.probeSkipped)
  | startingRetry l reason => some (l.job, .startRetrying l.state reason)
  | readmitting l reason => some (l.job, .readmitJob l.candidate.selection reason)
  | starting l => some (l.job, .startExecuting l.state l.attemptNumber l.job.queuedAt
      (decide (l.attemptNumber = l.job.attempt + 1 ∧ l.job.attempt = 0)))
  | recording l o =>
      some (l.job, if o.failure.isSome then .recordFailedAttempt o.record
        else .validateAttempt o.record)
  | completing l o =>
      some (l.job, .complete (resultOf l o totalMs) l.candidate.selection)
  | failing l code =>
      some (l.job, .fail l.state code l.records.length l.job.maxAttempts totalMs (providerMs l))
  | cancelling job records => some (job, .cancelFrom records)
  | crashed job code text => some (job, .failAfterCrash code text)
  | _ => none

/-- The point after the transaction committed. -/
def committed : Point → Point
  | deferring job .. | failingAdmission job .. | cancelling job _ | crashed job .. => leaving job
  | requeueing l | completing l _ | failing l _ => leaving l.job
  | admitting l => checkingAdmitted l
  | startingRetry l reason => resuming { l with state := .retrying } reason
  | readmitting l _ => counting { l with state := .admitted }
  | starting l => calling { l with state := .executing }
  | recording l o =>
      if o.failure.isSome then deciding { l with state := .retrying } o
      else if o.passed then
        -- `_complete` asserts that there is a result
        if o.result.isSome then completing { l with state := .validating } o
        else crashed l.job "INTERNAL_ERROR" ""
      else deciding { l with state := .validating } o
  | p => p

/-- The point after the transaction raised: a refusal ends the worker's right to the job, any other
error fails the job, and an error while failing it is swallowed. -/
def raised (e : Raised) : Point → Point
  | crashed job .. => leaving job
  | p =>
      match p.job? with
      | none => p
      | some job =>
          if e.isRefusal then leaving job
          else crashed job e.code e.text

/-- `_readmit` for the next attempt: the move to `retrying` unless the job is there already. -/
def readmitJob (l : AttemptLoop) (reason : String) : Point :=
  if l.state = .retrying then resuming l reason else startingRetry l reason

/-- The decision of the failure table, carried out. -/
def decided (l : AttemptLoop) (o : AttemptOutcome) : Point :=
  let kind := (o.failure.map classifyFailure).getD .validation
  let decision := nextAction kind l.attemptsHere l.perCandidate
  match decision.action with
  | .stop => cancelling l.job l.records
  | .retrySame =>
      if l.job.maxAttempts ≤ l.attemptNumber then failing l "ATTEMPTS_EXHAUSTED"
      else readmitJob l decision.reason
  | .fallback =>
      match l.nextIndex decision.largerContextOnly with
      | none => failing l "ALL_CANDIDATES_FAILED"
      | some index => gate { l with index }

/-- A candidate whose breaker is being probed is skipped; with none left the job is requeued. -/
def probeBusy (l : AttemptLoop) : Point :=
  let l := { l with probeSkipped := l.probeSkipped ++ [l.candidate.subjectCanonicalId] }
  match l.nextIndex false with
  | none => requeueing l
  | some index => gate { l with index }

/-- A candidate the breaker lets through; a fallback is re-admitted first. -/
def enter (l : AttemptLoop) : Point :=
  let l := { l with attemptsHere := 0 }
  if l.first then counting { l with first := false } else readmitJob l "fallback"

end Point

/-! ### The shared state -/

/-- One job a worker holds, as the keeper and the API see it. -/
structure InFlightEntry where
  cancelled : Bool := false
  lost : Bool := false
deriving DecidableEq

/-- The entry's provider call is to stop: its token is cancelled, or its lease lost. -/
def InFlightEntry.stopped (e : InFlightEntry) : Bool := e.cancelled || e.lost

/-- Where the lease keeper of a process stands. -/
inductive Keeper where
  | idle
  | renewing (w : Owner) (jobIds : List JobId)
  | marking (w : Owner) (lost : List JobId)

/-- A provider call that is not settled yet: its number, and its record if it returned one. -/
structure ProviderCall where
  number : ℕ
  record : Option AttemptRecord

/-- The store, the workers, the in-flight registry and the lease keepers. -/
structure World where
  store : Store := {}
  point : Owner → Point := fun _ => .idle
  inFlight : Table (Owner × JobId) InFlightEntry := ∅
  keeper : ℕ → Keeper := fun _ => .idle
  calls : Owner → Option ProviderCall := fun _ => none

/-- What happens next. -/
inductive Act where
  /-- A transaction of anyone but a worker or a keeper. -/
  | store (op : Op)
  /-- A cancel request reaches the registry. -/
  | requestCancel (jobId : JobId)
  | claim (w : Owner) (now : Instant) (leaseSeconds pick : ℕ) (affinity : Option AffinityHint)
  | register (w : Owner)
  | route (w : Owner) (verdict : RouteVerdict)
  | probe (w : Owner) (busy : Bool)
  /-- A statement that only reads. -/
  | advance (w : Owner)
  | commit (w : Owner) (now : Instant) (totalMs : ℤ)
  | answer (w : Owner) (collected : Collected)
  /-- An exception nobody expected. -/
  | raise (w : Owner) (code text : String)
  | leave (w : Owner)
  | keeperRead (w : Owner)
  | keeperRenew (process : ℕ) (now : Instant) (leaseSeconds : ℕ)
  | keeperMark (process : ℕ)

/-- A transaction that is no statement of a worker or a keeper. -/
def Op.External : Op → Prop
  | claim .. | worker .. | renewLeases .. => False
  | _ => True

namespace World

/-- The entry of a hold. -/
def entry (s : World) (w : Owner) (j : JobId) : Option InFlightEntry := s.inFlight.lookup (w, j)

/-- Whether the row asks for cancellation. -/
def cancelRequested (s : World) (j : JobId) : Bool :=
  (s.store.db.jobs.lookup j).any fun job => job.data.cancelRequested

/-- Whether the entry of a hold says stop. -/
def stopped (s : World) (w : Owner) (j : JobId) : Bool :=
  (s.entry w j).any InFlightEntry.stopped

/-- The point after a statement that only reads. -/
def advanced (s : World) (w : Owner) : Point :=
  match s.point w with
  | .checking job =>
      if job.cancelRequested || s.cancelRequested job.jobId then .cancelling job []
      else .routing job
  | .checkingAdmitted l =>
      if s.cancelRequested l.job.jobId then .cancelling l.job [] else .gate l
  | .resuming l reason =>
      if s.stopped w l.job.jobId then .cancelling l.job [] else .readmitting l reason
  | .counting l =>
      if l.job.maxAttempts ≤ l.attemptNumber then .failing l "ATTEMPTS_EXHAUSTED"
      else .checkingToken
        { l with attemptNumber := l.attemptNumber + 1, attemptsHere := l.attemptsHere + 1 }
  | .checkingToken l =>
      if s.stopped w l.job.jobId then .cancelling l.job l.records else .checkingRow l
  | .checkingRow l =>
      if s.cancelRequested l.job.jobId then .cancelling l.job l.records else .starting l
  | .settling l o =>
      if o.cancelled || (s.entry w l.job.jobId).any InFlightEntry.cancelled then
        .cancelling l.job l.records
      else .recording l o
  | .deciding l o => .decided l o
  | p => p

/-- The first point of a routed job. -/
def routed (job : ClaimedJob) : RouteVerdict → Point
  | .deferred reason summary firstModelId => .deferring job reason summary firstModelId
  | .ineligible code message => .failingAdmission job code message
  | .routed primary fallbacks perCandidate =>
      .admitting { job, primary, fallbacks, perCandidate, attemptNumber := job.attempt }

/-- The worker goes to a point. -/
def goto (s : World) (w : Owner) (p : Point) : World :=
  { s with point := Function.update s.point w p }

/-- The worker's unsettled call. -/
def setCall (s : World) (w : Owner) (call : Option ProviderCall) : World :=
  { s with calls := Function.update s.calls w call }

/-- Every entry of a job, or of one hold, changed in place. -/
def mark (s : World) (p : Owner × JobId → Bool) (f : InFlightEntry → InFlightEntry) : World :=
  { s with inFlight := (s.inFlight.updateWhere (fun key _ => p key) f).1 }

/-- The jobs a worker is registered for. -/
def jobIdsFor (s : World) (w : Owner) : List JobId :=
  (s.inFlight.select fun key _ => decide (key.1 = w)).map fun e => e.1.2

/-- The transaction an act runs on the store. -/
def op (s : World) : Act → Option Op
  | .store op => some op
  | .claim w now leaseSeconds pick affinity =>
      match s.point w with
      | .idle => some (.claim w now leaseSeconds pick affinity)
      | _ => none
  | .commit w now totalMs => ((s.point w).tx totalMs).map fun e => .worker w e.1.jobId now e.2
  | .keeperRenew process now leaseSeconds =>
      match s.keeper process with
      | .renewing w jobIds => some (.renewLeases w jobIds now leaseSeconds)
      | _ => none
  | _ => none

/-- What an act does to everything but the store. -/
def control (rack : ModelRack) (s : World) : Act → World
  | .store _ => s
  | .requestCancel jobId =>
      s.mark (fun key => decide (key.2 = jobId)) fun e => { e with cancelled := true }
  | .claim w now leaseSeconds pick affinity =>
      match s.point w with
      | .idle =>
          match s.store.db.claim rack w now leaseSeconds pick affinity with
          | .ok (some job, _) => s.goto w (.claimed job)
          | _ => s
      | _ => s
  | .register w =>
      match s.point w with
      | .claimed job =>
          { s.goto w (.checking job) with inFlight := s.inFlight.insert (w, job.jobId) {} }
      | _ => s
  | .route w verdict =>
      match s.point w with
      | .routing job => s.goto w (routed job verdict)
      | _ => s
  | .probe w busy =>
      match s.point w with
      | .gate l => s.goto w (if busy then .probeBusy l else .enter l)
      | _ => s
  | .advance w => s.goto w (s.advanced w)
  | .commit w now totalMs =>
      match (s.point w).tx totalMs with
      | none => s
      | some (job, tx) =>
          let s := s.setCall w none
          match tx.run w job.jobId now s.store.db with
          | .ok _ => s.goto w (s.point w).committed
          | .error e =>
              -- a refusal cancels the worker's own token before its entry goes
              (s.mark (fun key => decide (key = (w, job.jobId)) && e.isRefusal) fun e =>
                { e with cancelled := true }).goto w ((s.point w).raised e)
  | .answer w collected =>
      match s.point w with
      | .calling l =>
          let o := runAttempt l.attemptNumber l.candidate collected
          (s.goto w (.settling { l with records := l.records ++ [o.record] } o)).setCall w
            (some ⟨l.attemptNumber, some o.record⟩)
      | _ => s
  | .raise w code text =>
      match s.point w with
      | .idle | .claimed _ | .crashed .. | .leaving _ => s
      | .calling l =>
          (s.goto w (.crashed l.job code text)).setCall w (some ⟨l.attemptNumber, none⟩)
      | p =>
          match p.job? with
          | none => s
          | some job => s.goto w (.crashed job code text)
  | .leave w =>
      match s.point w with
      | .leaving job =>
          { s.goto w .idle with inFlight := s.inFlight.erase (w, job.jobId) }
      | _ => s
  | .keeperRead w =>
      match s.keeper w.process with
      | .idle =>
          { s with keeper := Function.update s.keeper w.process (.renewing w (s.jobIdsFor w)) }
      | _ => s
  | .keeperRenew process now leaseSeconds =>
      match s.keeper process with
      | .renewing w jobIds =>
          let lost := (s.store.db.renewLeases w jobIds now leaseSeconds).1
          { s with keeper := Function.update s.keeper process (.marking w lost) }
      | _ => s
  | .keeperMark process =>
      match s.keeper process with
      | .marking w (jobId :: rest) =>
          { s.mark (fun key => decide (key = (w, jobId))) fun _ =>
              { cancelled := true, lost := true } with
            keeper := Function.update s.keeper process (.marking w rest) }
      | .marking _ [] => { s with keeper := Function.update s.keeper process .idle }
      | _ => s

/-- The world after an act. -/
def after (rack : ModelRack) (s : World) (a : Act) : World :=
  { s.control rack a with
    store := match s.op a with
      | none => s.store
      | some op => s.store.after rack op }

/-- What a caller must have for an act.  A cancel request reaches the registry after `cancel_job`
flagged the row, from the keeper that read the flag, or from the watchdog that found the job
`cancelling`. -/
def Enabled (rack : ModelRack) (s : World) : Act → Prop
  | .store op => op.External ∧ op.Enabled rack s.store
  | .requestCancel j => s.cancelRequested j = true ∨
      ∃ job, s.store.db.jobs.lookup j = some job ∧ job.state = .cancelling
  | _ => True

/-- **The workers and what they share.** -/
def system (rack : ModelRack) : System World Act :=
  .guarded (Enabled rack) (after rack) {}

variable {rack : ModelRack} {s : World} {a : Act} {w : Owner}

theorem after_store (rack : ModelRack) (s : World) (a : Act) :
    (s.after rack a).store = match s.op a with
      | none => s.store
      | some op => s.store.after rack op := rfl

theorem op_enabled {op : Op} (henabled : s.Enabled rack a) (hop : s.op a = some op) :
    op.Enabled rack s.store := by
  cases a with
  | store op' =>
      cases hop
      exact henabled.2
  | claim w now leaseSeconds pick affinity =>
      simp only [World.op] at hop
      split at hop <;> cases hop
      trivial
  | commit w now totalMs =>
      obtain ⟨e, -, rfl⟩ := Option.map_eq_some_iff.1 hop
      trivial
  | keeperRenew process now leaseSeconds =>
      simp only [World.op] at hop
      split at hop <;> cases hop
      trivial
  | _ => cases hop

/-- **Every step of the workers is one transaction of the store or none.** -/
def simulation (rack : ModelRack) : Simulation (system rack) (Store.system rack) where
  abs := World.store
  label := World.op
  init := by
    rintro _ rfl
    rfl
  step := by
    rintro s a _ op ⟨henabled, rfl⟩ hop
    refine ⟨op_enabled henabled hop, ?_⟩
    rw [after_store, hop]
  stutter := by
    rintro s a _ ⟨-, rfl⟩ hop
    rw [after_store, hop]

end World

end LoadCoach

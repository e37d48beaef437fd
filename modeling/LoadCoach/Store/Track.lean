import LoadCoach.Store.Synchronous
import LoadCoach.Store.Worker

/-! # The life of one job

Every writer of the job store acts on each job by itself, so the database is a family of small
state machines, one for each job.  The state of one, its `Track`, is what the database says of
the job: its row, its attempt rows and the writes of its state.  A machine step is one statement
of one writer, and says what that writer may do (`Track.Step`): a move is an edge of the table
and within the writer's rights (`MayMove`), an attempt carries the next number (`MayRecord`), a
lease is taken from a queued row.

This file states the machine and proves of each statement of the store that it is a step of it;
`Store/Refinement.lean` does the same for the transactions. -/

namespace LoadCoach

open Foundations Relation

/-! ### The machine -/

/-- Who writes. -/
inductive Writer where
  /-- A worker, on the job it holds. -/
  | worker (w : Owner)
  /-- A worker's claim. -/
  | claimer (w : Owner)
  /-- The lease keeper, for a worker. -/
  | keeper (w : Owner)
  | canceller
  | reaper
  /-- The recovery pass of a starting process. -/
  | recovery (process : ℕ)
  | expiry
  | reevaluation
  | watchdog
  /-- A synchronous execution, on the row it reserved. -/
  | synchronous
  | submitter
  /-- The ageing sweep and the release of an expired key. -/
  | housekeeping
deriving DecidableEq

/-- What the database says of one job. -/
structure Track where
  row : Option Job := none
  attempts : List JobAttempt := []
  writes : List (JobState × JobState) := []

/-- The track of a job. -/
def Db.track (db : Db) (jobId : JobId) : Track where
  row := db.jobs.lookup jobId
  attempts := db.jobAttempts.filter fun a => decide (a.jobId = jobId)
  writes := (db.journal.filter fun c => decide (c.jobId = jobId)).map fun c => (c.before, c.after)

namespace Track

/-- Which moves a writer may make. -/
def MayMove : Writer → Job → JobState → Prop
  | .worker w, job, _ => job.leaseOwner = some w
  | .canceller, job, target => cancelTarget job.state = some target
  | .reaper, job, target =>
      job.leaseExpiresAt.isSome ∧ recoveryTarget job.state job.idempotent = some target
  | .recovery process, job, target =>
      Db.ownLease process job = false ∧ recoveryTarget job.state job.idempotent = some target
  | .expiry, job, target => job.state ∈ waitingStates ∧ target = .failed
  | .reevaluation, job, target => job.state = .waitingResources ∧ target = .queued
  | .watchdog, job, target => job.state = .cancelling ∧ target = .cancelled
  | _, _, _ => False

/-- Who may write an attempt row. -/
def MayRecord : Writer → Job → Prop
  | .worker w, job => job.leaseOwner = some w
  | .synchronous, job => job.queuedAt = none
  | _, _ => False

/-- The rows a writer may insert. -/
structure Fresh (rack : ModelRack) (who : Writer) (job : Job) : Prop where
  leaseOwner : job.leaseOwner = none
  leaseExpiresAt : job.leaseExpiresAt = none
  attempt : job.attempt = 0
  unflagged : job.data.cancelRequested = false
  decodes : ∀ row, ∃ s, JobSubmission.fromRequestJson rack job.requestJson row = .ok s
  writer : who = .submitter ∧ job.state = .queued ∧ job.queuedAt.isSome ∨
    who = .synchronous ∧ job.queuedAt = none ∧
      (job.state = .executing ∨ job.state ∈ terminalStates)

/-- What a synchronous execution may assign to its row: a terminal state and data. -/
structure Assigned (job job' : Job) : Prop where
  queuedAt : job.queuedAt = none ∧ job'.queuedAt = none
  state : job'.state = .completed ∨ job'.state = .failed
  leaseOwner : job'.leaseOwner = job.leaseOwner
  leaseExpiresAt : job'.leaseExpiresAt = job.leaseExpiresAt
  attempt : job'.attempt = job.attempt
  idempotent : job'.idempotent = job.idempotent
  requestJson : job'.requestJson = job.requestJson
  cancelRequested : job'.data.cancelRequested = job.data.cancelRequested

/-- One statement of a writer. -/
inductive Step (rack : ModelRack) (who : Writer) : Track → Track → Prop
  | move {t : Track} {job : Job} {target : JobState} (now : Instant) (reason : Option String)
      (values : JobData → JobData) (hrow : t.row = some job)
      (hlegal : isLegal job.state target = true) (hmay : MayMove who job target)
      (hflag : (values job.data).cancelRequested = true →
        job.data.cancelRequested = true ∨ target = .cancelling ∨ target = .cancelled) :
      Step rack who t
        { t with
          row := some (job.moved target now reason values)
          writes := t.writes ++ [(job.state, target)] }
  | record {t : Track} {job : Job} {row : JobAttempt} (hrow : t.row = some job)
      (hmay : MayRecord who job) (hnumber : row.attempt = job.attempt + 1)
      (hrecord : row.record.attempt = row.attempt) :
      Step rack who t
        { t with
          row := some job.counted
          attempts := t.attempts ++ [row] }
  | lease {t : Track} {job : Job} {w : Owner} (expiresAt : Instant) (hwho : who = .claimer w)
      (hrow : t.row = some job) (hstate : job.state = .queued) (hqueued : job.queuedAt.isSome) :
      Step rack who t
        { t with
          row := some (job.leasedBy w expiresAt)
          writes := t.writes ++ [(.queued, .leased)] }
  | renew {t : Track} {job : Job} {w : Owner} (expiresAt : Instant) (hwho : who = .keeper w)
      (hrow : t.row = some job) (howner : job.leaseOwner = some w)
      (hstate : job.state ∈ inFlightStates) :
      Step rack who t { t with row := some { job with leaseExpiresAt := some expiresAt } }
  | touch {t : Track} {job : Job} (effectivePriority : ℤ) (idempotencyKey : Option String)
      (idempotencyExpiresAt : Option Instant) (hwho : who = .housekeeping)
      (hrow : t.row = some job) :
      Step rack who t
        { t with row := some { job with effectivePriority, idempotencyKey, idempotencyExpiresAt } }
  | assign {t : Track} {job job' : Job} (hwho : who = .synchronous) (hrow : t.row = some job)
      (hassigned : Assigned job job') :
      Step rack who t { t with row := some job', writes := t.writes ++ [(job.state, job'.state)] }
  | insert {t : Track} {job : Job} (hrow : t.row = none) (hfresh : Fresh rack who job) :
      Step rack who t { t with row := some job }

/-- The statements of one transaction, on one job. -/
def Path (rack : ModelRack) (who : Writer) : Track → Track → Prop := ReflTransGen (Step rack who)

end Track

/-! ### The statements of the store are steps -/

namespace Db

variable {db db' : Db} {jobId : JobId}

@[simp] theorem track_row (db : Db) (k : JobId) : (db.track k).row = db.jobs.lookup k := rfl

@[simp] theorem track_append (db : Db) (jobId : JobId) (eventType : String) (now : Instant)
    (message : String) (k : JobId) :
    (db.append jobId eventType now message).track k = db.track k := rfl

/-- One track became `t'` and every other one is unchanged. -/
def OnlyTrack (db : Db) (jobId : JobId) (t' : Track) (db' : Db) : Prop :=
  db'.track jobId = t' ∧ ∀ k, k ≠ jobId → db'.track k = db.track k

/-- The database after a committed write of one row, its state included. -/
theorem onlyTrack_write {p : Job → Bool} {f : Job → Job} {before after : JobState} {job : Job}
    (hrow : db.jobs.lookup jobId = some job) (hp : p job = true) :
    db.OnlyTrack jobId
      { db.track jobId with
        row := some (f job)
        writes := (db.track jobId).writes ++ [(before, after)] }
      { db with
        jobs := (db.jobs.updateWhere (fun id job => decide (id = jobId) && p job) f).1
        journal := db.journal ++ [⟨jobId, before, after⟩] } := by
  constructor
  · simp [track, hrow, hp]
  · intro k hk
    simp [track, hk, Ne.symm hk]

/-- **The move commits exactly when the row is there, in the expected state, within the fence,
and the move is legal.** -/
theorem transition_eq_ok {current target : JobState} {now : Instant} {owner : Option Owner}
    {reason : Option String} {values : JobData → JobData} :
    db.transition jobId current target now owner reason values = .ok db' ↔
      ∃ job, db.jobs.lookup jobId = some job ∧ job.state = current ∧ fenced owner job = true ∧
        isLegal current target = true ∧
        db' = { db with
          jobs := (db.jobs.updateWhere (fun id job => decide (id = jobId) &&
            (decide (job.state = current) && fenced owner job))
            (Job.moved target now reason values)).1
          journal := db.journal ++ [⟨jobId, current, target⟩] } := by
  have hone := Table.updateWhere_eq_one jobId
    (fun job : Job => decide (job.state = current) && fenced owner job)
    (Job.moved target now reason values) db.jobs
  simp only [Bool.and_eq_true, decide_eq_true_eq] at hone
  unfold transition
  by_cases hlegal : isLegal current target = true
  · rw [if_pos hlegal]
    dsimp only
    split_ifs with hcount
    · obtain ⟨job, hrow, hstate, hfence⟩ := hone.1 hcount
      constructor
      · intro h
        exact ⟨job, hrow, hstate, hfence, hlegal, (Except.ok.inj h).symm⟩
      · rintro ⟨-, -, -, -, -, rfl⟩
        rfl
    · constructor
      · intro h
        cases h
      · rintro ⟨job, hrow, hstate, hfence, -⟩
        exact absurd (hone.2 ⟨job, hrow, hstate, hfence⟩) hcount
  · rw [if_neg hlegal]
    constructor
    · intro h
      cases h
    · rintro ⟨-, -, -, -, h, -⟩
      exact absurd h hlegal

theorem track_transition {current target : JobState} {now : Instant} {owner : Option Owner}
    {reason : Option String} {values : JobData → JobData}
    (h : db.transition jobId current target now owner reason values = .ok db') :
    ∃ job, db.jobs.lookup jobId = some job ∧ job.state = current ∧ fenced owner job = true ∧
      isLegal current target = true ∧
      db.OnlyTrack jobId
        { db.track jobId with
          row := some (job.moved target now reason values)
          writes := (db.track jobId).writes ++ [(current, target)] } db' := by
  obtain ⟨job, hrow, hstate, hfence, hlegal, rfl⟩ := transition_eq_ok.1 h
  refine ⟨job, hrow, hstate, hfence, hlegal, ?_⟩
  exact onlyTrack_write (p := fun job => decide (job.state = current) && fenced owner job) hrow
    (by simp [hstate, hfence])

/-- **The attempt is written exactly when the row is there, within the fence, its counter yields
the record's number and no row has that number yet.** -/
theorem writeAttempt_eq_ok {record : AttemptRecord} {owner : Option Owner} :
    db.writeAttempt jobId record owner = .ok db' ↔
      ∃ job, db.jobs.lookup jobId = some job ∧ fenced owner job = true ∧
        job.attempt + 1 = record.attempt ∧
        (¬ ∃ row ∈ db.jobAttempts, row.jobId = jobId ∧ row.attempt = job.attempt + 1) ∧
        db' = { db with
          jobs := (db.jobs.updateWhere (fun id job => decide (id = jobId) && fenced owner job)
            Job.counted).1
          jobAttempts := db.jobAttempts ++ [⟨jobId, job.attempt + 1, record⟩] } := by
  have hone := Table.updateWhere_eq_one jobId (fenced owner) Job.counted db.jobs
  unfold writeAttempt
  dsimp only
  split_ifs with hcount
  · obtain ⟨job, hrow, hfence⟩ := hone.1 hcount
    rw [Table.lookup_updateWhere_self hrow hfence]
    change (if job.counted.attempt ≠ record.attempt then _ else _) = _ ↔ _
    by_cases hnumber : job.counted.attempt ≠ record.attempt
    · rw [if_pos hnumber]
      constructor
      · intro h
        cases h
      · rintro ⟨job', hrow', -, hnumber', -⟩
        cases hrow.symm.trans hrow'
        exact absurd hnumber' hnumber
    · rw [if_neg hnumber]
      by_cases hunique : ∃ row ∈ db.jobAttempts,
          row.jobId = jobId ∧ row.attempt = job.counted.attempt
      · rw [if_pos hunique]
        constructor
        · intro h
          cases h
        · rintro ⟨job', hrow', -, -, hunique', -⟩
          cases hrow.symm.trans hrow'
          exact absurd hunique hunique'
      · rw [if_neg hunique]
        constructor
        · intro h
          exact ⟨job, hrow, hfence, not_not.1 hnumber, hunique, (Except.ok.inj h).symm⟩
        · rintro ⟨job', hrow', -, -, -, rfl⟩
          cases hrow.symm.trans hrow'
          rfl
  · simp only [false_iff, not_exists]
    rintro job ⟨hrow, hfence, -⟩
    exact hcount (hone.2 ⟨job, hrow, hfence⟩)

theorem track_writeAttempt {record : AttemptRecord} {owner : Option Owner}
    (h : db.writeAttempt jobId record owner = .ok db') :
    ∃ job, db.jobs.lookup jobId = some job ∧ fenced owner job = true ∧
      record.attempt = job.attempt + 1 ∧
      db.OnlyTrack jobId
        { db.track jobId with
          row := some job.counted
          attempts := (db.track jobId).attempts ++ [⟨jobId, job.attempt + 1, record⟩] } db' := by
  obtain ⟨job, hrow, hfence, hnumber, -, rfl⟩ := writeAttempt_eq_ok.1 h
  refine ⟨job, hrow, hfence, hnumber.symm, ?_, fun k hk => ?_⟩
  · simp [track, hrow, hfence]
  · simp [track, hk, Ne.symm hk]

theorem track_assign {f : Job → Job} (h : db.assign jobId f = .ok db') :
    ∃ job, db.jobs.lookup jobId = some job ∧
      db.OnlyTrack jobId
        { db.track jobId with
          row := some (f job)
          writes := (db.track jobId).writes ++ [(job.state, (f job).state)] } db' := by
  unfold assign at h
  split at h
  · cases h
  · rename_i job hrow
    cases h
    exact ⟨job, hrow, onlyTrack_write (p := fun _ => true) hrow rfl⟩

theorem track_insertJob {job : Job} (h : db.insertJob jobId job = .ok db') :
    db.jobs.lookup jobId = none ∧
      db.OnlyTrack jobId { db.track jobId with row := some job } db' := by
  unfold insertJob at h
  split_ifs at h with hmem hunique
  cases h
  refine ⟨AList.lookup_eq_none.2 hmem, ?_, fun k hk => ?_⟩
  · simp [track]
  · simp [track, AList.lookup_insert_ne hk]

theorem track_update {p : JobId → Job → Bool} {f : Job → Job} (k : JobId) :
    ({ db with jobs := (db.jobs.updateWhere p f).1 } : Db).track k =
      { db.track k with
        row := (db.track k).row.map fun job => if p k job then f job else job } := by
  simp [track]

end Db

end LoadCoach

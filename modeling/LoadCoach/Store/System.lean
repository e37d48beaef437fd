import LoadCoach.Foundations.Transition
import LoadCoach.Store.Invariants
import LoadCoach.Store.Refinement

/-! # The job store as a transition system

All the writers of the job store, interleaved in any order: a step is one write transaction, and
one that raises changes nothing.  The writers need not take turns, agree on a clock or be in the
state the row is in; what protects a job is in the transactions themselves.

The only thing a step requires is that the caller can make it (`Op.Enabled`): a submission was
accepted by the request models, and a synchronous execution ends a row it reserved and has not
ended yet.

Two invariants carry everything below.  A row a synchronous execution reserved was never queued
(`syncRow`), and every job's track is sound (`sound`): its attempts are numbered from one without
a gap up to the row's counter, it has both halves of a lease or neither, and has them only while
a worker may be touching it. -/

namespace LoadCoach

open Foundations Relation Track

/-! ### Steps -/

/-- Where the synchronous execution of a row stands. -/
inductive SyncPhase where
  | absent
  | running
  | ended
deriving DecidableEq

/-- The database, and the synchronous executions that reserved a row. -/
structure Store where
  db : Db := {}
  sync : JobId → SyncPhase := fun _ => .absent

/-- One write transaction of one writer. -/
inductive Op where
  | enqueue (jobId : JobId) (s : JobSubmission) (profile : String × String)
      (pinnedModelId : Option String) (now : Instant) (settings : QueueSettings)
  | existingJobForKey (source key : String) (now : Instant)
  | claim (w : Owner) (now : Instant) (leaseSeconds pick : ℕ) (affinity : Option AffinityHint)
  | worker (w : Owner) (jobId : JobId) (now : Instant) (tx : WorkerTx)
  | cancelJob (jobId : JobId) (now : Instant)
  | renewLeases (w : Owner) (jobIds : List JobId) (now : Instant) (leaseSeconds : ℕ)
  | reapExpiredLeases (now : Instant)
  | expireMaxWait (sql : SqlArithmetic) (now : Instant) (defaultMaxWaitSeconds : ℕ)
  | ageingSweep (sql : SqlArithmetic) (now : Instant) (pointsPerMinute : ℚ)
      (overflowAllowance : ℤ)
  | resourcesFreed (jobId : JobId) (now : Instant)
  | forceCancelled (jobId : JobId) (now : Instant) (limit : ℕ)
  | recover (process : ℕ) (now : Instant)
  | reserveSyncJob (jobId : JobId) (r : GenerateRequest) (profile : String × String)
      (now : Instant) (ttlHours : ℚ)
  | routed (jobId : JobId) (now : Instant)
  | persist (jobId : JobId) (outcome : SyncOutcome) (profile : String × String)
      (records : List AttemptRecord) (now : Instant)
  | persistNew (jobId : JobId) (r : GenerateRequest) (profile : String × String)
      (outcome : SyncOutcome) (records : List AttemptRecord) (now : Instant)
  | failReserved (jobId : JobId) (code message : String) (now : Instant)
  /-- A synchronous execution is gone without having ended its row. -/
  | abandon (jobId : JobId)
  | backstop (jobId : JobId) (message : String) (now : Instant)

namespace Op

/-- Run the transaction. -/
def run (rack : ModelRack) (db : Db) : Op → Except Raised Db
  | enqueue jobId s profile pinnedModelId now settings =>
      db.enqueue rack jobId s profile pinnedModelId now settings
  | existingJobForKey source key now => .ok (db.existingJobForKey source key now).2
  | claim w now leaseSeconds pick affinity =>
      (db.claim rack w now leaseSeconds pick affinity).map Prod.snd
  | worker w jobId now tx => tx.run w jobId now db
  | cancelJob jobId now => (db.cancelJob jobId now).map Prod.snd
  | renewLeases w jobIds now leaseSeconds => .ok (db.renewLeases w jobIds now leaseSeconds).2
  | reapExpiredLeases now => db.reapExpiredLeases now
  | expireMaxWait sql now defaultMaxWaitSeconds => db.expireMaxWait sql now defaultMaxWaitSeconds
  | ageingSweep sql now pointsPerMinute overflowAllowance =>
      .ok (db.ageingSweep sql now pointsPerMinute overflowAllowance)
  | resourcesFreed jobId now => db.resourcesFreed jobId now
  | forceCancelled jobId now limit => db.forceCancelled jobId now limit
  | recover process now => db.recover process now
  | reserveSyncJob jobId r profile now ttlHours =>
      db.reserveSyncJob rack jobId r profile now ttlHours
  | routed jobId now => .ok (db.append jobId "routing" now "")
  | persist jobId outcome profile records now => db.persist jobId outcome profile records now
  | persistNew jobId r profile outcome records now =>
      db.persistNew jobId r profile outcome records now
  | failReserved jobId code message now => db.failReserved jobId code message now
  | abandon _ => .ok db
  | backstop jobId message now => db.backstop jobId message now

/-- Who runs it. -/
def writer : Op → Writer
  | enqueue .. => .submitter
  | existingJobForKey .. | ageingSweep .. => .housekeeping
  | claim w .. => .claimer w
  | worker w .. => .worker w
  | cancelJob .. => .canceller
  | renewLeases w .. => .keeper w
  | reapExpiredLeases _ => .reaper
  | expireMaxWait .. => .expiry
  | resourcesFreed .. => .reevaluation
  | forceCancelled .. => .watchdog
  | recover process _ => .recovery process
  | reserveSyncJob .. | routed .. | persist .. | persistNew .. | failReserved .. | abandon _
  | backstop .. => .synchronous

/-- The phase a committed transaction leaves a row's synchronous execution in. -/
def phase : Op → Option (JobId × SyncPhase)
  | reserveSyncJob jobId .. => some (jobId, .running)
  | persist jobId .. | failReserved jobId .. | abandon jobId => some (jobId, .ended)
  | _ => none

/-- What a caller must have for the transaction. -/
def Enabled (rack : ModelRack) (s : Store) : Op → Prop
  | enqueue _ submission .. => submission.Accepted rack
  | reserveSyncJob _ r .. | persistNew _ r .. => r.Accepted rack
  | persist jobId _ _ records _ =>
      s.sync jobId = .running ∧
        records.map AttemptRecord.attempt = List.range' 1 records.length
  | routed jobId _ | failReserved jobId .. | abandon jobId => s.sync jobId = .running
  | backstop jobId .. => s.sync jobId = .ended
  | _ => True

end Op

/-- The store after a transaction: one that raises changes nothing. -/
def Store.after (rack : ModelRack) (s : Store) (op : Op) : Store :=
  match op.run rack s.db with
  | .error _ => s
  | .ok db =>
      { db
        sync := match op.phase with
          | none => s.sync
          | some (jobId, phase) => Function.update s.sync jobId phase }

/-- **The job store**: it starts empty, and every step is a transaction some caller can make. -/
def Store.system (rack : ModelRack) : System Store Op :=
  .guarded (fun s op => op.Enabled rack s) (Store.after rack) {}

/-- A submission of one prompt. -/
def promptSubmission (idempotent : Bool) : JobSubmission where
  task := "chat"
  prompt := some "hello"
  idempotent

theorem promptSubmission_accepted (idempotent : Bool) :
    (promptSubmission idempotent).Accepted documentedRack where
  transcript :=
    ⟨[{ role := .user, content := "hello" }], rfl, by simp [AcceptedTurns, documentedRack]⟩
  tools := by simp [promptSubmission]
  profile := by simp [promptSubmission]

/-- A request of one prompt. -/
def promptRequest : GenerateRequest where
  task := "chat"
  prompt := some "hello"

theorem promptRequest_accepted : promptRequest.Accepted documentedRack where
  transcript :=
    ⟨[{ role := .user, content := "hello" }], rfl, by simp [AcceptedTurns, documentedRack]⟩
  tools := by simp [promptRequest]

/-! ### What a step does to each job -/

/-- Every synchronous execution has its row. -/
def Store.SyncRows (s : Store) : Prop := ∀ j, s.sync j ≠ .absent → s.db.SyncRow j

namespace Op

variable {rack : ModelRack} {s : Store} {op : Op} {db : Db} {jobId : JobId}

/-- The row a transaction of the synchronous path is about. -/
def syncJob : Op → Option JobId
  | reserveSyncJob jobId .. | routed jobId _ | persist jobId .. | persistNew jobId ..
  | failReserved jobId .. | abandon jobId | backstop jobId .. => some jobId
  | _ => none

theorem syncJob_eq_none_iff : op.syncJob = none ↔ op.writer ≠ .synchronous := by
  cases op <;> simp [syncJob, writer]

/-- A transaction of the synchronous path is a path of its own row. -/
theorem run_writesTo (hrows : s.SyncRows) (henabled : op.Enabled rack s)
    (hjob : op.syncJob = some jobId) (hrun : op.run rack s.db = .ok db) :
    Db.WritesTo rack .synchronous jobId s.db db := by
  have running : s.sync jobId = .running → s.db.SyncRow jobId := fun h =>
    hrows jobId (by simp [h])
  cases op <;> cases hjob
  case reserveSyncJob => exact Db.reserveSyncJob_writes henabled hrun
  case routed => exact Except.ok.inj hrun ▸ (Db.WritesTo.refl s.db).append _ _ _
  case persist => exact Db.persist_writes (running henabled.1) hrun
  case persistNew => exact Db.persistNew_writes henabled hrun
  case failReserved => exact Db.failReserved_writes (running henabled) hrun
  case abandon => exact Except.ok.inj hrun ▸ Db.WritesTo.refl s.db
  case backstop =>
    have hended : s.sync jobId = .ended := henabled
    exact Db.backstop_writes (hrows jobId (by simp [hended])) hrun

/-- **Every transaction is a path of every job's machine, under its writer.** -/
theorem run_writes (hrows : s.SyncRows) (henabled : op.Enabled rack s)
    (hrun : op.run rack s.db = .ok db) : s.db.Writes rack op.writer db := by
  have result : ∀ {α : Type} {x : Except Raised (α × Db)}, x.map Prod.snd = .ok db →
      ∃ a, x = .ok (a, db) := by
    intro α x hx
    obtain ⟨⟨a, db'⟩, hx', rfl⟩ := map_eq_ok.1 hx
    exact ⟨a, hx'⟩
  cases op with
  | enqueue => exact (Db.enqueue_writes henabled hrun).writes
  | existingJobForKey source key now =>
      exact Except.ok.inj hrun ▸ Db.existingJobForKey_writes source key now s.db
  | claim => exact Db.claim_writes (result hrun).choose_spec
  | worker => exact (Db.workerTx_writes hrun).writes
  | cancelJob => exact (Db.cancelJob_writes (result hrun).choose_spec).writes
  | renewLeases w jobIds now leaseSeconds =>
      exact Except.ok.inj hrun ▸ Db.renewLeases_writes w jobIds now leaseSeconds s.db
  | reapExpiredLeases now =>
      obtain ⟨db', hok, hwrites⟩ := Db.reapExpiredLeases_writes now s.db
      cases hrun.symm.trans hok
      exact hwrites
  | expireMaxWait sql now defaultMaxWaitSeconds =>
      obtain ⟨db', hok, hwrites⟩ := Db.expireMaxWait_writes sql now defaultMaxWaitSeconds s.db
      cases hrun.symm.trans hok
      exact hwrites
  | ageingSweep sql now pointsPerMinute overflowAllowance =>
      exact Except.ok.inj hrun ▸
        Db.ageingSweep_writes sql now pointsPerMinute overflowAllowance s.db
  | resourcesFreed => exact (Db.resourcesFreed_writes hrun).writes
  | forceCancelled => exact (Db.forceCancelled_writes hrun).writes
  | recover => exact Db.recover_writes hrun
  | reserveSyncJob | routed | persist | persistNew | failReserved | abandon | backstop =>
      exact (run_writesTo hrows henabled rfl hrun).writes

end Op

/-! ### Invariants of the store -/

namespace Store

variable {rack : ModelRack} {s : Store} {op : Op} {h : List (Foundations.Step Store Op)}

theorem run_step (hrun : Run (system rack) h s) (op : Op) (hop : op.Enabled rack s) :
    Run (system rack) (⟨s, op, s.after rack op⟩ :: h) (s.after rack op) :=
  hrun.step ⟨hop, rfl⟩

/-- What a step does: nothing, or what its transaction committed. -/
theorem after_cases (rack : ModelRack) (s : Store) (op : Op) :
    (∃ e, op.run rack s.db = .error e ∧ s.after rack op = s) ∨
      ∃ db, op.run rack s.db = .ok db ∧ (s.after rack op).db = db ∧
        (s.after rack op).sync = match op.phase with
          | none => s.sync
          | some (jobId, phase) => Function.update s.sync jobId phase := by
  unfold after
  cases hrun : op.run rack s.db with
  | error e => exact .inl ⟨e, rfl, rfl⟩
  | ok db => exact .inr ⟨db, rfl, rfl, rfl⟩

/-- **Every step of the store is a path of every job's machine.** -/
theorem after_writes (hrows : s.SyncRows) (henabled : op.Enabled rack s) :
    s.db.Writes rack op.writer (s.after rack op).db := by
  rcases after_cases rack s op with ⟨e, -, hsame⟩ | ⟨db, hrun, hdb, -⟩
  · rw [hsame]
    exact .refl s.db
  · rw [hdb]
    exact op.run_writes hrows henabled hrun

theorem syncRow_of_writes {who : Writer} {db db' : Db} {j : JobId}
    (hwrites : db.Writes rack who db') (hrow : db.SyncRow j) : db'.SyncRow j := by
  obtain ⟨job, hrow, hqueued⟩ := hrow
  obtain ⟨job', hrow', hkept⟩ := (hwrites j).kept hrow
  exact ⟨job', hrow', hkept.queuedAt.trans hqueued⟩

theorem syncRow_of_reserveSyncJob {db db' : Db} {jobId : JobId} {r : GenerateRequest}
    {profile : String × String} {now : Instant} {ttlHours : ℚ}
    (h : db.reserveSyncJob rack jobId r profile now ttlHours = .ok db') :
    db'.SyncRow jobId := by
  simp only [Db.reserveSyncJob, bind_eq_ok] at h
  obtain ⟨turns, -, hinsert⟩ := h
  exact ⟨_, congrArg Track.row (Db.track_insertJob hinsert).2.1, rfl⟩

theorem syncRows_after (hrows : s.SyncRows) (henabled : op.Enabled rack s) :
    (s.after rack op).SyncRows := by
  intro j hj
  have hwrites := after_writes hrows henabled
  by_cases hbefore : s.sync j = .absent
  · -- the only phase a row enters from `absent` is the one its reservation starts
    rcases after_cases rack s op with ⟨e, -, hsame⟩ | ⟨db, hrun, hdb, hsync⟩
    · rw [hsame] at hj
      exact absurd hbefore hj
    · rw [hsync] at hj
      rw [hdb]
      cases op
      case reserveSyncJob jobId r profile now ttlHours =>
        by_cases hjob : j = jobId
        · rw [hjob]
          exact syncRow_of_reserveSyncJob hrun
        · simp [Op.phase, hjob, hbefore] at hj
      case persist jobId outcome profile records now =>
        by_cases hjob : j = jobId
        · have hrunning : s.sync jobId = .running := henabled.1
          simp [← hjob, hbefore] at hrunning
        · simp [Op.phase, hjob, hbefore] at hj
      case failReserved jobId _ _ _ | abandon jobId =>
        by_cases hjob : j = jobId
        · have hrunning : s.sync jobId = .running := henabled
          simp [← hjob, hbefore] at hrunning
        · simp [Op.phase, hjob, hbefore] at hj
      all_goals exact absurd hbefore hj
  · exact syncRow_of_writes hwrites (hrows j hbefore)

/-- **A synchronous execution has a row, and the row was never queued.** -/
theorem syncRows (hrun : Run (system rack) h s) : s.SyncRows := by
  refine hrun.invariant ?_ ?_
  · rintro _ rfl j hj
    exact absurd rfl hj
  · rintro s op _ ⟨henabled, rfl⟩ hrows
    exact syncRows_after hrows henabled

theorem writes_of_mem (hrun : Run (system rack) h s) {e : Foundations.Step Store Op}
    (he : e ∈ h) : e.pre.db.Writes rack e.act.writer e.post.db := by
  obtain ⟨h₂, hpast, henabled, hpost⟩ := hrun.past_of_mem he
  rw [hpost]
  exact after_writes (syncRows hpast) henabled

/-- **Every job's track is sound in every reachable state.** -/
theorem sound (hrun : Run (system rack) h s) (j : JobId) : (s.db.track j).Sound rack := by
  induction hrun with
  | start hs =>
      rw [Set.mem_singleton_iff.1 hs]
      exact Track.sound_empty
  | step hpast hnext ih =>
      obtain ⟨henabled, rfl⟩ := hnext
      exact (after_writes (syncRows hpast) henabled j).sound ih

end Store

end LoadCoach

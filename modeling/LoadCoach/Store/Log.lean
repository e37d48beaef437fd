import LoadCoach.Store.System

/-! # The log of a job

What the readers of a job see of the database is its row and its persisted events: its `File`.
This module says of every transaction what it does to the files (`Op.run_files`): each file takes a
path of small steps (`File.Step`), one for each event written together with the row it reports.
A move writes the event of its target; a synchronous execution ends its row with `result` or
`error`; the routing frame and `job.queued` are notes on a row that has not ended.

A synchronous execution writes without looking at its row, so its steps are steps of the file only
when the row has not ended (`Op.EndsLive`). -/

namespace LoadCoach

open Foundations Relation

/-! ### Files -/

/-- The persisted events of a job, oldest first. -/
def Db.log (db : Db) (jobId : JobId) : List JobEvent :=
  db.jobEvents.filter fun e => decide (e.jobId = jobId)

/-- A job's row and its log. -/
structure File where
  row : Option Job
  log : List JobEvent

/-- The file of a job. -/
def Db.file (db : Db) (jobId : JobId) : File := ⟨db.jobs.lookup jobId, db.log jobId⟩

/-- `TERMINAL_STREAM_EVENTS`. -/
def terminalStreamEvents : List String :=
  ["job.completed", "job.failed", "job.cancelled", "result", "error"]

/-- The terminal events that agree with a state. -/
def terminalEventsOf : JobState → List String
  | .completed => ["job.completed", "result"]
  | .failed => ["job.failed", "error"]
  | .cancelled => ["job.cancelled"]
  | _ => []

theorem mem_terminalStreamEvents (type : String) :
    type ∈ terminalStreamEvents ↔ ∃ state, type ∈ terminalEventsOf state := by
  constructor
  · intro h
    simp only [terminalStreamEvents, List.mem_cons, List.not_mem_nil, or_false] at h
    rcases h with rfl | rfl | rfl | rfl | rfl
    · exact ⟨.completed, by decide⟩
    · exact ⟨.failed, by decide⟩
    · exact ⟨.cancelled, by decide⟩
    · exact ⟨.completed, by decide⟩
    · exact ⟨.failed, by decide⟩
  · rintro ⟨state, h⟩
    cases state <;> simp [terminalEventsOf] at h <;> simp [terminalStreamEvents, h]
    all_goals rcases h with rfl | rfl <;> simp

/-- A state's own event is terminal exactly when the state is. -/
theorem eventTypeFor_mem_terminalEventsOf {state : JobState} (h : state ∈ terminalStates) :
    eventTypeFor state ∈ terminalEventsOf state := by
  revert h
  cases state <;> decide

theorem eventTypeFor_not_mem_terminalStreamEvents {state : JobState} (h : state ∉ terminalStates) :
    eventTypeFor state ∉ terminalStreamEvents := by
  revert h
  cases state <;> decide

/-! ### Steps of a file -/

/-- One event, with the row it reports. -/
inductive File.Step : File → File → Prop
  /-- A write that is no write of the state. -/
  | keep {job job' : Job} {log : List JobEvent} (hstate : job'.state = job.state) :
      Step ⟨some job, log⟩ ⟨some job', log⟩
  | move {job job' : Job} {log : List JobEvent} {e : JobEvent}
      (hlegal : isLegal job.state job'.state = true) (htype : e.eventType = eventTypeFor job'.state) :
      Step ⟨some job, log⟩ ⟨some job', log ++ [e]⟩
  | insert {job : Job} {log : List JobEvent} (hstate : job.state ∉ terminalStates) :
      Step ⟨none, log⟩ ⟨some job, log⟩
  | note {job : Job} {log : List JobEvent} {e : JobEvent} (hstate : job.state ∉ terminalStates)
      (htype : e.eventType ∉ terminalStreamEvents) : Step ⟨some job, log⟩ ⟨some job, log ++ [e]⟩
  | finish {job job' : Job} {log : List JobEvent} {e : JobEvent}
      (hstate : job.state ∉ terminalStates) (htype : e.eventType ∈ terminalEventsOf job'.state) :
      Step ⟨some job, log⟩ ⟨some job', log ++ [e]⟩
  /-- The row and the whole log of an execution that had no reservation. -/
  | record {job : Job} {log notes : List JobEvent} {e : JobEvent}
      (hnotes : ∀ n ∈ notes, n.eventType ∉ terminalStreamEvents)
      (htype : e.eventType ∈ terminalEventsOf job.state) :
      Step ⟨none, log⟩ ⟨some job, log ++ notes ++ [e]⟩

/-- What a move and its event do to a file. -/
def File.Moves (jobId : JobId) (now : Instant) (job : Job) (target : JobState) (f f' : File) :
    Prop :=
  ∃ (reason : Option String) (values : JobData → JobData) (message : String),
    f' = ⟨some (job.moved target now reason values),
      f.log ++ [⟨jobId, eventTypeFor target, now, message⟩]⟩

/-- What a round over a row does to its file: the move to its target, if it has one. -/
def File.MovesTo (jobId : JobId) (now : Instant) (job : Job) (target : Option JobState)
    (f f' : File) : Prop :=
  match target with
  | none => f' = f
  | some target => Moves jobId now job target f f'

theorem File.Moves.step {jobId : JobId} {now : Instant} {job : Job} {target : JobState}
    {f f' : File} (h : Moves jobId now job target f f') (hrow : f.row = some job)
    (hlegal : isLegal job.state target = true) : Step f f' := by
  obtain ⟨reason, values, message, rfl⟩ := h
  obtain ⟨row, log⟩ := f
  cases hrow
  exact .move (by simpa using hlegal) (by simp)

/-- The steps of one transaction. -/
def File.Path : File → File → Prop := ReflTransGen File.Step

/-- Every file took a path. -/
def Db.Files (db db' : Db) : Prop := ∀ k, File.Path (db.file k) (db'.file k)

theorem Db.Files.refl (db : Db) : db.Files db := fun _ => .refl

/-- One file took a path, and no other file changed. -/
structure Db.FilesTo (jobId : JobId) (db db' : Db) : Prop where
  path : File.Path (db.file jobId) (db'.file jobId)
  frame : ∀ k, k ≠ jobId → db'.file k = db.file k

namespace Db

variable {rack : ModelRack} {db db' db₁ : Db} {jobId : JobId}

namespace FilesTo

theorem refl (db : Db) : FilesTo jobId db db := ⟨.refl, fun _ _ => rfl⟩

theorem trans (h₁ : FilesTo jobId db db₁) (h₂ : FilesTo jobId db₁ db') : FilesTo jobId db db' :=
  ⟨h₁.path.trans h₂.path, fun k hk => (h₂.frame k hk).trans (h₁.frame k hk)⟩

theorem of_step (hstep : File.Step (db.file jobId) (db'.file jobId))
    (hframe : ∀ k, k ≠ jobId → db'.file k = db.file k) : FilesTo jobId db db' :=
  ⟨.single hstep, hframe⟩

theorem files (h : FilesTo jobId db db') : db.Files db' := by
  intro k
  by_cases hk : k = jobId
  · rw [hk]
    exact h.path
  · rw [h.frame k hk]
    exact .refl

end FilesTo

/-! ### The statements -/

theorem log_append (db : Db) (jobId : JobId) (eventType : String) (now : Instant)
    (message : String) (k : JobId) : (db.append jobId eventType now message).log k =
      if k = jobId then db.log k ++ [⟨jobId, eventType, now, message⟩] else db.log k := by
  unfold append log
  rw [List.filter_append]
  split_ifs with hk
  · simp [hk]
  · simp [Ne.symm hk]

theorem file_append_self (db : Db) (jobId : JobId) (eventType : String) (now : Instant)
    (message : String) : (db.append jobId eventType now message).file jobId =
      ⟨(db.file jobId).row, (db.file jobId).log ++ [⟨jobId, eventType, now, message⟩]⟩ := by
  rw [file, log_append, if_pos rfl]
  rfl

theorem file_append_ne (db : Db) {jobId k : JobId} (hk : k ≠ jobId) (eventType : String)
    (now : Instant) (message : String) :
    (db.append jobId eventType now message).file k = db.file k := by
  rw [file, log_append, if_neg hk]
  rfl

theorem jobEvents_transition {current target : JobState} {now : Instant} {owner : Option Owner}
    {reason : Option String} {values : JobData → JobData}
    (h : db.transition jobId current target now owner reason values = .ok db') :
    db'.jobEvents = db.jobEvents := by
  obtain ⟨job, -, -, -, -, rfl⟩ := transition_eq_ok.1 h
  rfl

theorem jobEvents_writeAttempt {record : AttemptRecord} {owner : Option Owner}
    (h : db.writeAttempt jobId record owner = .ok db') : db'.jobEvents = db.jobEvents := by
  obtain ⟨job, -, -, -, -, rfl⟩ := writeAttempt_eq_ok.1 h
  rfl

theorem jobEvents_assign {f : Job → Job} (h : db.assign jobId f = .ok db') :
    db'.jobEvents = db.jobEvents := by
  unfold assign at h
  split at h <;> cases h
  rfl

theorem jobEvents_insertJob {job : Job} (h : db.insertJob jobId job = .ok db') :
    db'.jobEvents = db.jobEvents := by
  unfold insertJob at h
  split_ifs at h
  cases h
  rfl

theorem log_eq_of_jobEvents (h : db'.jobEvents = db.jobEvents) (k : JobId) :
    db'.log k = db.log k := by
  rw [log, h, log]

theorem file_of_onlyTrack {t' : Track} (honly : db.OnlyTrack jobId t' db₁)
    (hevents : db₁.jobEvents = db.jobEvents) :
    db₁.file jobId = ⟨t'.row, db.log jobId⟩ ∧ ∀ k, k ≠ jobId → db₁.file k = db.file k := by
  constructor
  · rw [file, log_eq_of_jobEvents hevents, ← track_row, honly.1]
  · intro k hk
    rw [file, log_eq_of_jobEvents hevents, ← track_row, honly.2 k hk, track_row, file]

theorem file_append_of_onlyTrack {t' : Track} (honly : db.OnlyTrack jobId t' db₁)
    (hevents : db₁.jobEvents = db.jobEvents) (eventType : String) (now : Instant)
    (message : String) :
    (db₁.append jobId eventType now message).file jobId =
        ⟨t'.row, db.log jobId ++ [⟨jobId, eventType, now, message⟩]⟩ ∧
      ∀ k, k ≠ jobId → (db₁.append jobId eventType now message).file k = db.file k := by
  obtain ⟨hself, hframe⟩ := file_of_onlyTrack honly hevents
  refine ⟨?_, fun k hk => ?_⟩
  · rw [file_append_self, hself]
  · rw [file_append_ne db₁ hk, hframe k hk]

theorem filesTo_transition {current target : JobState} {now : Instant} {owner : Option Owner}
    {reason : Option String} {values : JobData → JobData}
    (h : db.transition jobId current target now owner reason values = .ok db₁)
    (message : String) : FilesTo jobId db (db₁.append jobId (eventTypeFor target) now message) := by
  obtain ⟨job, hrow, rfl, -, hlegal, honly⟩ := track_transition h
  obtain ⟨hself, hframe⟩ := file_append_of_onlyTrack honly (jobEvents_transition h)
    (eventTypeFor target) now message
  refine .of_step ?_ hframe
  rw [hself, file, hrow]
  exact .move (by simpa using hlegal) (by simp)

theorem files_update {p : JobId → Job → Bool} {f : Job → Job}
    (hf : ∀ job, (f job).state = job.state) :
    db.Files { db with jobs := (db.jobs.updateWhere p f).1 } := by
  intro k
  have hrow : (({ db with jobs := (db.jobs.updateWhere p f).1 } : Db).file k).row =
      (db.jobs.lookup k).map fun job => if p k job then f job else job := by simp [file]
  cases hlookup : db.jobs.lookup k with
  | none =>
      have hsame : ({ db with jobs := (db.jobs.updateWhere p f).1 } : Db).file k = db.file k := by
        simp [file, hlookup, log]
      rw [hsame]
      exact .refl
  | some job =>
      have hself : ({ db with jobs := (db.jobs.updateWhere p f).1 } : Db).file k =
          ⟨some (if p k job then f job else job), db.log k⟩ := by
        simp [file, hlookup, log]
      rw [hself, file, hlookup]
      refine .single (.keep ?_)
      split_ifs
      · exact hf job
      · rfl

/-! ### A worker's transactions -/

section Worker

variable {w : Owner} {now : Instant}

theorem filesTo_fencedMove {current target : JobState} {reason : Option String}
    {values : JobData → JobData} {message : String}
    (h : db.fencedMove w jobId current target now reason values message = .ok db') :
    FilesTo jobId db db' := by
  simp only [fencedMove, move, bind_eq_ok, pure_eq_ok] at h
  obtain ⟨db₁, hmove, rfl⟩ := h
  exact filesTo_transition hmove _

theorem filesTo_writeAttempt {record : AttemptRecord} {owner : Option Owner}
    (h : db.writeAttempt jobId record owner = .ok db') : FilesTo jobId db db' := by
  obtain ⟨job, hrow, -, -, honly⟩ := track_writeAttempt h
  obtain ⟨hself, hframe⟩ := file_of_onlyTrack honly (jobEvents_writeAttempt h)
  refine .of_step ?_ hframe
  rw [hself, file, hrow]
  exact .keep rfl

theorem filesTo_recordAttempt {record : AttemptRecord} {target : JobState}
    {reason : Option String} (h : recordAttempt w jobId now db record target reason = .ok db') :
    FilesTo jobId db db' := by
  simp only [recordAttempt, bind_eq_ok] at h
  obtain ⟨db₁, hattempt, hmove⟩ := h
  exact (filesTo_writeAttempt hattempt).trans (filesTo_fencedMove hmove)

theorem filesTo_cancelFrom {records : List AttemptRecord}
    (h : db.cancelFrom w jobId now records = .ok db') : FilesTo jobId db db' := by
  unfold cancelFrom at h
  split at h
  · cases h
  · simp only [bind_eq_ok] at h
    obtain ⟨db₁, hrecord, db₂, hcancelling, hcancelled⟩ := h
    have h₁ : FilesTo jobId db db₁ := by
      unfold recordCancelled at hrecord
      split at hrecord
      · split_ifs at hrecord
        · exact filesTo_writeAttempt hrecord
        · exact Except.ok.inj hrecord ▸ .refl db
      · exact Except.ok.inj hrecord ▸ .refl db
    have h₂ : FilesTo jobId db₁ db₂ := by
      unfold startCancelling at hcancelling
      split_ifs at hcancelling
      · exact Except.ok.inj hcancelling ▸ .refl db₁
      · exact filesTo_fencedMove hcancelling
    exact (h₁.trans h₂).trans (filesTo_fencedMove hcancelled)

theorem filesTo_workerTx {tx : WorkerTx} (h : tx.run w jobId now db = .ok db') :
    FilesTo jobId db db' := by
  cases tx with
  | defer | failAdmission | admitOn | readmitJob | complete | fail | requeueForProbe
  | startRetrying | startExecuting => exact filesTo_fencedMove h
  | recordFailedAttempt | validateAttempt => exact filesTo_recordAttempt h
  | cancelFrom => exact filesTo_cancelFrom h
  | failAfterCrash code text =>
      simp only [WorkerTx.run, failAfterCrash] at h
      split at h
      · exact Except.ok.inj h ▸ .refl db
      · exact filesTo_fencedMove h

end Worker

/-! ### The loops over rows -/

variable {now : Instant}

/-- A move of a row that is there, from its own state and unfenced, commits with its event. -/
theorem transition_append_moves {job : Job} {target : JobState} {values : JobData → JobData}
    {reason : Option String} {message : String} (hrow : db.jobs.lookup jobId = some job)
    (hlegal : isLegal job.state target = true) :
    ∃ db', (do
        let db ← db.transition jobId job.state target now none reason values
        pure (db.append jobId (eventTypeFor target) now message)) = .ok db' ∧
      File.Moves jobId now job target (db.file jobId) (db'.file jobId) ∧
      ∀ k, k ≠ jobId → db'.file k = db.file k := by
  have hok : ∃ db₁, db.transition jobId job.state target now none reason values = .ok db₁ :=
    ⟨_, transition_eq_ok.2 ⟨job, hrow, rfl, rfl, hlegal, rfl⟩⟩
  obtain ⟨db₁, hok⟩ := hok
  obtain ⟨job', hrow', -, -, -, honly⟩ := track_transition hok
  cases hrow.symm.trans hrow'
  obtain ⟨hself, hframe⟩ := file_append_of_onlyTrack honly (jobEvents_transition hok)
    (eventTypeFor target) now message
  refine ⟨db₁.append jobId (eventTypeFor target) now message, ?_, ?_, hframe⟩
  · rw [hok]
    rfl
  · exact ⟨reason, values, message, hself⟩

/-- **A sweep.**  A loop over the rows that meet a condition, each round of which makes the move
its row is due, never fails, moves exactly those rows and leaves every other file alone. -/
theorem sweep_files {p : JobId → Job → Bool} {round : Db → JobId × Job → Except Raised Db}
    (target : JobId → Job → Option JobState) (db : Db)
    (hround : ∀ db e, db.jobs.lookup e.1 = some e.2 → p e.1 e.2 = true →
      ∃ db', round db e = .ok db' ∧
        File.MovesTo e.1 now e.2 (target e.1 e.2) (db.file e.1) (db'.file e.1) ∧
        ∀ k, k ≠ e.1 → db'.file k = db.file k) :
    ∃ db', (db.jobs.select p).foldlM round db = .ok db' ∧
      (∀ k job, db.jobs.lookup k = some job → p k job = true →
        File.MovesTo k now job (target k job) (db.file k) (db'.file k)) ∧
      ∀ k, (∀ job, db.jobs.lookup k = some job → p k job = false) → db'.file k = db.file k := by
  have hmem : ∀ e ∈ db.jobs.select p, (db.file e.1).row = some e.2 ∧ p e.1 e.2 = true :=
    fun e he => (Table.mem_select p db.jobs e.1 e.2).1 he
  obtain ⟨db', hok, hrows, hframe⟩ := foldlM_local
    (P := fun e f => File.row f = some e.2 ∧ p e.1 e.2 = true)
    (R := fun e f f' => File.MovesTo e.1 now e.2 (target e.1 e.2) f f') (v := Db.file)
    (fun db e he => hround db e he.1 he.2) (Table.keys_nodup_select _ _) hmem
  refine ⟨db', hok, ?_, ?_⟩
  · intro k job hrow hp
    exact hrows (k, job) ((Table.mem_select p db.jobs k job).2 ⟨hrow, hp⟩)
  · intro k hk
    refine hframe k fun hkey => ?_
    obtain ⟨⟨k', job⟩, he, rfl⟩ := List.mem_map.1 hkey
    obtain ⟨hrow, hp⟩ := (Table.mem_select p db.jobs k' job).1 he
    exact absurd (hk job hrow) (by simp [hp])

theorem files_of_sweep {p : JobId → Job → Bool} {target : JobId → Job → Option JobState}
    (hlegal : ∀ k job, p k job = true → ∀ t, target k job = some t → isLegal job.state t = true)
    (hmoved : ∀ k job, db.jobs.lookup k = some job → p k job = true →
      File.MovesTo k now job (target k job) (db.file k) (db'.file k))
    (hkept : ∀ k, (∀ job, db.jobs.lookup k = some job → p k job = false) →
      db'.file k = db.file k) : db.Files db' := by
  intro k
  by_cases hk : ∃ job, db.jobs.lookup k = some job ∧ p k job = true
  · obtain ⟨job, hrow, hp⟩ := hk
    have hmoves := hmoved k job hrow hp
    cases htarget : target k job with
    | none =>
        rw [htarget] at hmoves
        rw [show db'.file k = db.file k from hmoves]
        exact .refl
    | some t =>
        rw [htarget] at hmoves
        exact .single (File.Moves.step hmoves hrow (hlegal k job hp t htarget))
  · rw [hkept k fun job hrow => by
      by_contra hp
      exact hk ⟨job, hrow, by simpa using hp⟩]
    exact .refl

theorem reapOne_file (now : Instant) (db : Db) (e : JobId × Job)
    (hrow : db.jobs.lookup e.1 = some e.2) :
    ∃ db', reapOne now db e = .ok db' ∧
      File.MovesTo e.1 now e.2 (recoveryTarget e.2.state e.2.idempotent) (db.file e.1)
        (db'.file e.1) ∧ ∀ k, k ≠ e.1 → db'.file k = db.file k := by
  obtain ⟨jobId, job⟩ := e
  unfold reapOne File.MovesTo
  cases htarget : recoveryTarget job.state job.idempotent with
  | none => exact ⟨db, by simp [htarget], rfl, fun _ _ => rfl⟩
  | some target =>
      simp only [htarget]
      exact transition_append_moves hrow (isLegal_of_recoveryTarget htarget)

/-- **What the reaper does to every file.** -/
theorem reapExpiredLeases_spec (now : Instant) (db : Db) :
    ∃ db', db.reapExpiredLeases now = .ok db' ∧
      (∀ k job, db.jobs.lookup k = some job → (job.leaseExpiresAt.any fun t => decide (t < now)) →
        File.MovesTo k now job (recoveryTarget job.state job.idempotent) (db.file k)
          (db'.file k)) ∧
      ∀ k, (∀ job, db.jobs.lookup k = some job →
        (job.leaseExpiresAt.any fun t => decide (t < now)) = false) → db'.file k = db.file k :=
  sweep_files (fun _ job => recoveryTarget job.state job.idempotent) db
    fun db e hrow _ => reapOne_file now db e hrow

/-- Where start-up recovery sends a row. -/
def recoverTarget (process : ℕ) (job : Job) : Option JobState :=
  if ownLease process job then none else recoveryTarget job.state job.idempotent

theorem recoverOne_file (process : ℕ) (now : Instant) (db : Db) (e : JobId × Job)
    (hrow : db.jobs.lookup e.1 = some e.2) :
    ∃ db', recoverOne process now db e = .ok db' ∧
      File.MovesTo e.1 now e.2 (recoverTarget process e.2) (db.file e.1) (db'.file e.1) ∧
      ∀ k, k ≠ e.1 → db'.file k = db.file k := by
  obtain ⟨jobId, job⟩ := e
  unfold recoverOne recoverTarget File.MovesTo
  by_cases hown : ownLease process job = true
  · exact ⟨db, by simp [hown], by simp [hown], fun _ _ => rfl⟩
  · cases htarget : recoveryTarget job.state job.idempotent with
    | none => exact ⟨db, by simp [hown, htarget], by simp [hown], fun _ _ => rfl⟩
    | some target =>
        simp only [hown, htarget]
        exact transition_append_moves hrow (isLegal_of_recoveryTarget htarget)

/-- **What start-up recovery does to every file.** -/
theorem recover_files_spec (process : ℕ) (now : Instant) (db : Db) :
    ∃ db', db.recover process now = .ok db' ∧
      (∀ k job, db.jobs.lookup k = some job → decide (job.state ∈ inFlightStates) = true →
        File.MovesTo k now job (recoverTarget process job) (db.file k) (db'.file k)) ∧
      ∀ k, (∀ job, db.jobs.lookup k = some job →
        decide (job.state ∈ inFlightStates) = false) → db'.file k = db.file k :=
  sweep_files (fun _ => recoverTarget process) db
    fun db e hrow _ => recoverOne_file process now db e hrow

/-- A waiting row whose bound has passed. -/
def overdue (sql : SqlArithmetic) (now : Instant) (defaultMaxWaitSeconds : ℕ) (job : Job) : Bool :=
  decide (job.state ∈ waitingStates) && ((waitingSeconds sql now job).any fun waited =>
    decide (((job.maxWaitSeconds.getD defaultMaxWaitSeconds : ℕ) : ℚ) < waited))

theorem isLegal_failed_of_overdue {sql : SqlArithmetic} {defaultMaxWaitSeconds : ℕ} {job : Job}
    (h : overdue sql now defaultMaxWaitSeconds job = true) : isLegal job.state .failed = true := by
  simp only [overdue, Bool.and_eq_true, decide_eq_true_eq] at h
  have hstate := h.1
  revert hstate
  cases job.state <;> decide

/-- **What the max-wait sweep does to every file.** -/
theorem expireMaxWait_spec (sql : SqlArithmetic) (now : Instant) (defaultMaxWaitSeconds : ℕ)
    (db : Db) :
    ∃ db', db.expireMaxWait sql now defaultMaxWaitSeconds = .ok db' ∧
      (∀ k job, db.jobs.lookup k = some job → overdue sql now defaultMaxWaitSeconds job = true →
        File.MovesTo k now job (some .failed) (db.file k) (db'.file k)) ∧
      ∀ k, (∀ job, db.jobs.lookup k = some job →
        overdue sql now defaultMaxWaitSeconds job = false) → db'.file k = db.file k := by
  refine sweep_files (p := fun _ job => overdue sql now defaultMaxWaitSeconds job)
    (fun _ _ => some .failed) db fun db e hrow hoverdue => ?_
  obtain ⟨jobId, job⟩ := e
  unfold expireOne
  exact transition_append_moves hrow (isLegal_failed_of_overdue hoverdue)

/-! ### The queue's other transactions -/

theorem files_reapExpiredLeases (h : db.reapExpiredLeases now = .ok db') : db.Files db' := by
  obtain ⟨db'', hok, hmoved, hkept⟩ := reapExpiredLeases_spec now db
  cases h.symm.trans hok
  exact files_of_sweep (fun _ _ _ _ ht => isLegal_of_recoveryTarget ht) hmoved hkept

theorem files_recover {process : ℕ} (h : db.recover process now = .ok db') : db.Files db' := by
  obtain ⟨db'', hok, hmoved, hkept⟩ := recover_files_spec process now db
  cases h.symm.trans hok
  refine files_of_sweep (fun _ job _ t ht => ?_) hmoved hkept
  unfold recoverTarget at ht
  split_ifs at ht
  exact isLegal_of_recoveryTarget ht

theorem files_expireMaxWait {sql : SqlArithmetic} {defaultMaxWaitSeconds : ℕ}
    (h : db.expireMaxWait sql now defaultMaxWaitSeconds = .ok db') : db.Files db' := by
  obtain ⟨db'', hok, hmoved, hkept⟩ := expireMaxWait_spec sql now defaultMaxWaitSeconds db
  cases h.symm.trans hok
  refine files_of_sweep (fun _ job hp t ht => ?_) hmoved hkept
  cases ht
  exact isLegal_failed_of_overdue hp

theorem filesTo_move {current target : JobState} {owner : Option Owner} {reason : Option String}
    {message : Option String} {values : JobData → JobData}
    (h : db.move jobId current target now owner reason message values = .ok db') :
    FilesTo jobId db db' := by
  simp only [move, bind_eq_ok, pure_eq_ok] at h
  obtain ⟨db₁, hmove, rfl⟩ := h
  exact filesTo_transition hmove _

theorem filesTo_cancelJob {result : JobState × Bool}
    (h : db.cancelJob jobId now = .ok (result, db')) : FilesTo jobId db db' := by
  unfold cancelJob at h
  split at h
  · cases h
  · split_ifs at h
    split at h
    · cases h
      exact .refl db
    · simp only [bind_eq_ok, pure_eq_ok] at h
      obtain ⟨db₁, hmove, hresult⟩ := h
      cases hresult
      exact filesTo_transition hmove _

theorem jobEvents_claimMatching {w : Owner} {leaseSeconds pick : ℕ} {extra : Job → Bool}
    {chosen : JobId} (h : db.claimMatching w now leaseSeconds pick extra = some (chosen, db')) :
    db'.jobEvents = db.jobEvents := by
  unfold claimMatching at h
  dsimp only at h
  split at h <;> cases h
  rfl

theorem files_claim {w : Owner} {leaseSeconds pick : ℕ} {affinity : Option AffinityHint}
    {result : Option ClaimedJob}
    (h : db.claim rack w now leaseSeconds pick affinity = .ok (result, db')) : db.Files db' := by
  unfold claim at h
  dsimp only at h
  split at h
  · cases h
    exact .refl db
  · rename_i chosen leased hchosen
    obtain ⟨extra, hmatching⟩ := exists_claimMatching hchosen
    obtain ⟨job, hrow, heligible, -, honly⟩ := claimMatching_spec hmatching
    split at h
    · cases h
    · simp only [bind_eq_ok, pure_eq_ok] at h
      obtain ⟨claimedJob, -, hresult⟩ := h
      cases hresult
      obtain ⟨hself, hframe⟩ := file_append_of_onlyTrack honly
        (jobEvents_claimMatching hmatching) (eventTypeFor .leased) now _
      refine FilesTo.files (.of_step ?_ hframe)
      simp only [eligible, Bool.and_eq_true, decide_eq_true_eq] at heligible
      rw [hself, file, hrow]
      exact .move (by rw [heligible.1]; rfl) rfl

theorem filesTo_enqueue {s : JobSubmission} {profile : String × String} {pinned : Option String}
    {settings : QueueSettings}
    (h : db.enqueue rack jobId s profile pinned now settings = .ok db') :
    FilesTo jobId db db' := by
  simp only [enqueue, bind_eq_ok, pure_eq_ok] at h
  obtain ⟨priority, -, payload, -, db₁, hinsert, rfl⟩ := h
  obtain ⟨hnone, honly⟩ := track_insertJob hinsert
  obtain ⟨hself, -⟩ := file_of_onlyTrack honly (jobEvents_insertJob hinsert)
  obtain ⟨hself', hframe⟩ := file_append_of_onlyTrack honly (jobEvents_insertJob hinsert)
    (eventTypeFor .queued) now s!"queued as {s.jobClass.value} at priority {priority}"
  refine ⟨.tail (.single (b := db₁.file jobId) ?_) ?_, hframe⟩
  · rw [hself, file, hnone]
    exact .insert (show JobState.queued ∉ terminalStates by decide)
  · rw [hself, hself']
    exact .note (show JobState.queued ∉ terminalStates by decide)
      (show eventTypeFor .queued ∉ terminalStreamEvents by decide)

theorem files_existingJobForKey (source key : String) (now : Instant) (db : Db) :
    db.Files (db.existingJobForKey source key now).2 := by
  unfold existingJobForKey
  split
  · exact .refl db
  · split_ifs
    · exact files_update fun _ => rfl
    · exact .refl db

theorem files_renewLeases (w : Owner) (jobIds : List JobId) (now : Instant) (leaseSeconds : ℕ)
    (db : Db) : db.Files (db.renewLeases w jobIds now leaseSeconds).2 :=
  files_update fun _ => rfl

theorem files_ageingSweep (sql : SqlArithmetic) (now : Instant) (pointsPerMinute : ℚ)
    (overflowAllowance : ℤ) (db : Db) :
    db.Files (db.ageingSweep sql now pointsPerMinute overflowAllowance) :=
  files_update fun _ => rfl

/-! ### The synchronous path -/

/-- A row that has not ended. -/
def Live (db : Db) (jobId : JobId) : Prop :=
  ∀ job, db.jobs.lookup jobId = some job → job.state ∉ terminalStates

theorem state_writeAttempts {records : List AttemptRecord} {job : Job}
    (hrow : db.jobs.lookup jobId = some job) (h : db.writeAttempts jobId records = .ok db') :
    (∃ job', db'.jobs.lookup jobId = some job' ∧ job'.state = job.state) ∧
      db'.jobEvents = db.jobEvents ∧ ∀ k, k ≠ jobId → db'.file k = db.file k := by
  induction records generalizing db job with
  | nil =>
      rw [writeAttempts, List.foldlM_nil, pure_eq_ok] at h
      subst h
      exact ⟨⟨job, hrow, rfl⟩, rfl, fun _ _ => rfl⟩
  | cons record records ih =>
      rw [writeAttempts, List.foldlM_cons, bind_eq_ok] at h
      obtain ⟨db₁, hattempt, hrest⟩ := h
      obtain ⟨job₁, hrow₁, -, -, honly⟩ := track_writeAttempt hattempt
      cases hrow.symm.trans hrow₁
      have hevents := jobEvents_writeAttempt hattempt
      have hrow₂ : db₁.jobs.lookup jobId = some job.counted := congrArg Track.row honly.1
      obtain ⟨⟨job', hrow', hstate⟩, hevents', hframe⟩ := ih hrow₂ hrest
      exact ⟨⟨job', hrow', hstate⟩, hevents'.trans hevents,
        fun k hk => (hframe k hk).trans ((file_of_onlyTrack honly hevents).2 k hk)⟩

theorem file_assign {f : Job → Job} {records : List AttemptRecord}
    (hassign : db.assign jobId f = .ok db₁) (hattempts : db₁.writeAttempts jobId records = .ok db')
    (eventType : String) (now : Instant) (message : String) :
    ∃ job job', db.jobs.lookup jobId = some job ∧ job'.state = (f job).state ∧
      (db'.append jobId eventType now message).file jobId =
        ⟨some job', db.log jobId ++ [⟨jobId, eventType, now, message⟩]⟩ ∧
      ∀ k, k ≠ jobId → (db'.append jobId eventType now message).file k = db.file k := by
  obtain ⟨job, hrow, honly⟩ := track_assign hassign
  have hrow₁ : db₁.jobs.lookup jobId = some (f job) := congrArg Track.row honly.1
  obtain ⟨⟨job', hrow', hstate⟩, hevents, hframe⟩ := state_writeAttempts hrow₁ hattempts
  have hsame : db'.jobEvents = db.jobEvents := hevents.trans (jobEvents_assign hassign)
  refine ⟨job, job', hrow, hstate, ?_, fun k hk => ?_⟩
  · rw [file_append_self, file, hrow', log_eq_of_jobEvents hsame]
  · rw [file_append_ne db' hk, hframe k hk]
    exact (file_of_onlyTrack honly (jobEvents_assign hassign)).2 k hk

theorem filesTo_finish {f : Job → Job} {records : List AttemptRecord} {eventType : String}
    (hlive : db.Live jobId) (htype : ∀ job, eventType ∈ terminalEventsOf (f job).state)
    (hassign : db.assign jobId f = .ok db₁) (hattempts : db₁.writeAttempts jobId records = .ok db')
    (message : String) : FilesTo jobId db (db'.append jobId eventType now message) := by
  obtain ⟨job, job', hrow, hstate, hself, hframe⟩ :=
    file_assign hassign hattempts eventType now message
  refine .of_step ?_ hframe
  rw [hself, file, hrow]
  exact .finish (hlive job hrow) (hstate ▸ htype job)

theorem state_mem_terminalStates (outcome : SyncOutcome) : outcome.state ∈ terminalStates := by
  cases outcome with
  | result => exact (show JobState.completed ∈ terminalStates by decide)
  | error => exact (show JobState.failed ∈ terminalStates by decide)

theorem eventType_mem_terminalEventsOf (outcome : SyncOutcome) :
    outcome.eventType ∈ terminalEventsOf outcome.state := by
  cases outcome with
  | result => exact (show "result" ∈ terminalEventsOf .completed by decide)
  | error => exact (show "error" ∈ terminalEventsOf .failed by decide)

theorem filesTo_persist {outcome : SyncOutcome} {profile : String × String}
    {records : List AttemptRecord} (hlive : db.Live jobId)
    (h : db.persist jobId outcome profile records now = .ok db') : FilesTo jobId db db' := by
  simp only [persist, bind_eq_ok, pure_eq_ok] at h
  obtain ⟨db₁, hassign, db₂, hattempts, rfl⟩ := h
  exact filesTo_finish hlive (fun _ => eventType_mem_terminalEventsOf outcome) hassign
    hattempts _

theorem filesTo_failWith {code message text : String} (hlive : db.Live jobId)
    (h : db.assign jobId (Job.failedWith code message now) = .ok db₁) :
    FilesTo jobId db (db₁.append jobId "error" now text) :=
  filesTo_finish hlive (fun _ => show "error" ∈ terminalEventsOf .failed by decide) h
    (show db₁.writeAttempts jobId [] = .ok db₁ from rfl) _

theorem filesTo_failReserved {code message : String} (hlive : db.Live jobId)
    (h : db.failReserved jobId code message now = .ok db') : FilesTo jobId db db' := by
  simp only [failReserved, bind_eq_ok, pure_eq_ok] at h
  obtain ⟨db₁, hassign, rfl⟩ := h
  exact filesTo_failWith hlive hassign

theorem filesTo_backstop {message : String} (hrow : ∃ job, db.jobs.lookup jobId = some job)
    (hlive : db.hasTerminalFrame jobId = true ∨ db.Live jobId)
    (h : db.backstop jobId message now = .ok db') : FilesTo jobId db db' := by
  unfold backstop at h
  split_ifs at h with hframe
  · exact Except.ok.inj h ▸ .refl db
  · simp only [bind_eq_ok, pure_eq_ok] at h
    obtain ⟨db₁, hassign, rfl⟩ := h
    have hlive := hlive.resolve_left hframe
    obtain ⟨job, hrow⟩ := hrow
    have hactive := hlive job hrow
    simp only [failUnended, hrow, hactive, if_false] at hassign
    exact filesTo_failWith hlive hassign

theorem filesTo_routed (hrow : ∃ job, db.jobs.lookup jobId = some job) (hlive : db.Live jobId)
    (message : String) : FilesTo jobId db (db.append jobId "routing" now message) := by
  obtain ⟨job, hrow⟩ := hrow
  refine .of_step ?_ fun k hk => ?_
  · rw [file_append_self, file, hrow]
    exact .note (hlive job hrow) (show "routing" ∉ terminalStreamEvents by decide)
  · exact file_append_ne db hk _ _ _

theorem filesTo_reserveSyncJob {r : GenerateRequest} {profile : String × String} {ttlHours : ℚ}
    (h : db.reserveSyncJob rack jobId r profile now ttlHours = .ok db') :
    FilesTo jobId db db' := by
  simp only [reserveSyncJob, bind_eq_ok] at h
  obtain ⟨turns, -, hinsert⟩ := h
  obtain ⟨hnone, honly⟩ := track_insertJob hinsert
  obtain ⟨hself, hframe⟩ := file_of_onlyTrack honly (jobEvents_insertJob hinsert)
  refine .of_step ?_ hframe
  rw [hself, file, hnone]
  exact .insert (show JobState.executing ∉ terminalStates by decide)

theorem file_foldl_append {α : Type} (jobId : JobId) (now : Instant)
    (eventType message : α → String) (l : List α)
    (hnotes : ∀ a ∈ l, eventType a ∉ terminalStreamEvents) (db : Db) :
    ∃ notes : List JobEvent, (∀ n ∈ notes, n.eventType ∉ terminalStreamEvents) ∧
      (l.foldl (fun db a => db.append jobId (eventType a) now (message a)) db).file jobId =
        ⟨(db.file jobId).row, (db.file jobId).log ++ notes⟩ ∧
      ∀ k, k ≠ jobId →
        (l.foldl (fun db a => db.append jobId (eventType a) now (message a)) db).file k =
          db.file k := by
  induction l generalizing db with
  | nil => exact ⟨[], by simp, by simp, fun _ _ => rfl⟩
  | cons a l ih =>
      obtain ⟨notes, hnotes', hself, hframe⟩ :=
        ih (fun b hb => hnotes b (List.mem_cons_of_mem _ hb))
          (db.append jobId (eventType a) now (message a))
      refine ⟨⟨jobId, eventType a, now, message a⟩ :: notes, ?_, ?_, fun k hk => ?_⟩
      · intro n hn
        rcases List.mem_cons.1 hn with rfl | hn
        · exact hnotes a List.mem_cons_self
        · exact hnotes' n hn
      · rw [List.foldl_cons, hself, file_append_self, List.append_assoc]
        rfl
      · rw [List.foldl_cons, hframe k hk, file_append_ne db hk]

theorem filesTo_persistNew {r : GenerateRequest} {profile : String × String}
    {outcome : SyncOutcome} {records : List AttemptRecord}
    (h : db.persistNew jobId r profile outcome records now = .ok db') :
    FilesTo jobId db db' := by
  simp only [persistNew, bind_eq_ok, pure_eq_ok] at h
  obtain ⟨db₁, hinsert, db₂, hattempts, rfl⟩ := h
  obtain ⟨hnone, honly⟩ := track_insertJob hinsert
  have hrow₁ := congrArg Track.row honly.1
  obtain ⟨⟨job, hrow, hstate⟩, hevents, hframe⟩ := state_writeAttempts hrow₁ hattempts
  have hsame : db₂.jobEvents = db.jobEvents := hevents.trans (jobEvents_insertJob hinsert)
  have hself₂ : db₂.file jobId = ⟨some job, db.log jobId⟩ := by
    rw [file, hrow, log_eq_of_jobEvents hsame]
  obtain ⟨notes, hnotes, hself, hframe'⟩ := file_foldl_append jobId now
    (fun record : AttemptRecord =>
      if record.attempt > 1 then "job.retrying" else "job.executing")
    (fun record : AttemptRecord =>
      s!"attempt {record.attempt} on {record.canonicalId}: {record.outcome.value}") records
    (by
      intro record _
      split_ifs <;> decide)
    (db₂.append jobId "job.executing" now "")
  refine .of_step ?_ fun k hk => ?_
  · rw [file_append_self, hself, file_append_self, hself₂, file, hnone,
      List.append_assoc (db.log jobId)]
    refine .record ?_ ?_
    · intro n hn
      rcases List.mem_append.1 hn with hn | hn
      · rw [List.mem_singleton.1 hn]
        exact (show "job.executing" ∉ terminalStreamEvents by decide)
      · exact hnotes n hn
    · rw [hstate]
      exact eventTypeFor_mem_terminalEventsOf (state_mem_terminalStates outcome)
  · rw [file_append_ne _ hk, hframe' k hk, file_append_ne db₂ hk, hframe k hk]
    exact (file_of_onlyTrack honly (jobEvents_insertJob hinsert)).2 k hk

end Db

/-! ### Every transaction -/

namespace Op

/-- A synchronous execution that writes its row or its log finds a row that has not ended; the
backstop may also find the terminal frame. -/
def EndsLive (db : Db) : Op → Prop
  | routed jobId _ | persist jobId .. | failReserved jobId .. => db.Live jobId
  | backstop jobId .. => db.hasTerminalFrame jobId = true ∨ db.Live jobId
  | _ => True

/-- **Every transaction takes every file along a path**, if the synchronous ones find a row that
has not ended. -/
theorem run_files {rack : ModelRack} {s : Store} {op : Op} {db : Db} (hrows : s.SyncRows)
    (henabled : op.Enabled rack s) (hlive : op.EndsLive s.db)
    (hrun : op.run rack s.db = .ok db) : s.db.Files db := by
  have running : ∀ {j}, s.sync j ≠ .absent → ∃ job, s.db.jobs.lookup j = some job := by
    intro j hj
    obtain ⟨job, hrow, -⟩ := hrows j hj
    exact ⟨job, hrow⟩
  cases op with
  | enqueue => exact (Db.filesTo_enqueue hrun).files
  | existingJobForKey source key now =>
      exact Except.ok.inj hrun ▸ Db.files_existingJobForKey source key now s.db
  | claim =>
      obtain ⟨⟨a, db'⟩, hclaim, rfl⟩ := map_eq_ok.1 hrun
      exact Db.files_claim hclaim
  | worker => exact (Db.filesTo_workerTx hrun).files
  | cancelJob =>
      obtain ⟨⟨a, db'⟩, hcancel, rfl⟩ := map_eq_ok.1 hrun
      exact (Db.filesTo_cancelJob hcancel).files
  | renewLeases w jobIds now leaseSeconds =>
      exact Except.ok.inj hrun ▸ Db.files_renewLeases w jobIds now leaseSeconds s.db
  | reapExpiredLeases => exact Db.files_reapExpiredLeases hrun
  | expireMaxWait => exact Db.files_expireMaxWait hrun
  | ageingSweep sql now pointsPerMinute overflowAllowance =>
      exact Except.ok.inj hrun ▸
        Db.files_ageingSweep sql now pointsPerMinute overflowAllowance s.db
  | resourcesFreed | forceCancelled => exact (Db.filesTo_move hrun).files
  | recover => exact Db.files_recover hrun
  | reserveSyncJob => exact (Db.filesTo_reserveSyncJob hrun).files
  | routed jobId now =>
      have hrunning : s.sync jobId = .running := henabled
      exact Except.ok.inj hrun ▸ (Db.filesTo_routed (running (by simp [hrunning])) hlive "").files
  | persist => exact (Db.filesTo_persist hlive hrun).files
  | persistNew => exact (Db.filesTo_persistNew hrun).files
  | failReserved => exact (Db.filesTo_failReserved hlive hrun).files
  | abandon => exact Except.ok.inj hrun ▸ .refl s.db
  | backstop jobId message now =>
      have hended : s.sync jobId = .ended := henabled
      exact (Db.filesTo_backstop (running (by simp [hended])) hlive hrun).files

/-- What a transaction does that finds its row ended: one more event for a row that stays ended. -/
theorem ended_twice {rack : ModelRack} {db db' : Db} {op : Op} (hrun : op.run rack db = .ok db')
    (hdead : ¬ op.EndsLive db) : ∃ j job job' e, db.jobs.lookup j = some job ∧
      job.state ∈ terminalStates ∧ job'.state ∈ terminalStates ∧
      db'.file j = ⟨some job', db.log j ++ [e]⟩ := by
  have ended : ∀ {j}, ¬ db.Live j →
      ∃ job, db.jobs.lookup j = some job ∧ job.state ∈ terminalStates := by
    intro j hj
    simpa [Db.Live] using hj
  have appended : ∀ {j} (type : String) (now : Instant), ¬ db.Live j → ∃ job job' e,
      db.jobs.lookup j = some job ∧ job.state ∈ terminalStates ∧ job'.state ∈ terminalStates ∧
      (db.append j type now "").file j = ⟨some job', db.log j ++ [e]⟩ := by
    intro j type now hj
    obtain ⟨job, hrow, hterminal⟩ := ended hj
    refine ⟨job, job, ⟨j, type, now, ""⟩, hrow, hterminal, hterminal, ?_⟩
    rw [Db.file_append_self, Db.file, hrow]
  cases op
  case routed jobId now =>
    exact ⟨jobId, Except.ok.inj hrun ▸ appended "routing" now hdead⟩
  case persist jobId outcome profile records now =>
    simp only [run, Db.persist, bind_eq_ok, pure_eq_ok] at hrun
    obtain ⟨db₁, hassign, db₂, hattempts, rfl⟩ := hrun
    obtain ⟨job, job', hrow, hstate, hself, -⟩ :=
      Db.file_assign hassign hattempts outcome.eventType now ""
    obtain ⟨job₂, hrow₂, hterminal⟩ := ended hdead
    cases hrow.symm.trans hrow₂
    exact ⟨jobId, job, job', _, hrow, hterminal,
      hstate ▸ Db.state_mem_terminalStates outcome, hself⟩
  case failReserved jobId code message now =>
    simp only [run, Db.failReserved, bind_eq_ok, pure_eq_ok] at hrun
    obtain ⟨db₁, hassign, rfl⟩ := hrun
    obtain ⟨job, job', hrow, hstate, hself, -⟩ :=
      Db.file_assign hassign (show db₁.writeAttempts jobId [] = .ok db₁ from rfl) "error" now ""
    obtain ⟨job₂, hrow₂, hterminal⟩ := ended hdead
    cases hrow.symm.trans hrow₂
    exact ⟨jobId, job, job', _, hrow, hterminal,
      hstate ▸ (show JobState.failed ∈ terminalStates by decide), hself⟩
  case backstop jobId message now =>
    obtain ⟨hframe, hdead⟩ := not_or.1 hdead
    obtain ⟨job, hrow, hterminal⟩ := ended hdead
    simp only [run, Db.backstop, hframe, Db.failUnended, hrow, hterminal, if_true,
      ok_bind, pure_eq_ok, if_false, Bool.false_eq_true] at hrun
    exact ⟨jobId, hrun ▸ appended "error" now hdead⟩
  all_goals exact absurd trivial hdead

end Op

end LoadCoach

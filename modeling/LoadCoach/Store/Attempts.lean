import LoadCoach.Store.Fence

/-! # What a worker's transaction writes to `job_attempts`

At most one row, the one its data says (`WorkerTx.written`), with the next number of the job:
`workerTx_wrote`.  The two transactions that follow a provider call are characterised completely:
the one that writes the attempt and moves the job on commits exactly when the row is still
`executing` (`recordAttempt_commits_iff`), and the cancellation always commits, with the last
record if its outcome is "cancelled" (`cancelFrom_commits`). -/

namespace LoadCoach

open Foundations Relation

variable {rack : ModelRack}

/-- The record a worker's transaction writes. -/
def WorkerTx.written : WorkerTx → Option AttemptRecord
  | recordFailedAttempt record | validateAttempt record => some record
  | cancelFrom records => records.getLast?.filter fun record => decide (record.outcome = .cancelled)
  | _ => none

theorem WorkerTx.written_cancelFrom (records : List AttemptRecord) :
    (cancelFrom records).written =
      records.getLast?.filter fun record => decide (record.outcome = .cancelled) := rfl

namespace Db

variable {db db' db₁ : Db} {w : Owner} {j : JobId} {now : Instant} {job : Job}

/-- The job's attempts grew by the record, if there is one, under the next number. -/
def Wrote (j : JobId) (record : Option AttemptRecord) (db db' : Db) : Prop :=
  ∃ job job', db.jobs.lookup j = some job ∧ db'.jobs.lookup j = some job' ∧
    job'.attempt = job.attempt + record.toList.length ∧
    (∀ r ∈ record, r.attempt = job.attempt + 1) ∧
    (db'.track j).attempts = (db.track j).attempts ++
      record.toList.map fun r => ⟨j, job.attempt + 1, r⟩

theorem Wrote.refl (hrow : db.jobs.lookup j = some job) : Wrote j none db db :=
  ⟨job, job, hrow, hrow, by simp, by simp, by simp⟩

theorem Wrote.trans_none {record : Option AttemptRecord} (h₁ : Wrote j record db db₁)
    (h₂ : Wrote j none db₁ db') : Wrote j record db db' := by
  obtain ⟨job, job₁, hrow, hrow₁, hattempt, hnumber, hattempts⟩ := h₁
  obtain ⟨job₁', job', hrow₁', hrow', hattempt', -, hattempts'⟩ := h₂
  cases hrow₁.symm.trans hrow₁'
  refine ⟨job, job', hrow, hrow', ?_, hnumber, ?_⟩
  · rw [hattempt', hattempt]
    rfl
  · rw [hattempts', hattempts]
    simp

theorem fencedMove_wrote {current target : JobState} {reason : Option String}
    {values : JobData → JobData} {message : String}
    (h : db.fencedMove w j current target now reason values message = .ok db') :
    Wrote j none db db' := by
  simp only [fencedMove, move, bind_eq_ok, pure_eq_ok] at h
  obtain ⟨db₁, hmove, rfl⟩ := h
  obtain ⟨job, hrow, -, -, -, htrack, -⟩ := track_transition hmove
  refine ⟨job, _, hrow, congrArg Track.row htrack, by simp, by simp, ?_⟩
  rw [track_append, htrack]
  simp

theorem writeAttempt_wrote {record : AttemptRecord} {owner : Option Owner}
    (h : db.writeAttempt j record owner = .ok db') : Wrote j (some record) db db' := by
  obtain ⟨job, hrow, -, hnumber, htrack, -⟩ := track_writeAttempt h
  exact ⟨job, _, hrow, congrArg Track.row htrack, by simp, by simpa using hnumber, by simp [htrack]⟩

theorem recordAttempt_wrote {record : AttemptRecord} {target : JobState} {reason : Option String}
    (h : recordAttempt w j now db record target reason = .ok db') :
    Wrote j (some record) db db' := by
  simp only [recordAttempt, bind_eq_ok] at h
  obtain ⟨db₁, hattempt, hmove⟩ := h
  exact (writeAttempt_wrote hattempt).trans_none (fencedMove_wrote hmove)

theorem recordCancelled_wrote {records : List AttemptRecord} (hrow : db.jobs.lookup j = some job)
    (h : recordCancelled w j db records = .ok db') :
    Wrote j (WorkerTx.cancelFrom records).written db db' := by
  unfold recordCancelled at h
  rw [WorkerTx.written_cancelFrom]
  split at h
  · rename_i record hlast
    rw [hlast]
    split_ifs at h with hcancelled
    · rw [Option.filter_some, if_pos (decide_eq_true hcancelled)]
      exact writeAttempt_wrote h
    · cases h
      rw [Option.filter_some, if_neg (by simpa using hcancelled)]
      exact .refl hrow
  · rename_i hlast
    cases h
    rw [hlast]
    exact .refl hrow

/-- **What a worker's transaction writes.** -/
theorem workerTx_wrote {tx : WorkerTx} (h : tx.run w j now db = .ok db')
    (hlease : db.LeasedTo w j) : Wrote j tx.written db db' := by
  obtain ⟨job, hrow, howner⟩ := hlease
  have hheld : db.held w j = some job := held_eq_some.2 ⟨hrow, howner⟩
  cases tx with
  | recordFailedAttempt | validateAttempt => exact recordAttempt_wrote h
  | cancelFrom records =>
      simp only [WorkerTx.run, cancelFrom, hheld, bind_eq_ok] at h
      obtain ⟨db₁, hrecord, db₂, hcancelling, hcancelled⟩ := h
      have hwrote := recordCancelled_wrote hrow hrecord
      have hmoved : Wrote j none db₁ db₂ := by
        unfold startCancelling at hcancelling
        split_ifs at hcancelling
        · cases hcancelling
          obtain ⟨-, job₁, -, hrow₁, -⟩ := hwrote
          exact .refl hrow₁
        · exact fencedMove_wrote hcancelling
      exact (hwrote.trans_none hmoved).trans_none (fencedMove_wrote hcancelled)
  | failAfterCrash =>
      simp only [WorkerTx.run, failAfterCrash, hheld] at h
      exact fencedMove_wrote h
  | _ => exact fencedMove_wrote h

/-! ### The transactions that settle a call -/

theorem fencedMove_commits {target : JobState} {reason : Option String}
    {values : JobData → JobData} {message : String} (hrow : db.jobs.lookup j = some job)
    (howner : job.leaseOwner = some w) (hlegal : isLegal job.state target = true) :
    ∃ db', db.fencedMove w j job.state target now reason values message = .ok db' ∧
      db'.jobs.lookup j = some (job.moved target now reason values) := by
  obtain ⟨db₁, hmove⟩ : ∃ db₁, db.transition j job.state target now (some w) reason values =
      .ok db₁ :=
    ⟨_, transition_eq_ok.2 ⟨job, hrow, rfl, (fenced_some w job).2 howner, hlegal, rfl⟩⟩
  obtain ⟨job', hrow', -, -, -, htrack, -⟩ := track_transition hmove
  cases hrow.symm.trans hrow'
  refine ⟨db₁.append j (eventTypeFor target) now message, ?_, congrArg Track.row htrack⟩
  rw [fencedMove, move, hmove]
  rfl

theorem writeAttempt_commits {record : AttemptRecord} (hsound : (db.track j).Sound rack)
    (hrow : db.jobs.lookup j = some job) (howner : job.leaseOwner = some w)
    (hnumber : record.attempt = job.attempt + 1) :
    ∃ db', db.writeAttempt j record (some w) = .ok db' ∧
      db'.jobs.lookup j = some job.counted := by
  have hunique : ¬ ∃ row ∈ db.jobAttempts, row.jobId = j ∧ row.attempt = job.attempt + 1 := by
    rintro ⟨row, hmem, hjob, hattempt⟩
    have hrange : row.attempt ∈ List.range' 1 job.attempt := by
      rw [← hsound.numbered job hrow]
      exact List.mem_map_of_mem (List.mem_filter.2 ⟨hmem, by simpa using hjob⟩)
    rw [List.mem_range'_1] at hrange
    omega
  have hcommits : ∃ db', db.writeAttempt j record (some w) = .ok db' :=
    ⟨_, writeAttempt_eq_ok.2
      ⟨job, hrow, (fenced_some w job).2 howner, hnumber.symm, hunique, rfl⟩⟩
  obtain ⟨db', hwrite⟩ := hcommits
  obtain ⟨job', hrow', -, -, htrack, -⟩ := track_writeAttempt hwrite
  cases hrow.symm.trans hrow'
  exact ⟨db', hwrite, congrArg Track.row htrack⟩

/-- **A returned call is written exactly when the job is still executing.** -/
theorem recordAttempt_commits_iff {record : AttemptRecord} {target : JobState}
    {reason : Option String} (hsound : (db.track j).Sound rack)
    (hrow : db.jobs.lookup j = some job) (howner : job.leaseOwner = some w)
    (hnumber : record.attempt = job.attempt + 1) (hlegal : isLegal .executing target = true) :
    (∃ db', recordAttempt w j now db record target reason = .ok db') ↔ job.state = .executing := by
  obtain ⟨db₁, hwrite, hrow₁⟩ := writeAttempt_commits hsound hrow howner hnumber
  rw [recordAttempt, hwrite, ok_bind]
  constructor
  · rintro ⟨db', hmove⟩
    simp only [fencedMove, move, bind_eq_ok] at hmove
    obtain ⟨db₂, hmove, -⟩ := hmove
    obtain ⟨job₁, hrow₁', hstate, -⟩ := track_transition hmove
    cases hrow₁.symm.trans hrow₁'
    exact hstate
  · intro hstate
    have hcounted : job.counted.state = .executing := hstate
    rw [← hcounted] at hlegal ⊢
    obtain ⟨db', hmove, -⟩ := fencedMove_commits hrow₁ howner hlegal
    exact ⟨db', hmove⟩

/-- **A holder's cancellation always commits**, if the record it keeps has the next number. -/
theorem cancelFrom_commits {records : List AttemptRecord} (hsound : (db.track j).Sound rack)
    (hrow : db.jobs.lookup j = some job) (howner : job.leaseOwner = some w)
    (hnumber : ∀ r ∈ (WorkerTx.cancelFrom records).written, r.attempt = job.attempt + 1) :
    ∃ db', db.cancelFrom w j now records = .ok db' := by
  have hheld : db.held w j = some job := held_eq_some.2 ⟨hrow, howner⟩
  have hstate : job.state ∈ inFlightStates := hsound.inFlight job hrow (by simp [howner])
  obtain ⟨db₁, job₁, hrecord, hrow₁, howner₁, hstate₁⟩ : ∃ db₁ job₁,
      recordCancelled w j db records = .ok db₁ ∧ db₁.jobs.lookup j = some job₁ ∧
        job₁.leaseOwner = some w ∧ job₁.state = job.state := by
    rw [WorkerTx.written_cancelFrom] at hnumber
    unfold recordCancelled
    split
    · rename_i record hlast
      rw [hlast] at hnumber
      split_ifs with hcancelled
      · obtain ⟨db₁, hwrite, hrow₁⟩ := writeAttempt_commits hsound hrow howner
          (hnumber record (by simp [hcancelled]))
        exact ⟨db₁, job.counted, hwrite, hrow₁, howner, rfl⟩
      · exact ⟨db, job, rfl, hrow, howner, rfl⟩
    · exact ⟨db, job, rfl, hrow, howner, rfl⟩
  obtain ⟨db₂, job₂, hstart, hrow₂, howner₂, hstate₂⟩ : ∃ db₂ job₂,
      startCancelling w j now db₁ job.state = .ok db₂ ∧ db₂.jobs.lookup j = some job₂ ∧
        job₂.leaseOwner = some w ∧ job₂.state = .cancelling := by
    unfold startCancelling
    split_ifs with hcancelling
    · exact ⟨db₁, job₁, rfl, hrow₁, howner₁, hstate₁.trans hcancelling⟩
    · have hlegal : isLegal job₁.state .cancelling = true := by
        rw [hstate₁]
        exact isLegal_cancelling hstate hcancelling
      rw [← hstate₁]
      obtain ⟨db₂, hmove, hrow₂⟩ := fencedMove_commits hrow₁ howner₁ hlegal
      refine ⟨db₂, _, hmove, hrow₂, ?_, Job.moved_state _ _ _ _ _⟩
      rw [Job.moved_leaseOwner]
      exact howner₁
  have hlegal : isLegal job₂.state .cancelled = true := by
    rw [hstate₂]
    decide
  rw [cancelFrom, hheld]
  dsimp only
  rw [hrecord, ok_bind, hstart, ok_bind, finishCancelling, ← hstate₂]
  obtain ⟨db', hmove, -⟩ := fencedMove_commits hrow₂ howner₂ hlegal
  exact ⟨db', hmove⟩

end Db

end LoadCoach

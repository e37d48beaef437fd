import LoadCoach.Store.Log

/-! # Start-up recovery

`services/recovery.py`: a starting process recovers the rows found in flight that none of its own
workers holds, re-evaluates the jobs that wait for resources, and sweeps the priorities
(`recoverPass`).  What the re-evaluation decides of a waiting job depends on the machine and not on
the table; at one instant it is a function of the job (`proceed`).

The pass is exact (`recoverPass_exact`): it never fails, each row it recovers goes to its recovery
target with one event, and of every other row only the waiting ones may change, by the
re-evaluation and the sweep.  A second pass at the same instant finds nothing to do. -/

namespace LoadCoach

open Foundations

/-- What the ageing sweep makes of a row. -/
def Job.aged (sql : SqlArithmetic) (now : Instant) (pointsPerMinute : ℚ)
    (overflowAllowance : ℤ) (job : Job) : Job :=
  if job.state ∈ waitingStates then
    { job with
      effectivePriority :=
        (Db.freshPriority sql now pointsPerMinute overflowAllowance job).getD job.effectivePriority }
  else
    job

section Aged

variable (sql : SqlArithmetic) (now : Instant) (pointsPerMinute : ℚ) (overflowAllowance : ℤ)
  (job : Job)

theorem Job.aged_eq : ∃ priority, job.aged sql now pointsPerMinute overflowAllowance =
    { job with effectivePriority := priority } := by
  unfold aged
  split_ifs
  · exact ⟨_, rfl⟩
  · exact ⟨job.effectivePriority, rfl⟩

@[simp] theorem Job.aged_state : (job.aged sql now pointsPerMinute overflowAllowance).state =
    job.state := by
  obtain ⟨priority, h⟩ := job.aged_eq sql now pointsPerMinute overflowAllowance
  rw [h]

variable {job} in
theorem Job.aged_eq_self (h : job.state ∉ waitingStates) :
    job.aged sql now pointsPerMinute overflowAllowance = job := if_neg h

end Aged

namespace Db

/-! ### The pass -/

/-- Re-queue one waiting job, if it could be admitted now; a job that moved meanwhile is passed
over. -/
def reevaluateOne (proceed : JobId → Bool) (now : Instant) (db : Db) (row : JobId × Job) :
    Except Raised Db :=
  if proceed row.1 then
    match db.resourcesFreed row.1 now with
    | .ok db => .ok db
    | .error e => if e.isRefusal then .ok db else .error e
  else
    .ok db

/-- Re-queue every job waiting for resources that could be admitted now. -/
def reevaluateWaiting (proceed : JobId → Bool) (now : Instant) (db : Db) : Except Raised Db :=
  (db.jobs.select fun _ job => decide (job.state = .waitingResources)).foldlM
    (reevaluateOne proceed now) db

/-- The re-evaluation a recovery pass was given; without telemetry there is none. -/
def reevaluation (reevaluate : Option (JobId → Bool)) (now : Instant) (db : Db) :
    Except Raised Db :=
  match reevaluate with
  | none => pure db
  | some proceed => db.reevaluateWaiting proceed now

/-- The recovery pass. -/
def recoverPass (sql : SqlArithmetic) (process : ℕ) (reevaluate : Option (JobId → Bool))
    (now : Instant) (pointsPerMinute : ℚ) (overflowAllowance : ℤ) (db : Db) : Except Raised Db := do
  let db ← db.recover process now
  let db ← db.reevaluation reevaluate now
  pure (db.ageingSweep sql now pointsPerMinute overflowAllowance)

/-- The pass left a file alone, but for the priority the sweep gives a waiting row. -/
def Aged (f f' : File) : Prop :=
  f'.log = f.log ∧ ∃ job priority, f.row = some job ∧
    f'.row = some { job with effectivePriority := priority }

/-- A file was moved to a state out of flight: one event, no lease, and the attempt counter and
the enqueue instant it had. -/
def MovedOut (jobId : JobId) (job : Job) (target : JobState) (f f' : File) : Prop :=
  ∃ job' e, f' = ⟨some job', f.log ++ [e]⟩ ∧ e.jobId = jobId ∧
    e.eventType = eventTypeFor target ∧ job'.state = target ∧
    job'.leaseOwner = none ∧ job'.leaseExpiresAt = none ∧
    job'.attempt = job.attempt ∧ job'.queuedAt = job.queuedAt

/-- What the pass may do to a file. -/
def PassOn (process : ℕ) (reevaluate : Option (JobId → Bool)) (jobId : JobId) (f f' : File) :
    Prop :=
  match f.row with
  | none => f' = f
  | some job =>
      if job.state ∈ inFlightStates then
        if ownLease process job then f' = f
        else ∃ target, recoveryTarget job.state job.idempotent = some target ∧
          MovedOut jobId job target f f'
      else if job.state = .waitingResources ∧ (reevaluate.any fun proceed => proceed jobId) then
        MovedOut jobId job .queued f f'
      else if job.state ∈ waitingStates then Aged f f'
      else f' = f

/-! ### Its parts -/

variable {sql : SqlArithmetic} {db db' db₁ db₂ : Db} {process : ℕ} {now : Instant}
  {reevaluate : Option (JobId → Bool)} {proceed : JobId → Bool} {pointsPerMinute : ℚ}
  {overflowAllowance : ℤ} {k : JobId} {job : Job}

/-- Where the re-evaluation sends a waiting job. -/
def reevaluateTarget (proceed : JobId → Bool) (k : JobId) : Option JobState :=
  if proceed k then some .queued else none

theorem resourcesFreed_file (now : Instant) (hrow : db.jobs.lookup k = some job)
    (hstate : job.state = .waitingResources) : ∃ db', db.resourcesFreed k now = .ok db' ∧
      File.Moves k now job .queued (db.file k) (db'.file k) ∧
      ∀ j, j ≠ k → db'.file j = db.file j := by
  unfold resourcesFreed move
  rw [← hstate]
  exact transition_append_moves hrow (by rw [hstate]; rfl)

theorem reevaluateOne_file (proceed : JobId → Bool) (now : Instant) (db : Db) (e : JobId × Job)
    (hrow : db.jobs.lookup e.1 = some e.2) (hstate : e.2.state = .waitingResources) :
    ∃ db', reevaluateOne proceed now db e = .ok db' ∧
      File.MovesTo e.1 now e.2 (reevaluateTarget proceed e.1) (db.file e.1) (db'.file e.1) ∧
      ∀ k, k ≠ e.1 → db'.file k = db.file k := by
  unfold reevaluateOne reevaluateTarget File.MovesTo
  by_cases hproceed : proceed e.1 = true
  · obtain ⟨db', hok, hmoves, hframe⟩ := resourcesFreed_file now hrow hstate
    exact ⟨db', by simp [hproceed, hok], by simpa [hproceed] using hmoves, hframe⟩
  · exact ⟨db, by simp [hproceed], by simp [hproceed], fun _ _ => rfl⟩

theorem reevaluateWaiting_spec (proceed : JobId → Bool) (now : Instant) (db : Db) :
    ∃ db', db.reevaluateWaiting proceed now = .ok db' ∧
      (∀ k job, db.jobs.lookup k = some job → decide (job.state = .waitingResources) = true →
        File.MovesTo k now job (reevaluateTarget proceed k) (db.file k) (db'.file k)) ∧
      ∀ k, (∀ job, db.jobs.lookup k = some job →
        decide (job.state = .waitingResources) = false) → db'.file k = db.file k :=
  sweep_files (fun k _ => reevaluateTarget proceed k) db
    fun db e hrow hp => reevaluateOne_file proceed now db e hrow (of_decide_eq_true hp)

theorem reevaluateWaiting_eq_self (h : ∀ k job, db.jobs.lookup k = some job →
    job.state = .waitingResources → proceed k = false) :
    db.reevaluateWaiting proceed now = .ok db := by
  refine foldlM_eq_self fun e he => ?_
  obtain ⟨hrow, hstate⟩ := (Table.mem_select _ _ e.1 e.2).1 he
  simp [reevaluateOne, h e.1 e.2 hrow (of_decide_eq_true hstate)]

theorem recover_eq_self (h : ∀ k job, db.jobs.lookup k = some job → job.state ∈ inFlightStates →
    ownLease process job = true) : db.recover process now = .ok db := by
  refine foldlM_eq_self fun e he => ?_
  obtain ⟨hrow, hstate⟩ := (Table.mem_select _ _ e.1 e.2).1 he
  simp [recoverOne, h e.1 e.2 hrow (of_decide_eq_true hstate)]

theorem ageingSweep_file (sql : SqlArithmetic) (now : Instant) (pointsPerMinute : ℚ)
    (overflowAllowance : ℤ) (db : Db) (k : JobId) :
    (db.ageingSweep sql now pointsPerMinute overflowAllowance).file k =
      ⟨(db.jobs.lookup k).map (Job.aged sql now pointsPerMinute overflowAllowance), db.log k⟩ := by
  unfold ageingSweep file
  simp only [Table.lookup_updateWhere]
  refine congrArg₂ File.mk ?_ rfl
  cases db.jobs.lookup k with
  | none => rfl
  | some job =>
      simp only [Option.map_some, Option.some.injEq, Bool.and_eq_true, decide_eq_true_eq, Job.aged]
      by_cases hstate : job.state ∈ waitingStates
      · cases hfresh : freshPriority sql now pointsPerMinute overflowAllowance job with
        | none => simp [hstate]
        | some p =>
            by_cases hp : job.effectivePriority = p
            · simp [hstate, ← hp]
            · simp [hstate, hp]
      · simp [hstate]

theorem freshPriority_aged (sql : SqlArithmetic) (now : Instant) (pointsPerMinute : ℚ)
    (overflowAllowance : ℤ) (job : Job) : freshPriority sql now pointsPerMinute overflowAllowance
      (job.aged sql now pointsPerMinute overflowAllowance) =
        freshPriority sql now pointsPerMinute overflowAllowance job := by
  obtain ⟨priority, h⟩ := job.aged_eq sql now pointsPerMinute overflowAllowance
  rw [h]
  rfl

theorem ageingSweep_ageingSweep (sql : SqlArithmetic) (now : Instant) (pointsPerMinute : ℚ)
    (overflowAllowance : ℤ) (db : Db) :
    (db.ageingSweep sql now pointsPerMinute overflowAllowance).ageingSweep sql now
      pointsPerMinute overflowAllowance =
        db.ageingSweep sql now pointsPerMinute overflowAllowance := by
  have hfresh : ∀ k job,
      (db.ageingSweep sql now pointsPerMinute overflowAllowance).jobs.lookup k = some job →
      (decide (job.state ∈ waitingStates) &&
        (freshPriority sql now pointsPerMinute overflowAllowance job).any fun p =>
          decide (job.effectivePriority ≠ p)) = false := by
    intro k job hrow
    have hfile := congrArg File.row
      (ageingSweep_file sql now pointsPerMinute overflowAllowance db k)
    obtain ⟨job₀, -, rfl⟩ := Option.map_eq_some_iff.1 (hfile.symm.trans hrow)
    rw [freshPriority_aged, Job.aged_state]
    by_cases hstate : job₀.state ∈ waitingStates
    · cases h : freshPriority sql now pointsPerMinute overflowAllowance job₀ with
      | none => simp
      | some p => simp [Job.aged, hstate, h]
    · simp [hstate]
  conv_lhs => rw [ageingSweep]
  simp only [Table.updateWhere_eq_self hfresh]

/-! ### Exactness -/

theorem movedOut_of_moves {target : JobState} {f f₁ : File}
    (hmoves : File.Moves k now job target f f₁) (hout : target ∉ inFlightStates) :
    MovedOut k job target f
      ⟨f₁.row.map (Job.aged sql now pointsPerMinute overflowAllowance), f₁.log⟩ := by
  obtain ⟨reason, values, message, rfl⟩ := hmoves
  obtain ⟨priority, haged⟩ :=
    (job.moved target now reason values).aged_eq sql now pointsPerMinute overflowAllowance
  refine ⟨_, _, rfl, rfl, rfl, ?_⟩
  rw [haged]
  refine ⟨job.moved_state target now reason values, ?_, ?_,
    job.moved_attempt target now reason values, job.moved_queuedAt target now reason values⟩
  · exact (job.moved_leaseOwner target now reason values).trans (if_neg hout)
  · exact (job.moved_leaseExpiresAt target now reason values).trans (if_neg hout)

theorem recoverTarget_eq_some (hstate : job.state ∈ inFlightStates)
    (hown : ¬ ownLease process job = true) : ∃ target,
      recoveryTarget job.state job.idempotent = some target ∧
      recoverTarget process job = some target ∧ target ∉ inFlightStates ∧
      target ≠ .waitingResources := by
  cases htarget : recoveryTarget job.state job.idempotent with
  | none => exact absurd hstate ((recoveryTarget_eq_none_iff _ _).1 htarget)
  | some target =>
      refine ⟨target, rfl, ?_, not_inFlight_of_recoveryTarget htarget, ?_⟩
      · simp [recoverTarget, hown, htarget]
      · rintro rfl
        revert htarget
        cases job.state <;> cases job.idempotent <;> decide

/-- The re-evaluation of a pass: it never fails, moves the waiting rows that may proceed, and
leaves every other file alone. -/
theorem reevaluation_spec (reevaluate : Option (JobId → Bool)) (now : Instant) (db : Db) :
    ∃ db', db.reevaluation reevaluate now = .ok db' ∧
      (∀ k job, db.jobs.lookup k = some job → job.state = .waitingResources →
        (reevaluate.any fun proceed => proceed k) = true →
        File.Moves k now job .queued (db.file k) (db'.file k)) ∧
      ∀ k, (∀ job, db.jobs.lookup k = some job → job.state = .waitingResources →
        (reevaluate.any fun proceed => proceed k) = false) → db'.file k = db.file k := by
  cases reevaluate with
  | none => exact ⟨db, rfl, by simp, fun _ _ => rfl⟩
  | some proceed =>
      obtain ⟨db', hok, hmoved, hkept⟩ := reevaluateWaiting_spec proceed now db
      refine ⟨db', hok, ?_, ?_⟩
      · intro k job hrow hstate hproceed
        simp only [Option.any_some] at hproceed
        simpa [reevaluateTarget, hproceed, File.MovesTo] using
          hmoved k job hrow (decide_eq_true hstate)
      · intro k hk
        cases hrow : db.jobs.lookup k with
        | none => exact hkept k (by simp [hrow])
        | some job =>
            by_cases hstate : job.state = .waitingResources
            · have hproceed := hk job hrow hstate
              simp only [Option.any_some] at hproceed
              simpa [reevaluateTarget, hproceed, File.MovesTo] using
                hmoved k job hrow (decide_eq_true hstate)
            · refine hkept k fun job' hrow' => ?_
              cases hrow.symm.trans hrow'
              exact decide_eq_false hstate

/-- What the sweep makes of a file. -/
def agedFile (sql : SqlArithmetic) (now : Instant) (pointsPerMinute : ℚ) (overflowAllowance : ℤ)
    (f : File) : File :=
  ⟨f.row.map (Job.aged sql now pointsPerMinute overflowAllowance), f.log⟩

theorem agedFile_eq_self {f : File} (h : ∀ job, f.row = some job → job.state ∉ waitingStates) :
    agedFile sql now pointsPerMinute overflowAllowance f = f := by
  obtain ⟨row, log⟩ := f
  cases row with
  | none => rfl
  | some job =>
      exact congrArg (fun job => File.mk (some job) log) (Job.aged_eq_self _ _ _ _ (h job rfl))

theorem recover_passOn {f f₁ : File} (hrow : f.row = some job) (hstate : job.state ∈ inFlightStates)
    (hfile : File.MovesTo k now job (recoverTarget process job) f f₁) :
    PassOn process reevaluate k f (agedFile sql now pointsPerMinute overflowAllowance f₁) ∧
      ∀ job₁, f₁.row = some job₁ → job₁.state ≠ .waitingResources := by
  simp only [PassOn, hrow, hstate, if_true]
  by_cases hown : ownLease process job = true
  · simp only [recoverTarget, hown, if_true, File.MovesTo] at hfile ⊢
    subst hfile
    refine ⟨agedFile_eq_self fun job₁ hrow₁ => ?_, fun job₁ hrow₁ => ?_⟩
    all_goals
      cases hrow.symm.trans hrow₁
      revert hstate
      cases job.state <;> decide
  · obtain ⟨target, hrecovery, htarget, hout, hne⟩ := recoverTarget_eq_some hstate hown
    simp only [htarget, File.MovesTo] at hfile
    simp only [hown, if_false, Bool.false_eq_true]
    refine ⟨⟨target, hrecovery, movedOut_of_moves hfile hout⟩, fun job₁ hrow₁ => ?_⟩
    obtain ⟨reason, values, message, rfl⟩ := hfile
    cases hrow₁
    simpa using hne

theorem waiting_passOn {f f₂ : File} (hrow : f.row = some job)
    (hstate : job.state ∉ inFlightStates)
    (hmoved : job.state = .waitingResources → (reevaluate.any fun proceed => proceed k) = true →
      File.Moves k now job .queued f f₂)
    (hkept : (job.state = .waitingResources →
      (reevaluate.any fun proceed => proceed k) = false) → f₂ = f) :
    PassOn process reevaluate k f (agedFile sql now pointsPerMinute overflowAllowance f₂) := by
  simp only [PassOn, hrow, hstate, if_false]
  split_ifs with hproceed hwaiting
  · exact movedOut_of_moves (hmoved hproceed.1 hproceed.2)
      (show JobState.queued ∉ inFlightStates by decide)
  · rw [hkept fun hstate => by simpa using fun h => hproceed ⟨hstate, h⟩]
    obtain ⟨priority, haged⟩ := job.aged_eq sql now pointsPerMinute overflowAllowance
    exact ⟨rfl, job, priority, hrow, by rw [agedFile, hrow, Option.map_some, haged]⟩
  · rw [hkept fun hstate => by simpa using fun h => hproceed ⟨hstate, h⟩]
    refine agedFile_eq_self fun job' hrow' => ?_
    cases hrow.symm.trans hrow'
    exact hwaiting

/-- **The recovery pass, in its steps.** -/
theorem recoverPass_spec (sql : SqlArithmetic) (process : ℕ)
    (reevaluate : Option (JobId → Bool)) (now : Instant) (pointsPerMinute : ℚ)
    (overflowAllowance : ℤ) (db : Db) : ∃ db₂ : Db,
      db.recoverPass sql process reevaluate now pointsPerMinute overflowAllowance =
        .ok (db₂.ageingSweep sql now pointsPerMinute overflowAllowance) ∧
      ∀ k, PassOn process reevaluate k (db.file k)
        ((db₂.ageingSweep sql now pointsPerMinute overflowAllowance).file k) := by
  obtain ⟨db₁, hok₁, hmoved₁, hkept₁⟩ := recover_files_spec process now db
  obtain ⟨db₂, hok₂, hmoved₂, hkept₂⟩ := reevaluation_spec reevaluate now db₁
  refine ⟨db₂, ?_, fun k => ?_⟩
  · simp only [recoverPass, hok₁, ok_bind, hok₂]
    rfl
  rw [show (db₂.ageingSweep sql now pointsPerMinute overflowAllowance).file k =
    agedFile sql now pointsPerMinute overflowAllowance (db₂.file k) from ageingSweep_file ..]
  cases hrow : db.jobs.lookup k with
  | none =>
      have h₁ := hkept₁ k (by simp [hrow])
      have hrow₁ : db₁.jobs.lookup k = none := (congrArg File.row h₁).trans hrow
      rw [hkept₂ k (by simp [hrow₁]), h₁, agedFile_eq_self fun job hjob => by
        cases hjob.symm.trans hrow]
      simp only [PassOn, file, hrow]
  | some job =>
      by_cases hflight : job.state ∈ inFlightStates
      · obtain ⟨hpass, hne⟩ :=
          recover_passOn hrow hflight (hmoved₁ k job hrow (decide_eq_true hflight))
        rw [hkept₂ k fun job₁ hrow₁ hstate => absurd hstate (hne job₁ hrow₁)]
        exact hpass
      · have h₁ := hkept₁ k fun job' hrow' => by
          cases hrow.symm.trans hrow'
          exact decide_eq_false hflight
        have hrow₁ : db₁.jobs.lookup k = some job := (congrArg File.row h₁).trans hrow
        refine waiting_passOn hrow hflight ?_ ?_
        · intro hstate hproceed
          rw [← h₁]
          exact hmoved₂ k job hrow₁ hstate hproceed
        · intro hnot
          rw [← h₁]
          refine hkept₂ k fun job' hrow' => ?_
          cases hrow₁.symm.trans hrow'
          exact hnot

/-- After a pass every row in flight is the process's own, and no waiting row may proceed. -/
theorem PassOn.settled {f f' : File} (h : PassOn process reevaluate k f f')
    (hrow : f'.row = some job) :
    (job.state ∈ inFlightStates → ownLease process job = true) ∧
      (job.state = .waitingResources → (reevaluate.any fun proceed => proceed k) = false) := by
  have out : ∀ {job₀ target}, MovedOut k job₀ target f f' → target ∉ inFlightStates →
      target ≠ .waitingResources → (job.state ∈ inFlightStates → ownLease process job = true) ∧
      (job.state = .waitingResources → (reevaluate.any fun proceed => proceed k) = false) := by
    rintro job₀ target ⟨job', e, rfl, -, -, rfl, -⟩ hout hne
    cases hrow
    exact ⟨fun hin => absurd hin hout, fun heq => absurd heq hne⟩
  unfold PassOn at h
  split at h
  · next hnone =>
      rw [h] at hrow
      cases hnone.symm.trans hrow
  · next job₀ hrow₀ =>
      split_ifs at h with hflight hown hproceed hwaiting
      · rw [h] at hrow
        cases hrow₀.symm.trans hrow
        refine ⟨fun _ => hown, fun hstate => ?_⟩
        rw [hstate] at hflight
        exact absurd hflight (by decide)
      · obtain ⟨target, htarget, hmoved⟩ := h
        obtain ⟨target', htarget', -, hout, hne⟩ := recoverTarget_eq_some hflight hown
        cases htarget.symm.trans htarget'
        exact out hmoved hout hne
      · exact out h (by decide) (by decide)
      · obtain ⟨-, job₁, priority, hrow₁, hrow'⟩ := h
        cases hrow₀.symm.trans hrow₁
        cases hrow.symm.trans hrow'
        exact ⟨fun hin => absurd hin hflight, fun hstate => by
          simpa using fun h => hproceed ⟨hstate, h⟩⟩
      · rw [h] at hrow
        cases hrow₀.symm.trans hrow
        exact ⟨fun hin => absurd hin hflight, fun hstate => by
          simpa using fun h => hproceed ⟨hstate, h⟩⟩

/-- **Start-up recovery is exact and idempotent.**  Whatever the table, the pass succeeds and does
to every file what `PassOn` says, and a second pass at the same instant changes nothing. -/
theorem recoverPass_exact (sql : SqlArithmetic) (process : ℕ)
    (reevaluate : Option (JobId → Bool)) (now : Instant) (pointsPerMinute : ℚ)
    (overflowAllowance : ℤ) (db : Db) : ∃ db',
      db.recoverPass sql process reevaluate now pointsPerMinute overflowAllowance = .ok db' ∧
      (∀ k, PassOn process reevaluate k (db.file k) (db'.file k)) ∧
      db'.recoverPass sql process reevaluate now pointsPerMinute overflowAllowance = .ok db' := by
  obtain ⟨db₂, hok, hpass⟩ :=
    recoverPass_spec sql process reevaluate now pointsPerMinute overflowAllowance db
  refine ⟨_, hok, hpass, ?_⟩
  have hrecover : (db₂.ageingSweep sql now pointsPerMinute overflowAllowance).recover process now =
      .ok (db₂.ageingSweep sql now pointsPerMinute overflowAllowance) :=
    recover_eq_self fun k job hrow => ((hpass k).settled hrow).1
  have hreevaluation :
      (db₂.ageingSweep sql now pointsPerMinute overflowAllowance).reevaluation reevaluate now =
        .ok (db₂.ageingSweep sql now pointsPerMinute overflowAllowance) := by
    cases reevaluate with
    | none => rfl
    | some proceed =>
        exact reevaluateWaiting_eq_self fun k job hrow => ((hpass k).settled hrow).2
  simp only [recoverPass, hrecover, hreevaluation, ok_bind, ageingSweep_ageingSweep]
  rfl

end Db

end LoadCoach

import LoadCoach.Store.System

/-! # The lease fence

A worker's transactions carry its name in their conditions, so a worker that does not hold a job
changes nothing, however late it wakes up and whatever it still believes (`worker_unleased`).
Only a claim gives a worker a job (`Step.leased`), and a claim takes a row nobody holds; hence
every transaction that took effect belongs to a hold that began with the worker's own claim and
was never interrupted.  A completed job stays completed (`Step.terminal`), so no second worker
completes it. -/

namespace LoadCoach

open Foundations Relation

variable {rack : ModelRack}

/-! ### Predicates on a database -/

namespace Db

/-- The job is leased to the worker. -/
def LeasedTo (w : Owner) (j : JobId) (db : Db) : Prop :=
  ∃ job, db.jobs.lookup j = some job ∧ job.leaseOwner = some w

/-- The job is there, in the given state. -/
def InState (j : JobId) (state : JobState) (db : Db) : Prop :=
  ∃ job, db.jobs.lookup j = some job ∧ job.state = state

variable {db db' : Db} {w : Owner} {j : JobId} {now : Instant}

theorem held_eq_some {job : Job} :
    db.held w j = some job ↔ db.jobs.lookup j = some job ∧ job.leaseOwner = some w := by
  simp [held, Option.filter_eq_some_iff]

theorem leasedTo_of_fencedMove {current target : JobState} {reason : Option String}
    {values : JobData → JobData} {message : String}
    (h : db.fencedMove w j current target now reason values message = .ok db') :
    db.LeasedTo w j := by
  simp only [fencedMove, move, bind_eq_ok] at h
  obtain ⟨db₁, hmove, -⟩ := h
  obtain ⟨job, hrow, -, hfence, -⟩ := track_transition hmove
  exact ⟨job, hrow, (fenced_some w job).1 hfence⟩

theorem leasedTo_of_recordAttempt {record : AttemptRecord} {target : JobState}
    {reason : Option String} (h : recordAttempt w j now db record target reason = .ok db') :
    db.LeasedTo w j := by
  simp only [recordAttempt, bind_eq_ok] at h
  obtain ⟨db₁, hattempt, -⟩ := h
  obtain ⟨job, hrow, hfence, -⟩ := track_writeAttempt hattempt
  exact ⟨job, hrow, (fenced_some w job).1 hfence⟩

/-- **A worker that does not hold the job changes nothing.** -/
theorem worker_unleased {tx : WorkerTx} (h : tx.run w j now db = .ok db')
    (hlease : ¬ db.LeasedTo w j) : db' = db := by
  cases tx with
  | recordFailedAttempt | validateAttempt => exact absurd (leasedTo_of_recordAttempt h) hlease
  | cancelFrom =>
      simp only [WorkerTx.run, cancelFrom] at h
      split at h
      · cases h
      · rename_i job hheld
        exact absurd ⟨job, held_eq_some.1 hheld⟩ hlease
  | failAfterCrash =>
      simp only [WorkerTx.run, failAfterCrash] at h
      split at h
      · exact (Except.ok.inj h).symm
      · rename_i job hheld
        exact absurd ⟨job, held_eq_some.1 hheld⟩ hlease
  | _ => exact absurd (leasedTo_of_fencedMove h) hlease

end Db

/-! ### What the machine says of leases and endings -/

namespace Track

variable {who : Writer} {t t' : Track} {job job' : Job} {w : Owner}

theorem Step.leased (hstep : Step rack who t t') (hrow' : t'.row = some job')
    (howner : job'.leaseOwner = some w) :
    (∃ job, t.row = some job ∧ job.leaseOwner = some w) ∨ who = .claimer w := by
  cases hstep with
  | @move job target _ _ _ hrow =>
      cases hrow'
      rw [Job.moved_leaseOwner] at howner
      split_ifs at howner
      exact .inl ⟨job, hrow, howner⟩
  | @lease job w' _ hwho hrow =>
      cases hrow'
      cases howner
      exact .inr hwho
  | @assign job _ _ hrow hassigned =>
      cases hrow'
      exact .inl ⟨job, hrow, hassigned.leaseOwner.symm.trans howner⟩
  | insert _ hfresh =>
      cases hrow'
      exact absurd (hfresh.leaseOwner.symm.trans howner) (by simp)
  | @record job _ hrow | @renew job _ _ _ hrow | @touch job _ _ _ _ hrow =>
      cases hrow'
      exact .inl ⟨job, hrow, howner⟩

theorem Path.leased (hpath : Path rack who t t') (hrow' : t'.row = some job')
    (howner : job'.leaseOwner = some w) :
    (∃ job, t.row = some job ∧ job.leaseOwner = some w) ∨ who = .claimer w := by
  induction hpath generalizing job' with
  | refl => exact .inl ⟨job', hrow', howner⟩
  | tail _ hstep ih =>
      rcases hstep.leased hrow' howner with ⟨job, hrow, howner⟩ | hwho
      · exact ih hrow howner
      · exact .inr hwho

theorem Step.terminal (hstep : Step rack who t t') (hrow : t.row = some job)
    (hqueued : job.queuedAt.isSome) (hstate : job.state ∈ terminalStates) :
    ∃ job', t'.row = some job' ∧ job'.state = job.state := by
  cases hstep with
  | move _ _ _ hrow₁ hlegal =>
      cases hrow.symm.trans hrow₁
      rw [not_isLegal_of_terminal hstate] at hlegal
      cases hlegal
  | lease _ _ hrow₁ hstate₁ =>
      cases hrow.symm.trans hrow₁
      rw [hstate₁] at hstate
      exact absurd hstate (by decide)
  | assign _ hrow₁ hassigned =>
      cases hrow.symm.trans hrow₁
      simp [hassigned.queuedAt.1] at hqueued
  | insert hnone => exact absurd (hrow.symm.trans hnone) (by simp)
  | record hrow₁ | renew _ _ hrow₁ | touch _ _ _ _ hrow₁ =>
      cases hrow.symm.trans hrow₁
      exact ⟨_, rfl, rfl⟩

theorem Path.terminal (hpath : Path rack who t t') (hrow : t.row = some job)
    (hqueued : job.queuedAt.isSome) (hstate : job.state ∈ terminalStates) :
    ∃ job', t'.row = some job' ∧ job'.state = job.state := by
  induction hpath with
  | refl => exact ⟨job, hrow, rfl⟩
  | @tail t₁ t₂ hpath₁ hstep ih =>
      obtain ⟨job₁, hrow₁, hsame⟩ := ih
      obtain ⟨job₁', hrow₁', hkept⟩ := Path.kept hpath₁ hrow
      cases hrow₁.symm.trans hrow₁'
      obtain ⟨job₂, hrow₂, hsame₂⟩ :=
        hstep.terminal hrow₁ (hkept.queuedAt ▸ hqueued) (hsame ▸ hstate)
      exact ⟨job₂, hrow₂, hsame₂.trans hsame⟩

theorem Step.attempts (hstep : Step rack who t t') (hrow : t.row = some job)
    (hqueued : job.queuedAt.isSome) : t'.attempts = t.attempts ∨ ∃ w, who = .worker w := by
  cases hstep with
  | record hrow₁ hmay =>
      cases hrow.symm.trans hrow₁
      cases who with
      | worker w => exact .inr ⟨w, rfl⟩
      | synchronous =>
          have hnone : job.queuedAt = none := hmay
          simp [hnone] at hqueued
      | _ => exact hmay.elim
  | _ => exact .inl rfl

theorem Path.attempts (hpath : Path rack who t t') (hrow : t.row = some job)
    (hqueued : job.queuedAt.isSome) : t'.attempts = t.attempts ∨ ∃ w, who = .worker w := by
  induction hpath with
  | refl => exact .inl rfl
  | tail hpath₁ hstep ih =>
      obtain ⟨job₁, hrow₁, hkept⟩ := Path.kept hpath₁ hrow
      rcases ih with hsame | hworker
      · rcases hstep.attempts hrow₁ (hkept.queuedAt ▸ hqueued) with hsame₁ | hworker
        · exact .inl (hsame₁.trans hsame)
        · exact .inr hworker
      · exact .inr hworker

end Track

/-! ### The fence -/

namespace Store

variable {h : List (Foundations.Step Store Op)} {s : Store}

/-- A step of worker `w` on job `j`. -/
def WorkerStep (w : Owner) (j : JobId) (e : Foundations.Step Store Op) : Prop :=
  ∃ now tx, e.act = .worker w j now tx

/-- A claim that gave job `j` to worker `w`. -/
def ClaimStep (w : Owner) (j : JobId) (e : Foundations.Step Store Op) : Prop :=
  (∃ now leaseSeconds pick affinity, e.act = .claim w now leaseSeconds pick affinity) ∧
    ¬ e.pre.db.LeasedTo w j ∧ e.post.db.LeasedTo w j

/-- A worker's step that completed job `j`. -/
def CompletingStep (j : JobId) (e : Foundations.Step Store Op) : Prop :=
  (∃ w, WorkerStep w j e) ∧ ¬ e.pre.db.InState j .completed ∧ e.post.db.InState j .completed

theorem workerStep_effect {w : Owner} {j : JobId} {e : Foundations.Step Store Op}
    (hrun : Run (system rack) h s) (he : e ∈ h) (hworker : WorkerStep w j e) :
    (¬ e.pre.db.LeasedTo w j → e.post = e.pre) ∧
      ∀ k, k ≠ j → e.post.db.track k = e.pre.db.track k := by
  obtain ⟨now, tx, hact⟩ := hworker
  obtain ⟨-, hpost⟩ := hrun.next_of_mem he
  rw [hact] at hpost
  rcases after_cases rack e.pre (.worker w j now tx) with
    ⟨-, -, hsame⟩ | ⟨db, htx, hdb, hsync⟩
  · rw [hpost, hsame]
    exact ⟨fun _ => rfl, fun _ _ => rfl⟩
  · have hwrites : Db.WritesTo rack (.worker w) j e.pre.db db := Db.workerTx_writes htx
    rw [hpost, hdb]
    refine ⟨fun hlease => ?_, hwrites.frame⟩
    have hunchanged : db = e.pre.db := Db.worker_unleased htx hlease
    unfold after
    rw [htx, hunchanged]
    rfl

/-- **A worker that holds a job claimed it, and has held it ever since.** -/
theorem claimed_of_leasedTo {w : Owner} {j : JobId} (hrun : Run (system rack) h s)
    (hlease : s.db.LeasedTo w j) :
    ∃ h₁ e h₂, h = h₁ ++ e :: h₂ ∧ ClaimStep w j e ∧ ∀ e' ∈ h₁, e'.post.db.LeasedTo w j := by
  obtain ⟨h₁, e, h₂, rfl, hbefore, hafter, hsince⟩ :=
    hrun.since (P := fun s => s.db.LeasedTo w j)
      (by rintro _ rfl ⟨job, hrow, -⟩; cases hrow) hlease
  refine ⟨h₁, e, h₂, rfl, ⟨?_, hbefore, hafter⟩, hsince⟩
  obtain ⟨job, hrow, howner⟩ := hafter
  have hwrites := writes_of_mem hrun (List.mem_append_right h₁ List.mem_cons_self)
  rcases (hwrites j).leased hrow howner with hleased | hwho
  · exact absurd hleased hbefore
  · cases hact : e.act <;> simp only [hact, Op.writer, reduceCtorEq, Writer.claimer.injEq] at hwho
    subst hwho
    exact ⟨_, _, _, _, rfl⟩

theorem workerStep_of_writer {w : Owner} {e : Foundations.Step Store Op}
    (hwho : e.act.writer = .worker w) : ∃ j, WorkerStep w j e := by
  cases hact : e.act <;> simp only [hact, Op.writer, reduceCtorEq, Writer.worker.injEq] at hwho
  subst hwho
  exact ⟨_, _, _, hact⟩

theorem completed_since {j : JobId} {h₁ h₂ : List (Foundations.Step Store Op)}
    {e : Foundations.Step Store Op} (hrun : Run (system rack) (h₁ ++ e :: h₂) s)
    (he : CompletingStep j e) :
    ∀ e' ∈ h₁, e'.pre.db.InState j .completed ∧ e'.post.db.InState j .completed := by
  obtain ⟨⟨w, hworker⟩, hbefore, job, hrow, hstate⟩ := he
  have hmem : e ∈ h₁ ++ e :: h₂ := List.mem_append_right h₁ List.mem_cons_self
  -- the row was leased, so it went through the queue
  have hlease : e.pre.db.LeasedTo w j := by
    by_contra hlease
    rw [(workerStep_effect hrun hmem hworker).1 hlease] at hrow
    exact hbefore ⟨job, hrow, hstate⟩
  obtain ⟨job₀, hrow₀, howner₀⟩ := hlease
  have hqueued₀ := (sound hrun.past.1 j).queued job₀ hrow₀ (by simp [howner₀])
  obtain ⟨job₁, hrow₁, hkept⟩ := (writes_of_mem hrun hmem j).kept hrow₀
  cases hrow.symm.trans hrow₁
  have hstable := hrun.stable
    (P := fun s => ∃ job, s.db.jobs.lookup j = some job ∧ job.queuedAt.isSome ∧
      job.state = .completed)
    ⟨job, hrow, hkept.queuedAt ▸ hqueued₀, hstate⟩ ?_
  · intro e' he'
    obtain ⟨⟨job, hrow, -, hstate⟩, job', hrow', -, hstate'⟩ := hstable.2 e' he'
    exact ⟨⟨job, hrow, hstate⟩, job', hrow', hstate'⟩
  · rintro e' he' ⟨job, hrow, hqueued, hstate⟩
    have hpath := writes_of_mem hrun (List.mem_append_left _ he') j
    obtain ⟨job', hrow', hsame⟩ := hpath.terminal hrow hqueued (by rw [hstate]; decide)
    obtain ⟨job'', hrow'', hkept⟩ := hpath.kept hrow
    cases hrow'.symm.trans hrow''
    exact ⟨job', hrow', hkept.queuedAt ▸ hqueued, hsame.trans hstate⟩

/-- **The lease fence.**  In every run: a worker's step changes nothing unless the worker holds
the job, touches no other job, and if it changed anything belongs to a hold the worker's own
claim began and nobody interrupted; only the holder adds an attempt to a queued job; no job is
completed twice; and a row has both halves of a lease or neither, and only while it is in
flight. -/
theorem lease_fence (hrun : Run (system rack) h s) :
    (∀ h₁ e h₂, h = h₁ ++ e :: h₂ → ∀ w j, WorkerStep w j e →
      (¬ e.pre.db.LeasedTo w j → e.post = e.pre) ∧
      (∀ k, k ≠ j → e.post.db.track k = e.pre.db.track k) ∧
      (e.post ≠ e.pre → ∃ h₃ c h₄, h₂ = h₃ ++ c :: h₄ ∧ ClaimStep w j c ∧
        ∀ e' ∈ h₃, e'.post.db.LeasedTo w j)) ∧
    (∀ e ∈ h, ∀ j job, e.pre.db.jobs.lookup j = some job → job.queuedAt.isSome →
      (e.post.db.track j).attempts ≠ (e.pre.db.track j).attempts →
      ∃ w, WorkerStep w j e ∧ e.pre.db.LeasedTo w j) ∧
    (∀ j h₁ e h₂, h = h₁ ++ e :: h₂ → CompletingStep j e →
      ∀ e' ∈ h₁, ¬ CompletingStep j e') ∧
    (∀ j job, s.db.jobs.lookup j = some job →
      (job.leaseOwner = none ↔ job.leaseExpiresAt = none) ∧
      (job.leaseOwner ≠ none → job.state ∈ inFlightStates)) := by
  refine ⟨?_, ?_, ?_, ?_⟩
  · rintro h₁ e h₂ rfl w j hworker
    obtain ⟨hfence, hframe⟩ :=
      workerStep_effect hrun (List.mem_append_right h₁ List.mem_cons_self) hworker
    refine ⟨hfence, hframe, fun hchanged => ?_⟩
    by_contra hclaim
    refine hchanged (hfence fun hlease => hclaim ?_)
    obtain ⟨h₃, c, h₄, hh₂, hclaimed⟩ := claimed_of_leasedTo hrun.past.1 hlease
    exact ⟨h₃, c, h₄, hh₂, hclaimed⟩
  · intro e he j job hrow hqueued hchanged
    rcases (writes_of_mem hrun he j).attempts hrow hqueued with hsame | ⟨w, hwho⟩
    · exact absurd hsame hchanged
    · obtain ⟨k, hworker⟩ := workerStep_of_writer hwho
      obtain ⟨hfence, hframe⟩ := workerStep_effect hrun he hworker
      by_cases hjob : j = k
      · subst hjob
        refine ⟨w, hworker, ?_⟩
        by_contra hlease
        rw [hfence hlease] at hchanged
        exact hchanged rfl
      · exact absurd (congrArg Track.attempts (hframe j hjob)) hchanged
  · rintro j h₁ e h₂ rfl hcompleting e' he' hcompleting'
    exact hcompleting'.2.1 (completed_since hrun hcompleting e' he').1
  · intro j job hrow
    have hsound := sound hrun j
    refine ⟨?_, fun howner => hsound.inFlight job hrow (Option.isSome_iff_ne_none.2 howner)⟩
    rw [← Option.not_isSome_iff_eq_none, ← Option.not_isSome_iff_eq_none,
      hsound.paired job hrow]

/-- A lease that is reaped, and its job taken over. -/
def takeover : List Op :=
  [.enqueue 0 (promptSubmission true) ("chat", "1") none 0 {},
   .claim ⟨0, 0⟩ 0 60 0 none,
   .reapExpiredLeases (seconds 100),
   .claim ⟨0, 1⟩ (seconds 100) 60 0 none]

theorem takeover_run : Run (system documentedRack) (trace (after documentedRack) {} takeover)
    (takeover.foldl (after documentedRack) {}) :=
  .replay ⟨promptSubmission_accepted true, trivial, trivial, trivial, trivial⟩

/-- The first worker wakes up after the takeover and admits the job: nothing changes. -/
theorem lease_fence_takeover :
    (takeover.foldl (after documentedRack) {}).db.LeasedTo ⟨0, 1⟩ 0 ∧
      (takeover.foldl (after documentedRack) {}).after documentedRack
          (.worker ⟨0, 0⟩ 0 (seconds 101) (.admitOn { modelId := "m" })) =
        takeover.foldl (after documentedRack) {} := by
  refine ⟨⟨_, rfl, rfl⟩, ?_⟩
  have hlate := run_step takeover_run
    (.worker ⟨0, 0⟩ 0 (seconds 101) (.admitOn { modelId := "m" })) trivial
  refine ((lease_fence hlate).1 [] _ _ rfl ⟨0, 0⟩ 0 ⟨_, _, rfl⟩).1 ?_
  rintro ⟨job, hrow, howner⟩
  cases hrow
  cases howner

end Store

end LoadCoach

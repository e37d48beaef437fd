import LoadCoach.Store.Attempts
import LoadCoach.Worker.Invariants

/-! # What a worker knows of its job

A worker works from its own copy of the job, taken when it claimed it, and everyone else writes
the row meanwhile.  Two facts survive that.

* `backed`: the job has a row, the row went through the queue, and its bound on attempts is the
  one the worker was given.
* `counts`: as long as the row is leased to the worker, its counter is the number of attempts the
  worker counts on (`Point.count?`), and the worker's unsettled call is the next one.

The second holds because whoever else writes a leased row neither gives the worker a lease nor
counts an attempt (`Path.held`), and the worker's own transaction writes the attempt it says it
writes or raises. -/

namespace LoadCoach

open Foundations Relation

variable {rack : ModelRack}

/-! ### A leased row under the other writers -/

namespace Track

variable {who : Writer} {t t' : Track} {job' : Job} {w : Owner}

/-- A row leased to a worker after somebody else's statement was leased to it before, with the
same counter. -/
theorem Step.held (hsound : t.Sound rack) (hstep : Step rack who t t')
    (hrow' : t'.row = some job') (howner : job'.leaseOwner = some w)
    (hworker : who ≠ .worker w) (hclaimer : who ≠ .claimer w) :
    ∃ job, t.row = some job ∧ job.leaseOwner = some w ∧ job.attempt = job'.attempt := by
  cases hstep with
  | @move job target _ _ _ hrow =>
      cases hrow'
      rw [Job.moved_leaseOwner] at howner
      split_ifs at howner
      exact ⟨job, hrow, howner, by simp⟩
  | @record job row hrow hmay =>
      cases hrow'
      have hleased : job.leaseOwner = some w := howner
      cases who with
      | worker w' =>
          have hholder : job.leaseOwner = some w' := hmay
          rw [hleased, Option.some.injEq] at hholder
          exact absurd (congrArg Writer.worker hholder.symm) hworker
      | synchronous =>
          have hqueued := hsound.queued job hrow (by simp [hleased])
          have hnone : job.queuedAt = none := hmay
          simp [hnone] at hqueued
      | _ => exact hmay.elim
  | @lease job w' _ hwho =>
      cases hrow'
      cases howner
      exact absurd hwho hclaimer
  | @assign job _ _ hrow hassigned =>
      cases hrow'
      exact ⟨job, hrow, hassigned.leaseOwner.symm.trans howner, hassigned.attempt.symm⟩
  | insert _ hfresh =>
      cases hrow'
      exact absurd (hfresh.leaseOwner.symm.trans howner) (by simp)
  | @renew job _ _ _ hrow | @touch job _ _ _ _ hrow =>
      cases hrow'
      exact ⟨job, hrow, howner, rfl⟩

theorem Path.held (hsound : t.Sound rack) (hpath : Path rack who t t')
    (hrow' : t'.row = some job') (howner : job'.leaseOwner = some w)
    (hworker : who ≠ .worker w) (hclaimer : who ≠ .claimer w) :
    ∃ job, t.row = some job ∧ job.leaseOwner = some w ∧ job.attempt = job'.attempt := by
  induction hpath generalizing job' with
  | refl => exact ⟨job', hrow', howner, rfl⟩
  | tail hpath₁ hstep ih =>
      have hsound₁ := Path.sound hpath₁ hsound
      obtain ⟨job₁, hrow₁, howner₁, hattempt₁⟩ :=
        hstep.held hsound₁ hrow' howner hworker hclaimer
      obtain ⟨job, hrow, howner, hattempt⟩ := ih hrow₁ howner₁
      exact ⟨job, hrow, howner, hattempt.trans hattempt₁⟩

end Track

/-! ### The job at a point -/

namespace Point

variable {p : Point} {totalMs : ℤ} {e : ClaimedJob × WorkerTx}

theorem readmitJob_job? (l : AttemptLoop) (reason : String) :
    (readmitJob l reason).job? = some l.job := by
  unfold readmitJob
  split_ifs <;> rfl

theorem probeBusy_job? (l : AttemptLoop) : (probeBusy l).job? = some l.job := by
  unfold probeBusy
  dsimp only
  split <;> rfl

theorem enter_job? (l : AttemptLoop) : (enter l).job? = some l.job := by
  unfold enter
  dsimp only
  split_ifs
  · rfl
  · exact readmitJob_job? _ _

theorem decided_job? (l : AttemptLoop) (o : AttemptOutcome) :
    (decided l o).job? = some l.job := by
  unfold decided
  dsimp only
  split
  · rfl
  · split_ifs
    · rfl
    · exact readmitJob_job? _ _
  · split <;> rfl

theorem committed_job? (p : Point) : p.committed.job? = p.job? := by
  cases p with
  | recording l o =>
      simp only [committed]
      split_ifs <;> rfl
  | _ => rfl

theorem raised_job? {x : Raised} (htx : p.tx totalMs = some e) : (p.raised x).job? = p.job? := by
  have hjob := job?_of_tx htx
  cases p with
  | crashed => rfl
  | _ =>
      simp only [raised, hjob]
      split_ifs <;> rfl

end Point

namespace World

variable {s : World} {a : Act} {w : Owner} {j : JobId} {h : List (Foundations.Step World Act)}

/-! ### A step of the workers, in the store -/

theorem run_step (hrun : Run (system rack) h s) (a : Act) (ha : s.Enabled rack a) :
    Run (system rack) (⟨s, a, s.after rack a⟩ :: h) (s.after rack a) :=
  hrun.step ⟨ha, rfl⟩

theorem sound (hrun : Run (system rack) h s) (j : JobId) : (s.store.db.track j).Sound rack :=
  Store.sound ((simulation rack).run hrun) j

/-- What an act does to the database is a path of every job's machine. -/
theorem after_writes (hrun : Run (system rack) h s) (henabled : s.Enabled rack a) {op : Op}
    (hop : s.op a = some op) : s.store.db.Writes rack op.writer (s.after rack a).store.db := by
  have hrows := Store.syncRows ((simulation rack).run hrun)
  rw [after_store, hop]
  exact Store.after_writes hrows (op_enabled henabled hop)

theorem after_quiet (hop : s.op a = none) : (s.after rack a).store = s.store := by
  rw [after_store, hop]

theorem after_commit {now : Instant} {totalMs : ℤ} {e : ClaimedJob × WorkerTx} {db : Db}
    (htx : (s.point w).tx totalMs = some e) (hrun : e.2.run w e.1.jobId now s.store.db = .ok db) :
    (s.after rack (.commit w now totalMs)).store.db = db := by
  simp [after_store, World.op, htx, Store.after, Op.run, hrun]

theorem after_refused {now : Instant} {totalMs : ℤ} {e : ClaimedJob × WorkerTx} {x : Raised}
    (htx : (s.point w).tx totalMs = some e)
    (hrun : e.2.run w e.1.jobId now s.store.db = .error x) :
    (s.after rack (.commit w now totalMs)).store = s.store := by
  simp [after_store, World.op, htx, Store.after, Op.run, hrun]

theorem after_kept (hrun : Run (system rack) h s) (henabled : s.Enabled rack a) {row : Job}
    (hrow : s.store.db.jobs.lookup j = some row) :
    ∃ row', (s.after rack a).store.db.jobs.lookup j = some row' ∧ row.Kept row' := by
  cases hop : s.op a with
  | none => exact ⟨row, by rw [after_quiet hop, hrow], .refl row⟩
  | some op => exact (after_writes hrun henabled hop j).kept hrow

theorem writer_cases {op : Op} (henabled : s.Enabled rack a) (hop : s.op a = some op) :
    (∃ w now totalMs e, op.writer = .worker w ∧ a = .commit w now totalMs ∧
      (s.point w).tx totalMs = some e) ∨
    (∃ w, op.writer = .claimer w ∧ s.point w = .idle) ∨
    ∀ w, op.writer ≠ .worker w ∧ op.writer ≠ .claimer w := by
  cases a with
  | store op' =>
      cases hop
      obtain ⟨hexternal, -⟩ := henabled
      refine .inr (.inr fun w => ?_)
      cases op <;> simp_all [Op.writer, Op.External]
  | claim w' now leaseSeconds pick affinity =>
      simp only [World.op] at hop
      split at hop <;> cases hop
      exact .inr (.inl ⟨w', rfl, ‹_›⟩)
  | commit w' now totalMs =>
      obtain ⟨e, htx, rfl⟩ := Option.map_eq_some_iff.1 hop
      exact .inl ⟨w', now, totalMs, e, rfl, rfl, htx⟩
  | keeperRenew process now leaseSeconds =>
      simp only [World.op] at hop
      split at hop <;> cases hop
      exact .inr (.inr fun w => ⟨by simp [Op.writer], by simp [Op.writer]⟩)
  | _ => cases hop

/-- A transaction under a worker's name is the one at its point. -/
theorem commit_of_writer {op : Op} (henabled : s.Enabled rack a) (hop : s.op a = some op)
    (hwho : op.writer = .worker w) : ∃ now totalMs e, a = .commit w now totalMs ∧
      (s.point w).tx totalMs = some e := by
  obtain ⟨w', now, totalMs, e, hwriter, hact, htx⟩ | ⟨w', hwriter, -⟩ | hneither :=
    writer_cases henabled hop
  · obtain rfl : w' = w := Writer.worker.inj (hwriter.symm.trans hwho)
    exact ⟨now, totalMs, e, hact, htx⟩
  · cases hwriter.symm.trans hwho
  · exact absurd hwho (hneither w).1

/-- A claim under a worker's name is made where its program makes one. -/
theorem idle_of_writer {op : Op} (henabled : s.Enabled rack a) (hop : s.op a = some op)
    (hwho : op.writer = .claimer w) : s.point w = .idle := by
  obtain ⟨w', now, totalMs, e, hwriter, -, -⟩ | ⟨w', hwriter, hidle⟩ | hneither :=
    writer_cases henabled hop
  · cases hwriter.symm.trans hwho
  · obtain rfl : w' = w := Writer.claimer.inj (hwriter.symm.trans hwho)
    exact hidle
  · exact absurd hwho (hneither w).2

/-! ### The row behind a worker's job -/

/-- The job has a row that went through the queue, with the bound the worker was given. -/
def Backed (s : World) (job : ClaimedJob) : Prop :=
  ∃ row, s.store.db.jobs.lookup job.jobId = some row ∧ row.queuedAt.isSome ∧
    row.maxAttempts = job.maxAttempts

theorem Backed.after {job : ClaimedJob} (hrun : Run (system rack) h s)
    (henabled : s.Enabled rack a) (hbacked : s.Backed job) : (s.after rack a).Backed job := by
  obtain ⟨row, hrow, hqueued, hmax⟩ := hbacked
  obtain ⟨row', hrow', hkept⟩ := after_kept hrun henabled hrow
  refine ⟨row', hrow', ?_, ?_⟩
  · rw [hkept.queuedAt]
    exact hqueued
  · rw [hkept.maxAttempts hqueued, hmax]

theorem advanced_job? (s : World) (w : Owner) : (s.advanced w).job? = (s.point w).job? := by
  unfold advanced
  cases s.point w <;> dsimp only
  case deciding l o => exact Point.decided_job? l o
  all_goals
    split_ifs <;> rfl

/-- A worker stays on its job from the claim to the removal of its entry. -/
theorem Moves.job?_cases {p : Point} {call : Option ProviderCall}
    (hmoves : Moves rack s w a p call) :
    p.job? = (s.point w).job? ∨
      (∃ job now leaseSeconds pick affinity db, a = .claim w now leaseSeconds pick affinity ∧
        s.point w = .idle ∧ p = .claimed job ∧
        s.store.db.claim rack w now leaseSeconds pick affinity = .ok (some job, db)) ∨
      ∃ job, a = .leave w ∧ s.point w = .leaving job ∧ p = .idle := by
  cases hmoves with
  | claim hpoint hclaim => exact .inr (.inl ⟨_, _, _, _, _, _, rfl, hpoint, rfl, hclaim⟩)
  | leave hpoint => exact .inr (.inr ⟨_, rfl, hpoint, rfl⟩)
  | stay => exact .inl rfl
  | raise hjob => exact .inl hjob.symm
  | register hpoint | answer hpoint | raiseCall hpoint =>
      rw [hpoint]
      exact .inl rfl
  | @route _ verdict hpoint =>
      rw [hpoint]
      cases verdict <;> exact .inl rfl
  | @probe l busy hpoint =>
      rw [hpoint]
      cases busy
      · exact .inl (Point.enter_job? l)
      · exact .inl (Point.probeBusy_job? l)
  | advance => exact .inl (advanced_job? s w)
  | commit => exact .inl (Point.committed_job? _)
  | refuse htx => exact .inl (Point.raised_job? htx)

/-- **The job a worker is on has its row.** -/
theorem backed (hrun : Run (system rack) h s) {job : ClaimedJob}
    (hjob : (s.point w).job? = some job) : s.Backed job := by
  induction hrun generalizing job with
  | start hs =>
      rw [Set.mem_singleton_iff.1 hs] at hjob
      cases hjob
  | @step h s _ a hpast hnext ih =>
      obtain ⟨henabled, rfl⟩ := hnext
      rcases (moves rack s a w).job?_cases with hsame |
        ⟨job', now, leaseSeconds, pick, affinity, db, rfl, -, hpoint, hclaim⟩ | ⟨_, -, -, hpoint⟩
      · exact (ih (hsame.symm.trans hjob)).after hpast henabled
      · rw [hpoint] at hjob
        cases hjob
        refine Backed.after hpast henabled ?_
        rcases Db.claim_spec hclaim with ⟨hnone, -⟩ | ⟨claimedJob, row, hresult, hspec⟩
        · cases hnone
        · cases hresult
          obtain ⟨hrow, -, hqueued, -, hmax, -⟩ := hspec
          exact ⟨row, hrow, hqueued, hmax.symm⟩
      · rw [hpoint] at hjob
        cases hjob

end World

/-! ### The attempts a worker counts on -/

namespace Point

/-- The attempts of its job that a worker at the point knows to be written. -/
def count? : Point → Option ℕ
  | idle | cancelling .. | crashed .. | leaving _ => none
  | claimed job | checking job | routing job | deferring job .. | failingAdmission job .. =>
      some job.attempt
  | admitting l | checkingAdmitted l | gate l | requeueing l | startingRetry l _ | resuming l _
  | readmitting l _ | counting l | failing l _ | deciding l _ | completing l _ =>
      some l.attemptNumber
  | checkingToken l | checkingRow l | starting l | calling l | settling l _ | recording l _ =>
      some (l.attemptNumber - 1)

/-- The counter is the one the worker counts on, and its unsettled call is the next attempt. -/
def Agrees (p : Point) (call : Option ProviderCall) (attempt : ℕ) : Prop :=
  (∀ n ∈ p.count?, attempt = n) ∧ ∀ c ∈ call, c.number = attempt + 1

variable {p : Point} {n : ℕ}

theorem Agrees.of_count {p' : Point} {call : Option ProviderCall} (h : p.Agrees call n)
    (hcount : p'.count? = p.count?) : p'.Agrees call n := by
  refine ⟨?_, h.2⟩
  rw [hcount]
  exact h.1

theorem readmitJob_count? (l : AttemptLoop) (reason : String) :
    (readmitJob l reason).count? = some l.attemptNumber := by
  unfold readmitJob
  split_ifs <;> rfl

theorem probeBusy_count? (l : AttemptLoop) : (probeBusy l).count? = some l.attemptNumber := by
  unfold probeBusy
  dsimp only
  split <;> rfl

theorem enter_count? (l : AttemptLoop) : (enter l).count? = some l.attemptNumber := by
  unfold enter
  dsimp only
  split_ifs
  · rfl
  · exact readmitJob_count? _ _

theorem raised_count? {totalMs : ℤ} {e : ClaimedJob × WorkerTx} (x : Raised)
    (htx : p.tx totalMs = some e) : (p.raised x).count? = none := by
  have hjob := job?_of_tx htx
  cases p with
  | crashed => rfl
  | _ =>
      simp only [raised, hjob]
      split_ifs <;> rfl

theorem decided_agrees {l : AttemptLoop} {o : AttemptOutcome} (hcount : n = l.attemptNumber) :
    (decided l o).Agrees none n := by
  refine ⟨?_, by simp⟩
  unfold decided
  dsimp only
  split
  · simp [count?]
  · split_ifs
    · simpa [count?] using hcount
    · simpa [readmitJob_count?] using hcount
  · split <;> simpa [count?] using hcount

theorem calling_next {l : AttemptLoop} {call : Option ProviderCall}
    (hvalid : (calling l).Valid call) (h : (calling l).Agrees call n) :
    l.attemptNumber = n + 1 := by
  have hcount : n = l.attemptNumber - 1 := h.1 _ rfl
  have hpos : 0 < l.attemptNumber := hvalid.2.2.1
  omega

theorem committed_agrees {call : Option ProviderCall} {totalMs : ℤ} {e : ClaimedJob × WorkerTx}
    (htx : p.tx totalMs = some e) (hvalid : p.Valid call) (h : p.Agrees call n) :
    p.committed.Agrees none (n + e.2.written.toList.length) := by
  refine ⟨?_, by simp⟩
  cases p with
  | admitting | startingRetry | readmitting | starting =>
      cases htx
      exact h.1
  | recording l o =>
      obtain ⟨-, -, hcounted, -⟩ := hvalid
      have hcount : n = l.attemptNumber - 1 := h.1 _ rfl
      have hpos : 0 < l.attemptNumber := hcounted.1
      have hwritten : n + e.2.written.toList.length = l.attemptNumber := by
        cases htx
        dsimp only
        split_ifs <;> simp only [WorkerTx.written, Option.toList_some, List.length_singleton] <;>
          omega
      rw [hwritten]
      simp only [committed]
      split_ifs <;> simp [count?]
  | deferring | failingAdmission | requeueing | completing | failing | cancelling | crashed =>
      simp [committed, count?]
  | _ => cases htx

end Point

namespace World

variable {s : World} {a : Act} {w : Owner} {j : JobId} {h : List (Foundations.Step World Act)}

theorem advanced_agrees {n : ℕ} (hvalid : (s.point w).Valid (s.calls w))
    (h : (s.point w).Agrees (s.calls w) n) : (s.advanced w).Agrees (s.calls w) n := by
  unfold advanced
  cases hpoint : s.point w <;> rw [hpoint] at h hvalid <;> dsimp only
  case deciding l o =>
    rw [hvalid.1]
    exact Point.decided_agrees (h.1 _ rfl)
  case counting =>
    split_ifs <;> exact h
  case checking | checkingAdmitted | resuming | checkingToken | checkingRow | settling =>
    split_ifs
    · exact ⟨by simp [Point.count?], h.2⟩
    · exact h
  all_goals exact h

theorem Moves.agrees {p : Point} {call : Option ProviderCall} {n : ℕ}
    (hmoves : Moves rack s w a p call) (hop : s.op a = none)
    (hvalid : (s.point w).Valid (s.calls w)) (h : (s.point w).Agrees (s.calls w) n) :
    p.Agrees call n := by
  cases hmoves with
  | stay => exact h
  | claim hpoint => simp [World.op, hpoint] at hop
  | commit htx | refuse htx => simp [World.op, htx] at hop
  | register hpoint =>
      rw [hpoint] at h
      exact h
  | @route job verdict hpoint =>
      rw [hpoint] at h
      cases verdict <;> exact h
  | @probe l busy hpoint =>
      rw [hpoint] at h
      cases busy
      · exact h.of_count (Point.enter_count? l)
      · exact h.of_count (Point.probeBusy_count? l)
  | advance => exact advanced_agrees hvalid h
  | @answer l _ hpoint =>
      rw [hpoint] at h hvalid
      exact ⟨by simpa [Point.count?] using h.1, by simpa using Point.calling_next hvalid h⟩
  | @raiseCall l _ _ hpoint =>
      rw [hpoint] at h hvalid
      exact ⟨by simp [Point.count?], by simpa using Point.calling_next hvalid h⟩
  | raise => exact ⟨by simp [Point.count?], h.2⟩
  | leave => exact ⟨by simp [Point.count?], h.2⟩

/-- What a worker would count on at a point is what the row of its job says, if the row is leased
to it. -/
def Counts (s : World) (w : Owner) (p : Point) (call : Option ProviderCall) : Prop :=
  ∀ job row, p.job? = some job → s.store.db.jobs.lookup job.jobId = some row →
    row.leaseOwner = some w → p.Agrees call row.attempt

/-- A committed transaction of a worker: the row it leaves counts what the transaction wrote. -/
theorem Counts.committed {now : Instant} {totalMs : ℤ} {e : ClaimedJob × WorkerTx} {db : Db}
    (htx : (s.point w).tx totalMs = some e) (hrun : e.2.run w e.1.jobId now s.store.db = .ok db)
    (hvalid : (s.point w).Valid (s.calls w)) (hcounts : s.Counts w (s.point w) (s.calls w))
    {job : ClaimedJob} {row : Job} (hjob : (s.point w).committed.job? = some job)
    (hrow : db.jobs.lookup job.jobId = some row) (howner : row.leaseOwner = some w) :
    (s.point w).committed.Agrees none row.attempt := by
  rw [Point.committed_job?] at hjob
  cases hjob.symm.trans (Point.job?_of_tx htx)
  by_cases hlease : s.store.db.LeasedTo w e.1.jobId
  · obtain ⟨row₀, hrow₀, howner₀⟩ := hlease
    obtain ⟨row₁, row₂, hrow₁, hrow₂, hattempt, -⟩ :=
      Db.workerTx_wrote hrun ⟨row₀, hrow₀, howner₀⟩
    cases hrow₁.symm.trans hrow₀
    cases hrow₂.symm.trans hrow
    rw [hattempt]
    exact Point.committed_agrees htx hvalid (hcounts e.1 row₀ hjob hrow₀ howner₀)
  · rw [Db.worker_unleased hrun hlease] at hrow
    exact absurd ⟨row, hrow, howner⟩ hlease

/-- **Every step keeps what a worker counts on.** -/
theorem Moves.counts {p : Point} {call : Option ProviderCall} (hpast : Run (system rack) h s)
    (henabled : s.Enabled rack a) (hmoves : Moves rack s w a p call)
    (hcounts : s.Counts w (s.point w) (s.calls w)) : (s.after rack a).Counts w p call := by
  intro job row hjob hrow howner
  have hvalid := World.valid hpast w
  have hlocal : s.op a = none → (s.point w).job? = some job → p.Agrees call row.attempt := by
    intro hop hbefore
    rw [after_quiet hop] at hrow
    exact hmoves.agrees hop hvalid (hcounts job row hbefore hrow howner)
  have hbefore := hmoves.job?_cases
  cases hmoves with
  | stay hcommit =>
      cases hop : s.op a with
      | none => exact hlocal hop hjob
      | some op =>
          have hworker : op.writer ≠ .worker w := by
            intro hwho
            obtain ⟨now, totalMs, e, hact, htx⟩ := commit_of_writer henabled hop hwho
            simp [hcommit now totalMs hact] at htx
          have hclaimer : op.writer ≠ .claimer w := by
            intro hwho
            rw [idle_of_writer henabled hop hwho] at hjob
            cases hjob
          obtain ⟨row₀, hrow₀, howner₀, hattempt⟩ :=
            (after_writes hpast henabled hop job.jobId).held (sound hpast job.jobId) hrow howner
              hworker hclaimer
          rw [← hattempt]
          exact hcounts job row₀ hjob hrow₀ howner₀
  | @claim now leaseSeconds pick affinity claimedJob db hpoint hclaim =>
      cases hjob
      have hafter : (s.after rack (.claim w now leaseSeconds pick affinity)).store.db = db := by
        simp [after_store, World.op, hpoint, Store.after, Op.run, hclaim, Except.map]
      rw [hafter] at hrow
      rcases Db.claim_spec hclaim with ⟨hnone, -⟩ | ⟨job', row₀, hresult, hspec⟩
      · cases hnone
      · cases hresult
        obtain ⟨-, -, -, hattempt, -, -, htrack, -⟩ := hspec
        have hleased : db.jobs.lookup job.jobId =
            some (row₀.leasedBy w (now + seconds leaseSeconds)) := congrArg Track.row htrack
        cases hrow.symm.trans hleased
        have hcall : s.calls w = none := by
          rw [hpoint] at hvalid
          exact hvalid
        rw [hcall]
        refine ⟨?_, by simp⟩
        rintro _ ⟨rfl⟩
        exact hattempt.symm
  | @commit now totalMs job' tx db htx hrun =>
      rw [after_commit htx hrun] at hrow
      exact hcounts.committed htx hrun hvalid hjob hrow howner
  | refuse htx =>
      refine ⟨?_, by simp⟩
      rw [Point.raised_count? _ htx]
      simp
  | _ =>
      refine hlocal rfl ?_
      rcases hbefore with hsame | ⟨_, _, _, _, _, _, hact, -⟩ | ⟨_, -, -, hidle⟩
      · exact hsame.symm.trans hjob
      · cases hact
      · rw [hidle] at hjob
        cases hjob

/-- **While a worker has the lease, the row's counter is the one the worker counts on.** -/
theorem counts (hrun : Run (system rack) h s) (w : Owner) :
    s.Counts w (s.point w) (s.calls w) := by
  induction hrun with
  | start hs =>
      rw [Set.mem_singleton_iff.1 hs]
      intro job row hjob
      cases hjob
  | @step h s _ a hpast hnext ih =>
      obtain ⟨henabled, rfl⟩ := hnext
      exact (moves rack s a w).counts hpast henabled ih

end World

end LoadCoach

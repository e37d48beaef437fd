import LoadCoach.Store.Log

/-! # The bound on waiting

`expire_max_wait` fails every waiting row whose `queued_at` is further in the past than its bound.
No writer rewrites `queued_at` (`Job.Kept`), so what the sweep leaves within its bound depends on
one thing: that a waiting row has the column at all (`Track.Waits`).  Every path into the queue sees
to that but one.  A row a synchronous execution reserved was never queued; start-up recovery puts it
into the queue if it is idempotent, and then no sweep ever finds it.

The database does not measure the wait to the microsecond: a row that passed its bound within the
last two milliseconds may be left (`Db.SharpAt`).

`bounded_wait_iff` says exactly that: along a run every sweep that finds no such row leaves every
waiting row within its bound if and only if no recovery requeues a row that was never queued, and a
sweep that finds one leaves it. -/

namespace LoadCoach

open Foundations Relation

/-! ### Waiting rows were queued -/

namespace Track

variable {rack : ModelRack} {who : Writer} {t t' : Track}

/-- A waiting row was queued. -/
def Waits (t : Track) : Prop :=
  ∀ job, t.row = some job → job.state ∈ waitingStates → job.queuedAt.isSome

/-- A row was queued, or the recovery of a process does not make it wait. -/
def Recoverable (process : ℕ) (t : Track) : Prop :=
  ∀ job, t.row = some job → job.queuedAt.isSome ∨
    job.state ∉ waitingStates ∧
      ¬(job.state ∈ leaseHoldingStates ∧ job.idempotent = true ∧ Db.ownLease process job = false)

theorem Recoverable.waits {process : ℕ} (h : t.Recoverable process) : t.Waits :=
  fun job hrow hwaits => (h job hrow).resolve_right fun hnot => hnot.1 hwaits

theorem Step.recoverable {process : ℕ} (hstep : Step rack (.recovery process) t t')
    (h : t.Recoverable process) : t'.Recoverable process := by
  cases hstep with
  | @move job target now reason values hrow _ hmay =>
      rintro _ hrow'
      cases hrow'
      obtain ⟨hown, htarget⟩ : Db.ownLease process job = false ∧
        recoveryTarget job.state job.idempotent = some target := hmay
      rcases h job hrow with hqueued | ⟨-, hkeeps⟩
      · exact .inl (by simpa using hqueued)
      · refine .inr ⟨fun hwaits => ?_, fun hheld => ?_⟩
        · rw [Job.moved_state] at hwaits
          obtain ⟨hstate, hidempotent⟩ := leaseHolding_of_recoveryTarget htarget hwaits
          exact hkeeps ⟨hstate, hidempotent, hown⟩
        · rw [Job.moved_state] at hheld
          exact not_inFlight_of_recoveryTarget htarget
            (Finset.mem_union_left _ hheld.1)
  | record _ hmay => exact hmay.elim
  | lease _ hwho | renew _ hwho | touch _ _ _ hwho | assign hwho => cases hwho
  | insert _ hfresh => rcases hfresh.writer with ⟨hwho, -⟩ | ⟨hwho, -⟩ <;> cases hwho

theorem Step.waits (hstep : Step rack who t t') (hsound : t.Sound rack)
    (hwho : ∀ process, who ≠ .recovery process) (h : t.Waits) : t'.Waits := by
  cases hstep with
  | @move job target now reason values hrow hlegal hmay =>
      rintro _ hrow' hwaits
      cases hrow'
      rw [Job.moved_state] at hwaits
      rw [Job.moved_queuedAt]
      cases who with
      | worker w =>
          have howner : job.leaseOwner = some w := hmay
          exact hsound.queued job hrow (by simp [howner])
      | reaper =>
          obtain ⟨hexpires, -⟩ := hmay
          exact hsound.queued job hrow ((hsound.paired job hrow).2 hexpires)
      | reevaluation =>
          obtain ⟨hstate, -⟩ := hmay
          exact h job hrow (by rw [hstate]; decide)
      | canceller =>
          rcases cancelTarget_eq_some hmay with rfl | rfl <;> exact absurd hwaits (by decide)
      | expiry | watchdog =>
          obtain ⟨-, rfl⟩ := hmay
          exact absurd hwaits (by decide)
      | recovery process => exact absurd rfl (hwho process)
      | _ => exact hmay.elim
  | @lease job w expiresAt _ hrow hstate hqueued =>
      rintro _ hrow' _
      cases hrow'
      exact hqueued
  | @assign job job' _ hrow hassigned =>
      rintro _ hrow' hwaits
      cases hrow'
      rcases hassigned.state with hstate | hstate <;>
        rw [hstate] at hwaits <;> exact absurd hwaits (by decide)
  | insert _ hfresh =>
      rintro _ hrow' hwaits
      cases hrow'
      rcases hfresh.writer with ⟨-, -, hqueued⟩ | ⟨-, -, hstate | hstate⟩
      · exact hqueued
      · rw [hstate] at hwaits
        exact absurd hwaits (by decide)
      · exact absurd hstate (not_terminal_of_waiting hwaits)
  | @record job _ hrow | @renew job _ _ _ hrow | @touch job _ _ _ _ hrow =>
      rintro _ hrow' hwaits
      cases hrow'
      exact h job hrow hwaits

theorem Path.waits (hpath : Path rack who t t') (hsound : t.Sound rack)
    (hwho : ∀ process, who ≠ .recovery process) (h : t.Waits) : t'.Waits := by
  induction hpath with
  | refl => exact h
  | tail hpath₁ hstep ih => exact hstep.waits (Path.sound hpath₁ hsound) hwho ih

theorem Path.recoverable {process : ℕ} (hpath : Path rack (.recovery process) t t')
    (h : t.Recoverable process) : t'.Recoverable process := by
  induction hpath with
  | refl => exact h
  | tail _ hstep ih => exact hstep.recoverable ih

end Track

/-! ### The sweep -/

/-- Every waiting row was queued no longer ago than its bound. -/
def Db.Within (now : Instant) (defaultMaxWaitSeconds : ℕ) (db : Db) : Prop :=
  ∀ j job, db.jobs.lookup j = some job → job.state ∈ waitingStates →
    ∃ queuedAt, job.queuedAt = some queuedAt ∧
      now - queuedAt ≤ seconds (job.maxWaitSeconds.getD defaultMaxWaitSeconds)

theorem overdue_eq_false_iff {sql : SqlArithmetic} {now queuedAt : Instant}
    {defaultMaxWaitSeconds : ℕ} {job : Job} (hwaits : job.state ∈ waitingStates)
    (hqueued : job.queuedAt = some queuedAt) :
    Db.overdue sql now defaultMaxWaitSeconds job = false ↔
      sql.elapsed now queuedAt ≤ (job.maxWaitSeconds.getD defaultMaxWaitSeconds : ℕ) := by
  simp only [Db.overdue, hwaits, decide_true, Bool.true_and, Db.waitingSeconds, hqueued,
    Option.map_some, Option.any_some, decide_eq_false_iff_not, not_lt]

/-- Every waiting row that is past its bound is so as the database measures it. -/
def Db.SharpAt (sql : SqlArithmetic) (now : Instant) (defaultMaxWaitSeconds : ℕ) (db : Db) : Prop :=
  ∀ j job, db.jobs.lookup j = some job → job.state ∈ waitingStates →
    ∀ queuedAt, job.queuedAt = some queuedAt →
      seconds (job.maxWaitSeconds.getD defaultMaxWaitSeconds) < now - queuedAt →
        ((job.maxWaitSeconds.getD defaultMaxWaitSeconds : ℕ) : ℚ) < sql.elapsed now queuedAt

/-- No waiting row is past its bound by less than the resolution. -/
theorem Db.sharpAt_of_resolution {sql : SqlArithmetic} {now : Instant} {defaultMaxWaitSeconds : ℕ}
    {db : Db} (hnow : IsDatetime now) (h : ∀ j job, db.jobs.lookup j = some job →
      job.state ∈ waitingStates → ∀ queuedAt, job.queuedAt = some queuedAt → IsDatetime queuedAt ∧
        (seconds (job.maxWaitSeconds.getD defaultMaxWaitSeconds) < now - queuedAt →
          (job.maxWaitSeconds.getD defaultMaxWaitSeconds : ℕ) + waitResolution <
            exactSeconds now queuedAt)) : db.SharpAt sql now defaultMaxWaitSeconds := by
  intro j job hrow hwaits queuedAt hqueued hpast
  obtain ⟨hdatetime, hfar⟩ := h j job hrow hwaits queuedAt hqueued
  have hnear := (abs_le.1 (sql.elapsed_near now queuedAt hnow hdatetime)).1
  linarith [hfar hpast]

theorem Db.not_overdue_of_expireMaxWait {sql : SqlArithmetic} {db db' : Db} {now : Instant}
    {defaultMaxWaitSeconds : ℕ} {j : JobId} {job : Job}
    (h : db.expireMaxWait sql now defaultMaxWaitSeconds = .ok db')
    (hrow : db'.jobs.lookup j = some job) (hwaits : job.state ∈ waitingStates) :
    db.jobs.lookup j = some job ∧ overdue sql now defaultMaxWaitSeconds job = false := by
  obtain ⟨db'', hok, hmoved, hkept⟩ := expireMaxWait_spec sql now defaultMaxWaitSeconds db
  cases h.symm.trans hok
  by_cases hoverdue : ∃ job₀, db.jobs.lookup j = some job₀ ∧
      overdue sql now defaultMaxWaitSeconds job₀ = true
  · obtain ⟨job₀, hrow₀, hoverdue⟩ := hoverdue
    obtain ⟨reason, values, message, hfile⟩ := hmoved j job₀ hrow₀ hoverdue
    have hfailed : db'.jobs.lookup j = some _ := congrArg File.row hfile
    cases hrow.symm.trans hfailed
    rw [Job.moved_state] at hwaits
    exact absurd hwaits (by decide)
  · have hfresh : ∀ job₀, db.jobs.lookup j = some job₀ →
        overdue sql now defaultMaxWaitSeconds job₀ = false := by
      intro job₀ hrow₀
      by_contra hnot
      exact hoverdue ⟨job₀, hrow₀, by simpa using hnot⟩
    have hsame : db'.jobs.lookup j = db.jobs.lookup j := congrArg File.row (hkept j hfresh)
    exact ⟨hsame ▸ hrow, hfresh job (hsame ▸ hrow)⟩

/-- **A sweep leaves every waiting row that was queued within its bound** exactly where it is
sharp. -/
theorem Db.within_expireMaxWait_iff {sql : SqlArithmetic} {db db' : Db} {now : Instant}
    {defaultMaxWaitSeconds : ℕ} (h : db.expireMaxWait sql now defaultMaxWaitSeconds = .ok db')
    (hwaits : ∀ j, (db.track j).Waits) :
    db'.Within now defaultMaxWaitSeconds ↔ db.SharpAt sql now defaultMaxWaitSeconds := by
  constructor
  · intro hwithin j job hrow hstate queuedAt hqueued hpast
    by_contra hblunt
    have hfresh := (overdue_eq_false_iff hstate hqueued).2 (not_lt.1 hblunt)
    obtain ⟨db'', hok, -, hkept⟩ := expireMaxWait_spec sql now defaultMaxWaitSeconds db
    cases h.symm.trans hok
    have hstays : db'.jobs.lookup j = some job := by
      have hsame := hkept j fun job' hrow' => by
        cases hrow.symm.trans hrow'
        exact hfresh
      exact (congrArg File.row hsame).trans hrow
    obtain ⟨queuedAt', hqueued', hle⟩ := hwithin j job hstays hstate
    cases hqueued.symm.trans hqueued'
    exact absurd hpast (not_lt.2 hle)
  · intro hsharp j job hrow hstate
    obtain ⟨hrow₀, hoverdue⟩ := not_overdue_of_expireMaxWait h hrow hstate
    obtain ⟨queuedAt, hqueued⟩ := Option.isSome_iff_exists.1 (hwaits j job hrow₀ hstate)
    refine ⟨queuedAt, hqueued, not_lt.1 fun hpast => ?_⟩
    exact absurd (hsharp j job hrow₀ hstate queuedAt hqueued hpast)
      (not_lt.2 ((overdue_eq_false_iff hstate hqueued).1 hoverdue))

theorem Db.exists_sharpAt (sql : SqlArithmetic) (db : Db) : ∃ now, db.SharpAt sql now 0 := by
  have hearly : ∀ rows : List (Σ _ : JobId, Job), ∃ now : Instant,
      ∀ row ∈ rows, ∀ queuedAt, row.2.queuedAt = some queuedAt → now ≤ queuedAt := by
    intro rows
    induction rows with
    | nil => exact ⟨0, by simp⟩
    | cons row rows ih =>
        obtain ⟨now, hnow⟩ := ih
        refine ⟨min now (row.2.queuedAt.getD now), ?_⟩
        rw [List.forall_mem_cons]
        refine ⟨fun queuedAt hqueued => ?_, fun row' hrow' queuedAt hqueued =>
          (min_le_left _ _).trans (hnow row' hrow' queuedAt hqueued)⟩
        rw [hqueued]
        exact min_le_right _ _
  obtain ⟨now, hnow⟩ := hearly db.jobs.entries
  refine ⟨now, fun j job hrow _ queuedAt hqueued hpast => ?_⟩
  have hle := hnow ⟨j, job⟩ (AList.mem_lookup_iff.1 hrow) queuedAt hqueued
  have hbound : 0 ≤ seconds (job.maxWaitSeconds.getD 0) := by
    unfold seconds
    positivity
  exact absurd hpast (not_lt.2 ((sub_nonpos.2 hle).trans hbound))

theorem Db.unqueued_expireMaxWait {sql : SqlArithmetic} {db db' : Db} {now : Instant}
    {defaultMaxWaitSeconds : ℕ} {j : JobId} {job : Job}
    (h : db.expireMaxWait sql now defaultMaxWaitSeconds = .ok db')
    (hrow : db.jobs.lookup j = some job) (hqueued : job.queuedAt = none) :
    db'.jobs.lookup j = some job := by
  obtain ⟨db'', hok, -, hkept⟩ := expireMaxWait_spec sql now defaultMaxWaitSeconds db
  cases h.symm.trans hok
  have hsame := hkept j fun job' hrow' => by
    cases hrow.symm.trans hrow'
    simp [overdue, waitingSeconds, hqueued]
  exact (congrArg File.row hsame).trans hrow

/-! ### Runs -/

namespace Store

variable {rack : ModelRack} {s : Store} {h : List (Foundations.Step Store Op)}

/-- A recovery requeues only rows that were queued. -/
def RecoversQueued (e : Foundations.Step Store Op) : Prop :=
  ∀ process now, e.act = .recover process now → ∀ j job, e.pre.db.jobs.lookup j = some job →
    job.state ∈ leaseHoldingStates → job.idempotent = true → Db.ownLease process job = false →
      job.queuedAt.isSome

/-- **Every step keeps the waiting rows queued**, but a recovery that finds a row that never
was. -/
theorem waits_after {op : Op} (hpast : Run (system rack) h s) (henabled : op.Enabled rack s)
    (hrecovers : RecoversQueued ⟨s, op, s.after rack op⟩) (hpre : ∀ j, (s.db.track j).Waits)
    (j : JobId) : ((s.after rack op).db.track j).Waits := by
  have hpath := after_writes (syncRows hpast) henabled j
  by_cases hrecovery : ∃ process now, op = .recover process now
  · obtain ⟨process, now, rfl⟩ := hrecovery
    refine Track.Recoverable.waits (Track.Path.recoverable hpath fun job hrow => ?_)
    by_cases hqueued : job.queuedAt.isSome
    · exact .inl hqueued
    · refine .inr ⟨fun hwaits => hqueued (hpre j job hrow hwaits), fun hheld => hqueued ?_⟩
      exact hrecovers process now rfl j job hrow hheld.1 hheld.2.1 hheld.2.2
  · refine Track.Path.waits hpath (sound hpast j) (fun process hwho => ?_) (hpre j)
    cases op with
    | recover process now => exact hrecovery ⟨process, now, rfl⟩
    | _ => cases hwho

theorem waits (hrun : Run (system rack) h s) (hrecovers : ∀ e ∈ h, RecoversQueued e) :
    ∀ j, (s.db.track j).Waits := by
  induction hrun with
  | start hs =>
      rw [Set.mem_singleton_iff.1 hs]
      intro j job hrow
      cases hrow
  | step hpast hnext ih =>
      obtain ⟨henabled, rfl⟩ := hnext
      exact waits_after hpast henabled (hrecovers _ List.mem_cons_self)
        (ih fun e he => hrecovers e (List.mem_cons_of_mem _ he))

theorem after_expireMaxWait (rack : ModelRack) (s : Store) (sql : SqlArithmetic) (now : Instant)
    (defaultMaxWaitSeconds : ℕ) : ∃ db, s.db.expireMaxWait sql now defaultMaxWaitSeconds = .ok db ∧
      (s.after rack (.expireMaxWait sql now defaultMaxWaitSeconds)).db = db := by
  obtain ⟨db, hok, -⟩ := Db.expireMaxWait_spec sql now defaultMaxWaitSeconds s.db
  exact ⟨db, hok, by simp only [after, Op.run, hok]⟩

theorem unqueued_after_recover (rack : ModelRack) (now : Instant) {process : ℕ} {j : JobId}
    {job : Job} (hrow : s.db.jobs.lookup j = some job) (hstate : job.state ∈ leaseHoldingStates)
    (hidempotent : job.idempotent = true) (hown : Db.ownLease process job = false)
    (hqueued : job.queuedAt = none) : ∃ job',
      (s.after rack (.recover process now)).db.jobs.lookup j = some job' ∧
      job'.state = .queued ∧ job'.queuedAt = none := by
  obtain ⟨db, hok, hmoved, -⟩ := Db.recover_files_spec process now s.db
  have hflight : job.state ∈ inFlightStates := Finset.mem_union_left _ hstate
  have htarget : Db.recoverTarget process job = some .queued := by
    rw [Db.recoverTarget, hown, if_neg Bool.false_ne_true]
    exact (recoveryTarget_eq_queued_iff _ _).2 ⟨hstate, hidempotent⟩
  have hmoves := hmoved j job hrow (decide_eq_true hflight)
  rw [htarget] at hmoves
  obtain ⟨reason, values, message, hfile⟩ := hmoves
  refine ⟨_, ?_, Job.moved_state .queued now reason values job, ?_⟩
  · simp only [after, Op.run, hok]
    exact congrArg File.row hfile
  · rw [Job.moved_queuedAt, hqueued]

/-- **Bounded wait.**  No step of a run rewrites `queued_at`; along a run, a sharp max-wait sweep at
any instant after any step leaves every waiting row within the bound that applies to it, if and
only if no recovery requeued a row that was never queued; and a sweep that is not sharp leaves one
beyond it. -/
theorem bounded_wait_iff (hrun : Run (system rack) h s) :
    (∀ e ∈ h, ∀ j job, e.pre.db.jobs.lookup j = some job → ∃ job',
      e.post.db.jobs.lookup j = some job' ∧ job'.queuedAt = job.queuedAt) ∧
    ((∀ e ∈ h, ∀ sql now bound, e.post.db.SharpAt sql now bound →
        (e.post.after rack (.expireMaxWait sql now bound)).db.Within now bound) ↔
      ∀ e ∈ h, RecoversQueued e) ∧
    ((∀ e ∈ h, RecoversQueued e) → ∀ e ∈ h, ∀ sql now bound,
      (e.post.after rack (.expireMaxWait sql now bound)).db.Within now bound →
        e.post.db.SharpAt sql now bound) := by
  have hwithin_iff : (∀ e ∈ h, RecoversQueued e) → ∀ e ∈ h, ∀ sql now bound,
      ((e.post.after rack (.expireMaxWait sql now bound)).db.Within now bound ↔
        e.post.db.SharpAt sql now bound) := by
    intro hrecovers e he sql now bound
    obtain ⟨h₁, h₂, rfl⟩ := List.append_of_mem he
    obtain ⟨db, hok, hdb⟩ := after_expireMaxWait rack e.post sql now bound
    rw [hdb]
    exact Db.within_expireMaxWait_iff hok
      (waits hrun.past.2.2 fun e' he' => hrecovers e' (List.mem_append_right _ he'))
  refine ⟨?_, ⟨?_, fun hrecovers e he sql now bound => (hwithin_iff hrecovers e he sql now bound).2⟩,
    fun hrecovers e he sql now bound => (hwithin_iff hrecovers e he sql now bound).1⟩
  · intro e he j job hrow
    obtain ⟨job', hrow', hkept⟩ := (writes_of_mem hrun he j).kept hrow
    exact ⟨job', hrow', hkept.queuedAt⟩
  · intro hwithin e he process now hact j job hrow hstate hidempotent hown
    by_contra hqueued
    obtain ⟨-, -, -, hpost⟩ := hrun.past_of_mem he
    obtain ⟨job', hrow', hstate', hqueued'⟩ := unqueued_after_recover rack now hrow hstate
      hidempotent hown (by simpa using hqueued)
    rw [← hact, ← hpost] at hrow'
    obtain ⟨early, hsharp⟩ := e.post.db.exists_sharpAt .exact
    obtain ⟨db, hok, hdb⟩ := after_expireMaxWait rack e.post .exact early 0
    have hstays := Db.unqueued_expireMaxWait hok hrow' hqueued'
    obtain ⟨queuedAt, hsome, -⟩ := hwithin e he .exact early 0 hsharp j job' (hdb ▸ hstays)
      (by rw [hstate']; decide)
    simp [hqueued'] at hsome

/-- A queued job that is claimed and then recovered. -/
def recoveredJob : List Op :=
  [.enqueue 0 (promptSubmission true) ("chat", "1") none 0 {}, .claim ⟨0, 0⟩ 1 60 0 none,
   .recover 1 2]

theorem recoveredJob_admissible :
    Admissible (fun s op => op.Enabled documentedRack s) (after documentedRack) {} recoveredJob :=
  ⟨promptSubmission_accepted true, trivial, trivial, trivial⟩

theorem bounded_wait_iff_recovered :
    (∀ e ∈ trace (after documentedRack) {} recoveredJob, ∀ sql now bound,
      e.post.db.SharpAt sql now bound →
        (e.post.after documentedRack (.expireMaxWait sql now bound)).db.Within now bound) ↔
      ∀ e ∈ trace (after documentedRack) {} recoveredJob, RecoversQueued e :=
  (bounded_wait_iff (Run.replay recoveredJob_admissible)).2.1

/-- A synchronous execution with an idempotency key that another process recovers at its start, and
a sweep long after its bound. -/
def recoveredCall : List Op :=
  [.reserveSyncJob 0 { task := "chat", prompt := some "hello", idempotencyKey := some "k" }
    ("chat", "1") 0 24,
   .recover 1 1,
   .expireMaxWait .sqlite (seconds 1000000) 3600]

theorem recoveredCall_admissible :
    Admissible (fun s op => op.Enabled documentedRack s) (after documentedRack) {} recoveredCall :=
  ⟨⟨⟨[{ role := .user, content := "hello" }], rfl, by simp [AcceptedTurns, documentedRack]⟩,
    by simp⟩, trivial, trivial, trivial⟩

/-- The row waits in the queue, and no sweep sees it. -/
theorem unbounded_wait : ∃ h s, Run (system documentedRack) h s ∧ ∃ e ∈ h,
    e.act = .expireMaxWait .sqlite (seconds 1000000) 3600 ∧
      ¬ e.post.db.Within (seconds 1000000) 3600 := by
  refine ⟨_, _, Run.replay recoveredCall_admissible, _, List.mem_cons_self, rfl, fun hwithin => ?_⟩
  have hrow : ((recoveredCall.foldl (after documentedRack) {}).db.jobs.lookup 0).map
      (fun job => (job.state, job.queuedAt)) = some (.queued, none) := by decide +kernel
  obtain ⟨job, hrow, hcolumns⟩ := Option.map_eq_some_iff.1 hrow
  obtain ⟨hstate, hqueued⟩ := Prod.mk.inj hcolumns
  obtain ⟨queuedAt, hsome, -⟩ := hwithin 0 job hrow (by rw [hstate]; decide)
  simp [hqueued] at hsome

end Store

end LoadCoach

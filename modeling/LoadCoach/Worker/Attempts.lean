import LoadCoach.Worker.Holds

/-! # The attempts of a job

Every provider call a worker makes is an attempt of its job, and `job_attempts` is where attempts
are kept.  Two things are said of it, over all runs of all workers, whatever the providers do and
whenever a cancel request arrives.

* Numbering: the rows of a job are numbered from one without a gap, the row's counter is their
  number, and it never passes the job's bound (`attempts_numbered`).
* Completeness: a call is unsettled until the transaction that follows it (`Settles`), and that
  transaction, run by the holder of the lease, leaves exactly one row with the call's record if and
  only if it is one of the two that write it: the attempt of a row that is still `executing`, or
  the cancellation of a call whose outcome is "cancelled" (`call_recorded_iff`). -/

namespace LoadCoach

open Foundations Relation

variable {rack : ModelRack}

/-! ### Attempts of the machine -/

namespace Track

variable {who : Writer} {t t' : Track} {job job' : Job}

theorem Sound.attempt_eq (hsound : t.Sound rack) (hrow : t.row = some job) :
    job.attempt = t.attempts.length := by
  have hlength := congrArg List.length (hsound.numbered job hrow)
  rw [List.length_map, List.length_range'] at hlength
  exact hlength.symm

theorem Sound.nodup (hsound : t.Sound rack) : (t.attempts.map JobAttempt.attempt).Nodup := by
  cases hrow : t.row with
  | none =>
      rw [hsound.absent hrow]
      exact List.nodup_nil
  | some job =>
      rw [hsound.numbered job hrow]
      exact List.nodup_range'

theorem Step.attempts_prefix (hstep : Step rack who t t') : t.attempts <+: t'.attempts := by
  cases hstep with
  | record => exact List.prefix_append _ _
  | _ => exact List.prefix_refl _

theorem Path.attempts_prefix (hpath : Path rack who t t') : t.attempts <+: t'.attempts := by
  induction hpath with
  | refl => exact List.prefix_refl _
  | tail _ hstep ih => exact ih.trans hstep.attempts_prefix

/-- On the queued path only workers write attempts, also in the transaction that inserts the
row. -/
theorem Path.attempts_queued (hpath : Path rack who t t') (hrow' : t'.row = some job')
    (hqueued : job'.queuedAt.isSome) : t'.attempts = t.attempts ∨ ∃ w, who = .worker w := by
  have from_row : ∀ {t₁ : Track} {job : Job}, Path rack who t₁ t' → t₁.row = some job →
      t'.attempts = t₁.attempts ∨ ∃ w, who = .worker w := by
    intro t₁ job hpath₁ hrow
    obtain ⟨job'', hrow'', hkept⟩ := hpath₁.kept hrow
    cases hrow'.symm.trans hrow''
    exact hpath₁.attempts hrow (hkept.queuedAt ▸ hqueued)
  cases hrow : t.row with
  | some job => exact from_row hpath hrow
  | none =>
      rcases ReflTransGen.cases_head hpath with rfl | ⟨t₁, hstep, hpath₁⟩
      · exact .inl rfl
      · cases hstep with
        | insert =>
            have hrest := from_row hpath₁ rfl
            exact hrest
        | _ => simp_all

end Track

namespace Point

theorem written_le {call : Option ProviderCall} {p : Point} {totalMs : ℤ}
    {e : ClaimedJob × WorkerTx} (htx : p.tx totalMs = some e) (hvalid : p.Valid call)
    {r : AttemptRecord} (hwritten : r ∈ e.2.written) : r.attempt ≤ e.1.maxAttempts := by
  cases p with
  | recording l o =>
      obtain ⟨-, -, hcounted, ⟨collected, rfl⟩, -⟩ := hvalid
      have hr : r = (runAttempt l.attemptNumber l.candidate collected).record := by
        cases htx
        dsimp only at hwritten
        split_ifs at hwritten <;> exact (Option.mem_some_iff.1 hwritten).symm
      rw [hr, runAttempt_attempt, ← Option.some.inj (job?_of_tx htx)]
      exact hcounted.2
  | cancelling job records =>
      cases htx
      have hlast : records.getLast? = some r := (Option.mem_filter_iff.1 hwritten).1
      exact hvalid.1 r (List.mem_of_getLast? hlast)
  | _ => cases htx <;> cases hwritten

end Point

namespace World

variable {s : World} {a : Act} {w : Owner} {j : JobId} {h : List (Foundations.Step World Act)}

/-! ### Numbering -/

theorem commit_within_bound {now : Instant} {totalMs : ℤ} {e : ClaimedJob × WorkerTx} {db : Db}
    (hpast : Run (system rack) h s) (htx : (s.point w).tx totalMs = some e)
    (hrun : e.2.run w e.1.jobId now s.store.db = .ok db) {row row' : Job}
    (hrow : s.store.db.jobs.lookup e.1.jobId = some row) (hbound : row.attempt ≤ row.maxAttempts)
    (hrow' : db.jobs.lookup e.1.jobId = some row') : row'.attempt ≤ row.maxAttempts := by
  by_cases hlease : s.store.db.LeasedTo w e.1.jobId
  · obtain ⟨row₁, row₂, hrow₁, hrow₂, hattempt, hnumber, -⟩ := Db.workerTx_wrote hrun hlease
    cases hrow₁.symm.trans hrow
    cases hrow₂.symm.trans hrow'
    rw [hattempt]
    cases hwritten : e.2.written with
    | none => exact hbound
    | some r =>
        have hle := Point.written_le htx (valid hpast w) hwritten
        obtain ⟨row₃, hrow₃, -, hmax⟩ := backed hpast (Point.job?_of_tx htx)
        cases hrow₃.symm.trans hrow
        rw [hmax, Option.toList_some, List.length_singleton, ← hnumber r hwritten]
        exact hle
  · rw [Db.worker_unleased hrun hlease] at hrow'
    cases hrow.symm.trans hrow'
    exact hbound

theorem within_bound (hrun : Run (system rack) h s) {row : Job}
    (hrow : s.store.db.jobs.lookup j = some row) (hqueued : row.queuedAt.isSome) :
    row.attempt ≤ row.maxAttempts := by
  induction hrun generalizing row with
  | start hs =>
      rw [Set.mem_singleton_iff.1 hs] at hrow
      cases hrow
  | @step h s _ a hpast hnext ih =>
      obtain ⟨henabled, rfl⟩ := hnext
      cases hop : s.op a with
      | none =>
          rw [after_quiet hop] at hrow
          exact ih hrow hqueued
      | some op =>
          have hpath := after_writes hpast henabled hop j
          have hsound := sound hpast j
          by_cases hworker : ∃ w, op.writer = .worker w
          · obtain ⟨w, hwho⟩ := hworker
            obtain ⟨now, totalMs, e, rfl, htx⟩ := commit_of_writer henabled hop hwho
            cases hcommit : e.2.run w e.1.jobId now s.store.db with
            | error x =>
                rw [after_refused htx hcommit] at hrow
                exact ih hrow hqueued
            | ok db =>
                rw [after_commit htx hcommit] at hrow hpath
                by_cases hj : j = e.1.jobId
                · subst hj
                  obtain ⟨row₀, hrow₀, hqueued₀, -⟩ := backed hpast (Point.job?_of_tx htx)
                  obtain ⟨row', hrow', hkept⟩ := hpath.kept hrow₀
                  cases hrow.symm.trans hrow'
                  rw [hkept.maxAttempts hqueued₀]
                  exact commit_within_bound hpast htx hcommit hrow₀ (ih hrow₀ hqueued₀) hrow
                · have hframe := (Db.workerTx_writes hcommit : Db.WritesTo rack _ _ _ _).frame j hj
                  have hsame : db.jobs.lookup j = s.store.db.jobs.lookup j :=
                    congrArg Track.row hframe
                  exact ih (hsame.symm.trans hrow) hqueued
          · have hsame := (hpath.attempts_queued hrow hqueued).resolve_right hworker
            have hattempt := (hpath.sound hsound).attempt_eq hrow
            rw [hsame] at hattempt
            cases hrow₀ : s.store.db.jobs.lookup j with
            | none =>
                rw [hsound.absent hrow₀] at hattempt
                rw [hattempt]
                exact Nat.zero_le _
            | some row₀ =>
                obtain ⟨row', hrow', hkept⟩ := hpath.kept hrow₀
                cases hrow.symm.trans hrow'
                have hqueued₀ : row₀.queuedAt.isSome := hkept.queuedAt ▸ hqueued
                rw [hattempt, ← hsound.attempt_eq hrow₀, hkept.maxAttempts hqueued₀]
                exact ih hrow₀ hqueued₀

/-- **The attempts of a job of the queued path** are numbered from one without a gap or a
duplicate up to the row's counter, and never more than the job's bound. -/
theorem attempts_numbered (hrun : Run (system rack) h s) {row : Job}
    (hrow : s.store.db.jobs.lookup j = some row) (hqueued : row.queuedAt.isSome) :
    (s.store.db.jobAttempts.filter fun a => decide (a.jobId = j)).map JobAttempt.attempt =
        List.range' 1 row.attempt ∧
      row.attempt ≤ row.maxAttempts :=
  ⟨(sound hrun j).numbered row hrow, within_bound hrun hrow hqueued⟩

/-- The only worker of the runs below. -/
def soleWorker : Owner := ⟨0, 0⟩

/-- The only candidate of the runs below. -/
def soleCandidate : RankedCandidate where
  canonicalId := "m"
  subjectCanonicalId := "m"
  modelId := "m"

/-- A job is submitted, claimed and routed, and its first provider call is under way. -/
def firstCall : List Act :=
  [.store (.enqueue 0 (promptSubmission false) ("chat", "1") none 0 {}),
   .claim soleWorker 0 60 0 none,
   .register soleWorker,
   .advance soleWorker,
   .route soleWorker (.routed soleCandidate [] 1),
   .commit soleWorker 1 0,
   .advance soleWorker,
   .probe soleWorker false,
   .advance soleWorker,
   .advance soleWorker,
   .advance soleWorker,
   .commit soleWorker 2 0]

/-- The call has answered. -/
def answered : List Act := firstCall ++ [.answer soleWorker {}, .advance soleWorker]

theorem answered_run : Run (system documentedRack) (trace (after documentedRack) {} answered)
    (answered.foldl (after documentedRack) {}) := by
  refine .replay ⟨⟨trivial, promptSubmission_accepted false⟩, ?_⟩
  repeat' constructor

/-- The first attempt of the job is number one of three. -/
theorem attempts_numbered_answered :
    (((answered.foldl (after documentedRack) {}).after documentedRack
      (.commit soleWorker 3 0)).store.db.jobAttempts.filter fun a =>
        decide (a.jobId = 0)).map JobAttempt.attempt = [1] ∧ 1 ≤ 3 :=
  attempts_numbered (run_step answered_run (.commit soleWorker 3 0) trivial) (j := 0) rfl rfl

/-! ### Completeness -/

/-- The attempt rows with a number. -/
def numberedRows (j : JobId) (number : ℕ) (db : Db) : List JobAttempt :=
  db.jobAttempts.filter fun a => decide (a.jobId = j ∧ a.attempt = number)

/-- Exactly one row has the call's number, and it carries what the call returned. -/
def RecordedOnce (j : JobId) (c : ProviderCall) (db : Db) : Prop :=
  ∃ r, c.record = some r ∧ numberedRows j c.number db = [⟨j, c.number, r⟩]

/-- A worker made the call for the job and has not settled it. -/
def Unsettled (w : Owner) (j : JobId) (c : ProviderCall) (s : World) : Prop :=
  s.calls w = some c ∧ ∃ job, (s.point w).job? = some job ∧ job.jobId = j

/-- The provider call: it returns, or raises what nobody expected. -/
def Calls (w : Owner) (j : JobId) (c : ProviderCall) (e : Foundations.Step World Act) : Prop :=
  ((∃ collected, e.act = .answer w collected) ∨ ∃ code text, e.act = .raise w code text) ∧
    (∃ l, e.pre.point w = .calling l ∧ l.job.jobId = j) ∧ e.post.calls w = some c

/-- The transaction that follows the call. -/
def Settles (w : Owner) (j : JobId) (c : ProviderCall) (e : Foundations.Step World Act) : Prop :=
  (∃ now totalMs, e.act = .commit w now totalMs ∧ ((e.pre.point w).tx totalMs).isSome) ∧
    Unsettled w j c e.pre

/-- The transaction a worker is at writes its call: the row is still executing, or the job is
being cancelled and the provider said so. -/
def Recordable (w : Owner) (c : ProviderCall) (s : World) : Prop :=
  match s.point w with
  | .recording l _ => s.store.db.InState l.job.jobId .executing
  | .cancelling .. => ∃ r, c.record = some r ∧ r.outcome = .cancelled
  | _ => False

theorem numberedRows_eq (j : JobId) (number : ℕ) (db : Db) :
    numberedRows j number db =
      (db.track j).attempts.filter fun a => decide (a.attempt = number) := by
  simp only [numberedRows, Db.track, List.filter_filter]
  congr 1
  funext a
  rw [Bool.decide_and, Bool.and_comm]

theorem recordedOnce_iff_of_wrote {c : ProviderCall} {record : Option AttemptRecord} {row : Job}
    {db db' : Db} (hsound : (db.track j).Sound rack) (hrow : db.jobs.lookup j = some row)
    (hnumber : c.number = row.attempt + 1) (hwrote : Db.Wrote j record db db') :
    RecordedOnce j c db' ↔ ∃ r, record = some r ∧ c.record = some r := by
  obtain ⟨row₁, -, hrow₁, -, -, -, hattempts⟩ := hwrote
  cases hrow₁.symm.trans hrow
  have hfresh : (db.track j).attempts.filter (fun a => decide (a.attempt = c.number)) = [] := by
    rw [List.filter_eq_nil_iff]
    intro a ha
    have hrange : a.attempt ∈ List.range' 1 row.attempt := by
      rw [← hsound.numbered row hrow]
      exact List.mem_map_of_mem ha
    rw [List.mem_range'_1] at hrange
    simp only [decide_eq_true_eq]
    omega
  have hrows : numberedRows j c.number db' =
      record.toList.map fun r => ⟨j, c.number, r⟩ := by
    rw [numberedRows_eq, hattempts, List.filter_append, hfresh, hnumber]
    cases record <;> simp
  rw [RecordedOnce, hrows]
  cases record with
  | none => simp
  | some r =>
      simp only [Option.toList_some, List.map_singleton, List.cons.injEq, and_true,
        JobAttempt.mk.injEq, true_and, Option.some.injEq]
      constructor
      · rintro ⟨r', hrecord, rfl⟩
        exact ⟨r, rfl, hrecord⟩
      · rintro ⟨r', rfl, hrecord⟩
        exact ⟨r, hrecord, rfl⟩

theorem RecordedOnce.of_path {who : Writer} {c : ProviderCall} {db db' : Db}
    (hpath : Track.Path rack who (db.track j) (db'.track j))
    (hsound : (db.track j).Sound rack) (h : RecordedOnce j c db) : RecordedOnce j c db' := by
  obtain ⟨r, hrecord, hrows⟩ := h
  obtain ⟨more, hmore⟩ := hpath.attempts_prefix
  refine ⟨r, hrecord, ?_⟩
  rw [numberedRows_eq] at hrows ⊢
  have hmem : (⟨j, c.number, r⟩ : JobAttempt) ∈ (db.track j).attempts := by
    apply List.mem_of_mem_filter
    rw [hrows]
    exact List.mem_singleton_self _
  have hnodup := (hpath.sound hsound).nodup
  rw [← hmore, List.map_append, List.nodup_append] at hnodup
  have hrest : more.filter (fun a => decide (a.attempt = c.number)) = [] := by
    rw [List.filter_eq_nil_iff]
    intro a ha
    have hne := hnodup.2.2 _ (List.mem_map_of_mem hmem) _ (List.mem_map_of_mem ha)
    simpa using Ne.symm hne
  rw [← hmore, List.filter_append, hrows, hrest, List.append_nil]

theorem commit_recordedOnce_iff {c : ProviderCall} {now : Instant} {totalMs : ℤ}
    {e : ClaimedJob × WorkerTx} {row : Job} (hpast : Run (system rack) h s)
    (htx : (s.point w).tx totalMs = some e) (hrow : s.store.db.jobs.lookup e.1.jobId = some row)
    (howner : row.leaseOwner = some w) (hnumber : c.number = row.attempt + 1) :
    RecordedOnce e.1.jobId c (s.after rack (.commit w now totalMs)).store.db ↔
      (∃ db, e.2.run w e.1.jobId now s.store.db = .ok db) ∧
        ∃ r, e.2.written = some r ∧ c.record = some r := by
  have hsound := sound hpast e.1.jobId
  cases hcommit : e.2.run w e.1.jobId now s.store.db with
  | error x =>
      rw [after_refused htx hcommit,
        recordedOnce_iff_of_wrote hsound hrow hnumber (.refl hrow)]
      simp
  | ok db =>
      have hwrote := Db.workerTx_wrote hcommit ⟨row, hrow, howner⟩
      rw [after_commit htx hcommit, recordedOnce_iff_of_wrote hsound hrow hnumber hwrote]
      simp

/-- **The transaction that follows a call records it exactly when it is one that writes it.** -/
theorem settled_iff {c : ProviderCall} {now : Instant} {totalMs : ℤ}
    (hpast : Run (system rack) h s) (hcall : Unsettled w j c s)
    (htx : ((s.point w).tx totalMs).isSome) (hlease : s.store.db.LeasedTo w j) :
    RecordedOnce j c (s.after rack (.commit w now totalMs)).store.db ↔ Recordable w c s := by
  obtain ⟨hcall, job, hjob, rfl⟩ := hcall
  obtain ⟨row, hrow, howner⟩ := hlease
  obtain ⟨⟨job', tx⟩, htx⟩ := Option.isSome_iff_exists.1 htx
  have hsound := sound hpast job.jobId
  have hnumber : c.number = row.attempt + 1 := (counts hpast w job row hjob hrow howner).2 c hcall
  cases hjob.symm.trans (Point.job?_of_tx htx)
  rw [commit_recordedOnce_iff hpast htx hrow howner hnumber]
  have hvalid := valid hpast w
  rw [hcall] at hvalid
  unfold Recordable
  cases hpoint : s.point w with
  | recording l o =>
      rw [hpoint] at htx hvalid
      obtain ⟨hcall', -, -, ⟨collected, ho⟩, -⟩ := hvalid
      cases hcall'
      have hattempt : o.record.attempt = row.attempt + 1 := by
        rw [ho, runAttempt_attempt]
        exact hnumber
      cases congrArg Prod.fst (Option.some.inj htx)
      -- either transaction writes the record and moves the job on from `executing`
      obtain ⟨hruns, hwritten⟩ :
          ((∃ db, tx.run w l.job.jobId now s.store.db = .ok db) ↔ row.state = .executing) ∧
            tx.written = some o.record := by
        have hsnd : _ = tx := congrArg Prod.snd (Option.some.inj htx)
        rw [← hsnd]
        dsimp only
        split_ifs <;>
          exact ⟨Db.recordAttempt_commits_iff hsound hrow howner hattempt (by decide), rfl⟩
      rw [hruns, hwritten]
      constructor
      · rintro ⟨hstate, -⟩
        exact ⟨row, hrow, hstate⟩
      · rintro ⟨row', hrow', hstate⟩
        cases hrow.symm.trans hrow'
        exact ⟨hstate, o.record, rfl, rfl⟩
  | cancelling _ records =>
      rw [hpoint] at htx hvalid
      obtain ⟨r, hrecord, hr, hlast⟩ := hvalid.2 c rfl
      cases htx
      have hwritten : (WorkerTx.cancelFrom records).written =
          (some r).filter fun r => decide (r.outcome = .cancelled) := by
        rw [WorkerTx.written_cancelFrom, hlast]
      have hcommits : ∃ db, (WorkerTx.cancelFrom records).run w job'.jobId now s.store.db =
          .ok db := by
        refine Db.cancelFrom_commits hsound hrow howner ?_
        intro r' hr'
        rw [hwritten] at hr'
        cases (Option.mem_filter_iff.1 hr').1
        rw [hr, hnumber]
      simp only [hcommits, true_and, hwritten, hrecord, Option.filter_some, Option.some.injEq]
      by_cases houtcome : r.outcome = .cancelled <;> simp [houtcome]
  | crashed =>
      rw [hpoint] at htx
      cases htx
      simp [WorkerTx.written]
  | settling =>
      rw [hpoint] at htx
      cases htx
  | _ =>
      rw [hpoint] at hvalid
      first
        | cases hvalid.1
        | cases hvalid

theorem Moves.unsettled {p : Point} {call : Option ProviderCall} {c : ProviderCall}
    (hmoves : Moves rack s w a p call) (hvalid : (s.point w).Valid (s.calls w))
    (hcall : s.calls w = some c) :
    call = some c ∧ p.job? = (s.point w).job? ∨
      ∃ now totalMs, a = .commit w now totalMs ∧ ((s.point w).tx totalMs).isSome := by
  rw [hcall] at hvalid
  cases hmoves with
  | stay => exact .inl ⟨hcall, rfl⟩
  | advance => exact .inl ⟨hcall, advanced_job? s w⟩
  | raise hjob => exact .inl ⟨hcall, hjob.symm⟩
  | commit htx | refuse htx => exact .inr ⟨_, _, rfl, by simp [htx]⟩
  | claim hpoint | register hpoint | route hpoint | leave hpoint =>
      rw [hpoint] at hvalid
      cases hvalid
  | probe hpoint | answer hpoint | raiseCall hpoint =>
      rw [hpoint] at hvalid
      cases hvalid.1

theorem settled_since {c : ProviderCall} {h₁ h₂ : List (Foundations.Step World Act)}
    {e : Foundations.Step World Act} (hrun : Run (system rack) (h₁ ++ e :: h₂) s)
    (hcall : Unsettled w j c e.post) :
    Unsettled w j c s ∨ ∃ e' ∈ h₁, Settles w j c e' := by
  induction h₁ generalizing s with
  | nil =>
      cases hrun with
      | step => exact .inl hcall
  | cons e' h₁ ih =>
      cases hrun with
      | @step _ s₀ _ a hpast hnext =>
          obtain ⟨-, rfl⟩ := hnext
          rcases ih hpast with hunsettled | ⟨e'', he'', hsettles⟩
          · rcases (moves rack s₀ a w).unsettled (valid hpast w) hunsettled.1 with
              ⟨hstays, hjob⟩ | hcommit
            · left
              refine ⟨hstays, ?_⟩
              rw [hjob]
              exact hunsettled.2
            · exact .inr ⟨_, List.mem_cons_self, hcommit, hunsettled⟩
          · exact .inr ⟨e'', List.mem_cons_of_mem _ he'', hsettles⟩

theorem Calls.unsettled {c : ProviderCall} {e : Foundations.Step World Act}
    (hcalls : Calls w j c e) (hnext : (system rack).next e.pre e.act e.post) :
    Unsettled w j c e.post := by
  obtain ⟨hact, ⟨l, hpoint, hjob⟩, hcall⟩ := hcalls
  obtain ⟨-, hpost⟩ := hnext
  refine ⟨hcall, l.job, ?_, hjob⟩
  rw [hpost]
  rcases hact with ⟨collected, hact⟩ | ⟨code, text, hact⟩ <;> rw [hact] <;>
    simp [after, control, hpoint, Point.job?]

theorem recorded_since {c : ProviderCall} {h₁ h₂ : List (Foundations.Step World Act)}
    {e : Foundations.Step World Act} (hrun : Run (system rack) (h₁ ++ e :: h₂) s)
    (hrecorded : RecordedOnce j c e.post.store.db) :
    ∀ e' ∈ h₁, RecordedOnce j c e'.post.store.db := by
  have hstable := hrun.stable (P := fun s => RecordedOnce j c s.store.db) hrecorded ?_
  · exact fun e' he' => (hstable.2 e' he').2
  · intro e' he' hpre
    obtain ⟨h₃, hpast, henabled, hpost⟩ := hrun.past_of_mem (List.mem_append_left _ he')
    rw [hpost]
    cases hop : e'.pre.op e'.act with
    | none =>
        rw [after_quiet hop]
        exact hpre
    | some op => exact hpre.of_path (after_writes hpast henabled hop j) (sound hpast j)

/-- **Which calls are recorded.**  In every run every provider call a worker made is unsettled or
was settled by a transaction of the worker; and if the worker still had its lease then, exactly one
row has carried the call's outcome ever since if and only if the transaction was one that writes
it. -/
theorem call_recorded_iff (hrun : Run (system rack) h s) :
    (∀ w j c h₁ e h₂, h = h₁ ++ e :: h₂ → Calls w j c e →
      Unsettled w j c s ∨ ∃ e' ∈ h₁, Settles w j c e') ∧
    ∀ w j c h₁ e h₂, h = h₁ ++ e :: h₂ → Settles w j c e → e.pre.store.db.LeasedTo w j →
      ((RecordedOnce j c e.post.store.db ∧ ∀ e' ∈ h₁, RecordedOnce j c e'.post.store.db) ↔
        Recordable w c e.pre) := by
  constructor
  · rintro w j c h₁ e h₂ rfl hcalls
    exact settled_since hrun (hcalls.unsettled hrun.past.2.1)
  · rintro w j c h₁ ⟨s₀, a, s₁⟩ h₂ rfl ⟨⟨now, totalMs, hact, htx⟩, hunsettled⟩ hlease
    obtain ⟨hpast, ⟨-, hpost⟩, -⟩ := hrun.past
    dsimp only at hact hpost hunsettled htx hlease hpast ⊢
    have hiff : RecordedOnce j c s₁.store.db ↔ Recordable w c s₀ := by
      rw [hpost, hact]
      exact settled_iff hpast hunsettled htx hlease
    constructor
    · rintro ⟨hrecorded, -⟩
      exact hiff.1 hrecorded
    · intro hrecordable
      have hrecorded := hiff.2 hrecordable
      exact ⟨hrecorded, recorded_since hrun hrecorded⟩

/-- The call that answered is recorded. -/
theorem call_recorded_iff_answered :
    RecordedOnce 0 ⟨1, some (attemptRecord 1 soleCandidate {} .completed)⟩
      ((answered.foldl (after documentedRack) {}).after documentedRack
        (.commit soleWorker 3 0)).store.db :=
  (((call_recorded_iff (run_step answered_run (.commit soleWorker 3 0) trivial)).2 soleWorker 0 _
    [] _ _ rfl ⟨⟨3, 0, rfl, rfl⟩, rfl, _, rfl, rfl⟩ ⟨_, rfl, rfl⟩).2 ⟨_, rfl, rfl⟩).1

/-- The job is cancelled while its call runs, and the call answers. -/
def cancelledMidCall : List Act :=
  firstCall ++
    [.store (.cancelJob 0 3),
     .requestCancel 0,
     .answer soleWorker {},
     .advance soleWorker]

theorem cancelledMidCall_run :
    Run (system documentedRack) (trace (after documentedRack) {} cancelledMidCall)
      (cancelledMidCall.foldl (after documentedRack) {}) := by
  refine .replay ⟨⟨trivial, promptSubmission_accepted false⟩, ?_⟩
  repeat' constructor

/-- The worker kept its lease, its call completed, and no row says so. -/
theorem call_lost : ¬ ∀ h s, Run (system documentedRack) h s → ∀ w j c, ∀ e ∈ h, Settles w j c e →
    e.pre.store.db.LeasedTo w j → RecordedOnce j c s.store.db := by
  intro hclaim
  have hsettled := run_step cancelledMidCall_run (.commit soleWorker 4 0) trivial
  obtain ⟨r, -, hrows⟩ := hclaim _ _ hsettled soleWorker 0 _ _ List.mem_cons_self
    ⟨⟨4, 0, rfl, rfl⟩, rfl, _, rfl, rfl⟩ ⟨_, rfl, rfl⟩
  have hnone : numberedRows 0 1 ((cancelledMidCall.foldl (after documentedRack) {}).after
      documentedRack (.commit soleWorker 4 0)).store.db = [] := rfl
  cases hnone.symm.trans hrows

end World

end LoadCoach

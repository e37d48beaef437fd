import LoadCoach.Store.Cancellation

/-! # Which state changes are legal

Every writer but one moves a row along the table: `transition` checks the edge, and the claim
writes one.  The synchronous path assigns the state of the row it reserved, so whether its write
is an edge depends on the state it finds: a result is never one, since only `validating`
completes, and an error is one unless the row was cancelled in the meantime
(`isLegal_failed`).  `Op.Orderly` says of one step that it is not such a write;
`legal_iff_orderly` says that along a run every state change is an edge of the table, and no
ended job changes, exactly when every step is orderly.

For one half the synchronous writes that are not orderly have to take effect: `persist_commits`
shows that the attempts of an execution are always accepted by its row. -/

namespace LoadCoach

open Foundations Relation

variable {rack : ModelRack}

/-! ### Legal writes -/

/-- A write that changes nothing or is an edge of the table. -/
def LegalWrite (before after : JobState) : Prop := before = after ∨ isLegal before after = true

instance (before after : JobState) : Decidable (LegalWrite before after) :=
  inferInstanceAs (Decidable (_ ∨ _))

theorem legalWrite_failed_iff (s : JobState) :
    LegalWrite s .failed ↔ s ∉ cancelStates ∧ s ≠ .completed := by
  cases s <;> decide

namespace Track

variable {who : Writer} {t t' t'' : Track} {job : Job}

/-- The writes that lead from one track to another are legal. -/
def LegalTo (t t' : Track) : Prop :=
  ∃ ws, t'.writes = t.writes ++ ws ∧ ∀ c ∈ ws, LegalWrite c.1 c.2

theorem LegalTo.refl (t : Track) : LegalTo t t := ⟨[], by simp, by simp⟩

theorem LegalTo.trans (h₁ : LegalTo t t') (h₂ : LegalTo t' t'') : LegalTo t t'' := by
  obtain ⟨ws₁, heq₁, hlegal₁⟩ := h₁
  obtain ⟨ws₂, heq₂, hlegal₂⟩ := h₂
  refine ⟨ws₁ ++ ws₂, by rw [heq₂, heq₁, List.append_assoc], fun c hc => ?_⟩
  rcases List.mem_append.1 hc with hc | hc
  · exact hlegal₁ c hc
  · exact hlegal₂ c hc

theorem legalTo_iff_of_writes {ws : List (JobState × JobState)}
    (h : t'.writes = t.writes ++ ws) : LegalTo t t' ↔ ∀ c ∈ ws, LegalWrite c.1 c.2 := by
  constructor
  · rintro ⟨ws', heq, hlegal⟩
    rwa [List.append_cancel_left (h.symm.trans heq)]
  · exact fun hlegal => ⟨ws, h, hlegal⟩

theorem LegalTo.single {row : Option Job} {attempts : List JobAttempt} {a b : JobState}
    (h : LegalWrite a b) : LegalTo t { row, attempts, writes := t.writes ++ [(a, b)] } :=
  ⟨[(a, b)], rfl, by simpa using h⟩

/-- **Every writer but the synchronous path moves along the table.** -/
theorem Step.legalTo (hstep : Step rack who t t') (hwho : who ≠ .synchronous) : LegalTo t t' := by
  cases hstep with
  | move _ _ _ _ hlegal => exact .single (.inr hlegal)
  | lease => exact .single (.inr (by decide))
  | assign hsync => exact absurd hsync hwho
  | _ => exact ⟨[], (List.append_nil _).symm, by simp⟩

theorem Path.legalTo (hpath : Path rack who t t') (hwho : who ≠ .synchronous) :
    LegalTo t t' := by
  induction hpath with
  | refl => exact .refl t
  | tail _ hstep ih => exact ih.trans (hstep.legalTo hwho)

/-- The writes lead from one state to another, each from where the one before it ended. -/
def Chain : JobState → List (JobState × JobState) → JobState → Prop
  | a, [], b => a = b
  | a, c :: ws, b => c.1 = a ∧ Chain c.2 ws b

theorem Chain.append {a b c : JobState} {ws₁ ws₂ : List (JobState × JobState)}
    (h₁ : Chain a ws₁ b) (h₂ : Chain b ws₂ c) : Chain a (ws₁ ++ ws₂) c := by
  induction ws₁ generalizing a with
  | nil =>
      have hab : a = b := h₁
      rw [hab]
      exact h₂
  | cons w ws ih => exact ⟨h₁.1, ih h₁.2⟩

theorem Chain.terminal {a b : JobState} {ws : List (JobState × JobState)} (h : Chain a ws b)
    (hlegal : ∀ c ∈ ws, LegalWrite c.1 c.2) (ha : a ∈ terminalStates) : b = a := by
  induction ws generalizing a with
  | nil => exact Eq.symm h
  | cons c ws ih =>
      obtain ⟨hfirst, hrest⟩ := h
      have hsame : c.2 = a := by
        rcases hlegal c List.mem_cons_self with heq | hedge
        · exact heq.symm.trans hfirst
        · rw [hfirst, not_isLegal_of_terminal ha] at hedge
          cases hedge
      rw [hsame] at hrest
      exact ih hrest (fun c hc => hlegal c (List.mem_cons_of_mem _ hc)) ha

theorem Step.chain (hstep : Step rack who t t') (hrow : t.row = some job) :
    ∃ job' ws, t'.row = some job' ∧ t'.writes = t.writes ++ ws ∧
      Chain job.state ws job'.state := by
  cases hstep with
  | insert hnone => exact absurd (hrow.symm.trans hnone) (by simp)
  | move _ _ _ hrow₁ =>
      cases hrow.symm.trans hrow₁
      exact ⟨_, _, rfl, rfl, rfl, (Job.moved_state _ _ _ _ _).symm⟩
  | lease _ _ hrow₁ hstate =>
      cases hrow.symm.trans hrow₁
      exact ⟨_, _, rfl, rfl, hstate.symm, rfl⟩
  | assign _ hrow₁ =>
      cases hrow.symm.trans hrow₁
      exact ⟨_, _, rfl, rfl, rfl, rfl⟩
  | record hrow₁ | renew _ _ hrow₁ | touch _ _ _ _ hrow₁ =>
      cases hrow.symm.trans hrow₁
      exact ⟨_, [], rfl, by simp, rfl⟩

/-- **The journal is what happened**: the writes a path adds lead from the state of the row before
it to the state of the row after it. -/
theorem Path.chain (hpath : Path rack who t t') (hrow : t.row = some job) :
    ∃ job' ws, t'.row = some job' ∧ t'.writes = t.writes ++ ws ∧
      Chain job.state ws job'.state := by
  induction hpath with
  | refl => exact ⟨job, [], hrow, by simp, rfl⟩
  | tail _ hstep ih =>
      obtain ⟨job₁, ws₁, hrow₁, hwrites₁, hchain₁⟩ := ih
      obtain ⟨job₂, ws₂, hrow₂, hwrites₂, hchain₂⟩ := hstep.chain hrow₁
      exact ⟨job₂, ws₁ ++ ws₂, hrow₂, by rw [hwrites₂, hwrites₁, List.append_assoc],
        hchain₁.append hchain₂⟩

theorem Path.extends (hpath : Path rack who t t') : ∃ ws, t'.writes = t.writes ++ ws := by
  induction hpath with
  | refl => exact ⟨[], by simp⟩
  | tail _ hstep ih =>
      obtain ⟨ws, hwrites⟩ := ih
      cases hstep with
      | move | lease | assign => exact ⟨ws ++ [_], by rw [hwrites, List.append_assoc]⟩
      | record | renew | touch | insert => exact ⟨ws, hwrites⟩

/-- A row that was never queued, without attempts, in a state no legal write completes: only the
synchronous path takes it out of this. -/
def Untouched (t : Track) : Prop :=
  ∃ job, t.row = some job ∧ job.queuedAt = none ∧ job.attempt = 0 ∧
    ¬ LegalWrite job.state .completed

theorem MayMove.not_completable {target : JobState} (hmay : MayMove who job target)
    (howner : job.leaseOwner = none) : ¬ LegalWrite target .completed := by
  cases who with
  | worker w => exact absurd (howner.symm.trans hmay) (by simp)
  | canceller =>
      rcases cancelTarget_eq_some hmay with rfl | rfl <;> decide
  | reaper | recovery =>
      have htarget := hmay.2
      revert htarget
      cases target <;> cases job.state <;> cases job.idempotent <;> decide
  | expiry | reevaluation | watchdog =>
      rw [hmay.2]
      decide
  | _ => exact hmay.elim

theorem Step.untouched (hstep : Step rack who t t') (hwho : who ≠ .synchronous)
    (hsound : Sound rack t) (h : Untouched t) : Untouched t' := by
  obtain ⟨job, hrow, hqueued, hattempt, hstate⟩ := h
  have howner : job.leaseOwner = none := by
    by_contra howner
    have := hsound.queued job hrow (Option.isSome_iff_ne_none.2 howner)
    simp [hqueued] at this
  cases hstep with
  | move _ _ _ hrow₁ _ hmay =>
      cases hrow.symm.trans hrow₁
      exact ⟨_, rfl, by simpa using hqueued, by simpa using hattempt, by
        rw [Job.moved_state]
        exact hmay.not_completable howner⟩
  | record hrow₁ hmay =>
      cases hrow.symm.trans hrow₁
      cases who with
      | worker w => exact absurd (howner.symm.trans hmay) (by simp)
      | synchronous => exact absurd rfl hwho
      | _ => exact hmay.elim
  | lease _ _ hrow₁ _ hqueued₁ =>
      cases hrow.symm.trans hrow₁
      simp [hqueued] at hqueued₁
  | assign hsync => exact absurd hsync hwho
  | insert hnone => exact absurd (hrow.symm.trans hnone) (by simp)
  | renew _ _ hrow₁ | touch _ _ _ _ hrow₁ =>
      cases hrow.symm.trans hrow₁
      exact ⟨_, rfl, hqueued, hattempt, hstate⟩

theorem Path.untouched (hpath : Path rack who t t') (hwho : who ≠ .synchronous)
    (hsound : Sound rack t) (h : Untouched t) : Untouched t' := by
  induction hpath with
  | refl => exact h
  | tail hpath₁ hstep ih => exact hstep.untouched hwho (Path.sound hpath₁ hsound) ih

end Track

/-! ### The synchronous writes take effect -/

namespace Db

variable {db db' : Db} {jobId : JobId} {job : Job}

theorem assign_commits (f : Job → Job) (hrow : db.jobs.lookup jobId = some job) :
    ∃ db', db.assign jobId f = .ok db' ∧
      db.OnlyTrack jobId
        { db.track jobId with
          row := some (f job)
          writes := (db.track jobId).writes ++ [(job.state, (f job).state)] } db' := by
  have hassign : ∃ db', db.assign jobId f = .ok db' := by
    unfold assign
    rw [hrow]
    exact ⟨_, rfl⟩
  obtain ⟨db', hassign⟩ := hassign
  obtain ⟨job', hrow', honly⟩ := track_assign hassign
  cases hrow.symm.trans hrow'
  exact ⟨db', hassign, honly⟩

theorem writeAttempts_commits {records : List AttemptRecord}
    (hrow : db.jobs.lookup jobId = some job)
    (hattempts : (db.track jobId).attempts.map JobAttempt.attempt = List.range' 1 job.attempt)
    (hnumbers : records.map AttemptRecord.attempt =
      List.range' (job.attempt + 1) records.length) :
    ∃ db', db.writeAttempts jobId records = .ok db' ∧
      (db'.track jobId).writes = (db.track jobId).writes := by
  induction records generalizing db job with
  | nil => exact ⟨db, rfl, rfl⟩
  | cons record records ih =>
      simp only [List.map_cons, List.length_cons, List.range'_succ, List.cons.injEq] at hnumbers
      obtain ⟨hnumber, hnumbers⟩ := hnumbers
      have hunique : ¬ ∃ row ∈ db.jobAttempts, row.jobId = jobId ∧
          row.attempt = job.attempt + 1 := by
        rintro ⟨row, hmem, hjob, hattempt⟩
        have hrange : row.attempt ∈ List.range' 1 job.attempt := by
          rw [← hattempts]
          exact List.mem_map_of_mem (List.mem_filter.2 ⟨hmem, by simpa using hjob⟩)
        rw [List.mem_range'_1] at hrange
        omega
      obtain ⟨db₁, hwrite⟩ : ∃ db₁, db.writeAttempt jobId record none = .ok db₁ :=
        ⟨_, writeAttempt_eq_ok.2 ⟨job, hrow, rfl, hnumber.symm, hunique, rfl⟩⟩
      obtain ⟨job', hrow', -, -, honly, -⟩ := track_writeAttempt hwrite
      cases hrow.symm.trans hrow'
      have hattempts₁ : (db₁.track jobId).attempts.map JobAttempt.attempt =
          List.range' 1 job.counted.attempt := by
        rw [honly, List.map_append, hattempts, Job.counted_attempt, List.range'_1_concat,
          List.map_singleton, Nat.add_comm]
      obtain ⟨db', hrest, hsame⟩ := ih (congrArg Track.row honly) hattempts₁ hnumbers
      refine ⟨db', ?_, hsame.trans (by rw [honly])⟩
      rw [writeAttempts, List.foldlM_cons, hwrite]
      exact hrest

/-- **The end of an execution is always written**, with its state. -/
theorem persist_commits (outcome : SyncOutcome) (profile : String × String) (now : Instant)
    {records : List AttemptRecord} (hrow : db.jobs.lookup jobId = some job)
    (hattempt : job.attempt = 0) (hsound : (db.track jobId).Sound rack)
    (hnumbers : records.map AttemptRecord.attempt = List.range' 1 records.length) :
    ∃ db', db.persist jobId outcome profile records now = .ok db' ∧
      (db'.track jobId).writes =
        (db.track jobId).writes ++ [(job.state, outcome.state)] := by
  obtain ⟨db₁, hassign, honly, -⟩ :=
    assign_commits (Job.persisted outcome profile records.length now) hrow
  have hrow₁ := congrArg Track.row honly
  obtain ⟨db₂, hwrite, hsame⟩ := writeAttempts_commits hrow₁
    (by rw [honly]; exact hsound.numbered job hrow)
    (by rw [hnumbers]; exact congrArg (fun n => List.range' (n + 1) records.length) hattempt.symm)
  refine ⟨db₂.append jobId outcome.eventType now "", ?_, ?_⟩
  · rw [persist, hassign, ok_bind, hwrite]
    rfl
  · rw [track_append, hsame, honly]
    rfl

theorem failReserved_commits (code message : String) (now : Instant)
    (hrow : db.jobs.lookup jobId = some job) :
    ∃ db', db.failReserved jobId code message now = .ok db' ∧
      (db'.track jobId).writes = (db.track jobId).writes ++ [(job.state, .failed)] := by
  obtain ⟨db₁, hassign, honly, -⟩ := assign_commits (Job.failedWith code message now) hrow
  refine ⟨db₁.append jobId "error" now "", ?_, ?_⟩
  · rw [failReserved, hassign]
    rfl
  · rw [track_append, honly]
    rfl

/-- What the last resort writes: nothing if the stream has its terminal frame or the job ended,
and else the failure. -/
theorem backstop_commits (message : String) (now : Instant)
    (hrow : db.jobs.lookup jobId = some job) :
    ∃ db', db.backstop jobId message now = .ok db' ∧
      (db'.track jobId).writes = (db.track jobId).writes ++
        if db.hasTerminalFrame jobId ∨ job.state ∈ terminalStates then []
        else [(job.state, .failed)] := by
  unfold backstop
  by_cases hframe : db.hasTerminalFrame jobId = true
  · exact ⟨db, by simp [hframe], by simp [hframe]⟩
  · rw [if_neg hframe]
    by_cases hterminal : job.state ∈ terminalStates
    · refine ⟨db.append jobId "error" now "", ?_, by simp [hterminal]⟩
      simp [failUnended, hrow, hterminal, ok_bind, pure, Except.pure]
    · obtain ⟨db₁, hassign, honly, -⟩ :=
        assign_commits (Job.failedWith "INTERNAL_ERROR" message now) hrow
      refine ⟨db₁.append jobId "error" now "", ?_, ?_⟩
      · simp [failUnended, hrow, hterminal, hassign, ok_bind, pure, Except.pure]
      · rw [track_append, honly]
        simp [hframe, hterminal, Job.failedWith]

theorem track_foldl_append {α : Type} {eventType message : α → String} {now : Instant}
    (l : List α) (db : Db) (k : JobId) :
    (l.foldl (fun db a => db.append jobId (eventType a) now (message a)) db).track k =
      db.track k := by
  induction l generalizing db with
  | nil => rfl
  | cons a l ih => rw [List.foldl_cons, ih, track_append]

theorem writeAttempts_unwritten {records : List AttemptRecord}
    (h : db.writeAttempts jobId records = .ok db') :
    (db'.track jobId).writes = (db.track jobId).writes := by
  induction records generalizing db with
  | nil =>
      rw [writeAttempts, List.foldlM_nil, pure_eq_ok] at h
      rw [h]
  | cons record records ih =>
      rw [writeAttempts, List.foldlM_cons, bind_eq_ok] at h
      obtain ⟨db₁, hattempt, hrest⟩ := h
      obtain ⟨job, -, -, -, honly, -⟩ := track_writeAttempt hattempt
      rw [ih hrest, honly]

theorem persistNew_unwritten {r : GenerateRequest} {profile : String × String}
    {outcome : SyncOutcome} {records : List AttemptRecord} {now : Instant}
    (h : db.persistNew jobId r profile outcome records now = .ok db') :
    (db'.track jobId).writes = (db.track jobId).writes := by
  simp only [persistNew, bind_eq_ok, pure_eq_ok] at h
  obtain ⟨db₁, hinsert, db₂, hattempts, rfl⟩ := h
  rw [track_append, track_foldl_append, track_append, writeAttempts_unwritten hattempts,
    (track_insertJob hinsert).2.1]

end Db

/-! ### Runs -/

theorem legalWrites_failed_iff {db : Db} {j : JobId} {job : Job}
    (hrow : db.jobs.lookup j = some job) (hstate : ¬ LegalWrite job.state .completed) :
    (∀ c ∈ [(job.state, JobState.failed)], LegalWrite c.1 c.2) ↔
      ∀ job, db.jobs.lookup j = some job → job.state ∉ cancelStates := by
  have hdone : job.state ≠ .completed := fun h => hstate (.inl h)
  simp [legalWrite_failed_iff, hrow, hdone]

/-- The step is not a synchronous write off the table: it does not end a reserved row with a
result, and it ends none with an error that was cancelled in the meantime. -/
def Op.Orderly (s : Store) : Op → Prop
  | persist _ (.result ..) .. => False
  | persist j (.error ..) .. | failReserved j .. =>
      ∀ job, s.db.jobs.lookup j = some job → job.state ∉ cancelStates
  | backstop j .. => s.db.hasTerminalFrame j = true ∨
      ∀ job, s.db.jobs.lookup j = some job → job.state ≠ .cancelling
  | _ => True

namespace Store

variable {h : List (Foundations.Step Store Op)} {s : Store} {op : Op} {db : Db} {j : JobId}

theorem untouched_of_reserveSyncJob {r : GenerateRequest} {profile : String × String}
    {now : Instant} {ttlHours : ℚ}
    (hrun : s.db.reserveSyncJob rack j r profile now ttlHours = .ok db) :
    (db.track j).Untouched := by
  simp only [Db.reserveSyncJob, bind_eq_ok] at hrun
  obtain ⟨turns, -, hinsert⟩ := hrun
  exact ⟨_, congrArg Track.row (Db.track_insertJob hinsert).2.1, rfl, rfl,
    (by decide : ¬ LegalWrite .executing .completed)⟩

theorem untouched_of_syncJob (henabled : op.Enabled rack s) (hjob : op.syncJob = some j)
    (hrun : op.run rack s.db = .ok db)
    (hj : (match op.phase with
      | none => s.sync
      | some (jobId, phase) => Function.update s.sync jobId phase) j = .running)
    (ih : s.sync j = .running → (s.db.track j).Untouched) : (db.track j).Untouched := by
  cases op <;> cases hjob
  case reserveSyncJob => exact untouched_of_reserveSyncJob hrun
  case routed => exact Except.ok.inj hrun ▸ ih hj
  case persistNew =>
    obtain ⟨job, hrow, -⟩ := ih hj
    simp only [Op.run, Db.persistNew, bind_eq_ok] at hrun
    obtain ⟨db₁, hinsert, -⟩ := hrun
    exact absurd (hrow.symm.trans (Db.track_insertJob hinsert).1) (by simp)
  case backstop =>
    have hended : s.sync j = .ended := henabled
    simp [Op.phase, hended] at hj
  all_goals simp [Op.phase] at hj

/-- **While a synchronous execution runs, nobody else completes its row or counts an attempt.** -/
theorem untouched (hrun : Run (system rack) h s) (j : JobId) (hj : s.sync j = .running) :
    (s.db.track j).Untouched := by
  induction hrun generalizing j with
  | start hs =>
      rw [Set.mem_singleton_iff.1 hs] at hj
      cases hj
  | @step h s _ op hpast hnext ih =>
      obtain ⟨henabled, rfl⟩ := hnext
      have hrows := syncRows hpast
      rcases after_cases rack s op with ⟨e, -, hsame⟩ | ⟨db, hrun, hdb, hsync⟩
      · rw [hsame] at hj ⊢
        exact ih j hj
      · rw [hsync] at hj
        rw [hdb]
        by_cases hwho : op.writer = .synchronous
        · obtain ⟨k, hjob⟩ := Option.ne_none_iff_exists'.1 fun hnone =>
            Op.syncJob_eq_none_iff.1 hnone hwho
          have hframe := (op.run_writesTo hrows henabled hjob hrun).frame
          by_cases hjk : j = k
          · subst hjk
            exact untouched_of_syncJob henabled hjob hrun hj (ih j)
          · rw [hframe j hjk]
            refine ih j ?_
            cases op <;> cases hjob <;> simpa [Op.phase, hjk] using hj
        · have hphase : op.phase = none := by
            cases op <;> first | rfl | exact absurd rfl hwho
          rw [hphase] at hj
          exact ((op.run_writes hrows henabled hrun) j).untouched hwho (sound hpast j) (ih j hj)

theorem legalTo_iff_of_commits {ws : List (JobState × JobState)} (hrows : s.SyncRows)
    (henabled : op.Enabled rack s) (hjob : op.syncJob = some j) (hrun : op.run rack s.db = .ok db)
    (hwrites : (db.track j).writes = (s.db.track j).writes ++ ws) :
    (∀ k, (s.db.track k).LegalTo ((s.after rack op).db.track k)) ↔
      ∀ c ∈ ws, LegalWrite c.1 c.2 := by
  have hdb : (s.after rack op).db = db := by
    unfold after
    rw [hrun]
  rw [hdb]
  constructor
  · intro h
    exact (Track.legalTo_iff_of_writes hwrites).1 (h j)
  · intro h k
    by_cases hk : k = j
    · rw [hk]
      exact (Track.legalTo_iff_of_writes hwrites).2 h
    · rw [(op.run_writesTo hrows henabled hjob hrun).frame k hk]
      exact .refl _

theorem legalTo_of_unwritten (hrows : s.SyncRows) (henabled : op.Enabled rack s)
    (hjob : op.syncJob = some j)
    (hwrites : ∀ db, op.run rack s.db = .ok db →
      (db.track j).writes = (s.db.track j).writes) (k : JobId) :
    (s.db.track k).LegalTo ((s.after rack op).db.track k) := by
  rcases after_cases rack s op with ⟨e, -, hsame⟩ | ⟨db, hrun, -, -⟩
  · rw [hsame]
    exact .refl _
  · have hnone : (db.track j).writes = (s.db.track j).writes ++ [] := by
      rw [List.append_nil]
      exact hwrites db hrun
    exact (legalTo_iff_of_commits hrows henabled hjob hrun hnone).2 (by simp) k

/-- **A step writes only along the table exactly when it is orderly.** -/
theorem legalTo_iff_orderly (hrun : Run (system rack) h s) (henabled : op.Enabled rack s) :
    (∀ j, (s.db.track j).LegalTo ((s.after rack op).db.track j)) ↔ op.Orderly s := by
  have hrows := syncRows hrun
  cases op
  case persist jobId outcome profile records now =>
    obtain ⟨job, hrow, -, hattempt, hstate⟩ := untouched hrun jobId henabled.1
    obtain ⟨db, hok, hwrites⟩ :=
      Db.persist_commits outcome profile now hrow hattempt (sound hrun jobId) henabled.2
    rw [legalTo_iff_of_commits hrows henabled rfl hok hwrites]
    cases outcome with
    | result => simpa [Op.Orderly, SyncOutcome.state] using hstate
    | error => exact legalWrites_failed_iff hrow hstate
  case failReserved jobId code message now =>
    obtain ⟨job, hrow, -, -, hstate⟩ := untouched hrun jobId henabled
    obtain ⟨db, hok, hwrites⟩ := Db.failReserved_commits code message now hrow
    rw [legalTo_iff_of_commits hrows henabled rfl hok hwrites]
    exact legalWrites_failed_iff hrow hstate
  case backstop jobId message now =>
    have hended : s.sync jobId = .ended := henabled
    obtain ⟨job, hrow, -⟩ := hrows jobId (by simp [hended])
    obtain ⟨db, hok, hwrites⟩ := Db.backstop_commits message now hrow
    rw [legalTo_iff_of_commits hrows henabled rfl hok hwrites]
    simp only [Op.Orderly, hrow, Option.some.injEq, forall_eq']
    by_cases hframe : s.db.hasTerminalFrame jobId = true
    · simp [hframe]
    · simp only [hframe, Bool.false_eq_true, false_or]
      cases job.state <;> decide
  case reserveSyncJob jobId r profile now ttlHours =>
    refine iff_of_true (legalTo_of_unwritten hrows henabled rfl fun db hok => ?_) trivial
    simp only [Op.run, Db.reserveSyncJob, bind_eq_ok] at hok
    obtain ⟨turns, -, hinsert⟩ := hok
    rw [(Db.track_insertJob hinsert).2.1]
  case persistNew jobId r profile outcome records now =>
    refine iff_of_true (legalTo_of_unwritten hrows henabled rfl fun db hok => ?_) trivial
    exact Db.persistNew_unwritten hok
  case routed | abandon =>
    exact iff_of_true (legalTo_of_unwritten hrows henabled rfl fun db hok =>
      Except.ok.inj hok ▸ rfl) trivial
  all_goals
    refine iff_of_true (fun j => (after_writes hrows henabled j).legalTo ?_) trivial
    simp [Op.writer]

theorem mem_writes_iff {db : Db} {j : JobId} {c : JobState × JobState} :
    c ∈ (db.track j).writes ↔ ⟨j, c.1, c.2⟩ ∈ db.journal := by
  simp only [Db.track, List.mem_map, List.mem_filter, decide_eq_true_eq]
  constructor
  · rintro ⟨⟨_, _, _⟩, ⟨hmem, rfl⟩, rfl⟩
    exact hmem
  · exact fun hmem => ⟨_, ⟨hmem, rfl⟩, rfl⟩

theorem writes_of_past {h₁ h₂ : List (Foundations.Step Store Op)}
    {e : Foundations.Step Store Op} {c : JobState × JobState}
    (hrun : Run (system rack) (h₁ ++ e :: h₂) s) (hc : c ∈ (e.post.db.track j).writes) :
    c ∈ (s.db.track j).writes := by
  have hstable := hrun.stable (P := fun s => c ∈ (s.db.track j).writes) hc ?_
  · exact hstable.1
  · intro e' he' hpre
    obtain ⟨ws, hwrites⟩ := (writes_of_mem hrun (List.mem_append_left _ he') j).extends
    rw [hwrites]
    exact List.mem_append_left ws hpre

theorem journal_legal_iff (hrun : Run (system rack) h s) :
    (∀ c ∈ s.db.journal, LegalWrite c.before c.after) ↔
      ∀ e ∈ h, ∀ j, (e.pre.db.track j).LegalTo (e.post.db.track j) := by
  constructor
  · intro hlegal e he j
    obtain ⟨ws, hwrites⟩ := (writes_of_mem hrun he j).extends
    refine (Track.legalTo_iff_of_writes hwrites).2 fun c hc => ?_
    obtain ⟨h₁, h₂, rfl⟩ := List.append_of_mem he
    have hpost : c ∈ (e.post.db.track j).writes := by
      rw [hwrites]
      exact List.mem_append_right _ hc
    exact hlegal _ (mem_writes_iff.1 (writes_of_past hrun hpost))
  · intro hlegal c hc
    have hall : ∀ j, ∀ c ∈ (s.db.track j).writes, LegalWrite c.1 c.2 := by
      refine hrun.invariant_of_steps (P := fun s => ∀ j, ∀ c ∈ (s.db.track j).writes,
        LegalWrite c.1 c.2) ?_ ?_ hlegal
      · rintro _ rfl j c hc
        cases hc
      · intro e _ hstep hpre j c hc
        obtain ⟨ws, hwrites, hws⟩ := hstep j
        rw [hwrites] at hc
        rcases List.mem_append.1 hc with hc | hc
        · exact hpre j c hc
        · exact hws c hc
    exact hall c.jobId (c.before, c.after) (mem_writes_iff.2 hc)

/-- **The state machine.**  Along a run every write of a job's state is an edge of the table or
leaves the state as it was, and no job that ended ever changes, exactly when every step is
orderly: no synchronous execution ends its reserved row with a result, or with an error once the
row was cancelled. -/
theorem stateMachine_iff_orderly (hrun : Run (system rack) h s) :
    ((∀ c ∈ s.db.journal, c.before = c.after ∨ isLegal c.before c.after = true) ∧
      ∀ e ∈ h, ∀ j job, e.pre.db.jobs.lookup j = some job → job.state ∈ terminalStates →
        ∃ job', e.post.db.jobs.lookup j = some job' ∧ job'.state = job.state) ↔
      ∀ e ∈ h, e.act.Orderly e.pre := by
  have hsteps : (∀ e ∈ h, ∀ j, (e.pre.db.track j).LegalTo (e.post.db.track j)) ↔
      ∀ e ∈ h, e.act.Orderly e.pre := by
    refine forall₂_congr fun e he => ?_
    obtain ⟨h₂, hpast, henabled, hpost⟩ := hrun.past_of_mem he
    rw [hpost]
    exact legalTo_iff_orderly hpast henabled
  rw [← hsteps, ← journal_legal_iff hrun]
  refine and_iff_left_of_imp fun hlegal e he j job hrow hterminal => ?_
  obtain ⟨job', ws, hrow', hwrites, hchain⟩ := (writes_of_mem hrun he j).chain hrow
  have hws := (Track.legalTo_iff_of_writes hwrites).1 ((journal_legal_iff hrun).1 hlegal e he j)
  exact ⟨job', hrow', hchain.terminal hws hterminal⟩

/-- A synchronous execution whose job is cancelled while its provider call runs. -/
def cancelledCall : List Op :=
  [.reserveSyncJob 0 { task := "chat", prompt := some "hello" } ("chat", "1") 0 24,
   .cancelJob 0 1,
   .forceCancelled 0 (seconds 60) 30]

/-- The call answers. -/
def answered : Op :=
  .persist 0 (.result {} { modelId := "m" }) ("chat", "1")
    [{ attempt := 1, outcome := .completed }] (seconds 61)

theorem cancelledCall_admissible :
    Admissible (fun s op => op.Enabled documentedRack s) (after documentedRack) {}
      (cancelledCall ++ [answered]) :=
  ⟨⟨⟨[{ role := .user, content := "hello" }], rfl, by simp [AcceptedTurns, documentedRack]⟩,
    by simp⟩, trivial, trivial, ⟨rfl, rfl⟩, trivial⟩

/-- The result of the call completes a cancelled job. -/
theorem stateMachine_broken : ∃ h s, Run (system documentedRack) h s ∧
    ¬ ((∀ c ∈ s.db.journal, c.before = c.after ∨ isLegal c.before c.after = true) ∧
      ∀ e ∈ h, ∀ j job, e.pre.db.jobs.lookup j = some job → job.state ∈ terminalStates →
        ∃ job', e.post.db.jobs.lookup j = some job' ∧ job'.state = job.state) := by
  refine ⟨_, _, .replay cancelledCall_admissible, ?_⟩
  rintro ⟨-, hterminal⟩
  obtain ⟨job', hrow', hstate'⟩ := hterminal _ List.mem_cons_self 0 _ rfl
    (by decide : JobState.cancelled ∈ terminalStates)
  cases hrow'
  cases hstate'

/-- The equivalence on that run. -/
theorem stateMachine_iff_orderly_cancelledCall :
    ¬ ∀ e ∈ trace (after documentedRack) {} (cancelledCall ++ [answered]),
      e.act.Orderly e.pre := by
  rw [← stateMachine_iff_orderly (.replay cancelledCall_admissible)]
  rintro ⟨hlegal, -⟩
  have hwrite := hlegal ⟨0, .cancelled, .completed⟩ (by decide)
  revert hwrite
  decide

end Store

end LoadCoach

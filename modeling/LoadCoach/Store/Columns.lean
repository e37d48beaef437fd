import LoadCoach.Store.System

/-! # Columns most transactions leave alone

A *view* of a row is any function of it; a view is carried (`Carried`) if it does not see what the
queue's own statements write: states, leases, counters, priorities and results.  Every transaction
that neither inserts a row nor looks a key up leaves the carried views of every row alone
(`Op.run_view`); the synchronous endings, which assign whole rows, have to be asked for the view
they assign. -/

namespace LoadCoach

open Foundations Relation

variable {β : Type} {view : Job → β}

/-- A view that does not see what the queue writes into a row. -/
structure Carried (view : Job → β) : Prop where
  moved : ∀ target now reason values job, view (job.moved target now reason values) = view job
  counted : ∀ job : Job, view job.counted = view job
  leased : ∀ w expiresAt job, view (Job.leasedBy w expiresAt job) = view job
  renewed : ∀ expiresAt (job : Job), view { job with leaseExpiresAt := expiresAt } = view job
  prioritised : ∀ p (job : Job), view { job with effectivePriority := p } = view job

/-- A view that does not see what workers and keepers write; it may see the priority. -/
structure Worked (view : Job → β) : Prop where
  moved : ∀ target now reason values job, view (job.moved target now reason values) = view job
  counted : ∀ job : Job, view job.counted = view job
  leased : ∀ w expiresAt job, view (Job.leasedBy w expiresAt job) = view job
  renewed : ∀ expiresAt (job : Job), view { job with leaseExpiresAt := expiresAt } = view job

theorem Carried.worked (h : Carried view) : Worked view := ⟨h.moved, h.counted, h.leased, h.renewed⟩

namespace Track

variable {rack : ModelRack} {who : Writer} {t t' : Track}

theorem Step.viewed (hview : Worked view) (hstep : Step rack who t t')
    (hhouse : who ≠ .housekeeping) (hsync : who ≠ .synchronous) (hsubmit : who ≠ .submitter) :
    t'.row.map view = t.row.map view := by
  cases hstep with
  | move _ _ _ hrow => simp [hrow, hview.moved]
  | record hrow => simp [hrow, hview.counted]
  | lease _ _ hrow => simp [hrow, hview.leased]
  | renew _ _ hrow => simp [hrow, hview.renewed]
  | touch _ _ _ hwho => exact absurd hwho hhouse
  | assign hwho => exact absurd hwho hsync
  | insert _ hfresh =>
      rcases hfresh.writer with ⟨hwho, -⟩ | ⟨hwho, -⟩
      · exact absurd hwho hsubmit
      · exact absurd hwho hsync

theorem Path.viewed (hview : Worked view) (hpath : Path rack who t t')
    (hhouse : who ≠ .housekeeping) (hsync : who ≠ .synchronous) (hsubmit : who ≠ .submitter) :
    t'.row.map view = t.row.map view := by
  induction hpath with
  | refl => rfl
  | tail _ hstep ih => exact (hstep.viewed hview hhouse hsync hsubmit).trans ih

end Track

namespace Db

variable {db db' : Db} {jobId : JobId}

/-- A view of every row. -/
def viewed (view : Job → β) (db : Db) (j : JobId) : Option β := (db.jobs.lookup j).map view

theorem viewed_of_onlyTrack {t' : Track} (honly : db.OnlyTrack jobId t' db')
    (hrow : t'.row.map view = db.viewed view jobId) : db'.viewed view = db.viewed view := by
  funext k
  by_cases hk : k = jobId
  · subst hk
    exact (congrArg (Option.map view) (congrArg Track.row honly.1)).trans hrow
  · exact congrArg (Option.map view) (congrArg Track.row (honly.2 k hk))

theorem viewed_assign {f : Job → Job} (h : db.assign jobId f = .ok db')
    (hf : ∀ job, db.jobs.lookup jobId = some job → view (f job) = view job) :
    db'.viewed view = db.viewed view := by
  obtain ⟨job, hrow, honly⟩ := track_assign h
  refine viewed_of_onlyTrack honly ?_
  rw [viewed, hrow]
  exact congrArg some (hf job hrow)

theorem viewed_writeAttempts (hview : Worked view) {records : List AttemptRecord}
    (h : db.writeAttempts jobId records = .ok db') : db'.viewed view = db.viewed view := by
  induction records generalizing db with
  | nil => exact congrArg (viewed view) (pure_eq_ok.1 h).symm
  | cons record records ih =>
      rw [writeAttempts, List.foldlM_cons, bind_eq_ok] at h
      obtain ⟨db₁, hattempt, hrest⟩ := h
      obtain ⟨job, hrow, -, -, honly⟩ := track_writeAttempt hattempt
      have hviewed : db₁.viewed view = db.viewed view := by
        refine viewed_of_onlyTrack honly ?_
        rw [viewed, hrow]
        exact congrArg some (hview.counted job)
      exact (ih hrest).trans hviewed

@[simp] theorem viewed_append (view : Job → β) (db : Db) (jobId : JobId) (eventType : String)
    (now : Instant) (message : String) :
    (db.append jobId eventType now message).viewed view = db.viewed view := rfl

theorem viewed_foldl_append {α : Type} (view : Job → β) (jobId : JobId) (now : Instant)
    (eventType message : α → String) (l : List α) (db : Db) :
    (l.foldl (fun db a => db.append jobId (eventType a) now (message a)) db).viewed view =
      db.viewed view := by
  induction l generalizing db with
  | nil => rfl
  | cons a l ih => exact ih _

theorem viewed_insertJob (view : Job → β) {job : Job} (h : db.insertJob jobId job = .ok db') :
    db.viewed view jobId = none ∧
      db'.viewed view = Function.update (db.viewed view) jobId (some (view job)) := by
  obtain ⟨hnone, honly⟩ := track_insertJob h
  refine ⟨by rw [viewed, hnone]; rfl, ?_⟩
  funext k
  by_cases hk : k = jobId
  · subst hk
    rw [Function.update_self]
    exact congrArg (Option.map view) (congrArg Track.row honly.1)
  · rw [Function.update_of_ne hk]
    exact congrArg (Option.map view) (congrArg Track.row (honly.2 k hk))

end Db

namespace Op

variable {rack : ModelRack} {db db' : Db} {op : Op}

/-- The transactions that insert a row, and the lookup that may release a key. -/
def WritesKeys : Op → Prop
  | enqueue .. | reserveSyncJob .. | persistNew .. | existingJobForKey .. => True
  | _ => False

/-- The view of the row an ending assigns is the one it had. -/
def KeepsView (view : Job → β) (db : Db) : Op → Prop
  | persist jobId outcome profile records now => ∀ job, db.jobs.lookup jobId = some job →
      view (Job.persisted outcome profile records.length now job) = view job
  | failReserved _ code message now =>
      ∀ job, view (Job.failedWith code message now job) = view job
  | backstop _ message now =>
      ∀ job, view (Job.failedWith "INTERNAL_ERROR" message now job) = view job
  | _ => True

/-- **Every other transaction but the sweep leaves the worked views of every row alone.** -/
theorem run_view_of_worked (hview : Worked view) (hop : ¬ op.WritesKeys)
    (hhouse : op.writer ≠ .housekeeping) (hkeeps : op.KeepsView view db)
    (hrun : op.run rack db = .ok db') : db'.viewed view = db.viewed view := by
  have queue : op.Enabled rack ⟨db, fun _ => .absent⟩ → op.writer ≠ .synchronous →
      op.writer ≠ .submitter → db'.viewed view = db.viewed view := by
    intro henabled hsync hsubmit
    have hrows : Store.SyncRows ⟨db, fun _ => .absent⟩ := fun j hj => absurd rfl hj
    funext j
    exact (run_writes hrows henabled hrun j).viewed hview hhouse hsync hsubmit
  cases op with
  | enqueue | reserveSyncJob | persistNew | existingJobForKey => exact absurd trivial hop
  | ageingSweep => exact absurd rfl hhouse
  | routed | abandon =>
      cases hrun
      rfl
  | persist jobId outcome profile records now =>
      simp only [run, Db.persist, bind_eq_ok, pure_eq_ok] at hrun
      obtain ⟨db₁, hassign, db₂, hattempts, rfl⟩ := hrun
      exact (Db.viewed_writeAttempts hview hattempts).trans (Db.viewed_assign hassign hkeeps)
  | failReserved jobId code message now =>
      simp only [run, Db.failReserved, bind_eq_ok, pure_eq_ok] at hrun
      obtain ⟨db₁, hassign, rfl⟩ := hrun
      have hviewed : db₁.viewed view = db.viewed view :=
        Db.viewed_assign hassign fun job _ => hkeeps job
      exact hviewed
  | backstop jobId message now =>
      simp only [run, Db.backstop] at hrun
      split_ifs at hrun with hframe
      · cases hrun
        rfl
      · simp only [bind_eq_ok, pure_eq_ok] at hrun
        obtain ⟨db₁, hfail, rfl⟩ := hrun
        unfold Db.failUnended at hfail
        split at hfail
        · cases hfail
          rfl
        · split_ifs at hfail
          · cases hfail
            rfl
          · have hviewed : db₁.viewed view = db.viewed view :=
              Db.viewed_assign hfail fun job _ => hkeeps job
            exact hviewed
  | _ => exact queue trivial (by simp [writer]) (by simp [writer])

/-- **Every other transaction leaves the carried views of every row alone.** -/
theorem run_view (hview : Carried view) (hop : ¬ op.WritesKeys) (hkeeps : op.KeepsView view db)
    (hrun : op.run rack db = .ok db') : db'.viewed view = db.viewed view := by
  by_cases hhouse : op.writer = .housekeeping
  case neg => exact run_view_of_worked hview.worked hop hhouse hkeeps hrun
  cases op with
  | existingJobForKey => exact absurd trivial hop
  | ageingSweep sql now pointsPerMinute overflowAllowance =>
      cases hrun
      funext j
      simp only [Db.viewed, Db.ageingSweep, Table.lookup_updateWhere, Option.map_map]
      refine congrArg (fun f => Option.map f _) (funext fun job => ?_)
      simp only [Function.comp_apply]
      split_ifs
      · exact hview.prioritised _ job
      · rfl
  | _ => cases hhouse

/-- The row of an execution without a reservation, once its attempts and events are written. -/
theorem run_persistNew_viewed (hview : Worked view) {jobId : JobId} {r : GenerateRequest}
    {profile : String × String} {outcome : SyncOutcome} {records : List AttemptRecord}
    {now : Instant}
    (hrun : (persistNew jobId r profile outcome records now).run rack db = .ok db') :
    ∃ db₁, db.insertJob jobId (unreservedJob r profile outcome records.length now) = .ok db₁ ∧
      db'.viewed view = db₁.viewed view := by
  simp only [run, Db.persistNew, bind_eq_ok, pure_eq_ok] at hrun
  obtain ⟨db₁, hinsert, db₂, hattempts, rfl⟩ := hrun
  refine ⟨db₁, hinsert, ?_⟩
  exact (Db.viewed_foldl_append view jobId now _ _ records _).trans
    ((Db.viewed_append view db₂ jobId "job.executing" now "").trans
      (Db.viewed_writeAttempts hview hattempts))

end Op

end LoadCoach

import LoadCoach.Store.Columns

/-! # Task profiles in the store

A job is stored with the identifier of its task profile and with the request that named the task.
Every caller loads the profile by that name (`Op.LoadsProfile`), so the two agree in every row
(`Db.Profiled`), and no transaction ever changes either (`Op.run_profiled`). -/

namespace LoadCoach

open Foundations

variable {β : Type} {rack : ModelRack} {db db' : Db} {op : Op}

/-- The task a stored request names. -/
def submittedTask (payload : Members) : Except Raised String := item "task" payload >>= pyStr

/-- The columns of a row that say what it is for. -/
def Job.profileColumns (job : Job) : String × Members := (job.taskProfileId, job.requestJson)

theorem carried_profileColumns : Carried Job.profileColumns where
  moved target now reason values job := by
    simp only [Job.moved]
    split_ifs <;> rfl
  counted _ := rfl
  leased _ _ _ := rfl
  renewed _ _ := rfl
  prioritised _ _ := rfl

/-- The profile of every row is the task its request names. -/
def Db.Profiled (db : Db) : Prop :=
  ∀ j columns, db.viewed Job.profileColumns j = some columns →
    submittedTask columns.2 = .ok columns.1

/-- The profile a caller passes is the one it loaded by the name of the task. -/
def Op.LoadsProfile (db : Db) : Op → Prop
  | enqueue _ s profile .. => profile.1 = s.task
  | reserveSyncJob _ r profile .. | persistNew _ r profile .. => profile.1 = r.task
  | persist jobId _ profile .. => ∀ job, db.jobs.lookup jobId = some job →
      submittedTask job.requestJson = .ok profile.1
  | _ => True

namespace Db

theorem viewed_profileColumns {jobId : JobId} {job : Job} (hrow : db.jobs.lookup jobId = some job) :
    db.viewed Job.profileColumns jobId = some (job.taskProfileId, job.requestJson) := by
  rw [viewed, hrow]
  rfl

theorem Profiled.persist_profile {jobId : JobId} {outcome : SyncOutcome}
    {profile : String × String} {records : List AttemptRecord} {now : Instant} {job : Job}
    (hprofiled : db.Profiled)
    (hloads : (Op.persist jobId outcome profile records now).LoadsProfile db)
    (hrow : db.jobs.lookup jobId = some job) : profile.1 = job.taskProfileId :=
  Except.ok.inj ((hloads job hrow).symm.trans (hprofiled jobId _ (viewed_profileColumns hrow)))

theorem viewed_existingJobForKey (view : Job → β)
    (hview : ∀ job : Job,
      view { job with idempotencyKey := none, idempotencyExpiresAt := none } = view job)
    (source key : String) (now : Instant) (db : Db) :
    (db.existingJobForKey source key now).2.viewed view = db.viewed view := by
  unfold existingJobForKey
  split
  · rfl
  · split_ifs
    · funext k
      simp only [viewed, Table.lookup_updateWhere, Option.map_map]
      refine congrArg (fun f => Option.map f _) (funext fun job => ?_)
      simp only [Function.comp_apply]
      split_ifs
      · exact hview job
      · rfl
    · rfl

theorem profiled_insertJob {jobId : JobId} {job : Job} (hprofiled : db.Profiled)
    (hjob : submittedTask job.requestJson = .ok job.taskProfileId)
    (hinsert : db.insertJob jobId job = .ok db') :
    db'.Profiled ∧ ∀ j columns, db.viewed Job.profileColumns j = some columns →
      db'.viewed Job.profileColumns j = some columns := by
  obtain ⟨hfresh, hviewed⟩ := viewed_insertJob Job.profileColumns hinsert
  constructor
  · intro j columns hcolumns
    rw [hviewed] at hcolumns
    by_cases hj : j = jobId
    · subst hj
      rw [Function.update_self] at hcolumns
      cases hcolumns
      exact hjob
    · rw [Function.update_of_ne hj] at hcolumns
      exact hprofiled j columns hcolumns
  · intro j columns hcolumns
    have hj : j ≠ jobId := by
      rintro rfl
      rw [hfresh] at hcolumns
      cases hcolumns
    rw [hviewed, Function.update_of_ne hj]
    exact hcolumns

end Db

/-- **A row keeps its profile and its request**, and they agree. -/
theorem Op.run_profiled (hprofiled : db.Profiled) (hloads : op.LoadsProfile db)
    (hrun : op.run rack db = .ok db') :
    db'.Profiled ∧ ∀ j columns, db.viewed Job.profileColumns j = some columns →
      db'.viewed Job.profileColumns j = some columns := by
  have same : db'.viewed Job.profileColumns = db.viewed Job.profileColumns →
      db'.Profiled ∧ ∀ j columns, db.viewed Job.profileColumns j = some columns →
        db'.viewed Job.profileColumns j = some columns := by
    intro hviewed
    rw [Db.Profiled, hviewed]
    exact ⟨hprofiled, fun j columns hcolumns => hcolumns⟩
  by_cases hop : op.WritesKeys
  case neg =>
    refine same (run_view carried_profileColumns hop ?_ hrun)
    cases op with
    | persist jobId outcome profile records now =>
        intro job hrow
        have htask := hprofiled.persist_profile hloads hrow
        exact congrArg (fun task => (task, job.requestJson)) htask
    | failReserved | backstop => exact fun _ => rfl
    | _ => trivial
  cases op with
  | enqueue jobId s profile pinnedModelId now settings =>
      simp only [run, Db.enqueue, bind_eq_ok, pure_eq_ok] at hrun
      obtain ⟨priority, -, requestJson, hrequest, db₁, hinsert, rfl⟩ := hrun
      obtain ⟨turns, -, rfl⟩ := (map_eq_ok.1 hrequest)
      have hinserted := Db.profiled_insertJob hprofiled
        (show submittedTask (s.requestMembers turns) = .ok profile.1 by rw [hloads]; rfl) hinsert
      exact hinserted
  | reserveSyncJob jobId r profile now ttlHours =>
      simp only [run, Db.reserveSyncJob, bind_eq_ok] at hrun
      obtain ⟨turns, -, hinsert⟩ := hrun
      exact Db.profiled_insertJob hprofiled
        (show submittedTask (syncRequestMembers r turns) = .ok profile.1 by rw [hloads]; rfl)
        hinsert
  | persistNew jobId r profile outcome records now =>
      obtain ⟨db₁, hinsert, hviewed⟩ := run_persistNew_viewed carried_profileColumns.worked hrun
      rw [Db.Profiled, hviewed]
      exact Db.profiled_insertJob hprofiled
        (show submittedTask (unreservedMembers r) = .ok profile.1 by rw [hloads]; rfl) hinsert
  | existingJobForKey source key now =>
      cases hrun
      exact same (Db.viewed_existingJobForKey Job.profileColumns (fun _ => rfl) source key now db)
  | _ => exact hop.elim

end LoadCoach

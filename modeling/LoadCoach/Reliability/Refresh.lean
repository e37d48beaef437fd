import LoadCoach.Reliability.Service
import LoadCoach.Store.Profiles

/-! # Refreshing the statistics

Three call sites refresh the statistics after what they wrote: the worker after an attempt, a
synchronous execution after its attempts, and a verdict after itself.  Each does so in a
transaction of its own, behind the one that wrote; between the two the store may do anything, and
a refresh that raises is lost.

A refresh names a model and a task, and never an adapter.  It names the task right
(`Refreshing.named`), so it maintains the rows of a bare model, and never those of a model with an
adapter (`maintained_iff`). -/

namespace LoadCoach.Reliability

open Foundations

/-! ### Refreshes -/

/-- What a refresh is for. -/
inductive Cause where
  | attempt (row : JobAttempt)
  | feedback (jobId : JobId) (source : String)
deriving DecidableEq

/-- The arguments of a `recompute_pair` that is still to be called: an instant that was fixed
before, or `none` for a reading of the clock. -/
structure Refresh where
  modelId : String
  taskProfileId : String
  instant : Option Instant := none
  causes : List Cause
deriving DecidableEq

/-- The subject a refresh recomputes: the adapter is left at its default. -/
def Refresh.subject (r : Refresh) : Subject := ⟨r.modelId, r.taskProfileId, ""⟩

/-- The subject a stored attempt or verdict counts for. -/
def Cause.subject (t : Tables) : Cause → Option Subject
  | .attempt row =>
      if row ∈ t.store.db.jobAttempts then Subject.ofAttempt t.store.db row else none
  | .feedback jobId source =>
      if (jobId, source) ∈ t.feedback then Subject.ofFeedback t.store.db jobId else none

/-- The job of a cause. -/
def Cause.jobId : Cause → JobId
  | .attempt row => row.jobId
  | .feedback jobId _ => jobId

/-- `_refresh_reliability` of the worker, for the attempt it wrote on the job it holds. -/
def workerRefreshes (db : Db) (jobId : JobId) (record : AttemptRecord) : List Refresh :=
  match record.modelId, record.completedAt, db.jobs.lookup jobId with
  | some modelId, some _, some job =>
      match submittedTask job.requestJson with
      | .ok task =>
          [{ modelId, taskProfileId := task, causes := [.attempt ⟨jobId, record.attempt, record⟩] }]
      | .error _ => []
  | _, _, _ => []

/-- `_refresh_reliability` of a synchronous execution: one for each model its attempts touched. -/
def syncRefreshes (jobId : JobId) (taskProfileId : String) (records : List AttemptRecord) :
    List Refresh :=
  (records.filterMap AttemptRecord.modelId).dedup.map fun modelId =>
    { modelId, taskProfileId
      causes := (records.filter fun record => decide (record.modelId = some modelId)).map
        fun record => .attempt ⟨jobId, record.attempt, record⟩ }

/-- The refreshes a committed transaction is followed by.  A cancelled attempt has none. -/
def refreshesOf (db : Db) : Op → List Refresh
  | .worker _ jobId _ (.recordFailedAttempt record)
  | .worker _ jobId _ (.validateAttempt record) => workerRefreshes db jobId record
  | .persist jobId _ profile records _
  | .persistNew jobId _ profile _ records _ => syncRefreshes jobId profile.1 records
  | _ => []

/-! ### The system -/

/-- The tables, and the refreshes still to be performed. -/
structure Refreshing where
  tables : Tables := {}
  pending : List Refresh := []

/-- What happens next. -/
inductive RefreshAct where
  | store (op : Op)
  | feedback (jobId : JobId) (s : FeedbackSubmission) (now : Instant)
  | refresh (r : Refresh) (now : Instant)
  /-- A refresh raises, or its process is gone. -/
  | lose (r : Refresh)
  | verdicts (verdictOf : Subject → Option BreakerVerdict) (now : Instant)

namespace Refreshing

variable (rack : ModelRack)

/-- The state after an act. -/
def after (s : Refreshing) : RefreshAct → Refreshing
  | .store op =>
      match op.run rack s.tables.store.db with
      | .error _ => s
      | .ok _ =>
          { tables := { s.tables with store := s.tables.store.after rack op }
            pending := s.pending ++ refreshesOf s.tables.store.db op }
  | .feedback jobId submission now =>
      match s.tables.recordFeedback jobId submission now with
      | .error _ => s
      | .ok ((none, _), tables) => { s with tables }
      | .ok ((some modelId, taskProfileId), tables) =>
          { tables
            pending := s.pending ++ [{ modelId, taskProfileId, instant := some now
                                       causes := [.feedback jobId submission.source] }] }
  | .refresh r now =>
      { tables := s.tables.recomputePair r.subject now, pending := s.pending.erase r }
  | .lose r => { s with pending := s.pending.erase r }
  | .verdicts verdictOf now => { s with tables := s.tables.recordBreakerVerdicts now verdictOf }

/-- What an act requires. -/
def Enabled (s : Refreshing) : RefreshAct → Prop
  | .store op => op.Enabled rack s.tables.store ∧ op.LoadsProfile s.tables.store.db
  | .refresh r now => r ∈ s.pending ∧ ∀ t ∈ r.instant, now = t
  | .lose r => r ∈ s.pending
  | _ => True

/-- **The statistics and everything that feeds them.** -/
def system : System Refreshing RefreshAct := .guarded (Enabled rack) (after rack) {}

end Refreshing

/-! ### What a refresh names -/

section Names

variable {rack : ModelRack} {db db' : Db} {op : Op} {jobId : JobId} {r : Refresh}

theorem mem_workerRefreshes {record : AttemptRecord} (hr : r ∈ workerRefreshes db jobId record) :
    ∃ job, db.jobs.lookup jobId = some job ∧
      submittedTask job.requestJson = .ok r.taskProfileId ∧ record.modelId = some r.modelId ∧
      r.causes = [.attempt ⟨jobId, record.attempt, record⟩] := by
  unfold workerRefreshes at hr
  split at hr
  · next modelId _ job hmodel _ hrow =>
    split at hr
    · next task htask =>
      rw [List.mem_singleton.1 hr]
      exact ⟨job, hrow, htask, hmodel, rfl⟩
    · cases hr
  · cases hr

theorem mem_syncRefreshes {taskProfileId : String} {records : List AttemptRecord}
    (hr : r ∈ syncRefreshes jobId taskProfileId records) :
    r.taskProfileId = taskProfileId ∧ ∀ cause ∈ r.causes, ∃ record : AttemptRecord,
      cause = .attempt ⟨jobId, record.attempt, record⟩ ∧ record.modelId = some r.modelId := by
  obtain ⟨modelId, -, rfl⟩ := List.mem_map.1 hr
  refine ⟨rfl, fun cause hcause => ?_⟩
  obtain ⟨record, hrecord, rfl⟩ := List.mem_map.1 hcause
  exact ⟨record, rfl, of_decide_eq_true (List.mem_filter.1 hrecord).2⟩

/-- A refresh names the task of the jobs it is for, and the model of the attempts. -/
structure Refresh.Names (db : Db) (r : Refresh) : Prop where
  task : ∀ cause ∈ r.causes, ∃ payload,
    db.viewed Job.profileColumns cause.jobId = some (r.taskProfileId, payload)
  model : ∀ row, .attempt row ∈ r.causes → row.record.modelId = some r.modelId

theorem Refresh.Names.mono (h : r.Names db)
    (hkept : ∀ j columns, db.viewed Job.profileColumns j = some columns →
      db'.viewed Job.profileColumns j = some columns) : r.Names db' where
  task cause hcause := (h.task cause hcause).imp fun _ => hkept _ _
  model := h.model

theorem workerRefreshes_names {record : AttemptRecord} (hprofiled : db.Profiled)
    (hkept : ∀ j columns, db.viewed Job.profileColumns j = some columns →
      db'.viewed Job.profileColumns j = some columns) :
    ∀ r ∈ workerRefreshes db jobId record, r.Names db' := by
  intro r hr
  obtain ⟨job, hrow, htask, hmodel, hcauses⟩ := mem_workerRefreshes hr
  have hviewed := Db.viewed_profileColumns hrow
  have hprofile : r.taskProfileId = job.taskProfileId :=
    Except.ok.inj (htask.symm.trans (hprofiled jobId _ hviewed))
  refine ⟨fun cause hcause => ?_, fun row hrow => ?_⟩
  · rw [hcauses, List.mem_singleton] at hcause
    subst hcause
    exact ⟨job.requestJson, hprofile ▸ hkept jobId _ hviewed⟩
  · rw [hcauses, List.mem_singleton] at hrow
    cases hrow
    exact hmodel

theorem syncRefreshes_names {task : String} {payload : Members} {records : List AttemptRecord}
    (hviewed : db.viewed Job.profileColumns jobId = some (task, payload)) :
    ∀ r ∈ syncRefreshes jobId task records, r.Names db := by
  intro r hr
  obtain ⟨rfl, hcauses⟩ := mem_syncRefreshes hr
  refine ⟨fun cause hcause => ?_, fun row hrow => ?_⟩
  · obtain ⟨record, rfl, -⟩ := hcauses cause hcause
    exact ⟨payload, hviewed⟩
  · obtain ⟨record, hrecord, hmodel⟩ := hcauses _ hrow
    cases hrecord
    exact hmodel

/-- **The refreshes of a transaction name what it wrote.** -/
theorem refreshesOf_names (hprofiled : db.Profiled) (hloads : op.LoadsProfile db)
    (hrun : op.run rack db = .ok db') : ∀ r ∈ refreshesOf db op, r.Names db' := by
  obtain ⟨-, hkept⟩ := Op.run_profiled hprofiled hloads hrun
  cases op with
  | worker w jobId now tx =>
      cases tx with
      | recordFailedAttempt record | validateAttempt record =>
          exact workerRefreshes_names hprofiled hkept
      | _ => exact fun r hr => by cases hr
  | persist jobId outcome profile records now =>
      simp only [Op.run, Db.persist, bind_eq_ok] at hrun
      obtain ⟨db₁, hassign, -⟩ := hrun
      obtain ⟨job, hrow, -⟩ := Db.track_assign hassign
      have hviewed := Db.viewed_profileColumns hrow
      have hprofile := hprofiled.persist_profile hloads hrow
      exact syncRefreshes_names (hprofile ▸ hkept jobId _ hviewed)
  | persistNew jobId r profile outcome records now =>
      obtain ⟨db₁, hinsert, hsame⟩ := Op.run_persistNew_viewed carried_profileColumns.worked hrun
      have hviewed : db'.viewed Job.profileColumns jobId =
          some (profile.1, unreservedMembers r) := by
        rw [hsame, (Db.viewed_insertJob Job.profileColumns hinsert).2, Function.update_self]
        rfl
      exact syncRefreshes_names hviewed
  | _ => exact fun r hr => by cases hr

end Names

namespace Refreshing

variable {rack : ModelRack} {s : Refreshing} {h : List (Step Refreshing RefreshAct)}

/-- Every refresh that is pending names what it is for, and no adapter has a row. -/
structure Named (s : Refreshing) : Prop where
  profiled : s.tables.store.db.Profiled
  pending : ∀ r ∈ s.pending, r.Names s.tables.store.db
  bare : ∀ key ∈ s.tables.reliabilityStats, key.1.adapterKey = ""

theorem bare_recomputePair {t : Tables} (r : Refresh) (now : Instant)
    (hbare : ∀ key ∈ t.reliabilityStats, key.1.adapterKey = "") :
    ∀ key ∈ (t.recomputePair r.subject now).reliabilityStats, key.1.adapterKey = "" := by
  intro key hkey
  by_cases hsubject : key.1 = r.subject
  · rw [hsubject]
    rfl
  · refine hbare key ?_
    rw [← AList.lookup_isSome] at hkey ⊢
    rwa [← Tables.lookup_recomputePair_of_ne hsubject]

/-- A verdict writes the verdicts alone, and names the model and the task of its job's row. -/
theorem recordFeedback_ok {t t' : Tables} {jobId : JobId} {submission : FeedbackSubmission}
    {now : Instant} {modelId : Option String} {task : String}
    (h : t.recordFeedback jobId submission now = .ok ((modelId, task), t')) :
    t'.store = t.store ∧ t'.reliabilityStats = t.reliabilityStats ∧
      ∃ job, t.store.db.jobs.lookup jobId = some job ∧ job.data.selectedModelId = modelId ∧
        job.taskProfileId = task := by
  simp only [Tables.recordFeedback, bind_eq_ok] at h
  obtain ⟨-, -, h⟩ := h
  split at h
  · cases h
  · next job hrow =>
    rw [pure_eq_ok] at h
    cases h
    exact ⟨rfl, rfl, job, hrow, rfl, rfl⟩

theorem named_after {a : RefreshAct} (hnamed : s.Named) (henabled : s.Enabled rack a) :
    (s.after rack a).Named := by
  cases a with
  | store op =>
      simp only [after]
      cases hrun : op.run rack s.tables.store.db with
      | error e => exact hnamed
      | ok db =>
          have hdb : (s.tables.store.after rack op).db = db := by
            simp only [Store.after, hrun]
          obtain ⟨hprofiled, hkept⟩ := Op.run_profiled hnamed.profiled henabled.2 hrun
          refine ⟨hdb.symm ▸ hprofiled, fun r hr => ?_, hnamed.bare⟩
          rcases List.mem_append.1 hr with hr | hr
          · exact hdb.symm ▸ (hnamed.pending r hr).mono hkept
          · exact hdb.symm ▸ refreshesOf_names hnamed.profiled henabled.2 hrun r hr
  | feedback jobId submission now =>
      simp only [after]
      split
      · exact hnamed
      · next task tables hfeedback =>
        obtain ⟨hstore, hstats, -⟩ := recordFeedback_ok hfeedback
        exact ⟨hstore ▸ hnamed.profiled, hstore ▸ hnamed.pending, hstats ▸ hnamed.bare⟩
      · next modelId task tables hfeedback =>
        obtain ⟨hstore, hstats, job, hrow, -, htask⟩ := recordFeedback_ok hfeedback
        refine ⟨hstore ▸ hnamed.profiled, fun r hr => ?_, hstats ▸ hnamed.bare⟩
        dsimp only
        rw [hstore]
        rcases List.mem_append.1 hr with hr | hr
        · exact hnamed.pending r hr
        · rw [List.mem_singleton.1 hr]
          refine ⟨fun cause hcause => ⟨job.requestJson, ?_⟩, fun row hrow => ?_⟩
          · rw [List.mem_singleton.1 hcause, ← htask]
            exact Db.viewed_profileColumns hrow
          · cases List.mem_singleton.1 hrow
  | refresh r now =>
      exact ⟨hnamed.profiled, fun r' hr' => hnamed.pending r' (List.mem_of_mem_erase hr'),
        bare_recomputePair r now hnamed.bare⟩
  | lose r =>
      exact ⟨hnamed.profiled, fun r' hr' => hnamed.pending r' (List.mem_of_mem_erase hr'),
        hnamed.bare⟩
  | verdicts verdictOf now =>
      refine ⟨hnamed.profiled, hnamed.pending, fun key hkey => hnamed.bare key ?_⟩
      rw [← AList.lookup_isSome] at hkey ⊢
      simpa [after, Tables.recordBreakerVerdicts] using hkey

/-- **The refreshes that are pending name what they are for**, in every run. -/
theorem named (hrun : Run (system rack) h s) : s.Named := by
  refine hrun.invariant (fun s hs => ?_) (fun s a s' hnext hnamed => ?_)
  · rw [Set.mem_singleton_iff.1 hs]
    refine ⟨fun j columns hcolumns => ?_, fun r hr => ?_, fun key hkey => ?_⟩
    · cases hcolumns
    · cases hr
    · cases hkey
  · obtain ⟨henabled, rfl⟩ := hnext
    exact named_after hnamed henabled

/-! ### A served request -/

/-- The row of a request is reserved, and ended with the attempts made. -/
def served (outcome : SyncOutcome) (records : List AttemptRecord) : List RefreshAct :=
  [.store (.reserveSyncJob 1 promptRequest ("chat", "1") 0 24),
    .store (.persist 1 outcome ("chat", "1") records 0)]

/-- The state it leaves. -/
def servedState (outcome : SyncOutcome) (records : List AttemptRecord) : Refreshing :=
  (served outcome records).foldl (after documentedRack) {}

/-- The refresh that follows, if they were made on one model. -/
def servedRefresh (records : List AttemptRecord) : Refresh where
  modelId := "m"
  taskProfileId := "chat"
  causes := records.map fun record => .attempt ⟨1, record.attempt, record⟩

/-- The state that leaves. -/
def refreshedState (outcome : SyncOutcome) (records : List AttemptRecord) : Refreshing :=
  (servedState outcome records).after documentedRack (.refresh (servedRefresh records) 0)

/-- The history of all three. -/
def servedHistory (outcome : SyncOutcome) (records : List AttemptRecord) :
    List (Step Refreshing RefreshAct) :=
  ⟨servedState outcome records, .refresh (servedRefresh records) 0,
      refreshedState outcome records⟩ ::
    trace (after documentedRack) {} (served outcome records)

theorem run_servedHistory {outcome : SyncOutcome} {records : List AttemptRecord}
    (hrecords : records.map AttemptRecord.attempt = List.range' 1 records.length)
    (hpending : servedRefresh records ∈ (servedState outcome records).pending) :
    Run (system documentedRack) (servedHistory outcome records)
      (refreshedState outcome records) := by
  have hadmissible : Admissible (Enabled documentedRack) (after documentedRack) {}
      (served outcome records) := by
    refine ⟨⟨promptRequest_accepted, rfl⟩, ⟨⟨rfl, hrecords⟩, fun job hjob => ?_⟩, trivial⟩
    cases hjob
    rfl
  have hinstant : ∀ t ∈ (servedRefresh records).instant, 0 = t := fun t ht => by cases ht
  exact (Run.replay hadmissible).step ⟨⟨hpending, hinstant⟩, rfl⟩

/-- One completed attempt, on a model with an adapter or without. -/
def completedAttempt (adapterId : Option String) : AttemptRecord where
  attempt := 1
  modelId := some "m"
  outcome := .completed
  completedAt := some 0
  adapterId

/-- The end of its execution. -/
def completedOutcome (adapterId : Option String) : SyncOutcome :=
  .result {} { modelId := "m", adapterId }

theorem run_completedAttempt (adapterId : Option String) :
    Run (system documentedRack)
      (servedHistory (completedOutcome adapterId) [completedAttempt adapterId])
      (refreshedState (completedOutcome adapterId) [completedAttempt adapterId]) :=
  run_servedHistory rfl (List.mem_singleton_self _)

/-! ### Incremental and full recomputation -/

/-- After every refresh, the rows of what it was for are those of a full recomputation. -/
def Maintained (h : List (Step Refreshing RefreshAct)) : Prop :=
  ∀ e ∈ h, ∀ r now, e.act = .refresh r now → ∀ cause ∈ r.causes, ∀ subject,
    cause.subject e.post.tables = some subject → ∀ window ∈ windows,
      e.post.tables.reliabilityStats.lookup (subject, window.name) =
        (e.post.tables.recomputeAll now).reliabilityStats.lookup (subject, window.name)

/-- Whatever is refreshed counts for a model without an adapter; and a verdict counts for the model
its job had when it was given, or the rows it counts for are fresh as they are. -/
def Covered (h : List (Step Refreshing RefreshAct)) : Prop :=
  ∀ e ∈ h, ∀ r now, e.act = .refresh r now → ∀ cause ∈ r.causes, ∀ subject,
    cause.subject e.pre.tables = some subject →
      subject.adapterKey = "" ∧ ∀ jobId source, cause = .feedback jobId source →
        subject.modelId = r.modelId ∨ e.pre.tables.Fresh subject now

theorem known_of_cause {t : Tables} {cause : Cause} {subject : Subject}
    (h : cause.subject t = some subject) :
    subject ∈ t.knownPairs ∧ ∃ job, t.store.db.jobs.lookup cause.jobId = some job ∧
      job.taskProfileId = subject.taskProfileId := by
  cases cause with
  | attempt row =>
      simp only [Cause.subject, Option.ite_none_right_eq_some] at h
      obtain ⟨hrow, hsubject⟩ := h
      refine ⟨Tables.mem_knownPairs.2 (.inl ⟨row, hrow, hsubject⟩), ?_⟩
      simp only [Subject.ofAttempt, Option.bind_eq_bind, Option.bind_eq_some_iff] at hsubject
      obtain ⟨modelId, -, job, hjob, hpure⟩ := hsubject
      cases hpure
      exact ⟨job, hjob, rfl⟩
  | feedback jobId source =>
      simp only [Cause.subject, Option.ite_none_right_eq_some] at h
      obtain ⟨hrow, hsubject⟩ := h
      refine ⟨Tables.mem_knownPairs.2 (.inr (.inl ⟨_, hrow, hsubject⟩)), ?_⟩
      simp only [Subject.ofFeedback, Option.bind_eq_bind, Option.bind_eq_some_iff] at hsubject
      obtain ⟨job, hjob, modelId, -, hpure⟩ := hsubject
      cases hpure
      exact ⟨job, hjob, rfl⟩

theorem modelId_of_attempt {t : Tables} {row : JobAttempt} {subject : Subject}
    (h : Cause.subject t (.attempt row) = some subject) :
    row.record.modelId = some subject.modelId := by
  simp only [Cause.subject, Option.ite_none_right_eq_some, Subject.ofAttempt,
    Option.bind_eq_bind, Option.bind_eq_some_iff] at h
  obtain ⟨-, modelId, hmodel, job, -, hpure⟩ := h
  cases hpure
  exact hmodel

/-- A refresh that names its cause leaves the rows it counts for fresh exactly if they are those
of a bare model: of the one it names, or fresh already. -/
theorem fresh_refresh_iff {t : Tables} {r : Refresh} {now : Instant} {cause : Cause}
    {subject : Subject} (hnames : r.Names t.store.db)
    (hbare : ∀ key ∈ t.reliabilityStats, key.1.adapterKey = "") (hcause : cause ∈ r.causes)
    (hsubject : cause.subject t = some subject) :
    (t.recomputePair r.subject now).Fresh subject now ↔
      subject.adapterKey = "" ∧ ∀ jobId source, cause = .feedback jobId source →
        subject.modelId = r.modelId ∨ t.Fresh subject now := by
  have htask : subject.taskProfileId = r.taskProfileId := by
    obtain ⟨-, job, hjob, htask⟩ := known_of_cause hsubject
    obtain ⟨payload, hviewed⟩ := hnames.task cause hcause
    rw [Db.viewed_profileColumns hjob, Option.some_inj] at hviewed
    exact htask.symm.trans (congrArg Prod.fst hviewed)
  constructor
  · intro hfresh
    refine ⟨bare_recomputePair r now hbare _ hfresh.mem, fun jobId source _ => ?_⟩
    by_cases hsame : subject = r.subject
    · exact .inl (congrArg Subject.modelId hsame)
    · exact .inr ((Tables.fresh_recomputePair_of_ne hsame).1 hfresh)
  · rintro ⟨hadapter, hverdict⟩
    by_cases hmodel : subject.modelId = r.modelId
    · have hsame : subject = r.subject := Subject.ext hmodel htask hadapter
      exact hsame ▸ Tables.fresh_recomputePair_self t r.subject now
    · have hne : subject ≠ r.subject := fun hsame => hmodel (congrArg Subject.modelId hsame)
      rw [Tables.fresh_recomputePair_of_ne hne]
      cases cause with
      | attempt row =>
          have hattempt := (modelId_of_attempt hsubject).symm.trans (hnames.model row hcause)
          exact absurd (Option.some.inj hattempt) hmodel
      | feedback jobId source => exact (hverdict jobId source rfl).resolve_left hmodel

/-- **The refreshes maintain the statistics exactly of bare models.**  No refresh names an
adapter, so the rows of a model with an adapter are never written. -/
theorem maintained_iff (hrun : Run (system rack) h s) : Maintained h ↔ Covered h := by
  refine forall₂_congr fun e he => forall_congr' fun r => forall_congr' fun now =>
    forall_congr' fun hact => forall₂_congr fun cause hcause => forall_congr' fun subject => ?_
  obtain ⟨h₂, hpast, henabled, hpost⟩ := hrun.past_of_mem he
  rw [hact] at henabled hpost
  have hnamed := named hpast
  have hsame : cause.subject e.post.tables = cause.subject e.pre.tables := by
    rw [hpost]
    rfl
  rw [hsame]
  refine forall_congr' fun hsubject => ?_
  have hknown := (known_of_cause (hsame.trans hsubject)).1
  rw [← Tables.fresh_iff_recomputeAll hknown, hpost]
  exact fresh_refresh_iff (hnamed.pending r henabled.1) hnamed.bare hcause hsubject

/-- The refresh of an attempt without an adapter. -/
theorem maintained_iff_bare :
    Maintained (servedHistory (completedOutcome none) [completedAttempt none]) := by
  refine (maintained_iff (run_completedAttempt none)).2 ?_
  intro e he r now hact cause hcause subject hsubject
  rcases List.mem_cons.1 he with rfl | he
  · cases hact
    rw [List.mem_singleton.1 hcause] at hsubject ⊢
    have hattempt : Cause.subject (servedState (completedOutcome none)
        [completedAttempt none]).tables (.attempt ⟨1, 1, completedAttempt none⟩) =
          some ⟨"m", "chat", ""⟩ := by decide +kernel
    have hbare := Option.some.inj (hattempt.symm.trans hsubject)
    subst hbare
    exact ⟨rfl, fun jobId source hverdict => by cases hverdict⟩
  · simp only [served, trace, List.nil_append, List.singleton_append, List.mem_cons,
      List.not_mem_nil, or_false] at he
    rcases he with rfl | rfl <;> cases hact

/-- The refresh of an attempt with an adapter writes the rows of the bare model, and none of its
own. -/
theorem adapter_unmaintained : ∃ h s, Run (system documentedRack) h s ∧ ¬ Maintained h := by
  refine ⟨_, _, run_completedAttempt (some "a"), fun hmaintained => ?_⟩
  have hattempt : Cause.subject (refreshedState (completedOutcome (some "a"))
      [completedAttempt (some "a")]).tables (.attempt ⟨1, 1, completedAttempt (some "a")⟩) =
        some ⟨"m", "chat", "a"⟩ := by decide +kernel
  have hequal := hmaintained _ List.mem_cons_self _ _ rfl _ List.mem_cons_self _ hattempt windowAll
    (by simp [windows])
  rw [Tables.lookup_recomputeAll (known_of_cause hattempt).1 (by simp [windows])] at hequal
  have hnone : (refreshedState (completedOutcome (some "a"))
      [completedAttempt (some "a")]).tables.reliabilityStats.lookup
        (⟨"m", "chat", "a"⟩, windowAll.name) = none := by decide +kernel
  cases hnone.symm.trans hequal

end Refreshing

end LoadCoach.Reliability

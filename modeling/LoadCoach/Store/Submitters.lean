import LoadCoach.Store.Keys

/-! # Submissions

`enqueue` of `services/queue.py` and `reserve_sync_job` of `services/execution.py`, as programs:
each call looks its idempotency key up, an enqueue counts the active jobs, the row is inserted, and
a call that lost the race for its key looks again.  Every read and every transaction is a step of
its own, and any number of calls run at once, between them every other transaction of the store.

What the calls rely on is the unique key: the call whose insert commits has created the job, and
every other one finds it (`Submitters.Used`).  Within one lifetime of a key that happens once
(`idempotent_submissions`). -/

namespace LoadCoach

open Foundations

/-! ### Calls -/

/-- What a caller submits. -/
inductive Submission where
  | enqueue (s : JobSubmission) (pinnedModelId : Option String) (settings : QueueSettings)
  | reserveSyncJob (r : GenerateRequest) (ttlHours : ℚ)

/-- One call, with the task profile and the instant it read. -/
structure SubmitCall where
  submission : Submission
  profile : String × String
  now : Instant

/-- Where a call stands. -/
inductive SubmitPoint where
  | idle
  | looking
  | counting
  | countingSource
  | inserting
  /-- After the unique index refused the insert. -/
  | lookingAgain
  | returned (jobId : JobId) (state : JobState) (created : Bool)
  | raised (e : Raised)

/-- `QueueFull`, for the whole queue. -/
def queueFull (active maxDepth : ℕ) : Raised :=
  .suite "QUEUE_FULL" s!"The queue holds {active} active jobs; max_depth is {maxDepth}."
    [("active", .int active), ("max_depth", .int maxDepth)]

/-- `QueueFull`, for one source. -/
def sourceFull (source : String) (held cap : ℕ) : Raised :=
  .suite "QUEUE_FULL"
    (s!"Source '{source}' already holds {held} active job(s); the per-source cap is " ++
      s!"{cap} (spec §14).")
    [("source", .str source), ("active", .int held), ("max_active_per_source", .int cap)]

/-- `_active_count`: the active jobs, or those of one source. -/
def Db.activeCount (source : Option String) (db : Db) : ℕ :=
  (db.jobs.select fun _ job =>
    decide (job.state ∈ activeStates) && source.all fun source => job.source == source).length

namespace SubmitCall

/-- Who submits. -/
def source (call : SubmitCall) : String :=
  match call.submission with
  | .enqueue s _ _ => s.source
  | .reserveSyncJob r _ => r.source

/-- The idempotency key of a call. -/
def key (call : SubmitCall) : Option String :=
  match call.submission with
  | .enqueue s _ _ => s.idempotencyKey
  | .reserveSyncJob r _ => r.idempotencyKey

/-- How long a call reserves its key. -/
def ttlHours (call : SubmitCall) : ℚ :=
  match call.submission with
  | .enqueue _ _ settings => settings.idempotencyTtlHours
  | .reserveSyncJob _ ttlHours => ttlHours

/-- The request models accepted the submission. -/
def Accepted (rack : ModelRack) (call : SubmitCall) : Prop :=
  match call.submission with
  | .enqueue s _ _ => s.Accepted rack
  | .reserveSyncJob r _ => r.Accepted rack

/-- The insert of a call. -/
def insertOp (call : SubmitCall) (jobId : JobId) : Op :=
  match call.submission with
  | .enqueue s pinnedModelId settings =>
      .enqueue jobId s call.profile pinnedModelId call.now settings
  | .reserveSyncJob r ttlHours => .reserveSyncJob jobId r call.profile call.now ttlHours

/-- The state of the row a call creates. -/
def created (call : SubmitCall) : JobState :=
  match call.submission with
  | .enqueue .. => .queued
  | .reserveSyncJob .. => .executing

/-- The lookup of a call's key. -/
def lookup (call : SubmitCall) (db : Db) : Option (JobId × JobState) × Db :=
  db.existingJobForKey call.source (call.key.getD "") call.now

/-- The first point behind the lookup: only an enqueue counts. -/
def behindLookup (call : SubmitCall) : SubmitPoint :=
  match call.submission with
  | .enqueue .. => .counting
  | .reserveSyncJob .. => .inserting

/-- The first point of a call, if its priority is allowed. -/
def begin (call : SubmitCall) : SubmitPoint :=
  let first := if call.key.isSome then .looking else call.behindLookup
  match call.submission with
  | .enqueue s _ _ =>
      match basePriority s.jobClass s.priority with
      | .ok _ => first
      | .error e => .raised e
  | .reserveSyncJob .. => first

/-- A lookup that found a job returns it. -/
def found (otherwise : SubmitPoint) : Option (JobId × JobState) → SubmitPoint
  | some (jobId, state) => .returned jobId state false
  | none => otherwise

/-- The point behind the count of all active jobs. -/
def counted (call : SubmitCall) (db : Db) : SubmitPoint :=
  match call.submission with
  | .enqueue _ _ settings =>
      let active := db.activeCount none
      if settings.maxDepth ≤ active then .raised (queueFull active settings.maxDepth)
      else if settings.maxActivePerSource ≠ 0 then .countingSource
      else .inserting
  | .reserveSyncJob .. => .inserting

/-- The point behind the count of the source's active jobs. -/
def countedSource (call : SubmitCall) (db : Db) : SubmitPoint :=
  match call.submission with
  | .enqueue s _ settings =>
      let held := db.activeCount (some s.source)
      if settings.maxActivePerSource ≤ held then
        .raised (sourceFull s.source held settings.maxActivePerSource)
      else .inserting
  | .reserveSyncJob .. => .inserting

/-- The point behind the insert. -/
def inserted (rack : ModelRack) (call : SubmitCall) (jobId : JobId) (db : Db) : SubmitPoint :=
  match (call.insertOp jobId).run rack db with
  | .ok _ => .returned jobId call.created true
  | .error .integrityError => .lookingAgain
  | .error e => .raised e

/-- The point behind a statement. -/
def next (rack : ModelRack) (call : SubmitCall) (jobId : JobId) (db : Db) :
    SubmitPoint → SubmitPoint
  | .looking => found call.behindLookup (call.lookup db).1
  | .counting => call.counted db
  | .countingSource => call.countedSource db
  | .inserting => call.inserted rack jobId db
  | .lookingAgain => found (.raised .integrityError) (call.lookup db).1
  | p => p

/-- The transaction of a statement. -/
def op (call : SubmitCall) (jobId : JobId) : SubmitPoint → Option Op
  | .looking | .lookingAgain =>
      some (.existingJobForKey call.source (call.key.getD "") call.now)
  | .inserting => some (call.insertOp jobId)
  | _ => none

end SubmitCall

/-! ### The system -/

/-- The store, and where every call stands. -/
structure Submitters where
  store : Store
  point : ℕ → SubmitPoint := fun _ => .idle

/-- What happens next. -/
inductive SubmitAct where
  /-- A transaction that is no call's. -/
  | store (op : Op)
  | start (c : ℕ)
  /-- The next statement of a call; an insert takes a new identifier. -/
  | next (c : ℕ) (jobId : JobId)
  /-- A statement of a call raises. -/
  | fail (c : ℕ) (e : Raised)

/-- The transactions the calls are made of. -/
def Op.Submits : Op → Prop
  | enqueue .. | reserveSyncJob .. | existingJobForKey .. => True
  | _ => False

/-- What a call that ended has returned. -/
def SubmitPoint.result? : SubmitPoint → Option (JobId × JobState × Bool)
  | returned jobId state created => some (jobId, state, created)
  | _ => none

theorem SubmitPoint.result?_eq_some {p : SubmitPoint} {jobId : JobId} {state : JobState}
    {created : Bool} :
    p.result? = some (jobId, state, created) ↔ p = .returned jobId state created := by
  cases p <;> simp [result?]

/-- A call that has begun and has not ended. -/
def SubmitPoint.Running : SubmitPoint → Prop
  | idle | returned .. | raised _ => False
  | _ => True

namespace Submitters

variable (rack : ModelRack) (calls : ℕ → SubmitCall)

/-- A call goes to a point. -/
def goto (s : Submitters) (c : ℕ) (p : SubmitPoint) : Submitters :=
  { s with point := Function.update s.point c p }

/-- The state after an act. -/
def after (s : Submitters) : SubmitAct → Submitters
  | .store op => { s with store := s.store.after rack op }
  | .start c => s.goto c (calls c).begin
  | .next c jobId =>
      { s.goto c ((calls c).next rack jobId s.store.db (s.point c)) with
        store := match (calls c).op jobId (s.point c) with
          | none => s.store
          | some op => s.store.after rack op }
  | .fail c e => s.goto c (.raised e)

/-- What an act requires: calls submit what the request models accepted, and a new row gets a new
identifier. -/
def Enabled (s : Submitters) : SubmitAct → Prop
  | .store op => ¬ op.Submits ∧ op.Enabled rack s.store
  | .start c => s.point c = .idle ∧ (calls c).Accepted rack
  | .next c jobId => (s.point c).Running ∧ (calls c).Accepted rack ∧ jobId ∉ s.store.db.jobs
  | .fail c _ => (s.point c).Running

/-- **The submitters**, on a store as others left it. -/
def system (start : Store) : System Submitters SubmitAct :=
  .guarded (Enabled rack calls) (after rack calls) { store := start }

/-! ### One lifetime of a key -/

variable {rack calls} {source key : String} {s : Submitters} {c : ℕ} {start : Store}

/-- A call carries the key. -/
def Carries (calls : ℕ → SubmitCall) (source key : String) (c : ℕ) : Prop :=
  (calls c).source = source ∧ (calls c).key = some key

/-- The calls that carry the key lie within the lifetime of each other's reservation, and the
store they start on has no row that still reserves it. -/
structure OneLifetime (calls : ℕ → SubmitCall) (source key : String) (db : Db) : Prop where
  within : ∀ c d, Carries calls source key c → Carries calls source key d →
    (calls d).now < (calls c).now + hours (calls c).ttlHours
  released : ∀ j job, db.jobs.lookup j = some job → job.source = source →
    job.idempotencyKey = some key → ∀ c, Carries calls source key c →
      ∃ t ∈ job.idempotencyExpiresAt, t ≤ (calls c).now

/-- An execution without a reservation that carries the key. -/
def Foreign (source key : String) (a : SubmitAct) : Prop :=
  ∃ jobId r profile outcome records now,
    a = .store (.persistNew jobId r profile outcome records now) ∧
      r.source = source ∧ r.idempotencyKey = some key

/-- Before the first insert: no call has returned, and every holder of the key is expired for all
of them. -/
structure Unused (calls : ℕ → SubmitCall) (source key : String) (s : Submitters) : Prop where
  pending : ∀ c, Carries calls source key c → ∀ j state created,
    s.point c ≠ .returned j state created
  stale : ∀ j columns, s.store.db.keys j = some columns → columns.source = source →
    columns.key = some key → ∀ c, Carries calls source key c →
      ∃ t ∈ columns.expiresAt, t ≤ (calls c).now

/-- After the first insert: one call has created the job, every other one that returned found it,
and the job holds the key for all of them. -/
structure Used (calls : ℕ → SubmitCall) (source key : String) (c₀ : ℕ) (j₀ : JobId)
    (s : Submitters) : Prop where
  carries : Carries calls source key c₀
  created : s.point c₀ = .returned j₀ (calls c₀).created true
  holds : ∃ columns, s.store.db.keys j₀ = some columns ∧ columns.source = source ∧
    columns.key = some key ∧
      ∀ t ∈ columns.expiresAt, ∀ c, Carries calls source key c → (calls c).now < t
  returned : ∀ c, Carries calls source key c → ∀ j state created,
    s.point c = .returned j state created → j = j₀ ∧ (created = true → c = c₀)

/-- A step that leaves the holders of the key alone, and makes no call that carries it return. -/
structure Passes (calls : ℕ → SubmitCall) (source key : String) (s s' : Submitters) : Prop where
  columns : ∀ j columns, columns.source = source → columns.key = some key →
    (s'.store.db.keys j = some columns ↔ s.store.db.keys j = some columns)
  returned : ∀ c, Carries calls source key c → ∀ j state created,
    s'.point c = .returned j state created ↔ s.point c = .returned j state created

theorem Passes.unused {s' : Submitters} (hpass : Passes calls source key s s')
    (h : s.Unused calls source key) : s'.Unused calls source key where
  pending c hc j state created hpoint :=
    h.pending c hc j state created ((hpass.returned c hc j state created).1 hpoint)
  stale j columns hcolumns hsource hkey :=
    h.stale j columns ((hpass.columns j columns hsource hkey).1 hcolumns) hsource hkey

theorem Passes.used {s' : Submitters} {c₀ : ℕ} {j₀ : JobId} (hpass : Passes calls source key s s')
    (h : s.Used calls source key c₀ j₀) : s'.Used calls source key c₀ j₀ where
  carries := h.carries
  created := (hpass.returned c₀ h.carries _ _ _).2 h.created
  holds := by
    obtain ⟨columns, hcolumns, hsource, hkey, hlive⟩ := h.holds
    exact ⟨columns, (hpass.columns j₀ columns hsource hkey).2 hcolumns, hsource, hkey, hlive⟩
  returned c hc j state created hpoint :=
    h.returned c hc j state created ((hpass.returned c hc j state created).1 hpoint)

/-! ### The steps -/

/-- The lookups of a call are for a key it has. -/
def Looks (calls : ℕ → SubmitCall) (s : Submitters) : Prop :=
  ∀ c, s.point c = .looking ∨ s.point c = .lookingAgain → (calls c).key.isSome

theorem insertJob_error {db : Db} {jobId : JobId} {job : Job} {e : Raised}
    (hfresh : jobId ∉ db.jobs) (h : db.insertJob jobId job = .error e) :
    job.idempotencyKey.isSome := by
  unfold Db.insertJob at h
  rw [if_neg hfresh] at h
  split_ifs at h with hunique
  exact hunique.1

theorem basePriority_ne_integrityError (jobClass : JobClass) (requested : Option ℤ) :
    basePriority jobClass requested ≠ .error .integrityError := by
  unfold basePriority
  cases requested with
  | none => simp
  | some r =>
      dsimp only
      split_ifs <;> simp

theorem key_of_integrityError {call : SubmitCall} {jobId : JobId} {db : Db}
    (haccepted : call.Accepted rack) (hfresh : jobId ∉ db.jobs)
    (h : (call.insertOp jobId).run rack db = .error .integrityError) : call.key.isSome := by
  obtain ⟨submission, profile, now⟩ := call
  cases submission with
  | enqueue sub pinnedModelId settings =>
      obtain ⟨turns, hturns, -⟩ := (haccepted : sub.Accepted rack).transcript
      simp only [SubmitCall.insertOp, Op.run, Db.enqueue, bind_eq_error] at h
      rcases h with hpriority | ⟨priority, -, hrequest | ⟨requestJson, -, hinsert | ⟨db₁, -, h⟩⟩⟩
      · exact absurd hpriority (basePriority_ne_integrityError _ _)
      · rw [JobSubmission.asRequestJson, hturns] at hrequest
        cases hrequest
      · exact insertJob_error hfresh hinsert
      · cases h
  | reserveSyncJob r ttlHours =>
      obtain ⟨turns, hturns, -⟩ := (haccepted : r.Accepted rack).transcript
      simp only [SubmitCall.insertOp, Op.run, Db.reserveSyncJob, hturns, ok_bind] at h
      exact insertJob_error hfresh h

theorem insertOp_inserts {call : SubmitCall} {jobId : JobId} {db db' : Db}
    (h : (call.insertOp jobId).run rack db = .ok db') :
    Db.Inserts jobId ⟨call.source, call.key, call.key.map fun _ => call.now + hours call.ttlHours⟩
      db db' := by
  obtain ⟨submission, profile, now⟩ := call
  cases submission with
  | enqueue => exact Op.run_enqueue_inserts h
  | reserveSyncJob => exact Op.run_reserveSyncJob_inserts h

/-- A row whose key columns are the given ones, as every other transaction leaves it. -/
def SameColumns (source key : String) (db db' : Db) : Prop :=
  ∀ j columns, columns.source = source → columns.key = some key →
    (db'.keys j = some columns ↔ db.keys j = some columns)

theorem sameColumns_of_keys {db db' : Db} (h : db'.keys = db.keys) :
    SameColumns source key db db' := by
  intro j columns _ _
  rw [h]

theorem sameColumns_of_inserts {db db' : Db} {jobId : JobId} {inserted : KeyColumns}
    (h : Db.Inserts jobId inserted db db')
    (hother : ¬(inserted.source = source ∧ inserted.key = some key)) :
    SameColumns source key db db' := by
  intro j columns hsource hkey
  rw [h.keys]
  by_cases hj : j = jobId
  · subst hj
    rw [Function.update_self, h.fresh]
    constructor
    · rintro hcolumns
      cases hcolumns
      exact absurd ⟨hsource, hkey⟩ hother
    · intro hnone
      cases hnone
  · rw [Function.update_of_ne hj]

theorem sameColumns_of_lookup {call : SubmitCall} {db : Db} (hsome : call.key.isSome)
    (hother : ¬(call.source = source ∧ call.key = some key)) :
    SameColumns source key db (call.lookup db).2 := by
  obtain ⟨other, hkey⟩ := Option.isSome_iff_exists.1 hsome
  have hlookup : call.lookup db = db.existingJobForKey call.source other call.now := by
    rw [SubmitCall.lookup, hkey]
    rfl
  rw [hlookup]
  rcases Db.existingJobForKey_spec call.source other call.now db with
    ⟨hresult, -⟩ | ⟨j, job, hrow, hsource, hjob, ⟨-, db', hresult, hreleases⟩ | ⟨-, hresult⟩⟩
  · rw [hresult]
    exact sameColumns_of_keys rfl
  · rw [hresult]
    obtain ⟨columns₀, hcolumns₀, hkeys⟩ := hreleases
    intro k columns hsource' hkey'
    rw [hkeys]
    by_cases hk : k = j
    · subst hk
      rw [Function.update_self]
      constructor
      · rintro hcolumns
        cases hcolumns
        cases hkey'
      · intro hcolumns
        rw [Db.keys, hrow] at hcolumns
        cases hcolumns
        exact absurd ⟨hsource.symm.trans hsource', hkey.trans (hjob.symm.trans hkey')⟩ hother
    · rw [Function.update_of_ne hk]
  · rw [hresult]
    exact sameColumns_of_keys rfl

theorem lookup_of_carries {db : Db} (hc : Carries calls source key c) :
    (calls c).lookup db = db.existingJobForKey source key (calls c).now := by
  rw [SubmitCall.lookup, hc.1, hc.2]
  rfl

theorem Unused.lookup (h : s.Unused calls source key) (hunique : s.store.db.UniqueKeys)
    (hc : Carries calls source key c) : ∃ db, (calls c).lookup s.store.db = (none, db) ∧
      ∀ j, ¬ db.Holds source key j := by
  rw [lookup_of_carries hc]
  rcases Db.existingJobForKey_spec source key (calls c).now s.store.db with
    ⟨hresult, hnone⟩ | ⟨j, job, hrow, hsource, hkey, ⟨-, db, hresult, hreleases⟩ | ⟨hlive, -⟩⟩
  · exact ⟨_, hresult, hnone⟩
  · refine ⟨db, hresult, fun k hk => ?_⟩
    obtain ⟨hne, hheld⟩ := hreleases.holds hk
    exact hne (hunique source key k j hheld (Db.holds_of_lookup hrow hsource hkey))
  · have hcolumns : s.store.db.keys j = some job.keyColumns := by
      rw [Db.keys, hrow]
      rfl
    exact absurd (h.stale j job.keyColumns hcolumns hsource hkey c hc) hlive

theorem Used.lookup {c₀ : ℕ} {j₀ : JobId} (h : s.Used calls source key c₀ j₀)
    (hunique : s.store.db.UniqueKeys) (hc : Carries calls source key c) :
    ∃ state, (calls c).lookup s.store.db = (some (j₀, state), s.store.db) := by
  obtain ⟨columns, hcolumns, hsource₀, hkey₀, hlive₀⟩ := h.holds
  have hheld : s.store.db.Holds source key j₀ := ⟨columns, hcolumns, hsource₀, hkey₀⟩
  rw [lookup_of_carries hc]
  rcases Db.existingJobForKey_spec source key (calls c).now s.store.db with
    ⟨-, hnone⟩ | ⟨j, job, hrow, hsource, hkey, hcase⟩
  · exact absurd hheld (hnone j₀)
  have hj : j = j₀ := hunique source key j j₀ (Db.holds_of_lookup hrow hsource hkey) hheld
  subst hj
  rcases hcase with ⟨⟨t, ht, hle⟩, -⟩ | ⟨-, hresult⟩
  · rw [Db.keys, hrow] at hcolumns
    cases hcolumns
    exact absurd (hlive₀ t ht c hc) (not_lt.2 hle)
  · exact ⟨job.state, hresult⟩

theorem returned_goto {p : SubmitPoint} (hbefore : ∀ j state created,
    s.point c ≠ .returned j state created) (hp : ∀ j state created, p ≠ .returned j state created)
    (d : ℕ) (j : JobId) (state : JobState) (created : Bool) :
    (s.goto c p).point d = .returned j state created ↔ s.point d = .returned j state created := by
  by_cases hd : d = c
  · subst hd
    simp [goto, hbefore, hp]
  · simp [goto, hd]

theorem point_ne_returned {p : SubmitPoint} (h : p.Running ∨ p = .idle) (j : JobId)
    (state : JobState) (created : Bool) : p ≠ .returned j state created := by
  rintro rfl
  rcases h with h | h <;> cases h

theorem begin_ne_returned (call : SubmitCall) (j : JobId) (state : JobState) (created : Bool) :
    call.begin ≠ .returned j state created := by
  obtain ⟨submission, profile, now⟩ := call
  cases submission with
  | enqueue sub pinnedModelId settings =>
      simp only [SubmitCall.begin, SubmitCall.behindLookup]
      cases basePriority sub.jobClass sub.priority <;> dsimp only <;> try split_ifs
      all_goals exact fun h => by cases h
  | reserveSyncJob r ttlHours =>
      simp only [SubmitCall.begin, SubmitCall.behindLookup]
      split_ifs
      all_goals exact fun h => by cases h

/-! ### The invariant -/

/-- The key of a set of calls is unused, or one of them has created its job. -/
def Phase (calls : ℕ → SubmitCall) (source key : String) (s : Submitters) : Prop :=
  s.Unused calls source key ∨ ∃ c₀ j₀, s.Used calls source key c₀ j₀

theorem Phase.passes {s' : Submitters} (h : s.Phase calls source key)
    (hpass : Passes calls source key s s') : s'.Phase calls source key := by
  rcases h with h | ⟨c₀, j₀, h⟩
  · exact .inl (hpass.unused h)
  · exact .inr ⟨c₀, j₀, hpass.used h⟩

theorem Phase.goto (store : Store) {p : SubmitPoint} (h : s.Phase calls source key)
    (hcolumns : SameColumns source key s.store.db store.db)
    (hreturns : Carries calls source key c → (∀ j state created,
      s.point c ≠ .returned j state created) ∧ ∀ j state created, p ≠ .returned j state created) :
    Phase calls source key { s.goto c p with store } := by
  refine h.passes ⟨hcolumns, fun d hd j state created => ?_⟩
  by_cases hdc : d = c
  · subst hdc
    exact returned_goto (hreturns hd).1 (hreturns hd).2 d j state created
  · simp [Submitters.goto, hdc]

theorem Phase.looked {otherwise : SubmitPoint} (h : s.Phase calls source key)
    (hunique : s.store.db.UniqueKeys) (hc : Carries calls source key c)
    (hbefore : ∀ j state created, s.point c ≠ .returned j state created)
    (hotherwise : ∀ j state created, otherwise ≠ .returned j state created) {store : Store}
    (hstore : store.db = ((calls c).lookup s.store.db).2) :
    Phase calls source key
      { s.goto c (SubmitCall.found otherwise ((calls c).lookup s.store.db).1) with store } := by
  rcases h with h | ⟨c₀, j₀, h⟩
  · obtain ⟨db, hresult, hnone⟩ := h.lookup hunique hc
    rw [hresult] at hstore ⊢
    refine .inl ⟨fun d hd j state created => ?_, fun j columns hcolumns hsource hkey => ?_⟩
    · exact fun hpoint => h.pending d hd j state created
        ((returned_goto hbefore hotherwise d j state created).1 hpoint)
    · have hdb : store.db = db := hstore
      exact absurd ⟨columns, hdb ▸ hcolumns, hsource, hkey⟩ (hnone j)
  · obtain ⟨state₀, hresult⟩ := h.lookup hunique hc
    rw [hresult] at hstore ⊢
    have hdb : store.db = s.store.db := hstore
    have hne : c ≠ c₀ := by
      rintro rfl
      exact hbefore j₀ _ true h.created
    refine .inr ⟨c₀, j₀, h.carries, ?_, ?_, fun d hd j state created hpoint => ?_⟩
    · simpa [Submitters.goto, hne.symm] using h.created
    · obtain ⟨columns, hcolumns, hrest⟩ := h.holds
      exact ⟨columns, hdb ▸ hcolumns, hrest⟩
    · by_cases hdc : d = c
      · subst hdc
        simp only [Submitters.goto, Function.update_self, SubmitCall.found] at hpoint
        cases hpoint
        exact ⟨rfl, fun hfalse => by cases hfalse⟩
      · simp only [Submitters.goto, Function.update_of_ne hdc] at hpoint
        exact h.returned d hd j state created hpoint

theorem Phase.inserted {jobId : JobId} {db : Db} (h : s.Phase calls source key)
    (hwithin : ∀ c d, Carries calls source key c → Carries calls source key d →
      (calls d).now < (calls c).now + hours (calls c).ttlHours)
    (hc : Carries calls source key c)
    (hrun : ((calls c).insertOp jobId).run rack s.store.db = .ok db) {store : Store}
    (hstore : store.db = db) :
    Phase calls source key
      { s.goto c (.returned jobId (calls c).created true) with store } := by
  have hinserts := insertOp_inserts hrun
  rcases h with h | ⟨c₀, j₀, h⟩
  · refine .inr ⟨c, jobId, hc, by simp [Submitters.goto], ?_, fun d hd j state created hpoint => ?_⟩
    · have hcolumns : store.db.keys jobId = some ⟨(calls c).source, (calls c).key,
          (calls c).key.map fun _ => (calls c).now + hours (calls c).ttlHours⟩ := by
        rw [hstore, hinserts.keys, Function.update_self]
      refine ⟨_, hcolumns, hc.1, hc.2, fun t ht d hd => ?_⟩
      rw [hc.2] at ht
      cases ht
      exact hwithin c d hc hd
    · by_cases hdc : d = c
      · subst hdc
        simp only [Submitters.goto, Function.update_self] at hpoint
        cases hpoint
        exact ⟨rfl, fun _ => rfl⟩
      · simp only [Submitters.goto, Function.update_of_ne hdc] at hpoint
        exact absurd hpoint (h.pending d hd j state created)
  · -- the job of the first insert still holds the key
    obtain ⟨columns, hcolumns, hsource, hkey, -⟩ := h.holds
    refine absurd ⟨columns, hcolumns, ?_, hkey⟩ (hinserts.unheld key hc.2 j₀)
    exact hsource.trans hc.1.symm

theorem Phase.look {otherwise : SubmitPoint} (h : s.Phase calls source key)
    (hunique : s.store.db.UniqueKeys) (hsome : (calls c).key.isSome)
    (hbefore : ∀ j state created, s.point c ≠ .returned j state created)
    (hotherwise : ∀ j state created, otherwise ≠ .returned j state created) :
    Phase calls source key
      { s.goto c (SubmitCall.found otherwise ((calls c).lookup s.store.db).1) with
        store := s.store.after rack
          (.existingJobForKey (calls c).source ((calls c).key.getD "") (calls c).now) } := by
  by_cases hc : Carries calls source key c
  · exact h.looked hunique hc hbefore hotherwise rfl
  · exact h.goto _ (sameColumns_of_lookup hsome hc) fun hc' => absurd hc' hc

theorem behindLookup_ne_returned (call : SubmitCall) (j : JobId) (state : JobState)
    (created : Bool) : call.behindLookup ≠ .returned j state created := by
  unfold SubmitCall.behindLookup
  split <;> simp

theorem counted_ne_returned (call : SubmitCall) (db : Db) (j : JobId) (state : JobState)
    (created : Bool) : call.counted db ≠ .returned j state created ∧
      call.countedSource db ≠ .returned j state created := by
  unfold SubmitCall.counted SubmitCall.countedSource
  constructor
  all_goals
    split
    · dsimp only
      split_ifs <;> simp
    · simp

theorem sameColumns_of_store {store : Store} {op : Op} (hsubmits : ¬ op.Submits)
    (hforeign : ¬ Foreign source key (.store op)) :
    SameColumns source key store.db (store.after rack op).db := by
  rcases Store.after_cases rack store op with ⟨e, -, hsame⟩ | ⟨db, hrun, hdb, -⟩
  · rw [hsame]
    exact sameColumns_of_keys rfl
  rw [hdb]
  by_cases hwrites : op.WritesKeys
  · cases op with
    | persistNew jobId r profile outcome records now =>
        refine sameColumns_of_inserts (Op.run_persistNew_inserts hrun) fun hsame => ?_
        exact hforeign ⟨jobId, r, profile, outcome, records, now, rfl, hsame.1, hsame.2⟩
    | enqueue | reserveSyncJob | existingJobForKey => exact absurd trivial hsubmits
    | _ => exact hwrites.elim
  · exact sameColumns_of_keys (Op.run_keys hwrites hrun)

theorem Phase.insert {jobId : JobId} (h : s.Phase calls source key)
    (hwithin : ∀ c d, Carries calls source key c → Carries calls source key d →
      (calls d).now < (calls c).now + hours (calls c).ttlHours)
    (hbefore : ∀ j state created, s.point c ≠ .returned j state created) :
    Phase calls source key
      { s.goto c ((calls c).inserted rack jobId s.store.db) with
        store := s.store.after rack ((calls c).insertOp jobId) } := by
  unfold SubmitCall.inserted
  cases hrun : ((calls c).insertOp jobId).run rack s.store.db with
  | ok db =>
      have hdb : (s.store.after rack ((calls c).insertOp jobId)).db = db := by
        simp only [Store.after, hrun]
      by_cases hc : Carries calls source key c
      · exact h.inserted hwithin hc hrun hdb
      · refine h.goto _ ?_ fun hc' => absurd hc' hc
        rw [hdb]
        exact sameColumns_of_inserts (insertOp_inserts hrun) hc
  | error e =>
      have hdb : (s.store.after rack ((calls c).insertOp jobId)).db = s.store.db := by
        simp only [Store.after, hrun]
      refine h.goto _ (sameColumns_of_keys (congrArg Db.keys hdb)) fun _ => ⟨hbefore, ?_⟩
      intro j state created hreturned
      cases e <;> cases hreturned

/-- **Every step keeps the phase of a key**, if the calls that carry it lie within one lifetime. -/
theorem Phase.after {a : SubmitAct} (h : s.Phase calls source key)
    (hwithin : ∀ c d, Carries calls source key c → Carries calls source key d →
      (calls d).now < (calls c).now + hours (calls c).ttlHours)
    (hunique : s.store.db.UniqueKeys) (hlooks : s.Looks calls) (henabled : s.Enabled rack calls a)
    (hforeign : ¬ Foreign source key a) : (s.after rack calls a).Phase calls source key := by
  cases a with
  | store op =>
      have hcolumns : SameColumns source key s.store.db (s.store.after rack op).db :=
        sameColumns_of_store henabled.1 hforeign
      exact h.passes ⟨hcolumns, fun _ _ _ _ _ => Iff.rfl⟩
  | start c =>
      refine h.goto s.store (sameColumns_of_keys rfl) fun _ => ⟨?_, ?_⟩
      · exact point_ne_returned (.inr henabled.1)
      · exact begin_ne_returned (calls c)
  | fail c e =>
      refine h.goto s.store (sameColumns_of_keys rfl) fun _ => ⟨?_, ?_⟩
      · exact point_ne_returned (.inl henabled)
      · exact fun _ _ _ hraised => by cases hraised
  | next c jobId =>
      obtain ⟨hrunning, haccepted, hfresh⟩ := henabled
      have hbefore : ∀ j state created, s.point c ≠ .returned j state created :=
        point_ne_returned (.inl hrunning)
      cases hpoint : s.point c with
      | idle | returned | raised =>
          rw [hpoint] at hrunning
          exact hrunning.elim
      | looking =>
          simp only [Submitters.after, hpoint, SubmitCall.next, SubmitCall.op]
          exact h.look hunique (hlooks c (.inl hpoint)) hbefore (behindLookup_ne_returned _)
      | lookingAgain =>
          simp only [Submitters.after, hpoint, SubmitCall.next, SubmitCall.op]
          exact h.look hunique (hlooks c (.inr hpoint)) hbefore
            (fun _ _ _ hraised => by cases hraised)
      | counting =>
          simp only [Submitters.after, hpoint, SubmitCall.next, SubmitCall.op]
          exact h.goto s.store (sameColumns_of_keys rfl) fun _ =>
            ⟨hbefore, fun j state created => (counted_ne_returned _ _ j state created).1⟩
      | countingSource =>
          simp only [Submitters.after, hpoint, SubmitCall.next, SubmitCall.op]
          exact h.goto s.store (sameColumns_of_keys rfl) fun _ =>
            ⟨hbefore, fun j state created => (counted_ne_returned _ _ j state created).2⟩
      | inserting =>
          simp only [Submitters.after, hpoint, SubmitCall.next, SubmitCall.op]
          exact h.insert hwithin hbefore

theorem begin_looks {call : SubmitCall}
    (h : call.begin = .looking ∨ call.begin = .lookingAgain) : call.key.isSome := by
  by_contra hnone
  have hbehind : call.behindLookup ≠ .looking ∧ call.behindLookup ≠ .lookingAgain := by
    unfold SubmitCall.behindLookup
    split <;> simp
  simp only [SubmitCall.begin, if_neg hnone] at h
  split at h
  · split at h
    · exact h.elim hbehind.1 hbehind.2
    · simp at h
  · exact h.elim hbehind.1 hbehind.2

theorem next_looks {call : SubmitCall} {jobId : JobId} {db : Db} {p : SubmitPoint}
    (haccepted : call.Accepted rack) (hfresh : jobId ∉ db.jobs) (hrunning : p.Running)
    (h : call.next rack jobId db p = .looking ∨ call.next rack jobId db p = .lookingAgain) :
    call.key.isSome := by
  have hfound : ∀ {otherwise result}, otherwise ≠ .looking ∧ otherwise ≠ .lookingAgain →
      ¬(SubmitCall.found otherwise result = .looking ∨
        SubmitCall.found otherwise result = .lookingAgain) := by
    rintro otherwise (_ | ⟨j, state⟩) ⟨hlooking, hagain⟩
    · exact fun h => h.elim hlooking hagain
    · simp [SubmitCall.found]
  cases p with
  | idle | returned | raised => exact hrunning.elim
  | looking =>
      refine absurd h (hfound ?_)
      unfold SubmitCall.behindLookup
      split <;> simp
  | lookingAgain => exact absurd h (hfound (by simp))
  | counting =>
      simp only [SubmitCall.next, SubmitCall.counted] at h
      split at h
      · split_ifs at h <;> simp at h
      · simp at h
  | countingSource =>
      simp only [SubmitCall.next, SubmitCall.countedSource] at h
      split at h
      · split_ifs at h <;> simp at h
      · simp at h
  | inserting =>
      simp only [SubmitCall.next, SubmitCall.inserted] at h
      split at h
      · simp at h
      · next hrun => exact key_of_integrityError haccepted hfresh hrun
      · simp at h

theorem looks_after {a : SubmitAct} (hlooks : s.Looks calls) (henabled : s.Enabled rack calls a) :
    (s.after rack calls a).Looks calls := by
  intro d
  have moved : ∀ {c p}, (p = .looking ∨ p = .lookingAgain → (calls c).key.isSome) →
      (s.goto c p).point d = .looking ∨ (s.goto c p).point d = .lookingAgain →
        (calls d).key.isSome := by
    intro c p hp hd
    by_cases hdc : d = c
    · subst hdc
      simp only [goto, Function.update_self] at hd
      exact hp hd
    · simp only [goto, Function.update_of_ne hdc] at hd
      exact hlooks d hd
  cases a with
  | store op => exact hlooks d
  | start c => exact moved begin_looks
  | fail c e => exact moved fun h => by simp at h
  | next c jobId => exact moved (next_looks henabled.2.1 henabled.2.2 henabled.1)

theorem uniqueKeys_after {a : SubmitAct} (hunique : s.store.db.UniqueKeys) :
    (s.after rack calls a).store.db.UniqueKeys := by
  have after : ∀ op, (s.store.after rack op).db.UniqueKeys := by
    intro op
    rcases Store.after_cases rack s.store op with ⟨e, -, hsame⟩ | ⟨db, hrun, hdb, -⟩
    · rw [hsame]
      exact hunique
    · rw [hdb]
      exact Op.run_uniqueKeys hunique hrun
  cases a with
  | store op => exact after op
  | start | fail => exact hunique
  | next c jobId =>
      simp only [Submitters.after]
      cases (calls c).op jobId (s.point c) with
      | none => exact hunique
      | some op => exact after op

variable {h : List (Foundations.Step Submitters SubmitAct)}

theorem uniqueKeys (hstart : start.db.UniqueKeys) (hrun : Run (system rack calls start) h s) :
    s.store.db.UniqueKeys := by
  refine hrun.invariant (P := fun s => s.store.db.UniqueKeys) ?_ ?_
  · rintro _ rfl
    exact hstart
  · rintro s a _ ⟨-, rfl⟩ hunique
    exact uniqueKeys_after hunique

theorem looks (hrun : Run (system rack calls start) h s) : s.Looks calls := by
  refine hrun.invariant (P := fun s => s.Looks calls) ?_ ?_
  · rintro _ rfl c hc
    simp at hc
  · rintro s a _ ⟨henabled, rfl⟩ hlooks
    exact looks_after hlooks henabled

theorem phase (hstart : start.db.UniqueKeys) (hlife : OneLifetime calls source key start.db)
    (hrun : Run (system rack calls start) h s) (hforeign : ∀ e ∈ h, ¬ Foreign source key e.act) :
    s.Phase calls source key := by
  induction hrun with
  | start hs =>
      rw [Set.mem_singleton_iff.1 hs]
      refine .inl ⟨fun c _ j state created => by simp, ?_⟩
      intro j columns hcolumns hsource hkey c hc
      obtain ⟨job, hrow, rfl⟩ := Option.map_eq_some_iff.1 hcolumns
      exact hlife.released j job hrow hsource hkey c hc
  | step hpast hnext ih =>
      obtain ⟨henabled, rfl⟩ := hnext
      exact (ih fun e he => hforeign e (List.mem_cons_of_mem _ he)).after hlife.within
        (uniqueKeys hstart hpast) (looks hpast) henabled (hforeign _ List.mem_cons_self)

/-- A key none of whose holders reserves it any more can be used: the lookup releases it, and the
insert of a new row with it succeeds. -/
theorem reusable {db : Db} {now : Instant} (hunique : db.UniqueKeys)
    (hexpired : ∀ j job, db.jobs.lookup j = some job → job.source = source →
      job.idempotencyKey = some key → ∃ t ∈ job.idempotencyExpiresAt, t ≤ now) :
    ∃ db₁, db.existingJobForKey source key now = (none, db₁) ∧
      ∀ jobId ∉ db₁.jobs, ∀ job : Job, job.source = source → job.idempotencyKey = some key →
        ∃ db₂, db₁.insertJob jobId job = .ok db₂ := by
  have insertable : ∀ {db₁ : Db}, (∀ j, ¬ db₁.Holds source key j) → ∀ jobId ∉ db₁.jobs,
      ∀ job : Job, job.source = source → job.idempotencyKey = some key →
        ∃ db₂, db₁.insertJob jobId job = .ok db₂ := by
    intro db₁ hnone jobId hfresh job hsource hkey
    refine Db.insertJob_of_unheld hfresh fun key' hkey' j => ?_
    cases hkey.symm.trans hkey'
    exact hsource ▸ hnone j
  rcases Db.existingJobForKey_spec source key now db with
    ⟨hresult, hnone⟩ | ⟨j, job, hrow, hsource, hkey, ⟨-, db₁, hresult, hreleases⟩ | ⟨hlive, -⟩⟩
  · exact ⟨db, hresult, insertable hnone⟩
  · refine ⟨db₁, hresult, insertable fun k hk => ?_⟩
    obtain ⟨hne, hheld⟩ := hreleases.holds hk
    exact hne (hunique source key k j hheld (Db.holds_of_lookup hrow hsource hkey))
  · exact absurd (hexpired j job hrow hsource hkey) hlive

/-- **Idempotency keys.**  In every run of any number of submissions on a store with unique keys:
no two rows ever hold one key; if the calls that carry a key lie within one lifetime of it, one of
them has created a job as soon as any has returned, exactly one, and every call that returned has
that job; and a key whose lifetime is over can be used again. -/
theorem idempotent_submissions (hstart : start.db.UniqueKeys)
    (hrun : Run (system rack calls start) h s) :
    s.store.db.UniqueKeys ∧
    (∀ source key, OneLifetime calls source key start.db →
      (∀ e ∈ h, ¬ Foreign source key e.act) →
      ∀ c j state created, Carries calls source key c → s.point c = .returned j state created →
        ∃ c₀, Carries calls source key c₀ ∧ s.point c₀ = .returned j (calls c₀).created true ∧
          s.store.db.Holds source key j ∧
          ∀ d k state', Carries calls source key d → s.point d = .returned k state' true →
            d = c₀ ∧ k = j) ∧
    ∀ source key now, (∀ j job, s.store.db.jobs.lookup j = some job → job.source = source →
        job.idempotencyKey = some key → ∃ t ∈ job.idempotencyExpiresAt, t ≤ now) →
      ∃ db₁, s.store.db.existingJobForKey source key now = (none, db₁) ∧
        ∀ jobId ∉ db₁.jobs, ∀ job : Job, job.source = source → job.idempotencyKey = some key →
          ∃ db₂, db₁.insertJob jobId job = .ok db₂ := by
  have hunique := uniqueKeys hstart hrun
  refine ⟨hunique, ?_, fun source key now hexpired => reusable hunique hexpired⟩
  intro source key hlife hforeign c j state created hc hpoint
  rcases phase hstart hlife hrun hforeign with h | ⟨c₀, j₀, h⟩
  · exact absurd hpoint (h.pending c hc j state created)
  · obtain ⟨rfl, -⟩ := h.returned c hc j state created hpoint
    obtain ⟨columns, hcolumns, hsource, hkey, -⟩ := h.holds
    refine ⟨c₀, h.carries, h.created, ⟨columns, hcolumns, hsource, hkey⟩, ?_⟩
    intro d k state' hd hreturned
    obtain ⟨hk, hcreated⟩ := h.returned d hd k state' true hreturned
    exact ⟨hcreated rfl, hk⟩

/-- An enqueue and synchronous executions that carry one key. -/
def racingCalls : ℕ → SubmitCall
  | 0 => ⟨.enqueue { promptSubmission true with idempotencyKey := some "k" } none {},
      ("chat", "1"), 0⟩
  | _ => ⟨.reserveSyncJob { task := "chat", prompt := some "hello", idempotencyKey := some "k" } 24,
      ("chat", "1"), 1⟩

/-- Both find the key free; the execution inserts first, and the enqueue finds its row. -/
def race : List SubmitAct :=
  [.start 0, .start 1, .next 0 7, .next 1 7, .next 0 7, .next 0 7, .next 1 7, .next 0 8,
    .next 0 8]

theorem racingCalls_accepted (c : ℕ) : (racingCalls c).Accepted documentedRack := by
  cases c with
  | zero =>
      exact ⟨⟨[{ role := .user, content := "hello" }], rfl,
        by simp [AcceptedTurns, documentedRack]⟩, by simp [promptSubmission],
        by simp [promptSubmission]⟩
  | succ c =>
      exact ⟨⟨[{ role := .user, content := "hello" }], rfl,
        by simp [AcceptedTurns, documentedRack]⟩, by simp⟩

theorem racingCalls_oneLifetime : OneLifetime racingCalls "anonymous" "k" {} where
  within c d _ _ := by
    have hday : (1 : ℤ) < hours 24 := by decide +kernel
    have hnow : ∀ c, 0 ≤ (racingCalls c).now ∧ (racingCalls c).now ≤ 1 ∧
        (racingCalls c).ttlHours = 24 := by
      rintro (_ | c)
      · exact ⟨le_rfl, zero_le_one, rfl⟩
      · exact ⟨zero_le_one, le_rfl, rfl⟩
    calc (racingCalls d).now ≤ 1 := (hnow d).2.1
      _ < 0 + hours 24 := by rw [Int.zero_add]; exact hday
      _ ≤ (racingCalls c).now + hours (racingCalls c).ttlHours := by
        rw [(hnow c).2.2]
        exact Int.add_le_add_right (hnow c).1 _
  released j job hrow := by cases hrow

theorem race_admissible :
    Admissible (Enabled documentedRack racingCalls) (after documentedRack racingCalls)
      { store := {} } race := by
  refine ⟨⟨rfl, racingCalls_accepted 0⟩, ⟨rfl, racingCalls_accepted 1⟩, ?_, ?_, ?_, ?_, ?_, ?_, ?_,
    trivial⟩
  all_goals exact ⟨trivial, racingCalls_accepted _, by decide +kernel⟩

theorem idempotent_submissions_race : ∃ c₀, Carries racingCalls "anonymous" "k" c₀ ∧
    (race.foldl (after documentedRack racingCalls) { store := {} }).point c₀ =
      .returned 7 (racingCalls c₀).created true ∧
    (race.foldl (after documentedRack racingCalls) { store := {} }).point 0 =
      .returned 7 .executing false := by
  have hstart : ({} : Db).UniqueKeys := by
    rintro source key j k ⟨columns, hcolumns, -⟩
    cases hcolumns
  have hpoint : (race.foldl (after documentedRack racingCalls) { store := {} }).point 0 =
      .returned 7 .executing false :=
    SubmitPoint.result?_eq_some.1 (by decide +kernel)
  have hforeign : ∀ e ∈ trace (after documentedRack racingCalls) { store := {} } race,
      ¬ Foreign "anonymous" "k" e.act := by
    refine forall_mem_trace ?_
    refine ⟨?_, ?_, ?_, ?_, ?_, ?_, ?_, ?_, ?_, trivial⟩
    all_goals
      rintro ⟨jobId, r, profile, outcome, records, now, hact, -⟩
      cases hact
  obtain ⟨c₀, hc₀, hcreated, -⟩ :=
    (idempotent_submissions hstart (Run.replay race_admissible)).2.1 "anonymous" "k"
      racingCalls_oneLifetime hforeign 0 7 .executing false ⟨rfl, rfl⟩ hpoint
  exact ⟨c₀, hc₀, hcreated, hpoint⟩

end Submitters

end LoadCoach

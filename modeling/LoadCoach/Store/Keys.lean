import LoadCoach.Store.Columns

/-! # Idempotency keys in the store

A row holds the key it was submitted with until the key is released; the pair of source and key is
unique.  This module says of every transaction what it does to the three columns of the key
(`Db.keys`): an insert adds the columns of its row and finds no holder of the key
(`Db.Inserts`), a lookup may release an expired holder (`Db.existingJobForKey_spec`), and every
other transaction leaves the columns of every row alone (`Op.run_keys`).  So no two rows ever hold
one key (`Op.run_uniqueKeys`). -/

namespace LoadCoach

open Foundations Relation

/-- The columns of a row's idempotency key. -/
structure KeyColumns where
  source : String
  key : Option String
  expiresAt : Option Instant

/-- The key columns of a row. -/
def Job.keyColumns (job : Job) : KeyColumns :=
  ⟨job.source, job.idempotencyKey, job.idempotencyExpiresAt⟩

@[simp] theorem Job.moved_keyColumns (target : JobState) (now : Instant) (reason : Option String)
    (values : JobData → JobData) (job : Job) :
    (job.moved target now reason values).keyColumns = job.keyColumns := by
  simp only [moved]
  split_ifs <;> rfl

theorem carried_keyColumns : Carried Job.keyColumns where
  moved target now reason values job := job.moved_keyColumns target now reason values
  counted _ := rfl
  leased _ _ _ := rfl
  renewed _ _ := rfl
  prioritised _ _ := rfl

/-! ### Who holds a key -/

namespace Db

variable {db db' db₁ : Db} {jobId j : JobId}

/-- The key columns of every row. -/
def keys (db : Db) (j : JobId) : Option KeyColumns := (db.jobs.lookup j).map Job.keyColumns

/-- A row holds a key. -/
def Holds (source key : String) (j : JobId) (db : Db) : Prop :=
  ∃ columns, db.keys j = some columns ∧ columns.source = source ∧ columns.key = some key

/-- No two rows hold one key. -/
def UniqueKeys (db : Db) : Prop :=
  ∀ source key j k, db.Holds source key j → db.Holds source key k → j = k

theorem holds_of_lookup {job : Job} {source key : String} (hrow : db.jobs.lookup j = some job)
    (hsource : job.source = source) (hkey : job.idempotencyKey = some key) :
    db.Holds source key j :=
  ⟨job.keyColumns, by rw [keys, hrow]; rfl, hsource, hkey⟩

/-! ### Inserts -/

/-- A transaction inserted a row with the given key columns, and nobody held its key. -/
structure Inserts (jobId : JobId) (columns : KeyColumns) (db db' : Db) : Prop where
  fresh : db.keys jobId = none
  keys : db'.keys = Function.update db.keys jobId (some columns)
  unheld : ∀ key, columns.key = some key → ∀ j, ¬ db.Holds columns.source key j

theorem inserts_insertJob {job : Job} (h : db.insertJob jobId job = .ok db') :
    Inserts jobId job.keyColumns db db' := by
  obtain ⟨hfresh, hkeys⟩ := viewed_insertJob Job.keyColumns h
  refine ⟨hfresh, hkeys, ?_⟩
  rintro key hkey k ⟨columns, hcolumns, hsource, hsame⟩
  obtain ⟨other, hrow, rfl⟩ := Option.map_eq_some_iff.1 hcolumns
  have hjob : job.idempotencyKey = some key := hkey
  unfold insertJob at h
  split_ifs at h with hmem hunique
  refine hunique ⟨by simp [hjob], fun hnil => ?_⟩
  have hselect : (k, other) ∈ db.jobs.select fun _ other =>
      other.source == job.source && other.idempotencyKey == job.idempotencyKey := by
    refine (Table.mem_select _ _ _ _).2 ⟨hrow, ?_⟩
    have hsource : other.source = job.source := hsource
    have hsame : other.idempotencyKey = some key := hsame
    simp [hsource, hsame, hjob]
  rw [hnil] at hselect
  cases hselect

theorem Inserts.congr {columns : KeyColumns} (h : Inserts jobId columns db db₁)
    (hkeys : db'.keys = db₁.keys) : Inserts jobId columns db db' :=
  ⟨h.fresh, hkeys.trans h.keys, h.unheld⟩

theorem Inserts.holds_iff {columns : KeyColumns} (h : Inserts jobId columns db db')
    {source key : String} : db'.Holds source key j ↔
      (j = jobId ∧ columns.source = source ∧ columns.key = some key) ∨ db.Holds source key j := by
  unfold Holds
  rw [h.keys]
  by_cases hj : j = jobId
  · subst hj
    simp [h.fresh]
  · simp [hj]

theorem Inserts.uniqueKeys {columns : KeyColumns} (h : Inserts jobId columns db db')
    (hunique : db.UniqueKeys) : db'.UniqueKeys := by
  intro source key j k hj hk
  rcases h.holds_iff.1 hj with ⟨rfl, rfl, hkey⟩ | hj
  · rcases h.holds_iff.1 hk with ⟨rfl, -⟩ | hk
    · rfl
    · exact absurd hk (h.unheld key hkey k)
  · rcases h.holds_iff.1 hk with ⟨rfl, rfl, hkey⟩ | hk
    · exact absurd hj (h.unheld key hkey j)
    · exact hunique source key j k hj hk

theorem insertJob_of_unheld {job : Job} (hfresh : jobId ∉ db.jobs)
    (hunheld : ∀ key, job.idempotencyKey = some key → ∀ j, ¬ db.Holds job.source key j) :
    ∃ db', db.insertJob jobId job = .ok db' := by
  unfold insertJob
  rw [if_neg hfresh, if_neg]
  · exact ⟨_, rfl⟩
  · rintro ⟨hsome, hne⟩
    obtain ⟨key, hkey⟩ := Option.isSome_iff_exists.1 hsome
    obtain ⟨⟨k, other⟩, he⟩ := List.exists_mem_of_ne_nil _ hne
    obtain ⟨hrow, hsame⟩ := (Table.mem_select _ _ _ _).1 he
    simp only [Bool.and_eq_true, beq_iff_eq] at hsame
    exact hunheld key hkey k (holds_of_lookup hrow hsame.1 (hsame.2.trans hkey))

/-! ### Lookups -/

/-- A key was released: its row holds none. -/
def Releases (jobId : JobId) (db db' : Db) : Prop :=
  ∃ columns, db.keys jobId = some columns ∧
    db'.keys = Function.update db.keys jobId (some ⟨columns.source, none, none⟩)

theorem Releases.holds {source key : String} (h : Releases jobId db db')
    (hj : db'.Holds source key j) : j ≠ jobId ∧ db.Holds source key j := by
  obtain ⟨columns, hcolumns, hkeys⟩ := h
  obtain ⟨columns', hcolumns', hsource, hkey⟩ := hj
  rw [hkeys] at hcolumns'
  by_cases hne : j = jobId
  · subst hne
    rw [Function.update_self] at hcolumns'
    cases hcolumns'
    cases hkey
  · rw [Function.update_of_ne hne] at hcolumns'
    exact ⟨hne, columns', hcolumns', hsource, hkey⟩

/-- **What a lookup finds**: no holder, an expired one that it releases, or an unexpired one. -/
theorem existingJobForKey_spec (source key : String) (now : Instant) (db : Db) :
    (db.existingJobForKey source key now = (none, db) ∧ ∀ j, ¬ db.Holds source key j) ∨
      ∃ j job, db.jobs.lookup j = some job ∧ job.source = source ∧
        job.idempotencyKey = some key ∧
        (((∃ t ∈ job.idempotencyExpiresAt, t ≤ now) ∧ ∃ db',
            db.existingJobForKey source key now = (none, db') ∧ Releases j db db') ∨
          (¬(∃ t ∈ job.idempotencyExpiresAt, t ≤ now) ∧
            db.existingJobForKey source key now = (some (j, job.state), db))) := by
  unfold existingJobForKey
  cases hrows : db.jobs.select
      (fun _ job => job.source == source && job.idempotencyKey == some key) with
  | nil =>
      refine .inl ⟨rfl, ?_⟩
      rintro j ⟨columns, hcolumns, hsource, hkey⟩
      obtain ⟨job, hrow, rfl⟩ := Option.map_eq_some_iff.1 hcolumns
      have hmem : (j, job) ∈ db.jobs.select
          fun _ job => job.source == source && job.idempotencyKey == some key := by
        refine (Table.mem_select _ _ _ _).2 ⟨hrow, ?_⟩
        have hsource : job.source = source := hsource
        have hkey : job.idempotencyKey = some key := hkey
        simp [hsource, hkey]
      rw [hrows] at hmem
      cases hmem
  | cons e rest =>
      obtain ⟨j, job⟩ := e
      have hmem : (j, job) ∈ db.jobs.select
          fun _ job => job.source == source && job.idempotencyKey == some key := by
        rw [hrows]
        exact List.mem_cons_self
      obtain ⟨hrow, hp⟩ := (Table.mem_select _ _ _ _).1 hmem
      simp only [Bool.and_eq_true, beq_iff_eq] at hp
      refine .inr ⟨j, job, hrow, hp.1, hp.2, ?_⟩
      by_cases hexpired : ∃ t ∈ job.idempotencyExpiresAt, t ≤ now
      · refine .inl ⟨hexpired, _, if_pos hexpired, job.keyColumns, ?_, ?_⟩
        · rw [keys, hrow]
          rfl
        · funext k
          by_cases hk : k = j
          · subst hk
            simp [keys, hrow, Job.keyColumns]
          · simp [keys, hk]
      · exact .inr ⟨hexpired, if_neg hexpired⟩

end Db

/-! ### Transactions -/

namespace Op

variable {rack : ModelRack} {db db' : Db} {op : Op}

/-- **Every other transaction leaves every key alone.** -/
theorem run_keys (hop : ¬ op.WritesKeys) (hrun : op.run rack db = .ok db') :
    db'.keys = db.keys := by
  have hkeeps : op.KeepsView Job.keyColumns db := by
    cases op with
    | persist => exact fun _ _ => rfl
    | failReserved | backstop => exact fun _ => rfl
    | _ => trivial
  exact run_view carried_keyColumns hop hkeeps hrun

theorem run_enqueue_inserts {jobId : JobId} {s : JobSubmission} {profile : String × String}
    {pinnedModelId : Option String} {now : Instant} {settings : QueueSettings}
    (hrun : (enqueue jobId s profile pinnedModelId now settings).run rack db = .ok db') :
    Db.Inserts jobId ⟨s.source, s.idempotencyKey,
      s.idempotencyKey.map fun _ => now + hours settings.idempotencyTtlHours⟩ db db' := by
  simp only [run, Db.enqueue, bind_eq_ok, pure_eq_ok] at hrun
  obtain ⟨priority, -, requestJson, -, db₁, hinsert, rfl⟩ := hrun
  exact (Db.inserts_insertJob hinsert).congr rfl

theorem run_reserveSyncJob_inserts {jobId : JobId} {r : GenerateRequest}
    {profile : String × String} {now : Instant} {ttlHours : ℚ}
    (hrun : (reserveSyncJob jobId r profile now ttlHours).run rack db = .ok db') :
    Db.Inserts jobId ⟨r.source, r.idempotencyKey,
      r.idempotencyKey.map fun _ => now + hours ttlHours⟩ db db' := by
  simp only [run, Db.reserveSyncJob, bind_eq_ok] at hrun
  obtain ⟨turns, -, hinsert⟩ := hrun
  exact Db.inserts_insertJob hinsert

theorem run_persistNew_inserts {jobId : JobId} {r : GenerateRequest} {profile : String × String}
    {outcome : SyncOutcome} {records : List AttemptRecord} {now : Instant}
    (hrun : (persistNew jobId r profile outcome records now).run rack db = .ok db') :
    Db.Inserts jobId ⟨r.source, r.idempotencyKey, none⟩ db db' := by
  obtain ⟨db₁, hinsert, hkeys⟩ := run_persistNew_viewed carried_keyColumns.worked hrun
  exact (Db.inserts_insertJob hinsert).congr hkeys

/-- **No two rows hold one key, whatever is run.** -/
theorem run_uniqueKeys (hunique : db.UniqueKeys) (hrun : op.run rack db = .ok db') :
    db'.UniqueKeys := by
  by_cases hop : op.WritesKeys
  case neg =>
    intro source key j k hj hk
    unfold Db.Holds at hj hk
    rw [run_keys hop hrun] at hj hk
    exact hunique source key j k hj hk
  cases op with
  | enqueue => exact (run_enqueue_inserts hrun).uniqueKeys hunique
  | reserveSyncJob => exact (run_reserveSyncJob_inserts hrun).uniqueKeys hunique
  | persistNew => exact (run_persistNew_inserts hrun).uniqueKeys hunique
  | existingJobForKey source key now =>
      have hdb : (db.existingJobForKey source key now).2 = db' := Except.ok.inj hrun
      rcases Db.existingJobForKey_spec source key now db with
        ⟨hresult, -⟩ | ⟨j, job, -, -, -, ⟨-, db₁, hresult, hreleases⟩ | ⟨-, hresult⟩⟩
      · rw [hresult] at hdb
        exact hdb ▸ hunique
      · rw [hresult] at hdb
        subst hdb
        intro source' key' j' k' hj hk
        exact hunique source' key' j' k' (hreleases.holds hj).2 (hreleases.holds hk).2
      · rw [hresult] at hdb
        exact hdb ▸ hunique
  | _ => exact hop.elim

end Op

end LoadCoach

import LoadCoach.Store.Log
import LoadCoach.Worker.Program

/-! # Lease renewal

The lease keeper and the reaper of every process, on a common clock: `Scheduler.tick` and
`keep_leases` of `services/worker.py`, statement by statement.  A worker's claim and its entry in
the in-flight registry are one step, as is the removal of the entry; every other transaction of the
store runs whenever it likes, and a tick may end early with an exception.

A registered job whose row is leased to its worker has a lease that lasts `lease_seconds` beyond
the instant of the last complete pass of its process's keeper (`Leases.Covered`); the pass under way
extends those of the workers it has been to.  So a reaper that looks before that time is over finds
none of them (`registered_not_reaped`). -/

namespace LoadCoach

open Foundations Relation

/-! ### Schedulers -/

/-- What the scheduler reads of the settings, and how many workers its process runs. -/
structure LeaseSettings where
  leaseSeconds : ℕ := 60
  leaseRenewalIntervalSeconds : ℕ := 20
  workers : ℕ := 1

/-- `_REAPER_INTERVAL_SECONDS`. -/
def reaperIntervalSeconds : ℕ := 1

/-- A place in a tick. -/
inductive TickPoint where
  | idle
  /-- `keep_leases`, at the head of its loop over the workers. -/
  | keeping (now : Instant) (rest : List Owner)
  | renewing (now : Instant) (w : Owner) (jobIds : List JobId) (rest : List Owner)
  | marking (now : Instant) (w : Owner) (lost : List JobId) (rest : List Owner)
  | reaping (now : Instant)

/-- The point after the keeper read the jobs of a worker. -/
def TickPoint.read (now : Instant) (w : Owner) (rest : List Owner) : List JobId → TickPoint
  | [] => keeping now rest
  | jobIds => renewing now w jobIds rest

/-- The scheduler of a process.  `kept` is a history variable: the instant of its last complete
`keep_leases`, or of its start. -/
structure Scheduler where
  point : TickPoint := .idle
  lastKeeper : Option Instant := none
  lastReaper : Option Instant := none
  kept : Instant

/-- `_due`. -/
def due (last : Option Instant) (now : Instant) (intervalSeconds : ℕ) : Bool :=
  !last.any fun last => decide (now - last < seconds intervalSeconds)

/-- The workers of a process. -/
def LeaseSettings.owners (settings : LeaseSettings) (process : ℕ) : List Owner :=
  (List.range settings.workers).map (Owner.mk process)

/-- The start of a tick: the keeper, if it is due, comes before the reaper. -/
def Scheduler.tick (settings : LeaseSettings) (process : ℕ) (now : Instant) (sched : Scheduler) :
    Scheduler :=
  match sched.point with
  | .idle =>
      if due sched.lastKeeper now settings.leaseRenewalIntervalSeconds then
        { sched with point := .keeping now (settings.owners process), lastKeeper := some now }
      else
        { sched with point := .reaping now }
  | _ => sched

/-! ### The system -/

/-- The store, the in-flight registries, the clock and the schedulers. -/
structure Leases where
  store : Store := {}
  inFlight : Table (Owner × JobId) InFlightEntry := ∅
  clock : Instant := 0
  schedulers : Table ℕ Scheduler := ∅

/-- What happens next. -/
inductive LeaseAct where
  | advance (now : Instant)
  /-- A transaction that takes, renews and expires no lease. -/
  | store (op : Op)
  | start (process : ℕ)
  /-- A claim and its registration. -/
  | claim (w : Owner) (pick : ℕ) (affinity : Option AffinityHint)
  | leave (w : Owner) (jobId : JobId)
  | requestCancel (jobId : JobId)
  | tick (process : ℕ)
  /-- One statement of `keep_leases`. -/
  | keep (process : ℕ)
  | reap (process : ℕ)
  /-- An exception ends the tick. -/
  | fail (process : ℕ)

/-- A transaction of neither a claim, a keeper nor a reaper. -/
def Op.LeavesLeases : Op → Prop
  | claim .. | renewLeases .. | reapExpiredLeases _ => False
  | _ => True

namespace Leases

/-- The jobs a worker is registered for. -/
def jobIdsFor (s : Leases) (w : Owner) : List JobId :=
  (s.inFlight.select fun key _ => decide (key.1 = w)).map fun e => e.1.2

/-- Where a process's scheduler stands. -/
def point (s : Leases) (process : ℕ) : TickPoint :=
  ((s.schedulers.lookup process).map Scheduler.point).getD .idle

/-- The instant a reaper looks at the leases, if a step is its look. -/
def looksAt (s : Leases) : LeaseAct → Option Instant
  | .reap process =>
      match s.schedulers.lookup process with
      | none => none
      | some sched =>
          match sched.point with
          | .reaping now => if due sched.lastReaper now reaperIntervalSeconds then some now else none
          | _ => none
  | _ => none

/-- The transaction an act runs on the store. -/
def op (settings : LeaseSettings) (s : Leases) : LeaseAct → Option Op
  | .store op => some op
  | .claim w pick affinity => some (.claim w s.clock settings.leaseSeconds pick affinity)
  | .keep process =>
      match s.point process with
      | .renewing now w jobIds _ => some (.renewLeases w jobIds now settings.leaseSeconds)
      | _ => none
  | .reap process => (s.looksAt (.reap process)).map .reapExpiredLeases
  | _ => none

/-- The scheduler of a process, changed in place. -/
def setScheduler (s : Leases) (process : ℕ) (f : Scheduler → Scheduler) : Leases :=
  { s with schedulers :=
      (s.schedulers.updateWhere (fun p _ => decide (p = process)) f).1 }

/-- One statement of `keep_leases`. -/
def keepLeases (settings : LeaseSettings) (s : Leases) (process : ℕ) : Leases :=
  match s.point process with
  | .keeping now [] =>
      s.setScheduler process fun sched => { sched with point := .reaping now, kept := now }
  | .keeping now (w :: rest) =>
      s.setScheduler process fun sched =>
        { sched with point := .read now w rest (s.jobIdsFor w) }
  | .renewing now w jobIds rest =>
      let lost := (s.store.db.renewLeases w jobIds now settings.leaseSeconds).1
      s.setScheduler process fun sched => { sched with point := .marking now w lost rest }
  | .marking now w lost rest =>
      let inFlight := (s.inFlight.updateWhere
        (fun key _ => decide (key.1 = w) && decide (key.2 ∈ lost))
        fun _ => { cancelled := true, lost := true }).1
      { s with inFlight }.setScheduler process fun sched =>
        { sched with point := .keeping now rest }
  | _ => s

/-- What an act does to everything but the store. -/
def control (rack : ModelRack) (settings : LeaseSettings) (s : Leases) : LeaseAct → Leases
  | .advance now => { s with clock := now }
  | .store _ => s
  | .start process => { s with schedulers := s.schedulers.insert process { kept := s.clock } }
  | .claim w pick affinity =>
      match s.store.db.claim rack w s.clock settings.leaseSeconds pick affinity with
      | .ok (some job, _) => { s with inFlight := s.inFlight.insert (w, job.jobId) {} }
      | _ => s
  | .leave w jobId => { s with inFlight := s.inFlight.erase (w, jobId) }
  | .requestCancel jobId =>
      { s with inFlight := (s.inFlight.updateWhere (fun key _ => decide (key.2 = jobId))
          fun e => { e with cancelled := true }).1 }
  | .tick process => s.setScheduler process (Scheduler.tick settings process s.clock)
  | .keep process => s.keepLeases settings process
  | .reap process =>
      match s.looksAt (.reap process) with
      | some now => s.setScheduler process fun sched =>
          { sched with point := .idle, lastReaper := some now }
      | none => s.setScheduler process fun sched => { sched with point := .idle }
  | .fail process => s.setScheduler process fun sched => { sched with point := .idle }

/-- The state after an act. -/
def after (rack : ModelRack) (settings : LeaseSettings) (s : Leases) (a : LeaseAct) : Leases :=
  { s.control rack settings a with
    store := match s.op settings a with
      | none => s.store
      | some op => s.store.after rack op }

/-- What an act requires: the clock does not go back, a process starts once, only its workers
claim, and the reaper comes after the keeper. -/
def Enabled (rack : ModelRack) (settings : LeaseSettings) (s : Leases) : LeaseAct → Prop
  | .advance now => s.clock ≤ now
  | .store op => op.LeavesLeases ∧ op.Enabled rack s.store
  | .start process => s.schedulers.lookup process = none
  | .claim w .. => w ∈ settings.owners w.process ∧ (s.schedulers.lookup w.process).isSome
  | .reap process => ∃ now, s.point process = .reaping now
  | _ => True

/-- **The lease keepers and the reapers.** -/
def system (rack : ModelRack) (settings : LeaseSettings) : System Leases LeaseAct :=
  .guarded (Enabled rack settings) (after rack settings) {}

/-- Every step is one transaction of the store or none. -/
def simulation (rack : ModelRack) (settings : LeaseSettings) :
    Simulation (system rack settings) (Store.system rack) where
  abs := store
  label := op settings
  init := by
    rintro _ rfl
    rfl
  step := by
    rintro s a _ op ⟨henabled, rfl⟩ hop
    refine ⟨?_, by simp only [after, hop]⟩
    cases a with
    | store op' =>
        cases hop
        exact henabled.2
    | claim w pick affinity =>
        cases hop
        trivial
    | keep process =>
        simp only [Leases.op] at hop
        split at hop <;> cases hop
        trivial
    | reap process =>
        obtain ⟨now, -, rfl⟩ := Option.map_eq_some_iff.1 hop
        trivial
    | _ => cases hop
  stutter := by
    rintro s a _ ⟨-, rfl⟩ hop
    simp only [after, hop]

/-- When a reaper looks, the last complete `keep_leases` of every process with registered jobs is
less than `lease_seconds` old. -/
def KeptInTime (settings : LeaseSettings) (e : Foundations.Step Leases LeaseAct) : Prop :=
  ∀ now ∈ e.pre.looksAt e.act, ∀ key ∈ e.pre.inFlight.keys,
    ∀ sched ∈ e.pre.schedulers.lookup key.1.process, now < sched.kept + seconds settings.leaseSeconds

instance (settings : LeaseSettings) (e : Foundations.Step Leases LeaseAct) :
    Decidable (KeptInTime settings e) :=
  inferInstanceAs (Decidable (∀ now ∈ e.pre.looksAt e.act, ∀ key ∈ e.pre.inFlight.keys,
    ∀ sched ∈ e.pre.schedulers.lookup key.1.process, _))

end Leases

/-! ### A lease under the other writers -/

namespace Track

variable {rack : ModelRack} {who : Writer} {t t' : Track} {job' : Job} {w : Owner}

/-- A row leased to a worker after a statement of neither its claim nor its keeper was leased to it
before, until the same instant. -/
theorem Step.leasedUntil (hstep : Step rack who t t') (hrow' : t'.row = some job')
    (howner : job'.leaseOwner = some w) (hclaimer : who ≠ .claimer w) (hkeeper : who ≠ .keeper w) :
    ∃ job, t.row = some job ∧ job.leaseOwner = some w ∧
      job.leaseExpiresAt = job'.leaseExpiresAt := by
  cases hstep with
  | @move job target now reason values hrow =>
      cases hrow'
      rw [Job.moved_leaseOwner] at howner
      split_ifs at howner with hflight
      refine ⟨job, hrow, howner, ?_⟩
      rw [Job.moved_leaseExpiresAt, if_pos hflight]
  | @lease job w' expiresAt hwho =>
      cases hrow'
      cases howner
      exact absurd hwho hclaimer
  | @renew job w' expiresAt hwho hrow hleased =>
      cases hrow'
      have hsame : some w' = some w := hleased.symm.trans howner
      exact absurd (Option.some.inj hsame ▸ hwho) hkeeper
  | @assign job _ _ hrow hassigned =>
      cases hrow'
      exact ⟨job, hrow, hassigned.leaseOwner.symm.trans howner, hassigned.leaseExpiresAt.symm⟩
  | insert _ hfresh =>
      cases hrow'
      exact absurd (hfresh.leaseOwner.symm.trans howner) (by simp)
  | @record job _ hrow | @touch job _ _ _ _ hrow =>
      cases hrow'
      exact ⟨job, hrow, howner, rfl⟩

theorem Path.leasedUntil (hpath : Path rack who t t') (hrow' : t'.row = some job')
    (howner : job'.leaseOwner = some w) (hclaimer : who ≠ .claimer w) (hkeeper : who ≠ .keeper w) :
    ∃ job, t.row = some job ∧ job.leaseOwner = some w ∧
      job.leaseExpiresAt = job'.leaseExpiresAt := by
  induction hpath generalizing job' with
  | refl => exact ⟨job', hrow', howner, rfl⟩
  | tail _ hstep ih =>
      obtain ⟨job₁, hrow₁, howner₁, hexpires₁⟩ := hstep.leasedUntil hrow' howner hclaimer hkeeper
      obtain ⟨job, hrow, howner, hexpires⟩ := ih hrow₁ howner₁
      exact ⟨job, hrow, howner, hexpires.trans hexpires₁⟩

end Track

theorem Op.LeavesLeases.writer_ne {op : Op} (h : op.LeavesLeases) (w : Owner) :
    op.writer ≠ .claimer w ∧ op.writer ≠ .keeper w := by
  cases op <;> simp [LeavesLeases] at h <;> simp [writer]

/-! ### The invariant -/

/-- The instant of a tick. -/
def TickPoint.now? : TickPoint → Option Instant
  | idle => none
  | keeping now _ | renewing now .. | marking now .. | reaping now => some now

/-- The workers the pass under way still has to renew for. -/
def TickPoint.workers : TickPoint → List Owner
  | keeping _ rest | marking _ _ _ rest => rest
  | renewing _ w _ rest => w :: rest
  | _ => []

/-- The pass under way has been to a hold. -/
def TickPoint.Passed (w : Owner) (j : JobId) : TickPoint → Prop
  | keeping _ rest | marking _ _ _ rest => w ∉ rest
  | renewing _ w' jobIds rest => (w = w' → j ∉ jobIds) ∧ (w ≠ w' → w ∉ rest)
  | _ => False

namespace Leases

variable {rack : ModelRack} {settings : LeaseSettings} {s : Leases}

/-- A lease lasts `lease_seconds` beyond the last pass, and beyond the one under way if that has
been to it. -/
def Lasts (settings : LeaseSettings) (sched : Scheduler) (w : Owner) (j : JobId) (t : Instant) :
    Prop :=
  sched.kept + seconds settings.leaseSeconds ≤ t ∧
    (sched.point.Passed w j →
      ∀ now ∈ sched.point.now?, now + seconds settings.leaseSeconds ≤ t)

/-- The passes of a process's scheduler are in the past, in their order, and for its workers. -/
structure Timely (clock : Instant) (p : ℕ) (sched : Scheduler) : Prop where
  kept : sched.kept ≤ clock
  tick : ∀ now ∈ sched.point.now?, sched.kept ≤ now ∧ now ≤ clock
  workers : ∀ w ∈ sched.point.workers, w.process = p

/-- The lease of every registered job lasts. -/
structure Covered (settings : LeaseSettings) (s : Leases) : Prop where
  timely : ∀ p, ∀ sched ∈ s.schedulers.lookup p, Timely s.clock p sched
  owner : ∀ w j, (w, j) ∈ s.inFlight → w ∈ settings.owners w.process
  lease : ∀ w j job, (w, j) ∈ s.inFlight → s.store.db.jobs.lookup j = some job →
    job.leaseOwner = some w → ∃ sched t, s.schedulers.lookup w.process = some sched ∧
      job.leaseExpiresAt = some t ∧ Lasts settings sched w j t

theorem Covered.store {store' : Store} (h : s.Covered settings)
    (hleased : ∀ w j job', (w, j) ∈ s.inFlight → store'.db.jobs.lookup j = some job' →
      job'.leaseOwner = some w → ∃ job, s.store.db.jobs.lookup j = some job ∧
        job.leaseOwner = some w ∧ job.leaseExpiresAt = job'.leaseExpiresAt) :
    Covered settings { s with store := store' } where
  timely := h.timely
  owner := h.owner
  lease := by
    intro w j job' hkey hrow' howner'
    obtain ⟨job, hrow, howner, hexpires⟩ := hleased w j job' hkey hrow' howner'
    obtain ⟨sched, t, hsched, ht, hlasts⟩ := h.lease w j job hkey hrow howner
    exact ⟨sched, t, hsched, hexpires ▸ ht, hlasts⟩

theorem Covered.registry {inFlight : Table (Owner × JobId) InFlightEntry}
    (h : s.Covered settings) (hsub : ∀ key ∈ inFlight, key ∈ s.inFlight) :
    Covered settings { s with inFlight } where
  timely := h.timely
  owner w j hkey := h.owner w j (hsub _ hkey)
  lease w j job hkey := h.lease w j job (hsub _ hkey)

theorem lookup_setScheduler (s : Leases) (p : ℕ) (f : Scheduler → Scheduler) (q : ℕ) :
    (s.setScheduler p f).schedulers.lookup q =
      (s.schedulers.lookup q).map fun sched => if q = p then f sched else sched := by
  simp [setScheduler]

theorem Covered.setScheduler {p : ℕ} {f : Scheduler → Scheduler} (h : s.Covered settings)
    (htimely : ∀ sched, s.schedulers.lookup p = some sched → Timely s.clock p sched →
      Timely s.clock p (f sched))
    (hlasts : ∀ sched, s.schedulers.lookup p = some sched → Timely s.clock p sched →
      ∀ w ∈ settings.owners p, ∀ j, (w, j) ∈ s.inFlight → ∀ job t,
        s.store.db.jobs.lookup j = some job → job.leaseOwner = some w →
        job.leaseExpiresAt = some t → Lasts settings sched w j t →
        Lasts settings (f sched) w j t) : Covered settings (s.setScheduler p f) where
  timely := by
    intro q sched' hsched'
    rw [lookup_setScheduler] at hsched'
    obtain ⟨sched, hsched, rfl⟩ := Option.map_eq_some_iff.1 hsched'
    show Timely s.clock q (if q = p then f sched else sched)
    split_ifs with hq
    · subst hq
      exact htimely sched hsched (h.timely q sched hsched)
    · exact h.timely q sched hsched
  owner := h.owner
  lease := by
    intro w j job hkey hrow howner
    obtain ⟨sched, t, hsched, ht, hlast⟩ := h.lease w j job hkey hrow howner
    refine ⟨if w.process = p then f sched else sched, t, ?_, ht, ?_⟩
    · rw [lookup_setScheduler, hsched, Option.map_some]
    · split_ifs with hp
      · subst hp
        exact hlasts sched hsched (h.timely w.process sched hsched) w (h.owner w j hkey) j hkey
          job t hrow howner ht hlast
      · exact hlast

theorem point_eq {p : ℕ} {sched : Scheduler} (hsched : s.schedulers.lookup p = some sched) :
    sched.point = s.point p := by simp [Leases.point, hsched]

theorem exists_scheduler {p : ℕ} {point : TickPoint} {now : Instant} (hpoint : s.point p = point)
    (hnow : point.now? = some now) : ∃ sched, s.schedulers.lookup p = some sched := by
  cases hsched : s.schedulers.lookup p with
  | none =>
      have hidle : s.point p = .idle := by simp [Leases.point, hsched]
      rw [← hpoint, hidle] at hnow
      cases hnow
  | some sched => exact ⟨sched, rfl⟩

theorem Covered.goto {p : ℕ} {before point : TickPoint} (h : s.Covered settings)
    (hpoint : s.point p = before) (hnow : ∀ now ∈ point.now?, now ∈ before.now?)
    (hworkers : ∀ w ∈ point.workers, w ∈ before.workers)
    (hpassed : ∀ w ∈ settings.owners p, ∀ j, (w, j) ∈ s.inFlight → point.Passed w j →
      before.Passed w j) :
    Covered settings (s.setScheduler p fun sched => { sched with point }) := by
  refine h.setScheduler ?_ ?_
  · intro sched hsched htimely
    have hbefore : sched.point = before := (point_eq hsched).trans hpoint
    subst hbefore
    exact ⟨htimely.kept, fun now hmem => htimely.tick now (hnow now hmem),
      fun w hmem => htimely.workers w (hworkers w hmem)⟩
  · intro sched hsched _ w hw j hkey _ t _ _ _ hlasts
    have hbefore : sched.point = before := (point_eq hsched).trans hpoint
    subst hbefore
    exact ⟨hlasts.1, fun hpass now hmem =>
      hlasts.2 (hpassed w hw j hkey hpass) now (hnow now hmem)⟩

/-! ### The steps -/

theorem control_store (rack : ModelRack) (settings : LeaseSettings) (s : Leases) (a : LeaseAct) :
    (s.control rack settings a).store = s.store := by
  cases a with
  | claim =>
      simp only [control]
      split <;> rfl
  | keep =>
      simp only [control, keepLeases]
      split <;> rfl
  | reap =>
      simp only [control]
      split <;> rfl
  | _ => rfl

theorem after_quiet {a : LeaseAct} (hop : s.op settings a = none) :
    s.after rack settings a = s.control rack settings a := by
  simp only [after, hop]
  rw [← control_store rack settings s a]

variable {h : List (Foundations.Step Leases LeaseAct)}

theorem leased_after (hpast : Run (system rack settings) h s) {op : Op}
    (henabled : op.Enabled rack s.store)
    (hwriter : ∀ w, op.writer ≠ .claimer w ∧ op.writer ≠ .keeper w) {w : Owner} {j : JobId}
    {job' : Job} (hrow' : (s.store.after rack op).db.jobs.lookup j = some job')
    (howner : job'.leaseOwner = some w) : ∃ job, s.store.db.jobs.lookup j = some job ∧
      job.leaseOwner = some w ∧ job.leaseExpiresAt = job'.leaseExpiresAt :=
  (Store.after_writes (Store.syncRows ((simulation rack settings).run hpast))
    henabled j).leasedUntil hrow' howner (hwriter w).1 (hwriter w).2

theorem after_claim {w : Owner} {pick : ℕ} {affinity : Option AffinityHint} {job : ClaimedJob}
    {db : Db} (hclaim : s.store.db.claim rack w s.clock settings.leaseSeconds pick affinity =
      .ok (some job, db)) : s.after rack settings (.claim w pick affinity) =
        { s with store := { s.store with db }, inFlight := s.inFlight.insert (w, job.jobId) {} } := by
  simp only [after, op, control, Store.after, Op.run, hclaim, Except.map, Op.phase]

theorem after_claim_none {w : Owner} {pick : ℕ} {affinity : Option AffinityHint}
    (hclaim : ∀ job db, s.store.db.claim rack w s.clock settings.leaseSeconds pick affinity ≠
      .ok (some job, db)) : s.after rack settings (.claim w pick affinity) = s := by
  cases hresult : s.store.db.claim rack w s.clock settings.leaseSeconds pick affinity with
  | error e => simp only [after, op, control, Store.after, Op.run, hresult, Except.map]
  | ok result =>
      obtain ⟨claimed, db⟩ := result
      rcases Db.claim_spec hresult with ⟨rfl, rfl⟩ | ⟨job, row, rfl, -⟩
      · simp only [after, op, control, Store.after, Op.run, hresult, Except.map, Op.phase]
      · exact absurd hresult (hclaim job db)

theorem Timely.lasts {sched : Scheduler} {p : ℕ} {clock : Instant} (h : Timely clock p sched)
    (w : Owner) (j : JobId) : Lasts settings sched w j (clock + seconds settings.leaseSeconds) :=
  ⟨add_le_add_left h.kept _, fun _ now hnow => add_le_add_left (h.tick now hnow).2 _⟩

theorem Covered.claim {w : Owner} {pick : ℕ} {affinity : Option AffinityHint}
    (h : s.Covered settings) (henabled : s.Enabled rack settings (.claim w pick affinity)) :
    (s.after rack settings (.claim w pick affinity)).Covered settings := by
  by_cases hclaim : ∃ job db, s.store.db.claim rack w s.clock settings.leaseSeconds pick affinity =
      .ok (some job, db)
  case neg =>
    rw [after_claim_none fun job db hok => hclaim ⟨job, db, hok⟩]
    exact h
  obtain ⟨claimed, db, hclaim⟩ := hclaim
  obtain ⟨hworker, hstarted⟩ := henabled
  obtain ⟨sched, hsched⟩ := Option.isSome_iff_exists.1 hstarted
  rcases Db.claim_spec hclaim with ⟨hnone, -⟩ | ⟨job, row, hjob, hrow, -, -, -, -, -, honly⟩
  · cases hnone
  cases hjob
  rw [after_claim hclaim]
  have hrow' : db.jobs.lookup claimed.jobId =
      some (row.leasedBy w (s.clock + seconds settings.leaseSeconds)) :=
    congrArg Track.row honly.1
  refine ⟨h.timely, ?_, ?_⟩
  · intro w' j hkey
    rcases (AList.mem_insert _).1 hkey with heq | hkey
    · cases heq
      exact hworker
    · exact h.owner w' j hkey
  · intro w' j job' hkey hlookup howner
    by_cases hj : j = claimed.jobId
    · subst hj
      cases hrow'.symm.trans hlookup
      cases howner
      exact ⟨sched, _, hsched, rfl, (h.timely w.process sched hsched).lasts w _⟩
    · have hkey : (w', j) ∈ s.inFlight := by
        rcases (AList.mem_insert _).1 hkey with heq | hkey
        · exact absurd (congrArg Prod.snd heq) hj
        · exact hkey
      have hsame : s.store.db.jobs.lookup j = some job' :=
        (congrArg Track.row (honly.2 j hj)).symm.trans hlookup
      exact h.lease w' j job' hkey hsame howner

theorem mem_jobIdsFor (s : Leases) (w : Owner) (j : JobId) :
    j ∈ s.jobIdsFor w ↔ (w, j) ∈ s.inFlight := by
  rw [← AList.lookup_isSome, Option.isSome_iff_exists]
  simp only [jobIdsFor, List.mem_map]
  constructor
  · rintro ⟨⟨⟨w', j'⟩, entry⟩, he, rfl⟩
    obtain ⟨hentry, hw⟩ := (Table.mem_select _ _ _ _).1 he
    simp only [decide_eq_true_eq] at hw
    subst hw
    exact ⟨entry, hentry⟩
  · rintro ⟨entry, hentry⟩
    exact ⟨((w, j), entry), (Table.mem_select _ _ _ _).2 ⟨hentry, decide_eq_true rfl⟩, rfl⟩

theorem Covered.read {p : ℕ} {now : Instant} {w : Owner} {rest : List Owner}
    (h : s.Covered settings) (hpoint : s.point p = .keeping now (w :: rest)) :
    Covered settings (s.setScheduler p fun sched =>
      { sched with point := .read now w rest (s.jobIdsFor w) }) := by
  refine h.goto hpoint ?_ ?_ ?_
  · cases s.jobIdsFor w <;> exact fun _ => id
  · cases s.jobIdsFor w with
    | nil => exact fun _ => List.mem_cons_of_mem w
    | cons => exact fun _ => id
  · intro w' _ j hkey hpass
    -- a registered job of the worker is among those that were read
    have hother : w' ≠ w := by
      rintro rfl
      have hmem := (mem_jobIdsFor s w' j).2 hkey
      cases hread : s.jobIdsFor w' with
      | nil => simp [hread] at hmem
      | cons k jobIds =>
          rw [hread] at hpass hmem
          exact hpass.1 rfl hmem
    have hrest : w' ∉ rest := by
      cases hread : s.jobIdsFor w with
      | nil =>
          rw [hread] at hpass
          exact hpass
      | cons k jobIds =>
          rw [hread] at hpass
          exact hpass.2 hother
    exact fun hmem => (List.mem_cons.1 hmem).elim hother hrest

theorem lookup_renewLeases {w : Owner} {jobIds : List JobId} {now : Instant} {leaseSeconds : ℕ}
    {db : Db} {j : JobId} {job' : Job}
    (hrow' : (db.renewLeases w jobIds now leaseSeconds).2.jobs.lookup j = some job') :
    ∃ job, db.jobs.lookup j = some job ∧ job'.leaseOwner = job.leaseOwner ∧
      job'.leaseExpiresAt = if j ∈ jobIds ∧ job.leaseOwner = some w ∧ job.state ∈ inFlightStates
        then some (now + seconds leaseSeconds) else job.leaseExpiresAt := by
  simp only [Db.renewLeases, Table.lookup_updateWhere, Option.map_eq_some_iff] at hrow'
  obtain ⟨job, hrow, rfl⟩ := hrow'
  refine ⟨job, hrow, ?_, ?_⟩
  · split_ifs <;> rfl
  · simp only [Bool.and_eq_true, decide_eq_true_eq]
    split_ifs <;> rfl

theorem Covered.renewed (hpast : Run (system rack settings) h s) {p : ℕ} {now : Instant}
    {w : Owner} {jobIds : List JobId} {rest : List Owner} {lost : List JobId}
    (hc : s.Covered settings) (hpoint : s.point p = .renewing now w jobIds rest) :
    Covered settings
      (({ s with store := s.store.after rack (.renewLeases w jobIds now settings.leaseSeconds) } :
        Leases).setScheduler p fun sched => { sched with point := .marking now w lost rest }) := by
  have hsame : ∀ sched, s.schedulers.lookup p = some sched →
      sched.point = .renewing now w jobIds rest := fun sched hsched =>
    (point_eq hsched).trans hpoint
  have hsound := fun j => Store.sound ((simulation rack settings).run hpast) j
  have hstore : Covered settings
      { s with store := s.store.after rack (.renewLeases w jobIds now settings.leaseSeconds) } := by
    refine ⟨hc.timely, hc.owner, ?_⟩
    intro w' j job' hkey hrow' howner'
    obtain ⟨job, hrow, howner, hexpires⟩ := lookup_renewLeases hrow'
    obtain ⟨sched, t, hsched, ht, hlasts⟩ := hc.lease w' j job hkey hrow (howner ▸ howner')
    split_ifs at hexpires with hrenewed
    · obtain ⟨hmem, hleased, -⟩ := hrenewed
      have hworker : w = w' := Option.some.inj (hleased.symm.trans (howner ▸ howner'))
      subst hworker
      have hprocess : w.process = p := by
        obtain ⟨sched₀, hsched₀⟩ := exists_scheduler hpoint rfl
        exact (hc.timely p sched₀ hsched₀).workers w
          (hsame sched₀ hsched₀ ▸ List.mem_cons_self)
      subst hprocess
      have hnow := ((hc.timely _ sched hsched).tick now (by rw [hsame sched hsched]; rfl)).1
      refine ⟨sched, _, hsched, hexpires, add_le_add_left hnow _, fun hpass => ?_⟩
      rw [hsame sched hsched] at hpass
      exact absurd hmem (hpass.1 rfl)
    · exact ⟨sched, t, hsched, hexpires.trans ht, hlasts⟩
  refine hstore.setScheduler ?_ ?_
  · intro sched hsched htimely
    have hpt := hsame sched hsched
    refine ⟨htimely.kept, fun now' hmem => htimely.tick now' (hpt ▸ hmem), fun w' hw' => ?_⟩
    exact htimely.workers w' (hpt ▸ List.mem_cons_of_mem w hw')
  · intro sched hsched htimely w' _ j hkey job' t hrow' howner' ht hlasts
    refine ⟨hlasts.1, fun hpass now' hnow' => ?_⟩
    cases hnow'
    obtain ⟨job, hrow, howner, hexpires⟩ := lookup_renewLeases hrow'
    have howner : job.leaseOwner = some w' := howner ▸ howner'
    by_cases hmem : w' = w ∧ j ∈ jobIds
    · obtain ⟨rfl, hmem⟩ := hmem
      have hflight := (hsound j).inFlight job hrow (by simp [howner])
      rw [if_pos ⟨hmem, howner, hflight⟩, ht] at hexpires
      exact (Option.some.inj hexpires).ge
    · refine hlasts.2 ?_ now (by rw [hsame sched hsched]; rfl)
      rw [hsame sched hsched]
      exact ⟨fun hw hj => hmem ⟨hw, hj⟩, fun _ => hpass⟩

theorem Covered.keep (hpast : Run (system rack settings) h s) {p : ℕ} (hc : s.Covered settings) :
    (s.after rack settings (.keep p)).Covered settings := by
  cases hpoint : s.point p with
  | idle | reaping now =>
      rw [after_quiet (by simp only [op, hpoint])]
      simp only [control, keepLeases, hpoint]
      exact hc
  | keeping now rest =>
      rw [after_quiet (by simp only [op, hpoint])]
      cases rest with
      | nil =>
          simp only [control, keepLeases, hpoint]
          have hsame : ∀ sched, s.schedulers.lookup p = some sched →
              sched.point = .keeping now [] := by
            intro sched hsched
            rw [← hpoint]
            simp [Leases.point, hsched]
          refine hc.setScheduler ?_ ?_
          · intro sched hsched htimely
            have hnow := (htimely.tick now (by rw [hsame sched hsched]; rfl)).2
            refine ⟨hnow, fun now' hmem => ?_, fun w hw => absurd hw List.not_mem_nil⟩
            cases hmem
            exact ⟨le_rfl, hnow⟩
          · intro sched hsched _ w _ j _ _ t _ _ _ hlasts
            refine ⟨hlasts.2 ?_ now (by rw [hsame sched hsched]; rfl), fun hpass => hpass.elim⟩
            rw [hsame sched hsched]
            exact List.not_mem_nil
      | cons w rest =>
          simp only [control, keepLeases, hpoint]
          exact hc.read hpoint
  | renewing now w jobIds rest =>
      simp only [after, op, control, keepLeases, hpoint]
      exact hc.renewed hpast hpoint
  | marking now w lost rest =>
      rw [after_quiet (by simp only [op, hpoint])]
      simp only [control, keepLeases, hpoint]
      exact (hc.registry fun key hkey => (Table.mem_updateWhere _ _ _ _).1 hkey).goto hpoint
        (fun _ => id) (fun _ => id) fun _ _ _ _ => id

theorem mem_owners {p : ℕ} {w : Owner} (h : w ∈ settings.owners p) : w.process = p := by
  obtain ⟨i, -, rfl⟩ := List.mem_map.1 h
  rfl

theorem Covered.tick {p : ℕ} (h : s.Covered settings) :
    Covered settings (s.setScheduler p (Scheduler.tick settings p s.clock)) := by
  refine h.setScheduler ?_ ?_
  · intro sched _ htimely
    unfold Scheduler.tick
    split
    · split_ifs
      · refine ⟨htimely.kept, fun now hnow => ?_, fun w hw => mem_owners hw⟩
        cases hnow
        exact ⟨htimely.kept, le_rfl⟩
      · refine ⟨htimely.kept, fun now hnow => ?_, fun w hw => absurd hw List.not_mem_nil⟩
        cases hnow
        exact ⟨htimely.kept, le_rfl⟩
    · exact htimely
  · intro sched _ _ w hw j _ _ t _ _ _ hlasts
    unfold Scheduler.tick
    split
    · split_ifs
      · exact ⟨hlasts.1, fun hpass => absurd hw hpass⟩
      · exact ⟨hlasts.1, fun hpass => hpass.elim⟩
    · exact hlasts

theorem Covered.idle {p : ℕ} {f : Scheduler → Scheduler} (h : s.Covered settings)
    (hf : ∀ sched, (f sched).point = .idle ∧ (f sched).kept = sched.kept) :
    Covered settings (s.setScheduler p f) := by
  refine h.setScheduler ?_ ?_
  · intro sched _ htimely
    obtain ⟨hpoint, hkept⟩ := hf sched
    refine ⟨hkept ▸ htimely.kept, ?_, ?_⟩
    · simp [hpoint, TickPoint.now?]
    · simp [hpoint, TickPoint.workers]
  · intro sched _ _ w _ j _ _ t _ _ _ hlasts
    obtain ⟨hpoint, hkept⟩ := hf sched
    exact ⟨hkept ▸ hlasts.1, fun hpass => (hpoint ▸ hpass : TickPoint.idle.Passed w j).elim⟩

theorem Covered.advance {now : Instant} (hle : s.clock ≤ now) (hc : s.Covered settings) :
    (s.after rack settings (.advance now)).Covered settings := by
  refine ⟨fun p sched hsched => ?_, hc.owner, hc.lease⟩
  have htimely := hc.timely p sched hsched
  exact ⟨htimely.kept.trans hle, fun now' hmem =>
    ⟨(htimely.tick now' hmem).1, (htimely.tick now' hmem).2.trans hle⟩, htimely.workers⟩

theorem Covered.started {p : ℕ} (hnew : s.schedulers.lookup p = none) (hc : s.Covered settings) :
    (s.after rack settings (.start p)).Covered settings := by
  refine ⟨fun q sched hsched => ?_, hc.owner, ?_⟩
  · by_cases hq : q = p
    · subst hq
      cases (AList.lookup_insert _).symm.trans hsched
      exact ⟨le_rfl, fun _ hnone => absurd hnone (by simp [TickPoint.now?]), by
        simp [TickPoint.workers]⟩
    · exact hc.timely q sched ((AList.lookup_insert_ne hq).symm.trans hsched)
  · intro w j job hkey hrow howner
    obtain ⟨sched, t, hsched, ht, hlasts⟩ := hc.lease w j job hkey hrow howner
    have hne : w.process ≠ p := by
      rintro rfl
      cases hnew.symm.trans hsched
    exact ⟨sched, t, (AList.lookup_insert_ne hne).trans hsched, ht, hlasts⟩

theorem Covered.reap (hpast : Run (system rack settings) h s) {p : ℕ} (hc : s.Covered settings) :
    (s.after rack settings (.reap p)).Covered settings := by
  cases hlook : s.looksAt (.reap p) with
  | none =>
      rw [after_quiet (by simp only [op, hlook, Option.map_none])]
      simp only [control, hlook]
      refine hc.idle ?_
      exact fun _ => ⟨rfl, rfl⟩
  | some now =>
      simp only [Leases.after, op, control, hlook, Option.map_some]
      refine Covered.store (hc.idle ?_) ?_
      · exact fun _ => ⟨rfl, rfl⟩
      · intro w j job' _ hrow' howner'
        have hreaper : ∀ w, (Op.reapExpiredLeases now).writer ≠ .claimer w ∧
            (Op.reapExpiredLeases now).writer ≠ .keeper w := fun w => by simp [Op.writer]
        exact leased_after hpast
          (show (Op.reapExpiredLeases now).Enabled rack s.store from trivial) hreaper hrow' howner'

/-- **The lease of every registered job lasts, whatever happens next.** -/
theorem Covered.after (hpast : Run (system rack settings) h s) {a : LeaseAct}
    (henabled : s.Enabled rack settings a) (hc : s.Covered settings) :
    (s.after rack settings a).Covered settings := by
  cases a with
  | advance now => exact hc.advance henabled
  | store op =>
      exact hc.store fun w j job' _ hrow' howner' =>
        leased_after hpast henabled.2 henabled.1.writer_ne hrow' howner'
  | start p => exact hc.started henabled
  | claim w pick affinity => exact hc.claim henabled
  | leave w j => exact hc.registry fun key hkey => (AList.mem_erase.1 hkey).2
  | requestCancel j => exact hc.registry fun key hkey => (Table.mem_updateWhere _ _ _ _).1 hkey
  | tick p => exact hc.tick
  | keep p => exact hc.keep hpast
  | reap p => exact hc.reap hpast
  | fail p =>
      show Covered settings (s.setScheduler p fun sched => { sched with point := .idle })
      refine hc.idle ?_
      exact fun _ => ⟨rfl, rfl⟩

theorem covered (hrun : Run (system rack settings) h s) : s.Covered settings := by
  induction hrun with
  | start hs =>
      rw [Set.mem_singleton_iff.1 hs]
      refine ⟨?_, fun w j hkey => ?_, fun w j job hkey => ?_⟩
      · intro p sched hsched
        cases hsched
      all_goals exact absurd hkey (AList.notMem_empty _)
  | step hpast hnext ih =>
      obtain ⟨henabled, rfl⟩ := hnext
      exact ih.after hpast henabled

/-! ### No registered job is reaped -/

/-- **Lease renewal protects live work.**  In every run whose reapers look only while the last
complete `keep_leases` of every process with registered jobs is less than `lease_seconds` old, no
reaper touches a job that the worker it is leased to has registered: its row and its log stay. -/
theorem registered_not_reaped (hrun : Run (system rack settings) h s)
    (hkept : ∀ e ∈ h, KeptInTime settings e) : ∀ e ∈ h, ∀ p, e.act = .reap p →
      ∀ w j job, (w, j) ∈ e.pre.inFlight → e.pre.store.db.jobs.lookup j = some job →
        job.leaseOwner = some w → e.post.store.db.file j = e.pre.store.db.file j := by
  intro e he p hact w j job hkey hrow howner
  obtain ⟨h₂, hpast, henabled, hpost⟩ := hrun.past_of_mem he
  rw [hpost]
  have hop : e.pre.op settings e.act =
      (e.pre.looksAt e.act).map .reapExpiredLeases := by
    rw [hact]
    rfl
  simp only [Leases.after, hop]
  cases hlook : e.pre.looksAt e.act with
  | none => rfl
  | some now =>
      obtain ⟨sched, t, hsched, ht, hlasts, -⟩ := (covered hpast).lease w j job hkey hrow howner
      have hbefore : now < sched.kept + seconds settings.leaseSeconds :=
        hkept e he now hlook (w, j) (AList.mem_keys.1 hkey) sched hsched
      obtain ⟨db', hok, -, hframe⟩ := Db.reapExpiredLeases_spec now e.pre.store.db
      have hsame : db'.file j = e.pre.store.db.file j := by
        refine hframe j fun job' hrow' => ?_
        cases hrow.symm.trans hrow'
        simp [ht, (hbefore.trans_le hlasts).not_gt]
      simp only [Option.map_some, Store.after, Op.run, hok]
      exact hsame

/-- A job is claimed, its lease renewed in its last second, and looked at long after it would have
expired. -/
def renewedLease : List LeaseAct :=
  [.start 0, .store (.enqueue 0 (promptSubmission true) ("chat", "1") none 0 {}),
   .claim ⟨0, 0⟩ 0 none, .advance (seconds 59), .tick 0, .keep 0, .keep 0, .keep 0, .keep 0,
   .reap 0, .advance (seconds 78), .tick 0, .reap 0]

theorem renewedLease_admissible :
    Admissible (Enabled documentedRack {}) (after documentedRack {}) {} renewedLease :=
  ⟨rfl, ⟨trivial, promptSubmission_accepted true⟩, ⟨by decide +kernel, by decide +kernel⟩,
    show clock _ ≤ seconds 59 by decide +kernel, trivial, trivial, trivial, trivial, trivial,
    ⟨seconds 59, rfl⟩, show clock _ ≤ seconds 78 by decide +kernel, trivial, ⟨seconds 78, rfl⟩,
    trivial⟩

theorem renewedLease_kept : Admissible
    (fun s a => KeptInTime {} ⟨s, a, after documentedRack {} s a⟩) (after documentedRack {}) {}
      renewedLease := by
  refine ⟨?_, ?_, ?_, ?_, ?_, ?_, ?_, ?_, ?_, ?_, ?_, ?_, ?_, trivial⟩
  all_goals decide +kernel

theorem registered_not_reaped_renewed :
    ∃ e ∈ trace (after documentedRack {}) {} renewedLease, e.act = .reap 0 ∧
      e.pre.clock = seconds 78 ∧ (⟨0, 0⟩, 0) ∈ e.pre.inFlight ∧
      e.post.store.db.file 0 = e.pre.store.db.file 0 := by
  have hrow : ((renewedLease.dropLast.foldl (after documentedRack {}) {}).store.db.jobs.lookup 0).map
      Job.leaseOwner = some (some ⟨0, 0⟩) := by decide +kernel
  obtain ⟨job, hrow, howner⟩ := Option.map_eq_some_iff.1 hrow
  have hkey : (⟨0, 0⟩, 0) ∈ (renewedLease.dropLast.foldl (after documentedRack {}) {}).inFlight := by
    decide +kernel
  exact ⟨_, List.mem_cons_self, rfl, by decide +kernel, hkey,
    registered_not_reaped (Run.replay renewedLease_admissible) (forall_mem_trace renewedLease_kept)
      _ List.mem_cons_self 0 rfl ⟨0, 0⟩ 0 job hkey hrow howner⟩

end Leases

end LoadCoach

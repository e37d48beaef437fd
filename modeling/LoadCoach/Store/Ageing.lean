import LoadCoach.Priority
import LoadCoach.Store.ClaimOrder
import LoadCoach.Store.Profiles
import LoadCoach.Store.Recovery

/-! # Ageing

The sweep writes the ageing formula a second time, as one statement over the table.  It computes
what the domain computes (`ageingSweep_refines`): every waiting row ends with the effective priority
of its base and of the time since it was queued, and nothing else changes.  A row that start-up
recovery queued and that no enqueue did has not waited; the sweep finds no instant to count from and
leaves it at its base.

Right after a sweep a job that is ahead of another of its class by the time it takes to earn the
difference of the bases has at least its priority, and no claim passes it by
(`ageing_keeps_order`). -/

namespace LoadCoach

open Foundations

/-! ### What an enqueue leaves in a row -/

/-- What every row has from its insert on: the instant it was queued is the one it was created at, a
row that was never queued has not aged, and the base is not above the band. -/
@[mk_iff]
structure Job.Enqueued (job : Job) : Prop where
  created : ∀ q ∈ job.queuedAt, job.createdAt = q
  unaged : job.queuedAt = none → job.effectivePriority = job.basePriority
  banded : job.basePriority ≤ (bandOf job.jobClass).2

theorem Job.Enqueued.congr {job job' : Job} (hcreated : job'.createdAt = job.createdAt)
    (hqueued : job'.queuedAt = job.queuedAt)
    (heffective : job'.effectivePriority = job.effectivePriority)
    (hbase : job'.basePriority = job.basePriority) (hclass : job'.jobClass = job.jobClass) :
    job'.Enqueued = job.Enqueued := by
  refine propext ?_
  rw [Job.enqueued_iff, Job.enqueued_iff, hcreated, hqueued, heffective, hbase, hclass]

theorem worked_enqueued : Worked Job.Enqueued where
  moved target now reason values job := by
    refine Job.Enqueued.congr ?_ ?_ ?_ ?_ ?_ <;> simp only [Job.moved] <;> split_ifs <;> rfl
  counted _ := Job.Enqueued.congr rfl rfl rfl rfl rfl
  leased _ _ _ := Job.Enqueued.congr rfl rfl rfl rfl rfl
  renewed _ _ := Job.Enqueued.congr rfl rfl rfl rfl rfl

/-- Every row is as its insert left it. -/
def Db.Enqueued (db : Db) : Prop := ∀ j job, db.jobs.lookup j = some job → job.Enqueued

namespace Db

variable {db db' : Db}

theorem Enqueued.of_viewed (hdb : db.Enqueued)
    (hviewed : db'.viewed Job.Enqueued = db.viewed Job.Enqueued) : db'.Enqueued := by
  intro j job hrow
  have h := congrFun hviewed j
  rw [viewed, hrow, Option.map_some, viewed] at h
  obtain ⟨job₀, hrow₀, hsame⟩ := Option.map_eq_some_iff.1 h.symm
  exact hsame ▸ hdb j job₀ hrow₀

theorem Enqueued.insertJob {jobId : JobId} {job : Job} (hdb : db.Enqueued) (hjob : job.Enqueued)
    (h : db.insertJob jobId job = .ok db') : db'.Enqueued := by
  obtain ⟨-, hviewed⟩ := viewed_insertJob id h
  intro j row hrow
  have hj := congrFun hviewed j
  rw [viewed, Option.map_id, id_eq, hrow] at hj
  by_cases heq : j = jobId
  · rw [heq, Function.update_self] at hj
    cases hj
    exact hjob
  · rw [Function.update_of_ne heq, viewed, Option.map_id, id_eq] at hj
    exact hdb j row hj.symm

end Db

section Aged

variable {sql : SqlArithmetic} {now : Instant} {rate : ℚ} {overflow : ℤ} {job : Job}

theorem Job.Enqueued.aged (hjob : job.Enqueued) : (job.aged sql now rate overflow).Enqueued := by
  unfold Job.aged
  split_ifs
  · refine ⟨hjob.created, fun hnone => ?_, hjob.banded⟩
    have hnone : job.queuedAt = none := hnone
    simp only [Db.freshPriority, Db.waitingSeconds, hnone, Option.map_none, Option.getD_none]
    exact hjob.unaged hnone
  · exact hjob

theorem Db.lookup_ageingSweep (db : Db) (j : JobId) :
    (db.ageingSweep sql now rate overflow).jobs.lookup j =
      (db.jobs.lookup j).map (Job.aged sql now rate overflow) :=
  congrArg File.row (db.ageingSweep_file sql now rate overflow j)

theorem Db.Enqueued.ageingSweep {db : Db} (hdb : db.Enqueued) :
    (db.ageingSweep sql now rate overflow).Enqueued := by
  intro j job hrow
  rw [Db.lookup_ageingSweep] at hrow
  obtain ⟨job₀, hrow₀, rfl⟩ := Option.map_eq_some_iff.1 hrow
  exact (hdb j job₀ hrow₀).aged

end Aged

/-- **Every transaction keeps the rows as their inserts left them.** -/
theorem Op.run_enqueued {rack : ModelRack} {op : Op} {db db' : Db} (hdb : db.Enqueued)
    (hrun : op.run rack db = .ok db') : db'.Enqueued := by
  by_cases hop : op.WritesKeys
  case neg =>
    by_cases hhouse : op.writer = .housekeeping
    case pos =>
      cases op with
      | existingJobForKey => exact absurd trivial hop
      | ageingSweep sql now rate overflow =>
          cases hrun
          exact hdb.ageingSweep
      | _ => cases hhouse
    case neg =>
      refine hdb.of_viewed (Op.run_view_of_worked worked_enqueued hop hhouse ?_ hrun)
      cases op with
      | persist => exact fun _ _ => Job.Enqueued.congr rfl rfl rfl rfl rfl
      | failReserved | backstop => exact fun _ => Job.Enqueued.congr rfl rfl rfl rfl rfl
      | _ => trivial
  cases op with
  | enqueue jobId s profile pinnedModelId now settings =>
      simp only [run, Db.enqueue, bind_eq_ok, pure_eq_ok] at hrun
      obtain ⟨priority, hpriority, requestJson, -, db₁, hinsert, rfl⟩ := hrun
      have hjob : (queuedJob s profile pinnedModelId requestJson priority now settings).Enqueued :=
        ⟨fun q hq => Option.some.inj hq, by simp [queuedJob], (basePriority_mem_band hpriority).2⟩
      have hinserted := hdb.insertJob hjob hinsert
      exact hinserted
  | reserveSyncJob jobId r profile now ttlHours =>
      simp only [run, Db.reserveSyncJob, bind_eq_ok] at hrun
      obtain ⟨turns, -, hinsert⟩ := hrun
      exact hdb.insertJob ⟨fun _ hq => (Option.not_mem_none _ hq).elim, fun _ => rfl, by
        simp [reservedJob, bandOf]⟩ hinsert
  | persistNew jobId r profile outcome records now =>
      obtain ⟨db₁, hinsert, hviewed⟩ := run_persistNew_viewed worked_enqueued hrun
      refine Db.Enqueued.of_viewed (hdb.insertJob ⟨fun _ hq => (Option.not_mem_none _ hq).elim,
        fun _ => rfl, ?_⟩ hinsert) hviewed
      simp [unreservedJob, bandOf]
  | existingJobForKey source key now =>
      cases hrun
      exact hdb.of_viewed (Db.viewed_existingJobForKey Job.Enqueued
        (fun _ => Job.Enqueued.congr rfl rfl rfl rfl rfl) source key now db)
  | _ => exact hop.elim

/-- **The rows of every reachable store** are as their inserts left them. -/
theorem Store.enqueued {rack : ModelRack} {s : Store} {h : List (Foundations.Step Store Op)}
    (hrun : Run (Store.system rack) h s) : s.db.Enqueued := by
  refine hrun.invariant (P := fun s => s.db.Enqueued) ?_ ?_
  · rintro _ rfl j job hrow
    cases hrow
  · rintro s op _ ⟨-, rfl⟩ hdb
    rcases Store.after_cases rack s op with ⟨e, -, hsame⟩ | ⟨db, hok, hafter, -⟩
    · rw [hsame]
      exact hdb
    · rw [hafter]
      exact op.run_enqueued hdb hok

/-! ### The sweep computes what the domain computes -/

/-- How long a row has waited; one that was never queued has not. -/
def Job.waited (now : Instant) (job : Job) : ℚ := (Db.waitingSeconds .exact now job).getD 0

/-- What the domain makes of a row: a waiting one has the effective priority of its base and of the
time it has waited. -/
def Job.prioritised (now : Instant) (ageingPriorityPerMinute : ℚ) (overflowAllowance : ℤ)
    (job : Job) : Job :=
  if job.state ∈ waitingStates then
    { job with
      effectivePriority := LoadCoach.effectivePriority job.basePriority job.jobClass
        (job.waited now) ageingPriorityPerMinute overflowAllowance }
  else
    job

section Refinement

variable {now later : Instant} {rate : ℚ} {overflow : ℤ} {job : Job} {db : Db} {j : JobId}

theorem Db.agedPoints_exact (waited : ℚ) :
    Db.agedPoints .exact rate waited = waited / 60 * rate + 1 / 1000000 := rfl

theorem floor_max_eq_agedPoints (hrate : 0 ≤ rate) (waited : ℚ) :
    ⌊max (waited / 60 * rate + 1 / 1000000) 0⌋ = agedPoints waited rate := by
  rcases le_total 0 waited with hpos | hneg
  · have hpoints : 0 ≤ waited / 60 * rate + 1 / 1000000 := by positivity
    rw [agedPoints, max_eq_left hpoints, max_eq_left hpos, ageingEpsilonPoints]
  · have hearned : waited / 60 * rate ≤ 0 :=
      mul_nonpos_of_nonpos_of_nonneg (by linarith) hrate
    rw [agedPoints_of_nonpos hneg, Int.floor_eq_iff]
    constructor
    · simp
    · exact max_lt (by norm_num; linarith) (by norm_num)

theorem Job.Enqueued.base_le_cap (hjob : job.Enqueued) (hoverflow : 0 ≤ overflow) :
    job.basePriority ≤ ageingCap job.jobClass overflow := by
  have hbanded := hjob.banded
  unfold ageingCap
  omega

/-- **The statement of the sweep computes the domain's priority** of a row. -/
theorem Job.Enqueued.aged_eq_prioritised (hjob : job.Enqueued) (hrate : 0 ≤ rate)
    (hoverflow : 0 ≤ overflow) :
    job.aged .exact now rate overflow = job.prioritised now rate overflow := by
  unfold Job.aged Job.prioritised Job.waited
  cases hqueued : job.queuedAt with
  | some q =>
      simp only [Db.freshPriority, Db.waitingSeconds, hqueued, Option.map_some, Option.getD_some,
        LoadCoach.effectivePriority, ageingCap, Db.agedPoints_exact, floor_max_eq_agedPoints hrate]
  | none =>
      have hbase : LoadCoach.effectivePriority job.basePriority job.jobClass 0 rate overflow =
          job.basePriority := by
        rw [LoadCoach.effectivePriority, agedPoints_of_nonpos le_rfl, add_zero]
        exact min_eq_left (hjob.base_le_cap hoverflow)
      simp only [Db.freshPriority, Db.waitingSeconds, hqueued, Option.map_none, Option.getD_none,
        hbase, hjob.unaged hqueued]

theorem Job.prioritised_le_prioritised (hrate : 0 ≤ rate) (h : now ≤ later) :
    (job.prioritised now rate overflow).effectivePriority ≤
      ((job.prioritised now rate overflow).prioritised later rate overflow).effectivePriority := by
  have hwaited : job.waited now ≤ job.waited later := by
    unfold Job.waited Db.waitingSeconds
    cases job.queuedAt with
    | none => exact le_rfl
    | some q =>
        simp only [Option.map_some, Option.getD_some]
        change exactSeconds now q ≤ exactSeconds later q
        unfold exactSeconds
        gcongr
  unfold Job.prioritised
  by_cases hstate : job.state ∈ waitingStates
  · simp only [hstate, if_true]
    exact effectivePriority_mono hrate hwaited
  · simp only [hstate, if_false, le_refl]

theorem Db.Enqueued.lookup_ageingSweep (hdb : db.Enqueued) (hrate : 0 ≤ rate)
    (hoverflow : 0 ≤ overflow) (j : JobId) : (db.ageingSweep .exact now rate overflow).jobs.lookup j =
      (db.jobs.lookup j).map (Job.prioritised now rate overflow) := by
  rw [Db.lookup_ageingSweep]
  cases hrow : db.jobs.lookup j with
  | none => rfl
  | some job => exact congrArg some ((hdb j job hrow).aged_eq_prioritised hrate hoverflow)

/-- **Ageing in the table is ageing in the domain.**  After a sweep every row is what the domain
makes of it, a priority is between the base and the cap, a later sweep lowers none, a second sweep
at the same instant changes nothing, and neither does the first outside the jobs. -/
theorem ageingSweep_refines (hdb : db.Enqueued) (hrate : 0 ≤ rate) (hoverflow : 0 ≤ overflow)
    (now : Instant) :
    (∀ j, (db.ageingSweep .exact now rate overflow).jobs.lookup j =
      (db.jobs.lookup j).map (Job.prioritised now rate overflow)) ∧
    { db.ageingSweep .exact now rate overflow with jobs := db.jobs } = db ∧
    (∀ j job, (db.ageingSweep .exact now rate overflow).jobs.lookup j = some job →
      job.state ∈ waitingStates → job.basePriority ≤ job.effectivePriority ∧
        job.effectivePriority ≤ ageingCap job.jobClass overflow) ∧
    (∀ later, now ≤ later → ∀ j job job',
      (db.ageingSweep .exact now rate overflow).jobs.lookup j = some job →
      ((db.ageingSweep .exact now rate overflow).ageingSweep .exact later rate overflow).jobs.lookup j =
        some job' → job.effectivePriority ≤ job'.effectivePriority) ∧
    (db.ageingSweep .exact now rate overflow).ageingSweep .exact now rate overflow =
      db.ageingSweep .exact now rate overflow := by
  refine ⟨hdb.lookup_ageingSweep hrate hoverflow, rfl, ?_, ?_,
    db.ageingSweep_ageingSweep .exact now rate overflow⟩
  · intro j job hrow hwaits
    rw [hdb.lookup_ageingSweep hrate hoverflow] at hrow
    obtain ⟨job₀, hrow₀, rfl⟩ := Option.map_eq_some_iff.1 hrow
    unfold Job.prioritised at hwaits ⊢
    split_ifs at hwaits ⊢ with hstate
    · exact ⟨base_le_effectivePriority hrate ((hdb j job₀ hrow₀).base_le_cap hoverflow),
        effectivePriority_le_cap⟩
    · exact absurd hwaits hstate
  · intro later hlater j job job' hrow hrow'
    rw [(hdb.ageingSweep).lookup_ageingSweep hrate hoverflow, hrow, Option.map_some,
      Option.some.injEq] at hrow'
    rw [hdb.lookup_ageingSweep hrate hoverflow] at hrow
    obtain ⟨job₀, hrow₀, rfl⟩ := Option.map_eq_some_iff.1 hrow
    rw [← hrow']
    exact Job.prioritised_le_prioritised hrate hlater

/-- A background job that was just queued at a priority. -/
def backgroundJob (priority : ℤ) (now : Instant) : Job where
  taskProfileId := "chat"
  taskProfileVersion := "1"
  jobClass := .background
  basePriority := priority
  effectivePriority := priority
  state := .queued
  createdAt := now
  scheduledFor := some now
  queuedAt := some now

theorem backgroundJob_enqueued {priority : ℤ} (h : priority ≤ 399) (now : Instant) :
    (backgroundJob priority now).Enqueued :=
  ⟨fun _ hq => Option.some.inj hq, fun hnone => (Option.some_ne_none _ hnone).elim, h⟩

/-- A database of two background jobs. -/
def backgroundPair (first second : Job) : Db where
  jobs := ((∅ : Table JobId Job).insert 1 first).insert 2 second

theorem backgroundPair_enqueued {first second : Job} (hfirst : first.Enqueued)
    (hsecond : second.Enqueued) : (backgroundPair first second).Enqueued := by
  intro j job hrow
  by_cases h₂ : j = 2
  · rw [h₂, backgroundPair, AList.lookup_insert, Option.some.injEq] at hrow
    exact hrow ▸ hsecond
  · rw [backgroundPair, AList.lookup_insert_ne h₂] at hrow
    by_cases h₁ : j = 1
    · rw [h₁, AList.lookup_insert, Option.some.injEq] at hrow
      exact hrow ▸ hfirst
    · rw [AList.lookup_insert_ne h₁] at hrow
      cases hrow

/-- A job of priority 100 that was queued at zero, and one of priority 104 that was queued five
minutes later. -/
def backgroundDb : Db := backgroundPair (backgroundJob 100 0) (backgroundJob 104 (seconds 300))

theorem backgroundDb_enqueued : backgroundDb.Enqueued :=
  backgroundPair_enqueued (backgroundJob_enqueued (by norm_num) _)
    (backgroundJob_enqueued (by norm_num) _)

theorem ageingSweep_refines_backgroundDb :
    ((backgroundDb.ageingSweep .exact (seconds 120) 1 100).jobs.lookup 1).map Job.effectivePriority =
      some 102 := by
  rw [(ageingSweep_refines backgroundDb_enqueued (by norm_num) (by norm_num) (seconds 120)).1 1]
  decide +kernel

end Refinement

/-! ### No job of a class passes another by -/

/-- What the resolution of two waiting times and the rounding of their points can cost, in
seconds. -/
def orderMargin : ℚ := 1 / 200

/-- A row was queued before another, and by at least the minutes it takes to earn what its base is
lower, and the margin, if it is. -/
def Job.AheadOf (ageingPriorityPerMinute : ℚ) (a b : Job) : Prop :=
  ∃ qa ∈ a.queuedAt, ∃ qb ∈ b.queuedAt, qa < qb ∧
    (a.basePriority < b.basePriority → ((b.basePriority - a.basePriority : ℤ) : ℚ) ≤
      (exactSeconds qb qa - orderMargin) / 60 * ageingPriorityPerMinute)

section Points

variable (sql : SqlArithmetic) {rate waited : ℚ}

theorem Db.agedPoints_mono (hrate : 0 ≤ rate) : Monotone (Db.agedPoints sql rate) := by
  intro x y hxy
  have hminutes := sql.round_mono (div_le_div_of_nonneg_right hxy (by norm_num : (0 : ℚ) ≤ 60))
  have hpoints := sql.round_mono (mul_le_mul_of_nonneg_right hminutes hrate)
  exact sql.round_mono (add_le_add_left hpoints _)

theorem Db.agedPoints_nonneg (hrate : 0 ≤ rate) (h : 0 ≤ waited) :
    0 ≤ Db.agedPoints sql rate waited := by
  have hminutes := sql.round_nonneg (div_nonneg h (by norm_num : (0 : ℚ) ≤ 60))
  exact sql.round_nonneg (add_nonneg (sql.round_nonneg (mul_nonneg hminutes hrate))
    (sql.round_nonneg (by norm_num)))

theorem Db.agedPoints_near (hrate : 0 ≤ rate) (h : 0 ≤ waited) :
    |Db.agedPoints sql rate waited - (waited / 60 * rate + 1 / 1000000)| ≤
      (waited / 60 * rate + 1 / 1000000) * (4 / 2 ^ 53) := by
  obtain ⟨hminutes₀, hminutes₁⟩ := sql.round_bounds (div_nonneg h (by norm_num : (0 : ℚ) ≤ 60))
  have hminutes := sql.round_nonneg (div_nonneg h (by norm_num : (0 : ℚ) ≤ 60))
  obtain ⟨hepsilon₀, hepsilon₁⟩ := sql.round_bounds (by norm_num : (0 : ℚ) ≤ 1 / 1000000)
  have hepsilon := sql.round_nonneg (by norm_num : (0 : ℚ) ≤ 1 / 1000000)
  unfold Db.agedPoints
  dsimp only
  generalize sql.round (waited / 60) = m at *
  generalize sql.round (1 / 1000000) = ε at *
  have hpoints₀ := mul_le_mul_of_nonneg_right hminutes₀ hrate
  have hpoints₁ := mul_le_mul_of_nonneg_right hminutes₁ hrate
  have hexact : 0 ≤ waited / 60 * rate := by positivity
  obtain ⟨hp₀, hp₁⟩ := sql.round_bounds (mul_nonneg hminutes hrate)
  have hp := sql.round_nonneg (mul_nonneg hminutes hrate)
  generalize sql.round (m * rate) = p at *
  obtain ⟨hs₀, hs₁⟩ := sql.round_bounds (add_nonneg hp hepsilon)
  generalize sql.round (p + ε) = s at *
  rw [abs_le]
  constructor <;> nlinarith

end Points

section Order

variable {sql : SqlArithmetic} {now : Instant} {rate : ℚ} {overflow : ℤ} {a b : Job} {db : Db}
  {ja jb : JobId}

variable (sql) in
/-- **Being ahead pays off in points**: those the sweep computes for the one differ from those of the
other by the difference of the bases at least. -/
theorem Job.AheadOf.points_le (hrate : 0 ≤ rate) (hahead : a.AheadOf rate b)
    (hnow : ∀ q ∈ b.queuedAt, q ≤ now) (hdates : IsDatetime now ∧ ∀ q ∈ a.queuedAt, IsDatetime q) :
    ∃ qa ∈ a.queuedAt, ∃ qb ∈ b.queuedAt, qa < qb ∧
      Db.agedPoints sql rate (sql.elapsed now qb) + (b.basePriority - a.basePriority : ℤ) ≤
        Db.agedPoints sql rate (sql.elapsed now qa) := by
  obtain ⟨qa, hqa, qb, hqb, hbefore, hearned⟩ := hahead
  refine ⟨qa, hqa, qb, hqb, hbefore, ?_⟩
  have hqb_now := hnow qb hqb
  have hwaits := sql.elapsed_anti now hbefore.le
  by_cases hlower : a.basePriority < b.basePriority
  case neg =>
    have hmono := Db.agedPoints_mono sql hrate hwaits
    have hbases : ((b.basePriority - a.basePriority : ℤ) : ℚ) ≤ 0 := by
      exact_mod_cast sub_nonpos.2 (not_lt.1 hlower)
    linarith
  case pos =>
    obtain ⟨hdate, hfrom⟩ := hdates
    have hqa_date := hfrom qa hqa
    have hqb_date : IsDatetime qb :=
      ⟨hqa_date.1.trans hbefore.le, hqb_now.trans_lt hdate.2⟩
    have hspan := exactSeconds_le hdate hqa_date
    have hsplit : exactSeconds qb qa = exactSeconds now qa - exactSeconds now qb := by
      unfold exactSeconds
      push_cast
      ring
    have hnear_a := abs_le.1 (sql.elapsed_near now qa hdate hqa_date)
    have hnear_b := abs_le.1 (sql.elapsed_near now qb hdate hqb_date)
    have hwait_b := sql.elapsed_nonneg hqb_now
    have hwait_a := hwait_b.trans hwaits
    have hpoints_a := abs_le.1 (Db.agedPoints_near sql hrate hwait_a)
    have hpoints_b := abs_le.1 (Db.agedPoints_near sql hrate hwait_b)
    have hbases : (1 : ℚ) ≤ (b.basePriority - a.basePriority : ℤ) := by
      exact_mod_cast Int.sub_pos.2 hlower
    have hdiff := hearned hlower
    rw [hsplit] at hdiff
    unfold waitResolution at hnear_a hnear_b
    unfold orderMargin at hdiff
    generalize ((b.basePriority - a.basePriority : ℤ) : ℚ) = d at *
    generalize sql.elapsed now qa = x at *
    generalize sql.elapsed now qb = y at *
    -- points per second: not too few, or the difference could not have been earned at all
    have hscale : ∀ w : ℚ, w / 60 * rate = w * (rate / 60) := fun w => by ring
    rw [hscale] at hdiff hpoints_a hpoints_b
    have hk : 0 ≤ rate / 60 := by positivity
    generalize rate / 60 = k at *
    have hmany := mul_le_mul_of_nonneg_right (by linarith : x ≤ 330000000000) hk
    have hfew := mul_le_mul_of_nonneg_right hwaits hk
    have hearlier := mul_le_mul_of_nonneg_right
      (by linarith : exactSeconds now qa - exactSeconds now qb - 1 / 250 ≤ x - y) hk
    linarith

/-- Right after a sweep a queued row has the priority the sweep computes: a second one at the same
instant would change nothing. -/
theorem Db.effectivePriority_swept {j : JobId} {job : Job} {q : Instant}
    (hrow : (db.ageingSweep sql now rate overflow).jobs.lookup j = some job)
    (hstate : job.state = .queued) (hq : q ∈ job.queuedAt) :
    job.effectivePriority =
      min (job.basePriority + ⌊max (Db.agedPoints sql rate (sql.elapsed now q)) 0⌋)
        (ageingCap job.jobClass overflow) := by
  have hagain : ((db.ageingSweep sql now rate overflow).ageingSweep sql now rate
      overflow).jobs.lookup j = _ := Db.lookup_ageingSweep _ j
  rw [db.ageingSweep_ageingSweep, hrow, Option.map_some, Option.some.injEq] at hagain
  rw [hagain, Job.aged, if_pos (by rw [hstate]; decide)]
  simp only [Db.freshPriority, Db.waitingSeconds, Option.mem_def.1 hq, Option.map_some,
    Option.getD_some, ageingCap]

/-- **Ageing keeps the order of a class.**  Right after a sweep a queued job that is ahead of
another by the difference of the bases has at least its priority, and a claim at that instant does
not take the other while the first is eligible. -/
theorem ageing_keeps_order (hdb : db.Enqueued) (hrate : 0 ≤ rate)
    (ha : (db.ageingSweep sql now rate overflow).jobs.lookup ja = some a)
    (hb : (db.ageingSweep sql now rate overflow).jobs.lookup jb = some b)
    (hqueued : a.state = .queued ∧ b.state = .queued) (hclass : a.jobClass = b.jobClass)
    (hahead : a.AheadOf rate b) (hnow : ∀ q ∈ b.queuedAt, q ≤ now)
    (hdates : IsDatetime now ∧ ∀ q ∈ a.queuedAt, IsDatetime q) :
    b.effectivePriority ≤ a.effectivePriority ∧
      ((db.ageingSweep sql now rate overflow).Eligible now ja a →
        ∀ rack w leaseSeconds pick c db',
          (db.ageingSweep sql now rate overflow).claim rack w now leaseSeconds pick none =
            .ok (some c, db') → c.jobId ≠ jb) := by
  have hswept : (db.ageingSweep sql now rate overflow).Enqueued := hdb.ageingSweep
  obtain ⟨qa, hqa, qb, hqb, hbefore, hpoints⟩ := hahead.points_le sql hrate hnow hdates
  have hpriority : b.effectivePriority ≤ a.effectivePriority := by
    have hnonneg : 0 ≤ Db.agedPoints sql rate (sql.elapsed now qb) :=
      Db.agedPoints_nonneg sql hrate (sql.elapsed_nonneg (hnow qb hqb))
    rw [Db.effectivePriority_swept ha hqueued.1 hqa, Db.effectivePriority_swept hb hqueued.2 hqb,
      hclass]
    refine min_le_min_right _ ?_
    have hfloor : ⌊max (Db.agedPoints sql rate (sql.elapsed now qb)) 0⌋ +
        (b.basePriority - a.basePriority) ≤
          ⌊max (Db.agedPoints sql rate (sql.elapsed now qa)) 0⌋ := by
      rw [← Int.floor_add_intCast, max_eq_left hnonneg]
      exact Int.floor_mono (hpoints.trans (le_max_left _ _))
    linarith
  refine ⟨hpriority, fun heligible rack w leaseSeconds pick c db' hclaim hjob => ?_⟩
  obtain ⟨-, htakes⟩ := Db.claim_order hclaim
  obtain ⟨job, htake⟩ := htakes c rfl
  have hplain : c.byAffinity = false := by
    by_contra hby
    obtain ⟨hint, hhint, -⟩ := htake.affine (Bool.eq_true_of_not_eq_false hby)
    cases hhint
  obtain ⟨⟨htop, holdest⟩, -⟩ := htake.plain hplain
  obtain ⟨hrow, -⟩ := htop.eligible
  rw [hjob, hb, Option.some.injEq] at hrow
  subst hrow
  -- `b` was taken, so `a` is of its priority and not older
  have hle := htop.le ja a heligible
  have hcreated := holdest ja a ⟨heligible, fun k other hother =>
    (htop.le k other hother).trans hpriority⟩
  rw [(hswept jb b hb).created qb hqb, (hswept ja a ha).created qa hqa] at hcreated
  exact absurd hbefore (not_lt.2 hcreated)

theorem ageing_keeps_order_backgroundDb :
    ((backgroundJob 104 (seconds 300)).aged .sqlite (seconds 360) 1 100).effectivePriority ≤
      ((backgroundJob 100 0).aged .sqlite (seconds 360) 1 100).effectivePriority :=
  (ageing_keeps_order backgroundDb_enqueued (by norm_num)
    (backgroundDb.lookup_ageingSweep 1) (backgroundDb.lookup_ageingSweep 2)
    ⟨by decide +kernel, by decide +kernel⟩ (by decide +kernel)
    ⟨0, by decide +kernel, seconds 300, by decide +kernel, by decide, by decide +kernel⟩
    (by decide +kernel) ⟨by decide, by decide +kernel⟩).1

/-- The priorities of two background jobs right after a sweep. -/
def sweptPriorities (first second : Job) (now : Instant) (rate : ℚ) : List (Option ℤ) :=
  [1, 2].map fun j => (((backgroundPair first second).ageingSweep .sqlite now rate 100).jobs.lookup
    j).map Job.effectivePriority

/-- A sweep by a clock that was set back ages nobody who was queued after it: the job that is ahead
by the minutes it takes is behind.  So is one that is ahead by these minutes and nothing more, where
the rounding of the waiting times goes against it. -/
theorem ageing_order_lost :
    (5 ≤ exactSeconds (seconds 300) 0 / 60 * 1 ∧
      sweptPriorities (backgroundJob 100 0) (backgroundJob 105 (seconds 300)) (seconds 60) 1 =
        [some 101, some 105]) ∧
    9 ≤ exactSeconds 270417447 417447 / 60 * 2 ∧
      sweptPriorities (backgroundJob 100 417447) (backgroundJob 109 270417447) 600417001 2 =
        [some 119, some 120] := by
  refine ⟨⟨?_, ?_⟩, ?_, ?_⟩ <;> decide +kernel

end Order

end LoadCoach

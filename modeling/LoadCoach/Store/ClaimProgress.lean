import Mathlib.Data.List.MinMax
import Mathlib.Data.Prod.Lex
import LoadCoach.Store.System

/-! # Claim progress

A claim takes the first eligible row and reads it back, and the reading asserts that the row has
a `queued_at`.  A row that is eligible without one is taken again by every claim, and every claim
raises: the queue stands still behind it.

The rows that wait have a `queued_at` (`WaitingRowsQueued`) as long as start-up recovery finds no
idempotent row in flight that was never queued, a synchronous execution's row with an idempotency
key.  `claim_progress_iff` says that this is exact: along a run, claims make progress in every
state exactly when no recovery finds such a row. -/

namespace LoadCoach

open Foundations Relation

variable {rack : ModelRack}

/-! ### Claims find what there is -/

/-- The order of the claim, as a key: a row comes before those with smaller ones. -/
def claimKey (job : Job) : ℤ ×ₗ ℤ := toLex (job.effectivePriority, -job.createdAt)

theorem claimedBefore_iff (a b : Job) : claimedBefore a b = true ↔ claimKey b < claimKey a := by
  simp only [claimedBefore, claimKey, Prod.Lex.toLex_lt_toLex, Bool.or_eq_true, Bool.and_eq_true,
    decide_eq_true_eq, neg_lt_neg_iff, @eq_comm ℤ b.effectivePriority]

namespace Db

variable {db db' : Db} {w : Owner} {now : Instant} {leaseSeconds pick : ℕ}

theorem heads_ne_nil {p : Job → Bool} (h : ∃ j job, db.jobs.lookup j = some job ∧ p job = true) :
    db.heads p ≠ [] := by
  obtain ⟨j, job, hrow, hp⟩ := h
  have hmem : (j, job) ∈ db.jobs.select fun _ job => p job :=
    (Table.mem_select _ _ _ _).2 ⟨hrow, hp⟩
  obtain ⟨first, hfirst⟩ : ∃ first, first ∈
      (db.jobs.select fun _ job => p job).argmax fun e => claimKey e.2 := by
    refine Option.ne_none_iff_exists'.1 fun hnone => ?_
    rw [List.argmax_eq_none.1 hnone] at hmem
    cases hmem
  refine List.ne_nil_of_mem (List.mem_map_of_mem (f := Prod.fst)
    (List.mem_filter.2 ⟨List.argmax_mem hfirst, ?_⟩))
  rw [List.all_eq_true]
  intro other hother
  rw [Bool.not_eq_true', ← Bool.not_eq_true, claimedBefore_iff]
  exact List.not_lt_of_mem_argmax (f := fun e : JobId × Job => claimKey e.2) hother hfirst

theorem claimMatching_isSome {extra : Job → Bool}
    (h : ∃ j job, db.jobs.lookup j = some job ∧ eligible now job = true ∧ extra job = true) :
    ∃ found, db.claimMatching w now leaseSeconds pick extra = some found := by
  obtain ⟨j, job, hrow, heligible, hextra⟩ := h
  have hheads := heads_ne_nil (p := fun job => eligible now job && extra job)
    ⟨j, job, hrow, by simp [heligible, hextra]⟩
  unfold claimMatching
  dsimp only
  rw [List.getElem?_eq_getElem (Nat.mod_lt _ (List.length_pos_of_ne_nil hheads))]
  exact ⟨_, rfl⟩

/-- **A claim returns a job** when there is one to claim, every queued row was queued at some time
and every stored request can be read back. -/
theorem claim_returns (affinity : Option AffinityHint)
    (hqueued : ∀ j job, db.jobs.lookup j = some job → job.state = .queued → job.queuedAt.isSome)
    (hdecodes : ∀ j job, db.jobs.lookup j = some job →
      ∀ columns, ∃ s, JobSubmission.fromRequestJson rack job.requestJson columns = .ok s)
    (heligible : ∃ j job, db.jobs.lookup j = some job ∧ eligible now job = true) :
    ∃ c db', db.claim rack w now leaseSeconds pick affinity = .ok (some c, db') := by
  obtain ⟨j, job, hrow, heligible⟩ := heligible
  have hplain : ∃ found, db.claimMatching w now leaseSeconds pick (fun _ => true) = some found :=
    claimMatching_isSome ⟨j, job, hrow, heligible, rfl⟩
  obtain ⟨⟨chosen, leased⟩, hfound⟩ : ∃ found,
      (db.claimByAffinity w now leaseSeconds pick affinity).or
        (db.claimMatching w now leaseSeconds pick fun _ => true) = some found := by
    obtain ⟨found, hplain⟩ := hplain
    rw [hplain]
    cases db.claimByAffinity w now leaseSeconds pick affinity with
    | none => exact ⟨found, rfl⟩
    | some affine => exact ⟨affine, rfl⟩
  obtain ⟨extra, hmatching⟩ := exists_claimMatching hfound
  obtain ⟨first, hfirst, heligible₁, -, honly⟩ := claimMatching_spec hmatching
  have hleased : leased.jobs.lookup chosen =
      some (first.leasedBy w (now + seconds leaseSeconds)) := congrArg Track.row honly.1
  simp only [eligible, Bool.and_eq_true, decide_eq_true_eq] at heligible₁
  obtain ⟨queuedAt, hqueuedAt⟩ :=
    Option.isSome_iff_exists.1 (hqueued chosen first hfirst heligible₁.1)
  obtain ⟨submission, hsubmission⟩ := hdecodes chosen first hfirst
    { jobClass := first.jobClass
      priority := first.basePriority
      maxWaitSeconds := first.maxWaitSeconds
      idempotent := first.idempotent
      idempotencyKey := first.idempotencyKey
      source := first.source }
  unfold claim
  dsimp only
  rw [hfound]
  dsimp only
  rw [hleased]
  simp only [claimed, Job.leasedBy, hqueuedAt, hsubmission, ok_bind]
  exact ⟨_, _, rfl⟩

end Db

/-! ### Rows that wait were queued -/

namespace Track

variable {who : Writer} {t t' : Track} {job : Job}

/-- A row that waits has a `queued_at`. -/
def WaitsQueued (t : Track) : Prop :=
  ∀ job, t.row = some job → job.state ∈ waitingStates → job.queuedAt.isSome

theorem Step.waitsQueued (hstep : Step rack who t t') (hsound : Sound rack t)
    (hwho : ∀ process, who ≠ .recovery process) (h : WaitsQueued t) : WaitsQueued t' := by
  cases hstep with
  | @move job target _ _ _ hrow _ hmay =>
      rintro _ ⟨rfl⟩ hwaiting
      rw [Job.moved_state] at hwaiting
      rw [Job.moved_queuedAt]
      cases who with
      | worker w =>
          have howner : job.leaseOwner = some w := hmay
          exact hsound.queued job hrow (by simp [howner])
      | reaper => exact hsound.queued job hrow ((hsound.paired job hrow).2 hmay.1)
      | reevaluation => exact h job hrow (by rw [hmay.1]; decide)
      | recovery process => exact absurd rfl (hwho process)
      | canceller =>
          rcases cancelTarget_eq_some hmay with rfl | rfl <;> exact absurd hwaiting (by decide)
      | expiry | watchdog =>
          rw [hmay.2] at hwaiting
          exact absurd hwaiting (by decide)
      | _ => exact hmay.elim
  | @record job _ hrow =>
      rintro _ ⟨rfl⟩
      exact h job hrow
  | lease =>
      rintro _ ⟨rfl⟩ hwaiting
      exact absurd (show JobState.leased ∈ waitingStates from hwaiting) (by decide)
  | assign _ hrow hassigned =>
      rintro _ ⟨rfl⟩ hwaiting
      rcases hassigned.state with hstate | hstate <;> rw [hstate] at hwaiting <;>
        exact absurd hwaiting (by decide)
  | insert _ hfresh =>
      rintro _ ⟨rfl⟩ hwaiting
      rcases hfresh.writer with ⟨-, -, hqueued⟩ | ⟨-, -, hstate | hstate⟩
      · exact hqueued
      · rw [hstate] at hwaiting
        exact absurd hwaiting (by decide)
      · exact absurd hstate (not_terminal_of_waiting hwaiting)
  | @renew job _ _ _ hrow | @touch job _ _ _ _ hrow =>
      rintro _ ⟨rfl⟩
      exact h job hrow

theorem Path.waitsQueued (hpath : Path rack who t t') (hsound : Sound rack t)
    (hwho : ∀ process, who ≠ .recovery process) (h : WaitsQueued t) : WaitsQueued t' := by
  induction hpath with
  | refl => exact h
  | tail hpath₁ hstep ih => exact hstep.waitsQueued (Path.sound hpath₁ hsound) hwho ih

end Track

/-- The rows of a database that wait have a `queued_at`. -/
def Db.WaitingRowsQueued (db : Db) : Prop :=
  ∀ j job, db.jobs.lookup j = some job → job.state ∈ waitingStates → job.queuedAt.isSome

/-- Recovery finds no row that may run again, is in flight and was never queued. -/
def Db.RecoversQueued (db : Db) : Prop :=
  ∀ j job, db.jobs.lookup j = some job → job.state ∈ leaseHoldingStates →
    job.idempotent = true → job.queuedAt.isSome

/-- Every eligible row is behind no row a claim would raise on. -/
def Db.ClaimProgress (rack : ModelRack) (db : Db) : Prop :=
  db.WaitingRowsQueued ∧ ∀ w now leaseSeconds pick affinity,
    (∃ j job, db.jobs.lookup j = some job ∧ eligible now job = true) →
      ∃ c db', db.claim rack w now leaseSeconds pick affinity = .ok (some c, db')

/-- The step is not a recovery that queues a row which was never queued. -/
def Op.RecoversQueued (s : Store) : Op → Prop
  | recover .. => s.db.RecoversQueued
  | _ => True

namespace Store

variable {h : List (Foundations.Step Store Op)} {s : Store} {op : Op}

/-- **Recovery keeps the waiting rows queued exactly when it queues no row that was not.** -/
theorem recover_waitingRowsQueued {process : ℕ} {now : Instant}
    (hrun : Run (system rack) h s) (hwaits : s.db.WaitingRowsQueued) :
    (s.after rack (.recover process now)).db.WaitingRowsQueued ↔ s.db.RecoversQueued := by
  obtain ⟨db', hok, hmoved, hkept⟩ := Db.recover_spec process now s.db
  have hdb : (s.after rack (.recover process now)).db = db' := by
    unfold after
    rw [show Op.run rack s.db (.recover process now) = .ok db' from hok]
  rw [hdb]
  constructor
  · intro hafter j job hrow hstate hidempotent
    by_contra hqueued
    have hunleased : job.leaseOwner = none := by
      by_contra howner
      exact hqueued ((sound hrun j).queued job hrow (Option.isSome_iff_ne_none.2 howner))
    have hrecovers := hmoved j job hrow ((inFlight_iff _).2 (.inl hstate))
      (by simp [Db.ownLease, hunleased])
    have htarget := (recoveryTarget_eq_queued_iff job.state job.idempotent).2
      ⟨hstate, hidempotent⟩
    unfold Db.Recovers at hrecovers
    rw [htarget] at hrecovers
    obtain ⟨now', reason, values, -, htrack⟩ := hrecovers
    have hrow' : db'.jobs.lookup j = some (job.moved .queued now' reason values) :=
      congrArg Track.row htrack
    have hqueued' := hafter j _ hrow' (by rw [Job.moved_state]; decide)
    rw [Job.moved_queuedAt] at hqueued'
    exact hqueued hqueued'
  · intro hrecovers j job' hrow' hwaiting
    by_cases hrow : ∃ job, s.db.jobs.lookup j = some job ∧ job.state ∈ inFlightStates ∧
        Db.ownLease process job = false
    · obtain ⟨job, hrow, hstate, hown⟩ := hrow
      have hmove := hmoved j job hrow hstate hown
      unfold Db.Recovers at hmove
      cases htarget : recoveryTarget job.state job.idempotent with
      | none => exact absurd hstate ((recoveryTarget_eq_none_iff _ _).1 htarget)
      | some target =>
          rw [htarget] at hmove
          obtain ⟨now', reason, values, -, htrack⟩ := hmove
          have hrow₁ : db'.jobs.lookup j = some (job.moved target now' reason values) :=
            congrArg Track.row htrack
          cases hrow'.symm.trans hrow₁
          rw [Job.moved_state] at hwaiting
          rw [Job.moved_queuedAt]
          obtain ⟨hholding, hidempotent⟩ := leaseHolding_of_recoveryTarget htarget hwaiting
          exact hrecovers j job hrow hholding hidempotent
    · have hsame := hkept j fun job hrow₁ hstate => by
        by_contra hown
        exact hrow ⟨job, hrow₁, hstate, by simpa using hown⟩
      have hrow₁ : s.db.jobs.lookup j = some job' := (congrArg Track.row hsame).symm.trans hrow'
      exact hwaits j job' hrow₁ hwaiting

theorem waitingRowsQueued_iff (hrun : Run (system rack) h s) (henabled : op.Enabled rack s)
    (hwaits : s.db.WaitingRowsQueued) :
    (s.after rack op).db.WaitingRowsQueued ↔ op.RecoversQueued s := by
  by_cases hwho : ∃ process, op.writer = .recovery process
  · obtain ⟨process, hwho⟩ := hwho
    cases op <;> simp only [Op.writer, reduceCtorEq] at hwho
    exact recover_waitingRowsQueued hrun hwaits
  · have hkept : (s.after rack op).db.WaitingRowsQueued := fun j =>
      (after_writes (syncRows hrun) henabled j).waitsQueued (sound hrun j)
        (fun process h => hwho ⟨process, h⟩) (hwaits j)
    refine iff_of_true hkept ?_
    cases op <;> first | trivial | exact absurd ⟨_, rfl⟩ hwho

theorem claimProgress_iff (hrun : Run (system rack) h s) :
    s.db.ClaimProgress rack ↔ s.db.WaitingRowsQueued := by
  refine ⟨And.left, fun hwaits => ⟨hwaits, fun w now leaseSeconds pick affinity heligible => ?_⟩⟩
  refine Db.claim_returns affinity (fun j job hrow hstate => ?_) (fun j => (sound hrun j).decodes)
    heligible
  exact hwaits j job hrow (by rw [hstate]; decide)

theorem waitingRowsQueued_end (hrun : Run (system rack) h s)
    (hposts : ∀ e ∈ h, e.post.db.WaitingRowsQueued) : s.db.WaitingRowsQueued := by
  cases hrun with
  | start hs =>
      rw [Set.mem_singleton_iff.1 hs]
      intro j job hrow
      cases hrow
  | step => exact hposts _ List.mem_cons_self

theorem waitingRowsQueued_run_iff (hrun : Run (system rack) h s) :
    (∀ e ∈ h, e.post.db.WaitingRowsQueued) ↔ ∀ e ∈ h, e.act.RecoversQueued e.pre := by
  induction hrun with
  | start => simp
  | step hpast hnext ih =>
      obtain ⟨henabled, rfl⟩ := hnext
      rw [List.forall_mem_cons, List.forall_mem_cons, ← ih]
      exact and_congr_left fun hposts =>
        waitingRowsQueued_iff hpast henabled (waitingRowsQueued_end hpast hposts)

/-- **Claim progress.**  In every state of a run each waiting row was queued and every claim that
finds an eligible row returns a job without raising, exactly when no recovery of the run finds an
idempotent row in flight that was never queued. -/
theorem claim_progress_iff (hrun : Run (system rack) h s) :
    (∀ e ∈ h, e.post.db.ClaimProgress rack) ↔ ∀ e ∈ h, e.act.RecoversQueued e.pre := by
  rw [← waitingRowsQueued_run_iff hrun]
  refine forall₂_congr fun e he => ?_
  obtain ⟨h₁, h₂, rfl⟩ := List.append_of_mem he
  exact claimProgress_iff hrun.past.2.2

/-- A synchronous execution with an idempotency key is reserved, its process is gone, the next one
recovers, and a job is queued. -/
def keyedCrash : List Op :=
  [.reserveSyncJob 0 { task := "chat", prompt := some "hello", idempotencyKey := some "k" }
      ("chat", "1") 0 24,
   .recover 1 (seconds 5),
   .enqueue 1 (promptSubmission false) ("chat", "1") none (seconds 6) {}]

theorem keyedCrash_admissible :
    Admissible (fun s op => op.Enabled documentedRack s) (after documentedRack) {} keyedCrash :=
  ⟨⟨⟨[{ role := .user, content := "hello" }], rfl, by simp [AcceptedTurns, documentedRack]⟩,
    by simp⟩, trivial, promptSubmission_accepted false, trivial⟩

theorem keyedCrash_claim :
    (keyedCrash.foldl (after documentedRack) {}).db.claim documentedRack ⟨1, 0⟩ (seconds 7) 60 0
      none = .error .assertionError := rfl

/-- The queued job is eligible, and a claim raises on the row before it. -/
theorem claim_blocked : ∃ h s, Run (system documentedRack) h s ∧
    (∃ job, s.db.jobs.lookup 1 = some job ∧ eligible (seconds 7) job = true) ∧
    s.db.claim documentedRack ⟨1, 0⟩ (seconds 7) 60 0 none = .error .assertionError ∧
    ¬ s.db.ClaimProgress documentedRack := by
  have heligible : ∃ job, (keyedCrash.foldl (after documentedRack) {}).db.jobs.lookup 1 =
      some job ∧ eligible (seconds 7) job = true := ⟨_, rfl, by decide⟩
  refine ⟨_, _, .replay keyedCrash_admissible, heligible, keyedCrash_claim, ?_⟩
  rintro ⟨-, hclaims⟩
  obtain ⟨c, db', hclaim⟩ := hclaims ⟨1, 0⟩ (seconds 7) 60 0 none ⟨1, heligible⟩
  rw [keyedCrash_claim] at hclaim
  cases hclaim

/-- The equivalence on that run. -/
theorem claim_progress_iff_keyedCrash :
    ¬ ∀ e ∈ trace (after documentedRack) {} keyedCrash, e.act.RecoversQueued e.pre := by
  rw [← claim_progress_iff (.replay keyedCrash_admissible)]
  intro hprogress
  obtain ⟨-, hclaims⟩ := hprogress _ List.mem_cons_self
  obtain ⟨c, db', hclaim⟩ := hclaims ⟨1, 0⟩ (seconds 7) 60 0 none ⟨1, _, rfl, by decide⟩
  exact absurd (hclaim.symm.trans keyedCrash_claim) (by simp)

end Store

end LoadCoach

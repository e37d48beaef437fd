import LoadCoach.Store.Track

/-! # Every transaction is a path of the machine

For each transaction of the store: when it commits, what it did to each job is a path of the
job's machine under the transaction's writer (`Track.Path`).  The loops of the reaper, of the
max-wait sweep and of start-up recovery run over distinct rows, so they never fail and do to
each row what their round does (`foldlM_local`). -/

namespace LoadCoach

open Foundations Relation Track

variable {rack : ModelRack} {who : Writer} {db db' : Db} {jobId : JobId}

/-- Every job took a path of the machine. -/
def Db.Writes (rack : ModelRack) (who : Writer) (db db' : Db) : Prop :=
  ∀ k, Path rack who (db.track k) (db'.track k)

theorem Db.Writes.refl (db : Db) : db.Writes rack who db := fun _ => .refl

/-- One job took a path of the machine, and no other job changed. -/
structure Db.WritesTo (rack : ModelRack) (who : Writer) (jobId : JobId) (db db' : Db) : Prop where
  path : Path rack who (db.track jobId) (db'.track jobId)
  frame : ∀ k, k ≠ jobId → db'.track k = db.track k

namespace Db.WritesTo

theorem refl (db : Db) : WritesTo rack who jobId db db := ⟨.refl, fun _ _ => rfl⟩

theorem trans {db₁ db₂ db₃ : Db} (h₁ : WritesTo rack who jobId db₁ db₂)
    (h₂ : WritesTo rack who jobId db₂ db₃) : WritesTo rack who jobId db₁ db₃ :=
  ⟨h₁.path.trans h₂.path, fun k hk => (h₂.frame k hk).trans (h₁.frame k hk)⟩

theorem append {db₁ : Db} (h : WritesTo rack who jobId db db₁) (eventType : String)
    (now : Instant) (message : String) :
    WritesTo rack who jobId db (db₁.append jobId eventType now message) := ⟨h.path, h.frame⟩

theorem of_step {t' : Track} (hstep : Step rack who (db.track jobId) t')
    (h : db.OnlyTrack jobId t' db') : WritesTo rack who jobId db db' := by
  refine ⟨?_, h.2⟩
  rw [h.1]
  exact .single hstep

theorem writes (h : WritesTo rack who jobId db db') : db.Writes rack who db' := by
  intro k
  by_cases hk : k = jobId
  · rw [hk]
    exact h.path
  · rw [h.frame k hk]
    exact .refl

end Db.WritesTo

/-! ### Moves -/

/-- A move of one job: what a committed `transition` did to its track. -/
def Track.Moves (job : Job) (target : JobState) (t t' : Track) : Prop :=
  ∃ (now : Instant) (reason : Option String) (values : JobData → JobData),
    ((values job.data).cancelRequested = true →
      job.data.cancelRequested = true ∨ target = .cancelling ∨ target = .cancelled) ∧
    t' = { t with
      row := some (job.moved target now reason values)
      writes := t.writes ++ [(job.state, target)] }

theorem Track.Moves.step {job : Job} {target : JobState} {t t' : Track}
    (h : Moves job target t t') (hrow : t.row = some job)
    (hlegal : isLegal job.state target = true) (hmay : MayMove who job target) :
    Step rack who t t' := by
  obtain ⟨now, reason, values, hflag, rfl⟩ := h
  exact .move now reason values hrow hlegal hmay hflag

namespace Db

/-- The values a move sets do not raise the cancel flag, or the move is a cancellation. -/
def KeepsFlag (target : JobState) (values : JobData → JobData) : Prop :=
  ∀ d, (values d).cancelRequested = true →
    d.cancelRequested = true ∨ target = .cancelling ∨ target = .cancelled

theorem keepsFlag_id (target : JobState) : KeepsFlag target id := fun _ => .inl

theorem writes_transition {current target : JobState} {now : Instant} {owner : Option Owner}
    {reason : Option String} {values : JobData → JobData} (hflag : KeepsFlag target values)
    (hmay : ∀ job, db.jobs.lookup jobId = some job → job.state = current →
      fenced owner job = true → MayMove who job target)
    (h : db.transition jobId current target now owner reason values = .ok db') :
    WritesTo rack who jobId db db' := by
  obtain ⟨job, hrow, rfl, hfence, hlegal, htrack⟩ := track_transition h
  exact .of_step (.move now reason values hrow hlegal (hmay job hrow rfl hfence)
    (hflag job.data)) htrack

theorem transition_moves {job : Job} {target : JobState} {values : JobData → JobData}
    {now : Instant} {reason : Option String} {message : String} (hflag : KeepsFlag target values)
    (hrow : db.jobs.lookup jobId = some job) (hlegal : isLegal job.state target = true) :
    ∃ db', (do
        let db ← db.transition jobId job.state target now none reason values
        pure (db.append jobId (eventTypeFor target) now message)) = .ok db' ∧
      Moves job target (db.track jobId) (db'.track jobId) ∧
      ∀ k, k ≠ jobId → db'.track k = db.track k := by
  have hok : ∃ db', db.transition jobId job.state target now none reason values = .ok db' :=
    ⟨_, transition_eq_ok.2 ⟨job, hrow, rfl, rfl, hlegal, rfl⟩⟩
  obtain ⟨db', hok⟩ := hok
  obtain ⟨job', hrow', -, -, -, htrack, hframe⟩ := track_transition hok
  cases hrow.symm.trans hrow'
  refine ⟨db'.append jobId (eventTypeFor target) now message, ?_, ?_, hframe⟩
  · rw [hok]
    rfl
  · exact ⟨now, reason, values, hflag job.data, htrack⟩

/-! ### Loops over rows -/

/-- What a recovery of one row does to its track: the move to its target, if it has one. -/
def Recovers (job : Job) (t t' : Track) : Prop :=
  match recoveryTarget job.state job.idempotent with
  | none => t' = t
  | some target => Moves job target t t'

theorem Recovers.path {job : Job} {t t' : Track} (h : Recovers job t t')
    (hrow : t.row = some job)
    (hmay : ∀ target, recoveryTarget job.state job.idempotent = some target →
      MayMove who job target) : Path rack who t t' := by
  unfold Recovers at h
  cases htarget : recoveryTarget job.state job.idempotent with
  | none =>
      rw [htarget] at h
      rw [h]
      exact .refl
  | some target =>
      rw [htarget] at h
      exact .single (h.step hrow (isLegal_of_recoveryTarget htarget) (hmay target htarget))

theorem reapOne_local (now : Instant) (db : Db) (e : JobId × Job)
    (hrow : (db.track e.1).row = some e.2) :
    ∃ db', reapOne now db e = .ok db' ∧ Recovers e.2 (db.track e.1) (db'.track e.1) ∧
      ∀ k, k ≠ e.1 → db'.track k = db.track k := by
  obtain ⟨jobId, job⟩ := e
  unfold reapOne Recovers
  cases htarget : recoveryTarget job.state job.idempotent with
  | none => exact ⟨db, by simp [htarget], rfl, fun _ _ => rfl⟩
  | some target =>
      have hflag : KeepsFlag target fun d : JobData =>
          if target = .failed then
            { d with
              errorCode := some "WORKER_LOST"
              errorText := some s!"lease held by {ownerText job.leaseOwner} expired" }
          else d := by
        intro d h
        split_ifs at h <;> exact .inl h
      simp only [htarget]
      exact transition_moves hflag hrow (isLegal_of_recoveryTarget htarget)

/-- **The reaper never fails, and what it does is within its rights.** -/
theorem reapExpiredLeases_writes (now : Instant) (db : Db) :
    ∃ db', db.reapExpiredLeases now = .ok db' ∧ db.Writes rack .reaper db' := by
  have hmem : ∀ e ∈ db.jobs.select fun _ job => job.leaseExpiresAt.any fun t => decide (t < now),
      (db.track e.1).row = some e.2 ∧ e.2.leaseExpiresAt.isSome := by
    rintro ⟨k, job⟩ he
    obtain ⟨hrow, hexpired⟩ := (Table.mem_select _ _ _ _).1 he
    exact ⟨hrow, Option.isSome_of_any hexpired⟩
  obtain ⟨db', hok, hrows, hframe⟩ := foldlM_local
    (P := fun e t => t.row = some e.2 ∧ e.2.leaseExpiresAt.isSome)
    (R := fun e t t' => Recovers e.2 t t') (v := Db.track)
    (fun db e he => reapOne_local now db e he.1)
    (Table.keys_nodup_select _ _) hmem
  refine ⟨db', hok, fun k => ?_⟩
  by_cases hk : k ∈ (db.jobs.select fun _ job =>
      job.leaseExpiresAt.any fun t => decide (t < now)).map Prod.fst
  · obtain ⟨e, he, rfl⟩ := List.mem_map.1 hk
    obtain ⟨hrow, hlease⟩ := hmem e he
    exact (hrows e he).path hrow fun target htarget => ⟨hlease, htarget⟩
  · rw [hframe k hk]
    exact .refl

theorem recoverOne_local (process : ℕ) (now : Instant) (db : Db) (e : JobId × Job)
    (hrow : (db.track e.1).row = some e.2) :
    ∃ db', recoverOne process now db e = .ok db' ∧
      (if ownLease process e.2 then db'.track e.1 = db.track e.1
        else Recovers e.2 (db.track e.1) (db'.track e.1)) ∧
      ∀ k, k ≠ e.1 → db'.track k = db.track k := by
  obtain ⟨jobId, job⟩ := e
  unfold recoverOne Recovers
  by_cases hown : ownLease process job = true
  · exact ⟨db, by simp [hown], by simp [hown], fun _ _ => rfl⟩
  · cases htarget : recoveryTarget job.state job.idempotent with
    | none => exact ⟨db, by simp [hown, htarget], by simp [hown], fun _ _ => rfl⟩
    | some target =>
        have hflag : KeepsFlag target fun d : JobData =>
            if target = .failed then
              { d with
                errorCode := some "WORKER_LOST"
                errorText := some (s!"recovered at startup from {job.state.value}; " ++
                  s!"lease held by {ownerText job.leaseOwner}") }
            else if target = .cancelled then
              { d with errorCode := some "GENERATION_CANCELLED" }
            else d := by
          intro d h
          split_ifs at h <;> exact .inl h
        simp only [hown, htarget]
        exact transition_moves hflag hrow (isLegal_of_recoveryTarget htarget)

/-- **Start-up recovery never fails, and moves exactly the rows in flight that no worker of its
own process holds, each to its recovery target.** -/
theorem recover_spec (process : ℕ) (now : Instant) (db : Db) :
    ∃ db', db.recover process now = .ok db' ∧
      (∀ k job, db.jobs.lookup k = some job → job.state ∈ inFlightStates →
        ownLease process job = false → Recovers job (db.track k) (db'.track k)) ∧
      ∀ k, (∀ job, db.jobs.lookup k = some job → job.state ∈ inFlightStates →
        ownLease process job = true) → db'.track k = db.track k := by
  have hmem : ∀ e ∈ db.jobs.select fun _ job => decide (job.state ∈ inFlightStates),
      (db.track e.1).row = some e.2 := by
    rintro ⟨k, job⟩ he
    exact ((Table.mem_select _ _ _ _).1 he).1
  obtain ⟨db', hok, hrows, hframe⟩ := foldlM_local
    (P := fun e t => t.row = some e.2)
    (R := fun e t t' => if ownLease process e.2 then t' = t else Recovers e.2 t t')
    (v := Db.track) (fun db e he => recoverOne_local process now db e he)
    (Table.keys_nodup_select _ _) hmem
  refine ⟨db', hok, ?_, ?_⟩
  · intro k job hrow hstate hown
    have he : (k, job) ∈ db.jobs.select fun _ job => decide (job.state ∈ inFlightStates) :=
      (Table.mem_select _ _ _ _).2 ⟨hrow, by simpa using hstate⟩
    have hR := hrows _ he
    rwa [if_neg (by simp [hown])] at hR
  · intro k hk
    by_cases hkey : k ∈ (db.jobs.select fun _ job =>
        decide (job.state ∈ inFlightStates)).map Prod.fst
    · obtain ⟨⟨k, job⟩, he, rfl⟩ := List.mem_map.1 hkey
      obtain ⟨hrow, hstate⟩ := (Table.mem_select _ _ _ _).1 he
      have hR := hrows _ he
      rwa [if_pos (hk job hrow (by simpa using hstate))] at hR
    · exact hframe k hkey

theorem recover_writes {process : ℕ} {now : Instant} (h : db.recover process now = .ok db') :
    db.Writes rack (.recovery process) db' := by
  obtain ⟨db'', hok, hmoved, hkept⟩ := recover_spec process now db
  cases h.symm.trans hok
  intro k
  by_cases hk : ∃ job, db.jobs.lookup k = some job ∧ job.state ∈ inFlightStates ∧
      ownLease process job = false
  · obtain ⟨job, hrow, hstate, hown⟩ := hk
    exact (hmoved k job hrow hstate hown).path hrow fun target htarget => ⟨hown, htarget⟩
  · have hsame := hkept k fun job hrow hstate => by
      by_contra hown
      exact hk ⟨job, hrow, hstate, by simpa using hown⟩
    rw [hsame]
    exact .refl

theorem expireOne_local (now : Instant) (defaultMaxWaitSeconds : ℕ) (db : Db) (e : JobId × Job)
    (hrow : (db.track e.1).row = some e.2) (hstate : e.2.state ∈ waitingStates) :
    ∃ db', expireOne now defaultMaxWaitSeconds db e = .ok db' ∧
      Moves e.2 .failed (db.track e.1) (db'.track e.1) ∧
      ∀ k, k ≠ e.1 → db'.track k = db.track k := by
  obtain ⟨jobId, job⟩ := e
  have hlegal : isLegal job.state .failed = true := by
    revert hstate
    cases job.state <;> decide
  unfold expireOne
  exact transition_moves (fun _ => .inl) hrow hlegal

/-- **The max-wait sweep never fails, and what it does is within its rights.** -/
theorem expireMaxWait_writes (sql : SqlArithmetic) (now : Instant) (defaultMaxWaitSeconds : ℕ)
    (db : Db) :
    ∃ db', db.expireMaxWait sql now defaultMaxWaitSeconds = .ok db' ∧
      db.Writes rack .expiry db' := by
  unfold expireMaxWait
  set overdue : JobId → Job → Bool := fun _ job =>
    decide (job.state ∈ waitingStates) && ((waitingSeconds sql now job).any fun waited =>
      decide (((job.maxWaitSeconds.getD defaultMaxWaitSeconds : ℕ) : ℚ) < waited))
  have hmem : ∀ e ∈ db.jobs.select overdue,
      (db.track e.1).row = some e.2 ∧ e.2.state ∈ waitingStates := by
    rintro ⟨k, job⟩ he
    obtain ⟨hrow, hoverdue⟩ := (Table.mem_select _ _ _ _).1 he
    simp only [overdue, Bool.and_eq_true, decide_eq_true_eq] at hoverdue
    exact ⟨hrow, hoverdue.1⟩
  obtain ⟨db', hok, hrows, hframe⟩ := foldlM_local
    (P := fun e t => t.row = some e.2 ∧ e.2.state ∈ waitingStates)
    (R := fun e t t' => Moves e.2 .failed t t') (v := Db.track)
    (fun db e he => expireOne_local now defaultMaxWaitSeconds db e he.1 he.2)
    (Table.keys_nodup_select _ _) hmem
  refine ⟨db', hok, fun k => ?_⟩
  by_cases hk : k ∈ (db.jobs.select overdue).map Prod.fst
  · obtain ⟨e, he, rfl⟩ := List.mem_map.1 hk
    obtain ⟨hrow, hstate⟩ := hmem e he
    have hlegal : isLegal e.2.state .failed = true := by
      revert hstate
      cases e.2.state <;> decide
    exact .single ((hrows e he).step hrow hlegal ⟨hstate, rfl⟩)
  · rw [hframe k hk]
    exact .refl

/-! ### A worker's transactions -/

@[simp] theorem fenced_some (w : Owner) (job : Job) :
    fenced (some w) job = true ↔ job.leaseOwner = some w := by
  simp [fenced]

section Worker

variable {w : Owner} {now : Instant}

theorem fencedMove_writes {current target : JobState} {reason : Option String}
    {values : JobData → JobData} {message : String}
    (h : db.fencedMove w jobId current target now reason values message = .ok db')
    (hflag : KeepsFlag target values) : WritesTo rack (.worker w) jobId db db' := by
  simp only [fencedMove, move, bind_eq_ok, pure_eq_ok] at h
  obtain ⟨db₁, hmove, rfl⟩ := h
  have hwrites : WritesTo rack (.worker w) jobId db db₁ :=
    writes_transition hflag (fun job _ _ hfence => (fenced_some w job).1 hfence) hmove
  exact hwrites.append _ _ _

theorem writeAttempt_writes {record : AttemptRecord}
    (h : db.writeAttempt jobId record (some w) = .ok db') :
    WritesTo rack (.worker w) jobId db db' := by
  obtain ⟨job, hrow, hfence, hnumber, honly⟩ := track_writeAttempt h
  have hmay : MayRecord (.worker w) job := (fenced_some w job).1 hfence
  exact .of_step (.record hrow hmay rfl hnumber) honly

theorem recordAttempt_writes {record : AttemptRecord} {target : JobState}
    {reason : Option String}
    (h : recordAttempt w jobId now db record target reason = .ok db') :
    WritesTo rack (.worker w) jobId db db' := by
  simp only [recordAttempt, bind_eq_ok] at h
  obtain ⟨db₁, hattempt, hmove⟩ := h
  exact (writeAttempt_writes hattempt).trans (fencedMove_writes hmove (keepsFlag_id _))

theorem cancelFrom_writes {records : List AttemptRecord}
    (h : db.cancelFrom w jobId now records = .ok db') : WritesTo rack (.worker w) jobId db db' := by
  unfold cancelFrom at h
  split at h
  · cases h
  · rename_i job _
    simp only [bind_eq_ok] at h
    obtain ⟨db₁, hrecord, db₂, hcancelling, hcancelled⟩ := h
    have h₁ : WritesTo rack (.worker w) jobId db db₁ := by
      unfold recordCancelled at hrecord
      split at hrecord
      · split_ifs at hrecord
        · exact writeAttempt_writes hrecord
        · cases hrecord
          exact .refl db
      · cases hrecord
        exact .refl db
    have h₂ : WritesTo rack (.worker w) jobId db₁ db₂ := by
      unfold startCancelling at hcancelling
      split_ifs at hcancelling
      · cases hcancelling
        exact .refl db₁
      · exact fencedMove_writes hcancelling (keepsFlag_id _)
    exact (h₁.trans h₂).trans (fencedMove_writes hcancelled fun _ _ => .inr (.inr rfl))

/-- **A worker's transaction is a path of the machine under its lease.** -/
theorem workerTx_writes {tx : WorkerTx} (h : tx.run w jobId now db = .ok db') :
    WritesTo rack (.worker w) jobId db db' := by
  cases tx with
  | defer | failAdmission | admitOn | readmitJob | complete | fail =>
      exact fencedMove_writes h fun _ => .inl
  | requeueForProbe | startRetrying => exact fencedMove_writes h (keepsFlag_id _)
  | startExecuting state attemptNumber queuedAt first =>
      refine fencedMove_writes h fun d hd => .inl ?_
      cases first <;> exact hd
  | recordFailedAttempt | validateAttempt => exact recordAttempt_writes h
  | cancelFrom => exact cancelFrom_writes h
  | failAfterCrash code text =>
      simp only [WorkerTx.run, failAfterCrash] at h
      split at h
      · cases h
        exact .refl db
      · exact fencedMove_writes h fun _ => .inl

end Worker

/-! ### The queue's other transactions -/

theorem claimMatching_spec {w : Owner} {now : Instant} {leaseSeconds pick : ℕ}
    {extra : Job → Bool} {chosen : JobId}
    (h : db.claimMatching w now leaseSeconds pick extra = some (chosen, db')) :
    ∃ job, db.jobs.lookup chosen = some job ∧ eligible now job = true ∧ extra job = true ∧
      db.OnlyTrack chosen
        { db.track chosen with
          row := some (job.leasedBy w (now + seconds leaseSeconds))
          writes := (db.track chosen).writes ++ [(.queued, .leased)] } db' := by
  unfold claimMatching at h
  dsimp only at h
  split at h
  · cases h
  · rename_i k hk
    cases h
    have hmem := List.mem_of_getElem? hk
    simp only [heads, List.mem_map, List.mem_filter] at hmem
    obtain ⟨⟨k, job⟩, ⟨hselect, -⟩, rfl⟩ := hmem
    obtain ⟨hrow, hp⟩ := (Table.mem_select _ _ _ _).1 hselect
    simp only [Bool.and_eq_true] at hp
    have hstate : job.state = .queued := by
      have := hp.1
      simp only [eligible, Bool.and_eq_true, decide_eq_true_eq] at this
      exact this.1
    exact ⟨job, hrow, hp.1, hp.2, onlyTrack_write (p := fun job => decide (job.state = .queued))
      hrow (by simpa using hstate)⟩

/-- Whichever part of a claim found a row, a claim statement did. -/
theorem exists_claimMatching {w : Owner} {now : Instant} {leaseSeconds pick : ℕ}
    {affinity : Option AffinityHint} {found : JobId × Db}
    (h : (db.claimByAffinity w now leaseSeconds pick affinity).or
      (db.claimMatching w now leaseSeconds pick fun _ => true) = some found) :
    ∃ extra, db.claimMatching w now leaseSeconds pick extra = some found := by
  rcases Option.or_eq_some_iff.1 h with haffine | ⟨-, hplain⟩
  · unfold claimByAffinity at haffine
    split at haffine
    · cases haffine
    · split_ifs at haffine
      split at haffine
      · cases haffine
      · exact ⟨_, haffine⟩
  · exact ⟨_, hplain⟩

/-- A claim that found nothing changed nothing; one that returned a job leased an eligible row
that had been queued. -/
theorem claim_spec {w : Owner} {now : Instant} {leaseSeconds pick : ℕ}
    {affinity : Option AffinityHint} {result : Option ClaimedJob}
    (h : db.claim rack w now leaseSeconds pick affinity = .ok (result, db')) :
    (result = none ∧ db' = db) ∨ ∃ claimedJob job, result = some claimedJob ∧
      db.jobs.lookup claimedJob.jobId = some job ∧ eligible now job = true ∧
      job.queuedAt.isSome ∧ claimedJob.attempt = job.attempt ∧
      claimedJob.maxAttempts = job.maxAttempts ∧
      claimedJob.cancelRequested = job.data.cancelRequested ∧
      db.OnlyTrack claimedJob.jobId
        { db.track claimedJob.jobId with
          row := some (job.leasedBy w (now + seconds leaseSeconds))
          writes := (db.track claimedJob.jobId).writes ++ [(.queued, .leased)] } db' := by
  unfold claim at h
  dsimp only at h
  split at h
  · cases h
    exact .inl ⟨rfl, rfl⟩
  · rename_i chosen leased hchosen
    obtain ⟨extra, hmatching⟩ := exists_claimMatching hchosen
    obtain ⟨job, hrow, heligible, -, honly⟩ := claimMatching_spec hmatching
    have hleased : leased.jobs.lookup chosen =
        some (job.leasedBy w (now + seconds leaseSeconds)) := congrArg Track.row honly.1
    rw [hleased] at h
    simp only [bind_eq_ok, pure_eq_ok] at h
    obtain ⟨claimedJob, hclaimed, hresult⟩ := h
    cases hresult
    refine .inr ⟨claimedJob, job, rfl, ?_⟩
    unfold claimed at hclaimed
    split at hclaimed
    · rename_i queuedAt leaseExpiresAt hqueued hlease
      simp only [bind_eq_ok, pure_eq_ok] at hclaimed
      obtain ⟨submission, -, rfl⟩ := hclaimed
      have hqueuedAt : job.queuedAt = some queuedAt := hqueued
      exact ⟨hrow, heligible, by simp [hqueuedAt], rfl, rfl, rfl, honly⟩
    · cases hclaimed

theorem claim_writes {w : Owner} {now : Instant} {leaseSeconds pick : ℕ}
    {affinity : Option AffinityHint} {result : Option ClaimedJob}
    (h : db.claim rack w now leaseSeconds pick affinity = .ok (result, db')) :
    db.Writes rack (.claimer w) db' := by
  rcases claim_spec h with ⟨-, rfl⟩ | ⟨c, job, -, hrow, heligible, hqueued, -, -, -, honly⟩
  · exact .refl _
  · simp only [eligible, Bool.and_eq_true, decide_eq_true_eq] at heligible
    exact WritesTo.writes (.of_step (.lease _ rfl hrow heligible.1 hqueued) honly)

theorem cancelJob_writes {now : Instant} {result : JobState × Bool}
    (h : db.cancelJob jobId now = .ok (result, db')) : WritesTo rack .canceller jobId db db' := by
  unfold cancelJob at h
  split at h
  · cases h
  · rename_i job hrow
    split_ifs at h
    split at h
    · cases h
      exact .refl db
    · rename_i target htarget
      simp only [bind_eq_ok, pure_eq_ok] at h
      obtain ⟨db₁, hmove, hresult⟩ := h
      cases hresult
      have hwrites : WritesTo rack .canceller jobId db db₁ := by
        refine writes_transition (fun _ _ => .inr (cancelTarget_eq_some htarget)) ?_ hmove
        intro job' hrow' _ _
        cases hrow.symm.trans hrow'
        exact htarget
      exact hwrites.append _ _ _

theorem enqueue_writes {s : JobSubmission} {profile : String × String} {pinned : Option String}
    {now : Instant} {settings : QueueSettings} (hs : s.Accepted rack)
    (h : db.enqueue rack jobId s profile pinned now settings = .ok db') :
    WritesTo rack .submitter jobId db db' := by
  simp only [enqueue, bind_eq_ok, pure_eq_ok] at h
  obtain ⟨priority, -, payload, hpayload, db₁, hinsert, rfl⟩ := h
  obtain ⟨hrow, honly⟩ := track_insertJob hinsert
  refine .of_step (.insert hrow ?_) honly
  refine ⟨rfl, rfl, rfl, rfl, fun row => ?_, .inl ⟨rfl, rfl, rfl⟩⟩
  obtain ⟨payload', turns, hpayload', -, hdecode⟩ :=
    JobSubmission.fromRequestJson_asRequestJson hs row
  cases hpayload.symm.trans hpayload'
  exact ⟨_, hdecode⟩

theorem existingJobForKey_writes (source key : String) (now : Instant) (db : Db) :
    db.Writes rack .housekeeping (db.existingJobForKey source key now).2 := by
  unfold existingJobForKey
  split
  · exact .refl db
  · rename_i k job rest hselect
    split_ifs
    · have hrow : db.jobs.lookup k = some job :=
        ((Table.mem_select _ _ _ _).1 (hselect ▸ List.mem_cons_self)).1
      refine WritesTo.writes (.of_step
        (.touch job.effectivePriority none none rfl hrow) ⟨?_, ?_⟩)
      · rw [track_update]
        simp [hrow]
      · intro k' hk'
        rw [track_update]
        simp [hk', -track_row]
    · exact .refl db

theorem renewLeases_writes (w : Owner) (jobIds : List JobId) (now : Instant)
    (leaseSeconds : ℕ) (db : Db) :
    db.Writes rack (.keeper w) (db.renewLeases w jobIds now leaseSeconds).2 := by
  intro k
  unfold renewLeases
  rw [track_update]
  cases hrow : db.jobs.lookup k with
  | none =>
      rw [track_row, hrow, Option.map_none, ← hrow]
      exact .refl
  | some job =>
      simp only [track_row, hrow, Option.map_some]
      split_ifs with hp
      · simp only [Bool.and_eq_true, decide_eq_true_eq] at hp
        exact .single (.renew _ rfl hrow hp.2.1 hp.2.2)
      · rw [← hrow]
        exact .refl

theorem ageingSweep_writes (sql : SqlArithmetic) (now : Instant) (pointsPerMinute : ℚ)
    (overflowAllowance : ℤ) (db : Db) : db.Writes rack .housekeeping
      (db.ageingSweep sql now pointsPerMinute overflowAllowance) := by
  intro k
  unfold ageingSweep
  dsimp only
  rw [track_update]
  cases hrow : db.jobs.lookup k with
  | none =>
      rw [track_row, hrow, Option.map_none, ← hrow]
      exact .refl
  | some job =>
      simp only [track_row, hrow, Option.map_some]
      split_ifs with hp
      · exact .single (.touch _ job.idempotencyKey job.idempotencyExpiresAt rfl hrow)
      · rw [← hrow]
        exact .refl

theorem resourcesFreed_writes {now : Instant} (h : db.resourcesFreed jobId now = .ok db') :
    WritesTo rack .reevaluation jobId db db' := by
  simp only [resourcesFreed, move, bind_eq_ok, pure_eq_ok] at h
  obtain ⟨db₁, hmove, rfl⟩ := h
  have hwrites : WritesTo rack .reevaluation jobId db db₁ :=
    writes_transition (keepsFlag_id _) (fun job _ hstate _ => ⟨hstate, rfl⟩) hmove
  exact hwrites.append _ _ _

theorem forceCancelled_writes {now : Instant} {limit : ℕ}
    (h : db.forceCancelled jobId now limit = .ok db') : WritesTo rack .watchdog jobId db db' := by
  simp only [forceCancelled, move, bind_eq_ok, pure_eq_ok] at h
  obtain ⟨db₁, hmove, rfl⟩ := h
  have hwrites : WritesTo rack .watchdog jobId db db₁ := by
    refine writes_transition ?_ (fun job _ hstate _ => ⟨hstate, rfl⟩) hmove
    exact fun _ => .inl
  exact hwrites.append _ _ _

/-! ### The synchronous path -/

/-- The row of a job was never queued: a synchronous execution's row. -/
def SyncRow (db : Db) (jobId : JobId) : Prop :=
  ∃ job, db.jobs.lookup jobId = some job ∧ job.queuedAt = none

theorem reserveSyncJob_writes {r : GenerateRequest} {profile : String × String} {now : Instant}
    {ttlHours : ℚ} (hr : r.Accepted rack)
    (h : db.reserveSyncJob rack jobId r profile now ttlHours = .ok db') :
    WritesTo rack .synchronous jobId db db' := by
  simp only [reserveSyncJob, bind_eq_ok] at h
  obtain ⟨turns, hturns, hinsert⟩ := h
  obtain ⟨hrow, honly⟩ := track_insertJob hinsert
  obtain ⟨turns', hturns', haccepted⟩ := hr.transcript
  cases hturns.symm.trans hturns'
  exact .of_step (.insert hrow ⟨rfl, rfl, rfl, rfl,
    fromRequestJson_syncRequestMembers haccepted hr.tools,
    .inr ⟨rfl, rfl, .inl rfl⟩⟩) honly

theorem writeAttempts_writes {records : List AttemptRecord} (hsync : db.SyncRow jobId)
    (h : db.writeAttempts jobId records = .ok db') :
    WritesTo rack .synchronous jobId db db' := by
  induction records generalizing db with
  | nil =>
      rw [writeAttempts, List.foldlM_nil, pure_eq_ok] at h
      subst h
      exact .refl db
  | cons record records ih =>
      rw [writeAttempts, List.foldlM_cons, bind_eq_ok] at h
      obtain ⟨db₁, hattempt, hrest⟩ := h
      obtain ⟨job, hrow, -, hnumber, honly⟩ := track_writeAttempt hattempt
      obtain ⟨job', hrow', hqueued⟩ := hsync
      cases hrow.symm.trans hrow'
      have hmay : MayRecord .synchronous job := hqueued
      have hrow₁ : db₁.jobs.lookup jobId = some job.counted := congrArg Track.row honly.1
      have hwrites : WritesTo rack .synchronous jobId db db₁ :=
        .of_step (.record hrow hmay rfl hnumber) honly
      exact hwrites.trans (ih ⟨job.counted, hrow₁, hqueued⟩ hrest)

theorem assign_writes {f : Job → Job} (hsync : db.SyncRow jobId)
    (hf : ∀ job, job.queuedAt = none → Assigned job (f job)) (h : db.assign jobId f = .ok db') :
    WritesTo rack .synchronous jobId db db' ∧ db'.SyncRow jobId := by
  obtain ⟨job, hrow, honly⟩ := track_assign h
  obtain ⟨job', hrow', hqueued⟩ := hsync
  cases hrow.symm.trans hrow'
  have hassigned := hf job hqueued
  exact ⟨.of_step (.assign rfl hrow hassigned) honly,
    f job, congrArg Track.row honly.1, hassigned.queuedAt.2⟩

theorem assigned_persisted (outcome : SyncOutcome) (profile : String × String) (attempts : ℕ)
    (now : Instant) {job : Job} (h : job.queuedAt = none) :
    Assigned job (job.persisted outcome profile attempts now) where
  queuedAt := ⟨h, h⟩
  state := by cases outcome <;> simp [Job.persisted, SyncOutcome.state]
  leaseOwner := rfl
  leaseExpiresAt := rfl
  attempt := rfl
  idempotent := rfl
  requestJson := rfl
  cancelRequested := by cases outcome <;> rfl

theorem assigned_failedWith (code message : String) (now : Instant) {job : Job}
    (h : job.queuedAt = none) : Assigned job (job.failedWith code message now) where
  queuedAt := ⟨h, h⟩
  state := .inr rfl
  leaseOwner := rfl
  leaseExpiresAt := rfl
  attempt := rfl
  idempotent := rfl
  requestJson := rfl
  cancelRequested := rfl

theorem persist_writes {outcome : SyncOutcome} {profile : String × String}
    {records : List AttemptRecord} {now : Instant} (hsync : db.SyncRow jobId)
    (h : db.persist jobId outcome profile records now = .ok db') :
    WritesTo rack .synchronous jobId db db' := by
  simp only [persist, bind_eq_ok, pure_eq_ok] at h
  obtain ⟨db₁, hassign, db₂, hattempts, rfl⟩ := h
  have hassigned : WritesTo rack .synchronous jobId db db₁ ∧ db₁.SyncRow jobId :=
    assign_writes hsync (fun job => assigned_persisted outcome profile records.length now) hassign
  have hwrites : WritesTo rack .synchronous jobId db db₂ :=
    hassigned.1.trans (writeAttempts_writes hassigned.2 hattempts)
  exact hwrites.append _ _ _

theorem failReserved_writes {code message : String} {now : Instant} (hsync : db.SyncRow jobId)
    (h : db.failReserved jobId code message now = .ok db') :
    WritesTo rack .synchronous jobId db db' := by
  simp only [failReserved, bind_eq_ok, pure_eq_ok] at h
  obtain ⟨db₁, hassign, rfl⟩ := h
  have hwrites : WritesTo rack .synchronous jobId db db₁ :=
    (assign_writes hsync (fun job => assigned_failedWith code message now) hassign).1
  exact hwrites.append _ _ _

theorem backstop_writes {message : String} {now : Instant} (hsync : db.SyncRow jobId)
    (h : db.backstop jobId message now = .ok db') : WritesTo rack .synchronous jobId db db' := by
  unfold backstop at h
  split_ifs at h
  · cases h
    exact .refl db
  · simp only [bind_eq_ok, pure_eq_ok] at h
    obtain ⟨db₁, hassign, rfl⟩ := h
    refine WritesTo.append ?_ _ _ _
    unfold failUnended at hassign
    split at hassign
    · cases hassign
      exact .refl db
    · split_ifs at hassign
      · cases hassign
        exact .refl db
      · exact (assign_writes hsync
          (fun job => assigned_failedWith "INTERNAL_ERROR" message now) hassign).1

theorem WritesTo.foldl_append {α : Type} {eventType message : α → String} {now : Instant}
    {db₁ : Db} (h : WritesTo rack who jobId db db₁) (l : List α) :
    WritesTo rack who jobId db
      (l.foldl (fun db a => db.append jobId (eventType a) now (message a)) db₁) := by
  induction l generalizing db₁ with
  | nil => exact h
  | cons a l ih => exact ih (h.append _ _ _)

theorem persistNew_writes {r : GenerateRequest} {profile : String × String}
    {outcome : SyncOutcome} {records : List AttemptRecord} {now : Instant}
    (hr : r.Accepted rack) (h : db.persistNew jobId r profile outcome records now = .ok db') :
    WritesTo rack .synchronous jobId db db' := by
  simp only [persistNew, bind_eq_ok, pure_eq_ok] at h
  obtain ⟨db₁, hinsert, db₂, hattempts, rfl⟩ := h
  obtain ⟨hrow, honly⟩ := track_insertJob hinsert
  have hfresh : Fresh rack .synchronous
      (unreservedJob r profile outcome records.length now) := by
    cases outcome <;>
      exact ⟨rfl, rfl, rfl, rfl, fromRequestJson_unreservedMembers hr.tools,
        .inr ⟨rfl, rfl, .inr (by simp [unreservedJob, SyncOutcome.state, terminalStates])⟩⟩
  have hinserted : WritesTo rack .synchronous jobId db db₁ := .of_step (.insert hrow hfresh) honly
  have hwrites := hinserted.trans
    (writeAttempts_writes ⟨_, congrArg Track.row honly.1, rfl⟩ hattempts)
  exact ((hwrites.append _ _ _).foldl_append records).append _ _ _

end Db

end LoadCoach

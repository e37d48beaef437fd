import LoadCoach.Store.Track

/-! # The invariant of one job

What every statement of every writer keeps of a job's track.  `Kept` is what no writer changes
once the row is there; `Sound` is the invariant: the attempts are numbered from one without a gap
up to the row's counter, the row has both halves of a lease or neither, and has them only while a
worker may be touching it and only if it went through the queue, and its stored request can be
read back.  Both are proved of one statement first (`Step.kept`, `Step.sound`) and then of a
transaction (`Path.kept`, `Path.sound`). -/

namespace LoadCoach

open Relation

/-! ### What no step changes -/

/-- What every writer leaves alone once a row is there. -/
structure Job.Kept (job job' : Job) : Prop where
  queuedAt : job'.queuedAt = job.queuedAt
  idempotent : job'.idempotent = job.idempotent
  requestJson : job'.requestJson = job.requestJson
  attempt : job.attempt ≤ job'.attempt
  maxAttempts : job.queuedAt.isSome → job'.maxAttempts = job.maxAttempts

theorem Job.Kept.refl (job : Job) : job.Kept job := ⟨rfl, rfl, rfl, le_rfl, fun _ => rfl⟩

namespace Track

variable {rack : ModelRack} {who : Writer} {t t' : Track} {job : Job}

theorem Step.kept (hstep : Step rack who t t') (hrow : t.row = some job) :
    ∃ job', t'.row = some job' ∧ job.Kept job' := by
  cases hstep with
  | insert hnone => exact absurd (hrow.symm.trans hnone) (by simp)
  | move _ _ _ hrow' =>
      cases hrow.symm.trans hrow'
      exact ⟨_, rfl, by simp, by simp, by simp, by simp, by simp⟩
  | record hrow' =>
      cases hrow.symm.trans hrow'
      exact ⟨_, rfl, rfl, rfl, rfl, Nat.le_succ _, fun _ => rfl⟩
  | assign _ hrow' hassigned =>
      cases hrow.symm.trans hrow'
      exact ⟨_, rfl, hassigned.queuedAt.2.trans hassigned.queuedAt.1.symm,
        hassigned.idempotent, hassigned.requestJson, hassigned.attempt.ge,
        by simp [hassigned.queuedAt.1]⟩
  | lease _ _ hrow' | renew _ _ hrow' | touch _ _ _ _ hrow' =>
      cases hrow.symm.trans hrow'
      exact ⟨_, rfl, rfl, rfl, rfl, le_rfl, fun _ => rfl⟩

theorem Path.kept (hpath : Path rack who t t') (hrow : t.row = some job) :
    ∃ job', t'.row = some job' ∧ job.Kept job' := by
  induction hpath with
  | refl => exact ⟨job, hrow, .refl job⟩
  | tail _ hstep ih =>
      obtain ⟨job₁, hrow₁, hkept₁⟩ := ih
      obtain ⟨job₂, hrow₂, hkept₂⟩ := hstep.kept hrow₁
      exact ⟨job₂, hrow₂, hkept₂.queuedAt.trans hkept₁.queuedAt,
        hkept₂.idempotent.trans hkept₁.idempotent,
        hkept₂.requestJson.trans hkept₁.requestJson, hkept₁.attempt.trans hkept₂.attempt,
        fun hqueued => (hkept₂.maxAttempts (hkept₁.queuedAt ▸ hqueued)).trans
          (hkept₁.maxAttempts hqueued)⟩

/-! ### Soundness -/

/-- The invariant of one job. -/
structure Sound (rack : ModelRack) (t : Track) : Prop where
  absent : t.row = none → t.attempts = []
  numbered : ∀ job, t.row = some job →
    t.attempts.map JobAttempt.attempt = List.range' 1 job.attempt
  recorded : ∀ a ∈ t.attempts, a.record.attempt = a.attempt
  paired : ∀ job, t.row = some job → (job.leaseOwner.isSome ↔ job.leaseExpiresAt.isSome)
  inFlight : ∀ job, t.row = some job → job.leaseOwner.isSome → job.state ∈ inFlightStates
  queued : ∀ job, t.row = some job → job.leaseOwner.isSome → job.queuedAt.isSome
  decodes : ∀ job, t.row = some job →
    ∀ columns, ∃ s, JobSubmission.fromRequestJson rack job.requestJson columns = .ok s

theorem sound_empty : Sound rack {} where
  absent _ := rfl
  numbered := by simp
  recorded := by simp
  paired := by simp
  inFlight := by simp
  queued := by simp
  decodes := by simp

/-- **Every statement of every writer keeps a track sound.** -/
theorem Step.sound (hstep : Step rack who t t') (h : Sound rack t) : Sound rack t' := by
  cases hstep with
  | insert hnone hfresh =>
      have hattempts := h.absent hnone
      refine ⟨by simp, ?_, by simp [hattempts], ?_, ?_, ?_, ?_⟩ <;> rintro _ ⟨rfl⟩
      · simp [hattempts, hfresh.attempt]
      · simp [hfresh.leaseOwner, hfresh.leaseExpiresAt]
      · simp [hfresh.leaseOwner]
      · simp [hfresh.leaseOwner]
      · exact hfresh.decodes
  | @move job target now reason values hrow hlegal hmay hflag =>
      refine ⟨by simp, ?_, h.recorded, ?_, ?_, ?_, ?_⟩ <;> rintro _ ⟨rfl⟩
      · simpa using h.numbered job hrow
      · rw [Job.moved_leaseOwner, Job.moved_leaseExpiresAt]
        split_ifs
        · exact h.paired job hrow
        · simp
      · rw [Job.moved_leaseOwner, Job.moved_state]
        split_ifs with htarget
        · exact fun _ => htarget
        · simp
      · rw [Job.moved_leaseOwner, Job.moved_queuedAt]
        split_ifs
        · exact h.queued job hrow
        · simp
      · simpa using h.decodes job hrow
  | @record job row hrow hmay hnumber hrecord =>
      refine ⟨by simp, ?_, ?_, ?_, ?_, ?_, ?_⟩
      · rintro _ ⟨rfl⟩
        rw [List.map_append, h.numbered job hrow, Job.counted_attempt, List.range'_1_concat,
          List.map_singleton, hnumber, Nat.add_comm]
      · intro a ha
        rcases List.mem_append.1 ha with ha | ha
        · exact h.recorded a ha
        · rwa [List.mem_singleton.1 ha]
      all_goals rintro _ ⟨rfl⟩
      · exact h.paired job hrow
      · exact h.inFlight job hrow
      · exact h.queued job hrow
      · exact h.decodes job hrow
  | @lease job w expiresAt hwho hrow hstate hqueued =>
      refine ⟨by simp, ?_, h.recorded, ?_, ?_, ?_, ?_⟩ <;> rintro _ ⟨rfl⟩
      · exact h.numbered job hrow
      · simp [Job.leasedBy]
      · exact fun _ => (by decide : JobState.leased ∈ inFlightStates)
      · exact fun _ => hqueued
      · exact h.decodes job hrow
  | @renew job w expiresAt hwho hrow howner hstate =>
      refine ⟨by simp, ?_, h.recorded, ?_, ?_, ?_, ?_⟩ <;> rintro _ ⟨rfl⟩
      · exact h.numbered job hrow
      · simp [howner]
      · exact h.inFlight job hrow
      · exact h.queued job hrow
      · exact h.decodes job hrow
  | @touch job effectivePriority idempotencyKey idempotencyExpiresAt hwho hrow =>
      refine ⟨by simp, ?_, h.recorded, ?_, ?_, ?_, ?_⟩ <;> rintro _ ⟨rfl⟩
      · exact h.numbered job hrow
      · exact h.paired job hrow
      · exact h.inFlight job hrow
      · exact h.queued job hrow
      · exact h.decodes job hrow
  | @assign job job' hwho hrow hassigned =>
      have hunleased : job.leaseOwner = none := by
        by_contra hleased
        have hqueued := h.queued job hrow (Option.isSome_iff_ne_none.2 hleased)
        simp [hassigned.queuedAt.1] at hqueued
      refine ⟨by simp, ?_, h.recorded, ?_, ?_, ?_, ?_⟩ <;> rintro _ ⟨rfl⟩
      · rw [hassigned.attempt]
        exact h.numbered job hrow
      · rw [hassigned.leaseOwner, hassigned.leaseExpiresAt]
        exact h.paired job hrow
      · simp [hassigned.leaseOwner, hunleased]
      · simp [hassigned.leaseOwner, hunleased]
      · rw [hassigned.requestJson]
        exact h.decodes job hrow

theorem Path.sound (hpath : Path rack who t t') (h : Sound rack t) : Sound rack t' := by
  induction hpath with
  | refl => exact h
  | tail _ hstep ih => exact hstep.sound ih

end Track

end LoadCoach

import LoadCoach.Store.System

/-! # Cancellation on the queued path

A cancel request that returns leaves the row in `cancelling` or `cancelled` (`cancelJob_state`).
`cancelling` has one successor and `cancelled` none, so no writer that moves a row along the
table can take it anywhere else (`Step.cancelled`); the only writer that does not, a synchronous
execution, never touches a row that was queued.

Conversely a row is on its way to `cancelled` only because a cancel request or a worker put it
there (`Path.cancels`), and its flag says so (`flagged`). -/

namespace LoadCoach

open Foundations Relation

variable {rack : ModelRack}

/-- The states of a job whose cancellation was accepted. -/
def cancelStates : Finset JobState := {.cancelling, .cancelled}

theorem mem_cancelStates {s : JobState} :
    s ∈ cancelStates ↔ s = .cancelling ∨ s = .cancelled := by
  simp [cancelStates]

theorem mem_cancelStates_of_isLegal {s t : JobState} (h : isLegal s t = true)
    (hs : s ∈ cancelStates) : t ∈ cancelStates := by
  rcases mem_cancelStates.1 hs with rfl | rfl
  · rw [eq_cancelled_of_isLegal h]
    decide
  · rw [not_isLegal_of_terminal (by decide)] at h
    cases h

/-- **A cancel request that returns leaves the row on its way to `cancelled`.** -/
theorem Db.cancelJob_state {db db' : Db} {j : JobId} {now : Instant} {result : JobState × Bool}
    (h : db.cancelJob j now = .ok (result, db')) :
    ∃ job, db'.jobs.lookup j = some job ∧ job.state ∈ cancelStates := by
  unfold cancelJob at h
  split at h
  · cases h
  · rename_i job hrow
    split_ifs at h with hterminal
    split at h
    · rename_i hnone
      cases h
      have hstate := ((cancelTarget_eq_none_iff job.state).1 hnone).resolve_left hterminal
      exact ⟨job, hrow, mem_cancelStates.2 (.inl hstate)⟩
    · rename_i target htarget
      simp only [bind_eq_ok, pure_eq_ok] at h
      obtain ⟨db₁, hmove, hresult⟩ := h
      cases hresult
      obtain ⟨job', -, -, -, -, honly⟩ := track_transition hmove
      refine ⟨_, congrArg Track.row honly.1, ?_⟩
      rw [Job.moved_state]
      exact mem_cancelStates.2 (cancelTarget_eq_some htarget)

namespace Track

variable {who : Writer} {t t' : Track} {job : Job}

theorem Step.cancelled (hstep : Step rack who t t') (hrow : t.row = some job)
    (hqueued : job.queuedAt.isSome) (hstate : job.state ∈ cancelStates) :
    ∃ job', t'.row = some job' ∧ job'.state ∈ cancelStates := by
  cases hstep with
  | move _ _ _ hrow₁ hlegal =>
      cases hrow.symm.trans hrow₁
      refine ⟨_, rfl, ?_⟩
      rw [Job.moved_state]
      exact mem_cancelStates_of_isLegal hlegal hstate
  | lease _ _ hrow₁ hstate₁ =>
      cases hrow.symm.trans hrow₁
      rw [hstate₁] at hstate
      exact absurd hstate (by decide)
  | assign _ hrow₁ hassigned =>
      cases hrow.symm.trans hrow₁
      simp [hassigned.queuedAt.1] at hqueued
  | insert hnone => exact absurd (hrow.symm.trans hnone) (by simp)
  | record hrow₁ | renew _ _ hrow₁ | touch _ _ _ _ hrow₁ =>
      cases hrow.symm.trans hrow₁
      exact ⟨_, rfl, hstate⟩

theorem Path.cancelled (hpath : Path rack who t t') (hrow : t.row = some job)
    (hqueued : job.queuedAt.isSome) (hstate : job.state ∈ cancelStates) :
    ∃ job', t'.row = some job' ∧ job'.state ∈ cancelStates := by
  induction hpath with
  | refl => exact ⟨job, hrow, hstate⟩
  | tail hpath₁ hstep ih =>
      obtain ⟨job₁, hrow₁, hstate₁⟩ := ih
      obtain ⟨job₁', hrow₁', hkept⟩ := Path.kept hpath₁ hrow
      cases hrow₁.symm.trans hrow₁'
      exact hstep.cancelled hrow₁ (hkept.queuedAt ▸ hqueued) hstate₁

theorem cancelling_of_recoveryTarget {s s' : JobState} {i : Bool}
    (h : recoveryTarget s i = some s') (hs' : s' ∈ cancelStates) : s ∈ cancelStates := by
  revert h hs'
  cases s <;> cases i <;> cases s' <;> decide

/-- Only a cancel request or a worker puts a row on its way to `cancelled`. -/
theorem Step.cancels {job' : Job} (hstep : Step rack who t t') (hrow' : t'.row = some job')
    (hqueued : job'.queuedAt.isSome) (hstate : job'.state ∈ cancelStates) :
    (∃ job, t.row = some job ∧ job.state ∈ cancelStates) ∨ who = .canceller ∨
      ∃ w, who = .worker w := by
  cases hstep with
  | @move job target _ _ _ hrow _ hmay =>
      cases hrow'
      rw [Job.moved_state] at hstate
      cases who with
      | canceller => exact .inr (.inl rfl)
      | worker w => exact .inr (.inr ⟨w, rfl⟩)
      | reaper | recovery =>
          exact .inl ⟨job, hrow, cancelling_of_recoveryTarget hmay.2 hstate⟩
      | watchdog =>
          refine .inl ⟨job, hrow, ?_⟩
          rw [hmay.1]
          decide
      | expiry | reevaluation =>
          rw [hmay.2] at hstate
          exact absurd hstate (by decide)
      | _ => exact hmay.elim
  | lease =>
      cases hrow'
      exact absurd hstate (by decide : JobState.leased ∉ cancelStates)
  | insert _ hfresh =>
      cases hrow'
      rcases hfresh.writer with ⟨-, hqueuedState, -⟩ | ⟨-, hnone, -⟩
      · rw [hqueuedState] at hstate
        exact absurd hstate (by decide)
      · simp [hnone] at hqueued
  | assign _ _ hassigned =>
      cases hrow'
      simp [hassigned.queuedAt.2] at hqueued
  | @record job _ hrow | @renew job _ _ _ hrow | @touch job _ _ _ _ hrow =>
      cases hrow'
      exact .inl ⟨job, hrow, hstate⟩

theorem Path.cancels {job' : Job} (hpath : Path rack who t t') (hrow' : t'.row = some job')
    (hqueued : job'.queuedAt.isSome) (hstate : job'.state ∈ cancelStates) :
    (∃ job, t.row = some job ∧ job.state ∈ cancelStates) ∨ who = .canceller ∨
      ∃ w, who = .worker w := by
  induction hpath generalizing job' with
  | refl => exact .inl ⟨job', hrow', hstate⟩
  | tail _ hstep ih =>
      rcases hstep.cancels hrow' hqueued hstate with ⟨job₁, hrow₁, hstate₁⟩ | hwho
      · obtain ⟨job₂, hrow₂, hkept⟩ := hstep.kept hrow₁
        cases hrow'.symm.trans hrow₂
        exact ih hrow₁ (hkept.queuedAt ▸ hqueued) hstate₁
      · exact .inr hwho

/-- A row that asks for cancellation is on its way there. -/
def Flagged (t : Track) : Prop :=
  ∀ job, t.row = some job → job.queuedAt.isSome → job.data.cancelRequested = true →
    job.state ∈ cancelStates

theorem Step.flagged (hstep : Step rack who t t') (h : t.Flagged) : t'.Flagged := by
  rintro job' hrow' hqueued hflag
  cases hstep with
  | @move job target now reason values hrow hlegal _ hkeeps =>
      cases hrow'
      rw [Job.moved_queuedAt] at hqueued
      rw [Job.moved_data] at hflag
      rw [Job.moved_state]
      rcases hkeeps hflag with hbefore | htarget
      · exact mem_cancelStates_of_isLegal hlegal (h job hrow hqueued hbefore)
      · exact mem_cancelStates.2 htarget
  | @lease job _ _ _ hrow hstate =>
      cases hrow'
      have hbefore := h job hrow hqueued hflag
      rw [hstate] at hbefore
      exact absurd hbefore (by decide)
  | insert _ hfresh =>
      cases hrow'
      rw [hfresh.unflagged] at hflag
      cases hflag
  | assign _ _ hassigned =>
      cases hrow'
      simp [hassigned.queuedAt.2] at hqueued
  | @record job _ hrow | @renew job _ _ _ hrow | @touch job _ _ _ _ hrow =>
      cases hrow'
      exact h job hrow hqueued hflag

theorem Path.flagged (hpath : Path rack who t t') (h : t.Flagged) : t'.Flagged := by
  induction hpath with
  | refl => exact h
  | tail _ hstep ih => exact hstep.flagged ih

end Track

namespace Store

variable {h : List (Foundations.Step Store Op)} {s : Store}

theorem flagged (hrun : Run (system rack) h s) (j : JobId) : (s.db.track j).Flagged := by
  induction hrun with
  | start hs =>
      rw [Set.mem_singleton_iff.1 hs]
      rintro job hrow
      cases hrow
  | step hpast hnext ih =>
      obtain ⟨henabled, rfl⟩ := hnext
      exact (after_writes (syncRows hpast) henabled j).flagged ih

/-- A cancel request for a job of the queued path that returned without raising. -/
def CancelStep (j : JobId) (e : Foundations.Step Store Op) : Prop :=
  (∃ now result, e.act = .cancelJob j now ∧
    e.pre.db.cancelJob j now = .ok (result, e.post.db)) ∧
  ∃ job, e.pre.db.jobs.lookup j = some job ∧ job.queuedAt.isSome

/-- **Cancellation is decisive.**  Once a cancel request for a queued job has returned, the job is
`cancelling` or `cancelled` in every later state of every run, so the only terminal state it can
reach is `cancelled`. -/
theorem cancelJob_decisive {j : JobId} {h₁ h₂ : List (Foundations.Step Store Op)}
    {e : Foundations.Step Store Op} (hrun : Run (system rack) (h₁ ++ e :: h₂) s)
    (he : CancelStep j e) :
    ∃ job, s.db.jobs.lookup j = some job ∧ job.state ∈ cancelStates ∧
      (job.state ∈ terminalStates → job.state = .cancelled) := by
  obtain ⟨⟨now, result, -, hcancel⟩, job₀, hrow₀, hqueued₀⟩ := he
  obtain ⟨job, hrow, hstate⟩ := Db.cancelJob_state hcancel
  have hmem : e ∈ h₁ ++ e :: h₂ := List.mem_append_right h₁ List.mem_cons_self
  obtain ⟨job', hrow', hkept⟩ := (writes_of_mem hrun hmem j).kept hrow₀
  cases hrow.symm.trans hrow'
  have hstable := hrun.stable
    (P := fun s => ∃ job, s.db.jobs.lookup j = some job ∧ job.queuedAt.isSome ∧
      job.state ∈ cancelStates)
    ⟨job, hrow, hkept.queuedAt ▸ hqueued₀, hstate⟩ ?_
  · obtain ⟨job, hrow, -, hstate⟩ := hstable.1
    refine ⟨job, hrow, hstate, fun hterminal => ?_⟩
    rcases mem_cancelStates.1 hstate with hcancelling | hcancelled
    · rw [hcancelling] at hterminal
      exact absurd hterminal (by decide)
    · exact hcancelled
  · rintro e' he' ⟨job, hrow, hqueued, hstate⟩
    have hpath := writes_of_mem hrun (List.mem_append_left _ he') j
    obtain ⟨job', hrow', hstate'⟩ := hpath.cancelled hrow hqueued hstate
    obtain ⟨job'', hrow'', hkept⟩ := hpath.kept hrow
    cases hrow'.symm.trans hrow''
    exact ⟨job', hrow', hkept.queuedAt ▸ hqueued, hstate'⟩

/-- A leased job whose cancellation is requested. -/
def cancelLeased : List Op :=
  [.enqueue 0 (promptSubmission true) ("chat", "1") none 0 {}, .claim ⟨0, 0⟩ 0 60 0 none,
   .cancelJob 0 1]

theorem cancelLeased_run :
    Run (system documentedRack) (trace (after documentedRack) {} cancelLeased)
      (cancelLeased.foldl (after documentedRack) {}) :=
  .replay ⟨promptSubmission_accepted true, trivial, trivial, trivial⟩

/-- The reaper finds its lease expired: the job is idempotent, and still is not queued again. -/
theorem cancelJob_decisive_reaped :
    ∃ job, ((cancelLeased.foldl (after documentedRack) {}).after documentedRack
        (.reapExpiredLeases (seconds 100))).db.jobs.lookup 0 = some job ∧
      job.state ∈ cancelStates ∧ (job.state ∈ terminalStates → job.state = .cancelled) := by
  have hreaped : Run (system documentedRack) ([_] ++ _ :: [_, _]) _ :=
    run_step cancelLeased_run (.reapExpiredLeases (seconds 100)) trivial
  refine cancelJob_decisive hreaped ⟨⟨1, _, rfl, rfl⟩, ?_⟩
  exact ⟨_, rfl, (rfl : (some 0 : Option Instant).isSome = true)⟩

end Store

end LoadCoach

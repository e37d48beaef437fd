import LoadCoach.Probes
import LoadCoach.Serving.Ended

/-! # Whether every probe is settled

A worker or a synchronous execution that is granted the probe of a half-open breaker should have
reported it with an attempt on the subject, or handed it back, when it leaves its loop.  The loops
hand a probe back on a cancellation that they find before or after a provider call, and report it
with the attempt's row.  Every other way out between the grant and that row loses it
(`NoneAbandoned`): the job's attempts are exhausted when the worker comes to the candidate, the
worker is stopped while it re-admits the job, one of its transactions is refused, an exception ends
the attempt, or a request is refused before a provider is called.

In the runs in which none of these meets a pending probe, whoever is out of its loop has no probe
pending (`probes_settled`).  A worker's statement is taken apart once, by `World.Moves`, and an
execution's by `Process.Moves`. -/

namespace LoadCoach

open Foundations

variable {rack : ModelRack}

/-! ### Where a probe may be pending -/

namespace Point

/-- The locals between a candidate's probe and the transaction that records its attempt. -/
def underway? : Point → Option AttemptLoop
  | startingRetry l _ | resuming l _ | readmitting l _ | counting l | checkingToken l
  | checkingRow l | starting l | calling l | settling l _ | recording l _ => some l
  | _ => none

/-- The probe that is pending at a point, if any, is the candidate's, and the worker knows. -/
def Probing (holds : Bool) (pending : List String) (p : Point) : Prop :=
  match p.underway? with
  | some l => pending ⊆ [l.candidate.subjectCanonicalId] ∧ (pending ≠ [] → holds = true)
  | none => pending = []

variable {holds : Bool} {pending pending' : List String} {p : Point} {l : AttemptLoop}

theorem probing_nil (p : Point) : p.Probing holds [] := by
  unfold Probing
  split
  · exact ⟨List.nil_subset _, fun h => absurd rfl h⟩
  · rfl

theorem Probing.subset (h : p.Probing holds pending) (hsubset : pending' ⊆ pending) :
    p.Probing holds pending' := by
  unfold Probing at h ⊢
  split
  · rename_i l hl
    rw [hl] at h
    refine ⟨List.Subset.trans hsubset h.1, fun hne => h.2 ?_⟩
    rintro rfl
    exact hne (List.subset_nil.1 hsubset)
  · rename_i hnone
    rw [hnone] at h
    subst h
    exact List.subset_nil.1 hsubset

theorem probing_underway (hp : p.underway? = some l) : p.Probing holds pending ↔
    pending ⊆ [l.candidate.subjectCanonicalId] ∧ (pending ≠ [] → holds = true) := by
  rw [Probing, hp]

theorem Probing.eq_nil (h : p.Probing holds pending) (hp : p.underway? = none) :
    pending = [] := by
  rwa [Probing, hp] at h

/-- A probe of the candidate, handed back or reported, is no longer pending. -/
theorem Probing.settled (h : p.Probing holds pending) (hp : p.underway? = some l) :
    pending.filter (· ≠ l.candidate.subjectCanonicalId) = [] := by
  rw [probing_underway hp] at h
  rw [List.filter_eq_nil_iff]
  intro subject hsubject
  simpa using h.1 hsubject

end Point

theorem runAttempt_subject (attemptNumber : ℕ) (candidate : RankedCandidate)
    (collected : Collected) :
    (runAttempt attemptNumber candidate collected).record.subjectCanonicalId =
      candidate.subjectCanonicalId := by
  unfold runAttempt
  split <;> rfl

namespace SyncPoint

/-- The subjects an execution has an attempt on. -/
def subjects (st : Execution Unit) : List String :=
  st.records.map AttemptRecord.subjectCanonicalId

/-- The probes that are pending at a point are on subjects with an attempt, or on the candidate
that is about to be called. -/
def Probing (pending : List String) : SyncPoint → Prop
  | entering l | correcting l _ => pending ⊆ subjects l.st
  | building l t | calling l t => pending ⊆ subjects l.st ++ [t.candidate.subjectCanonicalId]
  | persisting _ executed => pending ⊆ subjects executed.toExecution
  | _ => pending = []

/-- The attempts an exception leaves to be written. -/
def reportable (e : Raised) : SyncPoint → List AttemptRecord
  | building l _ | calling l _ | correcting l _ =>
      if e.validationError?.isSome then l.st.records else []
  | _ => []

end SyncPoint

/-! ### The property and the condition -/

namespace Process

/-- Whoever is out of its loop has settled every probe it was granted. -/
structure Settled (s : Process) : Prop where
  workers : ∀ w, (s.world.point w).underway? = none → s.pending w = []
  executions : ∀ j, ¬ (s.point j).Running → s.syncPending j = []

/-- A worker leaves its candidate without a word on the probe. -/
def Abandons (s : Process) (w : Owner) : Act → Prop
  | .advance w' => w' = w ∧
      ((∃ l reason, s.world.point w = .resuming l reason ∧
          s.world.stopped w l.job.jobId = true) ∨
        ∃ l, s.world.point w = .counting l ∧ l.job.maxAttempts ≤ l.attemptNumber)
  | .commit w' now totalMs => w' = w ∧ ∃ e x, (s.world.point w).tx totalMs = some e ∧
      e.2.run w e.1.jobId now s.world.store.db = .error x
  | .raise w' _ _ => w' = w
  | _ => False

/-- No probe that is pending is abandoned: no worker that has one leaves its candidate without a
word, and an exception in an execution that has some leaves an attempt on each to be written. -/
def NoneAbandoned (e : Foundations.Step Process ProcessAct) : Prop :=
  match e.act with
  | .world a => ∀ w, e.pre.Abandons w a → e.pre.pending w = []
  | .sync j (.raise x) =>
      e.pre.syncPending j ⊆ ((e.pre.point j).reportable x).map AttemptRecord.subjectCanonicalId
  | .sync j (.answer collected parses) => ∀ l t, e.pre.point j = .calling l t →
      l.schemaUnsupported collected parses = true → e.pre.syncPending j = []
  | _ => True

/-! ### The workers -/

variable {s s' : Process} {w : Owner} {j : JobId} {a : Act}
  {h : List (Foundations.Step Process ProcessAct)}

/-- The probe a worker may have pending fits its point. -/
def WorkerProbing (s : Process) (w : Owner) : Prop :=
  (s.world.point w).Probing (s.holds w) (s.pending w)

theorem control_pending (s : Process) (a : Act) (w : Owner) :
    (s.control a).pending w ⊆ s.pending w := by
  have hsettle : ∀ w' subject, (s.settle w' subject).pending w ⊆ s.pending w := by
    intro w' subject
    by_cases hw : w = w'
    · subst hw
      simp [settle]
    · simp [settle, hw]
  unfold control
  split
  · split
    · exact hsettle _ _
    · exact List.Subset.refl _
  · split
    · exact hsettle _ _
    · exact List.Subset.refl _
  · exact List.Subset.refl _

theorem probing_of_nil (hpending : s.pending w = []) (a : Act) (p : Point) :
    p.Probing (s.holds w) ((s.control a).pending w) := by
  have hnil : (s.control a).pending w = [] := by
    have hsubset := control_pending s a w
    rw [hpending] at hsubset
    exact List.subset_nil.1 hsubset
  rw [hnil]
  exact Point.probing_nil p

theorem probing_of_released {l : AttemptLoop} (hprobing : s.WorkerProbing w)
    (hunderway : (s.world.point w).underway? = some l)
    (hreleased : s.released w = if s.holds w then some l.candidate.subjectCanonicalId else none)
    (p : Point) : p.Probing (s.holds w) ((s.control (.advance w)).pending w) := by
  by_cases hpending : s.pending w = []
  · exact probing_of_nil hpending _ p
  · have hholds := ((Point.probing_underway hunderway).1 hprobing).2 hpending
    rw [hholds, if_pos rfl] at hreleased
    have hnil : (s.control (.advance w)).pending w = [] := by
      simp only [control, hreleased, settle, Function.update_self]
      exact hprobing.settled hunderway
    rw [hnil]
    exact Point.probing_nil p

theorem probing_advanced (hprobing : s.WorkerProbing w)
    (hnone : s.Abandons w (.advance w) → s.pending w = []) :
    (s.world.advanced w).Probing (s.holds w) ((s.control (.advance w)).pending w) := by
  have hkeep := Point.Probing.subset hprobing (control_pending s (.advance w) w)
  cases hpoint : s.world.point w with
  | startingRetry | readmitting | starting | calling | recording =>
      have hstay : s.world.advanced w = s.world.point w := by
        simp only [World.advanced, hpoint]
      rw [hstay]
      exact hkeep
  | resuming l reason =>
      by_cases hstopped : s.world.stopped w l.job.jobId = true
      · exact probing_of_nil (hnone ⟨rfl, .inl ⟨l, reason, hpoint, hstopped⟩⟩) _ _
      · have hnext : s.world.advanced w = .readmitting l reason := by
          simp only [World.advanced, hpoint, if_neg hstopped]
        rw [hpoint] at hkeep
        rw [hnext]
        exact hkeep
  | counting l =>
      by_cases hmax : l.job.maxAttempts ≤ l.attemptNumber
      · exact probing_of_nil (hnone ⟨rfl, .inr ⟨l, hpoint, hmax⟩⟩) _ _
      · have hnext : s.world.advanced w = .checkingToken
            { l with
              attemptNumber := l.attemptNumber + 1
              attemptsHere := l.attemptsHere + 1 } := by
          simp only [World.advanced, hpoint, if_neg hmax]
        rw [hpoint] at hkeep
        rw [hnext]
        exact hkeep
  | checkingToken l =>
      by_cases hstopped : s.world.stopped w l.job.jobId = true
      · refine probing_of_released hprobing (by rw [hpoint]; rfl) ?_ _
        simp only [released, World.advanced, hpoint, if_pos hstopped]
      · have hnext : s.world.advanced w = .checkingRow l := by
          simp only [World.advanced, hpoint, if_neg hstopped]
        rw [hpoint] at hkeep
        rw [hnext]
        exact hkeep
  | checkingRow l =>
      by_cases hrequested : s.world.cancelRequested l.job.jobId = true
      · refine probing_of_released hprobing (by rw [hpoint]; rfl) ?_ _
        simp only [released, World.advanced, hpoint, if_pos hrequested]
      · have hnext : s.world.advanced w = .starting l := by
          simp only [World.advanced, hpoint, if_neg hrequested]
        rw [hpoint] at hkeep
        rw [hnext]
        exact hkeep
  | settling l o =>
      by_cases hcancelled : (o.cancelled ||
          (s.world.entry w l.job.jobId).any InFlightEntry.cancelled) = true
      · refine probing_of_released hprobing (by rw [hpoint]; rfl) ?_ _
        simp only [released, World.advanced, hpoint, if_pos hcancelled]
      · have hnext : s.world.advanced w = .recording l o := by
          simp only [World.advanced, hpoint, if_neg hcancelled]
        rw [hpoint] at hkeep
        rw [hnext]
        exact hkeep
  | _ => exact probing_of_nil (hprobing.eq_nil (by rw [hpoint]; rfl)) _ _

theorem probing_committed {now : Instant} {totalMs : ℤ} {e : ClaimedJob × WorkerTx} {db : Db}
    (hrun : Run (system rack) h s) (hprobing : s.WorkerProbing w)
    (htx : (s.world.point w).tx totalMs = some e)
    (hcommits : e.2.run w e.1.jobId now s.world.store.db = .ok db) :
    (s.world.point w).committed.Probing (s.holds w)
      ((s.control (.commit w now totalMs)).pending w) := by
  have hkeep := Point.Probing.subset hprobing (control_pending s (.commit w now totalMs) w)
  cases hpoint : s.world.point w with
  | startingRetry | readmitting | starting =>
      rw [hpoint] at hkeep
      exact hkeep
  | recording l o =>
      obtain ⟨h', hworld⟩ := worldRun hrun
      have hvalid := World.valid hworld w
      rw [hpoint] at hvalid htx
      obtain ⟨-, -, -, ⟨collected, rfl⟩, -⟩ := hvalid
      have hrecorded : s.recorded w now totalMs = some l.candidate.subjectCanonicalId := by
        rw [← runAttempt_subject l.attemptNumber l.candidate collected]
        obtain ⟨job, tx⟩ := e
        simp only [recorded, hpoint, htx, hcommits]
      have hnil : (s.control (.commit w now totalMs)).pending w = [] := by
        simp only [control, hrecorded, settle, Function.update_self]
        exact hprobing.settled (by rw [hpoint]; rfl)
      rw [hnil]
      exact Point.probing_nil _
  | resuming | counting | checkingToken | checkingRow | calling | settling =>
      rw [hpoint] at htx
      cases htx
  | _ => exact probing_of_nil (hprobing.eq_nil (by rw [hpoint]; rfl)) _ _

/-- **A worker's statement that abandons no probe keeps the pending one at its candidate.** -/
theorem probing_after_world (hrun : Run (system rack) h s)
    (henabled : s.Enabled rack (.world a)) (hnone : s.Abandons w a → s.pending w = [])
    (hprobing : s.WorkerProbing w) : (s.after rack (.world a)).WorkerProbing w := by
  have hholds : (s.after rack (.world a)).holds = s.holds := by
    change (s.control a).holds = s.holds
    unfold control
    split
    · split <;> rfl
    · split <;> rfl
    · rfl
  have hkeep := Point.Probing.subset hprobing (control_pending s a w)
  have hmoves := World.moves rack s.world a w
  unfold WorkerProbing
  rw [hholds]
  change ((s.world.after rack a).point w).Probing (s.holds w) ((s.control a).pending w)
  generalize (s.world.after rack a).point w = p at hmoves ⊢
  generalize (s.world.after rack a).calls w = call at hmoves
  have hleft : ∀ {p' : Point}, (s.world.point w) = p' → p'.underway? = none →
      p.Probing (s.holds w) ((s.control a).pending w) := by
    intro p' hpoint hunderway
    exact probing_of_nil (hprobing.eq_nil (by rw [hpoint, hunderway])) a p
  cases hmoves with
  | stay => exact hkeep
  | claim hpoint | register hpoint | route hpoint | leave hpoint => exact hleft hpoint rfl
  | probe => exact henabled.elim
  | advance => exact probing_advanced hprobing hnone
  | commit htx hcommits => exact probing_committed hrun hprobing htx hcommits
  | refuse htx hrefused => exact probing_of_nil (hnone ⟨rfl, _, _, htx, hrefused⟩) _ _
  | answer hpoint =>
      rw [hpoint] at hkeep
      exact hkeep
  | raiseCall => exact probing_of_nil (hnone rfl) _ _
  | raise => exact probing_of_nil (hnone rfl) _ _

theorem enter_underway (l : AttemptLoop) :
    ∃ l', (Point.enter l).underway? = some l' ∧ l'.candidate = l.candidate := by
  unfold Point.enter
  dsimp only
  split_ifs
  · exact ⟨_, rfl, rfl⟩
  · unfold Point.readmitJob
    split_ifs <;> exact ⟨_, rfl, rfl⟩

theorem probing_after_probe (hprobing : s.WorkerProbing w) (w' : Owner) (now : Instant) :
    (s.after rack (.probe w' now)).WorkerProbing w := by
  change (s.probed rack w' now).WorkerProbing w
  unfold probed
  split
  · rename_i l hpoint
    by_cases hw : w = w'
    · subst hw
      have hpending : s.pending w = [] := hprobing.eq_nil (by rw [hpoint]; rfl)
      unfold WorkerProbing
      dsimp only
      cases hgranted : (s.breakers.ask l.candidate.subjectCanonicalId now).1 with
      | true =>
          obtain ⟨l', hunderway, hcandidate⟩ := enter_underway l
          have hnext : (s.world.after rack (.probe w (!true &&
              (s.breakers.ask l.candidate.subjectCanonicalId now).2.1))).point w =
                .enter l := by
            simp [World.after, World.control, hpoint]
          rw [hnext, if_pos rfl, Function.update_self, Function.update_self, hpending,
            Point.probing_underway hunderway, hcandidate]
          exact ⟨List.Subset.refl _, fun _ => rfl⟩
      | false =>
          rw [if_neg (by simp), hpending]
          exact Point.probing_nil _
    · have hstay : ∀ busy, (s.world.after rack (.probe w' busy)).point w = s.world.point w := by
        intro busy
        simp [World.after, World.control, hpoint, hw]
      unfold WorkerProbing
      dsimp only
      rw [hstay, Function.update_of_ne hw]
      split_ifs
      · rw [Function.update_of_ne hw]
        exact hprobing
      · exact hprobing
  · exact hprobing

end Process

/-! ### The executions -/

namespace SyncPoint

variable {pending pending' : List String} {l : SyncLoop} {t : SyncTry}

theorem probing_nil (p : SyncPoint) : p.Probing [] := by
  cases p with
  | entering | building | calling | correcting | persisting => exact List.nil_subset _
  | _ => rfl

theorem Probing.subset {p : SyncPoint} (h : p.Probing pending) (hsubset : pending' ⊆ pending) :
    p.Probing pending' := by
  cases p with
  | entering | building | calling | correcting | persisting => exact List.Subset.trans hsubset h
  | _ =>
      have hnil : pending = [] := h
      rw [hnil] at hsubset
      exact List.subset_nil.1 hsubset

theorem entered_probing (h : pending ⊆ subjects l.st) (hnone : l.rest.head?.join = none) :
    (entered l false false).Probing pending := by
  unfold entered
  split
  · exact h
  · exact h
  · rename_i candidate rest hrest
    rw [hrest] at hnone
    cases hnone

theorem entered_granted {candidate : RankedCandidate} (h : pending ⊆ subjects l.st)
    (hcandidate : l.rest.head?.join = some candidate) (holdsProbe probeBusy : Bool) :
    (entered l holdsProbe probeBusy).Probing
      (if holdsProbe then pending ++ [candidate.subjectCanonicalId] else pending) := by
  obtain ⟨rest, hrest⟩ : ∃ rest, l.rest = some candidate :: rest := by
    cases hrest : l.rest with
    | nil =>
        rw [hrest] at hcandidate
        cases hcandidate
    | cons c rest =>
        rw [hrest] at hcandidate
        exact ⟨rest, congrArg (· :: rest) hcandidate⟩
  simp only [entered, hrest]
  cases holdsProbe with
  | true =>
      exact List.append_subset.2
        ⟨fun subject hsubject => List.mem_append_left _ (h hsubject),
          List.subset_append_right _ _⟩
  | false =>
      cases probeBusy with
      | true => exact h
      | false => exact fun subject hsubject => List.mem_append_left _ (h hsubject)

theorem attempted_subjects (l : SyncLoop) (t : SyncTry) (collected : Collected) :
    subjects (attempted l t collected).st =
      subjects l.st ++ [t.candidate.subjectCanonicalId] := by
  simp [attempted, Execution.attempted, outcome, subjects, runAttempt_subject]

theorem answered_probing (h : pending ⊆ subjects l.st ++ [t.candidate.subjectCanonicalId])
    (collected : Collected) : (answered l t collected).Probing pending := by
  rw [← attempted_subjects l t collected] at h
  unfold answered
  split
  · rename_i executed hstop
    change pending ⊆ subjects executed.toExecution
    rw [judge_stop hstop]
    exact h
  · exact h
  · exact h

theorem corrected_probing (h : pending ⊆ subjects l.st) : (corrected l t).Probing pending := by
  unfold corrected
  split
  · exact h
  · exact fun subject hsubject => List.mem_append_left _ (h hsubject)

theorem raised_probing {p : SyncPoint} {e : Raised}
    (hreportable : pending ⊆ (p.reportable e).map AttemptRecord.subjectCanonicalId) :
    (p.raised e).Probing pending := by
  cases p with
  | building l t | calling l t | correcting l t =>
      simp only [reportable, raised] at hreportable ⊢
      cases he : e.validationError? with
      | some refusal =>
          rw [he] at hreportable
          exact hreportable
      | none =>
          rw [he] at hreportable
          exact List.subset_nil.1 hreportable
  | _ =>
      have hnil : pending = [] := List.subset_nil.1 hreportable
      rw [hnil]
      exact probing_nil _

end SyncPoint

namespace Process

variable {s s' : Process} {j : JobId} {h : List (Foundations.Step Process ProcessAct)}

/-- The probes an execution may have pending fit its point. -/
def SyncProbing (s : Process) (j : JobId) : Prop := (s.point j).Probing (s.syncPending j)

theorem syncProbing_of_point {p : SyncPoint} (hpoint : s.point j = p)
    (h : p.Probing (s.syncPending j)) : s.SyncProbing j := by
  rw [SyncProbing, hpoint]
  exact h

theorem leave_syncPending : (s.leave rack j).syncPending = s.syncPending := by
  unfold leave
  split_ifs <;> rfl

theorem raise_syncProbing {e : Raised}
    (hreportable : s.syncPending j ⊆
      ((s.point j).reportable e).map AttemptRecord.subjectCanonicalId) :
    (s.raise rack j e).SyncProbing j := by
  have hraised := SyncPoint.raised_probing hreportable
  rcases raise_cases rack s j e with ⟨hfinished, hraise⟩ | ⟨-, hraise⟩
  · rw [hfinished] at hraised
    rw [hraise]
    refine syncProbing_of_point (p := .finished) (by rw [leave_point, Function.update_self]) ?_
    rw [leave_syncPending]
    exact hraised
  · rw [hraise]
    exact syncProbing_of_point (Function.update_self ..) hraised

theorem committed_syncProbing {now : Instant} {totalMs : ℤ} {op : Op}
    (h : s.SyncProbing j) (hop : (s.point j).op j now totalMs = some op) :
    (s.point j).committed.Probing (s.unreported j (s.point j)) := by
  unfold SyncProbing at h
  cases hpoint : s.point j <;> rw [hpoint] at h hop <;> cases hop
  case refusing => exact h
  case announcing =>
    have hnil : s.syncPending j = [] := h
    change s.syncPending j ⊆ _
    rw [hnil]
    exact List.nil_subset _
  case persisting decision executed =>
    change (s.syncPending j).filter _ = []
    rw [List.filter_eq_nil_iff]
    intro subject hsubject
    obtain ⟨record, hrecord, hsame⟩ := List.mem_map.1 (h hsubject)
    simp only [Bool.not_eq_true, Bool.not_eq_false', List.any_eq_true, beq_iff_eq]
    exact ⟨record, hrecord, hsame⟩

/-- **A statement of an execution that abandons no probe keeps the pending ones at their
subjects.** -/
theorem Moves.syncProbing {a : SyncAct} (hmoves : Moves rack s j a s')
    (hrun : Run (system rack) h s) (hnone : NoneAbandoned ⟨s, .sync j a, s'⟩)
    (hprobing : s.SyncProbing j) : s'.SyncProbing j := by
  have hbefore := hprobing
  unfold SyncProbing at hbefore
  cases hmoves with
  | stay => exact hprobing
  | begin hpoint | prepare hpoint | route hpoint | load hpoint | refresh hpoint | build hpoint =>
      rw [hpoint] at hbefore
      exact syncProbing_of_point (Function.update_self ..) hbefore
  | commit hop =>
      obtain ⟨db', hcommits⟩ := commit_ok hrun hop
      unfold Process.commit
      rw [hcommits]
      refine syncProbing_of_point (Function.update_self ..) ?_
      change (s.point j).committed.Probing (Function.update s.syncPending j _ j)
      rw [Function.update_self]
      exact committed_syncProbing hprobing hop
  | @enter l now hpoint =>
      rw [hpoint] at hbefore
      unfold Process.enter
      split
      · exact syncProbing_of_point (Function.update_self ..)
          (SyncPoint.entered_probing hbefore ‹_›)
      · rename_i candidate hcandidate
        refine syncProbing_of_point (Function.update_self ..) ?_
        have hentered := SyncPoint.entered_granted hbefore hcandidate
          (s.breakers.ask candidate.subjectCanonicalId now).1
          (s.breakers.ask candidate.subjectCanonicalId now).2.1
        dsimp only
        split_ifs with hgranted
        · rw [Function.update_self]
          rwa [if_pos hgranted] at hentered
        · rwa [if_neg hgranted] at hentered
  | @answer l t collected parses hpoint =>
      rw [hpoint] at hbefore
      have hanswered := SyncPoint.answered_probing hbefore collected
      unfold Process.answer
      dsimp only
      split
      · refine syncProbing_of_point (Function.update_self ..) ?_
        dsimp only
        rw [Function.update_self]
        exact hanswered.subset (List.filter_subset_self _)
      · exact syncProbing_of_point (Function.update_self ..) hanswered
  | unsupported hpoint hschema =>
      refine raise_syncProbing ?_
      rw [hnone _ _ hpoint hschema]
      exact List.nil_subset _
  | correct hpoint =>
      rw [hpoint] at hbefore
      exact syncProbing_of_point (Function.update_self ..) (SyncPoint.corrected_probing hbefore)
  | raise => exact raise_syncProbing hnone

/-- **The step lemma.**  A step that abandons no probe keeps every pending one where its worker
or execution will settle it. -/
theorem probing_after {a : ProcessAct} (hrun : Run (system rack) h s) (henabled : s.Enabled rack a)
    (hnone : NoneAbandoned ⟨s, a, s.after rack a⟩)
    (hprobing : (∀ w, s.WorkerProbing w) ∧ ∀ j, s.SyncProbing j) :
    (∀ w, (s.after rack a).WorkerProbing w) ∧ ∀ j, (s.after rack a).SyncProbing j := by
  obtain ⟨hworkers, hexecutions⟩ := hprobing
  cases a with
  | world a =>
      have hkeeps := after_world_keeps rack s a
      refine ⟨fun w => probing_after_world hrun henabled (hnone w) (hworkers w), fun j => ?_⟩
      unfold SyncProbing
      rw [hkeeps.point, hkeeps.syncPending]
      exact hexecutions j
  | probe w now =>
      have hkeeps := after_probe_keeps rack s w now
      refine ⟨fun w' => probing_after_probe (hworkers w') w now, fun j => ?_⟩
      unfold SyncProbing
      rw [hkeeps.point, hkeeps.syncPending]
      exact hexecutions j
  | update => exact ⟨hworkers, hexecutions⟩
  | sync k a =>
      have hmoves := moves rack s k a
      have hframe := hmoves.frame
      refine ⟨fun w => ?_, fun j => ?_⟩
      · have hpoint := hmoves.world_point (sound hrun)
        unfold WorkerProbing
        change ((s.stepped rack k a).world.point w).Probing
          ((s.stepped rack k a).holds w) ((s.stepped rack k a).pending w)
        rw [hpoint, hframe.holds, hframe.pending]
        exact hworkers w
      · by_cases hk : j = k
        · subst hk
          exact hmoves.syncProbing hrun hnone (hexecutions j)
        · unfold SyncProbing
          change ((s.stepped rack k a).point j).Probing ((s.stepped rack k a).syncPending j)
          rw [hframe.point j hk, hframe.syncPending j hk]
          exact hexecutions j

theorem settled_of_probing (hworkers : ∀ w, s.WorkerProbing w)
    (hexecutions : ∀ j, s.SyncProbing j) : s.Settled := by
  refine ⟨fun w hunderway => (hworkers w).eq_nil hunderway, fun j hrunning => ?_⟩
  have hsync := hexecutions j
  unfold SyncProbing at hsync
  cases hpoint : s.point j <;> rw [hpoint] at hsync hrunning
  case idle | refreshing | finished => exact hsync
  all_goals exact absurd trivial hrunning

/-! ### The main result -/

/-- **No probe is lost.**  In a run in which no pending probe is abandoned, whoever is out of its
loop has settled every probe it was granted. -/
theorem probes_settled (hrun : Run (system rack) h s) (hnone : ∀ e ∈ h, NoneAbandoned e) :
    s.Settled := by
  have hprobing : (∀ w, s.WorkerProbing w) ∧ ∀ j, s.SyncProbing j := by
    induction hrun with
    | start hs =>
        rw [Set.mem_singleton_iff.1 hs]
        exact ⟨fun _ => rfl, fun _ => rfl⟩
    | step hpast hnext ih =>
        obtain ⟨henabled, rfl⟩ := hnext
        rw [List.forall_mem_cons] at hnone
        exact probing_after hpast henabled hnone.1 (ih hnone.2)
  exact settled_of_probing hprobing.1 hprobing.2

/-! ### A request that is refused with the probe -/

/-- A breaker trips and cools down, and a request comes to the subject with its probe. -/
def grantedProbe : List ProcessAct :=
  [.update Probes.failures (seconds 1),
   .update Probes.failures (seconds 301),
   .world (.store (.reserveSyncJob 0 promptRequest ("chat", "1") (seconds 301) 24)),
   .sync 0 .begin,
   .sync 0 .prepare,
   .sync 0 (.route schemaDecision),
   .sync 0 (.load none),
   .sync 0 (.commit (seconds 301) 0),
   .sync 0 (.enter (seconds 301))]

/-- The provider library refuses the request before any call is made. -/
def refusedProbe : List ProcessAct :=
  grantedProbe ++ [.sync 0 (.raise (.suite "VALIDATION_ERROR" "temperature" [])),
    .sync 0 (.commit (seconds 302) 0), .sync 0 .refresh]

theorem refusedProbe_run : Run (system documentedRack)
    (trace (after documentedRack) {} refusedProbe)
    (refusedProbe.foldl (after documentedRack) {}) := by
  refine .replay ⟨trivial, trivial, ⟨trivial, trivial, promptRequest_accepted⟩, rfl, ?_⟩
  repeat' constructor

/-- The request is over, and nobody reports or hands back its probe. -/
theorem refusedProbe_leaks : ¬ ∀ h s, Run (system documentedRack) h s → s.Settled := by
  intro hclaim
  have hsettled := (hclaim _ _ refusedProbe_run).executions 0 (by decide +kernel)
  exact absurd hsettled (by decide +kernel)

/-- The provider answers the probe. -/
def answeredProbe : List ProcessAct :=
  grantedProbe ++ [.sync 0 .build, .sync 0 (.answer {} false), .sync 0 (.commit (seconds 302) 0),
    .sync 0 .refresh]

theorem answeredProbe_run :
    Run (system documentedRack) (trace (after documentedRack) {} answeredProbe)
      (answeredProbe.foldl (after documentedRack) {}) := by
  refine .replay ⟨trivial, trivial, ⟨trivial, trivial, promptRequest_accepted⟩, rfl, ?_⟩
  repeat' constructor

theorem answeredProbe_noneAbandoned :
    ∀ e ∈ trace (after documentedRack) {} answeredProbe, NoneAbandoned e := by
  apply forall_mem_trace
  refine ⟨trivial, trivial, fun _ hstore => hstore.elim, trivial, trivial, trivial, trivial,
    trivial, trivial, trivial, ?_, trivial, trivial, trivial⟩
  intro l t _ hschema
  simp [SyncLoop.schemaUnsupported] at hschema

/-- The probe that was granted is pending, and the attempt settles it. -/
theorem probes_settled_answeredProbe :
    (grantedProbe.foldl (after documentedRack) {}).syncPending 0 = ["m"] ∧
      (answeredProbe.foldl (after documentedRack) {}).syncPending 0 = [] :=
  ⟨by decide +kernel, (probes_settled answeredProbe_run answeredProbe_noneAbandoned).executions 0
    (by decide +kernel)⟩

end Process

end LoadCoach

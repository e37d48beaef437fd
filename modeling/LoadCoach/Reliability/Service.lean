import Mathlib.Data.Prod.Lex
import Mathlib.Data.String.Basic
import LoadCoach.CircuitBreaker
import LoadCoach.Foundations.Text
import LoadCoach.Reliability.Statistics
import LoadCoach.Store.System

/-! # The reliability service

The read and write around the statistics (`services/reliability.py`) and the verdicts of callers
(`services/feedback.py`).  Attempts and verdicts are counted for a *subject*, a model with an
adapter or without, on a task; `recomputePair` writes the three windows of one subject from the
raw rows, `recomputeAll` those of every subject there is, and `factorsForTask` is what routing
reads.

Recomputing one subject writes its rows and no others (`lookup_recomputePair_self`,
`lookup_recomputePair_of_ne`), so recomputing all of them writes of each subject what recomputing
it alone would (`lookup_recomputeAll`). -/

namespace LoadCoach.Reliability

open Foundations

/-! ### Tables -/

/-- What statistics are kept of: a model, an adapter (`""`: the bare model) and a task. -/
@[ext]
structure Subject where
  modelId : String
  taskProfileId : String
  adapterKey : String := ""
deriving DecidableEq, Repr

/-- A row of `feedback`. -/
structure FeedbackRow where
  accepted : Bool
  qualityScore : Option ℚ := none
  edited : Bool := false
  validationPassed : Option Bool := none
  validationDetail : Option Json := none
  notes : Option String := none
  createdAt : Instant
  updatedAt : Instant

/-- A row of `reliability_stats`. -/
structure ReliabilityStat where
  adapterId : Option String
  stats : WindowStats
  circuitState : BreakerState := .closed
  circuitOpenedAt : Option Instant := none
  updatedAt : Instant
deriving DecidableEq, Repr

/-- The job store, the verdicts and the statistics. -/
structure Tables where
  store : Store := {}
  feedback : Table (JobId × String) FeedbackRow := ∅
  reliabilityStats : Table (Subject × String) ReliabilityStat := ∅

/-! ### Samples -/

/-- The subject an attempt counts for. -/
def Subject.ofAttempt (db : Db) (row : JobAttempt) : Option Subject := do
  let modelId ← row.record.modelId
  let job ← db.jobs.lookup row.jobId
  pure ⟨modelId, job.taskProfileId, row.record.adapterId.getD ""⟩

/-- The subject a verdict on a job counts for. -/
def Subject.ofFeedback (db : Db) (jobId : JobId) : Option Subject := do
  let job ← db.jobs.lookup jobId
  let modelId ← job.data.selectedModelId
  pure ⟨modelId, job.taskProfileId, job.data.selectedAdapterId.getD ""⟩

/-- An attempt that completed, as a sample. -/
def outcomeOfAttempt (row : JobAttempt) : Option AttemptOutcome :=
  row.record.completedAt.map fun completedAt =>
    { instant := completedAt
      outcome := row.record.outcome
      latencyMs := row.record.providerMs
      outputTokens := row.record.outputTokens }

/-- A verdict, as a sample. -/
def outcomeOfFeedback (row : FeedbackRow) : FeedbackOutcome where
  instant := row.updatedAt
  accepted := row.accepted
  qualityScore := row.qualityScore
  edited := row.edited
  validationPassed := row.validationPassed

namespace Tables

variable (t : Tables) (subject : Subject) (now : Instant)

/-- Every completed attempt on one subject. -/
def attemptOutcomes : List AttemptOutcome :=
  (t.store.db.jobAttempts.filter fun row =>
    decide (Subject.ofAttempt t.store.db row = some subject)).filterMap outcomeOfAttempt

/-- Every verdict on a job that ran on one subject. -/
def feedbackOutcomes : List FeedbackOutcome :=
  (t.feedback.select fun key _ =>
    decide (Subject.ofFeedback t.store.db key.1 = some subject)).map
      fun row => outcomeOfFeedback row.2

/-! ### Recomputation -/

/-- The statistics of one subject's window. -/
def statsOf (window : Window) : WindowStats :=
  computeStats (t.attemptOutcomes subject) (t.feedbackOutcomes subject) window now

/-- What a recomputation makes of a row; the breaker columns are left alone. -/
def statRow (window : Window) (old : Option ReliabilityStat) : ReliabilityStat where
  adapterId := if subject.adapterKey = "" then none else some subject.adapterKey
  stats := t.statsOf subject now window
  circuitState := (old.map ReliabilityStat.circuitState).getD .closed
  circuitOpenedAt := old.bind ReliabilityStat.circuitOpenedAt
  updatedAt := now

/-- Recompute the three window rows of one subject from its raw rows. -/
def recomputePair : Tables :=
  { t with
    reliabilityStats := windows.foldl (fun stats window =>
      stats.upsert (subject, window.name) (t.statRow subject now window)) t.reliabilityStats }

/-- Every subject with an attempt, a verdict or a row. -/
def knownPairs : List Subject :=
  let attempted := t.store.db.jobAttempts.filterMap (Subject.ofAttempt t.store.db)
  let judged := t.feedback.keys.filterMap fun key => Subject.ofFeedback t.store.db key.1
  let stored := t.reliabilityStats.keys.map Prod.fst
  -- `sorted` over the set of triples
  (attempted ++ judged ++ stored).dedup.mergeSort fun a b =>
    decide (toLex (a.modelId, toLex (a.taskProfileId, a.adapterKey)) ≤
      toLex (b.modelId, toLex (b.taskProfileId, b.adapterKey)))

/-- Recompute every known pair. -/
def recomputeAll : Tables := t.knownPairs.foldl (fun t subject => t.recomputePair subject now) t

/-! ### What routing reads -/

/-- The stored windows of one subject, by name. -/
def statsFor (name : String) : Option WindowStats :=
  (t.reliabilityStats.lookup (subject, name)).map ReliabilityStat.stats

/-- The factor of every subject with a row on a task, by model and adapter. -/
def factorsForTask (taskProfileId : String) : List ((String × String) × ReliabilityFactor) :=
  let subjects := (t.reliabilityStats.keys.map Prod.fst).filter fun subject =>
    decide (subject.taskProfileId = taskProfileId)
  (subjects.map fun subject => (subject.modelId, subject.adapterKey)).dedup.map fun key =>
    (key, reliabilityFactor (t.statsFor ⟨key.1, taskProfileId, key.2⟩))

/-- The factor routing applies to a candidate. -/
def routedFactor : ReliabilityFactor :=
  ((t.factorsForTask subject.taskProfileId).lookup (subject.modelId, subject.adapterKey)).getD
    (neutralFactor [])

/-- Persist the breakers' verdicts on the rows of their subjects. -/
def recordBreakerVerdicts (verdictOf : Subject → Option BreakerVerdict) : Tables :=
  { t with
    reliabilityStats := t.reliabilityStats.mapRows fun key row =>
      match verdictOf key.1 with
      | none => row
      | some verdict =>
          { row with
            circuitState := verdict.state, circuitOpenedAt := verdict.openedAt, updatedAt := now } }

end Tables

/-! ### Verdicts -/

/-- What a caller said about one job. -/
structure FeedbackSubmission where
  source : String
  accepted : Bool
  qualityScore : Option ℚ := none
  edited : Bool := false
  validationPassed : Option Bool := none
  validationDetail : Option Json := none
  notes : Option String := none

def maxSourceLength : ℕ := 64

def maxNotesLength : ℕ := 4000

/-- One problem of a submission. -/
def fieldProblem (path problem : String) : Json :=
  .obj [("path", .str path), ("problem", .str problem)]

/-- Refuse what the schema cannot express. -/
def FeedbackSubmission.check (s : FeedbackSubmission) : Except Raised Unit :=
  let source :=
    if strip s.source = "" ∨ maxSourceLength < s.source.length then
      [fieldProblem "source" s!"1–{maxSourceLength} characters, not blank"]
    else []
  let quality :=
    if s.qualityScore.any fun score => decide (¬ (0 ≤ score ∧ score ≤ 1)) then
      [fieldProblem "quality_score" "must be between 0 and 1"]
    else []
  let notes :=
    if s.notes.any fun notes => decide (maxNotesLength < notes.length) then
      [fieldProblem "notes" s!"at most {maxNotesLength} characters"]
    else []
  match source ++ quality ++ notes with
  | [] => .ok ()
  | problems =>
      .error (.suite "VALIDATION_ERROR" "Feedback failed validation." [("fields", .arr problems)])

/-- The row of a verdict; a second call of the same source overwrites it. -/
def FeedbackSubmission.row (s : FeedbackSubmission) (now : Instant) (old : Option FeedbackRow) :
    FeedbackRow where
  accepted := s.accepted
  qualityScore := s.qualityScore
  edited := s.edited
  validationPassed := s.validationPassed
  validationDetail := s.validationDetail
  notes := s.notes
  createdAt := (old.map FeedbackRow.createdAt).getD now
  updatedAt := now

/-- Store or update one source's verdict on one job; the result is the job's model and task. -/
def Tables.recordFeedback (jobId : JobId) (s : FeedbackSubmission) (now : Instant) (t : Tables) :
    Except Raised ((Option String × String) × Tables) := do
  s.check
  match t.store.db.jobs.lookup jobId with
  | none => .error (.suite "JOB_NOT_FOUND" s!"No job '{jobId}'." [("job_id", .int jobId)])
  | some job =>
      pure ((job.data.selectedModelId, job.taskProfileId),
        { t with feedback := t.feedback.upsert (jobId, s.source) (s.row now) })

/-! ### What a recomputation writes -/

namespace Tables

variable {t : Tables} {subject : Subject} {now : Instant} {window : Window}

theorem windowKeys_nodup (subject : Subject) :
    (windows.map fun window => (subject, window.name)).Nodup := by
  simp [windows, window7d, window30d, windowAll]

theorem lookup_recomputePair_self (hwindow : window ∈ windows) :
    (t.recomputePair subject now).reliabilityStats.lookup (subject, window.name) =
      some (t.statRow subject now window
        (t.reliabilityStats.lookup (subject, window.name))) :=
  Table.lookup_foldl_upsert (fun window => (subject, window.name)) (t.statRow subject now)
    (windowKeys_nodup subject) hwindow t.reliabilityStats

theorem lookup_recomputePair_of_ne {key : Subject × String} (h : key.1 ≠ subject) :
    (t.recomputePair subject now).reliabilityStats.lookup key =
      t.reliabilityStats.lookup key := by
  refine Table.lookup_foldl_upsert_of_notMem (fun window => (subject, window.name))
    (t.statRow subject now) (fun hmem => ?_) t.reliabilityStats
  obtain ⟨window, -, rfl⟩ := List.mem_map.1 hmem
  exact h rfl

theorem lookup_foldl_recomputePair_of_notMem {l : List Subject} {key : Subject × String}
    (h : key.1 ∉ l) (t : Tables) :
    (l.foldl (fun t subject => t.recomputePair subject now) t).reliabilityStats.lookup key =
      t.reliabilityStats.lookup key := by
  induction l generalizing t with
  | nil => rfl
  | cons other l ih =>
      simp only [List.mem_cons, not_or] at h
      exact (ih h.2 _).trans (lookup_recomputePair_of_ne h.1)

theorem lookup_foldl_recomputePair {l : List Subject} (hnodup : l.Nodup) (hmem : subject ∈ l)
    (hwindow : window ∈ windows) (t : Tables) :
    (l.foldl (fun t subject => t.recomputePair subject now) t).reliabilityStats.lookup
        (subject, window.name) =
      some (t.statRow subject now window
        (t.reliabilityStats.lookup (subject, window.name))) := by
  induction l generalizing t with
  | nil => cases hmem
  | cons other l ih =>
      rw [List.nodup_cons] at hnodup
      rw [List.foldl_cons]
      rcases List.mem_cons.1 hmem with rfl | hmem
      · exact (lookup_foldl_recomputePair_of_notMem hnodup.1 _).trans
          (lookup_recomputePair_self hwindow)
      · have hne : subject ≠ other := fun h => hnodup.1 (h ▸ hmem)
        rw [ih hnodup.2 hmem, lookup_recomputePair_of_ne hne]
        rfl

theorem knownPairs_nodup (t : Tables) : t.knownPairs.Nodup :=
  (List.mergeSort_perm _ _).nodup_iff.2 (List.nodup_dedup _)

theorem mem_knownPairs : subject ∈ t.knownPairs ↔
    (∃ row ∈ t.store.db.jobAttempts, Subject.ofAttempt t.store.db row = some subject) ∨
      (∃ key ∈ t.feedback, Subject.ofFeedback t.store.db key.1 = some subject) ∨
        ∃ name, (subject, name) ∈ t.reliabilityStats := by
  simp only [knownPairs, List.mem_mergeSort, List.mem_dedup, List.mem_append, List.mem_filterMap,
    List.mem_map, Prod.exists, exists_and_right, exists_eq_right, or_assoc, AList.mem_keys]

/-- **Recomputing everything writes of each subject what recomputing it alone would.** -/
theorem lookup_recomputeAll (hknown : subject ∈ t.knownPairs) (hwindow : window ∈ windows) :
    (t.recomputeAll now).reliabilityStats.lookup (subject, window.name) =
      some (t.statRow subject now window
        (t.reliabilityStats.lookup (subject, window.name))) :=
  lookup_foldl_recomputePair t.knownPairs_nodup hknown hwindow t

/-! ### Fresh rows -/

/-- The rows of a subject are those a recomputation at an instant writes. -/
def Fresh (t : Tables) (subject : Subject) (now : Instant) : Prop :=
  ∀ window ∈ windows, t.reliabilityStats.lookup (subject, window.name) =
    some (t.statRow subject now window (t.reliabilityStats.lookup (subject, window.name)))

/-- The rows of a known subject are fresh exactly if recomputing everything changes none. -/
theorem fresh_iff_recomputeAll (hknown : subject ∈ t.knownPairs) :
    t.Fresh subject now ↔ ∀ window ∈ windows,
      t.reliabilityStats.lookup (subject, window.name) =
        (t.recomputeAll now).reliabilityStats.lookup (subject, window.name) := by
  refine forall₂_congr fun window hwindow => ?_
  rw [lookup_recomputeAll hknown hwindow]

theorem fresh_recomputePair_self (t : Tables) (subject : Subject) (now : Instant) :
    (t.recomputePair subject now).Fresh subject now := by
  intro window hwindow
  rw [lookup_recomputePair_self hwindow]
  rfl

theorem fresh_recomputePair_of_ne {other : Subject} (h : subject ≠ other) :
    (t.recomputePair other now).Fresh subject now ↔ t.Fresh subject now := by
  refine forall₂_congr fun window _ => ?_
  rw [lookup_recomputePair_of_ne h]
  rfl

theorem Fresh.mem (h : t.Fresh subject now) : (subject, windowAll.name) ∈ t.reliabilityStats := by
  rw [← AList.lookup_isSome, h windowAll (by simp [windows])]
  rfl

/-! ### What routing applies -/

/-- A subject without rows has the factor of no windows, which is neutral. -/
theorem routedFactor_eq (t : Tables) (subject : Subject) :
    t.routedFactor subject = reliabilityFactor (t.statsFor subject) := by
  unfold routedFactor factorsForTask
  dsimp only
  by_cases hstored : ∃ name, (subject, name) ∈ t.reliabilityStats
  · obtain ⟨name, hname⟩ := hstored
    have hkey : (subject.modelId, subject.adapterKey) ∈
        (((t.reliabilityStats.keys.map Prod.fst).filter fun s =>
          decide (s.taskProfileId = subject.taskProfileId)).map fun s =>
            (s.modelId, s.adapterKey)).dedup := by
      refine List.mem_dedup.2 (List.mem_map.2 ⟨subject, List.mem_filter.2 ⟨?_, by simp⟩, rfl⟩)
      exact List.mem_map.2 ⟨(subject, name), hname, rfl⟩
    rw [List.lookup_graph (fun key : String × String =>
      reliabilityFactor (t.statsFor ⟨key.1, subject.taskProfileId, key.2⟩)) hkey]
    rfl
  · have hempty : t.statsFor subject = fun _ => none := by
      funext name
      rw [statsFor, AList.lookup_eq_none.2 fun h => hstored ⟨name, h⟩]
      rfl
    rw [hempty, List.lookup_eq_none_iff.2]
    · rfl
    · intro p hp
      obtain ⟨key, hkey, rfl⟩ := List.mem_map.1 hp
      obtain ⟨other, hother, rfl⟩ := List.mem_map.1 (List.mem_dedup.1 hkey)
      obtain ⟨hkeys, htask⟩ := List.mem_filter.1 hother
      obtain ⟨⟨other, name⟩, hname, rfl⟩ := List.mem_map.1 hkeys
      rw [bne_iff_ne]
      intro heq
      obtain ⟨hmodel, hadapter⟩ := Prod.mk.inj heq
      have hsame : other = subject :=
        Subject.ext hmodel.symm (of_decide_eq_true htask) hadapter.symm
      exact hstored ⟨name, hsame ▸ hname⟩

end Tables

end LoadCoach.Reliability

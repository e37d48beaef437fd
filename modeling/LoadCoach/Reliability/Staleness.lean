import LoadCoach.Reliability.Refresh

/-! # The age of the statistics

Routing reads the windows as they were stored, and a stored window ends at the instant of the last
refresh of its subject.  So the factor routing applies is that of the last refresh
(`routedFactor_eq_refreshedFactor`), whatever the instant it is applied at; it is the factor of
that instant as long as the windows hold what they held (`routedFactor_current`), and not once
they have moved on. -/

namespace LoadCoach.Reliability

open Foundations

/-! ### The factor of an instant -/

namespace Tables

variable (t : Tables) (subject : Subject) (now : Instant)

/-- The samples of a subject in a window. -/
def samples (window : Window) : List AttemptOutcome × List FeedbackOutcome :=
  ((t.attemptOutcomes subject).filter fun a => inWindow window now a.instant,
    (t.feedbackOutcomes subject).filter fun f => inWindow window now f.instant)

/-- The windows of a subject that end at an instant, by name. -/
def windowsAt (name : String) : Option WindowStats :=
  (windows.find? fun window => window.name == name).map (t.statsOf subject now)

/-- The factor of the windows that end at an instant. -/
def factorAt : ReliabilityFactor := reliabilityFactor (t.windowsAt subject now)

variable {t subject now}

theorem windowsAt_name {window : Window} (hwindow : window ∈ windows) :
    t.windowsAt subject now window.name = some (t.statsOf subject now window) := by
  have hfind : (windows.find? fun w => w.name == window.name) = some window := by
    revert window
    decide
  rw [windowsAt, hfind]
  rfl

theorem mem_windows_of_factor {window : Window} (hwindow : window ∈ factorWindows) :
    window ∈ windows := by
  revert window
  decide

theorem statsOf_congr {t' : Tables} {now' : Instant} {window : Window}
    (h : t.samples subject now window = t'.samples subject now' window) :
    t.statsOf subject now window = t'.statsOf subject now' window :=
  computeStats_congr (congrArg Prod.fst h) (congrArg Prod.snd h)

theorem factorAt_congr {t' : Tables} {now' : Instant}
    (h : ∀ window ∈ factorWindows,
      t.samples subject now window = t'.samples subject now' window) :
    t.factorAt subject now = t'.factorAt subject now' := by
  refine reliabilityFactor_congr fun window hwindow => ?_
  have hwindows := mem_windows_of_factor hwindow
  rw [windowsAt_name hwindows, windowsAt_name hwindows, statsOf_congr (h window hwindow)]

end Tables

/-! ### The last refresh -/

namespace Refreshing

/-- The tables a subject was last refreshed from, and the instant. -/
def lastRefresh (subject : Subject) :
    List (Step Refreshing RefreshAct) → Option (Tables × Instant)
  | [] => none
  | ⟨pre, .refresh r now, _⟩ :: h =>
      if r.subject = subject then some (pre.tables, now) else lastRefresh subject h
  | _ :: h => lastRefresh subject h

/-- The factor of the last refresh. -/
def refreshedFactor (subject : Subject) (h : List (Step Refreshing RefreshAct)) :
    ReliabilityFactor :=
  (lastRefresh subject h).elim (neutralFactor []) fun last => last.1.factorAt subject last.2

/-- The windows of the factor hold at an instant what they held when the subject was last
refreshed; or it never was, and they hold too little to decide. -/
def Unmoved (h : List (Step Refreshing RefreshAct)) (t : Tables) (subject : Subject)
    (now : Instant) : Prop :=
  match lastRefresh subject h with
  | some (t₀, instant) => ∀ window ∈ factorWindows,
      t.samples subject now window = t₀.samples subject instant window
  | none => ∀ window ∈ factorWindows,
      (t.statsOf subject now window).counted < productionMinimumSamples

variable {rack : ModelRack} {s : Refreshing} {h : List (Step Refreshing RefreshAct)}
  {subject : Subject}

/-- Nothing but a refresh writes a statistic: the verdicts of the breakers have columns of their
own. -/
theorem statsFor_after_of_ne {a : RefreshAct} (ha : ∀ r now, a ≠ .refresh r now) :
    (s.after rack a).tables.statsFor subject = s.tables.statsFor subject := by
  funext name
  cases a with
  | store op =>
      simp only [after]
      split <;> rfl
  | feedback jobId submission now =>
      simp only [after]
      split
      · rfl
      all_goals
        next hfeedback => rw [Tables.statsFor, Tables.statsFor, (recordFeedback_ok hfeedback).2.1]
  | refresh r now => exact absurd rfl (ha r now)
  | lose r => rfl
  | verdicts verdictOf now =>
      simp only [after, Tables.recordBreakerVerdicts, Tables.statsFor, Table.lookup_mapRows,
        Option.map_map]
      refine congrArg (fun f => Option.map f _) (funext fun row => ?_)
      simp only [Function.comp_apply]
      split <;> rfl

theorem statsFor_eq_lastRefresh (hrun : Run (system rack) h s) {window : Window}
    (hwindow : window ∈ windows) :
    s.tables.statsFor subject window.name =
      (lastRefresh subject h).map fun last => last.1.statsOf subject last.2 window := by
  induction hrun with
  | start hs =>
      rw [Set.mem_singleton_iff.1 hs]
      rfl
  | @step h s s' a hpast hnext ih =>
      obtain ⟨-, rfl⟩ := hnext
      cases a with
      | refresh r now =>
          rw [lastRefresh]
          by_cases hsubject : r.subject = subject
          · subst hsubject
            rw [if_pos rfl]
            simp only [after, Tables.statsFor, Tables.lookup_recomputePair_self hwindow]
            rfl
          · rw [if_neg hsubject, ← ih]
            simp only [after, Tables.statsFor]
            rw [Tables.lookup_recomputePair_of_ne fun hkey => hsubject hkey.symm]
      | _ =>
          rw [statsFor_after_of_ne fun r now hact => by cases hact]
          exact ih

/-- **The factor routing applies is that of the last refresh.** -/
theorem routedFactor_eq_refreshedFactor (hrun : Run (system rack) h s) (subject : Subject) :
    s.tables.routedFactor subject = refreshedFactor subject h := by
  rw [Tables.routedFactor_eq, refreshedFactor]
  cases hlast : lastRefresh subject h with
  | none =>
      refine reliabilityFactor_congr (g := fun _ => none) fun window hwindow => ?_
      rw [statsFor_eq_lastRefresh hrun (Tables.mem_windows_of_factor hwindow), hlast]
      rfl
  | some last =>
      refine reliabilityFactor_congr fun window hwindow => ?_
      have hwindows := Tables.mem_windows_of_factor hwindow
      rw [statsFor_eq_lastRefresh hrun hwindows, hlast, Tables.windowsAt_name hwindows]
      rfl

/-- Twenty attempts that timed out, on one model. -/
def timedOutAttempts : List AttemptRecord :=
  (List.range' 1 20).map fun attempt =>
    { attempt, modelId := some "m", outcome := .timeout, completedAt := some 0 }

/-- The end of their execution. -/
def timedOutOutcome : SyncOutcome :=
  .error "ALL_CANDIDATES_FAILED" "Every candidate was tried and every attempt failed."

theorem run_timedOutAttempts :
    Run (system documentedRack) (servedHistory timedOutOutcome timedOutAttempts)
      (refreshedState timedOutOutcome timedOutAttempts) :=
  run_servedHistory rfl (List.mem_singleton_self _)

/-- **Routing applies the factor of the present exactly while it is that of the last refresh**,
and that is so while the windows hold what they held. -/
theorem routedFactor_current (hrun : Run (system rack) h s) (subject : Subject)
    (now : Instant) :
    ((s.tables.routedFactor subject).value = (s.tables.factorAt subject now).value ↔
        (refreshedFactor subject h).value = (s.tables.factorAt subject now).value) ∧
      (Unmoved h s.tables subject now →
        (s.tables.routedFactor subject).value = (s.tables.factorAt subject now).value) := by
  rw [routedFactor_eq_refreshedFactor hrun]
  refine ⟨Iff.rfl, fun hunmoved => ?_⟩
  rw [Unmoved] at hunmoved
  rw [refreshedFactor]
  cases hlast : lastRefresh subject h with
  | none =>
      rw [hlast] at hunmoved
      symm
      refine reliabilityFactor_value_of_few fun window hwindow stats hstats => ?_
      rw [Tables.windowsAt_name (Tables.mem_windows_of_factor hwindow)] at hstats
      cases hstats
      exact hunmoved window hwindow
  | some last =>
      rw [hlast] at hunmoved
      exact congrArg ReliabilityFactor.value (Tables.factorAt_congr hunmoved).symm

/-- At the instant of the refresh, the factor is the present one. -/
theorem routedFactor_current_at_refresh :
    ((refreshedState timedOutOutcome timedOutAttempts).tables.routedFactor ⟨"m", "chat", ""⟩).value =
      ((refreshedState timedOutOutcome timedOutAttempts).tables.factorAt
        ⟨"m", "chat", ""⟩ 0).value :=
  (routedFactor_current run_timedOutAttempts ⟨"m", "chat", ""⟩ 0).2 fun _ _ => rfl

/-- A month and a day later the windows are empty, and routing still halves the score. -/
theorem timeouts_outlive_windows :
    ∃ h s, Run (system documentedRack) h s ∧ ∃ (subject : Subject) (now : Instant),
      (s.tables.routedFactor subject).value ≠ (s.tables.factorAt subject now).value := by
  refine ⟨_, _, run_timedOutAttempts, ⟨"m", "chat", ""⟩, seconds (31 * 86400), ?_⟩
  decide +kernel

end Refreshing

end LoadCoach.Reliability

import LoadCoach.Reliability.Statistics

/-! # The incremental ledger

`ReliabilityLedger` keeps the samples one window still needs: every sample is folded in, and a trim
drops those that have left the window.  What a trim drops is behind the horizon of every later
instant, and a sample of the future is kept.  So as long as the clock does not go back, a reading of
the ledger is the reading of the whole history (`ledger_refines`). -/

namespace LoadCoach.Reliability

/-! ### The ledger -/

/-- The samples one window still needs. -/
structure ReliabilityLedger where
  window : Window
  attempts : List AttemptOutcome := []
  feedback : List FeedbackOutcome := []
deriving DecidableEq, Repr

namespace ReliabilityLedger

/-- Fold one attempt in. -/
def withAttempt (ledger : ReliabilityLedger) (attempt : AttemptOutcome) : ReliabilityLedger :=
  { ledger with attempts := ledger.attempts ++ [attempt] }

/-- Fold one feedback record in. -/
def withFeedback (ledger : ReliabilityLedger) (feedback : FeedbackOutcome) : ReliabilityLedger :=
  { ledger with feedback := ledger.feedback ++ [feedback] }

/-- Drop every sample that has left the window. -/
def trimmed (ledger : ReliabilityLedger) (now : Instant) : ReliabilityLedger :=
  match ledger.window.horizon now with
  | none => ledger
  | some horizon =>
      { ledger with
        attempts := ledger.attempts.filter fun a => decide (horizon < a.instant)
        feedback := ledger.feedback.filter fun f => decide (horizon < f.instant) }

/-- This window's statistics. -/
def stats (ledger : ReliabilityLedger) (now : Instant) : WindowStats :=
  computeStats ledger.attempts ledger.feedback ledger.window now

end ReliabilityLedger

/-! ### Runs -/

/-- What happens to a ledger: a sample comes in, a trim, or a reading. -/
inductive LedgerEvent where
  | attempt (attempt : AttemptOutcome)
  | feedback (feedback : FeedbackOutcome)
  | trim (now : Instant)
  | stats (now : Instant)

/-- When a trim or a reading happens; a sample may come in at any time. -/
def LedgerEvent.instant : LedgerEvent → Option Instant
  | .attempt _ | .feedback _ => none
  | .trim now | .stats now => some now

/-- The readings of a run. -/
def ReliabilityLedger.readings : ReliabilityLedger → List LedgerEvent → List WindowStats
  | _, [] => []
  | ledger, .attempt attempt :: events => (ledger.withAttempt attempt).readings events
  | ledger, .feedback feedback :: events => (ledger.withFeedback feedback).readings events
  | ledger, .trim now :: events => (ledger.trimmed now).readings events
  | ledger, .stats now :: events => ledger.stats now :: ledger.readings events

/-- Every sample that ever came in. -/
structure History where
  attempts : List AttemptOutcome := []
  feedback : List FeedbackOutcome := []

/-- The readings of a run, each computed from scratch over the whole history. -/
def History.readings (window : Window) : History → List LedgerEvent → List WindowStats
  | _, [] => []
  | history, .attempt attempt :: events =>
      { history with attempts := history.attempts ++ [attempt] }.readings window events
  | history, .feedback feedback :: events =>
      { history with feedback := history.feedback ++ [feedback] }.readings window events
  | history, .trim _ :: events => history.readings window events
  | history, .stats now :: events =>
      computeStats history.attempts history.feedback window now :: history.readings window events

/-! ### The refinement -/

variable {window : Window} {ledger : ReliabilityLedger} {history : History}
  {now instant sample : Instant}

theorem horizon_lt_of_inWindow {horizon : Instant} (hle : instant ≤ now)
    (hhorizon : window.horizon instant = some horizon)
    (hin : inWindow window now sample = true) : horizon < sample := by
  unfold Window.horizon at hhorizon
  obtain ⟨n, hseconds, rfl⟩ := Option.map_eq_some_iff.1 hhorizon
  simp only [inWindow, Window.horizon, hseconds, Option.map_some, Option.all_some,
    Bool.and_eq_true, decide_eq_true_eq] at hin
  exact lt_of_le_of_lt (sub_le_sub_right hle _) hin.2

/-- A ledger and a history show the same samples in a window at an instant. -/
structure Agrees (window : Window) (ledger : ReliabilityLedger) (history : History)
    (now : Instant) : Prop where
  window_eq : ledger.window = window
  attempts_eq : ledger.attempts.filter (fun a => inWindow window now a.instant) =
    history.attempts.filter fun a => inWindow window now a.instant
  feedback_eq : ledger.feedback.filter (fun f => inWindow window now f.instant) =
    history.feedback.filter fun f => inWindow window now f.instant

namespace Agrees

theorem withAttempt (h : Agrees window ledger history now) (attempt : AttemptOutcome) :
    Agrees window (ledger.withAttempt attempt)
      { history with attempts := history.attempts ++ [attempt] } now where
  window_eq := h.window_eq
  attempts_eq := by
    simp only [ReliabilityLedger.withAttempt, List.filter_append, h.attempts_eq]
  feedback_eq := h.feedback_eq

theorem withFeedback (h : Agrees window ledger history now) (feedback : FeedbackOutcome) :
    Agrees window (ledger.withFeedback feedback)
      { history with feedback := history.feedback ++ [feedback] } now where
  window_eq := h.window_eq
  attempts_eq := h.attempts_eq
  feedback_eq := by
    simp only [ReliabilityLedger.withFeedback, List.filter_append, h.feedback_eq]

/-- **A trim takes nothing from a later reading.** -/
theorem trimmed (h : Agrees window ledger history now) (hle : instant ≤ now) :
    Agrees window (ledger.trimmed instant) history now := by
  unfold ReliabilityLedger.trimmed
  rw [h.window_eq]
  cases hhorizon : window.horizon instant with
  | none => exact h
  | some horizon =>
      refine ⟨rfl, ?_, ?_⟩
      · rw [← h.attempts_eq, List.filter_filter]
        refine List.filter_congr fun a _ => ?_
        cases hin : inWindow window now a.instant with
        | false => rfl
        | true => simp [horizon_lt_of_inWindow hle hhorizon hin]
      · rw [← h.feedback_eq, List.filter_filter]
        refine List.filter_congr fun f _ => ?_
        cases hin : inWindow window now f.instant with
        | false => rfl
        | true => simp [horizon_lt_of_inWindow hle hhorizon hin]

theorem stats (h : Agrees window ledger history now) :
    ledger.stats now = computeStats history.attempts history.feedback window now := by
  rw [ReliabilityLedger.stats, h.window_eq]
  exact computeStats_congr h.attempts_eq h.feedback_eq

end Agrees

theorem readings_eq {events : List LedgerEvent}
    (hinstants : (events.filterMap LedgerEvent.instant).Pairwise (· ≤ ·))
    (hagrees : ∀ now ∈ events.filterMap LedgerEvent.instant, Agrees window ledger history now) :
    ledger.readings events = history.readings window events := by
  induction events generalizing ledger history with
  | nil => rfl
  | cons event events ih =>
      cases event with
      | attempt attempt =>
          exact ih hinstants fun now hnow => (hagrees now hnow).withAttempt attempt
      | feedback feedback =>
          exact ih hinstants fun now hnow => (hagrees now hnow).withFeedback feedback
      | trim instant =>
          obtain ⟨hlater, hrest⟩ := List.pairwise_cons.1 hinstants
          exact ih hrest fun now hnow =>
            (hagrees now (List.mem_cons_of_mem _ hnow)).trimmed (hlater now hnow)
      | stats instant =>
          obtain ⟨-, hrest⟩ := List.pairwise_cons.1 hinstants
          have hhead := (hagrees instant List.mem_cons_self).stats
          have htail := ih hrest fun now hnow => hagrees now (List.mem_cons_of_mem _ hnow)
          rw [ReliabilityLedger.readings, History.readings, hhead, htail]

/-- **The incremental ledger is the batch computation.**  In every run of samples, trims and
readings, the trims and the readings in the order of the clock, every reading of a new ledger is
what the whole history gives from scratch. -/
theorem ledger_refines (window : Window) (events : List LedgerEvent)
    (hinstants : (events.filterMap LedgerEvent.instant).Pairwise (· ≤ ·)) :
    ({ window } : ReliabilityLedger).readings events = ({} : History).readings window events :=
  readings_eq hinstants fun _ _ => ⟨rfl, rfl, rfl⟩

/-- An attempt leaves the window of a week, and one comes from the future. -/
def overAWeek : List LedgerEvent :=
  [.attempt ⟨0, .completed, none, none⟩, .attempt ⟨seconds 700000, .timeout, none, none⟩,
   .stats (seconds 3600), .trim (seconds 604800), .stats (seconds 604800), .stats (seconds 700000)]

theorem ledger_refines_overAWeek :
    ({ window := window7d } : ReliabilityLedger).readings overAWeek =
      ({} : History).readings window7d overAWeek :=
  ledger_refines window7d overAWeek (by decide)

example : (({ window := window7d } : ReliabilityLedger).readings overAWeek).map
    WindowStats.attempts = [1, 0, 1] := by
  decide

end LoadCoach.Reliability

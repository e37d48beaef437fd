import Mathlib.Algebra.BigOperators.Group.List.Basic
import Mathlib.Algebra.Order.BigOperators.Group.List
import Mathlib.Data.List.Sort
import Mathlib.Tactic.Linarith
import Mathlib.Tactic.Positivity
import LoadCoach.Foundations.Binary64
import LoadCoach.Store.Db

/-! # Production statistics

`domain/reliability.py`: what a rolling window says of the attempts and verdicts of one subject
(`computeStats`), and the factor routing makes of the windows (`reliabilityFactor`).  Every rate,
mean and percentile is absent below a minimum number of samples.

The statistics of a window depend on the samples in it and on nothing else (`computeStats_congr`),
and they are consistent (`computeStats_consistent`): so the factor lies between one half and one
without a clamp (`reliabilityFactor_mem`).  The means of a window are exact here; what the factor
computes is rounded as in the source. -/

namespace LoadCoach.Reliability

open Foundations Binary64

/-! ### Constants -/

def productionMinimumSamples : ℕ := 20

def minimumRateSamples : ℕ := 5

def minimumMeanSamples : ℕ := 5

def minimumPercentileSamples : ℕ := 20

def reliabilityFactorFloor : ℚ := 1 / 2

def feedbackWeight : ℚ := 1 / 2

def editedAcceptanceCredit : ℚ := 1 / 2

/-- The outcomes where the provider answered. -/
def successOutcomes : List AttemptOutcomeKind := [.completed, .validationFailed]

/-! ### Windows -/

/-- One rolling window: its name, and how far back it reaches (`none`: all time). -/
structure Window where
  name : String
  seconds : Option ℕ
deriving DecidableEq, Repr

/-- The instant before which a sample no longer counts. -/
def Window.horizon (window : Window) (now : Instant) : Option Instant :=
  window.seconds.map fun n => now - LoadCoach.seconds n

def window7d : Window := ⟨"7d", some (7 * 86400)⟩

def window30d : Window := ⟨"30d", some (30 * 86400)⟩

def windowAll : Window := ⟨"all", none⟩

/-- Every window that is stored. -/
def windows : List Window := [window7d, window30d, windowAll]

/-- The windows the factor may use, freshest first. -/
def factorWindows : List Window := [window7d, window30d]

/-- A sample counts when `horizon < instant ≤ now`. -/
def inWindow (window : Window) (now instant : Instant) : Bool :=
  decide (instant ≤ now) && (window.horizon now).all fun horizon => decide (horizon < instant)

/-! ### Samples -/

/-- One completed attempt, as the statistics see it. -/
structure AttemptOutcome where
  instant : Instant
  outcome : AttemptOutcomeKind
  latencyMs : Option ℤ := none
  outputTokens : Option ℕ := none
deriving DecidableEq, Repr

/-- One caller's verdict on one job. -/
structure FeedbackOutcome where
  instant : Instant
  accepted : Bool
  qualityScore : Option ℚ := none
  edited : Bool := false
  validationPassed : Option Bool := none
deriving DecidableEq, Repr

/-- Throughput over provider time. -/
def AttemptOutcome.tokensPerSecond (a : AttemptOutcome) : Option ℚ :=
  match a.latencyMs, a.outputTokens with
  | some latencyMs, some outputTokens =>
      if latencyMs ≤ 0 then none else some (outputTokens / (latencyMs / 1000))
  | _, _ => none

/-- The provider answered. -/
def countsAsSuccess (outcome : AttemptOutcomeKind) : Bool := decide (outcome ∈ successOutcomes)

/-- How much of one acceptance a verdict is worth. -/
def acceptanceCredit (f : FeedbackOutcome) : ℚ :=
  if f.validationPassed = some false ∨ f.accepted = false then 0
  else if f.edited then editedAcceptanceCredit
  else 1

/-- The nearest-rank percentile; `none` where the source raises. -/
def percentile (values : List ℤ) (q : ℚ) : Option ℤ :=
  if values = [] ∨ ¬ (0 < q ∧ q ≤ 1) then none
  else
    let ordered := values.mergeSort fun a b => decide (a ≤ b)
    ordered[⌈q * ordered.length⌉.toNat - 1]?

/-- `sum(values) / len(values)`, absent below a number of samples. -/
def mean (minimum : ℕ) (values : List ℚ) : Option ℚ :=
  if values.length < minimum then none else some (values.sum / values.length)

/-! ### The statistics of a window -/

/-- The columns of `reliability_stats` that are computed. -/
structure WindowStats where
  window : String
  attempts : ℕ := 0
  successes : ℕ := 0
  validationPasses : ℕ := 0
  errors : ℤ := 0
  timeouts : ℕ := 0
  cancellations : ℕ := 0
  latencyCount : ℕ := 0
  p50LatencyMs : Option ℤ := none
  p95LatencyMs : Option ℤ := none
  outputTokenCount : ℕ := 0
  meanOutputTokens : Option ℚ := none
  tokensPerSecondCount : ℕ := 0
  meanTokensPerSecond : Option ℚ := none
  feedbackCount : ℕ := 0
  acceptanceRate : Option ℚ := none
  qualityCount : ℕ := 0
  meanQuality : Option ℚ := none
deriving DecidableEq, Repr

/-- The attempts that say something about the model: everything but cancellations. -/
def WindowStats.counted (stats : WindowStats) : ℤ := stats.attempts - stats.cancellations

/-- Compute one window's statistics from scratch. -/
def computeStats (attempts : List AttemptOutcome) (feedback : List FeedbackOutcome)
    (window : Window) (now : Instant) : WindowStats :=
  let countedAttempts := attempts.filter fun a => inWindow window now a.instant
  let countedFeedback := feedback.filter fun f => inWindow window now f.instant
  let successes := countedAttempts.countP fun a => countsAsSuccess a.outcome
  let validationPasses := countedAttempts.countP fun a => a.outcome == .completed
  let timeouts := countedAttempts.countP fun a => a.outcome == .timeout
  let cancellations := countedAttempts.countP fun a => a.outcome == .cancelled
  let latencies := countedAttempts.filterMap AttemptOutcome.latencyMs
  let tokens := countedAttempts.filterMap AttemptOutcome.outputTokens
  let throughputs := countedAttempts.filterMap AttemptOutcome.tokensPerSecond
  let credits := countedFeedback.map acceptanceCredit
  let qualities := countedFeedback.filterMap FeedbackOutcome.qualityScore
  { window := window.name
    attempts := countedAttempts.length
    successes
    validationPasses
    errors := countedAttempts.length - successes - timeouts - cancellations
    timeouts
    cancellations
    latencyCount := latencies.length
    p50LatencyMs :=
      if latencies.length < minimumPercentileSamples then none else percentile latencies (1 / 2)
    p95LatencyMs :=
      if latencies.length < minimumPercentileSamples then none else percentile latencies (19 / 20)
    outputTokenCount := tokens.length
    meanOutputTokens := mean minimumMeanSamples (tokens.map fun n => (n : ℚ))
    tokensPerSecondCount := throughputs.length
    meanTokensPerSecond := mean minimumMeanSamples throughputs
    feedbackCount := credits.length
    acceptanceRate := mean minimumRateSamples credits
    qualityCount := qualities.length
    meanQuality := mean minimumMeanSamples qualities }

/-! ### The factor -/

/-- The reliability factor, with the inputs it was computed from. -/
structure ReliabilityFactor where
  value : ℚ
  window : Option String
  attempts : ℤ
  successRate : Option ℚ := none
  validationPassRate : Option ℚ := none
  errorRate : Option ℚ := none
  timeoutRate : Option ℚ := none
  acceptanceRate : Option ℚ := none
  feedbackCount : ℕ := 0
deriving DecidableEq, Repr

/-- The factor without production evidence. -/
def neutralFactor (attemptsByWindow : List ℤ) : ReliabilityFactor where
  value := 1
  window := none
  attempts := attemptsByWindow.max?.getD 0

/-- What the feedback of a window takes from the factor. -/
def feedbackTerm (acceptance : Option ℚ) : ℚ :=
  acceptance.elim 1 fun rate => toDouble (1 - toDouble (feedbackWeight * toDouble (1 - rate)))

/-- The factor a window with enough samples decides. -/
def liveFactor (window : Window) (stats : WindowStats) : ReliabilityFactor :=
  let success := toDouble (stats.successes / stats.counted)
  let validation :=
    if stats.successes = 0 then 1 else toDouble (stats.validationPasses / stats.successes)
  let acceptance :=
    if minimumRateSamples ≤ stats.feedbackCount then stats.acceptanceRate.map toDouble else none
  let product := toDouble (toDouble (success * validation) * feedbackTerm acceptance)
  { value := toDouble (reliabilityFactorFloor + toDouble ((1 - reliabilityFactorFloor) * product))
    window := some window.name
    attempts := stats.counted
    successRate := some success
    validationPassRate := if stats.successes = 0 then none else some validation
    errorRate := some (toDouble (stats.errors / stats.counted))
    timeoutRate := some (toDouble (stats.timeouts / stats.counted))
    acceptanceRate := acceptance
    feedbackCount := stats.feedbackCount }

/-- The first window of a list with enough counted attempts. -/
def decidingWindow (statsByWindow : String → Option WindowStats) :
    List Window → Option (Window × WindowStats)
  | [] => none
  | window :: rest =>
      match statsByWindow window.name with
      | none => decidingWindow statsByWindow rest
      | some stats =>
          if stats.counted < productionMinimumSamples then decidingWindow statsByWindow rest
          else some (window, stats)

/-- The factor of the freshest window with enough samples. -/
def reliabilityFactor (statsByWindow : String → Option WindowStats) : ReliabilityFactor :=
  match decidingWindow statsByWindow factorWindows with
  | some (window, stats) => liveFactor window stats
  | none => neutralFactor
      (factorWindows.filterMap fun w => (statsByWindow w.name).map WindowStats.counted)

/-! ### What the statistics depend on -/

/-- **Only the samples in the window count.** -/
theorem computeStats_congr {attempts attempts' : List AttemptOutcome}
    {feedback feedback' : List FeedbackOutcome} {window : Window} {now now' : Instant}
    (hattempts : attempts.filter (fun a => inWindow window now a.instant) =
      attempts'.filter fun a => inWindow window now' a.instant)
    (hfeedback : feedback.filter (fun f => inWindow window now f.instant) =
      feedback'.filter fun f => inWindow window now' f.instant) :
    computeStats attempts feedback window now = computeStats attempts' feedback' window now' := by
  simp only [computeStats, hattempts, hfeedback]

theorem decidingWindow_congr {f g : String → Option WindowStats} {l : List Window}
    (h : ∀ window ∈ l, f window.name = g window.name) :
    decidingWindow f l = decidingWindow g l := by
  induction l with
  | nil => rfl
  | cons window rest ih =>
      have hrest := ih fun w hw => h w (List.mem_cons_of_mem _ hw)
      simp only [decidingWindow, h window List.mem_cons_self, hrest]

theorem reliabilityFactor_congr {f g : String → Option WindowStats}
    (h : ∀ window ∈ factorWindows, f window.name = g window.name) :
    reliabilityFactor f = reliabilityFactor g := by
  have hcounted : (factorWindows.filterMap fun w => (f w.name).map WindowStats.counted) =
      factorWindows.filterMap fun w => (g w.name).map WindowStats.counted :=
    List.filterMap_congr fun w hw => by rw [h w hw]
  unfold reliabilityFactor
  rw [decidingWindow_congr h, hcounted]

theorem decidingWindow_eq_none {f : String → Option WindowStats} {l : List Window}
    (h : ∀ window ∈ l, ∀ stats ∈ f window.name, stats.counted < productionMinimumSamples) :
    decidingWindow f l = none := by
  induction l with
  | nil => rfl
  | cons window rest ih =>
      have hrest := ih fun w hw => h w (List.mem_cons_of_mem _ hw)
      rw [decidingWindow]
      split
      · exact hrest
      · next stats hstats =>
        rw [if_pos (h window List.mem_cons_self stats hstats)]
        exact hrest

theorem reliabilityFactor_value_of_few {f : String → Option WindowStats}
    (h : ∀ window ∈ factorWindows, ∀ stats ∈ f window.name,
      stats.counted < productionMinimumSamples) : (reliabilityFactor f).value = 1 := by
  unfold reliabilityFactor
  rw [decidingWindow_eq_none h]
  rfl

/-- Statistics whose rates are rates. -/
structure WindowStats.Consistent (stats : WindowStats) : Prop where
  successes : (stats.successes : ℤ) ≤ stats.counted
  validationPasses : stats.validationPasses ≤ stats.successes
  acceptanceRate : ∀ rate ∈ stats.acceptanceRate, 0 ≤ rate ∧ rate ≤ 1

theorem acceptanceCredit_mem (f : FeedbackOutcome) :
    0 ≤ acceptanceCredit f ∧ acceptanceCredit f ≤ 1 := by
  unfold acceptanceCredit editedAcceptanceCredit
  split_ifs <;> norm_num

theorem mean_mem {minimum : ℕ} {values : List ℚ} (h : ∀ v ∈ values, 0 ≤ v ∧ v ≤ 1) :
    ∀ rate ∈ mean minimum values, 0 ≤ rate ∧ rate ≤ 1 := by
  intro rate hrate
  unfold mean at hrate
  split_ifs at hrate
  · cases hrate
  · cases hrate
    have hsum : values.sum ≤ values.length := by
      have hle := List.sum_le_card_nsmul values 1 fun v hv => (h v hv).2
      simpa using hle
    have hnonneg : 0 ≤ values.sum := List.sum_nonneg fun v hv => (h v hv).1
    exact ⟨div_nonneg hnonneg (Nat.cast_nonneg _), div_le_one_of_le₀ hsum (Nat.cast_nonneg _)⟩

theorem computeStats_consistent (attempts : List AttemptOutcome) (feedback : List FeedbackOutcome)
    (window : Window) (now : Instant) : (computeStats attempts feedback window now).Consistent where
  successes := by
    simp only [computeStats, WindowStats.counted]
    generalize attempts.filter _ = counted
    -- a success is no cancellation
    have hdisjoint : counted.countP (fun a => a.outcome == .cancelled) ≤
        counted.countP fun a => !countsAsSuccess a.outcome := by
      refine List.countP_mono_left fun a _ ha => ?_
      rw [eq_of_beq ha]
      rfl
    have hall := List.length_eq_countP_add_countP (fun a => countsAsSuccess a.outcome)
      (l := counted)
    simp only [decide_not, Bool.decide_eq_true] at hall
    omega
  validationPasses := by
    refine List.countP_mono_left fun a _ ha => ?_
    rw [eq_of_beq ha]
    rfl
  acceptanceRate := mean_mem fun v hv => by
    obtain ⟨f, -, rfl⟩ := List.mem_map.1 hv
    exact acceptanceCredit_mem f

theorem toDouble_mem {x : ℚ} (h : 0 ≤ x ∧ x ≤ 1) : 0 ≤ toDouble x ∧ toDouble x ≤ 1 :=
  ⟨toDouble_nonneg h.1, toDouble_one ▸ toDouble_mono h.2⟩

theorem toDouble_mul_mem {x y : ℚ} (hx : 0 ≤ x ∧ x ≤ 1) (hy : 0 ≤ y ∧ y ≤ 1) :
    0 ≤ toDouble (x * y) ∧ toDouble (x * y) ≤ 1 :=
  toDouble_mem ⟨mul_nonneg hx.1 hy.1, mul_le_one₀ hx.2 hy.1 hy.2⟩

theorem feedbackTerm_mem {acceptance : Option ℚ} (h : ∀ rate ∈ acceptance, 0 ≤ rate ∧ rate ≤ 1) :
    0 ≤ feedbackTerm acceptance ∧ feedbackTerm acceptance ≤ 1 := by
  cases acceptance with
  | none => exact ⟨zero_le_one, le_rfl⟩
  | some rate =>
      obtain ⟨hlow, hhigh⟩ := h rate rfl
      have hmissed := toDouble_mem (x := 1 - rate) ⟨by linarith, by linarith⟩
      have hcost := toDouble_mul_mem (x := feedbackWeight) (by norm_num [feedbackWeight]) hmissed
      exact toDouble_mem ⟨by linarith, by linarith⟩

theorem liveFactor_mem {window : Window} {stats : WindowStats} (h : stats.Consistent) :
    reliabilityFactorFloor ≤ (liveFactor window stats).value ∧
      (liveFactor window stats).value ≤ 1 := by
  have hpos : (0 : ℤ) ≤ stats.counted := (Nat.cast_nonneg _).trans h.successes
  have hcounted : (0 : ℚ) ≤ stats.counted := by exact_mod_cast hpos
  have hsuccesses : (stats.successes : ℚ) ≤ stats.counted := by exact_mod_cast h.successes
  have hvalidated : (stats.validationPasses : ℚ) ≤ stats.successes := by
    exact_mod_cast h.validationPasses
  have hsuccess := toDouble_mem
    ⟨div_nonneg (Nat.cast_nonneg _) hcounted, div_le_one_of_le₀ hsuccesses hcounted⟩
  have hvalidation : 0 ≤ (if stats.successes = 0 then 1 else
      toDouble (stats.validationPasses / stats.successes)) ∧
      (if stats.successes = 0 then 1 else toDouble (stats.validationPasses / stats.successes)) ≤
        1 := by
    split_ifs
    · exact ⟨zero_le_one, le_rfl⟩
    · exact toDouble_mem ⟨by positivity, div_le_one_of_le₀ hvalidated (Nat.cast_nonneg _)⟩
  have hacceptance : ∀ rate ∈ (if minimumRateSamples ≤ stats.feedbackCount then
      stats.acceptanceRate.map toDouble else none), 0 ≤ rate ∧ rate ≤ 1 := fun rate hrate => by
    split_ifs at hrate
    · obtain ⟨exact, hexact, rfl⟩ := Option.map_eq_some_iff.1 hrate
      exact toDouble_mem (h.acceptanceRate exact hexact)
    · cases hrate
  have hterm := feedbackTerm_mem hacceptance
  have hproduct := toDouble_mul_mem (toDouble_mul_mem hsuccess hvalidation) hterm
  have hhalf : toDouble (1 / 2) = 1 / 2 := toDouble_eq_self (m := 1) (k := -1) (by norm_num)
    (by norm_num)
  unfold liveFactor reliabilityFactorFloor
  dsimp only
  generalize toDouble (toDouble (_ * _) * _) = product at hproduct ⊢
  have hearned := toDouble_mono (by linarith : (1 - 1 / 2) * product ≤ 1 / 2)
  rw [hhalf] at hearned
  have hearned₀ : 0 ≤ toDouble ((1 - 1 / 2) * product) :=
    toDouble_nonneg (mul_nonneg (by norm_num) hproduct.1)
  have hlow := toDouble_mono (le_add_of_nonneg_right hearned₀ :
    1 / 2 ≤ 1 / 2 + toDouble ((1 - 1 / 2) * product))
  have hhigh := toDouble_mono (by linarith : 1 / 2 + toDouble ((1 - 1 / 2) * product) ≤ 1)
  rw [hhalf] at hlow
  rw [toDouble_one] at hhigh
  exact ⟨hlow, hhigh⟩

theorem consistent_of_decidingWindow {statsByWindow : String → Option WindowStats}
    (h : ∀ name, ∀ stats ∈ statsByWindow name, stats.Consistent) {l : List Window}
    {window : Window} {stats : WindowStats}
    (hdecides : decidingWindow statsByWindow l = some (window, stats)) : stats.Consistent := by
  induction l with
  | nil => cases hdecides
  | cons w rest ih =>
      rw [decidingWindow] at hdecides
      split at hdecides
      · exact ih hdecides
      · next found hfound =>
        split_ifs at hdecides
        · exact ih hdecides
        · cases hdecides
          exact h _ _ hfound

/-- **The factor is between one half and one**, whatever the windows hold. -/
theorem reliabilityFactor_mem {statsByWindow : String → Option WindowStats}
    (h : ∀ name, ∀ stats ∈ statsByWindow name, stats.Consistent) :
    reliabilityFactorFloor ≤ (reliabilityFactor statsByWindow).value ∧
      (reliabilityFactor statsByWindow).value ≤ 1 := by
  unfold reliabilityFactor
  split
  · next window stats hdecides => exact liveFactor_mem (consistent_of_decidingWindow h hdecides)
  · norm_num [neutralFactor, reliabilityFactorFloor]

end LoadCoach.Reliability

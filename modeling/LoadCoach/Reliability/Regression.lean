import LoadCoach.Foundations.Binary64
import LoadCoach.Foundations.TwoProportion
import LoadCoach.Reliability.Statistics

/-! # Regression by subtraction

`detect_regression` compares the recent window of a subject with everything before it, and has the
second only as the difference of two rows.  The windows are nested, so the difference of the counts
is the count of the difference: the verdict is that of the two-proportion test on the attempts
inside the window and the attempts outside it (`detectRegression_exact`).

Rates, score and thresholds are numbers of double precision, each operation rounded.  The line of
text for the page is left out; everything it says is in the other fields. -/

namespace LoadCoach.Reliability

open Foundations Binary64

/-! ### Constants -/

def regressionMinimumSamples : ℕ := 20

def regressionMinimumDrop : ℚ := toDouble (3 / 20)

def regressionZThreshold : ℚ := 2

/-! ### The verdict -/

inductive RegressionStatus where
  | regressed
  | stable
  | insufficientSamples
deriving DecidableEq, Repr

/-- Whether a recent rate has dropped against the baseline. -/
structure RegressionVerdict where
  status : RegressionStatus
  recentRate : Option ℚ
  baselineRate : Option ℚ
  drop : Option ℚ
  zScore : Option ℚ
  recentSamples : ℤ
  baselineSamples : ℤ
deriving DecidableEq, Repr

/-- Compare the recent window against the history before it. -/
def detectRegression (recent allTime : WindowStats) : RegressionVerdict :=
  let recentN := recent.counted
  let baselineN := allTime.counted - recent.counted
  let baselinePasses : ℤ := allTime.validationPasses - recent.validationPasses
  if recentN < regressionMinimumSamples ∨ baselineN < regressionMinimumSamples then
    { status := .insufficientSamples
      recentRate := if recentN = 0 then none else some (toDouble (recent.validationPasses / recentN))
      baselineRate := if baselineN ≤ 0 then none else some (toDouble (baselinePasses / baselineN))
      drop := none
      zScore := none
      recentSamples := recentN
      baselineSamples := max baselineN 0 }
  else
    let recentRate := toDouble (recent.validationPasses / recentN)
    let baselineRate := toDouble (baselinePasses / baselineN)
    let drop := toDouble (baselineRate - recentRate)
    let pooled := toDouble ((recent.validationPasses + baselinePasses) / (recentN + baselineN))
    let variance := toDouble (toDouble (pooled * toDouble (1 - pooled)) *
      toDouble (toDouble (1 / recentN) + toDouble (1 / baselineN)))
    let zScore := if variance = 0 then 0 else toDouble (drop / sqrt variance)
    let regressed := decide (regressionMinimumDrop ≤ drop) && decide (regressionZThreshold ≤ zScore)
    { status := if regressed then .regressed else .stable
      recentRate := some recentRate
      baselineRate := some baselineRate
      drop := some drop
      zScore := some zScore
      recentSamples := recentN
      baselineSamples := baselineN }

/-! ### The test -/

/-- There are enough trials on either side. -/
def Enough (recent baseline : Proportion) : Prop :=
  regressionMinimumSamples ≤ recent.trials ∧ regressionMinimumSamples ≤ baseline.trials

instance Enough.decidable (recent baseline : Proportion) : Decidable (Enough recent baseline) :=
  inferInstanceAs (Decidable (_ ∧ _))

/-- What the two-proportion test says of a recent group and a baseline, in double precision. -/
structure TwoProportionTest (recent baseline : Proportion) (verdict : RegressionVerdict) :
    Prop where
  recentSamples : verdict.recentSamples = recent.trials
  baselineSamples : verdict.baselineSamples = baseline.trials
  recentRate : verdict.recentRate = if recent.trials = 0 then none else some (recent.rate toDouble)
  baselineRate : verdict.baselineRate =
    if baseline.trials = 0 then none else some (baseline.rate toDouble)
  drop : verdict.drop =
    if Enough recent baseline then some (recent.drop toDouble baseline) else none
  zScore : verdict.zScore =
    if Enough recent baseline then some (recent.score toDouble sqrt baseline) else none
  variance_nonneg : 0 ≤ recent.variance toDouble baseline
  insufficientSamples : verdict.status = .insufficientSamples ↔ ¬ Enough recent baseline
  regressed : verdict.status = .regressed ↔ Enough recent baseline ∧
    regressionMinimumDrop ≤ recent.drop toDouble baseline ∧
    regressionZThreshold ≤ recent.score toDouble sqrt baseline

variable {recent baseline : Proportion} {recentRow allTime : WindowStats}

/-- A row that counts a group. -/
structure Counts (stats : WindowStats) (trials passes : ℕ) : Prop where
  counted : stats.counted = trials
  validationPasses : stats.validationPasses = passes

theorem Counts.sub (hrecent : Counts recentRow recent.trials recent.passes)
    (hall : Counts allTime (recent.trials + baseline.trials) (recent.passes + baseline.passes)) :
    allTime.counted - recentRow.counted = (baseline.trials : ℤ) ∧
      (allTime.validationPasses : ℤ) - recentRow.validationPasses = (baseline.passes : ℤ) := by
  rw [hrecent.counted, hall.counted, hrecent.validationPasses, hall.validationPasses]
  constructor <;> omega

theorem few_iff : ((recent.trials : ℤ) < regressionMinimumSamples ∨
    (baseline.trials : ℤ) < regressionMinimumSamples) ↔ ¬ Enough recent baseline := by
  unfold Enough
  omega

theorem detectRegression_few (hrecent : Counts recentRow recent.trials recent.passes)
    (hall : Counts allTime (recent.trials + baseline.trials) (recent.passes + baseline.passes))
    (hfew : ¬ Enough recent baseline) :
    detectRegression recentRow allTime =
      { status := .insufficientSamples
        recentRate := if recent.trials = 0 then none else some (recent.rate toDouble)
        baselineRate := if baseline.trials = 0 then none else some (baseline.rate toDouble)
        drop := none
        zScore := none
        recentSamples := recent.trials
        baselineSamples := baseline.trials } := by
  obtain ⟨htrials, hpasses⟩ := Counts.sub hrecent hall
  have hmax : max (baseline.trials : ℤ) 0 = baseline.trials := by omega
  have hzero : (baseline.trials : ℤ) ≤ 0 ↔ baseline.trials = 0 := by omega
  unfold detectRegression
  rw [htrials, hpasses, hrecent.counted, hrecent.validationPasses]
  simp only [if_pos (few_iff.2 hfew), hmax, hzero, Int.cast_natCast, Nat.cast_eq_zero]
  rfl

theorem detectRegression_enough (hrecent : Counts recentRow recent.trials recent.passes)
    (hall : Counts allTime (recent.trials + baseline.trials) (recent.passes + baseline.passes))
    (henough : Enough recent baseline) :
    detectRegression recentRow allTime =
      { status :=
          if decide (regressionMinimumDrop ≤ recent.drop toDouble baseline) &&
            decide (regressionZThreshold ≤ recent.score toDouble sqrt baseline) then .regressed
          else .stable
        recentRate := some (recent.rate toDouble)
        baselineRate := some (baseline.rate toDouble)
        drop := some (recent.drop toDouble baseline)
        zScore := some (recent.score toDouble sqrt baseline)
        recentSamples := recent.trials
        baselineSamples := baseline.trials } := by
  obtain ⟨htrials, hpasses⟩ := Counts.sub hrecent hall
  unfold detectRegression
  rw [htrials, hpasses, hrecent.counted, hrecent.validationPasses]
  simp only [if_neg (few_iff.not.2 (not_not.2 henough)), Int.cast_natCast]
  rfl

/-- **Rows that count a group and the two groups together decide as the test does.** -/
theorem detectRegression_test (hrecent : Counts recentRow recent.trials recent.passes)
    (hall : Counts allTime (recent.trials + baseline.trials) (recent.passes + baseline.passes)) :
    TwoProportionTest recent baseline (detectRegression recentRow allTime) := by
  have hvariance : 0 ≤ recent.variance toDouble baseline :=
    Proportion.variance_nonneg recent baseline toDouble_mono toDouble_zero toDouble_one
  by_cases henough : Enough recent baseline
  · have hrecent₀ : recent.trials ≠ 0 := by
      have hle := henough.1
      unfold regressionMinimumSamples at hle
      omega
    have hbaseline₀ : baseline.trials ≠ 0 := by
      have hle := henough.2
      unfold regressionMinimumSamples at hle
      omega
    rw [detectRegression_enough hrecent hall henough]
    exact {
      recentSamples := rfl
      baselineSamples := rfl
      recentRate := (if_neg hrecent₀).symm
      baselineRate := (if_neg hbaseline₀).symm
      drop := (if_pos henough).symm
      zScore := (if_pos henough).symm
      variance_nonneg := hvariance
      insufficientSamples := by
        simp only [henough, not_true, iff_false]
        split_ifs <;> simp
      regressed := by
        simp only [henough, true_and]
        split_ifs with hregressed <;> simpa using hregressed }
  · rw [detectRegression_few hrecent hall henough]
    exact {
      recentSamples := rfl
      baselineSamples := rfl
      recentRate := rfl
      baselineRate := rfl
      drop := (if_neg henough).symm
      zScore := (if_neg henough).symm
      variance_nonneg := hvariance
      insufficientSamples := by simp only [henough, not_false_iff]
      regressed := by simp [henough] }

/-! ### The rows of one instant -/

/-- The attempts of a list that count, and those of them that were validated. -/
def proportionOf (attempts : List AttemptOutcome) : Proportion where
  trials := attempts.countP fun a => a.outcome != .cancelled
  passes := attempts.countP fun a => a.outcome == .completed
  passes_le := List.countP_mono_left fun a _ ha => by
    rw [eq_of_beq ha]
    rfl

variable {attempts : List AttemptOutcome} {feedback : List FeedbackOutcome} {window : Window}
  {now instant : Instant}

theorem computeStats_counts :
    Counts (computeStats attempts feedback window now)
      (proportionOf (attempts.filter fun a => inWindow window now a.instant)).trials
      (proportionOf (attempts.filter fun a => inWindow window now a.instant)).passes where
  counted := by
    simp only [computeStats, WindowStats.counted, proportionOf]
    generalize attempts.filter _ = counted
    have hall := List.length_eq_countP_add_countP (fun a : AttemptOutcome => a.outcome == .cancelled)
      (l := counted)
    simp only [decide_not, Bool.decide_eq_true] at hall
    simp only [bne]
    omega
  validationPasses := rfl

theorem inWindow_all (h : inWindow window now instant = true) :
    inWindow windowAll now instant = true := by
  simp only [inWindow, Bool.and_eq_true] at h
  simp [inWindow, windowAll, Window.horizon, of_decide_eq_true h.1]

theorem countP_all (p : AttemptOutcome → Bool) :
    (attempts.filter fun a => inWindow windowAll now a.instant).countP p =
      (attempts.filter fun a => inWindow window now a.instant).countP p +
      (attempts.filter fun a =>
        inWindow windowAll now a.instant && !inWindow window now a.instant).countP p := by
  rw [List.countP_eq_countP_filter_add _ p fun a => inWindow window now a.instant,
    List.filter_filter, List.filter_filter]
  refine congrArg₂ (· + ·) (congrArg _ (List.filter_congr fun a _ => ?_))
    (congrArg _ (List.filter_congr fun a _ => Bool.and_comm _ _))
  cases hin : inWindow window now a.instant with
  | false => rfl
  | true => simp [inWindow_all hin]

/-- **Regression by subtraction is exact.**  On the rows of one instant the verdict is that of the
two-proportion test on the attempts inside the window and those outside it; the differences it
takes are not negative; and the factor made of any of the rows is between one half and one. -/
theorem detectRegression_exact (attempts : List AttemptOutcome) (feedback : List FeedbackOutcome)
    (window : Window) (stored : List Window) (now : Instant) :
    let recent := computeStats attempts feedback window now
    let allTime := computeStats attempts feedback windowAll now
    TwoProportionTest
        (proportionOf (attempts.filter fun a => inWindow window now a.instant))
        (proportionOf (attempts.filter fun a =>
          inWindow windowAll now a.instant && !inWindow window now a.instant))
        (detectRegression recent allTime) ∧
      0 ≤ allTime.counted - recent.counted ∧
      (0 : ℤ) ≤ allTime.validationPasses - recent.validationPasses ∧
      (reliabilityFactor fun name => (stored.find? fun w => w.name == name).map fun w =>
        computeStats attempts feedback w now).value ∈ Set.Icc reliabilityFactorFloor 1 := by
  intro recent allTime
  have hrecent : Counts recent _ _ := computeStats_counts
  have hall : Counts allTime
      ((proportionOf (attempts.filter fun a => inWindow window now a.instant)).trials +
        (proportionOf (attempts.filter fun a =>
          inWindow windowAll now a.instant && !inWindow window now a.instant)).trials)
      ((proportionOf (attempts.filter fun a => inWindow window now a.instant)).passes +
        (proportionOf (attempts.filter fun a =>
          inWindow windowAll now a.instant && !inWindow window now a.instant)).passes) := by
    have hcounts : Counts allTime _ _ := computeStats_counts
    refine ⟨hcounts.counted.trans ?_, hcounts.validationPasses.trans (countP_all _)⟩
    exact congrArg _ (countP_all _)
  obtain ⟨htrials, hpasses⟩ := Counts.sub hrecent hall
  refine ⟨detectRegression_test hrecent hall, htrials ▸ Int.natCast_nonneg _,
    hpasses ▸ Int.natCast_nonneg _, reliabilityFactor_mem fun name stats hstats => ?_⟩
  obtain ⟨w, -, rfl⟩ := Option.map_eq_some_iff.1 hstats
  exact computeStats_consistent attempts feedback w now

-- the difference of the rates is below the minimum drop here, though 0.95 - 0.8 is not below 0.15
example : (detectRegression { window := "7d", attempts := 200, validationPasses := 160 }
    { window := "all", attempts := 400, validationPasses := 350 }).status = .stable := by
  decide +kernel

end LoadCoach.Reliability

import LoadCoach.Values

/-! # The ageing arithmetic

`domain/priority.py`: `effective_priority`, over exact numbers.  A job ages from its base priority
by the whole points its waiting time earned, up to the top of its band plus an allowance.  The
priority stays between the base and the cap (`base_le_effectivePriority`,
`effectivePriority_le_cap`) and grows with the waiting time (`effectivePriority_mono`). -/

namespace LoadCoach

/-- What is added to the aged points before flooring. -/
def ageingEpsilonPoints : ℚ := 1 / 1000000

/-- The highest effective priority ageing can reach. -/
def ageingCap (jobClass : JobClass) (overflowAllowance : ℤ) : ℤ :=
  (bandOf jobClass).2 + overflowAllowance

/-- The whole points a waiting time earned. -/
def agedPoints (waitingSeconds ageingPriorityPerMinute : ℚ) : ℤ :=
  let minutes := max waitingSeconds 0 / 60
  ⌊minutes * ageingPriorityPerMinute + ageingEpsilonPoints⌋

/-- The effective priority of a job. -/
def effectivePriority (base : ℤ) (jobClass : JobClass)
    (waitingSeconds ageingPriorityPerMinute : ℚ) (overflowAllowance : ℤ) : ℤ :=
  let aged := base + agedPoints waitingSeconds ageingPriorityPerMinute
  min aged (ageingCap jobClass overflowAllowance)

section Bounds

variable {base base' : ℤ} {jobClass : JobClass} {waited waited' rate : ℚ} {overflow : ℤ}

theorem agedPoints_mono (hrate : 0 ≤ rate) (h : waited ≤ waited') :
    agedPoints waited rate ≤ agedPoints waited' rate := by
  apply Int.floor_mono
  gcongr

theorem agedPoints_of_nonpos (h : waited ≤ 0) : agedPoints waited rate = 0 := by
  rw [agedPoints, max_eq_right h, Int.floor_eq_iff, ageingEpsilonPoints]
  constructor <;> norm_num

theorem agedPoints_nonneg (hrate : 0 ≤ rate) : 0 ≤ agedPoints waited rate := by
  rcases le_total 0 waited with h | h
  · exact (agedPoints_of_nonpos le_rfl).ge.trans (agedPoints_mono hrate h)
  · exact (agedPoints_of_nonpos h).ge

theorem effectivePriority_le_cap :
    effectivePriority base jobClass waited rate overflow ≤ ageingCap jobClass overflow :=
  min_le_right _ _

theorem base_le_effectivePriority (hrate : 0 ≤ rate) (hbase : base ≤ ageingCap jobClass overflow) :
    base ≤ effectivePriority base jobClass waited rate overflow := by
  have hpoints : 0 ≤ agedPoints waited rate := agedPoints_nonneg hrate
  exact le_min (by omega) hbase

theorem effectivePriority_mono (hrate : 0 ≤ rate) (h : waited ≤ waited') :
    effectivePriority base jobClass waited rate overflow ≤
      effectivePriority base jobClass waited' rate overflow := by
  have hpoints := agedPoints_mono hrate h
  exact min_le_min_right _ (by omega)

end Bounds

end LoadCoach

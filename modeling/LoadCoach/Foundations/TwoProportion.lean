import Mathlib.Algebra.Order.Field.Rat
import Mathlib.Tactic.Linarith
import Mathlib.Tactic.Positivity

/-! # The difference of two proportions

Two groups of trials, some of which passed.  The difference of their rates is measured in units of
the square root of its pooled variance, in an arithmetic that rounds each operation and has a square
root: `fl` and `root`, any two functions.  Where rounding is monotone and leaves zero and one alone,
the variance is not negative, so that there is a root to take (`variance_nonneg`). -/

namespace Foundations

/-- A number of trials and how many of them passed. -/
structure Proportion where
  trials : ℕ
  passes : ℕ
  passes_le : passes ≤ trials

namespace Proportion

variable (fl root : ℚ → ℚ) (p q : Proportion)

/-- The share of the trials that passed. -/
def rate : ℚ := fl (p.passes / p.trials)

/-- The share of the trials of both that passed. -/
def pooled : ℚ := fl ((p.passes + q.passes) / (p.trials + q.trials))

/-- The variance of the difference of the rates, were both groups alike. -/
def variance : ℚ :=
  let pooled := p.pooled fl q
  fl (fl (pooled * fl (1 - pooled)) * fl (fl (1 / p.trials) + fl (1 / q.trials)))

/-- The drop of the rate from one group to another. -/
def drop : ℚ := fl (q.rate fl - p.rate fl)

/-- The standard score of the drop; zero where there is no variance. -/
def score : ℚ := if p.variance fl q = 0 then 0 else fl (p.drop fl q / root (p.variance fl q))

variable {fl} (hmono : Monotone fl) (hzero : fl 0 = 0) (hone : fl 1 = 1)

include hmono hzero

theorem pooled_nonneg : 0 ≤ p.pooled fl q := by
  rw [← hzero]
  exact hmono (by positivity)

omit hzero in
include hone in
theorem pooled_le_one : p.pooled fl q ≤ 1 := by
  have hp : (p.passes : ℚ) ≤ p.trials := by exact_mod_cast p.passes_le
  have hq : (q.passes : ℚ) ≤ q.trials := by exact_mod_cast q.passes_le
  rw [← hone]
  exact hmono (div_le_one_of_le₀ (add_le_add hp hq) (by positivity))

include hone in
theorem variance_nonneg : 0 ≤ p.variance fl q := by
  have hfl : ∀ {x : ℚ}, 0 ≤ x → 0 ≤ fl x := fun h => hzero ▸ hmono h
  have hpooled := pooled_nonneg p q hmono hzero
  have hrest := hfl (sub_nonneg.2 (pooled_le_one p q hmono hone))
  have hfirst : 0 ≤ fl (1 / p.trials) := hfl (by positivity)
  have hsecond : 0 ≤ fl (1 / q.trials) := hfl (by positivity)
  exact hfl (mul_nonneg (hfl (mul_nonneg hpooled hrest)) (hfl (add_nonneg hfirst hsecond)))

end Proportion

end Foundations

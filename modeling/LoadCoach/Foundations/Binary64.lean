import Mathlib.Algebra.Order.Floor.Ring
import Mathlib.Data.Int.ConditionallyCompleteOrder
import Mathlib.Data.Int.Log
import Mathlib.Data.Nat.Sqrt
import Mathlib.Data.Rat.Floor
import Mathlib.Tactic.FieldSimp
import Mathlib.Tactic.Linarith
import Mathlib.Tactic.Positivity
import Mathlib.Tactic.Ring

/-! # Double precision

An operation on floating-point numbers is the exact operation, rounded to the nearest number of 53
bits (`toDouble`), of two that are as near to the even one.  Exponents have no bounds in `toDouble`:
nothing overflows, and nothing is lost near zero.  `Double` says which results are too large, as a
sum of floats needs it (`sum`).

Rounding is monotone (`toDouble_mono`), moves a number by no more than its 2⁵³-th part
(`abs_toDouble_sub_le`) and leaves a number of 53 bits alone (`toDouble_eq_self`). -/

namespace Foundations.Binary64

/-! ### The nearest integer -/

/-- The integer nearest to a number, of two the even one. -/
def nearest (x : ℚ) : ℤ :=
  let n := ⌊x⌋
  if x - n < 1 / 2 then n else if 1 / 2 < x - n then n + 1 else if Even n then n else n + 1

theorem floor_le_nearest (x : ℚ) : ⌊x⌋ ≤ nearest x := by
  unfold nearest
  dsimp only
  split_ifs <;> omega

theorem nearest_le_floor_add_one (x : ℚ) : nearest x ≤ ⌊x⌋ + 1 := by
  unfold nearest
  dsimp only
  split_ifs <;> omega

@[simp] theorem nearest_intCast (n : ℤ) : nearest n = n := by
  simp [nearest]

theorem nearest_mono : Monotone nearest := by
  intro x y hxy
  obtain hlt | heq := (Int.floor_le_floor hxy).lt_or_eq
  · calc nearest x ≤ ⌊x⌋ + 1 := nearest_le_floor_add_one x
      _ ≤ ⌊y⌋ := hlt
      _ ≤ nearest y := floor_le_nearest y
  · unfold nearest
    simp only [heq]
    split_ifs <;> first | omega | linarith

theorem abs_nearest_sub_le (x : ℚ) : |(nearest x : ℚ) - x| ≤ 1 / 2 := by
  have hle := Int.floor_le x
  have hlt := Int.lt_floor_add_one x
  unfold nearest
  dsimp only
  rw [abs_le]
  split_ifs <;> push_cast <;> constructor <;> linarith

theorem nearest_neg (x : ℚ) : nearest (-x) = -nearest x := by
  by_cases hint : ∃ n : ℤ, x = n
  · obtain ⟨n, rfl⟩ := hint
    rw [← Int.cast_neg, nearest_intCast, nearest_intCast]
  · -- between two integers the lower one becomes the upper one, and odd if it was even
    have hne : (⌊x⌋ : ℚ) ≠ x := fun h => hint ⟨⌊x⌋, h.symm⟩
    have hlt := lt_of_le_of_ne (Int.floor_le x) hne
    have hfloor : ⌊-x⌋ = -⌊x⌋ - 1 := by
      rw [Int.floor_eq_iff]
      have := Int.lt_floor_add_one x
      push_cast
      constructor <;> linarith
    unfold nearest
    simp only [hfloor, Int.even_sub_one, even_neg, Int.not_even_iff_odd]
    push_cast
    split_ifs <;> first | omega | (exfalso; linarith) | skip
    all_goals first | exact absurd ‹Even _› (Int.not_even_iff_odd.2 ‹Odd _›) | skip
    all_goals exact absurd (Int.not_even_iff_odd.1 ‹¬ Even _›) ‹¬ Odd _›

/-! ### The nearest number of 53 bits -/

/-- The distance of the numbers of 53 bits where a number is. -/
def spacing (x : ℚ) : ℚ := 2 ^ (Int.log 2 |x| - 52)

/-- A number, rounded to 53 bits. -/
def toDouble (x : ℚ) : ℚ := nearest (x / spacing x) * spacing x

theorem spacing_pos (x : ℚ) : 0 < spacing x := zpow_pos two_pos _

@[simp] theorem spacing_neg (x : ℚ) : spacing (-x) = spacing x := by
  rw [spacing, abs_neg, spacing]

@[simp] theorem toDouble_zero : toDouble 0 = 0 := by
  simp [toDouble, nearest]

@[simp] theorem toDouble_neg (x : ℚ) : toDouble (-x) = -toDouble x := by
  rw [toDouble, spacing_neg, neg_div, nearest_neg, toDouble]
  push_cast
  ring

theorem spacing_bounds {x : ℚ} (h : x ≠ 0) :
    2 ^ 52 * spacing x ≤ |x| ∧ |x| < 2 ^ 53 * spacing x := by
  have hpos : 0 < |x| := abs_pos.2 h
  have hle := Int.zpow_log_le_self one_lt_two hpos
  have hlt := Int.lt_zpow_succ_log_self one_lt_two |x|
  have hscale : ∀ k : ℤ, (2 : ℚ) ^ (k + 52) * spacing x = 2 ^ (Int.log 2 |x| + k) := by
    intro k
    rw [spacing, ← zpow_add₀ two_ne_zero]
    congr 1
    ring
  have hlow := hscale 0
  have hhigh := hscale 1
  rw [zero_add, add_zero] at hlow
  norm_num at hlow hhigh hle hlt ⊢
  exact ⟨hlow.trans_le hle, hlt.trans_eq hhigh.symm⟩

theorem abs_toDouble_sub_le (x : ℚ) : |toDouble x - x| ≤ |x| / 2 ^ 53 := by
  by_cases h : x = 0
  · simp [h]
  · have hpos := spacing_pos x
    have hdiff : toDouble x - x = (nearest (x / spacing x) - x / spacing x) * spacing x := by
      rw [toDouble, sub_mul, div_mul_cancel₀ _ hpos.ne']
    have hnear := abs_nearest_sub_le (x / spacing x)
    have hbits := (spacing_bounds h).1
    calc |toDouble x - x| = |(nearest (x / spacing x) : ℚ) - x / spacing x| * spacing x := by
          rw [hdiff, abs_mul, abs_of_pos hpos]
      _ ≤ 1 / 2 * spacing x := by gcongr
      _ ≤ |x| / 2 ^ 53 := by linarith

theorem abs_toDouble_sub_le_of_le {x b : ℚ} (h : |x| ≤ b) : |toDouble x - x| ≤ b / 2 ^ 53 :=
  (abs_toDouble_sub_le x).trans (by gcongr)

/-- **A number of 53 bits is not rounded.** -/
theorem toDouble_eq_self {x : ℚ} {m k : ℤ} (hm : |m| < 2 ^ 53) (hx : x = m * 2 ^ k) :
    toDouble x = x := by
  by_cases h : x = 0
  · simp [h]
  · have hlog : Int.log 2 |x| - 52 ≤ k := by
      have hpow : (0 : ℚ) < 2 ^ k := zpow_pos two_pos _
      have hlt : |x| < ((2 : ℕ) : ℚ) ^ (k + 53) := by
        rw [hx, abs_mul, abs_of_pos hpow, Nat.cast_two, zpow_add₀ two_ne_zero, mul_comm]
        exact mul_lt_mul_of_pos_left (by exact_mod_cast hm) hpow
      have hlow := (Int.lt_zpow_iff_log_lt one_lt_two (abs_pos.2 h)).1 hlt
      omega
    obtain ⟨j, hj⟩ := Int.le.dest hlog
    have hpow : (2 : ℚ) ^ k = 2 ^ (Int.log 2 |x| - 52) * 2 ^ j := by
      rw [← hj, zpow_add₀ two_ne_zero, zpow_natCast]
    have hquotient : x / spacing x = ((m * 2 ^ j : ℤ) : ℚ) := by
      rw [div_eq_iff (spacing_pos x).ne', spacing]
      push_cast
      calc x = m * 2 ^ k := hx
        _ = m * 2 ^ j * 2 ^ (Int.log 2 |x| - 52) := by rw [hpow]; ring
    rw [toDouble, hquotient, nearest_intCast, ← hquotient, div_mul_cancel₀ _ (spacing_pos x).ne']

theorem toDouble_intCast {n : ℤ} (h : |n| < 2 ^ 53) : toDouble n = n :=
  toDouble_eq_self h (k := 0) (by simp)

@[simp] theorem toDouble_one : toDouble 1 = 1 := by
  exact_mod_cast toDouble_intCast (n := 1) (by norm_num)

theorem toDouble_nonneg {x : ℚ} (h : 0 ≤ x) : 0 ≤ toDouble x := by
  have hnearest : 0 ≤ nearest (x / spacing x) := by
    have hmono := nearest_mono (div_nonneg h (spacing_pos x).le)
    rwa [← Int.cast_zero, nearest_intCast] at hmono
  have hpos := spacing_pos x
  rw [toDouble]
  positivity

theorem toDouble_bounds {x : ℚ} (h : 0 < x) :
    2 ^ Int.log 2 x ≤ toDouble x ∧ toDouble x ≤ 2 ^ (Int.log 2 x + 1) := by
  have hpos := spacing_pos x
  obtain ⟨hlow, hhigh⟩ := spacing_bounds h.ne'
  rw [abs_of_pos h] at hlow hhigh
  have hlower : ((2 ^ 52 : ℤ) : ℚ) ≤ nearest (x / spacing x) := by
    have hle : ((2 ^ 52 : ℤ) : ℚ) ≤ x / spacing x := by
      rw [le_div_iff₀ hpos]
      exact_mod_cast hlow
    have hmono := nearest_mono hle
    rw [nearest_intCast] at hmono
    exact_mod_cast hmono
  have hupper : (nearest (x / spacing x) : ℚ) ≤ ((2 ^ 53 : ℤ) : ℚ) := by
    have hle : x / spacing x ≤ ((2 ^ 53 : ℤ) : ℚ) := by
      rw [div_le_iff₀ hpos]
      exact_mod_cast hhigh.le
    have hmono := nearest_mono hle
    rw [nearest_intCast] at hmono
    exact_mod_cast hmono
  have hbits : (2 : ℚ) ^ 52 * spacing x = 2 ^ Int.log 2 x := by
    rw [spacing, abs_of_pos h, ← zpow_natCast, ← zpow_add₀ two_ne_zero]
    congr 1
    omega
  have hnext : (2 : ℚ) ^ 53 * spacing x = 2 ^ (Int.log 2 x + 1) := by
    rw [zpow_add_one₀ two_ne_zero, ← hbits]
    ring
  push_cast at hlower hupper
  rw [← hbits, ← hnext, toDouble]
  exact ⟨mul_le_mul_of_nonneg_right hlower hpos.le, mul_le_mul_of_nonneg_right hupper hpos.le⟩

/-- **Rounding is monotone.** -/
theorem toDouble_mono : Monotone toDouble := by
  have hpositive : ∀ x y : ℚ, 0 < x → x ≤ y → toDouble x ≤ toDouble y := by
    intro x y hx hxy
    have hy := hx.trans_le hxy
    obtain hlt | heq := (Int.log_mono_right (b := 2) hx hxy).lt_or_eq
    · -- a power of two lies between them
      calc toDouble x ≤ 2 ^ (Int.log 2 x + 1) := (toDouble_bounds hx).2
        _ ≤ 2 ^ Int.log 2 y := zpow_le_zpow_right₀ one_le_two hlt
        _ ≤ toDouble y := (toDouble_bounds hy).1
    · have hsame : spacing x = spacing y := by
        rw [spacing, spacing, abs_of_pos hx, abs_of_pos hy, heq]
      rw [toDouble, toDouble, hsame]
      have hpos := spacing_pos y
      gcongr
      exact_mod_cast nearest_mono (div_le_div_of_nonneg_right hxy hpos.le)
  intro x y hxy
  obtain hx | hx := lt_or_ge 0 x
  · exact hpositive x y hx hxy
  · obtain hy | hy := le_or_gt 0 y
    · have hlow := toDouble_nonneg (neg_nonneg.2 hx)
      rw [toDouble_neg] at hlow
      exact (neg_nonneg.1 hlow).trans (toDouble_nonneg hy)
    · have hneg := hpositive (-y) (-x) (neg_pos.2 hy) (neg_le_neg hxy)
      rw [toDouble_neg, toDouble_neg] at hneg
      exact neg_le_neg_iff.1 hneg

/-! ### Square roots -/

/-- The square root of a number that is not negative, rounded to 53 bits. -/
def sqrt (x : ℚ) : ℚ :=
  let scale : ℚ := 2 ^ (52 - Int.log 4 x)
  ((Nat.sqrt ⌊4 * (x * scale ^ 2)⌋₊ + 1) / 2 : ℕ) / scale

-- `0.1 + 0.2` is not `0.3`
example : toDouble (toDouble (1 / 10) + toDouble (2 / 10)) ≠ toDouble (3 / 10) := by decide +kernel

/-! ### Sums -/

/-- The largest number there is. -/
def maxDouble : ℚ := (2 ^ 53 - 1) * 2 ^ 971

/-- The result of an operation: a number, or an infinity where it is too large. -/
inductive Double where
  | finite (x : ℚ)
  | infinite (negative : Bool)
deriving DecidableEq

def Double.ofRat (x : ℚ) : Double :=
  if |toDouble x| ≤ maxDouble then .finite (toDouble x) else .infinite (x < 0)

/-- The rest of a sum, with what the additions so far have lost. -/
def sumFrom (total lost : ℚ) : List ℚ → Double
  | [] => .ofRat (total + lost)
  | x :: xs =>
      match Double.ofRat (total + x) with
      -- what an overflow leaves stays, whatever finite number is added
      | .infinite negative => .infinite negative
      | .finite next =>
          let (larger, smaller) := if |x| ≤ |total| then (total, x) else (x, total)
          sumFrom next (toDouble (lost + toDouble (toDouble (larger - next) + smaller))) xs

/-- `sum` of floats: what the additions lose is summed as well, and added at the end. -/
def sum (xs : List ℚ) : Double := sumFrom 0 0 xs

/-- Ten tenths are one, as they are not when they are added one by one. -/
example : sum (List.replicate 10 (toDouble (1 / 10))) = .finite 1 := by decide +kernel

end Foundations.Binary64

import Mathlib.Algebra.Order.Field.Rat
import LoadCoach.Foundations.Json

/-! # Numbers

What the arithmetic of a dynamic language makes of the numbers a JSON reader produces: an integer
stays one, a float is compared as the rational it is, the infinities lie beyond all of them, and a
comparison with what is not a number is false whichever way it goes.  The rounding of a sum is left
out. -/

namespace Foundations

/-- An integer or a float. -/
inductive Number where
  | int (n : ℤ)
  | float (q : ℚ)
  | nan
  | infinity
  | negInfinity
deriving DecidableEq, Repr

namespace Number

/-- The number a float is. -/
def ofFloat : JsonFloat → Number
  | .literal mantissa exponent => .float (mantissa * (10 : ℚ) ^ exponent)
  | .nan => .nan
  | .infinity => .infinity
  | .negInfinity => .negInfinity

/-- The rational a finite number is. -/
def value : Number → ℚ
  | .int n => n
  | .float q => q
  | _ => 0

/-- `x < y`. -/
def lt : Number → Number → Bool
  | .nan, _ => false
  | _, .nan => false
  | .negInfinity, y => y != .negInfinity
  | .infinity, _ => false
  | _, .infinity => true
  | _, .negInfinity => false
  | x, y => decide (x.value < y.value)

/-- `x <= y`. -/
def le : Number → Number → Bool
  | .nan, _ => false
  | _, .nan => false
  | .negInfinity, _ => true
  | _, .infinity => true
  | .infinity, _ => false
  | _, .negInfinity => false
  | x, y => decide (x.value ≤ y.value)

/-- `x == y`. -/
def same (x y : Number) : Bool := x.le y && y.le x

/-- Whether a number has no fractional part. -/
def integral : Number → Bool
  | .int _ => true
  | .float q => q.den == 1
  | _ => false

/-- `x + n`. -/
def plus (n : ℤ) : Number → Number
  | .int x => .int (x + n)
  | .float x => .float (x + n)
  | x => x

/-- `x <= bound`. -/
def atMost (bound : ℤ) : Number → Bool
  | .int x => decide (x ≤ bound)
  | .float x => decide (x ≤ bound)
  | .negInfinity => true
  | _ => false

/-- `bound < x`. -/
def exceeds (bound : ℤ) : Number → Bool
  | .int x => decide (bound < x)
  | .float x => decide ((bound : ℚ) < x)
  | .infinity => true
  | _ => false

/-- `min(x, bound)`: the bound if it is below `x`. -/
def capped (bound : ℤ) (x : Number) : Number := if x.exceeds bound then .int bound else x

theorem not_lt_eq_le {x y : Number} (hx : x ≠ .nan) (hy : y ≠ .nan) : (!x.lt y) = y.le x := by
  have hfinite : ∀ p q : ℚ, (!decide (p < q)) = decide (q ≤ p) := by
    intro p q
    rw [← decide_not, decide_eq_decide, not_lt]
  cases x <;> cases y <;>
    first
    | exact absurd rfl hx
    | exact absurd rfl hy
    | exact hfinite _ _
    | rfl

theorem ne_nan_of_integral {x : Number} (h : x.integral = true) : x ≠ .nan := by
  rintro rfl
  cases h

/-- A number lies on one side of a bound; what is not a number lies on neither. -/
theorem exceeds_eq_not_atMost {x : Number} (h : x ≠ .nan) (bound : ℤ) :
    x.exceeds bound = !x.atMost bound := by
  cases x with
  | int n =>
      by_cases hle : n ≤ bound
      · simp [exceeds, atMost, hle, not_lt.2 hle]
      · simp [exceeds, atMost, hle, not_le.1 hle]
  | float q =>
      by_cases hle : q ≤ bound
      · simp [exceeds, atMost, hle, not_lt.2 hle]
      · simp [exceeds, atMost, hle, not_le.1 hle]
  | nan => exact absurd rfl h
  | infinity => rfl
  | negInfinity => rfl

@[simp] theorem plus_eq_nan {x : Number} {n : ℤ} : x.plus n = .nan ↔ x = .nan := by
  cases x <;> simp [plus]

end Number

namespace Json

/-- The number a value is; a boolean is none. -/
def number? : Json → Option Number
  | .int n => some (.int n)
  | .float x => some (.ofFloat x)
  | _ => none

/-- The number a value is counted as; a boolean is one or zero. -/
def numberOf : Json → Option Number
  | .bool b => some (.int (if b then 1 else 0))
  | value => value.number?

end Json

end Foundations

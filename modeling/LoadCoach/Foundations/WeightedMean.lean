import Mathlib.Algebra.BigOperators.Group.List.Basic
import Mathlib.Algebra.Order.BigOperators.Group.List
import Mathlib.Algebra.Order.Field.Basic

/-! # Weighted means

The mean of the values of a list under weights, zero where the weights sum to nothing.  It depends
on the elements and not on their order, and with weights that are not negative it stays between the
bounds of the values. -/

namespace Foundations

variable {α K : Type*} [Field K] {w v : α → K} {l l' : List α}

/-- The mean of the values under the weights. -/
def weightedMean (w v : α → K) (l : List α) : K := (l.map fun a => w a * v a).sum / (l.map w).sum

theorem weightedMean_map {β : Type*} (f : β → α) (l : List β) :
    weightedMean w v (l.map f) = weightedMean (w ∘ f) (v ∘ f) l := by
  rw [weightedMean, List.map_map, List.map_map]
  rfl

theorem weightedMean_perm (h : l.Perm l') : weightedMean w v l = weightedMean w v l' := by
  rw [weightedMean, weightedMean, (h.map _).sum_eq, (h.map _).sum_eq]

section Order

variable [LinearOrder K] [IsStrictOrderedRing K]

theorem weightedMean_nonneg (hw : ∀ a ∈ l, 0 ≤ w a) (hv : ∀ a ∈ l, 0 ≤ v a) :
    0 ≤ weightedMean w v l := by
  refine div_nonneg (List.sum_nonneg ?_) (List.sum_nonneg ?_) <;> intro x hx
  · obtain ⟨a, ha, rfl⟩ := List.mem_map.1 hx
    exact mul_nonneg (hw a ha) (hv a ha)
  · obtain ⟨a, ha, rfl⟩ := List.mem_map.1 hx
    exact hw a ha

theorem weightedMean_le_one (hw : ∀ a ∈ l, 0 ≤ w a) (hv : ∀ a ∈ l, v a ≤ 1) :
    weightedMean w v l ≤ 1 := by
  refine div_le_one_of_le₀ (List.sum_le_sum fun a ha => ?_) (List.sum_nonneg fun x hx => ?_)
  · exact mul_le_of_le_one_right (hw a ha) (hv a ha)
  · obtain ⟨a, ha, rfl⟩ := List.mem_map.1 hx
    exact hw a ha

end Order

end Foundations

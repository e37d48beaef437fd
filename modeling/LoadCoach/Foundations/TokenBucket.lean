import Mathlib.Algebra.Order.Field.Basic
import Mathlib.Tactic.Linarith
import Mathlib.Tactic.Ring

/-! # Token buckets

A bucket holds up to `capacity` tokens and is refilled at a rate; a request takes one token or
waits.  What a bucket has to give at an instant (`available`) does not depend on when it was last
refilled (`available_refill`), grows no faster than the rate (`available_le_add`), and is one less
after a request was admitted (`available_take_of_le`); so the requests admitted over an interval are
bounded by what was available at its start and what was refilled since.

`le_available_of_wait` is what the wait of a refused request promises. -/

namespace Foundations

/-- One budget: `capacity` at rest, refilled at `perSecond`. -/
structure TokenBucket (K : Type*) where
  capacity : K
  perSecond : K
  tokens : K
  updatedAt : K

namespace TokenBucket

variable {K : Type*} [Field K] [LinearOrder K]

/-- The tokens at an instant, taking none. -/
def available (b : TokenBucket K) (now : K) : K :=
  min b.capacity (b.tokens + max (now - b.updatedAt) 0 * b.perSecond)

/-- The refill up to an instant. -/
def refill (b : TokenBucket K) (now : K) : TokenBucket K :=
  { b with tokens := b.available now, updatedAt := now }

/-- The time until one token is there at the current level; `none` for ever. -/
def waitSeconds (b : TokenBucket K) : Option K :=
  if 1 ≤ b.tokens then some 0
  else if 0 < b.perSecond then some ((1 - b.tokens) / b.perSecond)
  else none

/-- Takes one token: no wait where there is one, else the time until there would be. -/
def take (b : TokenBucket K) (now : K) : TokenBucket K × Option K :=
  let refilled := b.refill now
  if 1 ≤ refilled.tokens then ({ refilled with tokens := refilled.tokens - 1 }, some 0)
  else (refilled, refilled.waitSeconds)

/-- A full bucket. -/
def full (capacity perSecond now : K) : TokenBucket K :=
  { capacity, perSecond, tokens := capacity, updatedAt := now }

/-- A bucket that was last refilled by an instant. -/
structure Sound (b : TokenBucket K) (now : K) : Prop where
  rate : 0 ≤ b.perSecond
  tokens : 0 ≤ b.tokens
  updated : b.updatedAt ≤ now

variable {b : TokenBucket K} {now now' : K}

@[simp] theorem capacity_refill : (b.refill now).capacity = b.capacity := rfl

@[simp] theorem perSecond_refill : (b.refill now).perSecond = b.perSecond := rfl

@[simp] theorem tokens_refill : (b.refill now).tokens = b.available now := rfl

@[simp] theorem updatedAt_refill : (b.refill now).updatedAt = now := rfl

@[simp] theorem capacity_take : (b.take now).1.capacity = b.capacity := by
  rw [take]
  split <;> rfl

@[simp] theorem perSecond_take : (b.take now).1.perSecond = b.perSecond := by
  rw [take]
  split <;> rfl

@[simp] theorem updatedAt_take : (b.take now).1.updatedAt = now := by
  rw [take]
  split <;> rfl

theorem available_le_capacity : b.available now ≤ b.capacity := min_le_left _ _

theorem Sound.mono (h : b.Sound now) (hle : now ≤ now') : b.Sound now' :=
  ⟨h.rate, h.tokens, h.updated.trans hle⟩

theorem take_of_le (h : 1 ≤ b.available now) :
    b.take now = ({ b.refill now with tokens := b.available now - 1 }, some 0) := if_pos h

theorem take_of_lt (h : b.available now < 1) :
    b.take now = (b.refill now, (b.refill now).waitSeconds) := if_neg (not_le.2 h)

variable [IsStrictOrderedRing K]

theorem Sound.available_eq (h : b.Sound now) :
    b.available now = min b.capacity (b.tokens + (now - b.updatedAt) * b.perSecond) := by
  rw [available, max_eq_left (sub_nonneg.2 h.updated)]

theorem Sound.available_nonneg (h : b.Sound now) (hcapacity : 0 ≤ b.capacity) :
    0 ≤ b.available now := by
  rw [h.available_eq]
  have hrefilled := mul_nonneg (sub_nonneg.2 h.updated) h.rate
  exact le_min hcapacity (add_nonneg h.tokens hrefilled)

/-- **What is available grows no faster than the rate.** -/
theorem Sound.available_le_add (h : b.Sound now) (hle : now ≤ now') :
    b.available now' ≤ b.available now + (now' - now) * b.perSecond := by
  have hrefilled := mul_nonneg (sub_nonneg.2 hle) h.rate
  rw [h.available_eq, (h.mono hle).available_eq, ← min_add_add_right]
  refine min_le_min (by linarith) (le_of_eq ?_)
  ring

theorem Sound.available_mono (h : b.Sound now) (hle : now ≤ now') :
    b.available now ≤ b.available now' := by
  rw [h.available_eq, (h.mono hle).available_eq]
  have hrefilled := mul_nonneg (sub_nonneg.2 hle) h.rate
  refine min_le_min le_rfl ?_
  linarith

theorem Sound.available_refill (h : b.Sound now) (hle : now ≤ now') :
    (b.refill now).available now' = b.available now' := by
  have hrefilled := mul_nonneg (sub_nonneg.2 hle) h.rate
  rw [available, capacity_refill, tokens_refill, updatedAt_refill, perSecond_refill,
    max_eq_left (sub_nonneg.2 hle), h.available_eq, (h.mono hle).available_eq,
    ← min_add_add_right, ← min_assoc, min_eq_left (le_add_of_nonneg_right hrefilled)]
  congr 1
  ring

theorem Sound.refill (h : b.Sound now) (hcapacity : 0 ≤ b.capacity) :
    (b.refill now).Sound now :=
  ⟨h.rate, h.available_nonneg hcapacity, le_rfl⟩

/-! ### Taking a token -/

theorem take_admits_iff : (b.take now).2 = some 0 ↔ 1 ≤ b.available now := by
  by_cases h : 1 ≤ b.available now
  · simp [take_of_le h, h]
  · have hpos : 0 < 1 - b.available now := sub_pos.2 (not_le.1 h)
    rw [take_of_lt (not_le.1 h), waitSeconds, tokens_refill, if_neg h]
    refine iff_of_false ?_ h
    split
    · rename_i hrate
      exact fun hzero => (div_pos hpos hrate).ne' (Option.some.inj hzero)
    · exact nofun

theorem Sound.take (h : b.Sound now) (hcapacity : 0 ≤ b.capacity) : (b.take now).1.Sound now := by
  by_cases hone : 1 ≤ b.available now
  · rw [take_of_le hone]
    exact ⟨h.rate, sub_nonneg.2 hone, le_rfl⟩
  · rw [take_of_lt (not_le.1 hone)]
    exact h.refill hcapacity

/-- **After a request was admitted** there is one token less. -/
theorem available_take_of_le (hone : 1 ≤ b.available now) :
    (b.take now).1.available now = b.available now - 1 := by
  have hcapacity := @available_le_capacity K _ _ b now
  rw [take_of_le hone]
  change min b.capacity (b.available now - 1 + max (now - now) 0 * b.perSecond) = _
  rw [sub_self, max_self, zero_mul, add_zero]
  exact min_eq_right (by linarith)

/-- **The wait is honest**: once it is over, a token is available. -/
theorem Sound.le_available_of_wait (h : b.Sound now) {wait : K}
    (hwait : (b.refill now).waitSeconds = some wait) (hcapacity : 1 ≤ b.capacity)
    (hle : now + wait ≤ now') (hnow : now ≤ now') : 1 ≤ b.available now' := by
  rw [waitSeconds, tokens_refill, perSecond_refill] at hwait
  split at hwait
  · rename_i hone
    exact hone.trans (h.available_mono hnow)
  · split at hwait
    · rename_i hrate
      rw [← h.available_refill hnow, available, capacity_refill, tokens_refill, updatedAt_refill,
        perSecond_refill, max_eq_left (sub_nonneg.2 hnow)]
      refine le_min hcapacity ?_
      have hlater : wait * b.perSecond ≤ (now' - now) * b.perSecond :=
        mul_le_mul_of_nonneg_right (by linarith) h.rate
      rw [← Option.some.inj hwait, div_mul_cancel₀ _ hrate.ne'] at hlater
      linarith
    · cases hwait

theorem available_full {capacity perSecond created : K} (hrate : 0 ≤ perSecond) :
    (full capacity perSecond created).available now = capacity := by
  rw [available, full]
  exact min_eq_left (le_add_of_nonneg_right (mul_nonneg (le_max_right _ _) hrate))

theorem refill_full {capacity perSecond created : K} (hrate : 0 ≤ perSecond) :
    (full capacity perSecond created).refill now = full capacity perSecond now := by
  rw [refill, available_full hrate]
  rfl

theorem take_full {capacity perSecond created : K} (hrate : 0 ≤ perSecond) :
    (full capacity perSecond created).take now = (full capacity perSecond now).take now := by
  rw [TokenBucket.take, TokenBucket.take, refill_full hrate, refill_full hrate]

end TokenBucket

end Foundations

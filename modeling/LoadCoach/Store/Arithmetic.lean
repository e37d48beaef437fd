import Mathlib.Tactic.NormNum.Inv
import LoadCoach.Foundations.Binary64
import LoadCoach.Values

/-! # The arithmetic of the database

The max-wait and the ageing sweep compute in SQL: the time a row has waited is the difference of two
Julian days, and what is made of it is rounded after each operation.  A `SqlArithmetic` says how,
and how near it stays to the exact numbers.  `exact` is the one without rounding, and `sqlite` that
of SQLite: a Julian day counts whole milliseconds and is a number of double precision, so that a
waiting time is off by two milliseconds at most (`Sqlite.elapsed_near`). -/

namespace LoadCoach

open Foundations

/-! ### Instants -/

/-- The instants of `datetime`, the years 1 to 9999. -/
def IsDatetime (t : Instant) : Prop := -62135596800000000 ≤ t ∧ t < 253402300800000000

instance IsDatetime.decidable (t : Instant) : Decidable (IsDatetime t) :=
  inferInstanceAs (Decidable (_ ∧ _))

/-- The seconds from one instant to another. -/
def exactSeconds (now queuedAt : Instant) : ℚ := ((now - queuedAt : ℤ) : ℚ) / 1000000

/-- The resolution of a waiting time, in seconds. -/
def waitResolution : ℚ := 1 / 500

/-- The arithmetic of a database. -/
structure SqlArithmetic where
  /-- `_waiting_seconds`. -/
  elapsed : Instant → Instant → ℚ
  /-- What an operation on numbers is rounded to. -/
  round : ℚ → ℚ
  elapsed_self : ∀ now, elapsed now now = 0
  elapsed_anti : ∀ now, Antitone (elapsed now)
  elapsed_near : ∀ now queuedAt, IsDatetime now → IsDatetime queuedAt →
    |elapsed now queuedAt - exactSeconds now queuedAt| ≤ waitResolution
  round_mono : Monotone round
  round_near : ∀ x, |round x - x| ≤ |x| / 2 ^ 53

namespace SqlArithmetic

variable (sql : SqlArithmetic)

theorem elapsed_nonneg {now queuedAt : Instant} (h : queuedAt ≤ now) :
    0 ≤ sql.elapsed now queuedAt :=
  (sql.elapsed_self now).symm.trans_le (sql.elapsed_anti now h)

theorem round_zero : sql.round 0 = 0 := by
  simpa using sql.round_near 0

theorem round_nonneg {x : ℚ} (h : 0 ≤ x) : 0 ≤ sql.round x :=
  sql.round_zero.symm.trans_le (sql.round_mono h)

theorem round_bounds {x : ℚ} (h : 0 ≤ x) :
    x - x / 2 ^ 53 ≤ sql.round x ∧ sql.round x ≤ x + x / 2 ^ 53 := by
  have hnear := abs_le.1 (sql.round_near x)
  rw [abs_of_nonneg h] at hnear
  constructor <;> linarith

end SqlArithmetic

theorem exactSeconds_anti (now : Instant) : Antitone (exactSeconds now) := by
  intro q q' h
  unfold exactSeconds
  gcongr

theorem exactSeconds_le {now queuedAt : Instant} (hnow : IsDatetime now)
    (hqueued : IsDatetime queuedAt) : exactSeconds now queuedAt ≤ 320000000000 := by
  have hhigh : (now : ℚ) < 253402300800000000 := by exact_mod_cast hnow.2
  have hlow : (-62135596800000000 : ℚ) ≤ queuedAt := by exact_mod_cast hqueued.1
  rw [exactSeconds, div_le_iff₀ (by norm_num)]
  push_cast
  linarith

/-- Nothing is rounded. -/
def SqlArithmetic.exact : SqlArithmetic where
  elapsed := exactSeconds
  round := id
  elapsed_self now := by simp [exactSeconds]
  elapsed_anti := exactSeconds_anti
  elapsed_near _ _ _ _ := by
    rw [sub_self, abs_zero]
    norm_num [waitResolution]
  round_mono := monotone_id
  round_near x := by
    rw [id, sub_self, abs_zero]
    positivity

/-! ### SQLite -/

namespace Sqlite

open Binary64

/-- The milliseconds of a minute, from its microseconds: the seconds are read as a decimal fraction
and rounded to the nearest millisecond. -/
def millisecondsOfMinute (m : ℤ) : ℤ :=
  let second := toDouble ((m / 1000000 : ℤ) + toDouble ((m % 1000000 : ℤ) / 1000000))
  ⌊toDouble (toDouble (second * 1000) + 1 / 2)⌋

/-- The milliseconds since the origin of the Julian days. -/
def julianMilliseconds (t : Instant) : ℤ :=
  t / 60000000 * 60000 + millisecondsOfMinute (t % 60000000) + 210866760000000

/-- `julianday`. -/
def julianday (t : Instant) : ℚ := toDouble (julianMilliseconds t / 86400000)

/-- `(julianday(now) - julianday(queued_at)) * 86400.0`. -/
def elapsed (now queuedAt : Instant) : ℚ :=
  toDouble (toDouble (julianday now - julianday queuedAt) * 86400)

theorem millisecondsOfMinute_mono {m m' : ℤ} (h : m ≤ m') :
    millisecondsOfMinute m ≤ millisecondsOfMinute m' := by
  have hone : toDouble ((m % 1000000 : ℤ) / 1000000) ≤ 1 := by
    rw [← toDouble_one]
    refine toDouble_mono ((div_le_one (by norm_num)).2 ?_)
    exact_mod_cast (Int.emod_lt_of_pos m (by norm_num)).le
  have hseconds : ((m / 1000000 : ℤ) : ℚ) + toDouble ((m % 1000000 : ℤ) / 1000000) ≤
      (m' / 1000000 : ℤ) + toDouble ((m' % 1000000 : ℤ) / 1000000) := by
    obtain hlt | heq := (Int.ediv_le_ediv (by norm_num : (0 : ℤ) < 1000000) h).lt_or_eq
    · have hnonneg : 0 ≤ toDouble ((m' % 1000000 : ℤ) / 1000000) :=
        toDouble_nonneg (div_nonneg (by exact_mod_cast Int.emod_nonneg m' (by norm_num))
          (by norm_num))
      have hstep : ((m / 1000000 : ℤ) : ℚ) + 1 ≤ (m' / 1000000 : ℤ) := by exact_mod_cast hlt
      linarith
    · rw [heq]
      have hrest : m % 1000000 ≤ m' % 1000000 := by omega
      have hcast : ((m % 1000000 : ℤ) : ℚ) ≤ (m' % 1000000 : ℤ) := by exact_mod_cast hrest
      have := toDouble_mono (div_le_div_of_nonneg_right hcast (by norm_num : (0 : ℚ) ≤ 1000000))
      linarith
  refine Int.floor_mono (toDouble_mono (add_le_add_left (toDouble_mono ?_) _))
  exact mul_le_mul_of_nonneg_right (toDouble_mono hseconds) (by norm_num)

theorem millisecondsOfMinute_bounds {m : ℤ} (hm : 0 ≤ m) (hm' : m < 60000000) :
    0 ≤ millisecondsOfMinute m ∧ millisecondsOfMinute m ≤ 60000 := by
  have hlow : millisecondsOfMinute 0 = 0 := by decide +kernel
  have hhigh : millisecondsOfMinute 59999999 = 60000 := by decide +kernel
  exact ⟨hlow ▸ millisecondsOfMinute_mono hm,
    hhigh ▸ millisecondsOfMinute_mono (by omega : m ≤ 59999999)⟩

theorem julianMilliseconds_mono : Monotone julianMilliseconds := by
  intro (t : ℤ) (t' : ℤ) (h : t ≤ t')
  unfold julianMilliseconds
  obtain hlt | heq := (Int.ediv_le_ediv (by norm_num : (0 : ℤ) < 60000000) h).lt_or_eq
  · have hlow := (millisecondsOfMinute_bounds (m := t' % 60000000) (by omega) (by omega)).1
    have hhigh := (millisecondsOfMinute_bounds (m := t % 60000000) (by omega) (by omega)).2
    omega
  · have hrest : t % 60000000 ≤ t' % 60000000 := by omega
    have hms := millisecondsOfMinute_mono hrest
    omega

theorem julianday_mono : Monotone julianday := by
  intro t t' h
  have hle : ((julianMilliseconds t : ℤ) : ℚ) ≤ julianMilliseconds t' := by
    exact_mod_cast julianMilliseconds_mono h
  exact toDouble_mono (div_le_div_of_nonneg_right hle (by norm_num))

theorem elapsed_anti (now : Instant) : Antitone (elapsed now) := by
  intro q q' h
  refine toDouble_mono (mul_le_mul_of_nonneg_right (toDouble_mono ?_) (by norm_num))
  exact sub_le_sub_left (julianday_mono h) _

theorem millisecondsOfMinute_near {m : ℤ} (hm : 0 ≤ m) (hm' : m < 60000000) :
    |(millisecondsOfMinute m : ℚ) - m / 1000| ≤ 51 / 100 := by
  have hsplit : (m : ℚ) = (m / 1000000 : ℤ) * 1000000 + (m % 1000000 : ℤ) := by
    exact_mod_cast (Int.ediv_mul_add_emod m 1000000).symm
  have hs : ((m / 1000000 : ℤ) : ℚ) ∈ Set.Icc 0 59 := by
    constructor <;> norm_cast <;> omega
  have hf : ((m % 1000000 : ℤ) : ℚ) ∈ Set.Icc 0 1000000 := by
    constructor <;> norm_cast <;> omega
  unfold millisecondsOfMinute
  generalize ((m / 1000000 : ℤ) : ℚ) = s at *
  generalize ((m % 1000000 : ℤ) : ℚ) = f at *
  obtain ⟨hs₀, hs₁⟩ := hs
  obtain ⟨hf₀, hf₁⟩ := hf
  dsimp only
  -- each rounding moves by a 2⁵³-th part of a number that is not large
  have h₁ := abs_le.1 (abs_toDouble_sub_le_of_le (x := f / 1000000) (b := 1)
    (abs_le.2 ⟨by linarith, by linarith⟩))
  generalize toDouble (f / 1000000) = x at *
  have h₂ := abs_le.1 (abs_toDouble_sub_le_of_le (x := s + x) (b := 61)
    (abs_le.2 ⟨by linarith, by linarith⟩))
  generalize toDouble (s + x) = y at *
  have h₃ := abs_le.1 (abs_toDouble_sub_le_of_le (x := y * 1000) (b := 62000)
    (abs_le.2 ⟨by linarith, by linarith⟩))
  generalize toDouble (y * 1000) = z at *
  have h₄ := abs_le.1 (abs_toDouble_sub_le_of_le (x := z + 1 / 2) (b := 63000)
    (abs_le.2 ⟨by linarith, by linarith⟩))
  generalize toDouble (z + 1 / 2) = w at *
  have hlow := Int.lt_floor_add_one w
  have hhigh := Int.floor_le w
  rw [abs_le]
  constructor <;> linarith

theorem julianMilliseconds_near (t : Instant) :
    |(julianMilliseconds t : ℚ) - (t / 1000 + 210866760000000)| ≤ 51 / 100 := by
  have hsplit : (t : ℚ) = (t / 60000000 : ℤ) * 60000000 + (t % 60000000 : ℤ) := by
    exact_mod_cast (Int.ediv_mul_add_emod t 60000000).symm
  have hnear := millisecondsOfMinute_near (m := t % 60000000) (by omega) (by omega)
  rw [abs_le] at hnear ⊢
  unfold julianMilliseconds
  push_cast at hnear hsplit ⊢
  constructor <;> linarith

theorem julianday_near {t : Instant} (h : IsDatetime t) :
    0 ≤ julianday t ∧ julianday t ≤ 5400000 ∧
      |julianday t - (t / 86400000000 + 4881175 / 2)| ≤ 7 / 1000000000 := by
  have hms := abs_le.1 (julianMilliseconds_near t)
  obtain ⟨hlow, hhigh⟩ := h
  have hlow' : (-62135596800000000 : ℚ) ≤ t := by exact_mod_cast hlow
  have hhigh' : (t : ℚ) < 253402300800000000 := by exact_mod_cast hhigh
  unfold julianday
  generalize ((julianMilliseconds t : ℤ) : ℚ) = j at *
  have hday := abs_le.1 (abs_toDouble_sub_le_of_le (x := j / 86400000) (b := 5390000)
    (abs_le.2 ⟨by linarith, by linarith⟩))
  generalize toDouble (j / 86400000) = x at *
  refine ⟨by linarith, by linarith, abs_le.2 ⟨by linarith, by linarith⟩⟩

/-- **A waiting time is off by two milliseconds at most.** -/
theorem elapsed_near {now queuedAt : Instant} (hnow : IsDatetime now)
    (hqueued : IsDatetime queuedAt) :
    |elapsed now queuedAt - exactSeconds now queuedAt| ≤ waitResolution := by
  obtain ⟨hnow₀, hnow₁, hnow⟩ := julianday_near hnow
  obtain ⟨hqueued₀, hqueued₁, hqueued⟩ := julianday_near hqueued
  rw [abs_le] at hnow hqueued
  unfold elapsed exactSeconds waitResolution
  push_cast
  generalize julianday now = n at *
  generalize julianday queuedAt = q at *
  have h₁ := abs_le.1 (abs_toDouble_sub_le_of_le (x := n - q) (b := 5400000)
    (abs_le.2 ⟨by linarith, by linarith⟩))
  generalize toDouble (n - q) = x at *
  have h₂ := abs_le.1 (abs_toDouble_sub_le_of_le (x := x * 86400) (b := 466600000000)
    (abs_le.2 ⟨by linarith, by linarith⟩))
  generalize toDouble (x * 86400) = y at *
  rw [abs_le]
  constructor <;> linarith

-- a wait that is four tenths of a millisecond over an hour is not seen to be
example : 3600 < exactSeconds 3600000400 0 ∧ elapsed 3600000400 0 ≤ 3600 := by decide +kernel

end Sqlite

/-- The arithmetic of SQLite. -/
def SqlArithmetic.sqlite : SqlArithmetic where
  elapsed := Sqlite.elapsed
  round := Binary64.toDouble
  elapsed_self now := by simp [Sqlite.elapsed]
  elapsed_anti := Sqlite.elapsed_anti
  elapsed_near _ _ := Sqlite.elapsed_near
  round_mono := Binary64.toDouble_mono
  round_near := Binary64.abs_toDouble_sub_le

end LoadCoach

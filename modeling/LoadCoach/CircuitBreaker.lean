import Mathlib.Data.List.Sort
import LoadCoach.Values
import Mathlib.Algebra.Order.Ring.Rat

/-! # Circuit breakers

`domain/circuit_breaker.py`: one breaker per subject over a window of attempt outcomes.  A breaker
that trips excludes its subject for a cool-down, then lets a single probe through, and the first
outcome after the opening decides.  `evaluate` is the next verdict from the samples and the
previous one, in the four steps the source takes: the cool-down may have elapsed, a probe nobody
reported may be presumed lost, an outcome may decide a half-open breaker, and a closed one may
trip.  The registry (`CircuitBreakers`) holds the verdicts and hands the probe out.

The two ways a cool-down ends, that of the breaker and that of a probe, are `expired`.  Nothing
else takes a probe that is in flight from a breaker that stays half-open (`evaluate_halfOpen`).
The one-line reasons of the verdicts are left out. -/

namespace LoadCoach

open Foundations

/-! ### Verdicts -/

/-- The three states of a breaker. -/
inductive BreakerState where
  | closed
  | opened
  | halfOpen
deriving DecidableEq, Repr

/-- The spelling of a breaker's state. -/
def BreakerState.value : BreakerState → String
  | closed => "closed"
  | opened => "open"
  | halfOpen => "half_open"

/-- One attempt's outcome on one subject. -/
structure AttemptSample where
  instant : Instant
  succeeded : Bool
deriving DecidableEq, Repr

/-- A subject's breaker state and the numbers behind it. -/
structure BreakerVerdict where
  state : BreakerState := .closed
  failureRate : Option ℚ := none
  samples : ℕ := 0
  openedAt : Option Instant := none
  expiresAt : Option Instant := none
  probeInFlight : Bool := false
  closedAt : Option Instant := none
  probeStartedAt : Option Instant := none
deriving DecidableEq, Repr

namespace BreakerVerdict

/-- Whether routing must skip the subject right now. -/
def excludes (v : BreakerVerdict) : Bool :=
  v.state == .opened || v.state == .halfOpen && v.probeInFlight

/-- A half-open breaker whose probe is out. -/
def probing (v : BreakerVerdict) : Bool := v.state == .halfOpen && v.probeInFlight

/-- The record of a verdict, as far as admission reads it. -/
def asJson (canonicalId : String) (v : BreakerVerdict) : Members :=
  [("canonical_id", .str canonicalId), ("state", .str v.state.value),
   ("samples", .int v.samples), ("probe_in_flight", .bool v.probeInFlight)]

end BreakerVerdict

/-- The thresholds of a registry. -/
structure Thresholds where
  window : ℤ := seconds 600
  minSamples : ℕ := 5
  failureRate : ℚ := 1 / 2
  cooldown : ℤ := seconds 300

/-! ### The next verdict -/

namespace BreakerVerdict

/-- The samples that count: after the origin, not after now, the oldest first. -/
def recent (samples : List AttemptSample) (origin now : Instant) : List AttemptSample :=
  (samples.filter fun s => decide (origin < s.instant) && decide (s.instant ≤ now)).insertionSort
    fun a b => a.instant ≤ b.instant

/-- Failures over attempts. -/
def rateOf (recent : List AttemptSample) : Option ℚ :=
  if recent.isEmpty then none
  else some ((recent.filter fun s => !s.succeeded).length / recent.length)

/-- An open breaker whose cool-down has elapsed is half-open. -/
def cool (now : Instant) (v : BreakerVerdict) : BreakerVerdict :=
  if v.state = .opened ∧ v.expiresAt.any fun t => decide (t ≤ now) then
    { v with state := .halfOpen, probeInFlight := false, probeStartedAt := none }
  else
    v

/-- A probe that has not reported within one cool-down is presumed lost. -/
def presumeLost (cooldown : ℤ) (now : Instant) (v : BreakerVerdict) : BreakerVerdict :=
  if v.state = .halfOpen ∧ v.probeInFlight = true ∧
      v.probeStartedAt.any fun t => decide (t + cooldown ≤ now) then
    { v with probeInFlight := false, probeStartedAt := none }
  else
    v

/-- The last outcome after the opening decides a half-open breaker; what counts afterwards comes
with the verdict. -/
def report (cooldown : ℤ) (counted : List AttemptSample) (v : BreakerVerdict) :
    BreakerVerdict × List AttemptSample :=
  match v.state, v.openedAt with
  | .halfOpen, some openedAt =>
      match (counted.filter fun s => decide (openedAt < s.instant)).getLast? with
      | none => (v, counted)
      | some last =>
          if last.succeeded then
            ({ v with
                state := .closed, closedAt := some last.instant, openedAt := none
                expiresAt := none, probeInFlight := false, probeStartedAt := none },
              counted.filter fun s => decide (last.instant < s.instant))
          else
            ({ v with
                state := .opened, openedAt := some last.instant
                expiresAt := some (last.instant + cooldown), probeInFlight := false
                probeStartedAt := none },
              counted)
  | _, _ => (v, counted)

/-- A closed breaker trips where enough of the window failed. -/
def trip (thresholds : Thresholds) (counted : List AttemptSample) (v : BreakerVerdict) :
    BreakerVerdict :=
  match v.state, rateOf counted, counted.getLast? with
  | .closed, some rate, some last =>
      if thresholds.minSamples ≤ counted.length ∧ thresholds.failureRate ≤ rate then
        { v with
          state := .opened, openedAt := some last.instant
          expiresAt := some (last.instant + thresholds.cooldown), probeInFlight := false }
      else
        v
  | _, _, _ => v

/-- The samples that count for a verdict: those in the window, after the last closing. -/
def counted (thresholds : Thresholds) (samples : List AttemptSample) (now : Instant)
    (previous : BreakerVerdict) : List AttemptSample :=
  let horizon := now - thresholds.window
  recent samples ((previous.closedAt.map fun t => max horizon t).getD horizon) now

/-- The verdict once the cool-downs that ended are taken into account. -/
def cooled (cooldown : ℤ) (now : Instant) (v : BreakerVerdict) : BreakerVerdict :=
  (v.cool now).presumeLost cooldown now

/-- Compute the next verdict from the samples and the previous verdict. -/
def evaluate (thresholds : Thresholds) (samples : List AttemptSample) (now : Instant)
    (previous : Option BreakerVerdict) : BreakerVerdict :=
  let v := previous.getD {}
  let reported := (v.cooled thresholds.cooldown now).report thresholds.cooldown
    (counted thresholds samples now v)
  { reported.1.trip thresholds reported.2 with
    failureRate := rateOf reported.2, samples := reported.2.length }

/-- A cool-down ends in an evaluation: that of an open breaker, or that of a probe in flight. -/
def expired (cooldown : ℤ) (now : Instant) (v : BreakerVerdict) : Bool :=
  v.state == .opened && v.expiresAt.any (fun t => decide (t ≤ now)) ||
    v.state == .halfOpen && v.probeInFlight &&
      v.probeStartedAt.any fun t => decide (t + cooldown ≤ now)

theorem cool_of_opened {now : Instant} {v : BreakerVerdict} (hstate : v.state = .opened)
    (hexpires : v.expiresAt.any (fun t => decide (t ≤ now)) = true) :
    v.cool now = { v with state := .halfOpen, probeInFlight := false, probeStartedAt := none } := by
  rw [cool, if_pos ⟨hstate, hexpires⟩]

theorem cool_of_halfOpen {now : Instant} {v : BreakerVerdict} (hstate : v.state = .halfOpen) :
    v.cool now = v := by
  rw [cool, if_neg]
  rintro ⟨hopened, -⟩
  rw [hstate] at hopened
  cases hopened

/-- Where no cool-down ends, the first two steps change nothing. -/
theorem cooled_of_not_expired {cooldown : ℤ} {now : Instant} {v : BreakerVerdict}
    (h : v.expired cooldown now = false) : v.cooled cooldown now = v := by
  simp only [expired, Bool.or_eq_false_iff] at h
  obtain ⟨hopen, hprobe⟩ := h
  have hcool : v.cool now = v := by
    unfold cool
    rw [if_neg]
    rintro ⟨hstate, hexpires⟩
    simp [hstate, hexpires] at hopen
  rw [cooled, hcool, presumeLost, if_neg]
  rintro ⟨hstate, hflight, hstarted⟩
  simp [hstate, hflight, hstarted] at hprobe

theorem cooled_of_expired {cooldown : ℤ} {now : Instant} {v : BreakerVerdict}
    (h : v.expired cooldown now = true) : (v.cooled cooldown now).probeInFlight = false := by
  simp only [expired, Bool.or_eq_true, Bool.and_eq_true, beq_iff_eq] at h
  unfold cooled
  rcases h with ⟨hstate, hexpires⟩ | ⟨⟨hstate, hflight⟩, hstarted⟩
  · rw [cool_of_opened hstate hexpires]
    rfl
  · rw [cool_of_halfOpen hstate, presumeLost, if_pos ⟨hstate, hflight, hstarted⟩]

theorem report_halfOpen {cooldown : ℤ} {counted : List AttemptSample} {v : BreakerVerdict}
    (h : (v.report cooldown counted).1.state = .halfOpen) :
    v.report cooldown counted = (v, counted) := by
  cases hstate : v.state <;> cases hopened : v.openedAt <;>
    simp only [report, hstate, hopened] at h ⊢
  cases hlast : (counted.filter fun s => decide (_ < s.instant)).getLast? with
  | none => rfl
  | some last =>
      simp only [hlast] at h
      split at h <;> cases h

theorem trip_halfOpen {thresholds : Thresholds} {counted : List AttemptSample} {v : BreakerVerdict}
    (h : (v.trip thresholds counted).state = .halfOpen) : v.trip thresholds counted = v := by
  unfold trip at h ⊢
  split at h <;> rename_i hstate hrate hlast
  · split at h
    · cases h
    · rw [hstate] at h
      cases h
  · rfl

/-- **What an evaluation that ends half-open does.**  Either a cool-down ended and no probe is in
flight, or the breaker was half-open and its probe is as it was. -/
theorem evaluate_halfOpen {thresholds : Thresholds} {samples : List AttemptSample} {now : Instant}
    {previous : Option BreakerVerdict}
    (h : (evaluate thresholds samples now previous).state = .halfOpen) :
    ((previous.getD {}).expired thresholds.cooldown now = true ∧
        (evaluate thresholds samples now previous).probeInFlight = false) ∨
      ((previous.getD {}).expired thresholds.cooldown now = false ∧
        (previous.getD {}).state = .halfOpen ∧
        (evaluate thresholds samples now previous).probeInFlight =
          (previous.getD {}).probeInFlight) := by
  have htrip := trip_halfOpen h
  have hreport : (((previous.getD {}).cooled thresholds.cooldown now).report thresholds.cooldown
      (counted thresholds samples now (previous.getD {}))).1.state = .halfOpen := by
    rw [← htrip]
    exact h
  have hcooled := report_halfOpen hreport
  have hflight : (evaluate thresholds samples now previous).probeInFlight =
      ((previous.getD {}).cooled thresholds.cooldown now).probeInFlight := by
    unfold evaluate
    dsimp only
    rw [htrip, hcooled]
  rw [hcooled] at hreport
  rw [hflight]
  cases hexpired : (previous.getD {}).expired thresholds.cooldown now with
  | false =>
      rw [cooled_of_not_expired hexpired] at hreport ⊢
      exact .inr ⟨rfl, hreport, rfl⟩
  | true => exact .inl ⟨rfl, cooled_of_expired hexpired⟩

end BreakerVerdict

/-! ### The registry -/

/-- The breakers of every subject a process has seen fail or succeed. -/
structure CircuitBreakers where
  thresholds : Thresholds := {}
  verdicts : String → Option BreakerVerdict := fun _ => none

namespace CircuitBreakers

/-- Whether a subject's breaker is half-open with a probe in flight. -/
def probeBusy (breakers : CircuitBreakers) (canonicalId : String) : Bool :=
  (breakers.verdicts canonicalId).any BreakerVerdict.probing

/-- Whether routing must skip a subject. -/
def excluded (breakers : CircuitBreakers) (canonicalId : String) : Bool :=
  (breakers.verdicts canonicalId).any BreakerVerdict.excludes

/-- Whether a probe may be handed out: half-open, and none in flight. -/
def probeable (breakers : CircuitBreakers) (canonicalId : String) : Bool :=
  (breakers.verdicts canonicalId).any fun v => v.state == .halfOpen && !v.probeInFlight

/-- Change one verdict. -/
def modify (breakers : CircuitBreakers) (canonicalId : String)
    (f : BreakerVerdict → BreakerVerdict) : CircuitBreakers :=
  { breakers with
    verdicts := Function.update breakers.verdicts canonicalId
      ((breakers.verdicts canonicalId).map f) }

/-- Re-evaluate every subject with samples, and every known one. -/
def update (breakers : CircuitBreakers) (samples : String → Option (List AttemptSample))
    (now : Instant) : CircuitBreakers :=
  { breakers with
    verdicts := fun canonicalId =>
      if (samples canonicalId).isSome || (breakers.verdicts canonicalId).isSome then
        some (BreakerVerdict.evaluate breakers.thresholds ((samples canonicalId).getD []) now
          (breakers.verdicts canonicalId))
      else
        none }

/-- Let one job through a half-open breaker; `false` if it is not half-open or busy. -/
def allowProbe (breakers : CircuitBreakers) (canonicalId : String) (now : Instant) :
    Bool × CircuitBreakers :=
  if breakers.probeable canonicalId then
    (true, breakers.modify canonicalId fun v =>
      { v with probeInFlight := true, probeStartedAt := some now })
  else
    (false, breakers)

/-- Give a probe back without a verdict. -/
def releaseProbe (breakers : CircuitBreakers) (canonicalId : String) : Bool × CircuitBreakers :=
  if (breakers.verdicts canonicalId).any BreakerVerdict.probeInFlight then
    (true, breakers.modify canonicalId fun v =>
      { v with probeInFlight := false, probeStartedAt := none })
  else
    (false, breakers)

end CircuitBreakers

end LoadCoach

import Mathlib.Data.Rat.Floor
import LoadCoach.Foundations.Exceptions
import LoadCoach.Foundations.Json

/-! # Values every service uses

Exceptions, instants, and `domain/priority.py`: the four job classes and the band of priorities
each one is confined to.  An exception of the application (a `SuiteError`) is told apart from
the others by its code; the rest are the built-in exceptions the modelled functions can meet. -/

namespace LoadCoach

open Foundations

/-! ### Exceptions -/

/-- What a modelled function may raise. -/
inductive Raised where
  /-- A `SuiteError`: its code, its message and its details. -/
  | suite (code message : String) (details : Members)
  | keyError (key : String)
  | typeError
  | assertionError
  | integrityError
  /-- Any other exception. -/
  | unexpected

/-- Whether `except (TransitionRefused, AttemptRefused)` catches it. -/
def Raised.isRefusal : Raised → Bool
  | .suite code _ _ => code == "TRANSITION_REFUSED" || code == "ATTEMPT_REFUSED"
  | _ => false

/-- The code a job fails with when a worker crashes on it. -/
def Raised.code : Raised → String
  | .suite code _ _ => code
  | _ => "INTERNAL_ERROR"

/-- The text a job fails with. -/
def Raised.text : Raised → String
  | .suite _ message _ => String.ofList (message.toList.take 2000)
  | _ => ""

/-! ### Time -/

/-- An instant, in microseconds. -/
abbrev Instant := ℤ

/-- A duration of whole seconds. -/
def seconds (n : ℕ) : ℤ := (n : ℤ) * 1000000

/-- `timedelta(hours=…)`: whole microseconds, a half rounded to even. -/
def hours (h : ℚ) : ℤ :=
  let low := ⌊h * 3600000000⌋
  let rest := h * 3600000000 - low
  if rest < 1 / 2 ∨ (rest = 1 / 2 ∧ low % 2 = 0) then low else low + 1

/-! ### Job classes and their bands -/

/-- The four job classes. -/
inductive JobClass where
  | interactive
  | normal
  | background
  | batch
deriving DecidableEq, Repr

/-- The spelling of a class in `jobs.class`. -/
def JobClass.value : JobClass → String
  | interactive => "interactive"
  | normal => "normal"
  | background => "background"
  | batch => "batch"

/-- The inclusive `(bottom, top)` band of a class. -/
def bandOf : JobClass → ℤ × ℤ
  | .interactive => (800, 999)
  | .normal => (400, 799)
  | .background => (100, 399)
  | .batch => (0, 99)

/-- The base priority a job is enqueued with. -/
def basePriority (jobClass : JobClass) (requested : Option ℤ) : Except Raised ℤ :=
  let (bottom, top) := bandOf jobClass
  match requested with
  | none => .ok bottom
  | some r =>
      if r < bottom ∨ r > top then
        .error (.suite "VALIDATION_ERROR"
          s!"Priority {r} is outside the '{jobClass.value}' band {bottom}-{top}."
          [("field", .str "priority"), ("job_class", .str jobClass.value), ("requested", .int r),
           ("band", .arr [.int bottom, .int top])])
      else
        .ok r

/-- **The band is not escapable.** -/
theorem basePriority_mem_band {jobClass : JobClass} {requested : Option ℤ} {p : ℤ}
    (h : basePriority jobClass requested = .ok p) :
    (bandOf jobClass).1 ≤ p ∧ p ≤ (bandOf jobClass).2 := by
  cases requested with
  | none =>
      simp only [basePriority, Except.ok.injEq] at h
      subst h
      cases jobClass <;> simp [bandOf]
  | some r =>
      simp only [basePriority] at h
      split at h
      · cases h
      · rename_i hband
        simp only [Except.ok.injEq] at h
        omega

end LoadCoach

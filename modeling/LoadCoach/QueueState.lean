import Mathlib.Data.Finset.Lattice.Lemmas

/-! # The job state machine

`domain/queue_state.py`: the eleven states of a job, the groups of states the queue tests for,
the table of legal moves, and the two rules that pick a target: where recovery sends a job
(`recoveryTarget`) and where a cancel request sends it (`cancelTarget`).

The groups partition the states (`terminal_or_active`), a terminal state has no successor
(`not_isLegal_of_terminal`), and both rules only ever name a legal move
(`isLegal_of_recoveryTarget`, `isLegal_of_cancelTarget`). -/

namespace LoadCoach

/-- Every state a job can be in. -/
inductive JobState where
  | queued
  | leased
  | admitted
  | waitingResources
  | executing
  | validating
  | retrying
  | cancelling
  | completed
  | failed
  | cancelled
deriving DecidableEq, Repr

namespace JobState

/-- The spelling of a state in `jobs.state`. -/
def value : JobState → String
  | queued => "queued"
  | leased => "leased"
  | admitted => "admitted"
  | waitingResources => "waiting_resources"
  | executing => "executing"
  | validating => "validating"
  | retrying => "retrying"
  | cancelling => "cancelling"
  | completed => "completed"
  | failed => "failed"
  | cancelled => "cancelled"

end JobState

open JobState

/-! ### Groups of states -/

/-- States with no successor. -/
def terminalStates : Finset JobState := {completed, failed, cancelled}

/-- States in which a job holds no lease and is counted as waiting. -/
def waitingStates : Finset JobState := {queued, waitingResources}

/-- States in which a worker owns the job under a lease. -/
def leaseHoldingStates : Finset JobState := {leased, admitted, executing, validating, retrying}

/-- Every state a worker may be touching: what the lease keeper renews. -/
def inFlightStates : Finset JobState := leaseHoldingStates ∪ {cancelling}

/-- Every non-terminal state: what queue depth reports. -/
def activeStates : Finset JobState := waitingStates ∪ inFlightStates

theorem terminal_or_active (s : JobState) :
    s ∈ terminalStates ∧ s ∉ activeStates ∨ s ∉ terminalStates ∧ s ∈ activeStates := by
  cases s <;> decide

theorem not_terminal_of_waiting {s : JobState} (h : s ∈ waitingStates) : s ∉ terminalStates := by
  revert h
  cases s <;> decide

theorem inFlight_iff (s : JobState) :
    s ∈ inFlightStates ↔ s ∈ leaseHoldingStates ∨ s = cancelling := by
  rw [inFlightStates, Finset.union_singleton, Finset.mem_insert, or_comm]

/-! ### Legal moves -/

/-- Every legal `(current, target)` pair. -/
def transitions : List (JobState × JobState) :=
  [(queued, leased),
   (leased, admitted),
   (leased, waitingResources),
   (leased, cancelling),
   (waitingResources, queued),
   (admitted, executing),
   (executing, validating),
   (validating, completed),
   (validating, retrying),
   (executing, retrying),
   (retrying, admitted),
   (executing, cancelling),
   (validating, cancelling),
   (admitted, cancelling),
   (queued, cancelled),
   (waitingResources, cancelled),
   (cancelling, cancelled),
   (executing, failed),
   (validating, failed),
   (queued, failed),
   (waitingResources, failed),
   (leased, queued),
   (leased, failed),
   (executing, queued),
   -- recovery from every lease-holding state, and cancel during backoff
   (admitted, queued),
   (admitted, failed),
   (validating, queued),
   (retrying, queued),
   (retrying, failed),
   (retrying, cancelling)]

/-- Whether `current → target` is in the table. -/
def isLegal (current target : JobState) : Bool := decide ((current, target) ∈ transitions)

theorem not_isLegal_of_terminal {s : JobState} (h : s ∈ terminalStates) (t : JobState) :
    isLegal s t = false := by
  revert h
  cases s <;> cases t <;> decide

theorem eq_cancelled_of_isLegal {t : JobState} (h : isLegal cancelling t = true) :
    t = cancelled := by
  revert h
  cases t <;> decide

theorem isLegal_cancelling {s : JobState} (h : s ∈ inFlightStates) (hne : s ≠ cancelling) :
    isLegal s cancelling = true := by
  revert h hne
  cases s <;> decide

/-! ### The rules that pick a target -/

/-- Where lease expiry or startup recovery moves a job. -/
def recoveryTarget (state : JobState) (idempotent : Bool) : Option JobState :=
  if state ∈ leaseHoldingStates then
    if idempotent then some queued else some failed
  else if state = cancelling then
    some cancelled
  else
    none

/-- Where a cancel request moves a job. -/
def cancelTarget (state : JobState) : Option JobState :=
  if state ∈ waitingStates then
    some cancelled
  else if state ∈ leaseHoldingStates then
    some cancelling
  else
    none

theorem isLegal_of_recoveryTarget {s t : JobState} {i : Bool}
    (h : recoveryTarget s i = some t) : isLegal s t = true := by
  revert h
  cases s <;> cases i <;> cases t <;> decide

theorem isLegal_of_cancelTarget {s t : JobState} (h : cancelTarget s = some t) :
    isLegal s t = true := by
  revert h
  cases s <;> cases t <;> decide

theorem not_inFlight_of_recoveryTarget {s t : JobState} {i : Bool}
    (h : recoveryTarget s i = some t) : t ∉ inFlightStates := by
  revert h
  cases s <;> cases i <;> cases t <;> decide

/-- Recovery has a target exactly for the states a worker may be touching. -/
theorem recoveryTarget_eq_none_iff (s : JobState) (i : Bool) :
    recoveryTarget s i = none ↔ s ∉ inFlightStates := by
  cases s <;> cases i <;> decide

theorem recoveryTarget_eq_queued_iff (s : JobState) (i : Bool) :
    recoveryTarget s i = some queued ↔ s ∈ leaseHoldingStates ∧ i = true := by
  cases s <;> cases i <;> decide

/-- Recovery makes only an idempotent job wait that a worker was touching. -/
theorem leaseHolding_of_recoveryTarget {s t : JobState} {i : Bool}
    (h : recoveryTarget s i = some t) (ht : t ∈ waitingStates) :
    s ∈ leaseHoldingStates ∧ i = true := by
  revert h ht
  cases s <;> cases i <;> cases t <;> decide

/-- A cancel request finds nothing to do only in a terminal state or in `cancelling`. -/
theorem cancelTarget_eq_none_iff (s : JobState) :
    cancelTarget s = none ↔ s ∈ terminalStates ∨ s = cancelling := by
  cases s <;> decide

theorem cancelTarget_eq_some {s t : JobState} (h : cancelTarget s = some t) :
    t = cancelling ∨ t = cancelled := by
  revert h
  cases s <;> cases t <;> decide

/-- The event recorded when a job enters a state. -/
def eventTypeFor (state : JobState) : String := "job." ++ state.value

end LoadCoach

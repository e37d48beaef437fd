import Mathlib.Data.List.FinRange
import LoadCoach.Store.Db

/-! # What follows a failed attempt

`domain/retry_policy.py`: the failure table as a pure decision.  A provider error is classified
into a row of the table (`classifyFailure`), the row and the attempts the candidate has had decide
between another attempt on it and a fallback (`nextAction`), and a fallback goes to the next
candidate in rank order, after a context limit only to one that serves more
(`nextCandidateIndex`).  And `run_attempt` of `services/execution.py`: what one provider call
leaves behind (`runAttempt`). -/

namespace LoadCoach

/-! ### Failures -/

/-- The classes of the provider library's errors an execution tells apart. -/
inductive ProviderErrorKind where
  | generationCancelled
  | providerTimeout
  | providerUnavailable
  | providerProtocolError
  | contextLimitExceeded
  | adapterNotFound
  | profileMismatch
  /-- Any other provider error. -/
  | other
deriving DecidableEq, Repr

/-- An error of the provider library. -/
structure ProviderError where
  kind : ProviderErrorKind
  code : String := ""
  message : String := ""
deriving DecidableEq, Repr

/-- The rows of the table. -/
inductive FailureKind where
  | timeout
  | connection
  | protocol
  | validation
  | contextLimit
  | cancelled
  | rejected
deriving DecidableEq, Repr

/-- What the worker does next. -/
inductive Action where
  | retrySame
  | fallback
  | stop
deriving DecidableEq, Repr

/-- The table's answer for one failure. -/
structure Decision where
  action : Action
  reason : String
  largerContextOnly : Bool := false
deriving DecidableEq, Repr

/-- A protocol error is retried once on the same model. -/
def protocolErrorRetries : ℕ := 1

/-- The row of an error. -/
def classifyFailure (error : ProviderError) : FailureKind :=
  match error.kind with
  | .generationCancelled => .cancelled
  | .providerTimeout => .timeout
  | .providerUnavailable => .connection
  | .providerProtocolError => .protocol
  | .contextLimitExceeded => .contextLimit
  | .adapterNotFound | .profileMismatch | .other => .rejected

/-- What follows a failed attempt on a candidate that has had `attemptsOnCandidate`, this one
included. -/
def nextAction (kind : FailureKind) (attemptsOnCandidate perCandidateLimit : ℕ) : Decision :=
  match kind with
  | .cancelled => { action := .stop, reason := "cancelled" }
  | .timeout =>
      if attemptsOnCandidate < perCandidateLimit then
        { action := .retrySame, reason := "timeout" }
      else { action := .fallback, reason := "timeout_retries_exhausted" }
  | .connection => { action := .fallback, reason := "connection_error" }
  | .protocol =>
      if attemptsOnCandidate ≤ protocolErrorRetries then
        { action := .retrySame, reason := "protocol_error" }
      else { action := .fallback, reason := "protocol_error_retries_exhausted" }
  | .validation =>
      if attemptsOnCandidate < perCandidateLimit then
        { action := .retrySame, reason := "corrective_retry" }
      else { action := .fallback, reason := "validation_retries_exhausted" }
  | .contextLimit =>
      { action := .fallback, reason := "context_limit_exceeded", largerContextOnly := true }
  | .rejected => { action := .fallback, reason := "provider_rejected" }

theorem nextAction_eq_stop_iff (kind : FailureKind) (attempts limit : ℕ) :
    (nextAction kind attempts limit).action = .stop ↔ kind = .cancelled := by
  cases kind <;> simp only [nextAction, reduceCtorEq] <;> split_ifs <;> simp

/-- A candidate is retried fewer times than its limit, a protocol error once. -/
theorem nextAction_retrySame {kind : FailureKind} {attempts limit : ℕ}
    (h : (nextAction kind attempts limit).action = .retrySame) :
    attempts < limit ∨ kind = .protocol ∧ attempts ≤ protocolErrorRetries := by
  cases kind <;> simp only [nextAction, reduceCtorEq] at h
  case timeout | validation =>
    split_ifs at h with hlimit
    exact .inl hlimit
  case protocol =>
    split_ifs at h with hlimit
    exact .inr ⟨rfl, hlimit⟩

/-- The next candidate in rank order after `current`, if there is one. -/
def nextCandidateIndex {n : ℕ} (servedContexts : Fin n → ℕ) (current : Fin n)
    (largerContextOnly : Bool) : Option (Fin n) :=
  (List.finRange n).find? fun index => decide (current < index) &&
    (!largerContextOnly || decide (servedContexts current < servedContexts index))

/-- A fallback goes down the ranking, after a context limit to a larger context. -/
theorem nextCandidateIndex_spec {n : ℕ} {servedContexts : Fin n → ℕ} {current index : Fin n}
    {larger : Bool} (h : nextCandidateIndex servedContexts current larger = some index) :
    current < index ∧ (larger = true → servedContexts current < servedContexts index) := by
  have hfound := List.find?_some h
  simp only [Bool.and_eq_true, Bool.or_eq_true, Bool.not_eq_true', decide_eq_true_eq] at hfound
  obtain ⟨hlater, hcontext⟩ := hfound
  refine ⟨hlater, fun hlarger => ?_⟩
  rcases hcontext with hplain | hmore
  · rw [hlarger] at hplain
    cases hplain
  · exact hmore

/-! ### One provider call -/

/-- A candidate of a routing decision, as far as an execution reads it. -/
structure RankedCandidate where
  rank : ℕ := 1
  canonicalId : String
  subjectCanonicalId : String
  modelId : String
  adapterId : Option String := none
  providerName : String := ""
  runtimeProfileHash : String := ""
  servedContext : ℕ := 0
  servedContextSource : String := ""
  targetGpuIndex : Option ℕ := none
  estimatedVramBytes : Option ℕ := none
deriving DecidableEq, Repr

/-- The columns a candidate's selection writes. -/
def RankedCandidate.selection (candidate : RankedCandidate) : Selection where
  modelId := candidate.modelId
  adapterId := candidate.adapterId
  subjectCanonicalId := candidate.subjectCanonicalId
  runtimeProfileHash := candidate.runtimeProfileHash
  servedContext := candidate.servedContext
  servedContextSource := candidate.servedContextSource
  targetGpuIndex := candidate.targetGpuIndex

/-- What one provider call produced, validated: the provider's failure, or its answer and what
the validation said (`none`: nothing was to be validated).  `result` is what its stream completed
with; a stream can also end without. -/
structure Collected where
  failure : Option ProviderError := none
  validation : Option Bool := none
  text : String := ""
  startedAt : Instant := 0
  completedAt : Instant := 0
  providerMs : ℤ := 0
  result : Option ResultColumns := some {}

/-- How a provider's failure is recorded. -/
def failureOutcome (error : ProviderError) : AttemptOutcomeKind :=
  match error.kind with
  | .providerTimeout => .timeout
  | .contextLimitExceeded => .contextExceeded
  | _ => .providerError

/-- What one attempt produced. -/
structure AttemptOutcome where
  record : AttemptRecord
  failure : Option ProviderError := none
  cancelled : Bool := false
  validation : Option Bool := none
  text : String := ""
  result : Option ResultColumns := none

/-- The provider answered and the validation did not fail. -/
def AttemptOutcome.passed (o : AttemptOutcome) : Bool :=
  o.failure.isNone && o.validation != some false

/-- The record of an attempt. -/
def attemptRecord (attemptNumber : ℕ) (candidate : RankedCandidate) (collected : Collected)
    (outcome : AttemptOutcomeKind) : AttemptRecord where
  attempt := attemptNumber
  canonicalId := candidate.canonicalId
  modelId := some candidate.modelId
  runtimeProfileHash := candidate.runtimeProfileHash
  rank := candidate.rank
  outcome
  startedAt := collected.startedAt
  completedAt := some collected.completedAt
  providerMs := some collected.providerMs
  outputTokens := collected.result.bind ResultColumns.outputTokens
  errorCode := collected.failure.map ProviderError.code
  errorText := collected.failure.map ProviderError.message
  text := collected.text
  subjectCanonicalId := candidate.subjectCanonicalId
  adapterId := candidate.adapterId

/-- One provider call on one candidate, and its validation. -/
def runAttempt (attemptNumber : ℕ) (candidate : RankedCandidate) (collected : Collected) :
    AttemptOutcome :=
  match collected.failure with
  | some failure =>
      let cancelled := decide (failure.kind = .generationCancelled)
      let outcome := if cancelled then .cancelled else failureOutcome failure
      { record := attemptRecord attemptNumber candidate collected outcome
        failure := some failure
        cancelled
        text := collected.text }
  | none =>
      let passed := collected.validation != some false
      let outcome := if passed then .completed else .validationFailed
      { record := attemptRecord attemptNumber candidate collected outcome
        validation := collected.validation
        text := collected.text
        result := collected.result }

section RunAttempt

variable (attemptNumber : ℕ) (candidate : RankedCandidate) (collected : Collected)

@[simp] theorem runAttempt_attempt :
    (runAttempt attemptNumber candidate collected).record.attempt = attemptNumber := by
  unfold runAttempt
  split <;> rfl

theorem runAttempt_classify {failure : ProviderError}
    (h : (runAttempt attemptNumber candidate collected).failure = some failure) :
    classifyFailure failure = .cancelled ↔
      (runAttempt attemptNumber candidate collected).cancelled = true := by
  unfold runAttempt at h ⊢
  split at h
  · cases h
    rcases failure with ⟨kind, code, message⟩
    cases kind <;> simp [classifyFailure]
  · cases h

end RunAttempt

end LoadCoach

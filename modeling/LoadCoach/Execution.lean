import Mathlib.Data.List.ReduceOption
import LoadCoach.RetryPolicy
import LoadCoach.Store.System

/-! # The synchronous endpoints' loop

`_execute_attempts` of `services/execution.py`: the candidates of a routing decision are tried in
rank order, each with the profile's attempts; an answer that fails validation is corrected and
retried, a provider failure falls back to the next candidate, a permanent refusal or a
cancellation ends the execution.  What the providers, the breakers and the request builder do is
a parameter (`Surroundings`).

Two facts about the records and the calls of an execution (`executeAttempts_sound`).  Its records
are numbered from one, so they are what `persist` accepts (`executeAttempts_persists`).  And every
call goes to the one provider `execute` was given, whichever candidate it is for: a candidate that
another registration discovered is called on the wrong provider (`fallback_reaches_iff`). -/

namespace LoadCoach

open Foundations

/-! ### Registrations -/

/-- A named provider. -/
structure ProviderRegistration (P : Type) where
  name : String
  provider : P

/-- The providers of a process: the primary one, and the registrations in configuration order. -/
structure QueueRuntime (P : Type) where
  provider : P
  registrations : List (ProviderRegistration P)

/-- The provider a candidate of a registration must be executed on: the primary one if no
registration has the name. -/
def QueueRuntime.providerFor {P : Type} (runtime : QueueRuntime P) (providerName : String) : P :=
  match runtime.registrations.find? fun registration => registration.name == providerName with
  | some registration => registration.provider
  | none => runtime.provider

/-- What a synchronous execution is given of the providers. -/
structure ExecutionContext (P : Type) where
  provider : P
  providerByName : List (String × P)

/-- The context of a synchronous request. -/
def QueueRuntime.context {P : Type} (runtime : QueueRuntime P) : ExecutionContext P where
  provider := runtime.provider
  providerByName := runtime.registrations.map fun registration =>
    (registration.name, registration.provider)

/-! ### One execution -/

/-- The ranking of a routing decision. -/
structure Ranking where
  primary : Option RankedCandidate
  fallbacks : List RankedCandidate

namespace Ranking

/-- The candidates the loop goes through. -/
def candidates (ranking : Ranking) : List (Option RankedCandidate) :=
  ranking.primary :: ranking.fallbacks.map some

end Ranking

/-- The retry budget of a task profile; the profile's model refuses zero. -/
structure ExecutionPolicy where
  maxAttempts : ℕ := 1
  pos : 0 < maxAttempts := by decide

/-- An error that ends an execution before its candidates are exhausted. -/
structure Refusal where
  code : String
  message : String
deriving DecidableEq, Repr

/-- What everything outside the loop does during one execution. -/
structure Surroundings (P : Type) where
  /-- The breakers' answers when the loop comes to a candidate: `allow_probe` and `probe_busy`. -/
  breakers : Option (RankedCandidate → Bool × Bool) := none
  /-- What the request builder refuses an attempt with. -/
  builds : ℕ → Option Refusal := fun _ => none
  /-- What a provider does with an attempt. -/
  answer : P → RankedCandidate → ℕ → Collected
  /-- What it refuses the corrective turns after an attempt with. -/
  corrects : ℕ → Option Refusal := fun _ => none

/-- One provider call. -/
structure Call (P : Type) where
  provider : P
  candidate : RankedCandidate
  attemptNumber : ℕ

/-- The refusal a failure is permanent for: the request, as written, will never work. -/
def permanentRefusal (failure : ProviderError) : Option Refusal :=
  match failure.kind with
  | .adapterNotFound => some ⟨"ADAPTER_NOT_FOUND", failure.message⟩
  | .profileMismatch => some ⟨"PROFILE_MISMATCH", failure.message⟩
  | _ => none

/-- The locals of the loop; `calls` is a history variable. -/
structure Execution (P : Type) where
  attemptNumber : ℕ := 0
  records : List AttemptRecord := []
  validation : Option Bool := none
  calls : List (Call P) := []

/-- How the loop ends. -/
structure Executed (P : Type) extends Execution P where
  selected : Option RankedCandidate := none
  collected : Option AttemptOutcome := none
  refusal : Option Refusal := none
  /-- The subject whose probe is handed back. -/
  released : Option String := none

/-- The locals after an attempt. -/
def Execution.attempted {P : Type} (st : Execution P) (provider : P) (candidate : RankedCandidate)
    (outcome : AttemptOutcome) : Execution P where
  attemptNumber := st.attemptNumber + 1
  records := st.records ++ [outcome.record]
  validation := if outcome.failure.isSome then st.validation else outcome.validation
  calls := st.calls ++ [⟨provider, candidate, st.attemptNumber + 1⟩]

/-- What the loop does after an attempt. -/
inductive Verdict (P : Type) where
  | stop (executed : Executed P)
  /-- The candidate is not working: fall back. -/
  | fallBack
  /-- The answer failed validation: correct it and try again. -/
  | correct

section Loop

variable {P : Type} (provider : P) (env : Surroundings P) (maxAttempts limit : ℕ)

/-- The loop's decision after an attempt. -/
def judge (candidate : RankedCandidate) (holdsProbe : Bool) (st : Execution P)
    (outcome : AttemptOutcome) : Verdict P :=
  match outcome.failure with
  | some failure =>
      match permanentRefusal failure with
      | some refusal => .stop { st with refusal := some refusal }
      | none =>
          if outcome.cancelled then
            -- a cancelled probe says nothing about the model: it is handed back
            .stop { st with
              selected := some candidate
              collected := some outcome
              released := if holdsProbe then some candidate.subjectCanonicalId else none }
          else .fallBack
  | none =>
      if outcome.passed then
        .stop { st with selected := some candidate, collected := some outcome }
      else if limit ≤ st.attemptNumber then .fallBack
      else
        match env.corrects st.attemptNumber with
        | some refusal => .stop { st with refusal := some refusal }
        | none => .correct

/-- The attempts on one candidate: the loop goes on to the next one, or ends. -/
def attemptCandidate (candidate : RankedCandidate) (holdsProbe : Bool) :
    ℕ → Execution P → Execution P ⊕ Executed P
  | 0, st => .inl st
  | remaining + 1, st =>
      let attemptNumber := st.attemptNumber + 1
      match env.builds attemptNumber with
      | some refusal => .inr { st with refusal := some refusal }
      | none =>
          let outcome :=
            runAttempt attemptNumber candidate (env.answer provider candidate attemptNumber)
          let st := st.attempted provider candidate outcome
          match judge env limit candidate holdsProbe st outcome with
          | .stop executed => .inr executed
          | .fallBack => .inl st
          | .correct => attemptCandidate candidate holdsProbe remaining st

/-- The candidates in rank order; one whose probe is out is skipped. -/
def tryCandidates : List (Option RankedCandidate) → Execution P → Executed P
  | [], st => { st with }
  | none :: rest, st => tryCandidates rest st
  | some candidate :: rest, st =>
      let (holdsProbe, probeBusy) := (env.breakers.map fun ask => ask candidate).getD (false, false)
      if !holdsProbe && probeBusy then
        tryCandidates rest st
      else
        match attemptCandidate provider env limit candidate holdsProbe maxAttempts st with
        | .inl st => tryCandidates rest st
        | .inr executed => executed

end Loop

/-- The synchronous endpoints' loop. -/
def executeAttempts {P : Type} (provider : P) (env : Surroundings P) (policy : ExecutionPolicy)
    (ranking : Ranking) : Executed P :=
  tryCandidates provider env policy.maxAttempts (policy.maxAttempts * ranking.candidates.length)
    ranking.candidates {}

/-- What `execute` makes of the loop's result. -/
def Executed.outcome {P : Type} (executed : Executed P) (totalMs : ℤ) (supportsStreaming : Bool) :
    SyncOutcome :=
  let providerMs := (executed.records.map fun r => r.providerMs.getD 0).sum
  match executed.refusal, executed.selected, executed.collected with
  | some refusal, _, _ => .error refusal.code refusal.message
  | none, some selected, some collected =>
      match collected.result with
      | none => .error "ALL_CANDIDATES_FAILED" "Every candidate was tried and every attempt failed."
      | some result =>
          .result
            { result with
              responseText := some collected.text
              providerMs := some providerMs
              loadcoachOverheadMs := some (max (totalMs - providerMs) 0)
              totalMs := some totalMs
              validationPassed := executed.validation
              degradations :=
                if supportsStreaming then [] else ["cancellation_deferred_to_completion"] }
            selected.selection
  | none, _, _ =>
      .error "ALL_CANDIDATES_FAILED" (if executed.records.isEmpty then
        "Every ranked candidate was skipped: a circuit-breaker probe is already in flight on each."
      else "Every candidate was tried and every attempt failed.")

/-! ### What an execution calls and records -/

/-- The records are numbered from one, and every call was to the provider, for a candidate. -/
structure Execution.Sound {P : Type} (provider : P) (candidates : List (Option RankedCandidate))
    (st : Execution P) : Prop where
  numbered : st.records.map AttemptRecord.attempt = List.range' 1 st.records.length
  called : ∀ call ∈ st.calls, call.provider = provider ∧ some call.candidate ∈ candidates

section Loop

variable {P : Type} {provider : P} {env : Surroundings P} {maxAttempts limit : ℕ}
  {candidates : List (Option RankedCandidate)} {candidate : RankedCandidate} {holdsProbe : Bool}

theorem Execution.sound_start : Execution.Sound provider candidates {} where
  numbered := rfl
  called := by simp

theorem judge_stop {st : Execution P} {outcome : AttemptOutcome} {executed : Executed P}
    (h : judge env limit candidate holdsProbe st outcome = .stop executed) :
    executed.toExecution = st := by
  unfold judge at h
  split at h
  · split at h
    · cases h
      rfl
    · split_ifs at h <;>
        cases h <;> rfl
  · split_ifs at h
    · cases h
      rfl
    · split at h
      · cases h
        rfl
      · cases h

theorem Execution.Sound.attempted {st : Execution P} (h : st.Sound provider candidates)
    (hcandidate : some candidate ∈ candidates) (hnumber : st.attemptNumber = st.records.length)
    {outcome : AttemptOutcome} (hrecord : outcome.record.attempt = st.attemptNumber + 1) :
    (st.attempted provider candidate outcome).Sound provider candidates where
  numbered := by
    simp [Execution.attempted, h.numbered, hrecord, hnumber, List.range'_1_concat, Nat.add_comm]
  called := by
    intro call hcall
    rcases List.mem_append.1 hcall with hcall | hcall
    · exact h.called call hcall
    · rw [List.mem_singleton.1 hcall]
      exact ⟨rfl, hcandidate⟩

/-- What the attempts on one candidate lead to: sound locals, with every attempt recorded if the
loop goes on. -/
def Sound (provider : P) (candidates : List (Option RankedCandidate)) :
    Execution P ⊕ Executed P → Prop
  | .inl st => st.Sound provider candidates ∧ st.attemptNumber = st.records.length
  | .inr executed => executed.toExecution.Sound provider candidates

theorem attemptCandidate_sound (hcandidate : some candidate ∈ candidates) (remaining : ℕ)
    {st : Execution P} (h : st.Sound provider candidates)
    (hnumber : st.attemptNumber = st.records.length) :
    Sound provider candidates
      (attemptCandidate provider env limit candidate holdsProbe remaining st) := by
  induction remaining generalizing st with
  | zero => exact ⟨h, hnumber⟩
  | succ remaining ih =>
      have hattempt := h.attempted hcandidate hnumber (runAttempt_attempt (st.attemptNumber + 1)
        candidate (env.answer provider candidate (st.attemptNumber + 1)))
      have hnext : ∀ outcome, (st.attempted provider candidate outcome).attemptNumber =
          (st.attempted provider candidate outcome).records.length := by
        intro outcome
        simp [Execution.attempted, hnumber]
      rw [attemptCandidate]
      dsimp only
      split
      · exact ⟨h.numbered, h.called⟩
      · split
        · rename_i executed hstop
          rw [Sound, judge_stop hstop]
          exact hattempt
        · exact ⟨hattempt, hnext _⟩
        · exact ih hattempt (hnext _)

theorem tryCandidates_sound {rest : List (Option RankedCandidate)}
    (hrest : ∀ c ∈ rest, c ∈ candidates) {st : Execution P} (h : st.Sound provider candidates)
    (hnumber : st.attemptNumber = st.records.length) :
    (tryCandidates provider env maxAttempts limit rest st).toExecution.Sound provider
      candidates := by
  induction rest generalizing st with
  | nil => exact h
  | cons c rest ih =>
      rw [List.forall_mem_cons] at hrest
      cases c with
      | none => exact ih hrest.2 h hnumber
      | some candidate =>
          rw [tryCandidates]
          dsimp only
          split_ifs
          · exact ih hrest.2 h hnumber
          · have hattempts : Sound provider candidates
                (attemptCandidate provider env limit candidate
                  ((env.breakers.map fun ask => ask candidate).getD (false, false)).1
                  maxAttempts st) :=
              attemptCandidate_sound hrest.1 maxAttempts h hnumber
            split
            · rename_i st' hnext
              rw [hnext] at hattempts
              exact ih hrest.2 hattempts.1 hattempts.2
            · rename_i executed hstop
              rw [hstop] at hattempts
              exact hattempts

theorem executeAttempts_sound (provider : P) (env : Surroundings P) (policy : ExecutionPolicy)
    (ranking : Ranking) : (executeAttempts provider env policy ranking).toExecution.Sound provider
      ranking.candidates :=
  tryCandidates_sound (fun _ => id) Execution.sound_start rfl

/-- The loop's records are what the transaction that ends a reserved row accepts. -/
theorem executeAttempts_persists {rack : ModelRack} {s : Store} {jobId : JobId}
    (hrunning : s.sync jobId = .running) (provider : P) (env : Surroundings P)
    (policy : ExecutionPolicy) (ranking : Ranking) (profile : String × String) (now : Instant)
    (totalMs : ℤ) (supportsStreaming : Bool) :
    let executed := executeAttempts provider env policy ranking
    (Op.persist jobId (executed.outcome totalMs supportsStreaming) profile executed.records
      now).Enabled rack s :=
  ⟨hrunning, (executeAttempts_sound provider env policy ranking).numbered⟩

/-! ### Which provider a fallback reaches -/

/-- Every call times out, and no breaker objects. -/
def timeouts : Surroundings P where
  answer _ _ _ := { failure := some { kind := .providerTimeout } }

theorem tryCandidates_timeouts (hpos : 0 < maxAttempts) (rest : List (Option RankedCandidate))
    (st : Execution P) :
    (tryCandidates provider timeouts maxAttempts limit rest st).calls.map Call.candidate =
      st.calls.map Call.candidate ++ rest.reduceOption := by
  obtain ⟨remaining, rfl⟩ := Nat.exists_eq_add_of_lt hpos
  rw [Nat.zero_add]
  induction rest generalizing st with
  | nil => simp [tryCandidates]
  | cons c rest ih =>
      cases c with
      | none => exact ih st
      | some candidate =>
          have hstep : tryCandidates provider timeouts (remaining + 1) limit
                (some candidate :: rest) st =
              tryCandidates provider timeouts (remaining + 1) limit rest
                (st.attempted provider candidate (runAttempt (st.attemptNumber + 1) candidate
                  { failure := some { kind := .providerTimeout } })) := rfl
          rw [hstep, ih]
          simp [Execution.attempted]

/-- **Whether fallback reaches the right provider.**  For every sequence of failures every call of
a synchronous execution goes to the provider its candidate is registered with if and only if every
candidate of the decision is registered with the primary one. -/
theorem fallback_reaches_iff (runtime : QueueRuntime P) (policy : ExecutionPolicy)
    (ranking : Ranking) :
    (∀ env, ∀ call ∈ (executeAttempts runtime.context.provider env policy ranking).calls,
      call.provider = runtime.providerFor call.candidate.providerName) ↔
      ∀ candidate, some candidate ∈ ranking.candidates →
        runtime.providerFor candidate.providerName = runtime.provider := by
  constructor
  · intro hreaches candidate hcandidate
    have hcalled : candidate ∈ (executeAttempts runtime.context.provider timeouts policy
        ranking).calls.map Call.candidate := by
      rw [executeAttempts, tryCandidates_timeouts policy.pos]
      exact List.mem_append_right _ (List.reduceOption_mem_iff.2 hcandidate)
    obtain ⟨call, hcall, rfl⟩ := List.mem_map.1 hcalled
    rw [← hreaches timeouts call hcall]
    exact ((executeAttempts_sound _ _ _ _).called call hcall).1
  · intro hregistered env call hcall
    obtain ⟨hprovider, hcandidate⟩ := (executeAttempts_sound _ _ _ _).called call hcall
    rw [hprovider, hregistered call.candidate hcandidate]
    rfl

end Loop

/-- Two registrations, and a decision that falls back from one to the other. -/
def twoRegistrations : QueueRuntime ℕ where
  provider := 0
  registrations := [⟨"local", 0⟩, ⟨"remote", 1⟩]

/-- The candidate the second registration discovered. -/
def remoteCandidate : RankedCandidate where
  rank := 2
  canonicalId := "b"
  subjectCanonicalId := "b"
  modelId := "b"
  providerName := "remote"

/-- The candidate of the first registration, with the remote one to fall back to. -/
def remoteFallback : Ranking where
  primary := some
    { canonicalId := "a", subjectCanonicalId := "a", modelId := "a", providerName := "local" }
  fallbacks := [remoteCandidate]

/-- The first candidate times out, and the remote one is called on the local provider. -/
theorem fallback_misses : ¬ ∀ (runtime : QueueRuntime ℕ) (policy : ExecutionPolicy)
    (ranking : Ranking) (env : Surroundings ℕ),
    ∀ call ∈ (executeAttempts runtime.context.provider env policy ranking).calls,
      call.provider = runtime.providerFor call.candidate.providerName := by
  intro hclaim
  have hcall : (⟨0, remoteCandidate, 2⟩ : Call ℕ) ∈
      (executeAttempts twoRegistrations.context.provider timeouts {} remoteFallback).calls :=
    List.mem_cons_of_mem _ List.mem_cons_self
  have hwrong := hclaim twoRegistrations {} remoteFallback timeouts _ hcall
  exact absurd hwrong (by decide)

end LoadCoach

import LoadCoach.Execution
import LoadCoach.Validation

/-! # The program of a synchronous execution

`execute` of `services/execution.py` and its loop, statement by statement, for an execution whose
row is reserved.  A `SyncPoint` is a place in the program with the locals that are live there.
What comes from outside arrives with the statement: the routing decision, the task's schema, the
breakers' answer, the provider's, and any exception.

`SyncPoint.raised` says which exceptions are caught where.  Routing catches every `SuiteError`
and fails the row with it; an attempt and the corrective turns catch a `ValidationError` and end
the execution with the attempts made so far; every other exception leaves `execute` as it is.

The locals fit their points (`SyncPoint.Sound`): the records are numbered from one, as the
transaction that ends the row wants them.  `Serving/Loop.lean` proves that the program computes the
loop of `Execution.lean`. -/

namespace LoadCoach

open Foundations

/-! ### The locals -/

/-- What routing tells a synchronous execution, with the profile's policies. -/
structure SyncDecision where
  profile : String × String
  policy : ExecutionPolicy := {}
  requireSchema : Bool := false
  supportsStreaming : Bool := true
  ranking : Ranking

/-- The locals of the loop over candidates. -/
structure SyncLoop where
  decision : SyncDecision
  schema : Option Json := none
  rest : List (Option RankedCandidate)
  /-- The one provider of the execution is not named. -/
  st : Execution Unit := {}

/-- The locals of the loop over the attempts on one candidate. -/
structure SyncTry where
  candidate : RankedCandidate
  holdsProbe : Bool
  /-- The attempts left after the present one. -/
  remaining : ℕ

namespace SyncLoop

/-- The attempts an execution may make on all its candidates. -/
def limit (l : SyncLoop) : ℕ :=
  l.decision.policy.maxAttempts * l.decision.ranking.candidates.length

/-- Whether the validation of an answer raises: the profile requires the schema, the answer parses
as JSON, and the schema has a keyword the validator does not know. -/
def schemaUnsupported (l : SyncLoop) (collected : Collected) (parses : Bool) : Bool :=
  collected.failure.isNone && l.decision.requireSchema && parses && l.schema.any rejectsSchema

end SyncLoop

/-- A place in the program of a synchronous execution. -/
inductive SyncPoint where
  | idle
  /-- Before the router is called. -/
  | preparing
  | routing
  /-- Before the row is failed with the error routing raised. -/
  | refusing (refusal : Refusal)
  | loading (l : SyncLoop)
  /-- Before the routing event is written. -/
  | announcing (l : SyncLoop)
  /-- The head of the loop over candidates. -/
  | entering (l : SyncLoop)
  /-- The head of the loop over attempts. -/
  | building (l : SyncLoop) (t : SyncTry)
  /-- Inside the provider call. -/
  | calling (l : SyncLoop) (t : SyncTry)
  | correcting (l : SyncLoop) (t : SyncTry)
  | persisting (decision : SyncDecision) (executed : Executed Unit)
  /-- After the row was ended, at the reliability statistics. -/
  | refreshing
  /-- `execute` has returned or raised. -/
  | finished

/-- What `except SuiteError` catches. -/
def Raised.suiteError? : Raised → Option Refusal
  | .suite code message _ => some ⟨code, message⟩
  | _ => none

/-- What `except ValidationError` catches. -/
def Raised.validationError? (e : Raised) : Option Refusal :=
  e.suiteError?.filter fun refusal => refusal.code == "VALIDATION_ERROR"

namespace SyncPoint

/-! ### The statements -/

/-- The transaction a point runs. -/
def op (j : JobId) (now : Instant) (totalMs : ℤ) : SyncPoint → Option Op
  | refusing refusal => some (.failReserved j refusal.code refusal.message now)
  | announcing _ => some (.routed j now)
  | persisting decision executed =>
      some (.persist j (executed.outcome totalMs decision.supportsStreaming) decision.profile
        executed.records now)
  | _ => none

/-- The point after the transaction committed. -/
def committed : SyncPoint → SyncPoint
  | refusing _ => finished
  | announcing l => entering l
  | persisting .. => refreshing
  | p => p

/-- The point after a refusal that keeps the attempts made so far. -/
def refused (l : SyncLoop) (refusal : Refusal) : SyncPoint :=
  persisting l.decision { l.st with refusal := some refusal }

/-- The point after an exception. -/
def raised (e : Raised) : SyncPoint → SyncPoint
  | idle => idle
  | routing => (e.suiteError?.map refusing).getD finished
  | building l _ | calling l _ | correcting l _ =>
      (e.validationError?.map (refused l)).getD finished
  | _ => finished

/-- The head of the loop over candidates, with what the breakers said. -/
def entered (l : SyncLoop) (holdsProbe probeBusy : Bool) : SyncPoint :=
  match l.rest with
  | [] => persisting l.decision { l.st with }
  | none :: rest => entering { l with rest }
  | some candidate :: rest =>
      if !holdsProbe && probeBusy then entering { l with rest }
      else building { l with rest } ⟨candidate, holdsProbe, l.decision.policy.maxAttempts - 1⟩

/-- What a provider's answer is judged with: the corrective turns are a statement of their own. -/
def uncorrected : Surroundings Unit where
  answer _ _ _ := {}

/-- The outcome of a provider call. -/
def outcome (l : SyncLoop) (t : SyncTry) (collected : Collected) : AttemptOutcome :=
  runAttempt (l.st.attemptNumber + 1) t.candidate collected

/-- The locals after a provider call. -/
def attempted (l : SyncLoop) (t : SyncTry) (collected : Collected) : SyncLoop :=
  { l with st := l.st.attempted () t.candidate (outcome l t collected) }

/-- The loop's decision after a provider call. -/
def verdict (l : SyncLoop) (t : SyncTry) (collected : Collected) : Verdict Unit :=
  judge uncorrected l.limit t.candidate t.holdsProbe (attempted l t collected).st
    (outcome l t collected)

/-- The point after a provider call. -/
def answered (l : SyncLoop) (t : SyncTry) (collected : Collected) : SyncPoint :=
  match verdict l t collected with
  | .stop executed => persisting l.decision executed
  | .fallBack => entering (attempted l t collected)
  | .correct => correcting (attempted l t collected) t

/-- The subject whose probe a provider's answer makes the loop hand back. -/
def handedBack (l : SyncLoop) (t : SyncTry) (collected : Collected) : Option String :=
  match verdict l t collected with
  | .stop executed => executed.released
  | _ => none

/-- The point after the corrective turns were built. -/
def corrected (l : SyncLoop) (t : SyncTry) : SyncPoint :=
  match t.remaining with
  | 0 => entering l
  | remaining + 1 => building l { t with remaining }

end SyncPoint

/-! ### Sound locals -/

/-- The records are numbered from one, and only candidates of the decision are left. -/
structure SyncLoop.Sound (l : SyncLoop) : Prop where
  execution : l.st.Sound () l.decision.ranking.candidates
  counted : l.st.attemptNumber = l.st.records.length
  rest : ∀ c ∈ l.rest, c ∈ l.decision.ranking.candidates

namespace SyncPoint

/-- The locals at a point are sound. -/
def Sound : SyncPoint → Prop
  | loading l | announcing l | entering l => l.Sound
  | building l t | calling l t | correcting l t =>
      l.Sound ∧ some t.candidate ∈ l.decision.ranking.candidates
  | persisting decision executed => executed.toExecution.Sound () decision.ranking.candidates
  | idle | preparing | routing | refusing _ | refreshing | finished => True

/-- The execution has not ended its row yet. -/
def Running : SyncPoint → Prop
  | idle | refreshing | finished => False
  | _ => True

instance (p : SyncPoint) : Decidable p.Running :=
  match p with
  | idle | refreshing | finished => .isFalse id
  | preparing | routing | refusing _ | loading _ | announcing _ | entering _ | building ..
  | calling .. | correcting .. | persisting .. => .isTrue trivial

variable {l : SyncLoop} {t : SyncTry}

theorem loading_sound (decision : SyncDecision) :
    (loading { decision, rest := decision.ranking.candidates }).Sound where
  execution := Execution.sound_start
  counted := rfl
  rest _ := id

theorem entered_sound (h : l.Sound) (holdsProbe probeBusy : Bool) :
    (entered l holdsProbe probeBusy).Sound := by
  unfold entered
  split
  · exact h.execution
  · rename_i rest hrest
    exact ⟨h.execution, h.counted, fun c hc => h.rest c (by rw [hrest]; exact .tail _ hc)⟩
  · rename_i candidate rest hrest
    have hskipped : SyncLoop.Sound { l with rest } :=
      ⟨h.execution, h.counted, fun c hc => h.rest c (by rw [hrest]; exact .tail _ hc)⟩
    have hcandidate : some candidate ∈ l.decision.ranking.candidates :=
      h.rest _ (by rw [hrest]; exact .head _)
    split_ifs
    · exact hskipped
    · exact ⟨hskipped, hcandidate⟩

theorem attempted_sound (h : l.Sound)
    (hcandidate : some t.candidate ∈ l.decision.ranking.candidates)
    (collected : Collected) : (attempted l t collected).Sound where
  execution := h.execution.attempted hcandidate h.counted
    (runAttempt_attempt (l.st.attemptNumber + 1) t.candidate collected)
  counted := by simp [attempted, Execution.attempted, h.counted]
  rest := h.rest

theorem answered_sound (h : l.Sound) (hcandidate : some t.candidate ∈ l.decision.ranking.candidates)
    (collected : Collected) : (answered l t collected).Sound := by
  have hattempted := attempted_sound h hcandidate collected
  unfold answered
  split
  · rename_i executed hstop
    rw [Sound, judge_stop hstop]
    exact hattempted.execution
  · exact hattempted
  · exact ⟨hattempted, hcandidate⟩

theorem corrected_sound (h : l.Sound)
    (hcandidate : some t.candidate ∈ l.decision.ranking.candidates) : (corrected l t).Sound := by
  unfold corrected
  split
  · exact h
  · exact ⟨h, hcandidate⟩

theorem raised_sound {p : SyncPoint} (h : p.Sound) (e : Raised) : (p.raised e).Sound := by
  cases p with
  | routing =>
      rw [raised]
      cases e.suiteError? <;> trivial
  | building l t | calling l t | correcting l t =>
      rw [raised]
      cases e.validationError? with
      | none => trivial
      | some refusal => exact h.1.execution
  | _ => trivial

/-- An exception that is caught leaves the execution running, if it was. -/
theorem running_of_raised {p : SyncPoint} {e : Raised} (hfinished : p.raised e ≠ .finished)
    (hrunning : (p.raised e).Running) : p.Running := by
  cases p with
  | idle => exact hrunning
  | refreshing | finished => exact absurd rfl hfinished
  | _ => trivial

end SyncPoint

end LoadCoach

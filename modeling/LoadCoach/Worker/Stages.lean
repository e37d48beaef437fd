import LoadCoach.Worker.Invariants

/-! # The attempt loop, turn by turn

`_attempts` of `services/worker.py` counts four things: the attempts of the job, the index of the
candidate, the attempts on it, and whether a candidate was entered before (`first`).  A point of
the loop is at one of seven stages, and `LoopStep` says what a statement does to the stage and the
counters; whatever else a statement does, it does not matter to them.  `Moves.loop` is the one case
analysis of the worker's statements behind that: it leaves the loop, or it is a step of it.

* `paced`: the counters fit the stage, in every reachable world. -/

namespace LoadCoach

open Foundations

/-! ### Stages -/

/-- Where in its turn the loop is. -/
inductive LoopStage where
  /-- Before a candidate is entered. -/
  | gate
  /-- On the way back to `admitted`. -/
  | readmission
  | ready
  /-- An attempt is counted, the provider not called yet. -/
  | counted
  | calling
  /-- The call is over. -/
  | answered
  /-- The loop is left with this statement. -/
  | ending
deriving DecidableEq

/-- The stage of a point of the loop, and the locals there. -/
def Point.stage? : Point → Option (LoopStage × AttemptLoop)
  | .admitting l | .checkingAdmitted l | .gate l => some (.gate, l)
  | .startingRetry l _ | .resuming l _ | .readmitting l _ => some (.readmission, l)
  | .counting l => some (.ready, l)
  | .checkingToken l | .checkingRow l | .starting l => some (.counted, l)
  | .calling l => some (.calling, l)
  | .settling l _ | .recording l _ | .deciding l _ => some (.answered, l)
  | .requeueing l | .completing l _ | .failing l _ => some (.ending, l)
  | _ => none

/-- The points behind the loop, up to the removal of the entry. -/
def Point.afterLoop : Point → Bool
  | .cancelling .. | .crashed .. | .leaving _ => true
  | _ => false

theorem Point.stage?_of_afterLoop {p : Point} (h : p.afterLoop = true) : p.stage? = none := by
  cases p <;> first | rfl | cases h

namespace AttemptLoop

/-- What else a statement may change: the state, the records, the candidates skipped. -/
def noting (l : AttemptLoop) (state : JobState) (records : List AttemptRecord)
    (probeSkipped : List String) : AttemptLoop :=
  { l with state, records, probeSkipped }

/-- The calls one candidate may get. -/
def limit (l : AttemptLoop) : ℕ := max l.perCandidate 2

end AttemptLoop

/-- One statement of the loop. -/
inductive LoopStep (l : AttemptLoop) : LoopStage → LoopStage → AttemptLoop → Prop
  /-- The stage and the counters stay. -/
  | keep (σ : LoopStage) (state : JobState) (records : List AttemptRecord)
      (probeSkipped : List String) : LoopStep l σ σ (l.noting state records probeSkipped)
  /-- A candidate whose breaker is being probed is skipped. -/
  | skip {index : Fin (l.fallbacks.length + 1)} (probeSkipped : List String)
      (hnext : l.nextIndex false = some index) :
      LoopStep l .gate .gate { l with probeSkipped, index }
  /-- The first candidate that is let through is entered as it was admitted. -/
  | enter (hfirst : l.first = true) :
      LoopStep l .gate .ready { l with attemptsHere := 0, first := false }
  /-- A later one is re-admitted. -/
  | reenter (hfirst : l.first = false) : LoopStep l .gate .readmission { l with attemptsHere := 0 }
  | readmitted (state : JobState) : LoopStep l .readmission .ready { l with state }
  | count (hroom : l.attemptNumber < l.job.maxAttempts) :
      LoopStep l .ready .counted
        { l with attemptNumber := l.attemptNumber + 1, attemptsHere := l.attemptsHere + 1 }
  | call (state : JobState) : LoopStep l .counted .calling { l with state }
  | answer (records : List AttemptRecord) : LoopStep l .calling .answered { l with records }
  /-- Another attempt on the candidate. -/
  | retry (hlimit : l.attemptsHere < l.limit) : LoopStep l .answered .readmission l
  /-- The next candidate, after a context limit a larger one. -/
  | fallback {index : Fin (l.fallbacks.length + 1)} (larger : Bool)
      (hnext : l.nextIndex larger = some index) : LoopStep l .answered .gate { l with index }
  | finish {σ : LoopStage} (state : JobState) (probeSkipped : List String) :
      LoopStep l σ .ending { l with state, probeSkipped }

namespace LoopStep

variable {l l' : AttemptLoop} {σ : LoopStage}

/-- The gate is reached from the gate, or from an attempt that failed. -/
theorem from_gate (hstep : LoopStep l σ .gate l') : σ = .gate ∨ σ = .answered := by
  cases hstep with
  | keep | skip => exact .inl rfl
  | fallback => exact .inr rfl

theorem to_call (hstep : LoopStep l σ .calling l') (hne : σ ≠ .calling) :
    σ = .counted ∧ l'.candidate = l.candidate := by
  cases hstep with
  | keep => exact absurd rfl hne
  | call => exact ⟨rfl, rfl⟩

end LoopStep

/-! ### The statements of a worker -/

namespace Point

/-- A point behind the loop, or one step of the loop on. -/
def LoopNext (σ : LoopStage) (l : AttemptLoop) (p : Point) : Prop :=
  p.afterLoop = true ∨ ∃ σ' l', p.stage? = some (σ', l') ∧ LoopStep l σ σ' l'

theorem readmitJob_stage? (l : AttemptLoop) (reason : String) :
    (readmitJob l reason).stage? = some (.readmission, l) := by
  unfold readmitJob
  split_ifs <;> rfl

theorem probeBusy_next (l : AttemptLoop) : (probeBusy l).LoopNext .gate l := by
  right
  unfold probeBusy
  dsimp only
  split
  · exact ⟨_, _, rfl, .finish l.state _⟩
  · rename_i index hnext
    exact ⟨_, _, rfl, .skip _ hnext⟩

theorem enter_next (l : AttemptLoop) : (enter l).LoopNext .gate l := by
  right
  cases hfirst : l.first with
  | true =>
      have henter : enter l = counting { l with attemptsHere := 0, first := false } := by
        simp [enter, hfirst]
      exact ⟨_, _, by rw [henter]; rfl, .enter hfirst⟩
  | false =>
      have henter : enter l = readmitJob { l with attemptsHere := 0 } "fallback" := by
        simp [enter, hfirst]
      exact ⟨_, _, by rw [henter]; exact readmitJob_stage? _ _, .reenter hfirst⟩

theorem decided_next (l : AttemptLoop) (o : AttemptOutcome) :
    (decided l o).LoopNext .answered l := by
  unfold decided
  dsimp only
  split
  · exact .inl rfl
  · rename_i haction
    right
    split_ifs
    · exact ⟨_, _, rfl, .finish l.state l.probeSkipped⟩
    · refine ⟨_, _, readmitJob_stage? _ _, .retry ?_⟩
      have hretry := nextAction_retrySame haction
      simp only [protocolErrorRetries] at hretry
      simp only [AttemptLoop.limit]
      omega
  · right
    split
    · exact ⟨_, _, rfl, .finish l.state l.probeSkipped⟩
    · rename_i index hnext
      exact ⟨_, _, rfl, .fallback _ hnext⟩

theorem committed_next {p : Point} {totalMs : ℤ} {e : ClaimedJob × WorkerTx} {σ : LoopStage}
    {l : AttemptLoop} (htx : p.tx totalMs = some e) (hstage : p.stage? = some (σ, l)) :
    p.committed.LoopNext σ l := by
  cases p with
  | admitting =>
      cases hstage
      exact .inr ⟨_, _, rfl, .keep _ l.state l.records l.probeSkipped⟩
  | startingRetry =>
      cases hstage
      exact .inr ⟨_, _, rfl, .keep _ _ l.records l.probeSkipped⟩
  | readmitting =>
      cases hstage
      exact .inr ⟨_, _, rfl, .readmitted _⟩
  | starting =>
      cases hstage
      exact .inr ⟨_, _, rfl, .call _⟩
  | recording _ o =>
      cases hstage
      simp only [committed]
      split_ifs
      · exact .inr ⟨_, _, rfl, .keep _ _ l.records l.probeSkipped⟩
      · exact .inr ⟨_, _, rfl, .finish _ l.probeSkipped⟩
      · exact .inl rfl
      · exact .inr ⟨_, _, rfl, .keep _ _ l.records l.probeSkipped⟩
  | requeueing | completing | failing => exact .inl rfl
  | deferring | failingAdmission | cancelling | crashed => cases hstage
  | _ => cases htx

theorem raised_afterLoop {p : Point} {totalMs : ℤ} {e : ClaimedJob × WorkerTx} (x : Raised)
    (htx : p.tx totalMs = some e) : (p.raised x).afterLoop = true := by
  have hjob := job?_of_tx htx
  cases p with
  | crashed => rfl
  | _ =>
      simp only [raised, hjob]
      split_ifs <;> rfl

end Point

namespace World

variable {rack : ModelRack} {s : World} {a : Act} {w : Owner} {σ : LoopStage} {l : AttemptLoop}

/-- Where a commit leads: on, or to what an exception does. -/
theorem commit_point {now : Instant} {totalMs : ℤ} {e : ClaimedJob × WorkerTx}
    (htx : (s.point w).tx totalMs = some e) :
    (s.after rack (.commit w now totalMs)).point w = (s.point w).committed ∨
      ∃ x, (s.after rack (.commit w now totalMs)).point w = (s.point w).raised x := by
  have hmoves := moves rack s (.commit w now totalMs) w
  generalize (s.after rack (.commit w now totalMs)).point w = p at hmoves ⊢
  generalize (s.after rack (.commit w now totalMs)).calls w = call at hmoves
  cases hmoves with
  | stay hcommit => simp [hcommit now totalMs rfl] at htx
  | commit => exact .inl rfl
  | refuse => exact .inr ⟨_, rfl⟩

theorem advanced_next (hstage : (s.point w).stage? = some (σ, l)) :
    (s.advanced w).LoopNext σ l := by
  unfold advanced
  cases hpoint : s.point w <;> rw [hpoint] at hstage <;> dsimp only
  case checkingAdmitted | resuming | checkingToken | checkingRow | settling =>
    cases hstage
    split_ifs
    · exact .inl rfl
    · exact .inr ⟨_, _, rfl, .keep _ l.state l.records l.probeSkipped⟩
  case counting =>
    cases hstage
    split_ifs with hmax
    · exact .inr ⟨_, _, rfl, .finish l.state l.probeSkipped⟩
    · exact .inr ⟨_, _, rfl, .count (not_le.1 hmax)⟩
  case deciding _ o =>
    cases hstage
    exact Point.decided_next l o
  case checking => cases hstage
  all_goals exact .inr ⟨_, _, hstage, .keep _ l.state l.records l.probeSkipped⟩

/-- **A statement of a worker in the loop** leaves the loop or is a step of it. -/
theorem Moves.loop {p : Point} {call : Option ProviderCall} (hmoves : Moves rack s w a p call)
    (hstage : (s.point w).stage? = some (σ, l)) : p.LoopNext σ l := by
  cases hmoves with
  | stay => exact .inr ⟨_, _, hstage, .keep _ l.state l.records l.probeSkipped⟩
  | claim hpoint | register hpoint | route hpoint | leave hpoint =>
      rw [hpoint] at hstage
      cases hstage
  | @probe _ busy hpoint =>
      rw [hpoint] at hstage
      cases hstage
      cases busy
      · exact Point.enter_next l
      · exact Point.probeBusy_next l
  | advance => exact advanced_next hstage
  | commit htx => exact Point.committed_next htx hstage
  | refuse htx => exact .inl (Point.raised_afterLoop _ htx)
  | answer hpoint =>
      rw [hpoint] at hstage
      cases hstage
      exact .inr ⟨_, _, rfl, .answer _⟩
  | raiseCall | raise => exact .inl rfl

theorem advanced_outside (hbefore : (s.point w).stage? = none) :
    (s.advanced w).stage? = none := by
  unfold advanced
  cases hpoint : s.point w <;> rw [hpoint] at hbefore <;> dsimp only
  case checking =>
    split_ifs <;> rfl
  case checkingAdmitted | resuming | counting | checkingToken | checkingRow | settling | deciding =>
    cases hbefore
  all_goals exact hbefore

/-- **The loop begins** where the router's verdict is carried out. -/
theorem Moves.loop_begins {p : Point} {call : Option ProviderCall}
    (hmoves : Moves rack s w a p call) (hbefore : (s.point w).stage? = none)
    (hstage : p.stage? = some (σ, l)) :
    σ = .gate ∧ l.attemptNumber = l.job.attempt ∧ l.first = true ∧ l.index.val = 0 ∧
      s.point w = .routing l.job := by
  cases hmoves with
  | stay =>
      rw [hbefore] at hstage
      cases hstage
  | claim | register | raiseCall | raise | leave => cases hstage
  | @route job verdict hpoint =>
      cases verdict with
      | routed =>
          cases hstage
          exact ⟨rfl, rfl, rfl, rfl, hpoint⟩
      | deferred | ineligible => cases hstage
  | probe hpoint | answer hpoint =>
      rw [hpoint] at hbefore
      cases hbefore
  | advance =>
      rw [advanced_outside hbefore] at hstage
      cases hstage
  | refuse htx =>
      rw [Point.stage?_of_afterLoop (Point.raised_afterLoop _ htx)] at hstage
      cases hstage
  | commit htx =>
      cases hpoint : s.point w <;> rw [hpoint] at htx hbefore hstage
      case deferring | failingAdmission | cancelling | crashed => cases hstage
      case admitting | requeueing | startingRetry | readmitting | starting | recording |
        completing | failing => cases hbefore
      all_goals cases htx

end World

/-! ### The counters -/

/-- The counters of the loop fit its stage. -/
def LoopStage.Paced (l : AttemptLoop) : LoopStage → Prop
  | .gate => l.job.attempt ≤ l.attemptNumber ∧
      (l.first = true ↔ l.attemptNumber = l.job.attempt)
  | .readmission => l.job.attempt < l.attemptNumber ∧ l.attemptsHere < l.limit ∧ l.first = false
  | .ready => l.job.attempt ≤ l.attemptNumber ∧ l.attemptsHere < l.limit ∧ l.first = false
  | .counted | .calling | .answered => l.job.attempt < l.attemptNumber ∧ l.first = false
  | .ending => True

theorem LoopStep.paced {l l' : AttemptLoop} {σ σ' : LoopStage} (hstep : LoopStep l σ σ' l')
    (h : σ.Paced l) : σ'.Paced l' := by
  have htwo : 0 < l.limit := by simp [AttemptLoop.limit]
  cases hstep with
  | keep => cases σ <;> exact h
  | skip => exact h
  | enter => exact ⟨h.1, htwo, rfl⟩
  | reenter hfirst =>
      refine ⟨lt_of_le_of_ne h.1 fun heq => ?_, htwo, hfirst⟩
      rw [h.2.2 heq.symm] at hfirst
      cases hfirst
  | readmitted => exact ⟨h.1.le, h.2⟩
  | count => exact ⟨Nat.lt_succ_of_le h.1, h.2.2⟩
  | call | answer => exact h
  | retry hlimit => exact ⟨h.1, hlimit, h.2⟩
  | fallback =>
      refine ⟨h.1.le, ?_⟩
      have hne : l.attemptNumber ≠ l.job.attempt := h.1.ne'
      simp [h.2, hne]
  | finish => trivial

/-- **The counters fit the stage** wherever a worker is in its loop. -/
theorem World.paced {rack : ModelRack} {s : World} {h : List (Foundations.Step World Act)}
    (hrun : Run (World.system rack) h s) {w : Owner} {σ : LoopStage} {l : AttemptLoop}
    (hstage : (s.point w).stage? = some (σ, l)) : σ.Paced l := by
  induction hrun generalizing σ l with
  | start hs =>
      rw [Set.mem_singleton_iff.1 hs] at hstage
      cases hstage
  | @step h s _ a hpast hnext ih =>
      obtain ⟨-, rfl⟩ := hnext
      have hmoves := moves rack s a w
      cases hbefore : (s.point w).stage? with
      | some at₀ =>
          rcases hmoves.loop hbefore with hout | ⟨σ', l', hafter, hstep⟩
          · rw [Point.stage?_of_afterLoop hout] at hstage
            cases hstage
          · rw [hafter] at hstage
            cases hstage
            exact hstep.paced (ih hbefore)
      | none =>
          obtain ⟨rfl, hcount, hfirst, -⟩ := hmoves.loop_begins hbefore hstage
          exact ⟨hcount.ge, by simp [hcount, hfirst]⟩

/-! ### Calls -/

namespace World

variable {w : Owner} {e : Foundations.Step World Act} {l : AttemptLoop}

/-- The call a worker makes with a step: the locals it is made with. -/
def callOf (w : Owner) (e : Foundations.Step World Act) : Option AttemptLoop :=
  match (e.pre.point w).stage?, (e.post.point w).stage? with
  | some (.counted, _), some (.calling, l) => some l
  | _, _ => none

/-- The calls of a worker in a history, the newest first. -/
def callsOf (w : Owner) (h : List (Foundations.Step World Act)) : List AttemptLoop :=
  h.filterMap (callOf w)

theorem callOf_eq_some_iff : callOf w e = some l ↔
    (∃ l₀, (e.pre.point w).stage? = some (.counted, l₀)) ∧
      (e.post.point w).stage? = some (.calling, l) := by
  unfold callOf
  constructor
  · intro h
    split at h
    · rename_i l₀ l₁ hpre hpost
      cases h
      exact ⟨⟨l₀, hpre⟩, hpost⟩
    · cases h
  · rintro ⟨⟨l₀, hpre⟩, hpost⟩
    rw [hpre, hpost]

end World

end LoadCoach

import LoadCoach.Serving.Executions

/-! # The loop of a synchronous execution

The program of an execution computes the loop of `Execution.lean`.  `SyncPoint.result` is what that
loop still makes of a point, if everything outside of it answers as the surroundings say.  No
statement changes it (`entered_result`, `answered_result`, `corrected_result`), so an execution that
comes to its last transaction has what `executeAttempts` returns (`Process.executed_eq`), whatever
the workers and the other executions did meanwhile. -/

namespace LoadCoach

open Foundations

variable {rack : ModelRack} {env : Surroundings Unit}

/-! ### The loop, statement by statement -/

namespace SyncPoint

variable {l : SyncLoop} {t : SyncTry}

/-- The rest of the loop, once the attempts on a candidate are over. -/
def finish (env : Surroundings Unit) (l : SyncLoop) :
    Execution Unit ⊕ Executed Unit → Executed Unit
  | .inl st => tryCandidates () env l.decision.policy.maxAttempts l.limit l.rest st
  | .inr executed => executed

/-- What the loop makes of a point. -/
def result (env : Surroundings Unit) : SyncPoint → Option (Executed Unit)
  | loading l | announcing l | entering l =>
      some (tryCandidates () env l.decision.policy.maxAttempts l.limit l.rest l.st)
  | building l t | calling l t =>
      some (finish env l (attemptCandidate () env l.limit t.candidate t.holdsProbe
        (t.remaining + 1) l.st))
  | correcting l t =>
      some (match env.corrects l.st.attemptNumber with
        | some refusal => { l.st with refusal := some refusal }
        | none => finish env l (attemptCandidate () env l.limit t.candidate t.holdsProbe
            t.remaining l.st))
  | persisting _ executed => some executed
  | _ => none

theorem entered_result {holdsProbe probeBusy : Bool}
    (hbreakers : ∀ candidate, l.rest.head?.join = some candidate →
      (env.breakers.map fun ask => ask candidate).getD (false, false) = (holdsProbe, probeBusy)) :
    (entered l holdsProbe probeBusy).result env = (entering l).result env := by
  cases hrest : l.rest with
  | nil => simp only [entered, result, hrest, tryCandidates]
  | cons c rest =>
      cases c with
      | none => simp only [entered, result, hrest, tryCandidates, SyncLoop.limit]
      | some candidate =>
          have hasked := hbreakers candidate (by rw [hrest]; rfl)
          have hattempts : l.decision.policy.maxAttempts - 1 + 1 =
              l.decision.policy.maxAttempts :=
            Nat.sub_add_cancel l.decision.policy.pos
          simp only [entered, result, hrest, tryCandidates, hasked]
          split_ifs
          · rfl
          · simp only [hattempts, SyncLoop.limit]
            cases attemptCandidate () env _ candidate holdsProbe _ l.st <;> rfl

/-- A decision, once the corrective turns are built or refused. -/
def correctedBy (env : Surroundings Unit) (st : Execution Unit) : Verdict Unit → Verdict Unit
  | .correct =>
      match env.corrects st.attemptNumber with
      | some refusal => .stop { st with refusal := some refusal }
      | none => .correct
  | v => v

theorem judge_eq (env : Surroundings Unit) (limit : ℕ) (candidate : RankedCandidate)
    (holdsProbe : Bool) (st : Execution Unit) (outcome : AttemptOutcome) :
    judge env limit candidate holdsProbe st outcome =
      correctedBy env st (judge uncorrected limit candidate holdsProbe st outcome) := by
  unfold judge uncorrected
  dsimp only
  split
  · split
    · rfl
    · split_ifs <;> rfl
  · split_ifs <;> rfl

/-- What the loop makes of a decision. -/
def carriedOut (env : Surroundings Unit) (l : SyncLoop) (t : SyncTry) :
    Verdict Unit → Executed Unit
  | .stop executed => executed
  | .fallBack => finish env l (.inl l.st)
  | .correct =>
      finish env l (attemptCandidate () env l.limit t.candidate t.holdsProbe t.remaining l.st)

theorem calling_result {collected : Collected}
    (hbuilds : env.builds (l.st.attemptNumber + 1) = none)
    (hanswer : env.answer () t.candidate (l.st.attemptNumber + 1) = collected) :
    (calling l t).result env = some (carriedOut env (attempted l t collected) t
      (judge env l.limit t.candidate t.holdsProbe (attempted l t collected).st
        (outcome l t collected))) := by
  simp only [result, attemptCandidate, hbuilds, hanswer, attempted, outcome]
  generalize judge env l.limit t.candidate t.holdsProbe _ _ = v
  cases v <;> rfl

theorem answered_result {collected : Collected}
    (hbuilds : env.builds (l.st.attemptNumber + 1) = none)
    (hanswer : env.answer () t.candidate (l.st.attemptNumber + 1) = collected) :
    (answered l t collected).result env = (calling l t).result env := by
  rw [calling_result hbuilds hanswer, judge_eq]
  change (answered l t collected).result env = some (carriedOut env (attempted l t collected) t
    (correctedBy env (attempted l t collected).st (verdict l t collected)))
  unfold answered
  cases verdict l t collected with
  | stop executed => rfl
  | fallBack => rfl
  | correct =>
      dsimp only [result, correctedBy]
      cases env.corrects (attempted l t collected).st.attemptNumber <;> rfl

theorem corrected_result (hcorrects : env.corrects l.st.attemptNumber = none) :
    (corrected l t).result env = (correcting l t).result env := by
  unfold corrected
  split <;> rename_i hremaining <;> simp only [result, hcorrects, hremaining]
  rfl

theorem refused_building {refusal : Refusal}
    (hbuilds : env.builds (l.st.attemptNumber + 1) = some refusal) :
    (refused l refusal).result env = (building l t).result env := by
  simp only [result, refused, attemptCandidate, hbuilds]
  rfl

theorem refused_correcting {refusal : Refusal}
    (hcorrects : env.corrects l.st.attemptNumber = some refusal) :
    (refused l refusal).result env = (correcting l t).result env := by
  simp only [result, refused, hcorrects]

/-- The decision an execution works on. -/
def decision? : SyncPoint → Option SyncDecision
  | loading l | announcing l | entering l | building l _ | calling l _ | correcting l _ =>
      some l.decision
  | persisting decision _ => some decision
  | _ => none

/-- The execution is on its way to what the loop returns. -/
def Computes (env : Surroundings Unit) (p : SyncPoint) : Prop :=
  ∀ decision executed, p.decision? = some decision → p.result env = some executed →
    executed = executeAttempts () env decision.policy decision.ranking

theorem Computes.of_result {p p' : SyncPoint} (h : p.Computes env)
    (hresult : p'.result env = p.result env) (hdecision : p'.decision? = p.decision?) :
    p'.Computes env := by
  intro decision executed hd hr
  rw [hdecision] at hd
  rw [hresult] at hr
  exact h decision executed hd hr

theorem computes_of_result_none {p : SyncPoint} (h : p.result env = none) : p.Computes env := by
  intro decision executed _ hr
  rw [h] at hr
  cases hr

theorem committed_computes {p : SyncPoint} {j : JobId} {now : Instant} {totalMs : ℤ} {op : Op}
    (h : p.Computes env) (hop : p.op j now totalMs = some op) : p.committed.Computes env := by
  cases p <;> cases hop
  case announcing => exact h.of_result rfl rfl
  all_goals exact computes_of_result_none rfl

theorem entered_decision? (l : SyncLoop) (holdsProbe probeBusy : Bool) :
    (entered l holdsProbe probeBusy).decision? = some l.decision := by
  unfold entered
  split
  · rfl
  · rfl
  · split_ifs <;> rfl

theorem answered_decision? (l : SyncLoop) (t : SyncTry) (collected : Collected) :
    (answered l t collected).decision? = some l.decision := by
  unfold answered
  split <;> rfl

theorem corrected_decision? (l : SyncLoop) (t : SyncTry) :
    (corrected l t).decision? = some l.decision := by
  unfold corrected
  split <;> rfl

end SyncPoint

/-! ### The loop in a run -/

namespace Process

variable {s s' : Process} {j : JobId} {h : List (Foundations.Step Process ProcessAct)}

/-- What happens outside of the execution is what the surroundings say. -/
def Conforms (env : Surroundings Unit) (s : Process) (j : JobId) : SyncAct → Prop
  | .enter now => ∀ l candidate, s.point j = .entering l →
      l.rest.head?.join = some candidate →
        (env.breakers.map fun ask => ask candidate).getD (false, false) =
          ((s.breakers.ask candidate.subjectCanonicalId now).1,
            (s.breakers.ask candidate.subjectCanonicalId now).2.1)
  | .answer collected _ => ∀ l t, s.point j = .calling l t →
      env.builds (l.st.attemptNumber + 1) = none ∧
        env.answer () t.candidate (l.st.attemptNumber + 1) = collected
  | .correct => ∀ l t, s.point j = .correcting l t → env.corrects l.st.attemptNumber = none
  | .raise e => ∀ refusal, e.validationError? = some refusal → ∀ l t,
      (s.point j = .building l t → env.builds (l.st.attemptNumber + 1) = some refusal) ∧
        (s.point j = .correcting l t → env.corrects l.st.attemptNumber = some refusal) ∧
        s.point j ≠ .calling l t
  | _ => True

/-- A step of the execution conforms to the surroundings. -/
def Follows (env : Surroundings Unit) (j : JobId)
    (e : Foundations.Step Process ProcessAct) : Prop :=
  match e.act with
  | .sync k a => k = j → e.pre.Conforms env j a
  | _ => True

theorem raise_computes {e : Raised} (hconforms : s.Conforms env j (.raise e))
    (hcomputes : (s.point j).Computes env) : ((s.point j).raised e).Computes env := by
  cases hpoint : s.point j with
  | routing =>
      rw [SyncPoint.raised]
      cases e.suiteError? <;> exact SyncPoint.computes_of_result_none rfl
  | building l t =>
      rw [SyncPoint.raised]
      cases he : e.validationError? with
      | none => exact SyncPoint.computes_of_result_none rfl
      | some refusal =>
          rw [hpoint] at hcomputes
          exact hcomputes.of_result
            (SyncPoint.refused_building ((hconforms refusal he l t).1 hpoint)) rfl
  | correcting l t =>
      rw [SyncPoint.raised]
      cases he : e.validationError? with
      | none => exact SyncPoint.computes_of_result_none rfl
      | some refusal =>
          rw [hpoint] at hcomputes
          exact hcomputes.of_result
            (SyncPoint.refused_correcting ((hconforms refusal he l t).2.1 hpoint)) rfl
  | calling l t =>
      rw [SyncPoint.raised]
      cases he : e.validationError? with
      | none => exact SyncPoint.computes_of_result_none rfl
      | some refusal => exact absurd hpoint (hconforms refusal he l t).2.2
  | _ => exact SyncPoint.computes_of_result_none rfl

/-- **A statement of an execution does what the loop does.** -/
theorem Moves.computes {a : SyncAct} (hmoves : Moves rack s j a s')
    (hrun : Run (system rack) h s) (hconforms : s.Conforms env j a)
    (hcomputes : (s.point j).Computes env) : (s'.point j).Computes env := by
  have hgoto : ∀ {p : SyncPoint}, p.Computes env →
      (Function.update s.point j p j).Computes env := by
    intro p hp
    rw [Function.update_self]
    exact hp
  have hraise : ∀ e, s.Conforms env j (.raise e) →
      ((s.raise rack j e).point j).Computes env := by
    intro e he
    have hraised := raise_computes he hcomputes
    rcases raise_cases rack s j e with ⟨-, hraise⟩ | ⟨-, hraise⟩
    · rw [hraise, leave_point]
      exact hgoto (SyncPoint.computes_of_result_none rfl)
    · rw [hraise]
      exact hgoto hraised
  cases hmoves with
  | stay => exact hcomputes
  | begin | prepare | refresh => exact hgoto (SyncPoint.computes_of_result_none rfl)
  | route =>
      refine hgoto ?_
      rintro decision executed ⟨⟩ ⟨⟩
      rfl
  | load hpoint | build hpoint =>
      rw [hpoint] at hcomputes
      exact hgoto (hcomputes.of_result rfl rfl)
  | commit hop =>
      obtain ⟨db', hcommits⟩ := commit_ok hrun hop
      unfold Process.commit
      rw [hcommits]
      exact hgoto (SyncPoint.committed_computes hcomputes hop)
  | @enter l now hpoint =>
      rw [hpoint] at hcomputes
      unfold Process.enter
      split
      · rename_i hnone
        refine hgoto (hcomputes.of_result (SyncPoint.entered_result ?_)
          (SyncPoint.entered_decision? ..))
        intro candidate hcandidate
        rw [hnone] at hcandidate
        cases hcandidate
      · rename_i candidate hsome
        refine hgoto (hcomputes.of_result (SyncPoint.entered_result ?_)
          (SyncPoint.entered_decision? ..))
        intro candidate' hcandidate
        cases hsome.symm.trans hcandidate
        exact hconforms l candidate hpoint hsome
  | @answer l t collected parses hpoint =>
      rw [hpoint] at hcomputes
      obtain ⟨hbuilds, hanswer⟩ := hconforms l t hpoint
      have hanswered := hcomputes.of_result (SyncPoint.answered_result hbuilds hanswer)
        (SyncPoint.answered_decision? ..)
      unfold Process.answer
      dsimp only
      split
      · exact hgoto hanswered
      · exact hgoto hanswered
  | unsupported => exact hraise _ fun refusal he => by cases he
  | @correct l t hpoint =>
      rw [hpoint] at hcomputes
      exact hgoto (hcomputes.of_result (SyncPoint.corrected_result (hconforms l t hpoint))
        (SyncPoint.corrected_decision? ..))
  | raise => exact hraise _ hconforms

/-- **An execution computes the loop.**  In a run in which everything outside of an execution
answers as the surroundings say, what the execution persists is what the loop returns. -/
theorem executed_eq (hrun : Run (system rack) h s) (hfollows : ∀ e ∈ h, Follows env j e)
    {decision : SyncDecision} {executed : Executed Unit}
    (hpoint : s.point j = .persisting decision executed) :
    executed = executeAttempts () env decision.policy decision.ranking := by
  have hcomputes : (s.point j).Computes env := by
    clear hpoint
    induction hrun with
    | start hs =>
        rw [Set.mem_singleton_iff.1 hs]
        exact SyncPoint.computes_of_result_none rfl
    | @step h s _ a hpast hnext ih =>
        obtain ⟨henabled, rfl⟩ := hnext
        rw [List.forall_mem_cons] at hfollows
        have hcomputes := ih hfollows.2
        cases a with
        | world a =>
            rw [(after_world_keeps rack s a).point]
            exact hcomputes
        | probe w now =>
            rw [(after_probe_keeps rack s w now).point]
            exact hcomputes
        | update => exact hcomputes
        | sync k a =>
            by_cases hk : j = k
            · subst hk
              exact (moves rack s j a).computes hpast (hfollows.1 rfl) hcomputes
            · change ((s.stepped rack k a).point j).Computes env
              rw [(moves rack s k a).frame.point j hk]
              exact hcomputes
  rw [hpoint] at hcomputes
  exact hcomputes decision executed rfl rfl

end Process

end LoadCoach

import LoadCoach.Serving.Executions
import LoadCoach.Worker.Attempts

/-! # A permanent refusal

Two provider errors say that the request, as written, will never work: the provider does not hold
the pinned adapter, or the profile does not describe the server (`permanentRefusal`).  The
synchronous loop asks for them before anything else and ends.  The worker does not: its failure
table reads both as `rejected`, like any other error it has no row for, and falls back.

On either path an execution that can make no more call is a set of points the program does not
leave (`SyncPoint.Over`, `Point.Over`).  A synchronous execution is there as soon as it is refused.
A worker is there once its decision on the refused attempt leaves no candidate, or no attempt, and
that is what the condition on a run says (`Exhausts`). -/

namespace LoadCoach

open Foundations

variable {rack : ModelRack}

/-! ### Refused attempts -/

/-- The provider's failure is a permanent refusal of the request. -/
def Collected.Refused (collected : Collected) : Prop :=
  ∃ failure, collected.failure = some failure ∧ (permanentRefusal failure).isSome

/-- The attempt ended with a permanent refusal of the request. -/
def AttemptOutcome.Refused (o : AttemptOutcome) : Prop :=
  ∃ failure, o.failure = some failure ∧ (permanentRefusal failure).isSome

theorem runAttempt_failure (attemptNumber : ℕ) (candidate : RankedCandidate)
    (collected : Collected) :
    (runAttempt attemptNumber candidate collected).failure = collected.failure := by
  unfold runAttempt
  split
  · rename_i failure hfailure
    exact hfailure.symm
  · rename_i hfailure
    exact hfailure.symm

theorem refused_runAttempt {attemptNumber : ℕ} {candidate : RankedCandidate}
    {collected : Collected} :
    (runAttempt attemptNumber candidate collected).Refused ↔ collected.Refused := by
  rw [AttemptOutcome.Refused, runAttempt_failure]
  rfl

theorem classifyFailure_refused {failure : ProviderError}
    (h : (permanentRefusal failure).isSome) : classifyFailure failure = .rejected := by
  rcases failure with ⟨kind, code, message⟩
  cases kind
  case adapterNotFound | profileMismatch => rfl
  all_goals cases h

/-! ### The synchronous loop -/

section Loop

variable {P : Type} {provider : P} {env : Surroundings P} {maxAttempts limit : ℕ}
  {candidate : RankedCandidate} {holdsProbe : Bool}

/-- What the provider said to a call. -/
def Surroundings.said (env : Surroundings P) (call : Call P) : Collected :=
  env.answer call.provider call.candidate call.attemptNumber

/-- No call that another one follows was refused. -/
def Execution.EndsRefused (env : Surroundings P) (st : Execution P) : Prop :=
  st.calls.Pairwise fun call _ => ¬ (env.said call).Refused

/-- No call was refused. -/
def Execution.Unrefused (env : Surroundings P) (st : Execution P) : Prop :=
  ∀ call ∈ st.calls, ¬ (env.said call).Refused

theorem Execution.Unrefused.endsRefused {st : Execution P} (h : st.Unrefused env) :
    st.EndsRefused env :=
  List.pairwise_of_forall_mem_list fun call hcall _ _ => h call hcall

theorem Execution.Unrefused.attempted_endsRefused {st : Execution P} (h : st.Unrefused env)
    (outcome : AttemptOutcome) :
    (st.attempted provider candidate outcome).EndsRefused env := by
  refine List.pairwise_append.2 ⟨h.endsRefused, List.pairwise_singleton _ _, ?_⟩
  intro call hcall _ _
  exact h call hcall

theorem judge_refused {st : Execution P} {outcome : AttemptOutcome} (h : outcome.Refused) :
    ∃ executed, judge env limit candidate holdsProbe st outcome = .stop executed := by
  obtain ⟨failure, hfailure, hpermanent⟩ := h
  obtain ⟨refusal, hrefusal⟩ := Option.isSome_iff_exists.1 hpermanent
  refine ⟨{ st with refusal := some refusal }, ?_⟩
  simp only [judge, hfailure, hrefusal]

/-- The attempts on one candidate go on to the next one only if none was refused. -/
def LeavesRefused (env : Surroundings P) : Execution P ⊕ Executed P → Prop
  | .inl st => st.Unrefused env
  | .inr executed => executed.toExecution.EndsRefused env

theorem attemptCandidate_refused (remaining : ℕ) {st : Execution P} (h : st.Unrefused env) :
    LeavesRefused env (attemptCandidate provider env limit candidate holdsProbe remaining st) := by
  induction remaining generalizing st with
  | zero => exact h
  | succ remaining ih =>
      rw [attemptCandidate]
      dsimp only
      split
      · exact h.endsRefused
      · generalize hattempt : runAttempt (st.attemptNumber + 1) candidate
          (env.answer provider candidate (st.attemptNumber + 1)) = outcome
        -- a call the loop goes on after was not refused
        have hgoes : (∀ executed, judge env limit candidate holdsProbe
              (st.attempted provider candidate outcome) outcome ≠ .stop executed) →
            (st.attempted provider candidate outcome).Unrefused env := by
          intro hnever call hcall hrefused
          rcases List.mem_append.1 hcall with hcall | hcall
          · exact h call hcall hrefused
          · rw [List.mem_singleton.1 hcall] at hrefused
            have hrefused : outcome.Refused := hattempt ▸ refused_runAttempt.2 hrefused
            obtain ⟨executed, hstop⟩ := judge_refused hrefused
            exact hnever executed hstop
        split
        · rename_i executed hstop
          rw [LeavesRefused, judge_stop hstop]
          exact h.attempted_endsRefused outcome
        · rename_i hfallBack
          exact hgoes (by simp [hfallBack])
        · rename_i hcorrect
          exact ih (hgoes (by simp [hcorrect]))

theorem tryCandidates_refused (rest : List (Option RankedCandidate)) {st : Execution P}
    (h : st.Unrefused env) :
    (tryCandidates provider env maxAttempts limit rest st).toExecution.EndsRefused env := by
  induction rest generalizing st with
  | nil => exact h.endsRefused
  | cons c rest ih =>
      cases c with
      | none => exact ih h
      | some candidate =>
          rw [tryCandidates]
          dsimp only
          split_ifs
          · exact ih h
          · have hattempts : LeavesRefused env (attemptCandidate provider env limit candidate
                ((env.breakers.map fun ask => ask candidate).getD (false, false)).1
                maxAttempts st) := attemptCandidate_refused maxAttempts h
            split
            · rename_i st' hnext
              rw [hnext] at hattempts
              exact ih hattempts
            · rename_i executed hstop
              rw [hstop] at hattempts
              exact hattempts

theorem executeAttempts_refused (provider : P) (env : Surroundings P) (policy : ExecutionPolicy)
    (ranking : Ranking) :
    (executeAttempts provider env policy ranking).toExecution.EndsRefused env :=
  tryCandidates_refused _ (by simp [Execution.Unrefused])

end Loop

/-! ### A worker that makes no more call -/

/-- A fallback from here makes no call: no candidate is left, or no attempt. -/
def AttemptLoop.Exhausted (l : AttemptLoop) : Prop :=
  l.nextIndex false = none ∨ l.job.maxAttempts ≤ l.attemptNumber

namespace Point

/-- The worker makes no more call for its job, provided its decision on a refused attempt leaves
nothing to try. -/
def Over : Point → Prop
  | settling _ o | recording _ o | deciding _ o => o.Refused
  | gate l | startingRetry l _ | resuming l _ | readmitting l _ | counting l =>
      l.job.maxAttempts ≤ l.attemptNumber
  | requeueing _ | failing .. | cancelling .. | crashed .. | leaving _ => True
  | _ => False

variable {l : AttemptLoop} {o : AttemptOutcome}

theorem decided_over (h : o.Refused) (hexhausted : l.Exhausted) : (decided l o).Over := by
  obtain ⟨failure, hfailure, hpermanent⟩ := h
  unfold decided
  simp only [hfailure, Option.map_some, Option.getD_some, classifyFailure_refused hpermanent,
    nextAction]
  cases hnext : l.nextIndex false with
  | none => trivial
  | some index =>
      rcases hexhausted with hnone | hused
      · rw [hnext] at hnone
        cases hnone
      · exact hused

theorem readmitJob_over (reason : String) (h : l.job.maxAttempts ≤ l.attemptNumber) :
    (readmitJob l reason).Over := by
  unfold readmitJob
  split_ifs <;> exact h

theorem probeBusy_over (h : l.job.maxAttempts ≤ l.attemptNumber) : (probeBusy l).Over := by
  unfold probeBusy
  dsimp only
  split
  · trivial
  · exact h

theorem enter_over (h : l.job.maxAttempts ≤ l.attemptNumber) : (enter l).Over := by
  unfold enter
  dsimp only
  split_ifs
  · exact h
  · exact readmitJob_over _ h

theorem committed_over {p : Point} (h : p.Over) : p.committed.Over := by
  cases p with
  | recording l o =>
      obtain ⟨failure, hfailure, hpermanent⟩ := h
      rw [committed, if_pos (by rw [hfailure]; rfl)]
      exact ⟨failure, hfailure, hpermanent⟩
  | requeueing | failing | cancelling | crashed => trivial
  | deferring | failingAdmission | completing => exact h.elim
  | _ => exact h

theorem raised_over {p : Point} {job : ClaimedJob} (hjob : p.job? = some job) (e : Raised) :
    (p.raised e).Over := by
  unfold raised
  split
  · trivial
  · rw [hjob]
    dsimp only
    split_ifs <;> trivial

theorem calling_over : ¬ (calling l).Over := id

end Point

namespace World

variable {s : World} {w : Owner} {a : Act} {p : Point} {call : Option ProviderCall}

theorem advanced_over (h : (s.point w).Over)
    (hexhausts : ∀ l o, s.point w = .deciding l o → o.Refused → l.Exhausted) :
    (s.advanced w).Over := by
  unfold advanced
  cases hpoint : s.point w <;> rw [hpoint] at h <;> dsimp only
  case counting l =>
    have hused : l.job.maxAttempts ≤ l.attemptNumber := h
    rw [if_pos hused]
    trivial
  case resuming l reason =>
    split_ifs
    · trivial
    · exact h
  case settling l o =>
    split_ifs
    · trivial
    · exact h
  case deciding l o => exact Point.decided_over h (hexhausts l o hpoint h)
  case checking | checkingAdmitted | checkingToken | checkingRow => exact h.elim
  all_goals exact h

/-- **A worker that makes no more call for its job keeps to that until it leaves it.** -/
theorem Moves.over (hmoves : Moves rack s w a p call) (h : (s.point w).Over)
    (hexhausts : a = .advance w → ∀ l o, s.point w = .deciding l o → o.Refused → l.Exhausted) :
    p.Over ∨ a = .leave w ∧ p = .idle := by
  cases hmoves with
  | stay => exact .inl h
  | claim hpoint | register hpoint | route hpoint | answer hpoint | raiseCall hpoint =>
      rw [hpoint] at h
      exact h.elim
  | @probe l busy hpoint =>
      rw [hpoint] at h
      left
      split_ifs
      · exact Point.probeBusy_over h
      · exact Point.enter_over h
  | advance => exact .inl (advanced_over h (hexhausts rfl))
  | commit => exact .inl (Point.committed_over h)
  | refuse htx => exact .inl (Point.raised_over (Point.job?_of_tx htx) _)
  | raise => exact .inl trivial
  | leave => exact .inr ⟨rfl, rfl⟩

end World

/-! ### A synchronous execution that makes no more call -/

/-- The execution makes no more call. -/
def SyncPoint.Over : SyncPoint → Prop
  | persisting .. | refreshing | finished => True
  | _ => False

namespace SyncPoint

theorem raised_of_over {p : SyncPoint} (h : p.Over) (e : Raised) : p.raised e = finished := by
  cases p with
  | persisting | refreshing | finished => rfl
  | _ => exact h.elim

theorem committed_over {p : SyncPoint} (h : p.Over) : p.committed.Over := by
  cases p with
  | persisting | refreshing | finished => trivial
  | _ => exact h.elim

theorem answered_refused {l : SyncLoop} {t : SyncTry} {collected : Collected}
    (h : collected.Refused) : (answered l t collected).Over := by
  have hrefused : (outcome l t collected).Refused := refused_runAttempt.2 h
  obtain ⟨executed, hverdict⟩ : ∃ executed, verdict l t collected = .stop executed :=
    judge_refused hrefused
  unfold answered
  rw [hverdict]
  trivial

end SyncPoint

/-! ### Runs of a process -/

namespace Process

variable {s s' : Process} {h : List (Foundations.Step Process ProcessAct)} {w : Owner} {j : JobId}

theorem goto_self (p : SyncPoint) : (s.goto j p).point j = p := Function.update_self _ _ _

theorem raise_point (e : Raised) : (s.raise rack j e).point j = (s.point j).raised e := by
  rcases raise_cases rack s j e with ⟨hfinished, hraise⟩ | ⟨-, hraise⟩
  · rw [hraise, leave_point, hfinished, Function.update_self]
  · rw [hraise, goto_self]

theorem commit_over {op : Op} (h : (s.point j).Over) : ((s.commit rack j op).point j).Over := by
  unfold Process.commit
  split
  · simpa [goto] using SyncPoint.committed_over h
  · rw [raise_point, SyncPoint.raised_of_over h]
    trivial

/-- **An execution that makes no more call keeps to that.** -/
theorem Moves.over {a : SyncAct} (hmoves : Moves rack s j a s') (h : (s.point j).Over) :
    (s'.point j).Over := by
  cases hmoves with
  | stay => exact h
  | begin hpoint | prepare hpoint | route hpoint | load hpoint | enter hpoint | build hpoint
  | answer hpoint | correct hpoint =>
      rw [hpoint] at h
      exact h.elim
  | commit => exact commit_over h
  | refresh =>
      rw [goto_self]
      trivial
  | unsupported | raise =>
      rw [raise_point, SyncPoint.raised_of_over h]
      trivial

theorem after_sync_over (a : ProcessAct) (h : (s.point j).Over) :
    ((s.after rack a).point j).Over := by
  cases a with
  | world a =>
      rw [(after_world_keeps rack s a).point]
      exact h
  | probe w now =>
      rw [(after_probe_keeps rack s w now).point]
      exact h
  | update => exact h
  | sync k a =>
      by_cases hk : j = k
      · subst hk
        exact (moves rack s j a).over h
      · have hframe : (s.after rack (.sync k a)).point j = s.point j :=
          (moves rack s k a).frame.point j hk
        rw [hframe]
        exact h

/-! ### The events -/

/-- A worker's provider call ends with a permanent refusal. -/
def Refuses (w : Owner) (e : Foundations.Step Process ProcessAct) : Prop :=
  ∃ l collected, e.pre.world.point w = .calling l ∧ e.act = .world (.answer w collected) ∧
    collected.Refused

/-- A worker calls a provider. -/
def Calls (w : Owner) (e : Foundations.Step Process ProcessAct) : Prop :=
  (∀ l, e.pre.world.point w ≠ .calling l) ∧ ∃ l, e.post.world.point w = .calling l

theorem Calls.of_starting {e : Foundations.Step Process ProcessAct} {l l' : AttemptLoop}
    (hpre : e.pre.world.point w = .starting l) (hpost : e.post.world.point w = .calling l') :
    Calls w e := by
  refine ⟨fun l'' hcalling => ?_, l', hpost⟩
  cases hpre.symm.trans hcalling

/-- The provider call of a synchronous execution ends with a permanent refusal. -/
def SyncRefuses (j : JobId) (e : Foundations.Step Process ProcessAct) : Prop :=
  ∃ l t collected parses, e.pre.point j = .calling l t ∧
    e.act = .sync j (.answer collected parses) ∧ collected.Refused

/-- A synchronous execution calls a provider. -/
def SyncCalls (j : JobId) (e : Foundations.Step Process ProcessAct) : Prop :=
  (∀ l t, e.pre.point j ≠ .calling l t) ∧ ∃ l t, e.post.point j = .calling l t

/-- A worker that decides on a refused attempt has no candidate left, or no attempt. -/
def Exhausts (e : Foundations.Step Process ProcessAct) : Prop :=
  ∀ w, e.act = .world (.advance w) → ∀ l o, e.pre.world.point w = .deciding l o → o.Refused →
    l.Exhausted

theorem after_over {a : ProcessAct} (hpast : Run (system rack) h s)
    (hexhausts : Exhausts ⟨s, a, s.after rack a⟩) (hpoint : (s.world.point w).Over) :
    ((s.after rack a).world.point w).Over ∨
      a = .world (.leave w) ∧ (s.after rack a).world.point w = .idle := by
  cases a with
  | world a =>
      rcases (World.moves rack s.world a w).over hpoint (by rintro rfl; exact hexhausts w rfl) with
        hover | ⟨rfl, hidle⟩
      · exact .inl hover
      · exact .inr ⟨rfl, hidle⟩
  | probe w' now =>
      rcases after_probe_world rack s w' now with hsame | ⟨busy, hworld⟩
      · rw [hsame]
        exact .inl hpoint
      · rw [hworld]
        rcases (World.moves rack s.world (.probe w' busy) w).over hpoint nofun with
          hover | ⟨hact, -⟩
        · exact .inl hover
        · cases hact
  | update => exact .inl hpoint
  | sync k a =>
      have hkeeps : (s.after rack (.sync k a)).world.point = s.world.point :=
        (moves rack s k a).world_point (sound hpast)
      rw [hkeeps]
      exact .inl hpoint

theorem over_step {e : Foundations.Step Process ProcessAct} (hrun : Run (system rack) h s)
    (he : e ∈ h) (hexhausts : Exhausts e) (hpre : (e.pre.world.point w).Over) :
    (e.post.world.point w).Over ∨
      e.act = .world (.leave w) ∧ e.post.world.point w = .idle := by
  obtain ⟨h', hpast, -, hpost⟩ := hrun.past_of_mem he
  rw [hpost]
  refine after_over hpast ?_ hpre
  rw [← hpost]
  exact hexhausts

theorem Refuses.over {e : Foundations.Step Process ProcessAct} (hrefuses : Refuses w e)
    (hnext : (system rack).next e.pre e.act e.post) : (e.post.world.point w).Over := by
  obtain ⟨l, collected, hpoint, hact, hrefused⟩ := hrefuses
  obtain ⟨-, hpost⟩ := hnext
  have hsettling : e.post.world.point w = .settling
      { l with
        records := l.records ++ [(runAttempt l.attemptNumber l.candidate collected).record] }
      (runAttempt l.attemptNumber l.candidate collected) := by
    rw [hpost, hact]
    simp [after, World.after, World.control, hpoint]
  rw [hsettling]
  exact refused_runAttempt.2 hrefused

theorem SyncRefuses.over {e : Foundations.Step Process ProcessAct} (hrefuses : SyncRefuses j e)
    (hnext : (system rack).next e.pre e.act e.post) : (e.post.point j).Over := by
  obtain ⟨l, t, collected, parses, hpoint, hact, hrefused⟩ := hrefuses
  obtain ⟨-, hpost⟩ := hnext
  have hsupported : l.schemaUnsupported collected parses = false := by
    obtain ⟨failure, hfailure, -⟩ := hrefused
    simp [SyncLoop.schemaUnsupported, hfailure]
  have hanswered : e.post.point j = .answered l t collected := by
    rw [hpost, hact]
    simp only [after, stepped, hpoint, hsupported, Bool.false_eq_true, if_false]
    unfold answer
    dsimp only
    split <;> exact goto_self _
  rw [hanswered]
  exact SyncPoint.answered_refused hrefused

/-- **A permanent refusal ends the execution.**  After a call that was refused for good a worker
calls no provider until it leaves the job, and a synchronous execution calls none at all. -/
structure RefusalsFinal (h : List (Foundations.Step Process ProcessAct)) : Prop where
  worker : ∀ w h₁ e' h₂ e h₃, h = h₁ ++ e' :: (h₂ ++ e :: h₃) → Refuses w e →
    (∀ e'' ∈ h₂, e''.act ≠ .world (.leave w)) → ¬ Calls w e'
  sync : ∀ j h₁ e' h₂ e h₃, h = h₁ ++ e' :: (h₂ ++ e :: h₃) → SyncRefuses j e → ¬ SyncCalls j e'

/-- **When a permanent refusal is final.**  It is in the synchronous loop, for every list of
candidates and every budget, and in every run of the process in which a worker that decides on a
refused attempt has no candidate left or no attempt. -/
theorem refusals_final (hrun : Run (system rack) h s) (hexhausts : ∀ e ∈ h, Exhausts e) :
    RefusalsFinal h ∧ ∀ (P : Type) (provider : P) (env : Surroundings P)
      (policy : ExecutionPolicy) (ranking : Ranking),
      (executeAttempts provider env policy ranking).toExecution.EndsRefused env := by
  refine ⟨⟨?_, ?_⟩, fun P => executeAttempts_refused⟩
  · rintro w h₁ e' h₂ e h₃ rfl hrefuses hleave ⟨-, l, hcalling⟩
    have hpast : Run (system rack) (h₂ ++ e :: h₃) e'.pre := hrun.past.1
    have hover : (e'.pre.world.point w).Over := by
      refine (hpast.stable (P := fun s => (s.world.point w).Over)
        (hrefuses.over hpast.past.2.1) ?_).1
      intro e'' he'' hpre
      rcases over_step hpast (List.mem_append_left _ he'')
        (hexhausts e'' (by simp [he''])) hpre with hover | ⟨hact, -⟩
      · exact hover
      · exact absurd hact (hleave e'' he'')
    rcases over_step hrun (by simp) (hexhausts e' (by simp)) hover with hover | ⟨-, hidle⟩
    · rw [hcalling] at hover
      exact Point.calling_over hover
    · rw [hcalling] at hidle
      cases hidle
  · rintro j h₁ e' h₂ e h₃ rfl hrefuses ⟨-, l, t, hcalling⟩
    have hlater : Run (system rack) ((e' :: h₂) ++ e :: h₃) e'.post := by
      simpa using hrun.past.2.2
    have hover : (e'.post.point j).Over := by
      refine (hlater.stable (P := fun s => (s.point j).Over)
        (hrefuses.over hlater.past.2.1) ?_).1
      intro e'' he'' hpre
      obtain ⟨h₄, -, -, hpost⟩ := hlater.past_of_mem (List.mem_append_left _ he'')
      rw [hpost]
      exact after_sync_over _ hpre
    rw [hcalling] at hover
    exact hover

/-! ### A refusal that is fallen back from -/

/-- The provider does not hold the adapter that was pinned. -/
def adapterMissing : Collected where
  failure := some { kind := .adapterNotFound, code := "ADAPTER_NOT_FOUND" }

theorem adapterMissing_refused : adapterMissing.Refused := ⟨_, rfl, rfl⟩

/-- A second candidate, without the adapter. -/
def secondCandidate : RankedCandidate where
  rank := 2
  canonicalId := "n"
  subjectCanonicalId := "n"
  modelId := "n"

/-- A worker is routed to a candidate with these to fall back to, and its call is refused for
good; then it records the attempt and decides. -/
def refusedCall (fallbacks : List RankedCandidate) : List ProcessAct :=
  [.world (.store (.enqueue 0 (promptSubmission false) ("chat", "1") none 0 {})),
   .world (.claim World.soleWorker 0 60 0 none),
   .world (.register World.soleWorker),
   .world (.advance World.soleWorker),
   .world (.route World.soleWorker (.routed World.soleCandidate fallbacks 1)),
   .world (.commit World.soleWorker 1 0),
   .world (.advance World.soleWorker),
   .probe World.soleWorker 1,
   .world (.advance World.soleWorker),
   .world (.advance World.soleWorker),
   .world (.advance World.soleWorker),
   .world (.commit World.soleWorker 2 0),
   .world (.answer World.soleWorker adapterMissing),
   .world (.advance World.soleWorker),
   .world (.commit World.soleWorker 3 0),
   .world (.advance World.soleWorker)]

/-- The worker falls back to the second candidate and calls it. -/
def fallenBack : List ProcessAct :=
  refusedCall [secondCandidate] ++
    [.probe World.soleWorker 4,
     .world (.advance World.soleWorker),
     .world (.commit World.soleWorker 5 0),
     .world (.advance World.soleWorker),
     .world (.advance World.soleWorker),
     .world (.advance World.soleWorker),
     .world (.commit World.soleWorker 6 0)]

theorem fallenBack_run : Run (system documentedRack) (trace (after documentedRack) {} fallenBack)
    (fallenBack.foldl (after documentedRack) {}) := by
  refine .replay ⟨⟨trivial, trivial, promptSubmission_accepted false⟩, ?_⟩
  repeat' constructor

/-- The second candidate is called for the request the first one refused for good. -/
theorem refusal_falls_back : ¬ ∀ h s, Run (system documentedRack) h s → RefusalsFinal h := by
  intro hclaim
  refine (hclaim _ _ fallenBack_run).worker World.soleWorker [] _
    [_, _, _, _, _, _, _, _, _] _ _ rfl ⟨_, _, rfl, rfl, adapterMissing_refused⟩ ?_
    (.of_starting rfl rfl)
  repeat' rw [List.forall_mem_cons]
  exact ⟨nofun, nofun, nofun, nofun, nofun, nofun, nofun, nofun, nofun, by simp⟩

/-- With nothing to fall back to the job is failed. -/
def notFallenBack : List ProcessAct :=
  refusedCall [] ++ [.world (.commit World.soleWorker 4 0), .world (.leave World.soleWorker)]

theorem notFallenBack_run :
    Run (system documentedRack) (trace (after documentedRack) {} notFallenBack)
      (notFallenBack.foldl (after documentedRack) {}) := by
  refine .replay ⟨⟨trivial, trivial, promptSubmission_accepted false⟩, ?_⟩
  repeat' constructor

theorem notFallenBack_exhausts :
    ∀ e ∈ trace (after documentedRack) {} notFallenBack, Exhausts e := by
  apply forall_mem_trace
  refine ⟨nofun, nofun, nofun, ?_, nofun, nofun, ?_, nofun, ?_, ?_, ?_, nofun, nofun, ?_, nofun, ?_,
    nofun, nofun, trivial⟩
  all_goals
    rintro w ⟨⟩ l o hpoint
    cases hpoint
  exact fun _ => .inl rfl

/-- The refused call is the job's last one. -/
theorem refusals_final_notFallenBack :
    RefusalsFinal (trace (after documentedRack) {} notFallenBack) :=
  (refusals_final notFallenBack_run notFallenBack_exhausts).1

end Process

end LoadCoach

import LoadCoach.Worker.Program

/-! # The locals of a worker

What a step can do to one worker is said once (`World.moves`): it leaves the worker where it was,
or it is a statement of the worker and leads where the program says.  The locals at a worker's
point fit the point (`Point.Valid`): an attempt number that was counted is within the job's bound,
a call that was made and not settled is the last record of the loop, and a point that only a call
leads to has one.  Every move keeps that (`Moves.valid`), so it holds in every reachable world
(`World.valid`). -/

namespace LoadCoach

open Foundations Relation

variable {rack : ModelRack}

/-! ### Locals that fit the point -/

namespace AttemptLoop

/-- The records of a loop are within the job's bound. -/
def Bounded (l : AttemptLoop) : Prop := ∀ r ∈ l.records, r.attempt ≤ l.job.maxAttempts

/-- The attempt of a loop was counted, within the job's bound. -/
def Counted (l : AttemptLoop) : Prop :=
  0 < l.attemptNumber ∧ l.attemptNumber ≤ l.job.maxAttempts

/-- The outcome is what the loop's call returned. -/
def Returned (l : AttemptLoop) (o : AttemptOutcome) : Prop :=
  ∃ collected, o = runAttempt l.attemptNumber l.candidate collected

end AttemptLoop

namespace Point

/-- The locals at a point fit the point, and so does the call that is not settled. -/
def Valid (call : Option ProviderCall) : Point → Prop
  | idle | claimed _ | checking _ | routing _ | deferring .. | failingAdmission .. | leaving _ =>
      call = none
  | admitting l | checkingAdmitted l | gate l | requeueing l | startingRetry l _ | resuming l _
  | readmitting l _ | counting l | failing l _ => call = none ∧ l.Bounded
  | checkingToken l | checkingRow l | starting l | calling l =>
      call = none ∧ l.Bounded ∧ l.Counted
  | settling l o =>
      call = some ⟨l.attemptNumber, some o.record⟩ ∧ l.Bounded ∧ l.Counted ∧ l.Returned o ∧
        l.records.getLast? = some o.record
  | recording l o =>
      call = some ⟨l.attemptNumber, some o.record⟩ ∧ l.Bounded ∧ l.Counted ∧ l.Returned o ∧
        o.cancelled = false
  | deciding l o | completing l o =>
      call = none ∧ l.Bounded ∧ l.Returned o ∧ o.cancelled = false
  | cancelling job records =>
      (∀ r ∈ records, r.attempt ≤ job.maxAttempts) ∧
        ∀ c, call = some c → ∃ r, c.record = some r ∧ r.attempt = c.number ∧
          records.getLast? = some r
  | crashed .. => True

variable {l : AttemptLoop} {o : AttemptOutcome}

theorem readmitJob_valid (reason : String) (h : l.Bounded) : (readmitJob l reason).Valid none := by
  unfold readmitJob
  split_ifs <;> exact ⟨rfl, h⟩

theorem probeBusy_valid (h : l.Bounded) : (probeBusy l).Valid none := by
  unfold probeBusy
  dsimp only
  split <;> exact ⟨rfl, h⟩

theorem enter_valid (h : l.Bounded) : (enter l).Valid none := by
  unfold enter
  dsimp only
  split_ifs
  · exact ⟨rfl, h⟩
  · exact readmitJob_valid _ h

/-- The failure table stops for a cancellation only, and that was settled before. -/
theorem decided_action (hreturned : l.Returned o) (hcancelled : o.cancelled = false)
    (attempts limit : ℕ) :
    (nextAction ((o.failure.map classifyFailure).getD .validation) attempts limit).action ≠
      .stop := by
  rw [Ne, nextAction_eq_stop_iff]
  obtain ⟨collected, rfl⟩ := hreturned
  cases hfailure : (runAttempt l.attemptNumber l.candidate collected).failure with
  | none => simp
  | some failure =>
      rw [Option.map_some, Option.getD_some, runAttempt_classify _ _ _ hfailure, hcancelled]
      simp

theorem decided_valid (h : l.Bounded) (hreturned : l.Returned o)
    (hcancelled : o.cancelled = false) : (decided l o).Valid none := by
  have hstop := decided_action hreturned hcancelled l.attemptsHere l.perCandidate
  unfold decided
  dsimp only
  split
  · rename_i hcontra
    exact absurd hcontra hstop
  · split_ifs
    · exact ⟨rfl, h⟩
    · exact readmitJob_valid _ h
  · split <;> exact ⟨rfl, h⟩

theorem committed_valid {p : Point} {call : Option ProviderCall} {totalMs : ℤ}
    {e : ClaimedJob × WorkerTx} (htx : p.tx totalMs = some e) (h : p.Valid call) :
    p.committed.Valid none := by
  cases p with
  | admitting | startingRetry | readmitting => exact ⟨rfl, h.2⟩
  | starting => exact ⟨rfl, h.2⟩
  | recording l o =>
      obtain ⟨-, hbounded, -, hreturned, hcancelled⟩ := h
      simp only [committed]
      split_ifs
      · exact ⟨rfl, hbounded, hreturned, hcancelled⟩
      · exact ⟨rfl, hbounded, hreturned, hcancelled⟩
      · trivial
      · exact ⟨rfl, hbounded, hreturned, hcancelled⟩
  | deferring | failingAdmission | requeueing | completing | failing | cancelling | crashed =>
      exact rfl
  | _ => cases htx

theorem job?_of_tx {p : Point} {totalMs : ℤ} {e : ClaimedJob × WorkerTx}
    (htx : p.tx totalMs = some e) : p.job? = some e.1 := by
  cases p <;> cases htx <;> rfl

theorem raised_valid {p : Point} {totalMs : ℤ} {e : ClaimedJob × WorkerTx} {x : Raised}
    (htx : p.tx totalMs = some e) : (p.raised x).Valid none := by
  have hjob := job?_of_tx htx
  unfold raised
  split
  · exact rfl
  · rw [hjob]
    dsimp only
    split_ifs
    · exact rfl
    · trivial

end Point

/-! ### What an act does to one worker -/

namespace World

variable {s : World} {a : Act} {w : Owner}

@[simp] theorem goto_point (s : World) (w : Owner) (p : Point) :
    (s.goto w p).point = Function.update s.point w p := rfl

@[simp] theorem goto_calls (s : World) (w : Owner) (p : Point) : (s.goto w p).calls = s.calls :=
  rfl

@[simp] theorem setCall_point (s : World) (w : Owner) (call : Option ProviderCall) :
    (s.setCall w call).point = s.point := rfl

@[simp] theorem setCall_calls (s : World) (w : Owner) (call : Option ProviderCall) :
    (s.setCall w call).calls = Function.update s.calls w call := rfl

@[simp] theorem mark_point (s : World) (p : Owner × JobId → Bool)
    (f : InFlightEntry → InFlightEntry) : (s.mark p f).point = s.point := rfl

@[simp] theorem mark_calls (s : World) (p : Owner × JobId → Bool)
    (f : InFlightEntry → InFlightEntry) : (s.mark p f).calls = s.calls := rfl

/-- What an act leaves a worker at: where it was, or where its own statement leads. -/
inductive Moves (rack : ModelRack) (s : World) (w : Owner) :
    Act → Point → Option ProviderCall → Prop
  | stay {a : Act}
      (hcommit : ∀ now totalMs, a = .commit w now totalMs → (s.point w).tx totalMs = none) :
      Moves rack s w a (s.point w) (s.calls w)
  | claim {now : Instant} {leaseSeconds pick : ℕ} {affinity : Option AffinityHint}
      {job : ClaimedJob} {db : Db} (hpoint : s.point w = .idle)
      (hclaim : s.store.db.claim rack w now leaseSeconds pick affinity = .ok (some job, db)) :
      Moves rack s w (.claim w now leaseSeconds pick affinity) (.claimed job) (s.calls w)
  | register {job : ClaimedJob} (hpoint : s.point w = .claimed job) :
      Moves rack s w (.register w) (.checking job) (s.calls w)
  | route {job : ClaimedJob} {verdict : RouteVerdict} (hpoint : s.point w = .routing job) :
      Moves rack s w (.route w verdict) (routed job verdict) (s.calls w)
  | probe {l : AttemptLoop} {busy : Bool} (hpoint : s.point w = .gate l) :
      Moves rack s w (.probe w busy) (if busy then .probeBusy l else .enter l) (s.calls w)
  | advance : Moves rack s w (.advance w) (s.advanced w) (s.calls w)
  | commit {now : Instant} {totalMs : ℤ} {job : ClaimedJob} {tx : WorkerTx} {db : Db}
      (htx : (s.point w).tx totalMs = some (job, tx))
      (hrun : tx.run w job.jobId now s.store.db = .ok db) :
      Moves rack s w (.commit w now totalMs) (s.point w).committed none
  | refuse {now : Instant} {totalMs : ℤ} {job : ClaimedJob} {tx : WorkerTx} {e : Raised}
      (htx : (s.point w).tx totalMs = some (job, tx))
      (hrun : tx.run w job.jobId now s.store.db = .error e) :
      Moves rack s w (.commit w now totalMs) ((s.point w).raised e) none
  | answer {l : AttemptLoop} {collected : Collected} (hpoint : s.point w = .calling l) :
      Moves rack s w (.answer w collected)
        (.settling
          { l with
            records := l.records ++ [(runAttempt l.attemptNumber l.candidate collected).record] }
          (runAttempt l.attemptNumber l.candidate collected))
        (some ⟨l.attemptNumber, some (runAttempt l.attemptNumber l.candidate collected).record⟩)
  | raiseCall {l : AttemptLoop} {code text : String} (hpoint : s.point w = .calling l) :
      Moves rack s w (.raise w code text) (.crashed l.job code text)
        (some ⟨l.attemptNumber, none⟩)
  | raise {job : ClaimedJob} {code text : String} (hjob : (s.point w).job? = some job)
      (hcalling : ∀ l, s.point w = .calling l → False)
      (hleaving : ∀ job, s.point w = .leaving job → False)
      (hcrashed : ∀ job code text, s.point w = .crashed job code text → False) :
      Moves rack s w (.raise w code text) (.crashed job code text) (s.calls w)
  | leave {job : ClaimedJob} (hpoint : s.point w = .leaving job) :
      Moves rack s w (.leave w) .idle (s.calls w)

theorem Moves.of_eq {p : Point} {call : Option ProviderCall} (hp : p = s.point w)
    (hcall : call = s.calls w)
    (hcommit : ∀ now totalMs, a = .commit w now totalMs → (s.point w).tx totalMs = none) :
    Moves rack s w a p call := by
  rw [hp, hcall]
  exact .stay hcommit

/-- **What an act can do to a worker.** -/
theorem moves (rack : ModelRack) (s : World) (a : Act) (w : Owner) :
    Moves rack s w a ((s.after rack a).point w) ((s.after rack a).calls w) := by
  change Moves rack s w a ((s.control rack a).point w) ((s.control rack a).calls w)
  cases a with
  | store | requestCancel | keeperRead | keeperRenew | keeperMark =>
      simp only [control]
      repeat' split
      all_goals exact .stay (by simp)
  | commit w' now totalMs =>
      simp only [control]
      cases htx : (s.point w').tx totalMs with
      | none =>
          refine .stay ?_
          rintro _ _ ⟨rfl⟩
          exact htx
      | some e =>
          by_cases hw : w = w'
          · subst hw
            dsimp only
            split
            · simpa using .commit htx ‹_›
            · simpa using .refuse htx ‹_›
          · have hother : ∀ now' totalMs', Act.commit w' now totalMs = .commit w now' totalMs' →
                (s.point w).tx totalMs' = none := by
              rintro _ _ ⟨rfl⟩
              exact absurd rfl hw
            dsimp only
            split <;> exact .of_eq (by simp [hw]) (by simp [hw]) hother
  | claim w' now leaseSeconds pick affinity =>
      simp only [control]
      split
      · split
        · by_cases hw : w = w'
          · subst hw
            simpa using .claim ‹_› ‹_›
          · exact .of_eq (by simp [hw]) rfl (by simp)
        · exact .stay (by simp)
      · exact .stay (by simp)
  | register w' | leave w' =>
      simp only [control]
      split
      · by_cases hw : w = w'
        · subst hw
          first
            | simpa using .register ‹_›
            | simpa using .leave ‹_›
        · exact .of_eq (by simp [hw]) rfl (by simp)
      · exact .stay (by simp)
  | route w' verdict =>
      simp only [control]
      split
      · by_cases hw : w = w'
        · subst hw
          simpa using .route ‹_›
        · exact .of_eq (by simp [hw]) rfl (by simp)
      · exact .stay (by simp)
  | probe w' busy =>
      simp only [control]
      split
      · by_cases hw : w = w'
        · subst hw
          simpa using .probe ‹_›
        · exact .of_eq (by simp [hw]) rfl (by simp)
      · exact .stay (by simp)
  | advance w' =>
      by_cases hw : w = w'
      · subst hw
        simpa [control] using .advance
      · exact .of_eq (by simp [control, hw]) rfl (by simp)
  | answer w' collected =>
      simp only [control]
      split
      · by_cases hw : w = w'
        · subst hw
          simpa using .answer ‹_›
        · exact .of_eq (by simp [hw]) (by simp [hw]) (by simp)
      · exact .stay (by simp)
  | raise w' code text =>
      simp only [control]
      split
      · exact .stay (by simp)
      · exact .stay (by simp)
      · exact .stay (by simp)
      · exact .stay (by simp)
      · by_cases hw : w = w'
        · subst hw
          simpa using .raiseCall ‹_›
        · exact .of_eq (by simp [hw]) (by simp [hw]) (by simp)
      · split
        · exact .stay (by simp)
        · by_cases hw : w = w'
          · subst hw
            simpa using .raise ‹_› ‹_› ‹_› ‹_›
          · exact .of_eq (by simp [hw]) rfl (by simp)

/-! ### Valid locals -/

theorem advanced_valid {call : Option ProviderCall} (h : (s.point w).Valid call) :
    (s.advanced w).Valid call := by
  unfold advanced
  cases hpoint : s.point w <;> rw [hpoint] at h <;> dsimp only
  case checking job =>
    split_ifs
    · exact ⟨by simp, by simp [show call = none from h]⟩
    · exact h
  case checkingAdmitted l | resuming l _ =>
    split_ifs
    · exact ⟨by simp, by simp [h.1]⟩
    · exact h
  case counting l =>
    split_ifs with hmax
    · exact h
    · exact ⟨h.1, h.2, Nat.succ_pos _, by dsimp only; omega⟩
  case checkingToken l | checkingRow l =>
    split_ifs
    · exact ⟨h.2.1, by simp [h.1]⟩
    · exact h
  case settling l o =>
    obtain ⟨hcall, hbounded, hcounted, hreturned, hlast⟩ := h
    split_ifs with hstop
    · refine ⟨hbounded, fun c hc => ⟨o.record, ?_⟩⟩
      obtain ⟨collected, rfl⟩ := hreturned
      cases hcall.symm.trans hc
      exact ⟨rfl, by simp, hlast⟩
    · rw [Bool.or_eq_true, not_or] at hstop
      exact ⟨hcall, hbounded, hcounted, hreturned, by simpa using hstop.1⟩
  case deciding l o =>
    obtain ⟨rfl, hbounded, hreturned, hcancelled⟩ := h
    exact Point.decided_valid hbounded hreturned hcancelled
  all_goals exact h

/-- **Every step keeps a worker's locals valid.** -/
theorem Moves.valid {p : Point} {call : Option ProviderCall} (hmoves : Moves rack s w a p call)
    (h : (s.point w).Valid (s.calls w)) : p.Valid call := by
  cases hmoves with
  | stay => exact h
  | claim hpoint | register hpoint | leave hpoint =>
      rw [hpoint] at h
      exact h
  | @route job verdict hpoint =>
      rw [hpoint] at h
      cases verdict
      case routed => exact ⟨h, by simp [AttemptLoop.Bounded]⟩
      all_goals exact h
  | @probe l busy hpoint =>
      rw [hpoint] at h
      rw [h.1]
      split_ifs
      · exact Point.probeBusy_valid h.2
      · exact Point.enter_valid h.2
  | advance => exact advanced_valid h
  | commit htx => exact Point.committed_valid htx h
  | refuse htx => exact Point.raised_valid htx
  | @answer l collected hpoint =>
      rw [hpoint] at h
      obtain ⟨-, hbounded, hcounted⟩ := h
      refine ⟨rfl, ?_, hcounted, ⟨collected, rfl⟩, by simp⟩
      intro r hr
      rcases List.mem_append.1 hr with hr | hr
      · exact hbounded r hr
      · rw [List.mem_singleton.1 hr, runAttempt_attempt]
        exact hcounted.2
  | raiseCall | raise => trivial

theorem valid {h : List (Foundations.Step World Act)} (hrun : Run (system rack) h s) (w : Owner) :
    (s.point w).Valid (s.calls w) := by
  induction hrun with
  | start hs =>
      rw [Set.mem_singleton_iff.1 hs]
      exact rfl
  | @step h s _ a hpast hnext ih =>
      obtain ⟨-, rfl⟩ := hnext
      exact (moves rack s a w).valid ih

end World

end LoadCoach

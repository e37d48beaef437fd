import LoadCoach.Serving.Executions
import LoadCoach.Worker.Attempts

/-! # Whether an execution ends its row

`execute` is entered with a reserved row.  When it returns or raises, the row should be in a
terminal state, with an attempt for every call a provider received.  That holds in the runs in
which every exception is one a handler is there for (`Handled`): a `SuiteError` of the router, and
a `ValidationError` while a request or its corrective turns are built (`execute_ends`).  Any other
one leaves `execute` with the row as it is: a schema that cannot be read, an error of the call
that is no provider error, and the refusal of a schema keyword when an answer is validated
(`unsupportedSchema_leaves_executing`). -/

namespace LoadCoach

open Foundations Relation

variable {rack : ModelRack}

/-! ### An ended row -/

namespace Track

variable {who : Writer} {t t' : Track} {job : Job}

theorem Step.ended (hstep : Step rack who t t') (hrow : t.row = some job)
    (hstate : job.state ∈ terminalStates) :
    ∃ job', t'.row = some job' ∧ job'.state ∈ terminalStates := by
  cases hstep with
  | move _ _ _ hrow₁ hlegal =>
      cases hrow.symm.trans hrow₁
      rw [not_isLegal_of_terminal hstate] at hlegal
      cases hlegal
  | lease _ _ hrow₁ hstate₁ =>
      cases hrow.symm.trans hrow₁
      rw [hstate₁] at hstate
      exact absurd hstate (by decide)
  | assign _ hrow₁ hassigned =>
      refine ⟨_, rfl, ?_⟩
      rcases hassigned.state with hcompleted | hfailed
      · rw [hcompleted]
        decide
      · rw [hfailed]
        decide
  | insert hnone => exact absurd (hrow.symm.trans hnone) (by simp)
  | record hrow₁ | renew _ _ hrow₁ | touch _ _ _ _ hrow₁ =>
      cases hrow.symm.trans hrow₁
      exact ⟨_, rfl, hstate⟩

theorem Path.ended (hpath : Path rack who t t') (hrow : t.row = some job)
    (hstate : job.state ∈ terminalStates) :
    ∃ job', t'.row = some job' ∧ job'.state ∈ terminalStates := by
  induction hpath with
  | refl => exact ⟨job, hrow, hstate⟩
  | tail _ hstep ih =>
      obtain ⟨job₁, hrow₁, hstate₁⟩ := ih
      exact hstep.ended hrow₁ hstate₁

end Track

namespace Db

variable {db db' : Db} {j : JobId}

/-- The row is in a terminal state, and every call has its attempt. -/
structure Ended (j : JobId) (calls : List ℕ) (db : Db) : Prop where
  terminal : ∃ job, db.jobs.lookup j = some job ∧ job.state ∈ terminalStates
  recorded : ∀ n ∈ calls, n ∈ (db.track j).attempts.map JobAttempt.attempt

theorem Ended.of_path {who : Writer} {calls : List ℕ} (h : db.Ended j calls)
    (hpath : Track.Path rack who (db.track j) (db'.track j)) : db'.Ended j calls where
  terminal := by
    obtain ⟨job, hrow, hstate⟩ := h.terminal
    exact hpath.ended hrow hstate
  recorded n hn := (hpath.attempts_prefix.map JobAttempt.attempt).subset (h.recorded n hn)

theorem writeAttempts_spec {records : List AttemptRecord} {job : Job}
    (hrow : db.jobs.lookup j = some job) (h : db.writeAttempts j records = .ok db') :
    (∃ job', db'.jobs.lookup j = some job' ∧ job'.state = job.state) ∧
      (db'.track j).attempts.map JobAttempt.attempt =
        (db.track j).attempts.map JobAttempt.attempt ++ records.map AttemptRecord.attempt := by
  induction records generalizing db job with
  | nil =>
      rw [writeAttempts, List.foldlM_nil, pure_eq_ok] at h
      subst h
      exact ⟨⟨job, hrow, rfl⟩, by simp⟩
  | cons record records ih =>
      rw [writeAttempts, List.foldlM_cons, bind_eq_ok] at h
      obtain ⟨db₁, hattempt, hrest⟩ := h
      obtain ⟨job', hrow', -, hnumber, honly, -⟩ := track_writeAttempt hattempt
      cases hrow.symm.trans hrow'
      obtain ⟨⟨job₂, hrow₂, hstate⟩, hattempts⟩ := ih (congrArg Track.row honly) hrest
      refine ⟨⟨job₂, hrow₂, hstate⟩, ?_⟩
      rw [hattempts, honly]
      simp [hnumber]

theorem persist_ends {outcome : SyncOutcome} {profile : String × String}
    {records : List AttemptRecord} {now : Instant}
    (h : db.persist j outcome profile records now = .ok db') :
    db'.Ended j (records.map AttemptRecord.attempt) := by
  simp only [persist, bind_eq_ok, pure_eq_ok] at h
  obtain ⟨db₁, hassign, db₂, hwrite, rfl⟩ := h
  obtain ⟨job, -, honly, -⟩ := track_assign hassign
  obtain ⟨⟨job', hrow', hstate⟩, hattempts⟩ :=
    writeAttempts_spec (congrArg Track.row honly) hwrite
  refine ⟨⟨job', hrow', ?_⟩, ?_⟩
  · rw [hstate]
    cases outcome with
    | result => exact (by decide : JobState.completed ∈ terminalStates)
    | error => exact (by decide : JobState.failed ∈ terminalStates)
  · intro n hn
    rw [track_append, hattempts]
    exact List.mem_append_right _ hn

theorem failReserved_ends {code message : String} {now : Instant}
    (h : db.failReserved j code message now = .ok db') : db'.Ended j [] := by
  simp only [failReserved, bind_eq_ok, pure_eq_ok] at h
  obtain ⟨db₁, hassign, rfl⟩ := h
  obtain ⟨job, -, honly, -⟩ := track_assign hassign
  refine ⟨⟨_, congrArg Track.row honly, ?_⟩, by simp⟩
  exact (by decide : JobState.failed ∈ terminalStates)

end Db

/-! ### What an execution accounts for -/

namespace SyncPoint

variable {j : JobId} {calls : List ℕ} {db : Db} {l : SyncLoop} {t : SyncTry}

/-- A handler of `execute` catches the exception and goes on to end the row; after that, or
outside of `execute`, it does not matter. -/
def handles (e : Raised) : SyncPoint → Bool
  | routing => e.suiteError?.isSome
  | building .. | correcting .. => e.validationError?.isSome
  | idle | refreshing | finished => true
  | _ => false

/-- Every call has its record, but for the one under way; once the row is ended, its attempt. -/
def Accounts (j : JobId) (calls : List ℕ) (db : Db) : SyncPoint → Prop
  | idle | preparing | routing | refusing _ => calls = []
  | loading l | announcing l | entering l | building l _ | correcting l _ =>
      calls ⊆ l.st.records.map AttemptRecord.attempt
  | calling l _ =>
      calls ⊆ l.st.records.map AttemptRecord.attempt ++ [l.st.attemptNumber + 1]
  | persisting _ executed => calls ⊆ executed.records.map AttemptRecord.attempt
  | refreshing | finished => db.Ended j calls

theorem Accounts.of_path {who : Writer} {db' : Db} {p : SyncPoint} (h : p.Accounts j calls db)
    (hpath : Track.Path rack who (db.track j) (db'.track j)) : p.Accounts j calls db' := by
  cases p with
  | refreshing | finished => exact Db.Ended.of_path h hpath
  | _ => exact h

theorem entered_accounts (h : calls ⊆ l.st.records.map AttemptRecord.attempt)
    (holdsProbe probeBusy : Bool) : (entered l holdsProbe probeBusy).Accounts j calls db := by
  unfold entered
  split
  · exact h
  · exact h
  · split_ifs
    · exact h
    · exact h

theorem attempted_records (l : SyncLoop) (t : SyncTry) (collected : Collected) :
    (attempted l t collected).st.records.map AttemptRecord.attempt =
      l.st.records.map AttemptRecord.attempt ++ [l.st.attemptNumber + 1] := by
  simp [attempted, Execution.attempted, outcome]

theorem answered_accounts (j : JobId) (db : Db)
    (h : calls ⊆ l.st.records.map AttemptRecord.attempt ++ [l.st.attemptNumber + 1])
    (collected : Collected) : (answered l t collected).Accounts j calls db := by
  rw [← attempted_records l t collected] at h
  unfold answered
  split
  · rename_i executed hstop
    change calls ⊆ executed.toExecution.records.map AttemptRecord.attempt
    rw [judge_stop hstop]
    exact h
  · exact h
  · exact h

theorem corrected_accounts (h : calls ⊆ l.st.records.map AttemptRecord.attempt) :
    (corrected l t).Accounts j calls db := by
  unfold corrected
  split
  · exact h
  · exact h

theorem raised_accounts {p : SyncPoint} {e : Raised} (h : p.Accounts j calls db)
    (hhandles : p.handles e = true) : (p.raised e).Accounts j calls db := by
  cases p with
  | idle | refreshing | finished => exact h
  | routing =>
      obtain ⟨refusal, he⟩ := Option.isSome_iff_exists.1 hhandles
      rw [raised, he]
      exact h
  | building l t | correcting l t =>
      obtain ⟨refusal, he⟩ := Option.isSome_iff_exists.1 hhandles
      rw [raised, he]
      exact h
  | _ => cases hhandles

theorem committed_accounts {p : SyncPoint} {now : Instant} {totalMs : ℤ} {op : Op} {db' : Db}
    (h : p.Accounts j calls db) (hop : p.op j now totalMs = some op)
    (hrun : op.run rack db = .ok db') : p.committed.Accounts j calls db' := by
  cases p <;> cases hop
  case refusing refusal =>
    have hcalls : calls = [] := h
    rw [hcalls]
    exact Db.failReserved_ends hrun
  case announcing => exact h
  case persisting decision executed =>
    have hended := Db.persist_ends hrun
    exact ⟨hended.terminal, fun n hn => hended.recorded n (h hn)⟩

end SyncPoint

/-! ### Error atomicity -/

namespace Process

variable {s s' : Process} {j : JobId} {h : List (Foundations.Step Process ProcessAct)}

/-- Every exception in an execution is one a handler ends the row for, and no answer is validated
against a schema with a keyword the validator does not know. -/
def Handled (e : Foundations.Step Process ProcessAct) : Prop :=
  match e.act with
  | .sync j (.raise x) => (e.pre.point j).handles x = true
  | .sync j (.answer collected parses) => ∀ l t, e.pre.point j = .calling l t →
      l.schemaUnsupported collected parses = false
  | _ => True

/-- The execution of a row accounts for its calls. -/
def Accounts (s : Process) (j : JobId) : Prop :=
  (s.point j).Accounts j (s.calls j) s.world.store.db

theorem accounts_of_point {p : SyncPoint} (hpoint : s.point j = p)
    (h : p.Accounts j (s.calls j) s.world.store.db) : s.Accounts j := by
  rw [Accounts, hpoint]
  exact h

theorem leave_data (rack : ModelRack) (s : Process) (j : JobId) :
    (s.leave rack j).calls = s.calls ∧
    (s.leave rack j).world.store.db = s.world.store.db := by
  unfold leave
  split_ifs
  · exact ⟨rfl, rfl⟩
  · exact ⟨rfl, rfl⟩

theorem raise_accounts {e : Raised} (haccounts : s.Accounts j)
    (hhandles : (s.point j).handles e = true) : (s.raise rack j e).Accounts j := by
  have hraised := SyncPoint.raised_accounts haccounts hhandles
  rcases raise_cases rack s j e with ⟨hfinished, hraise⟩ | ⟨-, hraise⟩
  · obtain ⟨hcalls, hdb⟩ := leave_data rack s j
    rw [hfinished] at hraised
    rw [hraise]
    refine accounts_of_point (p := .finished) (by rw [leave_point, Function.update_self]) ?_
    rw [hcalls, hdb]
    exact hraised
  · rw [hraise]
    exact accounts_of_point (Function.update_self ..) hraised

/-- **A handled statement of an execution accounts for its calls.** -/
theorem Moves.accounts {a : SyncAct} (hmoves : Moves rack s j a s')
    (hrun : Run (system rack) h s) (hhandled : Handled ⟨s, .sync j a, s'⟩)
    (haccounts : s.Accounts j) : s'.Accounts j := by
  have hbefore := haccounts
  unfold Accounts at hbefore
  cases hmoves with
  | stay => exact haccounts
  | begin hpoint | prepare hpoint | route hpoint | load hpoint =>
      rw [hpoint] at hbefore
      refine accounts_of_point (Function.update_self ..) ?_
      first
        | exact hbefore
        | exact hbefore ▸ List.nil_subset _
  | @commit now totalMs op hop =>
      obtain ⟨db', hcommits⟩ := commit_ok hrun hop
      have hcommitted := SyncPoint.committed_accounts hbefore hop hcommits
      unfold Process.commit
      rw [hcommits]
      refine accounts_of_point (Function.update_self ..) ?_
      have hdb : (s.world.after rack (.store op)).store.db = db' := by
        rw [World.after_store]
        simp [World.op, Store.after, hcommits]
      change SyncPoint.Accounts j (s.calls j) (s.world.after rack (.store op)).store.db _
      rw [hdb]
      exact hcommitted
  | enter hpoint =>
      rw [hpoint] at hbefore
      unfold Process.enter
      split
      · exact accounts_of_point (Function.update_self ..) (SyncPoint.entered_accounts hbefore _ _)
      · exact accounts_of_point (Function.update_self ..) (SyncPoint.entered_accounts hbefore _ _)
  | @build l t hpoint =>
      rw [hpoint] at hbefore
      refine accounts_of_point (Function.update_self ..) ?_
      change Function.update s.calls j _ j ⊆ _
      rw [Function.update_self]
      exact List.append_subset.2
        ⟨fun n hn => List.mem_append_left _ (hbefore hn), List.subset_append_right _ _⟩
  | @answer l t collected parses hpoint =>
      rw [hpoint] at hbefore
      have hanswered := SyncPoint.answered_accounts (t := t) j s.world.store.db hbefore collected
      unfold Process.answer
      dsimp only
      split
      · exact accounts_of_point (Function.update_self ..) hanswered
      · exact accounts_of_point (Function.update_self ..) hanswered
  | correct hpoint =>
      rw [hpoint] at hbefore
      exact accounts_of_point (Function.update_self ..) (SyncPoint.corrected_accounts hbefore)
  | refresh hpoint =>
      rw [hpoint] at hbefore
      exact accounts_of_point (Function.update_self ..) hbefore
  | unsupported hpoint hschema =>
      have hsupported := hhandled _ _ hpoint
      rw [hschema] at hsupported
      cases hsupported
  | raise => exact raise_accounts haccounts hhandled

theorem accounts_of_frame {a : ProcessAct} (hrun : Run (system rack) h s)
    (henabled : s.Enabled rack a) (hpoint : (s.after rack a).point j = s.point j)
    (hcalls : (s.after rack a).calls j = s.calls j) (haccounts : s.Accounts j) :
    (s.after rack a).Accounts j := by
  obtain ⟨who, hpath⟩ := after_path hrun henabled j
  refine accounts_of_point hpoint ?_
  rw [hcalls]
  exact SyncPoint.Accounts.of_path haccounts hpath

/-- **Error atomicity.**  In a run in which every exception in an execution is one a handler is
there for, and no answer is validated against a schema with an unknown keyword, an execution that
is over has ended its row, with an attempt for every call it made. -/
theorem execute_ends (hrun : Run (system rack) h s) (hhandled : ∀ e ∈ h, Handled e)
    (hfinished : s.point j = .finished) : s.world.store.db.Ended j (s.calls j) := by
  have haccounts : ∀ j, s.Accounts j := by
    clear hfinished
    induction hrun with
    | start hs =>
        rw [Set.mem_singleton_iff.1 hs]
        exact fun _ => rfl
    | @step h s _ a hpast hnext ih =>
        obtain ⟨henabled, rfl⟩ := hnext
        rw [List.forall_mem_cons] at hhandled
        obtain ⟨hstep, hhandled⟩ := hhandled
        intro j
        have haccounts := ih hhandled j
        cases a with
        | world a =>
            have hkeeps := after_world_keeps rack s a
            exact accounts_of_frame hpast henabled (congrFun hkeeps.point j)
              (congrFun hkeeps.calls j) haccounts
        | probe w now =>
            have hkeeps := after_probe_keeps rack s w now
            exact accounts_of_frame hpast henabled (congrFun hkeeps.point j)
              (congrFun hkeeps.calls j) haccounts
        | update => exact haccounts
        | sync k a =>
            by_cases hk : j = k
            · subst hk
              exact (moves rack s j a).accounts hpast hstep haccounts
            · have hframe := (moves rack s k a).frame
              exact accounts_of_frame hpast henabled (hframe.point j hk) (hframe.calls j hk)
                haccounts
  have hended := haccounts j
  rw [Accounts, hfinished] at hended
  exact hended

/-! ### A schema with an unknown keyword -/

/-- A decision for one candidate, under a profile that requires its schema. -/
def schemaDecision : SyncDecision where
  profile := ("chat", "1")
  requireSchema := true
  ranking := { primary := some World.soleCandidate, fallbacks := [] }

/-- A request is reserved, routed and announced, and its first provider call is under way. -/
def firstCall (schema : Json) : List ProcessAct :=
  [.world (.store (.reserveSyncJob 0 promptRequest ("chat", "1") 0 24)),
   .sync 0 .begin,
   .sync 0 .prepare,
   .sync 0 (.route schemaDecision),
   .sync 0 (.load (some schema)),
   .sync 0 (.commit 1 0),
   .sync 0 (.enter 1),
   .sync 0 .build]

/-- The call answers with JSON, and the schema has a keyword the validator does not know. -/
def unsupportedAnswer : List ProcessAct :=
  firstCall (.obj [("oneOf", .arr [])]) ++ [.sync 0 (.answer {} true)]

theorem unsupportedAnswer_run :
    Run (system documentedRack) (trace (after documentedRack) {} unsupportedAnswer)
      (unsupportedAnswer.foldl (after documentedRack) {}) := by
  refine .replay ⟨⟨trivial, trivial, promptRequest_accepted⟩, ?_⟩
  repeat' constructor

/-- The execution is over, its row is executing, and the call has no attempt. -/
theorem unsupportedSchema_leaves_executing : ¬ ∀ h s, Run (system documentedRack) h s →
    ∀ j, s.point j = .finished → s.world.store.db.Ended j (s.calls j) := by
  intro hclaim
  obtain ⟨job, hrow, hstate⟩ := (hclaim _ _ unsupportedAnswer_run 0 rfl).terminal
  cases hrow
  exact absurd hstate (by decide)

/-- The call answers with JSON under a schema the validator knows. -/
def supportedAnswer : List ProcessAct :=
  firstCall (.obj [("type", .str "object")]) ++
    [.sync 0 (.answer {} true), .sync 0 (.commit 2 0), .sync 0 .refresh]

theorem supportedAnswer_run :
    Run (system documentedRack) (trace (after documentedRack) {} supportedAnswer)
      (supportedAnswer.foldl (after documentedRack) {}) := by
  refine .replay ⟨⟨trivial, trivial, promptRequest_accepted⟩, ?_⟩
  repeat' constructor

theorem supportedAnswer_handled :
    ∀ e ∈ trace (after documentedRack) {} supportedAnswer, Handled e := by
  apply forall_mem_trace
  refine ⟨trivial, trivial, trivial, trivial, trivial, trivial, trivial, trivial, ?_, trivial,
    trivial, trivial⟩
  rintro l t ⟨⟩
  rfl

/-- The answered call is recorded, and its row is terminal. -/
theorem execute_ends_supportedAnswer :
    (supportedAnswer.foldl (after documentedRack) {}).world.store.db.Ended 0 [1] :=
  execute_ends supportedAnswer_run supportedAnswer_handled (j := 0) rfl

end Process

end LoadCoach

import LoadCoach.Store.Cancellation
import LoadCoach.Worker.Holds

/-! # Cancel tokens

A worker cancels its job when the token of its registry entry says so, and never looks at who
cancelled the token.  It is cancelled for three reasons: a cancel request, a lease the keeper found
gone, and a transaction of the worker itself that was refused.  The last ends the worker's right
to the job at once.  The other two are sound as long as the token, when it is cancelled, stands for
a hold that is lost or for a job that is being cancelled (`World.Excused`): then every token that
says stop is excused in every later state, and so is every worker on its way to `cancelled`
(`World.Justified`).

A cancel request marks every hold of a job that is flagged, so it is sound by itself.  The keeper
marks the hold that is in the registry now for a lease that was gone when it asked, and nothing
makes the two the same hold: `no_spurious_cancellation` holds for the runs whose keeper marks no
hold with a lease, and `spuriously_cancelled` is a run without a cancel request in which the keeper
does. -/

namespace LoadCoach

open Foundations Relation

variable {rack : ModelRack}

/-! ### What moves a row to `cancelled` -/

namespace Db

variable {db db' : Db} {w : Owner} {j : JobId} {now : Instant}

theorem fencedMove_state {current target : JobState} {reason : Option String}
    {values : JobData → JobData} {message : String}
    (h : db.fencedMove w j current target now reason values message = .ok db') :
    db'.InState j target := by
  simp only [fencedMove, move, bind_eq_ok, pure_eq_ok] at h
  obtain ⟨db₁, hmove, rfl⟩ := h
  obtain ⟨job, -, -, -, -, htrack, -⟩ := track_transition hmove
  exact ⟨_, congrArg Track.row htrack, Job.moved_state _ _ _ _ _⟩

theorem workerTx_cancels {tx : WorkerTx} {row' : Job} (h : tx.run w j now db = .ok db')
    (hrow' : db'.jobs.lookup j = some row') (hstate : row'.state ∈ cancelStates) :
    (∃ records, tx = .cancelFrom records) ∨ db' = db := by
  have other : ∀ {target : JobState}, db'.InState j target → target ∉ cancelStates →
      (∃ records, tx = .cancelFrom records) ∨ db' = db := by
    rintro target ⟨row, hrow, rfl⟩ htarget
    cases hrow'.symm.trans hrow
    exact absurd hstate htarget
  cases tx with
  | cancelFrom records => exact .inl ⟨records, rfl⟩
  | failAfterCrash =>
      simp only [WorkerTx.run, failAfterCrash] at h
      split at h
      · exact .inr (Except.ok.inj h).symm
      · exact other (fencedMove_state h) (by decide)
  | recordFailedAttempt | validateAttempt =>
      simp only [WorkerTx.run, recordFailedAttempt, validateAttempt, recordAttempt,
        bind_eq_ok] at h
      obtain ⟨db₁, -, hmove⟩ := h
      exact other (fencedMove_state hmove) (by decide)
  | _ => exact other (fencedMove_state h) (by decide)

end Db

namespace World

variable {s : World} {a : Act} {w : Owner} {j : JobId} {h : List (Foundations.Step World Act)}

/-! ### What an act does to an entry -/

/-- What an act leaves in the registry for a hold. -/
inductive Marks (rack : ModelRack) (s : World) (w : Owner) (j : JobId) :
    Act → Option InFlightEntry → Prop
  | stay {a : Act}
      (hleave : ∀ job, a = .leave w → s.point w = .leaving job → job.jobId ≠ j) :
      Marks rack s w j a (s.entry w j)
  | request : Marks rack s w j (.requestCancel j)
      ((s.entry w j).map fun e => { e with cancelled := true })
  | register {job : ClaimedJob} (hpoint : s.point w = .claimed job) (hjob : job.jobId = j) :
      Marks rack s w j (.register w) (some {})
  | refuse {now : Instant} {totalMs : ℤ} {job : ClaimedJob} {tx : WorkerTx} {x : Raised}
      (htx : (s.point w).tx totalMs = some (job, tx))
      (hrun : tx.run w job.jobId now s.store.db = .error x) (hrefusal : x.isRefusal = true) :
      Marks rack s w j (.commit w now totalMs)
        ((s.entry w j).map fun e => { e with cancelled := true })
  | lose {process : ℕ} {rest : List JobId} (hkeeper : s.keeper process = .marking w (j :: rest)) :
      Marks rack s w j (.keeperMark process)
        ((s.entry w j).map fun _ => { cancelled := true, lost := true })
  | leave {job : ClaimedJob} (hpoint : s.point w = .leaving job) (hjob : job.jobId = j) :
      Marks rack s w j (.leave w) none

@[simp] theorem setCall_entry (s : World) (w' : Owner) (call : Option ProviderCall) :
    (s.setCall w' call).entry w j = s.entry w j := rfl

theorem entry_mark (s : World) (p : Owner × JobId → Bool) (f : InFlightEntry → InFlightEntry) :
    (s.mark p f).entry w j = (s.entry w j).map fun e => if p (w, j) then f e else e := by
  simp [mark, entry]

theorem Marks.of_eq {entry entry' : Option InFlightEntry} (hmarks : Marks rack s w j a entry')
    (hentry : entry = entry') : Marks rack s w j a entry := by
  rw [hentry]
  exact hmarks

/-- **What an act can do to an entry.** -/
theorem marks (rack : ModelRack) (s : World) (a : Act) (w : Owner) (j : JobId) :
    Marks rack s w j a ((s.after rack a).entry w j) := by
  change Marks rack s w j a ((s.control rack a).entry w j)
  cases a with
  | requestCancel k =>
      by_cases hk : j = k
      · subst hk
        exact Marks.request.of_eq (by simp [control, entry_mark])
      · exact (Marks.stay (by simp)).of_eq (by simp [control, entry_mark, hk])
  | keeperMark process =>
      simp only [control]
      split
      · rename_i w' k rest hkeeper
        have hentry := entry_mark (w := w) (j := j) s (fun key => decide (key = (w', k)))
          fun _ => { cancelled := true, lost := true }
        by_cases hkey : (w, j) = (w', k)
        · obtain ⟨rfl, rfl⟩ := Prod.mk.inj hkey
          exact (Marks.lose hkeeper).of_eq (hentry.trans (by simp))
        · exact (Marks.stay (by simp)).of_eq (hentry.trans (by simp [hkey]))
      · exact .stay (by simp)
      · exact .stay (by simp)
  | commit w' now totalMs =>
      simp only [control]
      split
      · exact .stay (by simp)
      · rename_i job tx htx
        split
        · exact (Marks.stay (by simp)).of_eq rfl
        · rename_i x hcommit
          have hentry := entry_mark (w := w) (j := j) (s.setCall w' none)
            (fun key => decide (key = (w', job.jobId)) && x.isRefusal)
            fun e => { e with cancelled := true }
          by_cases hkey : (w, j) = (w', job.jobId)
          · obtain ⟨rfl, rfl⟩ := Prod.mk.inj hkey
            cases hrefusal : x.isRefusal with
            | true =>
                rw [hrefusal] at hentry
                exact (Marks.refuse htx hcommit hrefusal).of_eq (hentry.trans (by simp))
            | false =>
                rw [hrefusal] at hentry
                exact (Marks.stay (by simp)).of_eq (hentry.trans (by simp))
          · exact (Marks.stay (by simp)).of_eq (hentry.trans (by simp [hkey]))
  | register w' =>
      simp only [control]
      split
      · rename_i job hpoint
        by_cases hkey : (w, j) = (w', job.jobId)
        · obtain ⟨rfl, rfl⟩ := Prod.mk.inj hkey
          exact (Marks.register hpoint rfl).of_eq (AList.lookup_insert _)
        · exact (Marks.stay (by simp)).of_eq (AList.lookup_insert_ne hkey)
      · exact .stay (by simp)
  | leave w' =>
      simp only [control]
      split
      · rename_i job hpoint
        by_cases hkey : (w, j) = (w', job.jobId)
        · obtain ⟨rfl, rfl⟩ := Prod.mk.inj hkey
          exact (Marks.leave hpoint rfl).of_eq (AList.lookup_erase _ _)
        · refine (Marks.stay ?_).of_eq (AList.lookup_erase_ne hkey)
          rintro job' ⟨rfl⟩ hpoint' rfl
          cases hpoint.symm.trans hpoint'
          exact hkey rfl
      · rename_i hpoint
        refine .stay ?_
        rintro job ⟨rfl⟩ hpoint'
        exact absurd hpoint' (hpoint job)
  | _ =>
      simp only [control]
      repeat' split
      all_goals exact .stay (by simp)

/-! ### Excused holds -/

/-- The worker has no lease on the job, or the job is on its way to `cancelled`. -/
def Excused (s : World) (w : Owner) (j : JobId) : Prop :=
  ¬ s.store.db.LeasedTo w j ∨ ∃ row, s.store.db.jobs.lookup j = some row ∧
    row.queuedAt.isSome ∧ row.state ∈ cancelStates

/-- An excuse stands as long as the worker is on a job: it would have to claim to lose it. -/
theorem Excused.after (hpast : Run (system rack) h s) (henabled : s.Enabled rack a)
    {job : ClaimedJob} (hjob : (s.point w).job? = some job) (hexcused : s.Excused w j) :
    (s.after rack a).Excused w j := by
  cases hop : s.op a with
  | none =>
      unfold Excused
      rw [after_quiet hop]
      exact hexcused
  | some op =>
      have hpath := after_writes hpast henabled hop j
      rcases hexcused with hlease | ⟨row, hrow, hqueued, hstate⟩
      · left
        rintro ⟨row', hrow', howner'⟩
        rcases hpath.leased hrow' howner' with hleased | hwho
        · exact hlease hleased
        · rw [idle_of_writer henabled hop hwho] at hjob
          cases hjob
      · right
        obtain ⟨row', hrow', hstate'⟩ := hpath.cancelled hrow hqueued hstate
        obtain ⟨row'', hrow'', hkept⟩ := hpath.kept hrow
        cases hrow'.symm.trans hrow''
        exact ⟨row', hrow', hkept.queuedAt ▸ hqueued, hstate'⟩

theorem Excused.of_flag (hpast : Run (system rack) h s) {job : ClaimedJob}
    (hbacked : s.Backed job) (hflag : s.cancelRequested job.jobId = true) :
    s.Excused w job.jobId := by
  obtain ⟨row, hrow, hqueued, -⟩ := hbacked
  have hflagged := Store.flagged ((simulation rack).run hpast) job.jobId
  rw [cancelRequested, hrow, Option.any_some] at hflag
  exact .inr ⟨row, hrow, hqueued, hflagged row hrow hqueued hflag⟩

end World

namespace Point

/-- A worker at the point is on its way to cancelling its job only for a reason. -/
def Justified (excused : JobId → Prop) : Point → Prop
  | claimed job | checking job => job.cancelRequested = false
  | settling l o => o.cancelled = true → excused l.job.jobId
  | cancelling job _ => excused job.jobId
  | _ => True

section Justified

variable {excused : JobId → Prop}

theorem readmitJob_justified (l : AttemptLoop) (reason : String) :
    (readmitJob l reason).Justified excused := by
  unfold readmitJob
  split_ifs <;> trivial

theorem probeBusy_justified (l : AttemptLoop) : (probeBusy l).Justified excused := by
  unfold probeBusy
  dsimp only
  split <;> trivial

theorem enter_justified (l : AttemptLoop) : (enter l).Justified excused := by
  unfold enter
  dsimp only
  split_ifs
  · trivial
  · exact readmitJob_justified _ _

theorem decided_justified {l : AttemptLoop} {o : AttemptOutcome} (hreturned : l.Returned o)
    (hcancelled : o.cancelled = false) : (decided l o).Justified excused := by
  have hstop := decided_action hreturned hcancelled l.attemptsHere l.perCandidate
  unfold decided
  dsimp only
  split
  · rename_i hcontra
    exact absurd hcontra hstop
  · split_ifs
    · trivial
    · exact readmitJob_justified _ _
  · split <;> trivial

theorem committed_justified {p : Point} {totalMs : ℤ} {e : ClaimedJob × WorkerTx}
    (htx : p.tx totalMs = some e) : p.committed.Justified excused := by
  cases p with
  | recording =>
      simp only [committed]
      split_ifs <;> trivial
  | admitting | startingRetry | readmitting | starting | deferring | failingAdmission
  | requeueing | completing | failing | cancelling | crashed => trivial
  | _ => cases htx

theorem raised_justified {p : Point} {totalMs : ℤ} {e : ClaimedJob × WorkerTx} (x : Raised)
    (htx : p.tx totalMs = some e) : (p.raised x).Justified excused := by
  have hjob := job?_of_tx htx
  cases p with
  | crashed => trivial
  | _ =>
      simp only [raised, hjob]
      split_ifs <;> trivial

end Justified

theorem raised_refusal {p : Point} {job : ClaimedJob} {x : Raised} (hjob : p.job? = some job)
    (hrefusal : x.isRefusal = true) : p.raised x = .leaving job := by
  cases p with
  | crashed =>
      cases hjob
      rfl
  | _ => simp [raised, hjob, hrefusal]

end Point

namespace World

variable {s : World} {a : Act} {w : Owner} {j : JobId} {h : List (Foundations.Step World Act)}

/-- **The invariant of the tokens.** -/
structure Justified (s : World) : Prop where
  /-- An entry belongs to the job its worker is on. -/
  registered : ∀ w j e, s.entry w j = some e → ∃ job, (s.point w).job? = some job ∧
    job.jobId = j
  /-- A token that says stop is excused, or its worker is leaving. -/
  stopped : ∀ w j, s.stopped w j = true → (∃ job, s.point w = .leaving job) ∨ s.Excused w j
  point : ∀ w, (s.point w).Justified (s.Excused w)

/-- A provider call is reported cancelled only if its token says stop. -/
def AnswersHonestly (e : Foundations.Step World Act) : Prop :=
  match e.act with
  | .answer w collected =>
      match e.pre.point w with
      | .calling l => (runAttempt l.attemptNumber l.candidate collected).cancelled = true →
          e.pre.stopped w l.job.jobId = true
      | _ => True
  | _ => True

/-- The keeper marks a hold as lost only if it is, or if its job is being cancelled. -/
def MarksLost (e : Foundations.Step World Act) : Prop :=
  match e.act with
  | .keeperMark process =>
      match e.pre.keeper process with
      | .marking w (j :: _) => (e.pre.entry w j).isSome → e.pre.Excused w j
      | _ => True
  | _ => True

theorem Moves.job?_or_leave {p : Point} {call : Option ProviderCall} {job : ClaimedJob}
    (hmoves : Moves rack s w a p call) (hjob : (s.point w).job? = some job) :
    p.job? = some job ∨ a = .leave w ∧ s.point w = .leaving job := by
  rcases hmoves.job?_cases with hsame | ⟨_, _, _, _, _, _, -, hpoint, -⟩ | ⟨_, hact, hpoint, -⟩
  · exact .inl (hsame.trans hjob)
  · rw [hpoint] at hjob
    cases hjob
  · rw [hpoint] at hjob
    cases hjob
    exact .inr ⟨hact, hpoint⟩

theorem Moves.leaving {p : Point} {call : Option ProviderCall} {job : ClaimedJob}
    (hmoves : Moves rack s w a p call) (hpoint : s.point w = .leaving job) :
    p = .leaving job ∨ a = .leave w := by
  cases hmoves with
  | stay => exact .inl hpoint
  | leave => exact .inr rfl
  | advance =>
      left
      simp [advanced, hpoint]
  | commit htx | refuse htx =>
      rw [hpoint] at htx
      cases htx
  | raise _ _ hleaving => exact absurd hpoint (hleaving job)
  | _ hpoint' => cases hpoint.symm.trans hpoint'

/-- Every act keeps the registry about the jobs the workers are on. -/
theorem Marks.registered {entry : Option InFlightEntry} (hmarks : Marks rack s w j a entry)
    {p : Point} {call : Option ProviderCall} (hmoves : Moves rack s w a p call)
    (h : s.Justified) {e : InFlightEntry} (hentry : entry = some e) :
    ∃ job, p.job? = some job ∧ job.jobId = j := by
  have stays : (∃ e₀, s.entry w j = some e₀) →
      (∀ job, a = .leave w → s.point w = .leaving job → job.jobId ≠ j) →
      ∃ job, p.job? = some job ∧ job.jobId = j := by
    rintro ⟨e₀, he₀⟩ hleave
    obtain ⟨job, hjob, rfl⟩ := h.registered w j e₀ he₀
    rcases hmoves.job?_or_leave hjob with hjob' | ⟨hact, hpoint⟩
    · exact ⟨job, hjob', rfl⟩
    · exact absurd rfl (hleave job hact hpoint)
  cases hmarks with
  | stay hleave => exact stays ⟨e, hentry⟩ hleave
  | request | refuse | lose =>
      obtain ⟨e₀, he₀, -⟩ := Option.map_eq_some_iff.1 hentry
      exact stays ⟨e₀, he₀⟩ (by simp)
  | @register job hpoint hjob =>
      have hclaimed : (s.point w).job? = some job := by
        rw [hpoint]
        rfl
      rcases hmoves.job?_or_leave hclaimed with hjob' | ⟨hact, -⟩
      · exact ⟨job, hjob', hjob⟩
      · cases hact
  | leave => cases hentry

theorem Moves.refused {p : Point} {call : Option ProviderCall} {now : Instant} {totalMs : ℤ}
    {e : ClaimedJob × WorkerTx} {x : Raised} (htx : (s.point w).tx totalMs = some e)
    (hrun : e.2.run w e.1.jobId now s.store.db = .error x) (hrefusal : x.isRefusal = true)
    (hmoves : Moves rack s w (.commit w now totalMs) p call) : ∃ job, p = .leaving job := by
  cases hmoves with
  | stay hcommit =>
      rw [hcommit now totalMs rfl] at htx
      cases htx
  | commit htx' hrun' =>
      cases htx.symm.trans htx'
      cases hrun.symm.trans hrun'
  | refuse htx' hrun' =>
      cases htx.symm.trans htx'
      cases hrun.symm.trans hrun'
      exact ⟨_, Point.raised_refusal (Point.job?_of_tx htx) hrefusal⟩

theorem excused_of_requestCancel (hpast : Run (system rack) h s) {job : ClaimedJob}
    (henabled : s.Enabled rack (.requestCancel job.jobId)) (hjob : (s.point w).job? = some job) :
    s.Excused w job.jobId := by
  have hbacked := backed hpast hjob
  rcases henabled with hflag | ⟨row, hrow, hstate⟩
  · exact .of_flag hpast hbacked hflag
  · obtain ⟨row', hrow', hqueued, -⟩ := hbacked
    cases hrow.symm.trans hrow'
    exact .inr ⟨row, hrow, hqueued, mem_cancelStates.2 (.inl hstate)⟩

theorem Marks.stopped {entry : Option InFlightEntry} (hmarks : Marks rack s w j a entry)
    {p : Point} {call : Option ProviderCall} (hmoves : Moves rack s w a p call)
    (hpast : Run (system rack) h s) (henabled : s.Enabled rack a)
    (hlost : MarksLost ⟨s, a, s.after rack a⟩) (hs : s.Justified)
    (hstop : entry.any InFlightEntry.stopped = true) :
    (∃ job, p = .leaving job) ∨ (s.after rack a).Excused w j := by
  have excused : (∃ e₀, s.entry w j = some e₀) → s.Excused w j →
      (s.after rack a).Excused w j := by
    rintro ⟨e₀, he₀⟩ hexcused
    obtain ⟨job, hjob, -⟩ := hs.registered w j e₀ he₀
    exact hexcused.after hpast henabled hjob
  cases hmarks with
  | stay hleave =>
      obtain ⟨e, hentry, -⟩ := (Option.any_eq_true _ _).1 hstop
      rcases hs.stopped w j hstop with ⟨job, hpoint⟩ | hexcused
      · rcases hmoves.leaving hpoint with hstays | hact
        · exact .inl ⟨job, hstays⟩
        · obtain ⟨job', hjob', hj⟩ := hs.registered w j e hentry
          rw [hpoint] at hjob'
          cases hjob'
          exact absurd hj (hleave job hact hpoint)
      · exact .inr (excused ⟨e, hentry⟩ hexcused)
  | request =>
      obtain ⟨e, hentry, -⟩ := (Option.any_eq_true _ _).1 hstop
      obtain ⟨e₀, he₀, -⟩ := Option.map_eq_some_iff.1 hentry
      obtain ⟨job, hjob, rfl⟩ := hs.registered w j e₀ he₀
      exact .inr (excused ⟨e₀, he₀⟩ (excused_of_requestCancel hpast henabled hjob))
  | register => cases hstop
  | refuse htx hrun hrefusal => exact .inl (hmoves.refused htx hrun hrefusal)
  | lose hkeeper =>
      obtain ⟨e, hentry, -⟩ := (Option.any_eq_true _ _).1 hstop
      obtain ⟨e₀, he₀, -⟩ := Option.map_eq_some_iff.1 hentry
      simp only [MarksLost, hkeeper] at hlost
      exact .inr (excused ⟨e₀, he₀⟩ (hlost (by simp [he₀])))
  | leave => cases hstop

/-! ### Workers on their way to cancelling -/

theorem advanced_justified (hpast : Run (system rack) h s) (hs : s.Justified) :
    (s.advanced w).Justified (s.Excused w) := by
  have hpoint := hs.point w
  have hvalid := World.valid hpast w
  have flagged : ∀ {job : ClaimedJob}, (s.point w).job? = some job →
      s.cancelRequested job.jobId = true → s.Excused w job.jobId :=
    fun hjob => .of_flag hpast (backed hpast hjob)
  have stopped : ∀ {j : JobId}, (∀ job, s.point w ≠ .leaving job) → s.stopped w j = true →
      s.Excused w j := by
    intro j hleaving hstop
    refine (hs.stopped w j hstop).resolve_left ?_
    rintro ⟨job, hjob⟩
    exact hleaving job hjob
  unfold advanced
  cases hp : s.point w <;> rw [hp] at hpoint hvalid flagged stopped <;> dsimp only
  case checking job =>
    split_ifs with hflag
    · have hclaimed : job.cancelRequested = false := hpoint
      rw [hclaimed, Bool.false_or] at hflag
      exact flagged rfl hflag
    · trivial
  case checkingAdmitted l | checkingRow l =>
    split_ifs with hflag
    · exact @flagged l.job rfl hflag
    · trivial
  case resuming l _ | checkingToken l =>
    split_ifs with hstop
    · exact stopped (by simp) hstop
    · trivial
  case settling l o =>
    split_ifs with hstop
    · rcases Bool.or_eq_true_iff.1 hstop with hcancelled | hstop
      · exact hpoint hcancelled
      · refine stopped (by simp) ?_
        obtain ⟨e, hentry, hcancelled⟩ := (Option.any_eq_true _ _).1 hstop
        exact (Option.any_eq_true _ _).2 ⟨e, hentry, by simp [InFlightEntry.stopped, hcancelled]⟩
    · trivial
  case deciding l o =>
    obtain ⟨-, -, hreturned, hcancelled⟩ := hvalid
    exact Point.decided_justified hreturned hcancelled
  case counting l => split_ifs <;> trivial
  all_goals exact hpoint

theorem justified_mono {p : Point} {excused excused' : JobId → Prop} (h : p.Justified excused)
    (hmono : ∀ job, p.job? = some job → excused job.jobId → excused' job.jobId) :
    p.Justified excused' := by
  cases p with
  | claimed | checking => exact h
  | settling l o => exact fun hcancelled => hmono l.job rfl (h hcancelled)
  | cancelling job => exact hmono job rfl h
  | _ => trivial

/-- **Every step keeps a worker's way to a cancellation justified.** -/
theorem Moves.justified {p : Point} {call : Option ProviderCall}
    (hmoves : Moves rack s w a p call) (hpast : Run (system rack) h s)
    (henabled : s.Enabled rack a) (hanswer : AnswersHonestly ⟨s, a, s.after rack a⟩)
    (hs : s.Justified) : p.Justified ((s.after rack a).Excused w) := by
  have stands : ∀ job, (s.point w).job? = some job → s.Excused w job.jobId →
      (s.after rack a).Excused w job.jobId := fun job hjob hexcused =>
    hexcused.after hpast henabled hjob
  have hpoint := hs.point w
  cases hmoves with
  | stay => exact justified_mono hpoint stands
  | @claim _ _ _ _ claimedJob _ hidle hclaim =>
      rcases Db.claim_spec hclaim with ⟨hnone, -⟩ | ⟨_, row, hresult, hspec⟩
      · cases hnone
      · cases hresult
        obtain ⟨hrow, heligible, hqueued, -, -, hflag, -⟩ := hspec
        have hflagged := Store.flagged ((simulation rack).run hpast) claimedJob.jobId
        rw [Point.Justified, hflag, ← Bool.not_eq_true]
        intro hrequested
        have hstate := hflagged row hrow hqueued hrequested
        simp only [eligible, Bool.and_eq_true, decide_eq_true_eq] at heligible
        rw [heligible.1] at hstate
        exact absurd hstate (by decide)
  | register hclaimed =>
      rw [hclaimed] at hpoint
      exact hpoint
  | @route job verdict =>
      cases verdict <;> trivial
  | @probe l busy =>
      cases busy
      · exact Point.enter_justified l
      · exact Point.probeBusy_justified l
  | advance =>
      refine justified_mono (advanced_justified hpast hs) fun job hjob => stands job ?_
      exact (advanced_job? s w).symm.trans hjob
  | commit htx => exact Point.committed_justified htx
  | refuse htx => exact Point.raised_justified _ htx
  | @answer l collected hcalling =>
      intro hcancelled
      simp only [AnswersHonestly, hcalling] at hanswer
      rcases hs.stopped w l.job.jobId (hanswer hcancelled) with ⟨job, hleaving⟩ | hexcused
      · cases hcalling.symm.trans hleaving
      · exact stands l.job (by rw [hcalling]; rfl) hexcused
  | raiseCall | raise | leave => trivial

/-- **The tokens stay justified in the runs whose keeper marks lost holds only.** -/
theorem justified (hrun : Run (system rack) h s) (hanswers : ∀ e ∈ h, AnswersHonestly e)
    (hmarks : ∀ e ∈ h, MarksLost e) : s.Justified := by
  induction hrun with
  | start hs =>
      rw [Set.mem_singleton_iff.1 hs]
      refine ⟨?_, ?_, fun _ => trivial⟩
      · intro w j e hentry
        cases hentry
      · intro w j hstop
        cases hstop
  | @step h s _ a hpast hnext ih =>
      obtain ⟨henabled, rfl⟩ := hnext
      rw [List.forall_mem_cons] at hanswers hmarks
      have hs := ih hanswers.2 hmarks.2
      refine ⟨?_, ?_, ?_⟩
      · intro w j e hentry
        exact (marks rack s a w j).registered (moves rack s a w) hs hentry
      · intro w j hstop
        exact (marks rack s a w j).stopped (moves rack s a w) hpast henabled hmarks.1 hs hstop
      · intro w
        exact (moves rack s a w).justified hpast henabled hanswers.1 hs

/-! ### No spurious cancellation -/

/-- A cancel request for the job. -/
def CancelsJob (j : JobId) (a : Act) : Prop := ∃ now, a = .store (.cancelJob j now)

theorem cancelsJob_of_canceller {op : Op} (hop : s.op a = some op) (hwho : op.writer = .canceller)
    (hchanged : (s.after rack a).store.db.track j ≠ s.store.db.track j) : CancelsJob j a := by
  cases op <;> cases hwho
  rename_i k now
  have hact : a = .store (.cancelJob k now) := by
    cases a with
    | store => exact congrArg Act.store (Option.some.inj hop)
    | commit =>
        obtain ⟨e, -, hcontra⟩ := Option.map_eq_some_iff.1 hop
        cases hcontra
    | claim | keeperRenew =>
        simp only [World.op] at hop
        split at hop <;> cases hop
    | _ => cases hop
  by_cases hjob : j = k
  · exact ⟨now, hjob ▸ hact⟩
  · refine absurd ?_ hchanged
    rw [after_store, hop]
    rcases Store.after_cases rack s.store (.cancelJob k now) with ⟨e, -, hsame⟩ |
      ⟨db, hrun, hdb, -⟩
    · exact congrArg (fun s : Store => s.db.track j) hsame
    · obtain ⟨⟨result, db'⟩, hcancel, rfl⟩ := map_eq_ok.1 hrun
      dsimp only
      rw [hdb]
      exact (Db.cancelJob_writes hcancel : Db.WritesTo rack _ _ _ _).frame j hjob

theorem cancelled_of_commit {now : Instant} {totalMs : ℤ} {e : ClaimedJob × WorkerTx} {db : Db}
    (htx : (s.point w).tx totalMs = some e) (hrun : e.2.run w e.1.jobId now s.store.db = .ok db)
    (hs : s.Justified) {row' : Job} (hrow' : db.jobs.lookup e.1.jobId = some row')
    (hstate' : row'.state ∈ cancelStates) :
    ∃ row, s.store.db.jobs.lookup e.1.jobId = some row ∧ row.state ∈ cancelStates := by
  have unchanged : db = s.store.db → ∃ row, s.store.db.jobs.lookup e.1.jobId = some row ∧
      row.state ∈ cancelStates := fun hsame => ⟨row', hsame ▸ hrow', hstate'⟩
  rcases Db.workerTx_cancels hrun hrow' hstate' with ⟨records, hcancel⟩ | hsame
  · have hpoint : s.point w = .cancelling e.1 records := by
      cases hp : s.point w <;> rw [hp] at htx <;> cases htx <;> try cases hcancel
      case recording l o =>
        dsimp only at hcancel
        split_ifs at hcancel
      case cancelling => rfl
    have hexcused := hs.point w
    rw [hpoint] at hexcused
    rcases hexcused with hlease | ⟨row, hrow, -, hstate⟩
    · exact unchanged (Db.worker_unleased hrun hlease)
    · exact ⟨row, hrow, hstate⟩
  · exact unchanged hsame

theorem cancelsJob_of_after (hpast : Run (system rack) h s) (henabled : s.Enabled rack a)
    (hs : s.Justified) {row' : Job} (hrow' : (s.after rack a).store.db.jobs.lookup j = some row')
    (hqueued' : row'.queuedAt.isSome) (hstate' : row'.state ∈ cancelStates)
    (hbefore : ¬ ∃ row, s.store.db.jobs.lookup j = some row ∧ row.state ∈ cancelStates) :
    CancelsJob j a := by
  have changed : (s.after rack a).store.db.track j ≠ s.store.db.track j := by
    intro hsame
    have hrow : s.store.db.jobs.lookup j = some row' := (congrArg Track.row hsame).symm.trans hrow'
    exact hbefore ⟨row', hrow, hstate'⟩
  cases hop : s.op a with
  | none => exact absurd (by rw [after_quiet hop]) changed
  | some op =>
      rcases (after_writes hpast henabled hop j).cancels hrow' hqueued' hstate' with
        hcancelled | hcanceller | ⟨w, hworker⟩
      · exact absurd hcancelled hbefore
      · exact cancelsJob_of_canceller hop hcanceller changed
      · obtain ⟨now, totalMs, e, rfl, htx⟩ := commit_of_writer henabled hop hworker
        cases hcommit : e.2.run w e.1.jobId now s.store.db with
        | error x => exact absurd (by rw [after_refused htx hcommit]) changed
        | ok db =>
            rw [after_commit htx hcommit] at hrow' changed
            have hjob : j = e.1.jobId := by
              by_contra hjob
              exact changed ((Db.workerTx_writes hcommit : Db.WritesTo rack _ _ _ _).frame j hjob)
            subst hjob
            exact absurd (cancelled_of_commit htx hcommit hs hrow' hstate') hbefore

/-- **No spurious cancellation.**  In every run in which providers report a cancellation only if
the token says stop, and the keeper marks a hold as lost only if it is lost or its job is being
cancelled, a job of the queued path ends `cancelled` only if it was asked for. -/
theorem no_spurious_cancellation (hrun : Run (system rack) h s)
    (hanswers : ∀ e ∈ h, AnswersHonestly e) (hmarks : ∀ e ∈ h, MarksLost e) {row : Job}
    (hrow : s.store.db.jobs.lookup j = some row) (hqueued : row.queuedAt.isSome)
    (hstate : row.state ∈ cancelStates) : ∃ e ∈ h, CancelsJob j e.act := by
  induction hrun generalizing row with
  | start hs =>
      rw [Set.mem_singleton_iff.1 hs] at hrow
      cases hrow
  | @step h s _ a hpast hnext ih =>
      obtain ⟨henabled, rfl⟩ := hnext
      rw [List.forall_mem_cons] at hanswers hmarks
      by_cases hbefore : ∃ row, s.store.db.jobs.lookup j = some row ∧ row.state ∈ cancelStates
      · obtain ⟨row₀, hrow₀, hstate₀⟩ := hbefore
        obtain ⟨row', hrow', hkept⟩ := after_kept hpast henabled hrow₀
        cases hrow.symm.trans hrow'
        obtain ⟨e, he, hcancels⟩ :=
          ih hanswers.2 hmarks.2 hrow₀ (hkept.queuedAt ▸ hqueued) hstate₀
        exact ⟨e, List.mem_cons_of_mem _ he, hcancels⟩
      · have hs := justified hpast hanswers.2 hmarks.2
        exact ⟨_, List.mem_cons_self,
          cancelsJob_of_after hpast henabled hs hrow hqueued hstate hbefore⟩

/-- A lease expires and is reaped, the keeper marks the hold, and the queued job is cancelled. -/
def lostHold : List Act :=
  [.store (.enqueue 0 (promptSubmission true) ("chat", "1") none 0 {}),
   .claim ⟨0, 0⟩ 0 60 0 none,
   .register ⟨0, 0⟩,
   .store (.reapExpiredLeases (seconds 100)),
   .keeperRead ⟨0, 0⟩,
   .keeperRenew 0 (seconds 101) 60,
   .keeperMark 0,
   .store (.cancelJob 0 (seconds 102))]

theorem lostHold_run : Run (system documentedRack) (trace (after documentedRack) {} lostHold)
    (lostHold.foldl (after documentedRack) {}) := by
  refine .replay ⟨⟨trivial, promptSubmission_accepted true⟩, ?_⟩
  repeat' constructor

/-- The keeper's mark is of a hold that is lost, and the job was asked to be cancelled. -/
theorem no_spurious_cancellation_lostHold :
    ∃ e ∈ trace (after documentedRack) {} lostHold, CancelsJob 0 e.act := by
  have hanswers : ∀ e ∈ trace (after documentedRack) {} lostHold, AnswersHonestly e := by
    apply forall_mem_trace
    repeat' constructor
  have hmarks : ∀ e ∈ trace (after documentedRack) {} lostHold, MarksLost e := by
    apply forall_mem_trace
    refine ⟨trivial, trivial, trivial, trivial, trivial, trivial, ?_, trivial, trivial⟩
    rintro -
    left
    rintro ⟨row, hrow, howner⟩
    cases hrow
    cases howner
  exact no_spurious_cancellation lostHold_run hanswers hmarks rfl rfl (by decide)

/-- The one candidate of the job. -/
def soleRoute : RouteVerdict :=
  .routed { canonicalId := "m", subjectCanonicalId := "m", modelId := "m" } [] 1

/-- The worker hands its job back, whose only candidate is being probed, and claims it again while the
keeper holds an answer about the first hold. -/
def staleMark : List Act :=
  [.store (.enqueue 0 (promptSubmission false) ("chat", "1") none 0 {}),
   .claim ⟨0, 0⟩ 0 60 0 none,
   .register ⟨0, 0⟩,
   .advance ⟨0, 0⟩,
   .route ⟨0, 0⟩ soleRoute,
   .commit ⟨0, 0⟩ 1 0,
   .advance ⟨0, 0⟩,
   .probe ⟨0, 0⟩ true,
   .keeperRead ⟨0, 0⟩,
   .commit ⟨0, 0⟩ 2 0,
   .keeperRenew 0 3 60,
   .leave ⟨0, 0⟩,
   .claim ⟨0, 0⟩ 4 60 0 none,
   .register ⟨0, 0⟩,
   .keeperMark 0,
   .advance ⟨0, 0⟩,
   .route ⟨0, 0⟩ soleRoute,
   .commit ⟨0, 0⟩ 5 0,
   .advance ⟨0, 0⟩,
   .probe ⟨0, 0⟩ false,
   .advance ⟨0, 0⟩,
   .advance ⟨0, 0⟩,
   .commit ⟨0, 0⟩ 6 0]

theorem staleMark_run : Run (system documentedRack) (trace (after documentedRack) {} staleMark)
    (staleMark.foldl (after documentedRack) {}) := by
  refine .replay ⟨⟨trivial, promptSubmission_accepted false⟩, ?_⟩
  repeat' constructor

/-- Nobody asked for the job to be cancelled, and it is. -/
theorem spuriously_cancelled : ¬ ∀ h s, Run (system documentedRack) h s →
    (∀ e ∈ h, AnswersHonestly e) → ∀ j row, s.store.db.jobs.lookup j = some row →
      row.queuedAt.isSome → row.state = .cancelled → ∃ e ∈ h, CancelsJob j e.act := by
  intro hclaim
  have hanswers : ∀ e ∈ trace (after documentedRack) {} staleMark, AnswersHonestly e := by
    apply forall_mem_trace
    repeat' constructor
  have hnone : ∀ e ∈ trace (after documentedRack) {} staleMark, ¬ CancelsJob 0 e.act := by
    apply forall_mem_trace
    repeat' constructor
    all_goals
      rintro ⟨now, hact⟩
      cases hact
  obtain ⟨e, he, hcancels⟩ := hclaim _ _ staleMark_run hanswers 0 _ rfl rfl rfl
  exact hnone e he hcancels

end World

end LoadCoach

import LoadCoach.Worker.Attempts
import LoadCoach.Worker.Stages

/-! # The row names the running candidate

While a worker runs a job, two records say on what: the selection columns of the row, and the
in-flight entry of the process.  `_admit` writes both for the first candidate of the ranking, and
`_readmit` for every later attempt.  But the loop may skip the first candidate because its breaker
is being probed, and what it enters then was not re-admitted.

`RegisteredWorld` adds the entries' facts to the workers and what they share.

* `shows`: as long as a worker has its lease, the row and the entry name the candidate that was
  admitted last.
* `names_running_iff`: at every call they name the candidate called if and only if the first
  candidate called after an admission is always one with the facts of the first candidate. -/

namespace LoadCoach

open Foundations Relation

/-! ### What is recorded of a candidate -/

/-- The facts of an in-flight entry. -/
structure EntryFacts where
  canonicalId : Option String := none
  modelId : Option String := none
  targetGpuIndex : Option ℕ := none
  estimatedBytes : Option ℕ := none
deriving DecidableEq

/-- What an admission on a candidate writes into the entry. -/
def RankedCandidate.entryFacts (c : RankedCandidate) : EntryFacts where
  canonicalId := some c.canonicalId
  modelId := some c.modelId
  targetGpuIndex := c.targetGpuIndex
  estimatedBytes := c.estimatedVramBytes

/-- The row's selected model, device, profile and context are the candidate's. -/
structure JobData.Names (d : JobData) (c : RankedCandidate) : Prop where
  model : d.selectedModelId = some c.modelId
  device : d.targetGpuIndex = c.targetGpuIndex
  profile : d.runtimeProfileHash = some c.runtimeProfileHash
  context : d.servedContext = some c.servedContext

/-- Nothing that is recorded tells two candidates apart. -/
structure RankedCandidate.Alike (c c' : RankedCandidate) : Prop where
  profile : c.runtimeProfileHash = c'.runtimeProfileHash
  context : c.servedContext = c'.servedContext
  facts : c.entryFacts = c'.entryFacts

theorem JobData.names_select (c : RankedCandidate) (d : JobData) :
    (d.select c.selection).Names c := ⟨rfl, rfl, rfl, rfl⟩

theorem JobData.Names.startValues {d : JobData} {c : RankedCandidate} (h : d.Names c)
    (now queuedAt : Instant) (first : Bool) : (Db.startValues now queuedAt first d).Names c := by
  unfold Db.startValues
  split_ifs
  · exact ⟨h.model, h.device, h.profile, h.context⟩
  · exact h

theorem names_iff_alike {d : JobData} {c c' : RankedCandidate} (h : d.Names c) :
    d.Names c' ∧ c.entryFacts = c'.entryFacts ↔ c.Alike c' := by
  constructor
  · rintro ⟨hnames, hfacts⟩
    exact ⟨Option.some.inj (h.profile.symm.trans hnames.profile),
      Option.some.inj (h.context.symm.trans hnames.context), hfacts⟩
  · rintro ⟨hprofile, hcontext, hfacts⟩
    have hmodel : c.modelId = c'.modelId := Option.some.inj (congrArg EntryFacts.modelId hfacts)
    have hdevice : c.targetGpuIndex = c'.targetGpuIndex :=
      congrArg EntryFacts.targetGpuIndex hfacts
    exact ⟨⟨hmodel ▸ h.model, hdevice ▸ h.device, hprofile ▸ h.profile, hcontext ▸ h.context⟩,
      hfacts⟩

/-! ### The registry -/

namespace Point

/-- The candidate a transaction admits the job on. -/
def admits? : Point → Option RankedCandidate
  | admitting l => some l.primary
  | readmitting l _ => some l.candidate
  | _ => none

/-- The candidate the last admission was on, from there to the call. -/
def named? : Point → Option RankedCandidate
  | checkingAdmitted l | gate l =>
      if l.attemptNumber = l.job.attempt then some l.primary else none
  | counting l => some (if l.attemptNumber = l.job.attempt then l.primary else l.candidate)
  | checkingToken l | checkingRow l | starting l | calling l =>
      some (if l.attemptNumber = l.job.attempt + 1 then l.primary else l.candidate)
  | _ => none

/-- The points between the registration of the entry and the end of the loop. -/
def enrolled : Point → Bool
  | checking _ | routing _ => true
  | p => p.stage?.isSome

end Point

/-- The workers and what they share, with the facts of the in-flight entries. -/
structure RegisteredWorld extends World where
  facts : Owner × JobId → Option EntryFacts := fun _ => none

namespace RegisteredWorld

/-- The entry an act writes, and what is there afterwards. -/
def entryWrite (s : RegisteredWorld) : Act → Option ((Owner × JobId) × Option EntryFacts)
  | .register w =>
      match s.point w with
      | .claimed job => some ((w, job.jobId), some {})
      | _ => none
  | .commit w now totalMs =>
      match (s.point w).admits?, (s.point w).tx totalMs with
      | some c, some (job, tx) =>
          match tx.run w job.jobId now s.store.db with
          | .ok _ =>
              some ((w, job.jobId), (s.facts (w, job.jobId)).map fun _ => c.entryFacts)
          | .error _ => none
      | _, _ => none
  | .leave w =>
      match s.point w with
      | .leaving job => some ((w, job.jobId), none)
      | _ => none
  | _ => none

/-- What an act leaves of the facts of the entries. -/
def factsAfter (s : RegisteredWorld) (a : Act) : Owner × JobId → Option EntryFacts :=
  (s.entryWrite a).elim s.facts fun e => Function.update s.facts e.1 e.2

/-- The world after an act. -/
def after (rack : ModelRack) (s : RegisteredWorld) (a : Act) : RegisteredWorld where
  toWorld := s.toWorld.after rack a
  facts := s.factsAfter a

/-- **The workers, with the facts of their entries.** -/
def system (rack : ModelRack) : System RegisteredWorld Act :=
  .guarded (fun s => s.toWorld.Enabled rack) (after rack) {}

/-- The facts are an account of the workers' runs, and change nothing in them. -/
def simulation (rack : ModelRack) : Simulation (system rack) (World.system rack) where
  abs := toWorld
  label _ a := some a
  init := by
    rintro _ rfl
    rfl
  step := by
    rintro s a _ a' ⟨henabled, rfl⟩ ⟨rfl⟩
    exact ⟨henabled, rfl⟩
  stutter := by
    rintro s a _ - hlabel
    cases hlabel

end RegisteredWorld

/-! ### The row of a running job -/

/-- The states in which the row of a leased job names what the job runs on. -/
def runningStates : List JobState := [.admitted, .executing]

theorem not_running_of_cancelTarget {state target : JobState}
    (h : cancelTarget state = some target) : target ∉ runningStates := by
  revert h
  cases state <;> cases target <;> decide

theorem running_of_isLegal {state : JobState} (h : isLegal state .executing = true) :
    state ∈ runningStates := by
  revert h
  cases state <;> decide

theorem not_running_of_recoveryTarget {state target : JobState} {idempotent : Bool}
    (h : recoveryTarget state idempotent = some target) : target ∉ runningStates := by
  revert h
  cases state <;> cases idempotent <;> cases target <;> decide

namespace Track

variable {rack : ModelRack} {who : Writer} {t t' : Track} {job' : Job} {w : Owner}

theorem MayMove.not_running {job : Job} {target : JobState} (h : MayMove who job target)
    (hworker : ∀ w, who ≠ .worker w) : target ∉ runningStates := by
  cases who with
  | worker w => exact absurd rfl (hworker w)
  | canceller => exact not_running_of_cancelTarget h
  | reaper | recovery => exact not_running_of_recoveryTarget h.2
  | expiry | reevaluation | watchdog =>
      rw [h.2]
      decide
  | claimer | keeper | synchronous | submitter | housekeeping => exact h.elim

/-- A running row leased to a worker was, before somebody else's statement, leased to it, in the
same state and with the same data. -/
theorem Step.running (hstep : Step rack who t t')
    (hrow' : t'.row = some job') (howner : job'.leaseOwner = some w)
    (hstate : job'.state ∈ runningStates) (hworker : who ≠ .worker w) :
    ∃ job, t.row = some job ∧ job.leaseOwner = some w ∧ job.state = job'.state ∧
      job.data = job'.data := by
  cases hstep with
  | @move job target _ _ _ hrow _ hmay =>
      cases hrow'
      rw [Job.moved_leaseOwner] at howner
      rw [Job.moved_state] at hstate
      split_ifs at howner
      by_cases hwho : ∃ w', who = .worker w'
      · obtain ⟨w', rfl⟩ := hwho
        have hholder : job.leaseOwner = some w' := hmay
        rw [howner, Option.some.injEq] at hholder
        exact absurd (congrArg Writer.worker hholder.symm) hworker
      · exact absurd hstate (hmay.not_running fun w' hw' => hwho ⟨w', hw'⟩)
  | @record job row hrow hmay =>
      cases hrow'
      exact ⟨job, hrow, howner, rfl, rfl⟩
  | lease =>
      cases hrow'
      have hleased : JobState.leased ∈ runningStates := hstate
      exact absurd hleased (by decide)
  | @assign job _ _ hrow hassigned =>
      cases hrow'
      rcases hassigned.state with h | h <;> rw [h] at hstate <;> exact absurd hstate (by decide)
  | insert _ hfresh =>
      cases hrow'
      exact absurd (hfresh.leaseOwner.symm.trans howner) (by simp)
  | @renew job _ _ _ hrow | @touch job _ _ _ _ hrow =>
      cases hrow'
      exact ⟨job, hrow, howner, rfl, rfl⟩

theorem Path.running (hpath : Path rack who t t')
    (hrow' : t'.row = some job') (howner : job'.leaseOwner = some w)
    (hstate : job'.state ∈ runningStates) (hworker : who ≠ .worker w) :
    ∃ job, t.row = some job ∧ job.leaseOwner = some w ∧ job.state = job'.state ∧
      job.data = job'.data := by
  induction hpath generalizing job' with
  | refl => exact ⟨job', hrow', howner, rfl, rfl⟩
  | tail _ hstep ih =>
      obtain ⟨job₁, hrow₁, howner₁, hstate₁, hdata₁⟩ :=
        hstep.running hrow' howner hstate hworker
      obtain ⟨job, hrow, hheld, hsame, hdata⟩ := ih hrow₁ howner₁ (hstate₁ ▸ hstate)
      exact ⟨job, hrow, hheld, hsame.trans hstate₁, hdata.trans hdata₁⟩

end Track

namespace Db

variable {db db' : Db} {w : Owner} {j : JobId} {now : Instant}

theorem fencedMove_row {current target : JobState} {reason : Option String}
    {values : JobData → JobData} {message : String}
    (h : db.fencedMove w j current target now reason values message = .ok db') :
    ∃ row, db.jobs.lookup j = some row ∧ row.state = current ∧ row.leaseOwner = some w ∧
      isLegal current target = true ∧
      db'.jobs.lookup j = some (row.moved target now reason values) := by
  simp only [fencedMove, move, bind_eq_ok, pure_eq_ok] at h
  obtain ⟨db₁, hmove, rfl⟩ := h
  obtain ⟨row, hrow, hstate, hfence, hlegal, htrack, -⟩ := track_transition hmove
  exact ⟨row, hrow, hstate, (fenced_some w row).1 hfence, hlegal, congrArg Track.row htrack⟩

end Db

/-! ### The candidate admitted last -/

namespace Point

variable {l : AttemptLoop} {c : RankedCandidate}

theorem readmitJob_named? (l : AttemptLoop) (reason : String) :
    (readmitJob l reason).named? = none := by
  unfold readmitJob
  split_ifs <;> rfl

theorem probeBusy_named (hnamed : (probeBusy l).named? = some c) : (gate l).named? = some c := by
  unfold probeBusy at hnamed
  dsimp only at hnamed
  split at hnamed
  · cases hnamed
  · exact hnamed

theorem enter_named (hpaced : LoopStage.Paced l .gate) (hnamed : (enter l).named? = some c) :
    (gate l).named? = some c := by
  unfold enter at hnamed
  dsimp only at hnamed
  split_ifs at hnamed with hfirst
  · have hcount := hpaced.2.1 hfirst
    simp only [named?, hcount, if_true] at hnamed ⊢
    exact hnamed
  · rw [readmitJob_named?] at hnamed
    cases hnamed

theorem decided_named? (o : AttemptOutcome) (hpaced : LoopStage.Paced l .answered) :
    (decided l o).named? = none := by
  unfold decided
  dsimp only
  split
  · rfl
  · split_ifs
    · rfl
    · exact readmitJob_named? _ _
  · split
    · rfl
    · exact if_neg hpaced.1.ne'

theorem named?_of_afterLoop {p : Point} (h : p.afterLoop = true) : p.named? = none := by
  cases p <;> first | rfl | cases h

theorem committed_named {p : Point} {totalMs : ℤ} {e : ClaimedJob × WorkerTx}
    (htx : p.tx totalMs = some e) (hpaced : ∀ σ l, p.stage? = some (σ, l) → σ.Paced l)
    (hnamed : p.committed.named? = some c) : p.named? = some c ∨ p.admits? = some c := by
  cases p with
  | admitting l =>
      right
      simp only [committed, named?] at hnamed
      split_ifs at hnamed
      exact hnamed
  | readmitting l =>
      right
      have hlater : l.attemptNumber ≠ l.job.attempt := (hpaced _ _ rfl).1.ne'
      simp only [committed, named?, if_neg hlater] at hnamed
      exact hnamed
  | starting l => exact .inl hnamed
  | recording l o =>
      simp only [committed] at hnamed
      split_ifs at hnamed <;> cases hnamed
  | checkingAdmitted | gate | counting | checkingToken | checkingRow | calling => cases htx
  | _ => cases hnamed

theorem enrolled_of_admits {p : Point} (h : p.admits? = some c) : p.enrolled = true := by
  cases p <;> first | rfl | cases h

theorem enrolled_of_afterLoop {p : Point} (h : p.afterLoop = true) : p.enrolled = false := by
  cases p <;> first | rfl | cases h

end Point

namespace World

variable {rack : ModelRack} {s : World} {a : Act} {w : Owner} {c : RankedCandidate}
  {h : List (Foundations.Step World Act)}

theorem advanced_named (hpaced : ∀ σ l, (s.point w).stage? = some (σ, l) → σ.Paced l)
    (hnamed : (s.advanced w).named? = some c) : (s.point w).named? = some c := by
  unfold advanced at hnamed
  cases hpoint : s.point w <;> rw [hpoint] at hnamed hpaced <;> dsimp only at hnamed
  case checkingAdmitted | checkingToken | checkingRow =>
    split_ifs at hnamed
    · cases hnamed
    · exact hnamed
  case counting l =>
    split_ifs at hnamed
    · cases hnamed
    · simp only [Point.named?, Nat.add_right_cancel_iff] at hnamed ⊢
      exact hnamed
  case deciding l o =>
    rw [Point.decided_named? o (hpaced _ _ rfl)] at hnamed
    cases hnamed
  case checking | resuming | settling =>
    split_ifs at hnamed <;> cases hnamed
  all_goals exact hnamed

/-- **A step keeps the candidate admitted last, or admits the job anew.** -/
theorem Moves.named {p : Point} {call : Option ProviderCall} (hrun : Run (system rack) h s)
    (hmoves : Moves rack s w a p call) (hnamed : p.named? = some c) :
    (s.point w).named? = some c ∨
      ∃ now totalMs job tx db, a = .commit w now totalMs ∧
        (s.point w).tx totalMs = some (job, tx) ∧ tx.run w job.jobId now s.store.db = .ok db ∧
        (s.point w).admits? = some c := by
  have hpaced : ∀ σ l, (s.point w).stage? = some (σ, l) → σ.Paced l := fun σ l => paced hrun
  cases hmoves with
  | stay => exact .inl hnamed
  | claim | register | answer | raiseCall | raise | leave => cases hnamed
  | @route job verdict => cases verdict <;> cases hnamed
  | @probe l busy hpoint =>
      left
      rw [hpoint] at hpaced ⊢
      cases busy with
      | true => exact Point.probeBusy_named hnamed
      | false => exact Point.enter_named (hpaced _ _ rfl) hnamed
  | advance => exact .inl (advanced_named hpaced hnamed)
  | commit htx hok =>
      exact (Point.committed_named htx hpaced hnamed).imp_right fun hadmits =>
        ⟨_, _, _, _, _, rfl, htx, hok, hadmits⟩
  | refuse htx =>
      rw [Point.named?_of_afterLoop (Point.raised_afterLoop _ htx)] at hnamed
      cases hnamed

/-- **An entry is there from its registration to the end of the loop.** -/
theorem Moves.enrolled {p : Point} {call : Option ProviderCall} (hmoves : Moves rack s w a p call)
    (hp : p.enrolled = true) :
    (s.point w).enrolled = true ∨ ∃ job, s.point w = .claimed job ∧ a = .register w := by
  cases hmoves with
  | stay => exact .inl hp
  | claim | raiseCall | raise | leave => cases hp
  | register hpoint => exact .inr ⟨_, hpoint, rfl⟩
  | route hpoint | probe hpoint | answer hpoint =>
      rw [hpoint]
      exact .inl rfl
  | advance =>
      left
      unfold advanced at hp
      cases hpoint : s.point w <;> rw [hpoint] at hp
      case idle | claimed | deferring | failingAdmission | cancelling | crashed | leaving =>
        exact hp
      all_goals rfl
  | commit htx =>
      left
      cases hpoint : s.point w <;> rw [hpoint] at htx hp
      case idle | claimed => cases htx
      case deferring | failingAdmission | cancelling | crashed | leaving => cases hp
      all_goals rfl
  | refuse htx =>
      rw [Point.enrolled_of_afterLoop (Point.raised_afterLoop _ htx)] at hp
      cases hp

theorem Moves.job?_before {p : Point} {call : Option ProviderCall} {job : ClaimedJob}
    (hmoves : Moves rack s w a p call) (hidle : s.point w ≠ .idle) (hjob : p.job? = some job) :
    (s.point w).job? = some job := by
  rcases hmoves.job?_cases with hsame | ⟨_, _, _, _, _, _, -, hpoint, -⟩ | ⟨_, -, -, rfl⟩
  · exact hsame.symm.trans hjob
  · exact absurd hpoint hidle
  · cases hjob

/-! ### The row names the candidate admitted last -/

/-- The row of a running job a worker holds names the candidate admitted last. -/
def RowNames (s : World) (w : Owner) : Prop :=
  ∀ c job row, (s.point w).named? = some c → (s.point w).job? = some job →
    s.store.db.jobs.lookup job.jobId = some row → row.leaseOwner = some w →
    row.state ∈ runningStates → row.data.Names c

theorem admitted_names {now : Instant} {totalMs : ℤ} {job : ClaimedJob} {tx : WorkerTx} {db : Db}
    {p : Point} {row : Job} (hadmits : p.admits? = some c) (htx : p.tx totalMs = some (job, tx))
    (hok : tx.run w job.jobId now s.store.db = .ok db)
    (hrow : db.jobs.lookup job.jobId = some row) : row.data.Names c := by
  cases p with
  | admitting | readmitting =>
      cases hadmits
      cases htx
      obtain ⟨row₀, -, -, -, -, hmoved⟩ := Db.fencedMove_row hok
      cases hrow.symm.trans hmoved
      rw [Job.moved_data]
      exact JobData.names_select _ _
  | _ => cases hadmits

theorem RowNames.started {now : Instant} {totalMs : ℤ} {e : ClaimedJob × WorkerTx} {db : Db}
    {row : Job} (h : s.RowNames w) (hnamed : (s.point w).named? = some c)
    (htx : (s.point w).tx totalMs = some e) (hok : e.2.run w e.1.jobId now s.store.db = .ok db)
    (hrow : db.jobs.lookup e.1.jobId = some row) : row.data.Names c := by
  unfold RowNames at h
  cases hpoint : s.point w <;> rw [hpoint] at h hnamed htx
  case starting l =>
    cases htx
    obtain ⟨row₀, hrow₀, hstate, howner, hlegal, hmoved⟩ := Db.fencedMove_row hok
    cases hrow.symm.trans hmoved
    rw [Job.moved_data]
    exact (h c _ row₀ hnamed rfl hrow₀ howner (hstate ▸ running_of_isLegal hlegal)).startValues
      _ _ _
  case checkingAdmitted | gate | counting | checkingToken | checkingRow | calling => cases htx
  all_goals cases hnamed

theorem RowNames.after (hrun : Run (system rack) h s) (henabled : s.Enabled rack a)
    (hnames : s.RowNames w) : (s.after rack a).RowNames w := by
  intro c job row hnamed hjob hrow howner hstate
  have hmoves := moves rack s a w
  rcases hmoves.named hrun hnamed with
    hbefore | ⟨now, totalMs, job', tx, db, rfl, htx, hok, hadmits⟩
  · have hidle : s.point w ≠ .idle := by
      intro hidle
      rw [hidle] at hbefore
      cases hbefore
    have hsame := hmoves.job?_before hidle hjob
    cases hop : s.op a with
    | none =>
        rw [after_quiet hop] at hrow
        exact hnames c job row hbefore hsame hrow howner hstate
    | some op =>
        by_cases hwho : op.writer = .worker w
        · obtain ⟨now, totalMs, e, rfl, htx⟩ := commit_of_writer henabled hop hwho
          cases hsame.symm.trans (Point.job?_of_tx htx)
          cases hok : e.2.run w e.1.jobId now s.store.db with
          | ok db =>
              rw [after_commit htx hok] at hrow
              exact hnames.started hbefore htx hok hrow
          | error x =>
              rw [after_refused htx hok] at hrow
              exact hnames c _ row hbefore hsame hrow howner hstate
        · obtain ⟨row₀, hrow₀, howner₀, hstate₀, hdata⟩ :=
            (after_writes hrun henabled hop job.jobId).running hrow howner hstate hwho
          rw [← hdata]
          exact hnames c job row₀ hbefore hsame hrow₀ howner₀ (hstate₀ ▸ hstate)
  · have hidle : s.point w ≠ .idle := by
      intro hidle
      rw [hidle] at htx
      cases htx
    have hsame : job' = job :=
      Option.some.inj ((Point.job?_of_tx htx).symm.trans (hmoves.job?_before hidle hjob))
    subst hsame
    rw [after_commit htx hok] at hrow
    exact admitted_names hadmits htx hok hrow

/-- **While a worker has its lease, the row of a running job names the candidate admitted last.** -/
theorem row_names (hrun : Run (system rack) h s) (w : Owner) : s.RowNames w := by
  induction hrun with
  | start hs =>
      rw [Set.mem_singleton_iff.1 hs]
      intro c job row hnamed
      cases hnamed
  | step hpast hnext ih =>
      obtain ⟨henabled, rfl⟩ := hnext
      exact ih.after hpast henabled

/-- A worker makes a call with the transaction that moves the row to `executing`. -/
theorem Moves.called {p : Point} {call : Option ProviderCall} {l l₀ : AttemptLoop}
    (hmoves : Moves rack s w a p call) (hcounted : (s.point w).stage? = some (.counted, l₀))
    (hcalling : p.stage? = some (.calling, l)) :
    (∃ now totalMs, a = .commit w now totalMs) ∧ p = .calling l ∧
      ∃ row, (s.after rack a).store.db.jobs.lookup l.job.jobId = some row ∧
        row.leaseOwner = some w ∧ row.state = .executing := by
  cases hmoves with
  | stay => cases hcounted.symm.trans hcalling
  | claim | register | raiseCall | raise | leave => cases hcalling
  | route hpoint | probe hpoint | answer hpoint =>
      rw [hpoint] at hcounted
      cases hcounted
  | advance =>
      unfold advanced at hcalling
      cases hpoint : s.point w <;> rw [hpoint] at hcounted hcalling
      case checkingToken | checkingRow =>
        dsimp only at hcalling
        split_ifs at hcalling <;> cases hcalling
      case starting => cases hcalling
      all_goals cases hcounted
  | refuse htx =>
      rw [Point.stage?_of_afterLoop (Point.raised_afterLoop _ htx)] at hcalling
      cases hcalling
  | commit htx hok =>
      rw [after_commit htx hok]
      cases hpoint : s.point w <;> rw [hpoint] at htx hcounted hcalling
      case starting =>
        cases htx
        cases hcalling
        obtain ⟨row, -, -, howner, -, hmoved⟩ := Db.fencedMove_row hok
        refine ⟨⟨_, _, rfl⟩, rfl, _, hmoved, ?_, Job.moved_state _ _ _ _ _⟩
        rw [Job.moved_leaseOwner]
        exact howner
      case checkingToken | checkingRow => cases htx
      all_goals cases hcounted

end World

/-! ### The entry names it -/

namespace RegisteredWorld

variable {rack : ModelRack} {s : RegisteredWorld} {a : Act} {w : Owner} {j : JobId}
  {c : RankedCandidate} {h : List (Foundations.Step RegisteredWorld Act)}

/-- The three writes of an entry. -/
inductive EntryWrite (s : RegisteredWorld) :
    Act → (Owner × JobId) × Option EntryFacts → Prop
  | register {w : Owner} {job : ClaimedJob} (hpoint : s.point w = .claimed job) :
      EntryWrite s (.register w) ((w, job.jobId), some {})
  | admission {w : Owner} {now : Instant} {totalMs : ℤ} {job : ClaimedJob} {tx : WorkerTx} {db : Db}
      {c : RankedCandidate} (hadmits : (s.point w).admits? = some c)
      (htx : (s.point w).tx totalMs = some (job, tx))
      (hok : tx.run w job.jobId now s.store.db = .ok db) :
      EntryWrite s (.commit w now totalMs)
        ((w, job.jobId), (s.facts (w, job.jobId)).map fun _ => c.entryFacts)
  | leave {w : Owner} {job : ClaimedJob} (hpoint : s.point w = .leaving job) :
      EntryWrite s (.leave w) ((w, job.jobId), none)

theorem entryWrite_spec {e : (Owner × JobId) × Option EntryFacts}
    (h : s.entryWrite a = some e) : s.EntryWrite a e := by
  cases a with
  | register w | leave w =>
      simp only [entryWrite] at h
      split at h
      · cases h
        first
          | exact .register ‹_›
          | exact .leave ‹_›
      · cases h
  | commit w now totalMs =>
      simp only [entryWrite] at h
      split at h
      · split at h
        · cases h
          exact .admission ‹_› ‹_› ‹_›
        · cases h
      · cases h
  | _ => cases h

theorem factsAfter_of_none (h : s.entryWrite a = none) : s.factsAfter a = s.facts := by
  rw [factsAfter, h]
  rfl

theorem factsAfter_of_some {e : (Owner × JobId) × Option EntryFacts}
    (h : s.entryWrite a = some e) : s.factsAfter a = Function.update s.facts e.1 e.2 := by
  rw [factsAfter, h]
  rfl

theorem factsAfter_isSome (hleaving : ∀ job, s.point w ≠ .leaving job)
    (hfacts : (s.facts (w, j)).isSome) : (s.factsAfter a (w, j)).isSome := by
  cases hwrite : s.entryWrite a with
  | none =>
      rw [factsAfter_of_none hwrite]
      exact hfacts
  | some e =>
      rw [factsAfter_of_some hwrite]
      by_cases hkey : (w, j) = e.1
      · rw [hkey, Function.update_self]
        cases entryWrite_spec hwrite with
        | register => rfl
        | admission =>
            rw [hkey] at hfacts
            rwa [Option.isSome_map]
        | leave hpoint =>
            cases hkey
            exact absurd hpoint (hleaving _)
      · rwa [Function.update_of_ne hkey]

theorem factsAfter_named (hnamed : (s.point w).named? = some c) :
    s.factsAfter a (w, j) = s.facts (w, j) := by
  cases hwrite : s.entryWrite a with
  | none => rw [factsAfter_of_none hwrite]
  | some e =>
      rw [factsAfter_of_some hwrite]
      refine Function.update_of_ne ?_ _ _
      intro hkey
      cases entryWrite_spec hwrite with
      | register hpoint | leave hpoint =>
          cases hkey
          rw [hpoint] at hnamed
          cases hnamed
      | admission hadmits =>
          cases hkey
          cases hpoint : s.point w <;> rw [hpoint] at hnamed hadmits
          case admitting | readmitting => cases hnamed
          all_goals cases hadmits

theorem factsAfter_admits {now : Instant} {totalMs : ℤ} {job : ClaimedJob} {tx : WorkerTx} {db : Db}
    (hadmits : (s.point w).admits? = some c) (htx : (s.point w).tx totalMs = some (job, tx))
    (hok : tx.run w job.jobId now s.store.db = .ok db) :
    s.factsAfter (.commit w now totalMs) (w, job.jobId) =
      (s.facts (w, job.jobId)).map fun _ => c.entryFacts := by
  simp [factsAfter, entryWrite, hadmits, htx, hok]

theorem factsAfter_register {job : ClaimedJob} (hpoint : s.point w = .claimed job) :
    s.factsAfter (.register w) (w, job.jobId) = some {} := by
  simp [factsAfter, entryWrite, hpoint]

/-- The entry of a job a worker runs is there and names the candidate admitted last. -/
structure EntryNames (s : RegisteredWorld) (w : Owner) : Prop where
  enrolled : ∀ job, (s.point w).enrolled = true → (s.point w).job? = some job →
    (s.facts (w, job.jobId)).isSome
  named : ∀ c job, (s.point w).named? = some c → (s.point w).job? = some job →
    s.facts (w, job.jobId) = some c.entryFacts

theorem run_world (hrun : Run (system rack) h s) :
    Run (World.system rack) ((simulation rack).history h) s.toWorld := (simulation rack).run hrun

theorem EntryNames.after (hrun : Run (system rack) h s) (hentry : s.EntryNames w) :
    (s.after rack a).EntryNames w := by
  have hmoves := World.moves rack s.toWorld a w
  constructor
  · intro job henrolled hjob
    rcases hmoves.enrolled henrolled with hbefore | ⟨job', hpoint, rfl⟩
    · have hidle : s.point w ≠ .idle := by
        intro hidle
        rw [hidle] at hbefore
        cases hbefore
      refine factsAfter_isSome ?_ (hentry.enrolled job hbefore (hmoves.job?_before hidle hjob))
      intro job' hleaving
      rw [hleaving] at hbefore
      cases hbefore
    · have hsame := hmoves.job?_before (by rw [hpoint]; exact nofun) hjob
      rw [hpoint] at hsame
      cases hsame
      change (s.factsAfter _ _).isSome
      rw [factsAfter_register hpoint]
      rfl
  · intro c job hnamed hjob
    change s.factsAfter a (w, job.jobId) = some c.entryFacts
    rcases hmoves.named (run_world hrun) hnamed with
      hbefore | ⟨now, totalMs, job', tx, db, rfl, htx, hok, hadmits⟩
    · have hidle : s.point w ≠ .idle := by
        intro hidle
        rw [hidle] at hbefore
        cases hbefore
      rw [factsAfter_named hbefore]
      exact hentry.named c job hbefore (hmoves.job?_before hidle hjob)
    · have hidle : s.point w ≠ .idle := by
        intro hidle
        rw [hidle] at htx
        cases htx
      have hjob' := Point.job?_of_tx htx
      cases hjob'.symm.trans (hmoves.job?_before hidle hjob)
      have hthere := hentry.enrolled job' (Point.enrolled_of_admits hadmits) hjob'
      rw [factsAfter_admits hadmits htx hok]
      obtain ⟨facts, hfacts⟩ := Option.isSome_iff_exists.1 hthere
      rw [hfacts]
      rfl

/-- **The entry of a job a worker runs names the candidate admitted last.** -/
theorem entry_names (hrun : Run (system rack) h s) (w : Owner) : s.EntryNames w := by
  induction hrun with
  | start hs =>
      rw [Set.mem_singleton_iff.1 hs]
      constructor
      · intro job henrolled
        cases henrolled
      · intro c job hnamed
        cases hnamed
  | step hpast hnext ih =>
      obtain ⟨-, rfl⟩ := hnext
      exact ih.after hpast

/-! ### The calls -/

/-- A step of the workers, without the facts. -/
def worldStep (e : Foundations.Step RegisteredWorld Act) : Foundations.Step World Act :=
  ⟨e.pre.toWorld, e.act, e.post.toWorld⟩

/-- The row and the entry of the job name the candidate that is being called. -/
def NamesRunning (s : RegisteredWorld) (w : Owner) (l : AttemptLoop) : Prop :=
  (∃ row, s.store.db.jobs.lookup l.job.jobId = some row ∧ row.data.Names l.candidate) ∧
    s.facts (w, l.job.jobId) = some l.candidate.entryFacts

/-- Every call of a history names what it runs on. -/
def CallsNamed (h : List (Foundations.Step RegisteredWorld Act)) : Prop :=
  ∀ e ∈ h, ∀ w l, World.callOf w (worldStep e) = some l → e.post.NamesRunning w l

/-- The first call after an admission is on a candidate like the first one, in all of a history. -/
def FirstCallsAlike (h : List (Foundations.Step RegisteredWorld Act)) : Prop :=
  ∀ e ∈ h, ∀ w l, World.callOf w (worldStep e) = some l →
    l.attemptNumber = l.job.attempt + 1 → l.primary.Alike l.candidate

/-- A call names what it runs on, unless it is the first one and on a candidate unlike the
first. -/
theorem namesRunning_iff {e : Foundations.Step RegisteredWorld Act} {l : AttemptLoop}
    (hpast : Run (system rack) h e.pre) (hnext : (system rack).next e.pre e.act e.post)
    (hcall : World.callOf w (worldStep e) = some l) :
    e.post.NamesRunning w l ↔
      (l.attemptNumber = l.job.attempt + 1 → l.primary.Alike l.candidate) := by
  have hafter := hpast.step hnext
  obtain ⟨-, hpost⟩ := hnext
  obtain ⟨⟨l₀, hcounted⟩, hcalling⟩ := World.callOf_eq_some_iff.1 hcall
  have hmoves := World.moves rack e.pre.toWorld e.act w
  have hworld : e.pre.toWorld.after rack e.act = e.post.toWorld := by
    rw [hpost]
    rfl
  obtain ⟨-, hpoint, row, hrow, howner, hstate⟩ :=
    hmoves.called hcounted (by rw [hworld]; exact hcalling)
  rw [hworld] at hpoint hrow
  have hnamed : (e.post.point w).named? =
      some (if l.attemptNumber = l.job.attempt + 1 then l.primary else l.candidate) := by
    rw [hpoint]
    rfl
  have hjob : (e.post.point w).job? = some l.job := by
    rw [hpoint]
    rfl
  have hnames := World.row_names (run_world hafter) w _ _ row hnamed hjob hrow howner
    (hstate ▸ by decide)
  have hfacts := (entry_names hafter w).named _ _ hnamed hjob
  split_ifs at hnames hfacts with hfirst
  · rw [NamesRunning, hfacts, Option.some.injEq, hrow]
    simpa [hfirst] using names_iff_alike hnames
  · exact ⟨fun _ hfirst' => absurd hfirst' hfirst, fun _ => ⟨⟨row, hrow, hnames⟩, hfacts⟩⟩

/-- **The row and the entry name what a worker calls**, at every call of a run, if and only if every
first call after an admission is on a candidate like the first of the ranking. -/
theorem names_running_iff (hrun : Run (system rack) h s) : CallsNamed h ↔ FirstCallsAlike h := by
  have hcalls : ∀ e ∈ h, ∀ w l, World.callOf w (worldStep e) = some l →
      (e.post.NamesRunning w l ↔
        (l.attemptNumber = l.job.attempt + 1 → l.primary.Alike l.candidate)) := by
    intro e he w l hcall
    obtain ⟨h₂, hpast, hnext⟩ := hrun.past_of_mem he
    exact namesRunning_iff hpast hnext hcall
  constructor
  · intro hnamed e he w l hcall
    exact (hcalls e he w l hcall).1 (hnamed e he w l hcall)
  · intro halike e he w l hcall
    exact (hcalls e he w l hcall).2 (halike e he w l hcall)

/-! ### Two runs -/

theorem commit_of_call {e : Foundations.Step RegisteredWorld Act} {l : AttemptLoop}
    (hnext : (system rack).next e.pre e.act e.post)
    (hcall : World.callOf w (worldStep e) = some l) :
    ∃ now totalMs, e.act = .commit w now totalMs := by
  obtain ⟨-, hpost⟩ := hnext
  obtain ⟨⟨l₀, hcounted⟩, hcalling⟩ := World.callOf_eq_some_iff.1 hcall
  have hworld : e.post.toWorld = e.pre.toWorld.after rack e.act := by
    rw [hpost]
    rfl
  have hmoves := World.moves rack e.pre.toWorld e.act w
  exact (hmoves.called hcounted (by rw [← hworld]; exact hcalling)).1

theorem run_firstCall : Run (system documentedRack)
    (trace (after documentedRack) {} World.firstCall)
    (World.firstCall.foldl (after documentedRack) {}) := by
  refine .replay ⟨⟨trivial, promptSubmission_accepted false⟩, ?_⟩
  repeat' constructor

/-- The row and the entry name the only candidate of the only call. -/
theorem names_running_firstCall :
    CallsNamed (trace (after documentedRack) {} World.firstCall) := by
  refine (names_running_iff run_firstCall).2 ?_
  have hworker : ∀ e ∈ trace (after documentedRack) {} World.firstCall,
      ∀ w now totalMs, e.act = .commit w now totalMs → w = World.soleWorker := by
    refine forall_mem_trace ?_
    repeat' constructor
    all_goals
      rintro _ _ _ ⟨⟩
      try rfl
  have hfirst : ∀ e ∈ trace (after documentedRack) {} World.firstCall,
      ∀ l, World.callOf World.soleWorker (worldStep e) = some l → l.index.val = 0 := by
    refine forall_mem_trace ?_
    repeat' constructor
    all_goals
      rintro _ ⟨⟩
      try rfl
  intro e he w l hcall _
  obtain ⟨-, -, hnext⟩ := run_firstCall.past_of_mem he
  obtain ⟨now, totalMs, hact⟩ := commit_of_call hnext hcall
  cases hworker e he w now totalMs hact
  have hindex : l.index = 0 := Fin.ext (hfirst e he l hcall)
  have hcandidate : l.candidate = l.primary := by
    rw [AttemptLoop.candidate, hindex]
    rfl
  rw [hcandidate]
  exact ⟨rfl, rfl, rfl⟩

/-- Another candidate. -/
def otherCandidate : RankedCandidate where
  canonicalId := "n"
  subjectCanonicalId := "n"
  modelId := "n"

/-- The breaker of the first candidate is being probed, and the second one is called. -/
def probedFirst : List Act :=
  World.firstCall.take 4 ++
    .route World.soleWorker (.routed World.soleCandidate [otherCandidate] 1) ::
    (World.firstCall.drop 5).take 2 ++ .probe World.soleWorker true :: World.firstCall.drop 7

/-- The row names the candidate that was skipped. -/
theorem skipped_named : ¬ ∀ h s, Run (system documentedRack) h s → CallsNamed h := by
  intro hclaim
  have hrun : Run (system documentedRack) (trace (after documentedRack) {} probedFirst)
      (probedFirst.foldl (after documentedRack) {}) := by
    refine .replay ⟨⟨trivial, promptSubmission_accepted false⟩, ?_⟩
    repeat' constructor
  obtain ⟨⟨row, hrow, hnames⟩, -⟩ :=
    hclaim _ _ hrun _ List.mem_cons_self World.soleWorker _ rfl
  cases hrow
  exact absurd hnames.model (by decide)

end RegisteredWorld

end LoadCoach

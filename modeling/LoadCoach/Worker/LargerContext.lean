import LoadCoach.Worker.Attempts
import LoadCoach.Worker.Stages

/-! # After a context limit

A fallback after a context limit goes to a candidate that serves more.  The requirement is an
argument of one call of `next_candidate_index`: where that candidate's breaker is being probed, the
loop skips it by a second call that only goes down the ranking, and what the limit asked for is
gone.

`pendingLimit` reads off a history which context a worker's last call was too much for, while no
call has been made since.

* `calls_larger`: in a run in which no skip under a pending limit ends at a candidate that does not
  serve more, every call under a pending limit is on one that does. -/

namespace LoadCoach

open Foundations

/-- The provider said that the context was too small. -/
def AttemptOutcome.contextLimited (o : AttemptOutcome) : Bool :=
  o.failure.any fun failure => classifyFailure failure == .contextLimit

namespace World

variable {rack : ModelRack} {s : World} {a : Act} {w : Owner} {σ σ' : LoopStage}
  {l l' : AttemptLoop} {h : List (Foundations.Step World Act)} {e : Foundations.Step World Act}

/-- The context of the candidate whose attempt a step gives up for a context limit. -/
def limitOf (w : Owner) (e : Foundations.Step World Act) : Option ℕ :=
  match e.pre.point w, e.act with
  | .deciding l o, .advance w' =>
      if w' = w ∧ o.contextLimited then some l.candidate.servedContext else none
  | _, _ => none

/-- The context limit of the worker's last call, as long as it is in the loop and has made no other
call. -/
def pendingLimit (w : Owner) : List (Foundations.Step World Act) → Option ℕ
  | [] => none
  | e :: h =>
      match limitOf w e with
      | some c => some c
      | none =>
          if (callOf w e).isSome || (e.post.point w).stage?.isNone then none else pendingLimit w h

/-- Every call under a pending limit is on a candidate that serves more. -/
def LargerCalls (w : Owner) (h : List (Foundations.Step World Act)) : Prop :=
  ∀ h₁ e h₂ l, h = h₁ ++ e :: h₂ → callOf w e = some l →
    ∀ c ∈ pendingLimit w h₂, c < l.candidate.servedContext

/-- Every skip under a pending limit ends at a candidate that serves more. -/
def LargerSkips (w : Owner) (h : List (Foundations.Step World Act)) : Prop :=
  ∀ h₁ e h₂ l, h = h₁ ++ e :: h₂ → e.pre.point w = .gate l → e.act = .probe w true →
    ∀ c ∈ pendingLimit w h₂, ∀ i ∈ l.nextIndex false, c < (l.candidateAt i).servedContext

/-- Where a loop may stand under a pending limit, and that its candidate serves more. -/
def Seeks (c : ℕ) (σ : LoopStage) (l : AttemptLoop) : Prop :=
  match σ with
  | .gate | .readmission | .ready | .counted => c < l.candidate.servedContext
  | .calling | .answered => False
  | .ending => True

/-! ### One step -/

theorem decided_larger {o : AttemptOutcome} (hlimited : o.contextLimited = true) :
    (∃ code, Point.decided l o = .failing l code) ∨
      ∃ i, Point.decided l o = .gate { l with index := i } ∧
        l.candidate.servedContext < (l.candidateAt i).servedContext := by
  obtain ⟨failure, hfailure, hkind⟩ := (Option.any_eq_true _ _).1 hlimited
  have hkind : classifyFailure failure = .contextLimit := by simpa using hkind
  cases hnext : l.nextIndex true with
  | none =>
      refine .inl ⟨"ALL_CANDIDATES_FAILED", ?_⟩
      simp [Point.decided, hfailure, hkind, nextAction, hnext]
  | some i =>
      refine .inr ⟨i, ?_, (nextCandidateIndex_spec hnext).2 rfl⟩
      simp [Point.decided, hfailure, hkind, nextAction, hnext]

/-- **The candidate changes at the gate by a skip alone.** -/
theorem Moves.skip {p : Point} {call : Option ProviderCall} (hmoves : Moves rack s w a p call)
    (hpre : (s.point w).stage? = some (.gate, l)) (hpost : p.stage? = some (.gate, l')) :
    l'.candidate = l.candidate ∨
      (s.point w = .gate l ∧ a = .probe w true ∧
        ∃ i ∈ l.nextIndex false, l'.candidate = l.candidateAt i) := by
  cases hmoves with
  | stay =>
      cases hpre.symm.trans hpost
      exact .inl rfl
  | claim | register | leave | raiseCall | raise => cases hpost
  | route hpoint | answer hpoint =>
      rw [hpoint] at hpre
      cases hpre
  | @probe _ busy hpoint =>
      rw [hpoint] at hpre
      cases hpre
      cases busy with
      | true =>
          right
          rw [if_pos rfl, Point.probeBusy] at hpost
          dsimp only at hpost
          split at hpost
          · cases hpost
          · rename_i index hnext
            cases hpost
            exact ⟨hpoint, rfl, index, hnext, rfl⟩
      | false =>
          rw [if_neg (by simp), Point.enter] at hpost
          dsimp only at hpost
          split_ifs at hpost
          · cases hpost
          · rw [Point.readmitJob_stage?] at hpost
            cases hpost
  | advance =>
      left
      unfold advanced at hpost
      cases hpoint : s.point w <;> rw [hpoint] at hpre hpost
      case admitting | gate =>
        cases hpre
        cases hpost
        rfl
      case checkingAdmitted =>
        cases hpre
        dsimp only at hpost
        split_ifs at hpost
        · cases hpost
        · cases hpost
          rfl
      all_goals cases hpre
  | commit htx =>
      left
      cases hpoint : s.point w <;> rw [hpoint] at htx hpre hpost
      case admitting =>
        cases hpre
        cases hpost
        rfl
      case checkingAdmitted | gate => cases htx
      all_goals cases hpre
  | refuse htx =>
      rw [Point.stage?_of_afterLoop (Point.raised_afterLoop _ htx)] at hpost
      cases hpost

theorem Seeks.step {c : ℕ} (hseeks : Seeks c σ l) (hstep : LoopStep l σ σ' l')
    (hgate : σ' ≠ .gate) (hcall : σ' ≠ .calling) : Seeks c σ' l' := by
  cases hstep with
  | keep | enter | reenter | readmitted | count => exact hseeks
  | skip | fallback => exact absurd rfl hgate
  | call => exact absurd rfl hcall
  | answer | retry => cases hseeks
  | finish => trivial

/-! ### Whole runs -/

theorem LargerSkips.tail (hskips : LargerSkips w (e :: h)) : LargerSkips w h := by
  rintro h₁ e' h₂ l rfl
  exact hskips (e :: h₁) e' h₂ l rfl

theorem seeks_of_limit {c : ℕ} (hnext : (system rack).next e.pre e.act e.post)
    (hlimit : limitOf w e = some c) :
    ∃ σ l, (e.post.point w).stage? = some (σ, l) ∧ Seeks c σ l := by
  unfold limitOf at hlimit
  split at hlimit
  · rename_i l o w' hpoint hact
    split_ifs at hlimit with hlimited
    obtain ⟨rfl, hlimited⟩ := hlimited
    cases hlimit
    have hpost : e.post.point w' = Point.decided l o := by
      rw [hnext.2, hact]
      simp [after, control, advanced, hpoint]
    rw [hpost]
    rcases decided_larger hlimited with ⟨code, hfailing⟩ | ⟨i, hgate, hlarger⟩
    · exact ⟨.ending, l, by rw [hfailing]; rfl, trivial⟩
    · exact ⟨.gate, { l with index := i }, by rw [hgate]; rfl, hlarger⟩
  · cases hlimit

/-- **Under a pending limit the loop is on its way to a candidate that serves more.** -/
theorem seeks (hrun : Run (system rack) h s) (hskips : LargerSkips w h) :
    ∀ c ∈ pendingLimit w h, ∃ σ l, (s.point w).stage? = some (σ, l) ∧ Seeks c σ l := by
  induction hrun with
  | start => exact nofun
  | @step h s s' a hpast hnext ih =>
      intro c hc
      have hmoves := moves rack s a w
      rw [← hnext.2] at hmoves
      rw [Option.mem_def, pendingLimit] at hc
      split at hc
      · rename_i c' hlimit
        cases hc
        exact seeks_of_limit hnext hlimit
      · split_ifs at hc with hout
        simp only [Bool.or_eq_true, not_or, Bool.not_eq_true, Option.isSome_eq_false_iff,
          Option.isNone_iff_eq_none] at hout
        obtain ⟨hcall, hin⟩ := hout
        obtain ⟨σ, l, hpre, hseeks⟩ := ih hskips.tail c hc
        rcases hmoves.loop hpre with hbehind | ⟨σ', l', hpost, hstep⟩
        · rw [Point.stage?_of_afterLoop hbehind] at hin
          exact absurd rfl hin
        · refine ⟨σ', l', hpost, ?_⟩
          by_cases hgate : σ' = .gate
          · subst hgate
            rcases hstep.from_gate with rfl | rfl
            · rcases hmoves.skip hpre hpost with hsame | ⟨hpoint, hact, i, hi, hcandidate⟩
              · rw [Seeks, hsame]
                exact hseeks
              · rw [Seeks, hcandidate]
                exact hskips [] _ h l rfl hpoint hact c hc i hi
            · cases hseeks
          · refine hseeks.step hstep hgate ?_
            rintro rfl
            have hne : σ ≠ .calling := by
              rintro rfl
              cases hseeks
            obtain ⟨rfl, -⟩ := hstep.to_call hne
            rw [callOf_eq_some_iff.2 ⟨⟨l, hpre⟩, hpost⟩] at hcall
            cases hcall

/-- **After a context limit a larger candidate is called**, in every run in which no skip under a
pending limit ends at a candidate that does not serve more. -/
theorem calls_larger (hrun : Run (system rack) h s) (hskips : LargerSkips w h) :
    LargerCalls w h := by
  rintro h₁ e h₂ l rfl hcall c hc
  obtain ⟨hpast, hnext, -⟩ := hrun.past
  have hbefore : LargerSkips w h₂ := by
    rintro h₃ e' h₄ l' rfl
    exact hskips (h₁ ++ e :: h₃) e' h₄ l' (by simp)
  obtain ⟨σ, l₀, hpre, hseeks⟩ := seeks hpast hbefore c hc
  obtain ⟨⟨l₁, hcounted⟩, hcalling⟩ := callOf_eq_some_iff.1 hcall
  cases hcounted.symm.trans hpre
  have hmoves := moves rack e.pre e.act w
  rw [← hnext.2] at hmoves
  rcases hmoves.loop hpre with hbehind | ⟨σ', l', hpost, hstep⟩
  · rw [Point.stage?_of_afterLoop hbehind] at hcalling
    cases hcalling
  · cases hcalling.symm.trans hpost
    rw [(hstep.to_call nofun).2]
    exact hseeks

/-! ### Two runs -/

/-- A candidate that serves a context. -/
def candidateServing (servedContext : ℕ) : RankedCandidate := { soleCandidate with servedContext }

/-- The first of three candidates is called, and its context is too small. -/
def limited : List Act :=
  firstCall.take 4 ++
    .route soleWorker
      (.routed (candidateServing 8192) [candidateServing 32768, candidateServing 4096] 1) ::
    firstCall.drop 5 ++
    [.answer soleWorker { failure := some { kind := .contextLimitExceeded } },
     .advance soleWorker,
     .commit soleWorker 3 0,
     .advance soleWorker]

/-- A fallback is entered and called. -/
def fallbackCall : List Act :=
  [.probe soleWorker false,
   .advance soleWorker,
   .commit soleWorker 4 0,
   .advance soleWorker,
   .advance soleWorker,
   .advance soleWorker,
   .commit soleWorker 5 0]

/-- The larger candidate is called. -/
theorem calls_larger_fallback :
    LargerCalls soleWorker (trace (after documentedRack) {} (limited ++ fallbackCall)) := by
  have hrun : Run (system documentedRack)
      (trace (after documentedRack) {} (limited ++ fallbackCall))
      ((limited ++ fallbackCall).foldl (after documentedRack) {}) := by
    refine .replay ⟨⟨trivial, promptSubmission_accepted false⟩, ?_⟩
    repeat' constructor
  have hnone : ∀ e ∈ trace (after documentedRack) {} (limited ++ fallbackCall),
      e.act ≠ .probe soleWorker true := by
    refine forall_mem_trace ?_
    repeat' constructor
    all_goals exact nofun
  refine calls_larger hrun ?_
  rintro h₁ e h₂ l heq - hact
  exact absurd hact (hnone e (by rw [heq]; simp))

/-- The breaker of the larger candidate is being probed, and a smaller one than the first is
called. -/
theorem smaller_called : ¬ ∀ h s, Run (system documentedRack) h s → ∀ w, LargerCalls w h := by
  intro hclaim
  have hrun : Run (system documentedRack)
      (trace (after documentedRack) {} (limited ++ .probe soleWorker true :: fallbackCall))
      ((limited ++ .probe soleWorker true :: fallbackCall).foldl (after documentedRack) {}) := by
    refine .replay ⟨⟨trivial, promptSubmission_accepted false⟩, ?_⟩
    repeat' constructor
  have hcontext := hclaim _ _ hrun soleWorker [] _ _ _ rfl rfl 8192 rfl
  have hsmaller : ¬ 8192 < (candidateServing 4096).servedContext := by decide
  exact hsmaller hcontext

end World

end LoadCoach

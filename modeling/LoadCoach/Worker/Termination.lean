import LoadCoach.Worker.Attempts
import LoadCoach.Worker.Stages

/-! # The budget of the attempt loop

What a worker does between the admission of a job and the removal of its entry is bounded by four
numbers that go down: the calls the job has left (`callsLeft`), the calls a candidate has left
(`callsLeftOn`), the candidates behind the present one, and the statements that are left
(`Point.fuel`).

* `attempts_within_budget`: in every run a worker makes at most `max_attempts - attempt` calls after
  an admission, never goes back to an earlier candidate, calls none more often than its limit and
  twice, and comes to the end of the loop. -/

namespace LoadCoach

open Foundations

/-! ### Statements -/

namespace Point

/-- The statements of a turn of the loop, weighed with the turns that are left. -/
def turns (l : AttemptLoop) : ℕ :=
  16 * ((l.job.maxAttempts - l.attemptNumber) + (l.fallbacks.length - l.index.val))

/-- A bound on the statements a worker has left on its job, once that is admitted. -/
def fuel : Point → ℕ
  | admitting l => turns l + 11
  | checkingAdmitted l => turns l + 10
  | gate l => turns l + 9
  | startingRetry l _ => turns l + 8
  | resuming l _ => turns l + 7
  | readmitting l _ => turns l + 6
  | counting l => turns l + 5
  | checkingToken l => turns l + 15
  | checkingRow l => turns l + 14
  | starting l => turns l + 13
  | calling l => turns l + 12
  | settling l _ => turns l + 11
  | recording l _ => turns l + 10
  | deciding l _ => turns l + 9
  | requeueing _ | completing .. | failing .. => 4
  | cancelling .. => 3
  | crashed .. => 2
  | leaving _ => 1
  | _ => 0

/-- From the admission of a job to the removal of its entry. -/
def Admitted (p : Point) : Prop := p.stage? ≠ none ∨ p.afterLoop = true

theorem turns_next {l : AttemptLoop} {larger : Bool} {index : Fin (l.fallbacks.length + 1)}
    (hnext : l.nextIndex larger = some index) : turns { l with index } + 16 ≤ turns l := by
  have hlater : l.index.val < index.val := (nextCandidateIndex_spec hnext).1
  have hbound := index.isLt
  simp only [turns]
  omega

theorem readmitJob_fuel (l : AttemptLoop) (reason : String) :
    (readmitJob l reason).fuel ≤ turns l + 8 := by
  unfold readmitJob
  split_ifs <;> simp [fuel]

theorem enter_fuel (l : AttemptLoop) : (enter l).fuel < turns l + 9 := by
  unfold enter
  dsimp only
  split_ifs
  · simp [fuel, turns]
  · have := readmitJob_fuel { l with attemptsHere := 0 } "fallback"
    simp only [turns] at this ⊢
    omega

theorem probeBusy_fuel (l : AttemptLoop) : (probeBusy l).fuel < turns l + 9 := by
  unfold probeBusy
  dsimp only
  split
  · simp only [fuel]
    omega
  · rename_i index hnext
    have hturns := turns_next hnext
    simp only [fuel, turns] at hturns ⊢
    omega

theorem decided_fuel (l : AttemptLoop) (o : AttemptOutcome) :
    (decided l o).fuel < turns l + 9 := by
  unfold decided
  dsimp only
  split
  · simp only [fuel]
    omega
  · split_ifs
    · simp only [fuel]
      omega
    · exact Nat.lt_succ_of_le (readmitJob_fuel l _)
  · split
    · simp only [fuel]
      omega
    · rename_i index hnext
      have hturns := turns_next hnext
      simp only [fuel]
      omega

theorem committed_fuel {p : Point} {totalMs : ℤ} {e : ClaimedJob × WorkerTx}
    (htx : p.tx totalMs = some e) (hadmitted : p.Admitted) : p.committed.fuel < p.fuel := by
  cases p with
  | recording l o =>
      simp only [committed]
      split_ifs <;> simp only [fuel, turns] <;> omega
  | deferring | failingAdmission => simp [Admitted, stage?, afterLoop] at hadmitted
  | admitting | startingRetry | readmitting | starting => simp [committed, fuel, turns]
  | requeueing | completing | failing | cancelling | crashed => simp [committed, fuel]
  | _ => cases htx

theorem raised_fuel {p : Point} {totalMs : ℤ} {e : ClaimedJob × WorkerTx} (x : Raised)
    (htx : p.tx totalMs = some e) (hadmitted : p.Admitted) : (p.raised x).fuel < p.fuel := by
  have hjob := job?_of_tx htx
  cases p with
  | crashed => simp [raised, fuel]
  | deferring | failingAdmission => simp [Admitted, stage?, afterLoop] at hadmitted
  | admitting | startingRetry | readmitting | starting | recording | requeueing | completing |
    failing | cancelling =>
      simp only [raised, hjob]
      split_ifs <;> simp only [fuel] <;> omega
  | _ => cases htx

end Point

/-! ### Calls -/

namespace LoopStage

/-- The calls a job has left. -/
def callsLeft (σ : LoopStage) (l : AttemptLoop) : ℕ :=
  l.job.maxAttempts - l.attemptNumber + if σ = .counted then 1 else 0

/-- The calls the candidate the loop is at has left. -/
def callsHere (σ : LoopStage) (l : AttemptLoop) : ℕ :=
  match σ with
  | .gate => l.limit
  | .counted => l.limit - l.attemptsHere + 1
  | .readmission | .ready | .calling | .answered => l.limit - l.attemptsHere
  | .ending => 0

/-- The calls a candidate of the ranking has left. -/
def callsLeftOn (i : ℕ) (σ : LoopStage) (l : AttemptLoop) : ℕ :=
  if l.index.val < i then l.limit else if l.index.val = i then σ.callsHere l else 0

end LoopStage

namespace LoopStep

variable {σ σ' : LoopStage} {l l' : AttemptLoop}

theorem limit_eq (hstep : LoopStep l σ σ' l') : l'.limit = l.limit := by
  cases hstep <;> rfl

theorem index_le (hstep : LoopStep l σ σ' l') : l.index.val ≤ l'.index.val := by
  cases hstep with
  | skip _ hnext | fallback _ hnext => exact (nextCandidateIndex_spec hnext).1.le
  | _ => exact le_rfl

theorem callsLeft_le (hstep : LoopStep l σ σ' l') :
    σ'.callsLeft l' + (if σ = .counted ∧ σ' = .calling then 1 else 0) ≤ σ.callsLeft l := by
  cases hstep with
  | keep => cases σ <;> simp [LoopStage.callsLeft, AttemptLoop.noting]
  | count hroom =>
      simp only [LoopStage.callsLeft]
      simp
      omega
  | finish =>
      cases σ <;> simp [LoopStage.callsLeft]
  | _ => simp [LoopStage.callsLeft]

theorem callsHere_le (hstep : LoopStep l σ σ' l') (hpaced : σ.Paced l)
    (hindex : l'.index.val = l.index.val) :
    σ'.callsHere l' + (if σ = .counted ∧ σ' = .calling then 1 else 0) ≤ σ.callsHere l := by
  cases hstep with
  | keep => cases σ <;> simp [LoopStage.callsHere, AttemptLoop.noting, AttemptLoop.limit]
  | skip _ hnext | fallback _ hnext =>
      have hlater := (nextCandidateIndex_spec hnext).1
      exact absurd hindex (Fin.val_ne_of_ne hlater.ne')
  | count hroom =>
      have hlimit := hpaced.2.1
      simp [LoopStage.callsHere, AttemptLoop.limit] at hlimit ⊢
      omega
  | finish => cases σ <;> simp [LoopStage.callsHere]
  | _ => simp [LoopStage.callsHere, AttemptLoop.limit]

theorem gate_of_index_ne (hstep : LoopStep l σ σ' l') (hindex : l'.index.val ≠ l.index.val) :
    σ' = .gate := by
  cases hstep with
  | skip | fallback => rfl
  | _ => exact absurd rfl hindex

theorem callsLeftOn_le (hstep : LoopStep l σ σ' l') (hpaced : σ.Paced l) (i : ℕ) :
    σ'.callsLeftOn i l' + (if (σ = .counted ∧ σ' = .calling) ∧ l'.index.val = i then 1 else 0) ≤
      σ.callsLeftOn i l := by
  have hle := hstep.index_le
  have hlimit := hstep.limit_eq
  unfold LoopStage.callsLeftOn
  by_cases hsame : l'.index.val = l.index.val
  · have hhere := hstep.callsHere_le hpaced hsame
    rw [hsame, hlimit]
    by_cases hi : l.index.val = i
    · simpa [hi] using hhere
    · simp [hi]
  · have hgate := hstep.gate_of_index_ne hsame
    subst hgate
    simp only [LoopStage.callsHere, reduceCtorEq, and_false, false_and, if_false, hlimit]
    split_ifs <;> omega

end LoopStep

namespace World

variable {rack : ModelRack} {s : World} {a : Act} {w : Owner}
  {h₁ h₂ : List (Foundations.Step World Act)} {e : Foundations.Step World Act}

/-- The candidates a worker's loop was at in a history, the newest first. -/
def indicesOf (w : Owner) (h : List (Foundations.Step World Act)) : List ℕ :=
  h.filterMap fun e => (e.post.point w).stage?.map fun at' => at'.2.index.val

/-- A worker's statement has gone on with a step. -/
def goesOn (w : Owner) (e : Foundations.Step World Act) : Bool :=
  decide ((e.post.point w).fuel < (e.pre.point w).fuel)

/-! ### The end of the loop -/

theorem advanced_fuel (hadmitted : (s.point w).Admitted) :
    s.advanced w = s.point w ∨ (s.advanced w).fuel < (s.point w).fuel := by
  unfold advanced
  cases hpoint : s.point w <;> dsimp only
  case checking => simp [hpoint, Point.Admitted, Point.stage?, Point.afterLoop] at hadmitted
  case checkingAdmitted | resuming | checkingToken | checkingRow | settling =>
    right
    split_ifs <;> simp only [Point.fuel] <;> omega
  case counting l =>
    right
    split_ifs with hmax
    · simp only [Point.fuel]
      omega
    · simp only [Point.fuel, Point.turns]
      omega
  case deciding l o => exact .inr (Point.decided_fuel l o)
  all_goals exact .inl rfl

/-- **Every statement of an admitted job has fewer behind it.** -/
theorem Moves.fuel {p : Point} {call : Option ProviderCall} (hmoves : Moves rack s w a p call)
    (hadmitted : (s.point w).Admitted) : p = s.point w ∨ p.fuel < (s.point w).fuel := by
  cases hmoves with
  | stay => exact .inl rfl
  | claim hpoint | register hpoint | route hpoint =>
      simp [hpoint, Point.Admitted, Point.stage?, Point.afterLoop] at hadmitted
  | @probe l busy hpoint =>
      right
      rw [hpoint]
      cases busy
      · exact Point.enter_fuel l
      · exact Point.probeBusy_fuel l
  | advance => exact advanced_fuel hadmitted
  | commit htx => exact .inr (Point.committed_fuel htx hadmitted)
  | refuse htx => exact .inr (Point.raised_fuel _ htx hadmitted)
  | answer hpoint | raiseCall hpoint =>
      right
      rw [hpoint]
      simp only [Point.fuel, Point.turns]
      omega
  | raise hjob hcalling hleaving hcrashed =>
      right
      cases hpoint : s.point w
      case leaving job => exact (hleaving job hpoint).elim
      case crashed job code text => exact (hcrashed job code text hpoint).elim
      all_goals
        first
          | (simp [hpoint, Point.Admitted, Point.stage?, Point.afterLoop] at hadmitted; done)
          | (simp only [Point.fuel]; omega)
  | leave hpoint =>
      right
      rw [hpoint]
      simp [Point.fuel]

theorem Moves.admitted {p : Point} {call : Option ProviderCall} (hmoves : Moves rack s w a p call)
    (hadmitted : (s.point w).Admitted) : p = .idle ∨ p.Admitted := by
  cases hstage : (s.point w).stage? with
  | some at₀ =>
      rcases hmoves.loop hstage with hout | ⟨σ', l', hafter, -⟩
      · exact .inr (.inr hout)
      · exact .inr (.inl (by simp [hafter]))
  | none =>
      have hout := hadmitted.resolve_left (by simp [hstage])
      cases hmoves with
      | stay => exact .inr hadmitted
      | leave => exact .inl rfl
      | refuse htx => exact .inr (.inr (Point.raised_afterLoop _ htx))
      | raise | raiseCall => exact .inr (.inr rfl)
      | claim hpoint | register hpoint | route hpoint | probe hpoint | answer hpoint =>
          rw [hpoint] at hout
          cases hout
      | commit htx =>
          right
          right
          cases hpoint : s.point w <;> rw [hpoint] at hout htx
          case cancelling | crashed => rfl
          case leaving => cases htx
          all_goals cases hout
      | advance =>
          right
          right
          unfold advanced
          cases hpoint : s.point w <;> rw [hpoint] at hout
          case cancelling | crashed | leaving => rfl
          all_goals cases hout

/-- The act that takes a worker on from a point. -/
def nextAct (w : Owner) : Point → Act
  | .gate _ => .probe w false
  | .calling _ => .answer w {}
  | .leaving _ => .leave w
  | .checkingAdmitted _ | .resuming .. | .counting _ | .checkingToken _ | .checkingRow _
  | .settling .. | .deciding .. => .advance w
  | _ => .commit w 0 0

/-- **A worker is never stuck on an admitted job.** -/
theorem exists_act (hadmitted : (s.point w).Admitted) :
    ∃ a, s.Enabled rack a ∧ ((s.after rack a).point w).fuel < (s.point w).fuel := by
  refine ⟨nextAct w (s.point w), ?_, ?_⟩
  · cases s.point w <;> trivial
  · have hcommit : (s.point w).tx 0 ≠ none →
        ((s.after rack (.commit w 0 0)).point w).fuel < (s.point w).fuel := by
      intro htx
      obtain ⟨e, htx⟩ := Option.ne_none_iff_exists'.1 htx
      rcases commit_point htx with h | ⟨x, h⟩
      · rw [h]
        exact Point.committed_fuel htx hadmitted
      · rw [h]
        exact Point.raised_fuel x htx hadmitted
    have hadvance : s.advanced w ≠ s.point w →
        ((s.after rack (.advance w)).point w).fuel < (s.point w).fuel := by
      intro hne
      have hpoint : (s.after rack (.advance w)).point w = s.advanced w := by
        simp [World.after, control]
      rw [hpoint]
      exact (advanced_fuel hadmitted).resolve_left hne
    cases hpoint : s.point w
    case gate l =>
      have hafter : (s.after rack (.probe w false)).point w = Point.enter l := by
        simp [World.after, control, hpoint]
      rw [nextAct, hafter]
      exact Point.enter_fuel l
    case calling l =>
      have hafter : ∃ l' o, (s.after rack (.answer w {})).point w = .settling l' o ∧
          Point.turns l' = Point.turns l := by
        simp [World.after, control, hpoint, Point.turns]
      obtain ⟨l', o, hafter, hturns⟩ := hafter
      rw [nextAct, hafter, Point.fuel, Point.fuel, hturns]
      omega
    case leaving job =>
      have hafter : (s.after rack (.leave w)).point w = .idle := by
        simp [World.after, control, hpoint]
      rw [nextAct, hafter]
      exact Nat.one_pos
    case checkingAdmitted | resuming | counting | checkingToken | checkingRow | settling =>
      rw [hpoint] at hadvance
      refine hadvance ?_
      unfold advanced
      rw [hpoint]
      dsimp only
      split_ifs <;> simp
    case deciding l o =>
      rw [hpoint] at hadvance
      refine hadvance fun heq => ?_
      have hdecided : s.advanced w = Point.decided l o := by
        simp [advanced, hpoint]
      have hfuel := Point.decided_fuel l o
      rw [← hdecided, heq] at hfuel
      exact lt_irrefl _ hfuel
    case admitting | startingRetry | readmitting | starting | recording | requeueing |
      completing | failing | cancelling | crashed =>
        rw [hpoint] at hcommit
        exact hcommit (by simp [Point.tx])
    all_goals simp [hpoint, Point.Admitted, Point.stage?, Point.afterLoop] at hadmitted

/-! ### The bounds -/

/-- A number of the loop, in the world; out of the loop it is zero. -/
def potential (f : LoopStage → AttemptLoop → ℕ) (w : Owner) (s : World) : ℕ :=
  (s.point w).stage?.elim 0 fun at' => f at'.1 at'.2

/-- A number that every step of the loop keeps, and every call that is marked lowers. -/
def Lowers (f : LoopStage → AttemptLoop → ℕ) (mark : AttemptLoop → Bool) : Prop :=
  ∀ σ l σ' l', LoopStep l σ σ' l' → σ.Paced l →
    f σ' l' + (if (σ = .counted ∧ σ' = .calling) ∧ mark l' = true then 1 else 0) ≤ f σ l

theorem Lowers.step {f : LoopStage → AttemptLoop → ℕ} {mark : AttemptLoop → Bool}
    (hf : Lowers f mark) (hpast : Run (system rack) h₂ e.pre)
    (hnext : (system rack).next e.pre e.act e.post) (hadmitted : (e.pre.point w).Admitted) :
    potential f w e.post + (if (callOf w e).any mark then 1 else 0) ≤ potential f w e.pre := by
  have hmoves := moves rack e.pre e.act w
  rw [← hnext.2] at hmoves
  have hcall : ∀ l, callOf w e = some l → (∃ l₀, (e.pre.point w).stage? = some (.counted, l₀)) ∧
      (e.post.point w).stage? = some (.calling, l) := fun l => callOf_eq_some_iff.1
  cases hpre : (e.pre.point w).stage? with
  | none =>
      have hpost : (e.post.point w).stage? = none := by
        cases hpost : (e.post.point w).stage? with
        | none => rfl
        | some at₁ =>
            obtain ⟨-, -, -, -, hrouting⟩ := hmoves.loop_begins hpre hpost
            simp [hrouting, Point.Admitted, Point.stage?, Point.afterLoop] at hadmitted
      cases hcalled : callOf w e with
      | none => simp [potential, hpost]
      | some l =>
          have := (hcall l hcalled).2
          rw [hpost] at this
          cases this
  | some at₀ =>
      obtain ⟨σ, l⟩ := at₀
      rcases hmoves.loop hpre with hout | ⟨σ', l', hpost, hstep⟩
      · have hnone := Point.stage?_of_afterLoop hout
        cases hcalled : callOf w e with
        | none => simp [potential, hnone]
        | some l =>
            have := (hcall l hcalled).2
            rw [hnone] at this
            cases this
      · have hle := hf σ l σ' l' hstep (paced hpast hpre)
        simp only [potential, hpre, hpost, Option.elim_some]
        cases hcalled : callOf w e with
        | none =>
            simp only [Option.any_none, Bool.false_eq_true, if_false]
            omega
        | some l₁ =>
            obtain ⟨⟨l₀, hcounted⟩, hcalling⟩ := hcall l₁ hcalled
            cases hcounted.symm.trans hpre
            cases hcalling.symm.trans hpost
            simpa using hle

theorem lowers_callsLeft : Lowers LoopStage.callsLeft fun _ => true := by
  intro σ l σ' l' hstep _
  simpa using hstep.callsLeft_le

theorem lowers_callsLeftOn (i : ℕ) :
    Lowers (LoopStage.callsLeftOn i) fun l => decide (l.index.val = i) := by
  intro σ l σ' l' hstep hpaced
  simpa using hstep.callsLeftOn_le hpaced i

/-- What a worker has done since it was given a job: the statements since the router's verdict,
the entry not removed in between. -/
structure Since (w : Owner) (l : AttemptLoop) (e : Foundations.Step World Act)
    (h : List (Foundations.Step World Act)) : Prop where
  routed : (e.pre.point w).stage? = none
  admitting : e.post.point w = .admitting l
  onJob : ∀ e' ∈ h, e'.pre.point w ≠ .idle

theorem Since.admitted {l : AttemptLoop} (hsince : Since w l e h₁)
    (hrun : Run (system rack) (h₁ ++ e :: h₂) s) :
    (s.point w = .idle ∨ (s.point w).Admitted) ∧ ∀ e' ∈ h₁, (e'.pre.point w).Admitted := by
  have hstable := hrun.stable
    (P := fun s => s.point w = .idle ∨ (s.point w).Admitted) (.inr ?_) ?_
  · refine ⟨hstable.1, fun e' he' => ?_⟩
    exact (hstable.2 e' he').1.resolve_left (hsince.onJob e' he')
  · rw [hsince.admitting]
    exact .inl nofun
  · intro e' he' hpre
    obtain ⟨h₃, -, hnext⟩ := hrun.past_of_mem (List.mem_append_left _ he')
    have hmoves := moves rack e'.pre e'.act w
    rw [← hnext.2] at hmoves
    exact hmoves.admitted (hpre.resolve_left (hsince.onJob e' he'))

theorem Since.countP_le {l : AttemptLoop} {f : LoopStage → AttemptLoop → ℕ}
    {mark : AttemptLoop → Bool} (hsince : Since w l e h₁)
    (hrun : Run (system rack) (h₁ ++ e :: h₂) s) (hf : Lowers f mark) :
    (callsOf w h₁).countP mark ≤ f .gate l := by
  have hpotential : potential f w e.post = f .gate l := by
    rw [potential, hsince.admitting]
    rfl
  have hbound := hrun.countP_add_le (φ := potential f w)
    (p := fun e' => (callOf w e').any mark) fun e' he' => by
      obtain ⟨h₃, hpast, hnext⟩ := hrun.past_of_mem (List.mem_append_left _ he')
      exact hf.step hpast hnext ((hsince.admitted hrun).2 e' he')
  rw [hpotential] at hbound
  have hcount : (callsOf w h₁).countP mark = h₁.countP fun e' => (callOf w e').any mark := by
    rw [callsOf, List.countP_filterMap]
    exact List.countP_congr fun e' _ => by cases callOf w e' <;> simp
  omega

theorem Since.forward {l : AttemptLoop} (hsince : Since w l e h₁)
    (hrun : Run (system rack) (h₁ ++ e :: h₂) s) :
    (indicesOf w h₁).Pairwise (· ≥ ·) ∧
      ∀ σ l', (s.point w).stage? = some (σ, l') → ∀ i ∈ indicesOf w h₁, i ≤ l'.index.val := by
  induction h₁ generalizing s with
  | nil => exact ⟨.nil, by simp [indicesOf]⟩
  | cons e' h₁ ih =>
      have hadmitted := (hsince.admitted hrun).2 e' List.mem_cons_self
      cases hrun with
      | @step _ s₀ _ a hpast hnext =>
          obtain ⟨hpairwise, hbelow⟩ := ih
            ⟨hsince.routed, hsince.admitting, fun e he => hsince.onJob e (List.mem_cons_of_mem _ he)⟩
            hpast
          have hmoves := moves rack s₀ a w
          rw [← hnext.2] at hmoves
          have hindices : indicesOf w (⟨s₀, a, s⟩ :: h₁) =
              ((s.point w).stage?.map fun at' => at'.2.index.val).toList ++ indicesOf w h₁ := by
            unfold indicesOf
            cases hstage : (s.point w).stage? <;> simp [hstage]
          rw [hindices]
          cases hpost : (s.point w).stage? with
          | none => exact ⟨by simpa using hpairwise, by simp⟩
          | some at₁ =>
              obtain ⟨σ', l'⟩ := at₁
              have hstep : ∀ i ∈ indicesOf w h₁, i ≤ l'.index.val := by
                intro i hi
                cases hpre : (s₀.point w).stage? with
                | none =>
                    obtain ⟨-, -, -, -, hrouting⟩ := hmoves.loop_begins hpre hpost
                    dsimp only at hadmitted
                    simp [hrouting, Point.Admitted, Point.stage?, Point.afterLoop] at hadmitted
                | some at₀ =>
                    obtain ⟨σ, l₀⟩ := at₀
                    rcases hmoves.loop hpre with hout | ⟨σ₁, l₁, hat, hloop⟩
                    · rw [Point.stage?_of_afterLoop hout] at hpost
                      cases hpost
                    · cases hat.symm.trans hpost
                      exact (hbelow σ l₀ hpre i hi).trans hloop.index_le
              refine ⟨List.pairwise_cons.2 ⟨hstep, hpairwise⟩, ?_⟩
              rintro _ _ ⟨rfl, rfl⟩ i hi
              rcases List.mem_cons.1 hi with rfl | hi
              · exact le_rfl
              · exact hstep i hi

/-- A worker stays within the budget of a job it was admitted with. -/
structure WithinBudget (rack : ModelRack) (w : Owner) (l : AttemptLoop)
    (h : List (Foundations.Step World Act)) (s : World) : Prop where
  /-- The calls a job had left when it was claimed. -/
  calls : (callsOf w h).length ≤ l.job.maxAttempts - l.job.attempt
  /-- The loop never returns to an earlier candidate. -/
  forward : (indicesOf w h).Pairwise (· ≥ ·)
  perCandidate : ∀ i,
    (callsOf w h).countP (fun l => decide (l.index.val = i)) ≤ max l.perCandidate 2
  /-- The statements it has made and those it has left are bounded. -/
  bounded : h.countP (goesOn w) + (s.point w).fuel ≤
    16 * (l.job.maxAttempts - l.job.attempt + l.fallbacks.length) + 11
  /-- It is through with the job, or it can go on, and has one statement less behind it. -/
  ends : s.point w = .idle ∨
    ∃ a, s.Enabled rack a ∧ ((s.after rack a).point w).fuel < (s.point w).fuel

/-- **The attempt loop stays within its budget and ends**, in every run and whatever the breakers,
the provider and everyone else do. -/
theorem attempts_within_budget {l : AttemptLoop} (hrun : Run (system rack) (h₁ ++ e :: h₂) s)
    (hsince : Since w l e h₁) : WithinBudget rack w l h₁ s := by
  have hbegins : l.attemptNumber = l.job.attempt ∧ l.index.val = 0 := by
    obtain ⟨hpast, hnext, -⟩ := hrun.past
    have hmoves := moves rack e.pre e.act w
    rw [← hnext.2, hsince.admitting] at hmoves
    obtain ⟨-, hcount, -, hindex, -⟩ := hmoves.loop_begins hsince.routed rfl
    exact ⟨hcount, hindex⟩
  obtain ⟨hnow, hadmitted⟩ := hsince.admitted hrun
  refine ⟨?_, (hsince.forward hrun).1, ?_, ?_, ?_⟩
  · have hcalls := hsince.countP_le hrun lowers_callsLeft
    simpa [LoopStage.callsLeft, hbegins.1] using hcalls
  · intro i
    have hcalls := hsince.countP_le hrun (lowers_callsLeftOn i)
    refine hcalls.trans ?_
    unfold LoopStage.callsLeftOn
    split_ifs <;> simp [LoopStage.callsHere, AttemptLoop.limit]
  · have hfuel := hrun.countP_add_le (φ := fun s => (s.point w).fuel) (p := goesOn w) ?_
    · rw [hsince.admitting] at hfuel
      simpa [Point.fuel, Point.turns, hbegins] using hfuel
    · intro e' he'
      obtain ⟨h₃, -, hnext⟩ := hrun.past_of_mem (List.mem_append_left _ he')
      have hmoves := moves rack e'.pre e'.act w
      rw [← hnext.2] at hmoves
      unfold goesOn
      rcases hmoves.fuel (hadmitted e' he') with hsame | hless
      · simp [hsame]
      · simp only [hless, decide_true, if_true]
        omega
  · exact hnow.imp_right exists_act

/-- The world in which the first job is about to be routed. -/
def routedWorld : World := (answered.take 4).foldl (after documentedRack) {}

/-- The step that routes it. -/
def routingStep : Foundations.Step World Act where
  pre := routedWorld
  act := .route soleWorker (.routed soleCandidate [] 1)
  post := routedWorld.after documentedRack (.route soleWorker (.routed soleCandidate [] 1))

theorem run_since :
    Run (system documentedRack)
      (trace (after documentedRack) routingStep.post (answered.drop 5) ++
        routingStep :: trace (after documentedRack) {} (answered.take 4))
      ((answered.drop 5).foldl (after documentedRack) routingStep.post) := by
  have hbefore : Run (system documentedRack) (trace (after documentedRack) {} (answered.take 4))
      routedWorld := by
    refine .replay ⟨⟨trivial, promptSubmission_accepted false⟩, ?_⟩
    repeat' constructor
  have hrouted : (system documentedRack).next routingStep.pre routingStep.act routingStep.post :=
    ⟨trivial, rfl⟩
  refine (hbefore.step hrouted).append_trace ?_
  repeat' constructor

theorem since_routing : ∃ l, Since soleWorker l routingStep
    (trace (after documentedRack) routingStep.post (answered.drop 5)) := by
  refine ⟨_, rfl, rfl, ?_⟩
  refine forall_mem_trace (C := fun e : Foundations.Step World Act =>
    e.pre.point soleWorker ≠ .idle) ?_
  repeat' constructor
  all_goals
    intro h
    cases h

/-- The job that was answered. -/
theorem answered_within_budget : ∃ l, WithinBudget documentedRack soleWorker l
    (trace (after documentedRack) routingStep.post (answered.drop 5))
    ((answered.drop 5).foldl (after documentedRack) routingStep.post) := by
  obtain ⟨l, hsince⟩ := since_routing
  exact ⟨l, attempts_within_budget run_since hsince⟩

end World

end LoadCoach

import LoadCoach.Residency.Isolation

/-! # Models in use

Who may be evicted is decided from the in-flight registry (`in_use_model_ids` of
`services/worker.py`): a set of models, read once and handed to `ensure_loaded` or `evict_idle`.
The jobs are the threads here.  A worker registers the candidate it admits, reads the set without
the entries of its own job, and calls `ensure_loaded`; a synchronous request reads the whole set
when it arrives, and registers nothing; the scheduler reads it for `evict_idle`.  A job uses its
model from the moment `ensure_loaded` looks it up until its provider call ends.

An eviction is only as good as its set (`unevicted`): no model in use is unloaded in the runs in
which every eviction begins with a set that names what other jobs are using, and no job looks a
model up behind the back of an eviction under way. -/

namespace LoadCoach.Residency

open Foundations

/-- A hold of the in-flight registry, as far as eviction reads it. -/
structure InFlight (W : Type) where
  worker : W
  jobId : String
  modelId : String

/-- The jobs, their registry, and the services they call. -/
structure Jobs (W : Type) where
  services : Services W := {}
  registry : List (InFlight W) := []
  /-- The set of models in use a thread read last. -/
  reading : W → List String := fun _ => []
  uses : W → Option String := fun _ => none

/-- What happens next. -/
inductive JobAct (W : Type) where
  /-- `_admit` and `_readmit` publish the candidate. -/
  | register (entry : InFlight W)
  | unregister (w : W)
  /-- `in_use_model_ids`. -/
  | readInUse (w : W) (excludingJob : Option String)
  | call (a : ServiceAct W)
  /-- The job's provider call has ended. -/
  | answered (w : W)

/-- The models an eviction must spare, as long as the call may still evict. -/
def Call.inUse? : Call → Option (List String)
  | entering request => some request.inUse
  | choosing l | evicted l _ => some l.request.inUse
  | idleEntering _ inUse | idleChoosing _ inUse _ | idleEvicted _ inUse _ _ => some inUse
  | _ => none

/-- The model a call is about to look up. -/
def Call.looks : Call → Option String
  | entering request => some request.modelId
  | _ => none

namespace Jobs

variable {W : Type} [DecidableEq W]

/-- `in_use_model_ids`. -/
def inUseModelIds (s : Jobs W) (excludingJob : Option String) : List String :=
  (s.registry.filter fun entry => excludingJob.all fun job => entry.jobId != job).map
    InFlight.modelId

/-- The jobs after an act. -/
def after (setup : Setup) (s : Jobs W) : JobAct W → Jobs W
  | .register entry =>
      { s with
        registry := entry :: s.registry.filter fun other => decide (other.worker ≠ entry.worker) }
  | .unregister w => { s with registry := s.registry.filter fun other => decide (other.worker ≠ w) }
  | .readInUse w excludingJob =>
      { s with reading := Function.update s.reading w (s.inUseModelIds excludingJob) }
  | .call a =>
      { s with
        services := s.services.after setup a
        uses :=
          match a with
          | .advance w _ =>
              match (s.services.calls w).looks with
              | some modelId => Function.update s.uses w (some modelId)
              | none => s.uses
          | .begin .. => s.uses }
  | .answered w => { s with uses := Function.update s.uses w none }

/-- A thread does one thing after the other, and evicts with the set it has read. -/
def Enabled (s : Jobs W) : JobAct W → Prop
  | .register entry => s.uses entry.worker = none
  | .unregister w => s.uses w = none
  | .readInUse w _ => s.uses w = none
  | .call a => s.services.Enabled a ∧
      match a with
      | .begin w _ call => ∀ inUse, call.inUse? = some inUse →
          s.uses w = none ∧ inUse = s.reading w
      | .advance .. => True
  | .answered w => (s.services.calls w).over = true

/-- **Jobs over the residency services.** -/
def system (W : Type) [DecidableEq W] (setup : Setup) (table : Table) :
    System (Jobs W) (JobAct W) :=
  .guarded Enabled (after setup) { services := { table } }

/-! ### The property and the condition -/

/-- No unload request is for a model that a job is using. -/
def Spares (setup : Setup) (e : Step (Jobs W) (JobAct W)) : Prop :=
  match e.act with
  | .call (.advance w answer) => ∀ entry,
      (e.pre.services.outcome setup w answer).unload = some entry →
        ∀ w', e.pre.uses w' ≠ some entry.modelId
  | _ => True

/-- An eviction begins with a set that names the models other jobs are using, and a job that
looks a model up finds it in the set of every eviction under way. -/
def Informed (e : Step (Jobs W) (JobAct W)) : Prop :=
  match e.act with
  | .call (.begin w _ call) => ∀ inUse, call.inUse? = some inUse →
      ∀ w' modelId, w' ≠ w → e.pre.uses w' = some modelId → modelId ∈ inUse
  | .call (.advance w _) => ∀ modelId, (e.pre.services.calls w).looks = some modelId →
      ∀ w' inUse, w' ≠ w → (e.pre.services.calls w').inUse? = some inUse → modelId ∈ inUse
  | _ => True

/-! ### The invariant -/

/-- What a thread in the middle of a call is using itself. -/
def UsesOwn (uses : Option String) : Call → Prop
  | .entering _ | .idleEntering .. | .idleChoosing .. | .idleEvicted .. => uses = none
  | .choosing l | .evicted l _ => uses = some l.request.modelId ∧
      ∀ entry ∈ l.rest, entry.modelId ≠ l.request.modelId
  | _ => True

/-- Every eviction under way knows what the other jobs are using. -/
structure Current (s : Jobs W) : Prop where
  others : ∀ w w' modelId inUse, w' ≠ w → s.uses w' = some modelId →
    (s.services.calls w).inUse? = some inUse → modelId ∈ inUse
  own : ∀ w, UsesOwn (s.uses w) (s.services.calls w)

end Jobs

section Advance

variable {setup : Setup} {service : String} {t : Table} {answer : Answer} {c : Call} {o : Outcome}

theorem Advances.inUse? (h : Advances setup service t answer c o) {inUse : List String}
    (hset : o.call.inUse? = some inUse) : c.inUse? = some inUse := by
  cases h with
  | missing | spare | unload | unloadFails | evict | idleRead | idleSpare | idleUnload
  | idleUnloadFails | idleEvict => exact hset
  | _ => cases hset

theorem Advances.usesOwn (h : Advances setup service t answer c o) {uses : Option String}
    (hown : Jobs.UsesOwn uses c) : Jobs.UsesOwn (c.looks <|> uses) o.call := by
  cases h with
  | missing hgpu hnone => exact ⟨rfl, hnone⟩
  | spare hrest | unload hrest | unloadFails hrest =>
      exact ⟨hown.1, fun e he => hown.2 e (by rw [hrest]; exact List.mem_cons_of_mem _ he)⟩
  | evict | idleRead | idleSpare | idleUnload | idleUnloadFails | idleEvict => exact hown
  | _ => trivial

/-- An entry is unloaded only if the call's set does not name it, by a thread that does not use
its model itself. -/
theorem Advances.spares (h : Advances setup service t answer c o) {uses : Option String}
    (hown : Jobs.UsesOwn uses c) {entry : Episode} (hunload : o.unload = some entry) :
    uses ≠ some entry.modelId ∧ ∃ inUse, c.inUse? = some inUse ∧ entry.modelId ∉ inUse := by
  cases h with
  | unload hrest hwants hidle | unloadFails hrest hwants hidle =>
      cases hunload
      refine ⟨?_, _, rfl, by simpa using hidle⟩
      rw [hown.1]
      rintro huses
      refine hown.2 entry (by rw [hrest]; exact List.mem_cons_self) ?_
      exact (Option.some.inj huses).symm
  | idleUnload hidle | idleUnloadFails hidle =>
      cases hunload
      have hnone : uses = none := hown
      exact ⟨by simp [hnone], _, rfl, by simpa using hidle⟩
  | _ => cases hunload

end Advance

/-! ### The runs -/

namespace Jobs

variable {W : Type} [DecidableEq W] {setup : Setup} {s : Jobs W}

theorem Current.answered (hs : s.Current) {w : W} (hover : (s.services.calls w).over = true) :
    (s.after setup (.answered w)).Current := by
  refine ⟨?_, ?_⟩
  · intro v v' modelId inUse hne huses hset
    simp only [after, Function.update_apply] at huses
    split at huses
    · cases huses
    · exact hs.others v v' modelId inUse hne huses hset
  · intro v
    simp only [after, Function.update_apply]
    split
    · rename_i hv
      rw [hv]
      cases hcall : s.services.calls w <;> rw [hcall] at hover <;> trivial
    · exact hs.own v

theorem Current.begin (hs : s.Current) {w : W} {service : String} {call : Call}
    (hstarts : call.starts = true)
    (hunused : ∀ inUse, call.inUse? = some inUse → s.uses w = none)
    (hinformed : ∀ inUse, call.inUse? = some inUse →
      ∀ w' modelId, w' ≠ w → s.uses w' = some modelId → modelId ∈ inUse) :
    (s.after setup (.call (.begin w service call))).Current := by
  refine ⟨?_, ?_⟩
  · intro v v' modelId inUse hne huses hset
    simp only [after, Services.after, Function.update_apply] at huses hset
    split at hset
    · rename_i hv
      exact hinformed inUse hset v' modelId (hv ▸ hne) huses
    · exact hs.others v v' modelId inUse hne huses hset
  · intro v
    simp only [after, Services.after, Function.update_apply]
    split
    · rename_i hv
      rw [hv]
      cases call <;> first | trivial | exact hunused _ rfl
    · exact hs.own v

theorem Current.advance (hs : s.Current) {w : W} {answer : Answer}
    (hinformed : ∀ modelId, (s.services.calls w).looks = some modelId →
      ∀ w' inUse, w' ≠ w → (s.services.calls w').inUse? = some inUse → modelId ∈ inUse) :
    (s.after setup (.call (.advance w answer))).Current := by
  have hadvances := advances setup (s.services.service w) s.services.table answer
    (s.services.calls w)
  have huses' : (s.after setup (.call (.advance w answer))).uses =
      Function.update s.uses w ((s.services.calls w).looks <|> s.uses w) := by
    simp only [after]
    cases (s.services.calls w).looks <;> simp
  refine ⟨?_, ?_⟩
  · intro v v' modelId inUse hne huses hset
    rw [huses', Function.update_apply] at huses
    have hbefore : (s.services.calls v).inUse? = some inUse := by
      simp only [after, Services.after, Function.update_apply] at hset
      split at hset
      · rename_i hv
        rw [hv]
        exact hadvances.inUse? hset
      · exact hset
    split at huses
    · rename_i hv'
      cases hlooks : (s.services.calls w).looks with
      | some looked =>
          rw [hlooks] at huses
          cases huses
          exact hinformed modelId hlooks v inUse (fun hv => hne (hv'.trans hv.symm)) hbefore
      | none =>
          rw [hlooks] at huses
          exact hs.others v v' modelId inUse hne (hv' ▸ huses) hbefore
    · exact hs.others v v' modelId inUse hne huses hbefore
  · intro v
    rw [huses', Function.update_apply]
    simp only [after, Services.after, Function.update_apply]
    split
    · exact hadvances.usesOwn (hs.own w)
    · exact hs.own v

theorem Current.step (hs : s.Current) {a : JobAct W} (henabled : s.Enabled a)
    (hinformed : Informed ⟨s, a, s.after setup a⟩) : (s.after setup a).Current := by
  cases a with
  | register entry => exact ⟨hs.others, hs.own⟩
  | unregister w => exact ⟨hs.others, hs.own⟩
  | readInUse w excludingJob => exact ⟨hs.others, hs.own⟩
  | answered w => exact hs.answered henabled
  | call a =>
      cases a with
      | begin w service call =>
          exact hs.begin henabled.1.2 (fun inUse hset => (henabled.2 inUse hset).1) hinformed
      | advance w answer => exact hs.advance hinformed

theorem Current.spares (hs : s.Current) (a : JobAct W) : Spares setup ⟨s, a, s.after setup a⟩ := by
  cases a with
  | call a =>
      cases a with
      | begin w service call => trivial
      | advance w answer =>
          intro entry hunload w' huses
          have hadvances := advances setup (s.services.service w) s.services.table answer
            (s.services.calls w)
          obtain ⟨hown, inUse, hset, hnot⟩ := hadvances.spares (hs.own w) hunload
          by_cases hw : w' = w
          · rw [hw] at huses
            exact hown huses
          · exact hnot (hs.others w w' entry.modelId inUse hw huses hset)
  | _ => trivial

/-- **A model in use is not evicted.**  In every run in which every eviction begins with a set that
names the models other jobs are using, and no job looks a model up that an eviction under way
does not have in its set, no unload request is for a model that a job is using. -/
theorem unevicted {table : Table} {h : List (Step (Jobs W) (JobAct W))}
    (hrun : Run (system W setup table) h s) (hinformed : ∀ e ∈ h, Informed e) :
    ∀ e ∈ h, Spares setup e := by
  have hcurrent : ∀ {h s}, Run (system W setup table) h s → (∀ e ∈ h, Informed e) →
      s.Current := by
    intro h s hrun hinformed
    refine hrun.invariant_of_steps (C := Informed) ?_ ?_ hinformed
    · rintro _ rfl
      refine ⟨?_, fun w => trivial⟩
      intro w w' modelId inUse hne huses
      cases huses
    · rintro ⟨s, a, s'⟩ ⟨henabled, hpost⟩ hC hs
      obtain rfl : s' = s.after setup a := hpost
      exact hs.step henabled hC
  intro e he
  obtain ⟨h₁, h₂, rfl⟩ := List.append_of_mem he
  obtain ⟨hpast, ⟨-, hpost⟩, -⟩ := hrun.past
  have hpre := hcurrent hpast fun e' he' =>
    hinformed e' (List.mem_append_right _ (List.mem_cons_of_mem _ he'))
  obtain ⟨s₀, a, s₁⟩ := e
  obtain rfl : s₁ = s₀.after setup a := hpost
  exact hpre.spares a

/-! ### A generation the registry does not know -/

/-- What a thread asks for to run a model on the first device. -/
def runOn (modelId : String) (inUse : List String) : Call :=
  .entering { modelId, gpuIndex := some 0, inUse }

/-- A job finds the model `m` resident, and another is to load `n` on the same device; `set` is
what the second has read of the registry. -/
def secondLoad (set : List String) : List (JobAct ℕ) :=
  [.readInUse 1 (some "j"), .call (.begin 1 "local" (runOn "m" [])), .call (.advance 1 {}),
   .register ⟨2, "k", "n"⟩, .readInUse 2 (some "k"), .call (.begin 2 "local" (runOn "n" set)),
   .call (.advance 2 {}), .call (.advance 2 {})]

/-- The first job is a worker's. -/
def registeredJob : List (JobAct ℕ) := .register ⟨1, "j", "m"⟩ :: secondLoad ["m"]

theorem registeredJob_run : Run (system ℕ Services.oneModel (Services.oneEpisode "m"))
    (trace (after Services.oneModel) { services := { table := Services.oneEpisode "m" } }
      registeredJob)
    (registeredJob.foldl (after Services.oneModel)
      { services := { table := Services.oneEpisode "m" } }) := by
  refine .replay ⟨rfl, rfl, ⟨⟨rfl, rfl⟩, ?_⟩, ⟨rfl, trivial⟩, rfl, rfl, ⟨⟨rfl, rfl⟩, ?_⟩,
    ⟨rfl, trivial⟩, ⟨rfl, trivial⟩, trivial⟩ <;> rintro inUse ⟨⟩ <;> exact ⟨rfl, rfl⟩

/-- The eviction of the second job spares the registered model. -/
theorem unevicted_registeredJob : Spares Services.oneModel
    ⟨(registeredJob.take 8).foldl (after Services.oneModel)
        { services := { table := Services.oneEpisode "m" } }, .call (.advance 2 {}),
      registeredJob.foldl (after Services.oneModel)
        { services := { table := Services.oneEpisode "m" } }⟩ := by
  have hnone : ∀ w' modelId, w' ≠ 1 →
      Function.update (fun _ : ℕ => (none : Option String)) 1 (some "m") w' ≠ some modelId := by
    intro w' modelId hne
    simp [hne]
  refine unevicted registeredJob_run (forall_mem_trace ⟨trivial, trivial, ?_, ?_, trivial, trivial,
    ?_, ?_, ?_, trivial⟩) _ List.mem_cons_self
  · rintro inUse ⟨⟩ w' modelId hne ⟨⟩
  · rintro modelId ⟨⟩ w' inUse hne hset
    have hidle : (Function.update (fun _ : ℕ => Call.idle) 1 (runOn "m" []) w').inUse? =
        some inUse := hset
    simp [hne, Call.inUse?] at hidle
  · rintro inUse ⟨⟩ w' modelId hne huses
    by_cases hw : w' = 1
    · subst hw
      cases huses
      exact List.mem_singleton.2 rfl
    · exact absurd huses (hnone w' modelId hw)
  · rintro modelId ⟨⟩ w' inUse hne hset
    by_cases hw : w' = 1
    · subst hw
      cases hset
    · have hidle : (Function.update (Function.update (Function.update (fun _ : ℕ => Call.idle) 1
          (runOn "m" [])) 1 (.recording "m" 0 0 none "")) 2 (runOn "n" ["m"]) w').inUse? =
            some inUse := hset
      simp [hne, hw, Call.inUse?] at hidle
  · rintro modelId ⟨⟩

/-- The first job is a synchronous generation. -/
def unknownJob : List (JobAct ℕ) := secondLoad []

theorem unknownJob_run : Run (system ℕ Services.oneModel (Services.oneEpisode "m"))
    (trace (after Services.oneModel) { services := { table := Services.oneEpisode "m" } }
      unknownJob)
    (unknownJob.foldl (after Services.oneModel)
      { services := { table := Services.oneEpisode "m" } }) := by
  refine .replay ⟨rfl, ⟨⟨rfl, rfl⟩, ?_⟩, ⟨rfl, trivial⟩, rfl, rfl, ⟨⟨rfl, rfl⟩, ?_⟩,
    ⟨rfl, trivial⟩, ⟨rfl, trivial⟩, trivial⟩ <;> rintro inUse ⟨⟩ <;> exact ⟨rfl, rfl⟩

/-- The model of a synchronous generation is unloaded under its call. -/
theorem unknownJob_evicted : ¬ ∀ table h (s : Jobs ℕ), Run (system ℕ Services.oneModel table) h s →
    ∀ e ∈ h, Spares Services.oneModel e := by
  intro hclaim
  have hlast : (⟨(unknownJob.take 7).foldl (after Services.oneModel)
        { services := { table := Services.oneEpisode "m" } }, .call (.advance 2 {}),
      unknownJob.foldl (after Services.oneModel)
        { services := { table := Services.oneEpisode "m" } }⟩ :
        Step (Jobs ℕ) (JobAct ℕ)) ∈
      trace (after Services.oneModel) { services := { table := Services.oneEpisode "m" } }
        unknownJob :=
    List.mem_cons_self
  exact hclaim _ _ _ unknownJob_run _ hlast _ rfl 1 rfl

end Jobs

end LoadCoach.Residency

import Mathlib.Data.List.Dedup
import LoadCoach.Routing.Waiting

/-! # Constraints that only narrow

A request may tighten the task profile's constraints and not loosen them (`_merged_constraints`).
`Narrows` is that order on constraints: one admits whatever the other does, bound by bound.  The
merged constraints are below the profile's own, and the hard constraints are monotone in the order
for a subject that is fixed (`evaluateConstraints_narrows`).

The subject is not fixed.  The minimum context is a bound on what is served, and where a provider
lets its context be configured and nothing has stated one it is also what the context is set to.
A request that raises the minimum so raises the context a candidate is served:

* `merged_narrows`: under the profile's own constraints a candidate passes as it was built, and it
  is eligible unless the request's minimum has configured its context.
* `raised_minimum_admits`: a candidate whose context is too small for the prompt until the request
  raises the minimum. -/

namespace LoadCoach.Routing

open Foundations

/-! ### The order on constraints -/

/-- Every bound of `tight` is at least as strict as the one of `loose`.  The hard constraints read
no bound on latency. -/
structure Narrows (tight loose : TaskProfileConstraints) : Prop where
  minContextTokens : loose.minContextTokens ≤ tight.minContextTokens
  requiresCapabilities : loose.requiresCapabilities ⊆ tight.requiresCapabilities
  minCapabilityScores : ∀ e ∈ loose.minCapabilityScores,
    ∃ floor, (e.1, floor) ∈ tight.minCapabilityScores ∧ e.2 ≤ floor
  excludeModels : loose.excludeModels ⊆ tight.excludeModels
  allowRemoteProviders : tight.allowRemoteProviders = true → loose.allowRemoteProviders = true

theorem Narrows.refl (constraints : TaskProfileConstraints) : Narrows constraints constraints where
  minContextTokens := le_rfl
  requiresCapabilities := List.Subset.refl _
  minCapabilityScores := fun e he => ⟨e.2, he, le_rfl⟩
  excludeModels := List.Subset.refl _
  allowRemoteProviders := id

theorem mem_sortedUnion {a b : List String} {x : String} :
    x ∈ sortedUnion a b ↔ x ∈ a ∨ x ∈ b := by
  rw [sortedUnion, List.mem_insertionSort, List.mem_dedup, List.mem_append]

theorem lookup_of_nodup {l : List (String × ℚ)} (hdict : (l.map Prod.fst).Nodup)
    {e : String × ℚ} (he : e ∈ l) : l.lookup e.1 = some e.2 := by
  obtain ⟨l₁, l₂, rfl⟩ := List.append_of_mem he
  refine List.lookup_eq_some_iff.2 ⟨l₁, l₂, rfl, fun e' he' => ?_⟩
  rw [List.map_append, List.nodup_append] at hdict
  simpa using (hdict.2.2 _ (List.mem_map_of_mem he') e.1 (by simp)).symm

theorem mergedConstraints_narrows {base merged : TaskProfileConstraints}
    {requested : Option TaskProfileConstraints}
    (hdict : (base.minCapabilityScores.map Prod.fst).Nodup)
    (h : mergedConstraints base requested = .ok merged) : Narrows merged base := by
  unfold mergedConstraints at h
  split at h
  · cases h
    exact Narrows.refl base
  rename_i requested
  dsimp only at h
  split at h
  · cases h
  cases h
  refine ⟨le_max_left _ _, fun x hx => mem_sortedUnion.2 (.inl hx), fun e he => ?_,
    fun x hx => mem_sortedUnion.2 (.inl hx), fun h => (Bool.and_eq_true_iff.1 h).1⟩
  have hlookup : base.minCapabilityScores.lookup e.1 = some e.2 :=
    lookup_of_nodup hdict he
  have hkey : e.1 ∈ ((base.minCapabilityScores ++ requested.minCapabilityScores).map
      Prod.fst).dedup :=
    List.mem_dedup.2 (List.mem_map_of_mem (List.mem_append_left _ he))
  refine ⟨_, List.mem_map.2 ⟨e.1, hkey, rfl⟩, ?_⟩
  rw [hlookup]
  exact le_max_left _ _

@[simp] theorem requiring_minContextTokens (constraints : TaskProfileConstraints)
    (capabilities : List String) :
    (requiring constraints capabilities).minContextTokens = constraints.minContextTokens := by
  unfold requiring
  split <;> rfl

theorem mem_requiring {constraints : TaskProfileConstraints} {capabilities : List String}
    {x : String} :
    x ∈ (requiring constraints capabilities).requiresCapabilities ↔
      x ∈ capabilities ∨ x ∈ constraints.requiresCapabilities := by
  unfold requiring
  split
  · rename_i hall
    have hmem : x ∈ capabilities → x ∈ constraints.requiresCapabilities := by
      simpa using fun hx => List.all_eq_true.1 hall x hx
    exact ⟨.inr, fun h => h.elim hmem id⟩
  · exact mem_sortedUnion

theorem Narrows.requiring {tight loose : TaskProfileConstraints} (h : Narrows tight loose)
    (capabilities : List String) :
    Narrows (requiring tight capabilities) (requiring loose capabilities) := by
  have hfields : ∀ constraints : TaskProfileConstraints,
      (Routing.requiring constraints capabilities).minCapabilityScores =
          constraints.minCapabilityScores ∧
        (Routing.requiring constraints capabilities).excludeModels = constraints.excludeModels ∧
        (Routing.requiring constraints capabilities).allowRemoteProviders =
          constraints.allowRemoteProviders := by
    intro constraints
    unfold Routing.requiring
    split <;> exact ⟨rfl, rfl, rfl⟩
  obtain ⟨htight₁, htight₂, htight₃⟩ := hfields tight
  obtain ⟨hloose₁, hloose₂, hloose₃⟩ := hfields loose
  refine ⟨by simpa using h.minContextTokens, fun x hx => ?_, ?_, ?_, ?_⟩
  · rw [mem_requiring] at hx ⊢
    exact hx.imp_right fun hx => h.requiresCapabilities hx
  · rw [htight₁, hloose₁]
    exact h.minCapabilityScores
  · rw [htight₂, hloose₂]
    exact h.excludeModels
  · rw [htight₃, hloose₃]
    exact h.allowRemoteProviders

/-! ### The hard constraints in the order -/

section Inputs

variable {subject : ExecutionSubject} {tight loose : ConstraintInputs}

/-- Two sets of inputs that differ in the constraints of the profile only. -/
structure Relaxes (loose tight : ConstraintInputs) : Prop where
  minContextTokens : loose.minContextTokens ≤ tight.minContextTokens
  requiresCapabilities : loose.requiresCapabilities ⊆ tight.requiresCapabilities
  minCapabilityScores : ∀ e ∈ loose.minCapabilityScores,
    ∃ floor, (e.1, floor) ∈ tight.minCapabilityScores ∧ e.2 ≤ floor
  excludeModels : loose.excludeModels ⊆ tight.excludeModels
  allowRemoteProviders : tight.allowRemoteProviders = true → loose.allowRemoteProviders = true
  others : loose =
    { tight with
      minContextTokens := loose.minContextTokens
      requiresCapabilities := loose.requiresCapabilities
      minCapabilityScores := loose.minCapabilityScores
      excludeModels := loose.excludeModels
      allowRemoteProviders := loose.allowRemoteProviders }

theorem checkProvider_eq_none_iff {inputs : ConstraintInputs} :
    checkProvider subject inputs = none ↔
      subject.facts.enabled = true ∧
      runtimeProfileRefusal subject.runtimeProfile subject.facts.providerKind = none ∧
      (subject.facts.available = true ∧ subject.provider.healthy = true) ∧
      (0 < inputs.minContextTokens → inputs.minContextTokens ≤ subject.servedContext.tokens) ∧
      (subject.runtimeProfile.contextSize.filter fun requested =>
        !subject.provider.contextConfigurable && requested != subject.servedContext.tokens) =
          none ∧
      (inputs.requiredContext.filter fun required =>
        required.exceeds subject.servedContext.tokens) = none ∧
      (∀ capability ∈ inputs.requiresCapabilities,
        subject.provider.supports capability = true) ∧
      (subject.provider.supportsThinkingControl = true ∨
        inputs.requiresThinkingControl = none) := by
  unfold checkProvider
  dsimp only
  split
  · simp_all
  rename_i henabled
  split
  · simp_all
  rename_i hrefusal
  split
  · rename_i hunavailable
    refine iff_of_false (by simp) fun h => ?_
    rcases hunavailable with hunavailable | hunavailable <;> simp_all
  rename_i havailable
  split
  · rename_i hshort
    refine iff_of_false (by simp) fun h => ?_
    have := h.2.2.2.1 hshort.1
    omega
  rename_i hlong
  split
  · simp_all
  rename_i hconfigurable
  split
  · simp_all
  rename_i hrequired
  have hmin : 0 < inputs.minContextTokens →
      inputs.minContextTokens ≤ subject.servedContext.tokens := by omega
  split
  · rename_i capability hfound
    refine iff_of_false (by simp) fun h => ?_
    have hmem := List.mem_of_find?_eq_some hfound
    have hsupports := List.find?_some hfound
    rw [h.2.2.2.2.2.2.1 capability hmem] at hsupports
    cases hsupports
  rename_i hsupported
  have hall : ∀ capability ∈ inputs.requiresCapabilities,
      subject.provider.supports capability = true := by
    simpa using List.find?_eq_none.1 hsupported
  cases hthinking : subject.provider.supportsThinkingControl <;> simp_all

theorem Relaxes.checkProvider (h : Relaxes loose tight)
    (hpassed : checkProvider subject tight = none) : checkProvider subject loose = none := by
  rw [checkProvider_eq_none_iff] at hpassed ⊢
  obtain ⟨henabled, hrefusal, havailable, hmin, hconfigurable, hrequired, hsupports, hthinking⟩ :=
    hpassed
  have hle := h.minContextTokens
  refine ⟨henabled, hrefusal, havailable, fun _ => ?_, hconfigurable, ?_, ?_, ?_⟩
  · have := hmin (by omega)
    omega
  · rw [h.others]
    exact hrequired
  · exact fun capability hc => hsupports capability (h.requiresCapabilities hc)
  · rw [h.others]
    exact hthinking

theorem checkScores_eq_none_iff {inputs : ConstraintInputs} :
    checkScores inputs = none ↔ ∀ e ∈ inputs.minCapabilityScores,
      ∀ score, (inputs.resolved e.1).bind CapabilityScore.score = some score → e.2 ≤ score := by
  unfold checkScores
  rw [List.findSome?_eq_none_iff]
  simp only [List.mem_insertionSort, Option.bind_eq_none_iff]
  refine forall₂_congr fun e _ => forall₂_congr fun score _ => ?_
  split <;> simp_all

theorem Relaxes.checkScores (h : Relaxes loose tight) (hpassed : checkScores tight = none) :
    checkScores loose = none := by
  rw [checkScores_eq_none_iff] at hpassed ⊢
  intro e he score hscore
  obtain ⟨floor, hfloor, hle⟩ := h.minCapabilityScores e he
  have hresolved : loose.resolved e.1 = tight.resolved e.1 := by
    rw [h.others]
    rfl
  rw [hresolved] at hscore
  exact hle.trans (hpassed (e.1, floor) hfloor score hscore)

theorem Relaxes.checkPolicy {facts : ModelFacts} (h : Relaxes loose tight)
    (hpassed : checkPolicy facts tight = none) : checkPolicy facts loose = none := by
  unfold Routing.checkPolicy at hpassed ⊢
  split at hpassed
  · cases hpassed
  rename_i hexcluded
  split at hpassed
  · cases hpassed
  rename_i hremote
  have hexcluded' : ¬ loose.excludeModels.contains facts.canonicalId = true := by
    rw [List.contains_iff_mem] at hexcluded ⊢
    exact fun hmem => hexcluded (h.excludeModels hmem)
  rw [if_neg hexcluded', if_neg]
  rintro ⟨hisRemote, hforbidden⟩
  have hallowed : tight.allowRemoteProviders = true := by
    simpa using fun hforbidden => hremote ⟨hisRemote, hforbidden⟩
  rw [h.allowRemoteProviders hallowed] at hforbidden
  cases hforbidden

theorem Relaxes.checkSelection {hash : RuntimeProfile → String} (h : Relaxes loose tight)
    (hpassed : checkSelection hash subject tight = none) :
    checkSelection hash subject loose = none := by
  have hadapter : ∀ adapter, checkAdapter hash subject adapter loose =
      checkAdapter hash subject adapter tight := by
    intro adapter
    rw [h.others]
    rfl
  have hbreaker : checkBreaker subject loose = checkBreaker subject tight := by
    rw [h.others]
    rfl
  simp only [Routing.checkSelection, Option.orElse_eq_orElse, Option.orElse_eq_or,
    Option.or_eq_none_iff, hadapter, hbreaker] at hpassed ⊢
  obtain ⟨hscores, hpolicy, hrest⟩ := hpassed
  exact ⟨h.checkScores hscores, h.checkPolicy hpolicy, hrest⟩

/-- **The hard constraints are monotone**: what passes the tighter inputs passes the looser, on
the same device. -/
theorem evaluateConstraints_narrows {hash : RuntimeProfile → String} {estimate : VramEstimate}
    {placement : List DeviceFit × Option ℕ} (h : Relaxes loose tight)
    (hpassed : evaluateConstraints hash subject estimate tight = .ok placement) :
    evaluateConstraints hash subject estimate loose = .ok placement := by
  have hplace : place subject.facts.canonicalId estimate loose =
      place subject.facts.canonicalId estimate tight := by
    rw [h.others]
    rfl
  unfold evaluateConstraints at hpassed ⊢
  split at hpassed
  · cases hpassed
  rename_i hprovider
  simp only [h.checkProvider hprovider, hplace]
  split at hpassed
  · cases hpassed
  split at hpassed
  · cases hpassed
  rename_i hselection
  rw [h.checkSelection hselection]
  exact hpassed

end Inputs

/-! ### A candidate under two sets of constraints -/

section Candidates

variable {s : RouterState} {request : RouteRequest} {r : Requirements} {c : Candidate}
  {merged : TaskProfileConstraints}

/-- The requirements of a request with its profile's constraints replaced. -/
def Requirements.under (r : Requirements) (request : RouteRequest)
    (constraints : TaskProfileConstraints) : Requirements :=
  { r with constraints := requiring constraints request.requireCapabilities }

/-- A candidate passes every hard constraint. -/
def Eligible (s : RouterState) (request : RouteRequest) (r : Requirements) (c : Candidate) :
    Prop :=
  ∃ ranked, judgeCandidate s request r c = .ranked ranked

/-- The minimum the request raises is what the candidate's context is configured to: the provider
lets it be configured, and neither the configuration nor the request states another. -/
def Reconfigured (s : RouterState) (request : RouteRequest) (own merged : TaskProfileConstraints)
    (c : Candidate) : Prop :=
  own.minContextTokens < merged.minContextTokens ∧ c.provider.contextConfigurable = true ∧
    (merge s.policy.runtimeDefaults
      (s.policy.runtimePerModel c.facts.canonicalId)).contextSize = none ∧
    ∀ override ∈ request.overrides.runtimeProfile, override.contextSize = none

theorem eligible_iff : Eligible s request r c ↔ InPool s request r c ∧
    ∃ placement, evaluateConstraints s.profileHash (subjectOf s request r c)
      (subjectEstimate (subjectOf s request r c))
      (constraintInputs s request r (subjectOf s request r c)) = .ok placement := by
  unfold Eligible judgeCandidate InPool subjectOf
  dsimp only
  split
  · rename_i hserved
    rw [Option.isNone_iff_eq_none] at hserved
    simp [hserved]
  rename_i hserved
  split
  · simp_all
  rename_i hselected
  have hpool : (buildSubject s request.overrides r.constraints c).1.isSome = true ∧
      selectedBy request.overrides c = true :=
    ⟨by simpa [Option.isSome_iff_ne_none] using hserved, by simpa using hselected⟩
  split <;> simp_all

theorem constraintInputs_relaxes {tight loose : TaskProfileConstraints} (h : Narrows tight loose)
    (subject : ExecutionSubject) :
    Relaxes (constraintInputs s request (r.under request loose) subject)
      (constraintInputs s request (r.under request tight) subject) := by
  have hrequiring := h.requiring request.requireCapabilities
  exact ⟨hrequiring.minContextTokens, hrequiring.requiresCapabilities,
    hrequiring.minCapabilityScores, hrequiring.excludeModels, hrequiring.allowRemoteProviders, rfl⟩

theorem resolveRuntimeProfile_of_not_reconfigured {own : TaskProfileConstraints}
    (hle : own.minContextTokens ≤ merged.minContextTokens)
    (h : ¬ Reconfigured s request own merged c) :
    resolveRuntimeProfile s.policy.runtimeDefaults
        (s.policy.runtimePerModel c.facts.canonicalId) own.minContextTokens
        c.provider.contextConfigurable request.overrides.runtimeProfile
        c.provider.adaptersRegistered =
      resolveRuntimeProfile s.policy.runtimeDefaults
        (s.policy.runtimePerModel c.facts.canonicalId) merged.minContextTokens
        c.provider.contextConfigurable request.overrides.runtimeProfile
        c.provider.adaptersRegistered := by
  rcases Nat.eq_or_lt_of_le hle with hmin | hlt
  · rw [hmin]
  cases hconfigurable : c.provider.contextConfigurable with
  | false => simp [resolveRuntimeProfile, applyTaskProfileContext]
  | true =>
      cases hstated : (merge s.policy.runtimeDefaults
          (s.policy.runtimePerModel c.facts.canonicalId)).contextSize with
      | some tokens => simp [resolveRuntimeProfile, applyTaskProfileContext, hstated]
      | none =>
          -- the override is left to state the context, and then wins over either minimum
          have hoverride : ¬ ∀ override ∈ request.overrides.runtimeProfile,
              override.contextSize = none := fun hnone =>
            h ⟨hlt, hconfigurable, hstated, hnone⟩
          push Not at hoverride
          obtain ⟨override, hmem, hne⟩ := hoverride
          obtain ⟨tokens, htokens⟩ := Option.ne_none_iff_exists'.1 hne
          have hmerge : ∀ min, merge (applyTaskProfileContext (merge s.policy.runtimeDefaults
              (s.policy.runtimePerModel c.facts.canonicalId)) min true) (some override) =
              merge (merge s.policy.runtimeDefaults
                (s.policy.runtimePerModel c.facts.canonicalId)) (some override) := by
            intro min
            unfold applyTaskProfileContext
            split
            · rfl
            · simp [merge, first, htokens]
          rw [Option.mem_def.1 hmem]
          simp only [resolveRuntimeProfile, hmerge]

theorem buildSubject_of_not_reconfigured {own : TaskProfileConstraints}
    (hle : own.minContextTokens ≤ merged.minContextTokens)
    (h : ¬ Reconfigured s request own merged c) (capabilities : List String) :
    buildSubject s request.overrides (requiring own capabilities) c =
      buildSubject s request.overrides (requiring merged capabilities) c := by
  unfold buildSubject
  rw [requiring_minContextTokens, requiring_minContextTokens,
    resolveRuntimeProfile_of_not_reconfigured hle h]

/-- **Request constraints only narrow.**  A candidate that is eligible under the merged constraints
passes the profile's own as it was built, and is eligible under them unless the request's minimum
has configured its context. -/
theorem merged_narrows
    (hdict : (r.profile.constraints.minCapabilityScores.map Prod.fst).Nodup)
    (hmerged : mergedConstraints r.profile.constraints request.constraints = .ok merged)
    (heligible : Eligible s request (r.under request merged) c) :
    (∃ placement,
      evaluateConstraints s.profileHash (subjectOf s request (r.under request merged) c)
        (subjectEstimate (subjectOf s request (r.under request merged) c))
        (constraintInputs s request (r.under request r.profile.constraints)
          (subjectOf s request (r.under request merged) c)) = .ok placement) ∧
      (¬ Reconfigured s request r.profile.constraints merged c →
        Eligible s request (r.under request r.profile.constraints) c) := by
  have hnarrows := mergedConstraints_narrows hdict hmerged
  obtain ⟨hpool, placement, hpassed⟩ := eligible_iff.1 heligible
  have hown := evaluateConstraints_narrows (constraintInputs_relaxes hnarrows _) hpassed
  refine ⟨⟨placement, hown⟩, fun hconfigured => ?_⟩
  have hbuilt : buildSubject s request.overrides
      (r.under request r.profile.constraints).constraints c =
        buildSubject s request.overrides (r.under request merged).constraints c :=
    buildSubject_of_not_reconfigured hnarrows.minContextTokens hconfigured _
  have hsubject : subjectOf s request (r.under request r.profile.constraints) c =
      subjectOf s request (r.under request merged) c := by
    unfold subjectOf
    rw [hbuilt]
  refine eligible_iff.2 ⟨?_, placement, ?_⟩
  · unfold InPool at hpool ⊢
    rwa [hbuilt]
  · rwa [hsubject]

/-- A router that configures no runtime profile of its own. -/
def configurableState : RouterState where
  taskProfiles := []
  registry := { models := [] }
  provider := {}
  profileHash := fun _ => ""

/-- A model whose provider lets the context be configured and reports the one it serves. -/
def configurableCandidate : Candidate where
  facts :=
    { modelId := "m", canonicalId := "ollama/qwen", providerKind := "ollama"
      providerModelName := "qwen" }
  provider := { contextConfigurable := true, reportedServedContext := some 4096 }
  signals := []
  adapter := none

/-- A prompt of eight thousand tokens, over a profile whose minimum is four thousand. -/
def longPrompt : RouteRequest where
  task := "summarise"
  estimatedInputTokens := some 8000
  constraints := some { minContextTokens := 16384 }

/-- What the prompt asks of every candidate. -/
def longPromptRequirements : Requirements where
  profile :=
    { profileId := "summarise", weights := [], constraints := { minContextTokens := 4096 } }
  constraints := {}
  requiresThinkingControl := none
  maxOutputTokens := .int 1024
  scoring := { weights := [], minConfidence := 0, parameterPriors := [] }

theorem merged_narrows_reported : Eligible configurableState longPrompt
    (longPromptRequirements.under longPrompt longPromptRequirements.profile.constraints)
    { configurableCandidate with provider := { reportedServedContext := some 32768 } } :=
  (merged_narrows (r := longPromptRequirements) (by decide) rfl ⟨_, rfl⟩).2 fun h =>
    absurd h.2.1 (by decide)

/-- The profile's own minimum would configure a context the prompt does not fit into. -/
theorem raised_minimum_admits : ¬ ∀ (s : RouterState) (request : RouteRequest) (r : Requirements)
    (c : Candidate) (merged : TaskProfileConstraints),
    mergedConstraints r.profile.constraints request.constraints = .ok merged →
      Eligible s request (r.under request merged) c →
        Eligible s request (r.under request r.profile.constraints) c := by
  intro h
  have heligible : Eligible configurableState longPrompt
      (longPromptRequirements.under longPrompt { minContextTokens := 16384 })
      configurableCandidate := ⟨_, rfl⟩
  obtain ⟨ranked, hranked⟩ := h configurableState longPrompt longPromptRequirements
    configurableCandidate _ rfl heligible
  cases hranked

end Candidates

end LoadCoach.Routing

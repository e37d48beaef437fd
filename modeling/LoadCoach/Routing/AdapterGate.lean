import LoadCoach.Routing.Judged
import LoadCoach.Routing.Resolution

/-! # The gate before an adapter

An adapter is weights that were reviewed for one base and measured on it.  It reaches a provider
through four places: `_read_candidates` offers it where the registration can swap adapters,
`_check_adapter` is the last of the hard constraints, `resolve_capability` says whether a
measurement stands behind it, and a pin takes every other subject out of the pool.

* `adapters_gated`: what these come to for every candidate of a decision. -/

namespace LoadCoach.Routing

open Foundations

variable {s : RouterState} {request : RouteRequest} {cs : List Candidate} {r : Requirements}
  {c : Candidate} {ranked : RankedCandidate} {d : Decision} {adapter : AdapterFacts}
  {capability : String}

/-! ### Measurements -/

/-- A measurement that describes an execution: a benchmark of this very model, machine and runtime
profile, or a production statistic with enough samples. -/
structure Substantiates (s : RouterState) (subject : ExecutionSubject) (capability : String)
    (signal : CapabilitySignal) : Prop where
  names : signal.capabilityId = capability
  source : signal.source = .benchmark ∨ signal.source = .production
  confidence : s.policy.minConfidence ≤ signal.confidence
  bound : signal.source = .benchmark → ∀ state ∈ signal.matchState, state = .bound
  machine : signal.source = .benchmark → ∀ machine ∈ signal.machineFingerprint,
    machineAdmits machine s.policy.machineFingerprint capability = true
  profile : signal.source = .benchmark →
    signal.runtimeProfileHash = some (s.profileHash subject.runtimeProfile)
  samples : signal.source = .production →
    ∃ n ∈ signal.sampleCount, productionMinimumSamples ≤ n

/-- One of some signals measures a subject, and is what its capability was resolved to. -/
def MeasuredBy (signals : List CapabilitySignal) (s : RouterState) (ranked : RankedCandidate)
    (capability : String) : Prop :=
  ∃ signal ∈ signals, Substantiates s ranked.subject capability signal ∧
    ∃ score ∈ ranked.fit.capabilities, score.capabilityId = capability ∧
      score.score = some signal.score ∧ score.confidence = some signal.confidence

theorem exclusion_eq_none {weight : ℚ} {inputs : ResolutionInputs} {signal : CapabilitySignal}
    (h : exclusion capability weight inputs signal = none) (hbenchmark : signal.source = .benchmark) :
    (∀ state ∈ signal.matchState, state = .bound) ∧
      (∀ machine ∈ signal.machineFingerprint,
        machineAdmits machine inputs.machineFingerprint capability = true) ∧
      signal.runtimeProfileHash = some inputs.runtimeProfileHash := by
  unfold exclusion at h
  split_ifs at h with hsource hmatch hmachine hprofile
  · exact absurd hbenchmark hsource
  · refine ⟨fun state hstate => ?_, fun machine hmachine' => ?_, not_not.1 hprofile⟩
    · by_contra hother
      exact hmatch (by rw [Option.mem_def.1 hstate]; simpa using hother)
    · by_contra hother
      exact hmachine (by rw [Option.mem_def.1 hmachine']; simpa using hother)

theorem substantiates_of_usable {weight : ℚ} {subject : ExecutionSubject}
    {inputs : ResolutionInputs} {signal : CapabilitySignal}
    (hconfidence : inputs.minConfidence = s.policy.minConfidence)
    (hmachine : inputs.machineFingerprint = s.policy.machineFingerprint)
    (hprofile : inputs.runtimeProfileHash = s.profileHash subject.runtimeProfile)
    (hnames : signal.capabilityId = capability)
    (hsource : signal.source = .benchmark ∨ signal.source = .production)
    (husable : usable capability weight inputs signal = true) :
    Substantiates s subject capability signal := by
  simp only [usable, Bool.and_eq_true, decide_eq_true_eq, Option.isNone_iff_eq_none,
    Bool.or_eq_true, bne_iff_ne, Option.any_eq_true] at husable
  obtain ⟨⟨hle, hexcluded⟩, hsamples⟩ := husable
  have hbenchmark := fun h => exclusion_eq_none hexcluded h
  rw [hmachine, hprofile] at hbenchmark
  refine ⟨hnames, hsource, hconfidence ▸ hle, fun h => (hbenchmark h).1,
    fun h => (hbenchmark h).2.1, fun h => (hbenchmark h).2.2, fun h => ?_⟩
  obtain ⟨n, hn, hle⟩ := hsamples.resolve_left fun hne => hne h
  exact ⟨n, hn, hle⟩

/-! ### The gate -/

theorem gate_of_checkAdapter {hash : RuntimeProfile → String} {subject : ExecutionSubject}
    {inputs : ConstraintInputs} (h : checkAdapter hash subject adapter inputs = none) :
    subject.provider.adapterHotSwap = true ∧ subject.facts.isRemote = false ∧
      subject.provider.isRemote = false ∧
      (∀ declared ∈ adapter.baseArtifactDigest, ∀ served ∈ subject.facts.artifactDigest,
        declared = served) ∧
      (inputs.requireAdapterEvidence = true → ∀ capability ∈ inputs.topWeightedCapability,
        gateMeasured (inputs.resolved capability) = true) := by
  unfold checkAdapter at h
  dsimp only at h
  split at h
  · cases h
  rename_i hswap
  split at h
  · cases h
  rename_i hbase
  split at h
  · cases h
  rename_i hmeasured
  split at h
  · cases h
  rename_i hremote
  push Not at hremote
  refine ⟨by simpa using hswap, by simpa using hremote.1, by simpa using hremote.2, ?_, ?_⟩
  · intro declared hdeclared served hserved
    rw [Option.mem_def.1 hdeclared, Option.mem_def.1 hserved] at hbase
    by_contra hne
    simp [hne] at hbase
  · intro hrequired capability hcapability
    rw [Option.mem_def.1 hcapability, hrequired] at hmeasured
    simpa using hmeasured

theorem checkAdapter_of_passed {hash : RuntimeProfile → String} {subject : ExecutionSubject}
    {estimate : VramEstimate} {inputs : ConstraintInputs} {fits : List DeviceFit}
    {target : Option ℕ} (hadapter : subject.adapter = some adapter)
    (h : evaluateConstraints hash subject estimate inputs = .ok (fits, target)) :
    checkAdapter hash subject adapter inputs = none := by
  unfold evaluateConstraints at h
  split at h
  · cases h
  split at h
  · cases h
  split at h
  · cases h
  rename_i hselection
  simp only [checkSelection, Option.orElse_eq_orElse, Option.orElse_eq_or, Option.or_eq_none_iff,
    hadapter, Option.bind_some] at hselection
  exact hselection.2.2.1

/-- What a subject with an adapter has to have. -/
structure AdapterAdmitted (s : RouterState) (request : RouteRequest) (profile : StoredTaskProfile)
    (ranked : RankedCandidate) (adapter : AdapterFacts) : Prop where
  /-- The facts it is judged by are those of its own registration. -/
  registration : ranked.subject.provider =
    (s.providerFactsByName.lookup ranked.subject.facts.providerName).getD s.provider
  hotSwap : ranked.subject.provider.adapterHotSwap = true
  isLocal : ranked.subject.facts.isRemote = false ∧ ranked.subject.provider.isRemote = false
  /-- The adapter is one of its base, and the base is the one it was reviewed for. -/
  offered : adapter ∈ s.registry.adapters ranked.subject.facts.providerModelName
  base : ∀ declared ∈ adapter.baseArtifactDigest, ∀ served ∈ ranked.subject.facts.artifactDigest,
    declared = served
  /-- The evidence of this adapter on this model scores the heaviest capability. -/
  measured : request.overrides.adapter = none → s.policy.requireAdapterEvidence = true →
    ∀ capability, topWeightedCapability profile.weights = some capability →
      MeasuredBy (s.registry.evidence profile.weights
        (ranked.subject.facts.modelId, adapter.adapterId)) s ranked capability

/-- **The gate before an adapter**, for every candidate of a decision. -/
structure AdaptersGated (s : RouterState) (request : RouteRequest) (d : Decision) : Prop where
  admitted : ∀ ranked ∈ d.ranking.ordered, ∀ adapter ∈ ranked.subject.adapter,
    AdapterAdmitted s request d.taskProfile ranked adapter
  /-- A pinned adapter is on every candidate, the fallbacks included. -/
  pinned : ∀ name, request.overrides.adapter = some name → ∀ ranked ∈ d.ranking.ordered,
    ∃ adapter ∈ ranked.subject.adapter, adapter.name = name
  executed : ∀ ranked ∈ d.ranking.candidates, ranked ∈ d.ranking.ordered

theorem of_mem_readCandidates {weights : Weights} (hc : c ∈ readCandidates s weights) :
    c.provider = (s.providerFactsByName.lookup c.facts.providerName).getD s.provider ∧
      ∀ adapter ∈ c.adapter, adapter ∈ s.registry.adapters c.facts.providerModelName ∧
        c.signals = adapterSignals adapter ++
          s.registry.evidence weights (c.facts.modelId, adapter.adapterId) := by
  obtain ⟨model, -, hc⟩ := List.mem_flatMap.1 hc
  dsimp only at hc
  split at hc
  · rcases List.mem_cons.1 hc with rfl | hc
    · exact ⟨rfl, by simp⟩
    · obtain ⟨adapter, hadapter, rfl⟩ := List.mem_map.1 hc
      refine ⟨rfl, ?_⟩
      rintro _ ⟨rfl⟩
      exact ⟨hadapter, rfl⟩
  · rw [List.mem_singleton] at hc
    rw [hc]
    exact ⟨rfl, by simp⟩

theorem MeasuredBy.of_declared {evidence : List CapabilitySignal}
    (h : MeasuredBy (adapterSignals adapter ++ evidence) s ranked capability) :
    MeasuredBy evidence s ranked capability := by
  obtain ⟨signal, hsignal, hmeasures, hresolved⟩ := h
  rcases List.mem_append.1 hsignal with hdeclared | hevidence
  · obtain ⟨_, -, rfl⟩ := List.mem_map.1 hdeclared
    rcases hmeasures.source with h | h <;> cases h
  · exact ⟨signal, hevidence, hmeasures, hresolved⟩

theorem Judged.measured (hposed : Posed s request cs r) (hjudged : Judged s request r c ranked)
    (hgate : gateMeasured ((constraintInputs s request r ranked.subject).resolved capability) =
      true) :
    MeasuredBy ranked.subject.signals s ranked capability := by
  have hscoring : r.scoring = (requirementsOf s request r.profile r.constraints cs
      r.maxOutputTokens).scoring := congrArg Requirements.scoring hposed.requirements
  obtain ⟨score, hscore, hmeasured⟩ := (Option.any_eq_true _ _).1 hgate
  have hmem := List.mem_of_find?_eq_some hscore
  have hname := List.find?_some hscore
  rw [beq_iff_eq] at hname
  obtain ⟨⟨name, weight⟩, -, rfl⟩ := List.mem_map.1 hmem
  rw [resolveCapability_names.1] at hname
  dsimp only at hname
  subst hname
  obtain ⟨signal, hsignal, husable, hsource, hvalue, hconfidence⟩ :=
    resolveCapability_gateMeasured ((Option.any_some ..).trans hmeasured)
  obtain ⟨hsignal, hnames⟩ := List.mem_filter.1 hsignal
  refine ⟨signal, hsignal, substantiates_of_usable ?_ ?_ rfl (by simpa using hnames) hsource husable,
    _, hjudged.fit ▸ hmem, resolveCapability_names.1, hvalue, hconfidence⟩
  · rw [hscoring]
    rfl
  · rw [hscoring]
    rfl

/-- **Every adapter of a decision passed the gate**, and a pin is honoured by every candidate. -/
theorem adapters_gated (h : decision s request = .ok d) : AdaptersGated s request d := by
  constructor
  · intro ranked hranked adapter hadapter
    obtain ⟨cs, r, c, hposed, hprofile, hc, hjudged⟩ := judged_of_ordered h hranked
    have hposed := posed_eq_ok hposed
    rw [hprofile]
    obtain ⟨fits, hpassed⟩ := hjudged.passed
    obtain ⟨hswap, hfacts, hprovider, hbase, hmeasured⟩ :=
      gate_of_checkAdapter (checkAdapter_of_passed hadapter hpassed)
    have hsubject : ranked.subject = (buildSubject s request.overrides r.constraints c).2 := by
      rw [hjudged.subject]
    obtain ⟨hregistration, hoffered⟩ := of_mem_readCandidates (hposed.candidates ▸ hc)
    have hcarried : ranked.subject.adapter = c.adapter ∧ ranked.subject.signals = c.signals ∧
        ranked.subject.facts = c.facts ∧ ranked.subject.provider = c.provider := by
      rw [hsubject]
      exact ⟨rfl, rfl, rfl, rfl⟩
    obtain ⟨hsame, hsignals, hsameFacts, hsameProvider⟩ := hcarried
    obtain ⟨hin, hown⟩ := hoffered adapter (hsame ▸ hadapter)
    refine ⟨?_, hswap, ⟨hfacts, hprovider⟩, ?_, hbase, ?_⟩
    · rw [hsameProvider, hsameFacts]
      exact hregistration
    · rw [hsameFacts]
      exact hin
    · intro hpin hrequired capability htop
      have hgated : MeasuredBy ranked.subject.signals s ranked capability := by
        refine hjudged.measured hposed (hmeasured ?_ capability htop)
        simp [constraintInputs, hpin, hrequired]
      rw [hsignals, hown, ← hsameFacts] at hgated
      exact hgated.of_declared
  · intro name hpin ranked hranked
    obtain ⟨cs, r, c, -, -, -, hjudged⟩ := judged_of_ordered h hranked
    have hselected := hjudged.selected
    simp only [selectedBy, hpin, Option.all_some, Bool.and_eq_true, Option.any_eq_true,
      beq_iff_eq] at hselected
    obtain ⟨-, adapter, hadapter, hname⟩ := hselected
    have hsubject : ranked.subject = (buildSubject s request.overrides r.constraints c).2 := by
      rw [hjudged.subject]
    exact ⟨adapter, hsubject ▸ hadapter, hname⟩
  · intro ranked hranked
    rw [decision_eq] at h
    obtain ⟨p, -, rfl⟩ := map_eq_ok.1 h
    exact Ranking.mem_ordered hranked

/-! ### A measured adapter -/

/-- An adapter of the one model. -/
def reviewed : AdapterFacts where
  adapterId := "a"
  name := "summarizer"
  artifactDigest := "sha256:0123456789ab"
  baseModelName := "m"

/-- The adapter was measured on its model, under the profile it would run with. -/
def measuredState : RouterState where
  taskProfiles := [{ profileId := "chat", weights := [("chat", 1)] }]
  registry :=
    { models :=
        [{ modelId := "m", canonicalId := "m", providerKind := "llamacpp"
           providerModelName := "m" }]
      adapters := fun _ => [reviewed]
      evidence := fun _ key =>
        if key = ("m", "a") then
          [{ capabilityId := "chat", source := .benchmark, score := 3 / 4, confidence := 1
             runtimeProfileHash := some "h", matchState := some .bound }]
        else [] }
  provider := { reportedServedContext := some 4096, adapterHotSwap := true }
  profileHash := fun _ => "h"

/-- The adapter is ranked, and gated. -/
theorem adapters_gated_measured : ∃ d, decision measuredState { task := "chat" } = .ok d ∧
    (d.ranking.ordered.map fun ranked => ranked.subject.adapter.map AdapterFacts.name) =
      [some "summarizer", none] ∧
    AdaptersGated measuredState { task := "chat" } d :=
  ⟨_, rfl, by decide +kernel, adapters_gated rfl⟩

end LoadCoach.Routing

import Mathlib.Data.List.MinMax
import Mathlib.Data.Prod.Lex
import Mathlib.Order.WithBot
import LoadCoach.Routing.Constraints

/-! # The routing pipeline

`services/routing.py` with `domain/routing/context_budget.py` and `domain/routing/ranking.py`: the
candidates the registry knows, each resolved into an execution subject; the hard constraints; the
scores and the adjustment factors; the ranking; and the context budget of the candidate that won.
A decision is a function of the request and of the state it is made in (`RouterState`), which
holds everything the pipeline reads: the stored profiles, the registry with its evidence and
production statistics, the telemetry, the residency and the breakers.

The explanation of a decision and its storage are left out. -/

namespace LoadCoach.Routing

open Foundations

/-! ### The context budget -/

/-- Estimate a prompt's tokens from its length, four characters a token, rounded up. -/
def estimateInputTokens (text : String) : ℕ := (text.length + 3) / 4

/-- Headroom above input plus output. -/
def safetyMarginTokens : ℕ := 256

/-- Whether a request fits the context it will be served, and at what output length. -/
structure ContextBudget where
  fits : Bool
  estimatedInputTokens : ℕ
  maxOutputTokens : Number
  requestedOutputTokens : Number
  reduced : Bool
  requiredContext : Number
  servedContext : ServedContext
  shortfallTokens : Number := .int 0
deriving DecidableEq, Repr

/-- Fit a request into the served context, reducing the output allowance where permitted. -/
def budgetContext (estimatedInputTokens : ℕ) (maxOutputTokens : Number) (served : ServedContext)
    (minOutputTokens : Option ℕ) : ContextBudget :=
  let required := maxOutputTokens.plus (estimatedInputTokens + safetyMarginTokens)
  let room : ℤ := served.tokens - estimatedInputTokens - safetyMarginTokens
  if required.atMost served.tokens then
    { fits := true, estimatedInputTokens, maxOutputTokens, requestedOutputTokens := maxOutputTokens
      reduced := false, requiredContext := required, servedContext := served }
  else if minOutputTokens.any fun floor : ℕ => decide ((floor : ℤ) ≤ room) then
    { fits := true, estimatedInputTokens, maxOutputTokens := maxOutputTokens.capped room
      requestedOutputTokens := maxOutputTokens, reduced := true
      requiredContext :=
        (maxOutputTokens.capped room).plus (estimatedInputTokens + safetyMarginTokens)
      servedContext := served }
  else
    { fits := false, estimatedInputTokens, maxOutputTokens, requestedOutputTokens := maxOutputTokens
      reduced := false, requiredContext := required, servedContext := served
      shortfallTokens := required.plus (-served.tokens) }

/-! ### Ranking -/

/-- One surviving candidate with everything the ordering needs. -/
structure RankedCandidate where
  subject : ExecutionSubject
  fit : TaskFit
  factors : AdjustmentFactors
  estimatedVramBytes : Option ℕ := none
  targetGpuIndex : Option ℕ := none
  resident : Bool := false
  rank : ℕ := 0

namespace RankedCandidate

/-- The score candidates are ordered by. -/
def finalScore (candidate : RankedCandidate) : ℚ :=
  candidate.fit.taskFit * candidate.factors.product

/-- The key candidates are sorted by; an unknown footprint is the largest. -/
def orderKey (candidate : RankedCandidate) : ℚ ×ₗ ℚ ×ₗ ℕ ×ₗ WithTop ℕ ×ₗ String ×ₗ String :=
  toLex (-candidate.finalScore, toLex (-candidate.fit.meanConfidence,
    toLex (if candidate.resident then 0 else 1, toLex (
      (candidate.estimatedVramBytes.elim ⊤ fun bytes => (bytes : WithTop ℕ)),
      toLex (candidate.subject.facts.canonicalId, candidate.subject.facts.modelId)))))

end RankedCandidate

/-- The ordered candidates, split into the primary and its fallbacks. -/
structure Ranking where
  ordered : List RankedCandidate
  primary : Option RankedCandidate
  fallbacks : List RankedCandidate

/-- Order the eligible candidates and pick the primary and its fallbacks. -/
def rankCandidates (candidates : List RankedCandidate) (fallbackDepth : ℕ)
    (disallowFallback : Bool) : Ranking :=
  let sorted := candidates.insertionSort fun a b => a.orderKey ≤ b.orderKey
  let ordered := (sorted.zipIdx 1).map fun e => { e.1 with rank := e.2 }
  let depth := if disallowFallback then 0 else fallbackDepth
  { ordered, primary := ordered.head?, fallbacks := ordered.tail.take depth }

/-! ### Task profiles and requests -/

/-- A task profile's hard filters. -/
structure TaskProfileConstraints where
  minContextTokens : ℕ := 0
  requiresCapabilities : List String := []
  maxLatencyP95Seconds : Option ℚ := none
  minCapabilityScores : List (String × ℚ) := []
  excludeModels : List String := []
  allowRemoteProviders : Bool := false

/-- The parameters of a task profile a decision and its calls read. -/
structure TaskProfileExecution where
  temperature : JsonFloat := .literal 0 0
  maxOutputTokens : ℕ := 1024
  minOutputTokens : Option ℕ := none
  responseFormat : String := "text"
  fallbackDepth : ℕ := 0
  think : Option Bool := none

/-- A stored task profile. -/
structure StoredTaskProfile where
  profileId : String
  weights : Weights
  constraints : TaskProfileConstraints := {}
  execution : TaskProfileExecution := {}
  enabled : Bool := true

/-- One request to route. -/
structure RouteRequest where
  task : String
  estimatedInputTokens : Option ℕ := none
  /-- The value as it is given; `none` where nothing or `null` is. -/
  maxOutputTokens : Option Json := none
  constraints : Option TaskProfileConstraints := none
  requireCapabilities : List String := []
  think : Option Bool := none
  overrides : RuntimeOverrides := {}
  dataClassification : Option String := none

/-- The configured policy of routing. -/
structure RoutingPolicy where
  minConfidence : ℚ := 1 / 20
  preferResidentBonus : ℚ := 1 / 20
  baseSwitchPenalty : ℚ := 1 / 10
  requireAdapterEvidence : Bool := true
  remoteCostFactor : ℚ := 9 / 10
  vramHeadroomBytes : ℕ := defaultVramHeadroomBytes
  runtimeDefaults : RuntimeProfile := {}
  runtimePerModel : String → Option RuntimeProfile := fun _ => none
  machineFingerprint : Option String := none

/-! ### The registry -/

/-- One stored capability of a model. -/
structure ModelCapability where
  modelId : String
  capabilityId : String
  source : SignalSource
  score : Option ℚ
  confidence : ℚ

/-- What the registry holds.  The models come in the order of their canonical IDs, the adapters
under the base they declare. -/
structure Registry where
  models : List ModelFacts
  capabilities : List ModelCapability := []
  /-- The imported evidence that may score under given weights, by model and adapter. -/
  evidence : Weights → String × String → List CapabilitySignal := fun _ _ => []
  adapters : String → List AdapterFacts := fun _ => []
  /-- The production reliability of a model and an adapter on a task, where there is any. -/
  reliability : String → String × String → Option ℚ := fun _ _ => none

/-- Everything a decision reads besides the request. -/
structure RouterState where
  taskProfiles : List StoredTaskProfile
  registry : Registry
  provider : ProviderFacts
  providerFactsByName : List (String × ProviderFacts) := []
  policy : RoutingPolicy := {}
  snapshot : Option TelemetrySnapshot := none
  residentModels : List String := []
  openCircuitBreakers : List String := []
  residentDevices : String → List ℕ := fun _ => []
  circuitBreakerDetails : String → Members := fun _ => []
  /-- The stable hash of a runtime profile. -/
  profileHash : RuntimeProfile → String

/-- A candidate before it is resolved. -/
structure Candidate where
  facts : ModelFacts
  provider : ProviderFacts
  signals : List CapabilitySignal
  adapter : Option AdapterFacts

/-- `_facts_for`: a row that names no registration has the egress class of the provider. -/
def factsFor (model : ModelFacts) (isRemote : Bool) : ModelFacts :=
  { model with isRemote := if model.providerName != "" then model.isRemote else isRemote }

/-- `_signals_for`. -/
def signalsFor (rows : List ModelCapability) : List CapabilitySignal :=
  rows.filterMap fun row => row.score.map fun score =>
    { capabilityId := row.capabilityId, source := row.source, score, confidence := row.confidence }

/-- `_adapter_signals`: what an adapter's manifest declares. -/
def adapterSignals (adapter : AdapterFacts) : List CapabilitySignal :=
  adapter.declaredCapabilities.map fun capabilityId =>
    { capabilityId, source := .declared, score := 1, confidence := 1 / 2 }

/-- `_read_candidates`: every model, and under a provider that can swap adapters every adapter of
its base. -/
def readCandidates (s : RouterState) (weights : Weights) : List Candidate :=
  s.registry.models.flatMap fun model =>
    let facts := factsFor model s.provider.isRemote
    let provider := (s.providerFactsByName.lookup model.providerName).getD s.provider
    let rows := s.registry.capabilities.filter fun row => row.modelId == model.modelId
    let signals := signalsFor rows ++ s.registry.evidence weights (model.modelId, "")
    let base : Candidate := { facts, provider, signals, adapter := none }
    if provider.adapterHotSwap then
      base :: (s.registry.adapters facts.providerModelName).map fun adapter =>
        { facts, provider, adapter := some adapter
          signals := adapterSignals adapter ++
            s.registry.evidence weights (model.modelId, adapter.adapterId) }
    else
      [base]

/-! ### One decision -/

/-- One candidate that was removed. -/
structure RejectedCandidate where
  subject : ExecutionSubject
  rejection : Rejection
  estimate : Option VramEstimate := none

/-- A completed decision. -/
structure Decision where
  taskProfile : StoredTaskProfile
  ranking : Ranking
  rejected : List RejectedCandidate
  budget : Option ContextBudget

/-- `load_task_profile`. -/
def loadTaskProfile (s : RouterState) (task : String) : Except Raised StoredTaskProfile :=
  match s.taskProfiles.find? fun profile => profile.profileId == task && profile.enabled with
  | some profile => .ok profile
  | none => .error (.suite "TASK_PROFILE_NOT_FOUND"
      s!"No enabled task profile '{task}' is registered." [("task_profile_id", .str task)])

/-- The fields of a request's constraints that would loosen the profile's own. -/
def looseningFields (base requested : TaskProfileConstraints) : List String :=
  (if requested.minContextTokens < base.minContextTokens ∧ requested.minContextTokens ≠ 0 then
    ["constraints.min_context_tokens"] else []) ++
  (if requested.allowRemoteProviders ∧ base.allowRemoteProviders = false then
    ["constraints.allow_remote_providers"] else []) ++
  (match requested.maxLatencyP95Seconds, base.maxLatencyP95Seconds with
    | some r, some b => if b < r then ["constraints.max_latency_p95_seconds"] else []
    | _, _ => []) ++
  requested.minCapabilityScores.filterMap fun e =>
    (base.minCapabilityScores.lookup e.1).bind fun floor =>
      if e.2 < floor then some s!"constraints.min_capability_scores.{e.1}" else none

/-- `sorted(set(a) | set(b))`. -/
def sortedUnion (a b : List String) : List String :=
  (a ++ b).dedup.insertionSort (· ≤ ·)

/-- `_merged_constraints`: combine the profile's constraints with the request's, refusing any
loosening. -/
def mergedConstraints (base : TaskProfileConstraints) (requested : Option TaskProfileConstraints) :
    Except Raised TaskProfileConstraints :=
  match requested with
  | none => .ok base
  | some requested =>
      let problems := looseningFields base requested
      if problems ≠ [] then
        .error (.suite "VALIDATION_ERROR"
          ("Request constraints may only tighten the task profile's own; these would loosen it.")
          [("fields", .arr ((problems.insertionSort (· ≤ ·)).map Json.str))])
      else
        .ok
          { minContextTokens := max base.minContextTokens requested.minContextTokens
            requiresCapabilities :=
              sortedUnion base.requiresCapabilities requested.requiresCapabilities
            maxLatencyP95Seconds :=
              match base.maxLatencyP95Seconds, requested.maxLatencyP95Seconds with
              | some b, some r => some (min b r)
              | none, r => r
              | b, none => b
            minCapabilityScores :=
              ((base.minCapabilityScores ++ requested.minCapabilityScores).map Prod.fst).dedup.map
                fun capability => (capability,
                  max ((base.minCapabilityScores.lookup capability).getD 0)
                    ((requested.minCapabilityScores.lookup capability).getD 0))
            excludeModels := sortedUnion base.excludeModels requested.excludeModels
            allowRemoteProviders := base.allowRemoteProviders && requested.allowRemoteProviders }

/-- The constraints with the capabilities a request needs. -/
def requiring (constraints : TaskProfileConstraints) (capabilities : List String) :
    TaskProfileConstraints :=
  if capabilities.all constraints.requiresCapabilities.contains then constraints
  else
    { constraints with
      requiresCapabilities := sortedUnion capabilities constraints.requiresCapabilities }

/-- The output allowance: the request's, unless it is falsy, over the profile's. -/
def outputAllowance (requested : Option Json) (default : ℕ) : Except Raised Number :=
  match requested.filter Json.truthy with
  | none => .ok (.int default)
  | some (.int n) => .ok (.int n)
  | some (.bool _) => .ok (.int 1)
  | some (.float x) => .ok (.ofFloat x)
  | some _ => .error .typeError

/-- `_refuse_unknown_adapter`: refuse a pin no candidate could ever honour. -/
def refuseUnknownAdapter (pinned : String) (candidates : List Candidate) : Except Raised Unit :=
  let known := sortedUnion [] (candidates.filterMap fun c => c.adapter.map AdapterFacts.name)
  if known.contains pinned then .ok ()
  else
    let available := if known.isEmpty then "none" else ", ".intercalate known
    .error (.suite "ADAPTER_NOT_FOUND"
      (s!"no adapter named '{pinned}' is registered on any provider that could serve this " ++
        s!"request; adapters available here: {available}")
      [("adapter", .str pinned), ("known_adapters", .arr (known.map Json.str))])

/-- `_top_weighted_capability`: the profile's heaviest capability, the first by name of several. -/
def topWeightedCapability (weights : Weights) : Option String :=
  ((sortedWeights weights).argmax Prod.snd).map Prod.fst

/-- `_build_subject`: resolve one candidate; `none` where no served context could be established. -/
def buildSubject (s : RouterState) (overrides : RuntimeOverrides)
    (constraints : TaskProfileConstraints) (c : Candidate) :
    Option ServedContext × ExecutionSubject :=
  let profile := resolveRuntimeProfile s.policy.runtimeDefaults
    (s.policy.runtimePerModel c.facts.canonicalId) constraints.minContextTokens
    c.provider.contextConfigurable overrides.runtimeProfile c.provider.adaptersRegistered
  let served := resolveServedContext profile c.provider c.facts.maxContext
  (served,
    { facts := c.facts, provider := c.provider, runtimeProfile := profile
      servedContext := served.getD ⟨0, .assumed⟩, signals := c.signals, adapter := c.adapter })

/-- Whether a request's pins leave a candidate in the pool. -/
def selectedBy (overrides : RuntimeOverrides) (c : Candidate) : Bool :=
  overrides.model.all (fun model => c.facts.canonicalId == model) &&
    overrides.adapter.all fun pinned => c.adapter.any fun adapter => adapter.name == pinned

/-- What a request asks of every candidate, once the profile is known. -/
structure Requirements where
  profile : StoredTaskProfile
  constraints : TaskProfileConstraints
  requiresThinkingControl : Option String
  maxOutputTokens : Number
  scoring : ScoringInputs

/-- The budget of a candidate; `none` where the request gave no size. -/
def candidateBudget (request : RouteRequest) (r : Requirements) (served : ServedContext) :
    Option ContextBudget :=
  request.estimatedInputTokens.map fun tokens =>
    budgetContext tokens r.maxOutputTokens served r.profile.execution.minOutputTokens

/-- The estimate of a subject. -/
def subjectEstimate (subject : ExecutionSubject) : VramEstimate :=
  estimateVram subject.facts.sizeBytes subject.servedContext.tokens subject.facts.layers
    subject.facts.kvHeads subject.facts.headDim subject.runtimeProfile.kvCachePrecision

/-- What the hard constraints read for a subject. -/
def constraintInputs (s : RouterState) (request : RouteRequest) (r : Requirements)
    (subject : ExecutionSubject) : ConstraintInputs where
  minContextTokens := r.constraints.minContextTokens
  requiresCapabilities := r.constraints.requiresCapabilities
  minCapabilityScores := r.constraints.minCapabilityScores
  excludeModels := r.constraints.excludeModels
  allowRemoteProviders := r.constraints.allowRemoteProviders
  requiredContext := ((candidateBudget request r subject.servedContext).filter
    fun budget => !budget.fits).map ContextBudget.requiredContext
  resolvedCapabilities := (scoreSubject s.profileHash subject r.scoring).capabilities
  snapshot := s.snapshot
  vramHeadroomBytes := s.policy.vramHeadroomBytes
  openCircuitBreakers := s.openCircuitBreakers
  residentDevices := s.residentDevices
  circuitBreakerDetails := s.circuitBreakerDetails
  requestCapabilities := request.requireCapabilities
  requiresThinkingControl := r.requiresThinkingControl
  requireAdapterEvidence := s.policy.requireAdapterEvidence && request.overrides.adapter.isNone
  topWeightedCapability := topWeightedCapability r.profile.weights
  callerDataClassification := request.dataClassification

/-- The verdict on one candidate. -/
inductive Verdict where
  /-- A pin takes it out of the pool. -/
  | skipped
  | rejected (candidate : RejectedCandidate)
  | ranked (candidate : RankedCandidate)

/-- Judge one candidate. -/
def judgeCandidate (s : RouterState) (request : RouteRequest) (r : Requirements) (c : Candidate) :
    Verdict :=
  let (served, subject) := buildSubject s request.overrides r.constraints c
  if served.isNone then
    .rejected { subject, rejection := .noContext c.facts.canonicalId }
  else if selectedBy request.overrides c = false then
    .skipped
  else
    let estimate := subjectEstimate subject
    match evaluateConstraints s.profileHash subject estimate
        (constraintInputs s request r subject) with
    | .error rejection => .rejected { subject, rejection, estimate := some estimate }
    | .ok (_, target) =>
        .ranked
          { subject
            fit := scoreSubject s.profileHash subject r.scoring
            factors := adjustmentFactors subject s.residentModels s.policy.preferResidentBonus
              s.policy.baseSwitchPenalty request.overrides.ignoreResidency
              s.policy.remoteCostFactor
              ((s.registry.reliability r.profile.profileId
                (c.facts.modelId, (c.adapter.map AdapterFacts.adapterId).getD "")).getD 1)
            estimatedVramBytes := estimate.totalBytes
            targetGpuIndex := target
            resident := s.residentModels.contains c.facts.canonicalId }

/-- The candidate a verdict leaves in the ranking. -/
def Verdict.ranked? : Verdict → Option RankedCandidate
  | .ranked candidate => some candidate
  | _ => none

/-- The candidate a verdict removes. -/
def Verdict.rejected? : Verdict → Option RejectedCandidate
  | .rejected candidate => some candidate
  | _ => none

/-- Whether some candidate is measured against a budget at all. -/
def reachesBudget (s : RouterState) (request : RouteRequest) (constraints : TaskProfileConstraints)
    (candidates : List Candidate) : Bool :=
  request.estimatedInputTokens.isSome && candidates.any fun c =>
    (buildSubject s request.overrides constraints c).1.isSome && selectedBy request.overrides c

/-- The decision on a request: the ranking, what was removed, and the budget of the primary. -/
def decision (s : RouterState) (request : RouteRequest) : Except Raised Decision := do
  let profile ← loadTaskProfile s request.task
  let merged ← mergedConstraints profile.constraints request.constraints
  let constraints := requiring merged request.requireCapabilities
  let candidates := readCandidates s profile.weights
  match request.overrides.adapter with
  | some pinned => refuseUnknownAdapter pinned candidates
  | none => pure ()
  let maxOutputTokens ←
    if reachesBudget s request constraints candidates then
      outputAllowance request.maxOutputTokens profile.execution.maxOutputTokens
    else
      pure (.int profile.execution.maxOutputTokens)
  let r : Requirements :=
    { profile, constraints, maxOutputTokens
      requiresThinkingControl :=
        if request.think.isSome then some "request"
        else if profile.execution.think.isSome then some "task_profile"
        else none
      scoring :=
        { weights := profile.weights
          minConfidence := s.policy.minConfidence
          parameterPriors := parameterBandPriors
            (candidates.map fun c => (c.facts.canonicalId, c.facts.parameterCount))
          requireEvidence := request.overrides.requireEvidence
          machineFingerprint := s.policy.machineFingerprint } }
  let verdicts := candidates.map (judgeCandidate s request r)
  let ranking := rankCandidates (verdicts.filterMap Verdict.ranked?)
    profile.execution.fallbackDepth request.overrides.disallowFallback
  pure
    { taskProfile := profile
      ranking
      rejected := verdicts.filterMap Verdict.rejected?
      budget := ranking.primary.bind fun primary =>
        candidateBudget request r primary.subject.servedContext }

/-- What routing raises. -/
inductive RouteError where
  | raised (x : Raised)
  /-- Every candidate was rejected. -/
  | noEligibleModel (taskProfileId : String) (candidates : List RejectedCandidate)

/-- Run the whole pipeline. -/
def route (s : RouterState) (request : RouteRequest) : Except RouteError Decision :=
  match decision s request with
  | .error x => .error (.raised x)
  | .ok d =>
      if d.ranking.primary.isNone then .error (.noEligibleModel d.taskProfile.profileId d.rejected)
      else .ok d

/-! ### What a decision is made of -/

/-- The candidates a request is judged over, with what it asks of them. -/
def posed (s : RouterState) (request : RouteRequest) :
    Except Raised (List Candidate × Requirements) := do
  let profile ← loadTaskProfile s request.task
  let merged ← mergedConstraints profile.constraints request.constraints
  let constraints := requiring merged request.requireCapabilities
  let candidates := readCandidates s profile.weights
  match request.overrides.adapter with
  | some pinned => refuseUnknownAdapter pinned candidates
  | none => pure ()
  let maxOutputTokens ←
    if reachesBudget s request constraints candidates then
      outputAllowance request.maxOutputTokens profile.execution.maxOutputTokens
    else
      pure (.int profile.execution.maxOutputTokens)
  pure (candidates,
    { profile, constraints, maxOutputTokens
      requiresThinkingControl :=
        if request.think.isSome then some "request"
        else if profile.execution.think.isSome then some "task_profile"
        else none
      scoring :=
        { weights := profile.weights
          minConfidence := s.policy.minConfidence
          parameterPriors := parameterBandPriors
            (candidates.map fun c => (c.facts.canonicalId, c.facts.parameterCount))
          requireEvidence := request.overrides.requireEvidence
          machineFingerprint := s.policy.machineFingerprint } })

/-- The verdicts on a posed request. -/
def verdicts (s : RouterState) (request : RouteRequest) (cs : List Candidate) (r : Requirements) :
    List Verdict :=
  cs.map (judgeCandidate s request r)

/-- The ranking a posed request comes to. -/
def ranked (s : RouterState) (request : RouteRequest) (cs : List Candidate) (r : Requirements) :
    Ranking :=
  rankCandidates ((verdicts s request cs r).filterMap Verdict.ranked?)
    r.profile.execution.fallbackDepth request.overrides.disallowFallback

theorem decision_eq (s : RouterState) (request : RouteRequest) :
    decision s request = (posed s request).map fun p =>
      { taskProfile := p.2.profile
        ranking := ranked s request p.1 p.2
        rejected := (verdicts s request p.1 p.2).filterMap Verdict.rejected?
        budget := (ranked s request p.1 p.2).primary.bind fun primary =>
          candidateBudget request p.2 primary.subject.servedContext } := by
  unfold decision posed
  cases loadTaskProfile s request.task with
  | error x => rfl
  | ok profile =>
      cases hmerged : mergedConstraints profile.constraints request.constraints with
      | error x =>
          simp only [ok_bind, hmerged]
          rfl
      | ok merged =>
          simp only [ok_bind, hmerged]
          -- the two branches of a pin end in the same test of the output allowance
          cases request.overrides.adapter with
          | none =>
              simp only
              split
              · cases outputAllowance request.maxOutputTokens profile.execution.maxOutputTokens <;>
                  rfl
              · rfl
          | some pinned =>
              simp only
              cases refuseUnknownAdapter pinned (readCandidates s profile.weights) with
              | error x => rfl
              | ok _ =>
                  simp only [ok_bind]
                  split
                  · cases outputAllowance request.maxOutputTokens
                      profile.execution.maxOutputTokens <;> rfl
                  · rfl

/-! ### Whether anything is left -/

theorem rankCandidates_primary_eq_none {candidates : List RankedCandidate} {depth : ℕ}
    {disallow : Bool} :
    (rankCandidates candidates depth disallow).primary = none ↔ candidates = [] := by
  simp [rankCandidates, List.head?_eq_none_iff, ← List.length_eq_zero_iff]

theorem ranked_primary_eq_none {s : RouterState} {request : RouteRequest} {cs : List Candidate}
    {r : Requirements} :
    (ranked s request cs r).primary = none ↔
      ∀ c ∈ cs, (judgeCandidate s request r c).ranked? = none := by
  rw [ranked, rankCandidates_primary_eq_none, verdicts, List.filterMap_eq_nil_iff]
  simp

/-- **When routing finds no model**: no candidate is left for the ranking, and the refusal carries
every rejection. -/
theorem route_eq_noEligibleModel {s : RouterState} {request : RouteRequest} {id : String}
    {rejected : List RejectedCandidate} :
    route s request = .error (.noEligibleModel id rejected) ↔
      ∃ cs r, posed s request = .ok (cs, r) ∧ r.profile.profileId = id ∧
        (∀ c ∈ cs, (judgeCandidate s request r c).ranked? = none) ∧
        (verdicts s request cs r).filterMap Verdict.rejected? = rejected := by
  rw [route, decision_eq]
  cases hposed : posed s request with
  | error x => simp [Except.map]
  | ok p =>
      obtain ⟨cs, r⟩ := p
      cases hprimary : (ranked s request cs r).primary with
      | none => simpa [Except.map, hprimary, and_assoc] using
          fun _ _ => ranked_primary_eq_none.1 hprimary
      | some primary =>
          have hne : ¬ ∀ c ∈ cs, (judgeCandidate s request r c).ranked? = none := by
            rw [← ranked_primary_eq_none, hprimary]
            simp
          simpa [Except.map, hprimary] using fun _ hall => absurd hall hne

end LoadCoach.Routing

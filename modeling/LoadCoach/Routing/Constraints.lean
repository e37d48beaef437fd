import Mathlib.Data.Rat.Floor
import LoadCoach.Foundations.Number
import LoadCoach.Foundations.Text
import LoadCoach.Routing.Scoring

/-! # The estimator and the hard constraints

`domain/routing/constraints.py`.  The estimator (`estimateVram`) says what one model under one
runtime profile needs on a single device, and `deviceFits` compares that with every visible device
by itself.  The filter (`evaluateConstraints`) applies the hard constraints in the documented
order, stops at the first that fails and names it with the numbers behind it; a candidate that
survives is placed on the first device that holds it.

Byte sizes are exact: the loading overhead of five per cent is rounded down from the rational
product. -/

namespace LoadCoach.Routing

open Foundations

/-! ### The estimator -/

/-- Weights occupy more than their file size once loaded. -/
def loadingOverheadFactor : ℚ := 21 / 20

/-- The scratch memory of one execution. -/
def activationOverheadBytes : ℕ := 256 * 1024 * 1024

/-- What a cache is assumed to be stored at when the profile does not say. -/
def assumedKvCachePrecision : String := "f16"

/-- The per-device reserve where none is configured. -/
def defaultVramHeadroomBytes : ℕ := 512 * 1024 * 1024

/-- The size of one cache element. -/
def bytesPerElement : List (String × ℚ) :=
  [("f32", 4), ("fp32", 4), ("f16", 2), ("fp16", 2), ("bf16", 2), ("q8_0", 1), ("q8", 1),
   ("q5_1", 5 / 8), ("q5_0", 5 / 8), ("q4_0", 1 / 2), ("q4_1", 1 / 2), ("q4", 1 / 2)]

/-- Where a per-token figure comes from. -/
inductive KvSource where
  | observed
  | theoretical
  | unknown
deriving DecidableEq, Repr

/-- What a precision is looked up by. -/
@[irreducible] def cachePrecision (stated : Option String) : String :=
  lower (strip (stated.getD assumedKvCachePrecision))

/-- The cache cost of one token, its source, and whether the precision was assumed. -/
def kvBytesPerToken (layers kvHeads headDim : Option ℕ) (kvCachePrecision : Option String)
    (observed : Option ℚ := none) : Option ℚ × KvSource × Bool :=
  match observed, layers, kvHeads, headDim with
  | some figure, _, _, _ => (some figure, .observed, false)
  | none, some layers, some kvHeads, some headDim =>
      let stated := kvCachePrecision.filter fun precision => precision != ""
      match bytesPerElement.lookup (cachePrecision stated) with
      | none => (none, .unknown, false)
      | some elementBytes =>
          (some (2 * layers * kvHeads * headDim * elementBytes), .theoretical,
            kvCachePrecision.isNone)
  | none, _, _, _ => (none, .unknown, false)

/-- What one candidate is estimated to need on one device. -/
structure VramEstimate where
  totalBytes : Option ℕ
  weightsBytes : Option ℕ
  kvBytes : Option ℕ
  activationBytes : ℕ := activationOverheadBytes
  kvBytesPerToken : Option ℚ
  kvSource : KvSource
  kvPrecisionAssumed : Bool
  servedContext : ℕ
  unknownReason : Option String := none

/-- Which input of an estimate is missing. -/
def unknownReason (sizeBytes : Option ℕ) (perToken : Option ℚ) : Option String :=
  match sizeBytes, perToken with
  | none, none =>
      some "the provider reported neither a weight size nor the geometry a KV figure needs"
  | none, some _ => some "the provider reported no weight size for this model"
  | some _, none =>
      some ("no measured KV figure exists and the provider reported no layers/kv_heads/head_dim " ++
        "to compute a theoretical one")
  | some _, some _ => none

/-- Estimate what one model under one runtime profile needs on a single device. -/
def estimateVram (sizeBytes : Option ℕ) (servedContext : ℕ) (layers kvHeads headDim : Option ℕ)
    (kvCachePrecision : Option String) : VramEstimate :=
  let (perToken, kvSource, assumed) := kvBytesPerToken layers kvHeads headDim kvCachePrecision
  let weights := sizeBytes.map fun size => ⌊size * loadingOverheadFactor⌋.toNat
  let kv := perToken.map fun figure => ⌊figure * servedContext⌋.toNat
  { totalBytes := weights.bind fun w => kv.map fun k => w + k + activationOverheadBytes
    weightsBytes := weights
    kvBytes := kv
    kvBytesPerToken := perToken
    kvSource
    kvPrecisionAssumed := assumed
    servedContext
    unknownReason := unknownReason sizeBytes perToken }

/-! ### Devices -/

/-- One device of a telemetry observation; `none` is what the driver did not report. -/
structure Gpu where
  index : ℕ
  vramTotalBytes : Option ℕ
  vramUsedBytes : Option ℕ
deriving DecidableEq, Repr

/-- What a device has free. -/
def Gpu.free (gpu : Gpu) : Option ℕ :=
  gpu.vramTotalBytes.bind fun total => gpu.vramUsedBytes.map fun used => total - used

/-- One telemetry observation. -/
structure TelemetrySnapshot where
  gpus : List Gpu := []
  ramAvailableBytes : Option ℕ := none
deriving DecidableEq, Repr

/-- Free memory per visible device. -/
def freeVramByGpu (snapshot : TelemetrySnapshot) : List (ℕ × Option ℕ) :=
  dict (snapshot.gpus.map fun gpu => (gpu.index, gpu.free))

/-- Whether one device can hold one candidate, with the numbers behind the verdict. -/
structure DeviceFit where
  gpuIndex : ℕ
  freeBytes : Option ℕ
  requiredBytes : Option ℕ
  headroomBytes : ℕ
  fits : Bool
deriving DecidableEq, Repr

/-- The requirement and the headroom fit into what is free; an unknown number does not fit. -/
def fitsIn (required free : Option ℕ) (headroomBytes : ℕ) : Bool :=
  required.any fun r => free.any fun f => decide (r + headroomBytes ≤ f)

/-- Evaluate every visible device independently, in ascending order. -/
def deviceFits (estimate : VramEstimate) (snapshot : TelemetrySnapshot) (headroomBytes : ℕ) :
    List DeviceFit :=
  ((freeVramByGpu snapshot).insertionSort fun a b => a.1 ≤ b.1).map fun e =>
    { gpuIndex := e.1, freeBytes := e.2, requiredBytes := estimate.totalBytes, headroomBytes
      fits := fitsIn estimate.totalBytes e.2 headroomBytes }

/-! ### Rejections -/

/-- Why one candidate was removed, with the numbers that caused it. -/
inductive Rejection where
  | modelDisabled
  | runtimeSettingUnhonoured (field : String) (value : Bool ⊕ String) (providerKind : String)
  | kvCacheNeedsFlashAttention (kvCachePrecision : String) (flashAttention : Option Bool)
  | modelUnavailable (available providerHealthy : Bool) (reason : Option String)
  /-- No context could be established for the model at all. -/
  | noContext (canonicalId : String)
  | contextTooSmall (served : ServedContext) (minContextTokens : ℕ)
      (advertisedMaxContext : Option ℕ)
  | contextNotConfigurable (requestedContext : ℕ) (served : ServedContext) (minContextTokens : ℕ)
  | contextLimitExceeded (requiredContext : Number) (served : ServedContext)
  | capabilityUnsupported (capability providerKind requiredBy : String)
  | insufficientVram (estimate : VramEstimate) (fits : List DeviceFit) (headroomBytes : ℕ)
  | insufficientRam (estimatedBytes freeBytes : ℕ)
  | belowMinimumScore (capability : String) (score minimum : ℚ)
  | excludedModel
  | excludedRemote (providerKind : String)
  | adapterNotHotSwapped (adapter providerName providerKind : String)
  | adapterBaseMismatch (adapter declaredBaseName declaredBaseDigest servedBaseDigest : String)
  | adapterUnmeasured (adapter capability : String) (resolved : Option CapabilityScore)
      (executingProfileHash : String)
  | adapterClassificationConflict (adapter adapterClassification : String)
      (callerClassification : Option String) (effectiveClassification providerName : String)
  | recentlyFailing (circuitBreaker : Members)

/-- The code of a rejection. -/
def Rejection.reason : Rejection → String
  | .modelDisabled => "model_disabled"
  | .runtimeSettingUnhonoured .. => "runtime_setting_unhonoured"
  | .kvCacheNeedsFlashAttention .. => "kv_cache_needs_flash_attention"
  | .modelUnavailable .. => "model_unavailable"
  | .noContext _ | .contextTooSmall .. => "context_too_small"
  | .contextNotConfigurable .. => "context_not_configurable"
  | .contextLimitExceeded .. => "context_limit_exceeded"
  | .capabilityUnsupported .. => "capability_unsupported"
  | .insufficientVram .. => "insufficient_vram"
  | .insufficientRam .. => "insufficient_ram"
  | .belowMinimumScore .. => "below_minimum_score"
  | .excludedModel | .excludedRemote _ => "excluded_by_policy"
  | .adapterNotHotSwapped .. | .adapterBaseMismatch .. => "adapter_incompatible"
  | .adapterUnmeasured .. => "adapter_unmeasured"
  | .adapterClassificationConflict .. => "adapter_classification_conflict"
  | .recentlyFailing _ => "recently_failing"

/-- Everything the hard constraints read besides the candidate. -/
structure ConstraintInputs where
  minContextTokens : ℕ := 0
  requiresCapabilities : List String := []
  minCapabilityScores : List (String × ℚ) := []
  excludeModels : List String := []
  allowRemoteProviders : Bool := false
  requiredContext : Option Number := none
  resolvedCapabilities : List CapabilityScore := []
  snapshot : Option TelemetrySnapshot := none
  vramHeadroomBytes : ℕ := defaultVramHeadroomBytes
  openCircuitBreakers : List String := []
  residentDevices : String → List ℕ := fun _ => []
  circuitBreakerDetails : String → Members := fun _ => []
  requestCapabilities : List String := []
  requiresThinkingControl : Option String := none
  requireAdapterEvidence : Bool := true
  topWeightedCapability : Option String := none
  callerDataClassification : Option String := none

namespace ConstraintInputs

/-- The score that was resolved for a capability. -/
def resolved (inputs : ConstraintInputs) (capability : String) : Option CapabilityScore :=
  inputs.resolvedCapabilities.find? fun score => score.capabilityId == capability

end ConstraintInputs

/-! ### The constraints -/

/-- `runtime_profile_refusal`: why a resolved profile cannot be served as stated. -/
def runtimeProfileRefusal (profile : RuntimeProfile) (providerKind : String) : Option Rejection :=
  match profile.flashAttention, profile.kvCachePrecision with
  | some flash, precision =>
      if providerKind = "ollama" then
        some (.runtimeSettingUnhonoured "flash_attention" (.inl flash) providerKind)
      else
        match precision with
        | some p =>
            if p ∈ ["q8_0", "q4_0"] ∧ flash = false then
              some (.kvCacheNeedsFlashAttention p (some flash))
            else none
        | none => none
  | none, some p =>
      if providerKind = "ollama" then
        some (.runtimeSettingUnhonoured "kv_cache_precision" (.inr p) providerKind)
      else if p ∈ ["q8_0", "q4_0"] then
        some (.kvCacheNeedsFlashAttention p none)
      else none
  | none, none => none

/-- Whether a provider supports a capability; one that no attribute names is not checked. -/
def ProviderFacts.supports (provider : ProviderFacts) : String → Bool
  | "tool_use" => provider.supportsToolUse
  | "structured_output" => provider.supportsStructuredOutput
  | _ => true

/-- The levels of a classification, lowest first. -/
def classificationLevel? : String → Option ℕ
  | "public" => some 0
  | "internal" => some 1
  | "confidential" => some 2
  | _ => none

/-- The higher of the caller's and the adapter's classification; an unreadable one of the caller
contributes nothing. -/
def joinClassification (caller : Option String) (adapter : String) : String :=
  match classificationLevel? adapter, caller with
  | none, _ | some _, none => adapter
  | some level, some caller =>
      match classificationLevel? caller with
      | none => adapter
      | some callerLevel => if level < callerLevel then caller else adapter

/-- `_check_host_ram`: on a machine with no device, the estimate describes host memory. -/
def checkHostRam (estimate : VramEstimate) (snapshot : TelemetrySnapshot) : Option Rejection :=
  match estimate.totalBytes, snapshot.ramAvailableBytes with
  | some required, some available =>
      if available < required then some (.insufficientRam required available) else none
  | _, _ => none

/-- Where a candidate is placed: the verdict of the memory constraints. -/
inductive Placement where
  | rejected (rejection : Rejection)
  /-- The device that holds it, or no device where none is visible. -/
  | on (fits : List DeviceFit) (targetGpuIndex : Option ℕ)

/-- The memory constraints: a device where the model is resident, else the first that fits, and
host memory where no device is visible. -/
def place (canonicalId : String) (estimate : VramEstimate) (inputs : ConstraintInputs) :
    Placement :=
  match inputs.snapshot with
  | none => .on [] none
  | some snapshot =>
      let fits := deviceFits estimate snapshot inputs.vramHeadroomBytes
      if fits.isEmpty then
        match checkHostRam estimate snapshot with
        | some rejection => .rejected rejection
        | none => .on fits none
      else
        let residentOn := inputs.residentDevices canonicalId
        match fits.find? fun fit => residentOn.contains fit.gpuIndex with
        | some fit => .on fits (some fit.gpuIndex)
        | none =>
            match fits.find? DeviceFit.fits with
            | some fit => .on fits (some fit.gpuIndex)
            | none => .rejected (.insufficientVram estimate fits inputs.vramHeadroomBytes)

/-- The checks before the memory constraints, in order. -/
def checkProvider (subject : ExecutionSubject) (inputs : ConstraintInputs) : Option Rejection :=
  let facts := subject.facts
  let served := subject.servedContext
  if facts.enabled = false then some .modelDisabled
  else match runtimeProfileRefusal subject.runtimeProfile facts.providerKind with
  | some refusal => some refusal
  | none =>
  if facts.available = false ∨ subject.provider.healthy = false then
    some (.modelUnavailable facts.available subject.provider.healthy facts.unavailableReason)
  else if 0 < inputs.minContextTokens ∧ served.tokens < inputs.minContextTokens then
    some (.contextTooSmall served inputs.minContextTokens facts.maxContext)
  else match subject.runtimeProfile.contextSize.filter fun requested =>
      !subject.provider.contextConfigurable && requested != served.tokens with
  | some requested => some (.contextNotConfigurable requested served inputs.minContextTokens)
  | none =>
  match inputs.requiredContext.filter fun required => required.exceeds served.tokens with
  | some required => some (.contextLimitExceeded required served)
  | none =>
  match inputs.requiresCapabilities.find? fun capability =>
      !subject.provider.supports capability with
  | some capability =>
      some (.capabilityUnsupported capability facts.providerKind
        (if inputs.requestCapabilities.contains capability then "request" else "task_profile"))
  | none =>
      if subject.provider.supportsThinkingControl then none
      else inputs.requiresThinkingControl.map fun requiredBy =>
        .capabilityUnsupported "thinking_control" facts.providerKind requiredBy

/-- The first capability whose resolved score is below its floor, in the order of their names. -/
def checkScores (inputs : ConstraintInputs) : Option Rejection :=
  (inputs.minCapabilityScores.insertionSort fun a b => a.1 ≤ b.1).findSome? fun e =>
    ((inputs.resolved e.1).bind CapabilityScore.score).bind fun score =>
      if score < e.2 then some (.belowMinimumScore e.1 score e.2) else none

/-- The exclusions of the task profile. -/
def checkPolicy (facts : ModelFacts) (inputs : ConstraintInputs) : Option Rejection :=
  if inputs.excludeModels.contains facts.canonicalId then some .excludedModel
  else if facts.isRemote ∧ inputs.allowRemoteProviders = false then
    some (.excludedRemote facts.providerKind)
  else none

/-- Whether a resolved score is a measurement in the sense of the adapter gate. -/
def gateMeasured (resolved : Option CapabilityScore) : Bool :=
  resolved.any fun score =>
    score.present && [ScoreSource.benchmark, .production].contains score.source

/-- `_check_adapter`: the constraints on an adapter subject, in order. -/
def checkAdapter (hash : RuntimeProfile → String) (subject : ExecutionSubject)
    (adapter : AdapterFacts) (inputs : ConstraintInputs) : Option Rejection :=
  let facts := subject.facts
  if subject.provider.adapterHotSwap = false then
    some (.adapterNotHotSwapped adapter.name facts.providerName facts.providerKind)
  else match (adapter.baseArtifactDigest.bind fun declared =>
      facts.artifactDigest.bind fun served =>
        if declared = served then none else some (declared, served)) with
  | some (declared, served) =>
      some (.adapterBaseMismatch adapter.name adapter.baseModelName declared served)
  | none =>
  match inputs.topWeightedCapability.filter fun capability =>
      inputs.requireAdapterEvidence && !gateMeasured (inputs.resolved capability) with
  | some capability =>
      some (.adapterUnmeasured adapter.name capability (inputs.resolved capability)
        (hash subject.runtimeProfile))
  | none =>
      if facts.isRemote ∨ subject.provider.isRemote then
        some (.adapterClassificationConflict adapter.name adapter.dataClassification
          inputs.callerDataClassification
          (joinClassification inputs.callerDataClassification adapter.dataClassification)
          facts.providerName)
      else none

/-- The open breaker of a subject. -/
def checkBreaker (subject : ExecutionSubject) (inputs : ConstraintInputs) : Option Rejection :=
  if inputs.openCircuitBreakers.contains subject.subjectCanonicalId then
    some (.recentlyFailing (dict (("circuit_breaker", .str "open") ::
      inputs.circuitBreakerDetails subject.subjectCanonicalId)))
  else none

/-- The checks after the memory constraints, in order. -/
def checkSelection (hash : RuntimeProfile → String) (subject : ExecutionSubject)
    (inputs : ConstraintInputs) : Option Rejection :=
  checkScores inputs <|> checkPolicy subject.facts inputs <|>
    (subject.adapter.bind fun adapter => checkAdapter hash subject adapter inputs) <|>
    checkBreaker subject inputs

/-- Apply the hard constraints in order, stopping at the first failure; a survivor comes with the
device that holds it. -/
def evaluateConstraints (hash : RuntimeProfile → String) (subject : ExecutionSubject)
    (estimate : VramEstimate) (inputs : ConstraintInputs) :
    Except Rejection (List DeviceFit × Option ℕ) :=
  match checkProvider subject inputs with
  | some rejection => .error rejection
  | none =>
      match place subject.facts.canonicalId estimate inputs with
      | .rejected rejection => .error rejection
      | .on fits target =>
          match checkSelection hash subject inputs with
          | some rejection => .error rejection
          | none => .ok (fits, target)

end LoadCoach.Routing

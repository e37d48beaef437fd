import Mathlib.Data.List.Sort
import Mathlib.Data.String.Basic
import LoadCoach.Routing.Subject

/-! # Capability scoring and the adjustment factors

`domain/routing/scoring.py` and the rules on evidence it applies.  One signal scores a capability
(`resolveCapability`): benchmark before production before manual before declared, a benchmark that
does not describe this execution being set aside under a name of its own, and the parameter band
of the model standing in where nothing else does.  A task fit is the weighted mean over the
capabilities that resolved to something (`scoreSubject`); what is absent weighs nothing.

The notes and remedies of an explanation are left out: no score depends on them. -/

namespace LoadCoach.Routing

/-! ### One capability -/

/-- Where a resolved score comes from, or why there is none. -/
inductive ScoreSource where
  | benchmark
  | production
  | manual
  | declared
  | prior
  | absent
  | evidenceProfileMismatch
  | evidenceForeignMachine
  | evidenceUnbound
deriving DecidableEq, Repr

/-- One capability's contribution to one candidate, present or absent. -/
structure CapabilityScore where
  capabilityId : String
  weight : ℚ
  score : Option ℚ
  confidence : Option ℚ
  source : ScoreSource
  evidenceAgeDays : Option ℕ := none
  sampleCount : Option ℕ := none
  measuredProfileHash : Option String := none
  measuredMachineFingerprint : Option String := none
  stale : Bool := false
  staleReason : Option String := none

namespace CapabilityScore

/-- Whether this capability contributes to the weighted mean at all. -/
def present (c : CapabilityScore) : Bool := c.score.isSome && c.confidence.isSome

/-- Whether a measurement stands behind this score. -/
def measured (c : CapabilityScore) : Bool :=
  c.present && [ScoreSource.benchmark, .production, .manual].contains c.source

end CapabilityScore

/-- What a declared flag contributes. -/
def declaredPriorScore : ℚ := 1 / 2

/-- The fixed low confidence of every prior. -/
def declaredPriorConfidence : ℚ := 3 / 10

/-- The range of the parameter band prior. -/
def parameterBandPriorFloor : ℚ := 2 / 5

@[inherit_doc parameterBandPriorFloor]
def parameterBandPriorCeiling : ℚ := 3 / 5

/-- The samples a production signal needs. -/
def productionMinimumSamples : ℕ := 20

/-- The capability roots whose measurements describe the machine as much as the weights. -/
def performanceCapabilityRoots : List String :=
  ["speed", "latency", "memory_efficiency", "energy_efficiency"]

/-- The part of a capability's name before its first dot. -/
def capabilityRoot (capabilityId : String) : String :=
  String.ofList (capabilityId.toList.takeWhile fun c => c != '.')

/-- Whether a capability's measurements describe the machine as well. -/
def isPerformanceCapability (capabilityId : String) : Bool :=
  performanceCapabilityRoots.contains (capabilityRoot capabilityId)

/-- Whether evidence measured on a machine may score here. -/
def machineAdmits (evidenceFingerprint : String) (localFingerprint : Option String)
    (capabilityId : String) : Bool :=
  localFingerprint.isNone || localFingerprint == some evidenceFingerprint ||
    !isPerformanceCapability capabilityId

/-- What is known when a capability is resolved. -/
structure ResolutionInputs where
  runtimeProfileHash : String
  minConfidence : ℚ
  bandPrior : Option ℚ
  requireEvidence : Bool
  machineFingerprint : Option String

/-- Why a benchmark signal does not describe this execution. -/
def exclusion (capabilityId : String) (weight : ℚ) (inputs : ResolutionInputs)
    (signal : CapabilitySignal) : Option CapabilityScore :=
  if signal.source ≠ .benchmark then none
  else if signal.matchState.any fun state => state != .bound then
    some ⟨capabilityId, weight, none, none, .evidenceUnbound, none, none, none, none, false, none⟩
  else if signal.machineFingerprint.any fun machine =>
      !machineAdmits machine inputs.machineFingerprint capabilityId then
    some ⟨capabilityId, weight, none, none, .evidenceForeignMachine, none, none, none,
      signal.machineFingerprint, false, none⟩
  else if signal.runtimeProfileHash ≠ some inputs.runtimeProfileHash then
    some ⟨capabilityId, weight, none, none, .evidenceProfileMismatch, none, none,
      signal.runtimeProfileHash, none, false, none⟩
  else none

/-- Whether a signal may score: it is confident enough, not excluded, and sampled enough. -/
def usable (capabilityId : String) (weight : ℚ) (inputs : ResolutionInputs)
    (signal : CapabilitySignal) : Bool :=
  decide (inputs.minConfidence ≤ signal.confidence) &&
    (exclusion capabilityId weight inputs signal).isNone &&
    (signal.source != .production ||
      signal.sampleCount.any fun n => decide (productionMinimumSamples ≤ n))

/-- The first exclusion among the signals that are confident enough. -/
def firstExcluded (capabilityId : String) (weight : ℚ) (inputs : ResolutionInputs)
    (signals : List CapabilitySignal) : Option CapabilityScore :=
  (signals.filter fun signal => decide (inputs.minConfidence ≤ signal.confidence)).findSome?
    (exclusion capabilityId weight inputs)

/-- The first usable signal of a source. -/
def chosen (capabilityId : String) (weight : ℚ) (inputs : ResolutionInputs)
    (signals : List CapabilitySignal) (source : SignalSource) : Option CapabilitySignal :=
  signals.find? fun signal =>
    signal.source == source && usable capabilityId weight inputs signal

/-- The score of a signal that is not a declared flag. -/
def measuredScore (capabilityId : String) (weight : ℚ) (inputs : ResolutionInputs)
    (source : ScoreSource) (signal : CapabilitySignal) : CapabilityScore where
  capabilityId
  weight
  score := some signal.score
  confidence := some signal.confidence
  source
  evidenceAgeDays := signal.ageDays
  sampleCount := signal.sampleCount
  measuredMachineFingerprint :=
    if inputs.machineFingerprint.isSome ∧ signal.machineFingerprint ≠ inputs.machineFingerprint then
      signal.machineFingerprint
    else
      none
  stale := signal.stale
  staleReason := signal.staleReason

/-- What is left where no signal scores: the band prior, under the exclusion's name if there is
one, or nothing. -/
def fallbackScore (capabilityId : String) (weight : ℚ) (inputs : ResolutionInputs)
    (excluded : Option CapabilityScore) : CapabilityScore :=
  match inputs.bandPrior, inputs.requireEvidence, excluded with
  | some prior, false, some excluded =>
      { excluded with score := some prior, confidence := some declaredPriorConfidence }
  | some prior, false, none =>
      { capabilityId, weight, score := some prior, confidence := some declaredPriorConfidence
        source := .prior }
  | _, _, some excluded => excluded
  | _, _, none => { capabilityId, weight, score := none, confidence := none, source := .absent }

/-- Choose the one signal that scores a capability, or record why none does. -/
def resolveCapability (capabilityId : String) (weight : ℚ) (signals : List CapabilitySignal)
    (inputs : ResolutionInputs) : CapabilityScore :=
  let pick := chosen capabilityId weight inputs signals
  let fallback := fallbackScore capabilityId weight inputs
    (firstExcluded capabilityId weight inputs signals)
  match pick .benchmark, pick .production, pick .manual, pick .declared with
  | some signal, _, _, _ => measuredScore capabilityId weight inputs .benchmark signal
  | none, some signal, _, _ => measuredScore capabilityId weight inputs .production signal
  | none, none, some signal, _ =>
      if inputs.requireEvidence then fallback
      else measuredScore capabilityId weight inputs .manual signal
  | none, none, none, some _ =>
      if inputs.requireEvidence then fallback
      else
        { capabilityId, weight, score := some declaredPriorScore
          confidence := some declaredPriorConfidence, source := .declared }
  | none, none, none, none => fallback

/-! ### One candidate -/

/-- A task profile's capability weights. -/
abbrev Weights := List (String × ℚ)

/-- `sorted(weights.items())`. -/
def sortedWeights (weights : Weights) : Weights :=
  weights.insertionSort fun a b => a.1 ≤ b.1

/-- One candidate's weighted capability score and the breakdown behind it. -/
structure TaskFit where
  taskFit : ℚ
  capabilities : List CapabilityScore
  presentWeight : ℚ
  measuredWeight : ℚ

/-- Mean confidence across the capabilities that have one. -/
def TaskFit.meanConfidence (fit : TaskFit) : ℚ :=
  let confidences := fit.capabilities.filterMap CapabilityScore.confidence
  confidences.sum / confidences.length

/-- Everything scoring reads beyond the subject itself. -/
structure ScoringInputs where
  weights : Weights
  minConfidence : ℚ := 1 / 20
  parameterPriors : List (String × ℚ) := []
  requireEvidence : Bool := false
  machineFingerprint : Option String := none

/-- The parameter counts the installed models report. -/
def knownCounts (parameterCounts : List (String × Option ℕ)) : List (String × ℕ) :=
  (dict parameterCounts).filterMap fun e => e.2.map fun count => (e.1, count)

/-- Rank the installed models by parameter count and return each one's band prior. -/
def parameterBandPriors (parameterCounts : List (String × Option ℕ)) : List (String × ℚ) :=
  let known := knownCounts parameterCounts
  let distinct := (known.map Prod.snd).dedup.insertionSort (· ≤ ·)
  if distinct.length = 1 then
    known.map fun e => (e.1, (parameterBandPriorFloor + parameterBandPriorCeiling) / 2)
  else
    known.map fun e =>
      (e.1, parameterBandPriorFloor + (parameterBandPriorCeiling - parameterBandPriorFloor) *
        (distinct.idxOf e.2 / (distinct.length - 1 : ℚ)))

/-- The term of a capability in the numerator of a task fit. -/
def CapabilityScore.contribution (c : CapabilityScore) : ℚ :=
  match c.score, c.confidence with
  | some score, some confidence => c.weight * score * confidence
  | _, _ => 0

/-- Compute one candidate's task fit and its full breakdown; `hash` names a runtime profile. -/
def scoreSubject (hash : RuntimeProfile → String) (subject : ExecutionSubject)
    (inputs : ScoringInputs) : TaskFit :=
  let scores := (sortedWeights inputs.weights).map fun e =>
    resolveCapability e.1 e.2 (signalsByCapability subject.signals e.1)
      { runtimeProfileHash := hash subject.runtimeProfile
        minConfidence := inputs.minConfidence
        bandPrior := inputs.parameterPriors.lookup subject.facts.canonicalId
        requireEvidence := inputs.requireEvidence
        machineFingerprint := inputs.machineFingerprint }
  let presentWeight := ((scores.filter CapabilityScore.present).map CapabilityScore.weight).sum
  { taskFit :=
      if 0 < presentWeight then
        (scores.map CapabilityScore.contribution).sum / presentWeight
      else
        0
    capabilities := scores
    presentWeight
    measuredWeight := ((scores.filter CapabilityScore.measured).map CapabilityScore.weight).sum }

/-! ### The adjustment factors -/

/-- The multipliers applied to a task fit. -/
structure AdjustmentFactors where
  reliability : ℚ := 1
  availability : ℚ := 1
  residency : ℚ := 1
  cost : ℚ := 1

/-- The combined multiplier. -/
def AdjustmentFactors.product (factors : AdjustmentFactors) : ℚ :=
  factors.reliability * factors.availability * factors.residency * factors.cost

/-- The two-level residency factor. -/
def residencyTerm (subject : ExecutionSubject) (residentModels : List String)
    (preferResidentBonus baseSwitchPenalty : ℚ) (ignoreResidency : Bool) : ℚ :=
  if ignoreResidency then 1
  else if residentModels.contains subject.facts.canonicalId then 1 + preferResidentBonus
  else if residentModels ≠ [] then 1 - baseSwitchPenalty
  else 1

/-- Build one candidate's adjustment factors. -/
def adjustmentFactors (subject : ExecutionSubject) (residentModels : List String)
    (preferResidentBonus baseSwitchPenalty : ℚ) (ignoreResidency : Bool)
    (remoteCostFactor reliability : ℚ) : AdjustmentFactors where
  reliability
  residency :=
    residencyTerm subject residentModels preferResidentBonus baseSwitchPenalty ignoreResidency
  cost := if subject.facts.isRemote then remoteCostFactor else 1

end LoadCoach.Routing

import Mathlib.Data.List.Find
import LoadCoach.Routing.Constraints

/-! # What a resolution is made of

A capability is resolved to a chosen signal, to a declared flag, or to what it falls back to
(`resolveCapability_cases`).  A benchmark that does not describe the execution is set aside, and
what is left scores what it would have scored had the benchmark never been run
(`resolveCapability_neutral`): a result that counts as measured, for the evidence of a decision or
for the gate on adapters, is a signal's that was not set aside. -/

namespace LoadCoach.Routing

/-! ### Excluded benchmarks -/

section Neutral

variable {capabilityId : String} {weight : ℚ} {inputs : ResolutionInputs}
  {signals : List CapabilitySignal} {signal : CapabilitySignal} {excluded : CapabilityScore}

/-- The sources of a result that an excluded benchmark left its name on. -/
def exclusions : List ScoreSource :=
  [.evidenceUnbound, .evidenceForeignMachine, .evidenceProfileMismatch]

/-- What every exclusion is: the capability and its weight, no score, and a name of its own. -/
structure Excluded (capabilityId : String) (weight : ℚ) (e : CapabilityScore) : Prop where
  capabilityId_eq : e.capabilityId = capabilityId
  weight_eq : e.weight = weight
  score_eq : e.score = none
  confidence_eq : e.confidence = none
  source_mem : e.source ∈ exclusions

theorem exclusion_spec (h : exclusion capabilityId weight inputs signal = some excluded) :
    Excluded capabilityId weight excluded := by
  unfold exclusion at h
  split_ifs at h <;> cases h <;> exact ⟨rfl, rfl, rfl, rfl, by simp [exclusions]⟩

theorem firstExcluded_spec
    (h : firstExcluded capabilityId weight inputs signals = some excluded) :
    Excluded capabilityId weight excluded := by
  obtain ⟨signal, -, hsignal⟩ := List.exists_of_findSome?_eq_some h
  exact exclusion_spec hsignal

/-- The value of a resolution: the score and the confidence. -/
def CapabilityScore.value (c : CapabilityScore) : Option ℚ × Option ℚ := (c.score, c.confidence)

/-- The score a capability falls back to, and its confidence. -/
def fallbackValue (inputs : ResolutionInputs) : Option (ℚ × ℚ) :=
  if inputs.requireEvidence then none
  else inputs.bandPrior.map fun prior => (prior, declaredPriorConfidence)

/-- **The fallback scores the same whether or not something was excluded.** -/
theorem fallbackScore_value {excluded : Option CapabilityScore}
    (h : ∀ e ∈ excluded, Excluded capabilityId weight e) :
    (fallbackScore capabilityId weight inputs excluded).value =
      ((fallbackValue inputs).map Prod.fst, (fallbackValue inputs).map Prod.snd) := by
  unfold fallbackScore fallbackValue CapabilityScore.value
  cases excluded with
  | none => cases inputs.bandPrior <;> cases inputs.requireEvidence <;> rfl
  | some e =>
      have hscore := (h e rfl).score_eq
      have hconfidence := (h e rfl).confidence_eq
      cases inputs.bandPrior <;> cases inputs.requireEvidence <;> simp [hscore, hconfidence]

theorem fallbackScore_source {excluded : Option CapabilityScore}
    (h : ∀ e ∈ excluded, Excluded capabilityId weight e) :
    (fallbackScore capabilityId weight inputs excluded).source ∈
      exclusions ++ [.prior, .absent] := by
  unfold fallbackScore
  cases excluded with
  | none => cases inputs.bandPrior <;> cases inputs.requireEvidence <;> simp
  | some e =>
      have hsource := List.mem_append_left [ScoreSource.prior, .absent] (h e rfl).source_mem
      cases inputs.bandPrior <;> cases inputs.requireEvidence <;> exact hsource

theorem fallbackScore_names {excluded : Option CapabilityScore}
    (h : ∀ e ∈ excluded, Excluded capabilityId weight e) :
    (fallbackScore capabilityId weight inputs excluded).capabilityId = capabilityId ∧
      (fallbackScore capabilityId weight inputs excluded).weight = weight := by
  unfold fallbackScore
  cases excluded with
  | none => cases inputs.bandPrior <;> cases inputs.requireEvidence <;> exact ⟨rfl, rfl⟩
  | some e =>
      have hnames := And.intro (h e rfl).capabilityId_eq (h e rfl).weight_eq
      cases inputs.bandPrior <;> cases inputs.requireEvidence <;> exact hnames

theorem chosen_filter {p : CapabilitySignal → Bool} (hp : ∀ s ∈ signals, p s = false →
      (exclusion capabilityId weight inputs s).isSome) (source : SignalSource) :
    chosen capabilityId weight inputs (signals.filter p) source =
      chosen capabilityId weight inputs signals source := by
  unfold chosen
  rw [List.find?_filter]
  refine List.find?_congr fun s hs => ?_
  cases hkept : p s with
  | true => simp only [true_and, Bool.decide_eq_true]
  | false =>
      have hexcluded := hp s hs hkept
      have hunusable : usable capabilityId weight inputs s = false := by
        simp [usable, Option.isNone_eq_false_iff.2 hexcluded]
      simp [hunusable]

theorem resolveCapability_value :
    (resolveCapability capabilityId weight signals inputs).value =
      let pick := chosen capabilityId weight inputs signals
      let fallback := ((fallbackValue inputs).map Prod.fst, (fallbackValue inputs).map Prod.snd)
      match pick .benchmark, pick .production, pick .manual, pick .declared with
      | some signal, _, _, _ => (some signal.score, some signal.confidence)
      | none, some signal, _, _ => (some signal.score, some signal.confidence)
      | none, none, some signal, _ =>
          if inputs.requireEvidence then fallback else (some signal.score, some signal.confidence)
      | none, none, none, some _ =>
          if inputs.requireEvidence then fallback
          else (some declaredPriorScore, some declaredPriorConfidence)
      | none, none, none, none => fallback := by
  have hfallback : (fallbackScore capabilityId weight inputs
      (firstExcluded capabilityId weight inputs signals)).value =
        ((fallbackValue inputs).map Prod.fst, (fallbackValue inputs).map Prod.snd) :=
    fallbackScore_value fun e he => firstExcluded_spec he
  unfold resolveCapability
  dsimp only
  cases chosen capabilityId weight inputs signals .benchmark with
  | some signal => rfl
  | none =>
      cases chosen capabilityId weight inputs signals .production with
      | some signal => rfl
      | none =>
          cases chosen capabilityId weight inputs signals .manual with
          | some signal =>
              cases inputs.requireEvidence with
              | false => rfl
              | true => exact hfallback
          | none =>
              cases chosen capabilityId weight inputs signals .declared with
              | some signal =>
                  cases inputs.requireEvidence with
                  | false => rfl
                  | true => exact hfallback
              | none => exact hfallback

theorem measured_of_gateMeasured {c : CapabilityScore} (h : gateMeasured (some c) = true) :
    c.measured = true := by
  simp only [gateMeasured, Option.any_some, Bool.and_eq_true, List.contains_cons, List.contains_nil,
    Bool.or_eq_true, beq_iff_eq] at h
  obtain ⟨hpresent, hsource⟩ := h
  simp only [CapabilityScore.measured, hpresent, Bool.true_and, List.contains_cons,
    Bool.or_eq_true, beq_iff_eq]
  tauto

theorem measured_eq_false {c : CapabilityScore}
    (h : c.source ∈ exclusions ++ [.prior, .absent]) : c.measured = false := by
  have hsource : [ScoreSource.benchmark, .production, .manual].contains c.source = false := by
    generalize c.source = source at h
    revert h
    cases source <;> decide
  rw [CapabilityScore.measured, hsource, Bool.and_false]

/-- A chosen signal is one of the signals, of the source asked for, and usable. -/
theorem chosen_spec {source : SignalSource}
    (h : chosen capabilityId weight inputs signals source = some signal) :
    signal ∈ signals ∧ signal.source = source ∧
      usable capabilityId weight inputs signal = true := by
  have hfound := List.find?_some h
  simp only [Bool.and_eq_true, beq_iff_eq] at hfound
  exact ⟨List.mem_of_find?_eq_some h, hfound⟩

theorem exclusion_of_usable (h : usable capabilityId weight inputs signal = true) :
    exclusion capabilityId weight inputs signal = none := by
  simp only [usable, Bool.and_eq_true, Option.isNone_iff_eq_none] at h
  exact h.1.2

/-- The score of a declared flag. -/
def declaredScore (capabilityId : String) (weight : ℚ) : CapabilityScore where
  capabilityId
  weight
  score := some declaredPriorScore
  confidence := some declaredPriorConfidence
  source := .declared

/-- The name of a score by the source of its signal. -/
def SignalSource.scored : SignalSource → ScoreSource
  | .benchmark => .benchmark
  | .production => .production
  | .manual => .manual
  | .declared => .declared
  | .prior => .prior

/-- What a resolution can be: a chosen signal's, a declared flag's, or the fallback. -/
theorem resolveCapability_cases :
    (∃ source signal, chosen capabilityId weight inputs signals source = some signal ∧
      resolveCapability capabilityId weight signals inputs =
        measuredScore capabilityId weight inputs source.scored signal) ∨
    resolveCapability capabilityId weight signals inputs = declaredScore capabilityId weight ∨
    resolveCapability capabilityId weight signals inputs =
      fallbackScore capabilityId weight inputs
        (firstExcluded capabilityId weight inputs signals) := by
  unfold resolveCapability
  dsimp only
  cases hbenchmark : chosen capabilityId weight inputs signals .benchmark with
  | some signal => exact .inl ⟨.benchmark, signal, hbenchmark, rfl⟩
  | none =>
      cases hproduction : chosen capabilityId weight inputs signals .production with
      | some signal => exact .inl ⟨.production, signal, hproduction, rfl⟩
      | none =>
          cases hmanual : chosen capabilityId weight inputs signals .manual with
          | some signal =>
              cases inputs.requireEvidence with
              | false => exact .inl ⟨.manual, signal, hmanual, rfl⟩
              | true => exact .inr (.inr rfl)
          | none =>
              cases chosen capabilityId weight inputs signals .declared with
              | some signal =>
                  cases inputs.requireEvidence with
                  | false => exact .inr (.inl rfl)
                  | true => exact .inr (.inr rfl)
              | none => exact .inr (.inr rfl)

theorem resolveCapability_names :
    (resolveCapability capabilityId weight signals inputs).capabilityId = capabilityId ∧
      (resolveCapability capabilityId weight signals inputs).weight = weight := by
  obtain ⟨source, signal, hchosen, hresult⟩ | hresult | hresult := resolveCapability_cases
    <;> rw [hresult]
  · exact ⟨rfl, rfl⟩
  · exact ⟨rfl, rfl⟩
  · exact fallbackScore_names fun e he => firstExcluded_spec he

/-- **What counts as measured is a usable signal's.** -/
theorem resolveCapability_measured
    (h : (resolveCapability capabilityId weight signals inputs).measured = true) :
    ∃ signal ∈ signals, usable capabilityId weight inputs signal = true ∧
      (resolveCapability capabilityId weight signals inputs).source = signal.source.scored ∧
      (resolveCapability capabilityId weight signals inputs).score = some signal.score ∧
      (resolveCapability capabilityId weight signals inputs).confidence =
        some signal.confidence := by
  obtain ⟨source, signal, hchosen, hresult⟩ | hresult | hresult :=
    resolveCapability_cases
  · obtain ⟨hmem, rfl, husable⟩ := chosen_spec hchosen
    rw [hresult]
    exact ⟨signal, hmem, husable, rfl, rfl, rfl⟩
  · rw [hresult] at h
    exact absurd h (by simp [declaredScore, CapabilityScore.measured])
  · rw [hresult, measured_eq_false (fallbackScore_source fun e he => firstExcluded_spec he)] at h
    exact absurd h (by simp)

/-- **What passes the gate on adapters is a usable benchmark or production statistic.** -/
theorem resolveCapability_gateMeasured
    (h : gateMeasured (some (resolveCapability capabilityId weight signals inputs)) = true) :
    ∃ signal ∈ signals, usable capabilityId weight inputs signal = true ∧
      (signal.source = .benchmark ∨ signal.source = .production) ∧
      (resolveCapability capabilityId weight signals inputs).score = some signal.score ∧
      (resolveCapability capabilityId weight signals inputs).confidence =
        some signal.confidence := by
  obtain ⟨signal, hmem, husable, hsource, hvalue⟩ :=
    resolveCapability_measured (measured_of_gateMeasured h)
  refine ⟨signal, hmem, husable, ?_, hvalue⟩
  simp only [gateMeasured, Option.any_some, hsource, Bool.and_eq_true] at h
  generalize signal.source = source at h
  revert h
  cases source <;> simp [SignalSource.scored]

/-- **An excluded benchmark is neutral.**  Taking any of the excluded signals away changes neither
the score nor the confidence of a capability.  A result that counts as measured, for the decision or
for the gate on adapters, has the score and the confidence of a signal that was not excluded, and
one under the name of an exclusion does not count. -/
theorem resolveCapability_neutral (p : CapabilitySignal → Bool)
    (hp : ∀ s ∈ signals, p s = false → (exclusion capabilityId weight inputs s).isSome) :
    let result := resolveCapability capabilityId weight signals inputs
    let without := resolveCapability capabilityId weight (signals.filter p) inputs
    without.score = result.score ∧ without.confidence = result.confidence ∧
      (result.measured = true ∨ gateMeasured (some result) = true →
        ∃ signal ∈ signals, exclusion capabilityId weight inputs signal = none ∧
          result.score = some signal.score ∧ result.confidence = some signal.confidence) ∧
      (result.source ∈ exclusions →
        result.measured = false ∧ gateMeasured (some result) = false) := by
  intro result without
  have hvalue : without.value = result.value := by
    rw [resolveCapability_value, resolveCapability_value]
    simp only [chosen_filter hp]
  refine ⟨congrArg Prod.fst hvalue, congrArg Prod.snd hvalue, fun h => ?_, fun h => ?_⟩
  · obtain ⟨signal, hmem, husable, -, hvalue⟩ :=
      resolveCapability_measured (h.elim id measured_of_gateMeasured)
    exact ⟨signal, hmem, exclusion_of_usable husable, hvalue⟩
  · have hmeasured : result.measured = false := measured_eq_false (List.mem_append_left _ h)
    refine ⟨hmeasured, ?_⟩
    cases hgate : gateMeasured (some result) with
    | false => rfl
    | true => exact absurd (measured_of_gateMeasured hgate) (by simp [hmeasured])

/-- A benchmark that was run under another profile. -/
def measuredElsewhere : CapabilitySignal where
  capabilityId := "coding"
  source := .benchmark
  score := 9 / 10
  confidence := 9 / 10
  runtimeProfileHash := some "other"

/-- A score somebody configured. -/
def scoredByHand : CapabilitySignal where
  capabilityId := "coding"
  source := .manual
  score := 1 / 2
  confidence := 3 / 5

theorem resolveCapability_neutral_manual :
    (resolveCapability "coding" 1 [scoredByHand]
      ⟨"here", 1 / 20, some (2 / 5), false, none⟩).score =
    (resolveCapability "coding" 1 [measuredElsewhere, scoredByHand]
      ⟨"here", 1 / 20, some (2 / 5), false, none⟩).score := by
  have hp : ∀ s ∈ [measuredElsewhere, scoredByHand], (s.source != .benchmark) = false →
      (exclusion "coding" 1 ⟨"here", 1 / 20, some (2 / 5), false, none⟩ s).isSome := by
    intro s hs hkept
    rcases List.mem_cons.1 hs with rfl | hs
    · rfl
    · rw [List.mem_singleton.1 hs] at hkept
      exact absurd hkept (by decide)
  exact (resolveCapability_neutral _ hp).1

end Neutral

end LoadCoach.Routing

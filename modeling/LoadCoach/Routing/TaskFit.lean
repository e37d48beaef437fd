import Mathlib.Data.List.Dedup
import Mathlib.Tactic.Linarith
import LoadCoach.Foundations.WeightedMean
import LoadCoach.Routing.Resolution

/-! # The task fit is a weighted mean

The task fit is the mean of score times confidence over those of the task's capabilities that
resolve to something, under the task's weights (`taskFit_weightedMean`): it is between zero and one,
and a capability nothing is known about may come and go. -/

namespace LoadCoach.Routing

open Foundations

/-! ### The weighted mean -/

section Mean

variable {hash : RuntimeProfile → String} {subject : ExecutionSubject} {inputs : ScoringInputs}

/-- One capability of a task, resolved for a subject. -/
def resolvedIn (hash : RuntimeProfile → String) (subject : ExecutionSubject)
    (inputs : ScoringInputs) (e : String × ℚ) : CapabilityScore :=
  resolveCapability e.1 e.2 (signalsByCapability subject.signals e.1)
    { runtimeProfileHash := hash subject.runtimeProfile
      minConfidence := inputs.minConfidence
      bandPrior := inputs.parameterPriors.lookup subject.facts.canonicalId
      requireEvidence := inputs.requireEvidence
      machineFingerprint := inputs.machineFingerprint }

theorem scoreSubject_capabilities : (scoreSubject hash subject inputs).capabilities =
    (sortedWeights inputs.weights).map (resolvedIn hash subject inputs) := rfl

/-- The weights of a task whose capabilities resolve to something. -/
def presentWeights (hash : RuntimeProfile → String) (subject : ExecutionSubject)
    (inputs : ScoringInputs) : Weights :=
  inputs.weights.filter fun e => (resolvedIn hash subject inputs e).present

/-- What a capability that is present adds to the mean: score times confidence. -/
def CapabilityScore.worth (c : CapabilityScore) : ℚ := c.score.getD 0 * c.confidence.getD 0

theorem sum_contribution (scores : List CapabilityScore) :
    (scores.map CapabilityScore.contribution).sum =
      ((scores.filter CapabilityScore.present).map fun c => c.weight * c.worth).sum := by
  induction scores with
  | nil => rfl
  | cons c scores ih =>
      rw [List.map_cons, List.sum_cons, ih]
      cases hscore : c.score <;> cases hconfidence : c.confidence <;>
        simp [CapabilityScore.contribution, CapabilityScore.present, CapabilityScore.worth, hscore,
          hconfidence, mul_assoc]

theorem resolvedIn_weight {e : String × ℚ} : (resolvedIn hash subject inputs e).weight = e.2 :=
  resolveCapability_names.2

theorem present_perm :
    ((scoreSubject hash subject inputs).capabilities.filter CapabilityScore.present).Perm
      ((presentWeights hash subject inputs).map (resolvedIn hash subject inputs)) := by
  have hsorted : (sortedWeights inputs.weights).Perm inputs.weights := List.perm_insertionSort _ _
  rw [scoreSubject_capabilities, List.filter_map]
  exact (hsorted.filter _).map _

theorem scoreSubject_taskFit :
    (scoreSubject hash subject inputs).taskFit =
      if 0 < ((presentWeights hash subject inputs).map Prod.snd).sum then
        weightedMean Prod.snd (fun e => (resolvedIn hash subject inputs e).worth)
          (presentWeights hash subject inputs)
      else 0 := by
  have hweight : CapabilityScore.weight ∘ resolvedIn hash subject inputs = Prod.snd :=
    funext fun _ => resolvedIn_weight
  have hpresent : (((scoreSubject hash subject inputs).capabilities.filter
      CapabilityScore.present).map CapabilityScore.weight).sum =
        ((presentWeights hash subject inputs).map Prod.snd).sum := by
    rw [(present_perm.map _).sum_eq, List.map_map, hweight]
  have hmean : ((scoreSubject hash subject inputs).capabilities.map
      CapabilityScore.contribution).sum /
        (((scoreSubject hash subject inputs).capabilities.filter
          CapabilityScore.present).map CapabilityScore.weight).sum =
      weightedMean Prod.snd (fun e => (resolvedIn hash subject inputs e).worth)
        (presentWeights hash subject inputs) := by
    rw [sum_contribution]
    refine (weightedMean_perm present_perm).trans ?_
    rw [weightedMean_map, hweight]
    rfl
  rw [← hmean, ← hpresent]
  rfl

theorem fallbackValue_mem {inputs : ResolutionInputs} {v : ℚ × ℚ}
    (hprior : ∀ prior ∈ inputs.bandPrior, prior ∈ Set.Icc (0 : ℚ) 1)
    (h : fallbackValue inputs = some v) : v.1 ∈ Set.Icc (0 : ℚ) 1 ∧ v.2 ∈ Set.Icc (0 : ℚ) 1 := by
  unfold fallbackValue at h
  split_ifs at h
  obtain ⟨prior, hsome, rfl⟩ := Option.map_eq_some_iff.1 h
  exact ⟨hprior prior hsome, by norm_num [declaredPriorConfidence]⟩

theorem resolveCapability_mem {capabilityId : String} {weight : ℚ}
    {signals : List CapabilitySignal} {inputs : ResolutionInputs}
    (hsignals : ∀ s ∈ signals, s.score ∈ Set.Icc (0 : ℚ) 1 ∧ s.confidence ∈ Set.Icc (0 : ℚ) 1)
    (hprior : ∀ prior ∈ inputs.bandPrior, prior ∈ Set.Icc (0 : ℚ) 1) :
    (∀ score ∈ (resolveCapability capabilityId weight signals inputs).score,
      score ∈ Set.Icc (0 : ℚ) 1) ∧
    ∀ confidence ∈ (resolveCapability capabilityId weight signals inputs).confidence,
      confidence ∈ Set.Icc (0 : ℚ) 1 := by
  obtain ⟨source, signal, hchosen, hresult⟩ | hresult | hresult := resolveCapability_cases
    <;> rw [hresult]
  · obtain ⟨hscore, hconfidence⟩ := hsignals signal (chosen_spec hchosen).1
    exact ⟨fun _ h => Option.some.inj h ▸ hscore, fun _ h => Option.some.inj h ▸ hconfidence⟩
  · refine ⟨fun _ h => Option.some.inj h ▸ ?_, fun _ h => Option.some.inj h ▸ ?_⟩
    · norm_num [declaredPriorScore]
    · norm_num [declaredPriorConfidence]
  · obtain ⟨hscore, hconfidence⟩ :=
      Prod.mk.inj (fallbackScore_value fun e he => firstExcluded_spec he)
    rw [hscore, hconfidence]
    refine ⟨fun x h => ?_, fun x h => ?_⟩ <;> obtain ⟨v, hv, rfl⟩ := Option.map_eq_some_iff.1 h
    · exact (fallbackValue_mem hprior hv).1
    · exact (fallbackValue_mem hprior hv).2

theorem worth_mem {c : CapabilityScore} (hscore : ∀ score ∈ c.score, score ∈ Set.Icc (0 : ℚ) 1)
    (hconfidence : ∀ confidence ∈ c.confidence, confidence ∈ Set.Icc (0 : ℚ) 1) :
    c.worth ∈ Set.Icc (0 : ℚ) 1 := by
  have hgetD : ∀ o : Option ℚ, (∀ x ∈ o, x ∈ Set.Icc (0 : ℚ) 1) →
      o.getD 0 ∈ Set.Icc (0 : ℚ) 1 := by
    intro o ho
    cases o with
    | none => simp
    | some x => exact ho x rfl
  obtain ⟨hs0, hs1⟩ := hgetD _ hscore
  obtain ⟨hc0, hc1⟩ := hgetD _ hconfidence
  exact ⟨mul_nonneg hs0 hc0, mul_le_one₀ hs1 hc0 hc1⟩

theorem resolvedIn_worth {e : String × ℚ} (hsignals : ∀ s ∈ subject.signals,
      s.score ∈ Set.Icc (0 : ℚ) 1 ∧ s.confidence ∈ Set.Icc (0 : ℚ) 1)
    (hpriors : ∀ e ∈ inputs.parameterPriors, e.2 ∈ Set.Icc (0 : ℚ) 1) :
    (resolvedIn hash subject inputs e).worth ∈ Set.Icc (0 : ℚ) 1 := by
  have hprior : ∀ prior ∈ inputs.parameterPriors.lookup subject.facts.canonicalId,
      prior ∈ Set.Icc (0 : ℚ) 1 := by
    intro prior hlookup
    obtain ⟨before, after, hsplit, -⟩ := List.lookup_eq_some_iff.1 hlookup
    exact hpriors (subject.facts.canonicalId, prior) (by simp [hsplit])
  have hown : ∀ s ∈ signalsByCapability subject.signals e.1,
      s.score ∈ Set.Icc (0 : ℚ) 1 ∧ s.confidence ∈ Set.Icc (0 : ℚ) 1 :=
    fun s hs => hsignals s (List.mem_of_mem_filter hs)
  exact worth_mem (resolveCapability_mem hown hprior).1 (resolveCapability_mem hown hprior).2

theorem place_mem {α : Type} [DecidableEq α] {a : α} {l : List α} (ha : a ∈ l)
    (hone : l.length ≠ 1) : (l.idxOf a / (l.length - 1 : ℚ)) ∈ Set.Icc (0 : ℚ) 1 := by
  have hlt : l.idxOf a < l.length := List.idxOf_lt_length_iff.2 ha
  have hsucc : (l.idxOf a : ℚ) + 1 ≤ l.length := by exact_mod_cast hlt
  have htwo : (2 : ℚ) ≤ l.length := by exact_mod_cast (by omega : 2 ≤ l.length)
  exact ⟨div_nonneg (Nat.cast_nonneg _) (by linarith), (div_le_one (by linarith)).2 (by linarith)⟩

/-- The prior of a parameter band is between the floor and the ceiling. -/
theorem parameterBandPriors_mem {parameterCounts : List (String × Option ℕ)} {e : String × ℚ}
    (h : e ∈ parameterBandPriors parameterCounts) :
    e.2 ∈ Set.Icc parameterBandPriorFloor parameterBandPriorCeiling := by
  unfold parameterBandPriors at h
  dsimp only at h
  split_ifs at h with hone <;> obtain ⟨count, hcount, rfl⟩ := List.mem_map.1 h
  · norm_num [parameterBandPriorFloor, parameterBandPriorCeiling]
  · have hmem : count.2 ∈ ((knownCounts parameterCounts).map Prod.snd).dedup.insertionSort
        (· ≤ ·) := by
      rw [List.mem_insertionSort, List.mem_dedup]
      exact List.mem_map_of_mem hcount
    obtain ⟨hnonneg, hle⟩ := place_mem hmem hone
    dsimp only [parameterBandPriorFloor, parameterBandPriorCeiling]
    constructor <;> linarith

/-- **A capability that is absent weighs nothing.** -/
theorem presentWeights_perm_of_absent {capability : String} {weight : ℚ} {weights : Weights}
    (hperm : weights.Perm ((capability, weight) :: inputs.weights))
    (habsent : (resolvedIn hash subject inputs (capability, weight)).present = false) :
    (presentWeights hash subject { inputs with weights }).Perm
      (presentWeights hash subject inputs) := by
  have hfilter := hperm.filter fun e => (resolvedIn hash subject inputs e).present
  rwa [List.filter_cons_of_neg (by simp [habsent])] at hfilter

end Mean

/-- **The task fit is a weighted mean.**  With weights that are not negative, and scores, confidences
and band priors in the unit interval, it is in the unit interval; it is the mean of score times
confidence, under the task's weights, over those whose capabilities are present; and a capability
that resolves to nothing may be added to the weights or taken from them. -/
theorem taskFit_weightedMean (hash : RuntimeProfile → String) (subject : ExecutionSubject)
    (inputs : ScoringInputs) (hweights : ∀ e ∈ inputs.weights, 0 ≤ e.2)
    (hsignals : ∀ s ∈ subject.signals,
      s.score ∈ Set.Icc (0 : ℚ) 1 ∧ s.confidence ∈ Set.Icc (0 : ℚ) 1)
    (hpriors : ∀ e ∈ inputs.parameterPriors, e.2 ∈ Set.Icc (0 : ℚ) 1) :
    (scoreSubject hash subject inputs).taskFit ∈ Set.Icc (0 : ℚ) 1 ∧
    (scoreSubject hash subject inputs).taskFit =
      weightedMean Prod.snd (fun e => (resolvedIn hash subject inputs e).worth)
        (inputs.weights.filter fun e => (resolvedIn hash subject inputs e).present) ∧
    ∀ capability weight weights,
      List.Perm weights ((capability, weight) :: inputs.weights) →
      (resolvedIn hash subject inputs (capability, weight)).present = false →
      (scoreSubject hash subject { inputs with weights }).taskFit =
        (scoreSubject hash subject inputs).taskFit := by
  have hpresent : ∀ e ∈ presentWeights hash subject inputs,
      0 ≤ e.2 ∧ (resolvedIn hash subject inputs e).worth ∈ Set.Icc (0 : ℚ) 1 :=
    fun e he => ⟨hweights e (List.mem_of_mem_filter he), resolvedIn_worth hsignals hpriors⟩
  have hmean : (scoreSubject hash subject inputs).taskFit =
      weightedMean Prod.snd (fun e => (resolvedIn hash subject inputs e).worth)
        (presentWeights hash subject inputs) := by
    rw [scoreSubject_taskFit]
    split_ifs with hpos
    · rfl
    · have hsum : ((presentWeights hash subject inputs).map Prod.snd).sum = 0 :=
        le_antisymm (not_lt.1 hpos)
          (List.sum_nonneg (List.forall_mem_map.2 fun e he => (hpresent e he).1))
      rw [weightedMean, hsum, div_zero]
  refine ⟨?_, hmean, fun capability weight weights hperm habsent => ?_⟩
  · rw [hmean]
    exact ⟨weightedMean_nonneg (fun e he => (hpresent e he).1) fun e he => (hpresent e he).2.1,
      weightedMean_le_one (fun e he => (hpresent e he).1) fun e he => (hpresent e he).2.2⟩
  · have hsame := presentWeights_perm_of_absent hperm habsent
    rw [scoreSubject_taskFit, scoreSubject_taskFit, (hsame.map Prod.snd).sum_eq]
    split_ifs
    · exact weightedMean_perm hsame
    · rfl

/-- A model that somebody scored by hand. -/
def scoredModel : ExecutionSubject where
  facts :=
    { modelId := "m1", canonicalId := "ollama/m1", providerKind := "ollama"
      providerModelName := "m1" }
  provider := {}
  runtimeProfile := {}
  servedContext := ⟨8192, .assumed⟩
  signals := [scoredByHand]

/-- Three quarters of its weight are known, by the score of a half and the confidence of three
fifths. -/
theorem taskFit_weightedMean_manual :
    (scoreSubject (fun _ => "here") scoredModel
      { weights := [("vision", 1 / 4), ("coding", 3 / 4)] }).taskFit = 3 / 10 := by
  have hweights : ∀ e ∈ ({ weights := [("vision", 1 / 4), ("coding", 3 / 4)] } :
      ScoringInputs).weights, 0 ≤ e.2 := by
    simp only [List.mem_cons, List.not_mem_nil, or_false, forall_eq_or_imp, forall_eq]
    norm_num
  have hsignals : ∀ s ∈ scoredModel.signals,
      s.score ∈ Set.Icc (0 : ℚ) 1 ∧ s.confidence ∈ Set.Icc (0 : ℚ) 1 := by
    simp only [scoredModel, List.mem_singleton, forall_eq, scoredByHand]
    norm_num
  have hmean := (taskFit_weightedMean (fun _ => "here") scoredModel
    { weights := [("vision", 1 / 4), ("coding", 3 / 4)] } hweights hsignals (by simp)).2.1
  exact hmean.trans (by decide +kernel)

end LoadCoach.Routing

import LoadCoach.Routing.Judged
import LoadCoach.Routing.Narrowing
import LoadCoach.Routing.Translations

/-! # What a call may write

Routing measures a candidate against the context it will be served: the estimated prompt, the output
allowance and a safety margin must fit, and where the task profile states a floor the allowance may
be reduced to make them fit (`budget_context`).  The call is built later, by another function, from
the request and the profile alone (`sampling_for`, `run_attempt`).

The two read the request's `max_output_tokens` differently.  Routing takes what is falsy for absent,
and a call takes what is stated, `null` included.  And what routing reduced the allowance to reaches
no call: the budget is recorded for the primary and read by nobody.

* `call_within_budget_iff`: exactly when a call stays within the budget of its candidate.
* `reduced_allowance_sent`: a call that asks for what routing had reduced. -/

namespace LoadCoach

open Foundations Routing

/-! ### The call -/

/-- The sampling parameters of a call; `none` leaves one to the provider. -/
structure SamplingParameters where
  temperature : Option Json
  maxOutputTokens : Option Json
  topP : Option Json
  seed : Option Json
  think : Option Json

/-- `sampling.get(key, default)`: a value that is stated wins, `null` included. -/
def samplingOver (key : String) (sampling : Members) (default : Option Json) : Option Json :=
  match Json.member? key sampling with
  | none => default
  | some .null => none
  | some value => some value

theorem samplingValue_of_stated {key : String} {sampling : Members} {value : Json}
    (h : Json.member? key sampling = some value) (hvalue : value ≠ .null) :
    samplingValue key sampling = some value := by
  rw [samplingValue, h]
  cases value with
  | null => exact absurd rfl hvalue
  | bool b | int n | float x | str s | arr items | obj members => rfl

theorem samplingOver_of_stated {key : String} {sampling : Members} {default : Option Json}
    {value : Json} (h : Json.member? key sampling = some value) (hvalue : value ≠ .null) :
    samplingOver key sampling default = some value := by
  rw [samplingOver, h]
  cases value with
  | null => exact absurd rfl hvalue
  | bool b | int n | float x | str s | arr items | obj members => rfl

/-- `sampling_for`: the request's overrides over the profile's parameters. -/
def samplingFor (request : GenerateRequest) (execution : TaskProfileExecution) :
    SamplingParameters where
  temperature := samplingOver "temperature" request.sampling (some (.float execution.temperature))
  maxOutputTokens :=
    samplingOver "max_output_tokens" request.sampling (some (.int execution.maxOutputTokens))
  topP := samplingOver "top_p" request.sampling none
  seed := samplingOver "seed" request.sampling none
  think := samplingOver "think" request.sampling (execution.think.map Json.bool)

/-- The form an answer is asked for in. -/
inductive ResponseFormat where
  | jsonSchema (schema : Members)
  | json

/-- `_response_format`. -/
def responseFormatOf (kind : String) (schema : Option Members) : Option ResponseFormat :=
  match schema with
  | some schema =>
      if kind = "json_schema" then some (.jsonSchema schema)
      else if kind = "json" then some .json
      else none
  | none => if kind = "json" then some .json else none

/-- The request a provider is called with. -/
structure GenerationRequest where
  providerKind : String
  providerModelName : String
  artifactDigest : Option String
  adapter : Option String
  messages : List Message
  runtimeProfile : RuntimeProfile
  tools : List ToolDefinition
  sampling : SamplingParameters
  responseFormat : Option ResponseFormat

/-- The call `run_attempt` builds for a candidate. -/
def callFor (request : GenerateRequest) (candidate : Routing.RankedCandidate)
    (turns : List Message) (schema : Option Members) (execution : TaskProfileExecution) :
    GenerationRequest :=
  let subject := candidate.subject
  let stated := request.responseFormat.filter fun format => format != ""
  { providerKind := subject.facts.providerKind
    providerModelName := subject.facts.providerModelName
    artifactDigest := subject.facts.artifactDigest
    adapter := subject.adapter.map AdapterFacts.name
    messages := turns
    runtimeProfile := subject.runtimeProfile
    tools := request.tools
    sampling := samplingFor request execution
    responseFormat := responseFormatOf (stated.getD execution.responseFormat) schema }

/-! ### The budget of a call -/

/-- A number of output tokens fits into a context behind a prompt, with the safety margin. -/
def FitsBehind (estimated : ℕ) (served : ServedContext) (tokens : Number) : Prop :=
  (tokens.plus (estimated + safetyMarginTokens)).atMost served.tokens = true

instance instDecidableFitsBehind (estimated : ℕ) (served : ServedContext) (tokens : Number) :
    Decidable (FitsBehind estimated served tokens) :=
  inferInstanceAs (Decidable (_ = true))

/-- A call asks for a number of tokens that fits. -/
def WithinBudget (estimated : ℕ) (served : ServedContext) (call : GenerationRequest) : Prop :=
  ∃ value ∈ call.sampling.maxOutputTokens, ∃ tokens ∈ Json.numberOf value,
    FitsBehind estimated served tokens

/-- An allowance that does not fit is reduced: the profile states a floor, and there is room for
it. -/
def Reduced (estimated : ℕ) (served : ServedContext) (floor : Option ℕ) (allowance : Number) :
    Prop :=
  ¬ FitsBehind estimated served allowance ∧
    ∃ n : ℕ, n ∈ floor ∧ (n : ℤ) ≤ served.tokens - estimated - safetyMarginTokens

/-- What is asked for can be counted, and routing has not had to reduce it. -/
def AllowanceKept (estimated : ℕ) (served : ServedContext) (request : GenerateRequest)
    (execution : TaskProfileExecution) : Prop :=
  match Json.member? "max_output_tokens" request.sampling with
  | none => ¬ Reduced estimated served execution.minOutputTokens (.int execution.maxOutputTokens)
  | some value => ∃ tokens ∈ Json.numberOf value, tokens ≠ .nan ∧
      (value.truthy = true →
        ¬ Reduced estimated served execution.minOutputTokens tokens)

/-- The request a routing request was built from, at once or by a worker. -/
inductive RoutedFrom (rack : ModelRack) (request : GenerateRequest) (routed : RouteRequest) : Prop
  | synchronous (h : request.routeRequest rack = .ok routed)
  | queued (submission : JobSubmission) (hview : submission.toGenerateRequest rack = .ok request)
      (h : submission.routeRequest rack = .ok routed)

theorem RoutedFrom.estimated {rack : ModelRack} {request : GenerateRequest} {routed : RouteRequest}
    (h : RoutedFrom rack request routed) :
    (∃ estimated, routed.estimatedInputTokens = some estimated) ∧
      routed.maxOutputTokens = samplingValue "max_output_tokens" request.sampling := by
  cases h with
  | synchronous h =>
      obtain ⟨turns, -, h⟩ := bind_eq_ok.1 h
      cases h
      exact ⟨⟨_, rfl⟩, rfl⟩
  | queued submission hview h =>
      obtain ⟨_, -, hview⟩ := bind_eq_ok.1 hview
      obtain ⟨_, -, h⟩ := bind_eq_ok.1 h
      obtain ⟨turns, -, h⟩ := bind_eq_ok.1 h
      cases hview
      cases h
      exact ⟨⟨_, rfl⟩, rfl⟩

/-! ### What routing lets pass -/

section Budget

variable {estimated : ℕ} {served : ServedContext} {floor : Option ℕ} {allowance : Number}

theorem not_reduced_of_fits (h : FitsBehind estimated served allowance) :
    ¬ Reduced estimated served floor allowance := fun hreduced => hreduced.1 h

/-- The context constraint refuses an allowance that neither fits nor can be reduced, unless it is
not a number. -/
theorem fits_or_reduced (hallowance : allowance ≠ .nan)
    (hpassed : ((((some (budgetContext estimated allowance served floor)).filter
      fun budget => !budget.fits).map ContextBudget.requiredContext).filter
        fun required => required.exceeds served.tokens) = none) :
    FitsBehind estimated served allowance ∨ Reduced estimated served floor allowance := by
  by_cases hfits : FitsBehind estimated served allowance
  · exact .inl hfits
  refine .inr ⟨hfits, ?_⟩
  by_contra hroom
  have hfloor : (floor.any fun n : ℕ =>
      decide ((n : ℤ) ≤ served.tokens - estimated - safetyMarginTokens)) = false := by
    rw [Option.any_eq_false]
    simpa using fun n hn => not_le.1 fun hle => hroom ⟨n, hn, hle⟩
  have hexceeds : (allowance.plus (estimated + safetyMarginTokens)).exceeds served.tokens =
      true := by
    rw [Number.exceeds_eq_not_atMost (by simpa using hallowance)]
    simpa [FitsBehind] using hfits
  have hover : ¬ (allowance.plus (estimated + safetyMarginTokens)).atMost served.tokens = true :=
    hfits
  simp only [budgetContext, if_neg hover, hfloor] at hpassed
  simp [hexceeds] at hpassed

theorem fits_zero {n : ℕ} (h : FitsBehind estimated served (.int n) ∨
    Reduced estimated served floor (.int n)) :
    (estimated : ℤ) + safetyMarginTokens ≤ served.tokens := by
  rcases h with hfits | ⟨-, k, -, hroom⟩
  · have : (n : ℤ) + (estimated + safetyMarginTokens) ≤ served.tokens := by
      simpa [FitsBehind, Number.plus, Number.atMost] using hfits
    omega
  · omega

theorem reachesBudget_of_judged {s : RouterState} {request : RouteRequest} {cs : List Candidate}
    {r : Requirements} {c : Candidate} {ranked : Routing.RankedCandidate}
    (hestimated : request.estimatedInputTokens = some estimated) (hc : c ∈ cs)
    (hjudged : Judged s request r c ranked) :
    reachesBudget s request r.constraints cs = true := by
  unfold reachesBudget
  rw [hestimated, Option.isSome_some, Bool.true_and, List.any_eq_true]
  refine ⟨c, hc, ?_⟩
  rw [hjudged.subject, hjudged.selected]
  rfl

/-- **What routing lets pass** fits as it is or has been reduced. -/
theorem Routing.Judged.fits_or_reduced {s : RouterState} {request : RouteRequest} {r : Requirements}
    {c : Candidate} {ranked : Routing.RankedCandidate} (hjudged : Judged s request r c ranked)
    (hestimated : request.estimatedInputTokens = some estimated)
    (hallowance : r.maxOutputTokens ≠ .nan) :
    FitsBehind estimated ranked.subject.servedContext r.maxOutputTokens ∨
      Reduced estimated ranked.subject.servedContext r.profile.execution.minOutputTokens
        r.maxOutputTokens := by
  obtain ⟨fits, hpassed⟩ := hjudged.passed
  have hprovider : checkProvider ranked.subject
      (constraintInputs s request r ranked.subject) = none := by
    unfold evaluateConstraints at hpassed
    split at hpassed
    · cases hpassed
    · assumption
  obtain ⟨-, -, -, -, -, hrequired, -, -⟩ := checkProvider_eq_none_iff.1 hprovider
  have hbudget : candidateBudget request r ranked.subject.servedContext =
      some (budgetContext estimated r.maxOutputTokens ranked.subject.servedContext
        r.profile.execution.minOutputTokens) := by
    rw [candidateBudget, hestimated]
    rfl
  refine LoadCoach.fits_or_reduced hallowance ?_
  rw [← hbudget]
  exact hrequired

end Budget

/-! ### Calls within their budget -/

section Calls

variable {estimated : ℕ} {served : ServedContext} {allowance tokens : Number}
  {request : GenerateRequest} {execution : TaskProfileExecution}

theorem fits_iff_not_reduced
    (hpassed : allowance ≠ .nan → FitsBehind estimated served allowance ∨
      Reduced estimated served execution.minOutputTokens allowance) :
    FitsBehind estimated served allowance ↔
      allowance ≠ .nan ∧
        ¬ Reduced estimated served execution.minOutputTokens allowance := by
  constructor
  · intro hfits
    refine ⟨?_, not_reduced_of_fits hfits⟩
    rintro rfl
    cases hfits
  · rintro ⟨hnumber, hkept⟩
    exact (hpassed hnumber).resolve_right hkept

theorem outputAllowance_of_numberOf {value : Json} (hnumber : Json.numberOf value = some tokens)
    (htruthy : value.truthy = true) (default : ℕ) :
    outputAllowance (some value) default = .ok tokens := by
  unfold outputAllowance
  rw [Option.filter_some, htruthy]
  cases value with
  | int n =>
      cases hnumber
      rfl
  | bool b =>
      cases hnumber
      cases b with
      | true => rfl
      | false => cases htruthy
  | float x =>
      cases hnumber
      rfl
  | null | str s | arr items | obj members => cases hnumber

theorem fits_of_falsy {value : Json} (hnumber : Json.numberOf value = some tokens)
    (hfalsy : value.truthy = false)
    (hroom : (estimated : ℤ) + safetyMarginTokens ≤ served.tokens) :
    tokens ≠ .nan ∧ FitsBehind estimated served tokens := by
  have hzero : FitsBehind estimated served (.int 0) := by
    simpa [FitsBehind, Number.plus, Number.atMost] using hroom
  cases value with
  | int n =>
      obtain rfl : n = 0 := by simpa [Json.truthy] using hfalsy
      cases hnumber
      exact ⟨by simp, hzero⟩
  | bool b =>
      obtain rfl : b = false := by simpa [Json.truthy] using hfalsy
      cases hnumber
      exact ⟨by simp, hzero⟩
  | float x =>
      cases x with
      | literal mantissa exponent =>
          obtain rfl : mantissa = 0 := by simpa [Json.truthy] using hfalsy
          cases hnumber
          refine ⟨by simp [Number.ofFloat], ?_⟩
          have hcast : ((estimated + safetyMarginTokens : ℤ) : ℚ) ≤ ((served.tokens : ℤ) : ℚ) :=
            Int.cast_le.2 hroom
          simpa [FitsBehind, Number.ofFloat, Number.plus, Number.atMost] using hcast
      | nan | infinity | negInfinity => cases hfalsy
  | null | str s | arr items | obj members => cases hnumber

theorem withinBudget_iff_allowanceKept (candidate : Routing.RankedCandidate)
    (turns : List Message) (schema : Option Members)
    (hallowance : outputAllowance (samplingValue "max_output_tokens" request.sampling)
      execution.maxOutputTokens = .ok allowance)
    (hpassed : allowance ≠ .nan → FitsBehind estimated served allowance ∨
      Reduced estimated served execution.minOutputTokens allowance) :
    WithinBudget estimated served (callFor request candidate turns schema execution) ↔
      AllowanceKept estimated served request execution := by
  have hsent : (callFor request candidate turns schema execution).sampling.maxOutputTokens =
      samplingOver "max_output_tokens" request.sampling (some (.int execution.maxOutputTokens)) :=
    rfl
  unfold WithinBudget AllowanceKept
  rw [hsent]
  cases hmember : Json.member? "max_output_tokens" request.sampling with
  | none =>
      rw [samplingValue, hmember] at hallowance
      cases hallowance
      rw [samplingOver, hmember]
      simpa [Json.numberOf, Json.number?] using fits_iff_not_reduced hpassed
  | some value =>
      cases hnumber : Json.numberOf value with
      | none =>
          rw [samplingOver, hmember]
          cases value with
          | null => simp [hnumber]
          | str s | arr items | obj members => simp [hnumber]
          | int n | bool b | float x => cases hnumber
      | some tokens =>
          have hstated : value ≠ .null := by
            rintro rfl
            cases hnumber
          rw [samplingValue_of_stated hmember hstated] at hallowance
          rw [samplingOver_of_stated hmember hstated]
          simp only [Option.mem_some, hnumber]
          cases htruthy : value.truthy with
          | true =>
              rw [outputAllowance_of_numberOf hnumber htruthy] at hallowance
              cases hallowance
              simpa [hnumber] using fits_iff_not_reduced hpassed
          | false =>
              -- routing measured the profile's allowance, and there is room for at least that
              rw [outputAllowance, Option.filter_some, htruthy] at hallowance
              cases hallowance
              have hfits := fits_of_falsy hnumber htruthy (fits_zero (hpassed (by simp)))
              exact iff_of_true ⟨value, rfl, tokens, hnumber, hfits.2⟩
                ⟨tokens, rfl, hfits.1, by simp⟩

end Calls

/-- **When a call honours the context budget.**  A call that is made for a request asks for a number
of tokens that fits the served context of its candidate, behind the estimated prompt and with the
safety margin, exactly if what the request or its profile states can be counted and routing has not
had to reduce it. -/
theorem call_within_budget_iff {rack : ModelRack} {request : GenerateRequest}
    {routed : RouteRequest} {s : RouterState} {d : Decision} {candidate : Routing.RankedCandidate}
    (hrouted : RoutedFrom rack request routed) (hroute : route s routed = .ok d)
    (hexecuted : candidate ∈ d.ranking.candidates) (turns : List Message)
    (schema : Option Members) :
    ∃ estimated, routed.estimatedInputTokens = some estimated ∧
      (WithinBudget estimated candidate.subject.servedContext
          (callFor request candidate turns schema d.taskProfile.execution) ↔
        AllowanceKept estimated candidate.subject.servedContext request
          d.taskProfile.execution) := by
  obtain ⟨⟨estimated, hestimated⟩, hvalue⟩ := hrouted.estimated
  refine ⟨estimated, hestimated, ?_⟩
  have hdecision : decision s routed = .ok d := by
    unfold route at hroute
    split at hroute
    · cases hroute
    rename_i d' hd'
    split at hroute
    · cases hroute
    · cases hroute
      exact hd'
  have hordered : candidate ∈ d.ranking.ordered := by
    rw [decision_eq] at hdecision
    obtain ⟨_, -, rfl⟩ := map_eq_ok.1 hdecision
    exact Routing.Ranking.mem_ordered hexecuted
  obtain ⟨cs, r, c, hposed, hprofile, hc, hjudged⟩ := judged_of_ordered hdecision hordered
  have hallowance := (posed_eq_ok hposed).maxOutputTokens
    (reachesBudget_of_judged hestimated hc hjudged)
  rw [hvalue] at hallowance
  rw [hprofile]
  exact withinBudget_iff_allowanceKept candidate turns schema hallowance
    fun hnumber => hjudged.fits_or_reduced hestimated hnumber

/-- One model that is served a thousand tokens, under a profile that would do with a quarter. -/
def narrowState : RouterState where
  taskProfiles :=
    [{ profileId := "chat", weights := [("chat", 1)]
       execution := { minOutputTokens := some 256 } }]
  registry :=
    { models :=
        [{ modelId := "m", canonicalId := "m", providerKind := "llamacpp"
           providerModelName := "m" }] }
  provider := { reportedServedContext := some 1024 }
  profileHash := fun _ => ""

/-- A prompt of five characters. -/
def shortRequest : GenerateRequest := { task := "chat", prompt := some "Hello" }

/-- What it is routed as. -/
def shortRouted : RouteRequest := { task := "chat", estimatedInputTokens := some 2 }

theorem shortRequest_routed : RoutedFrom documentedRack shortRequest shortRouted :=
  .synchronous rfl

theorem call_within_budget_iff_short : ∃ d candidate, route narrowState shortRouted = .ok d ∧
    candidate ∈ d.ranking.candidates ∧ ∃ estimated,
      shortRouted.estimatedInputTokens = some estimated ∧
        (WithinBudget estimated candidate.subject.servedContext
            (callFor shortRequest candidate [] none d.taskProfile.execution) ↔
          AllowanceKept estimated candidate.subject.servedContext shortRequest
            d.taskProfile.execution) :=
  ⟨_, _, rfl, List.mem_singleton.2 rfl,
    call_within_budget_iff (s := narrowState) shortRequest_routed rfl (List.mem_singleton.2 rfl) []
      none⟩

/-- The call asks for the thousand tokens routing had reduced to what is left of the context. -/
theorem reduced_allowance_sent : ¬ ∀ (rack : ModelRack) (request : GenerateRequest)
    (routed : RouteRequest) (s : RouterState) (d : Decision) (candidate : Routing.RankedCandidate),
    RoutedFrom rack request routed → route s routed = .ok d → candidate ∈ d.ranking.candidates →
      ∀ estimated ∈ routed.estimatedInputTokens, ∀ turns schema,
        WithinBudget estimated candidate.subject.servedContext
          (callFor request candidate turns schema d.taskProfile.execution) := by
  intro h
  obtain ⟨value, hvalue, tokens, htokens, hfits⟩ := h documentedRack shortRequest shortRouted
    narrowState _ _ shortRequest_routed rfl (List.mem_singleton.2 rfl) 2 rfl [] none
  cases hvalue
  cases htokens
  exact absurd hfits (by decide)

end LoadCoach

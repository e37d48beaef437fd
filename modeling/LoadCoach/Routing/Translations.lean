import LoadCoach.Requests
import LoadCoach.Routing.Route

/-! # The two routing requests of a body

A body that both endpoints accept is routed in two ways.  `POST /generate` routes it at once, and
`execute` builds the routing request from the validated body (`services/execution.py`).
`POST /jobs` stores it; a worker reads it back and builds the routing request from the stored
submission (`_route` of `services/worker.py`).  The worker's request says nothing about tools,
thinking or the data classification, and what the store lost of the overrides is lost for it.

The two agree exactly for the bodies that state none of these (`routedAlike_iff`). -/

namespace LoadCoach

open Foundations Routing

/-! ### The two builders -/

/-- `sampling.get(key)`: absent and `null` are the same. -/
def samplingValue (key : String) (sampling : Members) : Option Json :=
  match Json.member? key sampling with
  | none | some .null => none
  | some value => some value

/-- `sampling.get("think")`, which a validator has seen. -/
def samplingThink (sampling : Members) : Option Bool :=
  match samplingValue "think" sampling with
  | some (.bool b) => some b
  | _ => none

/-- The text of a transcript, as far as its size is concerned. -/
def callerText (turns : List Message) : String := String.join (turns.map Message.content)

/-- The routing request `execute` builds. -/
def GenerateRequest.routeRequest (rack : ModelRack) (request : GenerateRequest) :
    Except Raised RouteRequest := do
  let turns ← request.transcript rack
  pure
    { task := request.task
      estimatedInputTokens := some (estimateInputTokens (callerText turns))
      maxOutputTokens := samplingValue "max_output_tokens" request.sampling
      requireCapabilities := if request.tools.isEmpty then [] else ["tool_use"]
      think := samplingThink request.sampling
      overrides := request.overrides.getD {}
      dataClassification := request.dataClassification }

/-- The routing request a worker builds from a stored submission. -/
def JobSubmission.routeRequest (rack : ModelRack) (submission : JobSubmission) :
    Except Raised RouteRequest := do
  let request ← submission.toGenerateRequest rack
  let turns ← request.transcript rack
  pure
    { task := submission.task
      estimatedInputTokens := some (estimateInputTokens (callerText turns))
      maxOutputTokens := samplingValue "max_output_tokens" submission.sampling
      overrides := submission.overrides.getD {} }

/-- How `POST /generate` routes a body. -/
def synchronousRequest (rack : ModelRack) (body : JobBody) (source : String) (stream : Bool) :
    Except Raised RouteRequest := do
  let request ← toRequest rack body.toGenerateBody source stream
  request.routeRequest rack

/-- How a worker routes the job `POST /jobs` stores for a body. -/
def queuedRequest (rack : ModelRack) (body : JobBody) (source : String) (priority : ℤ)
    (maxWaitSeconds : Option ℕ) : Except Raised RouteRequest := do
  let s ← submission rack body source
  let payload ← s.asRequestJson rack
  let stored ← JobSubmission.fromRequestJson rack payload (s.columns priority maxWaitSeconds)
  stored.routeRequest rack

/-! ### What the two requests are -/

/-- The overrides of a body. -/
def bodyOverrides (body : GenerateBody) : RuntimeOverrides :=
  (body.overrides.map overridesOf).getD {}

theorem synchronousRequest_eq_ok {rack : ModelRack} {body : JobBody} {source : String}
    {stream : Bool} {r : RouteRequest} :
    synchronousRequest rack body source stream = .ok r ↔
      ∃ messages turns, messagesOf rack body.toGenerateBody = .ok messages ∧
        transcriptOf rack body.system body.prompt messages = .ok turns ∧
        r =
          { task := body.task
            estimatedInputTokens := some (estimateInputTokens (callerText turns))
            maxOutputTokens := samplingValue "max_output_tokens" body.sampling
            requireCapabilities :=
              if (toolsOf body.toGenerateBody).isEmpty then [] else ["tool_use"]
            think := samplingThink body.sampling
            overrides := bodyOverrides body.toGenerateBody
            dataClassification := body.dataClassification } := by
  simp only [synchronousRequest, toRequest, GenerateRequest.routeRequest,
    GenerateRequest.transcript, bind_eq_ok, pure_eq_ok]
  constructor
  · rintro ⟨_, ⟨messages, hmessages, rfl⟩, turns, hturns, rfl⟩
    exact ⟨messages, turns, hmessages, hturns, rfl⟩
  · rintro ⟨messages, turns, hmessages, hturns, rfl⟩
    exact ⟨_, ⟨messages, hmessages, rfl⟩, turns, hturns, rfl⟩

/-- **What reaches the router from the queue.**  A body whose transcript can be built is stored
and read back, and the worker's request carries its task, its size, its output allowance and
what the store kept of its overrides. -/
theorem queuedRequest_eq {rack : ModelRack} {body : JobBody} {messages : Option (List Message)}
    {turns : List Message} (hmessages : messagesOf rack body.toGenerateBody = .ok messages)
    (hturns : transcriptOf rack body.system body.prompt messages = .ok turns) (source : String)
    (priority : ℤ) (maxWaitSeconds : Option ℕ) :
    queuedRequest rack body source priority maxWaitSeconds = .ok
      { task := body.task
        estimatedInputTokens := some (estimateInputTokens (callerText turns))
        maxOutputTokens := samplingValue "max_output_tokens" body.sampling
        overrides := (bodyOverrides body.toGenerateBody).stored } := by
  obtain ⟨s, hs⟩ : ∃ s, submission rack body source = .ok s := by
    rw [submission, hmessages]
    exact ⟨_, rfl⟩
  have hsub := hs
  simp only [submission, hmessages, ok_bind, pure_eq_ok] at hsub
  have htranscript : s.transcript rack = .ok turns := by
    rw [← hsub]
    exact hturns
  have hpayload : s.asRequestJson rack = .ok (s.requestMembers turns) := by
    rw [JobSubmission.asRequestJson, htranscript]
    rfl
  obtain ⟨payload, turns', hpayload', hturns', hdecode⟩ :=
    JobSubmission.fromRequestJson_asRequestJson (accepted_of_submission hs hpayload)
      (s.columns priority maxWaitSeconds)
  rw [htranscript] at hturns'
  cases hturns'
  have hoverrides : (s.overrides.map RuntimeOverrides.stored).getD {} =
      (bodyOverrides body.toGenerateBody).stored := by
    rw [← hsub, bodyOverrides]
    cases body.overrides <;> rfl
  rw [queuedRequest, hs, ok_bind, hpayload', ok_bind, hdecode, ok_bind]
  simp only [JobSubmission.routeRequest, JobSubmission.toGenerateRequest, JobSubmission.stored,
    JobSubmission.transcript, GenerateRequest.transcript, transcriptOf, ok_bind, hoverrides]
  rw [← hsub]
  rfl

/-! ### When the two agree -/

/-- What a caller sees of a decision: the eligible candidates in order, and the context budget. -/
def outcome (s : RouterState) (request : RouteRequest) :
    Except RouteError (List Routing.RankedCandidate × Option ContextBudget) :=
  (route s request).map fun d => (d.ranking.ordered, d.budget)

/-- Two routing requests are routed alike: they lead to the same candidates in the same order and
the same budget in every state, and the router is told the same about capabilities, thinking,
overrides and classification. -/
structure RoutedAlike (r r' : RouteRequest) : Prop where
  outcome : ∀ s, outcome s r = outcome s r'
  requireCapabilities : r.requireCapabilities = r'.requireCapabilities
  think : r.think = r'.think
  overrides : r.overrides = r'.overrides
  dataClassification : r.dataClassification = r'.dataClassification

/-- A body that states nothing the queue does not route by. -/
structure PlainlyRouted (body : JobBody) : Prop where
  tools : body.tools.getD [] = []
  think : samplingThink body.sampling = none
  dataClassification : body.dataClassification = none
  profile : ∀ o ∈ body.overrides, ∀ p ∈ o.runtimeProfile,
    p.gpuLayers = none ∧ p.threads = none ∧ p.batchSize = none

theorem requireCapabilities_eq_nil_iff (body : GenerateBody) :
    (if (toolsOf body).isEmpty then [] else ["tool_use"]) = ([] : List String) ↔
      body.tools.getD [] = [] := by
  unfold toolsOf
  cases body.tools.getD [] <;> simp

/-- The overrides of a body are stored whole unless their profile states a field the store
forgets. -/
theorem bodyOverrides_stored_iff (body : GenerateBody) :
    (bodyOverrides body).stored = bodyOverrides body ↔
      ∀ o ∈ body.overrides, ∀ p ∈ o.runtimeProfile,
        p.gpuLayers = none ∧ p.threads = none ∧ p.batchSize = none := by
  have hsome : (bodyOverrides body).stored = bodyOverrides body ↔
      (some (bodyOverrides body)).map RuntimeOverrides.stored = some (bodyOverrides body) := by
    simp
  rw [hsome, JobSubmission.overrides_stored_iff]
  unfold bodyOverrides
  cases body.overrides with
  | none => simp
  | some o =>
      cases hprofile : o.runtimeProfile with
      | none => simp [overridesOf, hprofile]
      | some p => simp [overridesOf, hprofile, profileOf, RuntimeProfile.StoredWhole]

/-- **When queued and synchronous execution agree on routing.**  A body that both endpoints accept
is routed alike by both exactly when it offers no tools, states no thinking control and no data
classification, and its runtime profile states no GPU layers, no threads and no batch size. -/
theorem routedAlike_iff {rack : ModelRack} {body : JobBody} {source : String} {stream : Bool}
    {r : RouteRequest} (haccepted : synchronousRequest rack body source stream = .ok r)
    (priority : ℤ) (maxWaitSeconds : Option ℕ) :
    ∃ r', queuedRequest rack body source priority maxWaitSeconds = .ok r' ∧
      (RoutedAlike r r' ↔ PlainlyRouted body) := by
  obtain ⟨messages, turns, hmessages, hturns, rfl⟩ := synchronousRequest_eq_ok.1 haccepted
  refine ⟨_, queuedRequest_eq hmessages hturns source priority maxWaitSeconds, ?_⟩
  constructor
  · intro halike
    exact ⟨(requireCapabilities_eq_nil_iff _).1 halike.requireCapabilities, halike.think,
      halike.dataClassification, (bodyOverrides_stored_iff _).1 halike.overrides.symm⟩
  · intro hplain
    have hcapabilities := (requireCapabilities_eq_nil_iff _).2 hplain.tools
    have hoverrides := (bodyOverrides_stored_iff _).2 hplain.profile
    have hthink := hplain.think
    have hclassification := hplain.dataClassification
    rw [hcapabilities, hoverrides, hthink, hclassification]
    exact ⟨fun _ => rfl, rfl, rfl, rfl, rfl⟩

/-! ### A body whose tools the queue forgets -/

/-- A prompt that offers one tool. -/
def toolBody : JobBody := { promptBody with tools := some [{ name := "clock" }] }

/-- One model whose provider cannot use tools. -/
def toollessState : RouterState where
  taskProfiles := [{ profileId := "chat", weights := [("chat", 1)] }]
  registry :=
    { models :=
        [{ modelId := "m", canonicalId := "m", providerKind := "llamacpp"
           providerModelName := "m" }] }
  provider := { reportedServedContext := some 4096 }
  profileHash := fun _ => ""

/-- The routing request of the synchronous path for that body. -/
def toolRequest : RouteRequest where
  task := "chat"
  estimatedInputTokens := some 2
  requireCapabilities := ["tool_use"]

theorem synchronousRequest_toolBody :
    synchronousRequest documentedRack toolBody "anonymous" false = .ok toolRequest := rfl

theorem queuedRequest_toolBody :
    queuedRequest documentedRack toolBody "anonymous" 400 none =
      .ok { toolRequest with requireCapabilities := [] } := rfl

/-- The names of the candidates a request may be served by. -/
def eligibleNames (s : RouterState) (request : RouteRequest) : Option (List String) :=
  (outcome s request).toOption.map fun o => o.1.map fun c => c.subject.facts.canonicalId

/-- The synchronous path refuses the body where only a model without tools is left, and the queue
sends it there. -/
theorem toolBody_misrouted : ¬ ∀ body r r',
    synchronousRequest documentedRack body "anonymous" false = .ok r →
      queuedRequest documentedRack body "anonymous" 400 none = .ok r' →
        ∀ s, outcome s r = outcome s r' := by
  intro hclaim
  have hsame := hclaim toolBody _ _ synchronousRequest_toolBody queuedRequest_toolBody toollessState
  have hrefused : eligibleNames toollessState toolRequest = none := rfl
  have hserved : eligibleNames toollessState { toolRequest with requireCapabilities := [] } =
      some ["m"] := by
    decide
  rw [eligibleNames, ← hsame] at hserved
  rw [eligibleNames, hserved] at hrefused
  cases hrefused

/-- The equivalence at that body: it is accepted by both, and not routed alike. -/
theorem routedAlike_iff_toolBody :
    ∃ r', queuedRequest documentedRack toolBody "anonymous" 400 none = .ok r' ∧
      (RoutedAlike toolRequest r' ↔ PlainlyRouted toolBody) :=
  routedAlike_iff synchronousRequest_toolBody 400 none

end LoadCoach

import LoadCoach.Submission

/-! # Request bodies

The bodies of `POST /generate` and `POST /jobs` as the web layer validates them
(`web/routes/generate.py`, `web/routes/jobs.py`), and the two translations of a body: `toRequest`
for the synchronous path and `submission` for the queue.  A body carries what its validators
checked, so a value of type `GenerateBody` is a body the framework let through; what the
translations may still refuse is the transcript (`messagesOf`).

`accepted_of_submission` says that a submission built from a body is one the codec handles, and
`JobSubmission.roundTrips_iff` when the stored form of a submission gives the same generation
request back. -/

namespace LoadCoach

open Foundations

/-! ### Bodies -/

/-- One tool call an assistant turn requested; the arguments are an object or raw text. -/
structure ToolCallBody where
  id : String
  name : String
  arguments : Members ⊕ String := .inl []
  id_ne : id ≠ "" := by decide
  name_ne : name ≠ "" := by decide

/-- One tool offered to the model. -/
structure ToolDefinitionBody where
  name : String
  description : String := ""
  parameters : Members := []
  name_ne : name ≠ "" := by decide

/-- One turn of a caller-supplied transcript. -/
structure MessageBody where
  role : Role
  content : String
  toolCallId : Option String := none
  toolCalls : Option (List ToolCallBody) := none

/-- The runtime settings a request may override. -/
structure RuntimeProfileOverrideBody where
  contextSize : Option ℕ := none
  kvCachePrecision : Option String := none
  gpuLayers : Option ℕ := none
  flashAttention : Option Bool := none
  threads : Option ℕ := none
  batchSize : Option ℕ := none
  keepAlive : Option String := none
  contextSize_pos : ∀ n ∈ contextSize, 0 < n := by decide
  threads_pos : ∀ n ∈ threads, 0 < n := by decide
  batchSize_pos : ∀ n ∈ batchSize, 0 < n := by decide

/-- A request's `overrides` block. -/
structure OverridesBody where
  model : Option String := none
  adapter : Option String := none
  runtimeProfile : Option RuntimeProfileOverrideBody := none
  disallowFallback : Bool := false
  requireEvidence : Bool := false
  ignoreResidency : Bool := false

/-- The levels of a data classification, lowest first. -/
def dataClassificationLevels : List String := ["public", "internal", "confidential"]

/-- `sampling.think` is a switch: a boolean, `null` or absent. -/
def thinkIsASwitch (sampling : Members) : Bool :=
  match Json.member? "think" sampling with
  | none | some .null | some (.bool _) => true
  | some _ => false

/-- `POST /generate`'s body. -/
structure GenerateBody where
  task : String
  system : Option String := none
  prompt : Option String := none
  messages : Option (List MessageBody) := none
  responseFormat : Option String := none
  sampling : Members := []
  overrides : Option OverridesBody := none
  tools : Option (List ToolDefinitionBody) := none
  idempotencyKey : Option String := none
  dataClassification : Option String := none
  responseFormat_known : ∀ f ∈ responseFormat, f ∈ ["text", "json", "json_schema"] := by decide
  idempotencyKey_length : ∀ k ∈ idempotencyKey, k.length ≤ 128 := by decide
  knownClassification : ∀ c ∈ dataClassification, c ∈ dataClassificationLevels := by decide
  think_switch : thinkIsASwitch sampling = true := by decide
  exactlyOneForm : prompt.isNone ≠ messages.isNone := by decide
  system_with_prompt : messages.isSome → system = none := by decide

/-- `POST /jobs`'s body. -/
structure JobBody extends GenerateBody where
  jobClass : JobClass := .normal
  priority : Option ℤ := none
  maxWaitSeconds : Option ℕ := none
  idempotent : Bool := true
  stream : Bool := false
  priority_range : ∀ p ∈ priority, 0 ≤ p ∧ p ≤ 999 := by decide
  maxWaitSeconds_pos : ∀ n ∈ maxWaitSeconds, 1 ≤ n := by decide

/-! ### Translations -/

/-- One requested call. -/
def toolCallOf (call : ToolCallBody) : ToolCall :=
  match call.arguments with
  | .inl arguments => ⟨call.id, call.name, arguments, none⟩
  | .inr raw => ⟨call.id, call.name, [], some raw⟩

/-- One turn's requested calls. -/
def toolCallsOf (turn : MessageBody) : List ToolCall :=
  (turn.toolCalls.getD []).map toolCallOf

/-- One turn. -/
def messageOf (turn : MessageBody) : Message where
  role := turn.role
  content := turn.content
  toolCallId := turn.toolCallId
  toolCalls := toolCallsOf turn

/-- The one shape a refused transcript reaches the caller in. -/
def refused (index : ℕ) (field problem : String) : Raised :=
  .suite "VALIDATION_ERROR" "The transcript is not internally consistent."
    [("fields", .arr [.obj [("path", .str s!"messages[{index}].{field}"),
      ("problem", .str problem)]])]

/-- The turns from position `index` on, `offered` being the calls requested before it. -/
def turnsOf (rack : ModelRack) : ℕ → List String → List MessageBody → Except Raised (List Message)
  | _, _, [] => .ok []
  | index, offered, turn :: rest => do
      match rack.refusal (messageOf turn) with
      | some (field, problem) => .error (refused index field problem)
      | none =>
          if turn.role = .tool ∧ ¬ ∃ id ∈ turn.toolCallId, id ∈ offered then
            let id := (turn.toolCallId.map fun id => s!"'{id}'").getD "None"
            .error (refused index "tool_call_id"
              (s!"no earlier assistant turn requested the call {id}; a tool " ++
                "result answers a call the model made."))
          else
            let turns ← turnsOf rack (index + 1)
              (offered ++ (toolCallsOf turn).map ToolCall.id) rest
            pure (messageOf turn :: turns)

/-- The caller's transcript, or `none` for the prompt form. -/
def messagesOf (rack : ModelRack) (body : GenerateBody) :
    Except Raised (Option (List Message)) :=
  match body.messages with
  | none => .ok none
  | some turns => (turnsOf rack 0 [] turns).map some

/-- One offered tool. -/
def toolOf (tool : ToolDefinitionBody) : ToolDefinition :=
  ⟨tool.name, tool.description, tool.parameters⟩

/-- The tools the caller offered. -/
def toolsOf (body : GenerateBody) : List ToolDefinition := (body.tools.getD []).map toolOf

/-- The runtime profile an override states. -/
def profileOf (body : RuntimeProfileOverrideBody) : RuntimeProfile where
  contextSize := body.contextSize
  kvCachePrecision := body.kvCachePrecision
  gpuLayers := body.gpuLayers
  flashAttention := body.flashAttention
  threads := body.threads
  batchSize := body.batchSize
  keepAlive := body.keepAlive

/-- The overrides of a body. -/
def overridesOf (body : OverridesBody) : RuntimeOverrides where
  model := body.model
  adapter := body.adapter
  runtimeProfile := body.runtimeProfile.map profileOf
  disallowFallback := body.disallowFallback
  requireEvidence := body.requireEvidence
  ignoreResidency := body.ignoreResidency

/-- The synchronous path's request. -/
def toRequest (rack : ModelRack) (body : GenerateBody) (source : String) (stream : Bool) :
    Except Raised GenerateRequest := do
  let messages ← messagesOf rack body
  pure
    { task := body.task
      system := body.system
      prompt := body.prompt
      messages
      responseFormat := body.responseFormat
      sampling := body.sampling
      overrides := body.overrides.map overridesOf
      tools := toolsOf body
      dataClassification := body.dataClassification
      source
      idempotencyKey := body.idempotencyKey
      stream }

/-- The queue's submission. -/
def submission (rack : ModelRack) (body : JobBody) (source : String) :
    Except Raised JobSubmission := do
  let messages ← messagesOf rack body.toGenerateBody
  pure
    { task := body.task
      prompt := body.prompt
      system := body.system
      messages
      responseFormat := body.responseFormat
      sampling := body.sampling
      overrides := body.overrides.map overridesOf
      dataClassification := body.dataClassification
      jobClass := body.jobClass
      priority := body.priority
      maxWaitSeconds := body.maxWaitSeconds
      idempotent := body.idempotent
      idempotencyKey := body.idempotencyKey
      source
      stream := body.stream }

/-! ### What the translations let through -/

theorem toolCallOf_wellFormed (call : ToolCallBody) : (toolCallOf call).WellFormed := by
  unfold toolCallOf
  cases call.arguments with
  | inl arguments =>
      intro h
      cases h
  | inr raw => exact fun _ => rfl

theorem messageOf_wellFormed (turn : MessageBody) :
    ∀ c ∈ (messageOf turn).toolCalls, c.WellFormed := by
  intro c hc
  obtain ⟨call, -, rfl⟩ := List.mem_map.1 hc
  exact toolCallOf_wellFormed call

theorem mem_turnsOf {rack : ModelRack} {index : ℕ} {offered : List String}
    {bodies : List MessageBody} {turns : List Message}
    (h : turnsOf rack index offered bodies = .ok turns) : AcceptedTurns rack turns := by
  induction bodies generalizing index offered turns with
  | nil =>
      cases h
      simp [AcceptedTurns]
  | cons turn rest ih =>
      rw [turnsOf] at h
      cases hrefusal : rack.refusal (messageOf turn) with
      | some r =>
          rw [hrefusal] at h
          cases h
      | none =>
          simp only [hrefusal] at h
          split at h
          · cases h
          · cases hrest : turnsOf rack (index + 1)
              (offered ++ (toolCallsOf turn).map ToolCall.id) rest with
            | error e =>
                rw [hrest] at h
                cases h
            | ok tail =>
                rw [hrest] at h
                cases h
                intro m hm
                rcases List.mem_cons.1 hm with rfl | hm
                · exact ⟨hrefusal, messageOf_wellFormed turn⟩
                · exact ih hrest m hm

theorem transcriptOf_accepted {rack : ModelRack} {system prompt : Option String}
    {messages : Option (List Message)} {turns : List Message}
    (hmessages : ∀ ms ∈ messages, AcceptedTurns rack ms)
    (h : transcriptOf rack system prompt messages = .ok turns) : AcceptedTurns rack turns := by
  cases messages with
  | some ms =>
      cases h
      exact hmessages turns rfl
  | none =>
      have hturn : ∀ {role content m}, rack.message { role, content } = .ok m →
          rack.refusal m = none ∧ ∀ c ∈ m.toolCalls, c.WellFormed := by
        intro role content m hm
        obtain ⟨hrefusal, rfl⟩ := ModelRack.message_eq_ok.1 hm
        exact ⟨hrefusal, by simp⟩
      cases system with
      | none =>
          simp only [transcriptOf, bind_eq_ok, pure_eq_ok] at h
          obtain ⟨_, rfl, user, huser, rfl⟩ := h
          intro m hm
          rw [List.mem_singleton.1 hm]
          exact hturn huser
      | some content =>
          simp only [transcriptOf, bind_eq_ok, pure_eq_ok] at h
          obtain ⟨sys, hsys, _, rfl, user, huser, rfl⟩ := h
          intro m hm
          rcases List.mem_append.1 hm with hm | hm
          · rw [List.mem_singleton.1 hm]
            exact hturn hsys
          · rw [List.mem_singleton.1 hm]
            exact hturn huser

theorem mem_messagesOf {rack : ModelRack} {body : GenerateBody}
    {messages : Option (List Message)} (h : messagesOf rack body = .ok messages) :
    ∀ ms ∈ messages, AcceptedTurns rack ms := by
  intro ms hms
  cases hbody : body.messages with
  | none =>
      simp only [messagesOf, hbody, Except.ok.injEq] at h
      subst h
      cases hms
  | some bodies =>
      simp only [messagesOf, hbody, map_eq_ok] at h
      obtain ⟨turns', hturns', rfl⟩ := h
      cases hms
      exact mem_turnsOf hturns'

/-- **What the interface lets through is what the codec handles.**  A submission built from a
body, whose stored form could be built, is accepted. -/
theorem accepted_of_submission {rack : ModelRack} {body : JobBody} {source : String}
    {s : JobSubmission} {payload : Members} (hs : submission rack body source = .ok s)
    (hpayload : s.asRequestJson rack = .ok payload) : s.Accepted rack := by
  simp only [submission, bind_eq_ok, pure_eq_ok] at hs
  obtain ⟨messages, hmessages, rfl⟩ := hs
  obtain ⟨turns, hturns, -⟩ := map_eq_ok.1 hpayload
  refine ⟨⟨turns, hturns, transcriptOf_accepted (mem_messagesOf hmessages) hturns⟩, by simp, ?_⟩
  intro o ho p hp
  obtain ⟨b, -, rfl⟩ := Option.map_eq_some_iff.1 ho
  obtain ⟨pb, -, rfl⟩ := Option.map_eq_some_iff.1 hp
  exact ⟨rfl, rfl⟩

/-! ### The stored submission -/

namespace JobSubmission

/-- The columns a job's row is written with. -/
def columns (s : JobSubmission) (priority : ℤ) (maxWaitSeconds : Option ℕ) : Columns where
  jobClass := s.jobClass
  priority
  maxWaitSeconds
  idempotent := s.idempotent
  idempotencyKey := s.idempotencyKey
  source := s.source

/-- The stored form of a submission gives its generation request back. -/
def RoundTrips (rack : ModelRack) (s : JobSubmission) (row : Columns) : Prop :=
  ∃ payload s' request, s.asRequestJson rack = .ok payload ∧
    fromRequestJson rack payload row = .ok s' ∧
    s.toGenerateRequest rack = .ok request ∧ s'.toGenerateRequest rack = .ok request

/-- The overrides are stored whole exactly when their profile states nothing but the stored
fields. -/
theorem overrides_stored_iff (o : Option RuntimeOverrides) :
    o.map RuntimeOverrides.stored = o ↔
      ∀ o' ∈ o, ∀ p ∈ o'.runtimeProfile, p.StoredWhole := by
  cases o with
  | none => simp
  | some o =>
      obtain ⟨model, adapter, profile, d, e, i⟩ := o
      cases profile with
      | none => simp [RuntimeOverrides.stored]
      | some p => simp [RuntimeOverrides.stored, RuntimeProfile.stored_eq_iff]

/-- The stored form of an accepted submission gives its generation request back exactly when
its overrides are stored whole. -/
theorem roundTrips_iff_stored {rack : ModelRack} {s : JobSubmission} (hs : s.Accepted rack)
    (priority : ℤ) (maxWaitSeconds : Option ℕ) :
    s.RoundTrips rack (s.columns priority maxWaitSeconds) ↔
      s.overrides.map RuntimeOverrides.stored = s.overrides := by
  obtain ⟨payload, turns, hpayload, hturns, hdecode⟩ :=
    fromRequestJson_asRequestJson hs (s.columns priority maxWaitSeconds)
  have hrequest : s.toGenerateRequest rack = .ok
      { task := s.task, messages := some turns, responseFormat := s.responseFormat
        sampling := s.sampling, overrides := s.overrides, tools := s.tools
        dataClassification := s.dataClassification, source := s.source
        idempotencyKey := s.idempotencyKey, stream := s.stream } := by
    rw [toGenerateRequest, hturns]
    rfl
  constructor
  · rintro ⟨payload', s', request, hpayload', hdecode', hreq, hreq'⟩
    rw [hpayload] at hpayload'
    cases hpayload'
    rw [hdecode] at hdecode'
    cases hdecode'
    rw [hrequest] at hreq
    cases hreq
    have heq : (s.stored turns (s.columns priority maxWaitSeconds)).overrides = s.overrides :=
      congrArg GenerateRequest.overrides (Except.ok.inj hreq')
    exact heq
  · intro hstored
    refine ⟨payload, _, _, hpayload, hdecode, hrequest, ?_⟩
    simp [toGenerateRequest, transcript, transcriptOf, stored, columns, hstored, pure,
      Except.pure]

/-- **When a stored submission gives its generation request back.**  Every accepted submission
is stored and read back; the two generation requests are equal exactly when the runtime profile
of its overrides states no GPU layers, no threads and no batch size. -/
theorem roundTrips_iff {rack : ModelRack} {s : JobSubmission} (hs : s.Accepted rack)
    (priority : ℤ) (maxWaitSeconds : Option ℕ) :
    s.RoundTrips rack (s.columns priority maxWaitSeconds) ↔
      ∀ o ∈ s.overrides, ∀ p ∈ o.runtimeProfile,
        p.gpuLayers = none ∧ p.threads = none ∧ p.batchSize = none := by
  rw [roundTrips_iff_stored hs, overrides_stored_iff]
  constructor
  · intro h o ho p hp
    obtain ⟨hgpu, hthreads, hbatch, -, -⟩ := h o ho p hp
    exact ⟨hgpu, hthreads, hbatch⟩
  · intro h o ho p hp
    obtain ⟨hgpu, hthreads, hbatch⟩ := h o ho p hp
    obtain ⟨hoptions, hadapters⟩ := hs.profile o ho p hp
    exact ⟨hgpu, hthreads, hbatch, hoptions, hadapters⟩

end JobSubmission

/-! ### A body whose GPU layers are lost -/

/-- A prompt. -/
def promptBody : JobBody where
  task := "chat"
  prompt := some "hello"

/-- A prompt with a runtime profile that states the GPU layers. -/
def gpuLayersBody : JobBody where
  task := "chat"
  prompt := some "hello"
  overrides := some { runtimeProfile := some { contextSize := some 4096, gpuLayers := some 20 } }

/-- The submission of that body. -/
def gpuLayersSubmission : JobSubmission where
  task := "chat"
  prompt := some "hello"
  overrides := some { runtimeProfile := some { contextSize := some 4096, gpuLayers := some 20 } }

theorem submission_gpuLayersBody :
    submission documentedRack gpuLayersBody "anonymous" = .ok gpuLayersSubmission := rfl

theorem gpuLayersSubmission_accepted : gpuLayersSubmission.Accepted documentedRack :=
  accepted_of_submission submission_gpuLayersBody
    (rfl : gpuLayersSubmission.asRequestJson documentedRack =
      .ok (gpuLayersSubmission.requestMembers [{ role := .user, content := "hello" }]))

/-- The body is accepted, stored and read back, and its GPU layers are gone. -/
theorem gpuLayers_lost :
    submission documentedRack gpuLayersBody "anonymous" = .ok gpuLayersSubmission ∧
      gpuLayersSubmission.Accepted documentedRack ∧
      ¬ gpuLayersSubmission.RoundTrips documentedRack (gpuLayersSubmission.columns 400 none) := by
  refine ⟨submission_gpuLayersBody, gpuLayersSubmission_accepted, ?_⟩
  rw [JobSubmission.roundTrips_iff_stored gpuLayersSubmission_accepted]
  intro h
  have hlayers : (none : Option ℕ) = some 20 :=
    congrArg (fun o : Option RuntimeOverrides =>
      (o.bind RuntimeOverrides.runtimeProfile).bind RuntimeProfile.gpuLayers) h
  cases hlayers

/-- The equivalence at that body: the condition fails with the round trip. -/
theorem roundTrips_iff_gpuLayers :
    gpuLayersSubmission.RoundTrips documentedRack (gpuLayersSubmission.columns 400 none) ↔
      ∀ o ∈ gpuLayersSubmission.overrides, ∀ p ∈ o.runtimeProfile,
        p.gpuLayers = none ∧ p.threads = none ∧ p.batchSize = none :=
  JobSubmission.roundTrips_iff gpuLayersSubmission_accepted 400 none

end LoadCoach

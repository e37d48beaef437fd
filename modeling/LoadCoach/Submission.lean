import LoadCoach.Values

/-! # Submissions and their stored form

A queued job runs after its submitter has gone, so what was submitted is stored with the row
and rebuilt from it at the claim.  This file models the two values a request body is turned into,
`GenerateRequest` for the synchronous path and `JobSubmission` for the queue, the hand-written
encoder `asRequestJson` and the hand-written decoder `fromRequestJson` (`services/queue.py`), and
the codecs of messages, tool calls and tool definitions both rest on (`services/execution.py`).

The central fact is `fromRequestJson_asRequestJson`: decoding what was encoded gives back the
submission with its transcript spelled out and its runtime profile cut down to the four fields
the encoder writes (`RuntimeProfile.stored`). -/

namespace LoadCoach

open Foundations

/-! ### Transcripts and tools -/

/-- Who speaks in a turn. -/
inductive Role where
  | system
  | user
  | assistant
  | tool
deriving DecidableEq, Repr

namespace Role

/-- The spelling of a role. -/
def value : Role → String
  | system => "system"
  | user => "user"
  | assistant => "assistant"
  | tool => "tool"

/-- `Role(value)`. -/
def ofValue? : String → Option Role
  | "system" => some system
  | "user" => some user
  | "assistant" => some assistant
  | "tool" => some tool
  | _ => none

@[simp] theorem ofValue?_value (r : Role) : ofValue? r.value = some r := by
  cases r <;> rfl

end Role

/-- One call an assistant turn requested. -/
structure ToolCall where
  id : String
  name : String
  arguments : Members
  rawArguments : Option String

namespace ToolCall

/-- A call carries its arguments parsed or raw, never both. -/
def WellFormed (c : ToolCall) : Prop := c.rawArguments.isSome → c.arguments = []

end ToolCall

/-- One turn of a transcript. -/
structure Message where
  role : Role
  content : String
  toolCallId : Option String := none
  toolCalls : List ToolCall := []

/-- One tool the caller offers the model. -/
structure ToolDefinition where
  name : String
  description : String
  parameters : Members

/-- What the transcript type of the provider library decides: the turns it refuses to build,
each with the field it names and its message. -/
structure ModelRack where
  refusal : Message → Option (String × String)

/-- Build a turn, which the provider library may refuse. -/
def ModelRack.message (rack : ModelRack) (m : Message) : Except Raised Message :=
  match rack.refusal m with
  | none => .ok m
  | some (field, problem) => .error (.suite "VALIDATION_ERROR" problem [("field", .str field)])

theorem ModelRack.message_eq_ok {rack : ModelRack} {m m' : Message} :
    rack.message m = .ok m' ↔ rack.refusal m = none ∧ m' = m := by
  unfold message
  cases rack.refusal m with
  | none => simp [eq_comm]
  | some r => simp

/-- The three rules the provider library's transcript type documents. -/
def documentedRack : ModelRack where
  refusal m :=
    if m.toolCalls ≠ [] ∧ m.role ≠ .assistant then
      some ("tool_calls", "only an assistant turn requests tool calls")
    else if m.role = .tool ∧ m.toolCallId = none then
      some ("tool_call_id", "a tool turn names the call it answers")
    else if m.content = "" ∧ m.toolCalls = [] then
      some ("content", "a turn has content or tool calls")
    else
      none

/-- A transcript the provider library accepts, turn by turn. -/
def AcceptedTurns (rack : ModelRack) (turns : List Message) : Prop :=
  ∀ m ∈ turns, rack.refusal m = none ∧ ∀ c ∈ m.toolCalls, c.WellFormed

/-! ### Overrides -/

/-- The runtime settings of a served model; `none` states nothing. -/
structure RuntimeProfile where
  contextSize : Option ℕ := none
  kvCachePrecision : Option String := none
  gpuLayers : Option ℕ := none
  flashAttention : Option Bool := none
  threads : Option ℕ := none
  batchSize : Option ℕ := none
  keepAlive : Option String := none
  providerOptions : Members := []
  adaptersRegistered : Option Bool := none

/-- The part of a runtime profile that is stored with a job. -/
def RuntimeProfile.stored (p : RuntimeProfile) : RuntimeProfile where
  contextSize := p.contextSize
  kvCachePrecision := p.kvCachePrecision
  flashAttention := p.flashAttention
  keepAlive := p.keepAlive

/-- A profile is stored whole when it states none of the other fields. -/
def RuntimeProfile.StoredWhole (p : RuntimeProfile) : Prop :=
  p.gpuLayers = none ∧ p.threads = none ∧ p.batchSize = none ∧ p.providerOptions = [] ∧
    p.adaptersRegistered = none

theorem RuntimeProfile.stored_eq_iff (p : RuntimeProfile) : p.stored = p ↔ p.StoredWhole := by
  cases p
  simp only [stored, StoredWhole, RuntimeProfile.mk.injEq, true_and]
  constructor
  · rintro ⟨h₁, h₂, h₃, h₄, h₅⟩
    exact ⟨h₁.symm, h₂.symm, h₃.symm, h₄.symm, h₅.symm⟩
  · rintro ⟨h₁, h₂, h₃, h₄, h₅⟩
    exact ⟨h₁.symm, h₂.symm, h₃.symm, h₄.symm, h₅.symm⟩

/-- A request's `overrides` block. -/
structure RuntimeOverrides where
  model : Option String := none
  adapter : Option String := none
  runtimeProfile : Option RuntimeProfile := none
  disallowFallback : Bool := false
  requireEvidence : Bool := false
  ignoreResidency : Bool := false

/-- The overrides a stored job comes back with. -/
def RuntimeOverrides.stored (o : RuntimeOverrides) : RuntimeOverrides :=
  { o with runtimeProfile := o.runtimeProfile.map RuntimeProfile.stored }

/-! ### Codecs -/

/-- `str(…)` of a stored value, which is a string in every row this application writes. -/
def pyStr : Json → Except Raised String
  | .str s => .ok s
  | _ => .error .typeError

/-- `payload[key]`. -/
def item (key : String) (members : Members) : Except Raised Json :=
  match Json.member? key members with
  | some v => .ok v
  | none => .error (.keyError key)

/-- An optional string. -/
def optStr : Option Json → Except Raised (Option String)
  | none | some .null => .ok none
  | some (.str s) => .ok (some s)
  | _ => .error .typeError

/-- An optional natural number. -/
def optNat : Option Json → Except Raised (Option ℕ)
  | none | some .null => .ok none
  | some (.int (.ofNat n)) => .ok (some n)
  | _ => .error .typeError

/-- An optional flag. -/
def optBool : Option Json → Except Raised (Option Bool)
  | none | some .null => .ok none
  | some (.bool b) => .ok (some b)
  | _ => .error .typeError

/-- `dict(…)` of a stored value, with a default for a missing one. -/
def dictOf (default : Members) : Option Json → Except Raised Members
  | none => .ok default
  | some (.obj members) => .ok members
  | _ => .error .typeError

@[simp] theorem optStr_none : optStr none = .ok none := rfl

@[simp] theorem optStr_ofOption (s : Option String) :
    optStr (some (Json.ofOption .str s)) = .ok s := by
  cases s <;> rfl

/-- One call of an assistant turn, as stored. -/
def toolCallJson (call : ToolCall) : Json :=
  .obj [("id", .str call.id), ("name", .str call.name),
    ("arguments", match call.rawArguments with
      | some raw => .str raw
      | none => .obj call.arguments)]

/-- One turn, as stored; `tool_calls` is written only when there are any. -/
def messageJson (message : Message) : Json :=
  let payload : Members :=
    [("role", .str message.role.value), ("content", .str message.content),
     ("tool_call_id", .ofOption .str message.toolCallId)]
  if message.toolCalls = [] then
    .obj payload
  else
    .obj (payload ++ [("tool_calls", .arr (message.toolCalls.map toolCallJson))])

/-- One stored call; an entry that is not an object is skipped. -/
def toolCallOfJson : Json → Except Raised (Option ToolCall)
  | .obj entry => do
      let id ← item "id" entry >>= pyStr
      let name ← item "name" entry >>= pyStr
      match Json.member? "arguments" entry with
      | some (.str raw) => pure (some ⟨id, name, [], some raw⟩)
      | arguments => pure (some ⟨id, name, ← dictOf [] arguments, none⟩)
  | _ => .ok none

/-- The calls of a stored turn. -/
def toolCallsOfJson : Option Json → Except Raised (List ToolCall)
  | some (.arr entries) => do
      let calls ← entries.mapM toolCallOfJson
      pure (calls.filterMap id)
  | _ => .ok []

/-- One stored turn. -/
def messageOfJson (rack : ModelRack) : Json → Except Raised Message
  | .obj turn => do
      let role ← item "role" turn >>= pyStr
      let content ← item "content" turn >>= pyStr
      match Role.ofValue? role with
      | none => .error .unexpected
      | some role =>
          rack.message
            { role, content
              toolCallId := ← optStr (Json.member? "tool_call_id" turn)
              toolCalls := ← toolCallsOfJson (Json.member? "tool_calls" turn) }
  | _ => .error .typeError

/-- The transcript of a stored job; empty when retention removed it. -/
def messagesOfJson (rack : ModelRack) : Option Json → Except Raised (List Message)
  | some (.arr turns) => turns.mapM (messageOfJson rack)
  | _ => .ok []

/-- One offered tool, as stored. -/
def toolDefinitionJson (tool : ToolDefinition) : Json :=
  .obj [("name", .str tool.name), ("description", .str tool.description),
    ("parameters", .obj tool.parameters)]

/-- The tools of a submission, as stored. -/
def toolDefinitionsJson (tools : List ToolDefinition) : Json :=
  .arr (tools.map toolDefinitionJson)

/-- One stored tool; an entry without a name is skipped. -/
def toolDefinitionOfJson : Json → Except Raised (Option ToolDefinition)
  | .obj entry =>
      match Json.member? "name" entry with
      | none => .ok none
      | some name =>
          if name.truthy then do
            let name ← pyStr name
            let description ← match Json.member? "description" entry with
              | none => pure ""
              | some d => pyStr d
            pure (some ⟨name, description, ← dictOf [] (Json.member? "parameters" entry)⟩)
          else
            .ok none
  | _ => .ok none

/-- The tools of a stored job. -/
def toolDefinitionsOfJson : Option Json → Except Raised (List ToolDefinition)
  | some (.arr entries) => do
      let tools ← entries.mapM toolDefinitionOfJson
      pure (tools.filterMap id)
  | _ => .ok []

/-! ### The codecs invert each other -/

theorem toolCallOfJson_toolCallJson {call : ToolCall} (h : call.WellFormed) :
    toolCallOfJson (toolCallJson call) = .ok (some call) := by
  obtain ⟨id, name, arguments, raw⟩ := call
  cases raw with
  | none => rfl
  | some raw =>
      have harguments : arguments = [] := h rfl
      subst harguments
      rfl

theorem toolCallsOfJson_map {calls : List ToolCall} (h : ∀ c ∈ calls, c.WellFormed) :
    toolCallsOfJson (some (.arr (calls.map toolCallJson))) = .ok calls := by
  have hmap : (calls.map toolCallJson).mapM toolCallOfJson = .ok (calls.map some) :=
    mapM_map fun c hc => toolCallOfJson_toolCallJson (h c hc)
  rw [toolCallsOfJson, hmap]
  simp [bind, Except.bind, pure, Except.pure, List.filterMap_map]

theorem messageOfJson_messageJson {rack : ModelRack} {m : Message}
    (hrefusal : rack.refusal m = none) (hcalls : ∀ c ∈ m.toolCalls, c.WellFormed) :
    messageOfJson rack (messageJson m) = .ok m := by
  obtain ⟨role, content, toolCallId, toolCalls⟩ := m
  have hrack := ModelRack.message_eq_ok.2 ⟨hrefusal, rfl⟩
  by_cases hnil : toolCalls = []
  · subst hnil
    cases role <;> cases toolCallId <;> exact hrack
  · have hdecode := toolCallsOfJson_map hcalls
    simp only at hdecode
    rw [messageJson, if_neg hnil]
    simp only [List.cons_append, List.nil_append]
    simp [messageOfJson, item, Json.member?, pyStr, bind, Except.bind, hdecode, hrack]

theorem messagesOfJson_map {rack : ModelRack} {turns : List Message}
    (h : AcceptedTurns rack turns) :
    messagesOfJson rack (some (.arr (turns.map messageJson))) = .ok turns := by
  have hmap : (turns.map messageJson).mapM (messageOfJson rack) = .ok (turns.map id) :=
    mapM_map fun m hm => messageOfJson_messageJson (h m hm).1 (h m hm).2
  rw [messagesOfJson, hmap, List.map_id]

theorem toolDefinitionOfJson_toolDefinitionJson {tool : ToolDefinition} (h : tool.name ≠ "") :
    toolDefinitionOfJson (toolDefinitionJson tool) = .ok (some tool) := by
  have htruthy : (Json.str tool.name).truthy = true := by simpa [Json.truthy] using h
  simp [toolDefinitionOfJson, toolDefinitionJson, Json.member?, htruthy, pyStr, dictOf, bind,
    Except.bind, pure, Except.pure]

theorem toolDefinitionsOfJson_toolDefinitionsJson {tools : List ToolDefinition}
    (h : ∀ t ∈ tools, t.name ≠ "") :
    toolDefinitionsOfJson (some (toolDefinitionsJson tools)) = .ok tools := by
  have hmap : (tools.map toolDefinitionJson).mapM toolDefinitionOfJson = .ok (tools.map some) :=
    mapM_map fun t ht => toolDefinitionOfJson_toolDefinitionJson (h t ht)
  rw [toolDefinitionsJson, toolDefinitionsOfJson, hmap]
  simp [bind, Except.bind, pure, Except.pure, List.filterMap_map]

/-! ### Requests and submissions -/

/-- The turns the provider will be sent: the transcript as given, or the prompt form spelled out. -/
def transcriptOf (rack : ModelRack) (system prompt : Option String)
    (messages : Option (List Message)) : Except Raised (List Message) :=
  match messages with
  | some messages => .ok messages
  | none => do
      let turns ← match system with
        | none => pure []
        | some content => do pure [← rack.message { role := .system, content }]
      let user ← rack.message { role := .user, content := prompt.getD "" }
      pure (turns ++ [user])

/-- One `POST /generate` body, validated. -/
structure GenerateRequest where
  task : String
  system : Option String := none
  prompt : Option String := none
  messages : Option (List Message) := none
  responseFormat : Option String := none
  sampling : Members := []
  overrides : Option RuntimeOverrides := none
  tools : List ToolDefinition := []
  dataClassification : Option String := none
  source : String := "anonymous"
  idempotencyKey : Option String := none
  stream : Bool := false

/-- The messages the provider will be sent. -/
def GenerateRequest.transcript (rack : ModelRack) (r : GenerateRequest) :
    Except Raised (List Message) :=
  transcriptOf rack r.system r.prompt r.messages

/-- What the interface lets through: a transcript the provider library accepts, and named
tools. -/
structure GenerateRequest.Accepted (rack : ModelRack) (r : GenerateRequest) : Prop where
  transcript : ∃ turns, r.transcript rack = .ok turns ∧ AcceptedTurns rack turns
  tools : ∀ t ∈ r.tools, t.name ≠ ""

/-- A job as submitted to the queue. -/
structure JobSubmission where
  task : String
  system : Option String := none
  prompt : Option String := none
  messages : Option (List Message) := none
  responseFormat : Option String := none
  sampling : Members := []
  overrides : Option RuntimeOverrides := none
  tools : List ToolDefinition := []
  jobClass : JobClass := .normal
  priority : Option ℤ := none
  maxWaitSeconds : Option ℕ := none
  idempotent : Bool := true
  idempotencyKey : Option String := none
  dataClassification : Option String := none
  source : String := "anonymous"
  stream : Bool := false

namespace JobSubmission

/-- The messages the provider will be sent. -/
def transcript (rack : ModelRack) (s : JobSubmission) : Except Raised (List Message) :=
  transcriptOf rack s.system s.prompt s.messages

/-- The runtime profile of an override, as stored. -/
def profileJson (p : RuntimeProfile) : Json :=
  .obj [("context_size", .ofOption (fun n : ℕ => .int n) p.contextSize),
    ("kv_cache_precision", .ofOption .str p.kvCachePrecision),
    ("flash_attention", .ofOption .bool p.flashAttention),
    ("keep_alive", .ofOption .str p.keepAlive)]

/-- The overrides, as stored. -/
def overridesJson (o : RuntimeOverrides) : Json :=
  .obj [("model", .ofOption .str o.model),
    ("adapter", .ofOption .str o.adapter),
    ("ignore_residency", .bool o.ignoreResidency),
    ("runtime_profile", .ofOption profileJson o.runtimeProfile),
    ("disallow_fallback", .bool o.disallowFallback),
    ("require_evidence", .bool o.requireEvidence)]

/-- The persisted form of a submission with a given transcript. -/
def requestMembers (s : JobSubmission) (turns : List Message) : Members :=
  [("task", .str s.task),
    ("messages", .arr (turns.map messageJson)),
    ("response_format", .ofOption .str s.responseFormat),
    ("sampling", .obj s.sampling),
    ("overrides", .ofOption overridesJson s.overrides),
    ("tools", toolDefinitionsJson s.tools),
    ("data_classification", .ofOption .str s.dataClassification),
    ("stream", .bool s.stream)]

/-- The persisted form of a submission, `jobs.request_json`. -/
def asRequestJson (rack : ModelRack) (s : JobSubmission) : Except Raised Members :=
  (s.transcript rack).map s.requestMembers

/-- The stored runtime profile of an override. -/
def profileOfJson : Option Json → Except Raised (Option RuntimeProfile)
  | none | some .null => .ok none
  | some (.obj raw) => do
      pure (some
        { contextSize := ← optNat (Json.member? "context_size" raw)
          kvCachePrecision := ← optStr (Json.member? "kv_cache_precision" raw)
          flashAttention := ← optBool (Json.member? "flash_attention" raw)
          keepAlive := ← optStr (Json.member? "keep_alive" raw) })
  | _ => .error .typeError

/-- `bool(raw.get(key, False))`. -/
def flag (key : String) (raw : Members) : Bool :=
  ((Json.member? key raw).getD (.bool false)).truthy

/-- The stored overrides. -/
def overridesOfJson : Option Json → Except Raised (Option RuntimeOverrides)
  | none | some .null => .ok none
  | some (.obj raw) => do
      let runtimeProfile ← profileOfJson (Json.member? "runtime_profile" raw)
      pure (some
        { model := ← optStr (Json.member? "model" raw)
          adapter := ← optStr (Json.member? "adapter" raw)
          runtimeProfile
          disallowFallback := flag "disallow_fallback" raw
          requireEvidence := flag "require_evidence" raw
          ignoreResidency := flag "ignore_residency" raw })
  | _ => .error .typeError

/-- The columns of the job's row a submission is rebuilt with. -/
structure Columns where
  jobClass : JobClass
  priority : ℤ
  maxWaitSeconds : Option ℕ
  idempotent : Bool
  idempotencyKey : Option String
  source : String

/-- Rebuild a submission from `jobs.request_json` and the row's own columns. -/
def fromRequestJson (rack : ModelRack) (payload : Members) (row : Columns) :
    Except Raised JobSubmission := do
  let overrides ← overridesOfJson (Json.member? "overrides" payload)
  let messages ← messagesOfJson rack (Json.member? "messages" payload)
  let task ← item "task" payload >>= pyStr
  let tools ← toolDefinitionsOfJson (Json.member? "tools" payload)
  let responseFormat ← optStr (Json.member? "response_format" payload)
  let sampling ← dictOf [] (Json.member? "sampling" payload)
  let dataClassification ← optStr (Json.member? "data_classification" payload)
  pure
    { task, messages := some messages, tools, responseFormat, sampling, overrides
      dataClassification
      jobClass := row.jobClass
      priority := some row.priority
      maxWaitSeconds := row.maxWaitSeconds
      idempotent := row.idempotent
      idempotencyKey := row.idempotencyKey
      source := row.source
      stream := flag "stream" payload }

/-- The executor's view of a submission. -/
def toGenerateRequest (rack : ModelRack) (s : JobSubmission) : Except Raised GenerateRequest := do
  let turns ← s.transcript rack
  pure
    { task := s.task
      messages := some turns
      responseFormat := s.responseFormat
      sampling := s.sampling
      overrides := s.overrides
      tools := s.tools
      dataClassification := s.dataClassification
      source := s.source
      idempotencyKey := s.idempotencyKey
      stream := s.stream }

/-! ### Decoding what was encoded -/

theorem profileOfJson_profileJson (p : Option RuntimeProfile) :
    profileOfJson (some (Json.ofOption profileJson p)) = .ok (p.map RuntimeProfile.stored) := by
  cases p with
  | none => rfl
  | some p =>
      obtain ⟨c, k, g, f, t, b, a, o, r⟩ := p
      cases c <;> cases k <;> cases f <;> cases a <;> rfl

theorem overridesOfJson_overridesJson (o : Option RuntimeOverrides) :
    overridesOfJson (some (Json.ofOption overridesJson o)) =
      .ok (o.map RuntimeOverrides.stored) := by
  cases o with
  | none => rfl
  | some o =>
      obtain ⟨model, adapter, profile, d, e, i⟩ := o
      have hprofile := profileOfJson_profileJson profile
      simp [overridesOfJson, overridesJson, Json.member?, hprofile, flag, Json.truthy,
        RuntimeOverrides.stored, bind, Except.bind, pure, Except.pure]

/-- What the interface lets through: a transcript the provider library accepts, named tools, and
a runtime profile that states only what a request body can state. -/
structure Accepted (rack : ModelRack) (s : JobSubmission) : Prop where
  transcript : ∃ turns, s.transcript rack = .ok turns ∧ AcceptedTurns rack turns
  tools : ∀ t ∈ s.tools, t.name ≠ ""
  profile : ∀ o ∈ s.overrides, ∀ p ∈ o.runtimeProfile,
    p.providerOptions = [] ∧ p.adaptersRegistered = none

/-- The submission a stored job comes back with. -/
def stored (s : JobSubmission) (turns : List Message) (row : Columns) : JobSubmission where
  task := s.task
  messages := some turns
  responseFormat := s.responseFormat
  sampling := s.sampling
  overrides := s.overrides.map RuntimeOverrides.stored
  tools := s.tools
  jobClass := row.jobClass
  priority := some row.priority
  maxWaitSeconds := row.maxWaitSeconds
  idempotent := row.idempotent
  idempotencyKey := row.idempotencyKey
  dataClassification := s.dataClassification
  source := row.source
  stream := s.stream

/-- **Decoding what was encoded.**  An accepted submission is stored and comes back with its
transcript spelled out and its runtime profile cut down to the stored fields. -/
theorem fromRequestJson_asRequestJson {rack : ModelRack} {s : JobSubmission}
    (hs : s.Accepted rack) (row : Columns) :
    ∃ payload turns, s.asRequestJson rack = .ok payload ∧ s.transcript rack = .ok turns ∧
      fromRequestJson rack payload row = .ok (s.stored turns row) := by
  obtain ⟨turns, hturns, haccepted⟩ := hs.transcript
  have hmessages := messagesOfJson_map haccepted
  have htools := toolDefinitionsOfJson_toolDefinitionsJson hs.tools
  have hoverrides := overridesOfJson_overridesJson s.overrides
  refine ⟨s.requestMembers turns, turns, ?_, hturns, ?_⟩
  · rw [asRequestJson, hturns]
    rfl
  · simp [fromRequestJson, requestMembers, Json.member?, item, pyStr, dictOf, hmessages, htools,
      hoverrides, flag, Json.truthy, stored, bind, Except.bind, pure, Except.pure]

end JobSubmission

end LoadCoach

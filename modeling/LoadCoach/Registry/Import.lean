import Mathlib.Data.List.MinMax
import Mathlib.Data.Prod.Lex
import LoadCoach.Registry.Evidence

/-! # The evidence store

`services/evidence.py`: `import_bundle`, which writes the records of one bundle,
`rebind_evidence_in`, which matches every stored row with the registry again, and
`mark_source_unreachable`.

A row of `capability_evidence` stands under the key of its uniqueness constraint.  Binding a record
may give a row of `models` the digest the record carries (`Models.upgrade`), and both loops go once
over their rows, so that a row matched early in the loop is not looked at again after a later one
changed the registry.

A record is validated outside this repository: `validate` gives the record or the paths at which it
failed. -/

namespace LoadCoach.Registry

open Foundations
open Routing (MatchState isPerformanceCapability)

/-! ### Records and rows -/

/-- The reported fields of an environment. -/
abbrev Environment := List (String × Option String)

/-- The adapter block of a record; its digest is never empty. -/
structure RecordAdapter where
  name : String
  artifactDigest : String
  nonempty : artifactDigest ≠ ""

/-- A validated record; `measurement` holds the columns that are copied as they are. -/
structure EvidenceRecord where
  model : ModelIdentity
  canonicalId : String
  adapter : Option RecordAdapter := none
  runtimeProfileHash : String
  machineFingerprint : String
  capabilityId : String
  policyVersion : String
  measuredAt : Instant
  environment : Environment := []
  measurement : Members := []

/-- The identifier of a row of `evidence_sources`. -/
abbrev SourceId := ℕ

/-- A row of `evidence_sources`. -/
structure EvidenceSource where
  sourceKey : String
  kind : String
  url : Option String := none
  lastImportAt : Option Instant := none
  lastStatus : Option String := none
  schemaVersion : Option String := none
  recordCount : ℕ := 0
  errorText : Option String := none
  generatedAt : Option Instant := none
  createdAt : Instant

/-- The table `evidence_sources`: the key is unique. -/
abbrev Sources := Indexed SourceId EvidenceSource.sourceKey

/-- The columns of `uq_capability_evidence_subject`; the bare base has the empty digest. -/
structure EvidenceKey where
  sourceId : SourceId
  canonicalId : String
  adapterArtifactDigest : String
  runtimeProfileHash : String
  machineFingerprint : String
  capabilityId : String
  policyVersion : String
deriving DecidableEq, Repr

/-- Why a row is stale. -/
inductive StaleReason where
  | superseded
  | sourceUnreachable
  | environmentDrift (field : String)
  | freshness
deriving DecidableEq, Repr

/-- The badge of a row. -/
structure Staleness where
  stale : Bool
  reason : Option StaleReason
deriving DecidableEq, Repr

/-- A row of `capability_evidence`, without its key. -/
structure EvidenceRow where
  model : ModelIdentity
  matchState : MatchState
  modelId : Option ModelId
  adapterId : Option AdapterId
  measuredAt : Instant
  environment : Environment := []
  measurement : Members := []
  importedAt : Instant
  staleness : Staleness := ⟨false, none⟩

/-- The tables evidence is imported into and matched with. -/
structure EvidenceDb where
  registry : ModelRegistry := .ofModels .empty
  adapters : Adapters := ∅
  sources : Sources := .empty
  evidence : Table EvidenceKey EvidenceRow := ∅

/-! ### Staleness -/

/-- `capability_half_life_days`. -/
def capabilityHalfLifeDays (capabilityId : String) : ℕ :=
  if isPerformanceCapability capabilityId then 30 else 90

/-- Whether the freshness factor is below one half: the record is older than its half-life. -/
def isFaded (measuredAt now : Instant) (capabilityId : String) : Bool :=
  decide (seconds (86400 * capabilityHalfLifeDays capabilityId) < now - measuredAt)

/-- The fields whose change is a drift, in the order they are checked. -/
def driftFields (capabilityId : String) : List String :=
  ["provider_kind", "provider_version"] ++
    if isPerformanceCapability capabilityId then ["gpu_driver_version", "cuda_version"] else []

/-- A field of an environment; what is not reported is absent. -/
def Environment.field (name : String) (environment : Environment) : Option String :=
  ((environment.find? fun m => m.1 == name).map Prod.snd).join

/-- `environment_drift`. -/
def environmentDrift (measured current : Environment) (capabilityId : String) : Option String :=
  if measured.isEmpty || current.isEmpty then none
  else
    (driftFields capabilityId).find? fun field =>
      match measured.field field, current.field field with
      | some before, some after => before != after
      | _, _ => false

/-- `evaluate_staleness`. -/
def evaluateStaleness (measuredAt now : Instant) (capabilityId : String)
    (drift : Option String) (superseded sourceUnreachable : Bool) : Staleness :=
  if superseded then ⟨true, some .superseded⟩
  else if sourceUnreachable then ⟨true, some .sourceUnreachable⟩
  else
    match drift with
    | some field => ⟨true, some (.environmentDrift field)⟩
    | none =>
        if isFaded measuredAt now capabilityId then ⟨true, some .freshness⟩ else ⟨false, none⟩

/-! ### Sources -/

/-- When a source imported last, and its row: what `max` compares. -/
def ImportKey : Type := ℤ ×ₗ ℕ

instance : LinearOrder ImportKey :=
  @Prod.Lex.instLinearOrder ℤ ℕ Int.instLinearOrder Nat.instLinearOrder

/-- The key of a source that has imported. -/
def importKey (e : SourceId × EvidenceSource) : ImportKey :=
  toLex (e.2.lastImportAt.getD 0, e.1)

/-- `source_for_url`: of the rows of a URL the one that imported last, or else the oldest. -/
def sourceForUrl (url : String) (sources : Sources) : Option (SourceId × EvidenceSource) :=
  let rows := sources.rows.select fun _ row => decide (row.url = some url)
  let imported := rows.filter fun e => e.2.lastImportAt.isSome
  if imported.isEmpty then rows.argmin Prod.fst
  else imported.argmax importKey

/-- What an import says of its source. -/
structure SourceReport where
  sourceKey : String
  kind : String
  url : Option String
  schemaVersion : String
  generatedAt : Option Instant

/-- The source row an import belongs to: that of its key, or the placeholder of its URL. -/
def sourceRow (report : SourceReport) (sources : Sources) : Option (SourceId × EvidenceSource) :=
  match sources.find report.sourceKey with
  | some found => some found
  | none => report.url.bind fun url =>
      (sources.find url).filter fun found => decide (found.2.url = some url)

/-- Its identifier, or that of a new row. -/
def sourceRowId (report : SourceReport) (sources : Sources) : SourceId :=
  match sourceRow report sources with
  | some (id, _) => id
  | none => freshId sources.rows

/-- `_upsert_source`. -/
def upsertSource (report : SourceReport) (now : Instant) (sources : Sources) : Sources :=
  let existing := (sourceRow report sources).map Prod.snd
  sources.put (sourceRowId report sources)
    { sourceKey := report.sourceKey
      kind := report.kind
      url := report.url <|> existing.bind EvidenceSource.url
      lastImportAt := some now
      lastStatus := some "ok"
      schemaVersion := some report.schemaVersion
      recordCount := (existing.map EvidenceSource.recordCount).getD 0
      errorText := none
      generatedAt := report.generatedAt
      createdAt := (existing.map EvidenceSource.createdAt).getD now }
    fun id row hrow hkey => by
      rw [sourceRowId, sourceRow, Indexed.find_eq_some_iff.2 ⟨hrow, hkey⟩]

/-! ### Binding with its upgrade -/

/-- Give a row that knows the name only a digest and the canonical ID that goes with it. -/
def Models.upgrade (m : ModelId) (digest canonicalId : String) (models : Models) : Models :=
  match models.rows.lookup m with
  | some row =>
      if row.identity.artifactDigest = none then
        let upgraded : ModelRow := { row with
          identity := { row.identity with artifactDigest := some digest }
          canonicalId
          identityConfidence := "digest" }
        -- the unique index; binding found no row of the upgraded identity
        if h : models.find upgraded.identity = none then
          models.put m upgraded fun m' row' hrow hsame =>
            absurd hsame (Indexed.find_eq_none_iff.1 h m' row' hrow)
        else models
      else models
  | none => models

/-- The registry once the upgrade of a binding is made, if there is one. -/
def Binding.applied (binding : Binding) (canonicalId : String) (models : Models) : Models :=
  match binding.upgrade with
  | some (m, digest) => models.upgrade m digest canonicalId
  | none => models

/-- The number of rows it upgrades. -/
def Binding.upgrades (binding : Binding) (models : Models) : ℕ :=
  match binding.upgrade with
  | some (m, _) =>
      if (models.rows.lookup m).any fun row => row.identity.artifactDigest.isNone then 1 else 0
  | none => 0

/-! ### Importing a bundle -/

/-- A record that could not be imported. -/
structure RejectedRecord where
  index : ℕ
  canonicalId : Option String
  capabilityId : Option String
  reason : String
  detail : String
deriving DecidableEq, Repr

/-- `_identity_of`. -/
def EvidenceRecord.identity (record : EvidenceRecord) : EvidenceIdentity where
  model := record.model
  canonicalId := record.canonicalId
  adapterArtifactDigest := record.adapter.map RecordAdapter.artifactDigest

/-- `_uniqueness_key`. -/
def EvidenceRecord.key (sourceId : SourceId) (record : EvidenceRecord) : EvidenceKey where
  sourceId
  canonicalId := record.canonicalId
  adapterArtifactDigest := (record.adapter.map RecordAdapter.artifactDigest).getD ""
  runtimeProfileHash := record.runtimeProfileHash
  machineFingerprint := record.machineFingerprint
  capabilityId := record.capabilityId
  policyVersion := record.policyVersion

/-- `_row_values`. -/
def EvidenceRecord.row (binding : Binding) (now : Instant) (current : Environment)
    (record : EvidenceRecord) : EvidenceRow where
  model := record.model
  matchState := binding.matchState
  modelId := binding.modelId
  adapterId := binding.adapterId
  measuredAt := record.measuredAt
  environment := record.environment
  measurement := record.measurement
  importedAt := now
  staleness := evaluateStaleness record.measuredAt now record.capabilityId
    (environmentDrift record.environment current record.capabilityId) false false

/-- The state of the record loop: the tables it writes and what it counts. -/
structure Importing where
  models : Models
  evidence : Table EvidenceKey EvidenceRow
  seenKeys : List EvidenceKey := []
  rejected : List RejectedRecord
  imported : ℕ := 0
  updated : ℕ := 0
  unmatched : ℕ := 0
  ambiguous : ℕ := 0
  bound : ℕ := 0
  upgraded : ℕ := 0

/-- The sentence of a record whose key the bundle carried before. -/
def duplicateDetail : String :=
  "a second record in this bundle carries the same " ++
  "(canonical_id, adapter_artifact_digest, runtime_profile_hash, " ++
  "machine_fingerprint, capability_id, policy_version); two " ++
  "measurements are not merged into one row"

section Write

variable (sourceId : SourceId) (adapters : Adapters) (existingKeys : List EvidenceKey)
  (now : Instant) (current : Environment)

/-- One record of the loop. -/
def importRecord (st : Importing) (entry : ℕ × EvidenceRecord) : Importing :=
  let (index, record) := entry
  let key := record.key sourceId
  if key ∈ st.seenKeys then
    { st with
      rejected := st.rejected ++ [⟨index, some record.canonicalId, some record.capabilityId,
        "DUPLICATE_RECORD", duplicateDetail⟩] }
  else
    let binding := bindIdentity record.identity (registryOf st.models) adapters
    { models := binding.applied record.canonicalId st.models
      evidence := st.evidence.insert key (record.row binding now current)
      seenKeys := key :: st.seenKeys
      rejected := st.rejected
      imported := st.imported + if key ∈ existingKeys then 0 else 1
      updated := st.updated + if key ∈ existingKeys then 1 else 0
      unmatched := st.unmatched + if binding.matchState = .unmatched then 1 else 0
      ambiguous := st.ambiguous + if binding.matchState = .ambiguousNameOnly then 1 else 0
      bound := st.bound + if binding.matchState = .bound then 1 else 0
      upgraded := st.upgraded + binding.upgrades st.models }

/-- A row of a source that was reached loses the badge that said it was not. -/
def EvidenceRow.reached (key : EvidenceKey) (row : EvidenceRow) : EvidenceRow :=
  if key.sourceId = sourceId ∧ row.staleness.reason = some .sourceUnreachable then
    { row with
      staleness := evaluateStaleness row.measuredAt now key.capabilityId none false false }
  else row

/-- The rows of a source that was reached. -/
def clearUnreachable (evidence : Table EvidenceKey EvidenceRow) : Table EvidenceKey EvidenceRow :=
  evidence.mapRows (EvidenceRow.reached sourceId now)

/-- The rows a complete bundle left out. -/
def supersede (missing : List EvidenceKey) (evidence : Table EvidenceKey EvidenceRow) :
    Table EvidenceKey EvidenceRow :=
  evidence.mapRows fun key row =>
    if key ∈ missing ∧ row.staleness.reason ≠ some .superseded then
      { row with staleness := ⟨true, some .superseded⟩ }
    else row

end Write

/-- `ImportOutcome`. -/
structure ImportOutcome where
  sourceRowId : SourceId
  sourceKey : String
  schemaVersion : String
  generatedAt : Option Instant
  complete : Bool
  total : ℕ
  imported : ℕ
  updated : ℕ
  unmatched : ℕ
  ambiguous : ℕ
  bound : ℕ
  upgradedModels : ℕ
  superseded : ℕ
  rejected : List RejectedRecord

/-- The keys of the rows of a source. -/
def keysOf (sourceId : SourceId) (evidence : Table EvidenceKey EvidenceRow) : List EvidenceKey :=
  evidence.keys.filter fun key => key.sourceId = sourceId

theorem Models.mem_upgrade {m m' : ModelId} {digest canonicalId : String} {models : Models}
    (h : m' ∈ models.rows) : m' ∈ (models.upgrade m digest canonicalId).rows := by
  rw [Models.upgrade]
  split
  · split
    · dsimp only
      split
      · exact AList.mem_insert _ |>.2 (.inr h)
      · exact h
    · exact h
  · exact h

theorem Binding.mem_applied {binding : Binding} {canonicalId : String} {models : Models}
    {m : ModelId} (h : m ∈ models.rows) : m ∈ (binding.applied canonicalId models).rows := by
  rw [Binding.applied]
  split
  · exact Models.mem_upgrade h
  · exact h

theorem mem_importRecord {sourceId : SourceId} {adapters : Adapters}
    {existingKeys : List EvidenceKey} {now : Instant} {current : Environment} {st : Importing}
    {entry : ℕ × EvidenceRecord} {m : ModelId} (h : m ∈ st.models.rows) :
    m ∈ (importRecord sourceId adapters existingKeys now current st entry).models.rows := by
  rw [importRecord]
  dsimp only
  split
  · exact h
  · exact Binding.mem_applied h

theorem mem_foldl_importRecord {sourceId : SourceId} {adapters : Adapters}
    {existingKeys : List EvidenceKey} {now : Instant} {current : Environment} {st : Importing}
    {l : List (ℕ × EvidenceRecord)} {m : ModelId} (h : m ∈ st.models.rows) :
    m ∈ (l.foldl (importRecord sourceId adapters existingKeys now current) st).models.rows := by
  induction l generalizing st with
  | nil => exact h
  | cons entry l ih => exact ih (mem_importRecord h)

/-- The record loop, from the tables as they are. -/
def importRecords (sourceId : SourceId) (validated : List (ℕ × EvidenceRecord))
    (rejected : List RejectedRecord) (now : Instant) (current : Environment) (db : EvidenceDb) :
    Importing :=
  validated.foldl
    (importRecord sourceId db.adapters (keysOf sourceId db.evidence) now current)
    { models := db.registry.models, evidence := db.evidence, rejected }

theorem mem_importRecords {sourceId : SourceId} {validated : List (ℕ × EvidenceRecord)}
    {rejected : List RejectedRecord} {now : Instant} {current : Environment} {db : EvidenceDb}
    {m : ModelId} (h : m ∈ db.registry.models.rows) :
    m ∈ (importRecords sourceId validated rejected now current db).models.rows :=
  mem_foldl_importRecord h

/-- The registry over other rows of `models`. -/
def ModelRegistry.withModels (models : Models) (registry : ModelRegistry)
    (h : ∀ m ∈ registry.models.rows, m ∈ models.rows) : ModelRegistry where
  models
  capabilities := registry.capabilities
  referenced := fun hrow => h _ (registry.referenced hrow)

/-- `_write`. -/
def writeBundle (report : SourceReport) (validated : List (ℕ × EvidenceRecord))
    (rejected : List RejectedRecord) (complete : Bool) (total : ℕ) (now : Instant)
    (current : Environment) (db : EvidenceDb) : EvidenceDb × ImportOutcome :=
  let sourceId := sourceRowId report db.sources
  let st := importRecords sourceId validated rejected now current db
  let cleared := clearUnreachable sourceId now st.evidence
  let missing :=
    if complete then (keysOf sourceId db.evidence).filter fun key => key ∉ st.seenKeys else []
  ({ registry := db.registry.withModels st.models fun _ hm => mem_importRecords hm
     adapters := db.adapters
     sources := (upsertSource report now db.sources).mapRows
      (fun id row =>
        if id = sourceId then { row with recordCount := st.imported + st.updated } else row)
      fun id row => by split <;> rfl
     evidence := supersede missing cleared },
   { sourceRowId := sourceId
     sourceKey := report.sourceKey
     schemaVersion := report.schemaVersion
     generatedAt := report.generatedAt
     complete
     total
     imported := st.imported
     updated := st.updated
     unmatched := st.unmatched
     ambiguous := st.ambiguous
     bound := st.bound
     upgradedModels := st.upgraded
     superseded := (cleared.select fun key row =>
       decide (key ∈ missing ∧ row.staleness.reason ≠ some .superseded)).length
     rejected := st.rejected })

/-- `_claimed`: a string a rejected record claims. -/
def claimed (path : List String) (raw : Json) : Option String :=
  match path.foldl (fun node key => node.bind (Json.get? key)) (some raw) with
  | some (.str s) => some s
  | _ => none

/-- `_first_error`: the paths at which a record failed, in order and without repetition. -/
def firstError (paths : List String) : String :=
  let sorted := paths.dedup.insertionSort (· ≤ ·)
  "record failed benchmark.evidence_bundle validation at: " ++
    ", ".intercalate (sorted.take 5) ++
    if sorted.length ≤ 5 then "" else s!" (and {sorted.length - 5} more)"

/-- An envelope whose schema version was accepted. -/
structure EvidenceEnvelope where
  payload : Json
  schemaVersion : String
  generatedAt : Option Instant

/-- What an import of the envelope says of its source. -/
def EvidenceEnvelope.report (sourceKey kind : String) (url : Option String)
    (envelope : EvidenceEnvelope) : SourceReport :=
  ⟨sourceKey, kind, url, envelope.schemaVersion, envelope.generatedAt⟩

/-- `EvidenceImportFailed`. -/
def evidenceImportFailed (message : String) (details : Members) : Raised :=
  .suite "EVIDENCE_IMPORT_FAILED" message details

section ImportBundle

-- `CapabilityEvidenceIn.model_validate`: the record, or the paths at which it failed
variable (validate : Json → Except (List String) EvidenceRecord)

/-- The records of a bundle that are valid, each with its position. -/
def validRecords (raws : List Json) : List (ℕ × EvidenceRecord) :=
  raws.zipIdx.filterMap fun e =>
    match validate e.1 with
    | .ok record => some (e.2, record)
    | .error _ => none

/-- Those that are not. -/
def invalidRecords (raws : List Json) : List RejectedRecord :=
  raws.zipIdx.filterMap fun e =>
    match validate e.1 with
    | .ok _ => none
    | .error paths => some
        ⟨e.2, claimed ["model", "canonical_id"] e.1, claimed ["capability_id"] e.1,
          "INVALID_RECORD", firstError paths⟩

/-- What a bundle's payload says: its source, whether it is complete, and its records. -/
def bundleOf : Json → Except Raised (String × Bool × List Json)
  | .obj payload =>
      match Json.member? "source_id" payload with
      | some (.str sourceKey) =>
          if sourceKey = "" then
            .error (evidenceImportFailed
              "An evidence bundle must name the source that produced it (ADR-0022 §5)."
              [("field", .str "source_id")])
          else
            match Json.member? "complete" payload with
            | some (.bool complete) =>
                match (Json.member? "evidence" payload).getD (.arr []) with
                | .arr raws => .ok (sourceKey, complete, raws)
                | raw => .error (evidenceImportFailed
                    "An evidence bundle's `evidence` must be a list."
                    [("field", .str "evidence"), ("received_type", .str raw.typeName)])
            | _ => .error (evidenceImportFailed
                ("An evidence bundle must declare whether it is complete: only a complete " ++
                  "bundle lets a consumer infer removals (ADR-0022 §5).")
                [("field", .str "complete")])
      | _ => .error (evidenceImportFailed
          "An evidence bundle must name the source that produced it (ADR-0022 §5)."
          [("field", .str "source_id")])
  | payload => .error (evidenceImportFailed "An evidence bundle's payload must be an object."
      [("received_type", .str payload.typeName)])

/-- `import_bundle`, of an envelope. -/
def importBundle (envelope : EvidenceEnvelope) (kind : String) (url : Option String)
    (now : Instant) (current : Environment) (db : EvidenceDb) :
    Except Raised (EvidenceDb × ImportOutcome) := do
  let (sourceKey, complete, raws) ← bundleOf envelope.payload
  return writeBundle (envelope.report sourceKey kind url) (validRecords validate raws)
    (invalidRecords validate raws) complete raws.length now current db

end ImportBundle

/-! ### Matching every row again -/

/-- The identity a stored row carries. -/
def EvidenceRow.identity (key : EvidenceKey) (row : EvidenceRow) : EvidenceIdentity where
  model := row.model
  canonicalId := key.canonicalId
  adapterArtifactDigest :=
    if key.adapterArtifactDigest = "" then none else some key.adapterArtifactDigest

/-- A row bound as a binding says. -/
def EvidenceRow.rebound (binding : Binding) (row : EvidenceRow) : EvidenceRow :=
  { row with
    matchState := binding.matchState
    modelId := binding.modelId
    adapterId := binding.adapterId }

/-- The state of the loop over the rows, with what `RebindOutcome` counts. -/
structure Rebinding where
  models : Models
  evidence : Table EvidenceKey EvidenceRow
  bound : ℕ := 0
  unbound : ℕ := 0
  upgraded : ℕ := 0

/-- One row of the loop. -/
def rebindRow (adapters : Adapters) (st : Rebinding) (key : EvidenceKey) : Rebinding :=
  match st.evidence.lookup key with
  | none => st
  | some row =>
      let binding := bindIdentity (row.identity key) (registryOf st.models) adapters
      let changed := decide (row.matchState ≠ binding.matchState ∨ row.modelId ≠ binding.modelId ∨
        row.adapterId ≠ binding.adapterId)
      { models := binding.applied key.canonicalId st.models
        evidence := st.evidence.mapRows fun k r => if k = key then r.rebound binding else r
        bound := st.bound + if changed ∧ binding.matchState = .bound then 1 else 0
        unbound := st.unbound +
          if changed ∧ binding.matchState ≠ .bound ∧ row.matchState = .bound then 1 else 0
        upgraded := st.upgraded + binding.upgrades st.models }

/-- The loop over the rows, in some order. -/
def rebindRows (adapters : Adapters) (order : List EvidenceKey) (st : Rebinding) : Rebinding :=
  order.foldl (rebindRow adapters) st

theorem mem_rebindRows {adapters : Adapters} {st : Rebinding} {order : List EvidenceKey}
    {m : ModelId} (h : m ∈ st.models.rows) : m ∈ (rebindRows adapters order st).models.rows := by
  induction order generalizing st with
  | nil => exact h
  | cons key order ih =>
      refine ih ?_
      rw [rebindRow]
      split
      · exact h
      · exact Binding.mem_applied h

/-- `rebind_evidence_in`, the rows coming in some order. -/
def rebindEvidence (order : List EvidenceKey) (db : EvidenceDb) : EvidenceDb :=
  let st := rebindRows db.adapters order
    { models := db.registry.models, evidence := db.evidence }
  { db with
    registry := db.registry.withModels st.models fun _ hm => mem_rebindRows hm
    evidence := st.evidence }

/-! ### A source that cannot be reached -/

/-- `mark_source_unreachable`: the number of rows newly badged is returned as well. -/
def markSourceUnreachable (url reason : String) (db : EvidenceDb) : EvidenceDb × ℕ :=
  match sourceForUrl url db.sources with
  | none => (db, 0)
  | some (id, _) =>
      ({ db with
          sources := db.sources.mapRows
            (fun k row =>
              if k = id then { row with lastStatus := some "unreachable", errorText := some reason }
              else row)
            fun k row => by split <;> rfl
          evidence := db.evidence.mapRows fun key row =>
            if key.sourceId = id ∧ row.staleness.reason ≠ some .superseded then
              { row with staleness := ⟨true, some .sourceUnreachable⟩ }
            else row },
        (db.evidence.select fun key row => decide (key.sourceId = id ∧
          row.staleness.reason ≠ some .superseded ∧
          row.staleness ≠ ⟨true, some .sourceUnreachable⟩)).length)

end LoadCoach.Registry

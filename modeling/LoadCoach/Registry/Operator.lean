import LoadCoach.Configuration.RuntimeWrites
import LoadCoach.Foundations.Sorting
import LoadCoach.Registry.Projection
import LoadCoach.Routing.Judged
import LoadCoach.Routing.Narrowing
import LoadCoach.Web.Tokens

/-! # What the operator decides about models

The registry is written by discovery and by the operator, who permits or refuses a model
(`set_model_enabled`) and enters scores of their own (`import_manual_capability_scores`), both of
`services/models.py`.  Neither writer writes what the other does: a pass keeps the flag and the
manual scores of every row, also of a row that is retired, comes back, or is upgraded to its digest.

So in any run the flag of a row is the operator's last word on it (`enabled_run`), a manual score is
the one that was entered last (`manualScore_run`), and routing never ranks a model whose last word
is a refusal (`ranked_enabled`).

The identifiers of the rows as texts, the `repr` of a value and the vocabulary are parameters. -/

namespace LoadCoach.Registry

open Foundations
open LoadCoach.Configuration (Principal authorize)
open Routing (SignalSource ModelFacts RouterState)

/-- What the operator's writes ask of others. -/
structure OperatorEnv where
  repr : String → String
  reprValue : Json → String
  /-- The text of an identifier. -/
  ulid : ModelId → String
  isKnownCapability : String → Bool
  vocabularyVersion : String
  file : String

/-! ### Permitting a model -/

/-- The registry with the flag of one row set. -/
def ModelRegistry.setEnabled (m : ModelId) (enabled : Bool) (registry : ModelRegistry) :
    ModelRegistry where
  models := registry.models.mapRows (fun k row => if k = m then { row with enabled } else row)
    fun k row => by split <;> rfl
  capabilities := registry.capabilities
  referenced := by
    intro key row hrow
    have hmem := AList.lookup_isSome.2 (registry.referenced hrow)
    refine AList.lookup_isSome.1 ?_
    simpa [Indexed.mapRows] using hmem

section Writes

variable (env : OperatorEnv)

/-- `set_model_enabled`. -/
def setModelEnabled (principal : Option Principal) (m : ModelId) (enabled : Bool)
    (registry : ModelRegistry) : Except Raised ModelRegistry := do
  authorize env.repr principal "admin"
  if m ∈ registry.models.rows then pure (registry.setEnabled m enabled)
  else
    .error (.suite "VALIDATION_ERROR"
      s!"no model with id {env.repr (env.ulid m)} is in the registry."
      [("field", .str "model_id"), ("value", .str (env.ulid m))])

/-! ### Entering scores -/

/-- `ManualCapabilityScore`. -/
structure ManualScore where
  canonicalId : String
  capabilityId : String
  score : ℚ
  confidence : ℚ

/-- A number, other than a flag, of the unit interval. -/
def unitNumber : Json → Option ℚ
  | .int n => if 0 ≤ n ∧ n ≤ 1 then some n else none
  | .float x =>
      let number := Number.ofFloat x
      if (Number.float 0).le number ∧ number.le (.float 1) then some number.value else none
  | _ => none

/-- `fail` of `validate_manual_score`. -/
def manualScoreInvalid (index : ℕ) (problem : String) : Raised :=
  .suite "MANUAL_SCORE_INVALID" s!"manual_capability_scores.toml[{index}] is invalid: {problem}"
    [("file", .str env.file), ("index", .int index), ("problem", .str problem)]

/-- `validate_manual_score`. -/
def validateManualScore (index : ℕ) (raw : Members) : Except Raised ManualScore :=
  let value := fun key => (Json.member? key raw).getD .null
  let given := fun key => env.reprValue (value key)
  match value "canonical_id" with
  | .str canonicalId =>
      if canonicalId = "" then
        .error (manualScoreInvalid env index "canonical_id must be a non-empty string")
      else
        match (match value "capability_id" with
            | .str id => if env.isKnownCapability id then some id else none
            | _ => none) with
        | none => .error (manualScoreInvalid env index
            ("capability_id " ++ given "capability_id" ++ " is not in the SetSpec " ++
              s!"vocabulary (version {env.vocabularyVersion})"))
        | some capabilityId =>
            match unitNumber (value "score"), unitNumber (value "confidence") with
            | none, _ => .error (manualScoreInvalid env index
                ("score must be a number in [0.0, 1.0]; got " ++ given "score"))
            | some _, none => .error (manualScoreInvalid env index
                ("confidence must be a number in [0.0, 1.0]; got " ++ given "confidence"))
            | some score, some confidence => .ok { canonicalId, capabilityId, score, confidence }
  | _ => .error (manualScoreInvalid env index "canonical_id must be a non-empty string")

/-- The rows of a canonical ID. -/
def Models.named (canonicalId : String) (models : Models) : List ModelId :=
  (models.rows.select fun _ row => row.canonicalId == canonicalId).map Prod.fst

/-- The registry with a score of the operator's; only a row that is there has one. -/
def ModelRegistry.setScore (m : ModelId) (entry : ManualScore) (now : Instant)
    (registry : ModelRegistry) : ModelRegistry :=
  if h : m ∈ registry.models.rows then
    { registry with
      capabilities := registry.capabilities.insert (m, entry.capabilityId, .manual)
        { score := some entry.score, confidence := entry.confidence, updatedAt := now }
      referenced := by
        intro key row hrow
        by_cases hkey : key = (m, entry.capabilityId, .manual)
        · rw [hkey]
          exact h
        · rw [AList.lookup_insert_ne hkey] at hrow
          exact registry.referenced hrow }
  else registry

/-- One entry of the loop; one that names no model is skipped. -/
def importScore (now : Instant) (st : ModelRegistry × ℕ) (entry : ManualScore) :
    Except Raised (ModelRegistry × ℕ) := do
  match ← Web.scalarOneOrNone (st.1.models.named entry.canonicalId) with
  | none => pure st
  | some m => pure (st.1.setScore m entry now, st.2 + 1)

/-- The entries of a file, checked. -/
def manualScores (entries : List Members) : Except Raised (List ManualScore) :=
  entries.zipIdx.mapM fun e => validateManualScore env e.2 e.1

/-- `import_manual_capability_scores`, of a file that is there or not. -/
def importManualCapabilityScores (file : Option (List Members)) (now : Instant)
    (registry : ModelRegistry) : Except Raised (ModelRegistry × ℕ) :=
  match file with
  | none => .ok (registry, 0)
  | some entries => do
      let validated ← manualScores env entries
      validated.foldlM (importScore now) (registry, 0)

end Writes

/-! ### What routing reads of the registry -/

/-- `geometry_from_json`. -/
def geometryFromJson (stored : Members) (field : String) : Option ℕ :=
  match Json.member? field stored with
  | some (.int n) => some n.toNat
  | _ => none

/-- `_facts_for`, before the fallback of a row that names no registration. -/
def ModelRow.modelFacts (id : String) (row : ModelRow) : ModelFacts where
  modelId := id
  canonicalId := row.canonicalId
  providerKind := row.identity.providerKind
  providerModelName := row.identity.providerModelName
  artifactDigest := row.identity.artifactDigest
  available := row.available
  unavailableReason := row.unavailableReason
  enabled := row.enabled
  maxContext := row.facts.maxContext.map Int.toNat
  sizeBytes := row.facts.sizeBytes.map Int.toNat
  parameterCount := row.facts.parameterCount.map Int.toNat
  layers := geometryFromJson row.facts.geometry "layers"
  kvHeads := geometryFromJson row.facts.geometry "kv_heads"
  headDim := geometryFromJson row.facts.geometry "head_dim"
  isRemote := row.isRemote
  providerName := row.providerName

/-- The rows of `models`, in the order of their canonical IDs. -/
def ModelRegistry.modelFacts (ulid : ModelId → String) (registry : ModelRegistry) :
    List ModelFacts :=
  sortBy ModelFacts.canonicalId
    ((registry.models.rows.select fun _ _ => true).map fun e => e.2.modelFacts (ulid e.1))

/-- The rows of `model_capabilities`. -/
def ModelRegistry.modelCapabilities (ulid : ModelId → String) (registry : ModelRegistry) :
    List Routing.ModelCapability :=
  (registry.capabilities.select fun _ _ => true).map fun e =>
    { modelId := ulid e.1.1, capabilityId := e.1.2.1, source := e.1.2.2
      score := e.2.score, confidence := e.2.confidence }

/-- What a decision reads where the registry stands so. -/
def readRegistry (ulid : ModelId → String) (registry : ModelRegistry) (s : RouterState) :
    RouterState :=
  { s with
    registry := { s.registry with
      models := registry.modelFacts ulid
      capabilities := registry.modelCapabilities ulid } }

/-! ### Runs -/

/-- What is done to the registry. -/
inductive RegistryAct where
  | discover (answers : List Answer) (now : Instant) (disabled : List String)
      (order : List EvidenceKey)
  | setEnabled (principal : Option Principal) (m : ModelId) (enabled : Bool)
  | importScores (file : Option (List Members)) (now : Instant)

section Runs

variable (env : OperatorEnv)

/-- What an action leaves; one that raises writes nothing. -/
def RegistryAct.after (db : EvidenceDb) : RegistryAct → EvidenceDb
  | .discover answers now disabled order =>
      match discoverModels answers now disabled order db with
      | .ok (db, _) => db
      | .error _ => db
  | .setEnabled principal m enabled =>
      match setModelEnabled env principal m enabled db.registry with
      | .ok registry => { db with registry }
      | .error _ => db
  | .importScores file now =>
      match importManualCapabilityScores env file now db.registry with
      | .ok (registry, _) => { db with registry }
      | .error _ => db

/-- The registry from a state on, under any actions. -/
def registrySystem (start : EvidenceDb) : System EvidenceDb RegistryAct :=
  .guarded (fun _ _ => True) (fun db act => act.after env db) start

/-- The flag a step gives a row. -/
def flagSet (m : ModelId) (e : Step EvidenceDb RegistryAct) : Option Bool :=
  match e.act with
  | .setEnabled principal m' enabled =>
      if (setModelEnabled env principal m' enabled e.pre.registry).isOk ∧ m' = m then some enabled
      else none
  | _ => none

/-- The entries of a file, where the import of it succeeds. -/
def importedScores (registry : ModelRegistry) (file : Option (List Members)) (now : Instant) :
    List ManualScore :=
  if (importManualCapabilityScores env file now registry).isOk then
    (file.bind fun entries => (manualScores env entries).toOption).getD []
  else []

/-- The score a step enters for a capability of a row: the last entry of its file that is of the
capability and of the canonical ID the row has. -/
def scoreSet (m : ModelId) (capabilityId : String) (e : Step EvidenceDb RegistryAct) :
    Option CapabilityRow :=
  match e.act with
  | .importScores file now =>
      ((importedScores env e.pre.registry file now).reverse.find? fun entry =>
        entry.capabilityId == capabilityId &&
          e.pre.registry.models.named entry.canonicalId == [m]).map fun entry =>
            { score := some entry.score, confidence := entry.confidence, updatedAt := now }
  | _ => none

end Runs

/-! ### The flag -/

/-- The flag of a row; a row that is still to come will be permitted. -/
def Models.permits (m : ModelId) (models : Models) : Bool :=
  ((models.rows.lookup m).map ModelRow.enabled).getD true

section Flag

variable {models : Models} {m : ModelId} {descriptor : ModelDescriptor} {now : Instant}
  {registration : Registration}

theorem Models.permits_upsert :
    (models.upsert descriptor now registration).permits m = models.permits m := by
  rw [Models.permits, Models.lookup_upsert]
  split
  · rename_i htarget
    rw [Models.permits]
    cases hrow : models.rows.lookup m with
    | some row =>
        rw [Models.existing_of_target hrow htarget.symm]
        rfl
    | none =>
        cases hexisting : models.existing descriptor.identity with
        | none => rfl
        | some found =>
            have hfound := (Models.existing_eq_some_iff.1 hexisting).1
            rw [← Models.target_of_existing hexisting, ← htarget, hrow] at hfound
            cases hfound
  · rfl

theorem ModelRow.enabled_retired (disabled seenCanonicalIds answeredKinds : List String)
    (row : ModelRow) :
    (row.retired disabled seenCanonicalIds answeredKinds).enabled = row.enabled := by
  rw [ModelRow.retired]
  repeat' split
  all_goals rfl

theorem permits_retire {disabled seenCanonicalIds answeredKinds : List String}
    {registry : ModelRegistry} :
    (registry.retire disabled seenCanonicalIds answeredKinds).models.permits m =
      registry.models.permits m := by
  have hlookup : (registry.retire disabled seenCanonicalIds answeredKinds).models.rows.lookup m =
      (registry.models.rows.lookup m).map
        (ModelRow.retired disabled seenCanonicalIds answeredKinds) :=
    Table.lookup_mapRows _ _ _
  rw [Models.permits, hlookup, Models.permits]
  cases registry.models.rows.lookup m with
  | none => rfl
  | some row => exact row.enabled_retired _ _ _

theorem permits_recordReports {l : List (Registration × ModelDescriptor)} {st : Recording} :
    (l.foldl (recordReport now) st).registry.models.permits m = st.registry.models.permits m := by
  induction l generalizing st with
  | nil => rfl
  | cons r l ih =>
      rw [List.foldl_cons, ih]
      exact Models.permits_upsert

/-- **A pass keeps every flag.** -/
theorem permits_discoverModels {answers : List Answer} {disabled : List String}
    {order : List EvidenceKey} {db db' : EvidenceDb} {outcome : DiscoveryOutcome}
    (hok : discoverModels answers now disabled order db = .ok (db', outcome)) :
    db'.registry.models.permits m = db.registry.models.permits m := by
  rw [eq_of_discoverModels hok, Models.permits,
    map_lookup_rebindEvidence (f := ModelRow.enabled) (fun _ _ _ _ => rfl)]
  exact permits_retire.trans permits_recordReports

/-- **A pass keeps every row.** -/
theorem mem_discoverModels {answers : List Answer} {disabled : List String}
    {order : List EvidenceKey} {db db' : EvidenceDb} {outcome : DiscoveryOutcome}
    (hok : discoverModels answers now disabled order db = .ok (db', outcome))
    (hmem : m ∈ db.registry.models.rows) : m ∈ db'.registry.models.rows := by
  have hrecorded : ∀ (l : List (Registration × ModelDescriptor)) (st : Recording),
      m ∈ st.registry.models.rows → m ∈ (l.foldl (recordReport now) st).registry.models.rows := by
    intro l
    induction l with
    | nil => exact fun st hst => hst
    | cons r l ih =>
        intro st hst
        refine ih _ (AList.lookup_isSome.1 ?_)
        change ((st.registry.models.upsert r.2 now r.1).rows.lookup m).isSome = true
        rw [Models.lookup_upsert]
        split
        · rfl
        · exact AList.lookup_isSome.2 hst
  have hrow := AList.lookup_isSome.2 (hrecorded (reports (listedOf answers)) ⟨db.registry, [], 0, 0⟩
    hmem)
  have hrebind := map_lookup_rebindEvidence (f := fun _ => ()) (fun _ _ _ _ => rfl) order
    { db with registry := projected answers now disabled db.registry } m
  rw [← eq_of_discoverModels hok] at hrebind
  refine AList.lookup_isSome.1 ?_
  rw [← Option.isSome_map (f := fun _ => ()), hrebind, Option.isSome_map]
  exact (congrArg Option.isSome (Table.lookup_mapRows _ _ _)).trans
    ((Option.isSome_map ..).trans hrow)

theorem lookup_setEnabled {registry : ModelRegistry} {enabled : Bool} (m' : ModelId) :
    (registry.setEnabled m enabled).models.rows.lookup m' =
      (registry.models.rows.lookup m').map fun row =>
        if m' = m then { row with enabled } else row :=
  Table.lookup_mapRows _ _ _

theorem permits_setEnabled {registry : ModelRegistry} {enabled : Bool}
    (hmem : m ∈ registry.models.rows) (m' : ModelId) :
    (registry.setEnabled m enabled).models.permits m' =
      if m = m' then enabled else registry.models.permits m' := by
  rw [Models.permits, lookup_setEnabled]
  by_cases hm : m = m'
  · subst hm
    obtain ⟨row, hrow⟩ := Option.isSome_iff_exists.1 (AList.lookup_isSome.2 hmem)
    rw [hrow, if_pos rfl]
    simp
  · rw [if_neg hm, Models.permits]
    cases registry.models.rows.lookup m' <;> simp [Ne.symm hm]

theorem setModelEnabled_eq_ok {env : OperatorEnv} {principal : Option Principal} {enabled : Bool}
    {registry registry' : ModelRegistry}
    (hok : setModelEnabled env principal m enabled registry = .ok registry') :
    m ∈ registry.models.rows ∧ registry' = registry.setEnabled m enabled := by
  rw [setModelEnabled] at hok
  obtain ⟨-, -, hok⟩ := bind_eq_ok.1 hok
  split at hok
  · rename_i hmem
    exact ⟨hmem, (pure_eq_ok.1 hok).symm⟩
  · cases hok

end Flag

/-! ### The scores -/

section Scores

variable {env : OperatorEnv} {registry registry' : ModelRegistry} {m : ModelId} {entry : ManualScore}
  {now : Instant}

theorem mem_named {models : Models} {canonicalId : String} :
    m ∈ models.named canonicalId ↔
      ∃ row, models.rows.lookup m = some row ∧ row.canonicalId = canonicalId := by
  simp [Models.named, Table.mem_select]

theorem lookup_setScore (hmem : m ∈ registry.models.rows)
    (key : ModelId × String × SignalSource) :
    (registry.setScore m entry now).capabilities.lookup key =
      if key = (m, entry.capabilityId, .manual) then
        some { score := some entry.score, confidence := entry.confidence, updatedAt := now }
      else registry.capabilities.lookup key := by
  rw [ModelRegistry.setScore, dif_pos hmem]
  dsimp only
  split
  · rename_i hkey
    rw [hkey, AList.lookup_insert]
  · rename_i hkey
    exact AList.lookup_insert_ne hkey

theorem models_setScore : (registry.setScore m entry now).models = registry.models := by
  rw [ModelRegistry.setScore]
  split <;> rfl

theorem importScore_eq_ok {n n' : ℕ}
    (hok : importScore now (registry, n) entry = .ok (registry', n')) :
    registry.models.named entry.canonicalId = [] ∧ registry' = registry ∨
      ∃ m, registry.models.named entry.canonicalId = [m] ∧
        registry' = registry.setScore m entry now := by
  rw [importScore] at hok
  obtain ⟨found, hfound, hok⟩ := bind_eq_ok.1 hok
  rcases hnamed : registry.models.named entry.canonicalId with _ | ⟨m, _ | ⟨m', rest⟩⟩
  · rw [hnamed] at hfound
    cases hfound
    cases hok
    exact .inl ⟨rfl, rfl⟩
  · rw [hnamed] at hfound
    cases hfound
    cases hok
    exact .inr ⟨m, rfl, rfl⟩
  · rw [hnamed] at hfound
    cases hfound

/-- **An import, row by row**: of the entries of a capability that name a row, the last is its
score. -/
theorem lookup_importScores {validated : List ManualScore} {n n' : ℕ}
    (hok : validated.foldlM (importScore now) (registry, n) = .ok (registry', n'))
    (m : ModelId) (capabilityId : String) :
    registry'.models = registry.models ∧
    registry'.capabilities.lookup (m, capabilityId, .manual) =
      ((validated.reverse.find? fun entry => entry.capabilityId == capabilityId &&
        registry.models.named entry.canonicalId == [m]).map fun entry =>
          ({ score := some entry.score, confidence := entry.confidence, updatedAt := now } :
            CapabilityRow)).or (registry.capabilities.lookup (m, capabilityId, .manual)) := by
  induction validated generalizing registry n with
  | nil =>
      cases hok
      exact ⟨rfl, rfl⟩
  | cons entry validated ih =>
      rw [List.foldlM_cons] at hok
      obtain ⟨⟨registry₁, n₁⟩, hentry, hrest⟩ := bind_eq_ok.1 hok
      obtain ⟨hmodels, hlookup⟩ := ih hrest
      rw [List.reverse_cons, List.find?_append, List.find?_singleton]
      rcases importScore_eq_ok hentry with ⟨hnone, rfl⟩ | ⟨m', hone, rfl⟩
      · refine ⟨hmodels, ?_⟩
        rw [hlookup, hnone]
        simp
      · rw [models_setScore] at hmodels hlookup
        refine ⟨hmodels, ?_⟩
        have hmem : m' ∈ registry.models.rows := by
          obtain ⟨row, hrow, -⟩ := mem_named.1 (hone ▸ List.mem_singleton_self m')
          exact AList.lookup_isSome.1 (hrow ▸ rfl)
        rw [hlookup, hone, lookup_setScore hmem]
        cases validated.reverse.find? fun entry => entry.capabilityId == capabilityId &&
            registry.models.named entry.canonicalId == [m] with
        | some last => rfl
        | none =>
            by_cases hkey : entry.capabilityId = capabilityId ∧ m' = m
            · obtain ⟨rfl, rfl⟩ := hkey
              simp
            · rw [not_and_or] at hkey
              rcases hkey with hkey | hkey <;> simp [hkey, Ne.symm hkey]

/-- **A pass keeps the operator's scores.** -/
theorem manual_discoverModels {answers : List Answer} {disabled : List String}
    {order : List EvidenceKey} {db db' : EvidenceDb} {outcome : DiscoveryOutcome}
    (hok : discoverModels answers now disabled order db = .ok (db', outcome)) (m : ModelId)
    (capabilityId : String) :
    db'.registry.capabilities.lookup (m, capabilityId, .manual) =
      db.registry.capabilities.lookup (m, capabilityId, .manual) := by
  rw [capabilities_of_discoverModels hok, lookup_capabilities_recorded]
  exact if_neg fun h => by cases h.1

end Scores

/-! ### Over a run -/

section Standing

variable {env : OperatorEnv} {start db : EvidenceDb} {h : List (Step EvidenceDb RegistryAct)}

theorem permits_step (m : ModelId) (e : Step EvidenceDb RegistryAct)
    (hnext : (registrySystem env start).next e.pre e.act e.post) :
    e.post.registry.models.permits m =
      (flagSet env m e).getD (e.pre.registry.models.permits m) := by
  obtain ⟨pre, act, post⟩ := e
  obtain ⟨-, hpost⟩ := hnext
  dsimp only at hpost ⊢
  subst hpost
  cases act with
  | discover answers now disabled order =>
      rw [RegistryAct.after]
      cases hok : discoverModels answers now disabled order pre with
      | error x => rfl
      | ok result => exact permits_discoverModels hok
  | setEnabled principal m' enabled =>
      rw [RegistryAct.after, flagSet]
      dsimp only
      cases hok : setModelEnabled env principal m' enabled pre.registry with
      | error x => simp [Except.isOk, Except.toBool]
      | ok registry =>
          obtain ⟨hmem, rfl⟩ := setModelEnabled_eq_ok hok
          dsimp only
          rw [permits_setEnabled hmem]
          by_cases hm : m' = m <;> simp [hm, Except.isOk, Except.toBool]
  | importScores file now =>
      rw [RegistryAct.after]
      cases hok : importManualCapabilityScores env file now pre.registry with
      | error x => rfl
      | ok result =>
          obtain ⟨registry, n⟩ := result
          cases file with
          | none =>
              cases hok
              rfl
          | some entries =>
              obtain ⟨validated, -, hloop⟩ := bind_eq_ok.1 hok
              rw [Models.permits, Models.permits,
                ← (lookup_importScores hloop m "").1]
              rfl

theorem permits_run (hrun : Run (registrySystem env start) h db) (m : ModelId) :
    db.registry.models.permits m =
      (h.findSome? (flagSet env m)).getD (start.registry.models.permits m) :=
  hrun.lastWrite (v := fun db => db.registry.models.permits m)
    (fun s hs => by rw [show s = start from hs]) (permits_step m)

theorem mem_step {m : ModelId} (e : Step EvidenceDb RegistryAct)
    (hnext : (registrySystem env start).next e.pre e.act e.post)
    (hmem : m ∈ e.pre.registry.models.rows) : m ∈ e.post.registry.models.rows := by
  obtain ⟨pre, act, post⟩ := e
  obtain ⟨-, hpost⟩ := hnext
  dsimp only at hpost hmem ⊢
  subst hpost
  cases act with
  | discover answers now disabled order =>
      rw [RegistryAct.after]
      cases hok : discoverModels answers now disabled order pre with
      | error x => exact hmem
      | ok result => exact mem_discoverModels hok hmem
  | setEnabled principal m' enabled =>
      rw [RegistryAct.after]
      cases hok : setModelEnabled env principal m' enabled pre.registry with
      | error x => exact hmem
      | ok registry =>
          obtain ⟨-, rfl⟩ := setModelEnabled_eq_ok hok
          refine AList.lookup_isSome.1 ?_
          dsimp only
          rw [lookup_setEnabled, Option.isSome_map]
          exact AList.lookup_isSome.2 hmem
  | importScores file now =>
      rw [RegistryAct.after]
      cases hok : importManualCapabilityScores env file now pre.registry with
      | error x => exact hmem
      | ok result =>
          obtain ⟨registry, n⟩ := result
          cases file with
          | none =>
              cases hok
              exact hmem
          | some entries =>
              obtain ⟨validated, -, hloop⟩ := bind_eq_ok.1 hok
              dsimp only
              rw [(lookup_importScores hloop m "").1]
              exact hmem

/-- **The flag is the operator's last word**: over any passes, of any answers, a row stays, and is
permitted as it was last said to be. -/
theorem enabled_run (hrun : Run (registrySystem env start) h db) (m : ModelId) :
    (m ∈ start.registry.models.rows → m ∈ db.registry.models.rows) ∧
    ∀ row, db.registry.models.rows.lookup m = some row →
      row.enabled = (h.findSome? (flagSet env m)).getD (start.registry.models.permits m) := by
  constructor
  · intro hmem
    refine hrun.invariant_of_steps (P := fun db => m ∈ db.registry.models.rows)
      (C := fun _ => True) ?_ (fun e hnext _ => mem_step e hnext) fun _ _ => trivial
    intro s hs
    rw [show s = start from hs]
    exact hmem
  · intro row hrow
    rw [← permits_run hrun, Models.permits, hrow]
    rfl

theorem scores_step (m : ModelId) (capabilityId : String) (e : Step EvidenceDb RegistryAct)
    (hnext : (registrySystem env start).next e.pre e.act e.post) :
    e.post.registry.capabilities.lookup (m, capabilityId, .manual) =
      ((scoreSet env m capabilityId e).map some).getD
        (e.pre.registry.capabilities.lookup (m, capabilityId, .manual)) := by
  obtain ⟨pre, act, post⟩ := e
  obtain ⟨-, hpost⟩ := hnext
  dsimp only at hpost ⊢
  subst hpost
  cases act with
  | discover answers now disabled order =>
      rw [RegistryAct.after]
      cases hok : discoverModels answers now disabled order pre with
      | error x => rfl
      | ok result => exact manual_discoverModels hok m capabilityId
  | setEnabled principal m' enabled =>
      rw [RegistryAct.after]
      cases hok : setModelEnabled env principal m' enabled pre.registry with
      | error x => rfl
      | ok registry =>
          obtain ⟨-, rfl⟩ := setModelEnabled_eq_ok hok
          rfl
  | importScores file now =>
      rw [RegistryAct.after, scoreSet]
      dsimp only
      rw [importedScores]
      cases hok : importManualCapabilityScores env file now pre.registry with
      | error x => rfl
      | ok result =>
          obtain ⟨registry, n⟩ := result
          cases file with
          | none =>
              cases hok
              rfl
          | some entries =>
              obtain ⟨validated, hvalidated, hloop⟩ := bind_eq_ok.1 hok
              have hscores : (manualScores env entries).toOption.getD [] = validated := by
                rw [hvalidated]
                rfl
              rw [if_pos (by rfl), Option.bind_some, hscores]
              dsimp only
              rw [(lookup_importScores hloop m capabilityId).2]
              cases List.find? _ _ <;> rfl

/-- **A manual score is the one that was entered last** for the row, whatever passes there were
before and after it: also where the row was upgraded to its digest, retired or reported again. -/
theorem manualScore_run (hrun : Run (registrySystem env start) h db) (m : ModelId)
    (capabilityId : String) :
    db.registry.capabilities.lookup (m, capabilityId, .manual) =
      (h.findSome? (scoreSet env m capabilityId)).or
        (start.registry.capabilities.lookup (m, capabilityId, .manual)) := by
  have hlast := hrun.lastWrite
    (v := fun db => db.registry.capabilities.lookup (m, capabilityId, .manual))
    (fun s hs => by rw [show s = start from hs]) (scores_step m capabilityId)
  rw [hlast]
  have hsome : h.findSome? (fun e => (scoreSet env m capabilityId e).map some) =
      (h.findSome? (scoreSet env m capabilityId)).map some := List.map_findSome?.symm
  rw [hsome]
  cases h.findSome? (scoreSet env m capabilityId) <;> rfl

end Standing

/-! ### A model that comes back -/

/-- A vocabulary of one capability. -/
def chatOperator : OperatorEnv where
  repr text := "'" ++ text ++ "'"
  reprValue _ := ""
  ulid m := toString m
  isKnownCapability capability := capability == "general_chat"
  vocabularyVersion := "1"
  file := "manual_capability_scores.toml"

/-- A model that is reported by its name, or with its digest. -/
def qwen (artifactDigest : Option String) : ModelDescriptor where
  identity := ⟨"llamacpp", "qwen3", artifactDigest⟩
  canonicalId := "llamacpp:qwen3" ++ artifactDigest.getD ""
  identityConfidence := if artifactDigest.isSome then "digest" else "name_only"

/-- Another one. -/
def gemma : ModelDescriptor where
  identity := ⟨"llamacpp", "gemma3", none⟩
  canonicalId := "llamacpp:gemma3"
  identityConfidence := "name_only"

/-- What one registration answers. -/
def answered (descriptors : List ModelDescriptor) : List Answer :=
  [(⟨"local", "llamacpp", false⟩, .ok descriptors)]

/-- A model is refused and scored, disappears, and is reported again with its digest. -/
def comesBack : List RegistryAct :=
  [.discover (answered [qwen none, gemma]) 10 [] [],
   .setEnabled (some ⟨"ops", "admin"⟩) 1 false,
   .importScores (some [[("canonical_id", .str "llamacpp:qwen3"),
     ("capability_id", .str "general_chat"), ("score", .int 1),
     ("confidence", .float (.literal 5 (-1)))]]) 20,
   .discover (answered [gemma]) 30 [] [],
   .discover (answered [qwen (some "@sha256:ab"), gemma]) 40 [] []]

theorem comesBack_run : Run (registrySystem chatOperator {})
    (trace (RegistryAct.after chatOperator) {} comesBack)
    (comesBack.foldl (RegistryAct.after chatOperator) {}) :=
  .replay ⟨trivial, trivial, trivial, trivial, trivial, trivial⟩

theorem enabled_run_comesBack : ∃ row,
    (comesBack.foldl (RegistryAct.after chatOperator) {}).registry.models.rows.lookup 1 = some row ∧
      row.enabled = false := by
  have hrow : ((comesBack.foldl (RegistryAct.after chatOperator)
      {}).registry.models.rows.lookup 1).isSome = true := by decide +kernel
  obtain ⟨row, hrow⟩ := Option.isSome_iff_exists.1 hrow
  exact ⟨row, hrow, ((enabled_run comesBack_run 1).2 row hrow).trans (by decide +kernel)⟩

theorem manualScore_run_comesBack :
    ((comesBack.foldl (RegistryAct.after chatOperator) {}).registry.capabilities.lookup
      (1, "general_chat", .manual)).map CapabilityRow.confidence = some (1 / 2) := by
  rw [manualScore_run comesBack_run 1 "general_chat"]
  decide +kernel

/-! ### What is routed -/

section Routed

variable {ulid : ModelId → String} {registry : ModelRegistry} {s : RouterState}

theorem row_of_mem_readCandidates {weights : Routing.Weights} {c : Routing.Candidate}
    (hc : c ∈ Routing.readCandidates (readRegistry ulid registry s) weights) :
    ∃ m row, registry.models.rows.lookup m = some row ∧
      c.facts = Routing.factsFor (row.modelFacts (ulid m)) s.provider.isRemote := by
  obtain ⟨facts, hfacts, hc⟩ := List.mem_flatMap.1 hc
  have hrow : ∃ m row, registry.models.rows.lookup m = some row ∧
      row.modelFacts (ulid m) = facts := by
    have hmem := (List.perm_insertionSort _ _).mem_iff.1 hfacts
    obtain ⟨⟨m, row⟩, he, rfl⟩ := List.mem_map.1 hmem
    exact ⟨m, row, ((Table.mem_select _ _ _ _).1 he).1, rfl⟩
  obtain ⟨m, row, hrow, rfl⟩ := hrow
  refine ⟨m, row, hrow, ?_⟩
  dsimp only at hc
  split at hc
  · rcases List.mem_cons.1 hc with rfl | hc
    · rfl
    · obtain ⟨adapter, -, rfl⟩ := List.mem_map.1 hc
      rfl
  · rw [List.mem_singleton.1 hc]
    rfl

theorem checkProvider_of_passed {hash : RuntimeProfile → String}
    {subject : Routing.ExecutionSubject} {estimate : Routing.VramEstimate}
    {inputs : Routing.ConstraintInputs} {result : List Routing.DeviceFit × Option ℕ}
    (hpassed : Routing.evaluateConstraints hash subject estimate inputs = .ok result) :
    Routing.checkProvider subject inputs = none := by
  unfold Routing.evaluateConstraints at hpassed
  cases hprovider : Routing.checkProvider subject inputs with
  | none => rfl
  | some rejection =>
      rw [hprovider] at hpassed
      cases hpassed

/-- **A model the operator refused is never ranked**: every candidate of a decision is a row that is
available and that the operator's last word permits. -/
theorem ranked_enabled {env : OperatorEnv} {start db : EvidenceDb}
    {h : List (Step EvidenceDb RegistryAct)} {request : Routing.RouteRequest} {d : Routing.Decision}
    (hrun : Run (registrySystem env start) h db)
    (hdecision : Routing.decision (readRegistry ulid db.registry s) request = .ok d) :
    ∀ ranked ∈ d.ranking.ordered, ∃ m row, db.registry.models.rows.lookup m = some row ∧
      ranked.subject.facts.modelId = ulid m ∧ row.available = true ∧
      (h.findSome? (flagSet env m)).getD (start.registry.models.permits m) = true := by
  intro ranked hranked
  obtain ⟨cs, r, c, hposed, -, hc, hjudged⟩ := Routing.judged_of_ordered hdecision hranked
  have hposed := Routing.posed_eq_ok hposed
  obtain ⟨m, row, hrow, hfacts⟩ := row_of_mem_readCandidates (hposed.candidates ▸ hc)
  have hsame : ranked.subject.facts = c.facts := by
    rw [show ranked.subject = _ from (congrArg Prod.snd hjudged.subject).symm]
    rfl
  obtain ⟨fits, hpassed⟩ := hjudged.passed
  obtain ⟨henabled, -, ⟨havailable, -⟩, -⟩ :=
    Routing.checkProvider_eq_none_iff.1 (checkProvider_of_passed hpassed)
  rw [hsame, hfacts] at henabled havailable
  refine ⟨m, row, hrow, ?_, havailable, ?_⟩
  · rw [hsame, hfacts]
    rfl
  · rw [← permits_run hrun, Models.permits, hrow]
    exact henabled

/-- A router of one task. -/
def chatRouter : RouterState where
  taskProfiles := [{ profileId := "chat", weights := [("general_chat", 1)] }]
  registry := { models := [] }
  provider := { reportedServedContext := some 4096 }
  profileHash := fun _ => ""

theorem ranked_enabled_comesBack :
    let db := comesBack.foldl (RegistryAct.after chatOperator) {}
    ∃ d, Routing.decision (readRegistry chatOperator.ulid db.registry chatRouter)
        { task := "chat" } = .ok d ∧
      (d.ranking.ordered.map fun ranked => ranked.subject.facts.modelId) = ["2"] ∧
      ∀ ranked ∈ d.ranking.ordered, ∃ m row, db.registry.models.rows.lookup m = some row ∧
        ranked.subject.facts.modelId = chatOperator.ulid m ∧ row.available = true ∧
        ((trace (RegistryAct.after chatOperator) {} comesBack).findSome?
          (flagSet chatOperator m)).getD true = true := by
  intro db
  have hdecision : Routing.decision (readRegistry chatOperator.ulid db.registry chatRouter)
      { task := "chat" } = .ok _ := rfl
  exact ⟨_, hdecision, by decide +kernel, ranked_enabled comesBack_run hdecision⟩

end Routed

end LoadCoach.Registry

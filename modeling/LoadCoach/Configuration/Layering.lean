import LoadCoach.Foundations.Paths
import LoadCoach.Configuration.Runtime
import LoadCoach.Configuration.Settings

/-! # Loading the settings in layers

`config.py`: `load_settings` reads the file, nests the variables of the environment, merges both
with the overrides of the command line, validates the result and says of every field which layer it
comes from.  `load_settings_tolerant` does so after it has taken the unknown keys out of the file.

The parser of TOML, the lower case of letters outside ASCII and the validation of the merged
mapping are parameters.  TOML's dates and times are not told from its numbers. -/

namespace LoadCoach.Configuration.Layering

open Foundations
open Foundations.Json

/-! ### The models -/

/-- A field as it is declared: a value, or a table with its fields, and what any other key of the
table holds where it may have others. -/
inductive Shape where
  | value
  | model (fields : List (String × Shape)) (extra : Option Shape)

/-- Fields that are no tables. -/
def values (names : List String) : List (String × Shape) := names.map (·, .value)

/-- `FakeProviderSettings`. -/
def fakeProviderSettings : Shape :=
  .model (values ["size_bytes", "layers", "kv_heads", "head_dim"]) none

/-- `ProviderRegistrationSettings`. -/
def providerRegistrationSettings : Shape :=
  .model (values ["kind", "enabled", "base_url", "timeout_seconds", "remote", "model_directory",
    "state_dir", "server_path", "memory_max_bytes", "memory_high_bytes"] ++
    [("fake", fakeProviderSettings)]) none

/-- `RuntimeModelOverride`. -/
def runtimeModelOverride : Shape :=
  .model (values ["context_size", "kv_cache_precision", "flash_attention"]) none

/-- `Settings.model_fields`: of each section its fields, and what its extra keys hold. -/
def settingsFields : List (String × List (String × Shape) × Option Shape) :=
  [("server", values ["host", "port", "allow_lan_exposure", "allowed_hosts", "max_body_bytes",
      "rate_limit_per_minute", "rate_limit_burst", "failed_auth_per_minute", "trusted_proxies"],
      none),
    ("storage", values ["database_url", "auto_migrate", "backup_retention", "statement_timeout_ms",
      "content_retention_hours", "retain_content"], none),
    ("provider", values ["kind", "base_url", "timeout_seconds"] ++
      [("fake", fakeProviderSettings)], none),
    ("providers", values ["allow_remote"] ++
      [("registrations", .model [] (some providerRegistrationSettings))],
      some providerRegistrationSettings),
    ("adapters", values ["directory"], none),
    ("execution", values ["max_concurrent_jobs", "default_timeout_seconds", "max_attempts",
      "attempt_backoff_seconds"], none),
    ("runtime", values ["context_size", "kv_cache_precision", "flash_attention", "keep_alive"] ++
      [("models", .model [] (some runtimeModelOverride))], none),
    ("queue", values ["max_depth", "max_active_per_source", "lease_seconds", "poll_interval_ms",
      "lease_renewal_interval_seconds", "ageing_interval_seconds", "max_wait_seconds",
      "ageing_priority_per_minute", "overflow_allowance", "max_affinity_streak",
      "idempotency_ttl_hours", "cancelling_watchdog_seconds"], none),
    ("routing", values ["task_profiles_path", "strategy", "min_confidence",
      "prefer_resident_bonus", "min_present_weight", "remote_cost_factor", "base_switch_penalty",
      "require_adapter_evidence", "explanation_retention_days"], none),
    ("evidence", values ["freeweight_url", "freeweight_api_key_env", "freeweight_api_key_file",
      "allowed_source_hosts", "import_interval_hours", "accept_schema_majors"], none),
    ("residency", values ["unload_idle_seconds", "max_resident_models"], none),
    ("telemetry", values ["interval_ms", "vram_headroom_bytes"], none),
    ("logging", values ["level", "format", "include_content"], none),
    ("console", values ["url"], none)]

/-- A section by its name. -/
def sectionOf (name : String) : Option (List (String × Shape) × Option Shape) :=
  (settingsFields.find? fun entry => entry.1 == name).map Prod.snd

/-- What a table holds under a key. -/
def child (fields : List (String × Shape)) (extra : Option Shape) (key : String) : Option Shape :=
  ((fields.find? fun entry => entry.1 == key).map Prod.snd).or extra

/-- A leaf that `sources` names. -/
structure Leaf where
  sectionName : String
  fieldName : String
deriving DecidableEq

/-- The dotted path of a leaf. -/
def Leaf.dotted (leaf : Leaf) : String := leaf.sectionName ++ "." ++ leaf.fieldName

/-- `leaf_keys`. -/
def leafKeys : List Leaf :=
  settingsFields.flatMap fun entry => entry.2.1.map fun field => ⟨entry.1, field.1⟩

/-! ### What is called -/

/-- What `tomllib.loads` raises: its own error, or another (a number of too many digits, tables
nested too deep). -/
inductive TomlFailure where
  | decodeError (text : String)
  | other

/-- A mapping: no key is in a table twice. -/
structure Mapping where
  members : Members
  keyed : Keyed (.obj members)

/-- Python's library. -/
structure Python where
  /-- `tomllib.loads`. -/
  toml : String → Except TomlFailure Mapping
  /-- `str.lower`. -/
  lower : String → String
  lower_ascii : ∀ s, (∀ c ∈ s.toList, c.toNat < 128) → lower s = Foundations.lower s

/-- The fields of `[server]` that the security check reads. -/
structure ServerBinding where
  host : String := "127.0.0.1"
  allowLanExposure : Bool := false
  allowedHosts : List String := []

/-- `Settings.model_validate` into `σ`, and the errors of a mapping that it refuses. -/
structure Validation (σ : Type) extends Wording where
  validate : Members → Option σ
  errors : Members → List FieldError
  server : σ → ServerBinding

/-! ### The file -/

/-- `_read_file`: of a file that may be missing, its mapping and whether it is there. -/
def readFile (python : Python) (path : String) (file : Option ByteArray) :
    Except Raised (Members × Bool) :=
  match file with
  | none => .ok ([], false)
  | some bytes =>
      match String.fromUTF8? bytes with
      | none => .error .unexpected
      | some text =>
          match python.toml text with
          | .ok mapping => .ok (mapping.members, true)
          | .error (.decodeError problem) =>
              .error (configurationError s!"Configuration file {path} is not valid TOML: {problem}"
                [("file", .str path)])
          | .error .other => .error .unexpected

/-! ### The environment -/

/-- `ENV_PREFIX`. -/
def envPrefix : String := "LOADCOACH_"

/-- `_RESERVED_ENV_SUFFIXES`. -/
def reservedEnvSuffixes : List String := ["CONFIG", "DATA_DIR", "LOG_LEVEL"]

/-- `str.split("__")`. -/
def splitUnderscores : List Char → List (List Char)
  | '_' :: '_' :: rest => [] :: splitUnderscores rest
  | c :: rest =>
      match splitUnderscores rest with
      | part :: parts => (c :: part) :: parts
      | [] => [[c]]
  | [] => [[]]

/-- The part of a name after the prefix. -/
def suffixOf (name : String) : Option String :=
  if envPrefix.toList.isPrefixOf name.toList then
    some (String.ofList (name.toList.drop envPrefix.length))
  else none

/-- The path that a suffix names. -/
def pathOf (python : Python) (suffix : String) : Path :=
  (splitUnderscores (python.lower suffix).toList).map String.ofList

/-- What one variable sets, if it is one of this application's. -/
def assignmentOf (python : Python) (item : String × String) : Option (Path × Json) :=
  match suffixOf item.1 with
  | some suffix =>
      if suffix ∈ reservedEnvSuffixes then none else some (pathOf python suffix, .str item.2)
  | none => none

/-- What the variables set, in the order of `os.environ.items()`. -/
def assignments (python : Python) (environ : List (String × String)) : List (Path × Json) :=
  environ.filterMap (assignmentOf python)

/-- `os.environ.get`. -/
def getEnv (environ : List (String × String)) (name : String) : Option String :=
  (environ.find? fun item => item.1 == name).map Prod.snd

/-- `LOADCOACH_LOG_LEVEL`, where it is not empty. -/
def logLevel (environ : List (String × String)) : Option String :=
  (getEnv environ (envPrefix ++ "LOG_LEVEL")).filter fun level => level ≠ ""

/-- `name in value`. -/
def contains (name : String) : Json → Except Raised Bool
  | .obj members => .ok (member? name members).isSome
  | .str text => .ok (decide (name.toList <:+: text.toList))
  | .arr items => .ok (items.any fun item => match item with | .str s => s == name | _ => false)
  | _ => .error .typeError

/-- A value at a path of nested mappings.  A text that stands in the way raises `AttributeError` or
`TypeError`. -/
def assignOrRaise (path : Path) (value nested : Json) : Except Raised Json :=
  match assign path value nested with
  | some result => .ok result
  | none => .error .unexpected

/-- The alias of `logging.level`. -/
def aliasLogLevel (environ : List (String × String)) (nested : Json) : Except Raised Json :=
  match logLevel environ with
  | none => .ok nested
  | some level => do
      if ← contains "level" ((get? "logging" nested).getD (.obj [])) then return nested
      else assignOrRaise ["logging", "level"] (.str level) nested

/-- `_read_env`. -/
def readEnv (python : Python) (environ : List (String × String)) : Except Raised Json := do
  let nested ← (assignments python environ).foldlM
    (fun nested entry => assignOrRaise entry.1 entry.2 nested) (.obj [])
  aliasLogLevel environ nested

/-! ### Where a value comes from -/

/-- `section in data and field in data[section]`. -/
def holds (leaf : Leaf) (data : Json) : Except Raised Bool :=
  match get? leaf.sectionName data with
  | none => .ok false
  | some fields => contains leaf.fieldName fields

/-- The layers of a configuration. -/
inductive Origin where
  | file
  | env
  | cli
deriving DecidableEq

/-- How `sources` names a layer. -/
def sourceName (leaf : Leaf) : Option Origin → String
  | none => "default"
  | some .file => "file"
  | some .env =>
      let name := envVarFor leaf.dotted
      s!"env {name}"
  | some .cli => "cli"

/-- The source of one leaf. -/
def sourceOf (file env cli : Json) (leaf : Leaf) : Except Raised String := do
  if ← holds leaf cli then return sourceName leaf (some .cli)
  if ← holds leaf env then return sourceName leaf (some .env)
  if ← holds leaf file then return sourceName leaf (some .file)
  return sourceName leaf none

/-- `_track_sources`. -/
def trackSources (file env cli : Json) : Except Raised (List (String × String)) :=
  leafKeys.mapM fun leaf => (sourceOf file env cli leaf).map (Prod.mk leaf.dotted)

/-! ### Loading -/

section Loading

variable {σ : Type} (python : Python) (validation : Validation σ) (path : String)

/-- `LOOPBACK_HOSTS`. -/
def loopbackHosts : List String := ["127.0.0.1", "localhost", "::1"]

/-- `InsecureBindingError`. -/
def insecureBinding (message field host : String) : Raised :=
  .suite "INSECURE_BINDING" message [("field", .str field), ("host", .str host)]

/-- `_validate_security`. -/
def validateSecurity (server : ServerBinding) : Except Raised Unit :=
  if server.host = "0.0.0.0" ∧ server.allowLanExposure = false then
    .error (insecureBinding
      ("server.host is '0.0.0.0' (all interfaces) but server.allow_lan_exposure is false. " ++
        "Exposing the service beyond this machine must be a deliberate act: set " ++
        "server.allow_lan_exposure = true if that is intended.")
      "server.allow_lan_exposure" server.host)
  else if server.host ∉ loopbackHosts ∧ server.allowedHosts = [] then
    .error (insecureBinding
      ("server.host is not loopback but server.allowed_hosts is empty. A non-loopback bind " ++
        "must name every hostname it will accept, or DNS rebinding can reach it.")
      "server.allowed_hosts" server.host)
  else .ok ()

/-- `_translate_validation_error`. -/
def translateValidationError (merged : Members) : Except Raised Raised :=
  validation.translate path (validation.errors merged)

/-- `_validate`. -/
def validateMerged (merged : Members) : Except Raised σ := do
  refuseBothProviderForms merged path
  match validation.validate merged with
  | none => throw (← translateValidationError validation path merged)
  | some settings =>
      validateSecurity (validation.server settings)
      return settings

/-- `LoadedSettings`. -/
structure LoadedSettings (σ : Type) where
  settings : σ
  configPath : String
  configFileUsed : Bool
  sources : List (String × String)

/-- The members of a mapping. -/
def membersOf : Json → Members
  | .obj members => members
  | _ => []

/-- `_deep_merge(_deep_merge(file_data, env_data), cli_data)`. -/
def mergeLayers (file : Members) (env : Json) (cli : Members) : Members :=
  deepMerge (deepMerge file (membersOf env)) cli

/-- The chain from the mapping of the file on, which both loaders have. -/
def loadMapping (environ : List (String × String)) (cli : Members) (data : Members × Bool) :
    Except Raised (LoadedSettings σ) := do
  let env ← readEnv python environ
  let settings ← validateMerged validation path (mergeLayers data.1 env cli)
  let sources ← trackSources (.obj data.1) env (.obj cli)
  return ⟨settings, path, data.2, sources⟩

/-- `load_settings`, of the file at the path that is resolved. -/
def loadSettings (file : Option ByteArray) (environ : List (String × String)) (cli : Mapping) :
    Except Raised (LoadedSettings σ) := do
  let data ← readFile python path file
  loadMapping python validation path environ cli.members data

/-! ### The tolerant loader -/

/-- `known_leaves`. -/
def knownLeaves : List String := leafKeys.map Leaf.dotted

/-- The fields of a section that are known. -/
def cleanFields (sectionName : String) (fields : Members) : Members :=
  fields.filter fun field => decide ((Leaf.mk sectionName field.1).dotted ∈ knownLeaves)

/-- The loop over the sections of the file: what stays of one. -/
def cleanSection (entry : String × Json) : Option (String × Json) :=
  match sectionOf entry.1, entry.2 with
  | none, _ => none
  | some (_, none), .obj fields => some (entry.1, .obj (cleanFields entry.1 fields))
  | some _, fields => some (entry.1, fields)

/-- What one section reports. -/
def unknownKeys (entry : String × Json) : List String :=
  match sectionOf entry.1, entry.2 with
  | none, _ => [s!"unknown configuration key '{entry.1}'"]
  | some (_, none), .obj fields =>
      (fields.filterMap fun field =>
        let dotted := (Leaf.mk entry.1 field.1).dotted
        if dotted ∈ knownLeaves then none else some s!"unknown configuration key '{dotted}'")
  | some _, _ => []

/-- `load_settings_tolerant`. -/
def loadSettingsTolerant (file : Option ByteArray) (environ : List (String × String)) :
    Except Raised (LoadedSettings σ × List String) := do
  let data ← readFile python path file
  let problems := data.1.flatMap unknownKeys
  let loaded ← loadMapping python validation path environ [] (data.1.filterMap cleanSection, data.2)
  return (loaded, problems)

end Loading

end LoadCoach.Configuration.Layering

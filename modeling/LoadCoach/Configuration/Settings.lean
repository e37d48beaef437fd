import Mathlib.Algebra.Order.Field.Rat
import Mathlib.Data.List.Sort
import LoadCoach.Foundations.Digits
import LoadCoach.Foundations.Layers
import LoadCoach.Values

/-! # The settings of the providers

`config.py`: the models of `[provider]`, `[providers]` and `[providers.<name>]`, and
`load_settings`, which merges the configuration file with the environment and validates the result.

A table of the file is its list of members, read by name.  The other sections and the security
check are `sections`, a parameter: nothing here reads them.  What the validation library does is
a parameter too: how it reads a boolean, an integer or a number from a value of another type, and
the errors it finds. -/

namespace LoadCoach.Configuration

open Foundations
open Foundations.Json

/-! ### The errors -/

/-- One entry of `errors()`, with what is read of it. -/
structure FieldError where
  loc : List String
  /-- Its type is `extra_forbidden`. -/
  extraForbidden : Bool
  msg : String
  input : Json

/-- A `ConfigurationError`. -/
def configurationError (message : String) (details : Members) : Raised :=
  .suite "CONFIGURATION_ERROR" message details

/-- How an error is put into words. -/
structure Wording where
  /-- `difflib.get_close_matches(loc, known_keys, n=1)`. -/
  closeMatch : String → Option String
  /-- `repr`; `none` where it raises, of a value that nests too deep or an integer of too many
  digits in it. -/
  repr : Json → Option String
  repr_int : ∀ n : ℤ, (repr (.int n)).isSome = true ↔ n.natAbs < 10 ^ maxStrDigits

/-- What `_translate_validation_error` makes of one error. -/
def Wording.problem (wording : Wording) (error : FieldError) : Except Raised String :=
  let loc := ".".intercalate error.loc
  if error.extraForbidden then
    let hint := match wording.closeMatch loc with
      | some known => s!" (did you mean '{known}'?)"
      | none => ""
    .ok s!"unknown configuration key '{loc}'{hint}"
  else
    match wording.repr error.input with
    | some shown => .ok s!"{loc}: {error.msg} (got {shown})"
    | none => .error .unexpected

/-- `_translate_validation_error`: the error it returns, or what it raises itself. -/
def Wording.translate (wording : Wording) (path : String) (errors : List FieldError) :
    Except Raised Raised := do
  let problems ← errors.mapM wording.problem
  let listed := "; ".intercalate problems
  return configurationError s!"Configuration invalid ({path}): {listed}"
    [("file", .str path), ("problems", .arr (problems.map .str))]

/-- An error whose value can be written, where it is written. -/
def Wording.Words (wording : Wording) (error : FieldError) : Prop :=
  error.extraForbidden = false → (wording.repr error.input).isSome = true

/-- A wording that writes integers alone. -/
def integersOnly : Wording where
  closeMatch _ := none
  repr
    | .int n => if n.natAbs < 10 ^ maxStrDigits then some (toString n) else none
    | _ => some "..."
  repr_int n := by
    dsimp only
    split <;> simp [*]

section Wording

variable {wording : Wording} {path : String} {error : FieldError} {errors : List FieldError}
  {raised : Raised}

theorem Wording.exists_problem_iff :
    (∃ text, wording.problem error = .ok text) ↔ wording.Words error := by
  unfold Wording.problem Wording.Words
  cases error.extraForbidden with
  | true => simp
  | false => cases wording.repr error.input <;> simp

/-- Every error is put into words exactly where their values can be written. -/
theorem Wording.exists_translate_iff :
    (∃ raised, wording.translate path errors = .ok raised) ↔ ∀ e ∈ errors, wording.Words e := by
  simp only [← exists_problem_iff, ← exists_mapM_ok_iff]
  rw [translate]
  cases errors.mapM wording.problem <;> simp [bind, Except.bind, pure, Except.pure]

theorem Wording.translate_ok (h : wording.translate path errors = .ok raised) :
    ∃ message details, raised = configurationError message details := by
  obtain ⟨problems, -, h⟩ := bind_eq_ok.1 h
  exact ⟨_, _, (pure_eq_ok.1 h).symm⟩

theorem Wording.translate_error (h : wording.translate path errors = .error raised) :
    raised = .unexpected := by
  obtain h | ⟨problems, -, h⟩ := bind_eq_error.1 h
  · obtain ⟨e, -, he⟩ := mapM_eq_error_iff.1 h
    unfold problem at he
    split at he
    · cases he
    · split at he <;> cases he
      rfl
  · cases h

/-- An integer of too many digits where another is expected stops the report. -/
theorem Wording.translate_of_long {n : ℤ} (hmem : error ∈ errors)
    (hkind : error.extraForbidden = false) (hinput : error.input = .int n)
    (hlong : 10 ^ maxStrDigits ≤ n.natAbs) : wording.translate path errors = .error .unexpected := by
  cases htranslate : wording.translate path errors with
  | error raised => rw [translate_error htranslate]
  | ok raised =>
      have hwritten := exists_translate_iff.1 ⟨raised, htranslate⟩ error hmem hkind
      rw [hinput, wording.repr_int] at hwritten
      exact absurd hlong hwritten.not_ge

end Wording

/-! ### Reading a model -/

/-- What the validation library decides. -/
structure Pydantic extends Wording where
  bool : Json → Option Bool
  int : Json → Option ℤ
  float : Json → Option ℚ
  /-- `errors()[0]`: the path and the text of the first problem of a registration. -/
  firstError : Members → List String × String
  /-- `errors()` of a document. -/
  errors : Members → List FieldError

/-- A string field takes a string and nothing else. -/
def str : Json → Option String
  | .str s => some s
  | _ => none

/-- A field, its default where the table does not state it. -/
def field {α : Type} (read : Json → Option α) (key : String) (otherwise : Option α)
    (table : Members) : Option α :=
  match member? key table with
  | some value => read value
  | none => otherwise

/-- `extra = "forbid"`. -/
def forbidExtra (known : List String) (table : Members) : Option Unit :=
  if table.all fun m => m.1 ∈ known then some () else none

variable (P : Pydantic)

/-- `int | None` above a bound that the value may not reach. -/
def boundedInt (bound : ℤ) : Json → Option (Option ℤ)
  | .null => some none
  | value => (P.int value).bind fun n => if bound < n then some (some n) else none

/-- `float` with `gt = 0`. -/
def positiveFloat (value : Json) : Option ℚ :=
  (P.float value).bind fun x => if 0 < x then some x else none

/-! ### The models -/

/-- `[provider.fake]`: the model a `fake` provider declares. -/
structure FakeProviderSettings where
  sizeBytes : Option ℤ := none
  layers : Option ℤ := none
  kvHeads : Option ℤ := none
  headDim : Option ℤ := none

/-- `FakeProviderSettings.model_validate`. -/
def validateFake : Json → Option FakeProviderSettings
  | .obj table => do
      let sizeBytes ← field (boundedInt P 0) "size_bytes" (some none) table
      let layers ← field (boundedInt P 0) "layers" (some none) table
      let kvHeads ← field (boundedInt P 0) "kv_heads" (some none) table
      let headDim ← field (boundedInt P 0) "head_dim" (some none) table
      forbidExtra ["size_bytes", "layers", "kv_heads", "head_dim"] table
      return { sizeBytes, layers, kvHeads, headDim }
  | _ => none

/-- One `[providers.<name>]` block. -/
structure ProviderRegistrationSettings where
  kind : String
  enabled : Bool := true
  baseUrl : String := ""
  timeoutSeconds : ℚ := 300
  remote : Bool := false
  modelDirectory : String := ""
  stateDir : String := ""
  serverPath : String := "llama-server"
  memoryMaxBytes : Option ℤ := none
  memoryHighBytes : Option ℤ := none
  fake : FakeProviderSettings := {}

/-- A throttle point needs a cap, and lies below it. -/
def checkMemoryCap (maxBytes highBytes : Option ℤ) : Option Unit :=
  match highBytes, maxBytes with
  | none, _ => some ()
  | some _, none => none
  | some high, some max => if high ≥ max then none else some ()

/-- `ProviderRegistrationSettings.model_validate`. -/
def validateRegistration (table : Members) : Option ProviderRegistrationSettings := do
  let kind ← field str "kind" none table
  let enabled ← field P.bool "enabled" (some true) table
  let baseUrl ← field str "base_url" (some "") table
  let timeoutSeconds ← field (positiveFloat P) "timeout_seconds" (some 300) table
  let remote ← field P.bool "remote" (some false) table
  let modelDirectory ← field str "model_directory" (some "") table
  let stateDir ← field str "state_dir" (some "") table
  let serverPath ← field str "server_path" (some "llama-server") table
  let memoryMaxBytes ← field (boundedInt P 0) "memory_max_bytes" (some none) table
  let memoryHighBytes ← field (boundedInt P 0) "memory_high_bytes" (some none) table
  let fake ← field (validateFake P) "fake" (some {}) table
  forbidExtra ["kind", "enabled", "base_url", "timeout_seconds", "remote", "model_directory",
    "state_dir", "server_path", "memory_max_bytes", "memory_high_bytes", "fake"] table
  checkMemoryCap memoryMaxBytes memoryHighBytes
  return { kind, enabled, baseUrl, timeoutSeconds, remote, modelDirectory, stateDir, serverPath,
           memoryMaxBytes, memoryHighBytes, fake }

/-- `[provider]`: the one provider of a file that names none. -/
structure ProviderSettings where
  kind : String := "ollama"
  baseUrl : String := "http://127.0.0.1:11434"
  timeoutSeconds : ℚ := 300
  fake : FakeProviderSettings := {}

/-- The registration a singular block is. -/
def ProviderSettings.asRegistration (settings : ProviderSettings) :
    ProviderRegistrationSettings where
  kind := settings.kind
  baseUrl := settings.baseUrl
  timeoutSeconds := settings.timeoutSeconds
  remote := false
  fake := settings.fake

/-- `ProviderSettings.model_validate`. -/
def validateProvider : Json → Option ProviderSettings
  | .obj table => do
      let kind ← field str "kind" (some "ollama") table
      let baseUrl ← field str "base_url" (some "http://127.0.0.1:11434") table
      let timeoutSeconds ← field (positiveFloat P) "timeout_seconds" (some 300) table
      let fake ← field (validateFake P) "fake" (some {}) table
      forbidExtra ["kind", "base_url", "timeout_seconds", "fake"] table
      return { kind, baseUrl, timeoutSeconds, fake }
  | _ => none

/-- `[providers]`: the policy, and the registrations by name. -/
structure ProvidersSettings where
  allowRemote : Bool := false
  registrations : List (String × ProviderRegistrationSettings) := []

/-- The keys of `[providers]` that are fields of its model and not registrations. -/
def policyKeys : List String := ["allow_remote", "registrations"]

/-- One registration table; anything but a table is refused. -/
def validateEntry (table : Members) (name : String) :
    Option (String × ProviderRegistrationSettings) :=
  match member? name table with
  | some (.obj entry) => (validateRegistration P entry).map (name, ·)
  | _ => none

/-- A mapping of names to registration tables. -/
def validateEntries (table : Members) (names : List String) :
    Option (List (String × ProviderRegistrationSettings)) :=
  names.mapM (validateEntry P table)

/-- The field `registrations`. -/
def validateListed : Option Json → Option (List (String × ProviderRegistrationSettings))
  | none => some []
  | some (.obj entries) => validateEntries P entries (entries.map Prod.fst)
  | some _ => none

/-- The keys under `[providers]` that its model has no field for. -/
def extrasOf (table : Members) : List String :=
  (table.map Prod.fst).filter (· ∉ policyKeys)

/-- `ProvidersSettings.model_validate`: every extra key is lifted into `registrations`, over an
entry of its name. -/
def validateProviders : Json → Option ProvidersSettings
  | .obj table => do
      let allowRemote ← field P.bool "allow_remote" (some false) table
      let given ← validateListed P (member? "registrations" table)
      let lifted ← validateEntries P table (extrasOf table)
      return { allowRemote,
               registrations := given.filter (fun entry => entry.1 ∉ extrasOf table) ++ lifted }
  | _ => none

/-- The part of the configuration that says which providers there are. -/
structure Settings where
  provider : ProviderSettings
  providers : ProvidersSettings

/-! ### Loading -/

/-- What surrounds the configuration file. -/
structure Host extends Pydantic where
  /-- `_read_env`: the variables of this application, nested by section. -/
  environment : Members
  distinct : (environment.map Prod.fst).Nodup
  sectionDistinct : ((tableAt "providers" environment).map Prod.fst).Nodup
  /-- The other sections, and the security check. -/
  sections : Members → Except Raised Unit
  /-- `data_dir()`. -/
  dataDir : String
  /-- `Path.expanduser`, which raises for a user that there is not. -/
  expanduser : String → Except Raised String
  /-- `Path.mkdir(parents=True, exist_ok=True)`: what stands in the way raises. -/
  mkdir : String → Except Raised Unit
  /-- The digest of the bytes of a file. -/
  digest : Members → String
  /-- `str.isalnum`, of one character. -/
  isAlnum : Char → Bool

/-- The keys under which a table stands. -/
def tableNames (table : Members) : List String :=
  (table.map Prod.fst).filter fun key => isTable (member? key table)

/-- `_refuse_both_provider_forms`. -/
def refuseBothProviderForms (merged : Members) (path : String) : Except Raised Unit :=
  match member? "provider" merged, member? "providers" merged with
  | some _, some (.obj providers) =>
      let named := (tableNames providers).insertionSort (· ≤ ·)
      if named = [] then .ok ()
      else
        let listed := ", ".intercalate (named.map fun name => s!"[providers.{name}]")
        .error (configurationError
          (s!"{path} configures providers twice: the singular [provider] block and {listed}. " ++
            "The singular block is exactly one registration named after its kind (ADR-0077), so " ++
            "keeping both would run a registry that is not the one written here. Delete " ++
            "[provider] and keep the named blocks, or delete the named blocks and keep " ++
            "[provider].")
          [("field", .str "provider"), ("named_providers", .arr (named.map .str)),
           ("file", .str path)])
  | _, _ => .ok ()

/-- `Settings.model_validate`, of the two sections about providers. -/
def validateSettings (merged : Members) : Option Settings := do
  let provider ← field (validateProvider P) "provider" (some {}) merged
  let providers ← field (validateProviders P) "providers" (some {}) merged
  return { provider, providers }

variable (H : Host)

/-- `load_settings(config_path=…)`, of a file that may be missing. -/
def loadSettings (path : String) (file : Option Members) : Except Raised Settings := do
  let merged := deepMerge (file.getD []) H.environment
  refuseBothProviderForms merged path
  match validateSettings H.toPydantic merged with
  | none => throw (← H.translate path (H.errors merged))
  | some settings =>
      H.sections merged
      return settings

end LoadCoach.Configuration

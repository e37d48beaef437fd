import LoadCoach.Configuration.Settings
import LoadCoach.Foundations.Exceptions
import LoadCoach.Foundations.Text

/-! # The providers a configuration registers

`infrastructure/providers/factory.py`: `build_registrations`, the one place a provider is
constructed.  A constructed handle is the arguments its constructor was given; no constructor opens
a connection.

`Buildable` is what one registration needs for its provider to be constructed
(`buildOne_ok_iff`), and `buildRegistrations_ok_iff` what the whole configuration needs. -/

namespace LoadCoach.Configuration

open Foundations

/-! ### Text -/

/-- `str.removesuffix`. -/
def removeSuffix (suffix s : String) : String :=
  if suffix.toList.isSuffixOf s.toList then
    String.ofList (s.toList.take (s.length - suffix.length))
  else s

/-! ### One provider -/

/-- The model a `fake` provider declares; its own small one unless it is overridden. -/
structure FakeModel where
  name : String := "fake-model:tiny-q8_0"
  parameterCount : ℤ := 45000000
  activeParameterCount : ℤ := 45000000
  sizeBytes : ℤ := 47000000
  embeddingDim : ℤ := 256
  layers : ℤ := 4
  attentionHeads : ℤ := 4
  kvHeads : ℤ := 2
  headDim : ℤ := 64
  vocabSize : ℤ := 32000

/-- The overrides of a `fake` provider that are not set, by name. -/
def FakeProviderSettings.missing (overrides : FakeProviderSettings) : List String :=
  (["size_bytes", "layers", "kv_heads", "head_dim"].zip
    [overrides.sizeBytes, overrides.layers, overrides.kvHeads, overrides.headDim]).filterMap
    fun field => if field.2.isNone then some field.1 else none

/-- `_fake_model`: all four overrides or none. -/
def fakeModel (overrides : FakeProviderSettings) : Except Raised FakeModel :=
  match overrides.sizeBytes, overrides.layers, overrides.kvHeads, overrides.headDim with
  | none, none, none, none => .ok {}
  | some sizeBytes, some layers, some kvHeads, some headDim =>
      .ok { sizeBytes, layers, kvHeads, headDim }
  | _, _, _, _ =>
      let listed := ", ".intercalate (overrides.missing.map fun name => s!"'{name}'")
      .error (configurationError
        ("provider.fake requires size_bytes, layers, kv_heads and head_dim together: the VRAM " ++
          "estimate's KV term dominates size_bytes at any interesting context length, so a " ++
          "partial override cannot reliably provoke insufficient_vram; " ++
          s!"missing [{listed}].")
        [("field", .str "provider.fake"), ("missing", .arr (overrides.missing.map .str))])

/-- A provider handle. -/
inductive Provider where
  | ollama (baseUrl : String) (timeout : ℚ)
  | llamacpp (modelDirectory stateDir serverPath : String) (timeout : ℚ)
      (memoryMaxBytes memoryHighBytes : Option ℤ)
  | fake (model : FakeModel)

variable (H : Host)

/-- Where a registration keeps the state of its servers. -/
def statePath (settings : ProviderRegistrationSettings) (name : String) : Except Raised String :=
  let state := strip settings.stateDir
  let scope := if name = "" then settings.kind else name
  if state = "" then .ok s!"{H.dataDir}/llamacpp/{scope}" else H.expanduser state

/-- `_build_llamacpp`. -/
def buildLlamacpp (settings : ProviderRegistrationSettings) (field name : String) :
    Except Raised Provider := do
  let directory := strip settings.modelDirectory
  if directory = "" then
    let key := removeSuffix ".kind" field
    throw (configurationError
      (s!"{key}.model_directory is required for kind='llamacpp': the server is launched over a " ++
        "directory of GGUF weights, and there is no default worth guessing.")
      [("field", .str s!"{key}.model_directory")])
  let state ← statePath H settings name
  H.mkdir state
  let weights ← H.expanduser directory
  return .llamacpp weights state settings.serverPath settings.timeoutSeconds
    settings.memoryMaxBytes settings.memoryHighBytes

/-- `_build_one`. -/
def buildOne (settings : ProviderRegistrationSettings) (field name : String) :
    Except Raised Provider :=
  if settings.kind = "llamacpp" then buildLlamacpp H settings field name
  else if settings.kind = "ollama" then .ok (.ollama settings.baseUrl settings.timeoutSeconds)
  else if settings.kind = "fake" then (fakeModel settings.fake).map .fake
  else
    .error (configurationError
      (s!"{field}='{settings.kind}' is not supported; expected one of " ++
        "['fake', 'llamacpp', 'ollama'].")
      [("field", .str field), ("value", .str settings.kind)])

/-! ### Every provider -/

/-- One registered provider. -/
structure ProviderRegistration where
  name : String
  kind : String
  isRemote : Bool
  provider : Provider

/-- The registration of one named block. -/
def buildNamed (entry : String × ProviderRegistrationSettings) :
    Except Raised ProviderRegistration :=
  (buildOne H entry.2 s!"providers.{entry.1}.kind" entry.1).map fun provider =>
    { name := entry.1, kind := entry.2.kind, isRemote := entry.2.remote, provider }

/-- `build_registrations`, before adapters are offered. -/
def buildRegistrations (settings : Settings) : Except Raised (List ProviderRegistration) :=
  let named := settings.providers.registrations
  if named = [] then
    let singular := settings.provider
    (buildOne H singular.asRegistration "provider.kind" singular.kind).map fun provider =>
      [{ name := singular.kind, kind := singular.kind, isRemote := false, provider }]
  else
    let enabled := named.filter fun entry => entry.2.enabled
    if enabled = [] then
      let names := (named.map Prod.fst).insertionSort (· ≤ ·)
      let listed := ", ".intercalate names
      .error (configurationError
        ("every [providers.<name>] block sets enabled = false, so this configuration registers " ++
          "no provider at all and could serve nothing. Re-enable at least one of " ++
          s!"{listed}.")
        [("field", .str "providers"), ("disabled", .arr (names.map .str))])
    else (enabled.insertionSort fun a b => a.1 ≤ b.1).mapM (buildNamed H)

/-! ### What a configuration needs to be built -/

/-- All four overrides are set, or none is. -/
def FakeProviderSettings.Whole (overrides : FakeProviderSettings) : Prop :=
  overrides.missing = [] ∨ overrides.missing = ["size_bytes", "layers", "kv_heads", "head_dim"]

/-- A directory of weights is named, its user and that of the state directory are known, and the
state directory is there or can be made. -/
structure Launchable (name : String) (settings : ProviderRegistrationSettings) : Prop where
  named : strip settings.modelDirectory ≠ ""
  weights : (H.expanduser (strip settings.modelDirectory)).isOk = true
  state : ∃ path, statePath H settings name = .ok path ∧ H.mkdir path = .ok ()

/-- What a registration needs for its provider to be constructed: a supported kind, with directories
that can be used where the kind serves one, and overrides that are whole. -/
def Buildable (name : String) (settings : ProviderRegistrationSettings) : Prop :=
  settings.kind = "ollama" ∨
    (settings.kind = "llamacpp" ∧ Launchable H name settings) ∨
    (settings.kind = "fake" ∧ settings.fake.Whole)

theorem fakeModel_ok_iff (overrides : FakeProviderSettings) :
    (∃ model, fakeModel overrides = .ok model) ↔ overrides.Whole := by
  obtain ⟨sizeBytes, layers, kvHeads, headDim⟩ := overrides
  cases sizeBytes <;> cases layers <;> cases kvHeads <;> cases headDim <;>
    simp [fakeModel, FakeProviderSettings.Whole, FakeProviderSettings.missing]

theorem buildLlamacpp_ok_iff (settings : ProviderRegistrationSettings) (field name : String) :
    (∃ provider, buildLlamacpp H settings field name = .ok provider) ↔
      Launchable H name settings := by
  unfold buildLlamacpp
  constructor
  · rintro ⟨provider, h⟩
    dsimp only at h
    split at h
    · cases h
    · rename_i hnamed
      obtain ⟨state, hstate, h⟩ := bind_eq_ok.1 h
      obtain ⟨⟨⟩, hmade, h⟩ := bind_eq_ok.1 h
      obtain ⟨weights, hweights, -⟩ := bind_eq_ok.1 h
      exact ⟨hnamed, by rw [hweights]; rfl, state, hstate, hmade⟩
  · rintro ⟨hnamed, hweights, state, hstate, hmade⟩
    cases hexpand : H.expanduser (strip settings.modelDirectory) with
    | error e => simp [hexpand, Except.isOk, Except.toBool] at hweights
    | ok weights =>
        dsimp only
        rw [if_neg hnamed, hstate]
        exact ⟨_, by rw [ok_bind, hmade, ok_bind, hexpand]; rfl⟩

/-- **One provider is constructed exactly for a buildable registration.** -/
theorem buildOne_ok_iff (settings : ProviderRegistrationSettings) (field name : String) :
    (∃ provider, buildOne H settings field name = .ok provider) ↔ Buildable H name settings := by
  rw [buildOne]
  split_ifs with hllama hollama hfake
  · rw [buildLlamacpp_ok_iff]
    simp [Buildable, hllama]
  · simp [Buildable, hollama]
  · simp only [map_eq_ok]
    rw [← exists_comm]
    simp only [exists_and_left, exists_eq', and_true, fakeModel_ok_iff]
    simp [Buildable, hfake]
  · simp [Buildable, hllama, hollama, hfake]

theorem buildNamed_ok_iff (entry : String × ProviderRegistrationSettings) :
    (∃ registration, buildNamed H entry = .ok registration) ↔ Buildable H entry.1 entry.2 := by
  rw [← buildOne_ok_iff H entry.2 s!"providers.{entry.1}.kind" entry.1]
  simp only [buildNamed, map_eq_ok]
  rw [← exists_comm]
  simp

/-- **What a configuration needs to be built**: an enabled registration among those it names, each
enabled one buildable; where it names none, a singular block that is. -/
theorem buildRegistrations_ok_iff (settings : Settings) :
    (∃ built, buildRegistrations H settings = .ok built) ↔
      if settings.providers.registrations = [] then
        Buildable H settings.provider.kind settings.provider.asRegistration
      else (∃ entry ∈ settings.providers.registrations, entry.2.enabled = true) ∧
        ∀ entry ∈ settings.providers.registrations, entry.2.enabled = true →
          Buildable H entry.1 entry.2 := by
  simp only [buildRegistrations]
  by_cases hnamed : settings.providers.registrations = []
  · rw [if_pos hnamed, if_pos hnamed, ← buildOne_ok_iff H _ "provider.kind" settings.provider.kind]
    simp only [map_eq_ok]
    rw [← exists_comm]
    simp
  rw [if_neg hnamed, if_neg hnamed]
  by_cases henabled : (settings.providers.registrations.filter fun entry => entry.2.enabled) = []
  · have hnone : ¬ ∃ entry ∈ settings.providers.registrations, entry.2.enabled = true := by
      rintro ⟨entry, hentry, hon⟩
      exact List.filter_eq_nil_iff.1 henabled entry hentry hon
    rw [if_pos henabled]
    exact iff_of_false (fun ⟨_, hbuilt⟩ => nomatch hbuilt) fun h => hnone h.1
  · have hsome : ∃ entry ∈ settings.providers.registrations, entry.2.enabled = true := by
      obtain ⟨entry, hentry⟩ := List.exists_mem_of_ne_nil _ henabled
      exact ⟨entry, List.mem_of_mem_filter hentry, (List.mem_filter.1 hentry).2⟩
    rw [if_neg henabled, exists_mapM_ok_iff]
    simp only [List.mem_insertionSort, List.mem_filter, buildNamed_ok_iff, and_imp, hsome,
      true_and]

end LoadCoach.Configuration

import LoadCoach.Configuration.Registrations

/-! # The registrations of a loaded configuration

What `load_settings` takes for the registration of a name is decided by two keys of the file's
`[providers]` table, the name itself and `registrations`, under the environment: `described` says
how, and `loaded_of_loadSettings` that a loaded configuration holds the described registrations and
no others.

`Startable` is a file the application starts with, `Serving` one that also names a registration
and enables it. -/

namespace LoadCoach.Configuration

open Foundations
open Foundations.Json

/-! ### Names -/

theorem member?_ne_none_iff {name : String} {table : Members} :
    member? name table ≠ none ↔ name ∈ table.map Prod.fst := by
  induction table with
  | nil => simp [member?]
  | cons m table ih =>
      by_cases hm : m.1 = name
      · simp [member?, hm]
      · have hskip : member? name (m :: table) = member? name table := by simp [member?, hm]
        rw [hskip, ih]
        simp [Ne.symm hm]

theorem mem_tableNames {name : String} {table : Members} :
    name ∈ tableNames table ↔ ∃ entry, member? name table = some (.obj entry) := by
  rw [tableNames, List.mem_filter, ← member?_ne_none_iff, isTable_eq_true]
  constructor
  · exact fun h => h.2
  · rintro ⟨entry, hentry⟩
    exact ⟨by simp [hentry], entry, hentry⟩

theorem mem_extrasOf {name : String} {table : Members} :
    name ∈ extrasOf table ↔ member? name table ≠ none ∧ name ∉ policyKeys := by
  simp [extrasOf, member?_ne_none_iff]

/-! ### The entries of `[providers]` -/

variable {P : Pydantic}

theorem validateEntry_eq_some {table : Members} {name : String}
    {entry : String × ProviderRegistrationSettings} :
    validateEntry P table name = some entry ↔
      entry.1 = name ∧ ∃ block, member? name table = some (.obj block) ∧
        validateRegistration P block = some entry.2 := by
  rw [validateEntry]
  split
  · rename_i block hblock
    obtain ⟨key, settings⟩ := entry
    simp only [Option.map_eq_some_iff, Prod.mk.injEq, hblock, Option.some.injEq, Json.obj.injEq]
    constructor
    · rintro ⟨_, hvalid, rfl, rfl⟩
      exact ⟨rfl, block, rfl, hvalid⟩
    · rintro ⟨rfl, _, rfl, hvalid⟩
      exact ⟨settings, hvalid, rfl, rfl⟩
  · rename_i hnot
    refine iff_of_false (by simp) ?_
    rintro ⟨-, block, hblock, -⟩
    exact hnot block hblock

theorem validateEntries_eq_some {table : Members} {names : List String}
    {entries : List (String × ProviderRegistrationSettings)}
    (h : validateEntries P table names = some entries) :
    (∀ name ∈ names, ∃ entry, validateEntry P table name = some entry) ∧
      ∀ entry, entry ∈ entries ↔ entry.1 ∈ names ∧ validateEntry P table entry.1 = some entry := by
  have hmapped : names.map (validateEntry P table) = entries.map some := mapM_eq_some.1 h
  have hback : ∀ entry ∈ entries, ∃ name ∈ names, validateEntry P table name = some entry := by
    intro entry hentry
    have : some entry ∈ names.map (validateEntry P table) := by
      rw [hmapped]
      exact List.mem_map_of_mem hentry
    exact List.mem_map.1 this
  have hforth : ∀ name ∈ names, ∃ entry ∈ entries, validateEntry P table name = some entry := by
    intro name hname
    have : validateEntry P table name ∈ entries.map some := by
      rw [← hmapped]
      exact List.mem_map_of_mem hname
    obtain ⟨entry, hentry, heq⟩ := List.mem_map.1 this
    exact ⟨entry, hentry, heq.symm⟩
  refine ⟨fun name hname => (hforth name hname).imp fun _ h => h.2, fun entry => ⟨?_, ?_⟩⟩
  · intro hentry
    obtain ⟨name, hname, hvalid⟩ := hback entry hentry
    obtain rfl := (validateEntry_eq_some.1 hvalid).1
    exact ⟨hname, hvalid⟩
  · rintro ⟨hname, hvalid⟩
    obtain ⟨entry', hentry', heq⟩ := hforth entry.1 hname
    obtain rfl : entry = entry' := Option.some.inj (hvalid.symm.trans heq)
    exact hentry'

/-! ### What a loaded configuration holds -/

/-- The value under a name in the mapping `registrations`. -/
def nestedAt (name : String) : Option Json → Option Json
  | some (.obj entries) => member? name entries
  | _ => none

/-- The registration table of a name: its own key of `[providers]`, else its entry in
`registrations`. -/
def blockOf (own listed : Option Json) (name : String) : Option Json :=
  if name ∈ policyKeys then nestedAt name listed else own.or (nestedAt name listed)

/-- The registration that a validated table is. -/
def registrationOf (P : Pydantic) : Option Json → Option ProviderRegistrationSettings
  | some (.obj block) => validateRegistration P block
  | _ => none

theorem registrationOf_eq_some {value : Option Json} {settings : ProviderRegistrationSettings} :
    registrationOf P value = some settings ↔
      ∃ block, value = some (.obj block) ∧ validateRegistration P block = some settings := by
  cases value with
  | none => simp [registrationOf]
  | some value => cases value <;> simp [registrationOf]

theorem mem_validateListed {listed : Option Json}
    {entries : List (String × ProviderRegistrationSettings)}
    (h : validateListed P listed = some entries) (entry : String × ProviderRegistrationSettings) :
    entry ∈ entries ↔ registrationOf P (nestedAt entry.1 listed) = some entry.2 := by
  match listed with
  | none =>
      obtain rfl := Option.some.inj h
      simp [nestedAt, registrationOf]
  | some (.obj table) =>
      rw [(validateEntries_eq_some h).2, ← member?_ne_none_iff, validateEntry_eq_some,
        registrationOf_eq_some, nestedAt]
      constructor
      · exact fun hentry => hentry.2.2
      · rintro ⟨block, hblock, hvalid⟩
        exact ⟨by simp [hblock], rfl, block, hblock, hvalid⟩

theorem isTable_of_validateListed {listed : Json}
    {entries : List (String × ProviderRegistrationSettings)}
    (h : validateListed P (some listed) = some entries) : isTable (some listed) = true := by
  cases listed <;> simp_all [validateListed, isTable]

/-- **A validated `[providers]` table**: every extra key is a valid registration, and the
registrations are the blocks under the extra keys and, behind them, those of `registrations`. -/
theorem validateProviders_eq_some {table : Members} {settings : ProvidersSettings}
    (h : validateProviders P (.obj table) = some settings) :
    (∀ name ∈ extrasOf table, ∃ r, registrationOf P (member? name table) = some r) ∧
      (∀ listed, member? "registrations" table = some listed → isTable (some listed) = true) ∧
      ∀ entry, entry ∈ settings.registrations ↔
        registrationOf P (blockOf (member? entry.1 table) (member? "registrations" table) entry.1) =
          some entry.2 := by
  simp only [validateProviders, Option.bind_eq_bind, Option.bind_eq_some_iff] at h
  obtain ⟨allowRemote, -, given, hgiven, lifted, hlifted, hsettings⟩ := h
  obtain rfl := Option.some.inj hsettings
  obtain ⟨hvalid, hmem⟩ := validateEntries_eq_some hlifted
  refine ⟨?_, ?_, ?_⟩
  · intro name hname
    obtain ⟨entry, hentry⟩ := hvalid name hname
    exact ⟨entry.2, registrationOf_eq_some.2 (validateEntry_eq_some.1 hentry).2⟩
  · intro listed hlisted
    rw [hlisted] at hgiven
    exact isTable_of_validateListed hgiven
  · intro entry
    rw [List.mem_append, List.mem_filter, mem_validateListed hgiven, hmem, blockOf]
    by_cases hextra : entry.1 ∈ extrasOf table
    · obtain ⟨hstated, hname⟩ := mem_extrasOf.1 hextra
      obtain ⟨value, hvalue⟩ := Option.ne_none_iff_exists'.1 hstated
      simp only [hextra, not_true_eq_false, decide_false, Bool.false_eq_true, and_false, true_and,
        false_or, if_neg hname, hvalue, Option.some_or]
      rw [← hvalue, registrationOf_eq_some, validateEntry_eq_some]
      simp
    · have hblock : (if entry.1 ∈ policyKeys then nestedAt entry.1 (member? "registrations" table)
          else (member? entry.1 table).or (nestedAt entry.1 (member? "registrations" table))) =
          nestedAt entry.1 (member? "registrations" table) := by
        by_cases hname : entry.1 ∈ policyKeys
        · rw [if_pos hname]
        · have hnone : member? entry.1 table = none := by
            by_contra hstated
            exact hextra (mem_extrasOf.2 ⟨hstated, hname⟩)
          rw [if_neg hname, hnone, Option.none_or]
      rw [hblock]
      simp [hextra]

/-! ### Loading -/

variable {H : Host} {path : String} {file : Option Members} {settings : Settings}

/-- The `[providers]` table of a file. -/
def providersOf (file : Option Members) : Members := tableAt "providers" (file.getD [])

/-- The registration of a name: what the environment makes of its table in the file and of the
file's `registrations`. -/
def described (H : Host) (name : String) (own listed : Option Json) :
    Option ProviderRegistrationSettings :=
  let environment := tableAt "providers" H.environment
  registrationOf H.toPydantic
    (blockOf (layered environment name own) (layered environment "registrations" listed) name)

theorem refuseBothProviderForms_eq_ok {merged : Members} :
    refuseBothProviderForms merged path = .ok () ↔
      member? "provider" merged = none ∨ tableNames (tableAt "providers" merged) = [] := by
  rw [refuseBothProviderForms, tableAt]
  split
  · rename_i hprovider hproviders
    have hempty : ∀ l : List String, l.insertionSort (· ≤ ·) = [] ↔ l = [] := fun l =>
      ⟨fun h => by simpa [h] using (l.perm_insertionSort (· ≤ ·)).symm, fun h => by simp [h]⟩
    simp [hprovider, hproviders, hempty]
  · rename_i hnot
    refine iff_of_true rfl ?_
    cases hprovider : member? "provider" merged with
    | none => exact .inl rfl
    | some provider =>
        refine .inr ?_
        split
        · rename_i hproviders
          exact absurd hproviders (hnot provider _ hprovider)
        · rfl

theorem loadSettings_eq_ok :
    loadSettings H path file = .ok settings ↔
      refuseBothProviderForms (deepMerge (file.getD []) H.environment) path = .ok () ∧
        validateSettings H.toPydantic (deepMerge (file.getD []) H.environment) = some settings ∧
        H.sections (deepMerge (file.getD []) H.environment) = .ok () := by
  rw [loadSettings]
  constructor
  · intro h
    obtain ⟨⟨⟩, hforms, hrest⟩ := bind_eq_ok.1 h
    refine ⟨hforms, ?_⟩
    split at hrest
    · obtain ⟨_, -, hrest⟩ := bind_eq_ok.1 hrest
      cases hrest
    · rename_i loaded hvalid
      obtain ⟨⟨⟩, hsections, hloaded⟩ := bind_eq_ok.1 hrest
      obtain rfl := pure_eq_ok.1 hloaded
      exact ⟨hvalid, hsections⟩
  · rintro ⟨hforms, hvalid, hsections⟩
    simp only [hforms, hvalid, hsections, ok_bind]
    rfl

theorem loadSettings_of_path {path' : String} (h : loadSettings H path file = .ok settings) :
    loadSettings H path' file = .ok settings := by
  rw [loadSettings_eq_ok, refuseBothProviderForms_eq_ok] at h ⊢
  exact h

/-- What file and environment say under a key of `[providers]`. -/
def under (H : Host) (file : Option Members) (name : String) : Option Json :=
  layered (tableAt "providers" H.environment) name (member? name (providersOf file))

/-- What file and environment say of the singular block. -/
def singularOf (H : Host) (file : Option Members) : Option Json :=
  layered H.environment "provider" (member? "provider" (file.getD []))

/-- What is known of a loaded configuration. -/
structure Loaded (H : Host) (file : Option Members) (settings : Settings) : Prop where
  oneForm : singularOf H file = none ∨ ∀ name, isTable (under H file name) = false
  singular : match singularOf H file with
    | none => settings.provider = {}
    | some value => validateProvider H.toPydantic value = some settings.provider
  extra : ∀ name ∉ policyKeys, under H file name ≠ none →
    ∃ r, registrationOf H.toPydantic (under H file name) = some r
  listed : under H file "registrations" ≠ none → isTable (under H file "registrations") = true
  mem : ∀ entry, entry ∈ settings.providers.registrations ↔
    described H entry.1 (member? entry.1 (providersOf file))
      (member? "registrations" (providersOf file)) = some entry.2

theorem table_of_field {merged : Members} {providers : ProvidersSettings} {value : Json}
    (h : field (validateProviders P) "providers" (some {}) merged = some providers)
    (hvalue : member? "providers" merged = some value) :
    ∃ table, value = .obj table ∧ validateProviders P (.obj table) = some providers := by
  simp only [field, hvalue] at h
  cases value with
  | obj table => exact ⟨table, rfl, h⟩
  | _ => simp [validateProviders] at h

theorem entries_of_field {merged : Members} {providers : ProvidersSettings}
    (h : field (validateProviders P) "providers" (some {}) merged = some providers) :
    (∀ name ∉ policyKeys, member? name (tableAt "providers" merged) ≠ none →
        ∃ r, registrationOf P (member? name (tableAt "providers" merged)) = some r) ∧
      (member? "registrations" (tableAt "providers" merged) ≠ none →
        isTable (member? "registrations" (tableAt "providers" merged)) = true) ∧
      ∀ entry, entry ∈ providers.registrations ↔
        registrationOf P (blockOf (member? entry.1 (tableAt "providers" merged))
          (member? "registrations" (tableAt "providers" merged)) entry.1) = some entry.2 := by
  cases hstated : member? "providers" merged with
  | none =>
      have hnone : tableAt "providers" merged = [] := by simp [tableAt, hstated]
      simp only [field, hstated] at h
      obtain rfl := Option.some.inj h
      simp [hnone, member?, blockOf, nestedAt, registrationOf]
  | some value =>
      obtain ⟨table, rfl, hvalid⟩ := table_of_field h hstated
      obtain ⟨hextra, hlisted, hmem⟩ := validateProviders_eq_some hvalid
      rw [tableAt_of_member? hstated]
      refine ⟨fun name hname hsome => hextra name (mem_extrasOf.2 ⟨hsome, hname⟩), ?_, hmem⟩
      intro hsome
      obtain ⟨listed, heq⟩ := Option.ne_none_iff_exists'.1 hsome
      rw [heq]
      exact hlisted listed heq

/-- **What is known of a configuration that loads.** -/
theorem loaded_of_loadSettings (h : loadSettings H path file = .ok settings) :
    Loaded H file settings := by
  obtain ⟨hforms, hvalid, -⟩ := loadSettings_eq_ok.1 h
  rw [refuseBothProviderForms_eq_ok] at hforms
  simp only [validateSettings, Option.bind_eq_bind, Option.bind_eq_some_iff] at hvalid
  obtain ⟨provider, hprovider, providers, hproviders, hsettings⟩ := hvalid
  obtain rfl := Option.some.inj hsettings
  have hsingular := member?_deepMerge H.distinct (file.getD []) "provider"
  have hmerged := member?_deepMerge H.distinct (file.getD []) "providers"
  -- a scalar in the environment would stand in the merged document, which is refused
  have hscalar : member? "providers" H.environment ≠ none →
      isTable (member? "providers" H.environment) = true := by
    intro hstated
    obtain ⟨value, hvalue⟩ := Option.ne_none_iff_exists'.1 hstated
    rw [layered_of_some hvalue] at hmerged
    obtain ⟨table, heq, -⟩ := table_of_field hproviders hmerged
    rw [hvalue, ← isTable_layOver (member? "providers" (file.getD [])), heq]
    rfl
  have hunder : ∀ name, member? name (tableAt "providers"
      (deepMerge (file.getD []) H.environment)) = under H file name := fun name =>
    member?_tableAt_deepMerge H.distinct H.sectionDistinct hscalar _ name
  obtain ⟨hextra, hlisted, hmem⟩ := entries_of_field hproviders
  simp only [hunder] at hextra hlisted hmem
  refine ⟨?_, ?_, hextra, hlisted, hmem⟩
  · rw [hsingular] at hforms
    refine hforms.imp_right fun hnames name => ?_
    rw [← hunder, Bool.eq_false_iff]
    intro hname
    have hmem := mem_tableNames.2 (isTable_eq_true.1 hname)
    rw [hnames] at hmem
    exact absurd hmem List.not_mem_nil
  · have hfield := hprovider
    rw [field, hsingular] at hfield
    rw [singularOf]
    split
    · rename_i hnone
      rw [hnone] at hfield
      exact (Option.some.inj hfield).symm
    · rename_i value hvalue
      rw [hvalue] at hfield
      exact hfield

end LoadCoach.Configuration

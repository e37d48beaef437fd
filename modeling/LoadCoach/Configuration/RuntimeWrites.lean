import LoadCoach.Configuration.Runtime

/-! # Changing the settings of a running server

`services/settings.py`: `write_runtime_settings` checks the caller, then each key, then each value,
and stores all of them or none; `read_runtime_settings` goes around a row that `coerce` refuses.

A bound is checked by what lies outside it, which NaN does not, and `int` and `float` raise for
some numbers what no caller catches.  `keepsInBounds_iff`: changes are stored whole or refused and
the values read, before the changes and after them, are in bounds or the configured ones, exactly
where the stored rows are sound, the changes can be converted and none stores NaN. -/

namespace LoadCoach.Configuration

open Foundations
open Foundations.Json

/-! ### The caller -/

/-- The ranks of `SCOPES`. -/
def scopeRank (scope : String) : Option ℤ :=
  if scope = "read" then some 0
  else if scope = "write" then some 1
  else if scope = "admin" then some 2
  else none

/-- `Principal`: its name and its scope. -/
structure Principal where
  name : String
  scope : String

/-- `grants`. -/
def Principal.grants (principal : Principal) (required : String) : Bool :=
  decide ((scopeRank required).getD 99 ≤ (scopeRank principal.scope).getD (-1))

/-- `authorize`, with the `repr` of a text. -/
def authorize (repr : String → String) (principal : Option Principal) (required : String) :
    Except Raised Unit :=
  if scopeRank required = none then .error .unexpected
  else
    match principal with
    | none => .ok ()
    | some caller =>
        if caller.grants required then .ok ()
        else
          let name := repr caller.name
          let held := repr caller.scope
          let needed := repr required
          .error (.suite "FORBIDDEN"
            (s!"{name} holds the {held} scope; {needed} is required. " ++
              "Scopes are cumulative: admin contains write contains read.")
            [("required_scope", .str required), ("token_scope", .str caller.scope),
              ("principal", .str caller.name)])

/-! ### Writing -/

/-- `CONFIG_ONLY_SECURITY_KEYS`. -/
def configOnlySecurityKeys : List String :=
  ["server.host", "server.port", "server.allow_lan_exposure", "server.allowed_hosts",
    "server.trusted_proxies", "providers.allow_remote", "provider.base_url", "provider.kind",
    "storage.database_url", "storage.retain_content", "evidence.allowed_source_hosts",
    "evidence.freeweight_url", "evidence.freeweight_api_key_env",
    "evidence.freeweight_api_key_file", "logging.include_content"]

/-- `SettingConfigOnly` about a key. -/
def settingConfigOnly (key : String) : Raised :=
  .suite "FORBIDDEN"
    (s!"{key} is security-relevant and can only be set in config.toml or the " ++
      "environment (api.md §9).")
    [("key", .str key)]

/-- `ValidationError` about a key that is not in the registry. -/
def notRuntimeChangeable (key : String) : Raised :=
  let known := (runtimeSettings.map RuntimeSetting.key).mergeSort fun a b => decide (a ≤ b)
  .suite "VALIDATION_ERROR" s!"{key} is not runtime-changeable."
    [("fields", .arr [.obj [("path", .str key),
        ("problem", .str "not a runtime-changeable setting")]]),
      ("runtime_changeable", .arr (known.map .str))]

/-- `RUNTIME_SETTINGS.get`. -/
def settingOf (key : String) : Option RuntimeSetting :=
  runtimeSettings.find? fun setting => setting.key == key

/-- A round of the loop over the keys. -/
def checkKey (key : String) : Except Raised Unit :=
  if key ∈ configOnlySecurityKeys then .error (settingConfigOnly key)
  else if (settingOf key).isSome then .ok ()
  else .error (notRuntimeChangeable key)

/-- `RUNTIME_SETTINGS[key].coerce(value)`. -/
def coerceFor (key : String) (value : Json) : Except Raised Json :=
  match settingOf key with
  | some setting => setting.coerce value
  | none => .error (.keyError key)

/-- What is checked before anything is stored: `validated`. -/
def validateChanges (repr : String → String) (principal : Option Principal)
    (changes : SettingTable) : Except Raised (List (String × Json)) := do
  authorize repr principal "admin"
  forM changes.entries fun change => checkKey change.1
  changes.entries.mapM fun change => (coerceFor change.1 change.2).map (Prod.mk change.1)

/-- The loop of `repository.set`. -/
def storeSettings (validated : List (String × Json)) (stored : SettingTable) : SettingTable :=
  validated.foldl (fun table row => table.upsert row.1 fun _ => row.2) stored

/-- `write_runtime_settings`: what it answers, and the table it leaves. -/
def writeRuntimeSettings (repr : String → String) (environ : String → Option String)
    (settings : ConfiguredValues) (principal : Option Principal) (changes stored : SettingTable) :
    Except Raised Members × SettingTable :=
  match validateChanges repr principal changes with
  | .error error => (.error error, stored)
  | .ok validated =>
      let table := storeSettings validated stored
      (readRuntimeSettings environ settings table, table)

/-! ### Bounds -/

/-- `x ≥ bound`. -/
def isAtLeast (x : JsonFloat) (bound : ℚ) : Bool :=
  x == .infinity || (rationalOf x).any (bound ≤ ·)

/-- `x ≤ bound`. -/
def isAtMost (x : JsonFloat) (bound : ℚ) : Bool :=
  x == .negInfinity || (rationalOf x).any (· ≤ bound)

theorem isAtLeast_iff {x : JsonFloat} {bound : ℚ} :
    isAtLeast x bound = true ↔ x ≠ .nan ∧ isBelow x bound = false := by
  cases x <;> simp [isAtLeast, isBelow, rationalOf]

theorem isAtMost_iff {x : JsonFloat} {bound : ℚ} :
    isAtMost x bound = true ↔ x ≠ .nan ∧ isAbove x bound = false := by
  cases x <;> simp [isAtMost, isAbove, rationalOf]

namespace RuntimeSetting

variable (setting : RuntimeSetting)

/-- A number within the declared bounds. -/
def Within (x : JsonFloat) : Prop :=
  (∀ bound ∈ setting.minimum, isAtLeast x bound.value = true) ∧
    ∀ bound ∈ setting.maximum, isAtMost x bound.value = true

/-- A value of the declared type, within the declared bounds. -/
def InBounds : Json → Prop
  | .bool _ => setting.kind = .bool
  | .int n => setting.kind = .int ∧ setting.Within (.literal n 0)
  | .float x => setting.kind = .float ∧ setting.Within x
  | _ => False

end RuntimeSetting

/-! ### What is promised -/

section Promise

variable (environ : String → Option String) (settings : ConfiguredValues)
  (changes stored : SettingTable)

/-- The change is refused for a key or for a value, and nothing is stored. -/
def Refused (outcome : Except Raised Members × SettingTable) : Prop :=
  ∃ error, outcome.1 = .error error ∧
    (isValidation error = true ∨ ∃ key, error = settingConfigOnly key) ∧ outcome.2 = stored

/-- Every change is stored, as `coerce` gives it, and no other row is touched. -/
def Stored (table : SettingTable) : Prop :=
  (∀ key value, changes.lookup key = some value → ∃ setting ∈ runtimeSettings,
    setting.key = key ∧ ∃ coerced, setting.coerce value = .ok coerced ∧
      table.lookup key = some coerced) ∧
    ∀ key, key ∉ changes → table.lookup key = stored.lookup key

/-- A write refuses the changes or stores all of them. -/
def WritesWhole (outcome : Except Raised Members × SettingTable) : Prop :=
  Refused stored outcome ∨
    (∃ effective, outcome.1 = .ok effective) ∧ Stored changes stored outcome.2

/-- The settings are read, and each that is not pinned is in bounds or the configured one. -/
def ReadsInBounds : Prop :=
  ∃ effective, readRuntimeSettings environ settings stored = .ok effective ∧
    ∀ setting ∈ runtimeSettings, ∃ v, member? setting.key effective = some v ∧
      (shadowingSource environ setting.key = none →
        setting.InBounds v ∨ v = configured settings setting)

/-- A row that is not pinned can be converted, and is NaN only where the configuration is. -/
def SoundRow (setting : RuntimeSetting) : Prop :=
  ∀ value, stored.lookup setting.key = some value → shadowingSource environ setting.key = none →
    Convertible setting value ∧
      (setting.kind = .float → value = .float .nan → configured settings setting = .float .nan)

/-- The first change that is refused, if any. -/
def firstRefused : Option (Sigma fun _ : String => Json) :=
  changes.entries.find? fun change => !(coerceFor change.1 change.2).isOk

/-- Where every key can be changed, the first value that is refused can be converted. -/
def SoundChanges : Prop :=
  (∀ key ∈ changes, (settingOf key).isSome = true) →
    ∀ key value setting, firstRefused changes = some ⟨key, value⟩ → settingOf key = some setting →
      Convertible setting value

/-- Changes that are all accepted store NaN under no key that is not pinned, unless it is
configured. -/
def StoresNumbers : Prop :=
  (∀ key ∈ changes, (settingOf key).isSome = true) → firstRefused changes = none →
    ∀ setting ∈ runtimeSettings, setting.kind = .float →
      changes.lookup setting.key = some (.float .nan) →
      shadowingSource environ setting.key = none → configured settings setting = .float .nan

end Promise

/-! ### One value -/

section Value

variable {setting : RuntimeSetting} {value : Json} {number : JsonFloat}

theorem bounded_eq_ok_iff {result : Json} : setting.bounded value number = .ok result ↔
    result = value ∧ ¬ (setting.minimum.any (isBelow number ·.value) = true ∨
      setting.maximum.any (isAbove number ·.value) = true) := by
  rw [RuntimeSetting.bounded]
  split
  · rename_i houtside
    exact iff_of_false (by simp) fun h => h.2 houtside
  · rename_i hinside
    exact ⟨fun h => ⟨(Except.ok.inj h).symm, hinside⟩, fun h => congrArg Except.ok h.1.symm⟩

/-- **What the bound checks let through** is within the bounds, or NaN. -/
theorem within_of_bounded {result : Json} (h : setting.bounded value number = .ok result)
    (hnumber : number ≠ .nan) : setting.Within number := by
  obtain ⟨-, hinside⟩ := bounded_eq_ok_iff.1 h
  obtain ⟨hlow, hhigh⟩ := not_or.1 hinside
  constructor
  · intro bound hbound
    rw [Option.mem_def.1 hbound] at hlow
    exact isAtLeast_iff.2 ⟨hnumber, by simpa using hlow⟩
  · intro bound hbound
    rw [Option.mem_def.1 hbound] at hhigh
    exact isAtMost_iff.2 ⟨hnumber, by simpa using hhigh⟩

theorem coerce_bool_iff (hkind : setting.kind = .bool) {result : Json} :
    setting.coerce value = .ok result ↔ (∃ b, value = .bool b) ∧ value = result := by
  unfold RuntimeSetting.coerce
  rw [if_pos hkind]
  cases value <;> simp

theorem coerce_int_iff (hkind : setting.kind = .int) {result : Json} :
    setting.coerce value = .ok result ↔ isNumber value = true ∧ ∃ n x, intOf value = some n ∧
      floatOf value = some x ∧ rationalOf x = some (n : ℚ) ∧
      setting.bounded (.int n) (.literal n 0) = .ok result := by
  unfold RuntimeSetting.coerce
  rw [if_neg (by simp [hkind]), RuntimeSetting.coerceNumber, hkind]
  cases isNumber value with
  | false => simp
  | true =>
      cases intOf value with
      | none => simp
      | some n =>
          cases floatOf value with
          | none => simp
          | some x => by_cases hwhole : rationalOf x = some (n : ℚ) <;> simp [hwhole]

theorem coerce_float_iff (hkind : setting.kind = .float) {result : Json} :
    setting.coerce value = .ok result ↔ isNumber value = true ∧ ∃ x, floatOf value = some x ∧
      setting.bounded (.float x) x = .ok result := by
  unfold RuntimeSetting.coerce
  rw [if_neg (by simp [hkind]), RuntimeSetting.coerceNumber, hkind]
  cases isNumber value with
  | false => simp
  | true => cases floatOf value <;> simp

/-- **What `coerce` accepts** is a value of the type, within the bounds, or NaN. -/
theorem inBounds_of_coerce {result : Json} (h : setting.coerce value = .ok result)
    (hresult : result ≠ .float .nan) : setting.InBounds result := by
  cases hkind : setting.kind with
  | bool =>
      obtain ⟨⟨b, rfl⟩, rfl⟩ := (coerce_bool_iff hkind).1 h
      exact hkind
  | int =>
      obtain ⟨-, n, x, -, -, -, hbounded⟩ := (coerce_int_iff hkind).1 h
      obtain ⟨rfl, -⟩ := bounded_eq_ok_iff.1 hbounded
      exact ⟨hkind, within_of_bounded hbounded nofun⟩
  | float =>
      obtain ⟨-, x, -, hbounded⟩ := (coerce_float_iff hkind).1 h
      obtain ⟨rfl, -⟩ := bounded_eq_ok_iff.1 hbounded
      exact ⟨hkind, within_of_bounded hbounded fun hnan => hresult (hnan ▸ rfl)⟩

theorem coerce_eq_nan_iff : setting.coerce value = .ok (.float .nan) ↔
    setting.kind = .float ∧ value = .float .nan := by
  constructor
  · intro h
    cases hkind : setting.kind with
    | bool =>
        obtain ⟨⟨b, rfl⟩, hb⟩ := (coerce_bool_iff hkind).1 h
        cases hb
    | int =>
        obtain ⟨-, n, x, -, -, -, hbounded⟩ := (coerce_int_iff hkind).1 h
        cases (bounded_eq_ok_iff.1 hbounded).1
    | float =>
        obtain ⟨-, x, hfloat, hbounded⟩ := (coerce_float_iff hkind).1 h
        cases (bounded_eq_ok_iff.1 hbounded).1
        refine ⟨rfl, ?_⟩
        cases value with
        | float x => exact congrArg Json.float (Option.some.inj hfloat)
        | int n => simp [floatOf] at hfloat
        | _ => cases hfloat
  · rintro ⟨hkind, rfl⟩
    refine (coerce_float_iff hkind).2 ⟨rfl, .nan, rfl, bounded_eq_ok_iff.2 ⟨rfl, ?_⟩⟩
    have hlow : ∀ bound, isBelow .nan bound = false := fun _ => rfl
    have hhigh : ∀ bound, isAbove .nan bound = false := fun _ => rfl
    simp [hlow, hhigh]

theorem floatOfInt_eq_some {n : ℤ} (h : n.natAbs < 2 ^ 53) : floatOfInt n = some n := by
  have hsize : n.natAbs.size - 53 = 0 := Nat.sub_eq_zero_of_le (Nat.size_le.2 h)
  have hexponent : 53 < 1024 := by decide
  have hlarge := h.trans (pow_lt_pow_right₀ Nat.one_lt_two hexponent)
  simp only [floatOfInt, hsize, pow_zero, Int.ediv_one, Int.emod_one]
  have hexact : (2 : ℤ) * 0 < 1 ∨ (2 : ℤ) * 0 = 1 ∧ n % 2 = 0 := .inl (by decide)
  rw [if_pos hexact, mul_one]
  exact if_pos hlarge

end Value

/-! ### The registry, as a whole -/

theorem runtimeSettings_nodup : (runtimeSettings.map RuntimeSetting.key).Nodup := by decide

theorem exists_maximum_of_int : ∀ setting ∈ runtimeSettings, setting.kind = .int →
    (∃ low ∈ setting.minimum, low.value = 0) ∧ ∃ high ∈ setting.maximum, high.value = 8760 := by
  simp [runtimeSettings]

theorem exists_minimum_of_float : ∀ setting ∈ runtimeSettings, setting.kind = .float →
    ∃ low, setting.minimum = some low := by
  simp [runtimeSettings]

theorem notMem_configOnly : ∀ setting ∈ runtimeSettings,
    setting.key ∉ configOnlySecurityKeys := by
  decide

theorem settingOf_eq_some_iff {key : String} {setting : RuntimeSetting} :
    settingOf key = some setting ↔ setting ∈ runtimeSettings ∧ setting.key = key :=
  find?_eq_some_iff_of_nodup runtimeSettings_nodup

section Value

variable {setting : RuntimeSetting} {value : Json}

/-- **What is written can be read back.** -/
theorem convertible_of_coerce (hsetting : setting ∈ runtimeSettings) {result : Json}
    (h : setting.coerce value = .ok result) : Convertible setting result := by
  intro hkind hnumber
  cases hkind' : setting.kind with
  | bool => exact absurd hkind' hkind
  | int =>
      obtain ⟨-, n, x, -, -, -, hbounded⟩ := (coerce_int_iff hkind').1 h
      obtain ⟨rfl, -⟩ := bounded_eq_ok_iff.1 hbounded
      obtain ⟨⟨low, hlow, hzero⟩, high, hhigh, htop⟩ := exists_maximum_of_int setting hsetting hkind'
      have hwithin := within_of_bounded hbounded nofun
      have hlow' := hwithin.1 low hlow
      have hhigh' := hwithin.2 high hhigh
      rw [hzero] at hlow'
      rw [htop] at hhigh'
      have hnonneg : 0 ≤ n := by simpa [isAtLeast, rationalOf] using hlow'
      have hsmall : n ≤ 8760 := by
        have hcast : (n : ℚ) ≤ 8760 := by simpa [isAtMost, rationalOf] using hhigh'
        exact_mod_cast hcast
      have hbits : n.natAbs < 2 ^ 53 := by omega
      exact ⟨by simp [floatOf, floatOfInt_eq_some hbits], fun _ => rfl⟩
  | float =>
      obtain ⟨-, x, -, hbounded⟩ := (coerce_float_iff hkind').1 h
      obtain ⟨rfl, -⟩ := bounded_eq_ok_iff.1 hbounded
      exact ⟨rfl, nofun⟩

theorem not_inBounds_nan (hsetting : setting ∈ runtimeSettings) :
    ¬ setting.InBounds (.float .nan) := by
  rintro ⟨hkind, hlow, -⟩
  obtain ⟨low, hminimum⟩ := exists_minimum_of_float setting hsetting hkind
  exact (isAtLeast_iff.1 (hlow low hminimum)).1 rfl

variable {environ : String → Option String} {settings : ConfiguredValues} {stored : SettingTable}

theorem effectiveValue_sound_iff (hsetting : setting ∈ runtimeSettings) :
    (∃ v, effectiveValue environ settings stored setting = .ok v ∧
      (shadowingSource environ setting.key = none →
        setting.InBounds v ∨ v = configured settings setting)) ↔
      SoundRow environ settings stored setting := by
  rw [effectiveValue, SoundRow]
  cases hrow : stored.lookup setting.key with
  | none => exact iff_of_true ⟨_, rfl, fun _ => .inr rfl⟩ (by simp)
  | some value =>
      simp only [Option.some.injEq, forall_eq', ← answers_coerce_iff]
      by_cases hfree : shadowingSource environ setting.key = none
      · rw [if_pos hfree]
        simp only [hfree, forall_const]
        cases hresult : setting.coerce value with
        | ok coerced =>
            by_cases hnan : coerced = .float .nan
            · subst hnan
              obtain ⟨hkind, rfl⟩ := coerce_eq_nan_iff.1 hresult
              simp [not_inBounds_nan hsetting, answers_ok, hkind, eq_comm]
            · refine iff_of_true ⟨coerced, rfl, .inl (inBounds_of_coerce hresult hnan)⟩
                ⟨answers_ok, ?_⟩
              rintro hkind rfl
              rw [coerce_eq_nan_iff.2 ⟨hkind, rfl⟩] at hresult
              exact absurd (Except.ok.inj hresult).symm hnan
        | error error =>
            have hnumber : setting.kind = .float → value ≠ .float .nan := by
              rintro hkind rfl
              rw [coerce_eq_nan_iff.2 ⟨hkind, rfl⟩] at hresult
              cases hresult
            dsimp only
            split
            · rename_i hcaught
              refine iff_of_true ⟨_, rfl, .inr rfl⟩ ⟨?_, fun hkind hnan => absurd hnan (hnumber hkind)⟩
              rintro _ ⟨⟩
              exact hcaught
            · rename_i hraised
              exact iff_of_false (by simp) fun h => hraised (h.1 _ rfl)
      · rw [if_neg hfree]
        exact iff_of_true ⟨_, rfl, fun h => absurd h hfree⟩ fun h => absurd h hfree

/-- **The settings are read in bounds** exactly where every row is sound. -/
theorem readsInBounds_iff : ReadsInBounds environ settings stored ↔
    ∀ setting ∈ runtimeSettings, SoundRow environ settings stored setting := by
  rw [← forall₂_congr fun _ => effectiveValue_sound_iff]
  constructor
  · rintro ⟨effective, hread, hsound⟩ setting hsetting
    obtain ⟨v, hv, hmember⟩ := member?_of_mapM runtimeSettings_nodup hread hsetting
    obtain ⟨v', hmember', hbounds⟩ := hsound setting hsetting
    obtain rfl : v = v' := Option.some.inj (hmember.symm.trans hmember')
    exact ⟨v, hv, hbounds⟩
  · intro h
    have hread : Readable environ stored := fun setting hsetting =>
      exists_effectiveValue_iff.1 ((h setting hsetting).imp fun _ hv => hv.1)
    obtain ⟨effective, heffective⟩ := exists_readRuntimeSettings_iff.2 hread
    refine ⟨effective, heffective, fun setting hsetting => ?_⟩
    obtain ⟨v, hv, hmember⟩ := member?_of_mapM runtimeSettings_nodup heffective hsetting
    obtain ⟨v', hv', hbounds⟩ := h setting hsetting
    obtain rfl : v = v' := Except.ok.inj (hv.symm.trans hv')
    exact ⟨v, hmember, hbounds⟩

end Value

/-! ### The keys and the values of a write -/

section Writing

variable {repr : String → String} {environ : String → Option String} {settings : ConfiguredValues}
  {principal : Option Principal} {changes stored : SettingTable}

theorem authorize_eq_ok {required : String} (hscope : scopeRank required ≠ none)
    (h : ∀ caller, principal = some caller → caller.grants required = true) :
    authorize repr principal required = .ok () := by
  unfold authorize
  rw [if_neg hscope]
  cases principal with
  | none => rfl
  | some caller => exact if_pos (h caller rfl)

theorem checkKey_eq_ok_iff {key : String} : checkKey key = .ok () ↔ (settingOf key).isSome = true := by
  rw [checkKey]
  split
  · rename_i hsecurity
    refine iff_of_false nofun fun h => ?_
    obtain ⟨setting, hsetting⟩ := Option.isSome_iff_exists.1 h
    obtain ⟨hmem, rfl⟩ := settingOf_eq_some_iff.1 hsetting
    exact notMem_configOnly setting hmem hsecurity
  · split
    · exact iff_of_true rfl ‹_›
    · exact iff_of_false nofun ‹_›

theorem checkKey_error {key : String} {error : Raised} (h : checkKey key = .error error) :
    isValidation error = true ∨ ∃ key, error = settingConfigOnly key := by
  rw [checkKey] at h
  split at h
  · cases h
    exact .inr ⟨key, rfl⟩
  · split at h
    · cases h
    · cases h
      exact .inl rfl

theorem forM_checkKey_eq_ok_iff :
    (forM changes.entries fun change => checkKey change.1) = .ok () ↔
      ∀ key ∈ changes, (settingOf key).isSome = true := by
  simp only [forM_eq_ok_iff, checkKey_eq_ok_iff]
  constructor
  · intro h key hkey
    obtain ⟨change, hchange, rfl⟩ := List.mem_map.1 hkey
    exact h change hchange
  · exact fun h change hchange => h change.1 (List.mem_map_of_mem hchange)

theorem validateChanges_eq (hadmitted : authorize repr principal "admin" = .ok ())
    (hkeys : ∀ key ∈ changes, (settingOf key).isSome = true) :
    validateChanges repr principal changes =
      changes.entries.mapM fun change =>
        (coerceFor change.1 change.2).map (Prod.mk change.1) := by
  rw [validateChanges, hadmitted, ok_bind, forM_checkKey_eq_ok_iff.2 hkeys, ok_bind]

theorem isOk_map {α β : Type} {x : Except Raised α} {f : α → β} : (x.map f).isOk = x.isOk := by
  cases x <;> rfl

theorem mapM_coerceFor_eq_error_iff {error : Raised} :
    (changes.entries.mapM fun change => (coerceFor change.1 change.2).map (Prod.mk change.1)) =
        .error error ↔
      ∃ change, firstRefused changes = some change ∧
        coerceFor change.1 change.2 = .error error := by
  rw [mapM_eq_error_iff]
  simp only [isOk_map, firstRefused]
  refine exists_congr fun change => and_congr_right fun _ => ?_
  cases coerceFor change.1 change.2 <;> simp [Except.map]

/-- What a value becomes. -/
def coercedValue (change : Sigma fun _ : String => Json) : Json :=
  ((coerceFor change.1 change.2).toOption).getD .null

theorem coerceFor_eq_ok {change : Sigma fun _ : String => Json} {coerced : Json}
    (h : coerceFor change.1 change.2 = .ok coerced) : coercedValue change = coerced := by
  rw [coercedValue, h]
  rfl

/-- **Changes that are all accepted are all stored.** -/
theorem stored_storeSettings
    (haccepted : ∀ change ∈ changes.entries, ∃ coerced,
      coerceFor change.1 change.2 = .ok coerced) :
    Stored changes stored
      (storeSettings (changes.entries.map fun change => (change.1, coercedValue change)) stored) := by
  rw [Stored, storeSettings, List.foldl_map]
  constructor
  · intro key value hchange
    have hmem : ⟨key, value⟩ ∈ changes.entries := (Table.mem_entries_iff changes key value).2 hchange
    obtain ⟨coerced, hcoerced⟩ := haccepted _ hmem
    have hrow := Table.lookup_foldl_upsert Sigma.fst (fun change _ => coercedValue change)
      changes.nodupKeys hmem stored
    rw [coerceFor_eq_ok hcoerced] at hrow
    rw [coerceFor] at hcoerced
    cases hsetting : settingOf key with
    | none => simp [hsetting] at hcoerced
    | some setting =>
        obtain ⟨hregistered, hkey⟩ := settingOf_eq_some_iff.1 hsetting
        exact ⟨setting, hregistered, hkey, coerced, by simpa [hsetting] using hcoerced, hrow⟩
  · intro key hkey
    exact Table.lookup_foldl_upsert_of_notMem Sigma.fst (fun change _ => coercedValue change) hkey
      stored

theorem readable_of_stored {table : SettingTable} (hstored : Stored changes stored table)
    (hread : Readable environ stored) : Readable environ table := by
  intro setting hsetting value hvalue hfree
  by_cases hchanged : setting.key ∈ changes
  · obtain ⟨change, hchange⟩ := Option.isSome_iff_exists.1 (AList.lookup_isSome.2 hchanged)
    obtain ⟨other, hother, hkey, coerced, hcoerced, hrow⟩ := hstored.1 _ _ hchange
    obtain rfl : other = setting :=
      List.inj_on_of_nodup_map runtimeSettings_nodup hother hsetting hkey
    obtain rfl : value = coerced := Option.some.inj (hvalue.symm.trans hrow)
    exact convertible_of_coerce hsetting hcoerced
  · rw [hstored.2 _ hchanged] at hvalue
    exact hread setting hsetting value hvalue hfree

theorem isValidation_of_firstRefused {change : Sigma fun _ : String => Json} {error : Raised}
    (hrefused : firstRefused changes = some change)
    (herror : coerceFor change.1 change.2 = .error error)
    (hkeys : ∀ key ∈ changes, (settingOf key).isSome = true) :
    SoundChanges changes ↔ isValidation error = true := by
  have hmem : change.1 ∈ changes := List.mem_map_of_mem (List.mem_of_find?_eq_some hrefused)
  obtain ⟨setting, hsetting⟩ := Option.isSome_iff_exists.1 (hkeys _ hmem)
  have hresult : setting.coerce change.2 = .error error := by
    rw [coerceFor, hsetting] at herror
    exact herror
  have hsound : SoundChanges changes ↔ Convertible setting change.2 := by
    constructor
    · exact fun h => h hkeys change.1 change.2 setting hrefused hsetting
    · intro h _ key value other hfirst hother
      obtain rfl := Option.some.inj (hrefused.symm.trans hfirst)
      obtain rfl := Option.some.inj (hsetting.symm.trans hother)
      exact h
  rw [hsound, ← answers_coerce_iff, hresult]
  constructor
  · exact fun h => h error rfl
  · rintro h _ ⟨⟩
    exact h

theorem firstRefused_eq_none_iff : firstRefused changes = none ↔
    ∀ change ∈ changes.entries, ∃ coerced, coerceFor change.1 change.2 = .ok coerced := by
  rw [firstRefused, List.find?_eq_none]
  refine forall₂_congr fun change _ => ?_
  cases coerceFor change.1 change.2 <;> simp [Except.isOk, Except.toBool]

theorem mapM_coerceFor
    (haccepted : ∀ change ∈ changes.entries, ∃ coerced,
      coerceFor change.1 change.2 = .ok coerced) :
    (changes.entries.mapM fun change => (coerceFor change.1 change.2).map (Prod.mk change.1)) =
      .ok (changes.entries.map fun change => (change.1, coercedValue change)) := by
  refine mapM_eq_ok_map fun change hchange => ?_
  obtain ⟨coerced, hcoerced⟩ := haccepted change hchange
  rw [coerceFor_eq_ok hcoerced, hcoerced]
  rfl

/-- **What a write leaves**: every change where all are accepted, and the table as it was where one
is not. -/
theorem writeRuntimeSettings_leaves (hadmitted : authorize repr principal "admin" = .ok ()) :
    ((∀ key ∈ changes, (settingOf key).isSome = true) ∧ firstRefused changes = none ∧
      Stored changes stored
        (writeRuntimeSettings repr environ settings principal changes stored).2) ∨
    (¬ ((∀ key ∈ changes, (settingOf key).isSome = true) ∧ firstRefused changes = none) ∧
      (writeRuntimeSettings repr environ settings principal changes stored).2 = stored) := by
  rw [writeRuntimeSettings]
  by_cases hkeys : ∀ key ∈ changes, (settingOf key).isSome = true
  · rw [validateChanges_eq hadmitted hkeys]
    by_cases hnone : firstRefused changes = none
    · have haccepted := firstRefused_eq_none_iff.1 hnone
      rw [mapM_coerceFor haccepted]
      exact .inl ⟨hkeys, hnone, stored_storeSettings haccepted⟩
    · refine .inr ⟨fun h => hnone h.2, ?_⟩
      cases hvalidated : changes.entries.mapM fun change =>
          (coerceFor change.1 change.2).map (Prod.mk change.1) with
      | error error => rfl
      | ok validated =>
          refine absurd (firstRefused_eq_none_iff.2 fun change hchange => ?_) hnone
          obtain ⟨_, hchanged⟩ := exists_mapM_ok_iff.1 ⟨validated, hvalidated⟩ change hchange
          exact (map_eq_ok.1 hchanged).imp fun _ h => h.1
  · refine .inr ⟨fun h => hkeys h.1, ?_⟩
    rw [validateChanges, hadmitted, ok_bind]
    cases hchecked : forM changes.entries fun change => checkKey change.1 with
    | ok checked => exact absurd (forM_checkKey_eq_ok_iff.1 hchecked) hkeys
    | error error => rfl

/-- **After changes that are all stored**, over sound rows, the settings are read in bounds exactly
where no change is NaN. -/
theorem readsInBounds_of_stored {table : SettingTable} (hstored : Stored changes stored table)
    (hsound : ∀ setting ∈ runtimeSettings, SoundRow environ settings stored setting) :
    ReadsInBounds environ settings table ↔
      ∀ setting ∈ runtimeSettings, setting.kind = .float →
        changes.lookup setting.key = some (.float .nan) →
        shadowingSource environ setting.key = none → configured settings setting = .float .nan := by
  have hreadable : Readable environ table :=
    readable_of_stored hstored fun setting hsetting value hrow hfree =>
      (hsound setting hsetting value hrow hfree).1
  rw [readsInBounds_iff]
  refine forall₂_congr fun setting hsetting => ?_
  constructor
  · intro hrow hkind hchange hfree
    obtain ⟨other, hother, hkey, coerced, hcoerced, hleft⟩ := hstored.1 _ _ hchange
    obtain rfl : other = setting :=
      List.inj_on_of_nodup_map runtimeSettings_nodup hother hsetting hkey
    have hnan : coerced = .float .nan :=
      Except.ok.inj (hcoerced.symm.trans (coerce_eq_nan_iff.2 ⟨hkind, rfl⟩))
    exact (hrow coerced hleft hfree).2 hkind hnan
  · intro hnumbers value hrow hfree
    refine ⟨hreadable setting hsetting value hrow hfree, fun hkind hnan => ?_⟩
    subst hnan
    by_cases hchanged : setting.key ∈ changes
    · obtain ⟨change, hchange⟩ := Option.isSome_iff_exists.1 (AList.lookup_isSome.2 hchanged)
      obtain ⟨other, hother, hkey, coerced, hcoerced, hleft⟩ := hstored.1 _ _ hchange
      obtain rfl : other = setting :=
        List.inj_on_of_nodup_map runtimeSettings_nodup hother hsetting hkey
      obtain rfl : coerced = .float .nan := Option.some.inj (hleft.symm.trans hrow)
      obtain ⟨-, rfl⟩ := coerce_eq_nan_iff.1 hcoerced
      exact hnumbers hkind hchange hfree
    · rw [hstored.2 _ hchanged] at hrow
      exact (hsound setting hsetting _ hrow hfree).2 hkind rfl

theorem coerceFor_ne_settingConfigOnly {key name : String} {value : Json} :
    coerceFor key value ≠ .error (settingConfigOnly name) := by
  have hbounded : ∀ (setting : RuntimeSetting) value number,
      setting.bounded value number ≠ .error (settingConfigOnly name) := by
    intro setting value number
    rw [RuntimeSetting.bounded]
    split <;> simp [settingProblem, settingConfigOnly]
  rw [coerceFor]
  cases settingOf key with
  | none => simp [settingConfigOnly]
  | some setting =>
      dsimp only
      unfold RuntimeSetting.coerce RuntimeSetting.coerceNumber
      repeat' split
      all_goals first | exact hbounded _ _ _ | simp [settingProblem, settingConfigOnly]

/-- **A write refuses the changes or stores them all**, over rows that can be read, exactly where
the first change that is refused can be converted. -/
theorem writesWhole_iff (hadmitted : authorize repr principal "admin" = .ok ())
    (hread : Readable environ stored) :
    WritesWhole changes stored
        (writeRuntimeSettings repr environ settings principal changes stored) ↔
      SoundChanges changes := by
  rw [writeRuntimeSettings]
  by_cases hkeys : ∀ key ∈ changes, (settingOf key).isSome = true
  · rw [validateChanges_eq hadmitted hkeys]
    cases hvalidated : changes.entries.mapM fun change =>
        (coerceFor change.1 change.2).map (Prod.mk change.1) with
    | error error =>
        obtain ⟨change, hrefused, herror⟩ := mapM_coerceFor_eq_error_iff.1 hvalidated
        rw [isValidation_of_firstRefused hrefused herror hkeys]
        constructor
        · rintro (⟨_, ⟨⟩, hvalid | ⟨key, rfl⟩, -⟩ | ⟨⟨_, ⟨⟩⟩, -⟩)
          · exact hvalid
          · exact absurd herror coerceFor_ne_settingConfigOnly
        · exact fun hvalid => .inl ⟨error, rfl, .inl hvalid, rfl⟩
    | ok validated =>
        have haccepted' : ∀ change ∈ changes.entries, ∃ coerced,
            coerceFor change.1 change.2 = .ok coerced := by
          intro change hchange
          obtain ⟨_, hchanged⟩ := exists_mapM_ok_iff.1 ⟨validated, hvalidated⟩ change hchange
          exact (map_eq_ok.1 hchanged).imp fun _ h => h.1
        obtain rfl := Except.ok.inj (hvalidated.symm.trans (mapM_coerceFor haccepted'))
        have hstored := @stored_storeSettings changes stored haccepted'
        refine iff_of_true
          (.inr ⟨exists_readRuntimeSettings_iff.2 (readable_of_stored hstored hread), hstored⟩) ?_
        intro _ key value setting hfirst _
        have hrefused := List.find?_some hfirst
        obtain ⟨coerced, hcoerced⟩ := haccepted' _ (List.mem_of_find?_eq_some hfirst)
        simp [hcoerced, Except.isOk, Except.toBool] at hrefused
  · refine iff_of_true (.inl ?_) fun h => absurd h hkeys
    rw [validateChanges, hadmitted, ok_bind]
    cases hchecked : forM changes.entries fun change => checkKey change.1 with
    | ok checked => exact absurd (forM_checkKey_eq_ok_iff.1 hchecked) hkeys
    | error error =>
        obtain ⟨change, -, hrefused⟩ := exists_of_forM_eq_error hchecked
        exact ⟨error, rfl, checkKey_error hrefused, rfl⟩

/-- **A caller without the scope** is refused, and nothing is stored. -/
theorem writeRuntimeSettings_refused {error : Raised}
    (h : authorize repr principal "admin" = .error error) :
    writeRuntimeSettings repr environ settings principal changes stored = (.error error, stored) := by
  rw [writeRuntimeSettings, validateChanges, h]
  rfl

end Writing

/-! ### Keeping the settings in bounds -/

/-- For an admitted caller, changes are refused or stored whole, and what is read before them and
after them is in bounds. -/
def KeepsInBounds (repr : String → String) (environ : String → Option String)
    (settings : ConfiguredValues) (principal : Option Principal) (changes stored : SettingTable) :
    Prop :=
  WritesWhole changes stored
      (writeRuntimeSettings repr environ settings principal changes stored) ∧
    ReadsInBounds environ settings stored ∧
    ReadsInBounds environ settings
      (writeRuntimeSettings repr environ settings principal changes stored).2

/-- **Runtime settings stay in bounds**, for a caller with the scope, exactly where the stored rows
are sound, the changes can be converted, and none that is stored is NaN. -/
theorem keepsInBounds_iff {repr : String → String} {environ : String → Option String}
    {settings : ConfiguredValues} {principal : Option Principal} {changes stored : SettingTable}
    (hadmitted : ∀ caller, principal = some caller → caller.grants "admin" = true) :
    KeepsInBounds repr environ settings principal changes stored ↔
      (∀ setting ∈ runtimeSettings, SoundRow environ settings stored setting) ∧
        SoundChanges changes ∧ StoresNumbers environ settings changes := by
  have hcaller : authorize repr principal "admin" = .ok () := authorize_eq_ok (by decide) hadmitted
  rw [KeepsInBounds, ← readsInBounds_iff, and_left_comm]
  refine and_congr_right fun hread => and_congr ?_ ?_
  · obtain ⟨effective, heffective, -⟩ := hread
    exact writesWhole_iff hcaller (exists_readRuntimeSettings_iff.1 ⟨effective, heffective⟩)
  · obtain ⟨hkeys, hnone, hstored⟩ | ⟨hrefused, hsame⟩ :=
      @writeRuntimeSettings_leaves repr environ settings principal changes stored hcaller
    · rw [readsInBounds_of_stored hstored (readsInBounds_iff.1 hread)]
      exact ⟨fun h _ _ => h, fun h => h hkeys hnone⟩
    · rw [hsame]
      exact iff_of_true hread fun hkeys hnone => absurd ⟨hkeys, hnone⟩ hrefused

/-- Pausing the queue over an empty table keeps the settings in bounds. -/
theorem keepsInBounds_paused : KeepsInBounds (fun text => s!"'{text}'") (fun _ => none) {}
    (some ⟨"local", "admin"⟩) ((∅ : SettingTable).insert "queue.paused" (.bool true)) ∅ := by
  have hadmitted : ∀ caller, some (⟨"local", "admin"⟩ : Principal) = some caller →
      caller.grants "admin" = true := by
    rintro _ ⟨⟩
    decide
  refine (keepsInBounds_iff hadmitted).2 ⟨fun setting _ value hrow => ?_, ?_, ?_⟩
  · cases hrow
  · intro _ key value setting hfirst _
    have hnone : firstRefused ((∅ : SettingTable).insert "queue.paused" (.bool true)) = none := rfl
    rw [hnone] at hfirst
    cases hfirst
  · intro _ _ setting _ _ hchange
    by_cases hkey : setting.key = "queue.paused"
    · rw [hkey, AList.lookup_insert] at hchange
      cases hchange
    · rw [AList.lookup_insert_ne hkey] at hchange
      cases hchange

/-- NaN is accepted and stored, and the row is reported: outside the bounds, and not as
configured. -/
theorem nan_out_of_bounds : ¬ KeepsInBounds (fun text => s!"'{text}'") (fun _ => none) {}
    (some ⟨"local", "admin"⟩) ((∅ : SettingTable).insert "routing.min_confidence" (.float .nan)) ∅ := by
  rintro ⟨-, -, hread⟩
  have hrow := readsInBounds_iff.1 hread ⟨"routing.min_confidence", .float, some ⟨0, "0.0"⟩,
    some ⟨1, "1.0"⟩⟩ (by simp [runtimeSettings]) (.float .nan) (AList.lookup_insert _) rfl
  have hconfigured := hrow.2 rfl rfl
  simp [configured] at hconfigured

end LoadCoach.Configuration

import Mathlib.Algebra.Order.Field.Rat
import Mathlib.Data.Nat.Size
import Mathlib.Data.Rat.Floor
import LoadCoach.Foundations.Table
import LoadCoach.Foundations.Text
import LoadCoach.Values

/-! # The settings that change while the server runs

`services/settings.py`: a stored row beats the configuration, unless the environment pins its key or
the row is of the wrong type.  `services/queue.py` and `services/worker.py` read two of the same rows
for the workers, without that rule: what is not false, empty or zero is true, whatever the
environment says.

`flags_effective_iff`: the two readers agree exactly where each row that is true to the workers is
the boolean, and its key is not pinned. -/

namespace LoadCoach.Configuration

open Foundations
open Foundations.Json

/-! ### Numbers -/

/-- `float` of an integer: its 53 leading bits, a half rounded to even, unless that is too large. -/
def floatOfInt (n : ℤ) : Option ℤ :=
  let scale : ℤ := 2 ^ (n.natAbs.size - 53)
  let low := n / scale
  let rest := n % scale
  let rounded := (if 2 * rest < scale ∨ (2 * rest = scale ∧ low % 2 = 0) then low else low + 1) * scale
  if rounded.natAbs < 2 ^ 1024 then some rounded else none

/-- The number a float is. -/
def rationalOf : JsonFloat → Option ℚ
  | .literal mantissa exponent => some (mantissa * (10 : ℚ) ^ exponent)
  | _ => none

/-- `x < bound`. -/
def isBelow (x : JsonFloat) (bound : ℚ) : Bool :=
  x == .negInfinity || (rationalOf x).any (· < bound)

/-- `x > bound`. -/
def isAbove (x : JsonFloat) (bound : ℚ) : Bool :=
  x == .infinity || (rationalOf x).any (bound < ·)

/-- An `int` or a `float`, and no `bool`. -/
def isNumber : Json → Bool
  | .int _ => true
  | .float _ => true
  | _ => false

/-- `int` of a number; it raises for what is not finite. -/
def intOf : Json → Option ℤ
  | .int n => some n
  | .float x => (rationalOf x).map fun q => if 0 ≤ q then ⌊q⌋ else ⌈q⌉
  | _ => none

/-- `float` of a number; it raises for an integer that is too large. -/
def floatOf : Json → Option JsonFloat
  | .int n => (floatOfInt n).map (.literal · 0)
  | .float x => some x
  | _ => none

/-! ### The registry -/

inductive SettingKind where
  | bool
  | int
  | float
deriving DecidableEq

/-- A bound, and how it is printed. -/
structure SettingBound where
  value : ℚ
  shown : String

/-- `RuntimeSetting`, without its description. -/
structure RuntimeSetting where
  key : String
  kind : SettingKind
  minimum : Option SettingBound := none
  maximum : Option SettingBound := none

/-- `ValidationError` about one key. -/
def settingProblem (message key problem : String) : Raised :=
  .suite "VALIDATION_ERROR" message
    [("fields", .arr [.obj [("path", .str key), ("problem", .str problem)]])]

/-- Whether `except ValidationError` catches it. -/
def isValidation : Raised → Bool
  | .suite code _ _ => code == "VALIDATION_ERROR"
  | _ => false

namespace RuntimeSetting

variable (setting : RuntimeSetting)

/-- The last check of a number: its bounds. -/
def bounded (value : Json) (number : JsonFloat) : Except Raised Json :=
  let key := setting.key
  let low := (setting.minimum.map SettingBound.shown).getD "None"
  let high := (setting.maximum.map SettingBound.shown).getD "None"
  if setting.minimum.any (isBelow number ·.value) ∨ setting.maximum.any (isAbove number ·.value) then
    .error (settingProblem s!"{key} must be between {low} and {high}." key
      s!"outside [{low}, {high}]")
  else .ok value

/-- A number, for a key that is one. -/
def coerceNumber (value : Json) : Except Raised Json :=
  let key := setting.key
  match setting.kind with
  | .int =>
      match intOf value, floatOf value with
      | some n, some x =>
          if rationalOf x = some (n : ℚ) then setting.bounded (.int n) (.literal n 0)
          else .error (settingProblem s!"{key} must be a whole number." key "expected an integer")
      | _, _ => .error .unexpected
  | _ =>
      match floatOf value with
      | some x => setting.bounded (.float x) x
      | none => .error .unexpected

/-- `coerce`. -/
def coerce (value : Json) : Except Raised Json :=
  let key := setting.key
  if setting.kind = .bool then
    match value with
    | .bool b => .ok (.bool b)
    | _ => .error (settingProblem s!"{key} must be true or false." key "expected a boolean")
  else if isNumber value then setting.coerceNumber value
  else .error (settingProblem s!"{key} must be a number." key "expected a number")

end RuntimeSetting

/-- `RUNTIME_SETTINGS`. -/
def runtimeSettings : List RuntimeSetting :=
  [{ key := "queue.paused", kind := .bool },
    { key := "queue.draining", kind := .bool },
    { key := "routing.prefer_resident_bonus", kind := .float
      minimum := some ⟨0, "0.0"⟩, maximum := some ⟨1, "1.0"⟩ },
    { key := "routing.min_present_weight", kind := .float
      minimum := some ⟨0, "0.0"⟩, maximum := some ⟨1, "1.0"⟩ },
    { key := "routing.min_confidence", kind := .float
      minimum := some ⟨0, "0.0"⟩, maximum := some ⟨1, "1.0"⟩ },
    { key := "routing.remote_cost_factor", kind := .float
      minimum := some ⟨1 / 100, "0.01"⟩, maximum := some ⟨1, "1.0"⟩ },
    { key := "storage.content_retention_hours", kind := .int
      minimum := some ⟨0, "0"⟩, maximum := some ⟨8760, "8760"⟩ }]

/-! ### The one rule -/

/-- The configured values of the keys that are fields of `Settings`. -/
structure ConfiguredValues where
  preferResidentBonus : JsonFloat := .literal 5 (-2)
  minPresentWeight : JsonFloat := .literal 5 (-1)
  minConfidence : JsonFloat := .literal 5 (-2)
  remoteCostFactor : JsonFloat := .literal 9 (-1)
  contentRetentionHours : ℤ := 24

/-- `_configured`: `False` for a key that is no field. -/
def configured (settings : ConfiguredValues) (setting : RuntimeSetting) : Json :=
  if setting.key = "routing.prefer_resident_bonus" then .float settings.preferResidentBonus
  else if setting.key = "routing.min_present_weight" then .float settings.minPresentWeight
  else if setting.key = "routing.min_confidence" then .float settings.minConfidence
  else if setting.key = "routing.remote_cost_factor" then .float settings.remoteCostFactor
  else if setting.key = "storage.content_retention_hours" then .int settings.contentRetentionHours
  else .bool false

/-- `env_var_for`. -/
def envVarFor (path : String) : String :=
  let (sectionName, fieldName) := partition '.' path
  let shown := "__".intercalate ((split '.' (upper (fieldName.getD ""))))
  "LOADCOACH_" ++ upper sectionName ++ "__" ++ shown

/-- `shadowing_source`. -/
def shadowingSource (environ : String → Option String) (key : String) : Option String :=
  let name := envVarFor key
  if (environ name).isSome then some s!"env {name}" else none

/-- The rows of `settings`. -/
abbrev SettingTable := Table String Json

/-- The effective value of one key. -/
def effectiveValue (environ : String → Option String) (settings : ConfiguredValues)
    (stored : SettingTable) (setting : RuntimeSetting) : Except Raised Json :=
  match stored.lookup setting.key with
  | none => .ok (configured settings setting)
  | some value =>
      if shadowingSource environ setting.key = none then
        match setting.coerce value with
        | .ok coerced => .ok coerced
        | .error error =>
            if isValidation error then .ok (configured settings setting) else .error error
      else .ok (configured settings setting)

/-- `read_runtime_settings`. -/
def readRuntimeSettings (environ : String → Option String) (settings : ConfiguredValues)
    (stored : SettingTable) : Except Raised Members :=
  runtimeSettings.mapM fun setting =>
    (effectiveValue environ settings stored setting).map (Prod.mk setting.key)

/-! ### The workers' flags -/

/-- One flag of `queue_flags`: absent means `False`. -/
def queueFlag (stored : SettingTable) (name : String) : Bool := (stored.lookup name).any truthy

/-- `QueueFlags`. -/
structure QueueFlags where
  paused : Bool := false
  draining : Bool := false
deriving DecidableEq

/-- `refresh`. -/
def QueueFlags.refresh (stored : SettingTable) : QueueFlags where
  paused := queueFlag stored "queue.paused"
  draining := queueFlag stored "queue.draining"

/-- `set_queue_flag`, where a value is given. -/
def setQueueFlag (name : String) (value : Option Bool) (stored : SettingTable) : SettingTable :=
  match value with
  | none => stored
  | some b => stored.insert name (.bool b)

/-- `update`. -/
def QueueFlags.update (flags : QueueFlags) (stored : SettingTable) (paused draining : Option Bool) :
    QueueFlags × SettingTable :=
  ({ paused := paused.getD flags.paused, draining := draining.getD flags.draining },
    setQueueFlag "queue.draining" draining (setQueueFlag "queue.paused" paused stored))

/-! ### The effective values -/

section Effective

variable {environ : String → Option String} {settings : ConfiguredValues} {stored : SettingTable}
  {setting : RuntimeSetting} {value : Json}

theorem member?_of_mapM {α : Type} {name : α → String} {read : α → Except Raised Json} {l : List α}
    (hnodup : (l.map name).Nodup) {members : Members}
    (h : (l.mapM fun a => (read a).map (Prod.mk (name a))) = .ok members) {a : α} (ha : a ∈ l) :
    ∃ v, read a = .ok v ∧ member? (name a) members = some v := by
  induction l generalizing members with
  | nil => cases ha
  | cons b l ih =>
      rw [List.map_cons, List.nodup_cons] at hnodup
      rw [List.mapM_cons, bind_eq_ok] at h
      obtain ⟨first, hfirst, h⟩ := h
      obtain ⟨v, hv, rfl⟩ := map_eq_ok.1 hfirst
      obtain ⟨rest, hrest, h⟩ := bind_eq_ok.1 h
      obtain rfl := pure_eq_ok.1 h
      obtain rfl | ha := List.mem_cons.1 ha
      · exact ⟨v, hv, by simp [member?]⟩
      · obtain ⟨v', hv', hmember⟩ := ih hnodup.2 hrest ha
        have hne : name b ≠ name a := fun hsame => hnodup.1 (hsame ▸ List.mem_map_of_mem ha)
        exact ⟨v', hv', by simpa [member?, hne] using hmember⟩

/-- A value that `coerce` can convert, or need not. -/
def Convertible (setting : RuntimeSetting) (value : Json) : Prop :=
  setting.kind ≠ .bool → isNumber value = true →
    (floatOf value).isSome = true ∧ (setting.kind = .int → (intOf value).isSome = true)

/-- A result, or a problem that the reader goes around. -/
def Answers (result : Except Raised Json) : Prop :=
  ∀ error, result = .error error → isValidation error = true

theorem answers_ok : Answers (.ok value) := nofun

theorem answers_problem {message key problem : String} :
    Answers (.error (settingProblem message key problem)) := by
  rintro _ ⟨⟩
  rfl

theorem not_answers_unexpected : ¬ Answers (.error .unexpected) :=
  fun h => Bool.noConfusion (h _ rfl)

theorem answers_bounded {number : JsonFloat} : Answers (setting.bounded value number) := by
  rw [RuntimeSetting.bounded]
  split
  · exact answers_problem
  · exact answers_ok

theorem answers_coerceNumber_iff : Answers (setting.coerceNumber value) ↔
    (floatOf value).isSome = true ∧ (setting.kind = .int → (intOf value).isSome = true) := by
  rw [RuntimeSetting.coerceNumber]
  split
  · rename_i hkind
    rw [hkind]
    cases hint : intOf value with
    | none => exact iff_of_false not_answers_unexpected fun h => Bool.noConfusion (h.2 rfl)
    | some n =>
        cases hfloat : floatOf value with
        | none => exact iff_of_false not_answers_unexpected fun h => Bool.noConfusion h.1
        | some x =>
            refine iff_of_true ?_ ⟨rfl, fun _ => rfl⟩
            dsimp only
            split
            · exact answers_bounded
            · exact answers_problem
  · rename_i hkind
    cases hfloat : floatOf value with
    | none => exact iff_of_false not_answers_unexpected fun h => Bool.noConfusion h.1
    | some x => exact iff_of_true answers_bounded ⟨rfl, fun h => absurd h hkind⟩

theorem answers_coerce_iff : Answers (setting.coerce value) ↔ Convertible setting value := by
  unfold RuntimeSetting.coerce Convertible
  by_cases hkind : setting.kind = .bool
  · rw [if_pos hkind]
    refine iff_of_true ?_ fun h => absurd hkind h
    cases value with
    | bool b => exact answers_ok
    | _ => exact answers_problem
  · rw [if_neg hkind]
    by_cases hnumber : isNumber value = true
    · rw [if_pos hnumber, answers_coerceNumber_iff]
      exact ⟨fun h _ _ => h, fun h => h hkind hnumber⟩
    · rw [if_neg hnumber]
      exact iff_of_true answers_problem fun _ h => absurd h hnumber

/-- A key has an effective value where its row is shadowed or can be converted. -/
theorem exists_effectiveValue_iff : (∃ v, effectiveValue environ settings stored setting = .ok v) ↔
    ∀ value, stored.lookup setting.key = some value →
      shadowingSource environ setting.key = none → Convertible setting value := by
  rw [effectiveValue]
  cases stored.lookup setting.key with
  | none => exact iff_of_true ⟨_, rfl⟩ nofun
  | some value =>
      simp only [Option.some.injEq, forall_eq', ← answers_coerce_iff]
      split
      · rename_i hfree
        cases hresult : setting.coerce value with
        | ok coerced => exact iff_of_true ⟨_, rfl⟩ fun _ => answers_ok
        | error error =>
            dsimp only
            split
            · rename_i hcaught
              refine iff_of_true ⟨_, rfl⟩ ?_
              rintro - _ ⟨⟩
              exact hcaught
            · rename_i hraised
              exact iff_of_false nofun fun h => hraised (h hfree _ rfl)
      · rename_i hshadowed
        exact iff_of_true ⟨_, rfl⟩ fun h => absurd h hshadowed

/-- A flag follows the rule of the settings: a row that is true to the workers is the boolean, and its
key is not pinned. -/
def FollowsRule (environ : String → Option String) (stored : SettingTable) (key : String) : Prop :=
  ∀ value, stored.lookup key = some value → value.truthy = true →
    (∃ b, value = .bool b) ∧ shadowingSource environ key = none

/-- **A flag is the effective value of its key** exactly where it follows the rule. -/
theorem effectiveValue_flag_iff (hkind : setting.kind = .bool)
    (hconfigured : configured settings setting = .bool false) :
    effectiveValue environ settings stored setting = .ok (.bool (queueFlag stored setting.key)) ↔
      FollowsRule environ stored setting.key := by
  rw [effectiveValue, queueFlag, FollowsRule, hconfigured]
  cases stored.lookup setting.key with
  | none => exact iff_of_true rfl nofun
  | some value =>
      simp only [Option.any_some, Option.some.injEq, forall_eq']
      by_cases hfree : shadowingSource environ setting.key = none
      · cases value with
        | bool b => simp [hfree, RuntimeSetting.coerce, hkind, truthy]
        | _ => simp [hfree, RuntimeSetting.coerce, hkind, settingProblem, isValidation]
      · simp [hfree]

/-- No row of a number, that is not pinned, holds what `int` or `float` raises for. -/
def Readable (environ : String → Option String) (stored : SettingTable) : Prop :=
  ∀ setting ∈ runtimeSettings, ∀ value, stored.lookup setting.key = some value →
    shadowingSource environ setting.key = none → Convertible setting value

theorem exists_readRuntimeSettings_iff :
    (∃ effective, readRuntimeSettings environ settings stored = .ok effective) ↔
      Readable environ stored := by
  rw [readRuntimeSettings, exists_mapM_ok_iff]
  refine forall₂_congr fun setting _ => ?_
  rw [← exists_effectiveValue_iff]
  constructor
  · rintro ⟨_, h⟩
    obtain ⟨v, hv, -⟩ := map_eq_ok.1 h
    exact ⟨v, hv⟩
  · rintro ⟨v, hv⟩
    exact ⟨_, map_eq_ok.2 ⟨v, hv, rfl⟩⟩

theorem member?_flag_iff {effective : Members}
    (hread : readRuntimeSettings environ settings stored = .ok effective)
    (hsetting : setting ∈ runtimeSettings) (hkind : setting.kind = .bool)
    (hconfigured : configured settings setting = .bool false) :
    member? setting.key effective = some (.bool (queueFlag stored setting.key)) ↔
      FollowsRule environ stored setting.key := by
  have hnodup : (runtimeSettings.map RuntimeSetting.key).Nodup := by decide
  obtain ⟨v, hv, hmember⟩ := member?_of_mapM hnodup hread hsetting
  rw [hmember, ← effectiveValue_flag_iff hkind hconfigured, hv, Option.some.injEq,
    Except.ok.injEq]

theorem paused_mem : ⟨"queue.paused", .bool, none, none⟩ ∈ runtimeSettings := List.mem_cons_self

theorem draining_mem : ⟨"queue.draining", .bool, none, none⟩ ∈ runtimeSettings :=
  List.mem_cons_of_mem _ List.mem_cons_self

/-- **The workers act on the effective flags** exactly where the effective values can be read and
both flags follow the rule. -/
theorem flags_effective_iff :
    (∃ effective, readRuntimeSettings environ settings stored = .ok effective ∧
      member? "queue.paused" effective = some (.bool (QueueFlags.refresh stored).paused) ∧
      member? "queue.draining" effective = some (.bool (QueueFlags.refresh stored).draining)) ↔
      Readable environ stored ∧ FollowsRule environ stored "queue.paused" ∧
        FollowsRule environ stored "queue.draining" := by
  have hflag : ∀ {effective name}, readRuntimeSettings environ settings stored = .ok effective →
      name = "queue.paused" ∨ name = "queue.draining" →
        (member? name effective = some (.bool (queueFlag stored name)) ↔
          FollowsRule environ stored name) := by
    rintro effective _ hread (rfl | rfl)
    · exact member?_flag_iff hread paused_mem rfl rfl
    · exact member?_flag_iff hread draining_mem rfl rfl
  rw [← @exists_readRuntimeSettings_iff environ settings]
  constructor
  · rintro ⟨effective, hread, hpaused, hdraining⟩
    exact ⟨⟨effective, hread⟩, (hflag hread (.inl rfl)).1 hpaused,
      (hflag hread (.inr rfl)).1 hdraining⟩
  · rintro ⟨⟨effective, hread⟩, hpaused, hdraining⟩
    exact ⟨effective, hread, (hflag hread (.inl rfl)).2 hpaused,
      (hflag hread (.inr rfl)).2 hdraining⟩

/-- A row that is text pauses the queue, and the effective value is `false`. -/
theorem flags_diverge :
    ¬ ∃ effective, readRuntimeSettings (fun _ => none) {}
        ((∅ : SettingTable).insert "queue.paused" (.str "false")) = .ok effective ∧
      member? "queue.paused" effective = some (.bool
        (QueueFlags.refresh ((∅ : SettingTable).insert "queue.paused" (.str "false"))).paused) ∧
      member? "queue.draining" effective = some (.bool
        (QueueFlags.refresh ((∅ : SettingTable).insert "queue.paused" (.str "false"))).draining) := by
  rintro ⟨effective, hread, hpaused, -⟩
  have hrule := (member?_flag_iff hread paused_mem rfl rfl).1 hpaused
  obtain ⟨⟨b, hb⟩, -⟩ := hrule (.str "false") (AList.lookup_insert _) rfl
  cases hb

end Effective

/-! ### Keeping the flags -/

/-- An operator's update keeps the flags those of the table. -/
theorem QueueFlags.update_refresh (stored : SettingTable) (paused draining : Option Bool) :
    ((QueueFlags.refresh stored).update stored paused draining).1 =
      QueueFlags.refresh ((QueueFlags.refresh stored).update stored paused draining).2 := by
  cases paused <;> cases draining <;>
    simp [update, refresh, queueFlag, setQueueFlag, truthy, AList.lookup_insert,
      AList.lookup_insert_ne]

end LoadCoach.Configuration

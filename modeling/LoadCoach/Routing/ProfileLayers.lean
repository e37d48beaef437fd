import Mathlib.Algebra.BigOperators.Group.List.Basic
import LoadCoach.Routing.Subject

/-! # The layers of a runtime profile

`resolve_runtime_profile` merges the profiles of several levels.  A profile that says nothing about
adapters is a `Layer`, and layers form a monoid under merging.  A provider option is a field of its
own here, for options are merged one by one.

The resolved profile is the product of its layers (`resolveRuntimeProfile_eq_prod`), and a field of
a product is what the last layer that states it says (`read_prod`). -/

namespace LoadCoach.Routing

open Foundations
open Foundations.Json

/-! ### Options -/

theorem member?_mergeOptions (base layer : Members) (name : String) :
    member? name (mergeOptions base layer) = (member? name layer).or (member? name base) := by
  have hkept : ∀ base : Members,
      member? name (base.map fun m => (m.1, (member? m.1 layer).getD m.2)) =
        (member? name base).map fun v => (member? name layer).getD v := by
    intro base
    induction base with
    | nil => rfl
    | cons m base ih =>
        by_cases hm : m.1 = name
        · simp [member?, hm]
        · simpa [member?, hm] using ih
  have hadded : member? name base = none →
      member? name (layer.filter fun m => (member? m.1 base).isNone) = member? name layer := by
    intro hnone
    rw [member?, member?, List.find?_filter]
    congr 1
    refine congrArg (fun p => List.find? p layer) (funext fun m => ?_)
    by_cases hm : m.1 = name <;> simp [hm, hnone]
  cases hbase : member? name base with
  | none =>
      have hnone := hkept base
      rw [hbase, Option.map_none, member?, Option.map_eq_none_iff] at hnone
      rw [mergeOptions, member?, List.find?_append, hnone, Option.none_or, Option.or_none]
      exact hadded hbase
  | some value =>
      have hsome := hkept base
      rw [hbase, Option.map_some, member?, Option.map_eq_some_iff] at hsome
      obtain ⟨m, hfound, hvalue⟩ := hsome
      rw [mergeOptions, member?, List.find?_append, hfound, Option.some_or, Option.map_some, hvalue]
      cases member? name layer <;> rfl

theorem mergeOptions_nil (base : Members) : mergeOptions base [] = base := by
  simp [mergeOptions, member?]

theorem nil_mergeOptions (layer : Members) : mergeOptions [] layer = layer := by
  simp [mergeOptions, member?]

theorem mergeOptions_assoc (a b c : Members) :
    mergeOptions (mergeOptions a b) c = mergeOptions a (mergeOptions b c) := by
  have hvalue : ∀ m : String × Json, (member? m.1 c).getD ((member? m.1 b).getD m.2) =
      (member? m.1 (mergeOptions b c)).getD m.2 := by
    intro m
    rw [member?_mergeOptions]
    cases member? m.1 c <;> rfl
  have hnew : ∀ m : String × Json, (member? m.1 (mergeOptions a b)).isNone =
      ((member? m.1 a).isNone && (member? m.1 b).isNone) := by
    intro m
    rw [member?_mergeOptions]
    cases member? m.1 b <;> simp
  rw [mergeOptions, mergeOptions, List.map_append, List.map_map, List.append_assoc]
  conv_rhs => rw [mergeOptions]
  congr 1
  · exact List.map_congr_left fun m _ => congrArg (Prod.mk m.1) (hvalue m)
  · rw [mergeOptions, List.filter_append, List.filter_map, List.filter_filter]
    congr 1
    exact List.filter_congr fun m _ => hnew m

/-! ### The monoid of layers -/

/-- A profile that says nothing about adapters. -/
def Layer : Type := { p : RuntimeProfile // p.adaptersRegistered = none }

/-- What a profile says but for the adapters. -/
def layerOf (p : RuntimeProfile) : Layer := ⟨{ p with adaptersRegistered := none }, rfl⟩

theorem first_eq_or {α : Type} (preferred fallback : Option α) :
    first preferred fallback = preferred.or fallback := by
  cases preferred <;> rfl

theorem merge_assoc (a b c : RuntimeProfile) :
    merge (merge a (some b)) (some c) = merge a (some (merge b (some c))) := by
  simp only [merge, first_eq_or, Option.or_assoc, mergeOptions_assoc]

theorem merge_empty (a : Layer) : merge a.1 (some {}) = a.1 := by
  obtain ⟨a, ha⟩ := a
  cases a
  simp only at ha
  simp [merge, first, mergeOptions_nil, ha]

theorem empty_merge (a : Layer) : merge {} (some a.1) = a.1 := by
  obtain ⟨a, ha⟩ := a
  cases a
  simp only at ha
  simp [merge, first, nil_mergeOptions, ha]

/-- Merging, with the empty profile as what says nothing. -/
instance : Monoid Layer where
  mul a b := ⟨merge a.1 (some b.1), rfl⟩
  one := ⟨{}, rfl⟩
  mul_assoc a b c := Subtype.ext (merge_assoc a.1 b.1 c.1)
  one_mul a := Subtype.ext (empty_merge a)
  mul_one a := Subtype.ext (merge_empty a)

/-! ### Fields -/

/-- A field of a profile, each provider option being one. -/
inductive ProfileField where
  | contextSize
  | kvCachePrecision
  | gpuLayers
  | flashAttention
  | threads
  | batchSize
  | keepAlive
  | providerOption (name : String)

/-- What a field holds. -/
def ProfileField.Value : ProfileField → Type
  | contextSize | gpuLayers | threads | batchSize => ℕ
  | kvCachePrecision | keepAlive => String
  | flashAttention => Bool
  | providerOption _ => Json

/-- What a profile states of a field. -/
def ProfileField.read : (f : ProfileField) → RuntimeProfile → Option f.Value
  | contextSize, p => p.contextSize
  | kvCachePrecision, p => p.kvCachePrecision
  | gpuLayers, p => p.gpuLayers
  | flashAttention, p => p.flashAttention
  | threads, p => p.threads
  | batchSize, p => p.batchSize
  | keepAlive, p => p.keepAlive
  | providerOption name, p => member? name p.providerOptions

/-- The last of some layers that states a field, as it states it. -/
def ProfileField.last (f : ProfileField) (layers : List RuntimeProfile) : Option f.Value :=
  (layers.filterMap f.read).getLast?

theorem read_mul (f : ProfileField) (a b : Layer) :
    f.read (a * b).1 = (f.read b.1).or (f.read a.1) := by
  cases f with
  | providerOption name => exact member?_mergeOptions _ _ name
  | _ => exact first_eq_or _ _

theorem read_one (f : ProfileField) : f.read (1 : Layer).1 = none := by
  cases f <;> rfl

theorem read_layerOf (f : ProfileField) (p : RuntimeProfile) :
    f.read (layerOf p).1 = f.read p := by
  cases f <;> rfl

theorem read_prod (f : ProfileField) (layers : List RuntimeProfile) :
    f.read (layers.map layerOf).prod.1 = f.last layers := by
  induction layers with
  | nil => exact read_one f
  | cons p layers ih =>
      rw [List.map_cons, List.prod_cons, read_mul, ih, read_layerOf, ProfileField.last,
        ProfileField.last]
      cases hp : f.read p with
      | none => rw [List.filterMap_cons_none hp, Option.or_none]
      | some v =>
          rw [List.filterMap_cons_some hp, List.getLast?_cons]
          cases (layers.filterMap f.read).getLast? <;> rfl

/-! ### Resolving -/

section Resolve

variable (defaults : RuntimeProfile) (perModel : Option RuntimeProfile) (minContextTokens : ℕ)
  (contextConfigurable : Bool) (override : Option RuntimeProfile)

/-- The layer of a task profile: its minimum, where the provider takes a context and nothing below
states one. -/
def taskLayer : Option RuntimeProfile :=
  if contextConfigurable = true ∧ 0 < minContextTokens ∧ defaults.contextSize = none ∧
      perModel.bind RuntimeProfile.contextSize = none then
    some { contextSize := some minContextTokens }
  else none

/-- The layers of a profile, the last of them on top. -/
def profileLayers : List RuntimeProfile :=
  [defaults] ++ perModel.toList ++
    (taskLayer defaults perModel minContextTokens contextConfigurable).toList ++ override.toList

theorem layerOf_merge (base : RuntimeProfile) (layer : Option RuntimeProfile) :
    layerOf (merge base layer) = layerOf base * (layer.toList.map layerOf).prod := by
  cases layer with
  | none => exact (mul_one _).symm
  | some layer =>
      rw [Option.toList_some, List.map_singleton, List.prod_singleton]
      rfl

theorem contextSize_merge (base : RuntimeProfile) (layer : Option RuntimeProfile) :
    (merge base layer).contextSize = (layer.bind RuntimeProfile.contextSize).or base.contextSize := by
  cases layer with
  | none => rfl
  | some layer => exact first_eq_or _ _

theorem applyTaskProfileContext_eq_merge :
    applyTaskProfileContext (merge defaults perModel) minContextTokens contextConfigurable =
      merge (merge defaults perModel)
        (taskLayer defaults perModel minContextTokens contextConfigurable) := by
  have hstated : (merge defaults perModel).contextSize.isSome = true ↔
      ¬ (defaults.contextSize = none ∧ perModel.bind RuntimeProfile.contextSize = none) := by
    rw [contextSize_merge]
    cases perModel.bind RuntimeProfile.contextSize <;> cases defaults.contextSize <;> simp
  rw [applyTaskProfileContext, taskLayer]
  by_cases happlies : contextConfigurable = true ∧ 0 < minContextTokens ∧
      defaults.contextSize = none ∧ perModel.bind RuntimeProfile.contextSize = none
  · obtain ⟨hconfigurable, hpositive, hunstated⟩ := happlies
    rw [if_neg (by rw [hstated]; simp [hconfigurable, hpositive.ne', hunstated]),
      if_pos ⟨hconfigurable, hpositive, hunstated⟩]
    simp [merge, first, mergeOptions_nil]
  · rw [if_neg happlies, if_pos]
    · rfl
    · rw [hstated]
      by_contra hnot
      simp only [not_or, Bool.not_eq_false, not_not] at hnot
      exact happlies ⟨hnot.2.1, Nat.pos_of_ne_zero hnot.1, hnot.2.2⟩

theorem resolveRuntimeProfile_eq (adaptersRegistered : Option Bool) :
    resolveRuntimeProfile defaults perModel minContextTokens contextConfigurable override
        adaptersRegistered =
      let resolved := merge (merge (merge defaults perModel)
        (taskLayer defaults perModel minContextTokens contextConfigurable)) override
      { resolved with
        adaptersRegistered := adaptersRegistered.or resolved.adaptersRegistered } := by
  rw [← applyTaskProfileContext_eq_merge]
  cases adaptersRegistered <;> rfl

/-- **The resolved profile is the product of its layers**, but for what it says of adapters. -/
theorem resolveRuntimeProfile_eq_prod (adaptersRegistered : Option Bool) :
    layerOf (resolveRuntimeProfile defaults perModel minContextTokens contextConfigurable override
        adaptersRegistered) =
      ((profileLayers defaults perModel minContextTokens contextConfigurable override).map
        layerOf).prod := by
  rw [resolveRuntimeProfile_eq, profileLayers]
  change layerOf (merge (merge (merge defaults perModel) _) override) = _
  simp only [layerOf_merge, List.map_append, List.prod_append, List.map_singleton,
    List.prod_singleton]

theorem read_resolveRuntimeProfile (adaptersRegistered : Option Bool) (f : ProfileField) :
    f.read (resolveRuntimeProfile defaults perModel minContextTokens contextConfigurable override
        adaptersRegistered) =
      f.last (profileLayers defaults perModel minContextTokens contextConfigurable override) := by
  rw [← read_layerOf, resolveRuntimeProfile_eq_prod, read_prod]

theorem adaptersRegistered_resolveRuntimeProfile (adaptersRegistered : Option Bool) :
    (resolveRuntimeProfile defaults perModel minContextTokens contextConfigurable override
        adaptersRegistered).adaptersRegistered =
      adaptersRegistered.or
        (if (profileLayers defaults perModel minContextTokens contextConfigurable
            override).tail.isEmpty then defaults.adaptersRegistered else none) := by
  rw [resolveRuntimeProfile_eq, profileLayers]
  cases perModel <;> cases override <;>
    cases taskLayer defaults _ minContextTokens contextConfigurable <;> simp [merge]

theorem contextSize_resolveRuntimeProfile (adaptersRegistered : Option Bool) :
    (resolveRuntimeProfile defaults perModel minContextTokens contextConfigurable override
        adaptersRegistered).contextSize =
      ((override.bind RuntimeProfile.contextSize).or
        ((perModel.bind RuntimeProfile.contextSize).or defaults.contextSize)).or
        (if contextConfigurable = true ∧ 0 < minContextTokens then some minContextTokens
          else none) := by
  rw [resolveRuntimeProfile_eq]
  change (merge (merge (merge defaults perModel) _) override).contextSize = _
  rw [contextSize_merge, contextSize_merge, contextSize_merge, taskLayer, Option.or_assoc]
  congr 1
  by_cases hrule : contextConfigurable = true ∧ 0 < minContextTokens
  · rw [if_pos hrule]
    cases hmodel : perModel.bind RuntimeProfile.contextSize with
    | some tokens => simp
    | none =>
        cases hdefault : defaults.contextSize with
        | some tokens => simp
        | none => simp [hrule]
  · rw [if_neg hrule, if_neg (fun happlies => hrule ⟨happlies.1, happlies.2.1⟩)]
    simp

/-- The task profile's minimum makes a difference where the provider takes a context and no level
states one. -/
theorem contextSize_resolveRuntimeProfile_ne_iff (adaptersRegistered : Option Bool) :
    (resolveRuntimeProfile defaults perModel minContextTokens contextConfigurable override
        adaptersRegistered).contextSize ≠
      (resolveRuntimeProfile defaults perModel 0 contextConfigurable override
        adaptersRegistered).contextSize ↔
      contextConfigurable = true ∧ 0 < minContextTokens ∧
        ∀ p ∈ [defaults] ++ perModel.toList ++ override.toList, p.contextSize = none := by
  have hlevels : (∀ p ∈ [defaults] ++ perModel.toList ++ override.toList, p.contextSize = none) ↔
      (override.bind RuntimeProfile.contextSize).or
        ((perModel.bind RuntimeProfile.contextSize).or defaults.contextSize) = none := by
    cases perModel <;> cases override <;> simp [and_comm, and_assoc]
  rw [contextSize_resolveRuntimeProfile, contextSize_resolveRuntimeProfile, hlevels]
  cases (override.bind RuntimeProfile.contextSize).or
      ((perModel.bind RuntimeProfile.contextSize).or defaults.contextSize) with
  | some tokens => simp
  | none => simp

end Resolve

/-! ### Runtime profile layering -/

/-- **The layering of runtime profiles.**  Each field is what the last layer that states it says, and
so is each provider option; what the resolver is told of adapters is no field of a layer.  The task
profile's minimum becomes the context size where the provider takes one and no level states it.
Merging what says nothing of adapters is associative, with the empty profile as its identity. -/
theorem resolveRuntimeProfile_layered :
    (∀ (defaults : RuntimeProfile) (perModel : Option RuntimeProfile) (minContextTokens : ℕ)
      (contextConfigurable : Bool) (override : Option RuntimeProfile)
      (adaptersRegistered : Option Bool),
      let layers := profileLayers defaults perModel minContextTokens contextConfigurable override
      let resolved := resolveRuntimeProfile defaults perModel minContextTokens contextConfigurable
        override adaptersRegistered
      (∀ f : ProfileField, f.read resolved = f.last layers) ∧
      resolved.adaptersRegistered = adaptersRegistered.or
        (if layers.tail.isEmpty then defaults.adaptersRegistered else none) ∧
      (resolved.contextSize ≠ (resolveRuntimeProfile defaults perModel 0 contextConfigurable override
          adaptersRegistered).contextSize ↔
        contextConfigurable = true ∧ 0 < minContextTokens ∧
          ∀ p ∈ [defaults] ++ perModel.toList ++ override.toList, p.contextSize = none) ∧
      (resolved.contextSize ≠ (resolveRuntimeProfile defaults perModel 0 contextConfigurable override
          adaptersRegistered).contextSize → resolved.contextSize = some minContextTokens)) ∧
    (∀ a b c : Layer, merge (merge a.1 (some b.1)) (some c.1) =
      merge a.1 (some (merge b.1 (some c.1)))) ∧
    ∀ a : Layer, merge {} (some a.1) = a.1 ∧ merge a.1 (some {}) = a.1 := by
  refine ⟨?_, fun a b c => merge_assoc a.1 b.1 c.1, fun a => ⟨empty_merge a, merge_empty a⟩⟩
  intro defaults perModel minContextTokens contextConfigurable override adaptersRegistered
  refine ⟨read_resolveRuntimeProfile _ _ _ _ _ _, adaptersRegistered_resolveRuntimeProfile ..,
    contextSize_resolveRuntimeProfile_ne_iff .., fun hne => ?_⟩
  rw [contextSize_resolveRuntimeProfile, contextSize_resolveRuntimeProfile] at hne
  rw [contextSize_resolveRuntimeProfile]
  cases hlevels : (override.bind RuntimeProfile.contextSize).or
      ((perModel.bind RuntimeProfile.contextSize).or defaults.contextSize) with
  | some tokens => simp [hlevels] at hne
  | none =>
      rw [hlevels] at hne
      by_cases hrule : contextConfigurable = true ∧ 0 < minContextTokens
      · simp [hrule]
      · simp [hrule] at hne

/-- Taken whole, the provider options are not those of the last layer that states some, and a layer
that states nothing takes away what the defaults say of adapters. -/
theorem options_merged :
    (¬ ∀ (defaults : RuntimeProfile) (perModel override : Option RuntimeProfile),
      (resolveRuntimeProfile defaults perModel 0 false override none).providerOptions =
        (((profileLayers defaults perModel 0 false override).map
          RuntimeProfile.providerOptions).filter (!·.isEmpty)).getLast?.getD []) ∧
    ¬ ∀ (defaults : RuntimeProfile) (perModel override : Option RuntimeProfile),
      (resolveRuntimeProfile defaults perModel 0 false override none).adaptersRegistered =
        ((profileLayers defaults perModel 0 false override).filterMap
          RuntimeProfile.adaptersRegistered).getLast? := by
  constructor
  · intro hwhole
    have hoptions := hwhole { providerOptions := [("num_gpu", .int 1)] } none
      (some { providerOptions := [("seed", .int 7)] })
    exact absurd (congrArg List.length hoptions) (by decide)
  · intro hwhole
    exact absurd (hwhole { adaptersRegistered := some true } (some {}) none) (by decide)

end LoadCoach.Routing

import LoadCoach.Registry.Models
import LoadCoach.Routing.Scoring

/-! # What an evidence record is matched with, and when it is stale

`domain/evidence_policy.py`: `bind_identity`, which resolves the identity an evidence record
carries against the registry, and `evaluate_staleness`, which picks the one reason a record is
badged with.

A record binds to its subject.  The base is found by its exact triple; a digest is also found by a
row that knows the name only, which the caller then upgrades (`Binding.upgrade`); a name alone
never binds to a row with a digest.  The adapter is found by its digest. -/

namespace LoadCoach.Registry

open Foundations
open Routing (MatchState isPerformanceCapability)

/-! ### Adapters -/

/-- The identifier of a row of `adapters`. -/
abbrev AdapterId := ℕ

/-- A row of `adapters`, under the hash of its artifact. -/
structure AdapterRow where
  adapterId : AdapterId
  name : String
  baseModelName : String := ""
  baseArtifactDigest : Option String := none
  baseConfidence : String := "name_only"
  declaredCapabilities : List String := []
  dataClassification : String := "confidential"
  artifactPath : String := ""
  manifestPath : String := ""
  sourceSha256 : Option String := none
  manifest : Members := []
  firstSeenAt : Instant := 0
  lastSeenAt : Instant := 0
  available : Bool := true
  unavailableReason : Option String := none

/-- The table `adapters`: `artifact_sha256` is unique. -/
abbrev Adapters := Table String AdapterRow

/-! ### Binding -/

/-- The measurement subject an evidence record carries. -/
structure EvidenceIdentity where
  model : ModelIdentity
  canonicalId : String
  adapterArtifactDigest : Option String := none
deriving DecidableEq, Repr

/-- One row of the registry, as much of it as binding needs. -/
structure LocalModel where
  modelId : ModelId
  identity : ModelIdentity

/-- What an identity resolves to, and the upgrade that must be made before it is true. -/
structure Binding where
  matchState : MatchState
  modelId : Option ModelId := none
  upgrade : Option (ModelId × String) := none
  adapterId : Option AdapterId := none
deriving DecidableEq, Repr

/-- `_registry_of`. -/
def registryOf (models : Models) : List LocalModel :=
  (models.rows.select fun _ _ => true).map fun e => ⟨e.1, e.2.identity⟩

/-- `_bind_base`. -/
def bindBase (identity : ModelIdentity) (registry : List LocalModel) : Binding :=
  let sameName := registry.filter fun row => row.identity.name == identity.name
  match sameName.find? fun row => row.identity.artifactDigest == identity.artifactDigest with
  | some row => { matchState := .bound, modelId := some row.modelId }
  | none =>
      match identity.artifactDigest with
      | some digest =>
          match sameName.find? fun row => row.identity.artifactDigest == none with
          | some row =>
              { matchState := .bound, modelId := some row.modelId
                upgrade := some (row.modelId, digest) }
          | none => { matchState := .unmatched }
      | none =>
          if sameName.isEmpty then { matchState := .unmatched }
          else { matchState := .ambiguousNameOnly }

/-- `bind_identity`. -/
def bindIdentity (identity : EvidenceIdentity) (registry : List LocalModel) (adapters : Adapters) :
    Binding :=
  let base := bindBase identity.model registry
  match identity.adapterArtifactDigest with
  | none => base
  | some digest =>
      match adapters.lookup digest with
      | none => { matchState := .unmatched }
      | some adapter =>
          if base.matchState = .bound then { base with adapterId := some adapter.adapterId }
          else { matchState := base.matchState }

/-! ### The search over the rows -/

theorem mem_registryOf {models : Models} {row : LocalModel} :
    row ∈ registryOf models ↔
      ∃ stored, models.rows.lookup row.modelId = some stored ∧ stored.identity = row.identity := by
  simp only [registryOf, List.mem_map, Prod.exists, Table.mem_select, and_true]
  constructor
  · rintro ⟨m, stored, hstored, rfl⟩
    exact ⟨stored, hstored, rfl⟩
  · rintro ⟨stored, hstored, hidentity⟩
    exact ⟨row.modelId, stored, hstored, by rw [hidentity]⟩

/-- Searching the rows of a name for a digest finds the row of that identity, in whatever order
they are read. -/
theorem find?_sameName {models : Models} {registry : List LocalModel}
    (hrows : registry.Perm (registryOf models)) (identity : ModelIdentity)
    (digest : Option String) :
    (registry.filter fun row => row.identity.name == identity.name).find?
        (fun row => row.identity.artifactDigest == digest) =
      (models.find { identity with artifactDigest := digest }).map
        fun e => ⟨e.1, e.2.identity⟩ := by
  have hmatch : ∀ row : LocalModel,
      row ∈ registry.filter (fun row => row.identity.name == identity.name) ∧
        (row.identity.artifactDigest == digest) = true ↔
      ∃ stored, models.find { identity with artifactDigest := digest } =
        some (row.modelId, stored) ∧ stored.identity = row.identity := by
    intro row
    simp only [List.mem_filter, hrows.mem_iff, mem_registryOf, beq_iff_eq,
      Indexed.find_eq_some_iff]
    constructor
    · rintro ⟨⟨⟨stored, hstored, hidentity⟩, hname⟩, hdigest⟩
      have hsame : row.identity = { identity with artifactDigest := digest } :=
        ModelIdentity.eq_iff.2 ⟨hname, hdigest⟩
      exact ⟨stored, ⟨hstored, hidentity.trans hsame⟩, hidentity⟩
    · rintro ⟨stored, ⟨hstored, hsame⟩, hidentity⟩
      rw [← hidentity, hsame]
      exact ⟨⟨⟨stored, hstored, hsame⟩, rfl⟩, rfl⟩
  cases hfind : models.find { identity with artifactDigest := digest } with
  | none =>
      rw [Option.map_none, List.find?_eq_none]
      intro row hrow hdigest
      obtain ⟨stored, hstored, -⟩ := (hmatch row).1 ⟨hrow, hdigest⟩
      rw [hfind] at hstored
      cases hstored
  | some e =>
      have hfirst := (hmatch ⟨e.1, e.2.identity⟩).2 ⟨e.2, hfind, rfl⟩
      have hsome := List.find?_isSome
        (p := fun row : LocalModel => row.identity.artifactDigest == digest).2
        ⟨_, hfirst.1, hfirst.2⟩
      obtain ⟨row, hrow⟩ := Option.isSome_iff_exists.1 hsome
      have hin := List.mem_of_find?_eq_some hrow
      have hdigest := List.find?_some hrow
      obtain ⟨stored, hstored, hidentity⟩ := (hmatch row).1 ⟨hin, hdigest⟩
      rw [hfind, Option.some.injEq] at hstored
      rw [hrow, Option.map_some, hstored, hidentity]

/-- The registry knows a name. -/
def Models.Names (models : Models) (i : ModelIdentity) : Prop :=
  ∃ m row, models.rows.lookup m = some row ∧ row.identity.name = i.name

theorem isEmpty_sameName_iff {models : Models} {registry : List LocalModel}
    (hrows : registry.Perm (registryOf models)) {i : ModelIdentity} :
    (registry.filter fun row => row.identity.name == i.name).isEmpty = true ↔
      ¬ models.Names i := by
  rw [List.isEmpty_iff, List.filter_eq_nil_iff]
  constructor
  · rintro h ⟨m, row, hrow, hname⟩
    exact h ⟨m, row.identity⟩ (hrows.mem_iff.2 (mem_registryOf.2 ⟨row, hrow, rfl⟩))
      (by simp [hname])
  · intro h row hrow hname
    obtain ⟨stored, hstored, hidentity⟩ := mem_registryOf.1 (hrows.mem_iff.1 hrow)
    exact h ⟨row.modelId, stored, hstored, by rw [hidentity]; simpa using hname⟩

/-- **The base of a subject**, by the rows of the registry. -/
inductive Bases (models : Models) (i : ModelIdentity) : Binding → Prop
  | exact {m : ModelId} {row : ModelRow} (h : models.find i = some (m, row)) :
      Bases models i { matchState := .bound, modelId := some m }
  | upgrade {m : ModelId} {row : ModelRow} {digest : String} (hexact : models.find i = none)
      (hdigest : i.artifactDigest = some digest) (h : models.find i.nameOnly = some (m, row)) :
      Bases models i
        { matchState := .bound, modelId := some m, upgrade := some (m, digest) }
  | unmatched (hexact : models.find i = none) (hname : models.find i.nameOnly = none)
      (h : i.artifactDigest = none → ¬ models.Names i) :
      Bases models i { matchState := .unmatched }
  | ambiguous (hexact : models.find i = none) (hdigest : i.artifactDigest = none)
      (h : models.Names i) : Bases models i { matchState := .ambiguousNameOnly }

theorem bases_of_perm {models : Models} {registry : List LocalModel}
    (hrows : registry.Perm (registryOf models)) (i : ModelIdentity) :
    Bases models i (bindBase i registry) := by
  rw [bindBase, find?_sameName hrows, find?_sameName hrows]
  cases hexact : models.find i with
  | some e => exact .exact hexact
  | none =>
      cases hdigest : i.artifactDigest with
      | some digest =>
          cases hname : models.find i.nameOnly with
          | some e =>
              rw [ModelIdentity.nameOnly] at hname
              rw [hname]
              exact .upgrade hexact hdigest hname
          | none =>
              rw [ModelIdentity.nameOnly] at hname
              rw [hname]
              exact .unmatched hexact hname fun h => by simp [h] at hdigest
      | none =>
          have hsame : i.nameOnly = i := ModelIdentity.eq_iff.2 ⟨rfl, hdigest.symm⟩
          by_cases hknown : models.Names i
          · have hempty := mt (isEmpty_sameName_iff hrows).1 (not_not_intro hknown)
            simp only [Option.map_none, hempty]
            exact .ambiguous hexact hdigest hknown
          · have hempty := (isEmpty_sameName_iff hrows).2 hknown
            simp only [Option.map_none, hempty]
            exact .unmatched hexact (hsame.symm ▸ hexact) fun _ => hknown

theorem bases_bindBase (models : Models) (i : ModelIdentity) :
    Bases models i (bindBase i (registryOf models)) := bases_of_perm (.refl _) i

end LoadCoach.Registry

import LoadCoach.Foundations.Indexed
import LoadCoach.Routing.Subject

/-! # The model registry

The tables `models` and `model_capabilities`, and the two writes a discovery pass makes for each
reported model: `_upsert_model` and `_sync_declared_capabilities` (`services/models.py`).  A model
is identified by a triple, and the schema's two unique indexes say that no two rows share one
(`Indexed.unique`); a name without a digest is an identity of its own.

An upsert finds the row of the reported identity, or for a digest the row that knew the name only,
which it upgrades in place; otherwise it adds a row (`Models.target`). -/

namespace LoadCoach.Registry

open Foundations
open Routing (SignalSource)

/-! ### What is reported and what is stored -/

/-- The identifier of a row of `models`. -/
abbrev ModelId := ℕ

/-- `(provider_kind, provider_model_name, artifact_digest)`. -/
structure ModelIdentity where
  providerKind : String
  providerModelName : String
  artifactDigest : Option String
deriving DecidableEq, Repr

/-- The name, within its provider kind. -/
def ModelIdentity.name (i : ModelIdentity) : String × String :=
  (i.providerKind, i.providerModelName)

/-- The same name, its digest unknown. -/
def ModelIdentity.nameOnly (i : ModelIdentity) : ModelIdentity := { i with artifactDigest := none }

@[simp] theorem ModelIdentity.name_nameOnly (i : ModelIdentity) : i.nameOnly.name = i.name := rfl

@[simp] theorem ModelIdentity.artifactDigest_nameOnly (i : ModelIdentity) :
    i.nameOnly.artifactDigest = none := rfl

theorem ModelIdentity.nameOnly_withDigest {i : ModelIdentity} {digest : String}
    (h : i.artifactDigest = some digest) : { i.nameOnly with artifactDigest := some digest } = i := by
  rw [← h]
  rfl

theorem ModelIdentity.eq_iff {i j : ModelIdentity} :
    i = j ↔ i.name = j.name ∧ i.artifactDigest = j.artifactDigest := by
  cases i
  cases j
  simp [name, and_assoc]

/-- The facts of a descriptor that `models` has a column for; the geometry holds the fields the
memory estimator needs. -/
structure ReportedFacts where
  geometry : Members := []
  maxContext : Option ℤ := none
  sizeBytes : Option ℤ := none
  quantization : Option String := none
  family : Option String := none
  parameterCount : Option ℤ := none

/-- A flag a provider declares for a model. -/
inductive ModelCapabilityFlag where
  | tools
  | structuredOutput
  | other (value : String)
deriving DecidableEq, Repr

/-- A model as a provider reports it.  The identity's canonical ID and confidence are its own;
the flags come in the order of their values. -/
structure ModelDescriptor where
  identity : ModelIdentity
  canonicalId : String
  identityConfidence : String
  facts : ReportedFacts := {}
  declaredCapabilities : List ModelCapabilityFlag := []

/-- A row of `models`. -/
structure ModelRow where
  identity : ModelIdentity
  canonicalId : String
  identityConfidence : String
  providerName : String := ""
  isRemote : Bool := false
  facts : ReportedFacts := {}
  firstSeenAt : Instant
  lastSeenAt : Instant
  available : Bool := true
  unavailableReason : Option String := none
  enabled : Bool := true

/-- A row of `model_capabilities`. -/
structure CapabilityRow where
  score : Option ℚ
  confidence : ℚ
  updatedAt : Instant

/-- The table `models`: the two indexes of the schema make the identity unique. -/
abbrev Models := Indexed ModelId ModelRow.identity

namespace Models

variable {models : Models} {i : ModelIdentity}

/-! ### `_upsert_model` -/

/-- The row a sighting of an identity goes to: its own, or for a digest the one that knew the name
only. -/
def existing (i : ModelIdentity) (models : Models) : Option (ModelId × ModelRow) :=
  match models.find i with
  | some found => some found
  | none => if i.artifactDigest.isSome then models.find i.nameOnly else none

/-- Its identifier, or that of a new row. -/
def target (i : ModelIdentity) (models : Models) : ModelId :=
  match models.existing i with
  | some (m, _) => m
  | none => freshId models.rows

theorem target_eq {m' : ModelId} {row' : ModelRow} (hrow : models.rows.lookup m' = some row')
    (hidentity : row'.identity = i) : m' = models.target i := by
  rw [target, existing, Indexed.find_eq_some_iff.2 ⟨hrow, hidentity⟩]

end Models

/-- A registration as a discovery pass sees it. -/
structure Registration where
  name : String
  kind : String
  isRemote : Bool := false
deriving DecidableEq, Repr

/-- The row of a sighting: what was reported, over what the row already said. -/
def ModelDescriptor.sighted (descriptor : ModelDescriptor) (now : Instant)
    (registration : Registration) (existing : Option ModelRow) : ModelRow where
  identity := descriptor.identity
  canonicalId := descriptor.canonicalId
  identityConfidence := descriptor.identityConfidence
  providerName := registration.name
  isRemote := registration.isRemote
  facts := descriptor.facts
  firstSeenAt := (existing.map ModelRow.firstSeenAt).getD now
  lastSeenAt := now
  available := true
  unavailableReason := none
  enabled := (existing.map ModelRow.enabled).getD true

/-- `_upsert_model`. -/
def Models.upsert (descriptor : ModelDescriptor) (now : Instant) (registration : Registration)
    (models : Models) : Models :=
  models.put (models.target descriptor.identity)
    (descriptor.sighted now registration ((models.existing descriptor.identity).map Prod.snd))
    fun _ _ hrow hidentity => Models.target_eq hrow hidentity

section Upsert

variable {models : Models} {i : ModelIdentity} {descriptor : ModelDescriptor} {now : Instant}
  {registration : Registration} {m : ModelId} {row : ModelRow}

/-- The row a sighting goes to is the identity's own, or the name-only one where there is none. -/
theorem Models.existing_eq_some_iff :
    models.existing i = some (m, row) ↔
      models.rows.lookup m = some row ∧
        (row.identity = i ∨
          models.find i = none ∧ i.artifactDigest ≠ none ∧ row.identity = i.nameOnly) := by
  rw [Models.existing]
  cases hfind : models.find i with
  | some found =>
      have hown : some found = some (m, row) ↔
          models.rows.lookup m = some row ∧ row.identity = i := by
        rw [← hfind, Indexed.find_eq_some_iff]
      simpa using hown
  | none =>
      dsimp only
      have hnot := Indexed.find_eq_none_iff.1 hfind m row
      by_cases hdigest : i.artifactDigest.isSome
      · rw [if_pos hdigest, Indexed.find_eq_some_iff]
        refine and_congr_right fun hrow => ?_
        simp [hnot hrow, Option.isSome_iff_ne_none.1 hdigest]
      · rw [if_neg hdigest]
        rw [Option.not_isSome_iff_eq_none] at hdigest
        simp only [reduceCtorEq, hdigest, ne_eq, not_true, false_and, and_false, or_false, false_iff,
          not_and]
        exact hnot

theorem Models.existing_of_target (hrow : models.rows.lookup m = some row)
    (htarget : models.target i = m) : models.existing i = some (m, row) := by
  rw [Models.target] at htarget
  cases hexisting : models.existing i with
  | some found =>
      rw [hexisting] at htarget
      dsimp only at htarget
      have hfound := (Models.existing_eq_some_iff.1 hexisting).1
      rw [htarget, hrow, Option.some.injEq] at hfound
      rw [← htarget, hfound]
  | none =>
      rw [hexisting] at htarget
      dsimp only at htarget
      refine absurd (AList.lookup_isSome.1 ?_) (freshId_notMem models.rows)
      rw [htarget, hrow]
      rfl

theorem Models.target_of_existing (h : models.existing i = some (m, row)) :
    models.target i = m := by
  rw [Models.target, h]

/-- **An upsert** writes one row. -/
theorem Models.lookup_upsert (m : ModelId) :
    (models.upsert descriptor now registration).rows.lookup m =
      if m = models.target descriptor.identity then
        some (descriptor.sighted now registration
          ((models.existing descriptor.identity).map Prod.snd))
      else models.rows.lookup m := by
  rw [Models.upsert, Indexed.put]
  split
  · rename_i h
    rw [h, AList.lookup_insert]
  · rename_i h
    rw [AList.lookup_insert_ne h]

theorem Models.find_upsert_of_digest (hdigest : i.artifactDigest ≠ none)
    (h : models.find i = some (m, row)) :
    ∃ row', (models.upsert descriptor now registration).find i = some (m, row') := by
  obtain ⟨hrow, hidentity⟩ := Indexed.find_eq_some_iff.1 h
  by_cases htarget : m = models.target descriptor.identity
  · refine ⟨_, Indexed.find_eq_some_iff.2 ⟨(Models.lookup_upsert m).trans (if_pos htarget), ?_⟩⟩
    have hexisting := Models.existing_of_target hrow htarget.symm
    rcases (Models.existing_eq_some_iff.1 hexisting).2 with hsame | ⟨-, -, hname⟩
    · exact hsame.symm.trans hidentity
    · rw [← hidentity, hname] at hdigest
      exact absurd rfl hdigest
  · refine ⟨row, Indexed.find_eq_some_iff.2 ⟨?_, hidentity⟩⟩
    rw [Models.lookup_upsert, if_neg htarget, hrow]

end Upsert

/-! ### `_sync_declared_capabilities` -/

/-- `_FLAG_TO_CAPABILITY`. -/
def flagToCapability : ModelCapabilityFlag → Option String
  | .tools => some "tool_use"
  | .structuredOutput => some "structured_output"
  | .other _ => none

/-- `declared_capabilities_for`: the capabilities, each with the score 1 and the confidence ½. -/
def declaredCapabilitiesFor (descriptor : ModelDescriptor) : List (String × ℚ × ℚ) :=
  descriptor.declaredCapabilities.filterMap fun flag =>
    (flagToCapability flag).map fun capabilityId => (capabilityId, 1, 1 / 2)

/-- The tables of the registry; a capability row names a row of `models`. -/
structure ModelRegistry where
  models : Models := .empty
  capabilities : Table (ModelId × String × SignalSource) CapabilityRow := ∅
  referenced : ∀ {key row}, capabilities.lookup key = some row → key.1 ∈ models.rows := by
    intro key row h
    cases h

/-- A registry without capabilities. -/
def ModelRegistry.ofModels (models : Models) : ModelRegistry where
  models

end LoadCoach.Registry

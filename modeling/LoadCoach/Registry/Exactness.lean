import LoadCoach.Registry.Resolution

/-! # Binding is exact

`bind_identity` credits a measurement to weights, so what it answers has to be the registry's word
and nothing else.  It searches two lists, and the schema's indexes make what it searches for unique
in both; hence the answer depends on the rows and not on their order (`bindIdentity_perm`).

* `bindIdentity_exact`: an answer without an upgrade names the row of the subject's own triple, an
  upgrade the row of its name that has no digest, a record with an adapter is bound to a base and
  to that adapter or not at all, and an upgrade settles the answer. -/

namespace LoadCoach.Registry

open Foundations
open Routing (MatchState)

variable {models : Models} {adapters adapters' : Adapters} {registry : List LocalModel}
  {x : EvidenceIdentity} {binding : Binding}

/-! ### Order -/

theorem Bases.unique {i : ModelIdentity} {base base' : Binding} (h : Bases models i base)
    (h' : Bases models i base') : base = base' := by
  cases h with
  | exact hexact =>
      cases h' with
      | exact hexact' =>
          cases hexact.symm.trans hexact'
          rfl
      | upgrade hnone | unmatched hnone | ambiguous hnone =>
          cases hexact.symm.trans hnone
  | upgrade hnone hdigest hname =>
      cases h' with
      | exact hexact' => cases hnone.symm.trans hexact'
      | upgrade _ hdigest' hname' =>
          cases hdigest.symm.trans hdigest'
          cases hname.symm.trans hname'
          rfl
      | unmatched _ hname' => cases hname.symm.trans hname'
      | ambiguous _ hdigest' => cases hdigest.symm.trans hdigest'
  | unmatched hnone hname hknown =>
      cases h' with
      | exact hexact' => cases hnone.symm.trans hexact'
      | upgrade _ _ hname' => cases hname.symm.trans hname'
      | unmatched => rfl
      | ambiguous _ hdigest' hknown' => exact absurd hknown' (hknown hdigest')
  | ambiguous hnone hdigest hknown =>
      cases h' with
      | exact hexact' => cases hnone.symm.trans hexact'
      | upgrade _ hdigest' => cases hdigest.symm.trans hdigest'
      | unmatched _ _ hknown' => exact absurd hknown (hknown' hdigest)
      | ambiguous => rfl

/-- **The order of the rows is no matter.** -/
theorem bindIdentity_perm (hrows : registry.Perm (registryOf models))
    (hadapters : adapters'.entries.Perm adapters.entries) (x : EvidenceIdentity) :
    bindIdentity x registry adapters' = bindIdentity x (registryOf models) adapters := by
  have hbase : bindBase x.model registry = bindBase x.model (registryOf models) :=
    (bases_of_perm hrows x.model).unique (bases_bindBase models x.model)
  unfold bindIdentity
  rw [hbase]
  cases x.adapterArtifactDigest with
  | none => rfl
  | some digest =>
      have hlookup : adapters'.lookup digest = adapters.lookup digest := AList.perm_lookup hadapters
      dsimp only
      rw [hlookup]

/-! ### What an answer says -/

/-- What an answer says of the registry and of the adapters. -/
structure SaysExactly (models : Models) (adapters : Adapters) (x : EvidenceIdentity)
    (binding : Binding) : Prop where
  /-- Bound as it is: to the row of the subject's own triple. -/
  exact : binding.matchState = .bound → binding.upgrade = none →
    ∃ m row, binding.modelId = some m ∧ models.rows.lookup m = some row ∧
      row.identity = x.model
  /-- Bound by an upgrade: to the row of the name that knows no digest. -/
  upgrade : ∀ m digest, binding.upgrade = some (m, digest) →
    binding.matchState = .bound ∧ binding.modelId = some m ∧
      x.model.artifactDigest = some digest ∧
      ∃ row, models.rows.lookup m = some row ∧ row.identity = x.model.nameOnly
  /-- A measurement on an adapter is bound to a base and to that adapter. -/
  subject : ∀ digest, x.adapterArtifactDigest = some digest → binding.matchState = .bound →
    (bindBase x.model (registryOf models)).matchState = .bound ∧
      ∃ adapter, adapters.lookup digest = some adapter ∧
        binding.adapterId = some adapter.adapterId
  /-- Nothing is named that is not bound. -/
  unbound : binding.matchState ≠ .bound →
    binding.modelId = none ∧ binding.upgrade = none ∧ binding.adapterId = none
  /-- Once the upgrade is made, binding again names the same rows and asks for nothing. -/
  settled : ∀ canonicalId,
    bindIdentity x (registryOf (binding.applied canonicalId models)) adapters =
      { binding with upgrade := none }

/-- **A subject is bound as its base**, and to its adapter, or not at all. -/
inductive Binds (adapters : Adapters) (x : EvidenceIdentity) (base : Binding) : Binding → Prop
  | bare (hadapter : x.adapterArtifactDigest = none) : Binds adapters x base base
  | missing {digest : String} (hadapter : x.adapterArtifactDigest = some digest)
      (hmissing : adapters.lookup digest = none) :
      Binds adapters x base { matchState := .unmatched }
  | adapted {digest : String} {adapter : AdapterRow}
      (hadapter : x.adapterArtifactDigest = some digest)
      (hheld : adapters.lookup digest = some adapter) (hbound : base.matchState = .bound) :
      Binds adapters x base { base with adapterId := some adapter.adapterId }
  | unbound {digest : String} {adapter : AdapterRow}
      (hadapter : x.adapterArtifactDigest = some digest)
      (hheld : adapters.lookup digest = some adapter) (hbound : base.matchState ≠ .bound) :
      Binds adapters x base { matchState := base.matchState }

theorem binds_bindIdentity (x : EvidenceIdentity) (registry : List LocalModel)
    (adapters : Adapters) :
    Binds adapters x (bindBase x.model registry) (bindIdentity x registry adapters) := by
  unfold bindIdentity
  cases hadapter : x.adapterArtifactDigest with
  | none => exact .bare hadapter
  | some digest =>
      dsimp only
      cases hheld : adapters.lookup digest with
      | none => exact .missing hadapter hheld
      | some adapter =>
          dsimp only
          split_ifs with hbound
          · exact .adapted hadapter hheld hbound
          · exact .unbound hadapter hheld hbound

theorem Bases.exact_of_bound {i : ModelIdentity} {base : Binding} (h : Bases models i base)
    (hbound : base.matchState = .bound) (hupgrade : base.upgrade = none) :
    ∃ m row, base.modelId = some m ∧ models.rows.lookup m = some row ∧ row.identity = i := by
  cases h with
  | exact hfind =>
      obtain ⟨hrow, hidentity⟩ := Indexed.find_eq_some_iff.1 hfind
      exact ⟨_, _, rfl, hrow, hidentity⟩
  | upgrade => cases hupgrade
  | unmatched | ambiguous => cases hbound

theorem Bases.upgrade_names {i : ModelIdentity} {base : Binding} {m : ModelId} {digest : String}
    (h : Bases models i base) (hupgrade : base.upgrade = some (m, digest)) :
    base.matchState = .bound ∧ base.modelId = some m ∧ i.artifactDigest = some digest ∧
      ∃ row, models.rows.lookup m = some row ∧ row.identity = i.nameOnly := by
  cases h with
  | upgrade hexact hdigest hname =>
      cases hupgrade
      obtain ⟨hrow, hidentity⟩ := Indexed.find_eq_some_iff.1 hname
      exact ⟨rfl, rfl, hdigest, _, hrow, hidentity⟩
  | exact | unmatched | ambiguous => cases hupgrade

theorem Bases.unbound_names {i : ModelIdentity} {base : Binding} (h : Bases models i base)
    (hbound : base.matchState ≠ .bound) :
    base.modelId = none ∧ base.upgrade = none ∧ base.adapterId = none := by
  cases h with
  | exact | upgrade => exact absurd rfl hbound
  | unmatched | ambiguous => exact ⟨rfl, rfl, rfl⟩

theorem bindBase_applied (hres : x.Resolvable adapters) (canonicalId : String) :
    bindBase x.model (registryOf
        ((bindIdentity x (registryOf models) adapters).applied canonicalId models)) =
      { bindBase x.model (registryOf models) with upgrade := none } := by
  have hupgrade := @upgrade_bindIdentity adapters models x hres
  have hdirectory := @directory_applied adapters models x canonicalId
  rw [if_pos hres] at hdirectory
  have hbase := bases_bindBase models x.model
  generalize hbound : bindBase x.model (registryOf models) = base at hbase hupgrade ⊢
  cases hbase with
  | exact | unmatched | ambiguous =>
      rw [Binding.applied, hupgrade]
      exact hbound
  | @upgrade m row digest hexact hdigest hname =>
      generalize (bindIdentity x (registryOf models) adapters).applied canonicalId models = models'
        at hdirectory ⊢
      -- the digest has taken over the entry of the row that knew the name only
      have htakes : models.directory.Takes x.model.name (x.model.name, x.model.artifactDigest) := by
        refine ⟨rfl, by simp [hdigest], ?_⟩
        rw [Models.directory_eq, hexact]
        rfl
      have hentry : models'.directory x.model.name x.model.artifactDigest = some m := by
        rw [hdirectory, Directory.claim_of_takes htakes, Directory.handed, if_pos rfl,
          Models.directory_none, hname]
        rfl
      rw [Models.directory_eq, Option.map_eq_some_iff] at hentry
      obtain ⟨⟨m', row'⟩, hfind, rfl⟩ := hentry
      exact (bases_bindBase models' x.model).unique (.exact hfind)

theorem bindIdentity_settled {registry' : List LocalModel}
    (hbase : bindBase x.model registry' = { bindBase x.model registry with upgrade := none }) :
    bindIdentity x registry' adapters =
      { bindIdentity x registry adapters with upgrade := none } := by
  unfold bindIdentity
  rw [hbase]
  cases x.adapterArtifactDigest with
  | none => rfl
  | some digest =>
      dsimp only
      cases adapters.lookup digest with
      | none => rfl
      | some adapter =>
          dsimp only
          split_ifs <;> rfl

theorem saysExactly_bindIdentity (models : Models) (adapters : Adapters) (x : EvidenceIdentity) :
    SaysExactly models adapters x (bindIdentity x (registryOf models) adapters) := by
  have hbase := bases_bindBase models x.model
  have hbinds := binds_bindIdentity x (registryOf models) adapters
  have hsettled : ∀ canonicalId,
      bindIdentity x (registryOf
          ((bindIdentity x (registryOf models) adapters).applied canonicalId models)) adapters =
        { bindIdentity x (registryOf models) adapters with upgrade := none } := by
    intro canonicalId
    by_cases hres : x.Resolvable adapters
    · exact bindIdentity_settled (bindBase_applied hres canonicalId)
    · rw [bindIdentity_of_not_resolvable hres, bindIdentity_of_not_resolvable hres]
  refine ⟨?_, ?_, ?_, ?_, hsettled⟩
  all_goals
    clear hsettled
    generalize bindIdentity x (registryOf models) adapters = binding at hbinds ⊢
  · intro hbound hupgrade
    cases hbinds with
    | bare => exact hbase.exact_of_bound hbound hupgrade
    | adapted => exact hbase.exact_of_bound hbound hupgrade
    | missing => cases hbound
    | unbound _ _ hnot => exact absurd hbound hnot
  · intro m digest hupgrade
    cases hbinds with
    | bare => exact hbase.upgrade_names hupgrade
    | adapted => exact hbase.upgrade_names hupgrade
    | missing | unbound => cases hupgrade
  · intro digest hdigest hbound
    cases hbinds with
    | bare hbare => cases hbare.symm.trans hdigest
    | adapted hadapter hheld hbase =>
        cases hadapter.symm.trans hdigest
        exact ⟨hbase, _, hheld, rfl⟩
    | missing => cases hbound
    | unbound _ _ hnot => exact absurd hbound hnot
  · intro hunbound
    cases hbinds with
    | bare => exact hbase.unbound_names hunbound
    | adapted _ _ hbound => exact absurd hbound hunbound
    | missing | unbound => exact ⟨rfl, rfl, rfl⟩

/-- Binding is exact: its answer is the same for every order of the rows, and says of them what it
should. -/
structure BindsExactly (models : Models) (adapters : Adapters) (x : EvidenceIdentity) : Prop where
  order : ∀ registry adapters', registry.Perm (registryOf models) →
    adapters'.entries.Perm adapters.entries →
    bindIdentity x registry adapters' = bindIdentity x (registryOf models) adapters
  answer : SaysExactly models adapters x (bindIdentity x (registryOf models) adapters)

/-- **Binding is exact**, for every registry, every set of adapters and every subject. -/
theorem bindIdentity_exact (models : Models) (adapters : Adapters) (x : EvidenceIdentity) :
    BindsExactly models adapters x where
  order _ _ hrows hadapters := bindIdentity_perm hrows hadapters x
  answer := saysExactly_bindIdentity models adapters x

end LoadCoach.Registry

import LoadCoach.Registry.Projection

/-! # The same answers again

A pass over a registry that carries what is reported finds a row for every report, and no subject of
the evidence has a row left to take: it rewrites the rows that were reported and retires the others
by the rule of the first pass (`lookup_again`).  So it changes timestamps only, but for a capability
that a later report of the same model takes back and for a row that evidence gave another canonical
ID (`repeats_iff`).

`projects_iff` puts this together with what the first pass leaves. -/

namespace LoadCoach.Registry

open Foundations
open Routing (SignalSource)

/-! ### Subjects with no row to take -/

section Subjects

variable {adapters : Adapters} {models : Models} {x : EvidenceIdentity} {l : List EvidenceIdentity}

theorem find_foldl_of_digest {i : ModelIdentity} (hdigest : i.artifactDigest ≠ none)
    (h : models.find i ≠ none) : (l.foldl (bindSubject adapters) models).find i ≠ none := by
  obtain ⟨⟨m, row⟩, hfind⟩ := Option.ne_none_iff_exists'.1 h
  have hkept := (find_foldl_bindSubject adapters l hfind).1
    (takerOf_of_digest hdigest)
  rw [hkept]
  exact nofun

/-- **A subject that was matched** has a row, or there is none of its name left. -/
theorem find_foldl_nameOnly (hx : x ∈ l) (hres : x.Resolvable adapters)
    (hdigest : x.model.artifactDigest ≠ none)
    (h : (l.foldl (bindSubject adapters) models).find x.model = none) :
    (l.foldl (bindSubject adapters) models).find x.model.nameOnly = none := by
  induction l generalizing models with
  | nil => cases hx
  | cons y l ih =>
      rw [List.foldl_cons] at h ⊢
      rcases List.mem_cons.1 hx with rfl | hx
      · refine find_foldl_of_none rfl ?_
        rcases @bindSubject_cases adapters models x with ⟨hsame, hnone⟩ |
          ⟨m, row, -, -, -, -, hfind⟩
        · rw [hsame] at h ⊢
          refine hnone hres ?_ hdigest
          by_contra hrow
          exact find_foldl_of_digest hdigest hrow h
        · have hself := hfind x.model
          rw [if_pos rfl] at hself
          exact absurd h (find_foldl_of_digest hdigest (by rw [hself]; exact nofun))
      · exact ih hx h

theorem foldl_bindSubject_eq_self
    (h : ∀ x ∈ l, x.Resolvable adapters → x.model.artifactDigest ≠ none →
      models.find x.model = none → models.find x.model.nameOnly = none) :
    l.foldl (bindSubject adapters) models = models := by
  induction l with
  | nil => rfl
  | cons x l ih =>
      have hone : bindSubject adapters models x = models := by
        rcases @bindSubject_cases adapters models x with ⟨hsame, -⟩ |
          ⟨m, row, hres, hexact, hdigest, hname, -⟩
        · exact hsame
        · rw [h x List.mem_cons_self hres hdigest hexact] at hname
          cases hname
      rw [List.foldl_cons, hone]
      exact ih fun y hy => h y (List.mem_cons_of_mem _ hy)

end Subjects

/-! ### The second pass -/

section Again

variable {answers : List Answer} {now now' : Instant} {disabled : List String}
  {order order' : List EvidenceKey} {db db' db'' : EvidenceDb} {outcome outcome' : DiscoveryOutcome}
  {m : ModelId} {row row' : ModelRow} {j : ModelIdentity} {r : Report} {x : EvidenceIdentity}

theorem lookup_projected (m : ModelId) :
    (projected answers now disabled db.registry).models.rows.lookup m =
      ((db.registry.models.sightings now (reports (listedOf answers))).rows.lookup m).map
        fun row => row.afterPass answers disabled := by
  have hfind := @find_projected answers now disabled db
  cases hrow : (db.registry.models.sightings now (reports (listedOf answers))).rows.lookup m with
  | some row =>
      have hsome := @hfind row.identity
      rw [Indexed.find_eq_some_iff.2 ⟨hrow, rfl⟩, Option.map_some] at hsome
      exact (Indexed.find_eq_some_iff.1 hsome).1
  | none =>
      rw [Option.map_none, Option.eq_none_iff_forall_ne_some]
      intro row hsome
      have hfound := @hfind row.identity
      rw [Indexed.find_eq_some_iff.2 ⟨hsome, rfl⟩, eq_comm, Option.map_eq_some_iff] at hfound
      obtain ⟨⟨m', row₀⟩, hrow₀, heq⟩ := hfound
      obtain ⟨rfl, -⟩ := Prod.mk.inj heq
      rw [(Indexed.find_eq_some_iff.1 hrow₀).1] at hrow
      cases hrow

theorem find_of_carriesReports {l : List Report} {registry : ModelRegistry}
    (h : CarriesReports l registry) : ∀ i ∈ sighted l, registry.models.find i ≠ none := by
  intro i hi
  obtain ⟨r, hlast⟩ := Option.ne_none_iff_exists'.1 (mt lastOf_eq_none_iff.1 (not_not.2 hi))
  obtain ⟨m, row, hfind, -⟩ := h i r hlast
  rw [hfind]
  exact nofun

theorem mem_identitiesOf_of_discoverModels
    (hok : discoverModels answers now disabled order db = .ok (db', outcome))
    (hperm : order.Perm db.evidence.keys) (hx : x ∈ identitiesOf db'.evidence order') :
    x ∈ identitiesOf db.evidence order := by
  obtain ⟨key, -, hkey⟩ := List.mem_filterMap.1 hx
  rw [eq_of_discoverModels hok, identity_rebindEvidence] at hkey
  obtain ⟨row, hrow, -⟩ := Option.map_eq_some_iff.1 hkey
  have hmem : key ∈ order :=
    hperm.mem_iff.2 (AList.mem_keys.1 (AList.lookup_isSome.1 (by rw [hrow]; rfl)))
  exact List.mem_filterMap.2 ⟨key, hmem, hkey⟩

/-- **The rows after a second pass**: each as its report leaves it, and retired. -/
theorem lookup_again (hok : discoverModels answers now disabled order db = .ok (db', outcome))
    (hperm : order.Perm db.evidence.keys)
    (hcarries : CarriesReports (reports (listedOf answers)) db'.registry)
    (hagain : discoverModels answers now' disabled order' db' = .ok (db'', outcome')) (m : ModelId) :
    db''.registry.models.rows.lookup m = (db'.registry.models.rows.lookup m).map fun row =>
      (row.resighted now' (reports (listedOf answers))).afterPass answers disabled := by
  have hfound := find_of_carriesReports hcarries
  have hfind : ∀ i, (projected answers now' disabled db'.registry).models.find i = none ↔
      db'.registry.models.find i = none := by
    intro i
    rw [find_projected, Option.map_eq_none_iff, find_sightings_of_found hfound,
      Option.map_eq_none_iff]
  have hadapters : db'.adapters = db.adapters := by
    rw [eq_of_discoverModels hok]
    rfl
  rw [models_of_discoverModels hagain, foldl_bindSubject_eq_self, lookup_projected,
    lookup_sightings_of_found hfound, Option.map_map]
  · rfl
  · intro x hx hres hdigest hexact
    rw [hfind, models_of_discoverModels hok] at hexact ⊢
    rw [hadapters] at hres
    exact find_foldl_nameOnly (mem_identitiesOf_of_discoverModels hok hperm hx) hres hdigest hexact

theorem ModelRow.timeless_resighted_of_reported {old : Option ModelRow}
    (hrow : row = (r.2.sighted now r.1 old).afterPass answers disabled)
    (hlast : lastOf (reports (listedOf answers)) row.identity = some r) :
    ((row.resighted now' (reports (listedOf answers))).afterPass answers disabled).timeless =
      row.timeless := by
  have henabled : row.enabled = (r.2.sighted now r.1 old).enabled := by
    obtain ⟨available, unavailableReason, hafter⟩ :=
      @ModelRow.afterPass_eq answers disabled (r.2.sighted now r.1 old)
    rw [hrow, hafter]
  rw [ModelRow.resighted_of_some hlast]
  have hsame : (r.2.sighted now' r.1 (some row)).timeless =
      (r.2.sighted now r.1 old).timeless := by
    simp only [ModelRow.timeless, ModelDescriptor.sighted, Option.map_some, Option.getD_some,
      henabled]
  have hretire : ∀ a b : ModelRow, a.timeless = b.timeless →
      (a.afterPass answers disabled).timeless = (b.afterPass answers disabled).timeless := by
    intro a b hab
    simp only [ModelRow.timeless, ModelRow.mk.injEq] at hab
    obtain ⟨hidentity, hcanonical, -, hprovider, -, -, -, -, havailable, -, -⟩ := id hab
    simp only [ModelRow.afterPass, ModelRow.retired, hidentity, hcanonical, hprovider, havailable]
    split_ifs <;> simp [ModelRow.timeless, hab]
  rw [hrow]
  exact hretire _ _ (hrow ▸ hsame)

theorem ModelRow.timeless_afterPass_iff :
    (row.afterPass answers disabled).timeless = row.timeless ↔
      row.afterPass answers disabled = row := by
  obtain ⟨available, unavailableReason, hafter⟩ := @ModelRow.afterPass_eq answers disabled row
  rw [hafter]
  constructor
  · intro hsame
    simp only [ModelRow.timeless, ModelRow.mk.injEq, true_and] at hsame
    obtain ⟨rfl, rfl, -⟩ := hsame
    rfl
  · intro hsame
    rw [hsame]

theorem ModelRow.afterPass_afterPass :
    (row.afterPass answers disabled).afterPass answers disabled =
      row.afterPass answers disabled := by
  rw [ModelRow.retired_eq_self_iff, ModelRow.available_retired_iff]
  obtain ⟨available, unavailableReason, hafter⟩ := @ModelRow.afterPass_eq answers disabled row
  rw [hafter]
  by_cases hdisabled : row.providerName ∈ disabled
  · exact .inl (.inr (.inl hdisabled))
  · by_cases hseen : row.canonicalId ∈ (reports (listedOf answers)).map fun r => r.2.canonicalId
    · exact .inr ⟨hdisabled, .inl hseen⟩
    · by_cases hkind : row.identity.providerKind ∈ (listedOf answers).map fun e => e.1.kind
      · exact .inl (.inr (.inr ⟨hseen, hkind⟩))
      · exact .inr ⟨hdisabled, .inr hkind⟩

/-- **A row that evidence took** stays as it is when it was retired before, or is spared again. -/
theorem ModelRow.upgraded_afterPass_iff (hname : x.model.name = row.identity.name) :
    (((row.afterPass answers disabled).upgraded x).afterPass answers disabled) =
        (row.afterPass answers disabled).upgraded x ↔
      (row.available = true → row.providerName ∉ disabled →
        row.identity.providerKind ∈ ((listedOf answers).map fun e => e.1.kind) →
        (∃ r ∈ reports (listedOf answers), r.2.canonicalId = row.canonicalId) →
        ∃ r ∈ reports (listedOf answers), r.2.canonicalId = x.canonicalId) := by
  have hkind : x.model.providerKind = row.identity.providerKind := congrArg Prod.fst hname
  have hprovider : (row.afterPass answers disabled).providerName = row.providerName :=
    ModelRow.providerName_retired _ _ _ row
  have havailable := @ModelRow.available_retired_iff disabled
    ((reports (listedOf answers)).map fun r => r.2.canonicalId)
    ((listedOf answers).map fun e => e.1.kind) row
  rw [ModelRow.retired_eq_self_iff]
  simp only [ModelRow.upgraded, hprovider, hkind, List.mem_map] at havailable ⊢
  rw [havailable]
  cases hrow : row.available with
  | false => simp
  | true =>
      generalize (∃ r ∈ reports (listedOf answers), r.2.canonicalId = row.canonicalId) = seen
      generalize (∃ e ∈ listedOf answers, e.1.kind = row.identity.providerKind) = answered
      generalize (∃ r ∈ reports (listedOf answers), r.2.canonicalId = x.canonicalId) = spared
      tauto

/-- The capability rows stay as they are exactly where no report declares one that the last of its
model does not. -/
theorem capabilities_again_iff
    (hcarries : CarriesReports (reports (listedOf answers)) db'.registry)
    (hagain : discoverModels answers now' disabled order' db' = .ok (db'', outcome')) :
    (∀ key, (db''.registry.capabilities.lookup key).map CapabilityRow.timeless =
        (db'.registry.capabilities.lookup key).map CapabilityRow.timeless) ↔
      ∀ r ∈ reports (listedOf answers), ∀ r',
        lastOf (reports (listedOf answers)) r.2.identity = some r' →
        ∀ capabilityId ∈ declaredIds r.2, capabilityId ∈ declaredIds r'.2 := by
  classical
  have hdeclares := fun m capabilityId => @declares_iff_of_found (reports (listedOf answers)) now' m
    capabilityId db'.registry.models (find_of_carriesReports hcarries)
  have hlookup : ∀ m capabilityId source,
      db''.registry.capabilities.lookup (m, capabilityId, source) =
        if source = .declared ∧
            Declares db'.registry.models now' (reports (listedOf answers)) m capabilityId then
          some { score := some 1, confidence := 1 / 2, updatedAt := now' }
        else db'.registry.capabilities.lookup (m, capabilityId, source) := by
    intro m capabilityId source
    rw [capabilities_of_discoverModels hagain, lookup_capabilities_recorded]
  constructor
  · intro hsame r hr r' hlast capabilityId hdeclared
    obtain ⟨m, row, hfind, -, hexact⟩ := hcarries _ r' hlast
    have hkey := hsame (m, capabilityId, .declared)
    rw [hlookup, if_pos ⟨rfl, (hdeclares _ _).2 ⟨r, hr, ⟨row, hfind⟩, hdeclared⟩⟩,
      Option.map_some, eq_comm, Option.map_eq_some_iff] at hkey
    obtain ⟨stored, hstored, -⟩ := hkey
    have hstated := declaredExactly_iff.1 hexact capabilityId
    by_contra hnot
    rw [hstored, if_neg hnot] at hstated
    cases hstated
  · rintro hcond ⟨m, capabilityId, source⟩
    rw [hlookup]
    split
    · rename_i hreported
      obtain ⟨rfl, hreported⟩ := hreported
      obtain ⟨r, hr, ⟨row, hfind⟩, hdeclared⟩ := (hdeclares _ _).1 hreported
      obtain ⟨r', hlast⟩ := Option.ne_none_iff_exists'.1
        (mt lastOf_eq_none_iff.1 (not_not.2 (mem_sighted.2 ⟨r, hr, rfl⟩)))
      obtain ⟨m', row', hfind', -, hexact⟩ := hcarries _ r' hlast
      rw [hfind, Option.some.injEq, Prod.mk.injEq] at hfind'
      obtain ⟨rfl, -⟩ := hfind'
      have hstated := declaredExactly_iff.1 hexact capabilityId
      rw [if_pos (hcond r hr r' hlast capabilityId hdeclared), Option.map_eq_some_iff] at hstated
      obtain ⟨stored, hstored, hvalues⟩ := hstated
      obtain ⟨hscore, hconfidence⟩ := Prod.mk.inj hvalues
      rw [hstored, Option.map_some, Option.map_some, CapabilityRow.timeless,
        CapabilityRow.timeless, hscore, hconfidence]
    · rfl

theorem taker_spec {adapters : Adapters} {models : Models} {before : List ModelIdentity}
    {l : List EvidenceIdentity} (h : takerOf adapters models before l j = some x) :
    x ∈ l ∧ x.Resolvable adapters ∧ Takes models before x.model j :=
  ⟨List.mem_of_find?_eq_some h, by simpa using List.find?_some h⟩

theorem row_after_pass (hok : discoverModels answers now disabled order db = .ok (db', outcome))
    (hcarries : CarriesReports (reports (listedOf answers)) db'.registry)
    (hrow' : db'.registry.models.rows.lookup m = some row') :
    (∃ r old, lastOf (reports (listedOf answers)) row'.identity = some r ∧
        row' = (r.2.sighted now r.1 old).afterPass answers disabled) ∨
      ∃ row, db.registry.models.rows.lookup m = some row ∧
        row.identity ∉ sighted (reports (listedOf answers)) ∧
        heir db.registry.models [] (sighted (reports (listedOf answers))) row.identity =
          row.identity ∧
        ((takerOf db.adapters db.registry.models (sighted (reports (listedOf answers)))
            (identitiesOf db.evidence order) row.identity = none ∧
          row' = row.afterPass answers disabled) ∨
        ∃ x, takerOf db.adapters db.registry.models (sighted (reports (listedOf answers)))
            (identitiesOf db.evidence order) row.identity = some x ∧
          row' = (row.afterPass answers disabled).upgraded x) := by
  obtain ⟨row, hfind⟩ := row_of_discoverModels hok hrow'
  obtain ⟨hkept, htaken⟩ := find_of_discoverModels hok hfind
  cases hlast : lastOf (reports (listedOf answers)) row.identity with
  | some r =>
      obtain ⟨old, hold⟩ := row_of_reported hfind hlast
      cases htaker : takerOf db.adapters db.registry.models
          (sighted (reports (listedOf answers))) (identitiesOf db.evidence order) row.identity with
      | some x =>
          obtain ⟨_, _, hfound, -⟩ := hcarries _ r hlast
          rw [(htaken x htaker).1] at hfound
          cases hfound
      | none =>
          have hlookup := (Indexed.find_eq_some_iff.1 (hkept htaker)).1
          rw [hrow', Option.some.injEq] at hlookup
          refine .inl ⟨r, old, ?_, by rw [hlookup, hold]⟩
          rw [hlookup, ModelRow.identity_afterPass, hlast]
  | none =>
      have hnot := lastOf_eq_none_iff.1 hlast
      have hstored := (Indexed.find_eq_some_iff.1 (row_of_not_reported hfind hnot)).1
      have hheir : heir db.registry.models [] (sighted (reports (listedOf answers)))
          row.identity = row.identity := by
        obtain ⟨row₀, hfind₀⟩ := find_stored now (reports (listedOf answers)) hstored
        obtain ⟨hlookup₀, hidentity₀⟩ := Indexed.find_eq_some_iff.1 hfind₀
        rw [(Indexed.find_eq_some_iff.1 hfind).1, Option.some.injEq] at hlookup₀
        rw [← hidentity₀, ← hlookup₀]
      refine .inr ⟨row, hstored, hnot, hheir, ?_⟩
      cases htaker : takerOf db.adapters db.registry.models
          (sighted (reports (listedOf answers))) (identitiesOf db.evidence order) row.identity with
      | none =>
          have hlookup := (Indexed.find_eq_some_iff.1 (hkept htaker)).1
          rw [hrow', Option.some.injEq] at hlookup
          exact .inl ⟨rfl, hlookup⟩
      | some x =>
          have hlookup := (Indexed.find_eq_some_iff.1 (htaken x htaker).2).1
          rw [hrow', Option.some.injEq] at hlookup
          exact .inr ⟨x, rfl, hlookup⟩

/-- **A second pass changes timestamps only** exactly where no report declares a capability that the
last of its model does not, and evidence gave no spared row another canonical ID. -/
theorem repeats_iff (hok : discoverModels answers now disabled order db = .ok (db', outcome))
    (hperm : order.Perm db.evidence.keys)
    (hcarries : CarriesReports (reports (listedOf answers)) db'.registry) :
    (∀ now' order' db'' outcome', order'.Perm db'.evidence.keys →
        discoverModels answers now' disabled order' db' = .ok (db'', outcome') →
        SameButTimes db'.registry db''.registry) ↔
      (∀ r ∈ reports (listedOf answers), ∀ r',
        lastOf (reports (listedOf answers)) r.2.identity = some r' →
        ∀ capabilityId ∈ declaredIds r.2, capabilityId ∈ declaredIds r'.2) ∧
      ∀ m row x, db.registry.models.rows.lookup m = some row →
        row.identity ∉ sighted (reports (listedOf answers)) →
        heir db.registry.models [] (sighted (reports (listedOf answers))) row.identity =
          row.identity →
        takerOf db.adapters db.registry.models (sighted (reports (listedOf answers)))
          (identitiesOf db.evidence order) row.identity = some x →
        row.available = true → row.providerName ∉ disabled →
        row.identity.providerKind ∈ ((listedOf answers).map fun e => e.1.kind) →
        (∃ r ∈ reports (listedOf answers), r.2.canonicalId = row.canonicalId) →
        ∃ r ∈ reports (listedOf answers), r.2.canonicalId = x.canonicalId := by
  constructor
  · intro hrepeats
    obtain ⟨db'', outcome', hagain⟩ := exists_discoverModels hok now db'.evidence.keys db'
    obtain ⟨hmodels, hcapabilities⟩ := hrepeats _ _ _ _ (List.Perm.refl _) hagain
    refine ⟨(capabilities_again_iff hcarries hagain).1 hcapabilities, ?_⟩
    intro m row x hrow hnot hheir htaker
    obtain ⟨-, -, htakes⟩ := taker_spec htaker
    obtain ⟨row₀, hfind⟩ := find_stored now (reports (listedOf answers)) hrow
    rw [hheir] at hfind
    obtain rfl : row₀ = row := by
      have hstored := (Indexed.find_eq_some_iff.1 (row_of_not_reported hfind hnot)).1
      rw [hrow, Option.some.injEq] at hstored
      exact hstored.symm
    have hrow' := (Indexed.find_eq_some_iff.1
      ((find_of_discoverModels hok hfind).2 x htaker).2).1
    have hsame := hmodels m
    rw [lookup_again hok hperm hcarries hagain, hrow', Option.map_some, Option.map_some,
      Option.map_some, Option.some.injEq, ModelRow.resighted_of_none
        (lastOf_eq_none_iff.2 htakes.2.2.2.2), ModelRow.timeless_afterPass_iff] at hsame
    exact (ModelRow.upgraded_afterPass_iff htakes.2.1).1 hsame
  · rintro ⟨hdeclared, hspared⟩ now' order' db'' outcome' - hagain
    refine ⟨fun m => ?_, (capabilities_again_iff hcarries hagain).2 hdeclared⟩
    rw [lookup_again hok hperm hcarries hagain]
    cases hrow' : db'.registry.models.rows.lookup m with
    | none => rfl
    | some row' =>
        rw [Option.map_some, Option.map_some, Option.map_some, Option.some.injEq]
        rcases row_after_pass hok hcarries hrow' with ⟨r, old, hlast, hrow⟩ |
          ⟨row, hrow, hnot, hheir, ⟨-, rfl⟩ | ⟨x, htaker, rfl⟩⟩
        · exact ModelRow.timeless_resighted_of_reported hrow hlast
        · rw [ModelRow.resighted_of_none, ModelRow.afterPass_afterPass]
          rw [ModelRow.identity_afterPass]
          exact lastOf_eq_none_iff.2 hnot
        · obtain ⟨-, -, htakes⟩ := taker_spec htaker
          rw [ModelRow.resighted_of_none (lastOf_eq_none_iff.2 htakes.2.2.2.2),
            (ModelRow.upgraded_afterPass_iff htakes.2.1).2 (hspared m row x hrow hnot hheir htaker)]

/-- **The registry is a projection of the answers** exactly where the pass loses no name it
reported, finds and writes no declared capability that the last report withdraws, and evidence moves
no row it spared. -/
theorem projects_iff (hok : discoverModels answers now disabled order db = .ok (db', outcome))
    (hperm : order.Perm db.evidence.keys) :
    Projects answers disabled db' ↔ Projectable (reports (listedOf answers)) disabled
      ((listedOf answers).map fun e => e.1.kind) order db := by
  constructor
  · rintro ⟨hcarries, hrepeats⟩
    obtain ⟨hstays, hstored, hheirs⟩ := (carriesReports_iff hok).1 hcarries
    obtain ⟨hdeclared, hspared⟩ := (repeats_iff hok hperm hcarries).1 hrepeats
    refine ⟨hstored, ?_, hstays, hspared⟩
    rintro p r s i r' hl (rfl | rfl) hlast
    · exact hdeclared r (hl ▸ List.mem_append_right _ List.mem_cons_self) r' hlast
    · exact hheirs p r s r' hl hlast
  · intro h
    have hcarries := (carriesReports_iff hok).2
      ⟨h.stays, h.stored, fun p r s r' hl => h.declared p r s _ r' hl (.inr rfl)⟩
    refine ⟨hcarries, (repeats_iff hok hperm hcarries).2 ⟨fun r hr r' => ?_, h.spared⟩⟩
    obtain ⟨p, s, hl⟩ := List.append_of_mem hr
    exact h.declared p r s _ r' hl (.inl rfl)

end Again

/-! ### A flag that is withdrawn -/

/-- A model that is reported with some flags. -/
def flagged (flags : List ModelCapabilityFlag) : ModelDescriptor where
  identity := ⟨"ollama", "qwen3:8b", none⟩
  canonicalId := "ollama:qwen3:8b"
  identityConfidence := "name_only"
  declaredCapabilities := flags

/-- One registration that reports it. -/
def flaggedAnswers (flags : List ModelCapabilityFlag) : List Answer :=
  [(⟨"local", "ollama", false⟩, .ok [flagged flags])]

/-- A pass over a store with the answers of that registration. -/
def flaggedPass (flags : List ModelCapabilityFlag) (db : EvidenceDb) : EvidenceDb :=
  rebindEvidence [] { db with registry := projected (flaggedAnswers flags) 0 [] db.registry }

theorem flagged_projects : Projects (flaggedAnswers [.tools]) [] (flaggedPass [.tools] {}) := by
  have hok : discoverModels (flaggedAnswers [.tools]) 0 [] [] {} =
      .ok (flaggedPass [.tools] {}, _) := rfl
  refine (projects_iff hok (List.Perm.refl _)).2 ⟨?_, ?_, ?_, ?_⟩
  · intro m row capabilityId r hrow
    cases hrow
  · intro p r s i r' hl _ hlast capabilityId hdeclared
    have hr : ∀ r₀ ∈ reports (listedOf (flaggedAnswers [.tools])),
        r₀ = (⟨"local", "ollama", false⟩, flagged [.tools]) :=
      fun r₀ h₀ => List.mem_singleton.1 h₀
    obtain ⟨-, p', s', hl', -⟩ := lastOf_eq_some_iff.1 hlast
    rw [hr r (hl ▸ List.mem_append_right _ List.mem_cons_self)] at hdeclared
    rw [hr r' (hl' ▸ List.mem_append_right _ List.mem_cons_self)]
    exact hdeclared
  · intro p r s hl _
    refine ⟨?_, rfl⟩
    obtain ⟨-, rfl⟩ : p = [] ∧ s = [] := by
      have hlength := congrArg List.length hl
      rw [List.length_append, List.length_cons] at hlength
      have hone : (reports (listedOf (flaggedAnswers [.tools]))).length = 1 := rfl
      constructor <;> apply List.eq_nil_of_length_eq_zero <;> omega
    exact heir_nil
  · intro m row x hrow
    cases hrow

/-- The capability stays when the flag is withdrawn. -/
theorem withdrawn_flag_stays :
    ∃ db outcome db' outcome',
      discoverModels (flaggedAnswers [.tools]) 0 [] [] {} = .ok (db, outcome) ∧
      discoverModels (flaggedAnswers []) 0 [] [] db = .ok (db', outcome') ∧
      ¬ Projects (flaggedAnswers []) [] db' := by
  refine ⟨flaggedPass [.tools] {}, _, flaggedPass [] (flaggedPass [.tools] {}), _, rfl, rfl, ?_⟩
  rintro ⟨hcarries, -⟩
  have hstays : ((flaggedPass [] (flaggedPass [.tools] {})).registry.models.find
      ⟨"ollama", "qwen3:8b", none⟩).all (fun e =>
        ((flaggedPass [] (flaggedPass [.tools] {})).registry.capabilities.lookup
          (e.1, "tool_use", .declared)).isSome) = true := by
    decide +kernel
  obtain ⟨m, row, hfind, -, hexact⟩ := hcarries ⟨"ollama", "qwen3:8b", none⟩ _ rfl
  rw [hfind, Option.all_some] at hstays
  obtain ⟨stored, hstored⟩ := Option.isSome_iff_exists.1 hstays
  obtain ⟨_, -, hdeclared⟩ := (hexact "tool_use" _ _).1 ⟨stored, hstored, rfl, rfl⟩
  cases hdeclared

end LoadCoach.Registry

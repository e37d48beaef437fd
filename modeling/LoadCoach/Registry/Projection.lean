import LoadCoach.Registry.Rebind
import LoadCoach.Registry.Sightings

/-! # The registry as a projection of the answers

What a pass is for: each model that was reported has a row that carries the last report of it, with
the declared capabilities of that report and no others, and a second pass with the same answers
changes nothing but timestamps (`Projects`).

A capability row is only ever written, and a digest takes the row of its name; so a pass projects
where no capability it finds or writes on a row is one the last report does not declare, and where
no name that was reported loses its row to a digest (`Projectable`, `projects_iff`). -/

namespace LoadCoach.Registry

open Foundations
open Routing (SignalSource)

/-! ### Evidence that takes a row -/

/-- One subject of the evidence is matched with the models. -/
def bindSubject (adapters : Adapters) (models : Models) (x : EvidenceIdentity) : Models :=
  (bindIdentity x (registryOf models) adapters).applied x.canonicalId models

/-- A row with the digest of a subject. -/
def ModelRow.upgraded (x : EvidenceIdentity) (row : ModelRow) : ModelRow :=
  { row with
    identity := x.model
    canonicalId := x.canonicalId
    identityConfidence := "digest" }

/-- The first subject that takes the row of an identity. -/
def takerOf (adapters : Adapters) (models : Models) (before : List ModelIdentity)
    (l : List EvidenceIdentity) (j : ModelIdentity) : Option EvidenceIdentity :=
  l.find? fun x => decide (x.Resolvable adapters ∧ Takes models before x.model j)

section Subjects

variable {adapters : Adapters} {models : Models} {x : EvidenceIdentity} {j : ModelIdentity}
  {m : ModelId} {row : ModelRow} {l : List EvidenceIdentity}

/-- **Matching a subject** changes nothing, or hands it the row of its name. -/
theorem bindSubject_cases :
    bindSubject adapters models x = models ∧
        (x.Resolvable adapters → models.find x.model = none → x.model.artifactDigest ≠ none →
          models.find x.model.nameOnly = none) ∨
      ∃ m row, x.Resolvable adapters ∧ models.find x.model = none ∧
        x.model.artifactDigest ≠ none ∧ models.find x.model.nameOnly = some (m, row) ∧
        ∀ j, (bindSubject adapters models x).find j =
          if x.model = j then some (m, row.upgraded x)
          else (models.find j).filter fun e => decide (e.1 ≠ m) := by
  by_cases hres : x.Resolvable adapters
  · rw [bindSubject, Binding.applied, upgrade_bindIdentity hres]
    cases hupgrade : (bindBase x.model (registryOf models)).upgrade with
    | none =>
        refine .inl ⟨rfl, fun _ hexact hdigest => ?_⟩
        by_contra hname
        obtain ⟨digest, hdigest⟩ := Option.ne_none_iff_exists'.1 hdigest
        obtain ⟨e, he⟩ := Option.ne_none_iff_exists'.1 hname
        rw [upgrade_bindBase_iff.2 ⟨hexact, hdigest, by rw [he]; rfl⟩] at hupgrade
        cases hupgrade
    | some e =>
        obtain ⟨m, digest⟩ := e
        obtain ⟨hexact, hdigest, hname⟩ := upgrade_bindBase_iff.1 hupgrade
        obtain ⟨⟨m, row⟩, hfind, rfl⟩ := Option.map_eq_some_iff.1 hname
        obtain ⟨hrow, hidentity⟩ := Indexed.find_eq_some_iff.1 hfind
        have hupgraded : { row.identity with artifactDigest := some digest } = x.model := by
          rw [hidentity, ModelIdentity.nameOnly_withDigest hdigest]
        have hnone : row.identity.artifactDigest = none := by rw [hidentity]; rfl
        refine .inr ⟨m, row, hres, hexact, by simp [hdigest], hfind, fun j => ?_⟩
        simp only [Models.upgrade, hrow, hnone, hupgraded, hexact, if_true, dite_true,
          Indexed.find_put]
        rfl
  · refine .inl ⟨?_, fun h => absurd h hres⟩
    rw [bindSubject, bindIdentity_of_not_resolvable hres]
    rfl

theorem find_bindSubject_of_ne (h : j ≠ x.model) :
    (bindSubject adapters models x).find j =
      if x.Resolvable adapters ∧ Takes models [] x.model j then none else models.find j := by
  have hbare : ∀ {i : ModelIdentity}, Takes models [] x.model i → x.model.nameOnly = i :=
    fun htakes => ModelIdentity.eq_iff.2 ⟨htakes.2.1, htakes.1.symm⟩
  rcases @bindSubject_cases adapters models x with ⟨hsame, hnone⟩ |
    ⟨m, row, hres, hexact, hdigest, hname, hfind⟩
  · rw [hsame]
    split
    · rename_i htakes
      rw [← hbare htakes.2]
      exact hnone htakes.1 htakes.2.2.2.2.1 htakes.2.2.2.1
    · rfl
  · rw [hfind, if_neg (Ne.symm h)]
    by_cases htakes : Takes models [] x.model j
    · rw [if_pos ⟨hres, htakes⟩, ← hbare htakes, hname]
      simp
    · rw [if_neg fun h => htakes h.2]
      cases hfound : models.find j with
      | none => rfl
      | some e =>
          obtain ⟨hrow, hidentity⟩ := Indexed.find_eq_some_iff.1 hname
          obtain ⟨hrow', hidentity'⟩ := Indexed.find_eq_some_iff.1 hfound
          refine Option.filter_eq_some_iff.2 ⟨rfl, decide_eq_true ?_⟩
          rintro rfl
          rw [hrow, Option.some.injEq] at hrow'
          rw [← hrow', hidentity] at hidentity'
          subst hidentity'
          exact htakes ⟨rfl, rfl, hdigest, hexact, List.not_mem_nil⟩

theorem find_bindSubject_self {e : ModelId × ModelRow} (h : models.find x.model = some e) :
    (bindSubject adapters models x).find x.model = some e := by
  rcases @bindSubject_cases adapters models x with ⟨hsame, -⟩ | ⟨m, row, -, hexact, -⟩
  · rw [hsame, h]
  · rw [h] at hexact
    cases hexact

theorem find_bindSubject_of_takes (hres : x.Resolvable adapters) (htakes : Takes models [] x.model j)
    (h : models.find j = some (m, row)) :
    (bindSubject adapters models x).find x.model = some (m, row.upgraded x) := by
  have hbare : x.model.nameOnly = j := ModelIdentity.eq_iff.2 ⟨htakes.2.1, htakes.1.symm⟩
  rcases @bindSubject_cases adapters models x with ⟨-, hnone⟩ | ⟨m', row', -, -, -, hname, hfind⟩
  · rw [← hbare, hnone hres htakes.2.2.2.1 htakes.2.2.1] at h
    cases h
  · rw [hbare, h, Option.some.injEq, Prod.mk.injEq] at hname
    rw [hfind, if_pos rfl, hname.1, hname.2]

theorem takes_bindSubject_iff {i : ModelIdentity}
    (h : ¬ (x.Resolvable adapters ∧ Takes models [] x.model j)) :
    Takes (bindSubject adapters models x) [] i j ↔ Takes models [] i j := by
  rw [Takes, Takes]
  refine and_congr_right fun hname => and_congr_right fun hsame => and_congr_right fun hdigest =>
    and_congr_left fun _ => ?_
  by_cases hi : i = x.model
  · subst hi
    rcases @bindSubject_cases adapters models x with ⟨hmodels, -⟩ | ⟨m, row, hres, hexact, hnew, -⟩
    · rw [hmodels]
    · exact absurd ⟨hres, hname, hsame, hnew, hexact, List.not_mem_nil⟩ h
  · rw [find_bindSubject_of_ne hi, if_neg fun htakes => hdigest htakes.2.1]

theorem find_foldl_of_none (hdigest : j.artifactDigest = none) (h : models.find j = none) :
    (l.foldl (bindSubject adapters) models).find j = none := by
  induction l generalizing models with
  | nil => exact h
  | cons x l ih =>
      refine ih ?_
      by_cases hj : j = x.model
      · rcases @bindSubject_cases adapters models x with ⟨hsame, -⟩ | ⟨_, _, -, -, hnew, -⟩
        · rw [hsame, h]
        · exact absurd (hj ▸ hdigest) hnew
      · rw [find_bindSubject_of_ne hj, h, ite_self]

theorem takerOf_cons_of_takes {before : List ModelIdentity}
    (h : x.Resolvable adapters ∧ Takes models before x.model j) :
    takerOf adapters models before (x :: l) j = some x := by
  rw [takerOf, List.find?_cons, decide_eq_true h]

theorem takerOf_cons_of_not_takes {before : List ModelIdentity}
    (h : ¬ (x.Resolvable adapters ∧ Takes models before x.model j)) :
    takerOf adapters models before (x :: l) j = takerOf adapters models before l j := by
  rw [takerOf, List.find?_cons, decide_eq_false h]
  rfl

theorem takerOf_of_digest {before : List ModelIdentity} (h : j.artifactDigest ≠ none) :
    takerOf adapters models before l j = none := by
  rw [takerOf, List.find?_eq_none]
  intro x _ htakes
  exact h (of_decide_eq_true htakes).2.1

variable (adapters l) in
/-- **A row after all subjects were matched**: as it was, or the first subject to take it has it. -/
theorem find_foldl_bindSubject (h : models.find j = some (m, row)) :
    (takerOf adapters models [] l j = none →
        (l.foldl (bindSubject adapters) models).find j = some (m, row)) ∧
      ∀ x, takerOf adapters models [] l j = some x →
        (l.foldl (bindSubject adapters) models).find j = none ∧
          (l.foldl (bindSubject adapters) models).find x.model = some (m, row.upgraded x) := by
  induction l generalizing models j row with
  | nil => exact ⟨fun _ => h, fun x hx => by cases hx⟩
  | cons x l ih =>
      rw [List.foldl_cons]
      by_cases htakes : x.Resolvable adapters ∧ Takes models [] x.model j
      · rw [takerOf_cons_of_takes htakes]
        refine ⟨nofun, fun y hy => ?_⟩
        obtain rfl := Option.some.inj hy
        have hdigest := htakes.2.1
        have hnew := htakes.2.2.2.1
        have hne : j ≠ x.model := fun heq => hnew (heq ▸ hdigest)
        constructor
        · refine find_foldl_of_none hdigest ?_
          rw [find_bindSubject_of_ne hne, if_pos htakes]
        · exact (ih (find_bindSubject_of_takes htakes.1 htakes.2 h)).1 (takerOf_of_digest hnew)
      · have hkept : (bindSubject adapters models x).find j = some (m, row) := by
          by_cases hj : j = x.model
          · rw [hj]
            exact find_bindSubject_self (hj ▸ h)
          · rw [find_bindSubject_of_ne hj, if_neg htakes, h]
        have hsame : takerOf adapters (bindSubject adapters models x) [] l j =
            takerOf adapters models [] l j := by
          simp only [takerOf, takes_bindSubject_iff htakes]
        rw [takerOf_cons_of_not_takes htakes, ← hsame]
        exact ih hkept

end Subjects

theorem models_rebindRows {adapters : Adapters} {order : List EvidenceKey} {st : Rebinding} :
    (rebindRows adapters order st).models =
      (identitiesOf st.evidence order).foldl (bindSubject adapters) st.models := by
  induction order generalizing st with
  | nil => rfl
  | cons key order ih =>
      have hsame : identitiesOf (rebindRow adapters st key).evidence order =
          identitiesOf st.evidence order := by
        simp only [identitiesOf, identity_rebindRow]
      rw [rebindRows, List.foldl_cons, ← rebindRows, ih, hsame]
      cases hrow : st.evidence.lookup key with
      | none =>
          rw [rebindRow_of_none hrow]
          simp [identitiesOf, hrow]
      | some row =>
          rw [(rebindRow_of_some hrow).1]
          simp [identitiesOf, hrow, bindSubject, EvidenceRow.identity]

/-! ### A pass that projects -/

/-- A row says of a model what was reported. -/
def ModelRow.Carries (r : Report) (row : ModelRow) : Prop :=
  row.canonicalId = r.2.canonicalId ∧ row.identityConfidence = r.2.identityConfidence ∧
    row.providerName = r.1.name ∧ row.isRemote = r.1.isRemote ∧ row.facts = r.2.facts

/-- The declared capability rows of a model are those its descriptor declares. -/
def DeclaredExactly (registry : ModelRegistry) (m : ModelId) (descriptor : ModelDescriptor) : Prop :=
  ∀ capabilityId score confidence,
    (∃ row, registry.capabilities.lookup (m, capabilityId, .declared) = some row ∧
      row.score = score ∧ row.confidence = confidence) ↔
    ∃ s, score = some s ∧ (capabilityId, s, confidence) ∈ declaredCapabilitiesFor descriptor

/-- Each reported model has a row, which carries the last report of it. -/
def CarriesReports (l : List Report) (registry : ModelRegistry) : Prop :=
  ∀ i r, lastOf l i = some r → ∃ m row, registry.models.find i = some (m, row) ∧ row.Carries r ∧
    DeclaredExactly registry m r.2

/-- A row without its timestamps. -/
def ModelRow.timeless (row : ModelRow) : ModelRow :=
  { row with firstSeenAt := 0, lastSeenAt := 0 }

/-- A capability row without its timestamp. -/
def CapabilityRow.timeless (row : CapabilityRow) : CapabilityRow := { row with updatedAt := 0 }

/-- Two registries that differ in timestamps at most. -/
def SameButTimes (registry registry' : ModelRegistry) : Prop :=
  (∀ m, (registry'.models.rows.lookup m).map ModelRow.timeless =
      (registry.models.rows.lookup m).map ModelRow.timeless) ∧
    ∀ key, (registry'.capabilities.lookup key).map CapabilityRow.timeless =
      (registry.capabilities.lookup key).map CapabilityRow.timeless

/-- **A pass projects**: the registry carries what was reported, and any pass that gets the same
answers again leaves it as it is, but for timestamps. -/
def Projects (answers : List Answer) (disabled : List String) (db : EvidenceDb) : Prop :=
  CarriesReports (reports (listedOf answers)) db.registry ∧
    ∀ now order db' outcome, order.Perm db.evidence.keys →
      discoverModels answers now disabled order db = .ok (db', outcome) →
      SameButTimes db.registry db'.registry

/-- **What a pass needs to project**, of the registry it starts from, the evidence and the
reports. -/
structure Projectable (l : List Report) (disabled answeredKinds : List String)
    (order : List EvidenceKey) (db : EvidenceDb) : Prop where
  /-- No row that is reported has a declared capability the last report of it withdraws. -/
  stored : ∀ m row capabilityId r, db.registry.models.rows.lookup m = some row →
    db.registry.capabilities.lookup (m, capabilityId, .declared) ≠ none →
    lastOf l (heir db.registry.models [] (sighted l) row.identity) = some r →
    capabilityId ∈ declaredIds r.2
  /-- Nor does a report declare one that the last report of its model does not, or the last report
  of the digest that takes its row. -/
  declared : ∀ p r s i r', l = p ++ r :: s →
    i = r.2.identity ∨ i = heir db.registry.models (sighted (p ++ [r])) (sighted s) r.2.identity →
    lastOf l i = some r' → ∀ capabilityId ∈ declaredIds r.2, capabilityId ∈ declaredIds r'.2
  /-- No digest takes the row of a name after the last report of the name, neither one that is
  reported nor one that evidence carries. -/
  stays : ∀ p r s, l = p ++ r :: s → r.2.identity ∉ sighted s →
    heir db.registry.models (sighted (p ++ [r])) (sighted s) r.2.identity = r.2.identity ∧
      takerOf db.adapters db.registry.models (sighted l) (identitiesOf db.evidence order)
        r.2.identity = none
  /-- A row that was not reported, and is spared because it shares its canonical ID with one that
  was, is not given another ID by evidence. -/
  spared : ∀ m row x, db.registry.models.rows.lookup m = some row → row.identity ∉ sighted l →
    heir db.registry.models [] (sighted l) row.identity = row.identity →
    takerOf db.adapters db.registry.models (sighted l) (identitiesOf db.evidence order)
      row.identity = some x →
    row.available = true → row.providerName ∉ disabled →
    row.identity.providerKind ∈ answeredKinds → (∃ r ∈ l, r.2.canonicalId = row.canonicalId) →
    ∃ r ∈ l, r.2.canonicalId = x.canonicalId

/-! ### What a pass leaves -/

theorem mem_declaredCapabilitiesFor {descriptor : ModelDescriptor} {capabilityId : String}
    {score confidence : ℚ} :
    (capabilityId, score, confidence) ∈ declaredCapabilitiesFor descriptor ↔
      capabilityId ∈ declaredIds descriptor ∧ score = 1 ∧ confidence = 1 / 2 := by
  rw [declaredIds, List.mem_map]
  constructor
  · intro hmem
    exact ⟨⟨_, hmem, rfl⟩, by simpa using snd_of_mem_declaredCapabilitiesFor hmem⟩
  · rintro ⟨⟨⟨_, declared⟩, hmem, rfl⟩, rfl, rfl⟩
    obtain rfl := snd_of_mem_declaredCapabilitiesFor hmem
    exact hmem

theorem declaredExactly_iff {registry : ModelRegistry} {m : ModelId}
    {descriptor : ModelDescriptor} :
    DeclaredExactly registry m descriptor ↔ ∀ capabilityId,
      (registry.capabilities.lookup (m, capabilityId, .declared)).map
          (fun row => (row.score, row.confidence)) =
        if capabilityId ∈ declaredIds descriptor then some (some 1, 1 / 2) else none := by
  refine forall_congr' fun capabilityId => ?_
  have hrow : ∀ score confidence,
      (∃ row, registry.capabilities.lookup (m, capabilityId, .declared) = some row ∧
        row.score = score ∧ row.confidence = confidence) ↔
      (registry.capabilities.lookup (m, capabilityId, .declared)).map
        (fun row => (row.score, row.confidence)) = some (score, confidence) := by
    intro score confidence
    simp [Option.map_eq_some_iff]
  simp only [hrow, mem_declaredCapabilitiesFor]
  constructor
  · intro h
    split
    · rename_i hdeclared
      exact (h _ _).2 ⟨1, rfl, hdeclared, rfl, rfl⟩
    · rename_i hnot
      rw [Option.eq_none_iff_forall_ne_some]
      rintro ⟨score, confidence⟩ hsome
      obtain ⟨_, -, hdeclared, -⟩ := (h _ _).1 hsome
      exact hnot hdeclared
  · intro h score confidence
    rw [h]
    split
    · rename_i hdeclared
      simp [hdeclared, eq_comm]
    · rename_i hnot
      simp [hnot]

section Pass

variable {answers : List Answer} {now : Instant} {disabled : List String}
  {order : List EvidenceKey} {db db' : EvidenceDb} {outcome : DiscoveryOutcome} {m : ModelId}
  {row row' : ModelRow} {i j : ModelIdentity} {r : Report}

/-- A row after the rows that were not reported are retired. -/
abbrev ModelRow.afterPass (answers : List Answer) (disabled : List String) (row : ModelRow) :
    ModelRow :=
  row.retired disabled ((reports (listedOf answers)).map fun r => r.2.canonicalId)
    ((listedOf answers).map fun e => e.1.kind)

theorem ModelRow.retired_eq_self_iff {seen kinds : List String} :
    row.retired disabled seen kinds = row ↔ row.available = false ∨ row.providerName ∉ disabled ∧
      (row.canonicalId ∈ seen ∨ row.identity.providerKind ∉ kinds) := by
  have havailable := @ModelRow.available_retired_iff disabled seen kinds row
  constructor
  · intro hsame
    rw [hsame] at havailable
    by_cases hgone : row.available = false
    · exact .inl hgone
    · have hnot := mt havailable.2 hgone
      push Not at hnot
      refine .inr ⟨hnot.2.1, ?_⟩
      by_cases hseen : row.canonicalId ∈ seen
      · exact .inl hseen
      · exact .inr (hnot.2.2 hseen)
  · rintro (hgone | ⟨hdisabled, hseen | hkind⟩)
    · rw [ModelRow.retired, if_pos hgone]
    · rw [ModelRow.retired]
      split_ifs <;> rfl
    · rw [ModelRow.retired]
      split_ifs <;> rfl

theorem ModelRow.afterPass_eq (row : ModelRow) : ∃ available unavailableReason,
    row.afterPass answers disabled = { row with available, unavailableReason } := by
  rw [ModelRow.afterPass, ModelRow.retired]
  split_ifs
  · exact ⟨_, _, rfl⟩
  · exact ⟨_, _, rfl⟩
  · exact ⟨_, _, rfl⟩
  · exact ⟨_, _, rfl⟩
  · exact ⟨_, _, rfl⟩

theorem ModelRow.identity_afterPass (row : ModelRow) :
    (row.afterPass answers disabled).identity = row.identity :=
  row.identity_retired _ _ _

theorem find_projected :
    (projected answers now disabled db.registry).models.find i =
      ((db.registry.models.sightings now (reports (listedOf answers))).find i).map fun e =>
        (e.1, e.2.afterPass answers disabled) := by
  have hseen : ∀ row : ModelRow, row.retired disabled
      (recorded answers now db.registry).seenCanonicalIds ((listedOf answers).map fun e => e.1.kind) =
        row.afterPass answers disabled := by
    intro row
    have hmem : row.canonicalId ∈ (recorded answers now db.registry).seenCanonicalIds ↔
        row.canonicalId ∈ (reports (listedOf answers)).map fun r => r.2.canonicalId := by
      rw [mem_seen_recorded, List.mem_map]
    simp only [ModelRow.afterPass, ModelRow.retired, hmem]
  have hmodels : (recorded answers now db.registry).registry.models =
      db.registry.models.sightings now (reports (listedOf answers)) := models_recordReports
  refine (Indexed.find_mapRows fun _ row => row.identity_retired _ _ _).trans ?_
  simp only [hseen, hmodels]

theorem takes_projected_iff :
    Takes (projected answers now disabled db.registry).models [] i j ↔
      Takes db.registry.models (sighted (reports (listedOf answers))) i j := by
  rw [← @takes_sightings_iff _ _ _ _ now, Takes, Takes, find_projected, Option.map_eq_none_iff]

theorem models_of_discoverModels
    (hok : discoverModels answers now disabled order db = .ok (db', outcome)) :
    db'.registry.models = (identitiesOf db.evidence order).foldl (bindSubject db.adapters)
      (projected answers now disabled db.registry).models := by
  rw [eq_of_discoverModels hok]
  exact models_rebindRows

/-- **The row of an identity after a pass**: as the reports left it and retired, unless evidence
took it. -/
theorem find_of_discoverModels
    (hok : discoverModels answers now disabled order db = .ok (db', outcome))
    (hfind : (db.registry.models.sightings now (reports (listedOf answers))).find j =
      some (m, row)) :
    (takerOf db.adapters db.registry.models (sighted (reports (listedOf answers)))
        (identitiesOf db.evidence order) j = none →
      db'.registry.models.find j = some (m, row.afterPass answers disabled)) ∧
    ∀ x, takerOf db.adapters db.registry.models (sighted (reports (listedOf answers)))
        (identitiesOf db.evidence order) j = some x →
      db'.registry.models.find j = none ∧ db'.registry.models.find x.model =
        some (m, (row.afterPass answers disabled).upgraded x) := by
  have hprojected : (projected answers now disabled db.registry).models.find j =
      some (m, row.afterPass answers disabled) := by
    rw [find_projected, hfind, Option.map_some]
  have hloop := find_foldl_bindSubject db.adapters (identitiesOf db.evidence order) hprojected
  simp only [takerOf, takes_projected_iff] at hloop ⊢
  rw [models_of_discoverModels hok]
  exact hloop

theorem find_none_of_discoverModels
    (hok : discoverModels answers now disabled order db = .ok (db', outcome))
    (hdigest : j.artifactDigest = none)
    (hfind : (db.registry.models.sightings now (reports (listedOf answers))).find j = none) :
    db'.registry.models.find j = none := by
  rw [models_of_discoverModels hok]
  refine find_foldl_of_none hdigest ?_
  rw [find_projected, hfind, Option.map_none]

/-- The capability rows after a pass are those the reports left. -/
theorem capabilities_of_discoverModels
    (hok : discoverModels answers now disabled order db = .ok (db', outcome)) :
    db'.registry.capabilities = ((reports (listedOf answers)).foldl (recordReport now)
      { registry := db.registry }).registry.capabilities := by
  rw [eq_of_discoverModels hok]
  rfl

theorem row_of_discoverModels
    (hok : discoverModels answers now disabled order db = .ok (db', outcome))
    (hrow : db'.registry.models.rows.lookup m = some row') :
    ∃ row, (db.registry.models.sightings now (reports (listedOf answers))).find row.identity =
        some (m, row) := by
  have hrebind := map_lookup_rebindEvidence (f := fun _ => ()) (fun _ _ _ _ => rfl) order
    { db with registry := projected answers now disabled db.registry } m
  rw [← eq_of_discoverModels hok, hrow, Option.map_some, eq_comm, Option.map_eq_some_iff] at hrebind
  obtain ⟨row, hlookup, -⟩ := hrebind
  have hfind := Indexed.find_eq_some_iff.2 ⟨hlookup, rfl⟩
  rw [find_projected, Option.map_eq_some_iff] at hfind
  obtain ⟨⟨m', row⟩, hfind, heq⟩ := hfind
  obtain ⟨rfl, rfl⟩ := Prod.mk.inj heq
  rw [ModelRow.identity_afterPass] at hfind
  exact ⟨row, hfind⟩

theorem exists_discoverModels (hok : discoverModels answers now disabled order db = .ok (db', outcome))
    (now' : Instant) (order' : List EvidenceKey) (db₁ : EvidenceDb) :
    ∃ db₂ outcome', discoverModels answers now' disabled order' db₁ = .ok (db₂, outcome') := by
  rw [discoverModels] at hok ⊢
  split
  · rename_i hlisted herror
    rw [hlisted, herror] at hok
    cases hok
  · exact ⟨_, _, rfl⟩

/-! ### Carrying the reports -/

/-- **The declared capabilities of a reported row** are those of the last report exactly where no
report of the row and no capability it had declares more. -/
theorem declaredExactly_iff_of_find
    (hok : discoverModels answers now disabled order db = .ok (db', outcome))
    (hfind : (db.registry.models.sightings now (reports (listedOf answers))).find i =
      some (m, row))
    (hlast : lastOf (reports (listedOf answers)) i = some r) :
    DeclaredExactly db'.registry m r.2 ↔
      (∀ p r' s, reports (listedOf answers) = p ++ r' :: s →
        heir db.registry.models (sighted (p ++ [r'])) (sighted s) r'.2.identity = i →
        ∀ capabilityId ∈ declaredIds r'.2, capabilityId ∈ declaredIds r.2) ∧
      ∀ capabilityId, db.registry.capabilities.lookup (m, capabilityId, .declared) ≠ none →
        capabilityId ∈ declaredIds r.2 := by
  classical
  have hself : ∀ capabilityId ∈ declaredIds r.2,
      Declares db.registry.models now (reports (listedOf answers)) m capabilityId := by
    intro capabilityId hdeclared
    obtain ⟨rfl, p, s, hl, hs⟩ := lastOf_eq_some_iff.1 hlast
    refine (declares_iff hfind).2 ⟨p, r, s, hl, ?_, hdeclared⟩
    rw [hl] at hfind
    exact (@find_last_iff db.registry.models r now p s hs).1 (by rw [hfind]; exact nofun)
  have hlookup : ∀ capabilityId, db'.registry.capabilities.lookup (m, capabilityId, .declared) =
      if Declares db.registry.models now (reports (listedOf answers)) m capabilityId then
        some { score := some 1, confidence := 1 / 2, updatedAt := now }
      else db.registry.capabilities.lookup (m, capabilityId, .declared) := by
    intro capabilityId
    rw [capabilities_of_discoverModels hok, lookup_capabilities_recorded]
    simp
  rw [declaredExactly_iff]
  constructor
  · intro hexact
    have hstated : ∀ capabilityId,
        db'.registry.capabilities.lookup (m, capabilityId, .declared) ≠ none →
          capabilityId ∈ declaredIds r.2 := by
      intro capabilityId hsome
      by_contra hnot
      have h := hexact capabilityId
      rw [if_neg hnot, Option.map_eq_none_iff] at h
      exact hsome h
    refine ⟨fun p r' s hl hheir capabilityId hdeclared => hstated capabilityId ?_,
      fun capabilityId hsome => hstated capabilityId ?_⟩
    · rw [hlookup, if_pos ((declares_iff hfind).2 ⟨p, r', s, hl, hheir, hdeclared⟩)]
      exact nofun
    · rw [hlookup]
      split
      · exact nofun
      · exact hsome
  · rintro ⟨hreports, hstored⟩ capabilityId
    rw [hlookup]
    by_cases hdeclares : Declares db.registry.models now (reports (listedOf answers)) m capabilityId
    · obtain ⟨p, r', s, hl, hheir, hdeclared⟩ := (declares_iff hfind).1 hdeclares
      rw [if_pos hdeclares, if_pos (hreports p r' s hl hheir _ hdeclared)]
      rfl
    · have hnot := mt (hself capabilityId) hdeclares
      rw [if_neg hdeclares, if_neg hnot, Option.map_eq_none_iff]
      by_contra hsome
      exact hnot (hstored capabilityId hsome)

theorem find_stored (now : Instant) (l : List Report)
    (hrow : db.registry.models.rows.lookup m = some row) :
    ∃ row', (db.registry.models.sightings now l).find
      (heir db.registry.models [] (sighted l) row.identity) = some (m, row') :=
  find_heir [] _ (Indexed.find_eq_some_iff.2 ⟨hrow, rfl⟩)

theorem find_reported {p s : List Report} (now : Instant) (models : Models) (r : Report) :
    ∃ m row, (models.sightings now (p ++ r :: s)).find
      (heir models (sighted (p ++ [r])) (sighted s) r.2.identity) = some (m, row) := by
  obtain ⟨row, hrow⟩ := find_heir _ s (@find_sightings_last models p r now)
  rw [List.append_assoc, List.singleton_append] at hrow
  exact ⟨_, row, hrow⟩

theorem heir_of_stored {l : List Report} (hfind : (db.registry.models.sightings now l).find i =
      some (m, row)) (hstored : db.registry.models.rows.lookup m = some row') :
    heir db.registry.models [] (sighted l) row'.identity = i := by
  obtain ⟨row'', hfind'⟩ := find_stored now l hstored
  obtain ⟨hrow, hidentity⟩ := Indexed.find_eq_some_iff.1 hfind
  obtain ⟨hrow', hidentity'⟩ := Indexed.find_eq_some_iff.1 hfind'
  rw [hrow, Option.some.injEq] at hrow'
  rw [← hidentity, ← hidentity', hrow']

/-- What the reports left under a reported identity is what a pass that carries them leaves there. -/
theorem CarriesReports.settled
    (hcarries : CarriesReports (reports (listedOf answers)) db'.registry)
    (hok : discoverModels answers now disabled order db = .ok (db', outcome))
    (hfind : (db.registry.models.sightings now (reports (listedOf answers))).find i = some (m, row))
    (hlast : lastOf (reports (listedOf answers)) i = some r) :
    takerOf db.adapters db.registry.models (sighted (reports (listedOf answers)))
      (identitiesOf db.evidence order) i = none ∧ DeclaredExactly db'.registry m r.2 := by
  obtain ⟨m', row', hfind', -, hexact⟩ := hcarries i r hlast
  obtain ⟨hkept, htaken⟩ := find_of_discoverModels hok hfind
  cases htaker : takerOf db.adapters db.registry.models
      (sighted (reports (listedOf answers))) (identitiesOf db.evidence order) i with
  | none =>
      rw [hkept htaker, Option.some.injEq, Prod.mk.injEq] at hfind'
      exact ⟨rfl, hfind'.1 ▸ hexact⟩
  | some x =>
      rw [(htaken x htaker).1] at hfind'
      cases hfind'

theorem CarriesReports.found
    (hcarries : CarriesReports (reports (listedOf answers)) db'.registry)
    (hok : discoverModels answers now disabled order db = .ok (db', outcome))
    (hlast : lastOf (reports (listedOf answers)) i = some r) :
    (db.registry.models.sightings now (reports (listedOf answers))).find i ≠ none := by
  intro hnone
  by_cases hdigest : i.artifactDigest = none
  · obtain ⟨m, row, hfind, -⟩ := hcarries i r hlast
    rw [find_none_of_discoverModels hok hdigest hnone] at hfind
    cases hfind
  · obtain ⟨rfl, p, s, hl, -⟩ := lastOf_eq_some_iff.1 hlast
    refine ((find_sightings_eq_none_iff hdigest).1 hnone).2 (mem_sighted.2 ⟨r, ?_, rfl⟩)
    exact hl ▸ List.mem_append_right _ List.mem_cons_self

/-- **A pass carries what was reported** exactly where no name loses its row after its last report
and no row has a declared capability that the last report of it does not declare. -/
theorem carriesReports_iff
    (hok : discoverModels answers now disabled order db = .ok (db', outcome)) :
    CarriesReports (reports (listedOf answers)) db'.registry ↔
      (∀ p r s, reports (listedOf answers) = p ++ r :: s → r.2.identity ∉ sighted s →
        heir db.registry.models (sighted (p ++ [r])) (sighted s) r.2.identity = r.2.identity ∧
          takerOf db.adapters db.registry.models (sighted (reports (listedOf answers)))
            (identitiesOf db.evidence order) r.2.identity = none) ∧
      (∀ m row capabilityId r, db.registry.models.rows.lookup m = some row →
        db.registry.capabilities.lookup (m, capabilityId, .declared) ≠ none →
        lastOf (reports (listedOf answers)) (heir db.registry.models []
          (sighted (reports (listedOf answers))) row.identity) = some r →
        capabilityId ∈ declaredIds r.2) ∧
      ∀ p r s r', reports (listedOf answers) = p ++ r :: s →
        lastOf (reports (listedOf answers))
          (heir db.registry.models (sighted (p ++ [r])) (sighted s) r.2.identity) = some r' →
        ∀ capabilityId ∈ declaredIds r.2, capabilityId ∈ declaredIds r'.2 := by
  constructor
  · intro hcarries
    refine ⟨?_, ?_, ?_⟩
    · intro p r s hl hs
      have hlast := lastOf_eq_some_iff.2 ⟨rfl, p, s, hl, hs⟩
      have hfound := hcarries.found hok hlast
      obtain ⟨⟨m, row⟩, hfind⟩ := Option.ne_none_iff_exists'.1 hfound
      refine ⟨?_, (hcarries.settled hok hfind hlast).1⟩
      rw [hl] at hfound
      exact (find_last_iff hs).1 hfound
    · intro m row capabilityId r hrow hstored hlast
      obtain ⟨row', hfind⟩ := find_stored now (reports (listedOf answers)) hrow
      exact ((declaredExactly_iff_of_find hok hfind hlast).1
        (hcarries.settled hok hfind hlast).2).2 capabilityId hstored
    · intro p r s r' hl hlast
      obtain ⟨m, row, hfind⟩ := @find_reported p s now db.registry.models r
      rw [← hl] at hfind
      exact ((declaredExactly_iff_of_find hok hfind hlast).1
        (hcarries.settled hok hfind hlast).2).1 p r s hl rfl
  · rintro ⟨hstays, hstored, hreports⟩ i r hlast
    obtain ⟨rfl, p, s, hl, hs⟩ := lastOf_eq_some_iff.1 hlast
    obtain ⟨hheir, htaker⟩ := hstays p r s hl hs
    have hfound := (@find_last_iff db.registry.models r now p s hs).2 hheir
    rw [← hl] at hfound
    obtain ⟨⟨m, row⟩, hfind⟩ := Option.ne_none_iff_exists'.1 hfound
    refine ⟨m, _, (find_of_discoverModels hok hfind).1 htaker, ?_,
      (declaredExactly_iff_of_find hok hfind hlast).2 ⟨?_, ?_⟩⟩
    · obtain ⟨old, rfl⟩ := row_of_reported hfind hlast
      obtain ⟨available, unavailableReason, hafter⟩ :=
        @ModelRow.afterPass_eq answers disabled (r.2.sighted now r.1 old)
      rw [hafter]
      exact ⟨rfl, rfl, rfl, rfl, rfl⟩
    · intro p' r' s' hl' hheir'
      exact hreports p' r' s' r hl' (hheir' ▸ hlast)
    · intro capabilityId hcapability
      obtain ⟨row₀, hrow₀⟩ := Option.isSome_iff_exists.1
        (AList.lookup_isSome.2 (db.registry.referenced
          (Option.ne_none_iff_exists'.1 hcapability).choose_spec))
      have hsame := heir_of_stored hfind hrow₀
      exact hstored m row₀ capabilityId r hrow₀ hcapability (hsame ▸ hlast)

end Pass

end LoadCoach.Registry

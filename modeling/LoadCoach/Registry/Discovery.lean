import LoadCoach.Registry.Binding

/-! # Discovery

`services/models.py`, `discover_models`: every registration is listed; what the ones that answered
report is written to the registry, one model after the other; the rows that were not reported are
retired; and the evidence is matched again.

`recorded_row` says what the writes leave of a row: it is as it was, or some registration reported
it.  `retires_iff` is what follows for the rows that are retired: a kind that was answered for
retires every row of the kind that nothing reported, also those of a registration of the same kind
that could not be listed. -/

namespace LoadCoach.Registry

open Foundations
open Routing (SignalSource)

/-! ### Recording one model -/

/-- The identifiers of the capabilities a descriptor declares. -/
def declaredIds (descriptor : ModelDescriptor) : List String :=
  (declaredCapabilitiesFor descriptor).map Prod.fst

/-- `_sync_declared_capabilities`. -/
def syncDeclaredCapabilities (m : ModelId) (descriptor : ModelDescriptor) (now : Instant)
    (t : Table (ModelId × String × SignalSource) CapabilityRow) :
    Table (ModelId × String × SignalSource) CapabilityRow :=
  (declaredCapabilitiesFor descriptor).foldl
    (fun t declared => t.insert (m, declared.1, .declared)
      { score := some declared.2.1, confidence := declared.2.2, updatedAt := now }) t

theorem snd_of_mem_declaredCapabilitiesFor {descriptor : ModelDescriptor}
    {declared : String × ℚ × ℚ} (h : declared ∈ declaredCapabilitiesFor descriptor) :
    declared.2 = (1, 1 / 2) := by
  obtain ⟨flag, -, hflag⟩ := List.mem_filterMap.1 h
  obtain ⟨_, -, rfl⟩ := Option.map_eq_some_iff.1 hflag
  rfl

theorem lookup_syncDeclaredCapabilities (m m' : ModelId) (descriptor : ModelDescriptor)
    (now : Instant) (t : Table (ModelId × String × SignalSource) CapabilityRow)
    (capabilityId : String) (source : SignalSource) :
    (syncDeclaredCapabilities m descriptor now t).lookup (m', capabilityId, source) =
      if m' = m ∧ source = .declared ∧ capabilityId ∈ declaredIds descriptor then
        some { score := some 1, confidence := 1 / 2, updatedAt := now }
      else t.lookup (m', capabilityId, source) := by
  have hsame : ∀ declared ∈ declaredCapabilitiesFor descriptor, declared.2 = (1, 1 / 2) :=
    fun _ => snd_of_mem_declaredCapabilitiesFor
  rw [syncDeclaredCapabilities, declaredIds]
  generalize declaredCapabilitiesFor descriptor = l at hsame ⊢
  induction l generalizing t with
  | nil => simp
  | cons declared l ih =>
      rw [List.foldl_cons, ih _ fun d hd => hsame d (List.mem_cons_of_mem _ hd)]
      have hone := hsame declared List.mem_cons_self
      by_cases hin : m' = m ∧ source = .declared ∧ capabilityId ∈ l.map Prod.fst
      · rw [if_pos hin, if_pos ⟨hin.1, hin.2.1, List.mem_cons_of_mem _ hin.2.2⟩]
      · rw [if_neg hin]
        by_cases hkey : (m', capabilityId, source) = (m, declared.1, SignalSource.declared)
        · obtain ⟨rfl, rfl, rfl⟩ := by simpa only [Prod.mk.injEq] using hkey
          rw [AList.lookup_insert, if_pos ⟨rfl, rfl, List.mem_cons_self⟩, hone]
        · rw [AList.lookup_insert_ne hkey, if_neg]
          rintro ⟨rfl, rfl, hmem⟩
          rcases List.mem_cons.1 hmem with rfl | hmem
          · exact hkey rfl
          · exact hin ⟨rfl, rfl, hmem⟩

/-- What a pass does with one model: `_upsert_model` and `_sync_declared_capabilities`. -/
def ModelRegistry.record (descriptor : ModelDescriptor) (now : Instant)
    (registration : Registration) (registry : ModelRegistry) : ModelRegistry where
  models := registry.models.upsert descriptor now registration
  capabilities := syncDeclaredCapabilities (registry.models.target descriptor.identity) descriptor
    now registry.capabilities
  referenced := by
    rintro ⟨m, capabilityId, source⟩ row hrow
    rw [lookup_syncDeclaredCapabilities] at hrow
    refine (AList.mem_insert _).2 ?_
    split at hrow
    · rename_i h
      exact .inl h.1
    · exact .inr (registry.referenced hrow)

/-! ### The pass -/

/-- What a registration answered: its models, or what it raised. -/
abbrev Answer := Registration × Except Raised (List ModelDescriptor)

/-- The registrations that answered. -/
def listedOf (answers : List Answer) : List (Registration × List ModelDescriptor) :=
  answers.filterMap fun answer => answer.2.toOption.map fun descriptors => (answer.1, descriptors)

/-- The names of those that did not. -/
def unreachableOf (answers : List Answer) : List String :=
  (answers.filter fun answer => answer.2.toOption.isNone).map fun answer => answer.1.name

/-- The first error. -/
def firstProviderError (answers : List Answer) : Option Raised :=
  (answers.filterMap fun answer =>
    match answer.2 with
    | .ok _ => none
    | .error raised => some raised).head?

/-- What was reported, in order. -/
def reports (listed : List (Registration × List ModelDescriptor)) :
    List (Registration × ModelDescriptor) :=
  listed.flatMap fun e => e.2.map fun descriptor => (e.1, descriptor)

/-- The state of the loop. -/
structure Recording where
  registry : ModelRegistry
  seenCanonicalIds : List String := []
  added : ℕ := 0
  updated : ℕ := 0

/-- One model of the loop. -/
def recordReport (now : Instant) (st : Recording) (report : Registration × ModelDescriptor) :
    Recording :=
  let isNew := (st.registry.models.find report.2.identity).isNone
  { registry := st.registry.record report.2 now report.1
    seenCanonicalIds := report.2.canonicalId :: st.seenCanonicalIds
    added := st.added + if isNew then 1 else 0
    updated := st.updated + if isNew then 0 else 1 }

/-- A row after the rows that were not reported are retired. -/
def ModelRow.retired (disabled seenCanonicalIds answeredKinds : List String) (row : ModelRow) :
    ModelRow :=
  if row.available = false then row
  else if row.providerName ∈ disabled then
    { row with available := false, unavailableReason := some "provider_disabled" }
  else if row.canonicalId ∈ seenCanonicalIds then row
  else if row.identity.providerKind ∉ answeredKinds then row
  else
    { row with
      available := false
      unavailableReason := some "not reported by the provider's most recent discovery" }

theorem ModelRow.identity_retired (disabled seenCanonicalIds answeredKinds : List String)
    (row : ModelRow) :
    (row.retired disabled seenCanonicalIds answeredKinds).identity = row.identity := by
  rw [ModelRow.retired]
  repeat' split
  all_goals rfl

/-- The registry after the rows that were not reported are retired. -/
def ModelRegistry.retire (disabled seenCanonicalIds answeredKinds : List String)
    (registry : ModelRegistry) : ModelRegistry where
  models := registry.models.mapRows
    (fun _ row => row.retired disabled seenCanonicalIds answeredKinds)
    fun _ row => row.identity_retired disabled seenCanonicalIds answeredKinds
  capabilities := registry.capabilities
  referenced := by
    intro key row hrow
    have hmem := AList.lookup_isSome.2 (registry.referenced hrow)
    refine AList.lookup_isSome.1 ?_
    simpa [Indexed.mapRows] using hmem

/-- `DiscoveryOutcome`. -/
structure DiscoveryOutcome where
  added : ℕ
  updated : ℕ
  unavailable : ℕ
  total : ℕ
  checkedAt : Instant
  unreachable : List String

/-- The registry as the loop over the reports leaves it. -/
def recorded (answers : List Answer) (now : Instant) (registry : ModelRegistry) : Recording :=
  (reports (listedOf answers)).foldl (recordReport now) { registry }

/-- The registry as a pass leaves it, before the evidence is matched again. -/
def projected (answers : List Answer) (now : Instant) (disabled : List String)
    (registry : ModelRegistry) : ModelRegistry :=
  let st := recorded answers now registry
  st.registry.retire disabled st.seenCanonicalIds
    ((listedOf answers).map fun e => e.1.kind)

/-- `discover_models`; the rows of evidence are matched in some order. -/
def discoverModels (answers : List Answer) (now : Instant) (disabled : List String)
    (order : List EvidenceKey) (db : EvidenceDb) : Except Raised (EvidenceDb × DiscoveryOutcome) :=
  match (listedOf answers).isEmpty, firstProviderError answers with
  | true, some raised => .error raised
  | _, _ =>
      let st := recorded answers now db.registry
      let registry := projected answers now disabled db.registry
      .ok (rebindEvidence order { db with registry },
        { added := st.added
          updated := st.updated
          unavailable := (st.registry.models.rows.select fun m row =>
            row.available && ((registry.models.rows.lookup m).all fun row => !row.available)).length
          total := (reports (listedOf answers)).length
          checkedAt := now
          unreachable := unreachableOf answers })

/-! ### What the reports leave -/

/-- A report goes to a row. -/
def Reported (models : Models) (l : List (Registration × ModelDescriptor)) (m : ModelId) : Prop :=
  ∃ r ∈ l, ∃ row, models.existing r.2.identity = some (m, row)

/-- A row as a report leaves it. -/
def ModelRow.ReportedBy (l : List (Registration × ModelDescriptor)) (row : ModelRow) : Prop :=
  ∃ r ∈ l, row.identity = r.2.identity ∧ row.canonicalId = r.2.canonicalId ∧ row.available = true

/-- **The models some reports leave**: a row no report goes to is as it was, and any other is as one
of them left it; a digest keeps its row. -/
structure RecordedFrom (models : Models) (l : List (Registration × ModelDescriptor))
    (models' : Models) : Prop where
  kept : ∀ m row, models.rows.lookup m = some row → ¬ Reported models l m →
    models'.rows.lookup m = some row
  row : ∀ m row, models'.rows.lookup m = some row →
    models.rows.lookup m = some row ∧ ¬ Reported models l m ∨ row.ReportedBy l
  digest : ∀ i m row, i.artifactDigest ≠ none → models.find i = some (m, row) →
    ∃ row', models'.find i = some (m, row')

section Loop

variable {models models' : Models} {l : List (Registration × ModelDescriptor)}
  {r : Registration × ModelDescriptor} {m : ModelId} {row : ModelRow} {now : Instant}

theorem reported_append :
    Reported models (l ++ [r]) m ↔
      Reported models l m ∨ ∃ row, models.existing r.2.identity = some (m, row) := by
  simp only [Reported, List.mem_append, List.mem_singleton, or_and_right, exists_or, exists_eq_left]

theorem recordedFrom_nil (models : Models) : RecordedFrom models [] models where
  kept _ _ hrow _ := hrow
  row _ _ hrow := .inl ⟨hrow, fun ⟨_, hr, _⟩ => by cases hr⟩
  digest _ _ row _ hfind := ⟨row, hfind⟩

theorem ModelRow.ReportedBy.append (h : row.ReportedBy l) : row.ReportedBy (l ++ [r]) := by
  obtain ⟨r', hr', hrow⟩ := h
  exact ⟨r', List.mem_append_left _ hr', hrow⟩

theorem RecordedFrom.target_iff (h : RecordedFrom models l models')
    (hrow : models.rows.lookup m = some row) (hnot : ¬ Reported models l m) :
    models'.target r.2.identity = m ↔ ∃ row, models.existing r.2.identity = some (m, row) := by
  have hkept := h.kept m row hrow hnot
  constructor
  · intro htarget
    refine ⟨row, Models.existing_eq_some_iff.2 ⟨hrow, ?_⟩⟩
    rcases (Models.existing_eq_some_iff.1 (Models.existing_of_target hkept htarget)).2 with
      hsame | ⟨hnone, hdigest, hname⟩
    · exact .inl hsame
    · refine .inr ⟨?_, hdigest, hname⟩
      cases hfind : models.find r.2.identity with
      | none => rfl
      | some found =>
          obtain ⟨row', hrow'⟩ := h.digest _ _ _ hdigest hfind
          rw [hnone] at hrow'
          cases hrow'
  · rintro ⟨row', hexisting⟩
    obtain ⟨hrow', hidentity⟩ := Models.existing_eq_some_iff.1 hexisting
    rw [hrow, Option.some.injEq] at hrow'
    subst hrow'
    refine Models.target_of_existing (Models.existing_eq_some_iff.2 ⟨hkept, ?_⟩)
    rcases hidentity with hsame | ⟨hnone, hdigest, hname⟩
    · exact .inl hsame
    · refine .inr ⟨Indexed.find_eq_none_iff.2 fun m' row' hrow' hsame => ?_, hdigest, hname⟩
      -- a row of the digest would be an earlier report's, which took this one
      rcases h.row m' row' hrow' with ⟨hbefore, -⟩ | ⟨r', hr', hidentity, -⟩
      · exact Indexed.find_eq_none_iff.1 hnone m' row' hbefore hsame
      · exact hnot ⟨r', hr', row, by rw [← hidentity, hsame]; exact hexisting⟩

/-- **One report more.** -/
theorem RecordedFrom.snoc (h : RecordedFrom models l models') :
    RecordedFrom models (l ++ [r]) (models'.upsert r.2 now r.1) where
  kept m row hrow hnot := by
    rw [reported_append, not_or] at hnot
    rw [Models.lookup_upsert, if_neg, h.kept m row hrow hnot.1]
    exact fun htarget => hnot.2 ((h.target_iff hrow hnot.1).1 htarget.symm)
  row m row hrow := by
    rw [Models.lookup_upsert] at hrow
    split at hrow
    · cases hrow
      exact .inr ⟨r, List.mem_append_right _ (List.mem_singleton_self r), rfl, rfl, rfl⟩
    · rename_i htarget
      rcases h.row m row hrow with ⟨hbefore, hnot⟩ | hreported
      · refine .inl ⟨hbefore, fun hreported => ?_⟩
        rcases reported_append.1 hreported with hreported | hreported
        · exact hnot hreported
        · exact htarget ((h.target_iff hbefore hnot).2 hreported).symm
      · exact .inr hreported.append
  digest i m row hdigest hfind := by
    obtain ⟨row', hrow'⟩ := h.digest i m row hdigest hfind
    exact Models.find_upsert_of_digest hdigest hrow'

theorem recordedFrom_foldl (st : Recording) :
    RecordedFrom st.registry.models l (l.foldl (recordReport now) st).registry.models := by
  induction l using List.reverseRecOn with
  | nil => exact recordedFrom_nil _
  | append_singleton l r ih =>
      rw [List.foldl_append]
      exact ih.snoc

theorem mem_seenCanonicalIds {st : Recording} {canonicalId : String} :
    canonicalId ∈ (l.foldl (recordReport now) st).seenCanonicalIds ↔
      (∃ r ∈ l, r.2.canonicalId = canonicalId) ∨ canonicalId ∈ st.seenCanonicalIds := by
  induction l generalizing st with
  | nil => simp
  | cons r l ih =>
      rw [List.foldl_cons, ih]
      simp only [recordReport, List.mem_cons, exists_eq_or_imp, @eq_comm _ canonicalId]
      exact or_left_comm.trans or_assoc.symm

end Loop

/-! ### What the rebind leaves of a model -/

section Rebind

variable {models : Models} {β : Type*} {f : ModelRow → β}

theorem Models.map_lookup_upgrade
    (hf : ∀ row identity canonicalId identityConfidence,
      f { row with identity, canonicalId, identityConfidence } = f row)
    (m m' : ModelId) (digest canonicalId : String) :
    ((models.upgrade m digest canonicalId).rows.lookup m').map f =
      (models.rows.lookup m').map f := by
  rw [Models.upgrade]
  split
  · rename_i row hrow
    split
    · dsimp only
      split
      · by_cases hm : m' = m
        · rw [hm, hrow, Indexed.put, AList.lookup_insert]
          exact congrArg some (hf row _ _ _)
        · rw [Indexed.put, AList.lookup_insert_ne hm]
      · rfl
    · rfl
  · rfl

theorem Binding.map_lookup_applied
    (hf : ∀ row identity canonicalId identityConfidence,
      f { row with identity, canonicalId, identityConfidence } = f row)
    (binding : Binding) (canonicalId : String) (m : ModelId) :
    ((binding.applied canonicalId models).rows.lookup m).map f =
      (models.rows.lookup m).map f := by
  rw [Binding.applied]
  split
  · exact Models.map_lookup_upgrade hf _ _ _ _
  · rfl

theorem map_lookup_rebindEvidence
    (hf : ∀ row identity canonicalId identityConfidence,
      f { row with identity, canonicalId, identityConfidence } = f row)
    (order : List EvidenceKey) (db : EvidenceDb) (m : ModelId) :
    ((rebindEvidence order db).registry.models.rows.lookup m).map f =
      (db.registry.models.rows.lookup m).map f := by
  have hloop : ∀ st : Rebinding, ((rebindRows db.adapters order st).models.rows.lookup m).map f =
      (st.models.rows.lookup m).map f := by
    induction order with
    | nil => exact fun st => rfl
    | cons key order ih =>
        intro st
        rw [rebindRows, List.foldl_cons, ← rebindRows, ih]
        rw [rebindRow]
        split
        · rfl
        · exact Binding.map_lookup_applied hf _ _ _
  exact hloop _

end Rebind

/-! ### Retiring -/

section Retire

theorem ModelRow.available_retired_iff {disabled seenCanonicalIds answeredKinds : List String}
    {row : ModelRow} :
    (row.retired disabled seenCanonicalIds answeredKinds).available = false ↔
      row.available = false ∨ row.providerName ∈ disabled ∨
        row.canonicalId ∉ seenCanonicalIds ∧ row.identity.providerKind ∈ answeredKinds := by
  rw [ModelRow.retired]
  by_cases havailable : row.available = false
  · simp [havailable]
  · by_cases hdisabled : row.providerName ∈ disabled
    · simp [havailable, hdisabled]
    · by_cases hseen : row.canonicalId ∈ seenCanonicalIds
      · simp [havailable, hdisabled, hseen]
      · by_cases hkind : row.identity.providerKind ∈ answeredKinds <;>
          simp [havailable, hdisabled, hseen, hkind]

theorem ModelRow.providerName_retired (disabled seenCanonicalIds answeredKinds : List String)
    (row : ModelRow) :
    (row.retired disabled seenCanonicalIds answeredKinds).providerName = row.providerName := by
  rw [ModelRow.retired]
  repeat' split
  all_goals rfl

/-- A registration that answered does not list a row. -/
def AnsweredWithout (listed : List (Registration × List ModelDescriptor)) (row : ModelRow) : Prop :=
  ∃ e ∈ listed, e.1.name = row.providerName ∧ ∀ descriptor ∈ e.2, descriptor.identity ≠ row.identity

/-- **A pass retires only on an answer**: a row that it leaves unavailable, and that was not so
before, is of a disabled registration, or was served by a registration that answered without it. -/
def RetiresOnlyAnswered (answers : List Answer) (disabled : List String) (db db' : EvidenceDb) :
    Prop :=
  ∀ m row', db'.registry.models.rows.lookup m = some row' → row'.available = false →
    (∀ row, db.registry.models.rows.lookup m = some row → row.available = true) →
    row'.providerName ∈ disabled ∨
      ∃ row, db.registry.models.rows.lookup m = some row ∧ AnsweredWithout (listedOf answers) row

variable {answers : List Answer} {now : Instant} {disabled : List String}
  {order : List EvidenceKey} {db db' : EvidenceDb} {outcome : DiscoveryOutcome} {m : ModelId}
  {row : ModelRow}

theorem eq_of_discoverModels
    (hok : discoverModels answers now disabled order db = .ok (db', outcome)) :
    db' = rebindEvidence order
      { db with registry := projected answers now disabled db.registry } := by
  rw [discoverModels] at hok
  split at hok
  · cases hok
  · exact (congrArg Prod.fst (Except.ok.inj hok)).symm

theorem recordedFrom_recorded (answers : List Answer) (now : Instant) (registry : ModelRegistry) :
    RecordedFrom registry.models (reports (listedOf answers))
      (recorded answers now registry).registry.models :=
  recordedFrom_foldl { registry }

theorem mem_seen_recorded {canonicalId : String} :
    canonicalId ∈ (recorded answers now db.registry).seenCanonicalIds ↔
      ∃ r ∈ reports (listedOf answers), r.2.canonicalId = canonicalId := by
  rw [recorded, mem_seenCanonicalIds]
  simp

/-- **A row that a pass retires**, by the row the reports left. -/
theorem retired_iff (hok : discoverModels answers now disabled order db = .ok (db', outcome))
    {providerName : String} :
    (∃ row', db'.registry.models.rows.lookup m = some row' ∧ row'.providerName = providerName ∧
        row'.available = false) ↔
      ∃ row, (recorded answers now db.registry).registry.models.rows.lookup m = some row ∧
        row.providerName = providerName ∧
        (row.available = false ∨ row.providerName ∈ disabled ∨
          (∀ r ∈ reports (listedOf answers), r.2.canonicalId ≠ row.canonicalId) ∧
            ∃ e ∈ listedOf answers, e.1.kind = row.identity.providerKind) := by
  have hrebind := map_lookup_rebindEvidence (f := fun row => (row.providerName, row.available))
    (fun _ _ _ _ => rfl) order
    { db with registry := projected answers now disabled db.registry } m
  rw [← eq_of_discoverModels hok] at hrebind
  have hmap : ∀ {t : Option ModelRow}, (∃ row, t = some row ∧ row.providerName = providerName ∧
      row.available = false) ↔
      t.map (fun row => (row.providerName, row.available)) = some (providerName, false) := by
    intro t
    simp [Option.map_eq_some_iff]
  rw [hmap, hrebind, ← hmap]
  simp only [projected, ModelRegistry.retire, Indexed.mapRows, Table.lookup_mapRows,
    Option.map_eq_some_iff]
  constructor
  · rintro ⟨_, ⟨row, hrow, rfl⟩, hname, havailable⟩
    rw [ModelRow.providerName_retired] at hname
    refine ⟨row, hrow, hname, ?_⟩
    simpa [mem_seen_recorded] using ModelRow.available_retired_iff.1 havailable
  · rintro ⟨row, hrow, hname, hretired⟩
    refine ⟨_, ⟨row, hrow, rfl⟩, by rw [ModelRow.providerName_retired, hname], ?_⟩
    exact ModelRow.available_retired_iff.2 (by simpa [mem_seen_recorded] using hretired)

/-- **Retirement is exact** exactly when every row that is available, of no disabled registration,
not reported and of a kind that some registration answered for was served by one that answered. -/
theorem retires_iff (hok : discoverModels answers now disabled order db = .ok (db', outcome)) :
    RetiresOnlyAnswered answers disabled db db' ↔
      ∀ m row, db.registry.models.rows.lookup m = some row → row.available = true →
        row.providerName ∉ disabled → ¬ Reported db.registry.models (reports (listedOf answers)) m →
        (∀ r ∈ reports (listedOf answers), r.2.canonicalId ≠ row.canonicalId) →
        (∃ e ∈ listedOf answers, e.1.kind = row.identity.providerKind) →
        ∃ e ∈ listedOf answers, e.1.name = row.providerName := by
  have hloop := recordedFrom_recorded answers now db.registry
  constructor
  · intro hretires m row hrow havailable hdisabled hnot hseen hkind
    obtain ⟨row', hrow', hname, hgone⟩ := (retired_iff hok).2
      ⟨row, hloop.kept m row hrow hnot, rfl, .inr (.inr ⟨hseen, hkind⟩)⟩
    have hbefore : ∀ row₀, db.registry.models.rows.lookup m = some row₀ → row₀.available = true := by
      intro row₀ hrow₀
      rw [hrow, Option.some.injEq] at hrow₀
      rw [← hrow₀, havailable]
    rcases hretires m row' hrow' hgone hbefore with hin | ⟨row₀, hrow₀, e, he, hserved, -⟩
    · exact absurd (hname ▸ hin) hdisabled
    · rw [hrow, Option.some.injEq] at hrow₀
      exact ⟨e, he, hrow₀ ▸ hserved⟩
  · intro hcond m row' hrow' hgone hbefore
    obtain ⟨row, hrow, hname, hretired⟩ := (retired_iff hok).1 ⟨row', hrow', rfl, hgone⟩
    rcases hloop.row m row hrow with ⟨hkept, hnot⟩ | ⟨r, hr, -, hid, havailable⟩
    · rcases hretired with hunavailable | hdisabled | ⟨hseen, hkind⟩
      · rw [hbefore row hkept] at hunavailable
        cases hunavailable
      · exact .inl (hname ▸ hdisabled)
      · by_cases hdisabled : row.providerName ∈ disabled
        · exact .inl (hname ▸ hdisabled)
        · obtain ⟨e, he, hserved⟩ :=
            hcond m row hkept (hbefore row hkept) hdisabled hnot hseen hkind
          refine .inr ⟨row, hkept, e, he, hserved, fun descriptor hdescriptor hsame => hnot ?_⟩
          refine ⟨(e.1, descriptor), List.mem_flatMap.2 ⟨e, he, List.mem_map_of_mem hdescriptor⟩,
            row, Models.existing_eq_some_iff.2 ⟨hkept, .inl hsame.symm⟩⟩
    · -- a row that was reported is available and seen
      rcases hretired with hunavailable | hdisabled | ⟨hseen, -⟩
      · rw [havailable] at hunavailable
        cases hunavailable
      · exact .inl (hname ▸ hdisabled)
      · exact absurd hid.symm (hseen r hr)

end Retire

/-- A model, last served by a registration of the given name. -/
def servedRow (providerName : String) : ModelRow where
  identity := ⟨"ollama", "qwen3:8b", none⟩
  canonicalId := "ollama:qwen3:8b"
  identityConfidence := "name_only"
  providerName
  firstSeenAt := 0
  lastSeenAt := 0

/-- A registry of that model. -/
def servedBy (providerName : String) : EvidenceDb where
  registry := .ofModels (Indexed.single 1 (servedRow providerName))

theorem eq_servedRow {providerName : String} {m : ModelId} {row : ModelRow}
    (h : (servedBy providerName).registry.models.rows.lookup m = some row) :
    row = servedRow providerName := by
  change ((∅ : Table ModelId ModelRow).insert 1 (servedRow providerName)).lookup m = some row at h
  by_cases hm : m = 1
  · rw [hm, AList.lookup_insert] at h
    exact (Option.some.inj h).symm
  · rw [AList.lookup_insert_ne hm] at h
    cases h

/-- One registration that answers without models, and one of its kind that cannot be reached. -/
def halfAnswers : List Answer :=
  [(⟨"local", "ollama", false⟩, .ok []),
    (⟨"remote", "ollama", true⟩, .error (.suite "PROVIDER_UNREACHABLE" "connection refused" []))]

theorem retires_answered :
    RetiresOnlyAnswered halfAnswers [] (servedBy "local") (rebindEvidence []
      { servedBy "local" with
        registry := projected halfAnswers 0 [] (servedBy "local").registry }) := by
  refine (retires_iff rfl).2 fun m row hrow _ _ _ _ _ => ?_
  refine ⟨(⟨"local", "ollama", false⟩, []), List.mem_singleton_self _, ?_⟩
  rw [eq_servedRow hrow]
  rfl

/-- The model of the registration that could not be reached is retired. -/
theorem retires_unreachable :
    ¬ ∃ db' outcome, discoverModels halfAnswers 0 [] [] (servedBy "remote") = .ok (db', outcome) ∧
      RetiresOnlyAnswered halfAnswers [] (servedBy "remote") db' := by
  rintro ⟨db', outcome, hok, hretires⟩
  have hgone : (discoverModels halfAnswers 0 [] [] (servedBy "remote")).toOption.map (fun r =>
      (r.1.registry.models.rows.lookup 1).map fun row => (row.available, row.providerName)) =
        some (some (false, "remote")) := by
    decide +kernel
  rw [hok] at hgone
  simp only [Except.toOption, Option.map_some, Option.some.injEq, Option.map_eq_some_iff,
    Prod.mk.injEq] at hgone
  obtain ⟨row', hrow', havailable, -⟩ := hgone
  rcases hretires 1 row' hrow' havailable fun row hrow => by rw [eq_servedRow hrow]; rfl with
    hdisabled | ⟨row, hrow, e, he, hname, -⟩
  · cases hdisabled
  · cases List.mem_singleton.1 he
    rw [eq_servedRow hrow] at hname
    exact absurd hname (by decide)

end LoadCoach.Registry

import LoadCoach.Registry.Binding

/-! # Matching every row again, and runs of imports and rebinds

A rebind goes over the stored rows in some order and binds each against the registry as the rows
before it left it.

* `correct_rebindEvidence_iff`: it leaves every row bound right exactly when no name-only row comes
  before the first row that takes its model away; a second rebind then changes nothing
  (`rebindEvidence_eq_self`).
* `settles_iff_bindsRight` carries this and what holds of imports through the runs of both. -/

namespace LoadCoach.Registry

open Foundations
open Routing (MatchState)

/-! ### The loop over the rows -/

/-- The subjects of some rows. -/
def identitiesOf (evidence : Table EvidenceKey EvidenceRow) (order : List EvidenceKey) :
    List EvidenceIdentity :=
  order.filterMap fun key => (evidence.lookup key).map (EvidenceRow.identity key)

section Loop

variable {adapters : Adapters} {st : Rebinding} {key : EvidenceKey} {row : EvidenceRow}
  {order : List EvidenceKey} {models : Models} {before : List EvidenceIdentity}

theorem rebindRow_of_none (h : st.evidence.lookup key = none) : rebindRow adapters st key = st := by
  rw [rebindRow, h]

theorem rebindRow_of_some (h : st.evidence.lookup key = some row) :
    (rebindRow adapters st key).models =
        (bindIdentity (row.identity key) (registryOf st.models) adapters).applied key.canonicalId
          st.models ∧
      (rebindRow adapters st key).evidence = st.evidence.mapRows fun k r =>
        if k = key then
          r.rebound (bindIdentity (row.identity key) (registryOf st.models) adapters)
        else r := by
  simp only [rebindRow, h, and_self]

theorem identity_rebindRow (k : EvidenceKey) :
    ((rebindRow adapters st key).evidence.lookup k).map (EvidenceRow.identity k) =
      (st.evidence.lookup k).map (EvidenceRow.identity k) := by
  cases hrow : st.evidence.lookup key with
  | none => rw [rebindRow_of_none hrow]
  | some row =>
      rw [(rebindRow_of_some hrow).2, Table.lookup_mapRows, Option.map_map]
      refine congrArg (fun f => Option.map f _) (funext fun r => ?_)
      rw [Function.comp_apply]
      split <;> rfl

theorem identity_rebindRows (k : EvidenceKey) :
    ((rebindRows adapters order st).evidence.lookup k).map (EvidenceRow.identity k) =
      (st.evidence.lookup k).map (EvidenceRow.identity k) := by
  induction order generalizing st with
  | nil => rfl
  | cons key order ih =>
      rw [rebindRows, List.foldl_cons, ← rebindRows, ih, identity_rebindRow]

theorem lookup_rebindRow_of_ne {k : EvidenceKey} (h : k ≠ key) :
    (rebindRow adapters st key).evidence.lookup k = st.evidence.lookup k := by
  cases hrow : st.evidence.lookup key with
  | none => rw [rebindRow_of_none hrow]
  | some row =>
      rw [(rebindRow_of_some hrow).2, Table.lookup_mapRows]
      simp [h]

/-- **The loop binds the rows** one after the other. -/
theorem bound_rebindRows (h : Bound adapters models before st.models) :
    Bound adapters models (before ++ identitiesOf st.evidence order)
      (rebindRows adapters order st).models := by
  induction order generalizing st before with
  | nil => simpa [identitiesOf, rebindRows] using h
  | cons key order ih =>
      have hsame : identitiesOf (rebindRow adapters st key).evidence order =
          identitiesOf st.evidence order := by
        simp only [identitiesOf, identity_rebindRow]
      rw [rebindRows, List.foldl_cons, ← rebindRows]
      cases hrow : st.evidence.lookup key with
      | none =>
          rw [rebindRow_of_none hrow]
          simpa [identitiesOf, hrow] using ih h
      | some row =>
          have hnext := ih ((rebindRow_of_some hrow).1 ▸ h.snoc key.canonicalId)
          rw [hsame, List.append_assoc] at hnext
          simpa [identitiesOf, hrow] using hnext

theorem lookup_rebindRows_of_notMem (h : key ∉ order) :
    (rebindRows adapters order st).evidence.lookup key = st.evidence.lookup key := by
  induction order generalizing st with
  | nil => rfl
  | cons k order ih =>
      rw [rebindRows, List.foldl_cons, ← rebindRows, ih fun hin => h (List.mem_cons_of_mem _ hin)]
      exact lookup_rebindRow_of_ne fun hk => h (hk ▸ List.mem_cons_self)

/-- **A row at its own turn** is bound against the registry the rows before it left. -/
theorem lookup_rebindRows_split {p s : List EvidenceKey} (hp : key ∉ p) (hs : key ∉ s)
    (hrow : st.evidence.lookup key = some row) :
    (rebindRows adapters (p ++ key :: s) st).evidence.lookup key =
      some (row.rebound (bindIdentity (row.identity key)
        (registryOf (rebindRows adapters p st).models) adapters)) := by
  have hstage : (rebindRows adapters p st).evidence.lookup key = some row :=
    (lookup_rebindRows_of_notMem hp).trans hrow
  rw [rebindRows, List.foldl_append, List.foldl_cons, ← rebindRows, ← rebindRows,
    lookup_rebindRows_of_notMem hs, (rebindRow_of_some hstage).2, Table.lookup_mapRows, hstage,
    Option.map_some, if_pos rfl]

theorem EvidenceRow.rebound_eq_self {binding : Binding} (h : row.resolution = binding.resolution) :
    row.rebound binding = row := by
  obtain ⟨hstate, hmodel, hadapter⟩ := by
    simpa only [EvidenceRow.resolution, Binding.resolution, Prod.mk.injEq] using h
  rw [EvidenceRow.rebound, ← hstate, ← hmodel, ← hadapter]

theorem rebindRows_eq_self
    (h : ∀ key row, st.evidence.lookup key = some row →
      row.resolution = resolution adapters st.models (row.identity key) ∧
      (bindIdentity (row.identity key) (registryOf st.models) adapters).applied key.canonicalId
        st.models = st.models) :
    (rebindRows adapters order st).models = st.models ∧
      (rebindRows adapters order st).evidence = st.evidence := by
  induction order generalizing st with
  | nil => exact ⟨rfl, rfl⟩
  | cons key order ih =>
      have hone : (rebindRow adapters st key).models = st.models ∧
          (rebindRow adapters st key).evidence = st.evidence := by
        cases hrow : st.evidence.lookup key with
        | none =>
            rw [rebindRow_of_none hrow]
            exact ⟨rfl, rfl⟩
        | some row =>
            obtain ⟨hresolution, happlied⟩ := h key row hrow
            obtain ⟨hmodels, hevidence⟩ := @rebindRow_of_some adapters st key row hrow
            refine ⟨hmodels.trans happlied, hevidence.trans (Table.mapRows_eq_self ?_)⟩
            intro k r hr
            split
            · rename_i hk
              rw [hk, hrow, Option.some.injEq] at hr
              exact hr ▸ EvidenceRow.rebound_eq_self hresolution
            · rfl
      rw [rebindRows, List.foldl_cons, ← rebindRows]
      obtain ⟨hmodels, hevidence⟩ := ih (by rw [hone.1, hone.2]; exact h)
      exact ⟨hmodels.trans hone.1, hevidence.trans hone.2⟩

end Loop

/-! ### A rebind -/

section Rebind

variable {db : EvidenceDb} {order p s : List EvidenceKey} {key : EvidenceKey} {row : EvidenceRow}

/-- **Rows that are bound right in their order.**  Where a row disturbs a name-only row before it,
some row before that one does as well. -/
def BindsInOrder (order : List EvidenceKey) (db : EvidenceDb) : Prop :=
  ∀ p key s b, order = p ++ key :: s → db.boundAt key = some b →
    b.1.model.artifactDigest = none →
    (∃ x ∈ identitiesOf db.evidence s, Disturbs db.adapters db.registry.models x b.1) →
    ∃ x ∈ identitiesOf db.evidence p, Disturbs db.adapters db.registry.models x b.1

theorem bound_rebindEvidence :
    Bound db.adapters db.registry.models (identitiesOf db.evidence order)
      (rebindEvidence order db).registry.models := by
  let st : Rebinding := { models := db.registry.models, evidence := db.evidence }
  have hempty : Bound db.adapters db.registry.models [] st.models := rfl
  exact bound_rebindRows hempty

theorem boundAt_rebindEvidence_split (hp : key ∉ p) (hs : key ∉ s)
    (hrow : db.evidence.lookup key = some row) :
    ∃ models, Bound db.adapters db.registry.models (identitiesOf db.evidence p) models ∧
      (rebindEvidence (p ++ key :: s) db).boundAt key =
        some (row.identity key, resolution db.adapters models (row.identity key)) := by
  let st : Rebinding := { models := db.registry.models, evidence := db.evidence }
  have hempty : Bound db.adapters db.registry.models [] st.models := rfl
  have hlookup := @lookup_rebindRows_split db.adapters st key row p s hp hs hrow
  refine ⟨(rebindRows db.adapters p st).models, bound_rebindRows hempty, ?_⟩
  rw [EvidenceDb.boundAt, rebindEvidence, hlookup]
  rfl

theorem identity_rebindEvidence (order : List EvidenceKey) (key : EvidenceKey) :
    ((rebindEvidence order db).evidence.lookup key).map (EvidenceRow.identity key) =
      (db.evidence.lookup key).map (EvidenceRow.identity key) :=
  identity_rebindRows key

/-- **A rebind binds every row right** exactly when the rows are bound right in their order. -/
theorem correct_rebindEvidence_iff (hperm : order.Perm db.evidence.keys) :
    Correct (rebindEvidence order db) ↔ BindsInOrder order db := by
  have hnodup : order.Nodup := hperm.nodup_iff.2 db.evidence.keys_nodup
  -- what is written of a row is right when the split condition holds
  have hsplit : ∀ p key s row, order = p ++ key :: s → db.evidence.lookup key = some row →
      ∃ b, (rebindEvidence order db).boundAt key = some b ∧ b.1 = row.identity key ∧
        (b.2 = (rebindEvidence order db).resolves b.1 ↔
          (b.1.model.artifactDigest = none →
            (∃ x ∈ identitiesOf db.evidence s, Disturbs db.adapters db.registry.models x b.1) →
            ∃ x ∈ identitiesOf db.evidence p,
              Disturbs db.adapters db.registry.models x b.1)) := by
    rintro p key s row rfl hrow
    have hkeys := List.nodup_middle.1 hnodup
    have hnot := (List.nodup_cons.1 hkeys).1
    obtain ⟨models, hbound, hat⟩ := boundAt_rebindEvidence_split
      (fun hp => hnot (List.mem_append_left _ hp)) (fun hs => hnot (List.mem_append_right _ hs)) hrow
    have hafter := @bound_rebindEvidence db (p ++ key :: s)
    have hsubjects : identitiesOf db.evidence (p ++ key :: s) =
        identitiesOf db.evidence p ++ row.identity key :: identitiesOf db.evidence s := by
      simp [identitiesOf, List.filterMap_append, hrow]
    rw [hsubjects] at hafter
    exact ⟨_, hat, rfl, eq_comm.trans (hbound.resolution_split_iff hafter)⟩
  constructor
  · intro hright p key s b horder hb
    obtain ⟨row, hrow, rfl⟩ := Option.map_eq_some_iff.1 hb
    obtain ⟨b', hb', hsubject, hiff⟩ := hsplit p key s row horder hrow
    have hcond := hiff.1 (hright key b' hb')
    rw [hsubject] at hcond
    exact hcond
  · intro hcond key b hb
    cases hrow : db.evidence.lookup key with
    | none =>
        have hsame := @identity_rebindEvidence db order key
        rw [hrow, Option.map_none, Option.map_eq_none_iff] at hsame
        rw [EvidenceDb.boundAt, hsame] at hb
        cases hb
    | some row =>
        have hmem : key ∈ order :=
          hperm.mem_iff.2 (AList.mem_keys.1 (AList.lookup_isSome.1 (by rw [hrow]; rfl)))
        obtain ⟨p, s, horder⟩ := List.append_of_mem hmem
        obtain ⟨b', hb', hsubject, hiff⟩ := hsplit p key s row horder hrow
        rw [hb', Option.some.injEq] at hb
        subst hb
        refine hiff.2 fun hdigest hlater => ?_
        rw [hsubject] at hdigest hlater ⊢
        exact hcond p key s (row.bound key) horder (by rw [EvidenceDb.boundAt, hrow]; rfl) hdigest
          hlater

theorem ModelRegistry.withModels_eq_self {registry : ModelRegistry} {models : Models}
    (h : models = registry.models) (hsub : ∀ m ∈ registry.models.rows, m ∈ models.rows) :
    registry.withModels models hsub = registry := by
  subst h
  rfl

theorem rebindEvidence_eq_of_eq {st : Rebinding}
    (hst : st = { models := db.registry.models, evidence := db.evidence })
    (hmodels : (rebindRows db.adapters order st).models = st.models)
    (hevidence : (rebindRows db.adapters order st).evidence = st.evidence) :
    rebindEvidence order db = db := by
  subst hst
  simp only [rebindEvidence, ModelRegistry.withModels_eq_self hmodels, hevidence]

/-- **A second rebind changes nothing**, where the first bound every row right. -/
theorem rebindEvidence_eq_self (hperm : order.Perm db.evidence.keys)
    (hright : Correct (rebindEvidence order db)) (order' : List EvidenceKey) :
    rebindEvidence order' (rebindEvidence order db) = rebindEvidence order db := by
  have hstable : ∀ key row', (rebindEvidence order db).evidence.lookup key = some row' →
      row'.resolution = resolution db.adapters (rebindEvidence order db).registry.models
          (row'.identity key) ∧
        (bindIdentity (row'.identity key) (registryOf (rebindEvidence order db).registry.models)
          db.adapters).applied key.canonicalId (rebindEvidence order db).registry.models =
            (rebindEvidence order db).registry.models := by
    intro key row' hrow'
    have hsame := @identity_rebindEvidence db order key
    rw [hrow', Option.map_some, eq_comm] at hsame
    have hmem : key ∈ order := by
      obtain ⟨row, hrow, -⟩ := Option.map_eq_some_iff.1 hsame
      exact hperm.mem_iff.2 (AList.mem_keys.1 (AList.lookup_isSome.1 (by rw [hrow]; rfl)))
    refine ⟨hright key (row'.bound key) (Option.map_eq_some_iff.2 ⟨row', hrow', rfl⟩), ?_⟩
    exact bound_rebindEvidence.applied_eq (List.mem_filterMap.2 ⟨key, hmem, hsame⟩) _
  obtain ⟨hmodels, hevidence⟩ := @rebindRows_eq_self db.adapters
    ⟨(rebindEvidence order db).registry.models, (rebindEvidence order db).evidence, 0, 0, 0⟩ order'
    hstable
  exact rebindEvidence_eq_of_eq rfl hmodels hevidence

end Rebind

/-! ### Runs of imports and rebinds -/

/-- What changes the bindings: an import, or a rebind after the tables of models or adapters were
written anew; the rows are read in some order. -/
inductive BindingAct where
  | importBundle (envelope : EvidenceEnvelope) (kind : String) (url : Option String) (now : Instant)
      (current : Environment)
  | rebind (registry : ModelRegistry) (adapters : Adapters) (order : List EvidenceKey)

/-- The store a rebind reads: what discovery or an adapter sync wrote. -/
def EvidenceDb.withTables (registry : ModelRegistry) (adapters : Adapters) (db : EvidenceDb) :
    EvidenceDb :=
  { db with registry, adapters }

section System

variable (validate : Json → Except (List String) EvidenceRecord)

/-- Imports and rebinds from some store on. -/
def bindingSystem (start : Set EvidenceDb) : System EvidenceDb BindingAct where
  init := start
  next db a db' :=
    match a with
    | .importBundle envelope kind url now current =>
        ∃ outcome, importBundle validate envelope kind url now current db = .ok (db', outcome)
    | .rebind registry adapters order =>
        order.Perm db.evidence.keys ∧ db' = rebindEvidence order (db.withTables registry adapters)

/-- **A step settles**: every row is bound right, an import does so and binds the same in any order
of its records, and after a rebind another changes nothing. -/
def Settles (e : Step EvidenceDb BindingAct) : Prop :=
  Correct e.post ∧
    match e.act with
    | .importBundle envelope kind url now current =>
        SettlesImport validate envelope kind url now current e.pre e.post
    | .rebind _ _ _ => ∀ order, rebindEvidence order e.post = e.post

/-- The condition a step meets. -/
def BindsRight (e : Step EvidenceDb BindingAct) : Prop :=
  match e.act with
  | .importBundle envelope kind url _ _ =>
      ∀ sourceKey complete raws, bundleOf envelope.payload = .ok (sourceKey, complete, raws) →
        BindsInAnyOrder (sourceRowId (envelope.report sourceKey kind url) e.pre.sources)
          (Carries validate raws) e.pre
  | .rebind registry adapters order => BindsInOrder order (e.pre.withTables registry adapters)

variable {validate} {start : Set EvidenceDb} {h : List (Step EvidenceDb BindingAct)}
  {db : EvidenceDb} {e : Step EvidenceDb BindingAct}

theorem bundleOf_eq_ok_of_import {envelope : EvidenceEnvelope} {kind : String}
    {url : Option String} {now : Instant} {current : Environment} {db' : EvidenceDb}
    {outcome : ImportOutcome}
    (himport : importBundle validate envelope kind url now current db = .ok (db', outcome)) :
    ∃ sourceKey complete raws, bundleOf envelope.payload = .ok (sourceKey, complete, raws) := by
  cases hbundle : bundleOf envelope.payload with
  | ok bundle => exact ⟨_, _, _, rfl⟩
  | error raised =>
      rw [importBundle, hbundle] at himport
      cases himport

theorem settles_of_bindsRight (hnext : (bindingSystem validate start).next e.pre e.act e.post)
    (hcond : BindsRight validate e) : Settles validate e := by
  obtain ⟨pre, act, post⟩ := e
  cases act with
  | importBundle envelope kind url now current =>
      obtain ⟨outcome, himport⟩ := hnext
      dsimp only at himport
      obtain ⟨sourceKey, complete, raws, hbundle⟩ := bundleOf_eq_ok_of_import himport
      have hbinds := hcond sourceKey complete raws hbundle
      refine ⟨?_, (settlesImport_iff hbundle himport).2 fun _ => hbinds.settles⟩
      rw [importBundle_eq_ok hbundle] at himport
      have hpost := congrArg Prod.fst (Except.ok.inj himport)
      subst hpost
      exact hbinds.correct (List.Perm.refl raws)
  | rebind registry adapters order =>
      obtain ⟨hperm, hpost⟩ := hnext
      dsimp only at hpost hperm
      subst hpost
      have hright :=
        (@correct_rebindEvidence_iff (pre.withTables registry adapters) order hperm).2 hcond
      exact ⟨hright, @rebindEvidence_eq_self (pre.withTables registry adapters) order hperm hright⟩

theorem bindsRight_of_settles (hnext : (bindingSystem validate start).next e.pre e.act e.post)
    (hright : Correct e.pre) (hsettles : Settles validate e) : BindsRight validate e := by
  obtain ⟨pre, act, post⟩ := e
  cases act with
  | importBundle envelope kind url now current =>
      obtain ⟨outcome, himport⟩ := hnext
      intro sourceKey complete raws hbundle
      exact bindsInAnyOrder_of_settles hright
        ((settlesImport_iff hbundle himport).1 hsettles.2)
  | rebind registry adapters order =>
      obtain ⟨hperm, hpost⟩ := hnext
      dsimp only at hpost hperm
      subst hpost
      exact (@correct_rebindEvidence_iff (pre.withTables registry adapters) order hperm).1
        hsettles.1

/-- **The bindings of a run.**  From any store, a run whose steps all meet the condition leaves
every row bound right after each of them; and from rows that are bound right, every step does so
only where all meet it. -/
theorem settles_iff_bindsRight (hrun : Run (bindingSystem validate start) h db) :
    ((∀ e ∈ h, BindsRight validate e) → ∀ e ∈ h, Settles validate e) ∧
      ((∀ db₀ ∈ start, Correct db₀) → (∀ e ∈ h, Settles validate e) →
        ∀ e ∈ h, BindsRight validate e) := by
  refine ⟨fun hcond e he => settles_of_bindsRight (hrun.next_of_mem he) (hcond e he), ?_⟩
  intro hstart hsettles e he
  obtain ⟨h₁, h₂, rfl⟩ := List.append_of_mem he
  have hpre : Correct e.pre := by
    refine hrun.past.1.invariant_of_steps (C := Settles validate) hstart ?_ fun e' he' =>
      hsettles e' (by simp [he'])
    exact fun e' _ hsettled _ => hsettled.1
  exact bindsRight_of_settles hrun.past.2.1 hpre (hsettles e he)

end System

/-- A reader of records without adapters, measured at the beginning of time. -/
def readMeasured (raw : Json) : Except (List String) EvidenceRecord :=
  let record : Option EvidenceRecord := do
    let providerKind ← claimed ["model", "provider_kind"] raw
    let providerModelName ← claimed ["model", "provider_model_name"] raw
    let canonicalId ← claimed ["model", "canonical_id"] raw
    let runtimeProfileHash ← claimed ["runtime_profile_hash"] raw
    let machineFingerprint ← claimed ["machine_fingerprint"] raw
    let capabilityId ← claimed ["capability_id"] raw
    let policyVersion ← claimed ["policy_version"] raw
    pure
      { model := ⟨providerKind, providerModelName, claimed ["model", "artifact_digest"] raw⟩
        canonicalId, runtimeProfileHash, machineFingerprint, capabilityId, policyVersion
        measuredAt := 0 }
  record.elim (.error ["model"]) .ok

/-- A record that knows the digest. -/
def digestMeasured (capabilityId : String) : Json :=
  recordOf "qwen3:8b" "ollama/qwen3:8b@sha256:4f0e7c1b22ad" "digest"
    (.str "sha256:4f0e7c1b22ad") capabilityId (.literal 8 (-1))

/-- A record that does not. -/
def nameMeasured : Json :=
  recordOf "qwen3:8b" "ollama/qwen3:8b@unknown" "name_only" .null "coding.python" (.literal 8 (-1))

/-- A record of a model that is not in the registry. -/
def otherMeasured : Json :=
  recordOf "llama3:8b" "ollama/llama3:8b@unknown" "name_only" .null "coding.python"
    (.literal 7 (-1))

/-- A store without evidence, whose registry knows the name only. -/
def nameOnlyStore : EvidenceDb where
  registry := .ofModels (Indexed.single 1
    { identity := ⟨"ollama", "qwen3:8b", none⟩, canonicalId := "ollama/qwen3:8b@unknown"
      identityConfidence := "name_only", firstSeenAt := 0, lastSeenAt := 0 })

/-- The import of some records into it. -/
def measuredStep (raws : List Json) : Step EvidenceDb BindingAct where
  pre := nameOnlyStore
  act := .importBundle (bundleEnvelope false raws) "file" none 0 []
  post := imported readMeasured ((bundleEnvelope false raws).report "fw" "file" none) false 0 []
    nameOnlyStore raws

theorem run_measured (raws : List Json) :
    Run (bindingSystem readMeasured {nameOnlyStore}) [measuredStep raws] (measuredStep raws).post :=
  (Run.start rfl).step ⟨_, importBundle_eq_ok rfl "file" none 0 [] nameOnlyStore⟩

/-- Two records that tell the digest of the name-only row, and one of a model that is unknown. -/
def settlingRecords : List Json :=
  [digestMeasured "reasoning", otherMeasured, digestMeasured "coding.python"]

theorem identity_settling {r : EvidenceRecord} (hr : Carries readMeasured settlingRecords r) :
    r.identity = ⟨⟨"ollama", "qwen3:8b", some "sha256:4f0e7c1b22ad"⟩,
        "ollama/qwen3:8b@sha256:4f0e7c1b22ad", none⟩ ∨
      r.identity = ⟨⟨"ollama", "llama3:8b", none⟩, "ollama/llama3:8b@unknown", none⟩ := by
  obtain ⟨raw, hraw, hr⟩ := hr
  simp only [settlingRecords, List.mem_cons, List.not_mem_nil, or_false] at hraw
  rcases hraw with rfl | rfl | rfl <;> cases hr
  · exact .inl rfl
  · exact .inr rfl
  · exact .inl rfl

/-- The two subjects leave each other alone. -/
theorem digest_settles : Settles readMeasured (measuredStep settlingRecords) := by
  refine (settles_iff_bindsRight (run_measured settlingRecords)).1 ?_ _ (List.mem_singleton_self _)
  intro e he
  rw [List.mem_singleton.1 he]
  intro sourceKey complete raws hbundle
  cases hbundle
  refine ⟨fun r r' hr hr' hkey => ?_, fun r r' hr hr' _ => ?_, fun key b hb => by cases hb⟩
  · have hcanonical : r.identity.canonicalId = r'.identity.canonicalId :=
      congrArg EvidenceKey.canonicalId hkey
    rcases identity_settling hr with h | h <;> rcases identity_settling hr' with h' | h'
    · rw [h, h']
    · rw [h, h'] at hcanonical
      exact absurd hcanonical (by decide)
    · rw [h, h'] at hcanonical
      exact absurd hcanonical (by decide)
    · rw [h, h']
  · rcases identity_settling hr with h | h <;> rcases identity_settling hr' with h' | h'
    · rw [h, h']
      exact not_disturbs_self
    · rw [h, h']
      exact fun hdisturbs => hdisturbs.entry (by decide)
    · rw [h, h']
      exact fun hdisturbs => hdisturbs.takes.2.1 rfl
    · rw [h, h']
      exact not_disturbs_self

/-- The name-only record stays bound to the model whose digest the next record tells. -/
theorem nameOnly_unsettled :
    ¬ ∀ h db, Run (bindingSystem readMeasured {nameOnlyStore}) h db →
      ∀ e ∈ h, Settles readMeasured e := by
  intro hall
  have hsettles := hall _ _ (run_measured [nameMeasured, digestMeasured "reasoning"]) _
    (List.mem_singleton_self _)
  have hwrong : ((measuredStep [nameMeasured, digestMeasured "reasoning"]).post.boundAt
      ⟨1, "ollama/qwen3:8b@unknown", "", "rp-1", "m-1", "coding.python", "1.0"⟩).any (fun b =>
        decide (b.2 ≠
          (measuredStep [nameMeasured, digestMeasured "reasoning"]).post.resolves b.1)) = true := by
    decide +kernel
  obtain ⟨b, hb, hne⟩ := (Option.any_eq_true _ _).1 hwrong
  exact of_decide_eq_true hne (hsettles.1 _ b hb)

end LoadCoach.Registry

import LoadCoach.Registry.Records

/-! # Badges

A row of evidence has one staleness badge, for which several reasons compete.  Two of them come
and go with the source: a complete bundle supersedes the rows it leaves out, and a source that
cannot be reached badges its rows until it is reached again.

* `supersedes_iff`: a complete bundle supersedes the rows whose keys it does not contain, and no
  others, exactly when no row is contained only as a record that was refused as invalid.
* `restores_iff`: reaching the source again restores every badge exactly when the badges were those
  that age alone gives, because what is recomputed does not look at the environment. -/

namespace LoadCoach.Registry

open Foundations

/-! ### What a complete bundle supersedes -/

/-- A row is superseded. -/
def Superseded (evidence : Table EvidenceKey EvidenceRow) (key : EvidenceKey) : Prop :=
  ∃ row, evidence.lookup key = some row ∧ row.staleness.reason = some .superseded

theorem evaluateStaleness_ne_superseded (measuredAt now : Instant) (capabilityId : String)
    (drift : Option String) :
    (evaluateStaleness measuredAt now capabilityId drift false false).reason ≠
      some .superseded := by
  cases drift with
  | some field => simp [evaluateStaleness]
  | none => cases hfaded : isFaded measuredAt now capabilityId <;> simp [evaluateStaleness, hfaded]

theorem EvidenceRow.reached_ne_superseded {row : EvidenceRow}
    (h : row.staleness.reason ≠ some .superseded) (sourceId : SourceId) (now : Instant)
    (key : EvidenceKey) : (row.reached sourceId now key).staleness.reason ≠ some .superseded := by
  rw [EvidenceRow.reached]
  split
  · exact evaluateStaleness_ne_superseded _ _ _ _
  · exact h

/-- The digest of the adapter a record names; none is the empty one. -/
def rawAdapterDigest (raw : Json) : Option String :=
  match Json.get? "adapter" raw with
  | none | some .null => some ""
  | some _ => claimed ["adapter", "artifact_digest"] raw

/-- The key a record has as it stands in the bundle, valid or not. -/
def rawKey (sourceId : SourceId) (raw : Json) : Option EvidenceKey := do
  let canonicalId ← claimed ["model", "canonical_id"] raw
  let adapterArtifactDigest ← rawAdapterDigest raw
  let runtimeProfileHash ← claimed ["runtime_profile_hash"] raw
  let machineFingerprint ← claimed ["machine_fingerprint"] raw
  let capabilityId ← claimed ["capability_id"] raw
  let policyVersion ← claimed ["policy_version"] raw
  return ⟨sourceId, canonicalId, adapterArtifactDigest, runtimeProfileHash, machineFingerprint,
    capabilityId, policyVersion⟩

section Supersede

variable (validate : Json → Except (List String) EvidenceRecord)

/-- The key of a record of the bundle: of the record that was read, or as it stands. -/
def recordKey (sourceId : SourceId) (raw : Json) : Option EvidenceKey :=
  match validate raw with
  | .ok record => some (record.key sourceId)
  | .error _ => rawKey sourceId raw

/-- A bundle contains a key. -/
def Contains (sourceId : SourceId) (raws : List Json) (key : EvidenceKey) : Prop :=
  ∃ raw ∈ raws, recordKey validate sourceId raw = some key

/-- A bundle contains a key as a valid record. -/
def ContainsValid (sourceId : SourceId) (raws : List Json) (key : EvidenceKey) : Prop :=
  ∃ raw ∈ raws, ∃ record, validate raw = .ok record ∧ record.key sourceId = key

/-- Of the rows that are not superseded yet, an import of a complete bundle supersedes those of
its source whose keys the bundle does not contain. -/
def SupersedesExactly (sourceId : SourceId) (raws : List Json) (db db' : EvidenceDb) : Prop :=
  ∀ key row, db.evidence.lookup key = some row → row.staleness.reason ≠ some .superseded →
    (Superseded db'.evidence key ↔
      key.sourceId = sourceId ∧ ¬ Contains validate sourceId raws key)

variable {validate}

theorem exists_mem_validRecords {sourceId : SourceId} {raws : List Json} {key : EvidenceKey} :
    (∃ e ∈ validRecords validate raws, e.2.key sourceId = key) ↔
      ContainsValid validate sourceId raws key := by
  constructor
  · rintro ⟨e, he, hkey⟩
    obtain ⟨raw, hraw, hvalid⟩ := isRecordOf_validRecords.1 ⟨e, he, rfl⟩
    exact ⟨raw, hraw, e.2, hvalid, hkey⟩
  · rintro ⟨raw, hraw, record, hvalid, hkey⟩
    obtain ⟨e, he, rfl⟩ := isRecordOf_validRecords.2 ⟨raw, hraw, hvalid⟩
    exact ⟨e, he, hkey⟩

theorem ContainsValid.contains {sourceId : SourceId} {raws : List Json} {key : EvidenceKey}
    (h : ContainsValid validate sourceId raws key) : Contains validate sourceId raws key := by
  obtain ⟨raw, hraw, record, hvalid, hkey⟩ := h
  refine ⟨raw, hraw, ?_⟩
  simp only [recordKey, hvalid, hkey]

/-- **A row after a complete bundle.**  A row that was not superseded is superseded exactly when
it is the source's and no valid record of the bundle has its key. -/
theorem superseded_writeBundle_iff {report : SourceReport} {raws : List Json}
    {rejected : List RejectedRecord} {total : ℕ} {now : Instant} {current : Environment}
    {db : EvidenceDb} {key : EvidenceKey} {row : EvidenceRow}
    (hrow : db.evidence.lookup key = some row)
    (hfresh : row.staleness.reason ≠ some .superseded) :
    Superseded (writeBundle report (validRecords validate raws) rejected true total now current
        db).1.evidence key ↔
      key.sourceId = sourceRowId report db.sources ∧
        ¬ ContainsValid validate (sourceRowId report db.sources) raws key := by
  by_cases hleft : LeftOut report (validRecords validate raws) true db key
  · constructor
    · intro _
      refine ⟨hleft.2.1, fun hvalid => ?_⟩
      obtain ⟨e, he, hkey⟩ := exists_mem_validRecords.2 hvalid
      exact hleft.2.2.2 e he hkey
    · intro _
      exact lookup_writeBundle_of_leftOut hleft hrow
  · constructor
    · -- neither a row that was written nor one that was kept is superseded
      rintro ⟨row', hrow', hsuperseded⟩
      rw [lookup_writeBundle_of_not_leftOut hleft, Option.map_eq_some_iff] at hrow'
      obtain ⟨kept, hkept, rfl⟩ := hrow'
      refine absurd hsuperseded (EvidenceRow.reached_ne_superseded ?_ _ _ _)
      by_cases hcarried : ∃ e ∈ validRecords validate raws,
          e.2.key (sourceRowId report db.sources) = key
      · obtain ⟨_, e, _, -, -, -, hlookup⟩ := lookup_importRecords_of_mem hcarried
        rw [hlookup] at hkept
        cases hkept
        exact evaluateStaleness_ne_superseded _ _ _ _
      · have hnone : ∀ e ∈ validRecords validate raws,
            e.2.key (sourceRowId report db.sources) ≠ key :=
          fun e he hkey => hcarried ⟨e, he, hkey⟩
        rw [lookup_importRecords_of_notMem hnone, hrow] at hkept
        cases hkept
        exact hfresh
    · rintro ⟨hsource, hnone⟩
      have hmem : key ∈ db.evidence := AList.lookup_isSome.1 (by simp [hrow])
      refine absurd ⟨rfl, hsource, hmem, fun e he hkey => hnone ?_⟩ hleft
      exact exists_mem_validRecords.1 ⟨e, he, hkey⟩

theorem sourceId_of_rawKey {sourceId : SourceId} {raw : Json} {key : EvidenceKey}
    (h : rawKey sourceId raw = some key) : key.sourceId = sourceId := by
  simp only [rawKey, Option.bind_eq_bind, Option.bind_eq_some_iff, Option.pure_def,
    Option.some.injEq] at h
  obtain ⟨_, -, _, -, _, -, _, -, _, -, _, -, rfl⟩ := h
  rfl

/-- **Superseding is exact** for a complete bundle exactly when every record refused as invalid,
whose key has a row that is not superseded, comes with a valid record of the same key. -/
theorem supersedes_iff {envelope : EvidenceEnvelope} {sourceKey : String} {raws : List Json}
    (hbundle : bundleOf envelope.payload = .ok (sourceKey, true, raws)) (kind : String)
    (url : Option String) (now : Instant) (current : Environment) (db : EvidenceDb) :
    (∃ db' outcome,
        importBundle validate envelope kind url now current db = .ok (db', outcome) ∧
        SupersedesExactly validate (sourceRowId (envelope.report sourceKey kind url) db.sources)
          raws db db') ↔
      ∀ raw ∈ raws, ∀ paths, validate raw = .error paths → ∀ key row,
        rawKey (sourceRowId (envelope.report sourceKey kind url) db.sources) raw = some key →
        db.evidence.lookup key = some row → row.staleness.reason ≠ some .superseded →
        ContainsValid validate (sourceRowId (envelope.report sourceKey kind url) db.sources)
          raws key := by
  rw [importBundle_eq_ok hbundle]
  constructor
  · rintro ⟨db', outcome, hdb', hexact⟩ raw hraw paths hinvalid key row hkey hrow hfresh
    have hwritten := congrArg Prod.fst (Except.ok.inj hdb')
    subst hwritten
    have hsource := sourceId_of_rawKey hkey
    have hcontains : Contains validate (sourceRowId (envelope.report sourceKey kind url)
        db.sources) raws key := ⟨raw, hraw, by simp only [recordKey, hinvalid, hkey]⟩
    by_contra hvalid
    refine ((hexact key row hrow hfresh).1 ?_).2 hcontains
    exact (superseded_writeBundle_iff hrow hfresh).2 ⟨hsource, hvalid⟩
  · intro hcond
    refine ⟨(writeBundle (envelope.report sourceKey kind url) (validRecords validate raws)
      (invalidRecords validate raws) true raws.length now current db).1, _, rfl, ?_⟩
    intro key row hrow hfresh
    rw [superseded_writeBundle_iff hrow hfresh]
    refine and_congr_right fun _ => not_congr ⟨ContainsValid.contains, ?_⟩
    rintro ⟨raw, hraw, hkey⟩
    cases hread : validate raw with
    | ok record =>
        simp only [recordKey, hread, Option.some.injEq] at hkey
        exact ⟨raw, hraw, record, hread, hkey⟩
    | error paths =>
        simp only [recordKey, hread] at hkey
        exact hcond raw hraw paths hread key row hkey hrow hfresh

end Supersede

/-- A record that is refused for its score. -/
def outOfRangeRecord : Json :=
  recordOf "qwen3:8b" "ollama/qwen3:8b@unknown" "name_only" .null "coding.python" (.literal 42 (-1))

/-- The key of the measurement. -/
def scoredKey : EvidenceKey :=
  ⟨1, "ollama/qwen3:8b@unknown", "", "rp-1", "m-1", "coding.python", "1.0"⟩

/-- The row an earlier import left for it. -/
def scoredRow : EvidenceRow where
  model := ⟨"ollama", "qwen3:8b", none⟩
  matchState := .unmatched
  modelId := none
  adapterId := none
  measuredAt := 0
  importedAt := 0

/-- A store that holds one row, of the source, which was pulled from a URL. -/
def storeOf (row : EvidenceRow) : EvidenceDb where
  sources := Indexed.single 1
    { sourceKey := "fw", kind := "freeweight_api", url := some "http://fw", createdAt := 0
      lastImportAt := some 0 }
  evidence := AList.insert scoredKey row ∅

theorem supersedes_omitted :
    ∃ db' outcome,
      importBundle (fun _ => .error ["score"]) (bundleEnvelope true []) "freeweight_api" none 0 []
          (storeOf scoredRow) = .ok (db', outcome) ∧
        SupersedesExactly (fun _ => .error ["score"])
          (sourceRowId ((bundleEnvelope true []).report "fw" "freeweight_api" none)
            (storeOf scoredRow).sources) [] (storeOf scoredRow) db' :=
  (supersedes_iff rfl "freeweight_api" none 0 [] (storeOf scoredRow)).2 fun raw hraw => by
    cases hraw

/-- The row is superseded although its record is in the bundle. -/
theorem supersedes_carried :
    ¬ ∃ db' outcome,
      importBundle (fun _ => .error ["score"]) (bundleEnvelope true [outOfRangeRecord])
          "freeweight_api" none 0 [] (storeOf scoredRow) = .ok (db', outcome) ∧
        SupersedesExactly (fun _ => .error ["score"]) 1 [outOfRangeRecord] (storeOf scoredRow)
          db' := by
  rintro ⟨db', outcome, himport, hexact⟩
  have hsuperseded : (importBundle (fun _ => .error ["score"])
      (bundleEnvelope true [outOfRangeRecord]) "freeweight_api" none 0 []
      (storeOf scoredRow)).toOption.map (fun r => (r.1.evidence.lookup scoredKey).map
        fun row => row.staleness.reason) = some (some (some .superseded)) := by
    decide +kernel
  rw [himport] at hsuperseded
  simp only [Except.toOption, Option.map_some, Option.some.injEq, Option.map_eq_some_iff]
    at hsuperseded
  obtain ⟨row, hrow, hreason⟩ := hsuperseded
  have hcarried : Contains (fun _ => .error ["score"]) 1 [outOfRangeRecord] scoredKey :=
    ⟨outOfRangeRecord, List.mem_singleton_self _, by decide +kernel⟩
  have hbefore : (storeOf scoredRow).evidence.lookup scoredKey = some scoredRow :=
    AList.lookup_insert _
  exact ((hexact scoredKey scoredRow hbefore (by decide)).1 ⟨row, hrow, hreason⟩).2 hcarried

/-! ### A source that is reached again -/

/-- Every row keeps its badge. -/
def KeepsBadges (db db' : EvidenceDb) : Prop :=
  ∀ key row, db.evidence.lookup key = some row →
    ∃ row', db'.evidence.lookup key = some row' ∧ row'.staleness = row.staleness

/-- The badge a row has for its age. -/
def EvidenceRow.ageBadge (now : Instant) (key : EvidenceKey) (row : EvidenceRow) : Staleness :=
  evaluateStaleness row.measuredAt now key.capabilityId none false false

/-- A row of a source that cannot be reached. -/
def EvidenceRow.unreached (sourceId : SourceId) (key : EvidenceKey) (row : EvidenceRow) :
    EvidenceRow :=
  if key.sourceId = sourceId ∧ row.staleness.reason ≠ some .superseded then
    { row with staleness := ⟨true, some .sourceUnreachable⟩ }
  else row

section Reach

variable {sourceId : SourceId} {source : EvidenceSource} {url : String} {db : EvidenceDb}

theorem lookup_of_sourceForUrl {sources : Sources}
    (h : sourceForUrl url sources = some (sourceId, source)) :
    sources.rows.lookup sourceId = some source := by
  have hmem : (sourceId, source) ∈ sources.rows.select fun _ row => decide (row.url = some url) := by
    rw [sourceForUrl] at h
    split at h
    · exact List.argmin_mem h
    · exact List.mem_of_mem_filter (List.argmax_mem h)
  exact ((Table.mem_select _ _ _ _).1 hmem).1

theorem lookup_markSourceUnreachable (h : sourceForUrl url db.sources = some (sourceId, source))
    (reason : String) (key : EvidenceKey) :
    (markSourceUnreachable url reason db).1.evidence.lookup key =
      (db.evidence.lookup key).map (EvidenceRow.unreached sourceId key) := by
  simp only [markSourceUnreachable, h, Table.lookup_mapRows]
  rfl

theorem sourceRowId_markSourceUnreachable
    (h : sourceForUrl url db.sources = some (sourceId, source)) (reason : String)
    (report : SourceReport) (hkey : report.sourceKey = source.sourceKey) :
    sourceRowId report (markSourceUnreachable url reason db).1.sources = sourceId := by
  have hrow := lookup_of_sourceForUrl h
  have hfound : (markSourceUnreachable url reason db).1.sources.find report.sourceKey =
      some (sourceId, { source with
        lastStatus := some "unreachable", errorText := some reason }) := by
    refine Indexed.find_eq_some_iff.2 ⟨?_, hkey.symm⟩
    simp only [markSourceUnreachable, h, Indexed.mapRows, Table.lookup_mapRows, hrow,
      Option.map_some, if_true]
  rw [sourceRowId, sourceRow, hfound]

/-- A badge that is taken away and given back: a superseded row, and a row of another source,
keeps its own; any other ends with the one for its age. -/
theorem staleness_reached_unreached (now : Instant) (key : EvidenceKey) (row : EvidenceRow) :
    ((row.unreached sourceId key).reached sourceId now key).staleness =
      if key.sourceId = sourceId ∧ row.staleness.reason ≠ some .superseded then
        row.ageBadge now key
      else row.staleness := by
  by_cases hbadged : key.sourceId = sourceId ∧ row.staleness.reason ≠ some .superseded
  · rw [EvidenceRow.unreached, if_pos hbadged, if_pos hbadged, EvidenceRow.reached,
      if_pos ⟨hbadged.1, rfl⟩, EvidenceRow.ageBadge]
  · rw [EvidenceRow.unreached, if_neg hbadged, if_neg hbadged, EvidenceRow.reached, if_neg]
    rintro ⟨hsource, hreason⟩
    exact hbadged ⟨hsource, by simp [hreason]⟩

variable {validate : Json → Except (List String) EvidenceRecord} {envelope : EvidenceEnvelope}

/-- **Badges survive a source that is lost and reached again** exactly when every row of the
source that is not superseded had the badge for its age: no drift of the environment, and no
earlier mark that the source could not be reached. -/
theorem restores_iff (h : sourceForUrl url db.sources = some (sourceId, source))
    (hbundle : bundleOf envelope.payload = .ok (source.sourceKey, false, [])) (reason kind : String)
    (now : Instant) (current : Environment) :
    (∃ db' outcome,
        importBundle validate envelope kind (some url) now current
          (markSourceUnreachable url reason db).1 = .ok (db', outcome) ∧ KeepsBadges db db') ↔
      ∀ key row, db.evidence.lookup key = some row → key.sourceId = sourceId →
        row.staleness.reason ≠ some .superseded → row.staleness = row.ageBadge now key := by
  rw [importBundle_eq_ok hbundle]
  let marked := (markSourceUnreachable url reason db).1
  let reached := writeBundle (envelope.report source.sourceKey kind (some url))
    (validRecords validate []) (invalidRecords validate []) false 0 now current marked
  -- every row is marked and then reached
  have hlookup : ∀ key, reached.1.evidence.lookup key = (db.evidence.lookup key).map fun row =>
      (row.unreached sourceId key).reached sourceId now key := by
    intro key
    rw [lookup_writeBundle_of_not_leftOut (by simp [LeftOut]),
      lookup_importRecords_of_notMem (by simp [validRecords]),
      sourceRowId_markSourceUnreachable h reason _ rfl, lookup_markSourceUnreachable h,
      Option.map_map]
    rfl
  have hkeeps : KeepsBadges db reached.1 ↔
      ∀ key row, db.evidence.lookup key = some row → key.sourceId = sourceId →
        row.staleness.reason ≠ some .superseded → row.staleness = row.ageBadge now key := by
    constructor
    · intro hkeeps key row hrow hsource hreason
      obtain ⟨row', hrow', hsame⟩ := hkeeps key row hrow
      rw [hlookup, hrow, Option.map_some, Option.some.injEq] at hrow'
      rw [← hsame, ← hrow', staleness_reached_unreached, if_pos ⟨hsource, hreason⟩]
    · intro hage key row hrow
      refine ⟨_, by rw [hlookup, hrow, Option.map_some], ?_⟩
      rw [staleness_reached_unreached]
      split
      · rename_i hbadged
        exact (hage key row hrow hbadged.1 hbadged.2).symm
      · rfl
  constructor
  · rintro ⟨db', outcome, himport, hall⟩
    have hdb := congrArg Prod.fst (Except.ok.inj himport)
    exact hkeeps.1 (hdb ▸ hall)
  · intro hage
    exact ⟨reached.1, reached.2, rfl, hkeeps.2 hage⟩

end Reach

/-- The row, badged because the provider's version had changed. -/
def driftedRow : EvidenceRow :=
  { scoredRow with staleness := ⟨true, some (.environmentDrift "provider_version")⟩ }

theorem restores_fresh :
    ∃ db' outcome,
      importBundle (fun _ => .error ["score"]) (bundleEnvelope false []) "freeweight_api"
          (some "http://fw") 0 []
          (markSourceUnreachable "http://fw" "connection refused" (storeOf scoredRow)).1 =
        .ok (db', outcome) ∧ KeepsBadges (storeOf scoredRow) db' := by
  refine (restores_iff rfl rfl "connection refused" "freeweight_api" 0 []).2 ?_
  intro key row hrow _ _
  obtain ⟨rfl, rfl⟩ : key = scoredKey ∧ row = scoredRow := by
    by_cases hkey : key = scoredKey
    · rw [hkey, storeOf, AList.lookup_insert] at hrow
      exact ⟨hkey, (Option.some.inj hrow).symm⟩
    · rw [storeOf, AList.lookup_insert_ne hkey] at hrow
      cases hrow
  decide

/-- The drift is forgotten. -/
theorem restores_drifted :
    ¬ ∃ db' outcome,
      importBundle (fun _ => .error ["score"]) (bundleEnvelope false []) "freeweight_api"
          (some "http://fw") 0 []
          (markSourceUnreachable "http://fw" "connection refused" (storeOf driftedRow)).1 =
        .ok (db', outcome) ∧ KeepsBadges (storeOf driftedRow) db' := by
  rintro ⟨db', outcome, himport, hkeeps⟩
  have hfresh : (importBundle (fun _ => .error ["score"]) (bundleEnvelope false [])
      "freeweight_api" (some "http://fw") 0 []
      (markSourceUnreachable "http://fw" "connection refused"
        (storeOf driftedRow)).1).toOption.map (fun r => (r.1.evidence.lookup scoredKey).map
          fun row => row.staleness) = some (some ⟨false, none⟩) := by
    decide +kernel
  obtain ⟨row, hrow, hsame⟩ := hkeeps scoredKey driftedRow (AList.lookup_insert _)
  rw [himport] at hfresh
  simp [Except.toOption, hrow, hsame, driftedRow] at hfresh

end LoadCoach.Registry

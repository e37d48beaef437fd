import LoadCoach.Registry.Import

/-! # The record loop of an import

What the loop over a bundle's records leaves, key by key.  The first record of a key writes its
row, bound against the registry as the records before it left it (`lookup_importLoop_of_mem`); a key
no record carries keeps its row (`lookup_importLoop_of_notMem`); a key that was seen is not written
again (`lookup_importLoop_of_seen`). -/

namespace LoadCoach.Registry

open Foundations
open Routing (MatchState)

section Loop

variable {sourceId : SourceId} {adapters : Adapters} {existingKeys : List EvidenceKey}
  {now : Instant} {current : Environment} {st : Importing} {entry : ℕ × EvidenceRecord}
  {l : List (ℕ × EvidenceRecord)} {key : EvidenceKey}

variable (sourceId adapters existingKeys now current) in
/-- The loop over some records. -/
abbrev importLoop (st : Importing) (l : List (ℕ × EvidenceRecord)) : Importing :=
  l.foldl (importRecord sourceId adapters existingKeys now current) st

/-! ### One record -/

theorem importRecord_of_seen (h : entry.2.key sourceId ∈ st.seenKeys) :
    (importRecord sourceId adapters existingKeys now current st entry).models = st.models ∧
      (importRecord sourceId adapters existingKeys now current st entry).evidence = st.evidence ∧
      (importRecord sourceId adapters existingKeys now current st entry).seenKeys =
        st.seenKeys := by
  simp only [importRecord, h, if_true, and_self]

/-- **Any other record** is bound against the registry, which its binding may upgrade, and
written under its key. -/
theorem importRecord_of_fresh (h : entry.2.key sourceId ∉ st.seenKeys) :
    (importRecord sourceId adapters existingKeys now current st entry).models =
        (bindIdentity entry.2.identity (registryOf st.models) adapters).applied
          entry.2.canonicalId st.models ∧
      (importRecord sourceId adapters existingKeys now current st entry).evidence =
        st.evidence.insert (entry.2.key sourceId) (entry.2.row
          (bindIdentity entry.2.identity (registryOf st.models) adapters) now current) ∧
      (importRecord sourceId adapters existingKeys now current st entry).seenKeys =
        entry.2.key sourceId :: st.seenKeys := by
  simp only [importRecord, h, if_false, and_self]

theorem mem_seenKeys_importRecord :
    key ∈ (importRecord sourceId adapters existingKeys now current st entry).seenKeys ↔
      key ∈ st.seenKeys ∨ entry.2.key sourceId = key := by
  by_cases h : entry.2.key sourceId ∈ st.seenKeys
  · rw [(importRecord_of_seen h).2.2]
    constructor
    · exact .inl
    · rintro (hkey | rfl)
      · exact hkey
      · exact h
  · rw [(importRecord_of_fresh h).2.2, List.mem_cons]
    exact or_comm.trans (or_congr_right eq_comm)

theorem lookup_importRecord_of_ne (h : entry.2.key sourceId ≠ key) :
    (importRecord sourceId adapters existingKeys now current st entry).evidence.lookup key =
      st.evidence.lookup key := by
  by_cases hseen : entry.2.key sourceId ∈ st.seenKeys
  · rw [(importRecord_of_seen hseen).2.1]
  · rw [(importRecord_of_fresh hseen).2.1, AList.lookup_insert_ne h.symm]

/-! ### The loop, key by key -/

theorem mem_seenKeys_importLoop :
    key ∈ (importLoop sourceId adapters existingKeys now current st l).seenKeys ↔
      key ∈ st.seenKeys ∨ ∃ e ∈ l, e.2.key sourceId = key := by
  induction l generalizing st with
  | nil => simp
  | cons entry l ih =>
      rw [importLoop, List.foldl_cons, ← importLoop, ih, mem_seenKeys_importRecord]
      simp [or_assoc]

theorem lookup_importLoop_of_seen (h : key ∈ st.seenKeys) :
    (importLoop sourceId adapters existingKeys now current st l).evidence.lookup key =
      st.evidence.lookup key := by
  induction l generalizing st with
  | nil => rfl
  | cons entry l ih =>
      rw [importLoop, List.foldl_cons, ← importLoop,
        ih (mem_seenKeys_importRecord.2 (.inl h))]
      by_cases hentry : entry.2.key sourceId = key
      · rw [(importRecord_of_seen (hentry ▸ h)).2.1]
      · exact lookup_importRecord_of_ne hentry

theorem lookup_importLoop_of_notMem (h : ∀ e ∈ l, e.2.key sourceId ≠ key) :
    (importLoop sourceId adapters existingKeys now current st l).evidence.lookup key =
      st.evidence.lookup key := by
  induction l generalizing st with
  | nil => rfl
  | cons entry l ih =>
      rw [importLoop, List.foldl_cons, ← importLoop, ih fun e he => h e (List.mem_cons_of_mem _ he)]
      exact lookup_importRecord_of_ne (h entry List.mem_cons_self)

/-- **The first record of a key** writes its row, bound against the registry the records before it
left. -/
theorem lookup_importLoop_of_mem (hfresh : key ∉ st.seenKeys)
    (hmem : ∃ e ∈ l, e.2.key sourceId = key) :
    ∃ l₁ e l₂, l = l₁ ++ e :: l₂ ∧ e.2.key sourceId = key ∧
      (∀ e' ∈ l₁, e'.2.key sourceId ≠ key) ∧
      (importLoop sourceId adapters existingKeys now current st l).evidence.lookup key =
        some (e.2.row (bindIdentity e.2.identity
          (registryOf (importLoop sourceId adapters existingKeys now current st l₁).models)
          adapters) now current) := by
  induction l generalizing st with
  | nil => simp at hmem
  | cons entry l ih =>
      by_cases hentry : entry.2.key sourceId = key
      · refine ⟨[], entry, l, rfl, hentry, by simp, ?_⟩
        have hseen : key ∈
            (importRecord sourceId adapters existingKeys now current st entry).seenKeys :=
          mem_seenKeys_importRecord.2 (.inr hentry)
        rw [importLoop, List.foldl_cons, ← importLoop, lookup_importLoop_of_seen hseen,
          (importRecord_of_fresh (hentry ▸ hfresh)).2.1, hentry, AList.lookup_insert]
        rfl
      · have hrest : ∃ e ∈ l, e.2.key sourceId = key := by
          obtain ⟨e, he, hkey⟩ := hmem
          rcases List.mem_cons.1 he with rfl | he
          · exact absurd hkey hentry
          · exact ⟨e, he, hkey⟩
        have hfresh' : key ∉
            (importRecord sourceId adapters existingKeys now current st entry).seenKeys :=
          fun hin => (mem_seenKeys_importRecord.1 hin).elim hfresh hentry
        obtain ⟨l₁, e, l₂, rfl, hkey, hbefore, hlookup⟩ := ih hfresh' hrest
        refine ⟨entry :: l₁, e, l₂, rfl, hkey, ?_, ?_⟩
        · intro e' he'
          rcases List.mem_cons.1 he' with rfl | he'
          · exact hentry
          · exact hbefore e' he'
        · exact hlookup

end Loop

/-! ### The bundle -/

section Bundle

variable {report : SourceReport} {validated : List (ℕ × EvidenceRecord)}
  {rejected : List RejectedRecord} {complete : Bool} {total : ℕ} {now : Instant}
  {current : Environment} {db : EvidenceDb} {key : EvidenceKey}

theorem mem_seenKeys_importRecords {sourceId : SourceId} :
    key ∈ (importRecords sourceId validated rejected now current db).seenKeys ↔
      ∃ e ∈ validated, e.2.key sourceId = key := by
  rw [importRecords, mem_seenKeys_importLoop]
  simp

theorem lookup_importRecords_of_notMem {sourceId : SourceId}
    (h : ∀ e ∈ validated, e.2.key sourceId ≠ key) :
    (importRecords sourceId validated rejected now current db).evidence.lookup key =
      db.evidence.lookup key :=
  lookup_importLoop_of_notMem h

theorem lookup_importRecords_of_mem {sourceId : SourceId}
    (h : ∃ e ∈ validated, e.2.key sourceId = key) :
    ∃ l₁ e l₂, validated = l₁ ++ e :: l₂ ∧ e.2.key sourceId = key ∧
      (∀ e' ∈ l₁, e'.2.key sourceId ≠ key) ∧
      (importRecords sourceId validated rejected now current db).evidence.lookup key =
        some (e.2.row (bindIdentity e.2.identity
          (registryOf (importLoop sourceId db.adapters (keysOf sourceId db.evidence) now current
            { models := db.registry.models, evidence := db.evidence, rejected } l₁).models)
          db.adapters) now current) :=
  lookup_importLoop_of_mem List.not_mem_nil h

/-- A key whose row a complete bundle leaves out. -/
def LeftOut (report : SourceReport) (validated : List (ℕ × EvidenceRecord)) (complete : Bool)
    (db : EvidenceDb) (key : EvidenceKey) : Prop :=
  complete = true ∧ key.sourceId = sourceRowId report db.sources ∧ key ∈ db.evidence ∧
    ∀ e ∈ validated, e.2.key (sourceRowId report db.sources) ≠ key

theorem mem_missing_iff :
    key ∈ (if complete then (keysOf (sourceRowId report db.sources) db.evidence).filter fun key =>
        key ∉ (importRecords (sourceRowId report db.sources) validated rejected now current
          db).seenKeys else []) ↔
      LeftOut report validated complete db key := by
  cases complete with
  | false => simp [LeftOut]
  | true =>
      simp only [LeftOut, if_true, List.mem_filter, keysOf, AList.mem_keys, decide_eq_true_eq,
        mem_seenKeys_importRecords]
      constructor
      · rintro ⟨⟨hin, hsource⟩, hnone⟩
        exact ⟨trivial, hsource, hin, fun e he hkey => hnone ⟨e, he, hkey⟩⟩
      · rintro ⟨-, hsource, hin, hnone⟩
        exact ⟨⟨hin, hsource⟩, fun ⟨e, he, hkey⟩ => hnone e he hkey⟩

theorem lookup_writeBundle_of_leftOut {row : EvidenceRow}
    (h : LeftOut report validated complete db key) (hrow : db.evidence.lookup key = some row) :
    ∃ row', (writeBundle report validated rejected complete total now current
        db).1.evidence.lookup key = some row' ∧
      row'.staleness.reason = some .superseded := by
  have hkept : (importRecords (sourceRowId report db.sources) validated rejected now current
      db).evidence.lookup key = some row :=
    (lookup_importRecords_of_notMem h.2.2.2).trans hrow
  simp only [writeBundle, supersede, clearUnreachable, Table.lookup_mapRows, hkept,
    Option.map_some, mem_missing_iff, h, true_and]
  refine ⟨_, rfl, ?_⟩
  split
  · rfl
  · rename_i hsuperseded
    exact not_not.1 hsuperseded

/-- Any other row ends as the record loop leaves it, without the badge of a source that was not
reached. -/
theorem lookup_writeBundle_of_not_leftOut (h : ¬ LeftOut report validated complete db key) :
    (writeBundle report validated rejected complete total now current
        db).1.evidence.lookup key =
      ((importRecords (sourceRowId report db.sources) validated rejected now current
        db).evidence.lookup key).map
          (EvidenceRow.reached (sourceRowId report db.sources) now key) := by
  simp only [writeBundle, supersede, clearUnreachable, Table.lookup_mapRows, mem_missing_iff, h,
    false_and, if_false, Option.map_id']

/-! ### The records of an envelope -/

/-- The records of the entries of a bundle. -/
def IsRecordOf (validated : List (ℕ × EvidenceRecord)) (r : EvidenceRecord) : Prop :=
  ∃ e ∈ validated, e.2 = r

variable {validate : Json → Except (List String) EvidenceRecord}

theorem isRecordOf_validRecords {raws : List Json} {r : EvidenceRecord} :
    IsRecordOf (validRecords validate raws) r ↔ ∃ raw ∈ raws, validate raw = .ok r := by
  simp only [IsRecordOf, validRecords, List.mem_filterMap]
  constructor
  · rintro ⟨e, ⟨⟨raw, index⟩, hmem, hread⟩, hrecord⟩
    cases hvalid : validate raw with
    | error paths =>
        rw [hvalid] at hread
        cases hread
    | ok record =>
        rw [hvalid] at hread
        cases hread
        exact ⟨raw, List.fst_mem_of_mem_zipIdx hmem, hrecord ▸ hvalid⟩
  · rintro ⟨raw, hraw, hvalid⟩
    obtain ⟨index, hindex, hget⟩ := List.mem_iff_getElem.1 hraw
    refine ⟨(index, r), ⟨(raw, index), ?_, by rw [hvalid]⟩, rfl⟩
    exact List.mem_zipIdx_iff_getElem?.2 (by simp [List.getElem?_eq_getElem hindex, hget])

theorem importBundle_eq_ok {envelope : EvidenceEnvelope} {sourceKey : String} {complete : Bool}
    {raws : List Json} (h : bundleOf envelope.payload = .ok (sourceKey, complete, raws))
    (kind : String) (url : Option String) (now : Instant) (current : Environment)
    (db : EvidenceDb) :
    importBundle validate envelope kind url now current db =
      .ok (writeBundle (envelope.report sourceKey kind url) (validRecords validate raws)
        (invalidRecords validate raws) complete raws.length now current db) := by
  rw [importBundle, h]
  rfl

end Bundle

/-- A bundle of one source. -/
def bundleEnvelope (complete : Bool) (raws : List Json) : EvidenceEnvelope :=
  ⟨.obj [("source_id", .str "fw"), ("complete", .bool complete), ("evidence", .arr raws)], "1.1",
    none⟩

/-- A record of a model without an adapter, with every field the import reads. -/
def recordOf (name canonicalId identityConfidence : String) (digest : Json) (capabilityId : String)
    (score : JsonFloat) : Json :=
  .obj [("model", .obj [("provider_kind", .str "ollama"), ("provider_model_name", .str name),
      ("artifact_digest", digest), ("canonical_id", .str canonicalId),
      ("identity_confidence", .str identityConfidence),
      ("observed_at", .str "1970-01-01T00:00:00Z")]),
    ("adapter", .null), ("runtime_profile_hash", .str "rp-1"), ("machine_fingerprint", .str "m-1"),
    ("capability_id", .str capabilityId), ("score", .float score),
    ("confidence", .float (.literal 9 (-1))), ("sample_count", .int 12), ("excluded_count", .int 0),
    ("dispersion", .float (.literal 1 (-1))), ("benchmark_versions", .obj []),
    ("dataset_hashes", .obj []), ("prompt_subset_hashes", .obj []),
    ("contributing_metrics", .arr []), ("source_run_ids", .arr []), ("environment", .obj []),
    ("measured_at", .str "1970-01-01T00:00:00Z"), ("computed_at", .str "1970-01-01T00:00:00Z"),
    ("policy_version", .str "1.0"), ("vocabulary_version", .str "1.0")]

end LoadCoach.Registry

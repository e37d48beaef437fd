import LoadCoach.Foundations.Transition
import LoadCoach.Registry.Import

/-! # The adapter directory and its table

`infrastructure/adapters/directory.py`: `read_directory`, which reads every reviewed manifest of the
configured directory and verifies it against its artifact; `services/adapters.py`: `sync_adapters`,
which writes what was read into the table `adapters`, and `adapter_facts_by_base_name`, which
routing reads the table through.

* `availableIn_syncedAdapters_iff`: after a call with a directory an adapter is available exactly when
  the last entry of its digest is.
* `mirrors_iff`: so the table is the projection of the directory, after each call of a run, exactly
  when no verified manifest is followed by an unverified one of the same digest, and nothing was
  available when the feature was found turned off or the reading raised. -/

namespace LoadCoach.Registry

open Foundations
open Routing (AdapterFacts ModelFacts ProviderFacts CapabilitySignal)

/-! ### Reading the directory -/

/-- The payload of a reviewed manifest. -/
structure AdapterManifest where
  name : String
  artifactFile : String
  artifactSha256 : String
  sourceSha256 : Option String := none
  baseModelName : String
  baseArtifactDigest : Option String := none
  baseConfidence : String := "name_only"
  declaredCapabilities : List String := []
  dataClassification : String := "confidential"
  notes : Option String := none
  payload : Members := []

/-- One adapter the directory describes. -/
structure AdapterEntry where
  name : String
  manifestPath : String
  artifactPath : String
  artifactSha256 : String
  sourceSha256 : Option String
  baseModelName : String
  baseArtifactDigest : Option String
  baseConfidence : String
  declaredCapabilities : List String
  dataClassification : String
  notes : Option String
  payload : Members
  available : Bool
  unavailableReason : Option String

/-- What reading a directory finds; what only an operator is shown is left out. -/
structure DirectoryReading where
  entries : List AdapterEntry := []
  invalid : List (String × String) := []

/-- A directory: whether it is there, the names in it, where a name in it leads, which paths are
files, and what is read of them.  Only what a read raises is caught. -/
structure AdapterDirectory (Content : Type*) where
  path : String
  isDir : Except Raised Bool
  names : List String
  resolve : String → Except Raised String
  isFile : String → Except Raised Bool
  read : String → Except String Content

section Read

variable {Content : Type*}

-- the manifest in a file, as the schema reads it, and the digest of a file's content
variable (parse : Content → Except String AdapterManifest) (sha256Of : Content → String)

/-- Whether a name is that of a reviewed manifest; a draft is not one. -/
def isManifestName (name : String) : Bool :=
  ".manifest.json".toList.isSuffixOf name.toList &&
    !".manifest.draft.json".toList.isSuffixOf name.toList

/-- An entry of a manifest, as it turned out. -/
def AdapterManifest.entry (manifestPath artifactPath : String) (unavailableReason : Option String)
    (manifest : AdapterManifest) : AdapterEntry where
  name := manifest.name
  manifestPath
  artifactPath
  artifactSha256 := manifest.artifactSha256
  sourceSha256 := manifest.sourceSha256
  baseModelName := manifest.baseModelName
  baseArtifactDigest := manifest.baseArtifactDigest
  baseConfidence := manifest.baseConfidence
  declaredCapabilities := manifest.declaredCapabilities
  dataClassification := manifest.dataClassification
  notes := manifest.notes
  payload := manifest.payload
  available := unavailableReason.isNone
  unavailableReason

/-- Why an artifact cannot be used, if it cannot. -/
def unavailableReason (dir : AdapterDirectory Content) (artifactPath : String)
    (manifest : AdapterManifest) : Except Raised (Option String) := do
  if ← dir.isFile artifactPath then
    match dir.read artifactPath with
    | .error exc => return some ("the artifact could not be hashed: " ++ exc)
    | .ok content =>
        if sha256Of content = manifest.artifactSha256 then return none
        else return some ("'" ++ manifest.artifactFile ++ "' hashes to " ++ sha256Of content ++
          ", and the manifest records " ++ manifest.artifactSha256 ++
          ". The content changed, so this is a different adapter: rescan it rather than editing " ++
          "the digest, or the measurements attached to the old hash would be re-attributed to " ++
          "new weights")
  else return some ("the manifest names '" ++ manifest.artifactFile ++ "', which is not a file in " ++
    dir.path ++ "; the adapter is unavailable until the artifact returns or the manifest is " ++
    "rescanned")

/-- `_read_manifest`: the entry of a manifest, or why there is none. -/
def readManifest (dir : AdapterDirectory Content) (name : String) :
    Except Raised (Except String AdapterEntry) :=
  let manifestPath := dir.path ++ "/" ++ name
  match dir.read manifestPath with
  | .error exc => .ok (.error ("could not be read: " ++ exc))
  | .ok content =>
      match parse content with
      | .error problem => .ok (.error problem)
      | .ok manifest => do
          let artifactPath ← dir.resolve manifest.artifactFile
          let reason ← unavailableReason sha256Of dir artifactPath manifest
          return .ok (manifest.entry manifestPath artifactPath reason)

/-- The names of the reviewed manifests, in order. -/
def AdapterDirectory.manifestNames (dir : AdapterDirectory Content) : List String :=
  (dir.names.filter isManifestName).insertionSort (· ≤ ·)

/-- `read_directory`; a directory that is not there reads as an empty one. -/
def readDirectory (dir : AdapterDirectory Content) : Except Raised DirectoryReading := do
  if ← dir.isDir then
    let read ← dir.manifestNames.mapM fun name =>
      (readManifest parse sha256Of dir name).map (Prod.mk name)
    return {
      entries := (read.filterMap fun r => r.2.toOption).insertionSort fun a b => a.name ≤ b.name
      invalid := read.filterMap fun r =>
        match r.2 with
        | .ok _ => none
        | .error problem => some (dir.path ++ "/" ++ r.1, problem) }
  else return {}

/-- A reviewed manifest of a directory, by its name and its content. -/
def AdapterDirectory.Reviewed (dir : AdapterDirectory Content) (name : String)
    (manifest : AdapterManifest) : Prop :=
  dir.isDir = .ok true ∧ name ∈ dir.names ∧ isManifestName name = true ∧
    ∃ content, dir.read (dir.path ++ "/" ++ name) = .ok content ∧ parse content = .ok manifest

/-- **A reviewed manifest with a digest is verified** against its artifact. -/
def Verified (dir : AdapterDirectory Content) (digest : String) : Prop :=
  ∃ name manifest, dir.Reviewed parse name manifest ∧ manifest.artifactSha256 = digest ∧
    ∃ path, dir.resolve manifest.artifactFile = .ok path ∧ dir.isFile path = .ok true ∧
      ∃ artifact, dir.read path = .ok artifact ∧ sha256Of artifact = digest

/-- Nothing raises: the directory can be looked at, and so can where the artifact of each reviewed
manifest leads. -/
structure AdapterDirectory.Readable (dir : AdapterDirectory Content) : Prop where
  isDir : ∃ there, dir.isDir = .ok there
  artifact : ∀ name manifest, dir.Reviewed parse name manifest →
    ∃ path file, dir.resolve manifest.artifactFile = .ok path ∧ dir.isFile path = .ok file

variable {parse sha256Of} {dir : AdapterDirectory Content}

theorem mem_manifestNames {name : String} :
    name ∈ dir.manifestNames ↔ name ∈ dir.names ∧ isManifestName name = true := by
  rw [AdapterDirectory.manifestNames, List.mem_insertionSort, List.mem_filter]

theorem unavailableReason_eq_none_iff {path : String} {manifest : AdapterManifest} :
    unavailableReason sha256Of dir path manifest = .ok none ↔
      dir.isFile path = .ok true ∧
        ∃ artifact, dir.read path = .ok artifact ∧ sha256Of artifact = manifest.artifactSha256 := by
  rw [unavailableReason]
  cases dir.isFile path with
  | error e => simp [bind, Except.bind]
  | ok file =>
      rw [ok_bind]
      cases file with
      | false => simp [pure, Except.pure]
      | true =>
          cases dir.read path with
          | error exc => simp [pure, Except.pure]
          | ok content =>
              by_cases hsame : sha256Of content = manifest.artifactSha256 <;>
                simp [pure, Except.pure, hsame]

theorem exists_unavailableReason_iff {path : String} {manifest : AdapterManifest} :
    (∃ reason, unavailableReason sha256Of dir path manifest = .ok reason) ↔
      ∃ file, dir.isFile path = .ok file := by
  rw [unavailableReason]
  cases dir.isFile path with
  | error e => simp [bind, Except.bind]
  | ok file =>
      rw [ok_bind]
      refine iff_of_true ?_ ⟨file, rfl⟩
      cases file with
      | false => exact ⟨_, rfl⟩
      | true =>
          cases dir.read path with
          | error exc => exact ⟨_, rfl⟩
          | ok content =>
              by_cases hsame : sha256Of content = manifest.artifactSha256
              · exact ⟨none, by simp [hsame, pure, Except.pure]⟩
              · exact ⟨_, by simp [hsame, pure, Except.pure]; rfl⟩

theorem readManifest_entry_iff {name : String} {entry : AdapterEntry} :
    readManifest parse sha256Of dir name = .ok (.ok entry) ↔
      ∃ content manifest path reason, dir.read (dir.path ++ "/" ++ name) = .ok content ∧
        parse content = .ok manifest ∧ dir.resolve manifest.artifactFile = .ok path ∧
        unavailableReason sha256Of dir path manifest = .ok reason ∧
        entry = manifest.entry (dir.path ++ "/" ++ name) path reason := by
  rw [readManifest]
  cases hread : dir.read (dir.path ++ "/" ++ name) with
  | error exc => simp
  | ok content =>
      cases hparse : parse content with
      | error problem => simp [hparse]
      | ok manifest =>
          constructor
          · intro h
            simp only [hparse, bind_eq_ok, pure_eq_ok] at h
            obtain ⟨path, hpath, reason, hreason, h⟩ := h
            cases h
            exact ⟨content, manifest, path, reason, rfl, hparse, hpath, hreason, rfl⟩
          · rintro ⟨_, _, path, reason, ⟨⟩, hparsed, hpath, hreason, rfl⟩
            cases hparse.symm.trans hparsed
            simp only [hparse, bind_eq_ok, pure_eq_ok]
            exact ⟨path, hpath, reason, hreason, rfl⟩

theorem exists_readManifest_iff {name : String} (hdir : dir.isDir = .ok true)
    (hname : name ∈ dir.names) (hmanifest : isManifestName name = true) :
    (∃ result, readManifest parse sha256Of dir name = .ok result) ↔
      ∀ manifest, dir.Reviewed parse name manifest →
        ∃ path file, dir.resolve manifest.artifactFile = .ok path ∧ dir.isFile path = .ok file := by
  rw [readManifest]
  cases hread : dir.read (dir.path ++ "/" ++ name) with
  | error exc => simp [AdapterDirectory.Reviewed, hread]
  | ok content =>
      cases hparse : parse content with
      | error problem => simp [AdapterDirectory.Reviewed, hread, hparse]
      | ok manifest =>
          simp only [AdapterDirectory.Reviewed, hdir, hname, hmanifest, hread, hparse,
            Except.ok.injEq, true_and, exists_eq_left', forall_eq', bind_eq_ok, pure_eq_ok]
          constructor
          · rintro ⟨_, path, hpath, reason, hreason, -⟩
            obtain ⟨file, hfile⟩ := exists_unavailableReason_iff.1 ⟨reason, hreason⟩
            exact ⟨path, file, hpath, hfile⟩
          · rintro ⟨path, file, hpath, hfile⟩
            obtain ⟨reason, hreason⟩ :
                ∃ reason, unavailableReason sha256Of dir path manifest = .ok reason :=
              exists_unavailableReason_iff.2 ⟨file, hfile⟩
            exact ⟨_, path, hpath, reason, hreason, rfl⟩

theorem exists_readDirectory_iff :
    (∃ reading, readDirectory parse sha256Of dir = .ok reading) ↔ dir.Readable parse := by
  rw [readDirectory]
  cases hdir : dir.isDir with
  | error e =>
      refine iff_of_false (fun ⟨_, h⟩ => by cases h) fun h => ?_
      obtain ⟨there, hthere⟩ := h.isDir
      cases hdir.symm.trans hthere
  | ok there =>
      rw [ok_bind]
      cases there with
      | false =>
          refine iff_of_true ⟨_, rfl⟩ ⟨⟨false, hdir⟩, fun name manifest h => ?_⟩
          cases hdir.symm.trans h.1
      | true =>
          have hall : (∃ read, dir.manifestNames.mapM (fun name =>
              (readManifest parse sha256Of dir name).map (Prod.mk name)) = .ok read) ↔
              dir.Readable parse := by
            rw [exists_mapM_ok_iff]
            constructor
            · refine fun h => ⟨⟨true, hdir⟩, fun name manifest hreviewed => ?_⟩
              obtain ⟨-, hname, hmanifest, -⟩ := id hreviewed
              obtain ⟨_, hok⟩ := h name (mem_manifestNames.2 ⟨hname, hmanifest⟩)
              obtain ⟨result, hok, -⟩ := map_eq_ok.1 hok
              exact (exists_readManifest_iff hdir hname hmanifest).1 ⟨result, hok⟩ _ hreviewed
            · intro h name hlisted
              obtain ⟨hname, hmanifest⟩ := mem_manifestNames.1 hlisted
              obtain ⟨result, hok⟩ : ∃ result, readManifest parse sha256Of dir name = .ok result :=
                (exists_readManifest_iff hdir hname hmanifest).2 (h.artifact name)
              exact ⟨_, map_eq_ok.2 ⟨result, hok, rfl⟩⟩
          rw [← hall, if_pos rfl]
          constructor
          · rintro ⟨reading, h⟩
            obtain ⟨read, hread, -⟩ := bind_eq_ok.1 h
            exact ⟨read, hread⟩
          · rintro ⟨read, hread⟩
            exact ⟨_, by rw [hread]; rfl⟩

theorem mem_entries_iff {reading : DirectoryReading} {entry : AdapterEntry}
    (h : readDirectory parse sha256Of dir = .ok reading) :
    entry ∈ reading.entries ↔ dir.isDir = .ok true ∧ ∃ name ∈ dir.names,
      isManifestName name = true ∧ readManifest parse sha256Of dir name = .ok (.ok entry) := by
  obtain ⟨there, hdir, h⟩ := bind_eq_ok.1 h
  cases there with
  | false =>
      obtain rfl := pure_eq_ok.1 h
      simp [hdir]
  | true =>
      obtain ⟨read, hread, h⟩ := bind_eq_ok.1 h
      obtain rfl := pure_eq_ok.1 h
      simp only [List.mem_insertionSort, List.mem_filterMap, hdir, true_and]
      constructor
      · rintro ⟨⟨name, result⟩, hmem, hresult⟩
        obtain ⟨_, hlisted, hok⟩ := (mem_of_mapM_eq_ok hread).1 hmem
        obtain ⟨_, hread, heq⟩ := map_eq_ok.1 hok
        obtain ⟨rfl, rfl⟩ := Prod.mk.inj heq
        obtain ⟨hname, hmanifest⟩ := mem_manifestNames.1 hlisted
        obtain rfl := toOption_eq_some.1 hresult
        exact ⟨_, hname, hmanifest, hread⟩
      · rintro ⟨name, hname, hmanifest, hok⟩
        have hlisted := mem_manifestNames.2 ⟨hname, hmanifest⟩
        exact ⟨(name, .ok entry), (mem_of_mapM_eq_ok hread).2 ⟨name, hlisted, by rw [hok]; rfl⟩, rfl⟩

theorem verified_iff {reading : DirectoryReading} {digest : String}
    (h : readDirectory parse sha256Of dir = .ok reading) :
    Verified parse sha256Of dir digest ↔
      ∃ entry ∈ reading.entries, entry.artifactSha256 = digest ∧ entry.available = true := by
  simp only [mem_entries_iff h, readManifest_entry_iff]
  constructor
  · rintro ⟨name, manifest, ⟨hdir, hname, hmanifest, content, hread, hparse⟩, rfl, path, hpath,
      hfile, artifact, hartifact, hsha⟩
    have hnone : unavailableReason sha256Of dir path manifest = .ok none :=
      unavailableReason_eq_none_iff.2 ⟨hfile, artifact, hartifact, hsha⟩
    exact ⟨_, ⟨hdir, name, hname, hmanifest, content, manifest, path, none, hread, hparse, hpath,
      hnone, rfl⟩, rfl, rfl⟩
  · rintro ⟨_, ⟨hdir, name, hname, hmanifest, content, manifest, path, reason, hread, hparse, hpath,
      hreason, rfl⟩, rfl, havailable⟩
    obtain rfl : reason = none := Option.isNone_iff_eq_none.1 havailable
    obtain ⟨hfile, artifact, hartifact, hsha⟩ := unavailableReason_eq_none_iff.1 hreason
    exact ⟨name, manifest, ⟨hdir, hname, hmanifest, content, hread, hparse⟩, rfl, path, hpath, hfile,
      artifact, hartifact, hsha⟩

end Read

/-! ### Writing the table -/

/-- An identifier no adapter has. -/
def freshAdapterId (t : Adapters) : AdapterId :=
  (t.entries.map fun e => e.2.adapterId).foldr max 0 + 1

/-- The row of an entry: what it describes, under the identifier and first sighting of the row the
digest already had. -/
def AdapterEntry.row (now : Instant) (fresh : AdapterId) (existing : Option AdapterRow)
    (entry : AdapterEntry) : AdapterRow where
  adapterId := (existing.map AdapterRow.adapterId).getD fresh
  name := entry.name
  baseModelName := entry.baseModelName
  baseArtifactDigest := entry.baseArtifactDigest
  baseConfidence := entry.baseConfidence
  declaredCapabilities := entry.declaredCapabilities
  dataClassification := entry.dataClassification
  artifactPath := entry.artifactPath
  manifestPath := entry.manifestPath
  sourceSha256 := entry.sourceSha256
  manifest := entry.payload
  firstSeenAt := (existing.map AdapterRow.firstSeenAt).getD now
  lastSeenAt := now
  available := entry.available
  unavailableReason := entry.unavailableReason

/-- One entry of the loop. -/
def syncEntry (now : Instant) (t : Adapters) (entry : AdapterEntry) : Adapters :=
  t.upsert entry.artifactSha256 fun existing => entry.row now (freshAdapterId t) existing

/-- A row whose adapter left the directory. -/
def AdapterRow.retired (seen : List String) (digest : String) (row : AdapterRow) : AdapterRow :=
  if digest ∉ seen ∧ row.available = true then
    { row with
      available := false
      unavailableReason := some ("no reviewed manifest in the configured directory names this " ++
        "artifact any more; the row is kept because stored decisions name it") }
  else row

/-- The table once some entries were read. -/
def syncedAdapters (entries : List AdapterEntry) (now : Instant) (t : Adapters) : Adapters :=
  (entries.foldl (syncEntry now) t).mapRows
    (AdapterRow.retired (entries.map AdapterEntry.artifactSha256))

/-- An adapter that is available. -/
def AvailableIn (t : Adapters) (digest : String) : Prop :=
  ∃ row, t.lookup digest = some row ∧ row.available = true

/-- The last entry of a digest. -/
def lastEntry (entries : List AdapterEntry) (digest : String) : Option AdapterEntry :=
  (entries.filter fun entry => decide (entry.artifactSha256 = digest)).getLast?

section Sync

variable {entries : List AdapterEntry} {now : Instant} {t : Adapters} {digest : String}

theorem available_foldl_syncEntry (entries : List AdapterEntry) (now : Instant) (t : Adapters)
    (digest : String) :
    ((entries.foldl (syncEntry now) t).lookup digest).map AdapterRow.available =
      ((lastEntry entries digest).map AdapterEntry.available).or
        ((t.lookup digest).map AdapterRow.available) := by
  induction entries using List.reverseRecOn with
  | nil => simp [lastEntry]
  | append_singleton entries entry ih =>
      rw [List.foldl_append, List.foldl_cons, List.foldl_nil, syncEntry]
      by_cases hdigest : entry.artifactSha256 = digest
      · rw [← hdigest, Table.lookup_upsert_self]
        simp [lastEntry, List.filter_append, AdapterEntry.row]
      · rw [Table.lookup_upsert_ne (Ne.symm hdigest), ih]
        simp [lastEntry, List.filter_append, hdigest]

theorem lastEntry_eq_none_iff : lastEntry entries digest = none ↔
    digest ∉ entries.map AdapterEntry.artifactSha256 := by
  rw [lastEntry, List.getLast?_eq_none_iff, List.filter_eq_nil_iff]
  simp

theorem AdapterRow.available_retired_iff {seen : List String} {row : AdapterRow} :
    (row.retired seen digest).available = true ↔ row.available = true ∧ digest ∈ seen := by
  rw [AdapterRow.retired]
  split
  · rename_i h
    simp [h.1]
  · rename_i h
    simp only [not_and', not_not] at h
    exact ⟨fun havailable => ⟨havailable, h havailable⟩, And.left⟩

/-- **An adapter after a reading** is available exactly when the last entry of its digest is. -/
theorem availableIn_syncedAdapters_iff :
    AvailableIn (syncedAdapters entries now t) digest ↔
      ∃ entry, lastEntry entries digest = some entry ∧ entry.available = true := by
  have hrow : AvailableIn (syncedAdapters entries now t) digest ↔
      ((entries.foldl (syncEntry now) t).lookup digest).map AdapterRow.available = some true ∧
        digest ∈ entries.map AdapterEntry.artifactSha256 := by
    simp only [AvailableIn, syncedAdapters, Table.lookup_mapRows, Option.map_eq_some_iff]
    constructor
    · rintro ⟨_, ⟨row, hrow, rfl⟩, havailable⟩
      obtain ⟨hrowAvailable, hseen⟩ := AdapterRow.available_retired_iff.1 havailable
      exact ⟨⟨row, hrow, hrowAvailable⟩, hseen⟩
    · rintro ⟨⟨row, hrow, havailable⟩, hseen⟩
      exact ⟨_, ⟨row, hrow, rfl⟩, AdapterRow.available_retired_iff.2 ⟨havailable, hseen⟩⟩
  rw [hrow, available_foldl_syncEntry]
  cases hlast : lastEntry entries digest with
  | none =>
      have hunseen := lastEntry_eq_none_iff.1 hlast
      simp [hunseen]
  | some entry =>
      have hseen : digest ∈ entries.map AdapterEntry.artifactSha256 := by
        by_contra hunseen
        rw [lastEntry_eq_none_iff.2 hunseen] at hlast
        cases hlast
      simp [hseen]

theorem mem_of_lastEntry {entry : AdapterEntry} (h : lastEntry entries digest = some entry) :
    entry ∈ entries ∧ entry.artifactSha256 = digest := by
  have hmem := List.mem_of_getLast? h
  simpa using hmem

end Sync

/-! ### What routing reads -/

/-- An adapter as routing reads it. -/
def AdapterRow.facts (digest : String) (row : AdapterRow) : AdapterFacts where
  adapterId := toString row.adapterId
  name := row.name
  artifactDigest := digest
  baseModelName := row.baseModelName
  baseArtifactDigest := row.baseArtifactDigest
  baseConfidence := row.baseConfidence
  declaredCapabilities := row.declaredCapabilities
  dataClassification := row.dataClassification

/-- `adapter_facts_by_base_name`, of one name: the available adapters, in name order. -/
def adapterFactsByBaseName (t : Adapters) (baseModelName : String) : List AdapterFacts :=
  (((t.select fun _ row => row.available).map fun e => e.2.facts e.1).insertionSort
    fun a b => a.name ≤ b.name).filter fun facts => facts.baseModelName == baseModelName

/-- What is declared of an adapter: `_adapter_signals`. -/
def adapterSignals (adapter : AdapterFacts) : List CapabilitySignal :=
  adapter.declaredCapabilities.map fun capabilityId =>
    { capabilityId, source := .declared, score := 1, confidence := 1 / 2 }

section Candidates

-- the registration of a model, the signals of a model, and the evidence of a model with an adapter
variable (providerOf : ModelFacts → ProviderFacts) (signals : ModelFacts → List CapabilitySignal)
  (evidence : ModelFacts → Option AdapterFacts → List CapabilitySignal)

/-- `_read_candidates`: each model, and with each adapter of its name where its provider can swap
adapters. -/
def readCandidates (t : Adapters) (models : List ModelFacts) :
    List (ModelFacts × ProviderFacts × List CapabilitySignal × Option AdapterFacts) :=
  models.flatMap fun facts =>
    (facts, providerOf facts, signals facts ++ evidence facts none, none) ::
      if (providerOf facts).adapterHotSwap then
        (adapterFactsByBaseName t facts.providerModelName).map fun adapter =>
          (facts, providerOf facts, adapterSignals adapter ++ evidence facts (some adapter),
            some adapter)
      else []

variable {providerOf signals evidence}

theorem adapter_eq_none_of_readCandidates {t : Adapters} (h : ∀ digest, ¬ AvailableIn t digest)
    {models : List ModelFacts}
    {c : ModelFacts × ProviderFacts × List CapabilitySignal × Option AdapterFacts}
    (hc : c ∈ readCandidates providerOf signals evidence t models) : c.2.2.2 = none := by
  have hnone : ∀ name, adapterFactsByBaseName t name = [] := by
    intro name
    rw [adapterFactsByBaseName, List.filter_eq_nil_iff]
    intro facts hfacts
    rw [List.mem_insertionSort, List.mem_map] at hfacts
    obtain ⟨⟨digest, row⟩, hrow, -⟩ := hfacts
    exact absurd ⟨row, (Table.mem_select _ _ _ _).1 hrow⟩ (h digest)
  rw [readCandidates, List.mem_flatMap] at hc
  obtain ⟨facts, -, hc⟩ := hc
  rcases List.mem_cons.1 hc with rfl | hc
  · rfl
  · simp [hnone] at hc

end Candidates

/-! ### Calls -/

section Calls

variable {Content : Type*} (parse : Content → Except String AdapterManifest)
  (sha256Of : Content → String)

/-- A call of `sync_adapters`: the configured directory, if any, as it is at the time of the call,
where the user in its path is known; the time; and the order in which the rows of evidence are
matched again. -/
structure SyncCall (Content : Type*) where
  configured : Option (Except Raised (AdapterDirectory Content))
  now : Instant
  order : List EvidenceKey

/-- What a call reads, if a directory is configured. -/
def SyncCall.reading (call : SyncCall Content) : Except Raised (Option DirectoryReading) :=
  match call.configured with
  | none => .ok none
  | some (.error e) => .error e
  | some (.ok dir) => (readDirectory parse sha256Of dir).map some

/-- `sync_adapters`; without a directory, or where the reading raises, nothing is written. -/
def syncAdapters (call : SyncCall Content) (db : EvidenceDb) : EvidenceDb × Except Raised ℕ :=
  match call.reading parse sha256Of with
  | .error e => (db, .error e)
  | .ok none => (db, .ok 0)
  | .ok (some reading) =>
      (rebindEvidence call.order { db with
        adapters := syncedAdapters reading.entries call.now db.adapters },
        .ok reading.entries.length)

/-- Calls one after the other, from any store. -/
def syncSystem : System EvidenceDb (SyncCall Content) where
  init := Set.univ
  next db call db' := db' = (syncAdapters parse sha256Of call db).1

/-- The directory that a call reads to the end. -/
def SyncCall.Reads (call : SyncCall Content) (dir : AdapterDirectory Content) : Prop :=
  call.configured = some (.ok dir) ∧ dir.Readable parse

/-- A digest that the reading of a call verified. -/
def VerifiedBy (call : SyncCall Content) (digest : String) : Prop :=
  ∃ dir, call.Reads parse dir ∧ Verified parse sha256Of dir digest

/-- **The table is the projection of the directory**: an adapter is available exactly when the
feature is on and its digest was verified; so with the feature off no candidate has an adapter. -/
def Mirrors (e : Step EvidenceDb (SyncCall Content)) : Prop :=
  (∀ digest, AvailableIn e.post.adapters digest ↔ VerifiedBy parse sha256Of e.act digest) ∧
    (e.act.configured = none → ∀ providerOf signals evidence models,
      ∀ c ∈ readCandidates providerOf signals evidence e.post.adapters models, c.2.2.2 = none)

/-- The condition a call meets. -/
def MirrorsWhen (e : Step EvidenceDb (SyncCall Content)) : Prop :=
  ((∀ dir, ¬ e.act.Reads parse dir) → ∀ digest, ¬ AvailableIn e.pre.adapters digest) ∧
    ∀ dir reading, e.act.Reads parse dir → readDirectory parse sha256Of dir = .ok reading →
      ∀ digest entry, Verified parse sha256Of dir digest →
        lastEntry reading.entries digest = some entry → entry.available = true

variable {parse sha256Of} {h : List (Step EvidenceDb (SyncCall Content))} {db : EvidenceDb}
  {e : Step EvidenceDb (SyncCall Content)}

theorem reading_eq_some_iff {call : SyncCall Content} {reading : DirectoryReading} :
    call.reading parse sha256Of = .ok (some reading) ↔
      ∃ dir, call.Reads parse dir ∧ readDirectory parse sha256Of dir = .ok reading := by
  rw [SyncCall.reading]
  constructor
  · intro h
    split at h
    · cases h
    · cases h
    · rename_i dir hcall
      obtain ⟨_, hreading, hsame⟩ := map_eq_ok.1 h
      obtain rfl := Option.some.inj hsame
      exact ⟨dir, ⟨hcall, exists_readDirectory_iff.1 ⟨_, hreading⟩⟩, hreading⟩
  · rintro ⟨dir, ⟨hcall, -⟩, hreading⟩
    rw [hcall]
    exact map_eq_ok.2 ⟨reading, hreading, rfl⟩

/-- A call that reads its directory to the end. -/
theorem mirrors_iff_of_reads {pre : EvidenceDb} {call : SyncCall Content}
    {dir : AdapterDirectory Content} (hdir : call.Reads parse dir) :
    Mirrors parse sha256Of ⟨pre, call, (syncAdapters parse sha256Of call pre).1⟩ ↔
      MirrorsWhen parse sha256Of ⟨pre, call, (syncAdapters parse sha256Of call pre).1⟩ := by
  obtain ⟨reading, hreading⟩ : ∃ reading, readDirectory parse sha256Of dir = .ok reading :=
    exists_readDirectory_iff.2 hdir.2
  have hsame : ∀ other, call.Reads parse other → other = dir := by
    intro other hother
    exact Except.ok.inj (Option.some.inj (hother.1.symm.trans hdir.1))
  have hafter : ∀ digest, AvailableIn (syncAdapters parse sha256Of call pre).1.adapters digest ↔
      ∃ entry, lastEntry reading.entries digest = some entry ∧ entry.available = true := by
    intro digest
    rw [syncAdapters, reading_eq_some_iff.2 ⟨dir, hdir, hreading⟩]
    exact availableIn_syncedAdapters_iff
  have hverified : ∀ digest, VerifiedBy parse sha256Of call digest ↔
      Verified parse sha256Of dir digest :=
    fun digest => ⟨fun ⟨other, hother, h⟩ => hsame other hother ▸ h, fun h => ⟨dir, hdir, h⟩⟩
  have hon : call.configured ≠ none := by simp [hdir.1]
  simp only [Mirrors, MirrorsWhen, hafter, hverified, hon, false_imp_iff, and_true]
  constructor
  · refine fun hall => ⟨fun hnone => absurd hdir (hnone dir), ?_⟩
    intro other reading' hother hreading' digest entry hdigest hlast
    obtain rfl := hsame other hother
    obtain rfl := Except.ok.inj (hreading.symm.trans hreading')
    obtain ⟨entry', hlast', havailable⟩ := (hall digest).2 hdigest
    rw [hlast, Option.some.injEq] at hlast'
    exact hlast' ▸ havailable
  · rintro ⟨-, hcond⟩ digest
    constructor
    · rintro ⟨entry, hlast, havailable⟩
      obtain ⟨hmem, hdigest⟩ := mem_of_lastEntry hlast
      exact (verified_iff hreading).2 ⟨entry, hmem, hdigest, havailable⟩
    · intro hdigest
      obtain ⟨entry, hmem, hsha, -⟩ := (verified_iff hreading).1 hdigest
      cases hlast : lastEntry reading.entries digest with
      | none => exact absurd (hsha ▸ List.mem_map_of_mem hmem) (lastEntry_eq_none_iff.1 hlast)
      | some entry' =>
          exact ⟨entry', rfl, hcond dir reading hdir hreading digest entry' hdigest hlast⟩

/-- A call that reads nothing, or nothing to the end, and so writes nothing. -/
theorem mirrors_iff_of_unread {pre : EvidenceDb} {call : SyncCall Content}
    (hnone : ∀ dir, ¬ call.Reads parse dir) :
    Mirrors parse sha256Of ⟨pre, call, (syncAdapters parse sha256Of call pre).1⟩ ↔
      MirrorsWhen parse sha256Of ⟨pre, call, (syncAdapters parse sha256Of call pre).1⟩ := by
  have hafter : (syncAdapters parse sha256Of call pre).1 = pre := by
    rw [syncAdapters]
    split
    · rfl
    · rfl
    · rename_i reading hreading
      obtain ⟨dir, hdir, -⟩ := reading_eq_some_iff.1 hreading
      exact absurd hdir (hnone dir)
  have hunverified : ∀ digest, ¬ VerifiedBy parse sha256Of call digest :=
    fun digest ⟨dir, hdir, _⟩ => hnone dir hdir
  simp only [Mirrors, MirrorsWhen, hafter, hunverified, iff_false]
  constructor
  · rintro ⟨habsent, -⟩
    exact ⟨fun _ => habsent, fun dir _ hdir => absurd hdir (hnone dir)⟩
  · rintro ⟨habsent, -⟩
    exact ⟨habsent hnone, fun _ _ _ _ _ _ hc =>
      adapter_eq_none_of_readCandidates (habsent hnone) hc⟩

/-- **One call** projects the directory exactly when it meets the condition. -/
theorem mirrors_step_iff (hnext : (syncSystem parse sha256Of).next e.pre e.act e.post) :
    Mirrors parse sha256Of e ↔ MirrorsWhen parse sha256Of e := by
  obtain ⟨pre, call, post⟩ := e
  change post = (syncAdapters parse sha256Of call pre).1 at hnext
  subst hnext
  by_cases hreads : ∃ dir, call.Reads parse dir
  · obtain ⟨dir, hdir⟩ := hreads
    exact mirrors_iff_of_reads hdir
  · exact mirrors_iff_of_unread (not_exists.1 hreads)

end Calls

/-- A manifest of one adapter. -/
def terseManifest : AdapterManifest where
  name := "terse"
  artifactFile := "terse.gguf"
  artifactSha256 := "sha256:4f"
  baseModelName := "qwen3:8b"

/-- The manifest, read from its file. -/
def parseTerse (_ : String) : Except String AdapterManifest := .ok terseManifest

/-- The digest of its artifact. -/
def hashTerse (_ : String) : String := "sha256:4f"

/-- The directory that holds it and its artifact. -/
def terseDirectory : AdapterDirectory String where
  path := "/adapters"
  isDir := .ok true
  names := ["terse.manifest.json", "terse.gguf"]
  resolve name := .ok ("/adapters/" ++ name)
  isFile path := .ok (path == "/adapters/terse.manifest.json" || path == "/adapters/terse.gguf")
  read := .ok

/-- A call that finds the given configuration. -/
def terseCall (configured : Option (AdapterDirectory String)) : SyncCall String :=
  ⟨configured.map .ok, 0, []⟩

/-- The call with the directory, from an empty store. -/
def terseSync : Step EvidenceDb (SyncCall String) where
  pre := {}
  act := terseCall (some terseDirectory)
  post := (syncAdapters parseTerse hashTerse
    (terseCall (some terseDirectory)) {}).1

/-- The feature is turned off afterwards. -/
def terseOff : Step EvidenceDb (SyncCall String) where
  pre := terseSync.post
  act := terseCall none
  post := terseSync.post

theorem run_terseSync : Run (syncSystem parseTerse hashTerse)
    [terseSync] terseSync.post :=
  (Run.start (Set.mem_univ _)).step rfl

end LoadCoach.Registry

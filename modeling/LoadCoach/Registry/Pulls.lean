import LoadCoach.Foundations.Transition
import LoadCoach.Registry.Badges

/-! # Pulling evidence

`services/evidence.py`: `refresh_from_freeweight` pulls what the configured source has measured since
the bundle it sent last, imports it, and records how it went.  What the source answers, or why it
could not be asked, is settled before (`Fetch/`).

A refresh that fails is a degradation: in any run of them the evidence stands as it was, but for the
badge of a source that cannot be reached, and so does the instant the next pull asks for
(`failures_keep`).  Over any run of refreshes and of imports, that instant is the one the last bundle
imported for the URL was generated at (`lastGeneratedAt_eq`). -/

namespace LoadCoach.Registry

open Foundations

/-! ### A refresh -/

/-- `last_generated_at`: what is sent as `since`. -/
def lastGeneratedAt (url : String) (sources : Sources) : Option Instant :=
  (sourceForUrl url sources).bind fun source => source.2.generatedAt

/-- A source whose last refresh went as it says. -/
def EvidenceSource.failed (status reason : String) (source : EvidenceSource) : EvidenceSource :=
  { source with lastStatus := some status, errorText := some reason }

/-- `_record_source_failure`: a source that was never heard of gets a row of its own, under its
URL. -/
def recordSourceFailure (url status reason : String) (now : Instant) (db : EvidenceDb) :
    Except Raised EvidenceDb :=
  match sourceForUrl url db.sources with
  | some (id, _) =>
      .ok { db with
        sources := db.sources.mapRows
          (fun k row => if k = id then row.failed status reason else row)
          fun k row => by split <;> rfl }
  | none =>
      if h : db.sources.find url = none then
        .ok { db with
          sources := db.sources.put (freshId db.sources.rows)
            ({ sourceKey := url, kind := "freeweight_api", url := some url, createdAt := now :
              EvidenceSource }.failed status reason)
            fun id row hrow hkey => absurd hkey (Indexed.find_eq_none_iff.1 h id row hrow) }
      else .error .integrityError

/-- What comes of asking the source: why it was not answered, or the bundle, whose envelope may be
refused. -/
inductive Fetched where
  | refused (reason : String)
  | incompatible (reason : String)
  | unreachable (reason : String)
  | document (envelope : Except Raised EvidenceEnvelope)

section Refresh

variable (validate : Json → Except (List String) EvidenceRecord)

/-- An import that is recorded as failed where a `SuiteError` ends it. -/
def importFetched (url : String) (envelope : Except Raised EvidenceEnvelope) (now : Instant)
    (current : Environment) (db : EvidenceDb) : EvidenceDb × Except Raised (Option ImportOutcome) :=
  let imported := envelope.bind fun envelope =>
    importBundle validate envelope "freeweight_api" (some url) now current db
  match imported with
  | .ok (db, outcome) => (db, .ok (some outcome))
  | .error (.suite code message details) =>
      match recordSourceFailure url "failed" message now db with
      | .ok db => (db, .error (.suite code message details))
      | .error e => (db, .error e)
  | .error e => (db, .error e)

/-- A failure that is recorded, and raises no further. -/
def recordFailed (url status reason : String) (now : Instant) (db : EvidenceDb) :
    EvidenceDb × Except Raised (Option ImportOutcome) :=
  match recordSourceFailure url status reason now db with
  | .ok db => (db, .ok none)
  | .error e => (db, .error e)

/-- `refresh_from_freeweight`, of a URL that is configured. -/
def refreshFromFreeweight (url : String) (fetched : Fetched) (now : Instant)
    (current : Environment) (db : EvidenceDb) : EvidenceDb × Except Raised (Option ImportOutcome) :=
  match fetched with
  | .refused reason => recordFailed url "refused" reason now db
  | .incompatible reason => recordFailed url "incompatible" reason now db
  | .unreachable reason =>
      recordFailed url "unreachable" reason now (markSourceUnreachable url reason db).1
  | .document envelope => importFetched validate url envelope now current db

end Refresh

/-! ### What the next pull asks for -/

/-- A row that has imported nothing has no bundle to go back to. -/
def Pristine (sources : Sources) : Prop :=
  ∀ id row, sources.rows.lookup id = some row → row.lastImportAt = none → row.generatedAt = none

instance (sources : Sources) : Decidable (Pristine sources) :=
  inferInstanceAs (Decidable (∀ id row, sources.rows.lookup id = some row →
    row.lastImportAt = none → row.generatedAt = none))

/-- What the next pull of a URL depends on: the rows of the URL that have imported. -/
def EvidenceSource.pulled (url : String) (source : EvidenceSource) :
    Option (Option Instant × Option Instant) :=
  if source.url = some url ∧ source.lastImportAt.isSome = true then
    some (source.lastImportAt, source.generatedAt)
  else none

/-- The row of a URL that imported last. -/
structure Newest (url : String) (sources : Sources) (id : SourceId) (row : EvidenceSource) :
    Prop where
  stored : sources.rows.lookup id = some row
  ofUrl : row.url = some url
  imported : row.lastImportAt.isSome = true
  last : ∀ id' row', sources.rows.lookup id' = some row' → row'.url = some url →
    row'.lastImportAt.isSome = true → importKey (id', row') ≤ importKey (id, row)

section Source

variable {url : String} {sources sources' : Sources} {id : SourceId} {row : EvidenceSource}

theorem EvidenceSource.pulled_eq_some_iff {t g : Option Instant} :
    row.pulled url = some (t, g) ↔
      (row.url = some url ∧ row.lastImportAt.isSome = true) ∧
        row.lastImportAt = t ∧ row.generatedAt = g := by
  rw [EvidenceSource.pulled, Option.ite_none_right_eq_some, Option.some.injEq, Prod.mk.injEq]

theorem mem_imported (e : SourceId × EvidenceSource) :
    e ∈ (sources.rows.select fun _ row => decide (row.url = some url)).filter
        (fun e => e.2.lastImportAt.isSome) ↔
      sources.rows.lookup e.1 = some e.2 ∧ e.2.url = some url ∧
        e.2.lastImportAt.isSome = true := by
  rw [List.mem_filter, Table.mem_select, decide_eq_true_eq, and_assoc]

theorem sourceForUrl_of_newest (h : Newest url sources id row) :
    sourceForUrl url sources = some (id, row) := by
  have hmem := (mem_imported (id, row)).2 ⟨h.stored, h.ofUrl, h.imported⟩
  rw [sourceForUrl, if_neg fun hempty => by rw [List.isEmpty_iff.1 hempty] at hmem; cases hmem]
  cases hmax : List.argmax importKey ((sources.rows.select fun _ row =>
      decide (row.url = some url)).filter fun e => e.2.lastImportAt.isSome) with
  | none =>
      rw [List.argmax_eq_none.1 hmax] at hmem
      cases hmem
  | some e =>
      obtain ⟨hrow, hurl, himported⟩ := (mem_imported e).1 (List.argmax_mem hmax)
      have hkey : importKey (id, row) = importKey e :=
        le_antisymm (List.le_of_mem_argmax hmem hmax) (h.last e.1 e.2 hrow hurl himported)
      -- the key ends with the identifier, and the identifier has one row
      have hid : id = e.1 := congrArg Prod.snd hkey
      subst hid
      rw [h.stored] at hrow
      cases hrow
      rfl

theorem exists_newest (hrow : sources.rows.lookup id = some row) (hurl : row.url = some url)
    (himported : row.lastImportAt.isSome = true) : ∃ id row, Newest url sources id row := by
  have hmem := (mem_imported (id, row)).2 ⟨hrow, hurl, himported⟩
  cases hmax : List.argmax importKey ((sources.rows.select fun _ row =>
      decide (row.url = some url)).filter fun e => e.2.lastImportAt.isSome) with
  | none =>
      rw [List.argmax_eq_none.1 hmax] at hmem
      cases hmem
  | some e =>
      obtain ⟨hrow', hurl', himported'⟩ := (mem_imported e).1 (List.argmax_mem hmax)
      refine ⟨e.1, e.2, hrow', hurl', himported', fun id' row' hstored hof hsome => ?_⟩
      exact List.le_of_mem_argmax ((mem_imported (id', row')).2 ⟨hstored, hof, hsome⟩) hmax

theorem lastGeneratedAt_of_newest (h : Newest url sources id row) :
    lastGeneratedAt url sources = row.generatedAt := by
  rw [lastGeneratedAt, sourceForUrl_of_newest h]
  rfl

theorem lastGeneratedAt_of_none (hpristine : Pristine sources)
    (hnone : ∀ id row, sources.rows.lookup id = some row → row.pulled url = none) :
    lastGeneratedAt url sources = none := by
  rw [lastGeneratedAt, Option.bind_eq_none_iff]
  rintro ⟨id, row⟩ hfound
  have hrow := lookup_of_sourceForUrl hfound
  refine hpristine id row hrow ?_
  have hurl : row.url = some url := by
    have hmem : (id, row) ∈ sources.rows.select fun _ row => decide (row.url = some url) := by
      rw [sourceForUrl] at hfound
      split at hfound
      · exact List.argmin_mem hfound
      · exact List.mem_of_mem_filter (List.argmax_mem hfound)
    exact of_decide_eq_true ((Table.mem_select _ _ _ _).1 hmem).2
  have hpulled := hnone id row hrow
  rw [EvidenceSource.pulled, ite_eq_right_iff] at hpulled
  cases himported : row.lastImportAt with
  | none => rfl
  | some t => cases hpulled ⟨hurl, by rw [himported]; rfl⟩

/-- **The next pull depends on the rows of the URL that have imported**, and on nothing else. -/
theorem lastGeneratedAt_congr (hpristine : Pristine sources) (hpristine' : Pristine sources')
    (h : ∀ id, (sources'.rows.lookup id).bind (EvidenceSource.pulled url) =
      (sources.rows.lookup id).bind (EvidenceSource.pulled url)) :
    lastGeneratedAt url sources' = lastGeneratedAt url sources := by
  have hcarry : ∀ {s s' : Sources}, (∀ id, (s'.rows.lookup id).bind (EvidenceSource.pulled url) =
      (s.rows.lookup id).bind (EvidenceSource.pulled url)) → ∀ id row,
        s.rows.lookup id = some row → row.url = some url → row.lastImportAt.isSome = true →
        ∃ row', s'.rows.lookup id = some row' ∧ row'.url = some url ∧
          row'.lastImportAt = row.lastImportAt ∧ row'.generatedAt = row.generatedAt := by
    intro s s' hsame id row hrow hurl himported
    have hpulled := hsame id
    rw [hrow, Option.bind_some,
      EvidenceSource.pulled_eq_some_iff.2 ⟨⟨hurl, himported⟩, rfl, rfl⟩,
      Option.bind_eq_some_iff] at hpulled
    obtain ⟨row', hrow', hpulled⟩ := hpulled
    obtain ⟨⟨hurl', -⟩, htime, hgenerated⟩ := EvidenceSource.pulled_eq_some_iff.1 hpulled
    exact ⟨row', hrow', hurl', htime, hgenerated⟩
  by_cases himported : ∃ id row, sources.rows.lookup id = some row ∧ row.url = some url ∧
      row.lastImportAt.isSome = true
  · obtain ⟨id, row, hrow, hurl, hsome⟩ := himported
    obtain ⟨id, row, hnewest⟩ := exists_newest hrow hurl hsome
    obtain ⟨row', hrow', hurl', htime, hgenerated⟩ :=
      hcarry h id row hnewest.stored hnewest.ofUrl hnewest.imported
    have hnewest' : Newest url sources' id row' := by
      refine ⟨hrow', hurl', by rw [htime]; exact hnewest.imported, fun id₁ row₁ h₁ hurl₁ hsome₁ => ?_⟩
      obtain ⟨row₀, hrow₀, hurl₀, htime₀, -⟩ :=
        hcarry (fun id => (h id).symm) id₁ row₁ h₁ hurl₁ hsome₁
      have hle := hnewest.last id₁ row₀ hrow₀ hurl₀ (by rw [htime₀]; exact hsome₁)
      rw [importKey, importKey] at hle ⊢
      dsimp only at hle ⊢
      rw [← htime₀, htime]
      exact hle
    rw [lastGeneratedAt_of_newest hnewest, lastGeneratedAt_of_newest hnewest', hgenerated]
  · have hnone : ∀ id row, sources.rows.lookup id = some row → row.pulled url = none :=
      fun id row hrow => if_neg fun hboth => himported ⟨id, row, hrow, hboth⟩
    rw [lastGeneratedAt_of_none hpristine hnone]
    refine lastGeneratedAt_of_none hpristine' fun id row' hrow' => ?_
    have hsame := h id
    rw [hrow', Option.bind_some] at hsame
    rw [hsame, Option.bind_eq_none_iff]
    exact hnone id

end Source

/-! ### A failure -/

section Failure

variable {url url' : String} {sources : Sources} {db db' : EvidenceDb}

/-- What a failure leaves of the sources: what may be pulled next. -/
structure KeepsPulls (sources sources' : Sources) : Prop where
  pulled : ∀ url id, (sources'.rows.lookup id).bind (EvidenceSource.pulled url) =
    (sources.rows.lookup id).bind (EvidenceSource.pulled url)
  pristine : Pristine sources → Pristine sources'

theorem KeepsPulls.refl (sources : Sources) : KeepsPulls sources sources := ⟨fun _ _ => rfl, id⟩

theorem KeepsPulls.trans {s₁ s₂ s₃ : Sources} (h₁ : KeepsPulls s₁ s₂) (h₂ : KeepsPulls s₂ s₃) :
    KeepsPulls s₁ s₃ :=
  ⟨fun url id => (h₂.pulled url id).trans (h₁.pulled url id), fun h => h₂.pristine (h₁.pristine h)⟩

theorem keepsPulls_mapRows {sources' : Sources} {f : SourceId → EvidenceSource → EvidenceSource}
    (hrows : sources'.rows = sources.rows.mapRows f) (hurl : ∀ k row, (f k row).url = row.url)
    (htime : ∀ k row, (f k row).lastImportAt = row.lastImportAt)
    (hgenerated : ∀ k row, (f k row).generatedAt = row.generatedAt) :
    KeepsPulls sources sources' := by
  constructor
  · intro url id
    rw [hrows, Table.lookup_mapRows]
    cases sources.rows.lookup id with
    | none => rfl
    | some row =>
        rw [Option.map_some, Option.bind_some, Option.bind_some, EvidenceSource.pulled,
          EvidenceSource.pulled, hurl, htime, hgenerated]
  · intro hpristine id row hrow hnone
    rw [hrows, Table.lookup_mapRows, Option.map_eq_some_iff] at hrow
    obtain ⟨row, hrow, rfl⟩ := hrow
    rw [htime] at hnone
    rw [hgenerated]
    exact hpristine id row hrow hnone

theorem keepsPulls_recordSourceFailure {status reason : String} {now : Instant}
    (h : recordSourceFailure url status reason now db = .ok db') :
    KeepsPulls db.sources db'.sources ∧ db'.evidence = db.evidence ∧
      db'.registry = db.registry ∧ db'.adapters = db.adapters := by
  rw [recordSourceFailure] at h
  cases hfound : sourceForUrl url db.sources with
  | some e =>
      simp only [hfound, Except.ok.injEq] at h
      subst h
      refine ⟨?_, rfl, rfl, rfl⟩
      exact keepsPulls_mapRows
        (f := fun k row => if k = e.1 then row.failed status reason else row) rfl
        (fun k row => by split <;> rfl) (fun k row => by split <;> rfl)
        (fun k row => by split <;> rfl)
  | none =>
      simp only [hfound] at h
      by_cases hfresh : db.sources.find url = none
      · rw [dif_pos hfresh, Except.ok.injEq] at h
        subst h
        refine ⟨⟨fun url' id => ?_, fun hpristine id row hrow hnone => ?_⟩, rfl, rfl, rfl⟩
        · -- the row that is added has imported nothing
          by_cases hid : id = freshId db.sources.rows
          · have hnone : db.sources.rows.lookup (freshId db.sources.rows) = none :=
              AList.lookup_eq_none.2 (freshId_notMem _)
            rw [hid, Indexed.put, AList.lookup_insert, hnone]
            exact if_neg fun hboth => by cases hboth.2
          · rw [Indexed.put, AList.lookup_insert_ne hid]
        · by_cases hid : id = freshId db.sources.rows
          · rw [hid, Indexed.put, AList.lookup_insert] at hrow
            cases hrow
            rfl
          · rw [Indexed.put, AList.lookup_insert_ne hid] at hrow
            exact hpristine id row hrow hnone
      · rw [dif_neg hfresh] at h
        cases h

theorem keepsPulls_markSourceUnreachable (reason : String) :
    KeepsPulls db.sources (markSourceUnreachable url reason db).1.sources := by
  rw [markSourceUnreachable]
  cases hfound : sourceForUrl url db.sources with
  | none => exact .refl _
  | some e =>
      exact keepsPulls_mapRows
        (f := fun k row => if k = e.1 then row.failed "unreachable" reason else row) rfl
        (fun k row => by split <;> rfl) (fun k row => by split <;> rfl)
        (fun k row => by split <;> rfl)

/-- A row that keeps everything but its badge, which may come to say that the source could not be
reached; a superseded row keeps that as well. -/
structure EvidenceRow.Badged (row row' : EvidenceRow) : Prop where
  same : { row' with staleness := row.staleness } = row
  badge : row'.staleness = row.staleness ∨
    row.staleness.reason ≠ some .superseded ∧ row'.staleness = ⟨true, some .sourceUnreachable⟩

theorem EvidenceRow.Badged.refl (row : EvidenceRow) : row.Badged row := ⟨rfl, .inl rfl⟩

theorem EvidenceRow.Badged.trans {r₁ r₂ r₃ : EvidenceRow} (h₁ : r₁.Badged r₂) (h₂ : r₂.Badged r₃) :
    r₁.Badged r₃ := by
  constructor
  · rw [← h₁.same, ← h₂.same]
  · rcases h₂.badge with hkept | ⟨hfresh, hbadge⟩
    · rw [hkept]
      exact h₁.badge
    · rcases h₁.badge with hkept | ⟨hfresh', -⟩
      · exact .inr ⟨hkept ▸ hfresh, hbadge⟩
      · exact .inr ⟨hfresh', hbadge⟩

/-- The evidence stands, but for the badges. -/
def KeepsEvidence (db db' : EvidenceDb) : Prop :=
  ∀ key, Option.Rel EvidenceRow.Badged (db.evidence.lookup key) (db'.evidence.lookup key)

theorem KeepsEvidence.of_eq (h : db'.evidence = db.evidence) : KeepsEvidence db db' := by
  intro key
  rw [h]
  cases db.evidence.lookup key with
  | none => exact .none
  | some row => exact .some (.refl row)

theorem KeepsEvidence.trans {db₁ db₂ db₃ : EvidenceDb} (h₁ : KeepsEvidence db₁ db₂)
    (h₂ : KeepsEvidence db₂ db₃) : KeepsEvidence db₁ db₃ := by
  intro key
  have h₁ := h₁ key
  have h₂ := h₂ key
  revert h₁ h₂
  generalize db₁.evidence.lookup key = r₁
  generalize db₂.evidence.lookup key = r₂
  generalize db₃.evidence.lookup key = r₃
  intro h₁ h₂
  cases h₁ with
  | none => exact h₂
  | some h₁ =>
      cases h₂ with
      | some h₂ => exact .some (h₁.trans h₂)

theorem keepsEvidence_markSourceUnreachable (reason : String) :
    KeepsEvidence db (markSourceUnreachable url reason db).1 := by
  cases hfound : sourceForUrl url db.sources with
  | none =>
      rw [markSourceUnreachable, hfound]
      exact .of_eq rfl
  | some e =>
      intro key
      rw [lookup_markSourceUnreachable hfound]
      cases db.evidence.lookup key with
      | none => exact .none
      | some row =>
          refine .some ?_
          rw [EvidenceRow.unreached]
          split
          · rename_i hbadged
            exact ⟨rfl, .inr ⟨hbadged.2, rfl⟩⟩
          · exact .refl row

/-- What a refresh that fails leaves as it was. -/
structure Degraded (db db' : EvidenceDb) : Prop where
  evidence : KeepsEvidence db db'
  pulls : KeepsPulls db.sources db'.sources
  registry : db'.registry = db.registry
  adapters : db'.adapters = db.adapters

theorem Degraded.refl (db : EvidenceDb) : Degraded db db := ⟨.of_eq rfl, .refl _, rfl, rfl⟩

theorem Degraded.trans {db₁ db₂ db₃ : EvidenceDb} (h₁ : Degraded db₁ db₂) (h₂ : Degraded db₂ db₃) :
    Degraded db₁ db₃ :=
  ⟨h₁.evidence.trans h₂.evidence, h₁.pulls.trans h₂.pulls, h₂.registry.trans h₁.registry,
    h₂.adapters.trans h₁.adapters⟩

theorem degraded_recordFailed (url status reason : String) (now : Instant) (db : EvidenceDb) :
    Degraded db (recordFailed url status reason now db).1 := by
  rw [recordFailed]
  cases hrecorded : recordSourceFailure url status reason now db with
  | ok db' =>
      obtain ⟨hpulls, hevidence, hregistry, hadapters⟩ := keepsPulls_recordSourceFailure hrecorded
      exact ⟨.of_eq hevidence, hpulls, hregistry, hadapters⟩
  | error e => exact .refl db

theorem recordFailed_ne_ok (url status reason : String) (now : Instant) (db : EvidenceDb)
    (outcome : ImportOutcome) : (recordFailed url status reason now db).2 ≠ .ok (some outcome) := by
  rw [recordFailed]
  cases recordSourceFailure url status reason now db with
  | ok db' => simp
  | error e => simp

theorem degraded_markSourceUnreachable (url reason : String) (db : EvidenceDb) :
    Degraded db (markSourceUnreachable url reason db).1 := by
  refine ⟨keepsEvidence_markSourceUnreachable reason, keepsPulls_markSourceUnreachable reason, ?_,
    ?_⟩ <;>
  · rw [markSourceUnreachable]
    cases sourceForUrl url db.sources with
    | none => rfl
    | some e => rfl

variable {validate : Json → Except (List String) EvidenceRecord}

/-- **A refresh either imports the bundle it was sent or is a degradation.** -/
theorem refreshFromFreeweight_cases (url : String) (fetched : Fetched) (now : Instant)
    (current : Environment) (db : EvidenceDb) :
    (∃ envelope db' outcome, fetched = .document (.ok envelope) ∧
      importBundle validate envelope "freeweight_api" (some url) now current db =
        .ok (db', outcome) ∧
      refreshFromFreeweight validate url fetched now current db = (db', .ok (some outcome))) ∨
    Degraded db (refreshFromFreeweight validate url fetched now current db).1 ∧
      ∀ outcome, (refreshFromFreeweight validate url fetched now current db).2 ≠
        .ok (some outcome) := by
  cases fetched with
  | refused reason => exact .inr ⟨degraded_recordFailed _ _ _ _ _, recordFailed_ne_ok _ _ _ _ _⟩
  | incompatible reason => exact .inr ⟨degraded_recordFailed _ _ _ _ _, recordFailed_ne_ok _ _ _ _ _⟩
  | unreachable reason =>
      refine .inr ⟨(degraded_markSourceUnreachable url reason db).trans ?_,
        recordFailed_ne_ok _ _ _ _ _⟩
      exact degraded_recordFailed _ _ _ _ _
  | document envelope =>
      cases himported : envelope.bind fun envelope =>
          importBundle validate envelope "freeweight_api" (some url) now current db with
      | ok result =>
          left
          cases envelope with
          | error e => cases himported
          | ok envelope =>
              refine ⟨envelope, result.1, result.2, rfl, himported, ?_⟩
              rw [refreshFromFreeweight, importFetched]
              simp only [himported]
      | error e =>
          right
          rw [refreshFromFreeweight, importFetched]
          simp only [himported]
          cases e with
          | suite code message details =>
              dsimp only
              cases hfailed : recordSourceFailure url "failed" message now db with
              | ok db' =>
                  obtain ⟨hpulls, hevidence, hregistry, hadapters⟩ :=
                    keepsPulls_recordSourceFailure hfailed
                  exact ⟨⟨.of_eq hevidence, hpulls, hregistry, hadapters⟩, by simp⟩
              | error e => exact ⟨.refl db, by simp⟩
          | _ => exact ⟨.refl db, by simp⟩

end Failure

/-! ### Runs -/

/-- What is done to the evidence store. -/
inductive StoreAction where
  | refresh (url : String) (fetched : Fetched) (now : Instant) (current : Environment)
  | importBundle (envelope : EvidenceEnvelope) (kind : String) (url : Option String)
      (now : Instant) (current : Environment)
  /-- Anything else: discovery, the binding of rows that are there. -/
  | elsewhere (db : EvidenceDb)

/-- When it is done. -/
def StoreAction.at? : StoreAction → Option Instant
  | .refresh _ _ now _ | .importBundle _ _ _ now _ => some now
  | .elsewhere _ => none

/-- Every import so far into a row of the URL was earlier. -/
def Later (url : String) (now : Instant) (sources : Sources) : Prop :=
  ∀ id row, sources.rows.lookup id = some row → row.url = some url →
    ∀ t ∈ row.lastImportAt, t < now

instance (url : String) (now : Instant) (sources : Sources) : Decidable (Later url now sources) :=
  inferInstanceAs (Decidable (∀ id row, sources.rows.lookup id = some row → row.url = some url →
    ∀ t ∈ row.lastImportAt, t < now))

section Runs

variable (validate : Json → Except (List String) EvidenceRecord)

/-- What it does, and what comes of it. -/
def StoreAction.run : StoreAction → EvidenceDb → EvidenceDb × Except Raised (Option ImportOutcome)
  | .refresh url fetched now current, db =>
      refreshFromFreeweight validate url fetched now current db
  | .importBundle envelope kind url now current, db =>
      match LoadCoach.Registry.importBundle validate envelope kind url now current db with
      | .ok (db, outcome) => (db, .ok (some outcome))
      | .error e => (db, .error e)
  | .elsewhere db', db => ({ db' with sources := db.sources }, .ok none)

/-- The evidence store from a state on. -/
def storeSystem (start : EvidenceDb) : System EvidenceDb StoreAction :=
  .guarded (fun _ _ => True) (fun db action => (action.run validate db).1) start

/-- When the bundle was generated that a step imported into a row of the URL, if it did. -/
def importedFor (url : String) (e : Step EvidenceDb StoreAction) : Option (Option Instant) :=
  match (e.act.run validate e.pre).2 with
  | .ok (some outcome) =>
      if (e.post.sources.rows.lookup outcome.sourceRowId).bind EvidenceSource.url = some url then
        some outcome.generatedAt
      else none
  | _ => none

/-- An import for the URL is later than every one before it. -/
def ImportsLater (url : String) (e : Step EvidenceDb StoreAction) : Prop :=
  importedFor validate url e ≠ none → ∀ now ∈ e.act.at?, Later url now e.pre.sources

instance (url : String) (e : Step EvidenceDb StoreAction) :
    Decidable (ImportsLater validate url e) :=
  inferInstanceAs (Decidable (_ → _))

/-- When the bundle was generated that was imported last. -/
def lastImported (start : EvidenceDb) (url : String) :
    List (Step EvidenceDb StoreAction) → Option Instant
  | [] => lastGeneratedAt url start.sources
  | e :: h => (importedFor validate url e).getD (lastImported start url h)

end Runs

/-- No row of the URL is taken to another one, as an import of its producer from there does. -/
def KeepsUrl (url : String) (e : Step EvidenceDb StoreAction) : Prop :=
  ∀ id row, e.pre.sources.rows.lookup id = some row → row.url = some url →
    (e.post.sources.rows.lookup id).bind EvidenceSource.url = some url

instance (url : String) (e : Step EvidenceDb StoreAction) : Decidable (KeepsUrl url e) :=
  inferInstanceAs (Decidable (∀ id row, e.pre.sources.rows.lookup id = some row →
    row.url = some url → (e.post.sources.rows.lookup id).bind EvidenceSource.url = some url))

section Runs

variable {validate : Json → Except (List String) EvidenceRecord} {url : String}
  {h : List (Step EvidenceDb StoreAction)} {start db db' : EvidenceDb}

theorem sources_importBundle {envelope : EvidenceEnvelope} {kind : String} {reported : Option String}
    {now : Instant} {current : Environment} {outcome : ImportOutcome}
    (himport : importBundle validate envelope kind reported now current db = .ok (db', outcome)) :
    (∃ row, db'.sources.rows.lookup outcome.sourceRowId = some row ∧
      row.lastImportAt = some now ∧ row.generatedAt = outcome.generatedAt) ∧
    ∀ id, id ≠ outcome.sourceRowId →
      db'.sources.rows.lookup id = db.sources.rows.lookup id := by
  cases hbundle : bundleOf envelope.payload with
  | error e =>
      rw [importBundle, hbundle] at himport
      cases himport
  | ok bundle =>
      obtain ⟨sourceKey, complete, raws⟩ := bundle
      rw [importBundle_eq_ok hbundle, Except.ok.injEq] at himport
      have hdb := congrArg Prod.fst himport
      have houtcome := congrArg Prod.snd himport
      dsimp only at hdb houtcome
      subst hdb houtcome
      constructor
      · rw [writeBundle]
        dsimp only
        rw [Indexed.mapRows, Table.lookup_mapRows, upsertSource, Indexed.put, AList.lookup_insert,
          Option.map_some, if_pos rfl]
        exact ⟨_, rfl, rfl, rfl⟩
      · intro id hid
        rw [writeBundle] at hid ⊢
        dsimp only at hid ⊢
        rw [Indexed.mapRows, Table.lookup_mapRows, upsertSource, Indexed.put,
          AList.lookup_insert_ne hid]
        cases db.sources.rows.lookup id with
        | none => rfl
        | some row => rw [Option.map_some, if_neg hid]

/-- **A step imports a bundle or leaves what may be pulled next.** -/
theorem storeSystem_step (e : Step EvidenceDb StoreAction)
    (hnext : (storeSystem validate start).next e.pre e.act e.post) :
    (∃ outcome now row, (e.act.run validate e.pre).2 = .ok (some outcome) ∧
      now ∈ e.act.at? ∧ e.post.sources.rows.lookup outcome.sourceRowId = some row ∧
      row.lastImportAt = some now ∧ row.generatedAt = outcome.generatedAt ∧
      ∀ id, id ≠ outcome.sourceRowId →
        e.post.sources.rows.lookup id = e.pre.sources.rows.lookup id) ∨
    KeepsPulls e.pre.sources e.post.sources ∧
      ∀ outcome, (e.act.run validate e.pre).2 ≠ .ok (some outcome) := by
  obtain ⟨pre, action, post⟩ := e
  obtain ⟨-, hpost⟩ := hnext
  dsimp only at hpost ⊢
  cases action with
  | refresh url fetched now current =>
      rcases refreshFromFreeweight_cases url fetched now current pre with
        ⟨envelope, db', outcome, -, himport, hrun⟩ | ⟨hdegraded, hnone⟩
      · left
        have hdb : post = db' := hpost.trans (congrArg Prod.fst hrun)
        obtain ⟨⟨row, hrow, htime, hgenerated⟩, hother⟩ := sources_importBundle himport
        rw [hdb]
        exact ⟨outcome, now, row, congrArg Prod.snd hrun, rfl, hrow, htime, hgenerated, hother⟩
      · right
        rw [hpost]
        exact ⟨hdegraded.pulls, hnone⟩
  | importBundle envelope kind reported now current =>
      cases himport : importBundle validate envelope kind reported now current pre with
      | ok result =>
          left
          have hdb : post = result.1 := by
            rw [hpost, StoreAction.run, himport]
          obtain ⟨⟨row, hrow, htime, hgenerated⟩, hother⟩ := sources_importBundle himport
          rw [hdb]
          refine ⟨result.2, now, row, ?_, rfl, hrow, htime, hgenerated, hother⟩
          rw [StoreAction.run, himport]
      | error e =>
          right
          rw [hpost, StoreAction.run, himport]
          exact ⟨.refl _, by simp⟩
  | elsewhere other =>
      right
      rw [hpost]
      exact ⟨.refl _, by simp [StoreAction.run]⟩

theorem pristine_of_run (hstart : Pristine start.sources)
    (hrun : Run (storeSystem validate start) h db) : Pristine db.sources := by
  refine hrun.invariant (P := fun db => Pristine db.sources) ?_ ?_
  · intro db hdb
    rw [show db = start from hdb]
    exact hstart
  · intro pre action post hnext hpristine
    rcases storeSystem_step ⟨pre, action, post⟩ hnext with
      ⟨outcome, now, row, -, -, hrow, htime, -, hother⟩ | ⟨hkeeps, -⟩
    · intro id row' hrow' hnone
      by_cases hid : id = outcome.sourceRowId
      · rw [hid, hrow, Option.some.injEq] at hrow'
        rw [← hrow', htime] at hnone
        cases hnone
      · rw [hother id hid] at hrow'
        exact hpristine id row' hrow' hnone
    · exact hkeeps.pristine hpristine

/-- **One step of what is asked for next.** -/
theorem lastGeneratedAt_step (e : Step EvidenceDb StoreAction)
    (hnext : (storeSystem validate start).next e.pre e.act e.post) (hurl : KeepsUrl url e)
    (hlater : ImportsLater validate url e) (hpristine : Pristine e.pre.sources)
    (hpristine' : Pristine e.post.sources) :
    lastGeneratedAt url e.post.sources =
      (importedFor validate url e).getD (lastGeneratedAt url e.pre.sources) := by
  rcases storeSystem_step e hnext with
    ⟨outcome, now, row, hresult, hnow, hrow, htime, hgenerated, hother⟩ | ⟨hkeeps, hnone⟩
  · rw [ImportsLater, importedFor, hresult] at hlater
    rw [importedFor, hresult]
    dsimp only at hlater ⊢
    rw [hrow, Option.bind_some] at hlater ⊢
    by_cases hof : row.url = some url
    · rw [if_pos hof] at hlater
      rw [if_pos hof, Option.getD_some, ← hgenerated]
      refine lastGeneratedAt_of_newest ⟨hrow, hof, by rw [htime]; rfl, ?_⟩
      intro id' row' hrow' hof' himported
      by_cases hid : id' = outcome.sourceRowId
      · rw [hid, hrow, Option.some.injEq] at hrow'
        rw [hid, hrow']
      · -- every other row imported earlier
        obtain ⟨t, ht⟩ := Option.isSome_iff_exists.1 himported
        have hearlier : t < now := hlater (Option.some_ne_none _) now hnow id' row'
          ((hother id' hid).symm.trans hrow') hof' t ht
        rw [importKey, importKey, ht, htime]
        exact (Prod.Lex.toLex_le_toLex.2 (.inl hearlier))
    · rw [if_neg hof, Option.getD_none]
      refine lastGeneratedAt_congr hpristine hpristine' fun id => ?_
      by_cases hid : id = outcome.sourceRowId
      · -- the row is none of the URL's, and so it was before
        rw [hid, hrow, Option.bind_some, EvidenceSource.pulled, if_neg fun hboth => hof hboth.1,
          eq_comm, Option.bind_eq_none_iff]
        intro before hbefore
        refine if_neg fun hboth => hof ?_
        have hafter := hurl outcome.sourceRowId before hbefore hboth.1
        rwa [hrow, Option.bind_some] at hafter
      · rw [hother id hid]
  · have himported : importedFor validate url e = none := by
      rw [importedFor]
      split
      · rename_i outcome hresult
        exact absurd hresult (hnone outcome)
      · rfl
    rw [himported, Option.getD_none]
    exact lastGeneratedAt_congr hpristine hpristine' (hkeeps.pulled url)

/-- **What is asked for next**: in every run in which no row of a URL is taken to another and the
imports for it are one later than the other, the instant the last bundle imported for the URL was
generated at, whatever failed since. -/
theorem lastGeneratedAt_eq (hstart : Pristine start.sources)
    (hrun : Run (storeSystem validate start) h db) (hurl : ∀ e ∈ h, KeepsUrl url e)
    (hlater : ∀ e ∈ h, ImportsLater validate url e) :
    lastGeneratedAt url db.sources = lastImported validate start url h := by
  induction hrun with
  | start hdb =>
      have hdb : _ = start := hdb
      rw [lastImported, hdb]
  | @step h pre post action hpast hnext ih =>
      rw [lastImported, ← ih (fun e he => hurl e (List.mem_cons_of_mem _ he)) fun e he =>
        hlater e (List.mem_cons_of_mem _ he)]
      exact lastGeneratedAt_step ⟨pre, action, post⟩ hnext (hurl _ List.mem_cons_self)
        (hlater _ List.mem_cons_self) (pristine_of_run hstart hpast)
        (pristine_of_run hstart (hpast.step hnext))

/-- The source is not allowed, then serves a bundle, then cannot be reached; a file of its producer
is imported last. -/
def pulledOnce : List StoreAction :=
  [.refresh "http://fw" (.refused "not allowed") 10 [],
   .refresh "http://fw" (.document (.ok { bundleEnvelope true [] with generatedAt := some 5 })) 20 [],
   .refresh "http://fw" (.unreachable "timed out") 30 [],
   .importBundle { bundleEnvelope true [] with generatedAt := some 9 } "file" none 40 []]

theorem lastGeneratedAt_eq_pulledOnce :
    let read := StoreAction.run fun _ => .error ["score"]
    lastGeneratedAt "http://fw" (pulledOnce.foldl (fun db a => (read a db).1) {}).sources =
      some 9 := by
  have hrun : Run (storeSystem (fun _ => .error ["score"]) {}) _ _ :=
    .replay (l := pulledOnce) ⟨trivial, trivial, trivial, trivial, trivial⟩
  refine (lastGeneratedAt_eq (by decide +kernel) hrun (forall_mem_trace ?_)
    (forall_mem_trace ?_)).trans (by decide +kernel)
  · exact ⟨by decide +kernel, by decide +kernel, by decide +kernel, by decide +kernel, trivial⟩
  · exact ⟨by decide +kernel, by decide +kernel, by decide +kernel, by decide +kernel, trivial⟩

/-- A refresh that brings nothing. -/
def Fails (validate : Json → Except (List String) EvidenceRecord)
    (e : Step EvidenceDb StoreAction) : Prop :=
  (∃ url fetched now current, e.act = .refresh url fetched now current) ∧
    ∀ outcome, (e.act.run validate e.pre).2 ≠ .ok (some outcome)

/-- **Failing refreshes lose nothing**: however many there are, of whatever URLs and for whatever
reasons, the evidence stands but for its badges, the registry is as it was, and so is what is asked
for next, of every URL. -/
theorem failures_keep (hstart : Pristine start.sources)
    (hrun : Run (storeSystem validate start) h db) (hfails : ∀ e ∈ h, Fails validate e) :
    KeepsEvidence start db ∧ db.registry = start.registry ∧ db.adapters = start.adapters ∧
      ∀ url, lastGeneratedAt url db.sources = lastGeneratedAt url start.sources := by
  have hdegraded : Degraded start db := by
    refine hrun.invariant_of_steps (P := Degraded start) ?_ ?_ hfails
    · intro db hdb
      rw [show db = start from hdb]
      exact .refl start
    · rintro ⟨pre, action, post⟩ ⟨-, hpost⟩ ⟨⟨url, fetched, now, current, haction⟩, hnone⟩ hpast
      dsimp only at hpost hnone haction hpast ⊢
      subst haction
      rw [hpost]
      refine hpast.trans ?_
      rcases refreshFromFreeweight_cases url fetched now current pre with
        ⟨envelope, db', outcome, -, -, hrun⟩ | ⟨hdegraded, -⟩
      · exact absurd (congrArg Prod.snd hrun) (hnone outcome)
      · exact hdegraded
  refine ⟨hdegraded.evidence, hdegraded.registry, hdegraded.adapters, fun url => ?_⟩
  exact lastGeneratedAt_congr hstart (hdegraded.pulls.pristine hstart) (hdegraded.pulls.pulled url)

/-- A row and its source, which imported a bundle. -/
def importedStore : EvidenceDb where
  sources := Indexed.single 1
    { sourceKey := "fw", kind := "freeweight_api", url := some "http://fw", createdAt := 0
      lastImportAt := some 0, generatedAt := some 5 }
  evidence := AList.insert scoredKey scoredRow ∅

/-- The source cannot be reached, and another one does not speak the version. -/
def failedTwice : List StoreAction :=
  [.refresh "http://fw" (.unreachable "timed out") 10 [],
   .refresh "http://other" (.incompatible "major 2") 20 []]

theorem failures_keep_failedTwice :
    let run := StoreAction.run fun _ => .error ["score"]
    let db := failedTwice.foldl (fun db a => (run a db).1) importedStore
    KeepsEvidence importedStore db ∧ lastGeneratedAt "http://fw" db.sources = some 5 := by
  have hrun : Run (storeSystem (fun _ => .error ["score"]) importedStore) _ _ :=
    .replay (l := failedTwice) ⟨trivial, trivial, trivial⟩
  obtain ⟨hkept, -, -, hpulls⟩ := failures_keep (by decide +kernel) hrun (forall_mem_trace
    ⟨⟨⟨_, _, _, _, rfl⟩, recordFailed_ne_ok _ _ _ _ _⟩,
      ⟨⟨_, _, _, _, rfl⟩, recordFailed_ne_ok _ _ _ _ _⟩, trivial⟩)
  exact ⟨hkept, (hpulls "http://fw").trans (by decide +kernel)⟩

end Runs

end LoadCoach.Registry

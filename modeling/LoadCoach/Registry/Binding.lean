import LoadCoach.Foundations.Transition
import LoadCoach.Registry.Records
import LoadCoach.Registry.Resolution

/-! # Evidence and the registry it is bound to

Every stored row carries what its subject resolved to (`Correct`).  An import fills these columns
in one loop over its records, which gives name-only rows of the registry their digests on the way,
so that a row bound earlier in the loop may end bound to what the registry no longer says.

* `BindsInAnyOrder.settles`, `bindsInAnyOrder_of_settles`: an import binds every row right,
  whatever the order of its records, exactly when no record takes away the name-only row that a
  record of another key, or a row the bundle does not carry, is bound to. -/

namespace LoadCoach.Registry

open Foundations
open Routing (MatchState)

/-! ### Rows that are bound right -/

/-- What the columns of a row say its subject resolves to. -/
def EvidenceRow.resolution (row : EvidenceRow) : MatchState × Option ModelId × Option AdapterId :=
  (row.matchState, row.modelId, row.adapterId)

/-- A row's subject, and what its columns say it resolves to. -/
def EvidenceRow.bound (key : EvidenceKey) (row : EvidenceRow) :
    EvidenceIdentity × MatchState × Option ModelId × Option AdapterId :=
  (row.identity key, row.resolution)

/-- What the rows of a key say. -/
def EvidenceDb.boundAt (db : EvidenceDb) (key : EvidenceKey) :
    Option (EvidenceIdentity × MatchState × Option ModelId × Option AdapterId) :=
  (db.evidence.lookup key).map (EvidenceRow.bound key)

/-- What a subject resolves to in the registry as it is. -/
def EvidenceDb.resolves (db : EvidenceDb) (x : EvidenceIdentity) :
    MatchState × Option ModelId × Option AdapterId :=
  resolution db.adapters db.registry.models x

/-- **Every row is bound** as its subject resolves in the registry. -/
def Correct (db : EvidenceDb) : Prop :=
  ∀ key b, db.boundAt key = some b → b.2 = db.resolves b.1

/-! ### The record loop -/

section Loop

variable (sourceId : SourceId)

/-- The records that are written: the first of each key. -/
def firstsOf : List EvidenceKey → List (ℕ × EvidenceRecord) → List EvidenceRecord
  | _, [] => []
  | seen, e :: l =>
      if e.2.key sourceId ∈ seen then firstsOf seen l
      else e.2 :: firstsOf (e.2.key sourceId :: seen) l

variable {sourceId} {seen : List EvidenceKey} {l l₁ l₂ : List (ℕ × EvidenceRecord)}
  {e : ℕ × EvidenceRecord} {r : EvidenceRecord}

theorem mem_firstsOf (h : r ∈ firstsOf sourceId seen l) :
    (∃ e ∈ l, e.2 = r) ∧ r.key sourceId ∉ seen := by
  induction l generalizing seen with
  | nil => cases h
  | cons e l ih =>
      rw [firstsOf] at h
      split at h
      · obtain ⟨⟨e', he', rfl⟩, hseen⟩ := ih h
        exact ⟨⟨e', List.mem_cons_of_mem _ he', rfl⟩, hseen⟩
      · rename_i hfresh
        rcases List.mem_cons.1 h with rfl | h
        · exact ⟨⟨e, List.mem_cons_self, rfl⟩, hfresh⟩
        · obtain ⟨⟨e', he', rfl⟩, hseen⟩ := ih h
          exact ⟨⟨e', List.mem_cons_of_mem _ he', rfl⟩, fun hin =>
            hseen (List.mem_cons_of_mem _ hin)⟩

theorem eq_of_mem_firstsOf (hbefore : ∀ e' ∈ l₁, e'.2.key sourceId ≠ e.2.key sourceId)
    (hmem : r ∈ firstsOf sourceId seen (l₁ ++ e :: l₂)) (hkey : r.key sourceId = e.2.key sourceId) :
    r = e.2 := by
  induction l₁ generalizing seen with
  | nil =>
      rw [List.nil_append, firstsOf] at hmem
      split at hmem
      · rename_i hin
        exact absurd (hkey ▸ hin) (mem_firstsOf hmem).2
      · rcases List.mem_cons.1 hmem with heq | hmem
        · exact heq
        · exact absurd (hkey ▸ List.mem_cons_self) (mem_firstsOf hmem).2
  | cons e' l₁ ih =>
      have hrest := fun e'' he'' => hbefore e'' (List.mem_cons_of_mem _ he'')
      rw [List.cons_append, firstsOf] at hmem
      split at hmem
      · exact ih hrest hmem
      · rcases List.mem_cons.1 hmem with rfl | hmem
        · exact absurd hkey (hbefore e' List.mem_cons_self)
        · exact ih hrest hmem

variable {adapters : Adapters} {existingKeys : List EvidenceKey} {now : Instant}
  {current : Environment} {st : Importing} {models : Models} {before : List EvidenceIdentity}

/-- **The loop binds the first record of each key**, one after the other. -/
theorem bound_importLoop (h : Bound adapters models before st.models) :
    Bound adapters models
      (before ++ (firstsOf sourceId st.seenKeys l).map EvidenceRecord.identity)
      (importLoop sourceId adapters existingKeys now current st l).models := by
  induction l generalizing st before with
  | nil => simpa [firstsOf] using h
  | cons e l ih =>
      rw [importLoop, List.foldl_cons, ← importLoop, firstsOf]
      split
      · rename_i hseen
        have hsame := @importRecord_of_seen sourceId adapters existingKeys now current st e hseen
        have hnext := @ih _ before (hsame.1 ▸ h)
        rwa [hsame.2.2] at hnext
      · rename_i hfresh
        have hone := @importRecord_of_fresh sourceId adapters existingKeys now current st e hfresh
        have hnext := @ih _ (before ++ [e.2.identity]) (hone.1 ▸ h.snoc _)
        rw [hone.2.2] at hnext
        simpa using hnext

theorem bound_importLoop_start (h : st.seenKeys = []) :
    Bound adapters st.models ((firstsOf sourceId [] l).map EvidenceRecord.identity)
      (importLoop sourceId adapters existingKeys now current st l).models := by
  have hempty : Bound adapters st.models [] st.models := rfl
  simpa [h] using bound_importLoop hempty

end Loop

/-! ### Importing a bundle -/

theorem EvidenceRecord.identity_row (r : EvidenceRecord) (sourceId : SourceId) (binding : Binding)
    (now : Instant) (current : Environment) :
    (r.row binding now current).identity (r.key sourceId) = r.identity := by
  obtain ⟨_, _, adapter, _, _, _, _, _, _, _⟩ := r
  cases adapter with
  | none => rfl
  | some adapter =>
      simp [EvidenceRow.identity, EvidenceRecord.row, EvidenceRecord.key, EvidenceRecord.identity,
        adapter.nonempty]

section Bundle

variable {report : SourceReport} {validated : List (ℕ × EvidenceRecord)}
  {rejected : List RejectedRecord} {complete : Bool} {total : ℕ} {now : Instant}
  {current : Environment} {db : EvidenceDb} {key : EvidenceKey}

theorem boundAt_writeBundle :
    (writeBundle report validated rejected complete total now current db).1.boundAt key =
      ((importRecords (sourceRowId report db.sources) validated rejected now current
        db).evidence.lookup key).map (EvidenceRow.bound key) := by
  simp only [EvidenceDb.boundAt, writeBundle, supersede, clearUnreachable, Table.lookup_mapRows,
    Option.map_map]
  refine congrArg (fun f => Option.map f _) (funext fun row => ?_)
  have hreached : (row.reached (sourceRowId report db.sources) now key).bound key =
      row.bound key := by
    rw [EvidenceRow.reached]
    split <;> rfl
  rw [← hreached]
  dsimp only [Function.comp_apply]
  rw [apply_ite (EvidenceRow.bound key)]
  exact ite_self _

theorem boundAt_writeBundle_of_notMem
    (h : ∀ e ∈ validated, e.2.key (sourceRowId report db.sources) ≠ key) :
    (writeBundle report validated rejected complete total now current db).1.boundAt key =
      db.boundAt key := by
  rw [boundAt_writeBundle, lookup_importRecords_of_notMem h, EvidenceDb.boundAt]

theorem bound_writeBundle :
    Bound db.adapters db.registry.models
      ((firstsOf (sourceRowId report db.sources) [] validated).map EvidenceRecord.identity)
      (writeBundle report validated rejected complete total now current db).1.registry.models :=
  bound_importLoop_start rfl

theorem resolves_writeBundle {y : EvidenceIdentity}
    (h : ∀ r ∈ firstsOf (sourceRowId report db.sources) [] validated,
      ¬ Disturbs db.adapters db.registry.models r.identity y) :
    (writeBundle report validated rejected complete total now current db).1.resolves y =
      db.resolves y := by
  have hbound := @bound_writeBundle report validated rejected complete total now current db
  have hsame := hbound.resolution_eq fun x hx => by
    obtain ⟨r, hr, rfl⟩ := List.mem_map.1 hx
    exact h r hr
  exact hsame

/-- **A key some record carries** is bound as the first of them resolves where the records before
it left the registry. -/
theorem boundAt_writeBundle_of_mem
    (h : ∃ e ∈ validated, e.2.key (sourceRowId report db.sources) = key) :
    ∃ l₁ e l₂ models, validated = l₁ ++ e :: l₂ ∧ e.2.key (sourceRowId report db.sources) = key ∧
      (∀ e' ∈ l₁, e'.2.key (sourceRowId report db.sources) ≠ key) ∧
      (writeBundle report validated rejected complete total now current db).1.boundAt key =
        some (e.2.identity, resolution db.adapters models e.2.identity) ∧
      Bound db.adapters db.registry.models
        ((firstsOf (sourceRowId report db.sources) [] l₁).map EvidenceRecord.identity) models := by
  obtain ⟨l₁, e, l₂, hsplit, hkey, hbefore, hlookup⟩ :=
    @lookup_importRecords_of_mem validated rejected now current db key _ h
  have hat := @boundAt_writeBundle report validated rejected complete total now current db key
  rw [hlookup, Option.map_some, EvidenceRow.bound, ← hkey, EvidenceRecord.identity_row] at hat
  exact ⟨l₁, e, l₂, _, hsplit, hkey, hbefore, hkey ▸ hat, bound_importLoop_start rfl⟩

/-- **Records that are bound right in any order.**  Records of one key resolve alike, no record
disturbs one of another key, and the rows the bundle does not carry are bound right and not
disturbed. -/
structure BindsInAnyOrder (sourceId : SourceId) (carried : EvidenceRecord → Prop)
    (db : EvidenceDb) : Prop where
  alike : ∀ r r', carried r → carried r' → r.key sourceId = r'.key sourceId →
    db.resolves r.identity = db.resolves r'.identity
  records : ∀ r r', carried r → carried r' → r.key sourceId ≠ r'.key sourceId →
    ¬ Disturbs db.adapters db.registry.models r.identity r'.identity
  rows : ∀ key b, db.boundAt key = some b → (∀ r, carried r → r.key sourceId ≠ key) →
    b.2 = db.resolves b.1 ∧
      ∀ r, carried r → ¬ Disturbs db.adapters db.registry.models r.identity b.1

theorem not_disturbs_self {adapters : Adapters} {models : Models} {x : EvidenceIdentity} :
    ¬ Disturbs adapters models x x := fun h => h.moved (.inl rfl)

/-- Where the records are bound right in any order, every row resolves after the import as before,
and a key the bundle carries is bound so. -/
theorem BindsInAnyOrder.boundAt
    (h : BindsInAnyOrder (sourceRowId report db.sources) (IsRecordOf validated) db)
    {b : EvidenceIdentity × MatchState × Option ModelId × Option AdapterId}
    (hb : (writeBundle report validated rejected complete total now current db).1.boundAt key =
      some b) :
    b.2 = db.resolves b.1 ∧
      (writeBundle report validated rejected complete total now current db).1.resolves b.1 =
        db.resolves b.1 ∧
      ∀ r, IsRecordOf validated r → r.key (sourceRowId report db.sources) = key →
        b.2 = db.resolves r.identity := by
  by_cases hcarried : ∃ e ∈ validated, e.2.key (sourceRowId report db.sources) = key
  · obtain ⟨l₁, e, l₂, models, hsplit, hkey, hbefore, hat, hbound⟩ :=
      boundAt_writeBundle_of_mem hcarried
    rw [hat, Option.some.injEq] at hb
    subst hb
    have he : IsRecordOf validated e.2 := ⟨e, by simp [hsplit], rfl⟩
    have hstage : resolution db.adapters models e.2.identity = db.resolves e.2.identity := by
      refine hbound.resolution_eq fun x hx => ?_
      obtain ⟨r, hr, rfl⟩ := List.mem_map.1 hx
      obtain ⟨⟨e', he', rfl⟩, -⟩ := mem_firstsOf hr
      exact h.records _ _ ⟨e', by simp [hsplit, he'], rfl⟩ he fun hsame =>
        hbefore e' he' (hsame.trans hkey)
    refine ⟨hstage, ?_, fun r hr hrkey => ?_⟩
    · refine resolves_writeBundle fun r hr => ?_
      by_cases hsame : r.key (sourceRowId report db.sources) = key
      · rw [hsplit] at hr
        rw [eq_of_mem_firstsOf (fun e' he' => hkey ▸ hbefore e' he') hr (hsame.trans hkey.symm)]
        exact not_disturbs_self
      · exact h.records _ _ (mem_firstsOf hr).1 he fun heq => hsame (heq.trans hkey)
    · exact hstage.trans (h.alike _ _ he hr (hkey.trans hrkey.symm))
  · have hnone : ∀ e ∈ validated, e.2.key (sourceRowId report db.sources) ≠ key :=
      fun e he hkey => hcarried ⟨e, he, hkey⟩
    rw [boundAt_writeBundle_of_notMem hnone] at hb
    obtain ⟨hright, hundisturbed⟩ := h.rows key b hb fun r ⟨e, he, hr⟩ => hr ▸ hnone e he
    refine ⟨hright, ?_, fun r ⟨e, he, hr⟩ hkey => absurd (hr ▸ hkey) (hnone e he)⟩
    exact resolves_writeBundle fun r hr => hundisturbed r (mem_firstsOf hr).1

theorem boundAt_writeBundle_head {e : ℕ × EvidenceRecord} {tail : List (ℕ × EvidenceRecord)} :
    (writeBundle report (e :: tail) rejected complete total now current db).1.boundAt
        (e.2.key (sourceRowId report db.sources)) =
      some (e.2.identity, db.resolves e.2.identity) := by
  obtain ⟨l₁, e', l₂, models, hsplit, hkey, hbefore, hat, hbound⟩ :=
    @boundAt_writeBundle_of_mem report (e :: tail) rejected complete total now current db _
      ⟨e, List.mem_cons_self, rfl⟩
  cases l₁ with
  | nil =>
      cases hsplit
      rw [hat, hbound.resolution_eq (by simp [firstsOf])]
      rfl
  | cons e₁ l₁ =>
      cases hsplit
      exact absurd rfl (hbefore e List.mem_cons_self)

theorem boundAt_writeBundle_second {e₁ e₂ : ℕ × EvidenceRecord}
    {tail : List (ℕ × EvidenceRecord)}
    (hne : e₁.2.key (sourceRowId report db.sources) ≠ e₂.2.key (sourceRowId report db.sources)) :
    ∃ models, Bound db.adapters db.registry.models [e₁.2.identity] models ∧
      (writeBundle report (e₁ :: e₂ :: tail) rejected complete total now current db).1.boundAt
          (e₂.2.key (sourceRowId report db.sources)) =
        some (e₂.2.identity, resolution db.adapters models e₂.2.identity) := by
  obtain ⟨l₁, e', l₂, models, hsplit, hkey, hbefore, hat, hbound⟩ :=
    @boundAt_writeBundle_of_mem report (e₁ :: e₂ :: tail) rejected complete total now current db _
      ⟨e₂, by simp, rfl⟩
  match l₁, hsplit with
  | [], hsplit =>
      cases hsplit
      exact absurd hkey hne
  | [e], hsplit =>
      cases hsplit
      exact ⟨models, by simpa [firstsOf] using hbound, hat⟩
  | e :: e' :: l₁, hsplit =>
      cases hsplit
      exact absurd rfl (hbefore e₂ (by simp))

end Bundle

/-! ### The records in any order -/

section Order

variable (validate : Json → Except (List String) EvidenceRecord)

/-- The bundle with other records. -/
def EvidenceEnvelope.withRecords (raws : List Json) (envelope : EvidenceEnvelope) :
    EvidenceEnvelope :=
  { envelope with
    payload :=
      match envelope.payload with
      | .obj payload => .obj (Json.setMember "evidence" (.arr raws) payload)
      | payload => payload }

/-- A bundle carries a record. -/
def Carries (raws : List Json) (r : EvidenceRecord) : Prop := ∃ raw ∈ raws, validate raw = .ok r

/-- **An import settles**: with its records in any order it leaves every row bound right, and the
rows bound as they are. -/
def SettlesImport (envelope : EvidenceEnvelope) (kind : String) (url : Option String)
    (now : Instant) (current : Environment) (db db' : EvidenceDb) : Prop :=
  ∀ sourceKey complete raws, bundleOf envelope.payload = .ok (sourceKey, complete, raws) →
    ∀ raws', raws'.Perm raws →
      ∃ db'' outcome, importBundle validate (envelope.withRecords raws') kind url now current db =
          .ok (db'', outcome) ∧
        Correct db'' ∧
        ∀ key, (db''.boundAt key).map Prod.snd = (db'.boundAt key).map Prod.snd

variable {validate}

theorem bundleOf_withRecords {envelope : EvidenceEnvelope} {sourceKey : String} {complete : Bool}
    {raws : List Json} (h : bundleOf envelope.payload = .ok (sourceKey, complete, raws))
    (raws' : List Json) :
    bundleOf (envelope.withRecords raws').payload = .ok (sourceKey, complete, raws') := by
  rw [EvidenceEnvelope.withRecords]
  cases hpayload : envelope.payload with
  | obj payload =>
      rw [hpayload] at h
      simp only [bundleOf, Json.member?_setMember_self,
        Json.member?_setMember_of_ne (show "source_id" ≠ "evidence" by decide),
        Json.member?_setMember_of_ne (show "complete" ≠ "evidence" by decide)] at h ⊢
      split at h
      · split at h
        · cases h
        · split at h
          · split at h
            · cases h
              simp [*]
            · cases h
          · cases h
      · cases h
  | _ =>
      rw [hpayload] at h
      cases h

section Imported

variable (validate) (report : SourceReport) (complete : Bool) (now : Instant)
  (current : Environment) (db : EvidenceDb)

/-- What an import of some records leaves. -/
def imported (raws : List Json) : EvidenceDb :=
  (writeBundle report (validRecords validate raws) (invalidRecords validate raws) complete
    raws.length now current db).1

variable {validate report complete now current db} {raws raws' tail : List Json}
  {raw raw₁ raw₂ : Json} {r r₁ r₂ : EvidenceRecord}

theorem settlesImport_iff {envelope : EvidenceEnvelope} {sourceKey : String}
    (hbundle : bundleOf envelope.payload = .ok (sourceKey, complete, raws)) {kind : String}
    {url : Option String} {db' : EvidenceDb} {outcome : ImportOutcome}
    (himport : importBundle validate envelope kind url now current db = .ok (db', outcome)) :
    SettlesImport validate envelope kind url now current db db' ↔
      ∀ raws', raws'.Perm raws →
        Correct (imported validate (envelope.report sourceKey kind url) complete now current db
          raws') ∧
        ∀ key, ((imported validate (envelope.report sourceKey kind url) complete now current db
            raws').boundAt key).map Prod.snd =
          ((imported validate (envelope.report sourceKey kind url) complete now current db
            raws).boundAt key).map Prod.snd := by
  rw [importBundle_eq_ok hbundle] at himport
  have hdb := congrArg Prod.fst (Except.ok.inj himport)
  subst hdb
  constructor
  · intro hsettles raws' hperm
    obtain ⟨db'', outcome', himport', hcorrect, hsame⟩ := hsettles _ _ _ hbundle raws' hperm
    rw [importBundle_eq_ok (bundleOf_withRecords hbundle raws')] at himport'
    have hdb := congrArg Prod.fst (Except.ok.inj himport')
    subst hdb
    exact ⟨hcorrect, hsame⟩
  · intro hall sourceKey' complete' raws₀ hbundle₀ raws' hperm
    rw [hbundle] at hbundle₀
    cases hbundle₀
    obtain ⟨hcorrect, hsame⟩ := hall raws' hperm
    exact ⟨_, _, importBundle_eq_ok (bundleOf_withRecords hbundle raws') _ _ _ _ _, hcorrect, hsame⟩

/-! ### Enough -/

theorem BindsInAnyOrder.of_perm (hperm : raws'.Perm raws)
    (h : BindsInAnyOrder (sourceRowId report db.sources) (Carries validate raws) db) :
    BindsInAnyOrder (sourceRowId report db.sources) (IsRecordOf (validRecords validate raws'))
      db := by
  have hsame : IsRecordOf (validRecords validate raws') = Carries validate raws := by
    funext r
    refine propext (isRecordOf_validRecords.trans ?_)
    simp only [Carries, hperm.mem_iff]
  rwa [hsame]

theorem BindsInAnyOrder.correct (hperm : raws'.Perm raws)
    (h : BindsInAnyOrder (sourceRowId report db.sources) (Carries validate raws) db) :
    Correct (imported validate report complete now current db raws') := by
  intro key b hb
  obtain ⟨hright, hresolves, -⟩ := (h.of_perm hperm).boundAt hb
  exact hright.trans hresolves.symm

theorem BindsInAnyOrder.boundAt_of_carries (hperm : raws'.Perm raws)
    (h : BindsInAnyOrder (sourceRowId report db.sources) (Carries validate raws) db)
    (hr : Carries validate raws r) :
    ((imported validate report complete now current db raws').boundAt
        (r.key (sourceRowId report db.sources))).map Prod.snd = some (db.resolves r.identity) := by
  have hrecord : IsRecordOf (validRecords validate raws') r := by
    rw [isRecordOf_validRecords]
    simpa only [Carries, hperm.mem_iff] using hr
  obtain ⟨e, he, hre⟩ := hrecord
  obtain ⟨l₁, e', l₂, models, -, -, -, hat, -⟩ :=
    @boundAt_writeBundle_of_mem report (validRecords validate raws') (invalidRecords validate raws')
      complete raws'.length now current db (r.key (sourceRowId report db.sources))
      ⟨e, he, by rw [hre]⟩
  rw [imported, hat]
  exact congrArg some (((h.of_perm hperm).boundAt hat).2.2 r ⟨e, he, hre⟩ rfl)

theorem boundAt_imported_of_not_carries {key : EvidenceKey}
    (h : ∀ r, Carries validate raws r → r.key (sourceRowId report db.sources) ≠ key) :
    (imported validate report complete now current db raws).boundAt key = db.boundAt key :=
  boundAt_writeBundle_of_notMem fun e he =>
    h e.2 (isRecordOf_validRecords.1 ⟨e, he, rfl⟩)

theorem BindsInAnyOrder.boundAt_eq (hperm : raws'.Perm raws)
    (h : BindsInAnyOrder (sourceRowId report db.sources) (Carries validate raws) db)
    (key : EvidenceKey) :
    ((imported validate report complete now current db raws').boundAt key).map Prod.snd =
      ((imported validate report complete now current db raws).boundAt key).map Prod.snd := by
  by_cases hcarried : ∃ r, Carries validate raws r ∧ r.key (sourceRowId report db.sources) = key
  · obtain ⟨r, hr, rfl⟩ := hcarried
    rw [h.boundAt_of_carries hperm hr, h.boundAt_of_carries (List.Perm.refl raws) hr]
  · have hnone : ∀ r, Carries validate raws r → r.key (sourceRowId report db.sources) ≠ key :=
      fun r hr hkey => hcarried ⟨r, hr, hkey⟩
    have hnone' : ∀ r, Carries validate raws' r → r.key (sourceRowId report db.sources) ≠ key :=
      fun r ⟨raw, hraw, hvalid⟩ => hnone r ⟨raw, hperm.mem_iff.1 hraw, hvalid⟩
    rw [boundAt_imported_of_not_carries hnone, boundAt_imported_of_not_carries hnone']

/-- **Records that are bound right in any order** are. -/
theorem BindsInAnyOrder.settles
    (h : BindsInAnyOrder (sourceRowId report db.sources) (Carries validate raws) db)
    (hperm : raws'.Perm raws) :
    Correct (imported validate report complete now current db raws') ∧
      ∀ key, ((imported validate report complete now current db raws').boundAt key).map Prod.snd =
        ((imported validate report complete now current db raws).boundAt key).map Prod.snd :=
  ⟨h.correct hperm, h.boundAt_eq hperm⟩

/-! ### Nothing less -/

theorem exists_perm_cons (hraw : raw ∈ raws) : ∃ tail, (raw :: tail).Perm raws := by
  obtain ⟨s, t, rfl⟩ := List.append_of_mem hraw
  exact ⟨s ++ t, List.perm_middle.symm⟩

theorem exists_perm_cons_cons (hraw₁ : raw₁ ∈ raws) (hraw₂ : raw₂ ∈ raws) (hne : raw₂ ≠ raw₁) :
    ∃ tail, (raw₁ :: raw₂ :: tail).Perm raws := by
  obtain ⟨tail, htail⟩ := exists_perm_cons hraw₁
  obtain ⟨tail', htail'⟩ :=
    exists_perm_cons ((List.mem_cons.1 (htail.mem_iff.2 hraw₂)).resolve_left hne)
  exact ⟨tail', (htail'.cons raw₁).trans htail⟩

theorem validRecords_cons (hvalid : validate raw = .ok r) (tail : List Json) :
    ∃ entries, validRecords validate (raw :: tail) = (0, r) :: entries := by
  simp [validRecords, hvalid]

theorem validRecords_cons_cons (hvalid₁ : validate raw₁ = .ok r₁)
    (hvalid₂ : validate raw₂ = .ok r₂) (tail : List Json) :
    ∃ entries, validRecords validate (raw₁ :: raw₂ :: tail) = (0, r₁) :: (1, r₂) :: entries := by
  simp [validRecords, hvalid₁, hvalid₂]

theorem resolves_imported_ne (hvalid : validate raw = .ok r) {y : EvidenceIdentity}
    (hdisturbs : Disturbs db.adapters db.registry.models r.identity y) :
    (imported validate report complete now current db (raw :: tail)).resolves y ≠
      db.resolves y := by
  obtain ⟨entries, hentries⟩ := validRecords_cons hvalid tail
  have hbound := @bound_writeBundle report (validRecords validate (raw :: tail))
    (invalidRecords validate (raw :: tail)) complete (raw :: tail).length now current db
  rw [hentries, firstsOf, if_neg List.not_mem_nil, List.map_cons, ← hentries] at hbound
  exact hbound.resolution_ne hdisturbs

theorem boundAt_imported_head (hvalid : validate raw = .ok r) :
    (imported validate report complete now current db (raw :: tail)).boundAt
        (r.key (sourceRowId report db.sources)) = some (r.identity, db.resolves r.identity) := by
  obtain ⟨entries, hentries⟩ := validRecords_cons hvalid tail
  rw [imported, hentries]
  exact boundAt_writeBundle_head

/-- **What settles in any order** is bound right in any order. -/
theorem bindsInAnyOrder_of_settles (hright : Correct db)
    (h : ∀ raws', raws'.Perm raws →
      Correct (imported validate report complete now current db raws') ∧
      ∀ key, ((imported validate report complete now current db raws').boundAt key).map Prod.snd =
        ((imported validate report complete now current db raws).boundAt key).map Prod.snd) :
    BindsInAnyOrder (sourceRowId report db.sources) (Carries validate raws) db := by
  -- a record that comes first is bound as it resolves before the import
  have hhead : ∀ r, Carries validate raws r →
      ((imported validate report complete now current db raws).boundAt
        (r.key (sourceRowId report db.sources))).map Prod.snd = some (db.resolves r.identity) := by
    rintro r ⟨raw, hraw, hvalid⟩
    obtain ⟨tail, hperm⟩ := exists_perm_cons hraw
    rw [← (h _ hperm).2, boundAt_imported_head hvalid]
    rfl
  refine ⟨fun r r' hr hr' hkey => ?_, fun r r' hr hr' hne hdisturbs => ?_,
    fun key b hb hnone => ⟨hright key b hb, fun r hr hdisturbs => ?_⟩⟩
  · have hone := hhead r hr
    rw [hkey, hhead r' hr'] at hone
    exact (Option.some.inj hone).symm
  · obtain ⟨raw, hraw, hvalid⟩ := hr
    obtain ⟨raw', hraw', hvalid'⟩ := id hr'
    have hraws : raw' ≠ raw := by
      rintro rfl
      rw [hvalid] at hvalid'
      cases hvalid'
      exact hne rfl
    obtain ⟨tail, hperm⟩ := exists_perm_cons_cons hraw hraw' hraws
    obtain ⟨entries, hentries⟩ := validRecords_cons_cons hvalid hvalid' tail
    obtain ⟨models, hbound, hat⟩ := @boundAt_writeBundle_second report
      (invalidRecords validate (raw :: raw' :: tail)) complete (raw :: raw' :: tail).length now
      current db (0, r) (1, r') entries hne
    have hsecond := (h _ hperm).2 (r'.key (sourceRowId report db.sources))
    rw [hhead r' hr', imported, hentries, hat] at hsecond
    exact hbound.resolution_ne hdisturbs (Option.some.inj hsecond)
  · obtain ⟨raw, hraw, hvalid⟩ := hr
    obtain ⟨tail, hperm⟩ := exists_perm_cons hraw
    have hkept : (imported validate report complete now current db (raw :: tail)).boundAt key =
        some b := by
      rw [boundAt_imported_of_not_carries, hb]
      exact fun r' ⟨raw', hraw', hvalid'⟩ => hnone r' ⟨raw', hperm.mem_iff.1 hraw', hvalid'⟩
    have hafter := (h _ hperm).1 key b hkept
    exact resolves_imported_ne hvalid hdisturbs (hafter.symm.trans (hright key b hb))

end Imported

end Order

end LoadCoach.Registry

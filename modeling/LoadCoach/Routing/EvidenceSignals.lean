import LoadCoach.Foundations.Table
import LoadCoach.Registry.Collapse
import LoadCoach.Routing.Route

/-! # The evidence a decision reads

`bound_signals_for_routing` reads the stored evidence for a decision: the bound rows that the weights
of the task profile admit, collapsed for each subject on its own.  A `user.*` capability is admitted
where the profile names it and nowhere else.

`boundSignals_spec` says which rows become the signals of a subject, and when the reading raises: one
row whose policy version cannot be read is enough, whatever it measured.  `routeFrom_eq` is the
opt-in: rows that are not bound, or not admitted, make no difference to any decision. -/

namespace LoadCoach.Routing

open Foundations
open LoadCoach.Registry

/-! ### Admission -/

/-- `is_user_capability`. -/
def isUserCapability (capabilityId : String) : Bool :=
  let (root, slug) := partition '.' capabilityId
  root == "user" && slug.any fun slug => slug != ""

/-- `weights_admit`. -/
def weightsAdmit (capabilityId : String) (weights : Weights) : Bool :=
  !isUserCapability capabilityId || (weights.map Prod.fst).contains capabilityId

/-! ### The signals -/

/-- `CapabilityEvidence`, as far as a decision reads it. -/
structure StoredEvidence extends EvidenceCandidate where
  matchState : MatchState
  modelId : Option String
  adapterId : Option String
  stale : Bool := false
  staleReason : Option String := none

/-- The subject a row was measured on. -/
def StoredEvidence.subject? (row : StoredEvidence) : Option (String × String) :=
  row.modelId.map fun modelId => (modelId, row.adapterId.getD "")

/-- The rows that may score under some weights. -/
def scoring (weights : Weights) (rows : List StoredEvidence) : List StoredEvidence :=
  rows.filter fun row =>
    row.matchState == .bound && row.modelId.isSome && weightsAdmit row.capabilityId weights

/-- Whole days between two instants, none before the first. -/
def ageDays (measuredAt now : Instant) : ℕ := ((now - measuredAt) / seconds 86400).toNat

/-- The signal of a row. -/
def StoredEvidence.signal (now : Instant) (row : StoredEvidence) : CapabilitySignal where
  capabilityId := row.capabilityId
  source := .benchmark
  score := row.score
  confidence := row.confidence
  runtimeProfileHash := some row.runtimeProfileHash
  machineFingerprint := some row.machineFingerprint
  sampleCount := some row.sampleCount
  matchState := some .bound
  ageDays := some (ageDays row.measuredAt now)
  stale := row.stale
  staleReason := row.staleReason

/-- The rows of one subject. -/
def measuredOn (subject : String × String) (rows : List StoredEvidence) : List StoredEvidence :=
  rows.filter fun row => row.subject? == some subject

/-- The signals of one subject; `collapse_evidence` may raise. -/
def subjectSignals (rows : List StoredEvidence) (now : Instant) (here : Option String)
    (subject : String × String) : Except Raised (List CapabilitySignal) :=
  match collapseEvidence ((measuredOn subject rows).map StoredEvidence.toEvidenceCandidate) here with
  | none => .error .unexpected
  | some selected =>
      -- `facts[candidate.row_id]`
      .ok (selected.filterMap fun candidate =>
        (rows.find? fun row => row.rowId == candidate.rowId).map (StoredEvidence.signal now))

/-- `bound_signals_for_routing`: the signals by subject. -/
def boundSignals (rows : List StoredEvidence) (weights : Weights) (now : Instant)
    (here : Option String) : Except Raised (List ((String × String) × List CapabilitySignal)) :=
  let admitted := scoring weights rows
  ((admitted.filterMap StoredEvidence.subject?).dedup).mapM fun subject =>
    (subjectSignals admitted now here subject).map fun signals => (subject, signals)

/-! ### What is selected -/

section Selected

variable {here : Option String} {candidates candidates' selected : List EvidenceCandidate}

theorem collapse_isSome_iff :
    (collapseEvidence candidates here).isSome = true ↔
      ∀ c ∈ candidates, Readable c.policyVersion :=
  selectBy_isSome_iff.trans hasKeys_iff

theorem mem_collapse_iff (hids : (candidates.map EvidenceCandidate.rowId).Nodup)
    (h : collapseEvidence candidates here = some selected) {c : EvidenceCandidate} :
    c ∈ selected ↔ c ∈ candidates ∧ Preferred here candidates c := by
  have hreadable : ∀ c ∈ candidates, Readable c.policyVersion :=
    collapse_isSome_iff.1 (by rw [h]; rfl)
  have hdecided := (collapses_iff here candidates).2 hids
  obtain ⟨selected', hperm, hmem, hnodup, hcovers⟩ :=
    (collapses_iff here candidates).1.2 ⟨hreadable, hdecided⟩
  cases (hperm candidates (List.Perm.refl _)).symm.trans h
  have hpreferred : ∀ c ∈ selected, Preferred here candidates c := by
    intro c hc other hother hgroup
    obtain ⟨best, hbest, hbestGroup, hle⟩ := hcovers other hother
    rwa [List.inj_on_of_nodup_map hnodup hc hbest (hgroup.symm.trans hbestGroup.symm)]
  constructor
  · exact fun hc => ⟨hmem c hc, hpreferred c hc⟩
  · rintro ⟨hc, hpref⟩
    obtain ⟨best, hbest, hgroup, -⟩ := hcovers c hc
    rwa [hdecided c hc best (hmem best hbest) hgroup.symm hpref (hpreferred best hbest)]

theorem nodup_collapse (h : collapseEvidence candidates here = some selected) :
    (selected.map EvidenceCandidate.groupKey).Nodup :=
  (selectBy_spec h).2.1

theorem collapse_perm (hids : (candidates.map EvidenceCandidate.rowId).Nodup)
    (hperm : candidates'.Perm candidates) :
    collapseEvidence candidates' here = collapseEvidence candidates here := by
  by_cases hreadable : ∀ c ∈ candidates, Readable c.policyVersion
  · exact (perm_iff_decided hreadable).2 (decided_of_nodup hids) candidates' hperm
  · have hnone : ∀ l : List EvidenceCandidate, l.Perm candidates → collapseEvidence l here = none := by
      intro l hl
      refine Option.not_isSome_iff_eq_none.1 fun hsome => hreadable fun c hc => ?_
      exact collapse_isSome_iff.1 hsome c (hl.mem_iff.2 hc)
    rw [hnone _ hperm, hnone _ (List.Perm.refl _)]

end Selected

/-! ### The signals of a subject -/

section Signals

variable {rows rows' : List StoredEvidence} {weights : Weights} {now : Instant}
  {here : Option String} {subject : String × String}

theorem mem_measuredOn {row : StoredEvidence} :
    row ∈ measuredOn subject rows ↔ row ∈ rows ∧ row.subject? = some subject := by
  simp [measuredOn]

/-- A row that no other of its subject, capability and profile is preferred to. -/
def PreferredRow (here : Option String) (rows : List StoredEvidence) (row : StoredEvidence) : Prop :=
  ∀ other ∈ rows, other.subject? = row.subject? → other.groupKey = row.groupKey →
    other.preference here ≤ row.preference here

theorem preferred_iff {row : StoredEvidence} (hrow : row.subject? = some subject) :
    Preferred here ((measuredOn subject rows).map StoredEvidence.toEvidenceCandidate)
      row.toEvidenceCandidate ↔ PreferredRow here rows row := by
  constructor
  · intro h other hother hsubject
    exact h _ (List.mem_map_of_mem (mem_measuredOn.2 ⟨hother, hsubject.trans hrow⟩))
  · intro h c hc
    obtain ⟨other, hother, rfl⟩ := List.mem_map.1 hc
    obtain ⟨hmem, hsubject⟩ := mem_measuredOn.1 hother
    exact h other hmem (hsubject.trans hrow.symm)

theorem nodup_measuredOn (hids : (rows.map (·.rowId)).Nodup) (subject : String × String) :
    (((measuredOn subject rows).map StoredEvidence.toEvidenceCandidate).map
      EvidenceCandidate.rowId).Nodup := by
  rw [List.map_map]
  exact (List.filter_sublist.map _).nodup hids

theorem find?_rowId (hids : (rows.map (·.rowId)).Nodup) {row : StoredEvidence} (hrow : row ∈ rows) :
    (rows.find? fun other => other.rowId == row.rowId) = some row :=
  (find?_eq_some_iff_of_nodup hids).2 ⟨hrow, rfl⟩

theorem subjectSignals_isOk_iff :
    (∃ signals, subjectSignals rows now here subject = .ok signals) ↔
      ∀ row ∈ measuredOn subject rows, Readable row.policyVersion := by
  have hreadable : (collapseEvidence
      ((measuredOn subject rows).map StoredEvidence.toEvidenceCandidate) here).isSome = true ↔
      ∀ row ∈ measuredOn subject rows, Readable row.policyVersion := by
    rw [collapse_isSome_iff, List.forall_mem_map]
  rw [← hreadable, subjectSignals]
  cases collapseEvidence _ here <;> simp

/-- **The signals of a subject** are those of its preferred rows, one of a capability and
profile. -/
theorem subjectSignals_spec (hids : (rows.map (·.rowId)).Nodup) {signals : List CapabilitySignal}
    (h : subjectSignals rows now here subject = .ok signals) :
    (∀ signal, signal ∈ signals ↔ ∃ row ∈ rows, row.subject? = some subject ∧
      PreferredRow here rows row ∧ signal = row.signal now) ∧
    (signals.map fun signal => (signal.capabilityId, signal.runtimeProfileHash)).Nodup := by
  rw [subjectSignals] at h
  cases hcollapse : collapseEvidence
      ((measuredOn subject rows).map StoredEvidence.toEvidenceCandidate) here with
  | none => simp [hcollapse] at h
  | some selected =>
      rw [hcollapse] at h
      cases h
      have hselected := fun c => mem_collapse_iff (nodup_measuredOn hids subject) hcollapse (c := c)
      -- every selected candidate is that of a row of the subject
      have hrowOf : ∀ c ∈ selected, ∃ row ∈ rows, row.subject? = some subject ∧
          row.toEvidenceCandidate = c ∧
          (rows.find? fun other => other.rowId == c.rowId) = some row := by
        intro c hc
        obtain ⟨row, hrow, rfl⟩ := List.mem_map.1 ((hselected c).1 hc).1
        obtain ⟨hmem, hsubject⟩ := mem_measuredOn.1 hrow
        exact ⟨row, hmem, hsubject, rfl, find?_rowId hids hmem⟩
      constructor
      · intro signal
        rw [List.mem_filterMap]
        constructor
        · rintro ⟨c, hc, hsignal⟩
          obtain ⟨row, hmem, hsubject, rfl, hfound⟩ := hrowOf c hc
          rw [hfound] at hsignal
          have hpreferred := (preferred_iff hsubject).1 ((hselected _).1 hc).2
          exact ⟨row, hmem, hsubject, hpreferred, (Option.some.inj hsignal).symm⟩
        · rintro ⟨row, hmem, hsubject, hpreferred, rfl⟩
          refine ⟨row.toEvidenceCandidate, (hselected _).2 ⟨?_, ?_⟩, ?_⟩
          · exact List.mem_map_of_mem (mem_measuredOn.2 ⟨hmem, hsubject⟩)
          · exact (preferred_iff hsubject).2 hpreferred
          · rw [find?_rowId hids hmem]
            rfl
      · have hkeys : (selected.filterMap fun candidate =>
            (rows.find? fun row => row.rowId == candidate.rowId).map
              (StoredEvidence.signal now)).map
              (fun signal => (signal.capabilityId, signal.runtimeProfileHash)) =
            selected.map fun c => (c.capabilityId, some c.runtimeProfileHash) := by
          rw [List.map_filterMap, ← List.filterMap_eq_map]
          refine List.filterMap_congr fun c hc => ?_
          obtain ⟨row, -, -, rfl, hfound⟩ := hrowOf c hc
          rw [hfound]
          rfl
        rw [hkeys]
        refine List.Nodup.of_map (fun key : String × Option String =>
          (toLex (key.1, key.2.getD "") : String ×ₗ String)) ?_
        rw [List.map_map]
        exact nodup_collapse hcollapse

theorem mem_subjects {rows : List StoredEvidence} :
    subject ∈ (rows.filterMap StoredEvidence.subject?).dedup ↔
      ∃ row ∈ rows, row.subject? = some subject := by
  rw [List.mem_dedup, List.mem_filterMap]

theorem exists_subject {row : StoredEvidence} (hrow : row ∈ scoring weights rows) :
    ∃ subject, row.subject? = some subject := by
  rw [scoring, List.mem_filter, Bool.and_eq_true, Bool.and_eq_true] at hrow
  obtain ⟨modelId, hmodel⟩ := Option.isSome_iff_exists.1 hrow.2.1.2
  exact ⟨_, by rw [StoredEvidence.subject?, hmodel]; rfl⟩

theorem lookup_boundSignals {signals : List ((String × String) × List CapabilitySignal)}
    (h : boundSignals rows weights now here = .ok signals) (subject : String × String) :
    (∃ row ∈ scoring weights rows, row.subject? = some subject) ∧
        subjectSignals (scoring weights rows) now here subject =
          .ok ((signals.lookup subject).getD []) ∨
      (¬ ∃ row ∈ scoring weights rows, row.subject? = some subject) ∧
        signals.lookup subject = none := by
  have hlookup := lookup_mapM h subject
  split at hlookup
  · rename_i hmem
    refine .inl ⟨mem_subjects.1 hmem, ?_⟩
    obtain ⟨entry, hentry⟩ := exists_mapM_ok_iff.1 ⟨signals, h⟩ subject hmem
    obtain ⟨own, hown, -⟩ := map_eq_ok.1 hentry
    rw [hown] at hlookup
    rw [hlookup, hown]
    rfl
  · rename_i hmem
    exact .inr ⟨fun hrow => hmem (mem_subjects.2 hrow), hlookup⟩

theorem nodup_scoring (hids : (rows.map (·.rowId)).Nodup) (weights : Weights) :
    ((scoring weights rows).map (·.rowId)).Nodup :=
  (List.filter_sublist.map _).nodup hids

theorem boundSignals_isOk_iff :
    (∃ signals, boundSignals rows weights now here = .ok signals) ↔
      ∀ row ∈ scoring weights rows, Readable row.policyVersion := by
  rw [boundSignals, exists_mapM_ok_iff]
  constructor
  · intro h row hrow
    obtain ⟨subject, hsubject⟩ := exists_subject hrow
    obtain ⟨entry, hentry⟩ := h subject (mem_subjects.2 ⟨row, hrow, hsubject⟩)
    obtain ⟨own, hown, -⟩ := map_eq_ok.1 hentry
    exact subjectSignals_isOk_iff.1 ⟨own, hown⟩ row (mem_measuredOn.2 ⟨hrow, hsubject⟩)
  · intro h subject _
    have hown : ∃ own, subjectSignals (scoring weights rows) now here subject = .ok own :=
      subjectSignals_isOk_iff.2 fun row hrow => h row (mem_measuredOn.1 hrow).1
    obtain ⟨own, hown⟩ := hown
    exact ⟨_, by rw [hown]; rfl⟩

/-- **The evidence a decision reads**, for every table of evidence and all weights.  It can be read
exactly when every row that may score has a policy version that can be read; and then the signals of
a subject are those of the preferred rows that were measured on it, are bound and are admitted, one
of a capability and profile. -/
theorem boundSignals_spec (hids : (rows.map (·.rowId)).Nodup) (weights : Weights) (now : Instant)
    (here : Option String) :
    ((∃ signals, boundSignals rows weights now here = .ok signals) ↔
      ∀ row ∈ scoring weights rows, Readable row.policyVersion) ∧
    ∀ signals, boundSignals rows weights now here = .ok signals → ∀ subject,
      (∀ signal, signal ∈ (signals.lookup subject).getD [] ↔
        ∃ row ∈ scoring weights rows, row.subject? = some subject ∧
          PreferredRow here (scoring weights rows) row ∧ signal = row.signal now) ∧
      (((signals.lookup subject).getD []).map fun signal =>
        (signal.capabilityId, signal.runtimeProfileHash)).Nodup := by
  refine ⟨boundSignals_isOk_iff, fun signals h subject => ?_⟩
  rcases lookup_boundSignals h subject with ⟨-, hown⟩ | ⟨hnone, hlookup⟩
  · exact subjectSignals_spec (nodup_scoring hids weights) hown
  · rw [hlookup]
    refine ⟨fun signal => ?_, by simp⟩
    simp only [Option.getD_none, List.not_mem_nil, false_iff]
    rintro ⟨row, hrow, hsubject, -⟩
    exact hnone ⟨row, hrow, hsubject⟩

theorem subjectSignals_perm (hids : (rows.map (·.rowId)).Nodup) (hperm : rows'.Perm rows)
    (now : Instant) (here : Option String) (subject : String × String) :
    subjectSignals rows' now here subject = subjectSignals rows now here subject := by
  have hids' : (rows'.map (·.rowId)).Nodup := (hperm.map _).nodup_iff.2 hids
  have hcollapse : collapseEvidence
      ((measuredOn subject rows').map StoredEvidence.toEvidenceCandidate) here =
      collapseEvidence ((measuredOn subject rows).map StoredEvidence.toEvidenceCandidate) here :=
    collapse_perm (nodup_measuredOn hids subject)
      ((hperm.filter _).map StoredEvidence.toEvidenceCandidate)
  rw [subjectSignals, subjectSignals, ← hcollapse]
  cases hselected : collapseEvidence
      ((measuredOn subject rows').map StoredEvidence.toEvidenceCandidate) here with
  | none => rfl
  | some selected =>
      refine congrArg Except.ok (List.filterMap_congr fun c hc => ?_)
      have hmem := ((mem_collapse_iff (nodup_measuredOn hids' subject) hselected).1 hc).1
      obtain ⟨row, hrow, rfl⟩ := List.mem_map.1 hmem
      have hrow' := (mem_measuredOn.1 hrow).1
      rw [find?_rowId hids' hrow', find?_rowId hids (hperm.mem_iff.1 hrow')]

theorem eq_unexpected_of_boundSignals {x : Raised}
    (h : boundSignals rows weights now here = .error x) : x = .unexpected := by
  obtain ⟨subject, -, hraised⟩ := mapM_eq_error_iff.1 h
  cases hown : subjectSignals (scoring weights rows) now here subject with
  | ok signals => rw [hown] at hraised; cases hraised
  | error y =>
      rw [hown] at hraised
      cases hraised
      rw [subjectSignals] at hown
      split at hown
      · exact (Except.error.inj hown).symm
      · cases hown

theorem lookup_boundSignals_perm (hids : (rows.map (·.rowId)).Nodup)
    (hperm : (scoring weights rows').Perm (scoring weights rows))
    {signals signals' : List ((String × String) × List CapabilitySignal)}
    (h : boundSignals rows weights now here = .ok signals)
    (h' : boundSignals rows' weights now here = .ok signals') (subject : String × String) :
    signals'.lookup subject = signals.lookup subject := by
  have hexists : (∃ row ∈ scoring weights rows', row.subject? = some subject) ↔
      ∃ row ∈ scoring weights rows, row.subject? = some subject := by
    simp only [hperm.mem_iff]
  have hown := subjectSignals_perm (nodup_scoring hids weights) hperm now here subject
  rw [lookup_mapM h subject, lookup_mapM h' subject, hown]
  refine if_congr ?_ rfl rfl
  rw [mem_subjects, mem_subjects]
  exact hexists

end Signals

/-- A bound measurement of a base model. -/
def storedRow (rowId capabilityId policyVersion : String) (score : ℚ := 3 / 4) :
    StoredEvidence where
  rowId
  capabilityId
  runtimeProfileHash := "h"
  machineFingerprint := "this"
  policyVersion
  measuredAt := 0
  score
  confidence := 1
  sampleCount := 5
  matchState := .bound
  modelId := some "m"
  adapterId := none

/-- Two measurements of one capability under different policies, and a goal of the user whose policy
version cannot be read. -/
def rowsWithGoal : List StoredEvidence :=
  [storedRow "1" "chat" "1.9", storedRow "2" "chat" "1.10" (1 / 2), storedRow "3" "user.tone" "1.²"]

/-- The goal is not read where the profile does not name it; of the others the newer policy counts. -/
theorem boundSignals_spec_goal :
    ∃ signals, boundSignals rowsWithGoal [("chat", 1)] 0 none = .ok signals ∧
      ∀ signal, signal ∈ (signals.lookup ("m", "")).getD [] ↔
        signal = (storedRow "2" "chat" "1.10" (1 / 2)).signal 0 := by
  have hscoring : scoring [("chat", 1)] rowsWithGoal =
      [storedRow "1" "chat" "1.9", storedRow "2" "chat" "1.10" (1 / 2)] := rfl
  have hids : (rowsWithGoal.map (·.rowId)).Nodup := by decide
  have hreadable : ∀ row ∈ scoring [("chat", 1)] rowsWithGoal, Readable row.policyVersion := by
    rw [hscoring]
    intro row hrow
    rw [← policyVersionKey_isSome_iff]
    revert row
    decide +kernel
  obtain ⟨hread, hsignals⟩ := boundSignals_spec hids [("chat", 1)] 0 none
  obtain ⟨signals, h⟩ := hread.2 hreadable
  have hnewer : (storedRow "2" "chat" "1.10" (1 / 2)).preference none >
      (storedRow "1" "chat" "1.9").preference none := by decide +kernel
  refine ⟨signals, h, fun signal => ?_⟩
  rw [(hsignals signals h ("m", "")).1 signal, hscoring]
  constructor
  · rintro ⟨row, hrow, -, hpreferred, rfl⟩
    rcases List.mem_cons.1 hrow with rfl | hrow
    · exact absurd (hpreferred _ (List.mem_cons_of_mem _ List.mem_cons_self) rfl rfl)
        hnewer.not_ge
    · rw [List.mem_singleton.1 hrow]
  · rintro rfl
    refine ⟨_, List.mem_cons_of_mem _ List.mem_cons_self, rfl, fun other hother _ _ => ?_, rfl⟩
    rcases List.mem_cons.1 hother with rfl | hother
    · exact hnewer.le
    · rw [List.mem_singleton.1 hother]

/-! ### A decision on stored evidence -/

/-- The state a decision is made in, with the evidence that is stored. -/
def withEvidence (s : RouterState) (rows : List StoredEvidence) (now : Instant) : RouterState :=
  { s with
    registry := { s.registry with
      evidence := fun weights subject =>
        ((boundSignals rows weights now s.policy.machineFingerprint).toOption.bind fun signals =>
          signals.lookup subject).getD [] } }

/-- `route`: the stored evidence is read once the profile and the constraints are known. -/
def routeFrom (s : RouterState) (rows : List StoredEvidence) (now : Instant)
    (request : RouteRequest) : Except RouteError Decision :=
  match loadTaskProfile s request.task with
  | .error x => .error (.raised x)
  | .ok profile =>
      match mergedConstraints profile.constraints request.constraints,
          boundSignals rows profile.weights now s.policy.machineFingerprint with
      | .ok _, .error x => .error (.raised x)
      | _, _ => route (withEvidence s rows now) request

section Decisions

variable {s : RouterState} {rows rows' : List StoredEvidence} {now : Instant}
  {request : RouteRequest}

theorem route_withEvidence_congr {profile : StoredTaskProfile}
    (hprofile : loadTaskProfile s request.task = .ok profile)
    (hread : readCandidates (withEvidence s rows' now) profile.weights =
      readCandidates (withEvidence s rows now) profile.weights) :
    route (withEvidence s rows' now) request = route (withEvidence s rows now) request := by
  have hload : ∀ rows, loadTaskProfile (withEvidence s rows now) request.task = .ok profile :=
    fun _ => hprofile
  have hjudge : judgeCandidate (withEvidence s rows' now) = judgeCandidate (withEvidence s rows now) :=
    rfl
  have hreach : reachesBudget (withEvidence s rows' now) =
      reachesBudget (withEvidence s rows now) := rfl
  have hdecision : decision (withEvidence s rows' now) request =
      decision (withEvidence s rows now) request := by
    unfold decision
    rw [hload rows', hload rows, ok_bind, ok_bind, hread, hjudge, hreach]
    rfl
  rw [route, route, hdecision]

/-- A registry of one model. -/
def oneModel : RouterState where
  taskProfiles := [{ profileId := "chat", weights := [("chat", 1)] }]
  registry :=
    { models :=
        [{ modelId := "m", canonicalId := "m", providerKind := "llamacpp"
           providerModelName := "m" }] }
  provider := { reportedServedContext := some 4096 }
  profileHash := fun _ => "h"

end Decisions

end LoadCoach.Routing

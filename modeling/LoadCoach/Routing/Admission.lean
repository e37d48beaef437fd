import LoadCoach.Routing.Route

/-! # The admission policy

`domain/admission.py`, the policy around the estimator.  What jobs in flight are expected to hold
is reserved device by device (`reservedBytesByDevice`), what an idle resident model could give
back counts as free (`adjustSnapshot`), and a job that routing could not place waits where a
rejection is of the kind that time may undo (`classifyRejections`): a candidate short of memory,
or one whose half-open breaker has its only probe out.

The verdict is all that is kept of the rejections.  What the loop over them leaves in it is said
once, field by field, in the lemmas at the end. -/

namespace LoadCoach.Routing

open Foundations

/-! ### Reservations -/

/-- Memory one job in flight is expected to hold on one device. -/
structure Reservation where
  jobId : String
  gpuIndex : ℕ
  bytes : ℤ
deriving DecidableEq, Repr

/-- Sum reservations within each device, never across devices; none counts for less than nothing. -/
def reservedBytesByDevice (reservations : List Reservation) (gpuIndex : ℕ) : ℕ :=
  ((reservations.filter fun r => r.gpuIndex == gpuIndex).map fun r => r.bytes.toNat).sum

/-- What a device would have in use with what is reserved on it and without what may be evicted;
what the driver does not report stays unreported. -/
def adjustGpu (reserved evictable : ℕ → ℕ) (gpu : Gpu) : Gpu :=
  match gpu.vramUsedBytes, gpu.vramTotalBytes with
  | some used, some total =>
      { gpu with
        vramUsedBytes := some (min (used + reserved gpu.index - evictable gpu.index) total) }
  | _, _ => { gpu with vramUsedBytes := none }

/-- The snapshot admission evaluates against, device by device. -/
def adjustSnapshot (snapshot : Option TelemetrySnapshot) (reserved evictable : ℕ → ℕ) :
    Option TelemetrySnapshot :=
  snapshot.map fun observed =>
    { observed with gpus := observed.gpus.map (adjustGpu reserved evictable) }

/-! ### Deferral or failure -/

/-- Why a job waits. -/
inductive DeferReason where
  | insufficientResources
  | probeInFlight
deriving DecidableEq, Repr

/-- The spelling of a reason. -/
def DeferReason.value : DeferReason → String
  | insufficientResources => "INSUFFICIENT_RESOURCES"
  | probeInFlight => "PROBE_IN_FLIGHT"

/-- What to do with a job routing could not place. -/
structure AdmissionVerdict where
  defer : Bool := false
  requiredBytes : Option ℕ := none
  headroomBytes : Option ℕ := none
  freeBytesByGpu : List (ℕ × Option ℕ) := []
  unknownReasons : List String := []
  candidates : List String := []
  probeCandidates : List String := []
deriving DecidableEq, Repr

/-- The reason `_defer` records. -/
def AdmissionVerdict.reason (verdict : AdmissionVerdict) : DeferReason :=
  if verdict.probeCandidates ≠ [] ∧ verdict.candidates = [] then .probeInFlight
  else .insufficientResources

namespace Rejection

/-- A half-open breaker whose single probe is out. -/
def probing : Rejection → Bool
  | .recentlyFailing detail =>
      match Json.member? "state" detail, Json.member? "probe_in_flight" detail with
      | some (.str state), some (.bool inFlight) => state == "half_open" && inFlight
      | _, _ => false
  | _ => false

/-- A rejection that a change of the machine's memory can undo. -/
def short : Rejection → Bool
  | .insufficientVram .. | .insufficientRam .. => true
  | _ => false

/-- What a candidate that is short of memory was estimated to need. -/
def estimatedBytes : Rejection → Option ℕ
  | .insufficientVram estimate _ _ => estimate.totalBytes
  | .insufficientRam estimated _ => some estimated
  | _ => none

/-- The per-device reserve a rejection states. -/
def statedHeadroom : Rejection → Option ℕ
  | .insufficientVram _ _ headroomBytes => some headroomBytes
  | _ => none

end Rejection

/-- The smaller of two requirements, where there are two. -/
def smaller (required estimated : Option ℕ) : Option ℕ :=
  match required, estimated with
  | some r, some e => some (min r e)
  | none, e => e
  | r, none => r

/-- Take one rejected entry into account. -/
def AdmissionVerdict.note (verdict : AdmissionVerdict) (item : RejectedCandidate) :
    AdmissionVerdict :=
  let canonicalId := item.subject.facts.canonicalId
  match item.rejection with
  | .recentlyFailing detail =>
      if (Rejection.recentlyFailing detail).probing then
        { verdict with probeCandidates := verdict.probeCandidates ++ [canonicalId] }
      else verdict
  | .insufficientVram estimate fits headroomBytes =>
      { verdict with
        candidates := verdict.candidates ++ [canonicalId]
        requiredBytes := smaller verdict.requiredBytes estimate.totalBytes
        unknownReasons := verdict.unknownReasons ++ estimate.unknownReason.toList
        headroomBytes := some headroomBytes
        freeBytesByGpu :=
          dict (verdict.freeBytesByGpu ++ fits.map fun fit => (fit.gpuIndex, fit.freeBytes)) }
  | .insufficientRam estimated _ =>
      { verdict with
        candidates := verdict.candidates ++ [canonicalId]
        requiredBytes := smaller verdict.requiredBytes (some estimated) }
  | _ => verdict

/-- Decide between deferral and failure from the rejected entries of an explanation. -/
def classifyRejections (rejected : List RejectedCandidate) : AdmissionVerdict :=
  let noted := rejected.foldl AdmissionVerdict.note {}
  { noted with
    defer := !noted.candidates.isEmpty || !noted.probeCandidates.isEmpty
    unknownReasons := noted.unknownReasons.eraseDups
    probeCandidates := noted.probeCandidates.eraseDups }

/-- Whether a deferred job is worth re-queuing now. -/
def waitingJobCanProceed (requiredBytes : Option ℕ) (headroomBytes : ℕ)
    (freeBytesByGpu : List (ℕ × Option ℕ)) (residentOn : List ℕ) : Bool :=
  if freeBytesByGpu.any fun e => residentOn.contains e.1 then true
  else
    match requiredBytes with
    | none => false
    | some required => freeBytesByGpu.any fun e => fitsIn (some required) e.2 headroomBytes

/-! ### What the loop leaves in the verdict -/

theorem fitsIn_smaller {required estimated free : Option ℕ} {headroomBytes : ℕ} :
    fitsIn (smaller required estimated) free headroomBytes = true ↔
      fitsIn required free headroomBytes = true ∨ fitsIn estimated free headroomBytes = true := by
  cases required <;> cases estimated <;> cases free <;> simp [fitsIn, smaller]
  omega

theorem AdmissionVerdict.note_eq (verdict : AdmissionVerdict) (item : RejectedCandidate) :
    (verdict.note item).candidates = verdict.candidates ++
        (if item.rejection.short then [item.subject.facts.canonicalId] else []) ∧
      (verdict.note item).probeCandidates = verdict.probeCandidates ++
        (if item.rejection.probing then [item.subject.facts.canonicalId] else []) ∧
      (verdict.note item).requiredBytes =
        smaller verdict.requiredBytes item.rejection.estimatedBytes ∧
      (verdict.note item).headroomBytes =
        (item.rejection.statedHeadroom <|> verdict.headroomBytes) := by
  have hsmaller : smaller verdict.requiredBytes none = verdict.requiredBytes := by
    cases verdict.requiredBytes <;> rfl
  cases hrejection : item.rejection with
  | recentlyFailing detail =>
      simp only [note, hrejection, Rejection.short, Rejection.estimatedBytes,
        Rejection.statedHeadroom]
      split <;> simp_all
  | insufficientVram estimate fits headroomBytes => simp [note, hrejection, Rejection.short,
      Rejection.estimatedBytes, Rejection.statedHeadroom, Rejection.probing]
  | insufficientRam estimated free => simp [note, hrejection, Rejection.short,
      Rejection.estimatedBytes, Rejection.statedHeadroom, Rejection.probing]
  | _ => simp [note, hrejection, Rejection.short, Rejection.estimatedBytes,
      Rejection.statedHeadroom, Rejection.probing, hsmaller]

theorem AdmissionVerdict.foldl_note (rejected : List RejectedCandidate)
    (verdict : AdmissionVerdict) :
    (rejected.foldl note verdict).candidates = verdict.candidates ++
        (rejected.filter fun item => item.rejection.short).map
          (fun item => item.subject.facts.canonicalId) ∧
      (rejected.foldl note verdict).probeCandidates = verdict.probeCandidates ++
        (rejected.filter fun item => item.rejection.probing).map
          (fun item => item.subject.facts.canonicalId) ∧
      (rejected.foldl note verdict).headroomBytes =
        ((rejected.filterMap fun item => item.rejection.statedHeadroom).getLast? <|>
          verdict.headroomBytes) ∧
      ∀ free headroomBytes,
        fitsIn (rejected.foldl note verdict).requiredBytes free headroomBytes = true ↔
          fitsIn verdict.requiredBytes free headroomBytes = true ∨
            ∃ item ∈ rejected, fitsIn item.rejection.estimatedBytes free headroomBytes = true := by
  induction rejected generalizing verdict with
  | nil => simp
  | cons item rejected ih =>
      obtain ⟨hcandidates, hprobes, hheadroom, hrequired⟩ := ih (verdict.note item)
      obtain ⟨hnames, hprobing, hestimate, hstated⟩ := verdict.note_eq item
      refine ⟨?_, ?_, ?_, ?_⟩
      · rw [List.foldl_cons, hcandidates, hnames, List.filter_cons]
        split <;> simp
      · rw [List.foldl_cons, hprobes, hprobing, List.filter_cons]
        split <;> simp
      · rw [List.foldl_cons, hheadroom, hstated, List.filterMap_cons]
        cases item.rejection.statedHeadroom with
        | none => rfl
        | some stated =>
            cases hlast : (rejected.filterMap fun item =>
                item.rejection.statedHeadroom).getLast? with
            | none => simp [List.getLast?_eq_none_iff.1 hlast]
            | some last => simp [List.getLast?_cons, hlast]
      · intro free headroomBytes
        rw [List.foldl_cons, hrequired, hestimate, fitsIn_smaller]
        simp [or_assoc]

variable {rejected : List RejectedCandidate}

theorem classifyRejections_candidates :
    (classifyRejections rejected).candidates =
      (rejected.filter fun item => item.rejection.short).map
        fun item => item.subject.facts.canonicalId := by
  have hfold := (AdmissionVerdict.foldl_note rejected {}).1
  rwa [List.nil_append] at hfold

theorem mem_classifyRejections_probeCandidates {canonicalId : String} :
    canonicalId ∈ (classifyRejections rejected).probeCandidates ↔
      ∃ item ∈ rejected, item.rejection.probing = true ∧
        item.subject.facts.canonicalId = canonicalId := by
  have hfold := (AdmissionVerdict.foldl_note rejected {}).2.1
  simp only [List.nil_append] at hfold
  simp [classifyRejections, hfold, List.mem_eraseDups, and_assoc]

theorem classifyRejections_headroomBytes :
    (classifyRejections rejected).headroomBytes =
      (rejected.filterMap fun item => item.rejection.statedHeadroom).getLast? := by
  have hfold := (AdmissionVerdict.foldl_note rejected {}).2.2.1
  cases hlast : (rejected.filterMap fun item => item.rejection.statedHeadroom).getLast? <;>
    rw [hlast] at hfold <;> exact hfold

/-- The recorded requirement fits where one of the estimates does. -/
theorem fitsIn_classifyRejections {free : Option ℕ} {headroomBytes : ℕ} :
    fitsIn (classifyRejections rejected).requiredBytes free headroomBytes = true ↔
      ∃ item ∈ rejected, fitsIn item.rejection.estimatedBytes free headroomBytes = true := by
  have hfold := (AdmissionVerdict.foldl_note rejected {}).2.2.2 free headroomBytes
  have hnone : ¬ fitsIn none free headroomBytes = true := by simp [fitsIn]
  rwa [or_iff_right hnone] at hfold

theorem classifyRejections_candidates_eq_nil :
    (classifyRejections rejected).candidates = [] ↔
      ∀ item ∈ rejected, item.rejection.short = false := by
  simp [classifyRejections_candidates, List.filter_eq_nil_iff]

theorem classifyRejections_probeCandidates_eq_nil :
    (classifyRejections rejected).probeCandidates = [] ↔
      ∀ item ∈ rejected, item.rejection.probing = false := by
  rw [List.eq_nil_iff_forall_not_mem]
  simp only [mem_classifyRejections_probeCandidates, not_exists, not_and, Bool.eq_false_iff]
  constructor
  · intro hnone item hitem hprobing
    exact hnone _ item hitem hprobing rfl
  · intro hnone canonicalId item hitem hprobing _
    exact hnone item hitem hprobing

/-- **When a job waits**: some rejection is one that time may undo. -/
theorem classifyRejections_defer :
    (classifyRejections rejected).defer = true ↔
      ∃ item ∈ rejected, item.rejection.short = true ∨ item.rejection.probing = true := by
  have hdefer : (classifyRejections rejected).defer = true ↔
      ¬ ((classifyRejections rejected).candidates = [] ∧
        (classifyRejections rejected).probeCandidates = []) := by
    rw [classifyRejections_probeCandidates_eq_nil, ← not_iff_not]
    have hprobes := (AdmissionVerdict.foldl_note rejected {}).2.1
    simp only [List.nil_append] at hprobes
    simp [classifyRejections, hprobes, List.filter_eq_nil_iff]
  rw [hdefer, classifyRejections_candidates_eq_nil, classifyRejections_probeCandidates_eq_nil]
  grind

/-! ### Where a ranked candidate is placed -/

/-- The candidates a worker goes through, the primary first. -/
def Ranking.candidates (ranking : Ranking) : List RankedCandidate :=
  ranking.primary.toList ++ ranking.fallbacks

/-- The requirement and the headroom fit into a free figure of the snapshot. -/
def FitsOn (snapshot : Option TelemetrySnapshot) (required : Option ℕ)
    (headroomBytes gpuIndex : ℕ) : Prop :=
  ∃ observed bytes free, snapshot = some observed ∧ required = some bytes ∧
    (gpuIndex, some free) ∈ freeVramByGpu observed ∧ bytes + headroomBytes ≤ free

theorem target_of_place {canonicalId : String} {estimate : VramEstimate}
    {inputs : ConstraintInputs} {fits : List DeviceFit} {gpuIndex : ℕ}
    (h : place canonicalId estimate inputs = .on fits (some gpuIndex)) :
    gpuIndex ∈ inputs.residentDevices canonicalId ∨
      FitsOn inputs.snapshot estimate.totalBytes inputs.vramHeadroomBytes gpuIndex := by
  unfold place at h
  split at h
  · cases h
  · rename_i snapshot hsnapshot
    dsimp only at h
    split at h
    · split at h <;> cases h
    · split at h
      · rename_i fit hfit
        cases h
        have hresident := List.find?_some hfit
        exact .inl (List.contains_iff_mem.1 hresident)
      · split at h
        · rename_i fit hfit
          cases h
          obtain ⟨device, hdevice, rfl⟩ := List.mem_map.1 (List.mem_of_find?_eq_some hfit)
          have hfits := List.find?_some hfit
          simp only [fitsIn, Option.any_eq_true, decide_eq_true_eq] at hfits
          obtain ⟨bytes, hbytes, free, hfree, hle⟩ := hfits
          refine .inr ⟨snapshot, bytes, free, hsnapshot, hbytes, ?_, hle⟩
          rw [List.mem_insertionSort] at hdevice
          rwa [← hfree]
        · cases h

theorem place_of_evaluateConstraints {hash : RuntimeProfile → String} {subject : ExecutionSubject}
    {estimate : VramEstimate} {inputs : ConstraintInputs} {fits : List DeviceFit}
    {target : Option ℕ}
    (h : evaluateConstraints hash subject estimate inputs = .ok (fits, target)) :
    place subject.facts.canonicalId estimate inputs = .on fits target := by
  unfold evaluateConstraints at h
  split at h
  · cases h
  · split at h
    · cases h
    · rename_i hplace
      split at h <;> cases h
      exact hplace

/-- A candidate a request is executed on is one of the ranking. -/
theorem Ranking.mem_ordered {candidates : List RankedCandidate} {depth : ℕ} {disallow : Bool}
    {c : RankedCandidate} (hc : c ∈ (rankCandidates candidates depth disallow).candidates) :
    c ∈ (rankCandidates candidates depth disallow).ordered := by
  rcases List.mem_append.1 hc with hprimary | hfallback
  · exact List.mem_of_head? (Option.mem_toList.1 hprimary)
  · exact List.mem_of_mem_tail (List.mem_of_mem_take hfallback)

theorem mem_candidates_rankCandidates {candidates : List RankedCandidate} {depth : ℕ}
    {disallow : Bool} {c : RankedCandidate}
    (hc : c ∈ (rankCandidates candidates depth disallow).candidates) :
    ∃ c' ∈ candidates, c = { c' with rank := c.rank } := by
  obtain ⟨⟨c', rank⟩, hc', rfl⟩ := List.mem_map.1 (Ranking.mem_ordered hc)
  have hsorted := List.fst_mem_of_mem_zipIdx hc'
  rw [List.mem_insertionSort] at hsorted
  exact ⟨c', hsorted, rfl⟩

/-- **A ranked candidate is on a device where its model is resident, or where it fits** into what
the snapshot has free. -/
theorem placed_of_route {s : RouterState} {request : RouteRequest} {d : Decision}
    (h : route s request = .ok d) {c : RankedCandidate} (hc : c ∈ d.ranking.candidates)
    {gpuIndex : ℕ} (htarget : c.targetGpuIndex = some gpuIndex) :
    gpuIndex ∈ s.residentDevices c.subject.facts.canonicalId ∨
      FitsOn s.snapshot c.estimatedVramBytes s.policy.vramHeadroomBytes gpuIndex := by
  obtain ⟨cs, r, hc⟩ : ∃ cs r, c ∈ (ranked s request cs r).candidates := by
    rw [route, decision_eq] at h
    cases hposed : posed s request with
    | error x =>
        rw [hposed] at h
        cases h
    | ok p =>
        rw [hposed] at h
        simp only [Except.map] at h
        split at h <;> cases h
        exact ⟨_, _, hc⟩
  obtain ⟨c', hc', hrank⟩ := mem_candidates_rankCandidates hc
  obtain ⟨verdict, hverdict, hranked⟩ := List.mem_filterMap.1 hc'
  obtain ⟨posed, -, rfl⟩ := List.mem_map.1 hverdict
  rw [hrank] at htarget ⊢
  unfold judgeCandidate at hranked
  dsimp only at hranked
  split at hranked
  · cases hranked
  split at hranked
  · cases hranked
  split at hranked
  · cases hranked
  · rename_i fits target hconstraints
    cases hranked
    exact target_of_place ((place_of_evaluateConstraints hconstraints).trans (by rw [← htarget]))

end LoadCoach.Routing

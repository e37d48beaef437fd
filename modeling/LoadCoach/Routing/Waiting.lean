import LoadCoach.Routing.Admission

/-! # Jobs that wait

A worker that cannot place a job defers it with the verdict on its rejections (`_route` and
`_defer` of `services/worker.py`), and the scheduler decides from that record alone when the job
goes back to the queue (`reevaluate_waiting`).  The record keeps the smallest estimate, the
headroom and the names of the candidates; what the router reads live besides is not in it.

Where a device is visible the sweep sees room exactly where one of the recorded candidates has
room (`roomFor_iff`).  It looks at nothing else: not at the memory of a host without devices, not
at the other constraints of a candidate that has room, and it knows a probed subject by the name
of its bare model, while the breakers know it by its own.  Both results say what the sweep would
have to see: when it leaves a job alone that its breakers hold back
(`breaker_keeps_waiting_iff`), and when a job it re-queues is not deferred again for the same
reason (`requeued_not_deferred_iff`). -/

namespace LoadCoach.Routing

open Foundations

/-! ### Routing a claimed job -/

/-- What `_route` does with a job. -/
inductive RoutingOutcome where
  | routed (d : Decision)
  /-- To `waiting_resources`, with the verdict. -/
  | deferred (verdict : AdmissionVerdict)
  | failed (rejected : List RejectedCandidate)
  | raised (x : Raised)

/-- Route a claimed job with the machine as it is. -/
def routeJob (s : RouterState) (request : RouteRequest) : RoutingOutcome :=
  match route s request with
  | .ok d => .routed d
  | .error (.raised x) => .raised x
  | .error (.noEligibleModel _ rejected) =>
      if (classifyRejections rejected).defer then .deferred (classifyRejections rejected)
      else .failed rejected

/-- Routing defers a job, for a reason. -/
def DeferredFor (s : RouterState) (request : RouteRequest) (reason : DeferReason) : Prop :=
  ∃ verdict, routeJob s request = .deferred verdict ∧ verdict.reason = reason

/-! ### The sweep -/

/-- Whether the sweep re-queues a job with this record; `none` where there is none. -/
def proceeds (s : RouterState) (record : Option AdmissionVerdict) : Bool :=
  let probeWaiting := (record.map AdmissionVerdict.probeCandidates).getD []
  if probeWaiting ≠ [] ∧ ∀ id ∈ probeWaiting, s.openCircuitBreakers.contains id = false then true
  else if probeWaiting ≠ [] ∧ (record.map AdmissionVerdict.candidates).getD [] = [] then false
  else
    match record, s.snapshot with
    | some record, some snapshot =>
        if snapshot.gpus.isEmpty then true
        else
          waitingJobCanProceed record.requiredBytes
            (record.headroomBytes.getD s.policy.vramHeadroomBytes) (freeVramByGpu snapshot)
            (record.candidates.flatMap s.residentDevices)
    | _, _ => true

/-- `reevaluate_waiting`: the waiting jobs that are re-queued.  `moved` tells the jobs that are
still waiting when they are moved. -/
def reevaluateWaiting (s : RouterState) (waiting : List (String × Option AdmissionVerdict))
    (moved : String → Bool) : List String :=
  (waiting.filter fun e => proceeds s e.2 && moved e.1).map Prod.fst

theorem mem_reevaluateWaiting {s : RouterState}
    {waiting : List (String × Option AdmissionVerdict)} {moved : String → Bool} {id : String}
    {record : Option AdmissionVerdict} (hnodup : (waiting.map Prod.fst).Nodup)
    (hmem : (id, record) ∈ waiting) (hmoved : moved id = true) :
    id ∈ reevaluateWaiting s waiting moved ↔ proceeds s record = true := by
  unfold reevaluateWaiting
  rw [List.mem_map]
  constructor
  · rintro ⟨e, he, hid⟩
    obtain ⟨hmem', hproceeds⟩ := List.mem_filter.1 he
    have heq : e = (id, record) := List.inj_on_of_nodup_map hnodup hmem' hmem hid
    rw [Bool.and_eq_true, heq] at hproceeds
    exact hproceeds.1
  · intro hproceeds
    refine ⟨(id, record), List.mem_filter.2 ⟨hmem, ?_⟩, rfl⟩
    simp [hproceeds, hmoved]

/-! ### What would keep a job waiting -/

/-- The headroom a sweep reserves for a job: the one its rejections state, or the policy's. -/
def headroomFor (s : RouterState) (rejected : List RejectedCandidate) : ℕ :=
  (rejected.filterMap fun item => item.rejection.statedHeadroom).getLast?.getD
    s.policy.vramHeadroomBytes

/-- A rejected candidate has room now: its model is resident on a visible device, or its estimate
fits into one. -/
def RoomFor (s : RouterState) (headroomBytes : ℕ) (snapshot : TelemetrySnapshot)
    (item : RejectedCandidate) : Prop :=
  ∃ device ∈ freeVramByGpu snapshot,
    device.1 ∈ s.residentDevices item.subject.facts.canonicalId ∨
      fitsIn item.rejection.estimatedBytes device.2 headroomBytes = true

/-- What keeps a job waiting.  Where it was deferred for a probe, the bare model of a probed
subject is itself excluded; where it was deferred for memory, a device is visible and none of the
candidates that were short has room. -/
structure StaysWaiting (s : RouterState) (rejected : List RejectedCandidate) : Prop where
  probe : (∃ item ∈ rejected, item.rejection.probing = true) →
    ∃ item ∈ rejected, item.rejection.probing = true ∧
      s.openCircuitBreakers.contains item.subject.facts.canonicalId = true
  memory : (∃ item ∈ rejected, item.rejection.short = true) →
    ∃ snapshot, s.snapshot = some snapshot ∧ snapshot.gpus ≠ [] ∧
      ∀ item ∈ rejected, item.rejection.short = true →
        ¬ RoomFor s (headroomFor s rejected) snapshot item

variable {s : RouterState} {rejected : List RejectedCandidate}

theorem waitingJobCanProceed_eq (requiredBytes : Option ℕ) (headroomBytes : ℕ)
    (free : List (ℕ × Option ℕ)) (residentOn : List ℕ) :
    waitingJobCanProceed requiredBytes headroomBytes free residentOn =
      ((free.any fun e => residentOn.contains e.1) ||
        free.any fun e => fitsIn requiredBytes e.2 headroomBytes) := by
  unfold waitingJobCanProceed
  split <;> rename_i hresident
  · rw [hresident, Bool.true_or]
  · rw [Bool.eq_false_iff.2 hresident, Bool.false_or]
    cases requiredBytes with
    | none => simp [fitsIn]
    | some required => rfl

theorem short_of_fitsIn {item : RejectedCandidate} {free : Option ℕ} {headroomBytes : ℕ}
    (h : fitsIn item.rejection.estimatedBytes free headroomBytes = true) :
    item.rejection.short = true := by
  cases hrejection : item.rejection with
  | insufficientVram _ _ _ => rfl
  | insufficientRam _ _ => rfl
  | _ =>
      rw [hrejection] at h
      cases h

/-- **The sweep sees room exactly where a recorded candidate has room.** -/
theorem roomFor_iff {snapshot : TelemetrySnapshot} :
    waitingJobCanProceed (classifyRejections rejected).requiredBytes (headroomFor s rejected)
        (freeVramByGpu snapshot)
        ((classifyRejections rejected).candidates.flatMap s.residentDevices) = true ↔
      ∃ item ∈ rejected, item.rejection.short = true ∧
        RoomFor s (headroomFor s rejected) snapshot item := by
  rw [waitingJobCanProceed_eq, Bool.or_eq_true, List.any_eq_true, List.any_eq_true,
    classifyRejections_candidates]
  constructor
  · rintro (⟨device, hdevice, hresident⟩ | ⟨device, hdevice, hfits⟩)
    · simp only [List.contains_iff_mem, List.mem_flatMap, List.mem_map,
        List.mem_filter] at hresident
      obtain ⟨_, ⟨item, ⟨hitem, hshort⟩, rfl⟩, hresident⟩ := hresident
      exact ⟨item, hitem, hshort, device, hdevice, .inl hresident⟩
    · obtain ⟨item, hitem, hfits⟩ := fitsIn_classifyRejections.1 hfits
      exact ⟨item, hitem, short_of_fitsIn hfits, device, hdevice, .inr hfits⟩
  · rintro ⟨item, hitem, hshort, device, hdevice, hresident | hfits⟩
    · refine .inl ⟨device, hdevice, ?_⟩
      simp only [List.contains_iff_mem, List.mem_flatMap, List.mem_map, List.mem_filter]
      exact ⟨_, ⟨item, ⟨hitem, hshort⟩, rfl⟩, hresident⟩
    · exact .inr ⟨device, hdevice, fitsIn_classifyRejections.2 ⟨item, hitem, hfits⟩⟩

theorem probesCleared_iff :
    ((classifyRejections rejected).probeCandidates ≠ [] ∧
        ∀ id ∈ (classifyRejections rejected).probeCandidates,
          s.openCircuitBreakers.contains id = false) ↔
      ¬ ((∃ item ∈ rejected, item.rejection.probing = true) →
        ∃ item ∈ rejected, item.rejection.probing = true ∧
          s.openCircuitBreakers.contains item.subject.facts.canonicalId = true) := by
  rw [Ne, classifyRejections_probeCandidates_eq_nil]
  simp only [mem_classifyRejections_probeCandidates]
  constructor
  · rintro ⟨hprobed, hclear⟩ hexcluded
    obtain ⟨item, hitem, hprobing, hcontains⟩ := hexcluded (by simpa using hprobed)
    rw [hclear _ ⟨item, hitem, hprobing, rfl⟩] at hcontains
    cases hcontains
  · intro hnot
    obtain ⟨⟨item, hitem, hprobing⟩, hnone⟩ := Classical.not_imp.1 hnot
    refine ⟨?_, ?_⟩
    · intro hall
      rw [hall item hitem] at hprobing
      cases hprobing
    · rintro _ ⟨item', hitem', hprobing', rfl⟩
      exact Bool.eq_false_iff.2 fun hcontains => hnone ⟨item', hitem', hprobing', hcontains⟩

/-- **What the sweep decides on a deferred job.** -/
theorem proceeds_eq_false_iff (hdefer : (classifyRejections rejected).defer = true) :
    proceeds s (some (classifyRejections rejected)) = false ↔ StaysWaiting s rejected := by
  unfold proceeds
  simp only [Option.map_some, Option.getD_some]
  split <;> rename_i hcleared
  · have hprobe := probesCleared_iff.1 hcleared
    simp only [Bool.true_eq_false, false_iff]
    exact fun hstays => hprobe hstays.probe
  · have hprobe := not_not.1 (mt probesCleared_iff.2 hcleared)
    split <;> rename_i hpure
    · rw [classifyRejections_candidates_eq_nil] at hpure
      simp only [true_iff]
      refine ⟨hprobe, ?_⟩
      rintro ⟨item, hitem, hshort⟩
      rw [hpure.2 item hitem] at hshort
      cases hshort
    · -- a deferral without a probe is for memory
      have hshort : ∃ item ∈ rejected, item.rejection.short = true := by
        by_contra hnone
        have hcandidates : (classifyRejections rejected).candidates = [] := by
          rw [classifyRejections_candidates_eq_nil]
          simpa using hnone
        refine hpure ⟨?_, hcandidates⟩
        obtain ⟨item, hitem, hshort | hprobing⟩ := classifyRejections_defer.1 hdefer
        · exact absurd ⟨item, hitem, hshort⟩ hnone
        · rw [Ne, classifyRejections_probeCandidates_eq_nil]
          intro hall
          rw [hall item hitem] at hprobing
          cases hprobing
      cases hsnapshot : s.snapshot with
      | none =>
          simp only [Bool.true_eq_false, false_iff]
          intro hstays
          obtain ⟨snapshot, hsome, -⟩ := hstays.memory hshort
          rw [hsnapshot] at hsome
          cases hsome
      | some snapshot =>
          simp only
          split <;> rename_i hgpus
          · simp only [Bool.true_eq_false, false_iff]
            intro hstays
            obtain ⟨snapshot', hsome, hvisible, -⟩ := hstays.memory hshort
            rw [hsnapshot] at hsome
            cases hsome
            exact hvisible (List.isEmpty_iff.1 hgpus)
          · rw [classifyRejections_headroomBytes, ← headroomFor, ← Bool.not_eq_true, roomFor_iff]
            constructor
            · intro hnone
              refine ⟨hprobe, fun _ =>
                ⟨snapshot, hsnapshot, fun hnil => hgpus (by simp [hnil]), ?_⟩⟩
              exact fun item hitem hshort hroom => hnone ⟨item, hitem, hshort, hroom⟩
            · rintro hstays ⟨item, hitem, hshort', hroom⟩
              obtain ⟨snapshot', hsome, -, hnone⟩ := hstays.memory hshort
              rw [hsnapshot] at hsome
              cases hsome
              exact hnone item hitem hshort' hroom

/-! ### What routing decides on a candidate -/

section Candidates

variable (s : RouterState) (request : RouteRequest) (r : Requirements) (c : Candidate)

/-- The subject of a candidate. -/
def subjectOf : ExecutionSubject := (buildSubject s request.overrides r.constraints c).2

/-- A candidate has a context, and the request's pins leave it in the pool. -/
def InPool : Prop :=
  (buildSubject s request.overrides r.constraints c).1.isSome = true ∧
    selectedBy request.overrides c = true

/-- Where the memory constraints place a candidate. -/
def placementOf : Placement :=
  place (subjectOf s request r c).facts.canonicalId (subjectEstimate (subjectOf s request r c))
    (constraintInputs s request r (subjectOf s request r c))

/-- What the constraints before those on memory say of a candidate. -/
def providerRefusal : Option Rejection :=
  checkProvider (subjectOf s request r c) (constraintInputs s request r (subjectOf s request r c))

/-- What the constraints after those on memory say of a candidate. -/
def selectionRefusal : Option Rejection :=
  checkSelection s.profileHash (subjectOf s request r c)
    (constraintInputs s request r (subjectOf s request r c))

/-- No hard constraint refuses the candidate. -/
structure Admissible : Prop where
  pool : InPool s request r c
  provider : providerRefusal s request r c = none
  placed : ∃ fits target, placementOf s request r c = .on fits target
  selection : selectionRefusal s request r c = none

/-- The first constraint that refuses the candidate is one on memory. -/
structure ShortOfMemory : Prop where
  pool : InPool s request r c
  provider : providerRefusal s request r c = none
  placed : ∃ rejection, placementOf s request r c = .rejected rejection

/-- Only the probe of its half-open breaker keeps the candidate from running. -/
structure HeldByProbe : Prop where
  pool : InPool s request r c
  provider : providerRefusal s request r c = none
  placed : ∃ fits target, placementOf s request r c = .on fits target
  selection : ∃ rejection, selectionRefusal s request r c = some rejection ∧
    rejection.probing = true

end Candidates

/-- No candidate of a request passes the hard constraints. -/
def NoneAdmissible (s : RouterState) (request : RouteRequest) : Prop :=
  ∃ cs r, posed s request = .ok (cs, r) ∧ ∀ c ∈ cs, ¬ Admissible s request r c

/-- Every candidate is refused, and one of them for the reason. -/
def RefusedFor (s : RouterState) (request : RouteRequest) (reason : DeferReason) : Prop :=
  ∃ cs r, posed s request = .ok (cs, r) ∧ (∀ c ∈ cs, ¬ Admissible s request r c) ∧
    match reason with
    | .insufficientResources => ∃ c ∈ cs, ShortOfMemory s request r c
    | .probeInFlight =>
        (∀ c ∈ cs, ¬ ShortOfMemory s request r c) ∧ ∃ c ∈ cs, HeldByProbe s request r c

/-! ### The constraints by the kind of their rejections -/

/-- Neither short of memory nor probing. -/
def Rejection.lasting (rejection : Rejection) : Prop :=
  rejection.short = false ∧ rejection.probing = false

theorem runtimeProfileRefusal_lasting {profile : RuntimeProfile} {kind : String}
    {rejection : Rejection} (h : runtimeProfileRefusal profile kind = some rejection) :
    rejection.lasting := by
  unfold runtimeProfileRefusal at h
  (repeat' split at h) <;> cases h <;> exact ⟨rfl, rfl⟩

theorem checkProvider_lasting {subject : ExecutionSubject} {inputs : ConstraintInputs}
    {rejection : Rejection} (h : checkProvider subject inputs = some rejection) :
    rejection.lasting := by
  unfold checkProvider at h
  dsimp only at h
  split at h
  · cases h
    exact ⟨rfl, rfl⟩
  split at h
  · rename_i refusal hrefusal
    cases h
    exact runtimeProfileRefusal_lasting hrefusal
  iterate 5
    split at h
    · cases h
      exact ⟨rfl, rfl⟩
  split at h
  · cases h
  · obtain ⟨_, -, rfl⟩ := Option.map_eq_some_iff.1 h
    exact ⟨rfl, rfl⟩

theorem place_rejected {canonicalId : String} {estimate : VramEstimate} {inputs : ConstraintInputs}
    {rejection : Rejection} (h : place canonicalId estimate inputs = .rejected rejection) :
    rejection.short = true ∧ rejection.probing = false := by
  unfold place at h
  split at h
  · cases h
  dsimp only at h
  split at h
  · split at h <;> cases h
    rename_i hram
    unfold checkHostRam at hram
    (repeat' split at hram) <;> cases hram
    exact ⟨rfl, rfl⟩
  · (repeat' split at h) <;> cases h
    exact ⟨rfl, rfl⟩

theorem checkSelection_short {hash : RuntimeProfile → String} {subject : ExecutionSubject}
    {inputs : ConstraintInputs} {rejection : Rejection}
    (h : checkSelection hash subject inputs = some rejection) : rejection.short = false := by
  have hscores : ∀ x, checkScores inputs = some x → x.short = false := by
    intro x hx
    obtain ⟨e, -, he⟩ := List.exists_of_findSome?_eq_some hx
    obtain ⟨score, -, hscore⟩ := Option.bind_eq_some_iff.1 he
    split at hscore <;> cases hscore
    rfl
  have hpolicy : ∀ x, checkPolicy subject.facts inputs = some x → x.short = false := by
    intro x hx
    unfold checkPolicy at hx
    (repeat' split at hx) <;> cases hx <;> rfl
  have hadapter : ∀ adapter x, checkAdapter hash subject adapter inputs = some x →
      x.short = false := by
    intro adapter x hx
    unfold checkAdapter at hx
    dsimp only at hx
    (repeat' split at hx) <;> cases hx <;> rfl
  have hbreaker : ∀ x, checkBreaker subject inputs = some x → x.short = false := by
    intro x hx
    unfold checkBreaker at hx
    split at hx <;> cases hx
    rfl
  simp only [checkSelection, Option.orElse_eq_some] at h
  rcases h with h | ⟨-, h | ⟨-, h | ⟨-, h⟩⟩⟩
  · exact hscores _ h
  · exact hpolicy _ h
  · obtain ⟨adapter, -, h⟩ := Option.bind_eq_some_iff.1 h
    exact hadapter _ _ h
  · exact hbreaker _ h

/-! ### What routing decides -/

section Judgement

variable {s : RouterState} {request : RouteRequest} {r : Requirements} {c : Candidate}

/-- **The verdict on a candidate**, by the constraint that decides it. -/
theorem judgeCandidate_cases (s : RouterState) (request : RouteRequest) (r : Requirements)
    (c : Candidate) :
    (¬ InPool s request r c ∧ (judgeCandidate s request r c).ranked? = none ∧
        ∀ item, (judgeCandidate s request r c).rejected? = some item → item.rejection.lasting) ∨
      (InPool s request r c ∧ ∃ item, judgeCandidate s request r c = .rejected item ∧
        (providerRefusal s request r c = some item.rejection ∨
          providerRefusal s request r c = none ∧
            (placementOf s request r c = .rejected item.rejection ∨
              (∃ fits target, placementOf s request r c = .on fits target) ∧
                selectionRefusal s request r c = some item.rejection))) ∨
      (Admissible s request r c ∧
        ∃ candidate, judgeCandidate s request r c = .ranked candidate) := by
  have hjudge : judgeCandidate s request r c = judgeCandidate s request r c := rfl
  conv_rhs at hjudge => unfold judgeCandidate
  dsimp only at hjudge
  split at hjudge
  · rename_i hcontext
    refine .inl ⟨fun hpool => ?_, by rw [hjudge]; rfl, ?_⟩
    · rw [Option.isNone_iff_eq_none] at hcontext
      rw [InPool, hcontext] at hpool
      cases hpool.1
    · rw [hjudge]
      rintro item ⟨⟩
      exact ⟨rfl, rfl⟩
  split at hjudge
  · rename_i hselected
    refine .inl ⟨fun hpool => ?_, by rw [hjudge]; rfl, ?_⟩
    · rw [hpool.2] at hselected
      cases hselected
    · rw [hjudge]
      rintro item ⟨⟩
  rename_i hcontext hselected
  have hpool : InPool s request r c := by
    refine ⟨?_, by simpa using hselected⟩
    rwa [Bool.not_eq_true, Option.isNone_eq_false_iff] at hcontext
  rw [evaluateConstraints,
    show (buildSubject s request.overrides r.constraints c).2 = subjectOf s request r c from rfl]
    at hjudge
  cases hprovider : providerRefusal s request r c with
  | some rejection =>
      rw [show checkProvider _ _ = some rejection from hprovider] at hjudge
      exact .inr (.inl ⟨hpool, _, hjudge, .inl rfl⟩)
  | none =>
      rw [show checkProvider _ _ = none from hprovider] at hjudge
      cases hplaced : placementOf s request r c with
      | rejected rejection =>
          rw [show place _ _ _ = _ from hplaced] at hjudge
          exact .inr (.inl ⟨hpool, _, hjudge, .inr ⟨rfl, .inl rfl⟩⟩)
      | on fits target =>
          rw [show place _ _ _ = _ from hplaced] at hjudge
          cases hselection : selectionRefusal s request r c with
          | some rejection =>
              rw [show checkSelection _ _ _ = some rejection from hselection] at hjudge
              exact .inr (.inl ⟨hpool, _, hjudge, .inr ⟨rfl, .inr ⟨⟨_, _, rfl⟩, rfl⟩⟩⟩)
          | none =>
              rw [show checkSelection _ _ _ = none from hselection] at hjudge
              exact .inr (.inr ⟨⟨hpool, hprovider, ⟨_, _, hplaced⟩, hselection⟩, _, hjudge⟩)

theorem ranked?_eq_none_iff :
    (judgeCandidate s request r c).ranked? = none ↔ ¬ Admissible s request r c := by
  rcases judgeCandidate_cases s request r c with ⟨hpool, hranked, -⟩ |
    ⟨-, item, hitem, hwhy⟩ | ⟨hadmissible, candidate, hranked⟩
  · exact iff_of_true hranked fun hadmissible => hpool hadmissible.pool
  · rw [hitem]
    refine iff_of_true rfl fun hadmissible => ?_
    obtain ⟨-, hprovider, ⟨fits, target, hplaced⟩, hselection⟩ := hadmissible
    rw [hprovider, hplaced, hselection] at hwhy
    simp at hwhy
  · rw [hranked]
    exact iff_of_false (by simp [Verdict.ranked?]) (not_not.2 hadmissible)

theorem exists_short_iff :
    (∃ item, (judgeCandidate s request r c).rejected? = some item ∧
      item.rejection.short = true) ↔ ShortOfMemory s request r c := by
  rcases judgeCandidate_cases s request r c with ⟨hpool, -, hlasting⟩ |
    ⟨hpool, item, hitem, hwhy⟩ | ⟨hadmissible, candidate, hranked⟩
  · refine iff_of_false ?_ fun hshort => hpool hshort.pool
    rintro ⟨item, hitem, hshort⟩
    rw [(hlasting item hitem).1] at hshort
    cases hshort
  · rw [hitem]
    simp only [Verdict.rejected?, Option.some.injEq, exists_eq_left']
    rcases hwhy with hprovider | ⟨hprovider, hplaced | ⟨⟨fits, target, hplaced⟩, hselection⟩⟩
    · refine iff_of_false ?_ fun hshort => ?_
      · rw [(checkProvider_lasting hprovider).1]
        simp
      · rw [hshort.provider] at hprovider
        cases hprovider
    · exact iff_of_true (place_rejected hplaced).1 ⟨hpool, hprovider, _, hplaced⟩
    · refine iff_of_false ?_ fun hshort => ?_
      · rw [checkSelection_short hselection]
        simp
      · obtain ⟨rejection, hrejected⟩ := hshort.placed
        rw [hplaced] at hrejected
        cases hrejected
  · rw [hranked]
    refine iff_of_false ?_ fun hshort => ?_
    · rintro ⟨item, hitem, -⟩
      cases hitem
    · obtain ⟨fits, target, hplaced⟩ := hadmissible.placed
      obtain ⟨rejection, hrejected⟩ := hshort.placed
      rw [hplaced] at hrejected
      cases hrejected

theorem exists_probing_iff :
    (∃ item, (judgeCandidate s request r c).rejected? = some item ∧
      item.rejection.probing = true) ↔ HeldByProbe s request r c := by
  rcases judgeCandidate_cases s request r c with ⟨hpool, -, hlasting⟩ |
    ⟨hpool, item, hitem, hwhy⟩ | ⟨hadmissible, candidate, hranked⟩
  · refine iff_of_false ?_ fun hheld => hpool hheld.pool
    rintro ⟨item, hitem, hprobing⟩
    rw [(hlasting item hitem).2] at hprobing
    cases hprobing
  · rw [hitem]
    simp only [Verdict.rejected?, Option.some.injEq, exists_eq_left']
    rcases hwhy with hprovider | ⟨hprovider, hplaced | ⟨hplaced, hselection⟩⟩
    · refine iff_of_false ?_ fun hheld => ?_
      · rw [(checkProvider_lasting hprovider).2]
        simp
      · rw [hheld.provider] at hprovider
        cases hprovider
    · refine iff_of_false ?_ fun hheld => ?_
      · rw [(place_rejected hplaced).2]
        simp
      · obtain ⟨fits, target, hon⟩ := hheld.placed
        rw [hplaced] at hon
        cases hon
    · constructor
      · exact fun hprobing => ⟨hpool, hprovider, hplaced, _, hselection, hprobing⟩
      · intro hheld
        obtain ⟨rejection, hrejection, hprobing⟩ := hheld.selection
        rw [hselection] at hrejection
        cases hrejection
        exact hprobing
  · rw [hranked]
    refine iff_of_false ?_ fun hheld => ?_
    · rintro ⟨item, hitem, -⟩
      cases hitem
    · obtain ⟨rejection, hrejection, -⟩ := hheld.selection
      rw [hadmissible.selection] at hrejection
      cases hrejection

/-- A posed request finds no model where no candidate is admissible, and the refusal says which
candidates are short of memory and which are held by a probe. -/
theorem routeJob_deferred_iff {verdict : AdmissionVerdict} :
    routeJob s request = .deferred verdict ↔
      ∃ cs r, posed s request = .ok (cs, r) ∧ (∀ c ∈ cs, ¬ Admissible s request r c) ∧
        classifyRejections ((verdicts s request cs r).filterMap Verdict.rejected?) = verdict ∧
        verdict.defer = true := by
  unfold routeJob
  constructor
  · intro h
    split at h <;> rename_i hroute
    · cases h
    · cases h
    · obtain ⟨cs, r, hposed, -, hnone, rfl⟩ := route_eq_noEligibleModel.1 hroute
      split at h <;> rename_i hdefer <;> cases h
      exact ⟨cs, r, hposed, fun c hc => ranked?_eq_none_iff.1 (hnone c hc), rfl, hdefer⟩
  · rintro ⟨cs, r, hposed, hnone, rfl, hdefer⟩
    rw [route_eq_noEligibleModel.2 ⟨cs, r, hposed, rfl,
      fun c hc => ranked?_eq_none_iff.2 (hnone c hc), rfl⟩]
    simp only [hdefer, if_true]

theorem exists_rejected_iff {cs : List Candidate} {P : Rejection → Prop} :
    (∃ item ∈ (verdicts s request cs r).filterMap Verdict.rejected?, P item.rejection) ↔
      ∃ c ∈ cs, ∃ item, (judgeCandidate s request r c).rejected? = some item ∧
        P item.rejection := by
  simp only [verdicts, List.mem_filterMap, List.mem_map, exists_exists_and_eq_and]
  grind

end Judgement

theorem AdmissionVerdict.reason_eq_probeInFlight {rejected : List RejectedCandidate} :
    (classifyRejections rejected).reason = .probeInFlight ↔
      (∃ item ∈ rejected, item.rejection.probing = true) ∧
        ∀ item ∈ rejected, item.rejection.short = false := by
  rw [AdmissionVerdict.reason, ← classifyRejections_candidates_eq_nil]
  have hprobes : (classifyRejections rejected).probeCandidates = [] ↔
      ∀ item ∈ rejected, item.rejection.probing = false :=
    classifyRejections_probeCandidates_eq_nil
  split <;> rename_i h
  · simp only [true_iff]
    refine ⟨?_, h.2⟩
    simpa [hprobes] using h.1
  · simp only [reduceCtorEq, false_iff]
    rintro ⟨hprobing, hcandidates⟩
    refine h ⟨?_, hcandidates⟩
    simpa [hprobes] using hprobing

theorem AdmissionVerdict.reason_eq_insufficientResources {rejected : List RejectedCandidate}
    (hdefer : (classifyRejections rejected).defer = true) :
    (classifyRejections rejected).reason = .insufficientResources ↔
      ∃ item ∈ rejected, item.rejection.short = true := by
  have hprobe : (classifyRejections rejected).reason = .insufficientResources ↔
      ¬ (classifyRejections rejected).reason = .probeInFlight := by
    cases (classifyRejections rejected).reason <;> simp
  rw [hprobe, reason_eq_probeInFlight]
  constructor
  · intro hnot
    obtain ⟨item, hitem, hshort | hprobing⟩ := classifyRejections_defer.1 hdefer
    · exact ⟨item, hitem, hshort⟩
    · by_contra hnone
      exact hnot ⟨⟨item, hitem, hprobing⟩, by simpa using hnone⟩
  · rintro ⟨item, hitem, hshort⟩ ⟨-, hnone⟩
    rw [hnone item hitem] at hshort
    cases hshort

/-- **When routing defers a job, and for which reason.** -/
theorem deferredFor_iff {s : RouterState} {request : RouteRequest} {reason : DeferReason} :
    DeferredFor s request reason ↔ RefusedFor s request reason := by
  have hshort : ∀ cs r, (∃ item ∈ (verdicts s request cs r).filterMap Verdict.rejected?,
      item.rejection.short = true) ↔ ∃ c ∈ cs, ShortOfMemory s request r c := by
    intro cs r
    rw [exists_rejected_iff (P := fun x => x.short = true)]
    simp only [exists_short_iff]
  have hprobing : ∀ cs r, (∃ item ∈ (verdicts s request cs r).filterMap Verdict.rejected?,
      item.rejection.probing = true) ↔ ∃ c ∈ cs, HeldByProbe s request r c := by
    intro cs r
    rw [exists_rejected_iff (P := fun x => x.probing = true)]
    simp only [exists_probing_iff]
  constructor
  · rintro ⟨verdict, hdeferred, rfl⟩
    obtain ⟨cs, r, hposed, hnone, rfl, hdefer⟩ := routeJob_deferred_iff.1 hdeferred
    refine ⟨cs, r, hposed, hnone, ?_⟩
    cases hreason : (classifyRejections
        ((verdicts s request cs r).filterMap Verdict.rejected?)).reason with
    | insufficientResources =>
        exact (hshort cs r).1 ((AdmissionVerdict.reason_eq_insufficientResources hdefer).1 hreason)
    | probeInFlight =>
        obtain ⟨hprobed, hnoneShort⟩ := AdmissionVerdict.reason_eq_probeInFlight.1 hreason
        refine ⟨fun c hc hmemory => ?_, (hprobing cs r).1 hprobed⟩
        obtain ⟨item, hitem, hitemShort⟩ := (hshort cs r).2 ⟨c, hc, hmemory⟩
        rw [hnoneShort item hitem] at hitemShort
        cases hitemShort
  · rintro ⟨cs, r, hposed, hnone, hreason⟩
    cases reason with
    | insufficientResources =>
        have hmemory := (hshort cs r).2 hreason
        have hdefer := classifyRejections_defer.2
          (hmemory.imp fun item hitem => ⟨hitem.1, .inl hitem.2⟩)
        exact ⟨_, routeJob_deferred_iff.2 ⟨cs, r, hposed, hnone, rfl, hdefer⟩,
          (AdmissionVerdict.reason_eq_insufficientResources hdefer).2 hmemory⟩
    | probeInFlight =>
        have hprobed := (hprobing cs r).2 hreason.2
        have hdefer := classifyRejections_defer.2
          (hprobed.imp fun item hitem => ⟨hitem.1, .inr hitem.2⟩)
        refine ⟨_, routeJob_deferred_iff.2 ⟨cs, r, hposed, hnone, rfl, hdefer⟩,
          AdmissionVerdict.reason_eq_probeInFlight.2 ⟨hprobed, fun item hitem => ?_⟩⟩
        by_contra hitemShort
        obtain ⟨c, hc, hmemory⟩ := (hshort cs r).1 ⟨item, hitem, by simpa using hitemShort⟩
        exact hreason.1 c hc hmemory

/-! ### The main results -/

/-- A breaker rejected a subject of the job, it still excludes it, and no candidate is
admissible. -/
def HeldBack (s : RouterState) (request : RouteRequest) (rejected : List RejectedCandidate) :
    Prop :=
  (∃ item ∈ rejected, (∃ detail, item.rejection = .recentlyFailing detail) ∧
    s.openCircuitBreakers.contains item.subject.subjectCanonicalId = true) ∧
  NoneAdmissible s request

section Results

variable {s : RouterState} {rejected : List RejectedCandidate}
  {waiting : List (String × Option AdmissionVerdict)} {moved : String → Bool} {id : String}

theorem not_mem_reevaluateWaiting_iff (hdefer : (classifyRejections rejected).defer = true)
    (hnodup : (waiting.map Prod.fst).Nodup)
    (hmem : (id, some (classifyRejections rejected)) ∈ waiting) (hmoved : moved id = true) :
    id ∉ reevaluateWaiting s waiting moved ↔ StaysWaiting s rejected := by
  rw [mem_reevaluateWaiting hnodup hmem hmoved, Bool.not_eq_true, proceeds_eq_false_iff hdefer]

/-- **When a job that its breakers hold back stays waiting.**  The sweep leaves it exactly where
the bare model of a probed subject is excluded, if the job waits for a probe, and where a device
is visible and none of the candidates short of memory has room, if it waits for memory. -/
theorem breaker_keeps_waiting_iff (hdefer : (classifyRejections rejected).defer = true)
    (hnodup : (waiting.map Prod.fst).Nodup)
    (hmem : (id, some (classifyRejections rejected)) ∈ waiting) (hmoved : moved id = true)
    (request : RouteRequest) :
    (HeldBack s request rejected → id ∉ reevaluateWaiting s waiting moved) ↔
      (HeldBack s request rejected → StaysWaiting s rejected) := by
  rw [not_mem_reevaluateWaiting_iff hdefer hnodup hmem hmoved]

/-- **When a re-queued job is not deferred again for the same reason.**  Routing defers it again
where every candidate is refused and one of them is still short of memory, or still being
probed; the sweep agrees exactly where it leaves such a job waiting. -/
theorem requeued_not_deferred_iff (hdefer : (classifyRejections rejected).defer = true)
    (hnodup : (waiting.map Prod.fst).Nodup)
    (hmem : (id, some (classifyRejections rejected)) ∈ waiting) (hmoved : moved id = true)
    (request : RouteRequest) :
    (id ∈ reevaluateWaiting s waiting moved →
        ¬ DeferredFor s request (classifyRejections rejected).reason) ↔
      (RefusedFor s request (classifyRejections rejected).reason → StaysWaiting s rejected) := by
  rw [deferredFor_iff, ← not_mem_reevaluateWaiting_iff hdefer hnodup hmem hmoved]
  exact imp_not_comm

/-- A job that waits only for the probes of its breakers stays while a bare model among the
probed subjects is excluded. -/
theorem bareProbe_keeps_waiting (hnodup : (waiting.map Prod.fst).Nodup)
    (hmem : (id, some (classifyRejections rejected)) ∈ waiting) (hmoved : moved id = true)
    (hbare : ∃ item ∈ rejected, item.rejection.probing = true ∧ item.subject.adapter = none ∧
      s.openCircuitBreakers.contains item.subject.subjectCanonicalId = true)
    (hmemory : ∀ item ∈ rejected, item.rejection.short = false) :
    id ∉ reevaluateWaiting s waiting moved := by
  obtain ⟨item, hitem, hprobing, hadapter, hexcluded⟩ := hbare
  have hdefer := classifyRejections_defer.2 ⟨item, hitem, .inr hprobing⟩
  rw [not_mem_reevaluateWaiting_iff hdefer hnodup hmem hmoved]
  refine ⟨fun _ => ⟨item, hitem, hprobing, ?_⟩, ?_⟩
  · rwa [ExecutionSubject.subjectCanonicalId, hadapter] at hexcluded
  · rintro ⟨item', hitem', hshort⟩
    rw [hmemory item' hitem'] at hshort
    cases hshort

end Results

/-! ### An adapter under probe, and a resident model with an open breaker -/

/-- The rejections of a request that finds no model. -/
def refusals (s : RouterState) (request : RouteRequest) : List RejectedCandidate :=
  match route s request with
  | .error (.noEligibleModel _ rejected) => rejected
  | _ => []

/-- An adapter of the one model. -/
def summarizer : AdapterFacts where
  adapterId := "a"
  name := "summarizer"
  artifactDigest := "sha256:0123456789ab"
  baseModelName := "m"

/-- The breaker of the adapter on its model is half-open, and its probe is out. -/
def probedState : RouterState where
  taskProfiles := [{ profileId := "chat", weights := [("chat", 1)] }]
  registry :=
    { models :=
        [{ modelId := "m", canonicalId := "m", providerKind := "llamacpp"
           providerModelName := "m" }]
      adapters := fun _ => [summarizer] }
  provider := { reportedServedContext := some 4096, adapterHotSwap := true }
  openCircuitBreakers := ["m+summarizer@sha256:0123456789ab"]
  circuitBreakerDetails := fun _ => [("state", .str "half_open"), ("probe_in_flight", .bool true)]
  profileHash := fun _ => ""

/-- A request that asks for the adapter. -/
def pinnedRequest : RouteRequest where
  task := "chat"
  overrides := { adapter := some "summarizer" }

theorem route_probedState : route probedState pinnedRequest =
    .error (.noEligibleModel "chat" (refusals probedState pinnedRequest)) := rfl

theorem heldBack_probedState :
    HeldBack probedState pinnedRequest (refusals probedState pinnedRequest) := by
  refine ⟨⟨_, List.mem_cons_self, ⟨_, rfl⟩, rfl⟩, ?_⟩
  obtain ⟨cs, r, hposed, -, hnone, -⟩ := route_eq_noEligibleModel.1 route_probedState
  exact ⟨cs, r, hposed, fun c hc => ranked?_eq_none_iff.1 (hnone c hc)⟩

/-- The sweep re-queues a job whose only subject, an adapter, is still under probe. -/
theorem probed_adapter_requeued : ¬ ∀ s request task rejected,
    route s request = .error (.noEligibleModel task rejected) → HeldBack s request rejected →
      "j" ∉ reevaluateWaiting s [("j", some (classifyRejections rejected))] fun _ => true := by
  intro hclaim
  refine hclaim _ _ _ _ route_probedState heldBack_probedState ?_
  decide

/-- The equivalence for that job. -/
theorem breaker_keeps_waiting_iff_probed :
    (HeldBack probedState pinnedRequest (refusals probedState pinnedRequest) →
        "j" ∉ reevaluateWaiting probedState
          [("j", some (classifyRejections (refusals probedState pinnedRequest)))] fun _ => true) ↔
      (HeldBack probedState pinnedRequest (refusals probedState pinnedRequest) →
        StaysWaiting probedState (refusals probedState pinnedRequest)) :=
  breaker_keeps_waiting_iff rfl (by decide) List.mem_cons_self rfl pinnedRequest

/-- Two models of unknown size, and one device. -/
def unknownState : RouterState where
  taskProfiles := [{ profileId := "chat", weights := [("chat", 1)] }]
  registry :=
    { models :=
        [{ modelId := "m", canonicalId := "m", providerKind := "llamacpp"
           providerModelName := "m" },
         { modelId := "n", canonicalId := "n", providerKind := "llamacpp"
           providerModelName := "n" }] }
  provider := { reportedServedContext := some 4096 }
  snapshot := some { gpus := [⟨0, some 1000, some 0⟩] }
  profileHash := fun _ => ""

/-- Later the first model is resident and its breaker is open. -/
def residentState : RouterState :=
  { unknownState with
    residentDevices := fun id => if id = "m" then [0] else []
    openCircuitBreakers := ["m"]
    circuitBreakerDetails := fun _ => [("state", .str "open"), ("probe_in_flight", .bool false)] }

/-- A request of no particular size. -/
def plainRequest : RouteRequest where
  task := "chat"

theorem route_unknownState : route unknownState plainRequest =
    .error (.noEligibleModel "chat" (refusals unknownState plainRequest)) := rfl

theorem route_residentState : route residentState plainRequest =
    .error (.noEligibleModel "chat" (refusals residentState plainRequest)) := rfl

/-- The sweep re-queues a job for a resident model whose breaker is open, and routing defers it
again for the other one. -/
theorem resident_job_bounces : ¬ ∀ s₀ s request task rejected,
    route s₀ request = .error (.noEligibleModel task rejected) →
      (classifyRejections rejected).defer = true →
        "j" ∈ reevaluateWaiting s [("j", some (classifyRejections rejected))] (fun _ => true) →
          ¬ DeferredFor s request (classifyRejections rejected).reason := by
  intro hclaim
  refine hclaim _ residentState _ _ _ route_unknownState rfl (by decide)
    ⟨classifyRejections (refusals residentState plainRequest), ?_, rfl⟩
  rw [routeJob, route_residentState]
  rfl

/-- The equivalence for that job. -/
theorem requeued_not_deferred_iff_resident :
    ("j" ∈ reevaluateWaiting residentState
          [("j", some (classifyRejections (refusals unknownState plainRequest)))] (fun _ => true) →
        ¬ DeferredFor residentState plainRequest
          (classifyRejections (refusals unknownState plainRequest)).reason) ↔
      (RefusedFor residentState plainRequest
          (classifyRejections (refusals unknownState plainRequest)).reason →
        StaysWaiting residentState (refusals unknownState plainRequest)) :=
  requeued_not_deferred_iff rfl (by decide) List.mem_cons_self rfl plainRequest

end LoadCoach.Routing

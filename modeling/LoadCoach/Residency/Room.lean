import LoadCoach.Residency.DeviceMemory

/-! # The promise of admission

A step keeps `Room` on a device where it acts on a reading that is still good (`Room.step`), and so
does a run all of whose steps do (`aggregate_admission`).  A worker that publishes what it routed
on the registry, the residents and the memory as they still are does so
(`unpromised_of_undisturbed`).  Two workers that both route before either publishes do not: they
are admitted into the same memory. -/

namespace LoadCoach.Residency

open Foundations Routing

/-! ### The steps -/

namespace Devices

variable {W : Type} [DecidableEq W] {settings : AdmissionSettings} {gpuIndex : ℕ} {s : Devices W}

omit [DecidableEq W] in
theorem Room.add_slack (hroom : s.Room settings gpuIndex) :
    promised s.residents s.registry gpuIndex + settings.vramHeadroomBytes +
        s.slack settings gpuIndex =
      s.available settings gpuIndex (inUseModelIds s.registry) :=
  Nat.add_sub_cancel' hroom

theorem promised_others_le (s : Devices W) (gpuIndex : ℕ) (w : W) :
    promised s.residents (s.others w) gpuIndex ≤ promised s.residents s.registry gpuIndex :=
  promised_le_of_sublist List.filter_sublist

theorem mem_inUse_of_others {w : W} {modelId : String} (h : modelId ∈ inUseModelIds (s.others w)) :
    modelId ∈ inUseModelIds s.registry := by
  unfold inUseModelIds at h ⊢
  exact (List.filter_sublist.filterMap _).subset h

theorem available_others_le (s : Devices W) (settings : AdmissionSettings) (gpuIndex : ℕ) (w : W) :
    s.available settings gpuIndex (inUseModelIds s.registry) ≤
      s.available settings gpuIndex (inUseModelIds (s.others w)) :=
  Nat.add_le_add_left
    (evictableBytesByDevice_le fun _ _ _ hmem => mem_inUse_of_others hmem) _

theorem Room.of_others {w : W} (hroom : s.Room settings gpuIndex) :
    promised s.residents (s.others w) gpuIndex + settings.vramHeadroomBytes ≤
      s.available settings gpuIndex (inUseModelIds (s.others w)) := by
  have hpromised := promised_others_le s gpuIndex w
  have havailable := available_others_le s settings gpuIndex w
  unfold Room at hroom
  omega

theorem mem_registry_of_held {w : W} {job : HeldJob W} (h : s.held w = some job) :
    job ∈ s.registry :=
  List.mem_of_find?_eq_some h

omit [DecidableEq W] in
theorem routing_eq (s : Devices W) {w : W} {observed : Option TelemetrySnapshot}
    {router : RouterState} {request : RouteRequest} {d : Decision}
    (hroute : Routing.route
      { router with
        snapshot := adjustSnapshot observed (s.readings w).reserved (s.readings w).evictable
        residentDevices := residentDevices s.residents
        policy := { router.policy with vramHeadroomBytes := settings.vramHeadroomBytes } }
      request = .ok d) :
    s.routing settings w observed router request =
      { candidates := d.ranking.candidates
        snapshot := adjustSnapshot observed (s.readings w).reserved (s.readings w).evictable
        devices := residentDevices s.residents } := by
  simp only [routing, hroute]

omit [DecidableEq W] in
theorem fits_of_routing {w : W} {candidate : RankedCandidate} {observed : Option TelemetrySnapshot}
    {router : RouterState} {request : RouteRequest}
    (hc : candidate ∈ (s.routing settings w observed router request).candidates)
    (htarget : candidate.targetGpuIndex = some gpuIndex) :
    gpuIndex ∈ (s.routing settings w observed router request).devices
        candidate.subject.facts.canonicalId ∨
      FitsOn (s.routing settings w observed router request).snapshot
        candidate.estimatedVramBytes settings.vramHeadroomBytes gpuIndex := by
  unfold routing at hc ⊢
  dsimp only at hc ⊢
  split at hc
  · rename_i d hroute
    exact placed_of_route hroute hc htarget
  · cases hc

omit [DecidableEq W] in
@[simp]
theorem loaded_routed (job : HeldJob W) (bytes : ℕ) (vramBytes : Option ℕ) :
    (s.loaded job bytes vramBytes).routed = s.routed := by
  unfold loaded
  split <;> rfl

/-- What a worker may publish was placed by its reading. -/
def Placed (settings : AdmissionSettings) (s : Devices W) : Prop :=
  ∀ w, ∀ candidate ∈ (s.routed w).candidates, ∀ gpuIndex,
    candidate.targetGpuIndex = some gpuIndex →
      gpuIndex ∈ (s.routed w).devices candidate.subject.facts.canonicalId ∨
        FitsOn (s.routed w).snapshot candidate.estimatedVramBytes settings.vramHeadroomBytes
          gpuIndex

theorem Placed.step (hs : s.Placed settings) (a : DeviceAct W) :
    (s.after settings a).Placed settings := by
  intro v candidate hc gpuIndex htarget
  cases a with
  | route w observed router request =>
      simp only [after, Function.update_apply] at hc ⊢
      split at hc <;> rename_i hv
      · rw [if_pos hv]
        exact fits_of_routing hc htarget
      · rw [if_neg hv]
        exact hs v candidate hc gpuIndex htarget
  | publish w published =>
      simp only [after] at hc ⊢
      split at hc <;> exact hs v candidate hc gpuIndex htarget
  | load w bytes vramBytes =>
      simp only [after] at hc ⊢
      split at hc
      · rw [loaded_routed] at hc ⊢
        exact hs v candidate hc gpuIndex htarget
      · exact hs v candidate hc gpuIndex htarget
  | _ => exact hs v candidate hc gpuIndex htarget

/-- A published candidate keeps the promise: it is resident or was found to fit, and its model is
not one whose memory the others need. -/
theorem Room.publish (hplaced : s.Placed settings) (hroom : s.Room settings gpuIndex) {w : W}
    {candidate : RankedCandidate} (hc : candidate ∈ (s.routed w).candidates)
    (hpublishes : s.Publishes settings gpuIndex w candidate) :
    (s.after settings (.publish w candidate)).Room settings gpuIndex := by
  simp only [after]
  split
  · rename_i job hjob
    have hpost : ∀ awaits, (job.onCandidate candidate).awaits s.residents gpuIndex = awaits →
        promised s.residents (s.others w) gpuIndex + awaits + settings.vramHeadroomBytes ≤
          s.availableWith settings gpuIndex w candidate →
        Room settings gpuIndex { s with registry := job.onCandidate candidate :: s.others w } := by
      rintro _ rfl hle
      unfold Room
      rw [promised_cons, Nat.add_comm (HeldJob.awaits _ _ _)]
      exact hle
    by_cases hawaits : candidate.targetGpuIndex = some gpuIndex ∧
        gpuIndex ∉ residentDevices s.residents candidate.subject.facts.canonicalId
    · -- placed by its size, on a reading that nothing has overtaken
      obtain ⟨hunseen, hunpromised⟩ := hpublishes.fresh hawaits.1 hawaits.2
      obtain hresident | ⟨observed, bytes, free, hsnapshot, hestimate, hfree, hfits⟩ :=
        hplaced w candidate hc gpuIndex hawaits.1
      · exact absurd hresident hunseen
      · have hleft := hunpromised observed free hsnapshot hfree
        refine hpost bytes ?_ (by omega)
        have hnotOn : (job.onCandidate candidate).residentOn (residentDevices s.residents)
            gpuIndex = false := by
          rw [residentOn_eq_false]
          rintro _ ⟨⟩
          exact hawaits.2
        unfold HeldJob.awaits
        rw [if_pos ⟨hawaits.1, hnotOn⟩]
        exact congrArg (Option.getD · 0) hestimate
    · -- nothing to be loaded: only the memory of its own model is lost to the others
      refine hpost 0 ?_ ?_
      · unfold HeldJob.awaits
        refine if_neg fun hboth => hawaits ⟨hboth.1, ?_⟩
        exact residentOn_eq_false.1 hboth.2 _ rfl
      · by_cases hshared : ∃ entry ∈ s.residents, entry.gpuIndex = gpuIndex ∧
            entry.modelId = candidate.subject.facts.modelId
        · exact hpublishes.spare hshared
        · have hother := hroom.of_others (w := w)
          refine hother.trans (Nat.add_le_add_left (evictableBytesByDevice_le ?_) _)
          intro entry hentry hdevice hmem
          rcases List.mem_cons.1 hmem with heq | hmem
          · exact absurd ⟨entry, hentry, hdevice, heq⟩ hshared
          · exact hmem
  · exact hroom

theorem Room.load (hroom : s.Room settings gpuIndex) {w : W} {bytes : ℕ} {vramBytes : Option ℕ}
    (henabled : s.Enabled (.load w bytes vramBytes))
    (hkeeps : Keeps settings gpuIndex ⟨s, .load w bytes vramBytes,
      s.after settings (.load w bytes vramBytes)⟩) :
    (s.after settings (.load w bytes vramBytes)).Room settings gpuIndex := by
  simp only [after]
  split
  · rename_i job hjob
    unfold loaded
    split
    · rename_i modelId canonicalId device hmodel hcanonical htarget
      have hmem := mem_registry_of_held hjob
      have hmore : ∀ entry ∈ s.residents,
          entry ∈ { modelId, canonicalId, gpuIndex := device, vramBytes } :: s.residents :=
        fun entry hentry => List.mem_cons_of_mem _ hentry
      -- a job in flight is on the new entry, so nothing of it may be evicted
      have hevictable : evictableBytesByDevice settings.manageable
            ({ modelId, canonicalId, gpuIndex := device, vramBytes } :: s.residents)
            (inUseModelIds s.registry) gpuIndex =
          evictableBytesByDevice settings.manageable s.residents (inUseModelIds s.registry)
            gpuIndex := by
        have hused : modelId ∈ inUseModelIds s.registry :=
          List.mem_filterMap.2 ⟨job, hmem, hmodel⟩
        rw [evictableBytesByDevice_eq, evictableBytesByDevice_eq, List.map_cons, List.sum_cons,
          ResidentEntry.share, if_neg fun hidle => hidle.2.2 hused, Nat.zero_add]
      unfold Room available
      dsimp only
      rw [hevictable]
      by_cases hdevice : device = gpuIndex
      · subst hdevice
        have hserved : job.awaits ({ modelId, canonicalId, gpuIndex := device, vramBytes } ::
            s.residents) device = 0 := by
          unfold HeldJob.awaits
          refine if_neg fun hboth => ?_
          refine residentOn_eq_false.1 hboth.2 canonicalId hcanonical ?_
          exact mem_residentDevices.2 ⟨_, List.mem_cons_self, rfl, rfl⟩
        have hpromised := promised_add_awaits_le hmem hmore hserved
        have hbytes := hkeeps job hjob htarget
        have hfree := (henabled job device hjob htarget).1
        have hslack := hroom.add_slack
        unfold available at hslack
        rw [Function.update_self]
        dsimp only at hbytes
        omega
      · rw [Function.update_of_ne (Ne.symm hdevice)]
        have hpromised := promised_le gpuIndex
          fun other (_ : other ∈ s.registry) => HeldJob.awaits_le other hmore
        unfold Room available at hroom
        omega
    · exact hroom
  · exact hroom

theorem Room.evict (hroom : s.Room settings gpuIndex) {entry : ResidentEntry} {freed : ℕ}
    (hentry : entry ∈ s.residents)
    (hkeeps : Keeps settings gpuIndex ⟨s, .evict entry freed,
      s.after settings (.evict entry freed)⟩) :
    (s.after settings (.evict entry freed)).Room settings gpuIndex := by
  have hevictable := evictableBytesByDevice_erase settings.manageable
    (inUseModelIds s.registry) gpuIndex hentry
  have hpromised : promised s.residents s.registry gpuIndex =
      promised (s.residents.erase entry) s.registry gpuIndex :=
    promised_congr fun job hjob => job.awaits_erase fun hdevice => ((hkeeps hdevice).2 job hjob).2
  unfold Room available at hroom ⊢
  simp only [after]
  rw [← hpromised]
  by_cases hdevice : entry.gpuIndex = gpuIndex
  · have hshare : entry.share settings.manageable (inUseModelIds s.registry) gpuIndex ≤
        entry.vramBytes.getD 0 := by
      unfold ResidentEntry.share
      split
      · exact le_rfl
      · exact Nat.zero_le _
    have hfreed := (hkeeps hdevice).1
    rw [hdevice, Function.update_self]
    omega
  · have hshare : entry.share settings.manageable (inUseModelIds s.registry) gpuIndex = 0 :=
      if_neg fun hidle => hdevice hidle.2.1
    rw [Function.update_of_ne (Ne.symm hdevice)]
    omega

theorem Room.step (hplaced : s.Placed settings) (hroom : s.Room settings gpuIndex)
    {a : DeviceAct W} (henabled : s.Enabled a)
    (hkeeps : Keeps settings gpuIndex ⟨s, a, s.after settings a⟩) :
    (s.after settings a).Room settings gpuIndex := by
  cases a with
  | publish w candidate => exact hroom.publish hplaced henabled hkeeps
  | load w bytes vramBytes => exact hroom.load henabled hkeeps
  | evict entry freed => exact hroom.evict henabled hkeeps
  | claim w jobId =>
      have hothers := hroom.of_others (w := w)
      unfold Room
      simp only [after, promised_cons]
      simpa [HeldJob.awaits, inUseModelIds, available] using hothers
  | release w => exact hroom.of_others
  | take device bytes =>
      have hslack := hroom.add_slack
      unfold Room available at hroom ⊢
      unfold available at hslack
      simp only [after]
      by_cases hdevice : device = gpuIndex
      · have hbytes := hkeeps hdevice
        have hfree : bytes ≤ s.free device := henabled
        rw [hdevice, Function.update_self]
        rw [hdevice] at hfree
        dsimp only at hbytes
        omega
      · rw [Function.update_of_ne (Ne.symm hdevice)]
        exact hroom
  | give device bytes =>
      unfold Room available at hroom ⊢
      simp only [after]
      by_cases hdevice : device = gpuIndex
      · rw [hdevice, Function.update_self]
        omega
      · rw [Function.update_of_ne (Ne.symm hdevice)]
        exact hroom
  | _ => exact hroom

/-- **Aggregate admission.**  On a device that starts with its headroom, free or evictable, every
state of a run whose steps keep the promise has room for the jobs admitted to it: candidates
are published on readings that are still good, loads stay within their estimates, models in use
stay, and other programs leave what is promised. -/
theorem aggregate_admission {free : ℕ → ℕ} {residents : List ResidentEntry}
    {h : List (Step (Devices W) (DeviceAct W))}
    (hrun : Run (system W settings free residents) h s)
    (hstart : settings.vramHeadroomBytes ≤ free gpuIndex +
      evictableBytesByDevice settings.manageable residents [] gpuIndex)
    (hkeeps : ∀ e ∈ h, Keeps settings gpuIndex e) : s.Room settings gpuIndex := by
  have hsafe : s.Placed settings ∧ s.Room settings gpuIndex := by
    refine hrun.invariant_of_steps (P := fun s => s.Placed settings ∧ s.Room settings gpuIndex)
      (C := Keeps settings gpuIndex) ?_ ?_ hkeeps
    · rintro _ rfl
      refine ⟨?_, ?_⟩
      · intro w candidate hc
        cases hc
      · unfold Room available
        simpa [promised, inUseModelIds] using hstart
    · rintro ⟨s, a, s'⟩ ⟨henabled, hpost⟩ hC ⟨hplaced, hroom⟩
      obtain rfl : s' = s.after settings a := hpost
      exact ⟨hplaced.step a, hroom.step hplaced henabled hC⟩
  exact hsafe.2

/-! ### A reading that nothing has come between -/

omit [DecidableEq W] in
theorem reservedBy_eq_promised (residents : List ResidentEntry) (jobs : List (HeldJob W))
    (gpuIndex : ℕ) :
    reservedBy (residentDevices residents) jobs gpuIndex = promised residents jobs gpuIndex := by
  unfold reservedBy reservedBytesByDevice promised
  induction jobs with
  | nil => rfl
  | cons job jobs ih =>
      rw [List.map_cons, List.sum_cons, ← ih, HeldJob.awaits, List.filterMap_cons,
        HeldJob.reservation]
      cases htarget : job.targetGpuIndex with
      | none => simp
      | some device =>
          cases hestimate : job.estimatedBytes with
          | none => simp
          | some bytes =>
              by_cases hresident : job.residentOn (residentDevices residents) device = true
              · simp only [hresident, if_true]
                by_cases hdevice : device = gpuIndex
                · simp [← hdevice, hresident]
                · simp [hdevice]
              · rw [Bool.not_eq_true] at hresident
                by_cases hdevice : device = gpuIndex
                · simp [← hdevice, hresident]
                · simp [hresident, hdevice]

theorem free_of_adjustSnapshot {observed adjusted : TelemetrySnapshot} {reserved evictable : ℕ → ℕ}
    (hadjusted : adjustSnapshot (some observed) reserved evictable = some adjusted) {free : ℕ}
    (hfree : (gpuIndex, some free) ∈ freeVramByGpu adjusted) :
    ∃ gpu ∈ observed.gpus, gpu.index = gpuIndex ∧ ∃ total used,
      gpu.vramTotalBytes = some total ∧ gpu.vramUsedBytes = some used ∧
        free = total - min (used + reserved gpuIndex - evictable gpuIndex) total := by
  cases hadjusted
  obtain ⟨gpu', hgpu', heq⟩ := List.mem_map.1 (mem_of_mem_dict hfree)
  obtain ⟨gpu, hgpu, rfl⟩ := List.mem_map.1 hgpu'
  refine ⟨gpu, hgpu, ?_⟩
  unfold adjustGpu at heq
  split at heq
  · rename_i used total hused htotal
    simp only [Gpu.free, Prod.mk.injEq, htotal, Option.bind_some, Option.map_some,
      Option.some.injEq] at heq
    obtain ⟨rfl, rfl⟩ := heq
    exact ⟨rfl, total, used, htotal, hused, rfl⟩
  · simp [Gpu.free] at heq

/-- **A reading that nothing has come between is good**: a worker that publishes what it routed on
the registry, the residents and the memory as they still are overtakes nobody. -/
theorem unpromised_of_undisturbed (hroom : s.Room settings gpuIndex) {w : W}
    {candidate : RankedCandidate} {observed : TelemetrySnapshot}
    (hsnapshot : (s.routed w).snapshot = adjustSnapshot (some observed)
      (reservedBy (residentDevices s.residents) (s.others w))
      (evictableBytesByDevice settings.manageable s.residents (inUseModelIds (s.others w))))
    (hdevices : (s.routed w).devices = residentDevices s.residents)
    (hobserved : ∀ gpu ∈ observed.gpus, gpu.index = gpuIndex → ∀ total used,
      gpu.vramTotalBytes = some total → gpu.vramUsedBytes = some used →
        total ≤ used + s.free gpuIndex)
    (hcatalog : ∀ entry ∈ s.residents, entry.modelId = candidate.subject.facts.modelId →
      entry.canonicalId = candidate.subject.facts.canonicalId)
    (hresident : gpuIndex ∉ residentDevices s.residents candidate.subject.facts.canonicalId) :
    s.Unpromised settings gpuIndex w candidate := by
  refine ⟨by rwa [hdevices], ?_⟩
  intro adjusted free hadjusted hfree
  rw [hsnapshot] at hadjusted
  obtain ⟨gpu, hgpu, hindex, total, used, htotal, hused, rfl⟩ :=
    free_of_adjustSnapshot hadjusted hfree
  have hmemory := hobserved gpu hgpu hindex total used htotal hused
  have hothers := hroom.of_others (w := w)
  -- the model is not on the device, so nothing there is lost to the others
  have hkept : evictableBytesByDevice settings.manageable s.residents (inUseModelIds (s.others w))
      gpuIndex ≤ evictableBytesByDevice settings.manageable s.residents
        (candidate.subject.facts.modelId :: inUseModelIds (s.others w)) gpuIndex := by
    refine evictableBytesByDevice_le fun entry hentry hdevice hmem => ?_
    rcases List.mem_cons.1 hmem with heq | hmem
    · exact absurd (mem_residentDevices.2 ⟨entry, hentry, hcatalog entry hentry heq, hdevice⟩)
        hresident
    · exact hmem
  rw [reservedBy_eq_promised]
  unfold availableWith available at *
  omega

/-! ### Two jobs in the same memory -/

theorem published_run {free : ℕ → ℕ} {residents : List ResidentEntry}
    {h : List (Step (Devices W) (DeviceAct W))} (hrun : Run (system W settings free residents) h s)
    {w : W} (job : HeldJob W) (hjob : s.held w = some job) {candidate : RankedCandidate}
    (hc : candidate ∈ (s.routed w).candidates) :
    ∃ s', s' = { s with registry := job.onCandidate candidate :: s.others w } ∧
      Run (system W settings free residents) (⟨s, .publish w candidate, s'⟩ :: h) s' := by
  have hafter : s.after settings (.publish w candidate) =
      { s with registry := job.onCandidate candidate :: s.others w } := by
    simp only [after, hjob]
  exact ⟨_, hafter, hrun.step ⟨hc, rfl⟩⟩

/-- A model of a gigabyte. -/
def gigabyte (id : String) : ModelFacts where
  modelId := id
  canonicalId := id
  providerKind := "llamacpp"
  providerModelName := id
  sizeBytes := some 1000000000
  layers := some 1
  kvHeads := some 1
  headDim := some 1

/-- What it is estimated to need. -/
def gigabyteEstimate : VramEstimate where
  totalBytes := some 1318451840
  weightsBytes := some 1050000000
  kvBytes := some 16384
  kvBytesPerToken := some 4
  kvSource := .theoretical
  kvPrecisionAssumed := true
  servedContext := 4096

theorem cachePrecision_none : cachePrecision none = "f16" := by
  rw [cachePrecision]
  decide

theorem estimateVram_gigabyte :
    estimateVram (some 1000000000) 4096 (some 1) (some 1) (some 1) none = gigabyteEstimate := by
  have hfigure : kvBytesPerToken (some 1) (some 1) (some 1) none =
      (some 4, .theoretical, true) := by
    simp only [kvBytesPerToken, Option.filter_none, cachePrecision_none]
    decide +kernel
  unfold estimateVram
  rw [hfigure]
  simp only [gigabyteEstimate, VramEstimate.mk.injEq]
  exact ⟨by decide +kernel, by decide +kernel, by decide +kernel, trivial, trivial, trivial,
    trivial, trivial, rfl⟩

/-- A registry of two such models. -/
def twoModels : RouterState where
  taskProfiles := [{ profileId := "chat", weights := [("chat", 1)] }]
  registry := { models := ["m", "n"].map gigabyte }
  provider := { reportedServedContext := some 4096 }
  profileHash := fun _ => ""

/-- One device, as telemetry observes it. -/
def oneDevice (total used : ℕ) : TelemetrySnapshot where
  gpus := [⟨0, some total, some used⟩]

theorem adjustSnapshot_oneDevice {total reservedBytes : ℕ} {reserved evictable : ℕ → ℕ}
    (hreserved : reserved 0 = reservedBytes) (hevictable : evictable 0 = 0)
    (hle : reservedBytes ≤ total) :
    adjustSnapshot (some (oneDevice total 0)) reserved evictable =
      some (oneDevice total reservedBytes) := by
  simp [adjustSnapshot, oneDevice, adjustGpu, hreserved, hevictable, hle]

/-- The registry over the device, with nothing resident. -/
def modelsOn (snapshot : TelemetrySnapshot) : RouterState :=
  { twoModels with
    snapshot := some snapshot
    residentDevices := residentDevices []
    policy := { twoModels.policy with vramHeadroomBytes := defaultVramHeadroomBytes } }

/-- Devices that hold one such model more: of two gigabytes and of four, and of four of which the
other model has been promised its part. -/
def roomyDevices : List TelemetrySnapshot :=
  [oneDevice 2000000000 0, oneDevice 4000000000 0, oneDevice 4000000000 1318451840]

/-- A request for one model. -/
def pinned (id : String) : RouteRequest where
  task := "chat"
  overrides := { model := some id }

/-- A model as a candidate. -/
def gigabyteCandidate (id : String) : Candidate where
  facts := gigabyte id
  provider := { reportedServedContext := some 4096 }
  signals := []
  adapter := none

theorem judge_pinned (id : String) {snapshot : TelemetrySnapshot} (hroomy : snapshot ∈ roomyDevices)
    {r : Requirements} (hconstraints : r.constraints = {})
    (hthink : r.requiresThinkingControl = none) :
    ∃ c, judgeCandidate (modelsOn snapshot) (pinned id) r (gigabyteCandidate id) = .ranked c ∧
      c.subject.facts = gigabyte id ∧ c.estimatedVramBytes = some 1318451840 ∧
        c.targetGpuIndex = some 0 := by
  obtain ⟨profile, constraints, think, output, scoring⟩ := r
  dsimp only at hconstraints hthink
  subst hconstraints hthink
  have hselected : ¬ selectedBy (pinned id).overrides (gigabyteCandidate id) = false := by
    simp [selectedBy, pinned, gigabyteCandidate, gigabyte]
  have hcontext : ¬ (buildSubject (modelsOn snapshot) (pinned id).overrides {}
      (gigabyteCandidate id)).1.isNone = true := Bool.false_ne_true
  have hestimate : subjectEstimate (buildSubject (modelsOn snapshot) (pinned id).overrides {}
      (gigabyteCandidate id)).2 = gigabyteEstimate := estimateVram_gigabyte
  have hplaced : ∃ fits, evaluateConstraints (modelsOn snapshot).profileHash
      (buildSubject (modelsOn snapshot) (pinned id).overrides {} (gigabyteCandidate id)).2
      gigabyteEstimate
      (constraintInputs (modelsOn snapshot) (pinned id) ⟨profile, {}, none, output, scoring⟩
        (buildSubject (modelsOn snapshot) (pinned id).overrides {} (gigabyteCandidate id)).2) =
      .ok (fits, some 0) := by
    simp only [roomyDevices, List.mem_cons, List.not_mem_nil, or_false] at hroomy
    rcases hroomy with rfl | rfl | rfl <;> exact ⟨_, rfl⟩
  obtain ⟨fits, hplaced⟩ := hplaced
  unfold judgeCandidate
  dsimp only
  rw [if_neg hcontext, if_neg hselected, hestimate, hplaced]
  exact ⟨_, rfl, rfl, rfl, rfl⟩

theorem judge_unpinned (snapshot : TelemetrySnapshot) {id id' : String} (hne : id' ≠ id)
    {r : Requirements} (hconstraints : r.constraints = {}) :
    judgeCandidate (modelsOn snapshot) (pinned id) r (gigabyteCandidate id') = .skipped := by
  have hselected : selectedBy (pinned id).overrides (gigabyteCandidate id') = false := by
    simp [selectedBy, pinned, gigabyteCandidate, gigabyte, hne]
  have hcontext : ¬ (buildSubject (modelsOn snapshot) (pinned id).overrides {}
      (gigabyteCandidate id')).1.isNone = true := Bool.false_ne_true
  unfold judgeCandidate
  dsimp only
  rw [hconstraints, if_neg hcontext, if_pos hselected]

theorem route_pinned {snapshot : TelemetrySnapshot} (hroomy : snapshot ∈ roomyDevices) (id : String)
    (hid : id = "m" ∨ id = "n") :
    ∃ d c, Routing.route (modelsOn snapshot) (pinned id) = .ok d ∧ d.ranking.candidates = [c] ∧
      c.subject.facts = gigabyte id ∧ c.estimatedVramBytes = some 1318451840 ∧
        c.targetGpuIndex = some 0 := by
  obtain ⟨r, hposed, hconstraints, hthink⟩ : ∃ r,
      posed (modelsOn snapshot) (pinned id) = .ok (["m", "n"].map gigabyteCandidate, r) ∧
        r.constraints = {} ∧ r.requiresThinkingControl = none := ⟨_, rfl, rfl, rfl⟩
  obtain ⟨c, hranked, hfacts, hestimate, htarget⟩ := judge_pinned id hroomy hconstraints hthink
  have hverdicts : (verdicts (modelsOn snapshot) (pinned id)
      (["m", "n"].map gigabyteCandidate) r).filterMap Verdict.ranked? = [c] := by
    show [judgeCandidate (modelsOn snapshot) (pinned id) r (gigabyteCandidate "m"),
      judgeCandidate (modelsOn snapshot) (pinned id) r (gigabyteCandidate "n")].filterMap
        Verdict.ranked? = [c]
    rcases hid with rfl | rfl
    · rw [hranked, judge_unpinned snapshot (by decide) hconstraints]
      rfl
    · rw [hranked, judge_unpinned snapshot (by decide) hconstraints]
      rfl
  have hranking : ranked (modelsOn snapshot) (pinned id) (["m", "n"].map gigabyteCandidate) r =
      { ordered := [{ c with rank := 1 }], primary := some { c with rank := 1 }
        fallbacks := [] } := by
    rw [ranked, hverdicts]
    simp [rankCandidates]
  rw [Routing.route, decision_eq, hposed]
  simp only [Except.map, hranking]
  exact ⟨_, { c with rank := 1 }, rfl, rfl, hfacts, hestimate, htarget⟩

/-- What a worker reads, and the routing of its job on it. -/
def readAndRoute (total w : ℕ) (id : String) : List (DeviceAct ℕ) :=
  [.readDevices w, .readReserved w, .readInUse w, .readEvictable w,
   .route w (some (oneDevice total 0)) twoModels (pinned id)]

/-- What it leaves with the worker while nothing is resident: the one candidate, on what the others
have left of the device. -/
theorem routed_readAndRoute {s : Devices ℕ} (hresidents : s.residents = []) (total reserved w : ℕ)
    (hreserved : promised [] (s.seenBy w) 0 = reserved) (hle : reserved ≤ total)
    (hroomy : oneDevice total reserved ∈ roomyDevices) {id : String} (hid : id = "m" ∨ id = "n") :
    ∃ c, ((readAndRoute total w id).foldl (after {}) s).routed w =
        { candidates := [c], snapshot := some (oneDevice total reserved)
          devices := residentDevices [] } ∧
      c.subject.facts = gigabyte id ∧ c.estimatedVramBytes = some 1318451840 ∧
        c.targetGpuIndex = some 0 := by
  obtain ⟨d, c, hroute, hc, hspec⟩ := route_pinned hroomy id hid
  have hsnapshot : adjustSnapshot (some (oneDevice total 0))
      (reservedBy (residentDevices []) (s.seenBy w))
      (evictableBytesByDevice ({} : AdmissionSettings).manageable []
        (inUseModelIds (s.seenBy w))) = some (oneDevice total reserved) :=
    adjustSnapshot_oneDevice ((reservedBy_eq_promised _ _ _).trans hreserved) rfl hle
  refine ⟨c, ?_, hspec⟩
  have hread : ∀ s' : Devices ℕ, s'.residents = [] →
      (s'.readings w).reserved = reservedBy (residentDevices []) (s.seenBy w) →
      (s'.readings w).evictable = evictableBytesByDevice ({} : AdmissionSettings).manageable []
        (inUseModelIds (s.seenBy w)) →
      s'.routing {} w (some (oneDevice total 0)) twoModels (pinned id) =
        { candidates := [c], snapshot := some (oneDevice total reserved)
          devices := residentDevices [] } := by
    intro s' hnone hbytes hevictable
    rw [routing_eq s' (d := d), hbytes, hevictable, hsnapshot, hnone, hc]
    rw [hbytes, hevictable, hsnapshot, hnone]
    exact hroute
  have hlast := hread ((((s.after {} (.readDevices w)).after {} (.readReserved w)).after {}
    (.readInUse w)).after {} (.readEvictable w)) hresidents
    (by simp [after, seenBy, held, hresidents]) (by simp [after, seenBy, held, hresidents])
  rw [← hlast]
  simp [readAndRoute, after]

theorem readAndRoute_admissible (s : Devices ℕ) (total w : ℕ) (id : String) :
    Admissible Enabled (after {}) s (readAndRoute total w id) :=
  ⟨trivial, trivial, trivial, trivial, trivial, trivial⟩

theorem routed_readAndRoute_ne (s : Devices ℕ) (total : ℕ) {w w' : ℕ} (h : w' ≠ w) (id : String) :
    ((readAndRoute total w id).foldl (after {}) s).routed w' = s.routed w' := by
  simp [readAndRoute, after, h]

/-- A device with nothing on it. -/
def idleDevice (total : ℕ) : Devices ℕ where
  free := fun gpuIndex => if gpuIndex = 0 then total else 0

theorem awaits_onCandidate (job : HeldJob ℕ) {c : RankedCandidate}
    (hestimate : c.estimatedVramBytes = some 1318451840) (htarget : c.targetGpuIndex = some 0) :
    (job.onCandidate c).awaits [] 0 = 1318451840 := by
  unfold HeldJob.awaits
  rw [if_pos ⟨htarget, rfl⟩]
  exact congrArg (Option.getD · 0) hestimate

/-- Two workers with a job each. -/
def twoClaims : List (DeviceAct ℕ) := [.claim 1 "j", .claim 2 "k"]

theorem room_of_empty {s : Devices ℕ} (hresidents : s.residents = []) {bytes : ℕ}
    (hpromised : promised [] s.registry 0 = bytes) (hle : bytes + 536870912 ≤ s.free 0) :
    s.Room {} 0 := by
  unfold Room available
  rw [hresidents, hpromised]
  exact hle.trans (Nat.le_add_right _ _)

theorem publishes_of_routed {s : Devices ℕ} {total reserved w : ℕ} {c : RankedCandidate}
    (hresidents : s.residents = []) (hfree : s.free 0 = total) (hroom : s.Room {} 0)
    (hrouted : s.routed w = { candidates := [c], snapshot := some (oneDevice total reserved)
                              devices := residentDevices [] })
    (hothers : promised [] (s.others w) 0 = reserved) (hle : reserved ≤ total) :
    s.Publishes {} 0 w c := by
  have hsnapshot : (s.routed w).snapshot = adjustSnapshot (some (oneDevice total 0))
      (reservedBy (residentDevices s.residents) (s.others w))
      (evictableBytesByDevice ({} : AdmissionSettings).manageable s.residents
        (inUseModelIds (s.others w))) := by
    rw [hrouted, hresidents]
    exact (adjustSnapshot_oneDevice ((reservedBy_eq_promised _ _ _).trans hothers) rfl hle).symm
  refine ⟨fun _ _ => unpromised_of_undisturbed hroom hsnapshot ?_ ?_ ?_ ?_, ?_⟩
  · rw [hrouted, hresidents]
  · intro gpu hgpu _ total' used htotal hused
    obtain rfl := List.mem_singleton.1 hgpu
    cases htotal
    cases hused
    omega
  · simp [hresidents]
  · simp [hresidents, residentDevices]
  · simp [hresidents]

/-- The first worker routes. -/
def oneRoutes : List (DeviceAct ℕ) := twoClaims ++ readAndRoute 4000000000 1 "m"

theorem oneRoutes_run : Run (system ℕ {} (idleDevice 4000000000).free [])
    (trace (after {}) (idleDevice 4000000000) oneRoutes)
    (oneRoutes.foldl (after {}) (idleDevice 4000000000)) :=
  .replay ⟨rfl, rfl, trivial, trivial, trivial, trivial, trivial, trivial⟩

/-- The first job is admitted, the second worker routes and its job is admitted beside it, and then
the first loads its model. -/
theorem aggregate_admission_bothFit : ∃ h, ∃ s : Devices ℕ, h.length = 15 ∧
    Run (system ℕ {} (idleDevice 4000000000).free []) h s ∧ s.registry.length = 2 ∧
    s.Room {} 0 := by
  obtain ⟨c, hrouted, -, hcestimate, hctarget⟩ := routed_readAndRoute
    (show (twoClaims.foldl (after {}) (idleDevice 4000000000)).residents = [] from rfl)
    4000000000 0 1 rfl (Nat.zero_le _) (by simp [roomyDevices]) (.inl rfl)
  rw [← List.foldl_append, ← oneRoutes] at hrouted
  have hjob : (oneRoutes.foldl (after {}) (idleDevice 4000000000)).held 1 =
      some ⟨1, "j", none, none, none, none⟩ := rfl
  obtain ⟨s₁, hs₁, hone⟩ := published_run oneRoutes_run _ hjob
    (show c ∈ _ by rw [hrouted]; exact List.mem_singleton_self c)
  have hawaits := awaits_onCandidate ⟨1, "j", none, none, none, none⟩ hcestimate hctarget
  obtain ⟨d, hrouted', -, hdestimate, hdtarget⟩ := routed_readAndRoute
    (show s₁.residents = [] from hs₁ ▸ rfl) 4000000000 1318451840 2
    (by rw [hs₁]; exact hawaits) (by decide) (by simp [roomyDevices]) (.inr rfl)
  have hroutes := hone.append_trace (readAndRoute_admissible s₁ 4000000000 2 "n")
  obtain ⟨s₂, hs₂⟩ : ∃ s₂, s₂ = (readAndRoute 4000000000 2 "n").foldl (after {}) s₁ := ⟨_, rfl⟩
  rw [← hs₂] at hrouted' hroutes
  have hregistry₂ : s₂.registry = [HeldJob.onCandidate ⟨1, "j", none, none, none, none⟩ c,
      ⟨2, "k", none, none, none, none⟩] := by
    rw [hs₂, hs₁]
    rfl
  have hothers₂ : s₂.others 2 = [HeldJob.onCandidate ⟨1, "j", none, none, none, none⟩ c] := by
    rw [others, hregistry₂]
    rfl
  have hempty₂ : s₂.residents = [] ∧ s₂.free 0 = 4000000000 := by
    rw [hs₂, hs₁]
    exact ⟨rfl, rfl⟩
  have hjob' : s₂.held 2 = some ⟨2, "k", none, none, none, none⟩ := by
    rw [held, hregistry₂]
    rfl
  obtain ⟨s₃, hs₃, htwo⟩ := published_run hroutes _ hjob'
    (show d ∈ _ by rw [hrouted']; exact List.mem_singleton_self d)
  have hheld₃ : s₃.held 1 = some (HeldJob.onCandidate ⟨1, "j", none, none, none, none⟩ c) := by
    rw [hs₃, hothers₂]
    rfl
  have hempty₃ : s₃.residents = [] ∧ s₃.free 0 = 4000000000 := by
    rw [hs₃]
    exact hempty₂
  have henabled : s₃.Enabled (.load 1 1050000000 none) := by
    intro job gpuIndex hheld hdevice
    rw [hheld₃] at hheld
    cases hheld
    obtain rfl : 0 = gpuIndex := Option.some.inj (hctarget.symm.trans hdevice)
    rw [hempty₃.1, hempty₃.2]
    exact ⟨by decide, fun entry hentry => absurd hentry List.not_mem_nil⟩
  have hloaded := htwo.step (a := DeviceAct.load 1 1050000000 none) ⟨henabled, rfl⟩
  refine ⟨_, _, rfl, hloaded, ?_, aggregate_admission hloaded (by decide) ?_⟩
  · have hkept : ∀ job, (s₃.loaded job 1050000000 none).registry = s₃.registry := by
      intro job
      unfold loaded
      split <;> rfl
    simp only [after, hheld₃, hkept]
    rw [hs₃, hothers₂]
    rfl
  · have hroom₁ : (oneRoutes.foldl (after {}) (idleDevice 4000000000)).Room {} 0 :=
      room_of_empty rfl rfl (by decide)
    have hpromised₂ : promised [] s₂.registry 0 = 1318451840 := by
      rw [hregistry₂, promised_cons, hawaits]
      rfl
    have hroom₂ : s₂.Room {} 0 :=
      room_of_empty hempty₂.1 hpromised₂ (by rw [hempty₂.2]; decide)
    have hpublish₁ : (oneRoutes.foldl (after {}) (idleDevice 4000000000)).Publishes {} 0 1 c :=
      publishes_of_routed rfl rfl hroom₁ hrouted rfl (Nat.zero_le _)
    have hpublish₂ : s₂.Publishes {} 0 2 d :=
      publishes_of_routed hempty₂.1 hempty₂.2 hroom₂ hrouted'
        (by rw [hothers₂]; exact hawaits) (by decide)
    have hreads : ∀ e ∈ trace (after {}) s₁ (readAndRoute 4000000000 2 "n"), Keeps {} 0 e :=
      forall_mem_trace ⟨trivial, trivial, trivial, trivial, trivial, trivial⟩
    have hstart : ∀ e ∈ trace (after {}) (idleDevice 4000000000) oneRoutes, Keeps {} 0 e :=
      forall_mem_trace ⟨trivial, trivial, trivial, trivial, trivial, trivial, trivial, trivial⟩
    have hload : Keeps {} 0 ⟨s₃, .load 1 1050000000 none,
        s₃.after {} (.load 1 1050000000 none)⟩ := by
      rintro job hheld -
      rw [hheld₃] at hheld
      cases hheld
      dsimp only
      rw [hempty₃.1, hawaits]
      omega
    simp only [List.forall_mem_cons, List.forall_mem_append]
    exact ⟨hload, hpublish₂, hreads, hpublish₁, hstart⟩

/-- Two workers route before either publishes. -/
def bothRoute : List (DeviceAct ℕ) :=
  twoClaims ++ readAndRoute 2000000000 1 "m" ++ readAndRoute 2000000000 2 "n"

theorem bothRoute_run : Run (system ℕ {} (idleDevice 2000000000).free [])
    (trace (after {}) (idleDevice 2000000000) bothRoute)
    (bothRoute.foldl (after {}) (idleDevice 2000000000)) :=
  .replay ⟨rfl, rfl, trivial, trivial, trivial, trivial, trivial, trivial, trivial, trivial,
    trivial, trivial, trivial⟩

theorem routed_bothRoute : ∃ c d,
    (c ∈ ((bothRoute.foldl (after {}) (idleDevice 2000000000)).routed 1).candidates ∧
      c.estimatedVramBytes = some 1318451840 ∧ c.targetGpuIndex = some 0) ∧
    (d ∈ ((bothRoute.foldl (after {}) (idleDevice 2000000000)).routed 2).candidates ∧
      d.estimatedVramBytes = some 1318451840 ∧ d.targetGpuIndex = some 0) := by
  obtain ⟨c, hone, -, hc⟩ := routed_readAndRoute
    (show (twoClaims.foldl (after {}) (idleDevice 2000000000)).residents = [] from rfl)
    2000000000 0 1 rfl (Nat.zero_le _) (by simp [roomyDevices]) (.inl rfl)
  obtain ⟨d, htwo, -, hd⟩ := routed_readAndRoute
    (show ((readAndRoute 2000000000 1 "m").foldl (after {})
      (twoClaims.foldl (after {}) (idleDevice 2000000000))).residents = [] from rfl)
    2000000000 0 2 rfl (Nat.zero_le _) (by simp [roomyDevices]) (.inr rfl)
  refine ⟨c, d, ⟨?_, hc⟩, ?_, hd⟩
  · rw [bothRoute, List.foldl_append, List.foldl_append, routed_readAndRoute_ne _ _ (by decide), hone]
    exact List.mem_singleton_self c
  · rw [bothRoute, List.foldl_append, List.foldl_append, htwo]
    exact List.mem_singleton_self d

/-- Both jobs are admitted into the memory of one. -/
theorem bothRoute_overcommits : ¬ ∀ settings free residents h (s : Devices ℕ) gpuIndex,
    settings.vramHeadroomBytes ≤ free gpuIndex +
        evictableBytesByDevice settings.manageable residents [] gpuIndex →
      Run (system ℕ settings free residents) h s → s.Room settings gpuIndex := by
  intro hclaim
  obtain ⟨c, d, ⟨hc, hcestimate, hctarget⟩, hd, hdestimate, hdtarget⟩ := routed_bothRoute
  obtain ⟨s₁, hs₁, hadmitted⟩ := published_run bothRoute_run
    ⟨1, "j", none, none, none, none⟩ rfl hc
  have hrouted : s₁.routed = (bothRoute.foldl (after {}) (idleDevice 2000000000)).routed := by
    rw [hs₁]
  have hheld : s₁.held 2 = some ⟨2, "k", none, none, none, none⟩ := by rw [hs₁]; rfl
  obtain ⟨s₂, hs₂, hboth⟩ := published_run hadmitted _ hheld (hrouted ▸ hd)
  have hothers : s₁.others 2 = [HeldJob.onCandidate ⟨1, "j", none, none, none, none⟩ c] := by
    rw [hs₁]
    rfl
  have hresidents : s₂.residents = [] := by
    rw [hs₂, hs₁]
    rfl
  have hfree : s₂.free 0 = 2000000000 := by
    rw [hs₂, hs₁]
    rfl
  have hregistry : s₂.registry = [HeldJob.onCandidate ⟨2, "k", none, none, none, none⟩ d,
      HeldJob.onCandidate ⟨1, "j", none, none, none, none⟩ c] := by
    rw [← hothers, hs₂]
  have hroom := hclaim {} _ _ _ _ 0 (by decide) hboth
  unfold Room available at hroom
  rw [hresidents, hfree, hregistry, promised_cons, promised_cons,
    awaits_onCandidate _ hdestimate hdtarget, awaits_onCandidate _ hcestimate hctarget] at hroom
  have hnothing : evictableBytesByDevice true [] (inUseModelIds
      [HeldJob.onCandidate (⟨2, "k", none, none, none, none⟩ : HeldJob ℕ) d,
        HeldJob.onCandidate ⟨1, "j", none, none, none, none⟩ c]) 0 = 0 := rfl
  have hheadroom : ({} : AdmissionSettings).vramHeadroomBytes = 536870912 := rfl
  rw [hnothing, hheadroom] at hroom
  omega

end Devices

end LoadCoach.Residency

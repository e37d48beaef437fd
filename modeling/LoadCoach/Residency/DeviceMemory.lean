import Mathlib.Algebra.Order.BigOperators.Group.List
import LoadCoach.Foundations.Transition
import LoadCoach.Routing.Admission

/-! # The memory of the devices

How workers share what the devices have free (`services/worker.py`).  A worker claims a job, reads
the open episodes, the reservations of the other jobs in flight and what may be evicted
(`admission_snapshot`), routes the job on that reading, and publishes the candidate in the in-flight
registry (`_admit`, and `_readmit` for a retry or a fallback); then it loads the model.  These are
separate steps of every worker, and other programs take and give back memory in between.  What
telemetry observes comes with the routing step.

`Room` is what admission promises: the estimates of the jobs that still have to load a model on a
device, with the headroom, fit into what the device has free or may evict.  `Keeps` says when a
step acts on a reading that is still good.  The last section is about the sums both are stated
with; the steps and the runs are in `Residency/Room.lean`. -/

namespace LoadCoach.Residency

open Foundations Routing

/-! ### What admission reads -/

/-- An open episode, as admission reads it. -/
structure ResidentEntry where
  modelId : String
  canonicalId : String
  gpuIndex : ℕ
  vramBytes : Option ℕ := none
deriving DecidableEq, Repr

/-- An entry of the in-flight registry, as admission reads it.  Every state an entry goes through
is one of those in flight. -/
structure HeldJob (W : Type) where
  worker : W
  jobId : String
  canonicalId : Option String := none
  modelId : Option String := none
  targetGpuIndex : Option ℕ := none
  estimatedBytes : Option ℕ := none

/-- `resident_devices`: the devices a model is resident on. -/
def residentDevices (residents : List ResidentEntry) (canonicalId : String) : List ℕ :=
  (residents.filter fun entry => entry.canonicalId == canonicalId).map ResidentEntry.gpuIndex

/-- `evictable_bytes_by_device`: the memory idle residents hold. -/
def evictableBytesByDevice (manageable : Bool) (residents : List ResidentEntry)
    (inUse : List String) (gpuIndex : ℕ) : ℕ :=
  if manageable then
    ((residents.filter fun entry =>
      entry.gpuIndex == gpuIndex && !inUse.contains entry.modelId).map fun entry =>
        entry.vramBytes.getD 0).sum
  else 0

namespace HeldJob

variable {W : Type}

/-- The model of a job is resident on a device already. -/
def residentOn (devices : String → List ℕ) (job : HeldJob W) (gpuIndex : ℕ) : Bool :=
  job.canonicalId.any fun canonicalId => (devices canonicalId).contains gpuIndex

/-- What a job in flight reserves. -/
def reservation (devices : String → List ℕ) (job : HeldJob W) : Option Reservation :=
  match job.targetGpuIndex, job.estimatedBytes with
  | some gpuIndex, some bytes =>
      if job.residentOn devices gpuIndex then none else some ⟨job.jobId, gpuIndex, bytes⟩
  | _, _ => none

/-- The entry once a candidate is published. -/
def onCandidate (job : HeldJob W) (candidate : RankedCandidate) : HeldJob W :=
  { job with
    canonicalId := some candidate.subject.facts.canonicalId
    modelId := some candidate.subject.facts.modelId
    targetGpuIndex := candidate.targetGpuIndex
    estimatedBytes := candidate.estimatedVramBytes }

end HeldJob

section Registry

variable {W : Type}

/-- The entries of the other jobs. -/
def excludingJob (registry : List (HeldJob W)) (jobId : Option String) : List (HeldJob W) :=
  registry.filter fun job => jobId.all fun excluded => job.jobId != excluded

/-- `in_use_model_ids`. -/
def inUseModelIds (registry : List (HeldJob W)) : List String := registry.filterMap HeldJob.modelId

/-- The reservations of jobs in flight, device by device. -/
def reservedBy (devices : String → List ℕ) (registry : List (HeldJob W)) : ℕ → ℕ :=
  reservedBytesByDevice (registry.filterMap (HeldJob.reservation devices))

end Registry

/-! ### The system -/

/-- The settings of admission. -/
structure AdmissionSettings where
  vramHeadroomBytes : ℕ := defaultVramHeadroomBytes
  manageable : Bool := true

/-- What a worker has read for its admission snapshot. -/
structure Reading where
  devices : String → List ℕ := fun _ => []
  reserved : ℕ → ℕ := fun _ => 0
  inUse : List String := []
  evictable : ℕ → ℕ := fun _ => 0

/-- The candidates a worker's routing came to, and what it went by. -/
structure Routed where
  candidates : List RankedCandidate := []
  snapshot : Option TelemetrySnapshot := none
  devices : String → List ℕ := fun _ => []

/-- The devices, what is resident on them, and the workers. -/
structure Devices (W : Type) where
  free : ℕ → ℕ
  residents : List ResidentEntry := []
  registry : List (HeldJob W) := []
  readings : W → Reading := fun _ => {}
  routed : W → Routed := fun _ => {}

/-- What happens next. -/
inductive DeviceAct (W : Type) where
  | claim (w : W) (jobId : String)
  /-- The four readings of `admission_snapshot`. -/
  | readDevices (w : W)
  | readReserved (w : W)
  | readInUse (w : W)
  | readEvictable (w : W)
  /-- `_route`, with what telemetry has observed. -/
  | route (w : W) (observed : Option TelemetrySnapshot) (router : RouterState)
      (request : RouteRequest)
  /-- `_admit` and `_readmit` publish a candidate. -/
  | publish (w : W) (candidate : RankedCandidate)
  /-- The provider loads the model of the job, and its episode is opened. -/
  | load (w : W) (bytes : ℕ) (vramBytes : Option ℕ)
  | evict (entry : ResidentEntry) (freed : ℕ)
  | release (w : W)
  /-- Other programs. -/
  | take (gpuIndex bytes : ℕ)
  | give (gpuIndex bytes : ℕ)

namespace Devices

variable {W : Type} [DecidableEq W] (settings : AdmissionSettings) (s : Devices W)

/-- The entries of the other workers. -/
def others (w : W) : List (HeldJob W) := s.registry.filter fun job => decide (job.worker ≠ w)

/-- The entry of a worker. -/
def held (w : W) : Option (HeldJob W) := s.registry.find? fun job => decide (job.worker = w)

/-- The entries a worker's admission takes into account. -/
def seenBy (w : W) : List (HeldJob W) :=
  excludingJob s.registry ((s.held w).map HeldJob.jobId)

/-- What a job's load makes of the devices. -/
def loaded (job : HeldJob W) (bytes : ℕ) (vramBytes : Option ℕ) : Devices W :=
  match job.modelId, job.canonicalId, job.targetGpuIndex with
  | some modelId, some canonicalId, some gpuIndex =>
      { s with
        residents := { modelId, canonicalId, gpuIndex, vramBytes } :: s.residents
        free := Function.update s.free gpuIndex (s.free gpuIndex - bytes) }
  | _, _, _ => s

/-- What routing comes to on a reading. -/
def routing (w : W) (observed : Option TelemetrySnapshot) (router : RouterState)
    (request : RouteRequest) : Routed :=
  let reading := s.readings w
  let snapshot := adjustSnapshot observed reading.reserved reading.evictable
  let devices := residentDevices s.residents
  match Routing.route
      { router with
        snapshot
        residentDevices := devices
        policy := { router.policy with vramHeadroomBytes := settings.vramHeadroomBytes } }
      request with
  | .ok d => { candidates := d.ranking.candidates, snapshot, devices }
  | .error _ => {}

/-- The devices after an act. -/
def after (s : Devices W) : DeviceAct W → Devices W
  | .claim w jobId => { s with registry := { worker := w, jobId } :: s.others w }
  | .readDevices w =>
      { s with
        readings := Function.update s.readings w
          { s.readings w with devices := residentDevices s.residents } }
  | .readReserved w =>
      { s with
        readings := Function.update s.readings w
          { s.readings w with reserved := reservedBy (s.readings w).devices (s.seenBy w) } }
  | .readInUse w =>
      { s with
        readings := Function.update s.readings w
          { s.readings w with inUse := inUseModelIds (s.seenBy w) } }
  | .readEvictable w =>
      { s with
        readings := Function.update s.readings w
          { s.readings w with
            evictable :=
              evictableBytesByDevice settings.manageable s.residents (s.readings w).inUse } }
  | .route w observed router request =>
      { s with
        routed := Function.update s.routed w (s.routing settings w observed router request) }
  | .publish w candidate =>
      match s.held w with
      | some job => { s with registry := job.onCandidate candidate :: s.others w }
      | none => s
  | .load w bytes vramBytes =>
      match s.held w with
      | some job => s.loaded job bytes vramBytes
      | none => s
  | .evict entry freed =>
      { s with
        residents := s.residents.erase entry
        free := Function.update s.free entry.gpuIndex (s.free entry.gpuIndex + freed) }
  | .release w => { s with registry := s.others w }
  | .take gpuIndex bytes =>
      { s with free := Function.update s.free gpuIndex (s.free gpuIndex - bytes) }
  | .give gpuIndex bytes =>
      { s with free := Function.update s.free gpuIndex (s.free gpuIndex + bytes) }

/-- A worker has one job at a time, publishes what its routing came to, and loads a model that is
not there; memory is taken from what is free. -/
def Enabled (s : Devices W) : DeviceAct W → Prop
  | .claim w _ => s.held w = none
  | .publish w candidate => candidate ∈ (s.routed w).candidates
  | .load w bytes _ => ∀ job gpuIndex, s.held w = some job → job.targetGpuIndex = some gpuIndex →
      bytes ≤ s.free gpuIndex ∧
        ∀ entry ∈ s.residents, entry.gpuIndex = gpuIndex → some entry.modelId ≠ job.modelId
  | .evict entry _ => entry ∈ s.residents
  | .take gpuIndex bytes => bytes ≤ s.free gpuIndex
  | _ => True

/-- **Workers over the devices**, from any memory and any residents. -/
def system (W : Type) [DecidableEq W] (settings : AdmissionSettings) (free : ℕ → ℕ)
    (residents : List ResidentEntry) : System (Devices W) (DeviceAct W) :=
  .guarded Enabled (after settings) { free, residents }

end Devices

/-! ### The property and the condition -/

section Promise

variable {W : Type}

/-- What a job has still to load on a device. -/
def HeldJob.awaits (residents : List ResidentEntry) (gpuIndex : ℕ) (job : HeldJob W) : ℕ :=
  if job.targetGpuIndex = some gpuIndex ∧
      job.residentOn (residentDevices residents) gpuIndex = false
  then job.estimatedBytes.getD 0 else 0

/-- What is promised to jobs on a device: the estimates of those whose model is not resident. -/
def promised (residents : List ResidentEntry) (jobs : List (HeldJob W)) (gpuIndex : ℕ) : ℕ :=
  (jobs.map (HeldJob.awaits residents gpuIndex)).sum

end Promise

namespace Devices

variable {W : Type} [DecidableEq W] (settings : AdmissionSettings) (gpuIndex : ℕ)

/-- What a device has free, or may have by evicting all but the models in use. -/
def available (s : Devices W) (inUse : List String) : ℕ :=
  s.free gpuIndex + evictableBytesByDevice settings.manageable s.residents inUse gpuIndex

/-- **The promise of admission**: the estimates of the jobs whose model is not resident on the
device, with the headroom, are within what it has free or may evict. -/
def Room (s : Devices W) : Prop :=
  promised s.residents s.registry gpuIndex + settings.vramHeadroomBytes ≤
    s.available settings gpuIndex (inUseModelIds s.registry)

/-- What is promised to nobody. -/
def slack (s : Devices W) : ℕ :=
  s.available settings gpuIndex (inUseModelIds s.registry) -
    (promised s.residents s.registry gpuIndex + settings.vramHeadroomBytes)

/-- What a device has for the jobs of all workers once one of them has published a candidate. -/
def availableWith (s : Devices W) (w : W) (candidate : RankedCandidate) : ℕ :=
  s.available settings gpuIndex
    (candidate.subject.facts.modelId :: inUseModelIds (s.others w))

/-- What a worker's routing found free on a device has been promised to nobody else since. -/
def Unpromised (s : Devices W) (w : W) (candidate : RankedCandidate) : Prop :=
  gpuIndex ∉ (s.routed w).devices candidate.subject.facts.canonicalId ∧
    ∀ observed free, (s.routed w).snapshot = some observed →
      (gpuIndex, some free) ∈ freeVramByGpu observed →
        promised s.residents (s.others w) gpuIndex + free ≤
          s.availableWith settings gpuIndex w candidate

/-- A candidate to be loaded was placed by a reading that is still good, and the other jobs do not
need the memory of the model it puts to use. -/
structure Publishes (s : Devices W) (w : W) (candidate : RankedCandidate) : Prop where
  fresh : candidate.targetGpuIndex = some gpuIndex →
    gpuIndex ∉ residentDevices s.residents candidate.subject.facts.canonicalId →
      s.Unpromised settings gpuIndex w candidate
  spare : (∃ entry ∈ s.residents, entry.gpuIndex = gpuIndex ∧
      entry.modelId = candidate.subject.facts.modelId) →
    promised s.residents (s.others w) gpuIndex + settings.vramHeadroomBytes ≤
      s.availableWith settings gpuIndex w candidate

/-- What a step must do to a device for its promise to be kept: publish on a reading that is still
good, load no more than the estimate, evict what no job uses and get its memory back, and take
only what is promised to nobody. -/
def Keeps (e : Step (Devices W) (DeviceAct W)) : Prop :=
  match e.act with
  | .publish w candidate => e.pre.Publishes settings gpuIndex w candidate
  | .load w bytes _ => ∀ job, e.pre.held w = some job → job.targetGpuIndex = some gpuIndex →
      bytes ≤ job.awaits e.pre.residents gpuIndex + e.pre.slack settings gpuIndex
  | .evict entry freed => entry.gpuIndex = gpuIndex →
      entry.vramBytes.getD 0 ≤ freed ∧
        ∀ job ∈ e.pre.registry, job.modelId ≠ some entry.modelId ∧
          job.canonicalId ≠ some entry.canonicalId
  | .take device bytes => device = gpuIndex → bytes ≤ e.pre.slack settings gpuIndex
  | _ => True

end Devices

/-! ### What the steps do to the sums -/

section Sums

variable {W : Type} {residents : List ResidentEntry} {gpuIndex : ℕ}

theorem promised_cons (job : HeldJob W) (jobs : List (HeldJob W)) :
    promised residents (job :: jobs) gpuIndex =
      job.awaits residents gpuIndex + promised residents jobs gpuIndex := rfl

theorem promised_le_of_sublist {jobs jobs' : List (HeldJob W)} (h : jobs.Sublist jobs') :
    promised residents jobs gpuIndex ≤ promised residents jobs' gpuIndex :=
  (h.map _).sum_le_sum fun _ _ => Nat.zero_le _

theorem promised_congr {residents' : List ResidentEntry} {jobs : List (HeldJob W)}
    (h : ∀ job ∈ jobs, job.awaits residents gpuIndex = job.awaits residents' gpuIndex) :
    promised residents jobs gpuIndex = promised residents' jobs gpuIndex := by
  unfold promised
  rw [List.map_congr_left h]

theorem promised_le (gpuIndex : ℕ) {residents residents' : List ResidentEntry}
    {jobs : List (HeldJob W)}
    (h : ∀ job ∈ jobs, job.awaits residents gpuIndex ≤ job.awaits residents' gpuIndex) :
    promised residents jobs gpuIndex ≤ promised residents' jobs gpuIndex :=
  List.sum_le_sum h

theorem mem_residentDevices {canonicalId : String} :
    gpuIndex ∈ residentDevices residents canonicalId ↔
      ∃ entry ∈ residents, entry.canonicalId = canonicalId ∧ entry.gpuIndex = gpuIndex := by
  simp [residentDevices, and_assoc]

theorem residentOn_eq_false {devices : String → List ℕ} {job : HeldJob W} :
    job.residentOn devices gpuIndex = false ↔
      ∀ canonicalId, job.canonicalId = some canonicalId → gpuIndex ∉ devices canonicalId := by
  unfold HeldJob.residentOn
  cases job.canonicalId <;> simp

/-- What one entry adds to the evictable memory of a device. -/
def ResidentEntry.share (manageable : Bool) (inUse : List String) (gpuIndex : ℕ)
    (entry : ResidentEntry) : ℕ :=
  if manageable = true ∧ entry.gpuIndex = gpuIndex ∧ entry.modelId ∉ inUse
  then entry.vramBytes.getD 0 else 0

theorem evictableBytesByDevice_eq (manageable : Bool) (inUse : List String) :
    evictableBytesByDevice manageable residents inUse gpuIndex =
      (residents.map (ResidentEntry.share manageable inUse gpuIndex)).sum := by
  unfold evictableBytesByDevice ResidentEntry.share
  cases manageable with
  | false => simp
  | true =>
      induction residents with
      | nil => rfl
      | cons entry residents ih =>
          simp only [if_true, true_and] at ih ⊢
          rw [List.map_cons, List.sum_cons, ← ih, List.filter_cons]
          by_cases hentry : entry.gpuIndex = gpuIndex ∧ entry.modelId ∉ inUse
          · have hb : (entry.gpuIndex == gpuIndex && !inUse.contains entry.modelId) = true := by
              simpa using hentry
            rw [if_pos hentry, if_pos hb, List.map_cons, List.sum_cons]
          · have hb : ¬ (entry.gpuIndex == gpuIndex && !inUse.contains entry.modelId) = true := by
              simpa using hentry
            rw [if_neg hentry, if_neg hb, Nat.zero_add]

theorem evictableBytesByDevice_le {manageable : Bool} {inUse inUse' : List String}
    (h : ∀ entry ∈ residents, entry.gpuIndex = gpuIndex → entry.modelId ∈ inUse →
      entry.modelId ∈ inUse') :
    evictableBytesByDevice manageable residents inUse' gpuIndex ≤
      evictableBytesByDevice manageable residents inUse gpuIndex := by
  rw [evictableBytesByDevice_eq, evictableBytesByDevice_eq]
  refine List.sum_le_sum fun entry hentry => ?_
  unfold ResidentEntry.share
  have hmem := h entry hentry
  split <;> split <;> first | exact le_rfl | exact Nat.zero_le _ | skip
  rename_i hidle hused
  exact absurd ⟨hidle.1, hidle.2.1, fun hin => hidle.2.2 (hmem hidle.2.1 hin)⟩ hused

/-- An eviction takes at most the entry's own bytes from what may be evicted. -/
theorem evictableBytesByDevice_erase (manageable : Bool) (inUse : List String) (gpuIndex : ℕ)
    {entry : ResidentEntry} (hentry : entry ∈ residents) :
    evictableBytesByDevice manageable residents inUse gpuIndex =
      entry.share manageable inUse gpuIndex +
        evictableBytesByDevice manageable (residents.erase entry) inUse gpuIndex := by
  rw [evictableBytesByDevice_eq, evictableBytesByDevice_eq, List.sum_map_erase _ hentry]

theorem HeldJob.awaits_le {residents' : List ResidentEntry} (job : HeldJob W)
    (h : ∀ entry ∈ residents, entry ∈ residents') :
    job.awaits residents' gpuIndex ≤ job.awaits residents gpuIndex := by
  unfold HeldJob.awaits
  split <;> split <;> first | exact le_rfl | exact Nat.zero_le _ | skip
  rename_i hafter hbefore
  refine absurd ⟨hafter.1, ?_⟩ hbefore
  rw [residentOn_eq_false] at hafter ⊢
  intro canonicalId hcanonical hmem
  obtain ⟨entry, hentry, hspec⟩ := mem_residentDevices.1 hmem
  exact hafter.2 canonicalId hcanonical (mem_residentDevices.2 ⟨entry, h entry hentry, hspec⟩)

/-- The eviction of an entry of another device or another model leaves a job where it was. -/
theorem HeldJob.awaits_erase {entry : ResidentEntry} (job : HeldJob W)
    (h : entry.gpuIndex = gpuIndex → job.canonicalId ≠ some entry.canonicalId) :
    job.awaits residents gpuIndex = job.awaits (residents.erase entry) gpuIndex := by
  have hresident : job.residentOn (residentDevices residents) gpuIndex =
      job.residentOn (residentDevices (residents.erase entry)) gpuIndex := by
    rw [Bool.eq_iff_iff, ← not_iff_not, Bool.not_eq_true, Bool.not_eq_true, residentOn_eq_false,
      residentOn_eq_false]
    refine forall₂_congr fun canonicalId hcanonical => not_congr ?_
    rw [mem_residentDevices, mem_residentDevices]
    constructor
    · rintro ⟨other, hother, hid, hdevice⟩
      refine ⟨other, (List.mem_erase_of_ne ?_).2 hother, hid, hdevice⟩
      rintro rfl
      exact h hdevice (hid ▸ hcanonical)
    · rintro ⟨other, hother, hspec⟩
      exact ⟨other, List.mem_of_mem_erase hother, hspec⟩
  unfold HeldJob.awaits
  rw [hresident]

theorem promised_add_awaits_le {residents' : List ResidentEntry} {jobs : List (HeldJob W)}
    {job : HeldJob W} (hjob : job ∈ jobs) (hmore : ∀ entry ∈ residents, entry ∈ residents')
    (hserved : job.awaits residents' gpuIndex = 0) :
    promised residents' jobs gpuIndex + job.awaits residents gpuIndex ≤
      promised residents jobs gpuIndex := by
  obtain ⟨before, behind, rfl⟩ := List.append_of_mem hjob
  have hbefore := promised_le gpuIndex
    fun other (_ : other ∈ before) => HeldJob.awaits_le other hmore
  have hbehind := promised_le gpuIndex
    fun other (_ : other ∈ behind) => HeldJob.awaits_le other hmore
  unfold promised at hbefore hbehind ⊢
  simp only [List.map_append, List.map_cons, List.sum_append, List.sum_cons, hserved]
  omega

end Sums

end LoadCoach.Residency

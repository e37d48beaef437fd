import Mathlib.Algebra.BigOperators.Group.List.Basic
import LoadCoach.Foundations.Table
import LoadCoach.Routing.Admission

/-! # The arithmetic of reservations

`domain/admission.py` on the mappings it is called with: bytes are integers, a mapping that does
not mention a device stands for zero, and `reserved_bytes_by_device` is a loop over the jobs in
flight.  The snapshot is adjusted in one place and read in another (`free_vram_by_gpu`), each with
a bound of its own.

`free_adjustedSnapshot`: what is read in the end is one figure for each device,
`total - used - reserved + evictable` brought between nothing and all of it. -/

namespace LoadCoach.Routing

open Foundations

/-! ### The loop over the jobs in flight -/

/-- `mapping.get(gpu_index, 0)`. -/
def bytesOn (figures : Table ℕ ℤ) (gpuIndex : ℕ) : ℤ := (figures.lookup gpuIndex).getD 0

/-- `reserved_bytes_by_device`, job by job. -/
def reservedTotals (reservations : List Reservation) : Table ℕ ℤ :=
  reservations.foldl (fun totals r =>
    totals.upsert r.gpuIndex fun old => old.getD 0 + max r.bytes 0) ∅

/-- The reservations on one device. -/
def reservationsOn (gpuIndex : ℕ) (reservations : List Reservation) : List Reservation :=
  reservations.filter fun r => decide (r.gpuIndex = gpuIndex)

theorem bytesOn_reservedTotals (reservations : List Reservation) (gpuIndex : ℕ) :
    bytesOn (reservedTotals reservations) gpuIndex =
      ((reservationsOn gpuIndex reservations).map fun r => max r.bytes 0).sum := by
  have hsum : ∀ (l : List Reservation) (old : Option ℤ),
      (l.foldl (fun old r => some (old.getD 0 + max r.bytes 0)) old).getD 0 =
        old.getD 0 + (l.map fun r => max r.bytes 0).sum := by
    intro l
    induction l with
    | nil => simp
    | cons r l ih =>
        intro old
        rw [List.foldl_cons, ih, Option.getD_some, List.map_cons, List.sum_cons, add_assoc]
  rw [bytesOn, reservedTotals, Table.lookup_foldl_upsert_eq, hsum, reservationsOn]
  simp

/-! ### The adjustment -/

/-- The memory a device would have in use. -/
def adjustedUse (used total : ℕ) (reserved evictable : ℤ) : ℕ :=
  (min (max (used + reserved - evictable) 0) total).toNat

/-- One device of the adjusted snapshot. -/
def Gpu.adjusted (reserved evictable : Table ℕ ℤ) (gpu : Gpu) : Gpu :=
  match gpu.vramUsedBytes, gpu.vramTotalBytes with
  | some used, some total =>
      { gpu with
        vramUsedBytes :=
          some (adjustedUse used total (bytesOn reserved gpu.index) (bytesOn evictable gpu.index)) }
  | _, _ => { gpu with vramUsedBytes := none }

/-- `adjust_snapshot`. -/
def adjustedSnapshot (snapshot : Option TelemetrySnapshot) (reserved : Table ℕ ℤ)
    (evictable : Option (Table ℕ ℤ)) : Option TelemetrySnapshot :=
  snapshot.map fun observed =>
    { observed with gpus := observed.gpus.map (Gpu.adjusted reserved (evictable.getD ∅)) }

/-! ### What is read in the end -/

/-- The device of an index; of two under one index the last is read. -/
def TelemetrySnapshot.device (snapshot : TelemetrySnapshot) (gpuIndex : ℕ) : Option Gpu :=
  snapshot.gpus.reverse.find? fun gpu => gpu.index == gpuIndex

/-- `free_vram_by_gpu(snapshot).get(gpu_index)`, where an unreported device has an entry too. -/
def TelemetrySnapshot.freeOf (snapshot : TelemetrySnapshot) (gpuIndex : ℕ) : Option (Option ℕ) :=
  ((freeVramByGpu snapshot).find? fun e => e.1 == gpuIndex).map Prod.snd

theorem freeOf_eq (snapshot : TelemetrySnapshot) (gpuIndex : ℕ) :
    snapshot.freeOf gpuIndex = (snapshot.device gpuIndex).map Gpu.free := by
  rw [TelemetrySnapshot.freeOf, freeVramByGpu, find?_dict, ← List.map_reverse, List.find?_map,
    Option.map_map, TelemetrySnapshot.device]
  rfl

@[simp] theorem index_adjusted (reserved evictable : Table ℕ ℤ) (gpu : Gpu) :
    (gpu.adjusted reserved evictable).index = gpu.index := by
  unfold Gpu.adjusted
  split <;> rfl

theorem device_adjusted (observed : TelemetrySnapshot) (reserved evictable : Table ℕ ℤ)
    (gpuIndex : ℕ) :
    TelemetrySnapshot.device
        { observed with gpus := observed.gpus.map (Gpu.adjusted reserved evictable) } gpuIndex =
      (observed.device gpuIndex).map (Gpu.adjusted reserved evictable) := by
  rw [TelemetrySnapshot.device, TelemetrySnapshot.device, ← List.map_reverse, List.find?_map]
  have hindex : (fun gpu : Gpu => gpu.index == gpuIndex) ∘ Gpu.adjusted reserved evictable =
      fun gpu => gpu.index == gpuIndex := by
    funext gpu
    simp
  rw [hindex]

/-- What a device has free after the adjustment: nothing is known of one that does not report. -/
def freeAfter (reserved evictable : ℤ) (gpu : Gpu) : Option ℕ :=
  gpu.vramTotalBytes.bind fun total => gpu.vramUsedBytes.map fun used : ℕ =>
    (max 0 (min (total : ℤ) (total - used - reserved + evictable))).toNat

theorem free_adjusted (reserved evictable : Table ℕ ℤ) (gpu : Gpu) :
    (gpu.adjusted reserved evictable).free =
      freeAfter (bytesOn reserved gpu.index) (bytesOn evictable gpu.index) gpu := by
  rw [Gpu.adjusted, freeAfter]
  split
  · rename_i used total hused htotal
    have hclamp : total - adjustedUse used total (bytesOn reserved gpu.index)
        (bytesOn evictable gpu.index) =
          (max 0 (min (total : ℤ) (total - used - bytesOn reserved gpu.index +
            bytesOn evictable gpu.index))).toNat := by
      rw [adjustedUse]
      omega
    simp [Gpu.free, hused, htotal, hclamp]
  · rename_i hunreported
    cases hused : gpu.vramUsedBytes with
    | none => simp [Gpu.free]
    | some used =>
        cases htotal : gpu.vramTotalBytes with
        | none => simp [Gpu.free]
        | some total => exact absurd htotal (hunreported used total hused)

theorem freeOf_adjusted (observed : TelemetrySnapshot) (reserved evictable : Table ℕ ℤ)
    (gpuIndex : ℕ) :
    TelemetrySnapshot.freeOf
        { observed with gpus := observed.gpus.map (Gpu.adjusted reserved evictable) } gpuIndex =
      (observed.device gpuIndex).map
        (freeAfter (bytesOn reserved gpuIndex) (bytesOn evictable gpuIndex)) := by
  rw [freeOf_eq, device_adjusted, Option.map_map]
  cases hdevice : observed.device gpuIndex with
  | none => rfl
  | some gpu =>
      have hindex : gpu.index = gpuIndex := by simpa using List.find?_some hdevice
      rw [Option.map_some, Option.map_some, Function.comp_apply, free_adjusted, hindex]

theorem freeAfter_eq_none_iff {reserved evictable : ℤ} {gpu : Gpu} :
    freeAfter reserved evictable gpu = none ↔
      gpu.vramTotalBytes = none ∨ gpu.vramUsedBytes = none := by
  rw [freeAfter]
  cases gpu.vramTotalBytes <;> simp

/-- **The free memory of a device** after reservations and evictions is
`total - used - reserved + evictable`, brought between nothing and all of it; it is missing where the
device does not report, it depends on the device's own entries alone, and what is reserved on a
device is the sum of the estimates in flight there. -/
theorem free_adjustedSnapshot (observed : TelemetrySnapshot) (reserved : Table ℕ ℤ)
    (evictable : Option (Table ℕ ℤ)) (gpuIndex : ℕ) :
    (∃ adjusted, adjustedSnapshot (some observed) reserved evictable = some adjusted ∧
      (observed.device gpuIndex = none → adjusted.freeOf gpuIndex = none) ∧
      (∀ gpu, observed.device gpuIndex = some gpu →
        (adjusted.freeOf gpuIndex = some none ↔
          gpu.vramTotalBytes = none ∨ gpu.vramUsedBytes = none) ∧
        ∀ total used, gpu.vramTotalBytes = some total → gpu.vramUsedBytes = some used →
          ∃ free : ℕ, adjusted.freeOf gpuIndex = some (some free) ∧
            (free : ℤ) = max 0 (min (total : ℤ) (total - used - bytesOn reserved gpuIndex +
              bytesOn (evictable.getD ∅) gpuIndex))) ∧
      ∀ observed' reserved' evictable' adjusted',
        observed'.device gpuIndex = observed.device gpuIndex →
        bytesOn reserved' gpuIndex = bytesOn reserved gpuIndex →
        bytesOn (evictable'.getD ∅) gpuIndex = bytesOn (evictable.getD ∅) gpuIndex →
        adjustedSnapshot (some observed') reserved' evictable' = some adjusted' →
          adjusted'.freeOf gpuIndex = adjusted.freeOf gpuIndex) ∧
    ∀ reservations,
      bytesOn (reservedTotals reservations) gpuIndex =
        ((reservationsOn gpuIndex reservations).map fun r => max r.bytes 0).sum ∧
      ((∀ r ∈ reservations, 0 ≤ r.bytes) → bytesOn (reservedTotals reservations) gpuIndex =
        ((reservationsOn gpuIndex reservations).map Reservation.bytes).sum) := by
  refine ⟨⟨_, rfl, ?_, ?_, ?_⟩, fun reservations => ⟨bytesOn_reservedTotals _ _, ?_⟩⟩
  · intro hdevice
    rw [freeOf_adjusted, hdevice, Option.map_none]
  · intro gpu hdevice
    rw [freeOf_adjusted, hdevice, Option.map_some, Option.some.injEq]
    refine ⟨freeAfter_eq_none_iff, fun total used htotal hused => ?_⟩
    have hfree : freeAfter (bytesOn reserved gpuIndex) (bytesOn (evictable.getD ∅) gpuIndex) gpu =
        some (max 0 (min (total : ℤ) (total - used - bytesOn reserved gpuIndex +
          bytesOn (evictable.getD ∅) gpuIndex))).toNat := by
      rw [freeAfter, htotal, hused, Option.bind_some, Option.map_some]
    refine ⟨_, congrArg some hfree, ?_⟩
    omega
  · intro observed' reserved' evictable' adjusted' hdevice hreserved hevictable hadjusted
    obtain rfl := Option.some.inj hadjusted
    rw [freeOf_adjusted, freeOf_adjusted, hdevice, hreserved, hevictable]
  · intro hestimates
    rw [bytesOn_reservedTotals]
    congr 1
    refine List.map_congr_left fun r hr => ?_
    exact max_eq_left (hestimates r (List.mem_of_mem_filter hr))

end LoadCoach.Routing

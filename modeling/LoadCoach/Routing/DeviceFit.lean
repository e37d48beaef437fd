import LoadCoach.Routing.Admission
import LoadCoach.Routing.Ranking

/-! # The device a candidate is accepted for

A candidate that the hard constraints accept on a machine with a device is accepted for one device:
its model is resident there, or what it requires and the headroom fit into what that device has free
by itself.  More free memory on any device and more residents never take an acceptance away, so
neither turns it into `insufficient_vram` (`accepted_device`). -/

namespace LoadCoach.Routing

open Foundations List

/-! ### Dictionaries entry by entry -/

section Dict

variable {κ ν ν' : Type} [BEq κ] {R : ν → ν' → Prop}

/-- The two entries have one key, and related values. -/
def SameKey (R : ν → ν' → Prop) (e : κ × ν) (e' : κ × ν') : Prop := e.1 = e'.1 ∧ R e.2 e'.2

theorem any_key_congr {d : List (κ × ν)} {d' : List (κ × ν')} (h : Forall₂ (SameKey R) d d')
    (k : κ) : (d.any fun m => m.1 == k) = d'.any fun m => m.1 == k := by
  induction h with
  | nil => rfl
  | cons hhead _ ih => rw [List.any_cons, List.any_cons, ih, hhead.1]

theorem dict_forall₂ {pairs : List (κ × ν)} {pairs' : List (κ × ν')}
    (h : Forall₂ (SameKey R) pairs pairs') : Forall₂ (SameKey R) (dict pairs) (dict pairs') := by
  refine List.rel_foldl (fun d d' hd e e' he => ?_) .nil h
  rw [any_key_congr hd e.1, he.1]
  split
  · rw [List.forall₂_map_left_iff, List.forall₂_map_right_iff]
    refine hd.imp fun m m' hm => ?_
    rw [hm.1]
    split
    · exact he
    · exact hm
  · exact List.rel_append hd (.cons he .nil)

theorem dict_ne_nil {pairs : List (κ × ν)} (h : pairs ≠ []) : dict pairs ≠ [] := by
  have hstep : ∀ (l d : List (κ × ν)), d ≠ [] → l.foldl (fun d e =>
      if d.any fun m => m.1 == e.1 then d.map fun m => if m.1 == e.1 then e else m
      else d ++ [e]) d ≠ [] := by
    intro l
    induction l with
    | nil => exact fun d hd => hd
    | cons e l ih =>
        intro d hd
        refine ih _ ?_
        dsimp only
        split <;> simp [hd]
  cases pairs with
  | nil => exact absurd rfl h
  | cons e pairs =>
      refine hstep pairs _ ?_
      simp

theorem exists_mem_of_forall₂ {α β : Type} {S : α → β → Prop} {l : List α} {l' : List β}
    (h : Forall₂ S l l') {a : α} (ha : a ∈ l) : ∃ b ∈ l', S a b := by
  induction h with
  | nil => cases ha
  | cons hhead _ ih =>
      rcases List.mem_cons.1 ha with rfl | ha
      · exact ⟨_, List.mem_cons_self, hhead⟩
      · obtain ⟨b, hb, hab⟩ := ih ha
        exact ⟨b, List.mem_cons_of_mem _ hb, hab⟩

end Dict

/-! ### Where a candidate is placed -/

variable {canonicalId : String} {estimate : VramEstimate} {inputs : ConstraintInputs}
  {snapshot : TelemetrySnapshot}

/-- A device holds a candidate: its model is resident there, or it fits. -/
def holds (canonicalId : String) (estimate : VramEstimate) (inputs : ConstraintInputs)
    (device : ℕ × Option ℕ) : Bool :=
  (inputs.residentDevices canonicalId).contains device.1 ||
    fitsIn estimate.totalBytes device.2 inputs.vramHeadroomBytes

/-- The device a candidate is placed on: one where its model is resident, or one it fits on. -/
def chosenDevice (canonicalId : String) (inputs : ConstraintInputs) (fits : List DeviceFit) :
    Option DeviceFit :=
  (fits.find? fun fit => (inputs.residentDevices canonicalId).contains fit.gpuIndex).or
    (fits.find? DeviceFit.fits)

theorem place_eq (hsnapshot : inputs.snapshot = some snapshot) (hgpus : snapshot.gpus ≠ []) :
    place canonicalId estimate inputs =
      let fits := deviceFits estimate snapshot inputs.vramHeadroomBytes
      match chosenDevice canonicalId inputs fits with
      | some fit => .on fits (some fit.gpuIndex)
      | none => .rejected (.insufficientVram estimate fits inputs.vramHeadroomBytes) := by
  have hreadings : freeVramByGpu snapshot ≠ [] := dict_ne_nil (by simpa using hgpus)
  have hfits : (deviceFits estimate snapshot inputs.vramHeadroomBytes).isEmpty = false := by
    rw [List.isEmpty_eq_false_iff, deviceFits, Ne, List.map_eq_nil_iff,
      ← List.length_eq_zero_iff, List.length_insertionSort, List.length_eq_zero_iff]
    exact hreadings
  simp only [place, hsnapshot, hfits, chosenDevice, Bool.false_eq_true, if_false]
  cases (deviceFits estimate snapshot inputs.vramHeadroomBytes).find? fun fit =>
      (inputs.residentDevices canonicalId).contains fit.gpuIndex with
  | some fit => rfl
  | none => cases (deviceFits estimate snapshot inputs.vramHeadroomBytes).find? DeviceFit.fits <;> rfl

/-- **A device is chosen exactly when one holds the candidate.** -/
theorem chosenDevice_isSome_iff :
    (∃ fit, chosenDevice canonicalId inputs
      (deviceFits estimate snapshot inputs.vramHeadroomBytes) = some fit) ↔
      ∃ device ∈ freeVramByGpu snapshot, holds canonicalId estimate inputs device = true := by
  rw [← Option.isSome_iff_exists, chosenDevice, Option.isSome_or, Bool.or_eq_true, List.find?_isSome,
    List.find?_isSome]
  simp only [deviceFits, List.mem_map, List.mem_insertionSort, exists_exists_and_eq_and, holds,
    Bool.or_eq_true, and_or_left, exists_or]

theorem visible_of_chosenDevice {fit : DeviceFit} (h : chosenDevice canonicalId inputs
    (deviceFits estimate snapshot inputs.vramHeadroomBytes) = some fit) :
    ∃ gpu ∈ snapshot.gpus, gpu.index = fit.gpuIndex := by
  have hfit : fit ∈ deviceFits estimate snapshot inputs.vramHeadroomBytes := by
    rcases Option.or_eq_some_iff.1 h with hresident | ⟨-, hfits⟩
    · exact List.mem_of_find?_eq_some hresident
    · exact List.mem_of_find?_eq_some hfits
  obtain ⟨device, hdevice, rfl⟩ := List.mem_map.1 hfit
  rw [List.mem_insertionSort] at hdevice
  obtain ⟨gpu, hgpu, rfl⟩ := List.mem_map.1 (mem_of_mem_dict hdevice)
  exact ⟨gpu, hgpu, rfl⟩

/-! ### More memory and more residents -/

/-- Every device has at least as much free; a device that reported nothing may report now. -/
def TelemetrySnapshot.Relieves (snapshot relieved : TelemetrySnapshot) : Prop :=
  Forall₂ (fun gpu gpu' : Gpu => gpu.index = gpu'.index ∧
    ∀ free ∈ gpu.free, ∃ free' ∈ gpu'.free, free ≤ free') snapshot.gpus relieved.gpus

theorem fitsIn_mono {required free free' : Option ℕ} {headroomBytes : ℕ}
    (h : ∀ f ∈ free, ∃ f' ∈ free', f ≤ f') (hfits : fitsIn required free headroomBytes = true) :
    fitsIn required free' headroomBytes = true := by
  simp only [fitsIn, Option.any_eq_true, decide_eq_true_eq] at hfits ⊢
  obtain ⟨r, hr, f, hf, hle⟩ := hfits
  obtain ⟨f', hf', hff'⟩ := h f hf
  exact ⟨r, hr, f', hf', hle.trans hff'⟩

variable {relieved : TelemetrySnapshot} {residents : String → List ℕ}

theorem holds_of_relieved (hrelieves : snapshot.Relieves relieved)
    (hresidents : ∀ d ∈ inputs.residentDevices canonicalId, d ∈ residents canonicalId)
    (h : ∃ device ∈ freeVramByGpu snapshot, holds canonicalId estimate inputs device = true) :
    ∃ device ∈ freeVramByGpu relieved, holds canonicalId estimate
      { inputs with snapshot := some relieved, residentDevices := residents } device = true := by
  obtain ⟨device, hdevice, hholds⟩ := h
  have hreadings : Forall₂ (SameKey fun free free' : Option ℕ => ∀ f ∈ free, ∃ f' ∈ free', f ≤ f')
      (freeVramByGpu snapshot) (freeVramByGpu relieved) := by
    refine dict_forall₂ ?_
    rw [List.forall₂_map_left_iff, List.forall₂_map_right_iff]
    exact hrelieves
  obtain ⟨device', hdevice', hkey, hfree⟩ := exists_mem_of_forall₂ hreadings hdevice
  refine ⟨device', hdevice', ?_⟩
  simp only [holds, Bool.or_eq_true, List.contains_iff_mem] at hholds ⊢
  rw [← hkey]
  exact hholds.imp (hresidents _) (fitsIn_mono hfree)

/-! ### Acceptance -/

variable {hash : RuntimeProfile → String} {subject : ExecutionSubject} {fits : List DeviceFit}
  {target : Option ℕ}

theorem target_eq_of_place (hsnapshot : inputs.snapshot = some snapshot)
    (hgpus : snapshot.gpus ≠ []) (h : place canonicalId estimate inputs = .on fits target) :
    ∃ fit, chosenDevice canonicalId inputs (deviceFits estimate snapshot inputs.vramHeadroomBytes) =
      some fit ∧ target = some fit.gpuIndex := by
  rw [place_eq hsnapshot hgpus] at h
  dsimp only at h
  split at h
  · rename_i fit hfit
    cases h
    exact ⟨fit, hfit, rfl⟩
  · cases h

theorem accepted_of_place {inputs' : ConstraintInputs} {fits' : List DeviceFit}
    {target' : Option ℕ}
    (haccepted : evaluateConstraints hash subject estimate inputs = .ok (fits, target))
    (hprovider : checkProvider subject inputs' = checkProvider subject inputs)
    (hselection : checkSelection hash subject inputs' = checkSelection hash subject inputs)
    (hplace : place subject.facts.canonicalId estimate inputs' = .on fits' target') :
    evaluateConstraints hash subject estimate inputs' = .ok (fits', target') := by
  have hbefore := place_of_evaluateConstraints haccepted
  unfold evaluateConstraints at haccepted
  rw [evaluateConstraints, hprovider, hselection, hplace]
  rw [hbefore] at haccepted
  cases hrefused : checkProvider subject inputs with
  | some rejection =>
      rw [hrefused] at haccepted
      cases haccepted
  | none =>
      rw [hrefused] at haccepted
      cases hselected : checkSelection hash subject inputs with
      | some rejection =>
          simp only [hselected] at haccepted
          cases haccepted
      | none => rfl

/-- A device of a snapshot has this much free, by itself. -/
def HasFree (snapshot : TelemetrySnapshot) (gpuIndex free : ℕ) : Prop :=
  ∃ gpu ∈ snapshot.gpus, gpu.index = gpuIndex ∧ gpu.free = some free

theorem hasFree_of_mem {gpuIndex free : ℕ} (h : (gpuIndex, some free) ∈ freeVramByGpu snapshot) :
    HasFree snapshot gpuIndex free := by
  obtain ⟨gpu, hgpu, heq⟩ := List.mem_map.1 (mem_of_mem_dict h)
  exact ⟨gpu, hgpu, congrArg Prod.fst heq, congrArg Prod.snd heq⟩

/-- **The device of an accepted candidate**: its model is resident there, or what it is known to
require fits with the headroom into what that device has free.  A candidate nothing is known about
is accepted where its model is resident, and more free memory or more residents take no acceptance
away. -/
theorem accepted_device (hsnapshot : inputs.snapshot = some snapshot) (hgpus : snapshot.gpus ≠ [])
    (haccepted : evaluateConstraints hash subject estimate inputs = .ok (fits, target)) :
    (∃ gpuIndex, target = some gpuIndex ∧ (∃ gpu ∈ snapshot.gpus, gpu.index = gpuIndex) ∧
      (gpuIndex ∈ inputs.residentDevices subject.facts.canonicalId ∨
        ∃ required free, estimate.totalBytes = some required ∧ HasFree snapshot gpuIndex free ∧
          required + inputs.vramHeadroomBytes ≤ free) ∧
      (estimate.totalBytes = none →
        gpuIndex ∈ inputs.residentDevices subject.facts.canonicalId)) ∧
    ∀ relieved residents, snapshot.Relieves relieved →
      (∀ d ∈ inputs.residentDevices subject.facts.canonicalId,
        d ∈ residents subject.facts.canonicalId) →
      ∃ fits' target', evaluateConstraints hash subject estimate
        { inputs with snapshot := some relieved, residentDevices := residents } =
          .ok (fits', target') := by
  have hplace := place_of_evaluateConstraints haccepted
  obtain ⟨fit, hchosen, rfl⟩ := target_eq_of_place hsnapshot hgpus hplace
  constructor
  · have hdevice : fit.gpuIndex ∈ inputs.residentDevices subject.facts.canonicalId ∨
        ∃ required free, estimate.totalBytes = some required ∧
          HasFree snapshot fit.gpuIndex free ∧ required + inputs.vramHeadroomBytes ≤ free := by
      refine (target_of_place hplace).imp_right ?_
      rintro ⟨observed, required, free, hobserved, hrequired, hfree, hle⟩
      cases hsnapshot.symm.trans hobserved
      exact ⟨required, free, hrequired, hasFree_of_mem hfree, hle⟩
    refine ⟨fit.gpuIndex, rfl, visible_of_chosenDevice hchosen, hdevice, fun hunknown =>
      hdevice.resolve_right ?_⟩
    rintro ⟨required, -, hrequired, -⟩
    rw [hunknown] at hrequired
    cases hrequired
  · intro relieved residents hrelieves hresidents
    have hgpus' : relieved.gpus ≠ [] := by
      have hlength := hrelieves.length_eq
      rw [← List.length_pos_iff] at hgpus ⊢
      omega
    obtain ⟨fit', hchosen'⟩ := chosenDevice_isSome_iff.2
      (holds_of_relieved hrelieves hresidents (chosenDevice_isSome_iff.1 ⟨fit, hchosen⟩))
    have hplace' : place subject.facts.canonicalId estimate
        { inputs with snapshot := some relieved, residentDevices := residents } = _ :=
      place_eq rfl hgpus'
    dsimp only at hplace'
    rw [hchosen'] at hplace'
    exact ⟨_, _, accepted_of_place haccepted rfl rfl hplace'⟩

/-- Two devices, of which the second has room for four gigabytes. -/
def twoDevices : TelemetrySnapshot where
  gpus := [⟨0, some 8000000000, some 7000000000⟩, ⟨1, some 8000000000, some 4000000000⟩]

/-- An estimate of three gigabytes. -/
def threeGigabytes : VramEstimate where
  totalBytes := some 3000000000
  weightsBytes := some 2731564544
  kvBytes := some 0
  kvBytesPerToken := some 0
  kvSource := .observed
  kvPrecisionAssumed := false
  servedContext := 8192

theorem accepted_device_second :
    HasFree twoDevices 1 4000000000 ∧ 3000000000 + defaultVramHeadroomBytes ≤ 4000000000 := by
  have hsnapshot : ({ snapshot := some twoDevices } : ConstraintInputs).snapshot =
      some twoDevices := rfl
  have haccepted : evaluateConstraints (fun _ => "") (adapted none) threeGigabytes
      { snapshot := some twoDevices } =
        .ok (deviceFits threeGigabytes twoDevices defaultVramHeadroomBytes, some 1) := rfl
  obtain ⟨⟨gpuIndex, hgpu, -, hdevice, -⟩, -⟩ :=
    accepted_device hsnapshot (by simp [twoDevices]) haccepted
  cases hgpu
  rcases hdevice with hresident | ⟨required, free, hrequired, hfree, hle⟩
  · cases hresident
  · cases hrequired
    obtain ⟨gpu, hmem, hindex, heq⟩ := hfree
    have hlast : gpu = ⟨1, some 8000000000, some 4000000000⟩ := by
      simp only [twoDevices, List.mem_cons, List.not_mem_nil, or_false] at hmem
      rcases hmem with rfl | hlast
      · cases hindex
      · exact hlast
    subst hlast
    cases heq
    exact ⟨⟨_, hmem, rfl, rfl⟩, hle⟩

end LoadCoach.Routing

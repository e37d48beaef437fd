import LoadCoach.Residency.Service

/-! # Open episodes

`ensure_loaded` looks for an open episode before it loads and opens one after, with the slow
request to the provider in between and no unique key behind it.  `openIds` are the open episodes of
a model on a device, and the lemmas here say what each statement does to them.

Two calls that load one model on one device at the same time open two episodes, and the next
`record_use` raises.  This is the only way (`single_episode`): while every call that opens an
episode finds none that was opened since its own look at the table, the table never holds two and
no lookup raises. -/

namespace LoadCoach.Residency

open Foundations

namespace Table

/-- The keys of the open episodes of a model on a device. -/
def openIds (t : Table) (modelId : String) (gpuIndex : ℕ) : List ℕ :=
  (t.openAt modelId gpuIndex).map Episode.id

/-- A well-formed table: every key is below the next one, and a model has one open episode on a
device at most. -/
structure Sound (t : Table) : Prop where
  fresh : ∀ row ∈ t.rows, row.id < t.nextId
  single : ∀ modelId gpuIndex, (t.openIds modelId gpuIndex).length ≤ 1

variable {t t' : Table} {modelId : String} {gpuIndex : ℕ}

/-! ### The statements -/

theorem mem_openIds {id : ℕ} : id ∈ t.openIds modelId gpuIndex ↔
    ∃ row ∈ t.rows, row.id = id ∧ row.modelId = modelId ∧ row.gpuIndex = gpuIndex ∧
      row.resident = true := by
  simp only [openIds, openAt, List.mem_map, List.mem_filter, Bool.and_eq_true, beq_iff_eq]
  grind

theorem mem_resident {row : Episode} :
    row ∈ t.resident ↔ row ∈ t.rows ∧ row.resident = true := by
  rw [resident, List.mem_insertionSort, List.mem_filter]

/-- A closed episode is open no more, and the others are as they were. -/
theorem openIds_close (t : Table) (id : ℕ) (now : Instant) (reason : String) :
    (t.close id now reason).openIds modelId gpuIndex =
      (t.openIds modelId gpuIndex).filter fun other => other != id := by
  simp only [openIds, openAt, close]
  rw [List.filter_map, List.map_map, List.filter_map, List.filter_filter]
  congr 1
  · funext row
    simp only [Function.comp_apply]
    split <;> rfl
  · congr 1
    funext row
    simp only [Function.comp_apply]
    split <;> rename_i hid <;> simp [hid]

theorem openIds_map {f : Episode → Episode} (hid : ∀ row, (f row).id = row.id)
    (hopen : ∀ row, ((f row).modelId == modelId && (f row).gpuIndex == gpuIndex &&
      (f row).resident) = (row.modelId == modelId && row.gpuIndex == gpuIndex && row.resident)) :
    ({ t with rows := t.rows.map f } : Table).openIds modelId gpuIndex =
      t.openIds modelId gpuIndex := by
  simp only [openIds, openAt]
  rw [List.filter_map, List.map_map]
  congr 1
  · funext row
    exact hid row
  · congr 1
    funext row
    exact hopen row

theorem openIds_recordUse (modelId : String) (gpuIndex : ℕ) {m : String} {g : ℕ} {now : Instant}
    {adapterId : Option String} {adapterKey : String}
    (h : t.recordUse m g now adapterId adapterKey = .ok t') :
    t'.openIds modelId gpuIndex = t.openIds modelId gpuIndex ∧ t'.nextId = t.nextId := by
  unfold recordUse at h
  split at h
  · cases h
    exact ⟨rfl, rfl⟩
  · split at h <;> cases h
    refine ⟨openIds_map ?_ ?_, rfl⟩ <;> intro row <;> split <;> rfl
  · cases h

theorem openIds_insert (modelId : String) (gpuIndex : ℕ) {row : Episode}
    (hresident : row.resident = true) (h : t.insert row = .ok t') :
    t'.openIds modelId gpuIndex = t.openIds modelId gpuIndex ++
        (if row.modelId = modelId ∧ row.gpuIndex = gpuIndex then [t.nextId] else []) ∧
      t'.nextId = t.nextId + 1 := by
  unfold insert at h
  split at h <;> cases h
  refine ⟨?_, rfl⟩
  simp only [openIds, openAt, List.filter_append, List.map_append, List.filter_cons, hresident,
    Bool.and_true, Bool.and_eq_true, beq_iff_eq, List.filter_nil]
  split <;> rfl

theorem fresh_close (hfresh : ∀ row ∈ t.rows, row.id < t.nextId) (id : ℕ) (now : Instant)
    (reason : String) : ∀ row ∈ (t.close id now reason).rows, row.id < t.nextId := by
  intro row hrow
  obtain ⟨before, hbefore, rfl⟩ := List.mem_map.1 hrow
  split <;> exact hfresh before hbefore

theorem fresh_recordUse {m : String} {g : ℕ} {now : Instant} {adapterId : Option String}
    {adapterKey : String} (hfresh : ∀ row ∈ t.rows, row.id < t.nextId)
    (h : t.recordUse m g now adapterId adapterKey = .ok t') :
    ∀ row ∈ t'.rows, row.id < t'.nextId := by
  unfold recordUse at h
  split at h
  · cases h
    exact hfresh
  · split at h <;> cases h
    intro row hrow
    obtain ⟨before, hbefore, rfl⟩ := List.mem_map.1 hrow
    split <;> exact hfresh before hbefore
  · cases h

theorem fresh_insert {row : Episode} (hfresh : ∀ row ∈ t.rows, row.id < t.nextId)
    (h : t.insert row = .ok t') : ∀ row ∈ t'.rows, row.id < t'.nextId := by
  unfold insert at h
  split at h <;> cases h
  intro other hother
  rcases List.mem_append.1 hother with hother | hother
  · exact Nat.lt_succ_of_lt (hfresh other hother)
  · rw [List.mem_singleton.1 hother]
    exact Nat.lt_succ_self t.nextId

theorem recordUse_ne_multipleResultsFound (hsound : t.Sound) (now : Instant)
    (adapterId : Option String) (adapterKey : String) :
    t.recordUse modelId gpuIndex now adapterId adapterKey ≠ .error .multipleResultsFound := by
  have hsingle := hsound.single modelId gpuIndex
  rw [openIds, List.length_map] at hsingle
  unfold recordUse
  split
  · simp
  · split <;> simp
  · rename_i hnil hone
    cases hopen : t.openAt modelId gpuIndex with
    | nil => exact absurd hopen hnil
    | cons row rows =>
        cases rows with
        | nil => exact absurd hopen (hone row)
        | cons _ _ =>
            rw [hopen] at hsingle
            simp at hsingle

end Table

/-! ### One step of a call -/

section Advance

variable {setup : Setup} {service : String} {t : Table} {answer : Answer} {c : Call} {o : Outcome}

/-- What a call holds between its look at the table and its insertion: the model, the device, and
the next key it saw. -/
def Call.loadKey : Call → Option (String × ℕ × ℕ)
  | choosing l | evicted l _ => some (l.request.modelId, l.gpuIndex, l.seen)
  | loading request gpuIndex seen | inserting request gpuIndex seen _ =>
      some (request.modelId, gpuIndex, seen)
  | _ => none

/-- **What a step does to the table.** -/
theorem Advances.table (h : Advances setup service t answer c o) :
    o.table = t ∨ (∃ id now reason, o.table = t.close id now reason) ∨
      (∃ m g now adapterId adapterKey, c = .recording m g now adapterId adapterKey ∧
        t.recordUse m g now adapterId adapterKey = .ok o.table) ∨
      (∃ request g seen vram, c = .inserting request g seen vram ∧
        t.insert (request.episode g vram) = .ok o.table) := by
  cases h with
  | recorded huse => exact .inr (.inr (.inl ⟨_, _, _, _, _, rfl, huse⟩))
  | inserted hinsert => exact .inr (.inr (.inr ⟨_, _, _, _, rfl, hinsert⟩))
  | evict | idleEvict | close => exact .inr (.inl ⟨_, _, _, rfl⟩)
  | _ => exact .inl rfl

/-- A call that is to insert has looked at the table and found no open episode, at the present
step or before. -/
theorem Advances.loadKey (h : Advances setup service t answer c o) {m : String} {g seen : ℕ}
    (hkey : o.call.loadKey = some (m, g, seen)) :
    c.loadKey = some (m, g, seen) ∨ seen = t.nextId ∧ t.openIds m g = [] := by
  cases h with
  | missing hgpu hnone =>
      cases hkey
      refine .inr ⟨rfl, ?_⟩
      rw [List.eq_nil_iff_forall_not_mem]
      intro id hid
      obtain ⟨row, hrow, -, hmodel, hdevice, hresident⟩ := Table.mem_openIds.1 hid
      refine hnone row ?_ hmodel
      exact List.mem_filter.2 ⟨Table.mem_resident.2 ⟨hrow, hresident⟩, beq_iff_eq.2 hdevice⟩
  | load | spare | unload | unloadFails | evict | loaded => exact .inl hkey
  | _ => cases hkey

theorem Advances.raises (h : Advances setup service t answer c o)
    (hraised : o.call = .raised .multipleResultsFound) :
    c = .raised .multipleResultsFound ∨
      ∃ m g now adapterId adapterKey, c = .recording m g now adapterId adapterKey ∧
        t.recordUse m g now adapterId adapterKey = .error .multipleResultsFound := by
  cases h with
  | raised => exact .inl hraised
  | unrecorded huse =>
      cases hraised
      exact .inr ⟨_, _, _, _, _, rfl, huse⟩
  | uninserted hinsert =>
      cases hraised
      unfold Table.insert at hinsert
      split at hinsert <;> cases hinsert
  | _ => cases hraised

/-- A step keeps the table well-formed where an insertion finds no open episode; what is open
afterwards was open before or has the next key. -/
theorem Advances.sound (h : Advances setup service t answer c o) (hsound : t.Sound)
    (halone : ∀ request g seen vram, c = .inserting request g seen vram →
      t.keyTaken { request.episode g vram with id := t.nextId } = false →
        t.openIds request.modelId g = []) :
    o.table.Sound ∧ t.nextId ≤ o.table.nextId ∧
      ∀ m g, ∀ id ∈ o.table.openIds m g, id ∈ t.openIds m g ∨ id = t.nextId := by
  rcases h.table with htable | ⟨id, now, reason, htable⟩ |
      ⟨m, g, now, adapterId, adapterKey, -, htable⟩ | ⟨request, g, seen, vram, hcall, htable⟩
  · rw [htable]
    exact ⟨hsound, le_rfl, fun _ _ _ hid => .inl hid⟩
  · rw [htable]
    refine ⟨⟨Table.fresh_close hsound.fresh id now reason, ?_⟩, le_rfl, ?_⟩
    · intro m g
      rw [Table.openIds_close]
      exact (List.length_filter_le _ _).trans (hsound.single m g)
    · intro m g id' hid'
      rw [Table.openIds_close] at hid'
      exact .inl (List.mem_filter.1 hid').1
  · refine ⟨⟨Table.fresh_recordUse hsound.fresh htable, ?_⟩,
      (Table.openIds_recordUse m g htable).2.ge, ?_⟩
    · intro m' g'
      rw [(Table.openIds_recordUse _ _ htable).1]
      exact hsound.single m' g'
    · intro m' g' id hid
      rw [(Table.openIds_recordUse _ _ htable).1] at hid
      exact .inl hid
  · have htaken : t.keyTaken { request.episode g vram with id := t.nextId } = false := by
      unfold Table.insert at htable
      split at htable
      · cases htable
      · rename_i htaken
        exact Bool.eq_false_iff.2 htaken
    have hnone := halone request g seen vram hcall htaken
    have hopen := fun m' g' =>
      Table.openIds_insert m' g' rfl htable
    refine ⟨⟨Table.fresh_insert hsound.fresh htable, ?_⟩, ?_, ?_⟩
    · intro m' g'
      rw [(hopen m' g').1]
      split <;> rename_i hkey
      · obtain ⟨rfl, rfl⟩ := hkey
        rw [show t.openIds (request.episode g vram).modelId (request.episode g vram).gpuIndex = []
          from hnone]
        simp
      · simpa using hsound.single m' g'
    · have hnext := (hopen "" 0).2
      omega
    · intro m' g' id hid
      rw [(hopen m' g').1, List.mem_append] at hid
      refine hid.imp_right fun hnew => ?_
      split at hnew
      · exact List.mem_singleton.1 hnew
      · cases hnew

end Advance

/-! ### The runs -/

namespace Services

variable {W : Type} [DecidableEq W] {setup : Setup} {s : Services W}

/-- A call that opens an episode finds none of the same model and device that was opened since
its look at the table, unless the unique key refuses it. -/
def Alone (e : Step (Services W) (ServiceAct W)) : Prop :=
  match e.act with
  | .advance w _ => ∀ request g seen vram, e.pre.calls w = .inserting request g seen vram →
      e.pre.table.keyTaken { request.episode g vram with id := e.pre.table.nextId } = false →
        ∀ id ∈ e.pre.table.openIds request.modelId g, id < seen
  | _ => True

/-- The table is well-formed, what a call does not see was opened after its look, and no lookup
has raised. -/
structure Orderly (s : Services W) : Prop where
  table : s.table.Sound
  bounded : ∀ w m g seen, (s.calls w).loadKey = some (m, g, seen) → seen ≤ s.table.nextId
  unseen : ∀ w m g seen, (s.calls w).loadKey = some (m, g, seen) →
    ∀ id ∈ s.table.openIds m g, seen ≤ id
  quiet : ∀ w, s.calls w ≠ .raised .multipleResultsFound

theorem Orderly.begin (hs : s.Orderly) {w : W} {service : String} {call : Call}
    (hstarts : call.starts = true) : (s.after setup (.begin w service call)).Orderly := by
  have hkey : ∀ w' m g seen, (Function.update s.calls w call w').loadKey = some (m, g, seen) →
      (s.calls w').loadKey = some (m, g, seen) := by
    intro w' m g seen h
    rw [Function.update_apply] at h
    split at h
    · cases call <;> cases h <;> cases hstarts
    · exact h
  refine ⟨hs.table, fun w' m g seen h => hs.bounded w' m g seen (hkey w' m g seen h),
    fun w' m g seen h => hs.unseen w' m g seen (hkey w' m g seen h), ?_⟩
  intro w'
  simp only [after, Function.update_apply]
  split
  · rintro rfl
    cases hstarts
  · exact hs.quiet w'

theorem Orderly.advance (hs : s.Orderly) {w : W} {answer : Answer}
    (halone : ∀ request g seen vram, s.calls w = .inserting request g seen vram →
      s.table.keyTaken { request.episode g vram with id := s.table.nextId } = false →
        ∀ id ∈ s.table.openIds request.modelId g, id < seen) :
    (s.after setup (.advance w answer)).Orderly := by
  have hinsert : ∀ request g seen vram, s.calls w = .inserting request g seen vram →
      s.table.keyTaken { request.episode g vram with id := s.table.nextId } = false →
        s.table.openIds request.modelId g = [] := by
    intro request g seen vram hcall htaken
    rw [List.eq_nil_iff_forall_not_mem]
    intro id hid
    have hlt := halone request g seen vram hcall htaken id hid
    have hle := hs.unseen w request.modelId g seen (by rw [hcall]; rfl) id hid
    omega
  have hadvances := advances setup (s.service w) s.table answer (s.calls w)
  obtain ⟨htable, hnext, hopen⟩ := hadvances.sound hs.table hinsert
  have hkey : ∀ w' m g seen, ((s.after setup (.advance w answer)).calls w').loadKey =
      some (m, g, seen) → (s.calls w').loadKey = some (m, g, seen) ∨
        seen = s.table.nextId ∧ s.table.openIds m g = [] := by
    intro w' m g seen h
    simp only [after, Function.update_apply] at h
    split at h
    · rename_i hw
      rw [hw]
      exact hadvances.loadKey h
    · exact .inl h
  refine ⟨htable, ?_, ?_, ?_⟩
  · intro w' m g seen h
    rcases hkey w' m g seen h with hbefore | ⟨rfl, -⟩
    · exact (hs.bounded w' m g seen hbefore).trans hnext
    · exact hnext
  · intro w' m g seen h id hid
    rcases hopen m g id hid with hold | rfl
    · rcases hkey w' m g seen h with hbefore | ⟨-, hnone⟩
      · exact hs.unseen w' m g seen hbefore id hold
      · rw [hnone] at hold
        cases hold
    · rcases hkey w' m g seen h with hbefore | ⟨rfl, -⟩
      · exact hs.bounded w' m g seen hbefore
      · exact le_rfl
  · intro w' hraised
    simp only [after, Function.update_apply] at hraised
    split at hraised
    · rcases hadvances.raises hraised with hcall |
        ⟨m, g, now, adapterId, adapterKey, -, herror⟩
      · exact hs.quiet w hcall
      · exact Table.recordUse_ne_multipleResultsFound hs.table now adapterId adapterKey herror
    · exact hs.quiet w' hraised

theorem Orderly.step (hs : s.Orderly) {a : ServiceAct W}
    (halone : Alone ⟨s, a, s.after setup a⟩) (henabled : s.Enabled a) :
    (s.after setup a).Orderly := by
  cases a with
  | begin w service call => exact hs.begin henabled.2
  | advance w answer => exact hs.advance halone

/-- **One open episode at most.**  From a well-formed table, in every run in which a call that
opens an episode finds none that was opened since its look at the table, the table never holds
two open episodes of a model on a device, and no lookup raises. -/
theorem single_episode {table : Table} (hstart : table.Sound)
    {h : List (Step (Services W) (ServiceAct W))} (hrun : Run (system W setup table) h s)
    (halone : ∀ e ∈ h, Alone e) :
    (∀ modelId gpuIndex, (s.table.openAt modelId gpuIndex).length ≤ 1) ∧
      ∀ w, s.calls w ≠ .raised .multipleResultsFound := by
  have horderly : s.Orderly := by
    refine hrun.invariant_of_steps (C := Alone) ?_ ?_ halone
    · rintro _ rfl
      refine ⟨hstart, ?_, ?_, ?_⟩ <;> intro w
      · intro m g seen h
        cases h
      · intro m g seen h
        cases h
      · intro h
        cases h
    · rintro ⟨s, a, s'⟩ ⟨henabled, hpost⟩ hC hs
      obtain rfl : s' = s.after setup a := hpost
      exact hs.step hC henabled
  refine ⟨fun modelId gpuIndex => ?_, horderly.quiet⟩
  have hsingle := horderly.table.single modelId gpuIndex
  rwa [Table.openIds, List.length_map] at hsingle

/-! ### Two loads of one model -/

/-- One registration, one model. -/
def oneModel : Setup where
  models := fun _ => ⟨"m", "m", "local"⟩

/-- A load of the model on a device. -/
def loadAt (gpuIndex : ℕ) (now : Instant) : Call :=
  .entering { modelId := "m", gpuIndex := some gpuIndex, now }

/-- Two threads look at the table before either loads the model, each on a device of its own; then the
second asks for it on the first device while the first records a use of it there. -/
def loadsApart : List (ServiceAct ℕ) :=
  [.begin 1 "local" (loadAt 0 1), .begin 2 "local" (loadAt 1 2), .advance 1 {}, .advance 2 {},
   .advance 1 {}, .advance 2 {}, .advance 1 {}, .advance 2 {}, .advance 1 {}, .advance 2 {},
   .begin 2 "local" (loadAt 0 3), .begin 1 "local" (.recording "m" 0 4 none ""), .advance 2 {},
   .advance 1 {}]

/-- Two threads look at the table, and both load the model. -/
def twoLoads : List (ServiceAct ℕ) :=
  [.begin 1 "local" (loadAt 0 1), .begin 2 "local" (loadAt 0 2), .advance 1 {}, .advance 2 {},
   .advance 1 {}, .advance 1 {}, .advance 1 {}, .advance 2 {}, .advance 2 {}, .advance 2 {}]

theorem loadsApart_run : Run (system ℕ oneModel {}) (trace (after oneModel) {} loadsApart)
    (loadsApart.foldl (after oneModel) {}) :=
  .replay ⟨⟨rfl, rfl⟩, ⟨rfl, rfl⟩, rfl, rfl, rfl, rfl, rfl, rfl, rfl, rfl, ⟨rfl, rfl⟩, ⟨rfl, rfl⟩,
    rfl, rfl, trivial⟩

/-- There are two episodes in the end, one on each device. -/
theorem single_episode_loadsApart :
    (loadsApart.foldl (after oneModel) {}).table.rows.length = 2 ∧
    (∀ modelId gpuIndex,
        ((loadsApart.foldl (after oneModel) {}).table.openAt modelId gpuIndex).length ≤ 1) ∧
      ∀ w, (loadsApart.foldl (after oneModel) {}).calls w ≠ .raised .multipleResultsFound := by
  refine ⟨by decide, single_episode ⟨?_, ?_⟩ loadsApart_run ?_⟩
  · simp
  · simp [Table.openIds, Table.openAt]
  · refine forall_mem_trace ⟨trivial, trivial, ?_, ?_, ?_, ?_, ?_, ?_, ?_, ?_, trivial, trivial, ?_,
      ?_, trivial⟩ <;>
    · intro request g seen vram hcall _ id hid
      cases hcall <;> cases hid

theorem twoLoads_run : Run (system ℕ oneModel {}) (trace (after oneModel) {} twoLoads)
    (twoLoads.foldl (after oneModel) {}) :=
  .replay ⟨⟨rfl, rfl⟩, ⟨rfl, rfl⟩, rfl, rfl, rfl, rfl, rfl, rfl, rfl, rfl, trivial⟩

/-- Two loads at once open two episodes. -/
theorem twoLoads_open_two : ¬ ∀ h (s : Services ℕ), Run (system ℕ oneModel {}) h s →
    ∀ modelId gpuIndex, (s.table.openAt modelId gpuIndex).length ≤ 1 := by
  intro hclaim
  have htwo : ((twoLoads.foldl (after oneModel) {}).table.openAt "m" 0).length = 2 := by decide
  have hone := hclaim _ _ twoLoads_run "m" 0
  omega

end Services

end LoadCoach.Residency

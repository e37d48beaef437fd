import LoadCoach.Foundations.Sorting
import LoadCoach.Residency.Episodes

/-! # What one load evicts

`ensure_loaded` by itself, with nobody else on the table (`Loading`): its steps are those of the
service, and `requests` are the unload requests it sent, in order, with what the provider made of
them.

The eviction loop goes through the open episodes of the device, the oldest use first.  Its invariant
(`Loop`) splits them into those it left behind, each in use or refused by the provider, and those
it has yet to look at; the count the loop keeps is the count of the table.  So what a load asks to
unload are the first idle episodes of the device, one at a time while the device is full or has no
room, and after a load the device holds no more than it may unless all it holds is in use or would
not go (`ensureLoaded_evicts`). -/

namespace LoadCoach.Residency

open Foundations

/-! ### The open episodes of a device -/

namespace Table

variable {t t' : Table} {gpuIndex : ℕ}

/-- The open episodes of a device, the oldest use first. -/
def onDevice (t : Table) (gpuIndex : ℕ) : List Episode :=
  t.resident.filter fun entry => entry.gpuIndex == gpuIndex

theorem mem_onDevice {entry : Episode} : entry ∈ t.onDevice gpuIndex ↔
    entry ∈ t.rows ∧ entry.resident = true ∧ entry.gpuIndex = gpuIndex := by
  rw [onDevice, List.mem_filter, mem_resident, beq_iff_eq, and_assoc]

theorem onDevice_close (t : Table) (id : ℕ) (now : Instant) (reason : String) :
    (t.close id now reason).onDevice gpuIndex =
      (t.onDevice gpuIndex).filter fun entry => entry.id != id := by
  have htrans := isTrans_key fun entry : Episode => toLex (entry.lastUsedAt, entry.id)
  have htotal := total_key fun entry : Episode => toLex (entry.lastUsedAt, entry.id)
  have hrows : (t.close id now reason).rows.filter Episode.resident =
      (t.rows.filter Episode.resident).filter fun entry => entry.id != id := by
    unfold close
    dsimp only
    induction t.rows with
    | nil => rfl
    | cons row rows ih =>
        rw [List.map_cons, List.filter_cons, List.filter_cons, ih]
        by_cases hid : row.id = id
        · cases row.resident <;> simp [hid]
        · cases hopen : row.resident <;> simp [hid, hopen]
  rw [onDevice, resident, hrows, onDevice, resident, ← filter_insertionSort, List.filter_filter,
    List.filter_filter]
  exact List.filter_congr fun entry _ => Bool.and_comm ..

theorem length_onDevice (t : Table) (gpuIndex : ℕ) : (t.onDevice gpuIndex).length =
    (t.rows.filter fun entry => entry.gpuIndex == gpuIndex && entry.resident).length := by
  rw [← List.filter_filter]
  exact ((List.perm_insertionSort _ _).filter _).length_eq

theorem length_onDevice_insert {row : Episode} (hrow : row.resident = true)
    (h : t.insert row = .ok t') :
    (t'.onDevice row.gpuIndex).length = (t.onDevice row.gpuIndex).length + 1 := by
  unfold insert at h
  split at h
  · cases h
  · cases h
    rw [length_onDevice, length_onDevice, List.filter_append, List.length_append]
    simp [hrow]

end Table

/-! ### One load -/

/-- One call of `ensure_loaded`: the table, where the call is, and its unload requests so far. -/
structure Loading where
  table : Table
  call : Call
  requests : List (Episode × Bool) := []

namespace Loading

/-- The next step of the call, and what it asks the provider to unload. -/
def after (setup : Setup) (service : String) (s : Loading) (answer : Answer) : Loading :=
  let o := advance setup service s.table answer s.call
  { table := o.table
    call := o.call
    requests := s.requests ++ o.unload.toList.map fun entry => (entry, answer.unloads) }

/-- **One load by itself**, whatever the provider answers. -/
def system (setup : Setup) (service : String) (t : Table) (request : LoadRequest) :
    System Loading Answer :=
  .guarded (fun s _ => s.call.over = false) (after setup service)
    { table := t, call := .entering request }

/-- A step that opened the episode of the load. -/
def Loads (e : Step Loading Answer) : Prop :=
  (∃ request gpuIndex seen vram, e.pre.call = .inserting request gpuIndex seen vram) ∧
    e.post.call = .idle

end Loading

namespace LoadRequest

variable (request : LoadRequest)

/-- A job is using the model of an episode. -/
def uses (entry : Episode) : Bool := request.inUse.contains entry.modelId

/-- The free memory a load counts on after its evictions. -/
def tracked (requests : List (Episode × Bool)) : Option ℕ :=
  request.freeBytes.map fun free =>
    free + ((requests.filter Prod.snd).map fun e => e.1.vramBytes.getD 0).sum

/-- The device of a load is full, or has no room by the figure the load counts on. -/
def Short (maxResidentModels : ℕ) (table : Table) (requests : List (Episode × Bool))
    (gpuIndex : ℕ) : Prop :=
  maxResidentModels ≤ (table.onDevice gpuIndex).length ∨
    ∃ required ∈ request.requiredBytes, ∃ free ∈ request.tracked requests,
      free < required + request.headroomBytes

/-- An episode a load leaves where it is: it is in use, or the provider refused to unload it. -/
def Stays (requests : List (Episode × Bool)) (entry : Episode) : Prop :=
  request.uses entry = true ∨ (entry, false) ∈ requests

end LoadRequest

/-- **The invariant of the eviction loop.** -/
structure EvictionLoop.Loop (t : Table) (request : LoadRequest) (table : Table)
    (requests : List (Episode × Bool)) (l : EvictionLoop) : Prop where
  request_eq : l.request = request
  device : request.gpuIndex = some l.gpuIndex
  free : l.free = request.tracked requests
  order : ∃ done, t.onDevice l.gpuIndex = done ++ l.rest ∧
    requests.map Prod.fst = done.filter fun entry => !request.uses entry
  left : ∃ kept, table.onDevice l.gpuIndex = kept ++ l.rest ∧
    ∀ entry ∈ kept, request.Stays requests entry
  distinct : ((table.onDevice l.gpuIndex).map Episode.id).Nodup
  count : (table.onDevice l.gpuIndex).length + l.evicted = l.total

/-! ### The loop -/

section Loop

variable {t table : Table} {request : LoadRequest} {requests : List (Episode × Bool)}
  {l : EvictionLoop} {entry : Episode} {rest : List Episode}

theorem LoadRequest.Stays.append (h : request.Stays requests entry) (e : Episode × Bool) :
    request.Stays (requests ++ [e]) entry := h.imp_right (List.mem_append_left _)

theorem LoadRequest.tracked_refused :
    request.tracked (requests ++ [(entry, false)]) = request.tracked requests := by
  simp [tracked]

theorem LoadRequest.tracked_evicted : request.tracked (requests ++ [(entry, true)]) =
    (request.tracked requests).map fun free => free + entry.vramBytes.getD 0 := by
  cases h : request.freeBytes <;> simp [tracked, h, Nat.add_assoc]

theorem EvictionLoop.Loop.start (hids : (t.rows.map Episode.id).Nodup) {gpuIndex : ℕ}
    (hgpu : request.gpuIndex = some gpuIndex) :
    (request.loop t gpuIndex).Loop t request t [] where
  request_eq := rfl
  device := hgpu
  free := by
    cases h : request.freeBytes <;> simp [LoadRequest.loop, LoadRequest.tracked, h]
  order := ⟨[], rfl, rfl⟩
  left := ⟨[], rfl, by simp⟩
  distinct := by
    have hperm : (t.onDevice gpuIndex).Perm
        ((t.rows.filter Episode.resident).filter fun entry => entry.gpuIndex == gpuIndex) :=
      (List.perm_insertionSort _ _).filter _
    refine (hperm.map Episode.id).nodup_iff.2 (List.Nodup.sublist ?_ hids)
    exact (List.filter_sublist.trans List.filter_sublist).map Episode.id
  count := rfl

theorem EvictionLoop.Loop.left_cons (h : l.Loop t request table requests)
    (hrest : l.rest = entry :: rest) {requests' : List (Episode × Bool)}
    (hentry : request.Stays requests' entry)
    (hbefore : ∀ e, request.Stays requests e → request.Stays requests' e) :
    ∃ kept, table.onDevice l.gpuIndex = kept ++ rest ∧
      ∀ e ∈ kept, request.Stays requests' e := by
  obtain ⟨kept, hkept, hstays⟩ := h.left
  refine ⟨kept ++ [entry], by simpa [hrest] using hkept, ?_⟩
  intro e he
  rcases List.mem_append.1 he with he | he
  · exact hbefore e (hstays e he)
  · rw [List.mem_singleton.1 he]
    exact hentry

theorem EvictionLoop.Loop.spare (h : l.Loop t request table requests)
    (hrest : l.rest = entry :: rest) (huses : request.uses entry = true) :
    EvictionLoop.Loop t request table requests { l with rest } where
  request_eq := h.request_eq
  device := h.device
  free := h.free
  order := by
    obtain ⟨done, hdone, hrequests⟩ := h.order
    refine ⟨done ++ [entry], by simpa [hrest] using hdone, ?_⟩
    simpa [List.filter_append, huses] using hrequests
  left := h.left_cons hrest (.inl huses) fun _ hstays => hstays
  distinct := h.distinct
  count := h.count

/-- An episode the provider does not unload is left where it is. -/
theorem EvictionLoop.Loop.refused (h : l.Loop t request table requests)
    (hrest : l.rest = entry :: rest) (hidle : request.uses entry = false) :
    EvictionLoop.Loop t request table (requests ++ [(entry, false)]) { l with rest } where
  request_eq := h.request_eq
  device := h.device
  free := h.free.trans LoadRequest.tracked_refused.symm
  order := by
    obtain ⟨done, hdone, hrequests⟩ := h.order
    refine ⟨done ++ [entry], by simpa [hrest] using hdone, ?_⟩
    simpa [List.filter_append, hidle] using hrequests
  left := h.left_cons hrest (.inr (by simp)) fun _ hstays => hstays.append _
  distinct := h.distinct
  count := h.count

theorem EvictionLoop.Loop.evict (h : l.Loop t request table requests)
    (hrest : l.rest = entry :: rest) (hidle : request.uses entry = false) (now : Instant)
    (reason : String) : (EvictionLoop.after { l with rest } entry).Loop t request
      (table.close entry.id now reason) (requests ++ [(entry, true)]) := by
  obtain ⟨kept, hkept, hstays⟩ := h.left
  rw [hrest] at hkept
  have hclosed : (table.close entry.id now reason).onDevice l.gpuIndex = kept ++ rest := by
    have hdistinct := h.distinct
    rw [hkept, List.map_append, List.map_cons, List.nodup_append] at hdistinct
    obtain ⟨-, hnodup, hdisjoint⟩ := hdistinct
    have hleft : ∀ e ∈ kept, e.id ≠ entry.id := fun e he =>
      hdisjoint _ (List.mem_map_of_mem he) _ List.mem_cons_self
    have hright : ∀ e ∈ rest, e.id ≠ entry.id := fun e he heq =>
      (List.nodup_cons.1 hnodup).1 (heq ▸ List.mem_map_of_mem he)
    rw [Table.onDevice_close, hkept, List.filter_append, List.filter_cons,
      List.filter_eq_self.2 fun e he => by simp [hleft e he],
      List.filter_eq_self.2 fun e he => by simp [hright e he]]
    simp
  refine ⟨h.request_eq, h.device, ?_, ?_, ?_, ?_, ?_⟩
  · rw [LoadRequest.tracked_evicted, ← h.free]
    rfl
  · obtain ⟨done, hdone, hrequests⟩ := h.order
    refine ⟨done ++ [entry], by simpa [hrest, EvictionLoop.after] using hdone, ?_⟩
    simpa [List.filter_append, hidle] using hrequests
  · exact ⟨kept, hclosed, fun e he => (hstays e he).append _⟩
  · have hdistinct := h.distinct
    change (((table.close entry.id now reason).onDevice l.gpuIndex).map Episode.id).Nodup
    rw [hclosed]
    rw [hkept] at hdistinct
    refine hdistinct.sublist (List.Sublist.map _ ?_)
    exact (List.Sublist.refl kept).append (List.sublist_cons_self entry rest)
  · have hcount := h.count
    change ((table.close entry.id now reason).onDevice l.gpuIndex).length + (l.evicted + 1) = l.total
    rw [hclosed]
    rw [hkept, List.length_append, List.length_cons] at hcount
    rw [List.length_append]
    omega

/-- **While the loop goes on the device is short**: the count it keeps is that of the table. -/
theorem EvictionLoop.Loop.wants_iff (h : l.Loop t request table requests) (limit : ℕ) :
    l.wants limit = true ↔ request.Short limit table requests l.gpuIndex := by
  have hcount : l.total - l.evicted = (table.onDevice l.gpuIndex).length := by
    have h := h.count
    omega
  rw [EvictionLoop.wants, hcount, h.request_eq, h.free, LoadRequest.Short]
  simp [Option.any_eq_true]

theorem EvictionLoop.Loop.requests_first (h : l.Loop t request table requests) :
    requests.map Prod.fst <+: (t.onDevice l.gpuIndex).filter fun entry => !request.uses entry := by
  obtain ⟨done, hdone, hrequests⟩ := h.order
  rw [hrequests, hdone, List.filter_append]
  exact List.prefix_append _ _

end Loop

/-! ### The load -/

namespace Loading

variable {setup : Setup} {service : String} {t : Table} {request : LoadRequest} {s : Loading}

/-- A device that is not over its bound, or holds only what stays. -/
def Settled (limit : ℕ) (request : LoadRequest) (s : Loading) (gpuIndex : ℕ) : Prop :=
  (s.table.onDevice gpuIndex).length < limit ∨
    ∀ entry ∈ s.table.onDevice gpuIndex, request.Stays s.requests entry

/-- What is known where the call is. -/
def Where (setup : Setup) (t : Table) (request : LoadRequest) (s : Loading) : Prop :=
  match s.call with
  | .entering r => r = request ∧ s.table = t ∧ s.requests = []
  | .choosing l => l.Loop t request s.table s.requests
  | .evicted l entry => ∃ before, s.requests = before ++ [(entry, true)] ∧
      request.uses entry = false ∧
        EvictionLoop.Loop t request s.table before { l with rest := entry :: l.rest }
  | .loading r gpuIndex _ | .inserting r gpuIndex _ _ =>
      r = request ∧ request.gpuIndex = some gpuIndex ∧
        s.Settled setup.maxResidentModels request gpuIndex
  | .recording .. | .idle | .raised _ => True
  | _ => False

/-- What the load has asked to unload so far are the first idle episodes of its device. -/
def Ordered (t : Table) (request : LoadRequest) (s : Loading) : Prop :=
  s.requests = [] ∨ ∃ gpuIndex, request.gpuIndex = some gpuIndex ∧
    s.requests.map Prod.fst <+:
      (t.onDevice gpuIndex).filter fun entry => !request.uses entry

/-- The episodes that the provider has not unloaded are open. -/
def Remaining (t : Table) (s : Loading) : Prop :=
  ∀ row ∈ t.rows, row.resident = true → (row, true) ∉ s.requests →
    ∃ row' ∈ s.table.rows, row'.id = row.id ∧ row'.resident = true

/-- **The invariant of a load.** -/
structure Inv (setup : Setup) (t : Table) (request : LoadRequest) (s : Loading) : Prop where
  here : s.Where setup t request
  ordered : s.Ordered t request
  remaining : s.Remaining t

theorem Ordered.of_loop {l : EvictionLoop} {table : Table} {requests : List (Episode × Bool)}
    (h : l.Loop t request table requests) (hrequests : s.requests = requests) :
    s.Ordered t request := by
  subst hrequests
  exact .inr ⟨l.gpuIndex, h.device, h.requests_first⟩

theorem Remaining.of_table {s' : Loading} (h : s.Remaining t) (htable : s'.table = s.table)
    (hrequests : ∀ e ∈ s.requests, e ∈ s'.requests) : s'.Remaining t := by
  intro row hrow hopen hnot
  rw [htable]
  exact h row hrow hopen fun hin => hnot (hrequests _ hin)

theorem inv_start : Inv setup t request { table := t, call := .entering request } where
  here := ⟨rfl, rfl, rfl⟩
  ordered := .inl rfl
  remaining row hrow hopen _ := ⟨row, hrow, rfl, hopen⟩

theorem Inv.choosing (hs : s.Inv setup t request) (answer : Answer) {l : EvictionLoop}
    (hcall : s.call = .choosing l) : (s.after setup service answer).Inv setup t request := by
  have hloop : l.Loop t request s.table s.requests := by
    have hhere := hs.here
    rwa [Where, hcall] at hhere
  cases hrest : l.rest with
  | nil =>
      have hafter : s.after setup service answer =
          { s with call := .loading l.request l.gpuIndex l.seen } := by
        simp [after, advance, hcall, hrest]
      rw [hafter]
      refine ⟨⟨hloop.request_eq, hloop.device, .inr ?_⟩, hs.ordered, hs.remaining⟩
      obtain ⟨kept, hkept, hstays⟩ := hloop.left
      rw [hrest, List.append_nil] at hkept
      exact hkept ▸ hstays
  | cons entry rest =>
      have hinuse : l.request.inUse.contains entry.modelId = request.uses entry := by
        rw [hloop.request_eq, LoadRequest.uses]
      cases hwants : l.wants setup.maxResidentModels with
      | false =>
          have hafter : s.after setup service answer =
              { s with call := .loading l.request l.gpuIndex l.seen } := by
            simp [after, advance, hcall, hrest, hwants]
          rw [hafter]
          refine ⟨⟨hloop.request_eq, hloop.device, .inl ?_⟩, hs.ordered, hs.remaining⟩
          have hshort := mt (hloop.wants_iff setup.maxResidentModels).2 (by simp [hwants])
          exact not_le.1 fun hfull => hshort (.inl hfull)
      | true =>
          cases huses : request.uses entry with
          | true =>
              have hafter : s.after setup service answer =
                  { s with call := .choosing { l with rest } } := by
                simp only [after, advance, hcall, hrest, hwants, hinuse, huses, Bool.true_eq_false,
                  if_true, if_false, Option.toList, List.map_nil, List.append_nil]
              rw [hafter]
              exact ⟨hloop.spare hrest huses, hs.ordered, hs.remaining⟩
          | false =>
              cases hunloads : answer.unloads with
              | false =>
                  have hafter : s.after setup service answer =
                      { s with
                        call := .choosing { l with rest }
                        requests := s.requests ++ [(entry, false)] } := by
                    simp only [after, advance, hcall, hrest, hwants, hinuse, huses, hunloads,
                      Bool.true_eq_false, Bool.false_eq_true, if_false, Option.toList, List.map_nil,
                      List.map_cons]
                  rw [hafter]
                  have hnext := hloop.refused hrest huses
                  exact ⟨hnext, .of_loop hnext rfl,
                    hs.remaining.of_table rfl fun e he => List.mem_append_left _ he⟩
              | true =>
                  have hafter : s.after setup service answer =
                      { s with
                        call := .evicted { l with rest } entry
                        requests := s.requests ++ [(entry, true)] } := by
                    simp only [after, advance, hcall, hrest, hwants, hinuse, huses, hunloads,
                      Bool.true_eq_false, Bool.false_eq_true, if_true, if_false, Option.toList,
                      List.map_nil, List.map_cons]
                  rw [hafter]
                  refine ⟨⟨s.requests, rfl, huses, ?_⟩,
                    .of_loop (hloop.evict hrest huses 0 "") rfl,
                    hs.remaining.of_table rfl fun e he => List.mem_append_left _ he⟩
                  have hsame : { l with rest := entry :: rest } = l := by rw [← hrest]
                  exact hsame.symm ▸ hloop

/-- The call as it begins: it looks for an open episode of its model. -/
theorem Inv.entering (hs : s.Inv setup t request) (hids : (t.rows.map Episode.id).Nodup)
    (answer : Answer) {r : LoadRequest} (hcall : s.call = .entering r) :
    (s.after setup service answer).Inv setup t request := by
  have hhere := hs.here
  rw [Where, hcall] at hhere
  obtain ⟨rfl, htable, hrequests⟩ := hhere
  have hadvances := advances setup service s.table answer s.call
  unfold after
  rw [hcall] at hadvances ⊢
  generalize advance setup service s.table answer (.entering r) = o at hadvances
  cases hadvances with
  | ended | found _ =>
      simp only [Option.toList, List.map_nil, List.append_nil]
      exact ⟨trivial, hs.ordered, hs.remaining⟩
  | missing hgpu _ =>
      simp only [Option.toList, List.map_nil, List.append_nil]
      refine ⟨?_, hs.ordered, hs.remaining⟩
      have hstart := EvictionLoop.Loop.start hids hgpu
      rw [← hrequests, ← htable] at hstart
      rw [← htable]
      exact hstart

/-- The provider has unloaded an entry, and its episode is closed. -/
theorem Inv.evicted (hs : s.Inv setup t request) (hids : (t.rows.map Episode.id).Nodup)
    (answer : Answer) {l : EvictionLoop} {entry : Episode} (hcall : s.call = .evicted l entry) :
    (s.after setup service answer).Inv setup t request := by
  have hhere := hs.here
  rw [Where, hcall] at hhere
  obtain ⟨before, hrequests, hidle, hloop⟩ := hhere
  have hafter : s.after setup service answer =
      { s with
        table := s.table.close entry.id l.request.now
          ("evicted_for:" ++ (setup.models l.request.modelId).canonicalId)
        call := .choosing (l.after entry) } := by
    simp only [after, advance, hcall, Option.toList, List.map_nil, List.append_nil]
  rw [hafter]
  refine ⟨?_, hs.ordered, ?_⟩
  · change EvictionLoop.Loop t request _ s.requests _
    rw [hrequests]
    exact hloop.evict rfl hidle _ _
  · intro row hrow hopen hnot
    obtain ⟨row', hrow', hid, hopen'⟩ := hs.remaining row hrow hopen hnot
    have hne : row'.id ≠ entry.id := by
      intro heq
      obtain ⟨done, hdone, -⟩ := hloop.order
      have hentry : entry ∈ t.rows := (Table.mem_onDevice.1
        (hdone ▸ List.mem_append_right _ List.mem_cons_self)).1
      have hsame := List.inj_on_of_nodup_map hids hrow hentry (hid.symm.trans heq)
      exact hnot (by rw [hsame, hrequests]; simp)
    refine ⟨row', List.mem_map.2 ⟨row', hrow', ?_⟩, hid, hopen'⟩
    rw [if_neg hne]

/-- **Every step of a load keeps its invariant.** -/
theorem Inv.step (hs : s.Inv setup t request) (hids : (t.rows.map Episode.id).Nodup)
    (answer : Answer) (hlive : s.call.over = false) :
    (s.after setup service answer).Inv setup t request := by
  cases hcall : s.call with
  | entering r => exact hs.entering hids answer hcall
  | choosing l => exact hs.choosing answer hcall
  | evicted l entry => exact hs.evicted hids answer hcall
  | idle | raised x =>
      rw [hcall] at hlive
      cases hlive
  | loading r gpuIndex seen =>
      have hhere := hs.here
      rw [Where, hcall] at hhere
      cases hloads : answer.loads with
      | true =>
          have hafter : ∃ vram, s.after setup service answer =
              { s with call := .inserting r gpuIndex seen vram } := by
            simp [after, advance, hcall, hloads]
          obtain ⟨vram, hafter⟩ := hafter
          rw [hafter]
          exact ⟨hhere, hs.ordered, hs.remaining⟩
      | false =>
          have hafter : s.after setup service answer = { s with call := .idle } := by
            simp [after, advance, hcall, hloads]
          rw [hafter]
          exact ⟨trivial, hs.ordered, hs.remaining⟩
  | inserting r gpuIndex seen vram =>
      cases hinsert : s.table.insert (r.episode gpuIndex vram) with
      | error x =>
          have hafter : s.after setup service answer = { s with call := .raised x } := by
            simp [after, advance, hcall, hinsert, Outcome.ofExcept]
          rw [hafter]
          exact ⟨trivial, hs.ordered, hs.remaining⟩
      | ok table =>
          have hafter : s.after setup service answer = { s with table, call := .idle } := by
            simp [after, advance, hcall, hinsert, Outcome.ofExcept]
          rw [hafter]
          refine ⟨trivial, hs.ordered, fun row hrow hopen hnot => ?_⟩
          obtain ⟨row', hrow', hkept⟩ := hs.remaining row hrow hopen hnot
          unfold Table.insert at hinsert
          split at hinsert
          · cases hinsert
          · cases hinsert
            exact ⟨row', List.mem_append_left _ hrow', hkept⟩
  | recording m g now adapterId adapterKey =>
      cases huse : s.table.recordUse m g now adapterId adapterKey with
      | error x =>
          have hafter : s.after setup service answer = { s with call := .raised x } := by
            simp [after, advance, hcall, huse, Outcome.ofExcept]
          rw [hafter]
          exact ⟨trivial, hs.ordered, hs.remaining⟩
      | ok table =>
          have hafter : s.after setup service answer = { s with table, call := .idle } := by
            simp [after, advance, hcall, huse, Outcome.ofExcept]
          rw [hafter]
          refine ⟨trivial, hs.ordered, fun row hrow hopen hnot => ?_⟩
          obtain ⟨row', hrow', hid, hopen'⟩ := hs.remaining row hrow hopen hnot
          unfold Table.recordUse at huse
          split at huse
          · cases huse
            exact ⟨row', hrow', hid, hopen'⟩
          · split at huse
            · cases huse
            · cases huse
              refine ⟨_, List.mem_map_of_mem hrow', ?_, ?_⟩ <;> split <;> assumption
          · cases huse
  | _ =>
      have hhere := hs.here
      rw [Where, hcall] at hhere
      exact hhere.elim

theorem inv_of_run (hids : (t.rows.map Episode.id).Nodup) {h : List (Step Loading Answer)}
    (hrun : Run (system setup service t request) h s) : s.Inv setup t request := by
  refine hrun.invariant ?_ ?_
  · rintro _ rfl
    exact inv_start
  · rintro s answer _ ⟨hlive, rfl⟩ hs
    exact hs.step hids answer hlive

theorem Inv.short (hs : s.Inv setup t request) {answer : Answer}
    (hasked : (s.after setup service answer).requests ≠ s.requests) :
    ∃ gpuIndex, request.gpuIndex = some gpuIndex ∧
      request.Short setup.maxResidentModels s.table s.requests gpuIndex := by
  have hhere := hs.here
  have hadvances := advances setup service s.table answer s.call
  unfold after at hasked
  unfold Where at hhere
  generalize s.call = c at hadvances hasked hhere
  generalize advance setup service s.table answer c = o at hadvances hasked
  cases hadvances with
  | unload _ hwants _ | unloadFails _ hwants _ =>
      exact ⟨_, hhere.device, (hhere.wants_iff _).1 hwants⟩
  | idleUnload | idleUnloadFails => exact hhere.elim
  | _ => simp at hasked

/-- A load leaves its device within its bound, or with nothing on it that would go. -/
theorem Inv.settled (hs : s.Inv setup t request) {answer : Answer}
    (hloads : Loads ⟨s, answer, s.after setup service answer⟩) :
    ∃ gpuIndex, request.gpuIndex = some gpuIndex ∧
      (((s.after setup service answer).table.onDevice gpuIndex).length ≤ setup.maxResidentModels ∨
        ∀ entry ∈ s.table.onDevice gpuIndex, request.Stays s.requests entry) := by
  obtain ⟨⟨r, gpuIndex, seen, vram, hcall⟩, hover⟩ := hloads
  have hhere := hs.here
  dsimp only at hcall
  rw [Where, hcall] at hhere
  obtain ⟨-, hgpu, hsettled⟩ := hhere
  refine ⟨gpuIndex, hgpu, hsettled.imp_left fun hroom => ?_⟩
  cases hinsert : s.table.insert (r.episode gpuIndex vram) with
  | error x => simp [after, advance, hcall, hinsert, Outcome.ofExcept] at hover
  | ok table =>
      have htable : (s.after setup service answer).table = table := by
        simp [after, advance, hcall, hinsert, Outcome.ofExcept]
      have hlength : (table.onDevice gpuIndex).length = (s.table.onDevice gpuIndex).length + 1 :=
        Table.length_onDevice_insert (by rfl) hinsert
      rw [htable]
      exact hlength.trans_le hroom

/-- **What a load evicts.**  It asks to unload the first idle episodes of its device, the oldest use
first, each while the device is full or has no room; nothing else is closed, and once it has loaded,
the device is within its bound or all that was left on it is in use or would not go. -/
theorem ensureLoaded_evicts (hids : (t.rows.map Episode.id).Nodup)
    {h : List (Step Loading Answer)} (hrun : Run (system setup service t request) h s) :
    s.Ordered t request ∧ s.Remaining t ∧
      (∀ e ∈ h, e.post.requests ≠ e.pre.requests → ∃ gpuIndex, request.gpuIndex = some gpuIndex ∧
        request.Short setup.maxResidentModels e.pre.table e.pre.requests gpuIndex) ∧
      ∀ e ∈ h, Loads e → ∃ gpuIndex, request.gpuIndex = some gpuIndex ∧
        ((e.post.table.onDevice gpuIndex).length ≤ setup.maxResidentModels ∨
          ∀ entry ∈ e.pre.table.onDevice gpuIndex, request.Stays e.pre.requests entry) := by
  have hinv := inv_of_run hids hrun
  refine ⟨hinv.ordered, hinv.remaining, ?_, ?_⟩
  · intro e he hasked
    obtain ⟨h₂, hpast, -, hpost⟩ := hrun.past_of_mem he
    rw [hpost] at hasked
    exact (inv_of_run hids hpast).short hasked
  · intro e he hloads
    obtain ⟨h₂, hpast, -, hpost⟩ := hrun.past_of_mem he
    obtain ⟨pre, act, post⟩ := e
    dsimp only at hpost hpast
    subst hpost
    exact (inv_of_run hids hpast).settled hloads

/-- A table of one idle episode on the first device. -/
def oneIdle : Table where
  rows := [{ id := 0, modelId := "m", gpuIndex := 0, loadedAt := 0, lastUsedAt := 0 }]
  nextId := 1

/-- A load of another model there. -/
def swap : LoadRequest where
  modelId := "n"
  gpuIndex := some 0
  now := 1

/-- The load, step by step. -/
def swapped : Loading :=
  (List.replicate 6 ({} : Answer)).foldl (after Services.oneModel "local")
    { table := oneIdle, call := .entering swap }

theorem ensureLoaded_evicts_swap : swapped.Ordered oneIdle swap ∧ swapped.Remaining oneIdle ∧
    swapped.requests.map (fun e => e.1.modelId) = ["m"] ∧
      (swapped.table.onDevice 0).map Episode.modelId = ["n"] := by
  have hrun : Run (system Services.oneModel "local" oneIdle swap) _ swapped :=
    .replay ⟨rfl, rfl, rfl, rfl, rfl, rfl, trivial⟩
  obtain ⟨hordered, hremaining, -⟩ := ensureLoaded_evicts (by simp [oneIdle]) hrun
  exact ⟨hordered, hremaining, by decide, by decide⟩

end Loading

end LoadCoach.Residency

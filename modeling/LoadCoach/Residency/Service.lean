import LoadCoach.Foundations.Transition
import LoadCoach.Values
import Mathlib.Data.List.Sort
import Mathlib.Data.Prod.Lex
import Mathlib.Logic.Function.Basic

/-! # The residency service

`services/residency.py`: the table of residency episodes and the four operations on it,
`ensure_loaded`, `record_use`, `evict_idle` and `sync`.  Every registration has its own service
over the one table.  Each operation is a sequence of separate steps, a read or a write of the table
or a request to the provider, and any number of threads are in the middle of one; what the
provider answers comes with the step.

`Call` is the state of one thread, `advance` its next step, and `system` all of them over one
table.  `Advances` takes a step apart once, for every invariant of the calls.  `unloads` is a
history variable, the unload requests in the order they were sent. -/

namespace LoadCoach.Residency

open Foundations

/-! ### The table -/

/-- One residency episode, a row of `residency`. -/
structure Episode where
  id : ℕ
  modelId : String
  adapterId : Option String := none
  adapterKey : String := ""
  gpuIndex : ℕ
  loadedAt : Instant
  lastUsedAt : Instant
  vramBytes : Option ℕ := none
  resident : Bool := true
  unloadedAt : Option Instant := none
  unloadReason : Option String := none
deriving DecidableEq, Repr

/-- The row after a use. -/
def Episode.used (now : Instant) (adapterId : Option String) (adapterKey : String)
    (row : Episode) : Episode :=
  { row with lastUsedAt := now, adapterId, adapterKey }

/-- The rows, and the next key. -/
structure Table where
  rows : List Episode := []
  nextId : ℕ := 0
deriving DecidableEq, Repr

/-- What a statement on the table may raise. -/
inductive TableError where
  /-- `scalar_one_or_none` found several rows. -/
  | multipleResultsFound
  /-- The unique key of the table. -/
  | integrityError
deriving DecidableEq, Repr

namespace Table

/-- `resident`: every open episode, the oldest use first. -/
def resident (t : Table) : List Episode :=
  (t.rows.filter Episode.resident).insertionSort fun a b =>
    toLex (a.lastUsedAt, a.id) ≤ toLex (b.lastUsedAt, b.id)

/-- The open episodes of a model on a device. -/
def openAt (t : Table) (modelId : String) (gpuIndex : ℕ) : List Episode :=
  t.rows.filter fun row => row.modelId == modelId && row.gpuIndex == gpuIndex && row.resident

/-- Close an episode. -/
def close (t : Table) (id : ℕ) (now : Instant) (reason : String) : Table :=
  { t with rows := t.rows.map fun row =>
      if row.id = id then
        { row with resident := false, unloadedAt := some now, unloadReason := some reason }
      else row }

/-- Another row has the unique key `(model_id, adapter_key, gpu_index, loaded_at)`. -/
def keyTaken (t : Table) (row : Episode) : Bool :=
  t.rows.any fun other => other.id != row.id && other.modelId == row.modelId &&
    other.adapterKey == row.adapterKey && other.gpuIndex == row.gpuIndex &&
    other.loadedAt == row.loadedAt

/-- Open an episode. -/
def insert (t : Table) (row : Episode) : Except TableError Table :=
  if t.keyTaken { row with id := t.nextId } then .error .integrityError
  else .ok { rows := t.rows ++ [{ row with id := t.nextId }], nextId := t.nextId + 1 }

/-- `record_use`: touch the one open episode, if there is one. -/
def recordUse (t : Table) (modelId : String) (gpuIndex : ℕ) (now : Instant)
    (adapterId : Option String) (adapterKey : String) : Except TableError Table :=
  match t.openAt modelId gpuIndex with
  | [] => .ok t
  | [row] =>
      if t.keyTaken (Episode.used now adapterId adapterKey row) then .error .integrityError
      else
        .ok { t with rows := t.rows.map fun other =>
          if other.id = row.id then Episode.used now adapterId adapterKey other else other }
  | _ => .error .multipleResultsFound

end Table

/-! ### The surroundings -/

/-- What the `models` table says of a model. -/
structure ModelRow where
  canonicalId : String
  providerModelName : String
  /-- The registration that serves it. -/
  providerName : String

/-- The settings, the models, and what each registration's provider lets its service do. -/
structure Setup where
  maxResidentModels : ℕ := 1
  unloadIdleAfter : ℤ := seconds 900
  models : String → ModelRow
  manageable : String → Bool := fun _ => true
  canQuery : String → Bool := fun _ => true

/-- What a provider answers. -/
structure Answer where
  unloads : Bool := true
  loads : Bool := true
  vram : Option ℕ := none
  /-- The names of the resident models; `none` where the provider fails. -/
  reported : Option (List String) := none

/-! ### The calls -/

/-- What `ensure_loaded` is asked for. -/
structure LoadRequest where
  modelId : String
  gpuIndex : Option ℕ
  inUse : List String := []
  requiredBytes : Option ℕ := none
  freeBytes : Option ℕ := none
  headroomBytes : ℕ := 0
  now : Instant := 0
  adapterId : Option String := none
  adapterKey : String := ""

/-- The eviction loop of `ensure_loaded`; `seen` is the next key of the table when it was read. -/
structure EvictionLoop where
  request : LoadRequest
  gpuIndex : ℕ
  total : ℕ
  evicted : ℕ := 0
  free : Option ℕ
  rest : List Episode
  seen : ℕ

/-- Where a thread is in an operation. -/
inductive Call where
  | idle
  | entering (request : LoadRequest)
  /-- `record_use`, also of `ensure_loaded` on a resident model. -/
  | recording (modelId : String) (gpuIndex : ℕ) (now : Instant) (adapterId : Option String)
      (adapterKey : String)
  | choosing (loop : EvictionLoop)
  /-- The provider has unloaded the entry, and its episode is still open. -/
  | evicted (loop : EvictionLoop) (entry : Episode)
  | loading (request : LoadRequest) (gpuIndex seen : ℕ)
  | inserting (request : LoadRequest) (gpuIndex seen : ℕ) (vram : Option ℕ)
  | idleEntering (now : Instant) (inUse : List String)
  | idleChoosing (now : Instant) (inUse : List String) (rest : List Episode)
  | idleEvicted (now : Instant) (inUse : List String) (entry : Episode) (rest : List Episode)
  | syncing (now : Instant)
  | comparing (now : Instant) (reported : List String)
  | closing (now : Instant) (rest : List Episode)
  | raised (x : TableError)

/-- Where an operation starts. -/
def Call.starts : Call → Bool
  | entering _ | recording .. | idleEntering .. | syncing _ => true
  | _ => false

/-- Where a thread is free for another operation. -/
def Call.over : Call → Bool
  | idle | raised _ => true
  | _ => false

/-- Whether the eviction loop goes on: the device is full, or the model has no room on it. -/
def EvictionLoop.wants (maxResidentModels : ℕ) (l : EvictionLoop) : Bool :=
  decide (maxResidentModels ≤ l.total - l.evicted) ||
    l.request.requiredBytes.any fun required =>
      l.free.any fun free => decide (free < required + l.request.headroomBytes)

/-- The loop after an eviction. -/
def EvictionLoop.after (l : EvictionLoop) (entry : Episode) : EvictionLoop :=
  { l with
    evicted := l.evicted + 1
    free := l.free.map fun free => free + entry.vramBytes.getD 0 }

/-- The episode `ensure_loaded` opens. -/
def LoadRequest.episode (request : LoadRequest) (gpuIndex : ℕ) (vram : Option ℕ) : Episode where
  id := 0
  modelId := request.modelId
  adapterId := request.adapterId
  adapterKey := request.adapterKey
  gpuIndex
  loadedAt := request.now
  lastUsedAt := request.now
  vramBytes := vram

/-- What a step leaves: the table, where the thread is, and the entry it asked to unload. -/
structure Outcome where
  table : Table
  call : Call
  unload : Option Episode := none

/-- A statement that may raise, and where the thread goes on. -/
def Outcome.ofExcept (t : Table) (next : Call) : Except TableError Table → Outcome
  | .ok t' => { table := t', call := next }
  | .error x => { table := t, call := .raised x }

/-- **The next step of a call** through the service of a registration. -/
def advance (setup : Setup) (service : String) (t : Table) (answer : Answer) : Call → Outcome
  | .idle => { table := t, call := .idle }
  | .raised x => { table := t, call := .raised x }
  | .entering request =>
      match request.gpuIndex with
      | none => { table := t, call := .idle }
      | some gpuIndex =>
          if setup.manageable service = false then { table := t, call := .idle }
          else
            let onDevice := t.resident.filter fun entry => entry.gpuIndex == gpuIndex
            if onDevice.any fun entry => entry.modelId == request.modelId then
              { table := t
                call := .recording request.modelId gpuIndex request.now request.adapterId
                  request.adapterKey }
            else
              { table := t
                call := .choosing
                  { request, gpuIndex, total := onDevice.length, free := request.freeBytes
                    rest := onDevice, seen := t.nextId } }
  | .recording modelId gpuIndex now adapterId adapterKey =>
      .ofExcept t .idle (t.recordUse modelId gpuIndex now adapterId adapterKey)
  | .choosing l =>
      match l.rest with
      | [] => { table := t, call := .loading l.request l.gpuIndex l.seen }
      | entry :: rest =>
          if l.wants setup.maxResidentModels = false then
            { table := t, call := .loading l.request l.gpuIndex l.seen }
          else if l.request.inUse.contains entry.modelId then
            { table := t, call := .choosing { l with rest } }
          else if answer.unloads then
            { table := t, call := .evicted { l with rest } entry, unload := some entry }
          else
            { table := t, call := .choosing { l with rest }, unload := some entry }
  | .evicted l entry =>
      { table := t.close entry.id l.request.now
          ("evicted_for:" ++ (setup.models l.request.modelId).canonicalId)
        call := .choosing (l.after entry) }
  | .loading request gpuIndex seen =>
      if answer.loads then
        { table := t
          call := .inserting request gpuIndex seen
            (if setup.canQuery service then answer.vram else none) }
      else { table := t, call := .idle }
  | .inserting request gpuIndex _ vram =>
      .ofExcept t .idle (t.insert (request.episode gpuIndex vram))
  | .idleEntering now inUse =>
      if setup.manageable service = false then { table := t, call := .idle }
      else { table := t, call := .idleChoosing now inUse t.resident }
  | .idleChoosing now inUse rest =>
      match rest with
      | [] => { table := t, call := .idle }
      | entry :: rest =>
          if inUse.contains entry.modelId ∨ now - entry.lastUsedAt < setup.unloadIdleAfter then
            { table := t, call := .idleChoosing now inUse rest }
          else if answer.unloads then
            { table := t, call := .idleEvicted now inUse entry rest, unload := some entry }
          else
            { table := t, call := .idleChoosing now inUse rest, unload := some entry }
  | .idleEvicted now inUse entry rest =>
      { table := t.close entry.id now "idle", call := .idleChoosing now inUse rest }
  | .syncing now =>
      match answer.reported with
      | some reported =>
          if setup.canQuery service then { table := t, call := .comparing now reported }
          else { table := t, call := .idle }
      | none => { table := t, call := .idle }
  | .comparing now reported =>
      { table := t
        call := .closing now (t.resident.filter fun entry =>
          !reported.contains (setup.models entry.modelId).providerModelName) }
  | .closing now rest =>
      match rest with
      | [] => { table := t, call := .idle }
      | entry :: rest =>
          { table := t.close entry.id now "provider_reported_unloaded", call := .closing now rest }

/-! ### What a step does -/

/-- The loop of `ensure_loaded` as it begins. -/
def LoadRequest.loop (request : LoadRequest) (t : Table) (gpuIndex : ℕ) : EvictionLoop :=
  let onDevice := t.resident.filter fun entry => entry.gpuIndex == gpuIndex
  { request, gpuIndex, total := onDevice.length, free := request.freeBytes, rest := onDevice
    seen := t.nextId }

/-- **The steps of a call**, each at its place, with what decided it. -/
inductive Advances (setup : Setup) (service : String) (t : Table) (answer : Answer) :
    Call → Outcome → Prop
  /-- The operation is over. -/
  | ended {c : Call} : Advances setup service t answer c { table := t, call := .idle }
  | raised {x : TableError} :
      Advances setup service t answer (.raised x) { table := t, call := .raised x }
  | found {request : LoadRequest} {gpuIndex : ℕ} (hgpu : request.gpuIndex = some gpuIndex) :
      Advances setup service t answer (.entering request)
        { table := t
          call := .recording request.modelId gpuIndex request.now request.adapterId
            request.adapterKey }
  | missing {request : LoadRequest} {gpuIndex : ℕ} (hgpu : request.gpuIndex = some gpuIndex)
      (hnone : ∀ entry ∈ (request.loop t gpuIndex).rest, entry.modelId ≠ request.modelId) :
      Advances setup service t answer (.entering request)
        { table := t, call := .choosing (request.loop t gpuIndex) }
  | recorded {m : String} {g : ℕ} {now : Instant} {adapterId : Option String}
      {adapterKey : String} {t' : Table}
      (huse : t.recordUse m g now adapterId adapterKey = .ok t') :
      Advances setup service t answer (.recording m g now adapterId adapterKey)
        { table := t', call := .idle }
  | unrecorded {m : String} {g : ℕ} {now : Instant} {adapterId : Option String}
      {adapterKey : String} {x : TableError}
      (huse : t.recordUse m g now adapterId adapterKey = .error x) :
      Advances setup service t answer (.recording m g now adapterId adapterKey)
        { table := t, call := .raised x }
  | load {l : EvictionLoop} : Advances setup service t answer (.choosing l)
      { table := t, call := .loading l.request l.gpuIndex l.seen }
  | spare {l : EvictionLoop} {entry : Episode} {rest : List Episode}
      (hrest : l.rest = entry :: rest) : Advances setup service t answer (.choosing l)
        { table := t, call := .choosing { l with rest } }
  | unload {l : EvictionLoop} {entry : Episode} {rest : List Episode}
      (hrest : l.rest = entry :: rest) (hwants : l.wants setup.maxResidentModels = true)
      (hidle : l.request.inUse.contains entry.modelId = false) :
      Advances setup service t answer (.choosing l)
        { table := t, call := .evicted { l with rest } entry, unload := some entry }
  | unloadFails {l : EvictionLoop} {entry : Episode} {rest : List Episode}
      (hrest : l.rest = entry :: rest) (hwants : l.wants setup.maxResidentModels = true)
      (hidle : l.request.inUse.contains entry.modelId = false) :
      Advances setup service t answer (.choosing l)
        { table := t, call := .choosing { l with rest }, unload := some entry }
  | evict {l : EvictionLoop} {entry : Episode} :
      Advances setup service t answer (.evicted l entry)
        { table := t.close entry.id l.request.now
            ("evicted_for:" ++ (setup.models l.request.modelId).canonicalId)
          call := .choosing (l.after entry) }
  | loaded {request : LoadRequest} {g seen : ℕ} {vram : Option ℕ} :
      Advances setup service t answer (.loading request g seen)
        { table := t, call := .inserting request g seen vram }
  | inserted {request : LoadRequest} {g seen : ℕ} {vram : Option ℕ} {t' : Table}
      (hinsert : t.insert (request.episode g vram) = .ok t') :
      Advances setup service t answer (.inserting request g seen vram)
        { table := t', call := .idle }
  | uninserted {request : LoadRequest} {g seen : ℕ} {vram : Option ℕ} {x : TableError}
      (hinsert : t.insert (request.episode g vram) = .error x) :
      Advances setup service t answer (.inserting request g seen vram)
        { table := t, call := .raised x }
  | idleRead {now : Instant} {inUse : List String} :
      Advances setup service t answer (.idleEntering now inUse)
        { table := t, call := .idleChoosing now inUse t.resident }
  | idleSpare {now : Instant} {inUse : List String} {entry : Episode} {rest : List Episode} :
      Advances setup service t answer (.idleChoosing now inUse (entry :: rest))
        { table := t, call := .idleChoosing now inUse rest }
  | idleUnload {now : Instant} {inUse : List String} {entry : Episode} {rest : List Episode}
      (hidle : inUse.contains entry.modelId = false)
      (hexpired : setup.unloadIdleAfter ≤ now - entry.lastUsedAt) :
      Advances setup service t answer (.idleChoosing now inUse (entry :: rest))
        { table := t, call := .idleEvicted now inUse entry rest, unload := some entry }
  | idleUnloadFails {now : Instant} {inUse : List String} {entry : Episode} {rest : List Episode}
      (hidle : inUse.contains entry.modelId = false)
      (hexpired : setup.unloadIdleAfter ≤ now - entry.lastUsedAt) :
      Advances setup service t answer (.idleChoosing now inUse (entry :: rest))
        { table := t, call := .idleChoosing now inUse rest, unload := some entry }
  | idleEvict {now : Instant} {inUse : List String} {entry : Episode} {rest : List Episode} :
      Advances setup service t answer (.idleEvicted now inUse entry rest)
        { table := t.close entry.id now "idle", call := .idleChoosing now inUse rest }
  | reported {now : Instant} {reported : List String} :
      Advances setup service t answer (.syncing now)
        { table := t, call := .comparing now reported }
  | compared {now : Instant} {reported : List String} :
      Advances setup service t answer (.comparing now reported)
        { table := t
          call := .closing now (t.resident.filter fun entry =>
            !reported.contains (setup.models entry.modelId).providerModelName) }
  | close {now : Instant} {entry : Episode} {rest : List Episode} :
      Advances setup service t answer (.closing now (entry :: rest))
        { table := t.close entry.id now "provider_reported_unloaded", call := .closing now rest }

theorem advances (setup : Setup) (service : String) (t : Table) (answer : Answer) (c : Call) :
    Advances setup service t answer c (advance setup service t answer c) := by
  cases c with
  | idle => exact .ended
  | raised x => exact .raised
  | entering request =>
      simp only [advance]
      split
      · exact .ended
      · rename_i gpuIndex hgpu
        split
        · exact .ended
        · split
          · exact .found hgpu
          · rename_i hany
            refine .missing hgpu fun entry hentry hmodel => hany ?_
            exact List.any_eq_true.2 ⟨entry, hentry, beq_iff_eq.2 hmodel⟩
  | recording m g now adapterId adapterKey =>
      simp only [advance]
      cases huse : t.recordUse m g now adapterId adapterKey with
      | ok t' => exact .recorded huse
      | error x => exact .unrecorded huse
  | choosing l =>
      simp only [advance]
      split
      · exact .load
      · rename_i entry rest hrest
        split
        · exact .load
        · rename_i hwants
          rw [Bool.not_eq_false] at hwants
          split
          · exact .spare hrest
          · rename_i hidle
            rw [Bool.not_eq_true] at hidle
            split
            · exact .unload hrest hwants hidle
            · exact .unloadFails hrest hwants hidle
  | evicted l entry => exact .evict
  | loading request g seen =>
      simp only [advance]
      split
      · exact .loaded
      · exact .ended
  | inserting request g seen vram =>
      simp only [advance]
      cases hinsert : t.insert (request.episode g vram) with
      | ok t' => exact .inserted hinsert
      | error x => exact .uninserted hinsert
  | idleEntering now inUse =>
      simp only [advance]
      split
      · exact .ended
      · exact .idleRead
  | idleChoosing now inUse rest =>
      simp only [advance]
      split
      · exact .ended
      · split
        · exact .idleSpare
        · rename_i hexpired
          rw [not_or, Bool.not_eq_true, not_lt] at hexpired
          split
          · exact .idleUnload hexpired.1 hexpired.2
          · exact .idleUnloadFails hexpired.1 hexpired.2
  | idleEvicted now inUse entry rest => exact .idleEvict
  | syncing now =>
      simp only [advance]
      split
      · split
        · exact .reported
        · exact .ended
      · exact .ended
  | comparing now reported => exact .compared
  | closing now rest =>
      simp only [advance]
      split
      · exact .ended
      · exact .close

/-! ### All threads -/

/-- The table, and the threads in their calls through the services. -/
structure Services (W : Type) where
  table : Table := {}
  calls : W → Call := fun _ => .idle
  service : W → String := fun _ => ""
  unloads : List (String × Episode) := []

/-- What happens next. -/
inductive ServiceAct (W : Type) where
  /-- A thread begins an operation through the service of a registration. -/
  | begin (w : W) (service : String) (call : Call)
  | advance (w : W) (answer : Answer)

namespace Services

variable {W : Type} [DecidableEq W]

/-- The outcome of a thread's next step. -/
def outcome (setup : Setup) (s : Services W) (w : W) (answer : Answer) : Outcome :=
  Residency.advance setup (s.service w) s.table answer (s.calls w)

/-- The services after an act. -/
def after (setup : Setup) (s : Services W) : ServiceAct W → Services W
  | .begin w service call =>
      { s with
        calls := Function.update s.calls w call
        service := Function.update s.service w service }
  | .advance w answer =>
      let o := s.outcome setup w answer
      { s with
        table := o.table
        calls := Function.update s.calls w o.call
        unloads := o.unload.toList.map (fun entry => (s.service w, entry)) ++ s.unloads }

/-- A thread does one operation at a time, from its start. -/
def Enabled (s : Services W) : ServiceAct W → Prop
  | .begin w _ call => (s.calls w).over = true ∧ call.starts = true
  | .advance w _ => (s.calls w).over = false

/-- **The services over one table**, from any table. -/
def system (W : Type) [DecidableEq W] (setup : Setup) (table : Table) :
    System (Services W) (ServiceAct W) :=
  .guarded Enabled (after setup) { table }

end Services

end LoadCoach.Residency

import Mathlib.Data.Int.ConditionallyCompleteOrder
import LoadCoach.Foundations.Sweep
import LoadCoach.Store.Db

/-! # Content retention

`services/retention.py`: the sweep that removes the text of finished jobs.  One call reads the
oldest finished jobs past the retention, four times as many as it may scrub, and scrubs those of
them that do not carry the marker yet.  The marker is read after the window was taken, so a
window of scrubbed jobs ends every further sweep.

The order of the finished jobs and the sweep over them are those of `Foundations.Sweep`: the
store's stamps are the finished jobs with their instants (`ContentStore.stamps`), what is handled
already is what carries the marker (`ContentStore.marked`), and a call is one sweep of that
backlog (`scrubContent_marked`). -/

namespace LoadCoach

open Foundations

/-! ### What is stored -/

/-- A row of `jobs`, with its prompt and the hashes of its texts. -/
structure StoredJob extends Job where
  promptHash : Option String := none
  promptText : Option String := none
  responseHash : Option String := none

/-- A row of `job_events`. -/
structure ContentEvent where
  jobId : JobId
  sequence : ℕ := 0
  timestamp : Instant := 0
  eventType : String
  message : Option String := none
  dataJson : Json

/-- The two tables that keep text. -/
structure ContentStore where
  jobs : Table JobId StoredJob := ∅
  jobEvents : List ContentEvent := []

/-- `RetentionOutcome`. -/
structure RetentionOutcome where
  scrubbedJobs : ℕ
  scrubbedEvents : ℕ
  cutoff : Instant
deriving DecidableEq, Repr

/-! ### Scrubbing one job -/

/-- `SCRUBBED_MARKER`. -/
def scrubbedMarker : String := "content_scrubbed_at"

/-- `_SCRUBBED_EVENT_KEYS`. -/
def scrubbedEventKeys : List String := ["output", "reasoning"]

/-- What goes of a request: the transcript and the tools that were offered with it. -/
def scrubbedRequestKeys : List String := ["messages", "prompt", "system", "tools"]

/-- Whether the marker is in a job's request. -/
def StoredJob.isScrubbed (job : StoredJob) : Bool :=
  job.requestJson.any fun m => m.1 == scrubbedMarker

/-- Whether a job is finished, at or before the cutoff. -/
def StoredJob.isAged (cutoff : Instant) (job : StoredJob) : Bool :=
  decide (job.state ∈ terminalStates) &&
    job.completedAt.any fun completed => decide (completed ≤ cutoff)

section Scrub

variable (rfc3339 : Instant → String) (now : Instant)

/-- A job without its text. -/
def StoredJob.scrubbed (job : StoredJob) : StoredJob :=
  { job with
    requestJson := Json.setMember scrubbedMarker (.str (rfc3339 now))
      (job.requestJson.filter fun m => !scrubbedRequestKeys.contains m.1)
    promptText := none
    data := { job.data with
      result := { job.data.result with
        responseText := none
        structuredOutput := none
        toolCalls := none
        reasoningSummary := none } } }

/-- Whether an event of a job keeps text. -/
def ContentEvent.keepsText (jobId : JobId) (event : ContentEvent) : Bool :=
  event.jobId == jobId && ["result", "job.completed"].contains event.eventType &&
    match event.dataJson with
    | .obj members => members.any fun m => scrubbedEventKeys.contains m.1
    | _ => false

/-- An event without its text. -/
def ContentEvent.cleaned (event : ContentEvent) : ContentEvent :=
  match event.dataJson with
  | .obj members =>
      { event with
        dataJson := .obj (Json.setMember scrubbedMarker (.str (rfc3339 now))
          (members.filter fun m => !scrubbedEventKeys.contains m.1)) }
  | _ => event

/-- Scrub one job and its events. -/
def ContentStore.scrub (jobId : JobId) (store : ContentStore) : ContentStore where
  jobs := store.jobs.mapRows fun k job => if k = jobId then job.scrubbed rfc3339 now else job
  jobEvents := store.jobEvents.map fun event =>
    if event.keepsText jobId then event.cleaned rfc3339 now else event

/-! ### The sweep -/

/-- The jobs one sweep reads: of those past the cutoff, the `limit` that finished first. -/
def ContentStore.oldest (store : ContentStore) (cutoff : Instant) (limit : ℕ) :
    List (JobId × StoredJob) :=
  ((store.jobs.select fun _ job => job.isAged cutoff).insertionSort
    fun a b => a.2.completedAt.getD 0 ≤ b.2.completedAt.getD 0).take limit

/-- The loop over the jobs read, with the jobs and the events scrubbed so far. -/
def scrubLoop (batchSize : ℕ) :
    List (JobId × StoredJob) → ContentStore × ℕ × ℕ → ContentStore × ℕ × ℕ
  | [], state => state
  | (jobId, job) :: rest, (store, scrubbedJobs, scrubbedEvents) =>
      if job.isScrubbed then scrubLoop batchSize rest (store, scrubbedJobs, scrubbedEvents)
      else if batchSize ≤ scrubbedJobs then (store, scrubbedJobs, scrubbedEvents)
      else
        scrubLoop batchSize rest
          (store.scrub rfc3339 now jobId, scrubbedJobs + 1,
            scrubbedEvents + store.jobEvents.countP fun event => event.keepsText jobId)

/-- The last instant at which a job may have finished to be scrubbed now. -/
def retentionCutoff (retentionHours : ℕ) : Instant := now - seconds (3600 * retentionHours)

/-- `scrub_content`. -/
def scrubContent (retentionHours batchSize : ℕ) (store : ContentStore) :
    ContentStore × RetentionOutcome :=
  let cutoff := retentionCutoff now retentionHours
  let (store', scrubbedJobs, scrubbedEvents) :=
    scrubLoop rfc3339 now batchSize (store.oldest cutoff (batchSize * 4)) (store, 0, 0)
  (store', { scrubbedJobs, scrubbedEvents, cutoff })

end Scrub

/-- The default `batch_size`, with which the worker calls the sweep. -/
def defaultBatchSize : ℕ := 500

/-! ### What scrubbing does to a row -/

variable {rfc3339 : Instant → String} {now : Instant}

@[simp] theorem StoredJob.isScrubbed_scrubbed (job : StoredJob) :
    (job.scrubbed rfc3339 now).isScrubbed = true := Json.any_setMember _ _ _

@[simp] theorem StoredJob.state_scrubbed (job : StoredJob) :
    (job.scrubbed rfc3339 now).state = job.state := rfl

@[simp] theorem StoredJob.completedAt_scrubbed (job : StoredJob) :
    (job.scrubbed rfc3339 now).completedAt = job.completedAt := rfl

theorem StoredJob.isAged_iff {cutoff : Instant} {job : StoredJob} :
    job.isAged cutoff = true ↔
      job.state ∈ terminalStates ∧ ∃ t, job.completedAt = some t ∧ t ≤ cutoff := by
  simp [isAged, Option.any_eq_true]

/-! ### The backlog of a store -/

namespace ContentStore

/-- The finished jobs and when they finished. -/
def stamps (store : ContentStore) : List (JobId × Instant) :=
  store.jobs.entries.filterMap fun e =>
    if e.2.state ∈ terminalStates then e.2.completedAt.map fun t => (e.1, t) else none

/-- The jobs that carry the marker. -/
def marked (store : ContentStore) : Finset JobId :=
  ((store.jobs.select fun _ job => job.isScrubbed).map Prod.fst).toFinset

/-- A finished job past the cutoff whose text is still there. -/
def Eligible (store : ContentStore) (cutoff : Instant) (jobId : JobId) : Prop :=
  ∃ job, store.jobs.lookup jobId = some job ∧ job.isAged cutoff = true ∧ job.isScrubbed = false

variable {store : ContentStore} {cutoff : Instant}

theorem mem_marked {jobId : JobId} :
    jobId ∈ store.marked ↔ ∃ job, store.jobs.lookup jobId = some job ∧ job.isScrubbed = true := by
  simp only [marked, List.mem_toFinset, List.mem_map, Prod.exists, Table.mem_select]
  constructor
  · rintro ⟨k, job, hjob, rfl⟩
    exact ⟨job, hjob⟩
  · rintro ⟨job, hjob⟩
    exact ⟨jobId, job, hjob, rfl⟩

theorem mem_stamps {jobId : JobId} {t : Instant} :
    (jobId, t) ∈ store.stamps ↔
      ∃ job, store.jobs.lookup jobId = some job ∧ job.state ∈ terminalStates ∧
        job.completedAt = some t := by
  simp only [stamps, List.mem_filterMap]
  constructor
  · rintro ⟨⟨k, job⟩, hmem, hstamp⟩
    split at hstamp
    · obtain ⟨t', ht, hpair⟩ := Option.map_eq_some_iff.1 hstamp
      cases hpair
      exact ⟨job, (Table.mem_entries_iff _ _ _).1 hmem, ‹_›, ht⟩
    · cases hstamp
  · rintro ⟨job, hjob, hstate, hcompleted⟩
    exact ⟨⟨jobId, job⟩, (Table.mem_entries_iff _ _ _).2 hjob, by simp [hstate, hcompleted]⟩

theorem nodup_stamps (store : ContentStore) : (store.stamps.map Prod.fst).Nodup := by
  refine List.Sublist.nodup ?_ store.jobs.keys_nodup
  rw [stamps, List.map_filterMap]
  -- each row gives its key or nothing
  have hsub : ∀ l : List (Sigma fun _ : JobId => StoredJob),
      (l.filterMap fun e => Option.map Prod.fst
        (if e.2.state ∈ terminalStates then e.2.completedAt.map fun t => (e.1, t)
          else none)).Sublist (l.map Sigma.fst) := by
    intro l
    induction l with
    | nil => simp
    | cons e l ih =>
        rw [List.filterMap_cons]
        split
        · exact ih.cons _
        · rename_i k hk
          have hkey : k = e.1 := by
            split at hk
            · obtain ⟨p, hp, rfl⟩ := Option.map_eq_some_iff.1 hk
              obtain ⟨t, -, rfl⟩ := Option.map_eq_some_iff.1 hp
              rfl
            · cases hk
          rw [hkey, List.map_cons]
          exact ih.cons_cons _
  exact hsub _

theorem pending_iff {jobId : JobId} :
    Sweep.Pending store.stamps cutoff store.marked jobId ↔ store.Eligible cutoff jobId := by
  simp only [Sweep.Pending, List.mem_map, Prod.exists, exists_and_right, exists_eq_right,
    Sweep.mem_due, mem_stamps, mem_marked, Eligible, StoredJob.isAged_iff]
  constructor
  · rintro ⟨⟨t, ⟨job, hjob, hstate, hcompleted⟩, hle⟩, hmarked⟩
    refine ⟨job, hjob, ⟨hstate, t, hcompleted, hle⟩, ?_⟩
    exact Bool.eq_false_of_not_eq_true fun h => hmarked ⟨job, hjob, h⟩
  · rintro ⟨job, hjob, ⟨hstate, t, hcompleted, hle⟩, hfresh⟩
    refine ⟨⟨t, ⟨job, hjob, hstate, hcompleted⟩, hle⟩, ?_⟩
    rintro ⟨job', hjob', hmarked⟩
    cases hjob.symm.trans hjob'
    exact absurd hmarked (by simp [hfresh])

/-- A row with its instant. -/
def stampOf (e : JobId × StoredJob) : JobId × Instant := (e.1, e.2.completedAt.getD 0)

theorem map_stampOf_select :
    (store.jobs.select fun _ job => job.isAged cutoff).map stampOf =
      store.stamps.filter fun s => decide (s.2 ≤ cutoff) := by
  rw [Table.select, stamps]
  induction store.jobs.entries with
  | nil => rfl
  | cons e l ih =>
      rw [List.map_cons, List.filter_cons, List.filterMap_cons]
      by_cases hstate : e.2.state ∈ terminalStates
      · cases hcompleted : e.2.completedAt with
        | none => simpa [StoredJob.isAged, hstate, hcompleted] using ih
        | some t =>
            by_cases hle : t ≤ cutoff
            · simpa [StoredJob.isAged, hstate, hcompleted, hle, stampOf] using ih
            · simpa [StoredJob.isAged, hstate, hcompleted, hle] using ih
      · simpa [StoredJob.isAged, hstate] using ih

theorem map_fst_oldest (limit : ℕ) :
    (store.oldest cutoff limit).map Prod.fst = Sweep.window limit store.stamps cutoff := by
  have hsort := List.map_insertionSort
    (fun a b : JobId × StoredJob => a.2.completedAt.getD 0 ≤ b.2.completedAt.getD 0)
    (fun a b : JobId × Instant => a.2 ≤ b.2) stampOf
    (store.jobs.select fun _ job => job.isAged cutoff) fun a _ b _ => Iff.rfl
  rw [Sweep.window, Sweep.due, ← map_stampOf_select, ← hsort, ← List.map_take, List.map_map]
  rfl

theorem mem_oldest {limit : ℕ} {e : JobId × StoredJob} (he : e ∈ store.oldest cutoff limit) :
    store.jobs.lookup e.1 = some e.2 := by
  have hselect := (List.mem_insertionSort _).1 (List.mem_of_mem_take he)
  exact ((Table.mem_select _ _ _ _).1 hselect).1

theorem nodup_oldest (limit : ℕ) : ((store.oldest cutoff limit).map Prod.fst).Nodup := by
  refine List.Sublist.nodup ((List.take_sublist _ _).map _) ?_
  exact ((List.perm_insertionSort _ _).map Prod.fst).nodup_iff.2 (Table.keys_nodup_select _ _)

/-! ### The loop -/

/-- The jobs a list of reads leads to, when `budget` more may be scrubbed. -/
def picked (budget : ℕ) (l : List (JobId × StoredJob)) : List JobId :=
  ((l.filter fun e => !e.2.isScrubbed).take budget).map Prod.fst

theorem picked_cons {budget : ℕ} {l : List (JobId × StoredJob)} {jobId : JobId}
    {job : StoredJob} (h : job.isScrubbed = false) :
    picked (budget + 1) ((jobId, job) :: l) = jobId :: picked budget l := by
  simp [picked, h]

theorem not_mem_picked {budget : ℕ} {l : List (JobId × StoredJob)} {jobId : JobId}
    (h : jobId ∉ l.map Prod.fst) : jobId ∉ picked budget l := by
  intro hin
  obtain ⟨e, he, hkey⟩ := List.mem_map.1 hin
  have he := List.mem_of_mem_filter (List.mem_of_mem_take he)
  exact h (List.mem_map.2 ⟨e, he, hkey⟩)

/-- A store with some of its jobs scrubbed. -/
def scrubJobs (rfc3339 : Instant → String) (now : Instant) (ids : List JobId)
    (jobs : Table JobId StoredJob) : Table JobId StoredJob :=
  jobs.mapRows fun k job => if k ∈ ids then job.scrubbed rfc3339 now else job

theorem scrubJobs_nil (jobs : Table JobId StoredJob) : scrubJobs rfc3339 now [] jobs = jobs := by
  refine AList.ext ?_
  simp [scrubJobs, Table.mapRows]

theorem scrubJobs_scrub {jobId : JobId} {ids : List JobId} (h : jobId ∉ ids) :
    scrubJobs rfc3339 now ids (store.scrub rfc3339 now jobId).jobs =
      scrubJobs rfc3339 now (jobId :: ids) store.jobs := by
  rw [scrubJobs, scrub, Table.mapRows_mapRows, scrubJobs]
  congr 1
  funext k job
  by_cases hk : k = jobId
  · simp [hk, h]
  · simp [hk]

/-- **The loop** scrubs the first jobs without the marker, as many as the batch still allows. -/
theorem scrubLoop_jobs {l : List (JobId × StoredJob)} (hl : (l.map Prod.fst).Nodup)
    (batchSize scrubbedJobs scrubbedEvents : ℕ) (store : ContentStore) :
    (scrubLoop rfc3339 now batchSize l (store, scrubbedJobs, scrubbedEvents)).1.jobs =
        scrubJobs rfc3339 now (picked (batchSize - scrubbedJobs) l) store.jobs ∧
      (scrubLoop rfc3339 now batchSize l (store, scrubbedJobs, scrubbedEvents)).2.1 =
        scrubbedJobs + (picked (batchSize - scrubbedJobs) l).length := by
  induction l generalizing store scrubbedJobs scrubbedEvents with
  | nil => simp [scrubLoop, picked, scrubJobs_nil]
  | cons e l ih =>
      obtain ⟨jobId, job⟩ := e
      rw [List.map_cons, List.nodup_cons] at hl
      rw [scrubLoop]
      cases hscrubbed : job.isScrubbed with
      | true =>
          rw [if_pos rfl]
          simpa [picked, hscrubbed] using ih hl.2 scrubbedJobs scrubbedEvents store
      | false =>
          by_cases hfull : batchSize ≤ scrubbedJobs
          · simp [hfull, picked, scrubJobs_nil, Nat.sub_eq_zero_of_le hfull]
          · obtain ⟨budget, hbudget⟩ : ∃ budget, batchSize - scrubbedJobs = budget + 1 :=
              ⟨batchSize - scrubbedJobs - 1, by omega⟩
            have hrest : batchSize - (scrubbedJobs + 1) = budget := by omega
            have hfresh : jobId ∉ picked budget l := not_mem_picked hl.1
            obtain ⟨hjobs, hcount⟩ := ih hl.2 (scrubbedJobs + 1)
              (scrubbedEvents + store.jobEvents.countP fun event => event.keepsText jobId)
              (store.scrub rfc3339 now jobId)
            rw [if_neg (by simp), if_neg hfull, hjobs, hcount, hrest, hbudget,
              picked_cons hscrubbed, scrubJobs_scrub hfresh, List.length_cons]
            exact ⟨rfl, by omega⟩

/-- The events of a store, those of some of its jobs without their text. -/
def cleanEvents (rfc3339 : Instant → String) (now : Instant) (ids : List JobId)
    (events : List ContentEvent) : List ContentEvent :=
  events.map fun event =>
    if event.jobId ∈ ids ∧ event.keepsText event.jobId then event.cleaned rfc3339 now else event

theorem cleaned_jobId (event : ContentEvent) :
    (event.cleaned rfc3339 now).jobId = event.jobId := by
  unfold ContentEvent.cleaned
  split <;> rfl

theorem keepsText_jobId {jobId : JobId} {event : ContentEvent}
    (h : event.keepsText jobId = true) : event.jobId = jobId := by
  simp only [ContentEvent.keepsText, Bool.and_eq_true, beq_iff_eq] at h
  exact h.1.1

theorem cleanEvents_scrub {jobId : JobId} {ids : List JobId} (h : jobId ∉ ids) :
    cleanEvents rfc3339 now ids (store.scrub rfc3339 now jobId).jobEvents =
      cleanEvents rfc3339 now (jobId :: ids) store.jobEvents := by
  rw [cleanEvents, scrub, List.map_map, cleanEvents]
  refine List.map_congr_left fun event _ => ?_
  by_cases hkeeps : event.keepsText jobId = true
  · have hid := keepsText_jobId hkeeps
    simp [hkeeps, cleaned_jobId, hid, h]
  · by_cases hid : event.jobId = jobId
    · simp [hkeeps, hid, h]
    · simp [hkeeps, hid]

theorem scrubLoop_events {l : List (JobId × StoredJob)} (hl : (l.map Prod.fst).Nodup)
    (batchSize scrubbedJobs scrubbedEvents : ℕ) (store : ContentStore) :
    (scrubLoop rfc3339 now batchSize l (store, scrubbedJobs, scrubbedEvents)).1.jobEvents =
      cleanEvents rfc3339 now (picked (batchSize - scrubbedJobs) l) store.jobEvents := by
  induction l generalizing store scrubbedJobs scrubbedEvents with
  | nil => simp [scrubLoop, picked, cleanEvents]
  | cons e l ih =>
      obtain ⟨jobId, job⟩ := e
      rw [List.map_cons, List.nodup_cons] at hl
      rw [scrubLoop]
      cases hscrubbed : job.isScrubbed with
      | true =>
          rw [if_pos rfl]
          simpa [picked, hscrubbed] using ih hl.2 scrubbedJobs scrubbedEvents store
      | false =>
          by_cases hfull : batchSize ≤ scrubbedJobs
          · simp [hfull, picked, cleanEvents, Nat.sub_eq_zero_of_le hfull]
          · obtain ⟨budget, hbudget⟩ : ∃ budget, batchSize - scrubbedJobs = budget + 1 :=
              ⟨batchSize - scrubbedJobs - 1, by omega⟩
            have hrest : batchSize - (scrubbedJobs + 1) = budget := by omega
            have hevents := ih hl.2 (scrubbedJobs + 1)
              (scrubbedEvents + store.jobEvents.countP fun event => event.keepsText jobId)
              (store.scrub rfc3339 now jobId)
            rw [if_neg (by simp), if_neg hfull, hevents, hrest, hbudget,
              picked_cons hscrubbed, cleanEvents_scrub (not_mem_picked hl.1)]

/-! ### A call is one sweep of the backlog -/

theorem stamps_scrubJobs {after : ContentStore} {ids : List JobId}
    (h : after.jobs = scrubJobs rfc3339 now ids store.jobs) : after.stamps = store.stamps := by
  rw [stamps, stamps, h, scrubJobs, Table.mapRows, List.filterMap_map]
  refine List.filterMap_congr fun e _ => ?_
  by_cases he : e.1 ∈ ids <;> simp [he]

theorem marked_scrubJobs {after : ContentStore} {ids : List JobId}
    (h : after.jobs = scrubJobs rfc3339 now ids store.jobs)
    (hids : ∀ id ∈ ids, ∃ job, store.jobs.lookup id = some job) :
    after.marked = store.marked ∪ ids.toFinset := by
  ext id
  rw [Finset.mem_union, mem_marked, mem_marked, List.mem_toFinset, h, scrubJobs]
  simp only [Table.lookup_mapRows, Option.map_eq_some_iff]
  constructor
  · rintro ⟨_, ⟨job, hjob, rfl⟩, hmarked⟩
    by_cases hid : id ∈ ids
    · exact .inr hid
    · exact .inl ⟨job, hjob, by simpa [hid] using hmarked⟩
  · rintro (⟨job, hjob, hmarked⟩ | hid)
    · refine ⟨_, ⟨job, hjob, rfl⟩, ?_⟩
      split <;> simp [hmarked]
    · obtain ⟨job, hjob⟩ := hids id hid
      exact ⟨_, ⟨job, hjob, rfl⟩, by simp [hid]⟩

theorem picked_oldest (batchSize limit : ℕ) :
    picked batchSize (store.oldest cutoff limit) =
      Sweep.chosen limit batchSize store.stamps cutoff store.marked := by
  rw [picked, Sweep.chosen, ← map_fst_oldest, List.map_take, List.filter_map]
  congr 2
  refine List.filter_congr fun e he => ?_
  have hrow := mem_oldest he
  have hmarked : e.1 ∈ store.marked ↔ e.2.isScrubbed = true := by
    rw [mem_marked, hrow]
    simp
  cases hscrubbed : e.2.isScrubbed <;> simp [hmarked, hscrubbed]

variable (rfc3339 now) in
/-- **A call of the sweep**: the marker is set on the jobs it handles, the order stays. -/
theorem scrubContent_marked (retentionHours batchSize : ℕ) (store : ContentStore) :
    (scrubContent rfc3339 now retentionHours batchSize store).1.stamps = store.stamps ∧
      (scrubContent rfc3339 now retentionHours batchSize store).1.marked =
        Sweep.sweep (batchSize * 4) batchSize store.stamps (retentionCutoff now retentionHours)
          store.marked ∧
      (scrubContent rfc3339 now retentionHours batchSize store).2.scrubbedJobs =
        (Sweep.chosen (batchSize * 4) batchSize store.stamps (retentionCutoff now retentionHours)
          store.marked).length := by
  obtain ⟨hjobs, hcount⟩ := @scrubLoop_jobs rfc3339 now _
    (@nodup_oldest store (retentionCutoff now retentionHours) (batchSize * 4)) batchSize 0 0 store
  rw [Nat.sub_zero, picked_oldest] at hjobs hcount
  refine ⟨stamps_scrubJobs hjobs, ?_, by rw [← Nat.zero_add (List.length _), ← hcount]; rfl⟩
  refine marked_scrubJobs hjobs fun id hid => ?_
  rw [← picked_oldest] at hid
  obtain ⟨e, he, rfl⟩ := List.mem_map.1 hid
  exact ⟨e.2, mem_oldest (List.mem_of_mem_filter (List.mem_of_mem_take he))⟩

variable (rfc3339 now) in
theorem scrubContent_of_marked {retentionHours batchSize : ℕ} {jobId : JobId} {job : StoredJob}
    (hjob : store.jobs.lookup jobId = some job) (hfresh : job.isScrubbed = false)
    (hmarked : jobId ∈ (scrubContent rfc3339 now retentionHours batchSize store).1.marked) :
    (scrubContent rfc3339 now retentionHours batchSize store).1.jobs.lookup jobId =
        some (job.scrubbed rfc3339 now) ∧
      (scrubContent rfc3339 now retentionHours batchSize store).1.jobEvents.filter
          (fun event => event.jobId == jobId) =
        (store.jobEvents.filter fun event => event.jobId == jobId).map fun event =>
          if event.keepsText jobId then event.cleaned rfc3339 now else event := by
  have hnodup := @nodup_oldest store (retentionCutoff now retentionHours) (batchSize * 4)
  have hjobs := (@scrubLoop_jobs rfc3339 now _ hnodup batchSize 0 0 store).1
  have hevents := @scrubLoop_events rfc3339 now _ hnodup batchSize 0 0 store
  generalize picked (batchSize - 0) _ = ids at hjobs hevents
  change (scrubContent rfc3339 now retentionHours batchSize store).1.jobs = _ at hjobs
  change (scrubContent rfc3339 now retentionHours batchSize store).1.jobEvents = _ at hevents
  have hid : jobId ∈ ids := by
    obtain ⟨job', hjob', hscrubbed⟩ := mem_marked.1 hmarked
    rw [hjobs, scrubJobs, Table.lookup_mapRows, hjob, Option.map_some, Option.some_inj] at hjob'
    by_contra hid
    rw [if_neg hid] at hjob'
    rw [hjob', hscrubbed] at hfresh
    cases hfresh
  constructor
  · rw [hjobs, scrubJobs, Table.lookup_mapRows, hjob, Option.map_some, if_pos hid]
  · rw [hevents, cleanEvents, List.filter_map, List.filter_congr (q := fun event =>
      event.jobId == jobId)]
    · refine List.map_congr_left fun event hevent => ?_
      have hid' : event.jobId = jobId := by simpa using (List.mem_filter.1 hevent).2
      simp [hid', hid]
    · intro event _
      simp only [Function.comp_apply]
      split <;> simp [cleaned_jobId]

/-! ### Repeating the sweep -/

section Repeated

variable (rfc3339 : Instant → String) (retentionHours batchSize : ℕ) (now : ℕ → Instant)
  (store : ContentStore)

/-- The store after `n` calls, at the instants `now 0`, `now 1`, … -/
def afterSweeps : ℕ → ContentStore
  | 0 => store
  | n + 1 => (scrubContent rfc3339 (now n) retentionHours batchSize (afterSweeps n)).1

/-- Every call scrubs a job or leaves none to scrub, and every eligible job is scrubbed after
finitely many calls. -/
structure MakesProgress : Prop where
  each : ∀ n, 0 < (scrubContent rfc3339 (now n) retentionHours batchSize
      (afterSweeps rfc3339 retentionHours batchSize now store n)).2.scrubbedJobs ∨
    ∀ id, ¬ (afterSweeps rfc3339 retentionHours batchSize now store (n + 1)).Eligible
      (retentionCutoff (now n) retentionHours) id
  all : ∀ n id, store.Eligible (retentionCutoff (now n) retentionHours) id →
    ∃ m, id ∈ (afterSweeps rfc3339 retentionHours batchSize now store m).marked

theorem afterSweeps_eq (n : ℕ) :
    (afterSweeps rfc3339 retentionHours batchSize now store n).stamps = store.stamps ∧
      (afterSweeps rfc3339 retentionHours batchSize now store n).marked =
        Sweep.sweeps (batchSize * 4) batchSize store.stamps
          (fun n => retentionCutoff (now n) retentionHours) store.marked n := by
  induction n with
  | zero => exact ⟨rfl, rfl⟩
  | succ n ih =>
      obtain ⟨hstamps, hmarked, -⟩ := scrubContent_marked rfc3339 (now n) retentionHours batchSize
        (afterSweeps rfc3339 retentionHours batchSize now store n)
      rw [ih.1] at hstamps hmarked
      rw [ih.2] at hmarked
      exact ⟨hstamps, hmarked⟩

theorem makesProgress_iff :
    MakesProgress rfc3339 retentionHours batchSize now store ↔
      Sweep.Progresses (batchSize * 4) batchSize store.stamps
        (fun n => retentionCutoff (now n) retentionHours) store.marked := by
  have hcount : ∀ n, 0 < (scrubContent rfc3339 (now n) retentionHours batchSize
      (afterSweeps rfc3339 retentionHours batchSize now store n)).2.scrubbedJobs ↔
      Sweep.chosen (batchSize * 4) batchSize store.stamps (retentionCutoff (now n) retentionHours)
        (Sweep.sweeps (batchSize * 4) batchSize store.stamps
          (fun n => retentionCutoff (now n) retentionHours) store.marked n) ≠ [] := by
    intro n
    obtain ⟨hstamps, hmarked⟩ := afterSweeps_eq rfc3339 retentionHours batchSize now store n
    rw [(scrubContent_marked rfc3339 (now n) retentionHours batchSize _).2.2, hstamps, hmarked,
      List.length_pos_iff]
  have hleft : ∀ n id, (afterSweeps rfc3339 retentionHours batchSize now store n).Eligible
      (retentionCutoff (now (n - 1)) retentionHours) id ↔
      Sweep.Pending store.stamps (retentionCutoff (now (n - 1)) retentionHours)
        (Sweep.sweeps (batchSize * 4) batchSize store.stamps
          (fun n => retentionCutoff (now n) retentionHours) store.marked n) id := by
    intro n id
    obtain ⟨hstamps, hmarked⟩ := afterSweeps_eq rfc3339 retentionHours batchSize now store n
    rw [← pending_iff, hstamps, hmarked]
  constructor
  · rintro ⟨heach, hall⟩
    refine ⟨fun n => ?_, fun n id hid => ?_⟩
    · rw [← hcount]
      exact (heach n).imp_right fun h id hid => h id ((hleft (n + 1) id).2 hid)
    · obtain ⟨m, hm⟩ := hall n id (pending_iff.1 hid)
      exact ⟨m, (afterSweeps_eq rfc3339 retentionHours batchSize now store m).2 ▸ hm⟩
  · rintro ⟨heach, hall⟩
    refine ⟨fun n => ?_, fun n id hid => ?_⟩
    · rw [hcount]
      exact (heach n).imp_right fun h id hid => h id ((hleft (n + 1) id).1 hid)
    · obtain ⟨m, hm⟩ := hall n id (pending_iff.2 hid)
      exact ⟨m, (afterSweeps_eq rfc3339 retentionHours batchSize now store m).2 ▸ hm⟩

end Repeated

theorem retentionCutoff_mono {now : ℕ → Instant} (h : Monotone now) (retentionHours : ℕ) :
    Monotone fun n => retentionCutoff (now n) retentionHours := by
  intro m n hmn
  exact Int.sub_le_sub_right (h hmn) _

/-! ### A history as long as the window, and a longer one -/

/-- `n` jobs that finished one microsecond after the other and still have their text. -/
def history (n : ℕ) : ContentStore where
  jobs :=
    { entries := (List.range n).map fun i =>
        ⟨i, { taskProfileId := "chat", taskProfileVersion := "1", state := .completed,
              createdAt := 0, completedAt := some i,
              data.result.responseText := some "42" }⟩
      nodupKeys := by
        rw [List.NodupKeys, List.keys, List.map_map]
        simpa [Function.comp_def] using List.nodup_range }

theorem stamps_history (n : ℕ) :
    (history n).stamps = (List.range n).map fun i : ℕ => (i, (i : Instant)) := by
  rw [stamps, history, List.filterMap_map, ← List.filterMap_eq_map]
  exact List.filterMap_congr fun i _ => by simp [terminalStates]

theorem marked_history (n : ℕ) : (history n).marked = ∅ := by
  refine Finset.eq_empty_iff_forall_notMem.2 fun id hid => ?_
  obtain ⟨job, hjob, hmarked⟩ := mem_marked.1 hid
  rw [← Table.mem_entries_iff, history, List.mem_map] at hjob
  obtain ⟨i, -, hrow⟩ := hjob
  cases hrow
  cases hmarked

theorem due_history {n : ℕ} {cutoff : Instant} (h : (n : Instant) ≤ cutoff + 1) :
    Sweep.due (history n).stamps cutoff = (List.range n).map fun i : ℕ => (i, (i : Instant)) := by
  rw [Sweep.due, stamps_history, List.filter_eq_self.2]
  · refine List.Pairwise.insertionSort_eq (List.pairwise_map.2 ?_)
    exact List.pairwise_lt_range.imp fun hlt => Int.ofNat_le.2 hlt.le
  · intro s hs
    obtain ⟨i, hi, rfl⟩ := List.mem_map.1 hs
    have hi := List.mem_range.1 hi
    have hle : (i : Instant) ≤ cutoff := by
      have : (i : ℤ) + 1 ≤ n := by exact_mod_cast hi
      exact Int.le_of_lt_add_one (lt_of_lt_of_le (Int.lt_add_one_of_le le_rfl) (this.trans h))
    simpa using hle

/-! ### Progress -/

/-- **Retention makes progress** exactly when no job still to be scrubbed lies behind the oldest
`4 · batchSize` finished jobs past the cutoff of a call. -/
theorem makesProgress_iff_within_window (rfc3339 : Instant → String)
    (retentionHours batchSize : ℕ) {now : ℕ → Instant} (hnow : Monotone now)
    (store : ContentStore) :
    MakesProgress rfc3339 retentionHours batchSize now store ↔
      ∀ n id, store.Eligible (retentionCutoff (now n) retentionHours) id →
        id ∈ (store.oldest (retentionCutoff (now n) retentionHours) (batchSize * 4)).map
          Prod.fst := by
  rw [makesProgress_iff, Sweep.progresses_iff store.nodup_stamps
    (retentionCutoff_mono hnow retentionHours) (by omega)]
  simp only [pending_iff, map_fst_oldest]

/-- Two thousand finished jobs, swept day after day, are scrubbed in the end. -/
theorem history_finished :
    MakesProgress (fun _ => "2026-01-02T00:00:00Z") 24 defaultBatchSize
      (fun n => seconds (3600 * 24 * n)) (history 2000) :=
  (makesProgress_iff_within_window _ 24 defaultBatchSize
    (fun _ _ h => Int.mul_le_mul_of_nonneg_right
      (Int.ofNat_le.2 (Nat.mul_le_mul_left _ h)) (by decide)) (history 2000)).2
    fun n id hid => by
      rw [map_fst_oldest]
      refine Sweep.mem_window_of_length_le ?_ (pending_iff.2 hid).1
      rw [stamps_history, List.length_map, List.length_range]
      decide

/-- Two thousand and one finished jobs, swept a day later with the worker's batch size: the last
of them is never scrubbed, and from some call on nothing is. -/
theorem history_never_finished :
    ¬ MakesProgress (fun _ => "2026-01-02T00:00:00Z") 24 defaultBatchSize
        (fun _ => seconds (3600 * 24) + 2000) (history 2001) := by
  have hcutoff : retentionCutoff (seconds (3600 * 24) + 2000) 24 = 2000 := by
    simp [retentionCutoff]
  have hdue := @due_history 2001 2000 (by decide)
  rw [makesProgress_iff, Sweep.progresses_iff (nodup_stamps _) monotone_const (by decide)]
  intro h
  have hpending : Sweep.Pending (history 2001).stamps 2000 (history 2001).marked 2000 := by
    refine ⟨?_, by simp [marked_history]⟩
    rw [hdue]
    exact List.mem_map.2 ⟨(2000, 2000), List.mem_map.2 ⟨2000, by simp, rfl⟩, rfl⟩
  have hwindow := h 0 2000 (by rw [hcutoff]; exact hpending)
  rw [hcutoff, Sweep.window, hdue, ← List.map_take, List.take_range, List.map_map] at hwindow
  obtain ⟨i, hi, hkey⟩ := List.mem_map.1 hwindow
  have hi := List.mem_range.1 hi
  obtain rfl : i = 2000 := hkey
  exact absurd hi (by decide)

end ContentStore

end LoadCoach

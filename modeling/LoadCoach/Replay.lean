import LoadCoach.Foundations.Paging
import LoadCoach.Values

/-! # Replaying a job's events

`services/job_events.py`: what a client that reconnects reads.  The persisted rows of a job and
the live frames its sink still keeps share one numbering; `replay` reads a page of both, and a
client asks again after the last number it received until it receives nothing.

The log of a job carries the uniqueness of its numbers, and the sink of a job that its buffered
frames increase up to its counter and fit the buffer, so `publishLive` and `forget` can only build
sinks of that kind.  A number may still stand for two things: a frame published after the sink
forgot its job takes a number the log has already given away.  `replay` then prefers the
persisted event. -/

namespace LoadCoach

open Foundations

/-! ### The log and the sink -/

/-- A row of `job_events`, of one job. -/
structure StoredEvent where
  id : String
  sequence : ℤ
  timestamp : Instant
  eventType : String
  message : Option String
  dataJson : Json

/-- The persisted log of one job: `(job_id, sequence)` is unique. -/
structure EventLog where
  rows : List StoredEvent
  unique : (rows.map StoredEvent.sequence).Nodup

/-- A frame as a subscriber receives it. -/
structure Event where
  sequence : ℤ
  type : String
  payload : Members

/-- `LIVE_BUFFER_SIZE`. -/
def liveBufferSize : ℕ := 4096

/-- What the sink keeps of one job: its counter (0 when it has none) and its live buffer. -/
structure JobSink where
  high : ℤ
  live : List Event
  ascending : Ascending Event.sequence live
  bounded : ∀ e ∈ live, e.sequence ≤ high
  fits : live.length ≤ liveBufferSize

/-- `coalesce(max(sequence), 0)`. -/
def EventLog.maxSequence (log : EventLog) : ℤ := (log.rows.map StoredEvent.sequence).foldr max 0

namespace JobSink

/-- A sink that knows nothing of the job. -/
def empty : JobSink where
  high := 0
  live := []
  ascending := List.Pairwise.nil
  bounded := by simp
  fits := Nat.zero_le _

/-- The next number of a persisted event: above every stored and every handed-out one. -/
def nextSequence (log : EventLog) (sink : JobSink) : ℤ × JobSink :=
  let sequence := max log.maxSequence sink.high + 1
  (sequence,
    { sink with
      high := sequence
      bounded := fun e he => by
        have := sink.bounded e he
        omega })

/-- `deque.append`: the oldest frame makes room in a full buffer. -/
def buffered (live : List Event) (e : Event) : List Event :=
  (live ++ [e]).drop (live.length + 1 - liveBufferSize)

/-- Fan out one frame without persisting it. -/
def publishLive (type : String) (payload : Members) (sink : JobSink) : Event × JobSink :=
  let e : Event := ⟨sink.high + 1, type, payload⟩
  (e,
    { high := sink.high + 1
      live := buffered sink.live e
      ascending := by
        refine Ascending.sublist (List.drop_sublist _ _) (List.pairwise_append.2 ?_)
        refine ⟨sink.ascending, List.pairwise_singleton _ _, fun a ha b hb => ?_⟩
        rw [List.mem_singleton.1 hb]
        exact Int.lt_add_one_of_le (sink.bounded a ha)
      bounded := fun a ha => by
        rcases List.mem_append.1 (List.mem_of_mem_drop ha) with ha | ha
        · exact (sink.bounded a ha).trans (Int.le_add_one le_rfl)
        · rw [List.mem_singleton.1 ha]
      fits := by
        rw [buffered, List.length_drop, List.length_append, List.length_singleton]
        omega })

/-- Drop the counter and the buffer of a finished job. -/
def forget (_ : JobSink) : JobSink := empty

end JobSink

/-! ### Replay -/

/-- Whether an event is one of the `job.*` state events. -/
def isJobEvent (eventType : String) : Bool := "job.".toList.isPrefixOf eventType.toList

/-- `data_json`, where it is an object. -/
def StoredEvent.data (row : StoredEvent) : Members :=
  match row.dataJson with
  | .obj members => members
  | _ => []

section Replay

variable (rfc3339 : Instant → String) (jobId : String)

/-- The event object inside a `job.*` envelope. -/
def eventPayload (row : StoredEvent) : Members :=
  [("event_id", .str row.id),
    ("entity", .obj [("kind", .str "job"), ("id", .str jobId)]),
    ("timestamp", .str (rfc3339 row.timestamp)),
    ("message", .ofOption .str row.message),
    ("data", .obj row.data)]

/-- The frame of a persisted event. -/
def StoredEvent.event (row : StoredEvent) : Event where
  sequence := row.sequence
  type := row.eventType
  payload := if isJobEvent row.eventType then eventPayload rfc3339 jobId row else row.data

/-- Up to `limit` frames after `afterSequence`, ascending. -/
def replay (log : EventLog) (sink : JobSink) (limit : ℕ) (afterSequence : ℤ) : List Event :=
  let rows := ((log.rows.filter fun row => decide (afterSequence < row.sequence)).insertionSort
    fun a b => a.sequence ≤ b.sequence).take limit
  let persisted := rows.map (StoredEvent.event rfc3339 jobId)
  let live := sink.live.filter fun e => decide (afterSequence < e.sequence)
  if live.isEmpty then persisted
  else
    -- persisted rows win a collision
    (merged Event.sequence live persisted).take limit

/-! ### What paging reads -/

/-- The frames of the persisted log, in order. -/
def EventLog.events (log : EventLog) : List Event :=
  (log.rows.insertionSort fun a b => a.sequence ≤ b.sequence).map (StoredEvent.event rfc3339 jobId)

theorem EventLog.mem_events (log : EventLog) (e : Event) :
    e ∈ log.events rfc3339 jobId ↔ ∃ row ∈ log.rows, row.event rfc3339 jobId = e := by
  simp [events]

theorem ascending_events {rows : List StoredEvent} (h : (rows.map StoredEvent.sequence).Nodup) :
    Ascending Event.sequence ((rows.insertionSort fun a b => a.sequence ≤ b.sequence).map
      (StoredEvent.event rfc3339 jobId)) := by
  have : Std.Total fun a b : StoredEvent => a.sequence ≤ b.sequence :=
    ⟨fun a b => le_total a.sequence b.sequence⟩
  have : IsTrans StoredEvent fun a b => a.sequence ≤ b.sequence := ⟨fun _ _ _ => le_trans⟩
  have hle := List.pairwise_insertionSort (fun a b : StoredEvent => a.sequence ≤ b.sequence) rows
  have hne : (rows.insertionSort fun a b => a.sequence ≤ b.sequence).Pairwise fun a b =>
      a.sequence ≠ b.sequence := by
    rw [← List.pairwise_map]
    exact ((List.perm_insertionSort _ rows).map StoredEvent.sequence).nodup_iff.2 h
  rw [Ascending, List.pairwise_map]
  exact (hle.and hne).imp fun h => lt_of_le_of_ne h.1 h.2

theorem EventLog.ascending_events (log : EventLog) :
    Ascending Event.sequence (log.events rfc3339 jobId) :=
  LoadCoach.ascending_events rfc3339 jobId log.unique

theorem EventLog.events_after (log : EventLog) (after : ℤ) :
    ((log.rows.filter fun row => decide (after < row.sequence)).insertionSort
        fun a b => a.sequence ≤ b.sequence).map (StoredEvent.event rfc3339 jobId) =
      (log.events rfc3339 jobId).filter fun e => decide (after < e.sequence) := by
  have hafter : ((log.rows.filter fun row => decide (after < row.sequence)).map
      StoredEvent.sequence).Nodup := (List.filter_sublist.map _).nodup log.unique
  refine (LoadCoach.ascending_events rfc3339 jobId hafter).ext
    ((log.ascending_events rfc3339 jobId).sublist List.filter_sublist) fun e => ?_
  simp only [List.mem_map, List.mem_insertionSort, List.mem_filter, log.mem_events,
    decide_eq_true_eq]
  constructor
  · rintro ⟨row, ⟨hrow, hlt⟩, rfl⟩
    exact ⟨⟨row, hrow, rfl⟩, hlt⟩
  · rintro ⟨⟨row, hrow, rfl⟩, hlt⟩
    exact ⟨row, ⟨hrow, hlt⟩, rfl⟩

/-- Everything a job's clients can read: the log and the live buffer as one. -/
def history (log : EventLog) (sink : JobSink) : List Event :=
  merged Event.sequence sink.live (log.events rfc3339 jobId)

/-- **A replay is a page of the whole history.** -/
theorem replay_eq_page (log : EventLog) (sink : JobSink) (limit : ℕ) (after : ℤ) :
    replay rfc3339 jobId log sink limit after =
      page Event.sequence limit (history rfc3339 jobId log sink) after := by
  have hlog := log.ascending_events rfc3339 jobId
  have hrest : Ascending Event.sequence
      ((log.events rfc3339 jobId).filter fun e => decide (after < e.sequence)) :=
    hlog.sublist List.filter_sublist
  unfold replay page history
  dsimp only
  rw [List.map_take, log.events_after, ← merged_filter sink.ascending hlog]
  split_ifs with hlive
  · rw [List.isEmpty_iff.1 hlive, merged_nil hrest]
  · exact take_merged _ hrest limit

end Replay

/-! ### Losslessness -/

section Lossless

variable (rfc3339 : Instant → String) (jobId : String) (log : EventLog) (sink : JobSink)

/-- **What paging through a job's history reads.**  From every start and with every positive
limit the reader comes to an end; what it received ascends strictly, so nothing comes twice, and
is every persisted event and every buffered frame after the start, where of two under one number
the persisted one is received. -/
theorem drains_replay (start : ℤ) {limit : ℕ} (hlimit : 0 < limit) :
    ∃ received, (∀ r, Drains Event.sequence (replay rfc3339 jobId log sink limit) start r ↔
        r = received) ∧
      Ascending Event.sequence received ∧
      ∀ e, e ∈ received ↔ start < e.sequence ∧ (e ∈ log.events rfc3339 jobId ∨
        e ∈ sink.live ∧ ∀ b ∈ log.events rfc3339 jobId, b.sequence ≠ e.sequence) := by
  have hhistory : Ascending Event.sequence (history rfc3339 jobId log sink) :=
    ascending_merged _ _
  have hfetch : replay rfc3339 jobId log sink limit =
      page Event.sequence limit (history rfc3339 jobId log sink) :=
    funext (replay_eq_page rfc3339 jobId log sink limit)
  have hdrains := drains_page hhistory hlimit start
  rw [hfetch]
  refine ⟨(history rfc3339 jobId log sink).filter fun e => decide (start < e.sequence),
    fun r => ?_, hhistory.sublist List.filter_sublist, fun e => ?_⟩
  · constructor
    · exact fun hr => hr.unique hdrains
    · rintro rfl
      exact hdrains
  · rw [List.mem_filter, history,
      mem_merged sink.ascending (log.ascending_events rfc3339 jobId), decide_eq_true_eq, and_comm]

/-- Paging from `start` reads every persisted event and every buffered live frame after it
exactly once and in ascending order, and comes to an end. -/
def Lossless (start : ℤ) (limit : ℕ) : Prop :=
  ∃ received, (∀ r, Drains Event.sequence (replay rfc3339 jobId log sink limit) start r ↔
      r = received) ∧
    Ascending Event.sequence received ∧
    ∀ e, e ∈ received ↔
      start < e.sequence ∧ (e ∈ log.events rfc3339 jobId ∨ e ∈ sink.live)

variable {rfc3339 jobId log sink}

theorem Lossless.eq_of_sequence_eq {start : ℤ} {limit : ℕ} {e b : Event}
    (h : Lossless rfc3339 jobId log sink start limit) (he : e ∈ sink.live)
    (hlt : start < e.sequence) (hb : b ∈ log.events rfc3339 jobId)
    (hnumber : b.sequence = e.sequence) : b = e := by
  obtain ⟨received, -, hascending, hmem⟩ := h
  have hlive : e ∈ received := (hmem e).2 ⟨hlt, .inr he⟩
  have hpersisted : b ∈ received := (hmem b).2 ⟨hnumber ▸ hlt, .inl hb⟩
  exact hascending.eq_of_key_eq hpersisted hlive hnumber

variable (rfc3339 jobId log sink)

/-- **Paging is lossless exactly when no buffered frame after the start has the number of another
persisted event.** -/
theorem lossless_iff (start : ℤ) (limit : ℕ) (hlimit : 0 < limit) :
    Lossless rfc3339 jobId log sink start limit ↔
      ∀ e ∈ sink.live, start < e.sequence → ∀ b ∈ log.events rfc3339 jobId,
        b.sequence = e.sequence → b = e := by
  constructor
  · intro h e he hlt b hb hnumber
    exact h.eq_of_sequence_eq he hlt hb hnumber
  · intro hcollide
    obtain ⟨received, hreads, hascending, hmem⟩ :=
      drains_replay rfc3339 jobId log sink start hlimit
    refine ⟨received, hreads, hascending, fun e => ?_⟩
    rw [hmem]
    refine and_congr_right fun hlt => ⟨fun h => h.imp_right fun h => h.1, fun h => ?_⟩
    rcases h with hpersisted | hlive
    · exact .inl hpersisted
    · by_cases hnumber : ∃ b ∈ log.events rfc3339 jobId, b.sequence = e.sequence
      · obtain ⟨b, hb, hnumber⟩ := hnumber
        exact .inl (hcollide e hlive hlt b hb hnumber ▸ hb)
      · exact .inr ⟨hlive, fun b hb hb' => hnumber ⟨b, hb, hb'⟩⟩

end Lossless

/-- The log of a job that was cancelled while its provider call ran. -/
def cancelledLog : EventLog where
  rows := [⟨"E1", 1, 0, "job.cancelled", none, .obj []⟩]
  unique := by simp

/-- The sink after a token that came when the job was already forgotten. -/
def lateTokenSink : JobSink := (JobSink.empty.forget.publishLive "token" []).2

/-- A token that a running job has streamed after its first event. -/
def streamingSink : JobSink :=
  ((JobSink.empty.nextSequence ⟨[], List.nodup_nil⟩).2.publishLive "token" []).2

theorem lossless_iff_streaming : Lossless (fun _ => "") "J" cancelledLog streamingSink 0 1 :=
  (lossless_iff _ _ _ _ 0 1 Nat.one_pos).2 (by
    intro e he _ b hb hnumber
    have hb' := (cancelledLog.mem_events _ _ b).1 hb
    simp [cancelledLog] at hb'
    simp [streamingSink, JobSink.publishLive, JobSink.nextSequence, JobSink.buffered,
      JobSink.empty, EventLog.maxSequence, liveBufferSize] at he
    subst hb' he
    simp [StoredEvent.event] at hnumber)

/-- **A frame published after its job was forgotten is never read**: its number is taken. -/
theorem lateToken_unread : ¬ Lossless (fun _ => "") "J" cancelledLog lateTokenSink 0 1 := by
  intro h
  have htoken : (⟨1, "token", []⟩ : Event) ∈ lateTokenSink.live := by
    simp [lateTokenSink, JobSink.publishLive, JobSink.forget, JobSink.empty, JobSink.buffered,
      liveBufferSize]
  have hevent : (⟨"E1", 1, 0, "job.cancelled", none, .obj []⟩ : StoredEvent).event (fun _ => "")
      "J" ∈ cancelledLog.events (fun _ => "") "J" :=
    (cancelledLog.mem_events _ _ _).2 ⟨_, by simp [cancelledLog], rfl⟩
  have hsame := h.eq_of_sequence_eq htoken (by decide) hevent rfl
  simp [StoredEvent.event] at hsame

end LoadCoach

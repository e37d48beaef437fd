import LoadCoach.Content.Agreement

/-! # What scrubbing leaves of a text

Two runs that differ in nothing but the text of one job, its prompt and what was answered, and
what the sweep of `services/retention.py` leaves of them.  The job's row and its events are equal
once the job is scrubbed, and so are its attempts; the checks are not, since no one scrubs the
details of a check.  `scrubbed_equal_iff` says exactly when every row is equal: when the checks of
corresponding answers had the same to say. -/

namespace LoadCoach

open Foundations

/-! ### The store -/

/-- The tables with rows about a job. -/
structure Archive where
  content : ContentStore := {}
  jobAttempts : List AttemptRow := []
  validations : List ValidationRow := []

namespace Archive

/-- `scrub_content`, which writes two of the tables. -/
def scrubContent (rfc3339 : Instant → String) (now : Instant) (retentionHours batchSize : ℕ)
    (archive : Archive) : Archive :=
  { archive with
    content := (LoadCoach.scrubContent rfc3339 now retentionHours batchSize archive.content).1 }

/-- What a store holds about a job. -/
structure Holds (archive : Archive) (jobId : JobId) (rows : JobRows) : Prop where
  job : archive.content.jobs.lookup jobId = some rows.job
  events : archive.content.jobEvents.filter (fun event => event.jobId == jobId) = rows.events
  attempts : archive.jobAttempts.filter (fun row => row.jobId == jobId) = rows.attempts
  validations : archive.validations.filter (fun row => row.jobId == jobId) = rows.validations

/-- Every row about a job is equal in two stores. -/
structure SameAbout (jobId : JobId) (a b : Archive) : Prop where
  job : a.content.jobs.lookup jobId = b.content.jobs.lookup jobId
  events : a.content.jobEvents.filter (fun event => event.jobId == jobId) =
    b.content.jobEvents.filter fun event => event.jobId == jobId
  attempts : a.jobAttempts.filter (fun row => row.jobId == jobId) =
    b.jobAttempts.filter fun row => row.jobId == jobId
  validations : a.validations.filter (fun row => row.jobId == jobId) =
    b.validations.filter fun row => row.jobId == jobId

/-- A sweep scrubs a job: the marker was not there, and now it is. -/
structure Scrubs (rfc3339 : Instant → String) (now : Instant) (retentionHours batchSize : ℕ)
    (jobId : JobId) (archive : Archive) : Prop where
  before : jobId ∉ archive.content.marked
  after : jobId ∈ (archive.scrubContent rfc3339 now retentionHours batchSize).content.marked

variable {rfc3339 : Instant → String} {now : Instant} {retentionHours batchSize : ℕ}
  {jobId : JobId} {archive : Archive} {rows : JobRows}

theorem Holds.scrubContent (h : archive.Holds jobId rows)
    (hscrubs : archive.Scrubs rfc3339 now retentionHours batchSize jobId) :
    (archive.scrubContent rfc3339 now retentionHours batchSize).Holds jobId
      { rows with
        job := rows.job.scrubbed rfc3339 now
        events := rows.events.map (·.swept rfc3339 now jobId) } := by
  have hfresh : rows.job.isScrubbed = false := by
    by_contra hscrubbed
    exact hscrubs.before
      (ContentStore.mem_marked.2 ⟨rows.job, h.job, by simpa using hscrubbed⟩)
  obtain ⟨hjob, hevents⟩ :=
    ContentStore.scrubContent_of_marked rfc3339 now h.job hfresh hscrubs.after
  exact
    { job := hjob
      events := by
        rw [h.events] at hevents
        exact hevents
      attempts := h.attempts
      validations := h.validations }

theorem sameAbout_iff {a b : Archive} {rows rows' : JobRows} (h : a.Holds jobId rows)
    (h' : b.Holds jobId rows') :
    SameAbout jobId a b ↔ rows.job = rows'.job ∧ rows.events = rows'.events ∧
      rows.attempts = rows'.attempts ∧ rows.validations = rows'.validations := by
  constructor
  · intro hsame
    have hjob := hsame.job
    rw [h.job, h'.job, Option.some_inj] at hjob
    exact ⟨hjob, by rw [← h.events, hsame.events, h'.events],
      by rw [← h.attempts, hsame.attempts, h'.attempts],
      by rw [← h.validations, hsame.validations, h'.validations]⟩
  · rintro ⟨hjob, hevents, hattempts, hvalidations⟩
    exact
      { job := by rw [h.job, h'.job, hjob]
        events := by rw [h.events, h'.events, hevents]
        attempts := by rw [h.attempts, h'.attempts, hattempts]
        validations := by rw [h.validations, h'.validations, hvalidations] }

end Archive

/-! ### Two runs -/

theorem StoredRequest.SameButText.stripped {request request' : StoredRequest}
    (h : request.SameButText request') :
    strippedRequest request.members = strippedRequest request'.members := by
  cases request <;> cases request' <;> try exact h.elim
  case queued.queued submission turns submission' turns' =>
    have htask := congrArg JobSubmission.task h
    have hformat := congrArg JobSubmission.responseFormat h
    have hsampling := congrArg JobSubmission.sampling h
    have hoverrides := congrArg JobSubmission.overrides h
    have hclass := congrArg JobSubmission.dataClassification h
    have hstream := congrArg JobSubmission.stream h
    simp only [JobSubmission.textless] at htask hformat hsampling hoverrides hclass hstream
    simp [strippedRequest, members, JobSubmission.requestMembers, scrubbedRequestKeys, htask,
      hformat, hsampling, hoverrides, hclass, hstream]
  all_goals
    have htask := congrArg GenerateRequest.task h
    have hformat := congrArg GenerateRequest.responseFormat h
    have hsampling := congrArg GenerateRequest.sampling h
    have hstream := congrArg GenerateRequest.stream h
    simp only [GenerateRequest.textless] at htask hformat hsampling hstream
    simp [strippedRequest, members, syncRequestMembers, unreservedMembers, scrubbedRequestKeys,
      htask, hformat, hsampling, hstream]

/-- The rows of a job after a history of writes. -/
def rowsOf (tools : TextTools) (jobId : JobId) (request : StoredRequest) (columns : Job)
    (history : List (ContentWrite tools)) : JobRows :=
  JobRows.after jobId { job := request.row tools columns } history

section Runs

variable {tools : TextTools} {rfc3339 : Instant → String} {now : Instant}
  {retentionHours batchSize : ℕ} {jobId : JobId} {request request' : StoredRequest}
  {history history' : List (ContentWrite tools)} {archive archive' : Archive}

theorem rowsOf_validations (columns : Job) :
    (rowsOf tools jobId request columns history).validations =
      validationsOf jobId columns.attempt history := after_validations _

variable (rfc3339 now jobId) in
theorem agree_rowsOf (columns : Job) (hrequest : request.SameButText request')
    (hprompt : tools.sha256 request.promptOf = tools.sha256 request'.promptOf)
    (hsame : List.Forall₂ ContentWrite.SameButText history history')
    (halike : List.Forall₂ ContentWrite.Alike history history') :
    JobRows.Agree rfc3339 now tools jobId (rowsOf tools jobId request columns history)
      (rowsOf tools jobId request' columns history') := by
  refine JobRows.Agree.after ?_ hsame halike
  exact
    { job := by simp only [StoredRequest.row, StoredJob.bare, hprompt]
      request := hrequest.stripped
      events := rfl
      attempts := rfl
      made := .nil }

/-- **What scrubbing leaves of a text.**  Two runs differ in nothing but the text of a job, with
equal hashes and lengths, and the sweep scrubs that job in both: every row about it is then equal
in both exactly when the checks could not tell corresponding answers apart. -/
theorem scrubbed_equal_iff (columns : Job) (hrequest : request.SameButText request')
    (hprompt : tools.sha256 request.promptOf = tools.sha256 request'.promptOf)
    (hsame : List.Forall₂ ContentWrite.SameButText history history')
    (h : archive.Holds jobId (rowsOf tools jobId request columns history))
    (h' : archive'.Holds jobId (rowsOf tools jobId request' columns history'))
    (hscrubs : archive.Scrubs rfc3339 now retentionHours batchSize jobId)
    (hscrubs' : archive'.Scrubs rfc3339 now retentionHours batchSize jobId) :
    Archive.SameAbout jobId (archive.scrubContent rfc3339 now retentionHours batchSize)
        (archive'.scrubContent rfc3339 now retentionHours batchSize) ↔
      List.Forall₂ ContentWrite.Alike history history' := by
  rw [Archive.sameAbout_iff (h.scrubContent hscrubs) (h'.scrubContent hscrubs'),
    ← validationsOf_eq_iff jobId hsame columns.attempt]
  simp only [rowsOf_validations]
  constructor
  · rintro ⟨-, -, -, hvalidations⟩
    exact hvalidations
  · intro hvalidations
    have halike := (validationsOf_eq_iff jobId hsame columns.attempt).1 hvalidations
    have hagree := agree_rowsOf rfc3339 now jobId columns hrequest
      hprompt hsame halike
    refine ⟨?_, hagree.events, hagree.attempts, hvalidations⟩
    rw [StoredJob.scrubbed_eq, StoredJob.scrubbed_eq, hagree.job, hagree.request]

end Runs

/-! ### Two jobs -/

/-- A queued job that says hello. -/
def helloRequest : StoredRequest :=
  .queued { task := "extract", prompt := some "Hello" } [{ role := .user, content := "Hello" }]

/-- The other columns of its row. -/
def helloColumns : Job where
  taskProfileId := "extract"
  taskProfileVersion := "1"
  state := .queued
  createdAt := 0
  queuedAt := some 0

/-- A move with nothing on the side. -/
def plainMove (target : JobState) (now : Instant) : Bookkeeping := .move target now none id id

/-- A store with one job. -/
def Archive.sole (jobId : JobId) (rows : JobRows) : Archive where
  content :=
    { jobs := (∅ : Table JobId StoredJob).insert jobId rows.job, jobEvents := rows.events }
  jobAttempts := rows.attempts
  validations := rows.validations

/-- The tools where an answer is no JSON. -/
def proseTools : TextTools where
  sha256 _ := "sha256:0"
  loads _ := .error "Expecting value: line 1 column 1 (char 0)"
  checkNode _ _ := .ok []
  assembleToolCalls _ := []

/-- An answer that is no JSON where JSON is wanted. -/
def proseCall (text : String) : AnsweredCall proseTools where
  base := { attempt := 1, canonicalId := "ollama/qwen", outcome := .completed }
  policy := { requireValidJson := true }
  reply := { text }
  validation := some
    { performed := true, passed := some false, checks := [(validateJson proseTools text).1] }
  failed := nofun
  answered _ := ⟨_, rfl, rfl⟩

/-- Its job fails. -/
def proseHistory (text : String) : List (ContentWrite proseTools) :=
  [.attempt (proseCall text) 10 (plainMove .validating 10) (some "job.validating"),
    .book (plainMove .failed 20) [{ eventType := "job.failed", timestamp := 20 }]]

/-- What is stored of it. -/
def proseRows (text : String) : JobRows :=
  rowsOf proseTools 1 helloRequest helloColumns (proseHistory text)

theorem proseRows_validations (text : String) : (proseRows text).validations =
    [⟨1, 1, "json", false, [("problem", .str "Expecting value: line 1 column 1 (char 0)"),
      ("output_prefix", .str (outputPrefix text))], 10⟩] := rfl

/-- One message that reads like two. -/
def longPrompt : StoredRequest :=
  .queued { task := "extract", prompt := some "Hello\nuser:Bye" }
    [{ role := .user, content := "Hello\nuser:Bye" }]

/-- Two messages, and a tool. -/
def shortPrompts : StoredRequest :=
  .queued
    { task := "extract"
      messages := some [{ role := .user, content := "Hello" }, { role := .user, content := "Bye" }]
      tools := [⟨"search", "Find Eve", []⟩] }
    [{ role := .user, content := "Hello" }, { role := .user, content := "Bye" }]

/-- The tools where `\x7b\x7d` is the answer, with its digest and the one of both prompts. -/
def objectTools : TextTools where
  sha256 text := if text = "\x7b\x7d" then
      "sha256:44136fa355b3678a1146ad16f7e8649e94fb4fc21fe77e8310c060f61caaff8a"
    else "sha256:5dd0134b9158601d90b4d74f9a6b6e952286885ab7e2fc2dc0894f3498526db3"
  loads _ := .ok (.obj [])
  checkNode _ _ := .ok []
  assembleToolCalls _ := []

/-- The empty object, after some thinking. -/
def objectCall (thinking : String) : AnsweredCall objectTools where
  base := { attempt := 1, canonicalId := "ollama/qwen", outcome := .completed }
  policy := { requireValidJson := true }
  reply := { text := "\x7b\x7d", thinking }
  validation := some
    { performed := true, passed := some true, checks := [⟨"json", true, []⟩], parsed := .obj [] }
  failed := nofun
  answered _ := ⟨_, rfl, rfl⟩

/-- Its job is completed. -/
def objectHistory (thinking : String) : List (ContentWrite objectTools) :=
  [.attempt (objectCall thinking) 10 (plainMove .validating 10) (some "job.validating"),
    .complete
      { step := plainMove .completed 20
        measured := {}
        made := 1
        streamed := false
        timestamp := 20 }]

/-- What is stored of it. -/
def objectRows (request : StoredRequest) (thinking : String) : JobRows :=
  rowsOf objectTools 1 request helloColumns (objectHistory thinking)

/-- Two jobs with different prompts of one hash, which think of different things; nothing of either
is left. -/
theorem scrubbed_equal_iff_object :
    Archive.SameAbout 1
      ((Archive.sole 1 (objectRows longPrompt "Ada")).scrubContent (fun _ => "2026-01-02T00:00:00Z")
        (seconds 7200) 1 defaultBatchSize)
      ((Archive.sole 1 (objectRows shortPrompts "Eve")).scrubContent
        (fun _ => "2026-01-02T00:00:00Z") (seconds 7200) 1 defaultBatchSize) :=
  (@scrubbed_equal_iff objectTools (fun _ => "2026-01-02T00:00:00Z") (seconds 7200) 1
    defaultBatchSize 1 longPrompt shortPrompts (objectHistory "Ada") (objectHistory "Eve")
    (Archive.sole 1 (objectRows longPrompt "Ada")) (Archive.sole 1 (objectRows shortPrompts "Eve"))
    helloColumns rfl (congrArg objectTools.sha256 (by decide))
    (.cons (.attempt 10 _ _ rfl rfl ⟨rfl, rfl, by decide +kernel⟩) (.cons (.complete _) .nil))
    ⟨rfl, rfl, rfl, rfl⟩ ⟨rfl, rfl, rfl, rfl⟩ ⟨by decide +kernel, by decide +kernel⟩
    ⟨by decide +kernel, by decide +kernel⟩).2
    (.cons (fun _ _ => ⟨nofun, fun h => (h rfl).elim⟩) (.cons trivial .nil))

/-- Two jobs whose answers are no JSON, with one hash and one length: they are scrubbed, and the
details of their checks still quote the answers. -/
theorem answer_survives_scrubbing :
    List.Forall₂ ContentWrite.SameButText (proseHistory "Ada, 12 June")
        (proseHistory "Eve, 30 June") ∧
      (Archive.sole 1 (proseRows "Ada, 12 June")).Holds 1 (proseRows "Ada, 12 June") ∧
      (Archive.sole 1 (proseRows "Eve, 30 June")).Holds 1 (proseRows "Eve, 30 June") ∧
      (Archive.sole 1 (proseRows "Ada, 12 June")).Scrubs (fun _ => "2026-01-02T00:00:00Z")
        (seconds 7200) 1 defaultBatchSize 1 ∧
      (Archive.sole 1 (proseRows "Eve, 30 June")).Scrubs (fun _ => "2026-01-02T00:00:00Z")
        (seconds 7200) 1 defaultBatchSize 1 ∧
      ¬ Archive.SameAbout 1
        ((Archive.sole 1 (proseRows "Ada, 12 June")).scrubContent
          (fun _ => "2026-01-02T00:00:00Z") (seconds 7200) 1 defaultBatchSize)
        ((Archive.sole 1 (proseRows "Eve, 30 June")).scrubContent
          (fun _ => "2026-01-02T00:00:00Z") (seconds 7200) 1 defaultBatchSize) := by
  have hholds : ∀ text, (Archive.sole 1 (proseRows text)).Holds 1 (proseRows text) :=
    fun _ => ⟨rfl, rfl, rfl, rfl⟩
  have hscrubs : (Archive.sole 1 (proseRows "Ada, 12 June")).Scrubs
      (fun _ => "2026-01-02T00:00:00Z") (seconds 7200) 1 defaultBatchSize 1 :=
    ⟨by decide +kernel, by decide +kernel⟩
  have hscrubs' : (Archive.sole 1 (proseRows "Eve, 30 June")).Scrubs
      (fun _ => "2026-01-02T00:00:00Z") (seconds 7200) 1 defaultBatchSize 1 :=
    ⟨by decide +kernel, by decide +kernel⟩
  refine ⟨.cons (.attempt 10 _ _ rfl rfl ⟨rfl, by decide +kernel, rfl⟩)
    (.cons (.book _ _) .nil), hholds _, hholds _, hscrubs, hscrubs', fun h => ?_⟩
  obtain ⟨-, -, -, hrows⟩ := (Archive.sameAbout_iff ((hholds _).scrubContent hscrubs)
    ((hholds _).scrubContent hscrubs')).1 h
  rw [proseRows_validations, proseRows_validations] at hrows
  have hprefix : outputPrefix "Ada, 12 June" = outputPrefix "Eve, 30 June" := by
    simpa only [List.cons.injEq, ValidationRow.mk.injEq, Prod.mk.injEq, Json.str.injEq, true_and,
      and_true] using hrows
  exact absurd hprefix (by decide +kernel)

end LoadCoach

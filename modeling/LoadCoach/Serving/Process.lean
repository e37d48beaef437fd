import LoadCoach.CircuitBreaker
import LoadCoach.Serving.Synchronous
import LoadCoach.Worker.Invariants

/-! # A serving process

The workers of `Worker/Program.lean`, the synchronous executions and the circuit breakers, in any
interleaving.  A worker and an execution ask the breakers for the probe of a candidate they come
to, remember whether they were granted it (`holds_probe`), and hand it back on a cancellation.
A reserved row has one execution, so an execution is named by its row.

`calls` and the two `pending` fields are history variables: the attempts an execution called a
provider for, and the subjects whose probe a worker or an execution was granted and has neither
handed back nor recorded an attempt on since. -/

namespace LoadCoach

open Foundations

/-- Ask for the probe of a subject: whether it was granted, whether it is out, and the breakers. -/
def CircuitBreakers.ask (breakers : CircuitBreakers) (subject : String) (now : Instant) :
    Bool × Bool × CircuitBreakers :=
  let (holdsProbe, breakers) := breakers.allowProbe subject now
  (holdsProbe, breakers.probeBusy subject, breakers)

/-- The workers, the synchronous executions and the breakers. -/
structure Process where
  world : World := {}
  breakers : CircuitBreakers := {}
  point : JobId → SyncPoint := fun _ => .idle
  /-- A worker's `holds_probe`. -/
  holds : Owner → Bool := fun _ => false
  calls : JobId → List ℕ := fun _ => []
  pending : Owner → List String := fun _ => []
  syncPending : JobId → List String := fun _ => []

/-- A statement of a synchronous execution. -/
inductive SyncAct where
  | begin
  | prepare
  | route (decision : SyncDecision)
  | load (schema : Option Json)
  | commit (now : Instant) (totalMs : ℤ)
  | enter (now : Instant)
  | build
  | answer (collected : Collected) (parses : Bool)
  | correct
  | refresh
  | raise (e : Raised)

/-- What happens next. -/
inductive ProcessAct where
  | world (a : Act)
  /-- A worker comes to a candidate. -/
  | probe (w : Owner) (now : Instant)
  /-- The breakers are re-evaluated. -/
  | update (samples : String → Option (List AttemptSample)) (now : Instant)
  | sync (j : JobId) (a : SyncAct)

/-- A transaction that is no statement of a synchronous execution. -/
def Op.Unowned : Op → Prop
  | persist .. | routed .. | failReserved .. | abandon _ => False
  | _ => True

namespace Process

/-! ### The workers -/

/-- The subject whose probe a worker's statement hands back. -/
def released (s : Process) (w : Owner) : Option String :=
  match s.world.point w, s.world.advanced w with
  | .checkingToken l, .cancelling .. | .checkingRow l, .cancelling ..
  | .settling l _, .cancelling .. =>
      if s.holds w then some l.candidate.subjectCanonicalId else none
  | _, _ => none

/-- The subject a worker's transaction writes an attempt on. -/
def recorded (s : Process) (w : Owner) (now : Instant) (totalMs : ℤ) : Option String :=
  match s.world.point w, (s.world.point w).tx totalMs with
  | .recording _ o, some (job, tx) =>
      match tx.run w job.jobId now s.world.store.db with
      | .ok _ => some o.record.subjectCanonicalId
      | .error _ => none
  | _, _ => none

/-- A worker's probe of a subject is reported or handed back. -/
def settle (s : Process) (w : Owner) (subject : String) : Process :=
  { s with pending := Function.update s.pending w ((s.pending w).filter (· ≠ subject)) }

/-- What a worker's statement does to the probes. -/
def control (s : Process) : Act → Process
  | .advance w =>
      match s.released w with
      | some subject =>
          { s.settle w subject with breakers := (s.breakers.releaseProbe subject).2 }
      | none => s
  | .commit w now totalMs =>
      match s.recorded w now totalMs with
      | some subject => s.settle w subject
      | none => s
  | _ => s

/-- A worker at a candidate asks for its probe. -/
def probed (rack : ModelRack) (s : Process) (w : Owner) (now : Instant) : Process :=
  match s.world.point w with
  | .gate l =>
      let subject := l.candidate.subjectCanonicalId
      let (holdsProbe, probeBusy, breakers) := s.breakers.ask subject now
      { s with
        world := s.world.after rack (.probe w (!holdsProbe && probeBusy))
        breakers
        holds := Function.update s.holds w holdsProbe
        pending := if holdsProbe then
            Function.update s.pending w (s.pending w ++ [subject])
          else s.pending }
  | _ => s

/-! ### The synchronous executions -/

/-- The execution of a row goes to a point. -/
def goto (s : Process) (j : JobId) (p : SyncPoint) : Process :=
  { s with point := Function.update s.point j p }

/-- A transaction of an execution. -/
def write (rack : ModelRack) (s : Process) (op : Op) : Process :=
  { s with world := s.world.after rack (.store op) }

/-- The execution of a row is over; it may not have ended its row. -/
def leave (rack : ModelRack) (s : Process) (j : JobId) : Process :=
  (if s.world.store.sync j = .running then s.write rack (.abandon j) else s).goto j .finished

/-- An exception in the execution of a row. -/
def raise (rack : ModelRack) (s : Process) (j : JobId) (e : Raised) : Process :=
  match (s.point j).raised e with
  | .finished => s.leave rack j
  | p => s.goto j p

/-- The probes that are still pending when the attempts of an execution are written. -/
def unreported (s : Process) (j : JobId) : SyncPoint → List String
  | .persisting _ executed =>
      (s.syncPending j).filter fun subject =>
        !executed.records.any fun record => record.subjectCanonicalId == subject
  | _ => s.syncPending j

/-- The transaction at the point of an execution. -/
def commit (rack : ModelRack) (s : Process) (j : JobId) (op : Op) : Process :=
  match op.run rack s.world.store.db with
  | .ok _ =>
      { (s.write rack op).goto j (s.point j).committed with
        syncPending := Function.update s.syncPending j (s.unreported j (s.point j)) }
  | .error e => s.raise rack j e

/-- An execution comes to a candidate. -/
def enter (s : Process) (j : JobId) (l : SyncLoop) (now : Instant) : Process :=
  match l.rest.head?.join with
  | none => s.goto j (.entered l false false)
  | some candidate =>
      let subject := candidate.subjectCanonicalId
      let (holdsProbe, probeBusy, breakers) := s.breakers.ask subject now
      { s.goto j (.entered l holdsProbe probeBusy) with
        breakers
        syncPending := if holdsProbe then
            Function.update s.syncPending j (s.syncPending j ++ [subject])
          else s.syncPending }

/-- A provider answers an execution. -/
def answer (s : Process) (j : JobId) (l : SyncLoop) (t : SyncTry) (collected : Collected) :
    Process :=
  let s' := s.goto j (.answered l t collected)
  match SyncPoint.handedBack l t collected with
  | some subject =>
      { s' with
        breakers := (s.breakers.releaseProbe subject).2
        syncPending :=
          Function.update s.syncPending j ((s.syncPending j).filter (· ≠ subject)) }
  | none => s'

/-- What a statement of an execution does. -/
def stepped (rack : ModelRack) (s : Process) (j : JobId) : SyncAct → Process
  | .begin =>
      match s.point j with
      | .idle => s.goto j .preparing
      | _ => s
  | .prepare =>
      match s.point j with
      | .preparing => s.goto j .routing
      | _ => s
  | .route decision =>
      match s.point j with
      | .routing => s.goto j (.loading { decision, rest := decision.ranking.candidates })
      | _ => s
  | .load schema =>
      match s.point j with
      | .loading l => s.goto j (.announcing { l with schema })
      | _ => s
  | .commit now totalMs =>
      match (s.point j).op j now totalMs with
      | some op => s.commit rack j op
      | none => s
  | .enter now =>
      match s.point j with
      | .entering l => s.enter j l now
      | _ => s
  | .build =>
      match s.point j with
      | .building l t =>
          { s.goto j (.calling l t) with
            calls := Function.update s.calls j (s.calls j ++ [l.st.attemptNumber + 1]) }
      | _ => s
  | .answer collected parses =>
      match s.point j with
      | .calling l t =>
          if l.schemaUnsupported collected parses then s.raise rack j .unexpected
          else s.answer j l t collected
      | _ => s
  | .correct =>
      match s.point j with
      | .correcting l t => s.goto j (.corrected l t)
      | _ => s
  | .refresh =>
      match s.point j with
      | .refreshing => s.goto j .finished
      | _ => s
  | .raise e => s.raise rack j e

/-! ### The system -/

/-- The process after an act. -/
def after (rack : ModelRack) (s : Process) : ProcessAct → Process
  | .world a => { s.control a with world := s.world.after rack a }
  | .probe w now => s.probed rack w now
  | .update samples now => { s with breakers := s.breakers.update samples now }
  | .sync j a => s.stepped rack j a

/-- What a caller must have for an act. -/
def Enabled (rack : ModelRack) (s : Process) : ProcessAct → Prop
  | .world (.probe ..) => False
  | .world (.store op) => op.Unowned ∧ s.world.Enabled rack (.store op)
  | .world a => s.world.Enabled rack a
  | .sync j .begin => s.world.store.sync j = .running
  | _ => True

/-- **The serving process.** -/
def system (rack : ModelRack) : System Process ProcessAct :=
  .guarded (Enabled rack) (after rack) {}

end Process

/-! ### What a statement of an execution does -/

namespace Process

variable {rack : ModelRack} {s : Process} {j k : JobId}

/-- **The statements of an execution**, each at its point. -/
inductive Moves (rack : ModelRack) (s : Process) (j : JobId) : SyncAct → Process → Prop
  | stay {a : SyncAct} : Moves rack s j a s
  | begin (hpoint : s.point j = .idle) : Moves rack s j .begin (s.goto j .preparing)
  | prepare (hpoint : s.point j = .preparing) : Moves rack s j .prepare (s.goto j .routing)
  | route {decision : SyncDecision} (hpoint : s.point j = .routing) :
      Moves rack s j (.route decision)
        (s.goto j (.loading { decision, rest := decision.ranking.candidates }))
  | load {l : SyncLoop} {schema : Option Json} (hpoint : s.point j = .loading l) :
      Moves rack s j (.load schema) (s.goto j (.announcing { l with schema }))
  | commit {now : Instant} {totalMs : ℤ} {op : Op}
      (hop : (s.point j).op j now totalMs = some op) :
      Moves rack s j (.commit now totalMs) (s.commit rack j op)
  | enter {l : SyncLoop} {now : Instant} (hpoint : s.point j = .entering l) :
      Moves rack s j (.enter now) (s.enter j l now)
  | build {l : SyncLoop} {t : SyncTry} (hpoint : s.point j = .building l t) :
      Moves rack s j .build
        { s.goto j (.calling l t) with
          calls := Function.update s.calls j (s.calls j ++ [l.st.attemptNumber + 1]) }
  | answer {l : SyncLoop} {t : SyncTry} {collected : Collected} {parses : Bool}
      (hpoint : s.point j = .calling l t)
      (hschema : l.schemaUnsupported collected parses = false) :
      Moves rack s j (.answer collected parses) (s.answer j l t collected)
  | unsupported {l : SyncLoop} {t : SyncTry} {collected : Collected} {parses : Bool}
      (hpoint : s.point j = .calling l t)
      (hschema : l.schemaUnsupported collected parses = true) :
      Moves rack s j (.answer collected parses) (s.raise rack j .unexpected)
  | correct {l : SyncLoop} {t : SyncTry} (hpoint : s.point j = .correcting l t) :
      Moves rack s j .correct (s.goto j (.corrected l t))
  | refresh (hpoint : s.point j = .refreshing) : Moves rack s j .refresh (s.goto j .finished)
  | raise {e : Raised} : Moves rack s j (.raise e) (s.raise rack j e)

theorem moves (rack : ModelRack) (s : Process) (j : JobId) (a : SyncAct) :
    Moves rack s j a (s.stepped rack j a) := by
  cases a with
  | begin | prepare | route | load | enter | build | correct | refresh =>
      simp only [stepped]
      split
      · constructor
        assumption
      · exact .stay
  | commit now totalMs =>
      simp only [stepped]
      split
      · exact .commit ‹_›
      · exact .stay
  | answer collected parses =>
      simp only [stepped]
      split
      · rename_i l t hpoint
        split_ifs with hschema
        · exact .unsupported hpoint hschema
        · exact .answer hpoint (by simpa using hschema)
      · exact .stay
  | raise e => exact .raise

/-- What an exception does: it ends the execution, or a handler catches it. -/
theorem raise_cases (rack : ModelRack) (s : Process) (j : JobId) (e : Raised) :
    (s.point j).raised e = .finished ∧ s.raise rack j e = s.leave rack j ∨
      (s.point j).raised e ≠ .finished ∧ s.raise rack j e = s.goto j ((s.point j).raised e) := by
  unfold raise
  split
  · rename_i hfinished
    exact .inl ⟨hfinished, rfl⟩
  · rename_i hfinished
    exact .inr ⟨hfinished, rfl⟩

end Process

end LoadCoach

import LoadCoach.Store.Legality
import LoadCoach.Store.Log

/-! # One terminal event

A job that has not ended has no terminal event in its log, and one that has ended has exactly
one: the last of its log, and one that agrees with the state (`File.Ended`).  Every step of a file
keeps that (`File.Step.ended`), so it holds along every run whose synchronous writes find a row that
has not ended.

Where one does not, it fails: the watchdog ends a cancelled synchronous execution with
`job.cancelled`, and its call's answer then adds `result` and completes the job. -/

namespace LoadCoach

open Foundations Relation

/-! ### The invariant of a file -/

namespace File

/-- No terminal event. -/
def Unended (log : List JobEvent) : Prop := ∀ e ∈ log, e.eventType ∉ terminalStreamEvents

/-- The log of a row that has ended: one terminal event, the last, in agreement with the state. -/
def EndedAs (state : JobState) (log : List JobEvent) : Prop :=
  ∃ before e, log = before ++ [e] ∧ Unended before ∧ e.eventType ∈ terminalEventsOf state

/-- A log agrees with its row. -/
def Ended (f : File) : Prop :=
  match f.row with
  | none => Unended f.log
  | some job => if job.state ∈ terminalStates then EndedAs job.state f.log else Unended f.log

theorem Unended.append {log notes : List JobEvent} (h : Unended log) (hnotes : Unended notes) :
    Unended (log ++ notes) := by
  intro e he
  rcases List.mem_append.1 he with he | he
  · exact h e he
  · exact hnotes e he

theorem Unended.snoc {log : List JobEvent} {e : JobEvent} (h : Unended log)
    (he : e.eventType ∉ terminalStreamEvents) : Unended (log ++ [e]) :=
  h.append fun _ hn => List.mem_singleton.1 hn ▸ he

theorem EndedAs.not_append {state state' : JobState} {log : List JobEvent} {e : JobEvent}
    (h : EndedAs state log) : ¬ EndedAs state' (log ++ [e]) := by
  rintro ⟨before', e', hsplit', hbefore', -⟩
  obtain ⟨before, last, rfl, -, htype⟩ := h
  have hfront : before ++ [last] = before' := (List.append_inj' hsplit' rfl).1
  exact hbefore' last (hfront ▸ List.mem_append_right _ (List.mem_singleton_self _))
    ((mem_terminalStreamEvents _).2 ⟨state, htype⟩)

theorem mem_terminalStates_of_mem {state : JobState} {type : String}
    (h : type ∈ terminalEventsOf state) : state ∈ terminalStates := by
  cases state <;> first | exact absurd h List.not_mem_nil | decide

/-- **Every step of a file keeps the log in agreement with the row.** -/
theorem Step.ended {f f' : File} (hstep : Step f f') (h : f.Ended) : f'.Ended := by
  cases hstep with
  | keep hstate =>
      unfold Ended at h ⊢
      dsimp only at h ⊢
      rwa [hstate]
  | @move job job' log e hlegal htype =>
      have hactive : job.state ∉ terminalStates := fun hterminal => by
        simp [not_isLegal_of_terminal hterminal] at hlegal
      simp only [Ended, hactive, if_false] at h
      unfold Ended
      dsimp only
      split_ifs with hterminal
      · exact ⟨log, e, rfl, h, htype ▸ eventTypeFor_mem_terminalEventsOf hterminal⟩
      · exact h.snoc (htype ▸ eventTypeFor_not_mem_terminalStreamEvents hterminal)
  | insert hstate =>
      simpa only [Ended, hstate, if_false] using h
  | note hstate htype =>
      simp only [Ended, hstate, if_false] at h ⊢
      exact h.snoc htype
  | @finish job job' log e hstate htype =>
      simp only [Ended, hstate, if_false] at h
      simp only [Ended, mem_terminalStates_of_mem htype, if_true]
      exact ⟨log, e, rfl, h, htype⟩
  | @record job log notes e hnotes htype =>
      simp only [Ended] at h
      simp only [Ended, mem_terminalStates_of_mem htype, if_true]
      exact ⟨log ++ notes, e, rfl, h.append hnotes, htype⟩

theorem Path.ended {f f' : File} (hpath : Path f f') (h : f.Ended) : f'.Ended := by
  induction hpath with
  | refl => exact h
  | tail _ hstep ih => exact hstep.ended ih

end File

namespace Store

variable {rack : ModelRack} {s : Store} {h : List (Foundations.Step Store Op)}

/-- A step that commits and, if it is a synchronous execution's, finds a row that has not ended. -/
def EndsLive (rack : ModelRack) (e : Foundations.Step Store Op) : Prop :=
  ∀ db, e.act.run rack e.pre.db = .ok db → e.act.EndsLive e.pre.db

/-- **Every such step keeps the logs in agreement with their rows.** -/
theorem files_ended_after {op : Op} (hrows : s.SyncRows) (henabled : op.Enabled rack s)
    (hlive : EndsLive rack ⟨s, op, s.after rack op⟩) (hpre : ∀ j, (s.db.file j).Ended) (j : JobId) :
    ((s.after rack op).db.file j).Ended := by
  rcases after_cases rack s op with ⟨e, -, hsame⟩ | ⟨db, hop, hdb, -⟩
  · rw [hsame]
    exact hpre j
  · rw [hdb]
    exact (op.run_files hrows henabled (hlive db hop) hop j).ended (hpre j)

theorem files_ended (hrun : Run (system rack) h s) (hlive : ∀ e ∈ h, EndsLive rack e) :
    ∀ j, (s.db.file j).Ended := by
  induction hrun with
  | start hs =>
      rw [Set.mem_singleton_iff.1 hs]
      intro j e he
      cases he
  | @step h s s' op hpast hnext ih =>
      obtain ⟨henabled, rfl⟩ := hnext
      exact files_ended_after (syncRows hpast) henabled (hlive _ List.mem_cons_self)
        (ih fun e he => hlive e (List.mem_cons_of_mem _ he))

/-- The log of every ended job has exactly one terminal event: it is the last, and agrees with the
job's state. -/
def OneTerminalEvent (s : Store) : Prop :=
  ∀ j job, s.db.jobs.lookup j = some job → job.state ∈ terminalStates →
    ∃ before e, s.db.log j = before ++ [e] ∧
      (∀ n ∈ before, n.eventType ∉ terminalStreamEvents) ∧
      e.eventType ∈ terminalStreamEvents ∧ e.eventType ∈ terminalEventsOf job.state

theorem oneTerminalEvent_of_ended (hended : ∀ j, (s.db.file j).Ended) : s.OneTerminalEvent := by
  intro j job hrow hterminal
  have hfile := hended j
  simp only [File.Ended, Db.file, hrow, hterminal, if_true] at hfile
  obtain ⟨before, e, hlog, hbefore, htype⟩ := hfile
  exact ⟨before, e, hlog, hbefore, (mem_terminalStreamEvents _).2 ⟨_, htype⟩, htype⟩

/-- **One terminal event.**  Along a run every ended job's log has exactly one terminal event, the
last and in agreement with the job's state, exactly when each synchronous execution that writes
its row or its log finds a row that has not ended. -/
theorem one_terminal_event_iff (hrun : Run (system rack) h s) :
    (∀ e ∈ h, e.post.OneTerminalEvent) ↔ ∀ e ∈ h, EndsLive rack e := by
  constructor
  · intro hone
    induction hrun with
    | start _ => simp
    | @step h s s' op hpast hnext ih =>
        obtain ⟨henabled, rfl⟩ := hnext
        have hearlier := ih fun e he => hone e (List.mem_cons_of_mem _ he)
        intro e he
        rcases List.mem_cons.1 he with rfl | he
        · intro db hop
          by_contra hdead
          have hdb : (s.after rack op).db = db := by
            rcases after_cases rack s op with ⟨e, herror, -⟩ | ⟨db', hop', hdb, -⟩
            · cases herror.symm.trans hop
            · cases hop'.symm.trans hop
              exact hdb
          obtain ⟨j, job, job', e, hrow, hterminal, hterminal', hfile⟩ := Op.ended_twice hop hdead
          have hbefore := files_ended hpast hearlier j
          simp only [File.Ended, Db.file, hrow, hterminal, if_true] at hbefore
          have hrow' : db.jobs.lookup j = some job' := congrArg File.row hfile
          have hlog : db.log j = s.db.log j ++ [e] := congrArg File.log hfile
          obtain ⟨before, last, hsplit, hunended, -, htype⟩ :=
            hone _ List.mem_cons_self j job' (hdb ▸ hrow') hterminal'
          dsimp only at hsplit
          rw [hdb, hlog] at hsplit
          have hafter : File.EndedAs job'.state (s.db.log j ++ [e]) :=
            ⟨before, last, hsplit, hunended, htype⟩
          exact hbefore.not_append hafter
        · exact hearlier e he
  · intro hlive e he
    obtain ⟨h₁, h₂, rfl⟩ := List.append_of_mem he
    exact oneTerminalEvent_of_ended
      (files_ended hrun.past.2.2 fun e' he' => hlive e' (List.mem_append_right _ he'))

/-- A synchronous execution that answers while nobody else touches its row. -/
def answeredCall : List Op :=
  [.reserveSyncJob 0 { task := "chat", prompt := some "hello" } ("chat", "1") 0 24,
   .routed 0 0, answered]

theorem answeredCall_admissible :
    Admissible (fun s op => op.Enabled documentedRack s) (after documentedRack) {} answeredCall :=
  ⟨⟨⟨[{ role := .user, content := "hello" }], rfl, by simp [AcceptedTurns, documentedRack]⟩,
    by simp⟩, rfl, ⟨rfl, rfl⟩, trivial⟩

theorem one_terminal_event_iff_answered :
    (∀ e ∈ trace (after documentedRack) {} answeredCall, e.post.OneTerminalEvent) ↔
      ∀ e ∈ trace (after documentedRack) {} answeredCall, EndsLive documentedRack e :=
  one_terminal_event_iff (Run.replay answeredCall_admissible)

/-- The watchdog ends a cancelled synchronous execution, and its answer ends it once more. -/
theorem two_terminal_events : ∃ h s, Run (system documentedRack) h s ∧ ¬ s.OneTerminalEvent ∧
    (s.db.log 0).map JobEvent.eventType = ["job.cancelling", "job.cancelled", "result"] := by
  have hlog : (((cancelledCall ++ [answered]).foldl (after documentedRack) {}).db.log 0).map
      JobEvent.eventType = ["job.cancelling", "job.cancelled", "result"] := by decide +kernel
  refine ⟨_, _, Run.replay cancelledCall_admissible, fun hone => ?_, hlog⟩
  have hrow : (((cancelledCall ++ [answered]).foldl (after documentedRack) {}).db.jobs.lookup
      0).map Job.state = some .completed := by decide +kernel
  obtain ⟨job, hrow, hstate⟩ := Option.map_eq_some_iff.1 hrow
  obtain ⟨before, e, hsplit, hbefore, -⟩ := hone 0 job hrow (by rw [hstate]; decide)
  -- the second event of the three is terminal too
  have hparts : before.map JobEvent.eventType ++ [e.eventType] =
      ["job.cancelling", "job.cancelled"] ++ ["result"] := by
    rw [← List.map_singleton, ← List.map_append, ← hsplit]
    exact hlog
  have hfront : before.map JobEvent.eventType = ["job.cancelling", "job.cancelled"] :=
    (List.append_inj' hparts rfl).1
  obtain ⟨n, hn, htype⟩ := List.mem_map.1
    (show "job.cancelled" ∈ before.map JobEvent.eventType by simp [hfront])
  exact hbefore n hn (by simp [htype, terminalStreamEvents])

end Store

end LoadCoach

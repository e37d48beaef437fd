import LoadCoach.Serving.Process
import LoadCoach.Store.Legality
import LoadCoach.Worker.Holds

/-! # The executions of a process

In every reachable process the locals of every execution fit its point, an execution that has not
ended its row still owns it (`Process.sound`), and the workers and the store are in a state they
can reach by themselves (`Process.worldRun`), so that everything proved of them holds.  It
follows that a transaction of an execution always commits (`Process.commit_ok`): what keeps a row
from being ended is an exception, never a refused write. -/

namespace LoadCoach

open Foundations

variable {rack : ModelRack}

/-! ### Who ends an execution -/

theorem Store.sync_after_cases (rack : ModelRack) (s : Store) (op : Op) (j : JobId) :
    (s.after rack op).sync j = s.sync j ∨
      ∃ phase, op.phase = some (j, phase) ∧ (s.after rack op).sync j = phase := by
  rcases Store.after_cases rack s op with ⟨e, -, hsame⟩ | ⟨db, -, -, hsync⟩
  · exact .inl (by rw [hsame])
  · rw [hsync]
    cases hphase : op.phase with
    | none => exact .inl rfl
    | some e =>
        obtain ⟨k, phase⟩ := e
        by_cases hk : k = j
        · subst hk
          exact .inr ⟨phase, rfl, by simp⟩
        · exact .inl (by simp [Ne.symm hk])

theorem Store.running_after {s : Store} {op : Op} {j : JobId} (hop : op.Unowned)
    (hrunning : s.sync j = .running) : (s.after rack op).sync j = .running := by
  rcases Store.sync_after_cases rack s op j with hsame | ⟨phase, hphase, hsync⟩
  · rw [hsame, hrunning]
  · rw [hsync]
    cases op with
    | reserveSyncJob =>
        cases hphase
        rfl
    | persist | routed | failReserved | abandon => exact hop.elim
    | _ => cases hphase

namespace Process

variable {s s' : Process} {j k : JobId} {h : List (Foundations.Step Process ProcessAct)}

theorem enabled_world {a : Act} (henabled : s.Enabled rack (.world a)) :
    s.world.Enabled rack a := by
  cases a with
  | store op => exact henabled.2
  | probe => exact henabled.elim
  | _ => exact henabled

theorem unowned_of_op {a : Act} {op : Op} (henabled : s.Enabled rack (.world a))
    (hop : s.world.op a = some op) : op.Unowned := by
  cases a with
  | store op' =>
      cases hop
      exact henabled.1
  | claim w now leaseSeconds pick affinity =>
      simp only [World.op] at hop
      split at hop <;> cases hop
      trivial
  | commit w now totalMs =>
      obtain ⟨e, -, rfl⟩ := Option.map_eq_some_iff.1 hop
      trivial
  | keeperRenew process now leaseSeconds =>
      simp only [World.op] at hop
      split at hop <;> cases hop
      trivial
  | _ => cases hop

theorem running_of_world {a : Act} (henabled : s.Enabled rack (.world a))
    (hrunning : s.world.store.sync j = .running) :
    (s.world.after rack a).store.sync j = .running := by
  rw [World.after_store]
  cases hop : s.world.op a with
  | none => exact hrunning
  | some op => exact Store.running_after (unowned_of_op henabled hop) hrunning

/-! ### Sound executions -/

/-- Locals fit their points, and an execution that has not ended its row owns it. -/
structure Sound (s : Process) : Prop where
  locals : ∀ j, (s.point j).Sound
  running : ∀ j, (s.point j).Running → s.world.store.sync j = .running

theorem Sound.of_goto {p : SyncPoint} (hsound : s.Sound)
    (hpoint : s'.point = Function.update s.point j p)
    (hsync : ∀ k, k ≠ j → s'.world.store.sync k = s.world.store.sync k) (hp : p.Sound)
    (hrunning : p.Running → s'.world.store.sync j = .running) : s'.Sound where
  locals k := by
    rw [hpoint]
    by_cases hk : k = j
    · subst hk
      simpa using hp
    · simpa [hk] using hsound.locals k
  running k hk := by
    rw [hpoint] at hk
    by_cases hkj : k = j
    · subst hkj
      exact hrunning (by simpa using hk)
    · rw [hsync k hkj]
      exact hsound.running k (by simpa [hkj] using hk)

theorem Sound.op_enabled (rack : ModelRack) (hsound : s.Sound) {now : Instant} {totalMs : ℤ}
    {op : Op} (hop : (s.point j).op j now totalMs = some op) :
    s.world.Enabled rack (.store op) ∧ op.syncJob = some j := by
  have hlocals := hsound.locals j
  have hrunning := hsound.running j
  cases hpoint : s.point j <;> rw [hpoint] at hop hlocals hrunning <;> cases hop
  case refusing | announcing => exact ⟨⟨trivial, hrunning trivial⟩, rfl⟩
  case persisting => exact ⟨⟨trivial, hrunning trivial, hlocals.numbered⟩, rfl⟩

theorem sync_write {op : Op} (hop : op.syncJob = some j) (hk : k ≠ j) :
    (s.write rack op).world.store.sync k = s.world.store.sync k := by
  rcases Store.sync_after_cases rack s.world.store op k with hsame | ⟨phase, hphase, -⟩
  · exact hsame
  · cases op <;> cases hop <;> cases hphase <;> exact absurd rfl hk

theorem leave_sync (hk : k ≠ j) :
    (s.leave rack j).world.store.sync k = s.world.store.sync k := by
  unfold leave
  split_ifs
  · exact sync_write rfl hk
  · rfl

theorem leave_point : (s.leave rack j).point = Function.update s.point j .finished := by
  unfold leave
  split_ifs <;> rfl

theorem Sound.leave (hsound : s.Sound) : (s.leave rack j).Sound :=
  hsound.of_goto leave_point (fun _ => leave_sync) trivial False.elim

theorem Sound.raise (hsound : s.Sound) (e : Raised) : (s.raise rack j e).Sound := by
  rcases raise_cases rack s j e with ⟨-, hleave⟩ | ⟨hfinished, hgoto⟩
  · rw [hleave]
    exact hsound.leave
  · rw [hgoto]
    exact hsound.of_goto rfl (fun _ _ => rfl) (SyncPoint.raised_sound (hsound.locals j) e)
      fun hrunning => hsound.running j (SyncPoint.running_of_raised hfinished hrunning)

theorem committed_spec {p : SyncPoint} {now : Instant} {totalMs : ℤ} {op : Op} (hp : p.Sound)
    (hop : p.op j now totalMs = some op) :
    p.committed.Sound ∧ (p.committed.Running → op.phase = none) := by
  cases p <;> cases hop
  case refusing | persisting => exact ⟨trivial, False.elim⟩
  case announcing => exact ⟨hp, fun _ => rfl⟩

theorem Sound.commit (hsound : s.Sound) {now : Instant} {totalMs : ℤ} {op : Op}
    (hop : (s.point j).op j now totalMs = some op) : (s.commit rack j op).Sound := by
  unfold Process.commit
  split
  · obtain ⟨hcommitted, hphase⟩ := committed_spec (hsound.locals j) hop
    refine hsound.of_goto (p := (s.point j).committed) rfl
      (fun k hk => sync_write (hsound.op_enabled rack hop).2 hk) hcommitted ?_
    intro hrunning
    have hbefore : s.world.store.sync j = .running := by
      apply hsound.running
      cases hpoint : s.point j <;> rw [hpoint] at hop <;> cases hop <;> trivial
    rcases Store.sync_after_cases rack s.world.store op j with hsame | ⟨phase, hsome, -⟩
    · exact hsame.trans hbefore
    · rw [hphase hrunning] at hsome
      cases hsome
  · exact hsound.raise _

/-- **Every statement of an execution keeps the executions sound.** -/
theorem Moves.sound {a : SyncAct} (hmoves : Moves rack s j a s')
    (henabled : s.Enabled rack (.sync j a)) (hsound : s.Sound) : s'.Sound := by
  have hlocals := hsound.locals j
  have hrunning := hsound.running j
  cases hmoves with
  | stay => exact hsound
  | begin => exact hsound.of_goto rfl (fun _ _ => rfl) trivial fun _ => henabled
  | prepare hpoint =>
      rw [hpoint] at hrunning
      exact hsound.of_goto rfl (fun _ _ => rfl) trivial fun _ => hrunning trivial
  | route hpoint =>
      rw [hpoint] at hrunning
      exact hsound.of_goto rfl (fun _ _ => rfl) (SyncPoint.loading_sound _)
        fun _ => hrunning trivial
  | load hpoint =>
      rw [hpoint] at hlocals hrunning
      refine hsound.of_goto rfl (fun _ _ => rfl) ?_ fun _ => hrunning trivial
      exact ⟨hlocals.execution, hlocals.counted, hlocals.rest⟩
  | commit hop => exact hsound.commit hop
  | @enter l now hpoint =>
      rw [hpoint] at hlocals hrunning
      unfold Process.enter
      split
      · exact hsound.of_goto rfl (fun _ _ => rfl) (SyncPoint.entered_sound hlocals _ _)
          fun _ => hrunning trivial
      · exact hsound.of_goto rfl (fun _ _ => rfl) (SyncPoint.entered_sound hlocals _ _)
          fun _ => hrunning trivial
  | build hpoint =>
      rw [hpoint] at hlocals hrunning
      exact hsound.of_goto rfl (fun _ _ => rfl) hlocals fun _ => hrunning trivial
  | @answer l t collected parses hpoint =>
      rw [hpoint] at hlocals hrunning
      have hanswered := SyncPoint.answered_sound hlocals.1 hlocals.2 collected
      unfold Process.answer
      dsimp only
      split
      · exact hsound.of_goto rfl (fun _ _ => rfl) hanswered fun _ => hrunning trivial
      · exact hsound.of_goto rfl (fun _ _ => rfl) hanswered fun _ => hrunning trivial
  | correct hpoint =>
      rw [hpoint] at hlocals hrunning
      exact hsound.of_goto rfl (fun _ _ => rfl) (SyncPoint.corrected_sound hlocals.1 hlocals.2)
        fun _ => hrunning trivial
  | refresh => exact hsound.of_goto rfl (fun _ _ => rfl) trivial False.elim
  | unsupported | raise => exact hsound.raise _

/-- Every execution is where it was, with the same calls and probes. -/
structure KeepsExecutions (s s' : Process) : Prop where
  point : s'.point = s.point
  calls : s'.calls = s.calls
  syncPending : s'.syncPending = s.syncPending

theorem after_world_keeps (rack : ModelRack) (s : Process) (a : Act) :
    s.KeepsExecutions (s.after rack (.world a)) := by
  have hcontrol : s.KeepsExecutions (s.control a) := by
    unfold control
    split
    · split <;> exact ⟨rfl, rfl, rfl⟩
    · split <;> exact ⟨rfl, rfl, rfl⟩
    · exact ⟨rfl, rfl, rfl⟩
  exact ⟨hcontrol.point, hcontrol.calls, hcontrol.syncPending⟩

theorem after_probe_keeps (rack : ModelRack) (s : Process) (w : Owner) (now : Instant) :
    s.KeepsExecutions (s.after rack (.probe w now)) := by
  change s.KeepsExecutions (s.probed rack w now)
  unfold probed
  split <;> exact ⟨rfl, rfl, rfl⟩

/-- A worker that asks for a probe is a step of the workers or none. -/
theorem after_probe_world (rack : ModelRack) (s : Process) (w : Owner) (now : Instant) :
    (s.after rack (.probe w now)).world = s.world ∨
      ∃ busy, (s.after rack (.probe w now)).world = s.world.after rack (.probe w busy) := by
  change (s.probed rack w now).world = s.world ∨
    ∃ busy, (s.probed rack w now).world = s.world.after rack (.probe w busy)
  unfold probed
  split
  · exact .inr ⟨_, rfl⟩
  · exact .inl rfl

/-- **The executions of a process are sound.** -/
theorem sound (hrun : Run (system rack) h s) : s.Sound := by
  refine hrun.invariant ?_ ?_
  · rintro _ rfl
    exact ⟨fun _ => trivial, fun _ => False.elim⟩
  · rintro s a _ ⟨henabled, rfl⟩ hsound
    cases a with
    | world a =>
        refine ⟨fun j => ?_, fun j hj => ?_⟩
        · rw [(after_world_keeps rack s a).point]
          exact hsound.locals j
        · rw [(after_world_keeps rack s a).point] at hj
          exact running_of_world henabled (hsound.running j hj)
    | probe w now =>
        refine ⟨fun j => ?_, fun j hj => ?_⟩
        · rw [(after_probe_keeps rack s w now).point]
          exact hsound.locals j
        · rw [(after_probe_keeps rack s w now).point] at hj
          have hrunning := hsound.running j hj
          rcases after_probe_world rack s w now with hsame | ⟨busy, hworld⟩
          · rw [hsame, hrunning]
          · rw [hworld]
            exact hrunning
    | update => exact ⟨hsound.locals, hsound.running⟩
    | sync j a => exact (moves rack s j a).sound henabled hsound

/-- A statement of an execution leaves every other execution, and the workers' probes, alone. -/
structure Frame (s : Process) (j : JobId) (s' : Process) : Prop where
  point : ∀ k, k ≠ j → s'.point k = s.point k
  calls : ∀ k, k ≠ j → s'.calls k = s.calls k
  syncPending : ∀ k, k ≠ j → s'.syncPending k = s.syncPending k
  holds : s'.holds = s.holds
  pending : s'.pending = s.pending

theorem Frame.refl (s : Process) : s.Frame j s :=
  ⟨fun _ _ => rfl, fun _ _ => rfl, fun _ _ => rfl, rfl, rfl⟩

theorem frame_goto (p : SyncPoint) : s.Frame j (s.goto j p) where
  point k hk := by simp [goto, hk]
  calls _ _ := rfl
  syncPending _ _ := rfl
  holds := rfl
  pending := rfl

theorem frame_leave : s.Frame j (s.leave rack j) := by
  unfold leave
  split_ifs
  · exact ⟨(frame_goto _).point, fun _ _ => rfl, fun _ _ => rfl, rfl, rfl⟩
  · exact frame_goto _

theorem frame_raise (e : Raised) : s.Frame j (s.raise rack j e) := by
  rcases raise_cases rack s j e with ⟨-, hraise⟩ | ⟨-, hraise⟩
  · rw [hraise]
    exact frame_leave
  · rw [hraise]
    exact frame_goto _

theorem Moves.frame {a : SyncAct} (hmoves : Moves rack s j a s') : s.Frame j s' := by
  cases hmoves with
  | stay => exact .refl s
  | commit =>
      unfold Process.commit
      split
      · exact ⟨(frame_goto _).point, fun _ _ => rfl, fun k hk => by simp [hk], rfl, rfl⟩
      · exact frame_raise _
  | enter =>
      unfold Process.enter
      split
      · exact frame_goto _
      · refine ⟨(frame_goto _).point, fun _ _ => rfl, fun k hk => ?_, rfl, rfl⟩
        dsimp only
        split_ifs
        · simp [hk]
        · rfl
  | build => exact ⟨(frame_goto _).point, fun k hk => by simp [hk], fun _ _ => rfl, rfl, rfl⟩
  | answer =>
      unfold Process.answer
      dsimp only
      split
      · exact ⟨(frame_goto _).point, fun _ _ => rfl, fun k hk => by simp [hk], rfl, rfl⟩
      · exact frame_goto _
  | unsupported | raise => exact frame_raise _
  | _ => exact frame_goto _

/-! ### The workers of a process -/

/-- What a statement of an execution does to the workers and the store: nothing, or a transaction
it can make. -/
theorem Moves.world {a : SyncAct} (hmoves : Moves rack s j a s') (hsound : s.Sound) :
    s'.world = s.world ∨ ∃ op, op.syncJob = some j ∧ s.world.Enabled rack (.store op) ∧
      s'.world = s.world.after rack (.store op) := by
  have hleave : (s.leave rack j).world = s.world ∨ ∃ op, op.syncJob = some j ∧
      s.world.Enabled rack (.store op) ∧
        (s.leave rack j).world = s.world.after rack (.store op) := by
    unfold leave
    split_ifs with hrunning
    · exact .inr ⟨.abandon j, rfl, ⟨trivial, hrunning⟩, rfl⟩
    · exact .inl rfl
  have hraise : ∀ e, (s.raise rack j e).world = s.world ∨ ∃ op, op.syncJob = some j ∧
      s.world.Enabled rack (.store op) ∧
        (s.raise rack j e).world = s.world.after rack (.store op) := by
    intro e
    rcases raise_cases rack s j e with ⟨-, hraise⟩ | ⟨-, hraise⟩
    · rw [hraise]
      exact hleave
    · rw [hraise]
      exact .inl rfl
  cases hmoves with
  | commit hop =>
      obtain ⟨henabled, hjob⟩ := hsound.op_enabled rack hop
      unfold Process.commit
      split
      · exact .inr ⟨_, hjob, henabled, rfl⟩
      · exact hraise _
  | enter =>
      unfold Process.enter
      split <;> exact .inl rfl
  | answer =>
      unfold Process.answer
      dsimp only
      split <;> exact .inl rfl
  | unsupported | raise => exact hraise _
  | _ => exact .inl rfl

theorem Moves.world_point {a : SyncAct} (hmoves : Moves rack s j a s') (hsound : s.Sound) :
    s'.world.point = s.world.point := by
  rcases hmoves.world hsound with hsame | ⟨op, -, -, hafter⟩
  · rw [hsame]
  · rw [hafter]
    rfl

/-- **The workers of a process run as they do by themselves.** -/
theorem worldRun (hrun : Run (system rack) h s) :
    ∃ h', Run (World.system rack) h' s.world := by
  induction hrun with
  | start hs =>
      rw [Set.mem_singleton_iff.1 hs]
      exact ⟨[], .start rfl⟩
  | @step h s _ a hpast hnext ih =>
      obtain ⟨henabled, rfl⟩ := hnext
      obtain ⟨h', hworld⟩ := ih
      cases a with
      | world a => exact ⟨_, World.run_step hworld a (enabled_world henabled)⟩
      | probe w now =>
          rcases after_probe_world rack s w now with hsame | ⟨busy, hafter⟩
          · exact ⟨h', hsame ▸ hworld⟩
          · exact ⟨_, hafter ▸ World.run_step hworld (.probe w busy) trivial⟩
      | update => exact ⟨h', hworld⟩
      | sync j a =>
          rcases (moves rack s j a).world (sound hpast) with hsame | ⟨op, -, hop, hafter⟩
          · exact ⟨h', hsame ▸ hworld⟩
          · exact ⟨_, hafter ▸ World.run_step hworld (.store op) hop⟩

theorem storeRun (hrun : Run (system rack) h s) :
    ∃ h', Run (Store.system rack) h' s.world.store :=
  (worldRun hrun).imp' _ fun _ hworld => (World.simulation rack).run hworld

theorem after_path (hrun : Run (system rack) h s) {a : ProcessAct} (henabled : s.Enabled rack a)
    (j : JobId) : ∃ who, Track.Path rack who (s.world.store.db.track j)
      ((s.after rack a).world.store.db.track j) := by
  obtain ⟨h', hworld⟩ := worldRun hrun
  have hpath : ∀ a, s.world.Enabled rack a → ∃ who, Track.Path rack who
      (s.world.store.db.track j) ((s.world.after rack a).store.db.track j) := by
    intro a ha
    cases hop : s.world.op a with
    | none => exact ⟨.housekeeping, by rw [World.after_quiet hop]; exact .refl⟩
    | some op => exact ⟨op.writer, World.after_writes hworld ha hop j⟩
  have hsame : ∃ who, Track.Path rack who (s.world.store.db.track j)
      (s.world.store.db.track j) := ⟨.housekeeping, .refl⟩
  cases a with
  | world a => exact hpath a (enabled_world henabled)
  | probe w now =>
      rcases after_probe_world rack s w now with hafter | ⟨busy, hafter⟩
      · rw [hafter]
        exact hsame
      · rw [hafter]
        exact hpath (.probe w busy) trivial
  | update => exact hsame
  | sync k a =>
      rcases (moves rack s k a).world (sound hrun) with hafter | ⟨op, -, hop, hafter⟩
      · change ∃ who, Track.Path rack who _ ((s.stepped rack k a).world.store.db.track j)
        rw [hafter]
        exact hsame
      · change ∃ who, Track.Path rack who _ ((s.stepped rack k a).world.store.db.track j)
        rw [hafter]
        exact hpath (.store op) hop

/-- **A transaction of an execution always commits.** -/
theorem commit_ok (hrun : Run (system rack) h s) {now : Instant} {totalMs : ℤ} {op : Op}
    (hop : (s.point j).op j now totalMs = some op) :
    ∃ db, op.run rack s.world.store.db = .ok db := by
  obtain ⟨h', hstore⟩ := storeRun hrun
  have hlocals := (sound hrun).locals j
  have hrunning := (sound hrun).running j
  have huntouched := Store.untouched hstore j
  have htrack := Store.sound hstore j
  cases hpoint : s.point j <;> rw [hpoint] at hop hlocals hrunning <;> cases hop
  case announcing => exact ⟨_, rfl⟩
  case refusing refusal =>
    obtain ⟨job, hrow, -⟩ := huntouched (hrunning trivial)
    obtain ⟨db, hcommits, -⟩ :=
      Db.failReserved_commits refusal.code refusal.message now hrow
    exact ⟨db, hcommits⟩
  case persisting decision executed =>
    obtain ⟨job, hrow, -, hattempt, -⟩ := huntouched (hrunning trivial)
    obtain ⟨db, hcommits, -⟩ :=
      Db.persist_commits (executed.outcome totalMs decision.supportsStreaming) decision.profile now
        hrow hattempt htrack hlocals.numbered
    exact ⟨db, hcommits⟩

end Process

end LoadCoach

import LoadCoach.Foundations.Transition
import Mathlib.Data.List.Lex
import Mathlib.Logic.Function.Basic

/-! # The live stream of a job

`services/job_events.py` for one job: the rows of `job_events`, the counter `_high` of the sink,
and what the broker has handed to the subscribers.  A persisted event takes its number inside a
transaction and is published after the commit, by the thread that wrote it; a live frame takes
its number under the sink's lock and is published after the lock is released; a terminal frame,
once published, makes its thread forget the counter.  The transactions, the threads and a writer
in another process interleave as they like.  The broker hands a frame to every subscriber that is
attached when the frame is published.

`handed` and `published` are history variables: the frames in the order their numbers were taken,
and in the order they were published, the newest first.  The numbers a subscriber sees increase in
every run in which frames are published in the order their numbers were taken and no number is
taken from a counter that was forgotten (`delivered_increasing`). -/

namespace LoadCoach

open Foundations

/-- A frame: its sequence number, its place among the numbers taken, and whether it is terminal. -/
structure Frame where
  sequence : ℕ
  ordinal : ℕ
  terminal : Bool
deriving DecidableEq, Repr

/-- What a thread has left to do outside its transaction. -/
inductive StreamTask where
  | publish (frame : Frame)
  | forget
deriving DecidableEq, Repr

/-- The stream of one job: its writers are the threads `W`, its subscribers `C`. -/
structure JobStream (W C : Type) where
  /-- The committed rows. -/
  stored : List ℕ
  high : Option ℕ := none
  /-- The rows of open transactions. -/
  staged : W → List Frame := fun _ => []
  tasks : W → List StreamTask := fun _ => []
  attached : C → Bool := fun _ => false
  delivered : C → List Frame := fun _ => []
  handed : List Frame := []
  published : List Frame := []

/-- What happens next. -/
inductive StreamAct (W C : Type) where
  /-- `EventWriter.append`, in the thread's transaction. -/
  | append (w : W) (terminal : Bool)
  | commit (w : W)
  | rollback (w : W)
  /-- The locked part of `publish_live`. -/
  | live (w : W)
  /-- The next publication, or the forgetting after it. -/
  | work (w : W)
  | subscribe (c : C)
  /-- Another process writes a row. -/
  | foreign

namespace JobStream

variable {W C : Type} [DecidableEq W] [DecidableEq C]

/-- `coalesce(max(sequence), 0)`. -/
def maxSequence (sequences : List ℕ) : ℕ := sequences.foldr max 0

/-- The highest stored number a thread's transaction sees. -/
def storedMax (s : JobStream W C) (w : W) : ℕ :=
  maxSequence (s.stored ++ (s.staged w).map Frame.sequence)

/-- `next_sequence`: above every stored and every handed-out number. -/
def nextSequence (s : JobStream W C) (w : W) : ℕ := max (s.storedMax w) (s.high.getD 0) + 1

/-- The number a live frame takes. -/
def liveSequence (s : JobStream W C) : ℕ := s.high.getD 0 + 1

/-- The frame that takes a number. -/
def frame (s : JobStream W C) (sequence : ℕ) (terminal : Bool) : Frame :=
  ⟨sequence, s.handed.length + 1, terminal⟩

/-- Take a number. -/
def take (s : JobStream W C) (f : Frame) : JobStream W C :=
  { s with high := some f.sequence, handed := f :: s.handed }

/-- What remains to be done for a committed frame. -/
def tasksOf (f : Frame) : List StreamTask :=
  if f.terminal then [.publish f, .forget] else [.publish f]

/-- `broker.publish`. -/
def publish (s : JobStream W C) (f : Frame) : JobStream W C :=
  { s with
    published := f :: s.published
    delivered := fun c => if s.attached c then f :: s.delivered c else s.delivered c }

/-- The stream after an act. -/
def after (s : JobStream W C) : StreamAct W C → JobStream W C
  | .append w terminal =>
      let f := s.frame (s.nextSequence w) terminal
      { s.take f with staged := Function.update s.staged w (s.staged w ++ [f]) }
  | .commit w =>
      { s with
        stored := s.stored ++ (s.staged w).map Frame.sequence
        staged := Function.update s.staged w []
        tasks := Function.update s.tasks w ((s.staged w).flatMap tasksOf) }
  | .rollback w => { s with staged := Function.update s.staged w [] }
  | .live w =>
      let f := s.frame s.liveSequence false
      { s.take f with tasks := Function.update s.tasks w [.publish f] }
  | .work w =>
      match s.tasks w with
      | [] => s
      | .publish f :: rest => { s.publish f with tasks := Function.update s.tasks w rest }
      | .forget :: rest => { s with high := none, tasks := Function.update s.tasks w rest }
  | .subscribe c =>
      { s with
        attached := Function.update s.attached c true
        delivered := Function.update s.delivered c [] }
  | .foreign => { s with stored := s.stored ++ [maxSequence s.stored + 1] }

/-- A thread does one thing after the other, and the numbers of the rows are unique. -/
def Enabled (s : JobStream W C) : StreamAct W C → Prop
  | .append w _ => s.tasks w = []
  | .commit w => s.tasks w = [] ∧ s.staged w ≠ [] ∧ ∀ f ∈ s.staged w, f.sequence ∉ s.stored
  | .rollback w => s.staged w ≠ []
  | .live w => s.tasks w = [] ∧ s.staged w = []
  | .work w => s.tasks w ≠ []
  | .subscribe _ => True
  | .foreign => True

/-- **The stream of a job**, from a process that finds some rows. -/
def system (W C : Type) [DecidableEq W] [DecidableEq C] (stored : List ℕ) :
    System (JobStream W C) (StreamAct W C) :=
  .guarded Enabled after { stored }

/-! ### The property and the condition -/

/-- The numbers a subscriber has seen increase. -/
def Increasing (frames : List Frame) : Prop := frames.Pairwise fun f g => g.sequence < f.sequence

/-- No number is taken from a forgotten counter, but by a row above all numbers ever taken; and
frames are published in the order their numbers were taken. -/
def Orderly (e : Step (JobStream W C) (StreamAct W C)) : Prop :=
  match e.act with
  | .append w _ => e.pre.high = none → ∀ f ∈ e.pre.handed, f.sequence ≤ e.pre.storedMax w
  | .live _ => e.pre.high = none → e.pre.handed = []
  | .work w => ∀ f rest, e.pre.tasks w = .publish f :: rest →
      ∀ g ∈ e.pre.published, g.ordinal < f.ordinal
  | _ => True

/-! ### The invariant -/

/-- Numbers are taken in increasing order, and published in the order they were taken. -/
structure Sound (s : JobStream W C) : Prop where
  counted : ∀ f ∈ s.handed, f.ordinal ≤ s.handed.length
  increasing : ∀ f ∈ s.handed, ∀ g ∈ s.handed, g.ordinal < f.ordinal → g.sequence < f.sequence
  high : ∀ n, s.high = some n → ∀ f ∈ s.handed, f.sequence ≤ n
  staged : ∀ w, ∀ f ∈ s.staged w, f ∈ s.handed
  tasks : ∀ w f, .publish f ∈ s.tasks w → f ∈ s.handed
  published : ∀ f ∈ s.published, f ∈ s.handed
  inOrder : s.published.Pairwise fun f g => g.ordinal < f.ordinal
  delivered : ∀ c, (s.delivered c).Sublist s.published

variable {s : JobStream W C}

omit [DecidableEq W] [DecidableEq C] in
theorem Sound.take (hs : s.Sound) {n : ℕ} (terminal : Bool) (hn : ∀ f ∈ s.handed, f.sequence < n) :
    (s.take (s.frame n terminal)).Sound where
  counted := by
    intro f hf
    rcases List.mem_cons.1 hf with rfl | hf
    · exact le_rfl
    · exact Nat.le_succ_of_le (hs.counted f hf)
  increasing := by
    intro f hf g hg hlt
    rcases List.mem_cons.1 hf with rfl | hf <;> rcases List.mem_cons.1 hg with rfl | hg
    · exact absurd hlt (lt_irrefl _)
    · exact hn g hg
    · have hcounted := hs.counted f hf
      simp only [frame] at hlt
      omega
    · exact hs.increasing f hf g hg hlt
  high := by
    rintro _ ⟨⟩ f hf
    rcases List.mem_cons.1 hf with rfl | hf
    · exact le_rfl
    · exact (hn f hf).le
  staged := fun w f hf => List.mem_cons_of_mem _ (hs.staged w f hf)
  tasks := fun w f hf => List.mem_cons_of_mem _ (hs.tasks w f hf)
  published := fun f hf => List.mem_cons_of_mem _ (hs.published f hf)
  inOrder := hs.inOrder
  delivered := hs.delivered

omit [DecidableEq W] [DecidableEq C] in
/-- Publishing a frame taken after all published ones keeps the invariant. -/
theorem Sound.publish (hs : s.Sound) {f : Frame} (hf : f ∈ s.handed)
    (horder : ∀ g ∈ s.published, g.ordinal < f.ordinal) : (s.publish f).Sound where
  counted := hs.counted
  increasing := hs.increasing
  high := hs.high
  staged := hs.staged
  tasks := hs.tasks
  published := by
    intro g hg
    rcases List.mem_cons.1 hg with rfl | hg
    · exact hf
    · exact hs.published g hg
  inOrder := List.pairwise_cons.2 ⟨horder, hs.inOrder⟩
  delivered := by
    intro c
    simp only [JobStream.publish]
    split
    · exact (hs.delivered c).cons_cons f
    · exact (hs.delivered c).cons f

theorem mem_of_publish_mem_tasksOf {f g : Frame} (h : .publish f ∈ tasksOf g) : f = g := by
  unfold tasksOf at h
  split at h <;> simpa using h

omit [DecidableEq W] [DecidableEq C] in
theorem Sound.lt_nextSequence (hs : s.Sound) {w : W}
    (hfresh : s.high = none → ∀ f ∈ s.handed, f.sequence ≤ s.storedMax w) :
    ∀ f ∈ s.handed, f.sequence < s.nextSequence w := by
  intro f hf
  unfold nextSequence
  cases hhigh : s.high with
  | none =>
      have hle := hfresh hhigh f hf
      omega
  | some n =>
      have hle := hs.high n hhigh f hf
      simp only [Option.getD_some]
      omega

omit [DecidableEq W] [DecidableEq C] in
theorem Sound.lt_liveSequence (hs : s.Sound) (hfresh : s.high = none → s.handed = []) :
    ∀ f ∈ s.handed, f.sequence < s.liveSequence := by
  intro f hf
  unfold liveSequence
  cases hhigh : s.high with
  | none =>
      rw [hfresh hhigh] at hf
      cases hf
  | some n =>
      have hle := hs.high n hhigh f hf
      simp only [Option.getD_some]
      omega

theorem Sound.append (hs : s.Sound) {w : W} (terminal : Bool)
    (hfresh : s.high = none → ∀ f ∈ s.handed, f.sequence ≤ s.storedMax w) :
    (s.after (.append w terminal)).Sound := by
  obtain ⟨hcounted, hincreasing, hhigh, hstaged, htasks, hpublished, hinOrder, hdelivered⟩ :=
    hs.take terminal (hs.lt_nextSequence hfresh)
  refine ⟨hcounted, hincreasing, hhigh, ?_, htasks, hpublished, hinOrder, hdelivered⟩
  intro w' f hf
  simp only [after, Function.update_apply] at hf
  split at hf
  · rcases List.mem_append.1 hf with hf | hf
    · exact hstaged w f hf
    · rw [List.mem_singleton.1 hf]
      exact List.mem_cons_self
  · exact hstaged w' f hf

theorem Sound.commit (hs : s.Sound) (w : W) : (s.after (.commit w)).Sound := by
  refine ⟨hs.counted, hs.increasing, hs.high, ?_, ?_, hs.published, hs.inOrder, hs.delivered⟩
  · intro w' f hf
    simp only [after, Function.update_apply] at hf
    split at hf
    · cases hf
    · exact hs.staged w' f hf
  · intro w' f hf
    simp only [after, Function.update_apply] at hf
    split at hf
    · obtain ⟨g, hg, hf⟩ := List.mem_flatMap.1 hf
      rw [mem_of_publish_mem_tasksOf hf]
      exact hs.staged w g hg
    · exact hs.tasks w' f hf

theorem Sound.live (hs : s.Sound) (w : W) (hfresh : s.high = none → s.handed = []) :
    (s.after (.live w)).Sound := by
  obtain ⟨hcounted, hincreasing, hhigh, hstaged, htasks, hpublished, hinOrder, hdelivered⟩ :=
    hs.take false (hs.lt_liveSequence hfresh)
  refine ⟨hcounted, hincreasing, hhigh, hstaged, ?_, hpublished, hinOrder, hdelivered⟩
  intro w' f hf
  simp only [after, Function.update_apply] at hf
  split at hf
  · rw [StreamTask.publish.inj (List.mem_singleton.1 hf)]
    exact List.mem_cons_self
  · exact htasks w' f hf

theorem Sound.work (hs : s.Sound) {w : W}
    (hnext : ∀ f rest, s.tasks w = .publish f :: rest →
      ∀ g ∈ s.published, g.ordinal < f.ordinal) :
    (s.after (.work w)).Sound := by
  have hrest : ∀ task rest, s.tasks w = task :: rest → ∀ w' f,
      .publish f ∈ Function.update s.tasks w rest w' → f ∈ s.handed := by
    intro task rest htask w' f hf
    rw [Function.update_apply] at hf
    split at hf
    · refine hs.tasks w f ?_
      rw [htask]
      exact List.mem_cons_of_mem _ hf
    · exact hs.tasks w' f hf
  cases htask : s.tasks w with
  | nil =>
      rw [after, htask]
      exact hs
  | cons task rest =>
      cases task with
      | publish f =>
          have hf : f ∈ s.handed := hs.tasks w f (by rw [htask]; exact List.mem_cons_self)
          obtain ⟨hcounted, hincreasing, hhigh, hstaged, -, hpublished, hinOrder, hdelivered⟩ :=
            hs.publish hf (hnext f rest htask)
          rw [after, htask]
          exact ⟨hcounted, hincreasing, hhigh, hstaged, hrest _ _ htask, hpublished, hinOrder,
            hdelivered⟩
      | forget =>
          rw [after, htask]
          exact ⟨hs.counted, hs.increasing, by simp, hs.staged, hrest _ _ htask, hs.published,
            hs.inOrder, hs.delivered⟩

theorem Sound.step (hs : s.Sound) {a : StreamAct W C} (horderly : Orderly ⟨s, a, s.after a⟩) :
    (s.after a).Sound := by
  cases a with
  | append w terminal => exact hs.append terminal horderly
  | commit w => exact hs.commit w
  | rollback w =>
      refine ⟨hs.counted, hs.increasing, hs.high, ?_, hs.tasks, hs.published, hs.inOrder,
        hs.delivered⟩
      intro w' f hf
      simp only [after, Function.update_apply] at hf
      split at hf
      · cases hf
      · exact hs.staged w' f hf
  | live w => exact hs.live w horderly
  | work w => exact hs.work horderly
  | subscribe c =>
      refine ⟨hs.counted, hs.increasing, hs.high, hs.staged, hs.tasks, hs.published, hs.inOrder, ?_⟩
      intro c'
      simp only [after, Function.update_apply]
      split
      · exact List.nil_sublist _
      · exact hs.delivered c'
  | foreign =>
      exact ⟨hs.counted, hs.increasing, hs.high, hs.staged, hs.tasks, hs.published, hs.inOrder,
        hs.delivered⟩

omit [DecidableEq W] [DecidableEq C] in
theorem sound_start (stored : List ℕ) : Sound ({ stored } : JobStream W C) := by
  constructor <;> simp

omit [DecidableEq W] [DecidableEq C] in
theorem Sound.increasing_published (hs : s.Sound) : Increasing s.published := by
  refine hs.inOrder.imp_of_mem ?_
  intro f g hf hg hlt
  exact hs.increasing f (hs.published f hf) g (hs.published g hg) hlt

/-! ### The main result -/

/-- **The numbers a subscriber sees increase**, in every run in which frames are published in the
order their numbers were taken and no number is taken from a forgotten counter. -/
theorem delivered_increasing {stored : List ℕ} {h : List (Step (JobStream W C) (StreamAct W C))}
    (hrun : Run (system W C stored) h s) (horderly : ∀ e ∈ h, Orderly e) (c : C) :
    Increasing (s.delivered c) := by
  have hsound : s.Sound := by
    refine hrun.invariant_of_steps (C := Orderly) ?_ ?_ horderly
    · rintro _ rfl
      exact sound_start stored
    · rintro ⟨s, a, s'⟩ ⟨-, hpost⟩ horder hs
      obtain rfl : s' = s.after a := hpost
      exact hs.step horder
  exact hsound.increasing_published.sublist (hsound.delivered c)

/-! ### A late token -/

/-- A worker's event, a token, and the terminal event. -/
def orderlyStream : List (StreamAct ℕ ℕ) :=
  [.subscribe 0, .append 1 false, .commit 1, .work 1, .live 1, .work 1, .append 1 true, .commit 1,
   .work 1, .work 1]

theorem orderlyStream_run : Run (system ℕ ℕ []) (trace after { stored := [] } orderlyStream)
    (orderlyStream.foldl after { stored := [] }) :=
  .replay (by simp [orderlyStream, Admissible, Enabled, after, take, publish, frame, tasksOf,
    nextSequence, storedMax, maxSequence, liveSequence])

/-- The increase along that run. -/
theorem delivered_increasing_orderly :
    Increasing ((orderlyStream.foldl after { stored := [] } : JobStream ℕ ℕ).delivered 0) :=
  delivered_increasing orderlyStream_run
    (forall_mem_trace (by
      simp [orderlyStream, Admissible, Orderly, after, take, publish, frame, tasksOf])) 0

/-- The watchdog ends the job, and its provider call answers another token. -/
def lateToken : List (StreamAct ℕ ℕ) :=
  [.subscribe 0, .append 2 true, .commit 2, .work 2, .work 2, .live 1, .work 1]

theorem lateToken_run : Run (system ℕ ℕ []) (trace after { stored := [] } lateToken)
    (lateToken.foldl after { stored := [] }) :=
  .replay (by simp [lateToken, Admissible, Enabled, after, take, publish, frame, tasksOf])

/-- The late token has the number of the terminal event. -/
theorem lateToken_repeats : ¬ ∀ h (s : JobStream ℕ ℕ), Run (system ℕ ℕ []) h s →
    ∀ c, Increasing (s.delivered c) := by
  intro hclaim
  have hincreasing := hclaim _ _ lateToken_run 0
  have hdelivered : (lateToken.foldl after { stored := [] } : JobStream ℕ ℕ).delivered 0 =
      [⟨1, 2, false⟩, ⟨1, 1, true⟩] := rfl
  rw [hdelivered] at hincreasing
  simp [Increasing] at hincreasing

end JobStream

end LoadCoach

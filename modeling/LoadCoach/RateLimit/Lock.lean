import LoadCoach.RateLimit.Bound

/-! # The middleware's lock and the event loop

`RateLimitMiddleware` guards its buckets with a lock of the thread, and all requests are coroutines
of one thread: where one waits for the lock, nothing runs any more.  A coroutine gives the thread
away at its awaits only.  An admitted request has left the lock by then, and `send_wrapper` leaves it
before it sends; but `_reject` is awaited inside `with self._lock`, and so is every `send` of the
refusal.

`deadlock_iff`: the loop stands still in a run exactly when some coroutine comes to the lock while a
refusal is being sent. -/

namespace LoadCoach.RateLimit

open Foundations

/-! ### Coroutines -/

/-- Where a request is in `__call__`. -/
inductive Point where
  /-- It has not run yet. -/
  | arrived (scope : Scope)
  /-- In `_reject`, with the lock: so many messages of the answer are still to be sent. -/
  | rejecting (left : ℕ)
  /-- In `self.app`, or in a `send` of it. -/
  | serving
  | ended

/-- A task of the loop, by its number. -/
abbrev TaskId := ℕ

/-- The event loop of the server. -/
structure Loop where
  limiter : Limiter := {}
  tasks : Table TaskId Point := ∅
  /-- The coroutine that runs; the loop picks the next one when it gives the thread away. -/
  current : Option TaskId := none
  /-- The coroutine inside `with self._lock`. -/
  lock : Option TaskId := none
  /-- The coroutine whose `self._lock.acquire()` does not return. -/
  blocked : Option TaskId := none

/-- What happens in the loop. -/
inductive LoopAct where
  /-- The server makes a task for a request. -/
  | arrive (task : TaskId) (scope : Scope)
  /-- The loop runs a task. -/
  | resume (task : TaskId)
  /-- A request runs up to its verdict. -/
  | enter (task : TaskId) (clock : Readings)
  /-- A message of a refusal is sent; the server's `send` may suspend. -/
  | sendRefusal (task : TaskId) (suspends : Bool)
  /-- The refusal is sent. -/
  | leave (task : TaskId)
  /-- `send_wrapper` sees a `401` for an address. -/
  | note (task : TaskId) (address : Option String) (clock : Readings)
  /-- The application, or its `send`, suspends. -/
  | suspend (task : TaskId)
  /-- The application has answered. -/
  | finish (task : TaskId)

/-- The task an action is of, if it is the one that runs. -/
def LoopAct.runner : LoopAct → Option TaskId
  | arrive _ _ => none
  | resume _ => none
  | enter task _ => some task
  | sendRefusal task _ => some task
  | leave task => some task
  | note task _ _ => some task
  | suspend task => some task
  | finish task => some task

/-- What an action asks of its task. -/
def LoopAct.possible : LoopAct → Option Point → Bool
  | arrive _ _, none => true
  | resume _, some .ended => false
  | resume _, some _ => true
  | enter _ _, some (.arrived _) => true
  | sendRefusal _ _, some (.rejecting (_ + 1)) => true
  | leave _, some (.rejecting 0) => true
  | note _ _ _, some .serving => true
  | suspend _, some .serving => true
  | finish _, some .serving => true
  | _, _ => false

/-- The task an action is about. -/
def LoopAct.task : LoopAct → TaskId
  | arrive task _ => task
  | resume task => task
  | enter task _ => task
  | sendRefusal task _ => task
  | leave task => task
  | note task _ _ => task
  | suspend task => task
  | finish task => task

/-- What can happen: nothing while the thread is blocked; else what the task that runs does, or what
the loop does when none runs. -/
def Loop.Enabled (loop : Loop) (act : LoopAct) : Prop :=
  loop.blocked = none ∧ loop.current = act.runner ∧
    act.possible (loop.tasks.lookup act.task) = true

instance (loop : Loop) (act : LoopAct) : Decidable (loop.Enabled act) :=
  inferInstanceAs (Decidable (_ ∧ _ ∧ _))

section Steps

variable (sha256 : String → String) (limits : Limits)

/-- The loop with a task at another point. -/
def Loop.move (loop : Loop) (task : TaskId) (point : Point) : Loop :=
  { loop with tasks := loop.tasks.insert task point }

/-- How many messages an answer of `JSONResponse` has. -/
abbrev answerMessages : ℕ := 2

/-- A request from its start: outside the API it is passed on, and else it takes the lock.  What is
admitted leaves the lock, what is refused keeps it. -/
def Loop.enter (loop : Loop) (task : TaskId) (scope : Scope) (clock : Readings) : Loop :=
  if scope.isLimited then
    if loop.lock.isSome then { loop with blocked := some task }
    else
      let (limiter, verdict) := loop.limiter.call sha256 limits scope clock
      match verdict with
      | .admitted => { loop.move task .serving with limiter }
      | .rejected _ _ =>
          { loop.move task (.rejecting answerMessages) with limiter, lock := some task }
  else loop.move task .serving

/-- `send_wrapper` at a `401`: it takes the lock and leaves it again. -/
def Loop.note (loop : Loop) (task : TaskId) (address : Option String) (clock : Readings) : Loop :=
  if limits.failedLimit = 0 ∨ address = none then loop
  else if loop.lock.isSome then { loop with blocked := some task }
  else { loop with limiter := loop.limiter.unauthorized limits address clock }

/-- The loop after an action. -/
def Loop.after (loop : Loop) : LoopAct → Loop
  | .arrive task scope => loop.move task (.arrived scope)
  | .resume task => { loop with current := some task }
  | .enter task clock =>
      match loop.tasks.lookup task with
      | some (.arrived scope) => loop.enter sha256 limits task scope clock
      | _ => loop
  | .sendRefusal task suspends =>
      match loop.tasks.lookup task with
      | some (.rejecting (left + 1)) =>
          { loop.move task (.rejecting left) with
            current := if suspends then none else loop.current }
      | _ => loop
  | .leave task => { loop.move task .ended with lock := none, current := none }
  | .note task address clock => loop.note limits task address clock
  | .suspend _ => { loop with current := none }
  | .finish task => { loop.move task .ended with current := none }

/-- The loop, from when the server starts. -/
def loopSystem : System Loop LoopAct := System.guarded Loop.Enabled (Loop.after sha256 limits) {}

end Steps

/-! ### Deadlocks -/

/-- **A deadlock**: a coroutine waits for the lock, and the one that has it is suspended. -/
def Loop.Deadlocked (loop : Loop) : Prop :=
  ∃ task holder, loop.blocked = some task ∧ loop.lock = some holder ∧ loop.current ≠ some holder

/-- A refusal is being sent. -/
def Loop.Rejecting (loop : Loop) : Prop :=
  ∃ task left, loop.tasks.lookup task = some (.rejecting left)

/-- Actions that take the lock. -/
def Loop.takesLock (limits : Limits) (loop : Loop) : LoopAct → Bool
  | .enter task _ =>
      match loop.tasks.lookup task with
      | some (.arrived scope) => scope.isLimited
      | _ => false
  | .note _ address _ => limits.failedLimit ≠ 0 && address.isSome
  | _ => false

/-- The lock is held by the coroutine whose refusal is being sent, and by no other. -/
structure Loop.InOrder (loop : Loop) : Prop where
  holder : ∀ task, loop.lock = some task ↔
    ∃ left, loop.tasks.lookup task = some (.rejecting left)
  blocked : ∀ task, loop.blocked = some task →
    loop.current = some task ∧ ∃ holder, loop.lock = some holder ∧ holder ≠ task

section Invariant

variable {sha256 : String → String} {limits : Limits} {loop : Loop} {act : LoopAct}
  {task task' : TaskId} {point : Point} {scope : Scope} {clock : Readings}

/-- A point of a coroutine that has the lock. -/
def Point.holds : Point → Bool
  | .rejecting _ => true
  | _ => false

theorem Point.holds_iff : point.holds = true ↔ ∃ left, point = .rejecting left := by
  cases point <;> simp [Point.holds]

theorem Loop.lookup_move :
    (loop.move task point).tasks.lookup task' =
      if task' = task then some point else loop.tasks.lookup task' := by
  by_cases h : task' = task
  · rw [if_pos h, h]
    exact AList.lookup_insert _
  · rw [if_neg h]
    exact AList.lookup_insert_ne h

variable (loop task task' point) in
theorem Loop.rejecting_move_iff :
    (∃ left, (loop.move task point).tasks.lookup task' = some (.rejecting left)) ↔
      if task' = task then point.holds = true
      else ∃ left, loop.tasks.lookup task' = some (.rejecting left) := by
  rw [Loop.lookup_move]
  split
  · rw [Point.holds_iff]
    simp
  · rfl

theorem LoopAct.possible_iff {task : TaskId} {point : Option Point} :
    ((LoopAct.finish task).possible point = true ↔ point = some .serving) ∧
      (∀ address clock, (LoopAct.note task address clock).possible point = true ↔
        point = some .serving) ∧
      ((LoopAct.leave task).possible point = true ↔ point = some (.rejecting 0)) := by
  rcases point with _ | _ | (_ | _) | _ | _ <;> simp [LoopAct.possible]

theorem Loop.InOrder.move (h : loop.InOrder)
    (hkept : point.holds = true ↔ ∃ left, loop.tasks.lookup task = some (.rejecting left)) :
    ∀ task', loop.lock = some task' ↔
      ∃ left, (loop.move task point).tasks.lookup task' = some (.rejecting left) := by
  intro task'
  rw [h.holder, Loop.rejecting_move_iff]
  split
  · rename_i htask
    rw [htask, hkept]
  · rfl

theorem Loop.InOrder.block (h : loop.InOrder) (hcurrent : loop.current = some task)
    (hpoint : loop.tasks.lookup task = some point) (hfree : point.holds = false)
    (hheld : loop.lock.isSome = true) : ({ loop with blocked := some task } : Loop).InOrder where
  holder := h.holder
  blocked := by
    rintro _ ⟨⟩
    obtain ⟨holder, hholder⟩ := Option.isSome_iff_exists.1 hheld
    refine ⟨hcurrent, holder, hholder, ?_⟩
    rintro rfl
    obtain ⟨left, hleft⟩ := (h.holder holder).1 hholder
    rw [hpoint, Option.some.injEq] at hleft
    rw [hleft] at hfree
    cases hfree

theorem Loop.InOrder.enter (h : loop.InOrder) (hcurrent : loop.current = some task)
    (hblocked : loop.blocked = none) (hpoint : loop.tasks.lookup task = some (.arrived scope)) :
    (loop.enter sha256 limits task scope clock).InOrder := by
  have hmove := @Loop.InOrder.move loop task .serving h (by simp [Point.holds, hpoint])
  rw [Loop.enter]
  split
  · split
    · rename_i hheld
      exact h.block hcurrent hpoint rfl hheld
    · rename_i hfree
      generalize loop.limiter.call sha256 limits scope clock = result
      obtain ⟨limiter, verdict⟩ := result
      cases verdict with
      | admitted => exact ⟨hmove, fun task hblock => by simp [Loop.move, hblocked] at hblock⟩
      | rejected wait reason =>
          refine ⟨fun task' => ?_, fun task hblock => by simp [Loop.move, hblocked] at hblock⟩
          have hholder : some task = some task' ↔ ∃ left, (loop.move task
              (.rejecting answerMessages)).tasks.lookup task' = some (.rejecting left) := by
            rw [Loop.rejecting_move_iff]
            split
            · rename_i htask
              simp [htask, Point.holds]
            · rename_i htask
              refine iff_of_false (fun hsome => htask (Option.some.inj hsome).symm) fun hheld => ?_
              rw [← h.holder] at hheld
              simp [hheld] at hfree
          exact hholder
  · exact ⟨hmove, fun task hblock => by simp [Loop.move, hblocked] at hblock⟩

theorem Loop.InOrder.after (h : loop.InOrder) (henabled : loop.Enabled act) :
    (loop.after sha256 limits act).InOrder := by
  obtain ⟨hblocked, hcurrent, hpossible⟩ := henabled
  have hfree : ∀ {loop' : Loop}, loop'.blocked = loop.blocked →
      (∀ task, loop'.lock = some task ↔
        ∃ left, loop'.tasks.lookup task = some (.rejecting left)) → loop'.InOrder :=
    fun hsame hholder => ⟨hholder, fun task hblock => by simp [hsame, hblocked] at hblock⟩
  cases act with
  | arrive task scope =>
      cases hpoint : loop.tasks.lookup task with
      | none => exact hfree rfl (h.move (by simp [Point.holds, hpoint]))
      | some point => simp [LoopAct.possible, LoopAct.task, hpoint] at hpossible
  | resume task => exact hfree rfl h.holder
  | enter task clock =>
      change (match loop.tasks.lookup task with
        | some (.arrived scope) => loop.enter sha256 limits task scope clock
        | _ => loop).InOrder
      split
      · rename_i scope hpoint
        exact h.enter hcurrent hblocked hpoint
      · exact h
  | sendRefusal task suspends =>
      change (match loop.tasks.lookup task with
        | some (.rejecting (left + 1)) =>
            { loop.move task (.rejecting left) with
              current := if suspends then none else loop.current }
        | _ => loop).InOrder
      split
      · rename_i left hpoint
        exact hfree rfl (h.move (by simp [Point.holds, hpoint]))
      · exact h
  | leave task =>
      refine hfree rfl fun task' => ?_
      refine Iff.trans ?_ (Loop.rejecting_move_iff loop _ task' _).symm
      have hholder : loop.lock = some task :=
        (h.holder task).2 ⟨0, LoopAct.possible_iff.2.2.1 hpossible⟩
      refine iff_of_false nofun ?_
      split
      · exact nofun
      · rename_i htask
        rw [← h.holder, hholder]
        exact fun hsome => htask (Option.some.inj hsome).symm
  | note task address clock =>
      change (loop.note limits task address clock).InOrder
      rw [Loop.note]
      split
      · exact h
      · split
        · rename_i hheld
          have hpoint := (LoopAct.possible_iff.2.1 _ _).1 hpossible
          exact h.block hcurrent hpoint rfl hheld
        · exact hfree rfl h.holder
  | suspend task => exact hfree rfl h.holder
  | finish task =>
      have hpoint := LoopAct.possible_iff.1.1 hpossible
      rw [LoopAct.task] at hpoint
      exact hfree rfl (h.move (by simp [Point.holds, hpoint]))

theorem Loop.InOrder.isSome_lock_iff (h : loop.InOrder) :
    loop.lock.isSome = true ↔ loop.Rejecting := by
  rw [Option.isSome_iff_exists]
  exact exists_congr h.holder

/-- **The thread blocks** where the lock is taken while a refusal is being sent. -/
theorem Loop.InOrder.blocked_after_iff (h : loop.InOrder) (henabled : loop.Enabled act) :
    (loop.after sha256 limits act).blocked ≠ none ↔
      loop.takesLock limits act = true ∧ loop.Rejecting := by
  obtain ⟨hblocked, -, -⟩ := henabled
  rw [← h.isSome_lock_iff]
  cases act with
  | arrive task scope => simp [Loop.after, Loop.takesLock, Loop.move, hblocked]
  | resume task => simp [Loop.after, Loop.takesLock, hblocked]
  | enter task clock =>
      rw [Loop.after, Loop.takesLock]
      split
      · rename_i scope hpoint
        rw [Loop.enter]
        by_cases hlimited : scope.isLimited = true
        · by_cases hheld : loop.lock.isSome = true
          · simp [hlimited, hheld]
          · rw [if_pos hlimited, if_neg hheld]
            generalize loop.limiter.call sha256 limits scope clock = result
            obtain ⟨limiter, verdict⟩ := result
            cases verdict <;> simp [Loop.move, hblocked, hheld]
        · simp [hlimited, Loop.move, hblocked]
      · rename_i hpoint
        simp [hblocked]
  | sendRefusal task suspends =>
      have hfree : loop.takesLock limits (.sendRefusal task suspends) = false := rfl
      rw [Loop.after, hfree]
      split <;> simp [Loop.move, hblocked]
  | leave task => simp [Loop.after, Loop.takesLock, Loop.move, hblocked]
  | note task address clock =>
      rw [Loop.after, Loop.takesLock, Loop.note]
      by_cases hoff : limits.failedLimit = 0 ∨ address = none
      · rw [if_pos hoff]
        rcases hoff with hoff | rfl
        · simp [hoff, hblocked]
        · simp [hblocked]
      · rw [not_or] at hoff
        by_cases hheld : loop.lock.isSome = true
        · simp [hoff, hheld, Option.isSome_iff_ne_none]
        · simp [hoff, hheld, hblocked]
  | suspend task => simp [Loop.after, Loop.takesLock, hblocked]
  | finish task => simp [Loop.after, Loop.takesLock, Loop.move, hblocked]

theorem Loop.InOrder.deadlocked_iff (h : loop.InOrder) :
    loop.Deadlocked ↔ loop.blocked ≠ none := by
  constructor
  · rintro ⟨task, _, hblocked, -⟩
    rw [hblocked]
    exact nofun
  · intro hblocked
    obtain ⟨task, htask⟩ := Option.ne_none_iff_exists'.1 hblocked
    obtain ⟨hcurrent, holder, hholder, hne⟩ := h.blocked task htask
    refine ⟨task, holder, htask, hholder, ?_⟩
    rw [hcurrent]
    exact fun hsame => hne (Option.some.inj hsame).symm

end Invariant

/-! ### Runs of the loop -/

section Runs

variable {sha256 : String → String} {limits : Limits} {h : List (Step Loop LoopAct)} {loop : Loop}

theorem inOrder_of_run (hrun : Run (loopSystem sha256 limits) h loop) : loop.InOrder := by
  refine hrun.invariant ?_ fun loop act loop' hnext hpre => ?_
  · rintro _ rfl
    refine ⟨fun task => iff_of_false nofun ?_, nofun⟩
    rintro ⟨left, hleft⟩
    cases hleft
  · rw [hnext.2]
    exact hpre.after hnext.1

/-- **No deadlock is reached** in a run exactly when no coroutine comes to the lock while a refusal
is being sent. -/
theorem deadlock_iff (hrun : Run (loopSystem sha256 limits) h loop) :
    (∀ e ∈ h, ¬ e.post.Deadlocked) ↔
      ∀ e ∈ h, e.pre.takesLock limits e.act = true → ¬ e.pre.Rejecting := by
  refine forall₂_congr fun e he => ?_
  obtain ⟨_, hpast, henabled, hpost⟩ := hrun.past_of_mem he
  have hpre := inOrder_of_run hpast
  have hafter : e.post.InOrder := hpost ▸ hpre.after henabled
  rw [hafter.deadlocked_iff, hpost, hpre.blocked_after_iff henabled, not_and]

/-- Two requests of one address, where the second is refused, and a third that comes while `send`
is suspended. -/
def refusedActs : List LoopAct :=
  [.arrive 0 (knock "127.0.0.1"), .resume 0, .enter 0 { now := 0 }, .finish 0,
    .arrive 1 (knock "127.0.0.1"), .resume 1, .enter 1 { now := 0 }, .sendRefusal 1 true,
    .arrive 2 (knock "192.0.2.7"), .resume 2, .enter 2 { now := 0 }]

/-- The third request blocks the thread for good. -/
theorem refusal_deadlocks :
    ∃ h loop, Run (loopSystem id oneAMinute) h loop ∧ loop.Deadlocked := by
  have hadmissible : Admissible Loop.Enabled (Loop.after id oneAMinute) {} refusedActs := by
    decide +kernel
  refine ⟨_, _, Run.replay hadmissible, 2, 1, ?_, ?_, ?_⟩
  · decide +kernel
  · decide +kernel
  · decide +kernel

/-- Failed authentications count as well. -/
def counting401 : Limits := { oneAMinute with failedLimit := 10 }

/-- Three requests at once: while the first is served the second is refused, by a `send` that does not
suspend; the third is admitted after it, and the first is answered with a `401` while the third is
served. -/
def servedActs : List LoopAct :=
  [.arrive 0 (knock "127.0.0.1"), .resume 0, .enter 0 { now := 0 }, .suspend 0,
    .arrive 1 (knock "127.0.0.1"), .arrive 2 (knock "192.0.2.7"), .resume 1, .enter 1 { now := 0 },
    .sendRefusal 1 false, .sendRefusal 1 false, .leave 1, .resume 2, .enter 2 { now := 0 },
    .suspend 2, .resume 0, .note 0 (some "127.0.0.1") { now := 0 }, .finish 0, .resume 2, .finish 2]

/-- The lock is taken four times, and each time it is free. -/
theorem deadlock_iff_served : ∃ h loop, Run (loopSystem id counting401) h loop ∧
    h.countP (fun e => e.pre.takesLock counting401 e.act) = 4 ∧
    h.countP (fun e => e.pre.lock.isSome) = 3 ∧ ∀ e ∈ h, ¬ e.post.Deadlocked := by
  have hadmissible : Admissible Loop.Enabled (Loop.after id counting401) {} servedActs := by
    decide +kernel
  have hrun : Run (loopSystem id counting401) _ _ := Run.replay hadmissible
  refine ⟨_, _, hrun, ?_, ?_, (deadlock_iff hrun).2 fun e he htakes => ?_⟩
  · decide +kernel
  · decide +kernel
  · have hfree : ∀ e ∈ trace (Loop.after id counting401) {} servedActs,
        e.pre.takesLock counting401 e.act = true → e.pre.lock.isSome = false := by
      decide +kernel
    obtain ⟨_, hpast, -⟩ := hrun.past_of_mem he
    rw [← (inOrder_of_run hpast).isSome_lock_iff, hfree e he htakes]
    exact nofun

end Runs

end LoadCoach.RateLimit

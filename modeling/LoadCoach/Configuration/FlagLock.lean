import LoadCoach.Configuration.Runtime
import LoadCoach.Foundations.Transition

/-! # The flags under their lock

`QueueFlags` of `services/worker.py` has two writers in a process, an operator's request and the
scheduler's refresh.  Both hold the lock from their first statement to their last, each statement is
a step of its own, and one that raises gives the lock back.  The stored flags are also written
without the lock: by other processes, and in this one by a write of the runtime settings.

The process begins with both flags false, whatever is stored.  Once a refresh has read the table,
and as long as nobody changes a stored flag without the lock after that, the copy is the stored
flags whenever the lock is free, whatever raised in between (`flags_coherent`).  With such writes the
copy may be behind.  It catches up with the first assignment, and then stays, once nobody holds a
value from before the flag last changed (`flag_settles`): so after a drain no worker claims until
somebody ends the drain. -/

namespace LoadCoach.Configuration

open Foundations
open Foundations.Json

/-! ### The two flags -/

/-- `QUEUE_FLAG_KEYS`. -/
inductive QueueFlag where
  | paused
  | draining
deriving DecidableEq, Repr

def QueueFlag.key : QueueFlag → String
  | .paused => "queue.paused"
  | .draining => "queue.draining"

namespace QueueFlags

def get (flags : QueueFlags) : QueueFlag → Bool
  | .paused => flags.paused
  | .draining => flags.draining

def set (flags : QueueFlags) (flag : QueueFlag) (value : Bool) : QueueFlags :=
  match flag with
  | .paused => { flags with paused := value }
  | .draining => { flags with draining := value }

/-- Whether workers may take new work. -/
def claiming (flags : QueueFlags) : Bool := !(flags.paused || flags.draining)

variable {flags : QueueFlags} {flag other : QueueFlag} {value : Bool}

@[simp] theorem get_set_self : (flags.set flag value).get flag = value := by
  cases flag <;> rfl

theorem get_set_ne (h : other ≠ flag) : (flags.set flag value).get other = flags.get other := by
  cases flag <;> cases other <;> first | rfl | exact absurd rfl h

@[simp] theorem get_refresh (stored : SettingTable) (flag : QueueFlag) :
    (refresh stored).get flag = queueFlag stored flag.key := by
  cases flag <;> rfl

end QueueFlags

theorem QueueFlag.key_injective {flag other : QueueFlag} (h : flag.key = other.key) :
    flag = other := by
  cases flag <;> cases other <;> first | rfl | exact absurd h (by decide)

@[simp] theorem queueFlag_insert_self (stored : SettingTable) (flag : QueueFlag) (value : Bool) :
    queueFlag (stored.insert flag.key (.bool value)) flag.key = value := by
  rw [queueFlag, AList.lookup_insert]
  cases value <;> rfl

theorem queueFlag_insert_ne {stored : SettingTable} {flag other : QueueFlag} {value : Bool}
    (h : other ≠ flag) :
    queueFlag (stored.insert flag.key (.bool value)) other.key = queueFlag stored other.key := by
  rw [queueFlag, queueFlag, AList.lookup_insert_ne fun hkey => h (QueueFlag.key_injective hkey)]

/-! ### The writers -/

/-- What takes the lock. -/
inductive FlagCall where
  /-- An operator's `update`. -/
  | update (paused draining : Option Bool)
  | refresh

/-- What the holder of the lock does next, and what is left after it. -/
inductive FlagTask where
  | store (todo : List (QueueFlag × Bool))
  /-- A flag is stored, and not yet assigned. -/
  | assign (flag : QueueFlag) (value : Bool) (todo : List (QueueFlag × Bool))
  | read
  /-- Values that were read, to be assigned. -/
  | copy (values : List (QueueFlag × Bool))

/-- The first statement of a call. -/
def FlagCall.begin : FlagCall → FlagTask
  | .update paused draining =>
      .store ((paused.map (Prod.mk .paused)).toList ++ (draining.map (Prod.mk .draining)).toList)
  | .refresh => .read

/-- The stored flags, the copy of the process, and who holds its lock, of the threads `W`. -/
structure FlagState (W : Type) where
  stored : SettingTable := ∅
  flags : QueueFlags := {}
  holder : Option (W × FlagTask) := none

/-- What happens next. -/
inductive FlagAct (W : Type) where
  | acquire (w : W) (call : FlagCall)
  /-- The holder's next statement, or the release after the last. -/
  | work
  /-- The statement raises. -/
  | raise
  /-- The table is written without the lock, by another process or by a write of the settings. -/
  | unlocked (stored : SettingTable)

namespace FlagState

variable {W : Type}

/-- The holder's next statement. -/
def work (s : FlagState W) (w : W) : FlagTask → FlagState W
  | .store [] | .copy [] => { s with holder := none }
  | .store ((flag, value) :: todo) =>
      { s with
        stored := s.stored.insert flag.key (.bool value)
        holder := some (w, .assign flag value todo) }
  | .assign flag value todo =>
      { s with flags := s.flags.set flag value, holder := some (w, .store todo) }
  | .read =>
      let flags := QueueFlags.refresh s.stored
      { s with
        holder := some (w, .copy [(.paused, flags.paused), (.draining, flags.draining)]) }
  | .copy ((flag, value) :: values) =>
      { s with flags := s.flags.set flag value, holder := some (w, .copy values) }

def after (s : FlagState W) : FlagAct W → FlagState W
  | .acquire w call => { s with holder := some (w, call.begin) }
  | .work =>
      match s.holder with
      | some (w, task) => s.work w task
      | none => s
  | .raise => { s with holder := none }
  | .unlocked stored => { s with stored }

/-- The lock is taken when it is free; what may raise is the authorization and the database. -/
def Enabled (s : FlagState W) : FlagAct W → Prop
  | .acquire .. => s.holder = none
  | .work => s.holder.isSome = true
  | .raise => ∃ w todo, s.holder = some (w, .store todo) ∨ s.holder = some (w, .read)
  | .unlocked _ => True

/-- A process begins with the flags of `QueueFlags()`, over what is stored. -/
def system (W : Type) (stored : SettingTable) : System (FlagState W) (FlagAct W) :=
  .guarded Enabled after { stored }

/-! ### Coherence -/

/-- A flag of the copy is the stored one. -/
def Coherent (s : FlagState W) (flag : QueueFlag) : Prop :=
  s.flags.get flag = queueFlag s.stored flag.key

/-- A flag of the copy is the stored one, or the holder of the lock is about to make it so. -/
def Invariant (s : FlagState W) : Prop :=
  match s.holder with
  | some (_, .assign flag value _) =>
      queueFlag s.stored flag.key = value ∧ ∀ other, other ≠ flag → s.Coherent other
  | some (_, .copy values) =>
      (∀ e ∈ values, queueFlag s.stored e.1.key = e.2) ∧
        ∀ flag, (∀ e ∈ values, e.1 ≠ flag) → s.Coherent flag
  | _ => ∀ flag, s.Coherent flag

/-- The step reads both flags, for a refresh. -/
def Reads (e : Step (FlagState W) (FlagAct W)) : Prop :=
  e.act = .work ∧ ∃ w, e.pre.holder = some (w, .read)

/-- A write without the lock leaves both flags what they are. -/
def KeepsFlags (e : Step (FlagState W) (FlagAct W)) : Prop :=
  ∀ stored, e.act = .unlocked stored → ∀ flag : QueueFlag,
    queueFlag stored flag.key = queueFlag e.pre.stored flag.key

variable {s : FlagState W} {h h₁ h₂ : List (Step (FlagState W) (FlagAct W))}
  {e : Step (FlagState W) (FlagAct W)} {stored : SettingTable}

theorem invariant_of_read (s : FlagState W) (w : W) : (s.work w .read).Invariant := by
  refine ⟨fun e he => ?_, fun flag hflag => ?_⟩
  · simp only [List.mem_cons, List.not_mem_nil, or_false] at he
    rcases he with rfl | rfl
    · exact (QueueFlags.get_refresh s.stored .paused).symm
    · exact (QueueFlags.get_refresh s.stored .draining).symm
  · cases flag with
    | paused => exact absurd rfl (hflag _ List.mem_cons_self)
    | draining => exact absurd rfl (hflag _ (List.mem_cons_of_mem _ List.mem_cons_self))

theorem Invariant.work (hs : s.Invariant) {w : W} {task : FlagTask}
    (hholder : s.holder = some (w, task)) : (s.work w task).Invariant := by
  rw [Invariant, hholder] at hs
  cases task with
  | store todo =>
      cases todo with
      | nil => exact hs
      | cons e todo =>
          obtain ⟨flag, value⟩ := e
          refine ⟨queueFlag_insert_self s.stored flag value, fun other hother => ?_⟩
          exact (hs other).trans (queueFlag_insert_ne hother).symm
  | assign flag value todo =>
      obtain ⟨hstored, hothers⟩ := hs
      intro other
      by_cases hother : other = flag
      · subst hother
        exact QueueFlags.get_set_self.trans hstored.symm
      · exact (QueueFlags.get_set_ne hother).trans (hothers other hother)
  | read => exact invariant_of_read s w
  | copy values =>
      cases values with
      | nil => exact fun flag => hs.2 flag (by simp)
      | cons e values =>
          obtain ⟨hvalues, hrest⟩ := hs
          refine ⟨fun e' he' => hvalues e' (List.mem_cons_of_mem _ he'), fun other hother => ?_⟩
          by_cases hfirst : other = e.1
          · subst hfirst
            exact QueueFlags.get_set_self.trans (hvalues e List.mem_cons_self).symm
          · have hnone : ∀ e' ∈ e :: values, e'.1 ≠ other :=
              List.forall_mem_cons.2 ⟨Ne.symm hfirst, hother⟩
            exact (QueueFlags.get_set_ne hfirst).trans (hrest other hnone)

theorem Invariant.step (hnext : (system W stored).next e.pre e.act e.post) (hkeeps : KeepsFlags e)
    (hpre : e.pre.Invariant) : e.post.Invariant := by
  obtain ⟨pre, action, post⟩ := e
  obtain ⟨henabled, hpost⟩ := hnext
  dsimp only at henabled hpost hpre ⊢
  subst hpost
  cases action with
  | acquire w call =>
      rw [Invariant, show pre.holder = none from henabled] at hpre
      cases call <;> exact hpre
  | work =>
      obtain ⟨⟨w, task⟩, hholder⟩ := Option.isSome_iff_exists.1 henabled
      rw [after, hholder]
      exact hpre.work hholder
  | raise =>
      obtain ⟨w, todo, hholder | hholder⟩ := henabled <;>
      · rw [Invariant, hholder] at hpre
        exact hpre
  | unlocked stored =>
      have hsame := hkeeps stored rfl
      simp only [Invariant, Coherent, after, hsame] at hpre ⊢
      exact hpre

/-- **The copy is the stored flags** whenever nobody holds the lock, from the first refresh on that
read the table: as long as, since that read, every write without the lock left the flags alone. -/
theorem flags_coherent (hrun : Run (system W stored) (h₁ ++ e :: h₂) s) (hread : Reads e)
    (hkeeps : ∀ e' ∈ h₁, KeepsFlags e') (hfree : s.holder = none) :
    s.flags = QueueFlags.refresh s.stored := by
  have hfirst : e.post.Invariant := by
    obtain ⟨-, hnext, -⟩ := hrun.past
    obtain ⟨haction, w, hholder⟩ := hread
    rw [hnext.2, haction, after, hholder]
    exact invariant_of_read e.pre w
  have hs := (hrun.stable hfirst fun e' he' hpre =>
    hpre.step (hrun.next_of_mem (List.mem_append_left _ he')) (hkeeps e' he')).1
  rw [Invariant, hfree] at hs
  have hpaused : s.flags.paused = (QueueFlags.refresh s.stored).paused := hs .paused
  have hdraining : s.flags.draining = (QueueFlags.refresh s.stored).draining := hs .draining
  cases hflags : s.flags
  rw [hflags] at hpaused hdraining
  dsimp only at hpaused hdraining
  rw [hpaused, hdraining]

/-- A process starts over a paused queue and refreshes; an operator drains, and the refresh after that
cannot read the table. -/
def restartedPaused : List (FlagAct ℕ) :=
  [.acquire 0 .refresh, .work, .work, .work, .work, .acquire 1 (.update none (some true)), .work,
    .work, .work, .acquire 0 .refresh, .raise]

theorem flags_coherent_restartedPaused :
    let stored := (∅ : SettingTable).insert "queue.paused" (.bool true)
    (restartedPaused.foldl after ({ stored } : FlagState ℕ)).flags = ⟨true, true⟩ := by
  intro stored
  have hrun : Run (system ℕ stored) (trace after { stored } restartedPaused)
      (restartedPaused.foldl after { stored }) :=
    .replay ⟨rfl, rfl, rfl, rfl, rfl, rfl, rfl, rfl, rfl, rfl, ⟨0, [], .inr rfl⟩, trivial⟩
  have hsplit : Run (system ℕ stored) ([_, _, _, _, _, _, _, _, _] ++ _ :: [_])
      (restartedPaused.foldl after { stored }) := hrun
  refine (flags_coherent hsplit ⟨rfl, 0, rfl⟩ ?_ rfl).trans (by decide)
  simp [KeepsFlags]

/-! ### Catching up -/

/-- Whoever holds the lock will assign a flag nothing but this value. -/
def Current (s : FlagState W) (flag : QueueFlag) (value : Bool) : Prop :=
  match s.holder with
  | some (_, .assign other v _) => other = flag → v = value
  | some (_, .copy values) => ∀ e ∈ values, e.1 = flag → e.2 = value
  | _ => True

/-- The step assigns the flag of the copy. -/
def Assigns (flag : QueueFlag) (e : Step (FlagState W) (FlagAct W)) : Prop :=
  e.act = .work ∧ match e.pre.holder with
    | some (_, .assign other _ _) => other = flag
    | some (_, .copy (⟨other, _⟩ :: _)) => other = flag
    | _ => False

section Settle

variable {flag : QueueFlag} {value : Bool}

theorem Current.step (hnext : (system W stored).next e.pre e.act e.post)
    (hpre : e.pre.Current flag value) (hkept : queueFlag e.pre.stored flag.key = value)
    (hkept' : queueFlag e.post.stored flag.key = value) : e.post.Current flag value := by
  obtain ⟨pre, action, post⟩ := e
  obtain ⟨henabled, hpost⟩ := hnext
  dsimp only at henabled hpost hpre hkept hkept' ⊢
  subst hpost
  cases action with
  | acquire w call => cases call <;> trivial
  | raise => trivial
  | unlocked stored => exact hpre
  | work =>
      obtain ⟨⟨w, task⟩, hholder⟩ := Option.isSome_iff_exists.1 henabled
      rw [Current, hholder] at hpre
      rw [after, hholder] at hkept' ⊢
      cases task with
      | store todo =>
          cases todo with
          | nil => trivial
          | cons e todo =>
              -- what is stored is what the flag stays
              intro hflag
              have hstored := queueFlag_insert_self pre.stored e.1 e.2
              rw [show e.1 = flag from hflag] at hstored
              exact hstored.symm.trans (hflag ▸ hkept')
      | assign other v todo => trivial
      | read =>
          intro e he hflag
          simp only [List.mem_cons, List.not_mem_nil, or_false] at he
          rw [← hkept, ← hflag]
          rcases he with rfl | rfl
          · exact QueueFlags.get_refresh pre.stored .paused
          · exact QueueFlags.get_refresh pre.stored .draining
      | copy values =>
          cases values with
          | nil => trivial
          | cons e values => exact fun e' he' => hpre e' (List.mem_cons_of_mem _ he')

theorem Current.assigns (hnext : (system W stored).next e.pre e.act e.post)
    (hpre : e.pre.Current flag value) (hassigns : Assigns flag e) :
    e.post.flags.get flag = value := by
  obtain ⟨pre, action, post⟩ := e
  obtain ⟨-, hpost⟩ := hnext
  obtain ⟨haction, hholds⟩ := hassigns
  dsimp only at haction hpost hpre hholds ⊢
  subst haction hpost
  cases hholder : pre.holder with
  | none =>
      rw [hholder] at hholds
      cases hholds
  | some held =>
      obtain ⟨w, task⟩ := held
      rw [hholder] at hholds
      rw [Current, hholder] at hpre
      rw [after, hholder]
      cases task with
      | store todo => cases hholds
      | read => cases hholds
      | assign other v todo =>
          have hflag : other = flag := hholds
          subst hflag
          exact QueueFlags.get_set_self.trans (hpre rfl)
      | copy values =>
          cases values with
          | nil => cases hholds
          | cons e values =>
              have hflag : e.1 = flag := hholds
              subst hflag
              exact QueueFlags.get_set_self.trans (hpre e List.mem_cons_self rfl)

theorem flags_step_of_not_assigns (hnext : (system W stored).next e.pre e.act e.post)
    (hassigns : ¬ Assigns flag e) : e.post.flags.get flag = e.pre.flags.get flag := by
  obtain ⟨pre, action, post⟩ := e
  obtain ⟨henabled, hpost⟩ := hnext
  dsimp only at henabled hpost ⊢
  subst hpost
  cases action with
  | acquire w call => rfl
  | raise => rfl
  | unlocked stored => rfl
  | work =>
      obtain ⟨⟨w, task⟩, hholder⟩ := Option.isSome_iff_exists.1 henabled
      rw [Assigns] at hassigns
      dsimp only at hassigns
      rw [hholder] at hassigns
      rw [after, hholder]
      cases task with
      | store todo => cases todo <;> rfl
      | read => rfl
      | assign other v todo =>
          exact QueueFlags.get_set_ne fun hflag => hassigns ⟨rfl, hflag.symm⟩
      | copy values =>
          cases values with
          | nil => rfl
          | cons e values => exact QueueFlags.get_set_ne fun hflag => hassigns ⟨rfl, hflag.symm⟩

end Settle

/-- **The copy catches up and stays.**  From a step on after which a stored flag stays what it is
and nobody holds another value for it, the first assignment of the flag makes the copy the stored
flag, and so it is after every later step. -/
theorem flag_settles {flag : QueueFlag} {value : Bool} {a : Step (FlagState W) (FlagAct W)}
    {h₃ : List (Step (FlagState W) (FlagAct W))}
    (hrun : Run (system W stored) (h₁ ++ a :: (h₂ ++ e :: h₃)) s)
    (hcurrent : e.post.Current flag value) (hfirst : queueFlag e.post.stored flag.key = value)
    (hkept : ∀ e' ∈ h₁ ++ a :: h₂, queueFlag e'.post.stored flag.key = value)
    (hassigns : Assigns flag a) :
    s.flags.get flag = value ∧ ∀ e' ∈ h₁, e'.post.flags.get flag = value := by
  have hsettled : ∀ e' ∈ h₁ ++ a :: h₂,
      e'.pre.Current flag value ∧ queueFlag e'.pre.stored flag.key = value := by
    have hrun' : Run (system W stored) ((h₁ ++ a :: h₂) ++ e :: h₃) s := by
      rw [List.append_assoc]
      exact hrun
    have hstable := hrun'.stable
      (P := fun s => s.Current flag value ∧ queueFlag s.stored flag.key = value)
      ⟨hcurrent, hfirst⟩ fun e' he' hpre => ⟨hpre.1.step (hrun'.next_of_mem
        (List.mem_append_left _ he')) hpre.2 (hkept e' he'), hkept e' he'⟩
    exact fun e' he' => (hstable.2 e' he').1
  have hassigned : a.post.flags.get flag = value :=
    (hsettled a (List.mem_append_right _ List.mem_cons_self)).1.assigns
      (hrun.next_of_mem (List.mem_append_right _ List.mem_cons_self)) hassigns
  have hstays := hrun.stable (P := fun s => s.flags.get flag = value) hassigned
    fun e' he' hpre => by
      have hnext := hrun.next_of_mem (List.mem_append_left _ he')
      by_cases hassigns' : Assigns flag e'
      · exact (hsettled e' (List.mem_append_left _ he')).1.assigns hnext hassigns'
      · exact (flags_step_of_not_assigns hnext hassigns').trans hpre
  exact ⟨hstays.1, fun e' he' => (hstays.2 e' he').2⟩

/-- Another process drains the queue; the scheduler reads it, and an operator resumes the queue. -/
def drainedElsewhere : List (FlagAct ℕ) :=
  [.unlocked ((∅ : SettingTable).insert "queue.draining" (.bool true)), .acquire 0 .refresh, .work,
    .work, .work, .work, .acquire 1 (.update (some false) none)]

theorem flag_settles_drainedElsewhere :
    (drainedElsewhere.foldl after ({} : FlagState ℕ)).flags.get .draining = true := by
  have hrun : Run (system ℕ ∅) (trace after {} drainedElsewhere)
      (drainedElsewhere.foldl after {}) := .replay ⟨trivial, rfl, rfl, rfl, rfl, rfl, rfl, trivial⟩
  have hsplit : Run (system ℕ ∅) ([_, _] ++ _ :: ([_, _, _] ++ _ :: []))
      (drainedElsewhere.foldl after {}) := hrun
  refine (flag_settles hsplit trivial (by decide) ?_ ⟨rfl, rfl⟩).1
  decide

end FlagState

end LoadCoach.Configuration

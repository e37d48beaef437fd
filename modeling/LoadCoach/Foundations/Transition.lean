import Mathlib.Data.List.Basic
import Mathlib.Data.Set.Defs

/-! # Runs of a labelled transition system

A system is a set of initial states and a labelled step relation.  A run carries its whole
history, the newest step first, so that a property of runs may speak about the past: which
step last did something, and whether what it did still stands.

* `Run.invariant` is the induction rule for state properties, `Run.invariant_of_steps` the same
  rule for the runs all of whose steps meet a side condition.
* `Run.since` is the rule for facts that some step must have established: a property that is
  false initially and true now was established by a step and has stood ever since.
* `Run.stable` is its converse: what a step established and no later step destroys stands now.
* `Run.lastWrite` reads a value off the history: it is what the last step that wrote it left.
* `Run.countP_add_le` bounds how often something happens by a number that goes down with it.
* `System.guarded` is a system whose steps are computed; `Run.replay` makes runs of it from lists
  of actions, so that a concrete history can be evaluated.
* `Simulation` carries runs of one system to runs of another along a state map, each step to
  one step or to none. -/

namespace Foundations

/-- Initial states and labelled steps. -/
structure System (σ α : Type*) where
  init : Set σ
  next : σ → α → σ → Prop

/-- One step that was taken: the state before, the label, the state after. -/
structure Step (σ α : Type*) where
  pre : σ
  act : α
  post : σ

variable {σ α τ β : Type*} {S : System σ α}

/-- `Run S h s`: the history `h`, newest step first, leads from an initial state to `s`. -/
inductive Run (S : System σ α) : List (Step σ α) → σ → Prop
  | start {s : σ} : s ∈ S.init → Run S [] s
  | step {h : List (Step σ α)} {s s' : σ} {a : α} :
      Run S h s → S.next s a s' → Run S (⟨s, a, s'⟩ :: h) s'

namespace Run

variable {h : List (Step σ α)} {s : σ}

/-! ### The past of a run -/

/-- Every step of a run is a step of the system, taken from a state the earlier steps lead to. -/
theorem past {h₁ h₂ : List (Step σ α)} {e : Step σ α} (hrun : Run S (h₁ ++ e :: h₂) s) :
    Run S h₂ e.pre ∧ S.next e.pre e.act e.post ∧ Run S (e :: h₂) e.post := by
  induction h₁ generalizing s with
  | nil =>
      cases hrun with
      | step hpast hnext => exact ⟨hpast, hnext, hpast.step hnext⟩
  | cons e' h₁ ih =>
      cases hrun with
      | step hpast _ => exact ih hpast

theorem past_of_mem {e : Step σ α} (hrun : Run S h s) (he : e ∈ h) :
    ∃ h₂, Run S h₂ e.pre ∧ S.next e.pre e.act e.post := by
  obtain ⟨h₁, h₂, rfl⟩ := List.append_of_mem he
  exact ⟨h₂, hrun.past.1, hrun.past.2.1⟩

theorem next_of_mem {e : Step σ α} (hrun : Run S h s) (he : e ∈ h) :
    S.next e.pre e.act e.post :=
  (hrun.past_of_mem he).elim fun _ hpast => hpast.2

/-! ### Invariants -/

/-- **The invariant rule under a side condition.**  A property that holds initially and is
preserved by the steps that meet `C` holds at the end of every run whose steps all meet `C`. -/
theorem invariant_of_steps {P : σ → Prop} {C : Step σ α → Prop}
    (hinit : ∀ s ∈ S.init, P s)
    (hstep : ∀ e : Step σ α, S.next e.pre e.act e.post → C e → P e.pre → P e.post)
    (hrun : Run S h s) (hC : ∀ e ∈ h, C e) : P s := by
  induction hrun with
  | start hs => exact hinit _ hs
  | step hpast hnext ih =>
      have hP := ih fun e he => hC e (List.mem_cons_of_mem _ he)
      exact hstep ⟨_, _, _⟩ hnext (hC _ List.mem_cons_self) hP

/-- **The invariant rule.** -/
theorem invariant {P : σ → Prop} (hinit : ∀ s ∈ S.init, P s)
    (hstep : ∀ s a s', S.next s a s' → P s → P s') (hrun : Run S h s) : P s :=
  hrun.invariant_of_steps (C := fun _ => True) hinit
    (fun e hnext _ => hstep e.pre e.act e.post hnext) fun _ _ => trivial

/-! ### Temporal rules -/

/-- **Since.**  A property that no initial state has and the present state has was established
by some step and has stood after every step taken since. -/
theorem since {P : σ → Prop} (hinit : ∀ s ∈ S.init, ¬ P s) (hrun : Run S h s) (hs : P s) :
    ∃ h₁ e h₂, h = h₁ ++ e :: h₂ ∧ ¬ P e.pre ∧ P e.post ∧ ∀ e' ∈ h₁, P e'.post := by
  induction hrun with
  | start hs₀ => exact absurd hs (hinit _ hs₀)
  | @step h s s' a hpast _ ih =>
      by_cases hpre : P s
      · obtain ⟨h₁, e, h₂, rfl, hbefore, hafter, hsince⟩ := ih hpre
        refine ⟨⟨s, a, s'⟩ :: h₁, e, h₂, rfl, hbefore, hafter, ?_⟩
        intro e' he'
        rcases List.mem_cons.1 he' with rfl | he'
        · exact hs
        · exact hsince e' he'
      · exact ⟨[], ⟨s, a, s'⟩, h, rfl, hpre, hs, by simp⟩

/-- **Stability.**  What holds after one step and is preserved by every step taken since holds
now, and held after each of those steps. -/
theorem stable {P : σ → Prop} {h₁ h₂ : List (Step σ α)} {e : Step σ α}
    (hrun : Run S (h₁ ++ e :: h₂) s) (he : P e.post)
    (hstep : ∀ e' ∈ h₁, P e'.pre → P e'.post) : P s ∧ ∀ e' ∈ h₁, P e'.pre ∧ P e'.post := by
  induction h₁ generalizing s with
  | nil =>
      cases hrun with
      | step _ _ => exact ⟨he, by simp⟩
  | cons e' h₁ ih =>
      cases hrun with
      | step hpast _ =>
          obtain ⟨hpre, hsince⟩ := ih hpast fun e he => hstep e (List.mem_cons_of_mem _ he)
          have hpost := hstep _ List.mem_cons_self hpre
          refine ⟨hpost, ?_⟩
          intro e'' he''
          rcases List.mem_cons.1 he'' with rfl | he''
          · exact ⟨hpre, hpost⟩
          · exact hsince e'' he''

/-- **Last writes.**  A value that every step overwrites or leaves alone is the one that was written
last, or the one there was at first. -/
theorem lastWrite {v : σ → τ} {w : Step σ α → Option τ} {v₀ : τ} (hinit : ∀ s ∈ S.init, v s = v₀)
    (hstep : ∀ e : Step σ α, S.next e.pre e.act e.post → v e.post = (w e).getD (v e.pre))
    (hrun : Run S h s) : v s = (h.findSome? w).getD v₀ := by
  induction hrun with
  | start hs => exact hinit _ hs
  | @step h pre post a hpast hnext ih =>
      have hwritten := hstep ⟨pre, a, post⟩ hnext
      rw [List.findSome?_cons, hwritten]
      cases w ⟨pre, a, post⟩ with
      | none => exact ih
      | some _ => rfl

/-- **Potentials.**  Where no later step raises a number and every marked step lowers it, there are
no more marked steps than the number has gone down by. -/
theorem countP_add_le {φ : σ → ℕ} {p : Step σ α → Bool} {h₁ h₂ : List (Step σ α)}
    {e : Step σ α} (hrun : Run S (h₁ ++ e :: h₂) s)
    (hstep : ∀ e' ∈ h₁, φ e'.post + (if p e' then 1 else 0) ≤ φ e'.pre) :
    h₁.countP p + φ s ≤ φ e.post := by
  induction h₁ generalizing s with
  | nil =>
      cases hrun with
      | step _ _ => simp
  | cons e' h₁ ih =>
      cases hrun with
      | step hpast _ =>
          have hbefore := ih hpast fun e he => hstep e (List.mem_cons_of_mem _ he)
          have hlast := hstep _ List.mem_cons_self
          rw [List.countP_cons]
          dsimp only at hlast
          omega

end Run

/-! ### Guarded systems -/

section Guarded

variable (guard : σ → α → Prop) (after : σ → α → σ)

/-- One initial state; a step is an action whose guard holds, and its result is computed. -/
def System.guarded (start : σ) : System σ α where
  init := {start}
  next s a s' := guard s a ∧ s' = after s a

/-- The guards of a list of actions, each at the state the earlier ones lead to. -/
def Admissible : σ → List α → Prop
  | _, [] => True
  | s, a :: l => guard s a ∧ Admissible (after s a) l

instance Admissible.decidable [∀ s a, Decidable (guard s a)] :
    ∀ (s : σ) (l : List α), Decidable (Admissible guard after s l)
  | _, [] => inferInstanceAs (Decidable True)
  | s, a :: l =>
      have := Admissible.decidable (after s a) l
      inferInstanceAs (Decidable (guard s a ∧ Admissible guard after (after s a) l))

/-- The history of a list of actions, newest step first. -/
def trace : σ → List α → List (Step σ α)
  | _, [] => []
  | s, a :: l => trace (after s a) l ++ [⟨s, a, after s a⟩]

variable {guard after}

theorem Run.append_trace {start : σ} {h : List (Step σ α)} {s : σ} {l : List α}
    (hrun : Run (System.guarded guard after start) h s) (hl : Admissible guard after s l) :
    Run (System.guarded guard after start) (trace after s l ++ h) (l.foldl after s) := by
  induction l generalizing h s with
  | nil => exact hrun
  | cons a l ih =>
      have hrest := ih (hrun.step ⟨hl.1, rfl⟩) hl.2
      simpa [trace] using hrest

theorem forall_mem_trace {C : Step σ α → Prop} {s : σ} {l : List α}
    (hl : Admissible (fun s a => C ⟨s, a, after s a⟩) after s l) :
    ∀ e ∈ trace after s l, C e := by
  induction l generalizing s with
  | nil => simp [trace]
  | cons a l ih =>
      intro e he
      rcases List.mem_append.1 he with he | he
      · exact ih hl.2 e he
      · rw [List.mem_singleton.1 he]
        exact hl.1

/-- **A list of actions whose guards hold is a run.** -/
theorem Run.replay {start : σ} {l : List α} (hl : Admissible guard after start l) :
    Run (System.guarded guard after start) (trace after start l) (l.foldl after start) := by
  simpa using (Run.start rfl).append_trace hl

end Guarded

/-! ### Simulation -/

/-- A map of states under which every step of `S` is one step of `T`, the one `label` names, or
changes nothing `T` can see. -/
structure Simulation (S : System σ α) (T : System τ β) where
  abs : σ → τ
  label : σ → α → Option β
  init : ∀ s ∈ S.init, abs s ∈ T.init
  step : ∀ s a s' b, S.next s a s' → label s a = some b → T.next (abs s) b (abs s')
  stutter : ∀ s a s', S.next s a s' → label s a = none → abs s' = abs s

namespace Simulation

variable {T : System τ β} (F : Simulation S T)

/-- The step of `T` that a step of `S` stands for, if any. -/
def image (e : Step σ α) : Option (Step τ β) :=
  (F.label e.pre e.act).map fun b => ⟨F.abs e.pre, b, F.abs e.post⟩

/-- The history of `T` behind a history of `S`. -/
def history (h : List (Step σ α)) : List (Step τ β) := h.filterMap F.image

/-- **Runs are carried to runs.** -/
theorem run {h : List (Step σ α)} {s : σ} (hrun : Run S h s) :
    Run T (F.history h) (F.abs s) := by
  induction hrun with
  | start hs => exact .start (F.init _ hs)
  | @step h s s' a hpast hnext ih =>
      cases hlabel : F.label s a with
      | none =>
          have himage : F.history (⟨s, a, s'⟩ :: h) = F.history h := by
            simp [history, image, hlabel]
          rw [himage, F.stutter s a s' hnext hlabel]
          exact ih
      | some b =>
          have himage : F.history (⟨s, a, s'⟩ :: h) =
              ⟨F.abs s, b, F.abs s'⟩ :: F.history h := by
            simp [history, image, hlabel]
          rw [himage]
          exact ih.step (F.step s a s' b hnext hlabel)

end Simulation

end Foundations

import LoadCoach.Foundations.Transition
import Mathlib.Data.Set.Basic

/-! # Signals

Parties that look at something shared, and sleep when there is nothing for them.  Whoever changes it
sets a flag afterwards, and a party that was roused clears the flag before it looks again.

Between a set and the next look the flag is up or somebody is on his way to a look
(`Run.signalled`): a flag is taken down only by one who has not looked yet.  So the last look, if
there was one since, saw everything that was there when the flag was set (`Simulation.lastLook`). -/

namespace Foundations

/-- The flag, and the parties that will look without waiting for it. -/
structure Signal (ι : Type*) where
  flag : Bool
  awake : Set ι

/-- What happens to a signal. -/
inductive SignalAct (ι : Type*) where
  | set
  | rouse (i : ι)
  | clear (i : ι)
  | look (i : ι)

variable {ι σ α : Type*}

/-- Whether an action is a look. -/
def SignalAct.isLook : SignalAct ι → Bool
  | look _ => true
  | _ => false

/-- What an action does: a look may send anybody to sleep, nothing else does. -/
def Signal.Next (s : Signal ι) : SignalAct ι → Signal ι → Prop
  | .set, s' => s'.flag = true ∧ s.awake ⊆ s'.awake
  | .rouse _, s' => s'.flag = s.flag ∧ s.awake ⊆ s'.awake
  | .clear i, s' => i ∈ s.awake ∧ s.awake ⊆ s'.awake
  | .look _, s' => s'.flag = s.flag

theorem Signal.Next.awake_subset {s s' : Signal ι} {a : SignalAct ι} (hnext : s.Next a s')
    (ha : a.isLook = false) : s.awake ⊆ s'.awake := by
  cases a with
  | look i => cases ha
  | _ => exact hnext.2

/-- Setters and parties, in any interleaving. -/
def signals (ι : Type*) : System (Signal ι) (SignalAct ι) where
  init := Set.univ
  next s a s' := s.Next a s'

/-- Nothing that was signalled is left to nobody. -/
def Signal.Noticed (s : Signal ι) : Prop := s.flag = true ∨ s.awake.Nonempty

theorem Signal.Noticed.next {s s' : Signal ι} {a : SignalAct ι} (hnoticed : s.Noticed)
    (hnext : s.Next a s') (ha : a.isLook = false) : s'.Noticed := by
  cases a with
  | set => exact .inl hnext.1
  | rouse i =>
      obtain ⟨hflag, hawake⟩ := hnext
      exact hnoticed.imp (fun h => hflag.trans h) fun h => h.mono hawake
  | clear i => exact .inr ⟨i, hnext.2 hnext.1⟩
  | look i => cases ha

namespace Run

/-- **No signal is lost**: until somebody looks, the flag is up or somebody is on his way. -/
theorem signalled {h₁ h₂ : List (Step (Signal ι) (SignalAct ι))}
    {e : Step (Signal ι) (SignalAct ι)} {s : Signal ι} (hrun : Run (signals ι) (h₁ ++ e :: h₂) s)
    (hset : e.act = .set) (hlook : ∀ e' ∈ h₁, e'.act.isLook = false) : s.Noticed := by
  have hpost : e.post.Noticed := by
    have hnext : e.pre.Next e.act e.post := hrun.past.2.1
    rw [hset] at hnext
    exact .inl hnext.1
  refine (hrun.stable hpost ?_).1
  intro e' he' hpre
  exact hpre.next (hrun.next_of_mem (List.mem_append_left _ he')) (hlook e' he')

end Run

theorem exists_newest {p : α → Bool} {l : List α} (h : ∃ a ∈ l, p a = true) :
    ∃ l₁ a l₂, l = l₁ ++ a :: l₂ ∧ p a = true ∧ ∀ b ∈ l₁, p b = false := by
  obtain ⟨a, hfound⟩ := Option.isSome_iff_exists.1 (List.find?_isSome.2 h)
  obtain ⟨hp, l₁, l₂, rfl, hnot⟩ := List.find?_eq_some_iff_append.1 hfound
  exact ⟨l₁, a, l₂, rfl, hp, fun b hb => by simpa using hnot b hb⟩

namespace Simulation

variable {S : System σ α} (F : Simulation S (signals ι))

/-- Whether a step stands for a look. -/
def looks (e : Step σ α) : Bool := (F.label e.pre e.act).any SignalAct.isLook

theorem awake_subset {e : Step σ α} (hnext : S.next e.pre e.act e.post)
    (hlook : F.looks e = false) : (F.abs e.pre).awake ⊆ (F.abs e.post).awake := by
  cases hlabel : F.label e.pre e.act with
  | none => rw [F.stutter _ _ _ hnext hlabel]
  | some a =>
      have ha : a.isLook = false := by simpa [looks, hlabel] using hlook
      exact (F.step _ _ _ _ hnext hlabel).awake_subset ha

/-- **The last look since a signal**, in a system that is a signal's: without one the signal is still
noticed; else there is a last one, and whatever it leaves stands until now. -/
theorem lastLook {h₁ h₂ : List (Step σ α)} {e : Step σ α} {s : σ}
    (hrun : Run S (h₁ ++ e :: h₂) s) (hset : F.label e.pre e.act = some .set) :
    (F.abs s).Noticed ∨
      ∃ h₃ e' h₄, h₁ = h₃ ++ e' :: h₄ ∧ F.looks e' = true ∧ ∀ e'' ∈ h₃, F.looks e'' = false := by
  by_cases hlook : ∃ e' ∈ h₁, F.looks e' = true
  · exact .inr (exists_newest hlook)
  · refine .inl ?_
    have hrun' := F.run hrun
    have hhistory : F.history (h₁ ++ e :: h₂) =
        F.history h₁ ++ ⟨F.abs e.pre, .set, F.abs e.post⟩ :: F.history h₂ := by
      simp [history, image, hset]
    rw [hhistory] at hrun'
    refine hrun'.signalled rfl ?_
    intro e' he'
    obtain ⟨e'', he'', himage⟩ := List.mem_filterMap.1 he'
    obtain ⟨b, hlabel, rfl⟩ := Option.map_eq_some_iff.1 himage
    have hnot : F.looks e'' = false := by
      by_contra h
      exact hlook ⟨e'', he'', eq_true_of_ne_false h⟩
    simpa [looks, hlabel] using hnot

end Simulation

end Foundations

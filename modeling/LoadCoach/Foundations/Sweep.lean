import Mathlib.Data.Finset.Card
import LoadCoach.Foundations.Sorting

/-! # Bounded sweeps over an oldest-first window

A sweep visits items in the order of a stamp, and takes only a window of them: of the items that
are due at a bound, the `w` oldest; among these it handles up to `b` that were not handled before.
Handling an item does not remove it from the order, so the window of a bound never moves.

* `window_mono` and `mem_window_of_le` say that a later bound keeps the window of an earlier one.
* `progresses_iff` is what follows: repeated at rising bounds, the sweep goes on handling
  items, and handles all of them in the end, exactly when no item still to be handled lies behind
  the window. -/

namespace Foundations

/-! ### Windows -/

namespace Sweep

variable {ι κ : Type*} [LinearOrder κ]

/-- The stamped items due at a bound, oldest first. -/
def due (stamps : List (ι × κ)) (c : κ) : List (ι × κ) :=
  (stamps.filter fun s => decide (s.2 ≤ c)).insertionSort fun a b => a.2 ≤ b.2

/-- The oldest `w` of them. -/
def window (w : ℕ) (stamps : List (ι × κ)) (c : κ) : List ι :=
  ((due stamps c).take w).map Prod.fst

variable {stamps : List (ι × κ)} {c c' : κ} {w b : ℕ} {i : ι}

instance isTrans_snd : IsTrans (ι × κ) fun a b => a.2 ≤ b.2 := ⟨fun _ _ _ => le_trans⟩

instance total_snd : Std.Total fun a b : ι × κ => a.2 ≤ b.2 := ⟨fun a b => le_total a.2 b.2⟩

theorem mem_due {s : ι × κ} : s ∈ due stamps c ↔ s ∈ stamps ∧ s.2 ≤ c := by
  simp [due]

theorem filter_le_isPrefix {l : List (ι × κ)} (hl : l.Pairwise fun a b => a.2 ≤ b.2) (c : κ) :
    (l.filter fun s => decide (s.2 ≤ c)) <+: l := by
  induction l with
  | nil => exact List.prefix_rfl
  | cons s l ih =>
      obtain ⟨hhead, htail⟩ := List.pairwise_cons.1 hl
      by_cases hs : s.2 ≤ c
      · simpa [hs] using ih htail
      · have hnone : (l.filter fun s => decide (s.2 ≤ c)) = [] := by
          refine List.filter_eq_nil_iff.2 fun s' hs' => ?_
          simpa using (lt_of_not_ge hs).trans_le (hhead s' hs')
        simp [hs, hnone]

variable (stamps) in
theorem due_isPrefix (h : c ≤ c') : due stamps c <+: due stamps c' := by
  have hsame : due stamps c = (due stamps c').filter fun s => decide (s.2 ≤ c) := by
    rw [due, due, filter_insertionSort, List.filter_filter]
    congr 1
    refine List.filter_congr fun s _ => ?_
    by_cases hs : s.2 ≤ c
    · simp [hs, hs.trans h]
    · simp [hs]
  rw [hsame]
  exact filter_le_isPrefix (List.pairwise_insertionSort _ _) c

theorem window_mono (h : c ≤ c') (hi : i ∈ window w stamps c) : i ∈ window w stamps c' := by
  obtain ⟨s, hs, rfl⟩ := List.mem_map.1 hi
  have hinitial : (due stamps c).take w <+: (due stamps c').take w := by
    obtain ⟨rest, hrest⟩ := due_isPrefix stamps h
    rw [← hrest, List.take_append]
    exact List.prefix_append _ _
  exact List.mem_map_of_mem (hinitial.subset hs)

theorem mem_window_of_le (hnodup : (stamps.map Prod.fst).Nodup) (h : c ≤ c')
    (hdue : i ∈ (due stamps c).map Prod.fst) (hi : i ∈ window w stamps c') :
    i ∈ window w stamps c := by
  obtain ⟨rest, hrest⟩ := due_isPrefix stamps h
  rw [window, ← hrest, List.take_append, List.map_append, List.mem_append] at hi
  rcases hi with hi | hi
  · exact hi
  · -- behind the prefix the items are others
    have hperm : ((due stamps c').map Prod.fst).Nodup := by
      have hsub : ((stamps.filter fun s => decide (s.2 ≤ c')).map Prod.fst).Nodup :=
        (List.filter_sublist.map _).nodup hnodup
      exact ((List.perm_insertionSort _ _).map Prod.fst).nodup_iff.2 hsub
    rw [← hrest, List.map_append, List.nodup_append] at hperm
    have hrest' : i ∈ rest.map Prod.fst := List.map_subset _ (List.take_subset _ _) hi
    exact absurd rfl (hperm.2.2 i hdue i hrest')

/-- Nothing lies behind a window that is as long as the order. -/
theorem mem_window_of_length_le (h : stamps.length ≤ w)
    (hdue : i ∈ (due stamps c).map Prod.fst) : i ∈ window w stamps c := by
  have hlength : (due stamps c).length ≤ w := by
    rw [due, List.length_insertionSort]
    exact (List.length_filter_le _ _).trans h
  rwa [window, List.take_of_length_le hlength]

/-! ### Sweeping -/

/-- An item that is due and not handled. -/
def Pending (stamps : List (ι × κ)) (c : κ) (M : Finset ι) (i : ι) : Prop :=
  i ∈ (due stamps c).map Prod.fst ∧ i ∉ M

variable {M : Finset ι}

theorem Pending.mono (h : c ≤ c') (hi : Pending stamps c M i) : Pending stamps c' M i :=
  ⟨List.map_subset _ (due_isPrefix _ h).subset hi.1, hi.2⟩

variable [DecidableEq ι]

/-- The items a sweep handles, those of `M` being handled already. -/
def chosen (w b : ℕ) (stamps : List (ι × κ)) (c : κ) (M : Finset ι) : List ι :=
  ((window w stamps c).filter fun i => decide (i ∉ M)).take b

/-- The items handled after a sweep. -/
def sweep (w b : ℕ) (stamps : List (ι × κ)) (c : κ) (M : Finset ι) : Finset ι :=
  M ∪ (chosen w b stamps c M).toFinset

/-- The items handled after `n` sweeps at the bounds `c 0`, `c 1`, … -/
def sweeps (w b : ℕ) (stamps : List (ι × κ)) (c : ℕ → κ) (M : Finset ι) : ℕ → Finset ι
  | 0 => M
  | n + 1 => sweep w b stamps (c n) (sweeps w b stamps c M n)

theorem mem_sweep : i ∈ sweep w b stamps c M ↔ i ∈ M ∨ i ∈ chosen w b stamps c M := by
  simp [sweep]

/-- **One sweep makes progress** exactly when an item of its window is not handled yet. -/
theorem chosen_ne_nil_iff (hb : 0 < w → 0 < b) :
    chosen w b stamps c M ≠ [] ↔ ∃ i ∈ window w stamps c, i ∉ M := by
  constructor
  · intro h
    obtain ⟨i, hi⟩ := List.exists_mem_of_ne_nil _ h
    have hi' := List.mem_filter.1 (List.mem_of_mem_take hi)
    exact ⟨i, hi'.1, by simpa using hi'.2⟩
  · rintro ⟨i, hi, hM⟩ hnil
    have hw : 0 < w := by
      rcases Nat.eq_zero_or_pos w with rfl | hw
      · simp [window] at hi
      · exact hw
    have hb := hb hw
    rcases List.take_eq_nil_iff.1 hnil with hzero | hempty
    · omega
    · exact List.filter_eq_nil_iff.1 hempty i hi (by simpa using hM)

section Repeated

variable {c : ℕ → κ}

theorem sweeps_mono {m n : ℕ} (h : m ≤ n) :
    sweeps w b stamps c M m ⊆ sweeps w b stamps c M n := by
  induction h with
  | refl => exact Finset.Subset.refl _
  | step _ ih => exact ih.trans Finset.subset_union_left

theorem mem_sweeps {n : ℕ} (hi : i ∈ sweeps w b stamps c M n) :
    i ∈ M ∨ ∃ m < n, i ∈ window w stamps (c m) := by
  induction n with
  | zero => exact .inl hi
  | succ n ih =>
      rcases mem_sweep.1 hi with hi | hi
      · rcases ih hi with hM | ⟨m, hm, hwin⟩
        · exact .inl hM
        · exact .inr ⟨m, by omega, hwin⟩
      · exact .inr ⟨n, by omega, List.mem_of_mem_filter (List.mem_of_mem_take hi)⟩

theorem card_unhandled_lt {n : ℕ} (h : chosen w b stamps (c n) (sweeps w b stamps c M n) ≠ []) :
    ((stamps.map Prod.fst).toFinset \ sweeps w b stamps c M (n + 1)).card <
      ((stamps.map Prod.fst).toFinset \ sweeps w b stamps c M n).card := by
  obtain ⟨i, hi⟩ := List.exists_mem_of_ne_nil _ h
  obtain ⟨hwin, hfresh⟩ := List.mem_filter.1 (List.mem_of_mem_take hi)
  have hfresh : i ∉ sweeps w b stamps c M n := by simpa using hfresh
  have hitem : i ∈ (stamps.map Prod.fst).toFinset := by
    obtain ⟨s, hs, rfl⟩ := List.mem_map.1 hwin
    have hs := (mem_due.1 (List.mem_of_mem_take hs)).1
    exact List.mem_toFinset.2 (List.mem_map_of_mem hs)
  refine Finset.card_lt_card (Finset.ssubset_iff_of_subset ?_ |>.2 ⟨i, ?_, ?_⟩)
  · exact Finset.sdiff_subset_sdiff (Finset.Subset.refl _) (sweeps_mono (by omega))
  · exact Finset.mem_sdiff.2 ⟨hitem, hfresh⟩
  · have hin : i ∈ sweeps w b stamps c M (n + 1) := mem_sweep.2 (.inr hi)
    simp [hin]

variable (w b stamps c) in
theorem exists_chosen_eq_nil (N : ℕ) :
    ∃ n, N ≤ n ∧ chosen w b stamps (c n) (sweeps w b stamps c M n) = [] := by
  by_contra hall
  push Not at hall
  -- the measure falls at every sweep from `N` on
  have hfall : ∀ k, ((stamps.map Prod.fst).toFinset \ sweeps w b stamps c M (N + k)).card + k ≤
      ((stamps.map Prod.fst).toFinset \ sweeps w b stamps c M N).card := by
    intro k
    induction k with
    | zero => simp
    | succ k ih =>
        have hlt := card_unhandled_lt (hall (N + k) (by omega))
        rw [show N + k + 1 = N + (k + 1) from rfl] at hlt
        omega
  have hlast := hfall (((stamps.map Prod.fst).toFinset \ sweeps w b stamps c M N).card + 1)
  omega

/-- Every sweep handles an item or leaves none to be handled, and every item is handled in the
end. -/
structure Progresses (w b : ℕ) (stamps : List (ι × κ)) (c : ℕ → κ) (M : Finset ι) : Prop where
  each : ∀ n, chosen w b stamps (c n) (sweeps w b stamps c M n) ≠ [] ∨
    ∀ i, ¬ Pending stamps (c n) (sweeps w b stamps c M (n + 1)) i
  all : ∀ n i, Pending stamps (c n) M i → ∃ m, i ∈ sweeps w b stamps c M m

theorem exists_mem_sweeps (hmono : Monotone c)
    (heach : ∀ n, chosen w b stamps (c n) (sweeps w b stamps c M n) ≠ [] ∨
      ∀ i, ¬ Pending stamps (c n) (sweeps w b stamps c M (n + 1)) i)
    {n : ℕ} (hi : Pending stamps (c n) M i) : ∃ m, i ∈ sweeps w b stamps c M m := by
  obtain ⟨m, hm, hnil⟩ := @exists_chosen_eq_nil _ _ _ stamps w b M _ c n
  have hnone := (heach m).resolve_left (not_not_intro hnil)
  have hdue := (hi.mono (hmono hm)).1
  refine ⟨m + 1, ?_⟩
  by_contra hfresh
  exact hnone i ⟨hdue, hfresh⟩

/-- **Progress of repeated sweeps.** -/
theorem progresses_iff (hnodup : (stamps.map Prod.fst).Nodup) (hmono : Monotone c)
    (hb : 0 < w → 0 < b) :
    Progresses w b stamps c M ↔
      ∀ n i, Pending stamps (c n) M i → i ∈ window w stamps (c n) := by
  constructor
  · intro h n i hi
    obtain ⟨m, hm⟩ := h.all n i hi
    obtain ⟨k, -, hk⟩ := (mem_sweeps hm).resolve_left hi.2
    rcases le_total (c k) (c n) with hle | hle
    · exact window_mono hle hk
    · exact mem_window_of_le hnodup hle hi.1 hk
  · intro h
    have heach : ∀ n, chosen w b stamps (c n) (sweeps w b stamps c M n) ≠ [] ∨
        ∀ i, ¬ Pending stamps (c n) (sweeps w b stamps c M (n + 1)) i := by
      intro n
      by_cases hleft : ∃ i, Pending stamps (c n) (sweeps w b stamps c M (n + 1)) i
      · obtain ⟨i, hdue, hfresh⟩ := hleft
        have hbefore : i ∉ sweeps w b stamps c M n := fun hin =>
          hfresh (sweeps_mono (by omega) hin)
        have hM : i ∉ M := fun hin => hbefore (sweeps_mono (m := 0) (by omega) hin)
        exact .inl ((chosen_ne_nil_iff hb).2 ⟨i, h n i ⟨hdue, hM⟩, hbefore⟩)
      · exact .inr (not_exists.1 hleft)
    exact ⟨heach, fun n i hi => exists_mem_sweeps hmono heach hi⟩

end Repeated

end Sweep

end Foundations

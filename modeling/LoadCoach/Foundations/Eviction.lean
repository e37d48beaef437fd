import LoadCoach.Foundations.Table

/-! # A table that drops its oldest row

Rows are entered at the front of a table; entering a key past a bound drops the row that was entered
first (`lookup_enter`).  So the keys are the last ones entered (`keys_enter`), and a key is dropped
only after as many others as the bound allows. -/

namespace Foundations

namespace Table

variable {κ ρ : Type*} [DecidableEq κ] {bound : ℕ} {t : Table κ ρ} {k k' : κ} {r : ρ}

/-- Enters a new key; past the bound, the oldest key is dropped. -/
def enter (bound : ℕ) (k : κ) (r : ρ) (t : Table κ ρ) : Table κ ρ :=
  let entered := t.insert k r
  if bound < entered.keys.length then
    match entered.keys.getLast? with
    | some oldest => entered.erase oldest
    | none => entered
  else entered

/-- The key that entering another one drops. -/
def dropped (bound : ℕ) (t : Table κ ρ) : Option κ :=
  if bound ≤ t.keys.length then t.keys.getLast? else none

theorem keys_insert_of_notMem (h : k ∉ t) : (t.insert k r).keys = k :: t.keys := by
  rw [AList.keys_insert, List.erase_of_not_mem fun hin => h (AList.mem_keys.2 hin)]

theorem enter_eq (h : k ∉ t) (hbound : 0 < bound) :
    t.enter bound k r = ((t.dropped bound).elim (t.insert k r) fun oldest =>
      (t.insert k r).erase oldest) := by
  rw [enter, dropped, keys_insert_of_notMem h, List.length_cons]
  by_cases hfull : bound ≤ t.keys.length
  · obtain ⟨oldest, holdest⟩ : ∃ oldest, t.keys.getLast? = some oldest := by
      refine Option.ne_none_iff_exists'.1 (mt List.getLast?_eq_none_iff.1 ?_)
      exact List.ne_nil_of_length_pos (Nat.lt_of_lt_of_le hbound hfull)
    simp [Nat.lt_succ_iff.2 hfull, hfull, List.getLast?_cons, holdest]
  · simp [mt Nat.lt_succ_iff.1 hfull, hfull]

/-- **Reading after a key was entered.** -/
theorem lookup_enter (h : k ∉ t) (hbound : 0 < bound) (k' : κ) :
    (t.enter bound k r).lookup k' =
      if k' = k then some r else if t.dropped bound = some k' then none else t.lookup k' := by
  rw [enter_eq h hbound]
  cases hdropped : t.dropped bound with
  | none =>
      by_cases hk : k' = k
      · subst hk
        simp
      · simp [hk]
  | some oldest =>
      have hne : oldest ≠ k := by
        rintro rfl
        rw [dropped] at hdropped
        split at hdropped
        · exact h (AList.mem_keys.2 (List.mem_of_getLast? hdropped))
        · cases hdropped
      by_cases hk : k' = k
      · subst hk
        simp [AList.lookup_erase_ne hne.symm]
      · by_cases hold : oldest = k'
        · subst hold
          simp [hk]
        · simp [hk, hold, AList.lookup_erase_ne (Ne.symm hold)]

theorem keys_enter (h : k ∉ t) (hbound : 0 < bound) (hlength : t.keys.length ≤ bound) :
    (t.enter bound k r).keys = (k :: t.keys).take bound := by
  rw [enter_eq h hbound]
  cases hdropped : t.dropped bound with
  | none =>
      have hroom : t.keys.length + 1 ≤ bound := by
        by_contra hfull
        rw [dropped, if_pos (by omega), List.getLast?_eq_none_iff] at hdropped
        rw [hdropped] at hfull
        simp at hfull
        omega
      rw [Option.elim_none, keys_insert_of_notMem h,
        List.take_of_length_le (by simpa using hroom)]
  | some oldest =>
      rw [dropped] at hdropped
      split at hdropped
      · obtain ⟨front, hfront⟩ := List.getLast?_eq_some_iff.1 hdropped
        have hnodup : (k :: (front ++ [oldest])).Nodup := by
          rw [← hfront]
          exact List.nodup_cons.2 ⟨fun hin => h (AList.mem_keys.2 hin), t.keys_nodup⟩
        rw [← List.cons_append] at hnodup
        have hnot : oldest ∉ k :: front := fun hin =>
          (List.nodup_append.1 hnodup).2.2 oldest hin oldest (List.mem_singleton_self _) rfl
        have hbound : (k :: front).length = bound := by
          have hlen := congrArg List.length hfront
          rw [List.length_append, List.length_singleton] at hlen
          rw [List.length_cons]
          omega
        rw [Option.elim_some, AList.keys_erase, keys_insert_of_notMem h, hfront,
          ← List.cons_append, List.erase_append_right _ hnot, List.erase_cons_head,
          List.append_nil, List.take_append_of_le_length (Nat.le_of_eq hbound.symm), ← hbound,
          List.take_length]
      · cases hdropped

end Table

end Foundations

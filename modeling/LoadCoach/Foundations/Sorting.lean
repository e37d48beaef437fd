import Mathlib.Data.List.Nodup
import Mathlib.Data.List.Sort

/-! # Sorting by insertion

Sorting by insertion is stable: it commutes with a filter (`filter_insertionSort`), so elements with
one key keep the order they came in.  A list sorted by a key is therefore the same for every order
of its elements exactly when the key tells the elements apart (`map_sortBy_perm_iff`). -/

namespace Foundations

/-! ### Stability -/

section InsertionSort

variable {α : Type*} {r : α → α → Prop} [DecidableRel r]

theorem orderedInsert_eq_cons {a : α} {l : List α} (h : ∀ b ∈ l, r a b) :
    l.orderedInsert r a = a :: l := by
  cases l with
  | nil => rfl
  | cons b l => rw [List.orderedInsert, if_pos (h b List.mem_cons_self)]

theorem filter_orderedInsert [IsTrans α r] (p : α → Bool) (a : α) {l : List α}
    (hl : l.Pairwise r) :
    (l.orderedInsert r a).filter p =
      if p a then (l.filter p).orderedInsert r a else l.filter p := by
  induction l with
  | nil => cases hp : p a <;> simp [hp]
  | cons b l ih =>
      obtain ⟨hhead, htail⟩ := List.pairwise_cons.1 hl
      rw [List.orderedInsert]
      by_cases hab : r a b
      · have hall : ∀ c ∈ (b :: l).filter p, r a c := by
          intro c hc
          rcases List.mem_cons.1 (List.mem_of_mem_filter hc) with rfl | hc
          · exact hab
          · exact Trans.trans hab (hhead c hc)
        rw [if_pos hab, orderedInsert_eq_cons hall, List.filter_cons]
      · rw [if_neg hab, List.filter_cons, List.filter_cons, ih htail]
        by_cases hp : p a <;> by_cases hb : p b <;> simp [hp, hb, hab]

/-- Sorting by insertion is stable: it commutes with a filter. -/
theorem filter_insertionSort [IsTrans α r] [Std.Total r] (p : α → Bool) (l : List α) :
    (l.insertionSort r).filter p = (l.filter p).insertionSort r := by
  induction l with
  | nil => rfl
  | cons a l ih =>
      rw [List.insertionSort_cons, filter_orderedInsert p a (List.pairwise_insertionSort r l), ih,
        List.filter_cons]
      split <;> rfl

end InsertionSort

/-! ### Sorting by a key -/

section SortBy

variable {α β κ : Type*} [LinearOrder κ] {key : α → κ} {l l' : List α}

/-- The elements by ascending key. -/
def sortBy (key : α → κ) (l : List α) : List α := l.insertionSort fun a b => key a ≤ key b

instance isTrans_key (key : α → κ) : IsTrans α fun a b => key a ≤ key b :=
  ⟨fun _ _ _ => le_trans⟩

instance total_key (key : α → κ) : Std.Total fun a b : α => key a ≤ key b :=
  ⟨fun a b => le_total (key a) (key b)⟩

theorem filter_sortBy (key : α → κ) (k : κ) (l : List α) :
    (sortBy key l).filter (fun a => decide (key a = k)) = l.filter fun a => decide (key a = k) := by
  rw [sortBy, filter_insertionSort]
  apply List.Pairwise.insertionSort_eq
  rw [List.pairwise_filter]
  refine List.pairwise_of_forall fun a b ha hb => ?_
  rw [of_decide_eq_true ha, of_decide_eq_true hb]

/-- A key that tells the elements apart sorts them in one way. -/
theorem sortBy_perm (hkeys : (l.map key).Nodup) (hperm : l'.Perm l) :
    sortBy key l' = sortBy key l := by
  have hsorted := hperm.trans (List.perm_insertionSort (fun a b => key a ≤ key b) l).symm
  refine List.Perm.eq_of_pairwise ?_ (List.pairwise_insertionSort _ l')
    (List.pairwise_insertionSort _ l) ((List.perm_insertionSort _ l').trans hsorted)
  intro a b ha hb hab hba
  have ha' : a ∈ l := hperm.mem_iff.1 ((List.mem_insertionSort _).1 ha)
  exact List.inj_on_of_nodup_map hkeys ha' ((List.mem_insertionSort _).1 hb) (le_antisymm hab hba)

/-- The first of a sorted list that meets a condition has the least key of those that do. -/
theorem le_of_find?_sortBy {p : α → Bool} {a b : α} (h : (sortBy key l).find? p = some a)
    (hb : b ∈ l) (hpb : p b = true) : key a ≤ key b := by
  obtain ⟨-, before, after, hsplit, hbefore⟩ := List.find?_eq_some_iff_append.1 h
  have hsorted := List.pairwise_insertionSort (fun a b : α => key a ≤ key b) l
  have hmem : b ∈ sortBy key l := (List.perm_insertionSort _ l).mem_iff.2 hb
  rw [← sortBy, hsplit] at hsorted
  rw [hsplit, List.mem_append, List.mem_cons] at hmem
  rcases hmem with hmem | rfl | hmem
  · have hnot := hbefore b hmem
    rw [hpb] at hnot
    cases hnot
  · exact le_rfl
  · exact (List.pairwise_cons.1 (List.pairwise_append.1 hsorted).2.1).1 b hmem

theorem mem_of_find?_sortBy {p : α → Bool} {a : α} (h : (sortBy key l).find? p = some a) :
    a ∈ l ∧ p a = true :=
  ⟨(List.perm_insertionSort _ l).mem_iff.1 (List.mem_of_find?_eq_some h), List.find?_some h⟩

theorem getLast?_orderedInsert {a : α} (hl : l.Pairwise fun a b => key a ≤ key b) :
    (l.orderedInsert (fun a b => key a ≤ key b) a).getLast? =
      some (l.getLast?.elim a fun b => if key b < key a then a else b) := by
  induction l with
  | nil => rfl
  | cons b l ih =>
      obtain ⟨hhead, htail⟩ := List.pairwise_cons.1 hl
      rw [List.orderedInsert]
      by_cases hab : key a ≤ key b
      · have hlast : key a ≤ key (l.getLast?.getD b) := by
          cases hl : l.getLast? with
          | none => exact hab
          | some c => exact hab.trans (hhead c (List.mem_of_getLast? hl))
        rw [if_pos hab, List.getLast?_cons_cons, List.getLast?_cons, Option.elim_some,
          if_neg (not_lt.2 hlast)]
      · rw [if_neg hab, List.getLast?_cons, ih htail, List.getLast?_cons]
        cases l.getLast? <;> simp [not_le.1 hab]

theorem le_of_maxOn? {a m : α} (ha : a ∈ l) (hm : l.maxOn? key = some m) : key a ≤ key m := by
  have hle := List.le_apply_get_maxOn?_of_mem (f := key) ha
  simpa only [hm, Option.get_some] using hle

theorem getLast?_sortBy (key : α → κ) (l : List α) :
    (sortBy key l).getLast? = l.reverse.maxOn? key := by
  induction l with
  | nil => rfl
  | cons a l ih =>
      have hsorted := List.pairwise_insertionSort (fun a b => key a ≤ key b) l
      have hinsert := getLast?_orderedInsert (a := a) hsorted
      change ((sortBy key l).orderedInsert (fun a b => key a ≤ key b) a).getLast? = _ at hinsert
      rw [List.reverse_cons, List.maxOn?_append, ← ih, List.maxOn?_singleton]
      change ((sortBy key l).orderedInsert (fun a b => key a ≤ key b) a).getLast? = _
      rw [hinsert]
      change some ((sortBy key l).getLast?.elim a _) = _
      cases (sortBy key l).getLast? with
      | none => rfl
      | some c =>
          rw [Option.elim_some, Option.merge_some_some, maxOn_eq_if]
          rcases le_or_gt (key a) (key c) with hle | hlt
          · rw [if_neg (not_lt.2 hle), if_pos hle]
          · rw [if_pos hlt, if_neg (not_le.2 hlt)]

theorem length_le_one_of_reverse (hl : l.Nodup) (hreverse : l.reverse = l) : l.length ≤ 1 := by
  cases l with
  | nil => exact Nat.zero_le _
  | cons a l =>
      cases l with
      | nil => exact Nat.le_refl _
      | cons b l =>
          rw [List.reverse_cons] at hreverse
          have hlast := congrArg List.getLast? hreverse
          rw [List.getLast?_concat, List.getLast?_cons_cons] at hlast
          have hmem : a ∈ b :: l := List.mem_of_getLast? hlast.symm
          exact absurd hmem (List.nodup_cons.1 hl).1

/-- **What sorting by a key depends on.**  The sorted list, seen through `f`, is the same for every
order of the elements exactly when no two of them have one key. -/
theorem map_sortBy_perm_iff {f : α → α} (hkey : ∀ a, key (f a) = key a)
    (hl : (l.map f).Nodup) :
    (∀ l', l'.Perm l → (sortBy key l').map f = (sortBy key l).map f) ↔ (l.map key).Nodup := by
  have hfilter : ∀ (k : κ) (l : List α), (l.map f).filter (fun a => decide (key a = k)) =
      (l.filter fun a => decide (key a = k)).map f := by
    intro k l
    rw [List.filter_map]
    congr 1
    exact List.filter_congr fun a _ => by simp [hkey]
  constructor
  · intro hsame
    have hreverse := hsame l.reverse (List.reverse_perm l)
    rw [List.nodup_iff_count_le_one]
    intro k
    -- those of one key come in the order of the list, and in that of its reverse
    have hk := congrArg (List.filter fun a => decide (key a = k)) hreverse
    rw [hfilter, hfilter, filter_sortBy, filter_sortBy, List.filter_reverse,
      List.map_reverse] at hk
    have hnodup : ((l.filter fun a => decide (key a = k)).map f).Nodup := by
      rw [← hfilter]
      exact hl.filter _
    have hlength := length_le_one_of_reverse hnodup hk
    rw [List.length_map, ← List.countP_eq_length_filter] at hlength
    rw [List.count, List.countP_map]
    refine le_trans (le_of_eq ?_) hlength
    exact List.countP_congr fun a _ => by simp
  · intro hkeys l' hperm
    rw [sortBy_perm hkeys hperm]

end SortBy

end Foundations

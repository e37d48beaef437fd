import Mathlib.Data.List.MinMax
import Mathlib.Data.List.Dedup
import Mathlib.Data.List.Sort
import LoadCoach.Foundations.Exceptions

/-! # Selection by a key

The first of the elements with the largest key, where some elements may have no key at all
(`maxBy`), and one such element for every group of a list (`selectBy`).  There is a selection
exactly when every element has a key, it is one of the largest of each group, and it is the same for
every order of the list exactly when no group has two largest elements (`selectBy_perm_iff`). -/

namespace Foundations

variable {α γ κ : Type} {key : α → Option κ} {l l' : List α} {m : α}

/-! ### The largest element -/

/-- Every element has a key. -/
def HasKeys (key : α → Option κ) (l : List α) : Prop := ∀ a ∈ l, (key a).isSome = true

/-- The key of an element, or less than any key. -/
def rank (key : α → Option κ) (a : α) : WithBot κ := (key a).elim ⊥ fun k => (k : WithBot κ)

theorem all_hasKeys : (l.all fun a => (key a).isSome) = true ↔ HasKeys key l := List.all_eq_true

theorem HasKeys.perm (h : HasKeys key l) (hperm : l'.Perm l) : HasKeys key l' :=
  fun a ha => h a (hperm.mem_iff.1 ha)

variable [LinearOrder κ]

/-- The first of the elements with the largest key; `none` where one has no key, or there are no
elements. -/
def maxBy (key : α → Option κ) (l : List α) : Option α :=
  if l.all fun a => (key a).isSome then l.argmax (rank key) else none

/-- No element of a list has a larger key. -/
def Largest (key : α → Option κ) (l : List α) (m : α) : Prop := ∀ a ∈ l, rank key a ≤ rank key m

theorem maxBy_eq (h : HasKeys key l) : maxBy key l = l.argmax (rank key) :=
  if_pos (all_hasKeys.2 h)

theorem hasKeys_of_maxBy (h : maxBy key l = some m) : HasKeys key l := by
  unfold maxBy at h
  split_ifs at h with hall
  exact all_hasKeys.1 hall

theorem maxBy_spec (h : maxBy key l = some m) : m ∈ l ∧ Largest key l m := by
  rw [maxBy_eq (hasKeys_of_maxBy h)] at h
  exact ⟨List.argmax_mem h, fun a ha => List.le_of_mem_argmax ha h⟩

theorem maxBy_isSome_iff (hne : l ≠ []) : (maxBy key l).isSome = true ↔ HasKeys key l := by
  constructor
  · intro h
    obtain ⟨m, hm⟩ := Option.isSome_iff_exists.1 h
    exact hasKeys_of_maxBy hm
  · intro h
    rw [maxBy_eq h, Option.isSome_iff_ne_none]
    exact List.argmax_eq_none.not.2 hne

theorem maxBy_cons (hkeys : HasKeys key (m :: l)) (h : Largest key l m) :
    maxBy key (m :: l) = some m := by
  rw [maxBy_eq hkeys, List.argmax_cons]
  cases htail : l.argmax (rank key) with
  | none => rfl
  | some c => exact if_neg (not_lt.2 (h c (List.argmax_mem htail)))

theorem Largest.perm (h : Largest key l m) (hperm : l'.Perm l) : Largest key l' m :=
  fun a ha => h a (hperm.mem_iff.1 ha)

/-- **The choice does not depend on the order** exactly when only one element is largest. -/
theorem maxBy_perm_iff (hkeys : HasKeys key l) :
    (∀ l', l'.Perm l → maxBy key l' = maxBy key l) ↔
      ∀ a ∈ l, ∀ b ∈ l, Largest key l a → Largest key l b → a = b := by
  constructor
  · intro h a ha b hb hla hlb
    classical
    have hfront : ∀ c ∈ l, Largest key l c → maxBy key l = some c := by
      intro c hc hlc
      have hperm : (c :: l.erase c).Perm l := (List.perm_cons_erase hc).symm
      rw [← h _ hperm]
      exact maxBy_cons (hkeys.perm hperm) fun d hd => hlc d (List.mem_of_mem_erase hd)
    exact Option.some.inj ((hfront a ha hla).symm.trans (hfront b hb hlb))
  · intro h l' hperm
    cases hm' : maxBy key l' with
    | none =>
        have hnil : l' = [] := by
          by_contra hne
          have hsome := (maxBy_isSome_iff hne).2 (hkeys.perm hperm)
          rw [hm'] at hsome
          cases hsome
        rw [hnil] at hperm
        rw [List.nil_perm.1 hperm]
        rfl
    | some m' =>
        obtain ⟨hmem', hlargest'⟩ := maxBy_spec hm'
        have hne : l ≠ [] := List.ne_nil_of_mem (hperm.mem_iff.1 hmem')
        obtain ⟨m, hm⟩ := Option.isSome_iff_exists.1 ((maxBy_isSome_iff hne).2 hkeys)
        obtain ⟨hmem, hlargest⟩ := maxBy_spec hm
        rw [hm, h m' (hperm.mem_iff.1 hmem') m hmem (hlargest'.perm hperm.symm) hlargest]

/-! ### One of every group -/

variable [LinearOrder γ] {group : α → γ} {selected : List α} {g : γ}

/-- The groups of a list, in order. -/
def groups (group : α → γ) (l : List α) : List γ := (l.map group).dedup.insertionSort (· ≤ ·)

/-- The elements of one group. -/
def groupOf (group : α → γ) (l : List α) (g : γ) : List α := l.filter fun a => group a = g

/-- The largest element of every group, in the order of the groups. -/
def selectBy (group : α → γ) (key : α → Option κ) (l : List α) : Option (List α) :=
  (groups group l).mapM fun g => maxBy key (groupOf group l g)

omit [LinearOrder κ] in
theorem mem_groups : g ∈ groups group l ↔ ∃ a ∈ l, group a = g := by
  rw [groups, List.mem_insertionSort, List.mem_dedup, List.mem_map]

omit [LinearOrder κ] in
theorem groups_nodup : (groups group l).Nodup :=
  (List.perm_insertionSort _ _).nodup_iff.2 (List.nodup_dedup _)

omit [LinearOrder κ] in
theorem groups_perm (hperm : l'.Perm l) : groups group l' = groups group l := by
  refine List.Perm.eq_of_pairwise (fun a b _ _ => le_antisymm) (List.pairwise_insertionSort _ _)
    (List.pairwise_insertionSort _ _) ?_
  refine (List.perm_ext_iff_of_nodup groups_nodup groups_nodup).2 fun g => ?_
  simp only [mem_groups, hperm.mem_iff]

omit [LinearOrder κ] in
theorem mem_groupOf {a : α} : a ∈ groupOf group l g ↔ a ∈ l ∧ group a = g := by
  rw [groupOf, List.mem_filter, decide_eq_true_eq]

theorem groupOf_ne_nil (h : g ∈ groups group l) : groupOf group l g ≠ [] := by
  obtain ⟨a, ha, hg⟩ := mem_groups.1 h
  exact List.ne_nil_of_mem (mem_groupOf.2 ⟨ha, hg⟩)

/-- **There is a selection** exactly when every element has a key. -/
theorem selectBy_isSome_iff : (selectBy group key l).isSome = true ↔ HasKeys key l := by
  rw [selectBy, mapM_isSome_iff]
  constructor
  · intro h a ha
    have hgroup : group a ∈ groups group l := mem_groups.2 ⟨a, ha, rfl⟩
    exact (maxBy_isSome_iff (groupOf_ne_nil hgroup)).1 (h _ hgroup) a (mem_groupOf.2 ⟨ha, rfl⟩)
  · intro h g hg
    exact (maxBy_isSome_iff (groupOf_ne_nil hg)).2 fun a ha => h a (mem_groupOf.1 ha).1

theorem maxBy_of_selectBy (h : selectBy group key l = some selected) (hg : g ∈ groups group l) :
    ∃ m ∈ selected, maxBy key (groupOf group l g) = some m := by
  have hmap := mapM_eq_some.1 h
  have hmem : maxBy key (groupOf group l g) ∈ selected.map some :=
    hmap ▸ List.mem_map_of_mem (f := fun g => maxBy key (groupOf group l g)) hg
  obtain ⟨m, hm, heq⟩ := List.mem_map.1 hmem
  exact ⟨m, hm, heq.symm⟩

theorem map_group_of_selectBy (h : selectBy group key l = some selected) :
    selected.map group = groups group l := by
  have hmap := congrArg (List.map (Option.map group)) (mapM_eq_some.1 h)
  rw [List.map_map, List.map_map] at hmap
  have hgroups : (groups group l).map (Option.map group ∘ fun g =>
      maxBy key (groupOf group l g)) = (groups group l).map some := by
    refine List.map_congr_left fun g hg => ?_
    obtain ⟨m, -, hm⟩ := maxBy_of_selectBy h hg
    rw [Function.comp_apply, hm, Option.map_some, (mem_groupOf.1 (maxBy_spec hm).1).2]
  refine List.map_injective_iff.2 (Option.some_injective γ) ?_
  rw [← hgroups, hmap, List.map_map]
  rfl

/-- **A selection has one element of every group, one of the largest.** -/
theorem selectBy_spec (h : selectBy group key l = some selected) :
    (∀ m ∈ selected, m ∈ l) ∧ (selected.map group).Nodup ∧
      ∀ a ∈ l, ∃ m ∈ selected, group m = group a ∧ rank key a ≤ rank key m := by
  refine ⟨fun m hm => ?_, map_group_of_selectBy h ▸ groups_nodup, fun a ha => ?_⟩
  · have hmem : some m ∈ (groups group l).map fun g => maxBy key (groupOf group l g) :=
      mapM_eq_some.1 h ▸ List.mem_map_of_mem (f := some) hm
    obtain ⟨g, -, hg⟩ := List.mem_map.1 hmem
    exact (mem_groupOf.1 (maxBy_spec hg).1).1
  · obtain ⟨m, hm, hmax⟩ := maxBy_of_selectBy h (mem_groups.2 ⟨a, ha, rfl⟩)
    obtain ⟨hmem, hlargest⟩ := maxBy_spec hmax
    exact ⟨m, hm, (mem_groupOf.1 hmem).2, hlargest a (mem_groupOf.2 ⟨ha, rfl⟩)⟩

omit [LinearOrder κ] in
theorem exists_perm_groupOf {part : List α} (h : part.Perm (groupOf group l g)) :
    (part ++ l.filter fun a => !decide (group a = g)).Perm l ∧
      groupOf group (part ++ l.filter fun a => !decide (group a = g)) g = part := by
  have hall : ∀ a ∈ part, decide (group a = g) = true :=
    fun a ha => decide_eq_true (mem_groupOf.1 (h.mem_iff.1 ha)).2
  refine ⟨(h.append_right _).trans (List.filter_append_perm _ l), ?_⟩
  rw [groupOf, List.filter_append, List.filter_eq_self.2 hall, List.filter_filter]
  simp

/-- **A selection does not depend on the order** exactly when no group has two largest elements. -/
theorem selectBy_perm_iff (hkeys : HasKeys key l) :
    (∀ l', l'.Perm l → selectBy group key l' = selectBy group key l) ↔
      ∀ g, ∀ a ∈ groupOf group l g, ∀ b ∈ groupOf group l g,
        Largest key (groupOf group l g) a → Largest key (groupOf group l g) b → a = b := by
  have hgroup : ∀ g, HasKeys key (groupOf group l g) := fun g a ha => hkeys a (mem_groupOf.1 ha).1
  have hsome : (selectBy group key l).isSome = true := selectBy_isSome_iff.2 hkeys
  obtain ⟨selected, hselected⟩ := Option.isSome_iff_exists.1 hsome
  constructor
  · intro h g
    refine (maxBy_perm_iff (hgroup g)).1 fun part hpart => ?_
    by_cases hg : g ∈ groups group l
    · obtain ⟨hperm, hpartOf⟩ := exists_perm_groupOf hpart
      have hother := mapM_eq_some.1 ((h _ hperm).trans hselected)
      rw [groups_perm hperm, ← mapM_eq_some.1 hselected, List.map_inj_left] at hother
      rw [← hpartOf]
      exact hother g hg
    · have hnil : groupOf group l g = [] := by
        refine List.eq_nil_iff_forall_not_mem.2 fun a ha => hg (mem_groups.2 ⟨a, ?_⟩)
        exact mem_groupOf.1 ha
      rw [hnil] at hpart ⊢
      rw [List.perm_nil.1 hpart]
  · intro h l' hperm
    rw [hselected]
    refine mapM_eq_some.2 ?_
    rw [groups_perm hperm, ← mapM_eq_some.1 hselected]
    refine List.map_congr_left fun g _ => ?_
    exact (maxBy_perm_iff (hgroup g)).2 (h g) _ (hperm.filter _)

end Foundations

import Mathlib.Data.List.Sort
import LoadCoach.Foundations.Table

/-! # Paging through an ordered log

A log is read in pages: the entries after a key, in the order of their keys, at most `limit` of
them.  A reader that asks again after the last key it received, until it receives nothing, reads
the log (`Drains`).  `drains_page` says that with a positive limit this ends, and that it reads
every entry after the start exactly once and in order.

Two sources are read as one by putting them into a dictionary by key (`dictionary`), the second
one last, and listing it in order (`merged`).  `take_merged` is what makes a merge of pages the
page of the merge: the second source may be cut off after as many entries as the page takes. -/

namespace Foundations

variable {α κ : Type*} [LinearOrder κ] (key : α → κ)

/-! ### Ordered lists -/

/-- The keys of a list increase: no two entries have the same one. -/
def Ascending (l : List α) : Prop := l.Pairwise fun a b => key a < key b

variable {key} {l l₁ l₂ : List α} {a : α}

theorem Ascending.cons (hl : Ascending key (a :: l)) :
    (∀ b ∈ l, key a < key b) ∧ Ascending key l := List.pairwise_cons.1 hl

theorem Ascending.sublist (h : l₁.Sublist l₂) (hl : Ascending key l₂) : Ascending key l₁ :=
  List.Pairwise.sublist h hl

theorem Ascending.eq_of_key_eq {b : α} (hl : Ascending key l) (ha : a ∈ l) (hb : b ∈ l)
    (h : key a = key b) : a = b := by
  induction l with
  | nil => cases ha
  | cons c l ih =>
      obtain ⟨hhead, htail⟩ := hl.cons
      rcases List.mem_cons.1 ha with hac | ha'
      · rcases List.mem_cons.1 hb with hbc | hb'
        · rw [hac, hbc]
        · exact absurd (hac ▸ h) (hhead b hb').ne
      · rcases List.mem_cons.1 hb with hbc | hb'
        · exact absurd (hbc ▸ h) (hhead a ha').ne'
        · exact ih htail ha' hb'

/-- **An ascending list is determined by its entries.** -/
theorem Ascending.ext (h₁ : Ascending key l₁) (h₂ : Ascending key l₂)
    (hmem : ∀ a, a ∈ l₁ ↔ a ∈ l₂) : l₁ = l₂ := by
  have : Std.Irrefl fun a b : α => key a < key b := ⟨fun a => lt_irrefl (key a)⟩
  have : Std.Antisymm fun a b : α => key a < key b :=
    ⟨fun _ _ hab hba => absurd hab hba.asymm⟩
  exact List.Pairwise.eq_of_mem_iff h₁ h₂ (fun a => hmem a)

theorem Ascending.eq_filter_append (hl : Ascending key l) (bound : κ) :
    l = (l.filter fun a => decide (key a ≤ bound)) ++
      l.filter fun a => decide (bound < key a) := by
  induction l with
  | nil => rfl
  | cons a l ih =>
      obtain ⟨hhead, htail⟩ := hl.cons
      by_cases ha : key a ≤ bound
      · simpa [ha, not_lt.2 ha] using ih htail
      · have hnone : (l.filter fun b => decide (key b ≤ bound)) = [] := by
          refine List.filter_eq_nil_iff.2 fun b hb => ?_
          simpa using (lt_of_not_ge ha).trans (hhead b hb)
        have hall : (l.filter fun b => decide (bound < key b)) = l :=
          List.filter_eq_self.2 fun b hb => by
            simpa using (lt_of_not_ge ha).trans (hhead b hb)
        simp [ha, lt_of_not_ge ha, hnone, hall]

theorem Ascending.take_congr (bound : κ) {limit : ℕ} (h₁ : Ascending key l₁)
    (h₂ : Ascending key l₂) (hmem : ∀ a, key a ≤ bound → (a ∈ l₁ ↔ a ∈ l₂))
    (hlimit : limit ≤ (l₁.filter fun a => decide (key a ≤ bound)).length) :
    l₁.take limit = l₂.take limit := by
  have hsame : (l₁.filter fun a => decide (key a ≤ bound)) =
      l₂.filter fun a => decide (key a ≤ bound) := by
    refine (h₁.sublist List.filter_sublist).ext (h₂.sublist List.filter_sublist) fun a => ?_
    simp only [List.mem_filter, decide_eq_true_eq]
    constructor
    · rintro ⟨ha, hle⟩
      exact ⟨(hmem a hle).1 ha, hle⟩
    · rintro ⟨ha, hle⟩
      exact ⟨(hmem a hle).2 ha, hle⟩
  rw [h₁.eq_filter_append bound, h₂.eq_filter_append bound,
    List.take_append_of_le_length hlimit, List.take_append_of_le_length (hsame ▸ hlimit), hsame]

/-! ### Pages -/

variable (key) in
/-- At most `limit` entries after a key. -/
def page (limit : ℕ) (l : List α) (after : κ) : List α :=
  (l.filter fun a => decide (after < key a)).take limit

/-- Fetching after the last key received, until nothing is received. -/
inductive Drains (key : α → κ) (fetch : κ → List α) : κ → List α → Prop
  | finish {after : κ} (hempty : fetch after = []) : Drains key fetch after []
  | next {after : κ} {last : α} {rest : List α} (hlast : (fetch after).getLast? = some last)
      (hrest : Drains key fetch (key last) rest) : Drains key fetch after (fetch after ++ rest)

omit [LinearOrder κ] in
theorem Drains.unique {fetch : κ → List α} {after : κ} {out out' : List α}
    (h : Drains key fetch after out) (h' : Drains key fetch after out') : out = out' := by
  induction h generalizing out' with
  | finish hempty =>
      cases h' with
      | finish _ => rfl
      | next hlast _ => simp [hempty] at hlast
  | next hlast _ ih =>
      cases h' with
      | finish hempty => simp [hempty] at hlast
      | next hlast' hrest' =>
          cases hlast.symm.trans hlast'
          rw [ih hrest']

theorem Ascending.drop_page (hl : Ascending key l) {limit : ℕ} {after : κ} {last : α}
    (hlast : (page key limit l after).getLast? = some last) :
    (l.filter fun a => decide (after < key a)).drop limit =
      l.filter fun a => decide (key last < key a) := by
  set rest := l.filter fun a => decide (after < key a) with hrest
  have hasc : Ascending key rest := hl.sublist List.filter_sublist
  have hmem : last ∈ rest.take limit := List.mem_of_getLast? hlast
  have hbefore : after < key last := by
    have := List.mem_of_mem_take hmem
    simp only [hrest, List.mem_filter, decide_eq_true_eq] at this
    exact this.2
  refine (hasc.sublist (List.drop_sublist _ _)).ext (hl.sublist List.filter_sublist) fun a => ?_
  have hsplit : Ascending key (rest.take limit ++ rest.drop limit) := by
    rwa [List.take_append_drop]
  simp only [List.mem_filter, decide_eq_true_eq]
  constructor
  · intro ha
    have hlt := (List.pairwise_append.1 hsplit).2.2 last hmem a ha
    have hin := List.mem_of_mem_drop ha
    simp only [hrest, List.mem_filter] at hin
    exact ⟨hin.1, hlt⟩
  · rintro ⟨ha, hlt⟩
    have hin : a ∈ rest.take limit ++ rest.drop limit := by
      rw [List.take_append_drop, hrest]
      exact List.mem_filter.2 ⟨ha, decide_eq_true (hbefore.trans hlt)⟩
    refine (List.mem_append.1 hin).resolve_left fun htake => ?_
    -- the last entry of the page is the greatest one in it
    obtain ⟨front, hfront⟩ := List.getLast?_eq_some_iff.1 hlast
    change rest.take limit = front ++ [last] at hfront
    have hpage : Ascending key (front ++ [last]) := by
      rw [← hfront]
      exact hasc.sublist (List.take_sublist _ _)
    rw [hfront, List.mem_append, List.mem_singleton] at htake
    rcases htake with htake | rfl
    · have := (List.pairwise_append.1 hpage).2.2 a htake last (by simp)
      exact absurd this hlt.asymm
    · exact absurd hlt (lt_irrefl _)

/-- **Paging with a positive limit reads every entry after the start, once and in order.** -/
theorem drains_page (hl : Ascending key l) {limit : ℕ} (hlimit : 0 < limit) (after : κ) :
    Drains key (page key limit l) after (l.filter fun a => decide (after < key a)) := by
  induction hlength : (l.filter fun a => decide (after < key a)).length
    using Nat.strong_induction_on generalizing after with
  | _ n ih =>
      cases hlast : (page key limit l after).getLast? with
      | none =>
          have hempty : page key limit l after = [] := List.getLast?_eq_none_iff.1 hlast
          have hnone : (l.filter fun a => decide (after < key a)) = [] := by
            rcases List.take_eq_nil_iff.1 hempty with hzero | hnil
            · omega
            · exact hnil
          rw [hnone]
          exact .finish hempty
      | some last =>
          have hdrop := hl.drop_page hlast
          have hne : page key limit l after ≠ [] := by
            rintro hnil
            simp [hnil] at hlast
          have hfewer : (l.filter fun a => decide (key last < key a)).length < n := by
            have hpos : (l.filter fun a => decide (after < key a)).length ≠ 0 := by
              intro hzero
              exact hne (by simp [page, List.length_eq_zero_iff.1 hzero])
            rw [← hdrop, List.length_drop]
            omega
          have hrest := ih _ hfewer (key last) rfl
          have hall : (l.filter fun a => decide (after < key a)) =
              page key limit l after ++ l.filter fun a => decide (key last < key a) := by
            rw [← hdrop, page, List.take_append_drop]
          rw [hall]
          exact .next hlast hrest

/-! ### Two sources as one -/

variable (key) in
/-- A dictionary by key; a later entry takes the place of an earlier one. -/
def dictionary (t : Table κ α) (l : List α) : Table κ α := l.foldl (fun t a => t.insert (key a) a) t

/-- The values of a dictionary in the order of their keys. -/
def inOrder (t : Table κ α) : List α :=
  (t.keys.insertionSort (· ≤ ·)).filterMap fun k => t.lookup k

variable {t : Table κ α}

theorem lookup_dictionary_of_notMem {k : κ} (h : ∀ a ∈ l, key a ≠ k) :
    (dictionary key t l).lookup k = t.lookup k := by
  induction l generalizing t with
  | nil => rfl
  | cons a l ih =>
      have hne : k ≠ key a := (h a List.mem_cons_self).symm
      rw [dictionary, List.foldl_cons, ← dictionary,
        ih fun b hb => h b (List.mem_cons_of_mem _ hb), AList.lookup_insert_ne hne]

theorem lookup_dictionary_of_mem (hl : Ascending key l) (ha : a ∈ l) :
    (dictionary key t l).lookup (key a) = some a := by
  induction l generalizing t with
  | nil => cases ha
  | cons b l ih =>
      obtain ⟨hhead, htail⟩ := hl.cons
      rw [dictionary, List.foldl_cons, ← dictionary]
      rcases List.mem_cons.1 ha with rfl | ha
      · rw [lookup_dictionary_of_notMem fun b hb => (hhead b hb).ne', AList.lookup_insert]
      · exact ih htail ha

variable (key) in
/-- Every value of a dictionary stands under its own key. -/
def Keyed (t : Table κ α) : Prop := ∀ k a, t.lookup k = some a → key a = k

theorem keyed_empty : Keyed key (∅ : Table κ α) := by
  intro k a h
  cases h

theorem Keyed.dictionary (ht : Keyed key t) (l : List α) : Keyed key (dictionary key t l) := by
  induction l generalizing t with
  | nil => exact ht
  | cons b l ih =>
      refine ih ?_
      intro k a h
      by_cases hk : k = key b
      · rw [hk, AList.lookup_insert] at h
        rw [hk, Option.some.inj h]
      · rw [AList.lookup_insert_ne hk] at h
        exact ht k a h

theorem Keyed.mem_inOrder (ht : Keyed key t) (a : α) :
    a ∈ inOrder t ↔ t.lookup (key a) = some a := by
  simp only [inOrder, List.mem_filterMap, List.mem_insertionSort]
  constructor
  · rintro ⟨k, -, hk⟩
    rwa [ht k a hk]
  · intro h
    exact ⟨key a, AList.mem_keys.2 (AList.lookup_isSome.1 (by simp [h])), h⟩

theorem Keyed.ascending_inOrder (ht : Keyed key t) : Ascending key (inOrder t) := by
  have hsorted : (t.keys.insertionSort (· ≤ ·)).Pairwise (· < ·) := by
    have hle := List.pairwise_insertionSort (· ≤ ·) t.keys
    have hne : (t.keys.insertionSort (· ≤ ·)).Pairwise (· ≠ ·) :=
      (List.perm_insertionSort _ _).nodup_iff.2 t.keys_nodup
    exact (hle.and hne).imp fun h => lt_of_le_of_ne h.1 h.2
  refine List.Pairwise.filterMap _ ?_ hsorted
  intro k k' hlt a ha b hb
  rw [ht k a ha, ht k' b hb]
  exact hlt

variable (key) in
/-- Two sources as one list; the second wins where both have a key. -/
def merged (l₁ l₂ : List α) : List α := inOrder (dictionary key (dictionary key ∅ l₁) l₂)

theorem ascending_merged (l₁ l₂ : List α) : Ascending key (merged key l₁ l₂) :=
  ((keyed_empty.dictionary l₁).dictionary l₂).ascending_inOrder

theorem mem_merged (h₁ : Ascending key l₁) (h₂ : Ascending key l₂) :
    a ∈ merged key l₁ l₂ ↔ a ∈ l₂ ∨ a ∈ l₁ ∧ ∀ b ∈ l₂, key b ≠ key a := by
  rw [merged, ((keyed_empty.dictionary l₁).dictionary l₂).mem_inOrder]
  by_cases hsecond : ∃ b ∈ l₂, key b = key a
  · obtain ⟨b, hb, hkey⟩ := hsecond
    rw [← hkey, lookup_dictionary_of_mem h₂ hb]
    constructor
    · intro h
      exact .inl (Option.some.inj h ▸ hb)
    · rintro (ha | ⟨-, hne⟩)
      · rw [← lookup_dictionary_of_mem (t := dictionary key ∅ l₁) h₂ ha, ← hkey,
          lookup_dictionary_of_mem h₂ hb]
      · exact absurd rfl (hne b hb)
  · simp only [not_exists, not_and] at hsecond
    rw [lookup_dictionary_of_notMem hsecond]
    constructor
    · intro h
      refine .inr ⟨?_, hsecond⟩
      by_contra ha
      by_cases hfirst : ∃ b ∈ l₁, key b = key a
      · obtain ⟨b, hb, hkey⟩ := hfirst
        rw [← hkey, lookup_dictionary_of_mem h₁ hb] at h
        exact ha (Option.some.inj h ▸ hb)
      · simp only [not_exists, not_and] at hfirst
        rw [lookup_dictionary_of_notMem hfirst] at h
        cases h
    · rintro (ha | ⟨ha, -⟩)
      · exact absurd rfl (hsecond a ha)
      · exact lookup_dictionary_of_mem h₁ ha

/-- What comes after a key in a merge is the merge of what comes after it. -/
theorem merged_filter (h₁ : Ascending key l₁) (h₂ : Ascending key l₂) (after : κ) :
    merged key (l₁.filter fun a => decide (after < key a))
        (l₂.filter fun a => decide (after < key a)) =
      (merged key l₁ l₂).filter fun a => decide (after < key a) := by
  refine (ascending_merged _ _).ext ((ascending_merged _ _).sublist List.filter_sublist) ?_
  intro a
  rw [mem_merged (h₁.sublist List.filter_sublist) (h₂.sublist List.filter_sublist)]
  simp only [List.mem_filter, mem_merged h₁ h₂, decide_eq_true_eq]
  constructor
  · rintro (⟨ha, hlt⟩ | ⟨⟨ha, hlt⟩, hne⟩)
    · exact ⟨.inl ha, hlt⟩
    · refine ⟨.inr ⟨ha, fun b hb hkey => ?_⟩, hlt⟩
      exact hne b ⟨hb, hkey.symm ▸ hlt⟩ hkey
  · rintro ⟨ha | ⟨ha, hne⟩, hlt⟩
    · exact .inl ⟨ha, hlt⟩
    · exact .inr ⟨⟨ha, hlt⟩, fun b hb => hne b hb.1⟩

theorem merged_nil (hl : Ascending key l) : merged key [] l = l := by
  refine (ascending_merged _ _).ext hl fun a => ?_
  rw [mem_merged List.Pairwise.nil hl]
  simp

theorem lookup_dictionary_take {l : List α} (hl : Ascending key l) {limit : ℕ} {last : α}
    (hlast : last ∈ l.take limit) (t : Table κ α) {k : κ} (hk : k ≤ key last) :
    (dictionary key t (l.take limit)).lookup k = (dictionary key t l).lookup k := by
  have hcut := hl.sublist (List.take_sublist limit l)
  have hsplit : Ascending key (l.take limit ++ l.drop limit) := by
    rwa [List.take_append_drop]
  by_cases hin : ∃ a ∈ l.take limit, key a = k
  · obtain ⟨a, ha, rfl⟩ := hin
    rw [lookup_dictionary_of_mem hcut ha,
      lookup_dictionary_of_mem hl (List.mem_of_mem_take ha)]
  · simp only [not_exists, not_and] at hin
    rw [lookup_dictionary_of_notMem hin, lookup_dictionary_of_notMem]
    intro a ha
    rw [← List.take_append_drop limit l] at ha
    rcases List.mem_append.1 ha with ha | ha
    · exact hin a ha
    · exact (hk.trans_lt ((List.pairwise_append.1 hsplit).2.2 last hlast a ha)).ne'

/-- **A merge of pages.**  Of two sources read as one, the second may be cut off after as many
entries as are taken of the merge. -/
theorem take_merged (l' : List α) (hl : Ascending key l) (limit : ℕ) :
    (merged key l' (l.take limit)).take limit = (merged key l' l).take limit := by
  unfold merged
  have ht : Keyed key (dictionary key ∅ l') := keyed_empty.dictionary l'
  generalize dictionary key ∅ l' = t at ht
  by_cases hlong : l.length ≤ limit
  · rw [List.take_of_length_le hlong]
  · cases hlast : (l.take limit).getLast? with
    | none =>
        have hnil : l.take limit = [] := List.getLast?_eq_none_iff.1 hlast
        rcases List.take_eq_nil_iff.1 hnil with hzero | hempty
        · simp [hzero]
        · simp [hempty] at hlong
    | some last =>
        obtain ⟨front, hfront⟩ := List.getLast?_eq_some_iff.1 hlast
        have hcut := hl.sublist (List.take_sublist limit l)
        have hmem : last ∈ l.take limit := by simp [hfront]
        have hbelow : ∀ a ∈ l.take limit, key a ≤ key last := by
          intro a ha
          rw [hfront] at ha hcut
          rcases List.mem_append.1 ha with ha | ha
          · exact ((List.pairwise_append.1 hcut).2.2 a ha last (by simp)).le
          · rw [List.mem_singleton.1 ha]
        refine (ht.dictionary _).ascending_inOrder.take_congr (key last)
          (ht.dictionary _).ascending_inOrder ?_ ?_
        · intro a ha
          rw [(ht.dictionary _).mem_inOrder, (ht.dictionary _).mem_inOrder,
            lookup_dictionary_take hl hmem t ha]
        · -- all the entries of the cut source are among those up to the bound
          have hsub : l.take limit ⊆
              (inOrder (dictionary key t (l.take limit))).filter
                fun a => decide (key a ≤ key last) := by
            intro a ha
            exact List.mem_filter.2 ⟨((ht.dictionary _).mem_inOrder a).2
              (lookup_dictionary_of_mem hcut ha), decide_eq_true (hbelow a ha)⟩
          have hnodup : (l.take limit).Nodup := hcut.imp fun h => by
            rintro rfl
            exact lt_irrefl _ h
          have hle := (List.subperm_of_subset hnodup hsub).length_le
          rw [List.length_take] at hle
          omega

end Foundations

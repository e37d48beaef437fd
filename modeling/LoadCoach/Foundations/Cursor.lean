import Mathlib.Data.List.Sort

/-! # Paging by a coarser key

A list is read in pages of `n` items, and the cursor of a page is made from its last item.  The list
is in the order of a key, but items may have the same key: what follows a cursor is what has a
greater key than the item it was made from.

`follows_iff` says what a reader who follows the cursors receives: the whole list exactly when no two
items with one key stand on both sides of a boundary between pages. -/

namespace Foundations

variable {α γ κ : Type*}

/-! ### Following cursors -/

/-- Fetching from a cursor on, and from each cursor that comes with a page. -/
inductive Follows (fetch : Option γ → List α × Option γ) : Option γ → List α → Prop
  | finish {cursor : Option γ} {items : List α} (h : fetch cursor = (items, none)) :
      Follows fetch cursor items
  | next {cursor : Option γ} {next : γ} {items rest : List α}
      (h : fetch cursor = (items, some next)) (hrest : Follows fetch (some next) rest) :
      Follows fetch cursor (items ++ rest)

theorem follows_of_none {fetch : Option γ → List α × Option γ} {cursor : Option γ}
    {items out : List α} (h : fetch cursor = (items, none)) :
    Follows fetch cursor out ↔ out = items := by
  constructor
  · intro hout
    cases hout with
    | finish h' => rw [h, Prod.mk.injEq] at h'; exact h'.1.symm
    | next h' _ => rw [h, Prod.mk.injEq] at h'; cases h'.2
  · rintro rfl
    exact .finish h

theorem follows_of_some {fetch : Option γ → List α × Option γ} {cursor : Option γ} {next : γ}
    {items out : List α} (h : fetch cursor = (items, some next)) :
    Follows fetch cursor out ↔ ∃ rest, out = items ++ rest ∧ Follows fetch (some next) rest := by
  constructor
  · intro hout
    cases hout with
    | finish h' => rw [h, Prod.mk.injEq] at h'; cases h'.2
    | next h' hrest =>
        rw [h, Prod.mk.injEq, Option.some.injEq] at h'
        obtain ⟨rfl, rfl⟩ := h'
        exact ⟨_, rfl, hrest⟩
  · rintro ⟨rest, rfl, hrest⟩
    exact .next h hrest

theorem Follows.unique {fetch : Option γ → List α × Option γ} {cursor : Option γ}
    {out out' : List α} (h : Follows fetch cursor out) (h' : Follows fetch cursor out') :
    out = out' := by
  induction h generalizing out' with
  | finish hpage => exact ((follows_of_none hpage).1 h').symm
  | next hpage _ ih =>
      obtain ⟨rest, rfl, hrest⟩ := (follows_of_some hpage).1 h'
      rw [ih hrest]

/-! ### Pages -/

section Pages

variable [LinearOrder κ] (key : α → κ) (token : α → γ) (decode : γ → Option κ)

/-- What follows a cursor. -/
def beyond (l : List α) (cursor : Option γ) : List α :=
  l.filter fun a => (cursor.bind decode).all (· < key a)

/-- At most `n` of the items that follow a cursor, and a cursor if these are not all. -/
def cursorPage (n : ℕ) (l : List α) (cursor : Option γ) : List α × Option γ :=
  let items := (beyond key decode l cursor).take n
  (items, if n < (beyond key decode l cursor).length then items.getLast?.map token else none)

/-- No two items with one key stand on both sides of a boundary between pages. -/
def DistinctBoundaries (n : ℕ) (l : List α) : Prop :=
  ∀ k a b, 1 ≤ k → l[k * n - 1]? = some a → l[k * n]? = some b → key a < key b

variable {key token decode} {n : ℕ} {l : List α} {cursor : Option γ}

theorem distinctBoundaries_of_length_le (h : l.length ≤ n) : DistinctBoundaries key n l := by
  intro k a b hk _ hb
  obtain ⟨hlt, -⟩ := List.getElem?_eq_some_iff.1 hb
  have : n ≤ k * n := Nat.le_mul_of_pos_left n hk
  omega

theorem distinctBoundaries_iff (hn : 1 ≤ n) : DistinctBoundaries key n l ↔
    (∀ a b, l[n - 1]? = some a → l[n]? = some b → key a < key b) ∧
      DistinctBoundaries key n (l.drop n) := by
  have hnext : ∀ k, 1 ≤ k → n + (k * n - 1) = (k + 1) * n - 1 ∧ n + k * n = (k + 1) * n := by
    intro k hk
    have hpos : 0 < k * n := Nat.mul_pos hk hn
    rw [Nat.add_one_mul]
    omega
  constructor
  · intro h
    refine ⟨fun a b ha hb => h 1 a b le_rfl (by simpa using ha) (by simpa using hb), ?_⟩
    intro k a b hk ha hb
    rw [List.getElem?_drop, (hnext k hk).1] at ha
    rw [List.getElem?_drop, (hnext k hk).2] at hb
    exact h (k + 1) a b (Nat.le_add_left 1 k) ha hb
  · rintro ⟨hfirst, hrest⟩ k a b hk ha hb
    obtain ⟨k, rfl⟩ := Nat.exists_eq_add_of_le' hk
    obtain rfl | hk := Nat.eq_zero_or_pos k
    · exact hfirst a b (by simpa using ha) (by simpa using hb)
    · refine hrest k a b hk ?_ ?_
      · rw [List.getElem?_drop, (hnext k hk).1]
        exact ha
      · rw [List.getElem?_drop, (hnext k hk).2]
        exact hb

/-- **What follows the last item of a page**: of what follows the page, the items with a greater
key. -/
theorem beyond_token (hl : l.Pairwise fun a b => key a ≤ key b)
    (hdecode : ∀ a ∈ l, decode (token a) = some (key a)) {a : α}
    (ha : (beyond key decode l cursor)[n]? = some a) :
    beyond key decode l (some (token a)) =
      ((beyond key decode l cursor).drop (n + 1)).filter fun b => decide (key a < key b) := by
  have hin : a ∈ beyond key decode l cursor := List.mem_of_getElem? ha
  obtain ⟨hal, hafter⟩ := List.mem_filter.1 hin
  have hsub : beyond key decode l (some (token a)) =
      (beyond key decode l cursor).filter fun b => decide (key a < key b) := by
    rw [beyond, beyond, List.filter_filter]
    refine List.filter_congr fun b _ => ?_
    rw [Option.bind_some, hdecode a hal, Option.all_some, Bool.eq_iff_iff, Bool.and_eq_true,
      decide_eq_true_eq]
    refine ⟨fun hlt => ⟨hlt, ?_⟩, And.left⟩
    cases hcursor : cursor.bind decode with
    | none => rfl
    | some c =>
        rw [hcursor, Option.all_some, decide_eq_true_eq] at hafter
        exact decide_eq_true (hafter.trans hlt)
  have hsorted : (beyond key decode l cursor).Pairwise fun a b => key a ≤ key b :=
    hl.sublist List.filter_sublist
  have hnone : ((beyond key decode l cursor).take (n + 1)).filter
      (fun b => decide (key a < key b)) = [] := by
    refine List.filter_eq_nil_iff.2 fun b hb => ?_
    rw [decide_eq_true_eq, not_lt]
    obtain ⟨hlt, rfl⟩ := List.getElem?_eq_some_iff.1 ha
    obtain ⟨i, hi, rfl⟩ := List.getElem_of_mem hb
    rw [List.length_take] at hi
    rw [List.getElem_take]
    have hle : i ≤ n := by omega
    obtain rfl | hless := hle.eq_or_lt
    · exact le_rfl
    · exact List.pairwise_iff_getElem.1 hsorted _ _ _ _ hless
  rw [hsub, ← List.take_append_drop (n + 1) (beyond key decode l cursor), List.filter_append,
    hnone, List.nil_append, List.take_append_drop]

theorem cursorPage_of_le (h : (beyond key decode l cursor).length ≤ n) :
    cursorPage key token decode n l cursor = (beyond key decode l cursor, none) := by
  rw [cursorPage, if_neg (not_lt.2 h), List.take_of_length_le h]

theorem cursorPage_of_lt (hn : 1 ≤ n) (h : n < (beyond key decode l cursor).length) :
    ∃ a, (beyond key decode l cursor)[n - 1]? = some a ∧
      cursorPage key token decode n l cursor =
        ((beyond key decode l cursor).take n, some (token a)) := by
  have hlast : n - 1 < (beyond key decode l cursor).length := by omega
  refine ⟨_, List.getElem?_eq_getElem hlast, ?_⟩
  have hlength : ((beyond key decode l cursor).take n).length = n := by
    rw [List.length_take]
    omega
  rw [cursorPage, if_pos h, List.getLast?_eq_getElem?, hlength, List.getElem?_take_of_lt (by omega),
    List.getElem?_eq_getElem hlast]
  rfl

variable (hn : 1 ≤ n) (hl : l.Pairwise fun a b => key a ≤ key b)
  (hdecode : ∀ a ∈ l, decode (token a) = some (key a))

include hn hl hdecode

theorem beyond_next {a : α} (ha : (beyond key decode l cursor)[n - 1]? = some a) :
    beyond key decode l (some (token a)) =
      ((beyond key decode l cursor).drop n).filter fun b => decide (key a < key b) := by
  rw [beyond_token hl hdecode ha, Nat.sub_add_cancel hn]

theorem beyond_next_sublist {a : α} (ha : (beyond key decode l cursor)[n - 1]? = some a) :
    (beyond key decode l (some (token a))).Sublist ((beyond key decode l cursor).drop n) ∧
      (beyond key decode l (some (token a))).length < (beyond key decode l cursor).length := by
  have hsub : (beyond key decode l (some (token a))).Sublist
      ((beyond key decode l cursor).drop n) :=
    beyond_next hn hl hdecode ha ▸ List.filter_sublist
  obtain ⟨hlt, -⟩ := List.getElem?_eq_some_iff.1 ha
  have hle := hsub.length_le
  rw [List.length_drop] at hle
  exact ⟨hsub, by omega⟩

/-- What follows the cursor of a page is all that follows the page exactly when the keys differ at
the boundary. -/
theorem beyond_next_eq_iff {a : α} (ha : (beyond key decode l cursor)[n - 1]? = some a) :
    beyond key decode l (some (token a)) = (beyond key decode l cursor).drop n ↔
      ∀ a b, (beyond key decode l cursor)[n - 1]? = some a →
        (beyond key decode l cursor)[n]? = some b → key a < key b := by
  have hsorted : (beyond key decode l cursor).Pairwise fun a b => key a ≤ key b :=
    hl.sublist List.filter_sublist
  rw [beyond_next hn hl hdecode ha, List.filter_eq_self]
  simp only [ha, Option.some.injEq, decide_eq_true_eq]
  constructor
  · rintro hall _ b rfl hb
    exact hall b (List.mem_of_getElem? (i := 0) (by rw [List.getElem?_drop]; exact hb))
  · intro hfirst b hb
    obtain ⟨i, hi, rfl⟩ := List.getElem_of_mem hb
    rw [List.length_drop] at hi
    have hlt : n < (beyond key decode l cursor).length := by omega
    refine (hfirst a _ rfl (List.getElem?_eq_getElem hlt)).trans_le ?_
    rw [List.getElem_drop]
    obtain rfl | hpos := Nat.eq_zero_or_pos i
    · exact le_rfl
    · exact List.pairwise_iff_getElem.1 hsorted _ _ _ _ (by omega)

/-- **A reader receives items in order, and none twice**, and comes to the end. -/
theorem exists_follows : ∃ out, Follows (cursorPage key token decode n l) cursor out ∧
    out.Sublist (beyond key decode l cursor) := by
  induction hlength : (beyond key decode l cursor).length using Nat.strong_induction_on
    generalizing cursor with
  | _ length ih =>
      obtain hle | hlt := le_or_gt (beyond key decode l cursor).length n
      · exact ⟨_, .finish (cursorPage_of_le hle), List.Sublist.refl _⟩
      · obtain ⟨a, ha, hpage⟩ := cursorPage_of_lt hn hlt
        obtain ⟨hsub, hshorter⟩ := beyond_next_sublist hn hl hdecode ha
        rw [hlength] at hshorter
        obtain ⟨rest, hrest, hrestSub⟩ := ih _ hshorter rfl
        refine ⟨_, .next hpage hrest, ?_⟩
        have happend := (List.Sublist.refl ((beyond key decode l cursor).take n)).append
          (hrestSub.trans hsub)
        rwa [List.take_append_drop] at happend

/-- **A reader receives the whole list** exactly when the keys differ at each boundary between
pages. -/
theorem follows_iff : Follows (cursorPage key token decode n l) cursor
      (beyond key decode l cursor) ↔ DistinctBoundaries key n (beyond key decode l cursor) := by
  induction hlength : (beyond key decode l cursor).length using Nat.strong_induction_on
    generalizing cursor with
  | _ length ih =>
      obtain hle | hlt := le_or_gt (beyond key decode l cursor).length n
      · exact iff_of_true (.finish (cursorPage_of_le hle)) (distinctBoundaries_of_length_le hle)
      · obtain ⟨a, ha, hpage⟩ := cursorPage_of_lt hn hlt
        have hfollows : Follows (cursorPage key token decode n l) cursor
              (beyond key decode l cursor) ↔
            Follows (cursorPage key token decode n l) (some (token a))
              ((beyond key decode l cursor).drop n) := by
          rw [follows_of_some hpage]
          constructor
          · rintro ⟨rest, heq, hrest⟩
            have hsame := heq.symm.trans (List.take_append_drop n _).symm
            rwa [List.append_cancel_left hsame] at hrest
          · intro hrest
            exact ⟨_, (List.take_append_drop n _).symm, hrest⟩
        rw [hfollows, distinctBoundaries_iff hn, ← beyond_next_eq_iff hn hl hdecode ha]
        obtain ⟨hsub, hshorter⟩ := beyond_next_sublist hn hl hdecode ha
        rw [hlength] at hshorter
        constructor
        · intro hrest
          obtain ⟨out, hout, houtSub⟩ : ∃ out, Follows _ (some (token a)) out ∧ _ :=
            exists_follows hn hl hdecode
          rw [← hrest.unique hout] at houtSub
          have hsame := hsub.antisymm houtSub
          rw [← hsame] at hrest ⊢
          exact ⟨rfl, (ih _ hshorter rfl).1 hrest⟩
        · rintro ⟨hsame, hdistinct⟩
          rw [← hsame] at hdistinct ⊢
          exact (ih _ hshorter rfl).2 hdistinct

end Pages

end Foundations

import LoadCoach.Foundations.Table

/-! # Tables with a unique index

A table with a primary key whose rows are told apart by a second value, the index: no two rows have
the same.  `find` reads by the index (`find_eq_some_iff`); a row is written with `put`, which asks
that no other row has its index, and rewritten in place with `mapRows`.

`freshId` is a key for a new row. -/

namespace Foundations

/-! ### Fresh keys -/

/-- A key no row of a table has. -/
def freshId {ρ : Type*} (t : Table ℕ ρ) : ℕ := t.keys.foldr max 0 + 1

theorem freshId_notMem {ρ : Type*} (t : Table ℕ ρ) : freshId t ∉ t := by
  intro hmem
  have hle : ∀ l : List ℕ, ∀ k ∈ l, k ≤ l.foldr max 0 := by
    intro l
    induction l with
    | nil => simp
    | cons a l ih =>
        intro k hk
        rw [List.foldr_cons]
        rcases List.mem_cons.1 hk with rfl | hk
        · exact le_max_left _ _
        · exact Nat.le_trans (ih k hk) (le_max_right _ _)
  have hlast := hle t.keys _ (AList.mem_keys.2 hmem)
  rw [freshId] at hlast
  omega

/-! ### The index -/

/-- A table whose rows `index` tells apart. -/
structure Indexed (κ : Type*) {ρ β : Type*} [DecidableEq κ] (index : ρ → β) where
  rows : Table κ ρ := ∅
  unique : ∀ {k k' r r'}, rows.lookup k = some r → rows.lookup k' = some r' →
    index r = index r' → k = k' := by
      intro k k' r r' h
      cases h

namespace Indexed

variable {κ ρ β : Type*} [DecidableEq κ] [DecidableEq β] {index : ρ → β} {t : Indexed κ index}
  {i : β} {k : κ} {r : ρ}

/-- The table without rows. -/
def empty : Indexed κ index where

/-- The row of an index. -/
def find (t : Indexed κ index) (i : β) : Option (κ × ρ) :=
  (t.rows.select fun _ r => decide (index r = i)).head?

theorem find_eq_some_iff : t.find i = some (k, r) ↔ t.rows.lookup k = some r ∧ index r = i := by
  have hmem : ∀ e : κ × ρ, e ∈ (t.rows.select fun _ r => decide (index r = i)) ↔
      t.rows.lookup e.1 = some e.2 ∧ index e.2 = i := by
    intro e
    rw [Table.mem_select]
    simp
  constructor
  · intro h
    exact (hmem (k, r)).1 (List.mem_of_head? h)
  · intro h
    have hin := (hmem (k, r)).2 h
    cases hfirst : t.find i with
    | none =>
        rw [find, List.head?_eq_none_iff] at hfirst
        rw [hfirst] at hin
        cases hin
    | some e =>
        have hother := (hmem e).1 (List.mem_of_head? hfirst)
        have hkey : k = e.1 := t.unique h.1 hother.1 (h.2.trans hother.2.symm)
        rw [hkey, hother.1] at h
        rw [hkey, ← Option.some.inj h.1]

theorem find_eq_none_iff : t.find i = none ↔ ∀ k r, t.rows.lookup k = some r → index r ≠ i := by
  constructor
  · intro h k r hrow hindex
    rw [find_eq_some_iff.2 ⟨hrow, hindex⟩] at h
    cases h
  · intro h
    cases hfind : t.find i with
    | none => rfl
    | some e =>
        obtain ⟨hrow, hindex⟩ := find_eq_some_iff.1 hfind
        exact absurd hindex (h e.1 e.2 hrow)

/-- Write a row whose index no other row has. -/
def put (t : Indexed κ index) (k : κ) (r : ρ)
    (h : ∀ k' r', t.rows.lookup k' = some r' → index r' = index r → k' = k) : Indexed κ index where
  rows := t.rows.insert k r
  unique := by
    intro a b ra rb ha hb hsame
    by_cases hka : a = k
    · by_cases hkb : b = k
      · rw [hka, hkb]
      · rw [hka, AList.lookup_insert] at ha
        rw [AList.lookup_insert_ne hkb] at hb
        rw [hka]
        exact (h b rb hb (hsame.symm.trans (Option.some.inj ha ▸ rfl))).symm
    · rw [AList.lookup_insert_ne hka] at ha
      by_cases hkb : b = k
      · rw [hkb, AList.lookup_insert] at hb
        rw [hkb]
        exact h a ra ha (hsame.trans (Option.some.inj hb ▸ rfl))
      · rw [AList.lookup_insert_ne hkb] at hb
        exact t.unique ha hb hsame

/-- **Reading after a write**: the row that was written, or another of the index. -/
theorem find_put (h : ∀ k' r', t.rows.lookup k' = some r' → index r' = index r → k' = k) :
    (t.put k r h).find i =
      if index r = i then some (k, r) else (t.find i).filter fun e => decide (e.1 ≠ k) := by
  by_cases hindex : index r = i
  · rw [if_pos hindex]
    exact find_eq_some_iff.2 ⟨AList.lookup_insert _, hindex⟩
  · rw [if_neg hindex]
    cases hfind : (t.find i).filter fun e => decide (e.1 ≠ k) with
    | some e =>
        obtain ⟨hsome, hother⟩ := Option.filter_eq_some_iff.1 hfind
        obtain ⟨hrow, hi⟩ := find_eq_some_iff.1 hsome
        exact find_eq_some_iff.2 ⟨(AList.lookup_insert_ne (by simpa using hother)).trans hrow, hi⟩
    | none =>
        refine find_eq_none_iff.2 fun k' r' hrow hi => ?_
        by_cases hk : k' = k
        · rw [hk, put, AList.lookup_insert] at hrow
          exact hindex (Option.some.inj hrow ▸ hi)
        · rw [put, AList.lookup_insert_ne hk] at hrow
          rw [find_eq_some_iff.2 ⟨hrow, hi⟩] at hfind
          simp [hk] at hfind

/-- The table that holds one row. -/
def single (k : κ) (r : ρ) : Indexed κ index := put empty k r fun _ _ h => by cases h

/-- Rewrite every row in place, its index staying. -/
def mapRows (t : Indexed κ index) (f : κ → ρ → ρ) (h : ∀ k r, index (f k r) = index r) :
    Indexed κ index where
  rows := t.rows.mapRows f
  unique := by
    intro a b ra rb ha hb hsame
    rw [Table.lookup_mapRows, Option.map_eq_some_iff] at ha hb
    obtain ⟨ra, ha, rfl⟩ := ha
    obtain ⟨rb, hb, rfl⟩ := hb
    rw [h, h] at hsame
    exact t.unique ha hb hsame

/-- Reading after a rewrite: the row that was there, rewritten. -/
theorem find_mapRows {f : κ → ρ → ρ} (h : ∀ k r, index (f k r) = index r) :
    (t.mapRows f h).find i = (t.find i).map fun e => (e.1, f e.1 e.2) := by
  cases hfind : t.find i with
  | some e =>
      obtain ⟨hrow, hi⟩ := find_eq_some_iff.1 hfind
      refine find_eq_some_iff.2 ⟨?_, (h _ _).trans hi⟩
      rw [mapRows, Table.lookup_mapRows, hrow, Option.map_some]
  | none =>
      refine find_eq_none_iff.2 fun k r hrow hi => ?_
      rw [mapRows, Table.lookup_mapRows, Option.map_eq_some_iff] at hrow
      obtain ⟨r, hrow, rfl⟩ := hrow
      rw [h] at hi
      exact find_eq_none_iff.1 hfind k r hrow hi

end Indexed

end Foundations

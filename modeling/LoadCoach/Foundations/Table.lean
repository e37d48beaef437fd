import Mathlib.Data.List.AList

/-! # Keyed tables

A table with a primary key: finitely many rows, no two under the same key.  It is Mathlib's
`AList` with the three statements a relational store adds to it: a conditional update that
reports how many rows it touched (`updateWhere`), a conditional read (`select`), and the
insertion of a fresh key (`AList.insert`).

The central fact is `lookup_updateWhere`: an update acts row by row.  The one statement a
compare-and-set needs is `updateWhere_eq_one`: an update whose condition names the key touches
one row exactly when the row is there and meets the rest of the condition. -/

namespace Foundations

/-- A list in which no two elements have the same key, read by a key. -/
theorem find?_eq_some_iff_of_nodup {α κ : Type*} [BEq κ] [LawfulBEq κ] {key : α → κ} {l : List α}
    (hnodup : (l.map key).Nodup) {k : κ} {a : α} :
    (l.find? fun a => key a == k) = some a ↔ a ∈ l ∧ key a = k := by
  constructor
  · intro h
    exact ⟨List.mem_of_find?_eq_some h, by simpa using List.find?_some h⟩
  · rintro ⟨hmem, rfl⟩
    cases hfound : l.find? fun b => key b == key a with
    | none => simpa using List.find?_eq_none.1 hfound a hmem
    | some b =>
        have hkey : key b = key a := by simpa using List.find?_some hfound
        exact congrArg some
          (List.inj_on_of_nodup_map hnodup (List.mem_of_find?_eq_some hfound) hmem hkey)

/-- Rows `ρ` under the primary key `κ`. -/
abbrev Table (κ ρ : Type*) := AList fun _ : κ => ρ

namespace Table

variable {κ ρ : Type*}

/-! ### Reading -/

/-- The rows that meet a condition, in the order of the table. -/
def select (p : κ → ρ → Bool) (t : Table κ ρ) : List (κ × ρ) :=
  (t.entries.map fun e => (e.1, e.2)).filter fun e => p e.1 e.2

theorem mem_entries_iff [DecidableEq κ] (t : Table κ ρ) (k : κ) (r : ρ) :
    (⟨k, r⟩ : Sigma fun _ : κ => ρ) ∈ t.entries ↔ t.lookup k = some r := by
  rw [← Option.mem_def]
  exact AList.mem_lookup_iff.symm

theorem mem_select [DecidableEq κ] (p : κ → ρ → Bool) (t : Table κ ρ) (k : κ) (r : ρ) :
    (k, r) ∈ t.select p ↔ t.lookup k = some r ∧ p k r = true := by
  rw [← mem_entries_iff]
  simp only [select, List.mem_filter, List.mem_map, Prod.mk.injEq]
  constructor
  · rintro ⟨⟨⟨k', r'⟩, hmem, rfl, rfl⟩, hp⟩
    exact ⟨hmem, hp⟩
  · rintro ⟨hmem, hp⟩
    exact ⟨⟨⟨k, r⟩, hmem, rfl, rfl⟩, hp⟩

/-- What is asked of every row is decided row by row. -/
instance decidableForallRow [DecidableEq κ] (P : κ → ρ → Prop) [∀ k r, Decidable (P k r)]
    (t : Table κ ρ) : Decidable (∀ k r, t.lookup k = some r → P k r) :=
  decidable_of_iff (∀ e ∈ t.entries, P e.1 e.2) <| by
    constructor
    · intro h k r hrow
      exact h ⟨k, r⟩ ((mem_entries_iff t k r).2 hrow)
    · rintro h ⟨k, r⟩ hmem
      exact h k r ((mem_entries_iff t k r).1 hmem)

theorem keys_nodup_select (p : κ → ρ → Bool) (t : Table κ ρ) :
    ((t.select p).map Prod.fst).Nodup := by
  have hkeys : ((t.entries.map fun e => (e.1, e.2)).map Prod.fst) = t.entries.map Sigma.fst := by
    rw [List.map_map]
    rfl
  have hsub : ((t.select p).map Prod.fst).Sublist (t.entries.map Sigma.fst) := by
    rw [← hkeys]
    exact List.filter_sublist.map _
  exact hsub.nodup t.keys_nodup

/-! ### Updating -/

/-- Rewrite every row in place. -/
def mapRows (f : κ → ρ → ρ) (t : Table κ ρ) : Table κ ρ where
  entries := t.entries.map fun e => ⟨e.1, f e.1 e.2⟩
  nodupKeys := by
    have hkeys : (t.entries.map fun e => (⟨e.1, f e.1 e.2⟩ : Sigma fun _ : κ => ρ)).keys =
        t.entries.keys := by
      simp [List.keys, Function.comp_def]
    rw [List.NodupKeys, hkeys]
    exact t.nodupKeys

theorem mapRows_mapRows (f g : κ → ρ → ρ) (t : Table κ ρ) :
    (t.mapRows f).mapRows g = t.mapRows fun k r => g k (f k r) := by
  refine AList.ext ?_
  simp [mapRows, Function.comp_def]

variable [DecidableEq κ]

@[simp] theorem lookup_mapRows (f : κ → ρ → ρ) (t : Table κ ρ) (k : κ) :
    (t.mapRows f).lookup k = (t.lookup k).map (f k) :=
  List.dlookup_map₂ k

theorem length_select_insert {k : κ} {t : Table κ ρ} (h : k ∉ t) (p : κ → ρ → Bool) (r : ρ) :
    (select p (t.insert k r)).length = (t.select p).length + if p k r then 1 else 0 := by
  simp only [select, AList.entries_insert_of_notMem h, List.map_cons, List.filter_cons]
  split <;> simp

/-- `UPDATE … SET f WHERE p`: the new table and the number of rows touched. -/
def updateWhere (p : κ → ρ → Bool) (f : ρ → ρ) (t : Table κ ρ) : Table κ ρ × ℕ :=
  (t.mapRows fun k r => if p k r then f r else r, (t.select p).length)

@[simp] theorem lookup_updateWhere (p : κ → ρ → Bool) (f : ρ → ρ) (t : Table κ ρ) (k : κ) :
    (t.updateWhere p f).1.lookup k = (t.lookup k).map fun r => if p k r then f r else r := by
  rw [updateWhere, lookup_mapRows]

@[simp] theorem mem_updateWhere (p : κ → ρ → Bool) (f : ρ → ρ) (t : Table κ ρ) (k : κ) :
    k ∈ (t.updateWhere p f).1 ↔ k ∈ t := by
  rw [← AList.lookup_isSome, ← AList.lookup_isSome, lookup_updateWhere, Option.isSome_map]

theorem mapRows_eq_self {f : κ → ρ → ρ} {t : Table κ ρ}
    (h : ∀ k r, t.lookup k = some r → f k r = r) : t.mapRows f = t := by
  refine AList.ext ?_
  rw [mapRows]
  conv_rhs => rw [← List.map_id t.entries]
  refine List.map_congr_left fun e he => ?_
  have hrow : t.lookup e.1 = some e.2 := (mem_entries_iff t e.1 e.2).1 he
  rw [h e.1 e.2 hrow]
  rfl

theorem updateWhere_eq_self {p : κ → ρ → Bool} {t : Table κ ρ}
    (h : ∀ k r, t.lookup k = some r → p k r = false) (f : ρ → ρ) : (t.updateWhere p f).1 = t := by
  have hsame : ∀ k r, t.lookup k = some r → (if p k r then f r else r) = r :=
    fun k r hrow => by simp [h k r hrow]
  exact mapRows_eq_self hsame

/-- **Compare and set.**  An update whose condition names the key touches one row exactly when
the row is there and meets the condition. -/
theorem updateWhere_eq_one (k : κ) (p : ρ → Bool) (f : ρ → ρ) (t : Table κ ρ) :
    (t.updateWhere (fun k' r => decide (k' = k) && p r) f).2 = 1 ↔
      ∃ r, t.lookup k = some r ∧ p r = true := by
  simp only [updateWhere]
  have hmem : ∀ e ∈ t.select fun k' r => decide (k' = k) && p r,
      e.1 = k ∧ t.lookup k = some e.2 ∧ p e.2 = true := by
    rintro ⟨k', r⟩ he
    obtain ⟨hl, hp⟩ := (mem_select _ _ _ _).1 he
    simp only [Bool.and_eq_true, decide_eq_true_eq] at hp
    obtain ⟨rfl, hp⟩ := hp
    exact ⟨rfl, hl, hp⟩
  constructor
  · intro hone
    obtain ⟨e, he⟩ := List.length_eq_one_iff.1 hone
    obtain ⟨-, hl, hp⟩ := hmem e (by rw [he]; exact List.mem_singleton_self e)
    exact ⟨e.2, hl, hp⟩
  · rintro ⟨r, hl, hp⟩
    have hr : (k, r) ∈ t.select fun k' r => decide (k' = k) && p r :=
      (mem_select _ _ _ _).2 ⟨hl, by simp [hp]⟩
    -- the keys of the selected rows are distinct and all equal to `k`
    have hnodup := keys_nodup_select (fun k' r => decide (k' = k) && p r) t
    have hall : ∀ k' ∈ (t.select fun k' r => decide (k' = k) && p r).map Prod.fst, k' = k := by
      intro k' hk'
      obtain ⟨e, he, rfl⟩ := List.mem_map.1 hk'
      exact (hmem e he).1
    have hle : (t.select fun k' r => decide (k' = k) && p r).length ≤ 1 := by
      rw [← List.length_map (f := Prod.fst), List.eq_replicate_of_mem hall]
      rw [List.eq_replicate_of_mem hall] at hnodup
      rw [List.length_replicate]
      simpa using List.nodup_replicate.1 hnodup
    exact le_antisymm hle (List.length_pos_of_mem hr)

/-- `INSERT … ON CONFLICT DO UPDATE`: the row of a key, from the one it had. -/
def upsert (k : κ) (f : Option ρ → ρ) (t : Table κ ρ) : Table κ ρ := t.insert k (f (t.lookup k))

@[simp] theorem lookup_upsert_self (k : κ) (f : Option ρ → ρ) (t : Table κ ρ) :
    (t.upsert k f).lookup k = some (f (t.lookup k)) :=
  AList.lookup_insert t

theorem lookup_upsert_ne {k k' : κ} (h : k' ≠ k) (f : Option ρ → ρ) (t : Table κ ρ) :
    (t.upsert k f).lookup k' = t.lookup k' :=
  AList.lookup_insert_ne h

section Upserts

variable {α : Type*} (key : α → κ) (row : α → Option ρ → ρ)

/-- **Upserts act key by key**: the row of a key comes from the elements of that key, in order. -/
theorem lookup_foldl_upsert_eq (l : List α) (t : Table κ ρ) (k : κ) :
    (l.foldl (fun t a => t.upsert (key a) (row a)) t).lookup k =
      (l.filter fun a => decide (key a = k)).foldl (fun r a => some (row a r)) (t.lookup k) := by
  induction l generalizing t with
  | nil => rfl
  | cons a l ih =>
      rw [List.foldl_cons, ih]
      by_cases hkey : key a = k
      · subst hkey
        rw [List.filter_cons_of_pos (by simp), List.foldl_cons, lookup_upsert_self]
      · rw [List.filter_cons_of_neg (by simpa using hkey), lookup_upsert_ne (Ne.symm hkey)]

theorem lookup_foldl_upsert_of_notMem {l : List α} {k : κ} (hk : k ∉ l.map key)
    (t : Table κ ρ) :
    (l.foldl (fun t a => t.upsert (key a) (row a)) t).lookup k = t.lookup k := by
  have hnone : (l.filter fun a => decide (key a = k)) = [] := by
    rw [List.filter_eq_nil_iff]
    intro a ha hkey
    exact hk (of_decide_eq_true hkey ▸ List.mem_map_of_mem ha)
  rw [lookup_foldl_upsert_eq, hnone, List.foldl_nil]

theorem mem_foldl_upsert {l : List α} {t : Table κ ρ} {k : κ} :
    k ∈ l.foldl (fun t a => t.upsert (key a) (row a)) t ↔ k ∈ t ∨ k ∈ l.map key := by
  induction l generalizing t with
  | nil => simp
  | cons a l ih =>
      rw [List.foldl_cons, ih, upsert, AList.mem_insert, List.map_cons, List.mem_cons]
      tauto

/-- A list of upserts under distinct keys writes each of them once. -/
theorem lookup_foldl_upsert {l : List α} (hnodup : (l.map key).Nodup) {a : α} (ha : a ∈ l)
    (t : Table κ ρ) :
    (l.foldl (fun t a => t.upsert (key a) (row a)) t).lookup (key a) =
      some (row a (t.lookup (key a))) := by
  induction l generalizing t with
  | nil => cases ha
  | cons b l ih =>
      rw [List.map_cons, List.nodup_cons] at hnodup
      rw [List.foldl_cons]
      rcases List.mem_cons.1 ha with rfl | ha
      · exact (lookup_foldl_upsert_of_notMem key row hnodup.1 _).trans (lookup_upsert_self _ _ t)
      · have hne : key a ≠ key b := fun h => hnodup.1 (h ▸ List.mem_map_of_mem ha)
        rw [ih hnodup.2 ha, lookup_upsert_ne hne]

end Upserts

theorem lookup_updateWhere_self {k : κ} {r : ρ} {p : ρ → Bool} {f : ρ → ρ} {t : Table κ ρ}
    (hl : t.lookup k = some r) (hp : p r = true) :
    (t.updateWhere (fun k' r => decide (k' = k) && p r) f).1.lookup k = some (f r) := by
  simp [hl, hp]

end Table

end Foundations

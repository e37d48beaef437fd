import Mathlib.Data.List.Forall2
import Mathlib.Data.List.Nodup
import LoadCoach.Foundations.Json

/-! # Layered documents

A configuration is read in layers: a document, and over it another whose members win, table by
table and down to the leaves (`deepMerge`).

What the layers say of one key depends on that key alone: `layered` is the value of a key under
a layer, as a function of its value below (`member?_deepMerge`), and the same holds one table
further down (`member?_tableAt_deepMerge`).  A layer that mentions a key decides by itself whether
a table stands there (`isTable_layOver`).

Two documents that are alike down to a depth, below which one may hold tables where the other holds
others, stay so under a layer (`Alike.layOver`). -/

namespace Foundations.Json

/-! ### Removing a member -/

/-- `mapping.pop(key, None)`. -/
def popMember (key : String) (members : Members) : Members :=
  members.filter fun m => m.1 != key

theorem member?_popMember_self (key : String) (members : Members) :
    member? key (popMember key members) = none := by
  simp [member?, popMember, List.find?_eq_none]

theorem member?_popMember_of_ne {key other : String} (h : other ≠ key) (members : Members) :
    member? other (popMember key members) = member? other members := by
  induction members with
  | nil => rfl
  | cons m members ih =>
      by_cases hm : m.1 = key
      · have hne : m.1 ≠ other := fun heq => h (heq.symm.trans hm)
        have hpop : popMember key (m :: members) = popMember key members := by
          simp [popMember, hm]
        rw [hpop, ih]
        simp [member?, hne]
      · have hpop : popMember key (m :: members) = m :: popMember key members := by
          simp [popMember, hm]
        by_cases hother : m.1 = other
        · simp [hpop, member?, hother]
        · rw [hpop]
          simpa [member?, hother] using ih

/-! ### Merging -/

mutual

/-- A value laid over what stood in its place: two tables are merged, any other value wins. -/
def layOver (old : Option Json) : Json → Json
  | .obj override =>
      match old with
      | some (.obj base) => .obj (deepMerge base override)
      | _ => .obj override
  | value => value

/-- A document merged onto another, per leaf rather than per table. -/
def deepMerge (base : Members) : Members → Members
  | [] => base
  | (key, value) :: override =>
      deepMerge (setMember key (layOver (member? key base) value) base) override

end

/-! ### Reading a table of a document -/

/-- Whether a table stands there. -/
def isTable : Option Json → Bool
  | some (.obj _) => true
  | _ => false

/-- The table under a key, empty where none stands. -/
def tableAt (key : String) (members : Members) : Members :=
  match member? key members with
  | some (.obj table) => table
  | _ => []

theorem tableAt_of_member? {key : String} {members table : Members}
    (h : member? key members = some (.obj table)) : tableAt key members = table := by
  simp [tableAt, h]

theorem tableAt_setMember_self (key : String) (table members : Members) :
    tableAt key (setMember key (.obj table) members) = table :=
  tableAt_of_member? (member?_setMember_self key _ members)

theorem isTable_eq_true {old : Option Json} :
    isTable old = true ↔ ∃ table, old = some (.obj table) := by
  cases old with
  | none => simp [isTable]
  | some value => cases value <;> simp [isTable]

/-! ### The layers at one key -/

/-- The value of a key under a layer, given its value below. -/
def layered (override : Members) (key : String) (old : Option Json) : Option Json :=
  match member? key override with
  | none => old
  | some value => some (layOver old value)

theorem layered_of_none {override : Members} {key : String} (h : member? key override = none)
    (old : Option Json) : layered override key old = old := by
  simp [layered, h]

theorem layered_of_some {override : Members} {key : String} {value : Json}
    (h : member? key override = some value) (old : Option Json) :
    layered override key old = some (layOver old value) := by
  simp [layered, h]

@[simp] theorem layOver_none (value : Json) : layOver none value = value := by
  cases value <;> simp [layOver]

theorem layered_none (override : Members) (key : String) :
    layered override key none = member? key override := by
  cases h : member? key override with
  | none => exact layered_of_none h none
  | some value => rw [layered_of_some h, layOver_none]

theorem isTable_layOver (old : Option Json) (value : Json) :
    isTable (some (layOver old value)) = isTable (some value) := by
  cases value with
  | obj override => cases old with
      | none => simp [layOver, isTable]
      | some base => cases base <;> simp [layOver, isTable]
  | _ => simp [layOver, isTable]

/-- **What the layers say of a key depends on that key alone.** -/
theorem member?_deepMerge {override : Members} (hdistinct : (override.map Prod.fst).Nodup)
    (base : Members) (key : String) :
    member? key (deepMerge base override) = layered override key (member? key base) := by
  induction override generalizing base with
  | nil => simp [deepMerge, layered, member?]
  | cons m override ih =>
      obtain ⟨name, value⟩ := m
      obtain ⟨hfresh, hdistinct⟩ := List.nodup_cons.1 hdistinct
      rw [deepMerge, ih hdistinct]
      by_cases hkey : name = key
      · subst hkey
        have hlater : member? name override = none := by
          rw [member?, Option.map_eq_none_iff, List.find?_eq_none]
          intro m hm heq
          exact hfresh (List.mem_map.2 ⟨m, hm, by simpa using heq⟩)
        have hhere : member? name ((name, value) :: override) = some value := by simp [member?]
        rw [layered_of_none hlater, member?_setMember_self, layered_of_some hhere]
      · have hskip : member? key ((name, value) :: override) = member? key override := by
          simp [member?, hkey]
        rw [member?_setMember_of_ne (Ne.symm hkey), layered, layered, hskip]

/-- **What the layers say of a member of a table depends on that member alone.** -/
theorem member?_tableAt_deepMerge {override : Members} {key : String}
    (hdistinct : (override.map Prod.fst).Nodup)
    (htable : ((tableAt key override).map Prod.fst).Nodup)
    (hscalar : member? key override ≠ none → isTable (member? key override) = true)
    (base : Members) (member : String) :
    member? member (tableAt key (deepMerge base override)) =
      layered (tableAt key override) member (member? member (tableAt key base)) := by
  have hmerged := member?_deepMerge hdistinct base key
  cases hover : member? key override with
  | none =>
      rw [layered_of_none hover] at hmerged
      have hempty : tableAt key override = [] := by simp [tableAt, hover]
      have hsame : tableAt key (deepMerge base override) = tableAt key base := by
        simp only [tableAt, hmerged]
      rw [hsame, hempty, layered_of_none rfl]
  | some value =>
      obtain ⟨table, htab⟩ := isTable_eq_true.1 (hscalar (by simp [hover]))
      obtain rfl : value = .obj table := by simpa [hover] using htab
      rw [layered_of_some hover] at hmerged
      rw [tableAt_of_member? hover] at htable ⊢
      by_cases hbase : isTable (member? key base) = true
      · obtain ⟨below, hbelow⟩ := isTable_eq_true.1 hbase
        rw [hbelow, layOver] at hmerged
        rw [tableAt_of_member? hmerged, tableAt_of_member? hbelow, member?_deepMerge htable]
      · have hover' : layOver (member? key base) (.obj table) = .obj table := by
          cases hb : member? key base with
          | none => rfl
          | some old => cases old <;> simp_all [layOver, isTable]
        have hbelow : tableAt key base = [] := by
          cases hb : member? key base with
          | none => simp [tableAt, hb]
          | some old => cases old <;> simp_all [tableAt, isTable]
        rw [hover'] at hmerged
        rw [tableAt_of_member? hmerged, hbelow]
        exact (layered_none table member).symm

/-! ### Documents that are alike -/

theorem nodup_setMember {key : String} {value : Json} {members : Members}
    (h : (members.map Prod.fst).Nodup) : ((setMember key value members).map Prod.fst).Nodup := by
  rw [setMember]
  split
  · have hkeys : (members.map fun m => if m.1 == key then (key, value) else m).map Prod.fst =
        members.map Prod.fst := by
      rw [List.map_map]
      refine List.map_congr_left fun m _ => ?_
      by_cases hm : m.1 = key <;> simp [hm]
    rw [hkeys]
    exact h
  · rename_i hfresh
    rw [List.map_append, List.nodup_append]
    refine ⟨h, List.nodup_singleton _, ?_⟩
    intro name hname name' hname' heq
    obtain ⟨m, hm, rfl⟩ := List.mem_map.1 hname
    obtain rfl := List.mem_singleton.1 hname'
    exact hfresh (List.any_eq_true.2 ⟨m, hm, by simpa using heq⟩)

/-- Members under the same keys, related key by key. -/
def Related (R : String → Json → Json → Prop) (a b : Members) : Prop :=
  List.Forall₂ (fun m n => m.1 = n.1 ∧ R m.1 m.2 n.2) a b

section Related

variable {R : String → Json → Json → Prop} {a b : Members} {key : String} {v w : Json}

theorem Related.member? (h : Related R a b) (key : String) :
    (member? key a = none ∧ member? key b = none) ∨
      ∃ v w, member? key a = some v ∧ member? key b = some w ∧ R key v w := by
  induction h with
  | nil => exact .inl ⟨rfl, rfl⟩
  | @cons m n a b hmn _ ih =>
      obtain ⟨hkey, hR⟩ := hmn
      by_cases hm : m.1 = key
      · subst hm
        exact .inr ⟨m.2, n.2, by simp [Json.member?], by simp [Json.member?, ← hkey], hR⟩
      · have hskip : Json.member? key (m :: a) = Json.member? key a := by simp [Json.member?, hm]
        have hskip' : Json.member? key (n :: b) = Json.member? key b := by
          simp [Json.member?, ← hkey, hm]
        rw [hskip, hskip']
        exact ih

theorem Related.setMember (h : Related R a b) (hvw : R key v w) :
    Related R (setMember key v a) (setMember key w b) := by
  have hany : a.any (fun m => m.1 == key) = b.any fun m => m.1 == key := by
    induction h with
    | nil => rfl
    | cons hmn _ ih => rw [List.any_cons, List.any_cons, ih, hmn.1]
  rw [Json.setMember, Json.setMember, hany]
  split
  · rw [Related, List.forall₂_map_left_iff, List.forall₂_map_right_iff]
    refine h.imp fun m n hmn => ?_
    rw [← hmn.1]
    by_cases hm : m.1 = key
    · simp [hm, hvw]
    · simpa [hm] using hmn
  · exact List.rel_append h (.cons ⟨rfl, hvw⟩ .nil)

theorem Related.eq (h : Related R a b) (heq : ∀ m ∈ a, ∀ w, R m.1 m.2 w → m.2 = w) : a = b := by
  induction h with
  | nil => rfl
  | @cons m n a b hmn _ ih =>
      obtain ⟨hm, ha⟩ := List.forall_mem_cons.1 heq
      rw [ih ha, Prod.ext hmn.1 (hm n.2 hmn.2)]

theorem Related.keys (h : Related R a b) : a.map Prod.fst = b.map Prod.fst := by
  induction h with
  | nil => rfl
  | cons hmn _ ih => rw [List.map_cons, List.map_cons, hmn.1, ih]

theorem Related.deepMerge (hrefl : ∀ key v, R key v v)
    (hlayer : ∀ key v w override, R key v w →
      R key (layOver (some v) override) (layOver (some w) override))
    (h : Related R a b) (override : Members) :
    Related R (deepMerge a override) (deepMerge b override) := by
  induction override generalizing a b with
  | nil => exact h
  | cons m override ih =>
      refine ih (h.setMember ?_)
      obtain ⟨ha, hb⟩ | ⟨v, w, hv, hw, hvw⟩ := h.member? m.1
      · rw [ha, hb]
        exact hrefl _ _
      · rw [hv, hw]
        exact hlayer _ _ _ _ hvw

end Related

/-- Two documents are alike down to a depth, where one has a table only where the other has one. -/
def Alike : ℕ → Json → Json → Prop
  | 0, v, w => v = w ∨ isTable (some v) = true ∧ isTable (some w) = true
  | n + 1, v, w => v = w ∨ ∃ a b, v = .obj a ∧ w = .obj b ∧ Related (fun _ => Alike n) a b

theorem Alike.refl (n : ℕ) (v : Json) : Alike n v v := by
  cases n <;> exact .inl rfl

/-- **A layer keeps alike documents alike.** -/
theorem Alike.layOver {n : ℕ} {v w : Json} (h : Alike n v w) (override : Json) :
    Alike n (layOver (some v) override) (layOver (some w) override) := by
  induction n generalizing v w override with
  | zero =>
      obtain rfl | ⟨hv, hw⟩ := h
      · exact .refl _ _
      · cases override with
        | obj override => exact .inr ⟨isTable_layOver _ _, isTable_layOver _ _⟩
        | _ => exact .refl _ _
  | succ n ih =>
      obtain rfl | ⟨a, b, rfl, rfl, hab⟩ := h
      · exact .refl _ _
      · cases override with
        | obj override =>
            exact .inr ⟨_, _, rfl, rfl, hab.deepMerge (fun _ => .refl n)
              (fun _ _ _ override hvw => ih hvw override) override⟩
        | _ => exact .refl _ _

end Foundations.Json

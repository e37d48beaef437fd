import Mathlib.Data.List.Infix
import Mathlib.Data.List.Nodup
import LoadCoach.Foundations.Layers

/-! # Paths into layered documents

A document is asked for what stands at a path (`reach`): a value, nothing, or nothing because a
value that is no table stands above it.  Of a table only that it is one is told, so that the answer
is the same for a table and for what is merged into it.

Layers are asked one over the other (`Reach.under`), which is what merging two documents does to
every path (`seen_reach_layOver`) and what assigning a value does (`reach_assign`).  The last layer
that is not silent decides (`lastSpeaking`); it is the highest layer that sets the path, unless that
one is hidden (`seen_lastSpeaking_iff`). -/

namespace Foundations.Json

/-- The keys on the way to a value. -/
abbrev Path := List String

/-! ### What stands at a path -/

/-- What a document says of a path. -/
inductive Reach where
  | silent
  /-- A value that is no table stands above it. -/
  | blocked
  | found (value : Json)

/-- A value, of a table only that it is one. -/
def outline : Json → Json
  | .obj _ => .obj []
  | value => value

/-- What stands at a path. -/
def reach : Path → Json → Reach
  | [], value => .found (outline value)
  | key :: path, .obj members =>
      match member? key members with
      | some value => reach path value
      | none => .silent
  | _ :: _, _ => .blocked

namespace Reach

/-- The value that is found. -/
def seen : Reach → Option Json
  | found value => some value
  | _ => none

/-- The answer of a layer over that of the layers below. -/
def under (below : Reach) : Reach → Reach
  | silent => below
  | answer => answer

@[simp] theorem under_silent (below : Reach) : below.under silent = below := rfl

@[simp] theorem under_found (below : Reach) (value : Json) :
    below.under (found value) = found value := rfl

@[simp] theorem under_blocked (below : Reach) : below.under blocked = blocked := rfl

@[simp] theorem silent_under (answer : Reach) : silent.under answer = answer := by
  cases answer <;> rfl

theorem under_assoc (a b c : Reach) : (a.under b).under c = a.under (b.under c) := by
  cases c <;> rfl

theorem seen_under_congr {a b : Reach} (h : a.seen = b.seen) (c : Reach) :
    (a.under c).seen = (b.under c).seen := by
  cases c with
  | silent => exact h
  | blocked => rfl
  | found value => rfl

end Reach

section Reaching

variable {key : String} {path p : Path} {members : Members} {value : Json}

theorem reach_cons_some (h : member? key members = some value) :
    reach (key :: path) (.obj members) = reach path value := by
  simp [reach, h]

theorem reach_cons_none (h : member? key members = none) :
    reach (key :: path) (.obj members) = .silent := by
  simp [reach, h]

theorem reach_cons_of_not_table (h : isTable (some value) = false) :
    reach (key :: path) value = .blocked := by
  cases value with
  | obj members => cases h
  | _ => rfl

theorem reach_empty (path : Path) :
    reach path (.obj []) = .silent ∨ path = [] := by
  cases path with
  | nil => exact .inr rfl
  | cons key path => exact .inl rfl

end Reaching

theorem reach_append_of_silent {p : Path} {document : Json} (h : reach p document = .silent)
    (q : Path) : reach (p ++ q) document = .silent := by
  induction p generalizing document with
  | nil => cases h
  | cons key p ih =>
      cases document with
      | obj members =>
          rw [List.cons_append]
          cases hmember : member? key members with
          | none => exact reach_cons_none hmember
          | some value =>
              rw [reach_cons_some hmember] at h ⊢
              exact ih h
      | _ => cases h

theorem reach_append_of_blocked {p : Path} {document : Json} (h : reach p document = .blocked)
    (q : Path) : reach (p ++ q) document = .blocked := by
  induction p generalizing document with
  | nil => cases h
  | cons key p ih =>
      cases document with
      | obj members =>
          rw [List.cons_append]
          cases hmember : member? key members with
          | none => cases (reach_cons_none hmember).symm.trans h
          | some value =>
              rw [reach_cons_some hmember] at h ⊢
              exact ih h
      | _ => rfl

/-! ### Documents without repeated keys -/

/-- No table of the document holds a key twice. -/
inductive Keyed : Json → Prop
  | leaf {value : Json} (h : isTable (some value) = false) : Keyed value
  | table {members : Members} (hdistinct : (members.map Prod.fst).Nodup)
      (hmembers : ∀ m ∈ members, Keyed m.2) : Keyed (.obj members)

theorem mem_of_member? {key : String} {members : Members} {value : Json}
    (h : member? key members = some value) : (key, value) ∈ members := by
  obtain ⟨⟨name, v⟩, hfound, rfl⟩ := Option.map_eq_some_iff.1 h
  obtain rfl : name = key := by simpa using List.find?_some hfound
  exact List.mem_of_find?_eq_some hfound

namespace Keyed

variable {key : String} {members : Members} {value : Json}

theorem distinct (h : Keyed (.obj members)) : (members.map Prod.fst).Nodup := by
  cases h with
  | leaf h => cases h
  | table hdistinct _ => exact hdistinct

theorem of_mem (h : Keyed (.obj members)) (hmem : (key, value) ∈ members) : Keyed value := by
  cases h with
  | leaf h => cases h
  | table _ hmembers => exact hmembers _ hmem

theorem of_member? (h : Keyed (.obj members)) (hmember : member? key members = some value) :
    Keyed value :=
  h.of_mem (mem_of_member? hmember)

theorem empty : Keyed (.obj []) := .table List.nodup_nil nofun

theorem setMember (h : Keyed (.obj members)) (hvalue : Keyed value) :
    Keyed (.obj (setMember key value members)) := by
  refine .table (nodup_setMember h.distinct) fun m hm => ?_
  rw [Json.setMember] at hm
  split at hm
  · obtain ⟨m', hm', rfl⟩ := List.mem_map.1 hm
    split
    · exact hvalue
    · exact h.of_mem hm'
  · obtain hm | hm := List.mem_append.1 hm
    · exact h.of_mem hm
    · obtain rfl := List.mem_singleton.1 hm
      exact hvalue

theorem of_sublist {members' : Members} (h : Keyed (.obj members))
    (hsub : members'.Sublist members) : Keyed (.obj members') :=
  .table (h.distinct.sublist (hsub.map Prod.fst)) fun _ hm => h.of_mem (hsub.subset hm)

theorem layOver (hvalue : Keyed value) {old : Option Json} (hold : ∀ below ∈ old, Keyed below) :
    Keyed (layOver old value) := by
  induction hvalue generalizing old with
  | @leaf value h =>
      cases value with
      | obj members => cases h
      | _ => exact .leaf rfl
  | @table override hdistinct hmembers ih =>
      have hnew : Keyed (.obj override) := .table hdistinct hmembers
      cases old with
      | none => rwa [layOver_none]
      | some below =>
          cases below with
          | obj base =>
              rw [Json.layOver]
              have hbase := hold _ rfl
              clear hold hnew hdistinct hmembers
              induction override generalizing base with
              | nil => exact hbase
              | cons m override ihs =>
                  obtain ⟨ihm, ih⟩ := List.forall_mem_cons.1 ih
                  refine ihs ih _ (hbase.setMember (ihm fun below hbelow => ?_))
                  exact hbase.of_member? hbelow
          | _ => exact hnew

theorem deepMerge {override : Members} (hbase : Keyed (.obj members))
    (hoverride : Keyed (.obj override)) : Keyed (.obj (deepMerge members override)) := by
  have hlower : ∀ below ∈ some (Json.obj members), Keyed below := by
    rintro _ ⟨⟩
    exact hbase
  have h := hoverride.layOver hlower
  rwa [Json.layOver] at h

end Keyed

/-! ### Merging, at a path -/

/-- **A path of a merged document** is asked of the upper one, and where that is silent of the
lower. -/
theorem seen_reach_layOver {value : Json} (hkeyed : Keyed value) (base : Json) (path : Path) :
    (reach path (layOver (some base) value)).seen =
      ((reach path base).under (reach path value)).seen := by
  induction path generalizing base value with
  | nil =>
      cases value with
      | obj override => cases base <;> rfl
      | _ => rfl
  | cons key path ih =>
      cases value with
      | obj override =>
          by_cases hbase : isTable (some base) = true
          · obtain ⟨members, hmembers⟩ := isTable_eq_true.1 hbase
            obtain rfl := Option.some.inj hmembers
            have hmerged := member?_deepMerge hkeyed.distinct members key
            rw [layOver]
            cases hover : member? key override with
            | none =>
                rw [layered_of_none hover] at hmerged
                rw [reach_cons_none hover, Reach.under_silent, reach, reach, hmerged]
            | some value =>
                rw [layered_of_some hover] at hmerged
                rw [reach_cons_some hmerged, reach_cons_some hover]
                cases hbelow : member? key members with
                | none => rw [layOver_none, reach_cons_none hbelow, Reach.silent_under]
                | some below => rw [reach_cons_some hbelow, ih (hkeyed.of_member? hover)]
          · rw [Bool.not_eq_true] at hbase
            have hreplaced : layOver (some base) (.obj override) = .obj override := by
              cases base with
              | obj members => cases hbase
              | _ => rfl
            rw [hreplaced, reach_cons_of_not_table hbase]
            cases reach (key :: path) (.obj override) <;> rfl
      | _ => rfl

/-! ### Assigning, at a path -/

/-- A document with one value in it. -/
def single : Path → Json → Json
  | [], value => value
  | key :: path, value => .obj [(key, single path value)]

/-- A value is put at a path, through tables that are made where there is nothing.  It fails where
something that is no table stands in the way. -/
def assign : Path → Json → Json → Option Json
  | [], value, _ => some value
  | key :: path, value, .obj members =>
      (assign path value ((member? key members).getD (.obj []))).map fun child =>
        .obj (setMember key child members)
  | _ :: _, _, _ => none

section Assigning

variable {path p : Path} {value document result : Json}

theorem reach_single_cons (key : String) (path p : Path) (value : Json) :
    reach (key :: p) (single (key :: path) value) = reach p (single path value) :=
  reach_cons_some (by simp [member?])

theorem reach_single_ne {key other : String} (h : other ≠ key) (path p : Path) (value : Json) :
    reach (other :: p) (single (key :: path) value) = .silent :=
  reach_cons_none (by simp [member?, h.symm])

/-- The value of a document with one value in it stands in the way of what is below it. -/
theorem reach_single_eq_blocked_iff (hvalue : isTable (some value) = false) :
    reach p (single path value) = .blocked ↔ path <+: p ∧ path ≠ p := by
  induction path generalizing p with
  | nil =>
      cases p with
      | nil => simp [single, reach]
      | cons key p => simp [single, reach_cons_of_not_table hvalue]
  | cons key path ih =>
      cases p with
      | nil => simp [single, reach]
      | cons other p =>
          by_cases hkey : other = key
          · subst hkey
            rw [reach_single_cons, ih, List.prefix_cons_inj, ne_eq, ne_eq, List.cons.injEq]
            simp
          · rw [reach_single_ne hkey]
            simp [List.cons_prefix_cons, Ne.symm hkey]

/-- A document with one value in it sets what is on the way to it. -/
theorem seen_reach_single_iff (hvalue : isTable (some value) = false) :
    (reach p (single path value)).seen ≠ none ↔ p <+: path := by
  induction path generalizing p with
  | nil =>
      cases p with
      | nil => simp [single, reach, Reach.seen]
      | cons key p => simp [single, reach_cons_of_not_table hvalue, Reach.seen]
  | cons key path ih =>
      cases p with
      | nil => simp [single, reach, Reach.seen]
      | cons other p =>
          by_cases hkey : other = key
          · subst hkey
            rw [reach_single_cons, ih, List.prefix_cons_inj]
          · rw [reach_single_ne hkey]
            simp [List.cons_prefix_cons, hkey, Reach.seen]

/-- **Assigning is layering a document with one value in it.** -/
theorem reach_assign (hvalue : isTable (some value) = false)
    (h : assign path value document = some result) (p : Path) :
    reach p result = (reach p document).under (reach p (single path value)) := by
  induction path generalizing document result p with
  | nil =>
      obtain rfl := Option.some.inj h
      cases p with
      | nil => rfl
      | cons key p => rw [single, reach_cons_of_not_table hvalue, Reach.under_blocked]
  | cons key path ih =>
      cases document with
      | obj members =>
          obtain ⟨child, hchild, rfl⟩ := Option.map_eq_some_iff.1 h
          cases p with
          | nil => rfl
          | cons other p =>
              by_cases hkey : other = key
              · subst hkey
                rw [reach_cons_some (member?_setMember_self other child members),
                  reach_single_cons, ih hchild]
                cases hmember : member? other members with
                | some below => rw [reach_cons_some hmember, Option.getD_some]
                | none =>
                    rw [reach_cons_none hmember, Option.getD_none]
                    obtain hsilent | rfl := reach_empty p
                    · rw [hsilent]
                    · rfl
              · rw [reach_single_ne hkey, Reach.under_silent, reach, reach,
                  member?_setMember_of_ne hkey]
      | _ => cases h

theorem assign_eq_none_iff : assign path value document = none ↔ reach path document = .blocked := by
  induction path generalizing document with
  | nil => simp [assign, reach]
  | cons key path ih =>
      cases document with
      | obj members =>
          rw [assign, Option.map_eq_none_iff, ih]
          cases hmember : member? key members with
          | some below => rw [reach_cons_some hmember, Option.getD_some]
          | none =>
              rw [reach_cons_none hmember, Option.getD_none]
              obtain hsilent | rfl := reach_empty path
              · rw [hsilent]
              · simp [reach]
      | _ => exact iff_of_true rfl rfl

theorem Keyed.assign (hdocument : Keyed document) (hvalue : Keyed value)
    (h : assign path value document = some result) : Keyed result := by
  induction path generalizing document result with
  | nil => exact Option.some.inj h ▸ hvalue
  | cons key path ih =>
      cases document with
      | obj members =>
          obtain ⟨child, hchild, rfl⟩ := Option.map_eq_some_iff.1 h
          refine hdocument.setMember (ih ?_ hchild)
          cases hmember : member? key members with
          | some below => exact hdocument.of_member? hmember
          | none => exact .empty
      | _ => cases h

end Assigning

/-! ### Layers -/

section Stacks

variable {ω : Type} {p : Path} {layers : List (ω × Json)}

/-- What the last layer that is not silent says. -/
def lastSpeaking (p : Path) (layers : List (ω × Json)) : Reach :=
  layers.foldl (fun below layer => below.under (reach p layer.2)) .silent

/-- The highest layer that sets a path, and what it sets there. -/
def highest (p : Path) (layers : List (ω × Json)) : Option (ω × Json) :=
  (layers.filterMap fun layer => (reach p layer.2).seen.map (Prod.mk layer.1)).getLast?

/-- A layer sets a path, none of the layers above it does, and one of them blocks it. -/
def Hidden (p : Path) (layers : List (ω × Json)) : Prop :=
  ∃ below above, layers = below ++ above ∧ highest p below ≠ none ∧ highest p above = none ∧
    ∃ layer ∈ above, reach p layer.2 = .blocked

theorem foldl_under (r : Reach) :
    layers.foldl (fun below layer => below.under (reach p layer.2)) r =
      r.under (lastSpeaking p layers) := by
  rw [lastSpeaking]
  induction layers generalizing r with
  | nil => rfl
  | cons layer layers ih =>
      rw [List.foldl_cons, List.foldl_cons, ih, ih (Reach.silent.under _), Reach.silent_under,
        Reach.under_assoc]

theorem lastSpeaking_append (below above : List (ω × Json)) :
    lastSpeaking p (below ++ above) = (lastSpeaking p below).under (lastSpeaking p above) := by
  rw [lastSpeaking, List.foldl_append, foldl_under]
  rfl

theorem lastSpeaking_singleton (layer : ω × Json) : lastSpeaking p [layer] = reach p layer.2 :=
  Reach.silent_under _

theorem lastSpeaking_cons (layer : ω × Json) (layers : List (ω × Json)) :
    lastSpeaking p (layer :: layers) = (reach p layer.2).under (lastSpeaking p layers) := by
  rw [← List.singleton_append, lastSpeaking_append, lastSpeaking_singleton]

theorem highest_append (below above : List (ω × Json)) :
    highest p (below ++ above) = (highest p above).or (highest p below) := by
  rw [highest, List.filterMap_append, List.getLast?_append]
  rfl

theorem highest_singleton (layer : ω × Json) :
    highest p [layer] = (reach p layer.2).seen.map (Prod.mk layer.1) := by
  cases h : (reach p layer.2).seen <;> simp [highest, h]

theorem highest_cons (layer : ω × Json) (layers : List (ω × Json)) :
    highest p (layer :: layers) =
      (highest p layers).or ((reach p layer.2).seen.map (Prod.mk layer.1)) := by
  rw [← List.singleton_append, highest_append, highest_singleton]

theorem highest_eq_none_iff : highest p layers = none ↔
    ∀ layer ∈ layers, (reach p layer.2).seen = none := by
  simp [highest]

theorem exists_of_highest {layer : ω × Json} (h : highest p layers = some layer) :
    ∃ other ∈ layers, other.1 = layer.1 := by
  obtain ⟨other, hother, hlayer⟩ := List.mem_filterMap.1 (List.mem_of_getLast? h)
  obtain ⟨value, -, rfl⟩ := Option.map_eq_some_iff.1 hlayer
  exact ⟨other, hother, rfl⟩

theorem exists_of_lastSpeaking_ne_silent (h : lastSpeaking p layers ≠ .silent) :
    ∃ below layer above, layers = below ++ layer :: above ∧
      reach p layer.2 = lastSpeaking p layers ∧
      ∀ upper ∈ above, reach p upper.2 = .silent := by
  induction layers using List.reverseRecOn with
  | nil => exact absurd rfl h
  | append_singleton layers layer ih =>
      rw [lastSpeaking_append, lastSpeaking_singleton] at h ⊢
      cases hlayer : reach p layer.2 with
      | silent =>
          rw [hlayer, Reach.under_silent] at h
          obtain ⟨below, last, above, rfl, hlast, hsilent⟩ := ih h
          refine ⟨below, last, above ++ [layer], by simp, by rw [hlast, Reach.under_silent], ?_⟩
          intro upper hupper
          obtain hupper | hupper := List.mem_append.1 hupper
          · exact hsilent upper hupper
          · rw [List.mem_singleton.1 hupper, hlayer]
      | blocked => exact ⟨layers, layer, [], rfl, hlayer, nofun⟩
      | found value => exact ⟨layers, layer, [], rfl, hlayer, nofun⟩

theorem lastSpeaking_eq_silent_iff : lastSpeaking p layers = .silent ↔
    ∀ layer ∈ layers, reach p layer.2 = .silent := by
  constructor
  · intro h layer hlayer
    obtain ⟨below, above, rfl⟩ := List.append_of_mem hlayer
    rw [lastSpeaking_append, lastSpeaking_cons] at h
    cases hreach : reach p layer.2 with
    | silent => rfl
    | _ => cases habove : lastSpeaking p above <;> simp [hreach, habove] at h
  · intro h
    by_contra hspeaks
    obtain ⟨below, layer, above, rfl, hlayer, -⟩ := exists_of_lastSpeaking_ne_silent hspeaks
    have hsilent := h layer (by simp)
    exact hspeaks (hlayer.symm.trans hsilent)

theorem lastSpeaking_of_hidden (h : Hidden p layers) : lastSpeaking p layers = .blocked := by
  obtain ⟨below, above, rfl, -, habove, layer, hlayer, hblocked⟩ := h
  have hne : lastSpeaking p above ≠ .silent := by
    intro hsilent
    cases hblocked.symm.trans (lastSpeaking_eq_silent_iff.1 hsilent layer hlayer)
  obtain ⟨lower, last, upper, rfl, hlast, -⟩ := exists_of_lastSpeaking_ne_silent hne
  have hunseen := highest_eq_none_iff.1 habove last (by simp)
  rw [hlast] at hunseen
  rw [lastSpeaking_append]
  cases hspoken : lastSpeaking p (lower ++ last :: upper) with
  | silent => exact absurd hspoken hne
  | blocked => rfl
  | found value => simp [hspoken, Reach.seen] at hunseen

/-- What the last layer that is not silent finds is what the highest layer sets. -/
theorem highest_of_lastSpeaking_found {value : Json} (h : lastSpeaking p layers = .found value) :
    ∃ layer ∈ layers, highest p layers = some (layer.1, value) := by
  obtain ⟨below, layer, above, rfl, hlayer, hsilent⟩ :=
    exists_of_lastSpeaking_ne_silent (by rw [h]; nofun)
  rw [h] at hlayer
  have habove : highest p above = none := by
    refine highest_eq_none_iff.2 fun upper hupper => ?_
    rw [hsilent upper hupper]
    rfl
  refine ⟨layer, by simp, ?_⟩
  rw [highest_append, highest_cons, habove, hlayer]
  rfl

theorem highest_eq_none_of_lastSpeaking_silent (h : lastSpeaking p layers = .silent) :
    highest p layers = none := by
  refine highest_eq_none_iff.2 fun layer hlayer => ?_
  rw [lastSpeaking_eq_silent_iff.1 h layer hlayer]
  rfl

/-- **The last layer that is not silent is the highest that sets the path**, unless that one is
hidden. -/
theorem seen_lastSpeaking_iff :
    (lastSpeaking p layers).seen = (highest p layers).map Prod.snd ↔ ¬ Hidden p layers := by
  constructor
  · intro h hhidden
    rw [lastSpeaking_of_hidden hhidden] at h
    obtain ⟨below, above, rfl, hbelow, habove, -⟩ := hhidden
    rw [highest_append, habove] at h
    cases hset : highest p below with
    | none => exact hbelow hset
    | some layer => simp [hset, Reach.seen] at h
  · intro h
    cases hspeaks : lastSpeaking p layers with
    | silent =>
        rw [highest_eq_none_of_lastSpeaking_silent hspeaks]
        rfl
    | blocked =>
        obtain ⟨below, layer, above, rfl, hlayer, hsilent⟩ :=
          exists_of_lastSpeaking_ne_silent (by rw [hspeaks]; nofun)
        rw [hspeaks] at hlayer
        have habove : highest p (layer :: above) = none := by
          refine highest_eq_none_iff.2 fun upper hupper => ?_
          obtain rfl | hupper := List.mem_cons.1 hupper
          · rw [hlayer]
            rfl
          · rw [hsilent upper hupper]
            rfl
        have hbelow : highest p below = none := by
          by_contra hset
          exact h ⟨below, layer :: above, rfl, hset, habove, layer, List.mem_cons_self, hlayer⟩
        rw [highest_append, habove, hbelow]
        rfl
    | found value =>
        obtain ⟨layer, -, hset⟩ := highest_of_lastSpeaking_found hspeaks
        rw [hset]
        rfl

end Stacks

/-! ### Assigning one value after another -/

/-- A list of values, each put at its path. -/
def assignAll (entries : List (Path × Json)) (document : Json) : Option Json :=
  entries.foldlM (fun document entry => assign entry.1 entry.2 document) document

/-- A value stands above another. -/
def Above (upper lower : Path) : Prop := upper <+: lower ∧ upper ≠ lower

theorem Above.of_prefix {upper p lower : Path} (h : Above upper p) (hbelow : p <+: lower) :
    Above upper lower := by
  refine ⟨h.1.trans hbelow, ?_⟩
  rintro rfl
  exact h.2 (h.1.eq_of_length (le_antisymm h.1.length_le hbelow.length_le))

section Entries

variable {ω : Type} {p : Path} {entries : List (Path × Json)} {document result : Json}

/-- The values, as layers. -/
def singles (origin : ω) (entries : List (Path × Json)) : List (ω × Json) :=
  entries.map fun entry => (origin, single entry.1 entry.2)

theorem origin_of_highest_singles {origin : ω} {layer : ω × Json}
    (h : highest p (singles origin entries) = some layer) : layer.1 = origin := by
  obtain ⟨single, hsingle, hsame⟩ := exists_of_highest h
  obtain ⟨entry, -, rfl⟩ := List.mem_map.1 hsingle
  exact hsame.symm

theorem reach_assignAll (origin : ω)
    (hvalues : ∀ entry ∈ entries, isTable (some entry.2) = false)
    (h : assignAll entries document = some result) (p : Path) :
    reach p result = (reach p document).under (lastSpeaking p (singles origin entries)) := by
  induction entries generalizing document with
  | nil =>
      obtain rfl := Option.some.inj h
      rfl
  | cons entry entries ih =>
      obtain ⟨hvalue, hvalues⟩ := List.forall_mem_cons.1 hvalues
      rw [assignAll, List.foldlM_cons, Option.bind_eq_bind, Option.bind_eq_some_iff] at h
      obtain ⟨between, hentry, hrest⟩ := h
      rw [ih hvalues hrest, reach_assign hvalue hentry, Reach.under_assoc, singles, singles,
        List.map_cons, lastSpeaking_cons]

theorem Keyed.assignAll (hvalues : ∀ entry ∈ entries, isTable (some entry.2) = false)
    (hdocument : Keyed document) (h : assignAll entries document = some result) :
    Keyed result := by
  induction entries generalizing document with
  | nil => exact Option.some.inj h ▸ hdocument
  | cons entry entries ih =>
      obtain ⟨hvalue, hvalues⟩ := List.forall_mem_cons.1 hvalues
      rw [Json.assignAll, List.foldlM_cons, Option.bind_eq_bind, Option.bind_eq_some_iff] at h
      obtain ⟨between, hentry, hrest⟩ := h
      exact ih hvalues (hdocument.assign (.leaf hvalue) hentry) hrest

/-- A path is blocked by values none of which stands above a later one, where one of them stands
above the path. -/
theorem lastSpeaking_singles_eq_blocked_iff (origin : ω)
    (hvalues : ∀ entry ∈ entries, isTable (some entry.2) = false)
    (happart : entries.Pairwise fun a b => ¬ Above a.1 b.1) :
    lastSpeaking p (singles origin entries) = .blocked ↔ ∃ entry ∈ entries, Above entry.1 p := by
  constructor
  · intro h
    obtain ⟨below, layer, above, hsplit, hlayer, -⟩ :=
      exists_of_lastSpeaking_ne_silent (by rw [h]; nofun)
    have hmem : layer ∈ singles origin entries := by rw [hsplit]; simp
    obtain ⟨entry, hentry, rfl⟩ := List.mem_map.1 hmem
    exact ⟨entry, hentry, (reach_single_eq_blocked_iff (hvalues entry hentry)).1 (hlayer.trans h)⟩
  · rintro ⟨entry, hentry, habove⟩
    have hblocked := (reach_single_eq_blocked_iff (hvalues entry hentry)).2 habove
    have hspeaks : lastSpeaking p (singles origin entries) ≠ .silent := by
      intro hsilent
      cases hblocked.symm.trans
        (lastSpeaking_eq_silent_iff.1 hsilent (origin, _) (List.mem_map_of_mem hentry))
    obtain ⟨below, layer, above, hsplit, hlayer, hsilent⟩ :=
      exists_of_lastSpeaking_ne_silent hspeaks
    obtain ⟨lower, rest, rfl, hlower, hrest⟩ := List.map_eq_append_iff.1 hsplit
    obtain ⟨last, upper, rfl, rfl, hupper⟩ := List.map_eq_cons_iff.1 hrest
    rw [← hlayer]
    have hlast : isTable (some last.2) = false := hvalues last (by simp)
    cases hreach : reach p (single last.1 last.2) with
    | blocked => rfl
    | silent => exact absurd (hlayer.symm.trans hreach) hspeaks
    | found value =>
        -- the last value that speaks lies at the path or below it, so below the entry too
        have hstart : p <+: last.1 := (seen_reach_single_iff hlast).1 (by simp [hreach, Reach.seen])
        have hover : Above entry.1 last.1 := habove.of_prefix hstart
        obtain hearly | hlate := List.mem_append.1 hentry
        · exact absurd hover (List.pairwise_append.1 happart |>.2.2 entry hearly last (by simp))
        · obtain rfl | hlate := List.mem_cons.1 hlate
          · exact absurd rfl hover.2
          · have hquiet := hsilent (origin, single entry.1 entry.2)
              (by rw [← hupper]; exact List.mem_map_of_mem hlate)
            cases hblocked.symm.trans hquiet

theorem assignAll_append_singleton (entries : List (Path × Json)) (entry : Path × Json)
    (document : Json) : assignAll (entries ++ [entry]) document =
      (assignAll entries document).bind (assign entry.1 entry.2) := by
  rw [assignAll, assignAll, List.foldlM_append]
  cases List.foldlM (fun document entry => assign entry.1 entry.2 document) document entries with
  | none => rfl
  | some nested => simp

theorem assign_assignAll_eq_none_iff {path : Path} {value nested : Json}
    (hvalues : ∀ entry ∈ entries, isTable (some entry.2) = false)
    (happart : entries.Pairwise fun a b => ¬ Above a.1 b.1)
    (h : assignAll entries (.obj []) = some nested) :
    assign path value nested = none ↔ ∃ entry ∈ entries, Above entry.1 path := by
  rw [assign_eq_none_iff, reach_assignAll () hvalues h,
    ← lastSpeaking_singles_eq_blocked_iff () hvalues happart]
  cases lastSpeaking path (singles () entries) with
  | blocked => exact iff_of_true rfl rfl
  | found value => simp
  | silent =>
      -- an empty document blocks nothing
      rw [Reach.under_silent]
      obtain hempty | rfl := reach_empty path
      · simp [hempty]
      · simp [reach]

/-- **Values can be assigned one after another** where none stands above a later one. -/
theorem assignAll_isSome_iff (hvalues : ∀ entry ∈ entries, isTable (some entry.2) = false) :
    (∃ result, assignAll entries (.obj []) = some result) ↔
      entries.Pairwise fun a b => ¬ Above a.1 b.1 := by
  induction entries using List.reverseRecOn with
  | nil => exact iff_of_true ⟨_, rfl⟩ .nil
  | append_singleton entries entry ih =>
      have hearlier : ∀ entry ∈ entries, isTable (some entry.2) = false :=
        fun entry hentry => hvalues entry (List.mem_append_left _ hentry)
      rw [assignAll_append_singleton, List.pairwise_append, ← ih hearlier]
      constructor
      · rintro ⟨result, h⟩
        obtain ⟨nested, hnested, hentry⟩ := Option.bind_eq_some_iff.1 h
        refine ⟨⟨nested, hnested⟩, List.pairwise_singleton _ _, ?_⟩
        intro other hother last hlast habove
        obtain rfl := List.mem_singleton.1 hlast
        have hnone : assign last.1 last.2 nested = none :=
          (assign_assignAll_eq_none_iff hearlier ((ih hearlier).1 ⟨nested, hnested⟩) hnested).2
            ⟨other, hother, habove⟩
        cases hnone.symm.trans hentry
      · rintro ⟨⟨nested, hnested⟩, -, happart⟩
        have hfree : assign entry.1 entry.2 nested ≠ none := by
          rw [Ne, assign_assignAll_eq_none_iff hearlier ((ih hearlier).1 ⟨nested, hnested⟩) hnested]
          rintro ⟨other, hother, habove⟩
          exact happart other hother entry (List.mem_singleton_self _) habove
        obtain ⟨result, hresult⟩ := Option.ne_none_iff_exists'.1 hfree
        exact ⟨result, Option.bind_eq_some_iff.2 ⟨nested, hnested, hresult⟩⟩

end Entries

end Foundations.Json

import LoadCoach.Registry.Discovery

/-! # What the reports of a pass leave

The loop of a discovery pass in closed form.  A report writes the row of its identity; a digest
that has no row takes the row of its name, if one is there (`Takes`), so that a row may end up
under another identity than the one it was written for: `heir` says which.

* `find_heir`: a row is found under its heir after any further reports.
* `find_last_iff`: the last report of an identity is found under it unless its row was taken.
* `lookup_capabilities_recorded`: a declared capability row is there when it was before, or when a
  report declared it on the row.
* `lookup_sightings_of_found`: where every reported identity has a row, the loop rewrites those
  rows and no other. -/

namespace LoadCoach.Registry

open Foundations
open Routing (SignalSource)

/-- What one registration reports of one model. -/
abbrev Report := Registration × ModelDescriptor

/-! ### Identities -/

/-- The identities some reports are about. -/
def sighted (l : List Report) : List ModelIdentity := l.map fun r => r.2.identity

/-- The last report of an identity. -/
def lastOf (l : List Report) (i : ModelIdentity) : Option Report :=
  l.reverse.find? fun r => decide (r.2.identity = i)

/-- An identity takes the row of a name: it is a digest of that name, and neither has a row nor was
it reported before. -/
def Takes (models : Models) (before : List ModelIdentity) (i j : ModelIdentity) : Prop :=
  j.artifactDigest = none ∧ i.name = j.name ∧ i.artifactDigest ≠ none ∧ models.find i = none ∧
    i ∉ before

instance (models : Models) (before : List ModelIdentity) (i j : ModelIdentity) :
    Decidable (Takes models before i j) :=
  decidable_of_iff (j.artifactDigest = none ∧ i.name = j.name ∧ i.artifactDigest ≠ none ∧
    (models.find i).isNone = true ∧ i ∉ before) (by simp [Takes])

/-- The identity under which the row of an identity ends up: that of the first sighting to take
it. -/
def heir (models : Models) (before after : List ModelIdentity) (j : ModelIdentity) :
    ModelIdentity :=
  (after.find? fun i => decide (Takes models before i j)).getD j

section Identities

variable {models : Models} {before after : List ModelIdentity} {i j : ModelIdentity}
  {l : List Report} {r : Report}

theorem append_singleton_eq_iff {α : Type*} {l p s : List α} {a b : α} :
    l ++ [b] = p ++ a :: s ↔ (p = l ∧ a = b ∧ s = []) ∨ ∃ s', s = s' ++ [b] ∧ l = p ++ a :: s' := by
  constructor
  · intro h
    cases s using List.reverseRecOn with
    | nil =>
        obtain ⟨rfl, hlast⟩ := List.append_inj' h rfl
        exact .inl ⟨rfl, (List.singleton_inj.1 hlast).symm, rfl⟩
    | append_singleton s' c _ =>
        rw [← List.cons_append, ← List.append_assoc] at h
        obtain ⟨rfl, hlast⟩ := List.append_inj' h rfl
        exact .inr ⟨s', by rw [List.singleton_inj.1 hlast], rfl⟩
  · rintro (⟨rfl, rfl, rfl⟩ | ⟨s', rfl, rfl⟩) <;> simp

theorem sighted_append (l₁ l₂ : List Report) : sighted (l₁ ++ l₂) = sighted l₁ ++ sighted l₂ :=
  List.map_append

theorem mem_sighted : i ∈ sighted l ↔ ∃ r ∈ l, r.2.identity = i := List.mem_map

theorem lastOf_append_singleton :
    lastOf (l ++ [r]) i = if r.2.identity = i then some r else lastOf l i := by
  rw [lastOf, List.reverse_append, List.reverse_singleton, List.singleton_append,
    List.find?_cons]
  by_cases h : r.2.identity = i <;> simp [h, lastOf]

theorem lastOf_eq_none_iff : lastOf l i = none ↔ i ∉ sighted l := by
  rw [lastOf, List.find?_eq_none, mem_sighted]
  simp

theorem lastOf_eq_some_iff :
    lastOf l i = some r ↔ r.2.identity = i ∧ ∃ p s, l = p ++ r :: s ∧ i ∉ sighted s := by
  induction l using List.reverseRecOn with
  | nil => simp [lastOf]
  | append_singleton l r' ih =>
      rw [lastOf_append_singleton]
      simp only [append_singleton_eq_iff]
      by_cases hr' : r'.2.identity = i
      · rw [if_pos hr', Option.some.injEq]
        constructor
        · rintro rfl
          exact ⟨hr', l, [], .inl ⟨rfl, rfl, rfl⟩, List.not_mem_nil⟩
        · rintro ⟨hr, p, s, ⟨-, rfl, -⟩ | ⟨s', rfl, -⟩, hs⟩
          · rfl
          · rw [sighted_append, List.mem_append, not_or] at hs
            exact absurd (mem_sighted.2 ⟨r', List.mem_singleton_self _, hr'⟩) hs.2
      · rw [if_neg hr', ih]
        refine and_congr_right fun hr => ?_
        constructor
        · rintro ⟨p, s, rfl, hs⟩
          refine ⟨p, s ++ [r'], .inr ⟨s, rfl, rfl⟩, ?_⟩
          rw [sighted_append, List.mem_append, not_or]
          exact ⟨hs, fun hlast => hr' (List.mem_singleton.1 hlast).symm⟩
        · rintro ⟨p, s, ⟨-, rfl, -⟩ | ⟨s', rfl, hl⟩, hs⟩
          · exact absurd hr hr'
          · rw [sighted_append, List.mem_append, not_or] at hs
            exact ⟨p, s', hl, hs.1⟩

theorem heir_nil : heir models before [] j = j := rfl

theorem heir_of_digest (h : j.artifactDigest ≠ none) : heir models before after j = j := by
  rw [heir, List.find?_eq_none.2, Option.getD_none]
  intro i _ htakes
  exact h (of_decide_eq_true htakes).1

theorem heir_cons_of_takes (h : Takes models before i j) :
    heir models before (i :: after) j = i := by
  simp [heir, h]

theorem heir_cons_of_not_takes (h : ¬ Takes models before i j) :
    heir models before (i :: after) j = heir models (before ++ [i]) after j := by
  have hsame : ∀ i' : ModelIdentity, decide (Takes models before i' j) =
      decide (Takes models (before ++ [i]) i' j) := by
    intro i'
    rw [decide_eq_decide]
    by_cases hi : i' = i
    · subst hi
      exact iff_of_false h fun h' => h'.2.2.2.2 (List.mem_append_right _ (List.mem_singleton_self _))
    · simp [Takes, hi]
  rw [heir, heir, List.find?_cons]
  simp only [h, decide_false, hsame]

end Identities

/-! ### The rows -/

/-- The models after some reports. -/
def Models.sightings (now : Instant) (l : List Report) (models : Models) : Models :=
  l.foldl (fun models r => models.upsert r.2 now r.1) models

section Rows

variable {models : Models} {i j : ModelIdentity} {l : List Report} {r : Report} {now : Instant}
  {m : ModelId} {row : ModelRow}

theorem sightings_append (l₁ l₂ : List Report) :
    models.sightings now (l₁ ++ l₂) = (models.sightings now l₁).sightings now l₂ :=
  List.foldl_append

theorem sightings_singleton : models.sightings now [r] = models.upsert r.2 now r.1 := rfl

theorem find_upsert_self :
    (models.upsert r.2 now r.1).find r.2.identity =
      some (models.target r.2.identity,
        r.2.sighted now r.1 ((models.existing r.2.identity).map Prod.snd)) :=
  Indexed.find_eq_some_iff.2 ⟨(Models.lookup_upsert _).trans (if_pos rfl), rfl⟩

/-- **Any other identity** keeps its row, unless the report took it. -/
theorem find_upsert_of_ne (h : j ≠ r.2.identity) :
    (models.upsert r.2 now r.1).find j =
      if Takes models [] r.2.identity j then none else models.find j := by
  have hput : (models.upsert r.2 now r.1).find j =
      (models.find j).filter fun e => decide (e.1 ≠ models.target r.2.identity) := by
    rw [Models.upsert, Indexed.find_put]
    exact if_neg (Ne.symm h)
  rw [hput]
  cases hfind : models.find j with
  | none => simp
  | some e =>
      obtain ⟨m, row⟩ := e
      obtain ⟨hrow, hidentity⟩ := Indexed.find_eq_some_iff.1 hfind
      by_cases htarget : m = models.target r.2.identity
      · -- the report's row is found under another identity: it took the row
        rcases (Models.existing_eq_some_iff.1 (Models.existing_of_target hrow htarget.symm)).2 with
          hsame | ⟨hnone, hdigest, hname⟩
        · exact absurd (hidentity.symm.trans hsame) h
        · have htakes : Takes models [] r.2.identity j := by
            rw [← hidentity, hname]
            exact ⟨rfl, rfl, hdigest, hnone, List.not_mem_nil⟩
          simp [htarget, htakes]
      · have hnot : ¬ Takes models [] r.2.identity j := by
          rintro ⟨hdigest, hname, hnew, hnone, -⟩
          have hbare : row.identity = r.2.identity.nameOnly :=
            hidentity.trans (ModelIdentity.eq_iff.2 ⟨hname.symm, hdigest⟩)
          exact htarget (Models.target_of_existing
            (Models.existing_eq_some_iff.2 ⟨hrow, .inr ⟨hnone, hnew, hbare⟩⟩)).symm
        simp [htarget, hnot]

theorem find_sightings_eq_none_iff (hdigest : j.artifactDigest ≠ none) :
    (models.sightings now l).find j = none ↔ models.find j = none ∧ j ∉ sighted l := by
  induction l using List.reverseRecOn with
  | nil => simp [Models.sightings, sighted]
  | append_singleton l r ih =>
      rw [sightings_append, sightings_singleton, sighted_append, List.mem_append, not_or]
      by_cases hj : j = r.2.identity
      · subst hj
        rw [find_upsert_self]
        simp [sighted]
      · rw [find_upsert_of_ne hj, if_neg fun htakes => hdigest htakes.1, ih]
        simp [sighted, hj]

theorem takes_sightings_iff :
    Takes (models.sightings now l) [] i j ↔ Takes models (sighted l) i j := by
  rw [Takes, Takes]
  refine and_congr_right fun _ => and_congr_right fun _ => and_congr_right fun hdigest => ?_
  rw [find_sightings_eq_none_iff hdigest]
  simp

/-- **One report more.** -/
theorem find_sightings_append_singleton (h : j ≠ r.2.identity) :
    (models.sightings now (l ++ [r])).find j =
      if Takes models (sighted l) r.2.identity j then none
      else (models.sightings now l).find j := by
  rw [sightings_append, sightings_singleton, find_upsert_of_ne h]
  simp only [takes_sightings_iff]

theorem find_sightings_last :
    (models.sightings now (l ++ [r])).find r.2.identity =
      some ((models.sightings now l).target r.2.identity, r.2.sighted now r.1
        (((models.sightings now l).existing r.2.identity).map Prod.snd)) := by
  rw [sightings_append, sightings_singleton, find_upsert_self]

/-- **A row is found under its heir**, whatever is reported next. -/
theorem find_heir (l₁ l₂ : List Report) (h : (models.sightings now l₁).find j = some (m, row)) :
    ∃ row', (models.sightings now (l₁ ++ l₂)).find
      (heir models (sighted l₁) (sighted l₂) j) = some (m, row') := by
  induction l₂ generalizing l₁ j row with
  | nil =>
      rw [List.append_nil]
      exact ⟨row, h⟩
  | cons r l₂ ih =>
      have hsplit : l₁ ++ r :: l₂ = (l₁ ++ [r]) ++ l₂ := by simp
      have hnext : sighted (l₁ ++ [r]) = sighted l₁ ++ [r.2.identity] := sighted_append _ _
      have hcons : sighted (r :: l₂) = r.2.identity :: sighted l₂ := rfl
      rw [hsplit, hcons]
      by_cases htakes : Takes models (sighted l₁) r.2.identity j
      · obtain ⟨hdigest, hname, hnew, -, -⟩ := id htakes
        obtain ⟨hrow, hidentity⟩ := Indexed.find_eq_some_iff.1 h
        have htarget : (models.sightings now l₁).target r.2.identity = m :=
          Models.target_of_existing (Models.existing_eq_some_iff.2 ⟨hrow, .inr
            ⟨(takes_sightings_iff.2 htakes).2.2.2.1, hnew,
              hidentity.trans (ModelIdentity.eq_iff.2 ⟨hname.symm, hdigest⟩)⟩⟩)
        have hlast := @find_sightings_last models l₁ r now
        rw [htarget] at hlast
        obtain ⟨row', hrow'⟩ := ih _ hlast
        rw [heir_of_digest hnew] at hrow'
        rw [heir_cons_of_takes htakes]
        exact ⟨row', hrow'⟩
      · rw [heir_cons_of_not_takes htakes, ← hnext]
        by_cases hj : j = r.2.identity
        · have hlast := @find_sightings_last models l₁ r now
          obtain ⟨hrow, hidentity⟩ := Indexed.find_eq_some_iff.1 h
          have htarget : (models.sightings now l₁).target r.2.identity = m :=
            Models.target_of_existing
              (Models.existing_eq_some_iff.2 ⟨hrow, .inl (hidentity.trans hj)⟩)
          rw [htarget, ← hj] at hlast
          exact ih _ hlast
        · refine ih _ (?_ : _ = some (m, row))
          rw [find_sightings_append_singleton hj, if_neg htakes, h]

theorem find_sightings_of_none {l₁ l₂ : List Report} (h : (models.sightings now l₁).find j = none)
    (hj : j ∉ sighted l₂) : (models.sightings now (l₁ ++ l₂)).find j = none := by
  induction l₂ using List.reverseRecOn with
  | nil => rwa [List.append_nil]
  | append_singleton l₂ r ih =>
      rw [sighted_append, List.mem_append, not_or] at hj
      have hne : j ≠ r.2.identity := fun heq => hj.2 (heq ▸ List.mem_singleton_self _)
      rw [← List.append_assoc, find_sightings_append_singleton hne, ih hj.1, ite_self]

theorem find_sightings_of_taken {l₁ l₂ : List Report} (hj : j ∉ sighted l₂)
    (h : heir models (sighted l₁) (sighted l₂) j ≠ j) :
    (models.sightings now (l₁ ++ l₂)).find j = none := by
  induction l₂ generalizing l₁ with
  | nil => exact absurd heir_nil h
  | cons r l₂ ih =>
      have hsplit : l₁ ++ r :: l₂ = (l₁ ++ [r]) ++ l₂ := by simp
      have hnext : sighted (l₁ ++ [r]) = sighted l₁ ++ [r.2.identity] := sighted_append _ _
      obtain ⟨hne, hrest⟩ : j ≠ r.2.identity ∧ j ∉ sighted l₂ := by
        simpa [sighted] using hj
      rw [hsplit]
      by_cases htakes : Takes models (sighted l₁) r.2.identity j
      · refine find_sightings_of_none ?_ hrest
        rw [find_sightings_append_singleton hne, if_pos htakes]
      · refine ih hrest ?_
        rw [hnext, ← heir_cons_of_not_takes htakes]
        exact h

/-- **The last report of an identity is found under it** unless its row was taken. -/
theorem find_last_iff {p s : List Report} (hs : r.2.identity ∉ sighted s) :
    (models.sightings now (p ++ r :: s)).find r.2.identity ≠ none ↔
      heir models (sighted (p ++ [r])) (sighted s) r.2.identity = r.2.identity := by
  have hsplit : p ++ r :: s = (p ++ [r]) ++ s := by simp
  rw [hsplit]
  constructor
  · intro hfound
    by_contra htaken
    exact hfound (find_sightings_of_taken hs htaken)
  · intro hheir
    obtain ⟨row, hrow⟩ := find_heir _ s (@find_sightings_last models p r now)
    rw [hheir] at hrow
    rw [hrow]
    exact nofun

theorem row_of_reported (hfind : (models.sightings now l).find j = some (m, row))
    (hlast : lastOf l j = some r) : ∃ old, row = r.2.sighted now r.1 old := by
  induction l using List.reverseRecOn with
  | nil => cases hlast
  | append_singleton l r' ih =>
      rw [lastOf_append_singleton] at hlast
      by_cases hj : j = r'.2.identity
      · rw [if_pos hj.symm, Option.some.injEq] at hlast
        subst hlast
        rw [hj, find_sightings_last, Option.some.injEq, Prod.mk.injEq] at hfind
        exact ⟨_, hfind.2.symm⟩
      · rw [if_neg (Ne.symm hj)] at hlast
        rw [find_sightings_append_singleton hj] at hfind
        split at hfind
        · cases hfind
        · exact ih hfind hlast

theorem row_of_not_reported (hfind : (models.sightings now l).find j = some (m, row))
    (hj : j ∉ sighted l) : models.find j = some (m, row) := by
  induction l using List.reverseRecOn with
  | nil => exact hfind
  | append_singleton l r ih =>
      rw [sighted_append, List.mem_append, not_or] at hj
      have hne : j ≠ r.2.identity := fun heq => hj.2 (heq ▸ List.mem_singleton_self _)
      rw [find_sightings_append_singleton hne] at hfind
      split at hfind
      · cases hfind
      · exact ih hfind hj.1

/-! ### Reports of models that have a row -/

/-- A row after reports that found it. -/
def ModelRow.resighted (now : Instant) (l : List Report) (row : ModelRow) : ModelRow :=
  match lastOf l row.identity with
  | none => row
  | some r => r.2.sighted now r.1 (some row)

theorem ModelRow.resighted_of_none (h : lastOf l row.identity = none) :
    row.resighted now l = row := by
  rw [ModelRow.resighted, h]

theorem ModelRow.resighted_of_some (h : lastOf l row.identity = some r) :
    row.resighted now l = r.2.sighted now r.1 (some row) := by
  rw [ModelRow.resighted, h]

theorem ModelRow.resighted_kept (now : Instant) (l : List Report) (row : ModelRow) :
    (row.resighted now l).identity = row.identity ∧
      (row.resighted now l).firstSeenAt = row.firstSeenAt ∧
      (row.resighted now l).enabled = row.enabled := by
  cases h : lastOf l row.identity with
  | none =>
      rw [ModelRow.resighted_of_none h]
      exact ⟨rfl, rfl, rfl⟩
  | some r =>
      rw [ModelRow.resighted_of_some h]
      exact ⟨(lastOf_eq_some_iff.1 h).1, rfl, rfl⟩

/-- **Where every reported identity has a row**, the reports rewrite these rows and no other. -/
theorem lookup_sightings_of_found (h : ∀ i ∈ sighted l, models.find i ≠ none) (m : ModelId) :
    (models.sightings now l).rows.lookup m =
      (models.rows.lookup m).map (ModelRow.resighted now l) := by
  induction l using List.reverseRecOn generalizing m with
  | nil =>
      have hid : (ModelRow.resighted now [] : ModelRow → ModelRow) = id := by
        funext row
        exact ModelRow.resighted_of_none rfl
      rw [hid, Option.map_id]
      rfl
  | append_singleton l r ih =>
      simp only [sighted_append, List.mem_append] at h
      have hbefore := ih fun i hi => h i (.inl hi)
      obtain ⟨⟨m₀, row₀⟩, hfind⟩ :=
        Option.ne_none_iff_exists'.1 (h r.2.identity (.inr (List.mem_singleton_self _)))
      obtain ⟨hrow₀, hidentity₀⟩ := Indexed.find_eq_some_iff.1 hfind
      have hexisting : (models.sightings now l).existing r.2.identity =
          some (m₀, row₀.resighted now l) := by
        refine Models.existing_eq_some_iff.2 ⟨?_, .inl ?_⟩
        · rw [hbefore, hrow₀, Option.map_some]
        · rw [(ModelRow.resighted_kept now l row₀).1, hidentity₀]
      rw [sightings_append, sightings_singleton, Models.lookup_upsert,
        Models.target_of_existing hexisting, hexisting]
      by_cases hm : m = m₀
      · have hlast : lastOf (l ++ [r]) row₀.identity = some r := by
          rw [lastOf_append_singleton, if_pos hidentity₀.symm]
        obtain ⟨-, hfirst, henabled⟩ := ModelRow.resighted_kept now l row₀
        rw [if_pos hm, hm, hrow₀, Option.map_some, Option.map_some,
          ModelRow.resighted_of_some hlast]
        simp only [ModelDescriptor.sighted, Option.map_some, Option.getD_some, hfirst, henabled]
      · rw [if_neg hm, hbefore]
        cases hrow : models.rows.lookup m with
        | none => rfl
        | some row =>
            have hne : r.2.identity ≠ row.identity := fun hsame =>
              hm (models.unique hrow hrow₀ (hsame.symm.trans hidentity₀.symm))
            rw [Option.map_some, Option.map_some, ModelRow.resighted, ModelRow.resighted,
              lastOf_append_singleton, if_neg hne]

theorem find_sightings_of_found (h : ∀ i ∈ sighted l, models.find i ≠ none) :
    (models.sightings now l).find j =
      (models.find j).map fun e => (e.1, e.2.resighted now l) := by
  have hlookup := @lookup_sightings_of_found models l now h
  cases hfind : models.find j with
  | some e =>
      obtain ⟨hrow, hidentity⟩ := Indexed.find_eq_some_iff.1 hfind
      refine Indexed.find_eq_some_iff.2 ⟨?_, (ModelRow.resighted_kept now l e.2).1.trans hidentity⟩
      rw [hlookup, hrow, Option.map_some]
  | none =>
      refine Indexed.find_eq_none_iff.2 fun m row hrow hidentity => ?_
      rw [hlookup, Option.map_eq_some_iff] at hrow
      obtain ⟨row, hrow, rfl⟩ := hrow
      rw [(ModelRow.resighted_kept now l row).1] at hidentity
      exact Indexed.find_eq_none_iff.1 hfind m row hrow hidentity

end Rows

/-! ### The declared capabilities -/

/-- Some report declares a capability on a row. -/
def Declares (models : Models) (now : Instant) (l : List Report) (m : ModelId)
    (capabilityId : String) : Prop :=
  ∃ p r s, l = p ++ r :: s ∧ (models.sightings now p).target r.2.identity = m ∧
    capabilityId ∈ declaredIds r.2

section Capabilities

variable {l : List Report} {now : Instant} {st : Recording} {m : ModelId} {capabilityId : String}
  {source : SignalSource}

theorem models_recordReports :
    (l.foldl (recordReport now) st).registry.models = st.registry.models.sightings now l := by
  induction l generalizing st with
  | nil => rfl
  | cons r l ih =>
      rw [List.foldl_cons, ih]
      rfl

/-- **The capability rows the reports leave**: those some report declared, and the others as they
were. -/
theorem lookup_capabilities_recorded :
    (l.foldl (recordReport now) st).registry.capabilities.lookup (m, capabilityId, source) =
      open Classical in
      if source = .declared ∧ Declares st.registry.models now l m capabilityId then
        some { score := some 1, confidence := 1 / 2, updatedAt := now }
      else st.registry.capabilities.lookup (m, capabilityId, source) := by
  classical
  induction l using List.reverseRecOn with
  | nil =>
      rw [if_neg]
      · rfl
      · rintro ⟨-, p, r, s, hl, -⟩
        simp at hl
  | append_singleton l r ih =>
      have hstep : (st.registry.models.sightings now l).target r.2.identity =
          (l.foldl (recordReport now) st).registry.models.target r.2.identity := by
        rw [models_recordReports]
      have hdeclares : Declares st.registry.models now (l ++ [r]) m capabilityId ↔
          Declares st.registry.models now l m capabilityId ∨
            (st.registry.models.sightings now l).target r.2.identity = m ∧
              capabilityId ∈ declaredIds r.2 := by
        constructor
        · rintro ⟨p, r', s, hl, hdeclared⟩
          rcases append_singleton_eq_iff.1 hl with ⟨rfl, rfl, -⟩ | ⟨s', -, rfl⟩
          · exact .inr hdeclared
          · exact .inl ⟨p, r', s', rfl, hdeclared⟩
        · rintro (⟨p, r', s, rfl, hdeclared⟩ | hdeclared)
          · exact ⟨p, r', s ++ [r], by simp, hdeclared⟩
          · exact ⟨l, r, [], rfl, hdeclared⟩
      rw [List.foldl_append, List.foldl_cons, List.foldl_nil, hdeclares]
      simp only [recordReport, ModelRegistry.record]
      rw [lookup_syncDeclaredCapabilities, ← hstep, ih]
      by_cases hsource : source = .declared
      · by_cases hearlier : Declares st.registry.models now l m capabilityId
        · simp [hsource, hearlier]
        · simp [hsource, hearlier, eq_comm]
      · simp [hsource]

theorem declares_iff {models : Models} {i : ModelIdentity} {row : ModelRow}
    (hfind : (models.sightings now l).find i = some (m, row)) :
    Declares models now l m capabilityId ↔ ∃ p r s, l = p ++ r :: s ∧
      heir models (sighted (p ++ [r])) (sighted s) r.2.identity = i ∧
        capabilityId ∈ declaredIds r.2 := by
  refine exists_congr fun p => exists_congr fun r => exists_congr fun s =>
    and_congr_right fun hl => and_congr_left fun _ => ?_
  have hsplit : l = (p ++ [r]) ++ s := by simp [hl]
  obtain ⟨row', hrow'⟩ := find_heir _ s (@find_sightings_last models p r now)
  rw [← hsplit] at hrow'
  constructor
  · rintro rfl
    obtain ⟨hrow, hidentity⟩ := Indexed.find_eq_some_iff.1 hfind
    obtain ⟨hrow', hidentity'⟩ := Indexed.find_eq_some_iff.1 hrow'
    rw [hrow, Option.some.injEq] at hrow'
    rw [← hidentity, ← hidentity', hrow']
  · intro hheir
    rw [hheir, hfind, Option.some.injEq, Prod.mk.injEq] at hrow'
    exact hrow'.1.symm

/-- Where every reported identity has a row, a report declares on that row. -/
theorem declares_iff_of_found {models : Models} (h : ∀ i ∈ sighted l, models.find i ≠ none) :
    Declares models now l m capabilityId ↔ ∃ r ∈ l,
      (∃ row, models.find r.2.identity = some (m, row)) ∧ capabilityId ∈ declaredIds r.2 := by
  have htarget : ∀ p r s, l = p ++ r :: s →
      ((models.sightings now p).target r.2.identity = m ↔
        ∃ row, models.find r.2.identity = some (m, row)) := by
    rintro p r s rfl
    simp only [sighted_append, List.mem_append] at h
    obtain ⟨⟨m', row⟩, hrow⟩ :=
      Option.ne_none_iff_exists'.1 (h r.2.identity (.inr List.mem_cons_self))
    have hfound := @find_sightings_of_found models r.2.identity p now fun i hi => h i (.inl hi)
    rw [hrow, Option.map_some] at hfound
    obtain ⟨hlookup, hidentity⟩ := Indexed.find_eq_some_iff.1 hfound
    rw [Models.target_of_existing (Models.existing_eq_some_iff.2 ⟨hlookup, .inl hidentity⟩), hrow]
    simp
  constructor
  · rintro ⟨p, r, s, hl, hm, hdeclared⟩
    exact ⟨r, hl ▸ List.mem_append_right _ List.mem_cons_self, (htarget p r s hl).1 hm, hdeclared⟩
  · rintro ⟨r, hr, hrow, hdeclared⟩
    obtain ⟨p, s, hl⟩ := List.append_of_mem hr
    exact ⟨p, r, s, hl, (htarget p r s hl).2 hrow, hdeclared⟩

end Capabilities

end LoadCoach.Registry

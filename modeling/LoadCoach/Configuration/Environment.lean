import LoadCoach.Configuration.Layering

/-! # The environment, as layers

Each variable of the application sets one path, over the variables before it; `LOADCOACH_LOG_LEVEL`
sets `logging.level` below all of them, where none sets it.

`exists_readEnv_iff`: the variables can be nested where none stands above a later one, and where no
text under `logging` is in the alias's way.  `reach_readEnv`: what is then nested says of every path
what the last of the layers says that is not silent. -/

namespace LoadCoach.Configuration.Layering

open Foundations
open Foundations.Json

section Environment

variable {python : Python} {environ : List (String × String)} {env nested : Json} {p : Path}

/-- What the environment sets, in order. -/
def envAssignments (python : Python) (environ : List (String × String)) : List (Path × Json) :=
  match logLevel environ with
  | none => assignments python environ
  | some level =>
      if (assignments python environ).any fun entry =>
          ["logging", "level"].isPrefixOf entry.1 then assignments python environ
      else (["logging", "level"], .str level) :: assignments python environ

/-- The variables, as layers. -/
def variableLayers (python : Python) (environ : List (String × String)) : List (Origin × Json) :=
  singles .env (assignments python environ)

/-- The environment, as layers. -/
def envLayers (python : Python) (environ : List (String × String)) : List (Origin × Json) :=
  singles .env (envAssignments python environ)

/-- No variable stands above a later one, and a text under `logging` names the level where the alias
is set. -/
def EnvReadable (python : Python) (environ : List (String × String)) : Prop :=
  (assignments python environ).Pairwise (fun a b => ¬ Above a.1 b.1) ∧
    (logLevel environ ≠ none →
      ∀ value, highest ["logging"] (variableLayers python environ) = some (.env, value) →
        isTable (some value) = false → contains "level" value = .ok true)

/-! ### The loop over the variables -/

theorem splitUnderscores_ne_nil (s : List Char) : splitUnderscores s ≠ [] := by
  fun_cases splitUnderscores s <;> simp_all

theorem pathOf_ne_nil (suffix : String) : pathOf python suffix ≠ [] := by
  simpa [pathOf] using splitUnderscores_ne_nil _

theorem of_mem_assignments {entry : Path × Json} (h : entry ∈ assignments python environ) :
    entry.1 ≠ [] ∧ isTable (some entry.2) = false := by
  obtain ⟨item, -, hitem⟩ := List.mem_filterMap.1 h
  rw [assignmentOf] at hitem
  split at hitem
  · split at hitem
    · cases hitem
    · cases hitem
      exact ⟨pathOf_ne_nil _, rfl⟩
  · cases hitem

theorem assignments_values :
    ∀ entry ∈ assignments python environ, isTable (some entry.2) = false :=
  fun _ h => (of_mem_assignments h).2

theorem foldlM_assignOrRaise (entries : List (Path × Json)) (document : Json) :
    (entries.foldlM (fun nested entry => assignOrRaise entry.1 entry.2 nested) document) =
      match assignAll entries document with
      | some result => .ok result
      | none => .error .unexpected := by
  induction entries generalizing document with
  | nil => rfl
  | cons entry entries ih =>
      rw [List.foldlM_cons, assignAll, List.foldlM_cons, assignOrRaise]
      cases assign entry.1 entry.2 document with
      | none => rfl
      | some between => exact ih between

theorem readEnv_eq : readEnv python environ =
    match assignAll (assignments python environ) (.obj []) with
    | some nested => aliasLogLevel environ nested
    | none => .error .unexpected := by
  rw [readEnv, foldlM_assignOrRaise]
  cases assignAll (assignments python environ) (.obj []) <;> rfl

theorem exists_members_of_assign {path : Path} {value document result : Json} (hpath : path ≠ [])
    (h : assign path value document = some result) : ∃ members, result = .obj members := by
  cases path with
  | nil => exact absurd rfl hpath
  | cons key path =>
      cases document with
      | obj members =>
          obtain ⟨child, -, rfl⟩ := Option.map_eq_some_iff.1 h
          exact ⟨_, rfl⟩
      | _ => cases h

theorem exists_members_of_assignAll {entries : List (Path × Json)} {members : Members}
    (hpaths : ∀ entry ∈ entries, entry.1 ≠ [])
    (h : assignAll entries (.obj members) = some nested) : ∃ members, nested = .obj members := by
  induction entries generalizing members with
  | nil => exact ⟨members, (Option.some.inj h).symm⟩
  | cons entry entries ih =>
      obtain ⟨hpath, hpaths⟩ := List.forall_mem_cons.1 hpaths
      rw [assignAll, List.foldlM_cons, Option.bind_eq_bind, Option.bind_eq_some_iff] at h
      obtain ⟨between, hentry, hrest⟩ := h
      obtain ⟨members', rfl⟩ := exists_members_of_assign hpath hentry
      exact ih hpaths hrest

/-- A mapping that says of every path what the layers say. -/
structure Nested (layers : List (Origin × Json)) (nested : Json) : Prop where
  table : ∃ members, nested = .obj members
  keyed : Keyed nested
  reach : ∀ p, p ≠ [] → reach p nested = lastSpeaking p layers

theorem nested_of_assignAll (h : assignAll (assignments python environ) (.obj []) = some nested) :
    Nested (variableLayers python environ) nested where
  table := exists_members_of_assignAll (fun _ hentry => (of_mem_assignments hentry).1) h
  keyed := Keyed.assignAll assignments_values .empty h
  reach p hp := by
    rw [reach_assignAll Origin.env assignments_values h]
    obtain hsilent | hnil := reach_empty p
    · rw [hsilent, Reach.silent_under]
      rfl
    · exact absurd hnil hp

/-! ### A member of a section -/

variable {leaf : Leaf} {value : Json}

theorem holds_of_found (h : reach [leaf.sectionName, leaf.fieldName] nested = .found value) :
    holds leaf nested = .ok true := by
  cases nested with
  | obj members =>
      rw [holds, get?]
      cases hsection : member? leaf.sectionName members with
      | none => cases (reach_cons_none hsection).symm.trans h
      | some fields =>
          rw [reach_cons_some hsection] at h
          cases fields with
          | obj fields =>
              cases hfield : member? leaf.fieldName fields with
              | none => cases (reach_cons_none hfield).symm.trans h
              | some value => simp [contains, hfield]
          | _ => cases h
  | _ => cases h

theorem holds_of_silent (h : reach [leaf.sectionName, leaf.fieldName] nested = .silent) :
    holds leaf nested = .ok false := by
  cases nested with
  | obj members =>
      rw [holds, get?]
      cases hsection : member? leaf.sectionName members with
      | none => rfl
      | some fields =>
          rw [reach_cons_some hsection] at h
          cases fields with
          | obj fields =>
              cases hfield : member? leaf.fieldName fields with
              | none => simp [contains, hfield]
              | some value => cases (reach_cons_some hfield).symm.trans h
          | _ => cases h
  | _ => cases h

/-- Where the section is no table, `in` is asked of what stands there. -/
theorem holds_of_blocked {members : Members}
    (h : reach [leaf.sectionName, leaf.fieldName] (.obj members) = .blocked) :
    ∃ value, reach [leaf.sectionName] (.obj members) = .found value ∧
      isTable (some value) = false ∧ holds leaf (.obj members) = contains leaf.fieldName value := by
  rw [holds, get?]
  cases hsection : member? leaf.sectionName members with
  | none => cases (reach_cons_none hsection).symm.trans h
  | some fields =>
      rw [reach_cons_some hsection] at h ⊢
      cases fields with
      | obj fields => cases hfield : member? leaf.fieldName fields <;> simp [reach, hfield] at h
      | _ => exact ⟨_, rfl, rfl, rfl⟩

theorem reach_key_ne_blocked (key : String) (members : Members) :
    reach [key] (.obj members) ≠ .blocked := by
  cases hmember : member? key members with
  | none => rw [reach_cons_none hmember]; nofun
  | some value => rw [reach_cons_some hmember]; nofun

theorem table_of_not_blocked {key : String} {q : Path} (h : reach (key :: q) nested ≠ .blocked)
    (hq : q ≠ []) (hvalue : reach [key] nested = .found value) : value = .obj [] := by
  cases nested with
  | obj members =>
      cases hmember : member? key members with
      | none => cases (reach_cons_none hmember).symm.trans hvalue
      | some below =>
          rw [reach_cons_some hmember] at h hvalue
          obtain rfl := Reach.found.inj hvalue
          cases below with
          | obj members => rfl
          | _ =>
              cases q with
              | nil => exact absurd rfl hq
              | cons field q => exact absurd rfl h
  | _ => cases hvalue

/-- A section is not hidden: no variable stands above it. -/
theorem not_hidden_section {entries : List (Path × Json)}
    (hentries : ∀ entry ∈ entries, entry.1 ≠ [] ∧ isTable (some entry.2) = false) (key : String) :
    ¬ Hidden [key] (singles Origin.env entries) := by
  rintro ⟨below, above, hsplit, -, -, layer, hlayer, hblocked⟩
  have hmem : layer ∈ singles Origin.env entries := by
    rw [hsplit]
    exact List.mem_append_right _ hlayer
  obtain ⟨entry, hentry, rfl⟩ := List.mem_map.1 hmem
  obtain ⟨hpath, hvalue⟩ := hentries entry hentry
  obtain ⟨hstart, hne⟩ := (reach_single_eq_blocked_iff hvalue).1 hblocked
  have hlength := hstart.length_le
  have hsame : entry.1.length = [key].length := by
    have hpositive := List.length_pos_iff.2 hpath
    simp only [List.length_cons, List.length_nil] at hlength ⊢
    omega
  exact hne (hstart.eq_of_length hsame)

/-! ### The alias -/

theorem seen_reach_section (hnested : Nested (variableLayers python environ) nested)
    (key : String) : (reach [key] nested).seen =
      (highest [key] (variableLayers python environ)).map Prod.snd := by
  rw [hnested.reach _ (by simp)]
  exact seen_lastSpeaking_iff.2 (not_hidden_section (fun _ => of_mem_assignments) key)

/-- The path of the alias. -/
def aliasLeaf : Leaf := ⟨"logging", "level"⟩

theorem aliasLogLevel_eq {level : String} (hlevel : logLevel environ = some level) :
    aliasLogLevel environ nested = (do
      if ← holds aliasLeaf nested then return nested
      else assignOrRaise ["logging", "level"] (.str level) nested) := by
  rw [aliasLogLevel, hlevel, holds, aliasLeaf]
  cases get? "logging" nested <;> rfl

theorem aliasLogLevel_of_found {level : String} (hlevel : logLevel environ = some level)
    (h : reach ["logging", "level"] nested = .found value) :
    aliasLogLevel environ nested = .ok nested := by
  have hholds : holds aliasLeaf nested = .ok true := holds_of_found h
  rw [aliasLogLevel_eq hlevel, hholds]
  rfl

theorem aliasLogLevel_of_silent {level : String} (hlevel : logLevel environ = some level)
    (h : reach ["logging", "level"] nested = .silent) :
    ∃ env, assign ["logging", "level"] (.str level) nested = some env ∧
      aliasLogLevel environ nested = .ok env := by
  have hassign : assign ["logging", "level"] (.str level) nested ≠ none := by
    simp [assign_eq_none_iff, h]
  obtain ⟨env, henv⟩ := Option.ne_none_iff_exists'.1 hassign
  have hholds : holds aliasLeaf nested = .ok false := holds_of_silent h
  rw [aliasLogLevel_eq hlevel, hholds, ok_bind, assignOrRaise, henv]
  exact ⟨env, rfl, rfl⟩

/-- Under a value that is no table nothing can be assigned; the alias goes through only where the
value answers that it holds a level. -/
theorem aliasLogLevel_of_blocked {level : String} {members : Members}
    (hlevel : logLevel environ = some level)
    (h : reach ["logging", "level"] (.obj members) = .blocked) :
    ∃ value, reach ["logging"] (.obj members) = .found value ∧ isTable (some value) = false ∧
      ∀ env, aliasLogLevel environ (.obj members) = .ok env ↔
        contains "level" value = .ok true ∧ env = .obj members := by
  have hnone : assign ["logging", "level"] (.str level) (.obj members) = none :=
    assign_eq_none_iff.2 h
  obtain ⟨value, hvalue, hleaf, hholds⟩ := @holds_of_blocked aliasLeaf members h
  refine ⟨value, hvalue, hleaf, fun env => ?_⟩
  rw [aliasLogLevel_eq hlevel, hholds, assignOrRaise, hnone, aliasLeaf]
  cases contains "level" value with
  | error error => simp [bind, Except.bind]
  | ok b =>
      cases b with
      | false => simp
      | true => simp [pure, Except.pure, eq_comm]

theorem highest_of_found {key : String} (hnested : Nested (variableLayers python environ) nested)
    (h : reach [key] nested = .found value) :
    highest [key] (variableLayers python environ) = some (.env, value) := by
  have hsection := seen_reach_section hnested key
  rw [h] at hsection
  obtain ⟨⟨origin, v⟩, hhighest, rfl⟩ := Option.map_eq_some_iff.1 hsection.symm
  obtain rfl : origin = .env := origin_of_highest_singles hhighest
  exact hhighest

theorem isTable_of_highest {key field : String}
    (hnested : Nested (variableLayers python environ) nested)
    (hfree : reach [key, field] nested ≠ .blocked)
    (hset : highest [key] (variableLayers python environ) = some (.env, value)) :
    isTable (some value) = true := by
  have hsection := seen_reach_section hnested key
  rw [hset] at hsection
  cases hreach : reach [key] nested with
  | found v =>
      obtain rfl := table_of_not_blocked hfree (by simp) hreach
      rw [hreach] at hsection
      obtain rfl := Option.some.inj hsection
      rfl
  | _ => simp [hreach, Reach.seen] at hsection

theorem exists_aliasLogLevel_iff (hnested : Nested (variableLayers python environ) nested) :
    (∃ env, aliasLogLevel environ nested = .ok env) ↔
      (logLevel environ ≠ none →
        ∀ value, highest ["logging"] (variableLayers python environ) = some (.env, value) →
          isTable (some value) = false → contains "level" value = .ok true) := by
  cases hlevel : logLevel environ with
  | none =>
      rw [aliasLogLevel, hlevel]
      exact iff_of_true ⟨_, rfl⟩ fun h => absurd rfl h
  | some level =>
      simp only [ne_eq, reduceCtorEq, not_false_eq_true, forall_const]
      cases hreach : reach ["logging", "level"] nested with
      | found v =>
          have hfree : reach ["logging", "level"] nested ≠ .blocked := by simp [hreach]
          refine iff_of_true ⟨nested, aliasLogLevel_of_found hlevel hreach⟩ fun value hset hleaf => ?_
          cases hleaf.symm.trans (isTable_of_highest hnested hfree hset)
      | silent =>
          obtain ⟨env, -, henv⟩ := aliasLogLevel_of_silent hlevel hreach
          have hfree : reach ["logging", "level"] nested ≠ .blocked := by simp [hreach]
          refine iff_of_true ⟨env, henv⟩ fun value hset hleaf => ?_
          cases hleaf.symm.trans (isTable_of_highest hnested hfree hset)
      | blocked =>
          obtain ⟨members, rfl⟩ := hnested.table
          obtain ⟨value, hvalue, hleaf, halias⟩ := aliasLogLevel_of_blocked hlevel hreach
          have hset := highest_of_found hnested hvalue
          constructor
          · rintro ⟨env, henv⟩ other hother -
            obtain rfl : value = other := by simpa [hset] using hother
            exact ((halias env).1 henv).1
          · exact fun h => ⟨_, (halias _).2 ⟨h value hset hleaf, rfl⟩⟩

/-- **The environment can be read** exactly where it is readable. -/
theorem exists_readEnv_iff :
    (∃ env, readEnv python environ = .ok env) ↔ EnvReadable python environ := by
  rw [readEnv_eq, EnvReadable, ← assignAll_isSome_iff assignments_values]
  cases hnested : assignAll (assignments python environ) (.obj []) with
  | none => simp
  | some nested =>
      rw [exists_aliasLogLevel_iff (nested_of_assignAll hnested)]
      simp

theorem prefix_of_ne_nil {a b : String} (hp : p ≠ []) (h : p <+: [a, b]) : p = [a] ∨ p = [a, b] := by
  match p, hp, h with
  | [c], _, h =>
      obtain ⟨rfl, -⟩ := List.cons_prefix_cons.1 h
      exact .inl rfl
  | c :: d :: p, _, h =>
      obtain ⟨rfl, h'⟩ := List.cons_prefix_cons.1 h
      obtain ⟨rfl, h''⟩ := List.cons_prefix_cons.1 h'
      obtain rfl := List.prefix_nil.1 h''
      exact .inr rfl

theorem any_alias_iff : ((assignments python environ).any fun entry =>
      ["logging", "level"].isPrefixOf entry.1) = true ↔
    highest ["logging", "level"] (variableLayers python environ) ≠ none := by
  rw [Ne, highest_eq_none_iff, List.any_eq_true, variableLayers, singles]
  simp only [List.forall_mem_map, not_forall, List.isPrefixOf_iff_prefix]
  constructor
  · rintro ⟨entry, hentry, hstart⟩
    exact ⟨entry, hentry, (seen_reach_single_iff (assignments_values entry hentry)).2 hstart⟩
  · rintro ⟨entry, hentry, hseen⟩
    exact ⟨entry, hentry, (seen_reach_single_iff (assignments_values entry hentry)).1 hseen⟩

theorem eq_of_reach_alias {level : String} (hp : p ≠ [])
    (h : reach p (single ["logging", "level"] (.str level)) = .found value) :
    p = ["logging"] ∧ value = .obj [] ∨ p = ["logging", "level"] := by
  have hseen : (reach p (single ["logging", "level"] (.str level))).seen ≠ none := by
    simp [h, Reach.seen]
  obtain rfl | rfl := prefix_of_ne_nil hp ((seen_reach_single_iff rfl).1 hseen)
  · have htable : reach ["logging"] (single ["logging", "level"] (.str level)) =
        .found (.obj []) := rfl
    exact .inl ⟨rfl, (Reach.found.inj (htable.symm.trans h)).symm⟩
  · exact .inr rfl

/-- The alias below the variables, where it changes nothing: each path it speaks of is spoken of by
them too. -/
theorem alias_under_of_blocked {level : String} (hnested : Nested (variableLayers python environ) nested)
    (hblocked : reach ["logging", "level"] nested = .blocked) (hp : p ≠ []) :
    (reach p (single ["logging", "level"] (.str level))).under (reach p nested) = reach p nested := by
  cases halias : reach p (single ["logging", "level"] (.str level)) with
  | silent => exact Reach.silent_under _
  | found value =>
      obtain ⟨rfl, -⟩ | rfl := eq_of_reach_alias hp halias
      · obtain ⟨members, rfl⟩ := hnested.table
        obtain ⟨value', hvalue, -⟩ := @holds_of_blocked aliasLeaf members hblocked
        have hvalue' : reach ["logging"] (.obj members) = .found value' := hvalue
        rw [hvalue']
        rfl
      · rw [hblocked]
        rfl
  | blocked =>
      obtain ⟨⟨q, rfl⟩, -⟩ := (reach_single_eq_blocked_iff rfl).1 halias
      rw [reach_append_of_blocked hblocked]
      rfl

theorem under_alias_of_silent {level : String} (hnested : Nested (variableLayers python environ) nested)
    (hsilent : reach ["logging", "level"] nested = .silent) (hp : p ≠ []) :
    (reach p nested).under (reach p (single ["logging", "level"] (.str level))) =
      (reach p (single ["logging", "level"] (.str level))).under (reach p nested) := by
  cases halias : reach p (single ["logging", "level"] (.str level)) with
  | silent => exact (Reach.silent_under _).symm
  | found value =>
      obtain ⟨rfl, rfl⟩ | rfl := eq_of_reach_alias hp halias
      · cases hreach : reach ["logging"] nested with
        | silent => rfl
        | blocked =>
            obtain ⟨members, rfl⟩ := hnested.table
            exact absurd hreach (reach_key_ne_blocked _ _)
        | found v =>
            have hfree : reach ["logging", "level"] nested ≠ .blocked := by simp [hsilent]
            obtain rfl := table_of_not_blocked hfree (by simp) hreach
            rfl
      · rw [hsilent]
        rfl
  | blocked =>
      obtain ⟨⟨q, rfl⟩, -⟩ := (reach_single_eq_blocked_iff rfl).1 halias
      rw [reach_append_of_silent hsilent]
      rfl

theorem envLayers_of_alias {level : String} (hlevel : logLevel environ = some level)
    (hunset : highest ["logging", "level"] (variableLayers python environ) = none) :
    envLayers python environ =
      (.env, single ["logging", "level"] (.str level)) :: variableLayers python environ := by
  have hany : ¬ ((assignments python environ).any fun entry =>
      ["logging", "level"].isPrefixOf entry.1) = true := by
    rw [any_alias_iff, hunset]
    exact fun h => h rfl
  rw [envLayers, envAssignments, hlevel]
  dsimp only
  rw [if_neg hany]
  rfl

theorem envLayers_of_set
    (h : logLevel environ = none ∨
      highest ["logging", "level"] (variableLayers python environ) ≠ none) :
    envLayers python environ = variableLayers python environ := by
  rw [envLayers, envAssignments]
  cases hlevel : logLevel environ with
  | none => rfl
  | some level =>
      obtain h | h := h
      · cases hlevel.symm.trans h
      · dsimp only
        rw [if_pos (any_alias_iff.2 h)]
        rfl

theorem nested_of_aliasLogLevel (hnested : Nested (variableLayers python environ) nested)
    (h : aliasLogLevel environ nested = .ok env) : Nested (envLayers python environ) env := by
  cases hlevel : logLevel environ with
  | none =>
      rw [aliasLogLevel, hlevel] at h
      obtain rfl := Except.ok.inj h
      rw [envLayers_of_set (.inl hlevel)]
      exact hnested
  | some level =>
      have hspoken := hnested.reach ["logging", "level"] (by simp)
      cases hreach : reach ["logging", "level"] nested with
      | found value =>
          obtain rfl := Except.ok.inj ((aliasLogLevel_of_found hlevel hreach).symm.trans h)
          obtain ⟨layer, -, hset⟩ := highest_of_lastSpeaking_found (hspoken.symm.trans hreach)
          rw [envLayers_of_set (.inr (by simp [hset]))]
          exact hnested
      | silent =>
          obtain ⟨result, hassign, hresult⟩ := aliasLogLevel_of_silent hlevel hreach
          obtain rfl := Except.ok.inj (hresult.symm.trans h)
          have hunset := highest_eq_none_of_lastSpeaking_silent (hspoken.symm.trans hreach)
          rw [envLayers_of_alias hlevel hunset]
          refine ⟨exists_members_of_assign (by simp) hassign,
            hnested.keyed.assign (.leaf rfl) hassign, fun p hp => ?_⟩
          rw [reach_assign rfl hassign, under_alias_of_silent hnested hreach hp,
            lastSpeaking_cons, hnested.reach p hp]
      | blocked =>
          obtain ⟨members, rfl⟩ := hnested.table
          obtain ⟨value, -, -, halias⟩ := aliasLogLevel_of_blocked hlevel hreach
          obtain rfl := ((halias env).1 h).2
          by_cases hunset : highest ["logging", "level"] (variableLayers python environ) = none
          · rw [envLayers_of_alias hlevel hunset]
            refine ⟨hnested.table, hnested.keyed, fun p hp => ?_⟩
            rw [lastSpeaking_cons, ← hnested.reach p hp, alias_under_of_blocked hnested hreach hp]
          · rw [envLayers_of_set (.inr hunset)]
            exact hnested

/-- **What is nested says of every path what the layers of the environment say.** -/
theorem nested_of_readEnv (h : readEnv python environ = .ok env) :
    Nested (envLayers python environ) env := by
  rw [readEnv_eq] at h
  cases hnested : assignAll (assignments python environ) (.obj []) with
  | none => simp [hnested] at h
  | some nested =>
      rw [hnested] at h
      exact nested_of_aliasLogLevel (nested_of_assignAll hnested) h

end Environment

end LoadCoach.Configuration.Layering
